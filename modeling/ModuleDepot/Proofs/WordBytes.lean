import Mathlib.Algebra.GroupWithZero.Nat
import ModuleDepot.Bytes.Word

/-!
Bytes that stand at a place of an array, and the words that are read there.
-/

namespace ModuleDepot.Bytes

variable {data : ByteArray} {pos : Nat} {part before after : List UInt8}

/-- The bytes stand in the array from the place on. -/
def Stands (data : ByteArray) (pos : Nat) (part : List UInt8) : Prop :=
  ∃ before after, data.data.toList = before ++ part ++ after ∧ before.length = pos

theorem stands_of_listed (listed : data.data.toList = part) : Stands data 0 part :=
  ⟨[], [], by rw [listed, List.nil_append, List.append_nil], rfl⟩

theorem size_of_listed (listed : data.data.toList = part) : data.size = part.length := by
  rw [← listed, Array.length_toList, ByteArray.size_data]

theorem Stands.left (stands : Stands data pos (before ++ after)) : Stands data pos before := by
  obtain ⟨front, back, whole, place⟩ := stands
  exact ⟨front, after ++ back, by simp [whole], place⟩

theorem Stands.right (stands : Stands data pos (before ++ after)) :
    Stands data (pos + before.length) after := by
  obtain ⟨front, back, whole, place⟩ := stands
  exact ⟨front ++ before, back, by simp [whole], by simp [place]⟩

theorem Stands.size_le (stands : Stands data pos part) : pos + part.length ≤ data.size := by
  obtain ⟨front, back, whole, place⟩ := stands
  have size := congrArg List.length whole
  simp only [Array.length_toList, List.length_append] at size
  rw [← ByteArray.size_data, size]
  omega

theorem Stands.byte? {b : UInt8} {rest : List UInt8} (stands : Stands data pos (b :: rest)) :
    byte? data pos = some b.toNat := by
  have inside := stands.size_le
  rw [List.length_cons] at inside
  obtain ⟨front, back, whole, place⟩ := stands
  have read : data.get pos (by omega) = b := by
    have here : pos < data.data.toList.length := by
      rw [Array.length_toList, ByteArray.size_data]
      omega
    have found : data.data.toList[pos] = b := by
      simp [whole, ← place]
    rw [← found, Array.getElem_toList]
    rfl
  rw [Bytes.byte?, dif_pos (by omega), read]

theorem Stands.slice? (stands : Stands data pos part) :
    slice? data pos part.length = some ⟨part.toArray⟩ := by
  rw [Bytes.slice?, if_pos stands.size_le]
  obtain ⟨front, back, whole, place⟩ := stands
  refine congrArg some (ByteArray.ext (Array.toList_inj.mp ?_))
  rw [ByteArray.data_extract, Array.toList_extract, whole, ← place]
  simp

theorem byte?_eq_some_iff {n : Nat} :
    byte? data pos = some n ↔ ∃ b, data.data.toList[pos]? = some b ∧ b.toNat = n := by
  rw [byte?, Array.getElem?_toList]
  by_cases inside : pos < data.size
  · have listed : data.data[pos]? = some (data.get pos inside) := Array.getElem?_eq_getElem inside
    rw [dif_pos inside, listed]
    constructor
    · exact fun same => ⟨_, rfl, Option.some.inj same⟩
    · rintro ⟨b, same, rfl⟩
      rw [Option.some.inj same]
  · have listed : data.data[pos]? = none := Array.getElem?_eq_none (Nat.le_of_not_lt inside)
    rw [dif_neg inside, listed]
    simp

theorem byte?_ne_of_absent {n first count : Nat}
    (absent : ∀ b ∈ (data.data.toList.drop first).take count, b.toNat ≠ n) (low : first ≤ pos)
    (high : pos < first + count) : byte? data pos ≠ some n := by
  intro read
  obtain ⟨b, listed, same⟩ := byte?_eq_some_iff.mp read
  refine absent b (List.mem_of_getElem? (i := pos - first) ?_) same
  rw [List.getElem?_take_of_lt (by omega), List.getElem?_drop, Nat.add_sub_cancel' low, listed]

/-! ## Words -/

theorem byte?_lt {n : Nat} (read : byte? data pos = some n) : n < 256 := by
  obtain ⟨b, -, rfl⟩ := byte?_eq_some_iff.mp read
  exact UInt8.toNat_lt b

theorem word16?_lt {n : Nat} (read : word16? data pos = some n) : n < 65536 := by
  obtain ⟨low, first, read⟩ := Option.bind_eq_some_iff.mp read
  obtain ⟨high, second, read⟩ := Option.bind_eq_some_iff.mp read
  cases read
  have := byte?_lt first
  have := byte?_lt second
  omega

-- The highest byte of a word is the last one.
theorem byte?_of_word32? {n : Nat} (read : word32? data pos = some n) :
    byte? data (pos + 3) = some (n / 16777216) := by
  obtain ⟨low, first, read⟩ := Option.bind_eq_some_iff.mp read
  obtain ⟨high, second, read⟩ := Option.bind_eq_some_iff.mp read
  obtain ⟨third, third_read, second⟩ := Option.bind_eq_some_iff.mp second
  obtain ⟨fourth, fourth_read, second⟩ := Option.bind_eq_some_iff.mp second
  have small := word16?_lt first
  have byte := byte?_lt third_read
  cases second
  have whole : low + 65536 * (third + 256 * fourth) = n := Option.some.inj read
  rw [fourth_read]
  exact congrArg some (by omega)

theorem length_littleEndian (count n : Nat) : (littleEndian count n).length = count := by
  induction count generalizing n with
  | zero => rfl
  | succ count ih => rw [littleEndian, List.length_cons, ih]

theorem littleEndian_add (low high n : Nat) :
    littleEndian (low + high) n = littleEndian low n ++ littleEndian high (n / 256 ^ low) := by
  induction low generalizing n with
  | zero => simp [littleEndian]
  | succ low ih =>
    rw [Nat.succ_add, littleEndian, littleEndian, ih, Nat.div_div_eq_div_mul, List.cons_append,
      Nat.pow_succ']

theorem Stands.word16? {n : Nat} (stands : Stands data pos (littleEndian 2 n)) :
    word16? data pos = some (n % 65536) := by
  have low := Stands.byte? stands
  have behind : Stands data pos ([UInt8.ofNat (n % 256)] ++ littleEndian 1 (n / 256)) := stands
  have high := Stands.byte? behind.right
  rw [List.length_singleton] at high
  rw [Bytes.word16?, low, high]
  simp only [UInt8.toNat_ofNat', bind, Option.bind]
  exact congrArg some (by omega)

theorem Stands.word32? {n : Nat} (stands : Stands data pos (littleEndian 4 n)) :
    word32? data pos = some (n % 4294967296) := by
  rw [show 4 = 2 + 2 from rfl, littleEndian_add] at stands
  have low := stands.left.word16?
  have high := stands.right.word16?
  rw [length_littleEndian] at high
  rw [Bytes.word32?, low, high]
  simp only [bind, Option.bind, Width.count16]
  exact congrArg some (by omega)

/-! ## Sequences of words -/

/-- The bytes of a sequence of numbers, each with its width. -/
def fieldBytes (words : List (Nat × Nat)) : List UInt8 :=
  words.flatMap fun word => littleEndian word.1 word.2

theorem toList_fields (words : List (Nat × Nat)) :
    (fields words).data.toList = fieldBytes words := rfl

theorem length_fieldBytes (words : List (Nat × Nat)) :
    (fieldBytes words).length = (words.map Prod.fst).sum := by
  simp [fieldBytes, List.length_flatMap, length_littleEndian]

theorem Stands.field {words : List (Nat × Nat)} {widths : List Nat}
    (stands : Stands data pos (fieldBytes words)) (shape : words.map Prod.fst = widths)
    (i offset : Nat) {width n : Nat} (there : words[i]? = some (width, n))
    (ahead : (widths.take i).sum = offset) :
    Stands data (pos + offset) (littleEndian width n) := by
  obtain ⟨inside, same⟩ := List.getElem?_eq_some_iff.mp there
  have split : words = words.take i ++ (width, n) :: words.drop (i + 1) := by
    rw [← same, List.getElem_cons_drop, List.take_append_drop]
  rw [split, fieldBytes, List.flatMap_append, List.flatMap_cons] at stands
  have found := stands.right.left
  rw [← fieldBytes, length_fieldBytes, List.map_take, shape, ahead] at found
  exact found

end ModuleDepot.Bytes
