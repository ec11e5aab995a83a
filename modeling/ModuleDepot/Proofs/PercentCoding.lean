import Mathlib.Algebra.GroupWithZero.Nat
import ModuleDepot.Url.Percent

/-!
Percent-encoding loses nothing: an encoded text stands for the same bytes. Texts that stand
for the same bytes have the same weight, which is how many bytes they stand for, a backslash
counted twice. Cutting a text at a mark takes the weight apart.
-/

namespace ModuleDepot.Url

/-! ## The bytes of a character -/

/-- The bytes that a character stands for. -/
def charBytes (c : Char) : List UInt8 := (String.singleton c).toUTF8.toList

theorem length_toList (bytes : ByteArray) : bytes.toList.length = bytes.size := by
  have all : ∀ (i : Nat) (read : List UInt8), i ≤ bytes.size →
      (ByteArray.toList.loop bytes i read).length = read.length + (bytes.size - i) := by
    intro i read within
    fun_induction ByteArray.toList.loop bytes i read with
    | case1 i read below ih =>
        rw [ih (by omega), List.length_cons]
        omega
    | case2 i read beyond =>
        rw [List.length_reverse]
        omega
  simpa [ByteArray.toList] using all 0 [] (Nat.zero_le _)

theorem charBytes_ne_nil (c : Char) : charBytes c ≠ [] := by
  intro none
  have size := length_toList (String.singleton c).toUTF8
  rw [show (String.singleton c).toUTF8.toList = [] from none, String.toUTF8_eq_toByteArray,
    String.size_toByteArray, String.utf8ByteSize_singleton] at size
  exact Nat.ne_of_lt c.utf8Size_pos size

/-! ## Reading what is encoded -/

/-- The byte that two digits at the start of a text stand for, and the text after them. -/
def escaped? : List Char → Option (UInt8 × List Char)
  | a :: b :: rest =>
      match Text.hexDigit? a, Text.hexDigit? b with
      | some high, some low => some (UInt8.ofNat (16 * high + low), rest)
      | _, _ => none
  | _ => none

theorem decodeBytes_percent (text : List Char) :
    decodeBytes ('%' :: text) =
      match escaped? text with
      | some (byte, rest) => byte :: decodeBytes rest
      | none => charBytes '%' ++ decodeBytes text := by
  have percent : charBytes '%' = ['%'.toNat.toUInt8] := by decide +kernel
  match text with
  | [] => rw [decodeBytes.eq_2 _ _ (by simp)]; rfl
  | [a] => rw [decodeBytes.eq_2 _ _ (by simp)]; rfl
  | a :: b :: rest =>
      rw [decodeBytes.eq_1, escaped?, percent]
      cases Text.hexDigit? a <;> cases Text.hexDigit? b <;> rfl

theorem decodeBytes_cons {c : Char} (different : c ≠ '%') (text : List Char) :
    decodeBytes (c :: text) = charBytes c ++ decodeBytes text :=
  decodeBytes.eq_2 _ _ (by simp [different])

theorem length_of_escaped {text rest : List Char} {byte : UInt8}
    (escaped : escaped? text = some (byte, rest)) : rest.length < text.length := by
  match text with
  | [] => cases escaped
  | [a] => cases escaped
  | a :: b :: after =>
      rw [escaped?] at escaped
      split at escaped
      · cases escaped
        simp only [List.length_cons]
        omega
      · cases escaped

/-- Induction along the bytes of a text. -/
theorem induction_on_bytes {motive : List Char → Prop} (text : List Char) (nil : motive [])
    (escape : ∀ {text rest : List Char} {byte : UInt8}, escaped? text = some (byte, rest) →
      motive rest → motive ('%' :: text))
    (percent : ∀ {text : List Char}, escaped? text = none → motive text → motive ('%' :: text))
    (plain : ∀ {c : Char} {text : List Char}, c ≠ '%' → motive text → motive (c :: text)) :
    motive text := by
  induction size : text.length using Nat.strongRecOn generalizing text with
  | ind n ih =>
      cases text with
      | nil => exact nil
      | cons c text =>
          rw [List.length_cons] at size
          by_cases mark : c = '%'
          · subst mark
            cases found : escaped? text with
            | none => exact percent found (ih _ (by omega) text rfl)
            | some escaped =>
                have shorter := length_of_escaped found
                exact escape found (ih _ (by omega) escaped.2 rfl)
          · exact plain mark (ih _ (by omega) text rfl)

/-! ## Cutting -/

/-- A text can be cut before a character that is no hexadecimal digit. -/
theorem decodeBytes_append {after : List Char} (before : List Char)
    (cut : ∀ c ∈ after.head?, Text.hexDigit? c = none) :
    decodeBytes (before ++ after) = decodeBytes before ++ decodeBytes after := by
  induction before using induction_on_bytes with
  | nil => rfl
  | @escape text rest byte found ih =>
      have whole : escaped? (text ++ after) = some (byte, rest ++ after) := by
        match text with
        | [] | [_] => cases found
        | a :: b :: rest =>
            rw [escaped?] at found
            simp only [List.cons_append, escaped?]
            split at found
            · next high low => simp_all
            · cases found
      rw [List.cons_append, decodeBytes_percent, decodeBytes_percent, whole, found]
      exact congrArg (byte :: ·) ih
  | @percent text found ih =>
      have whole : escaped? (text ++ after) = none := by
        match text, after with
        | [], [] | [_], [] | a :: b :: rest, [] => simpa using found
        | [], [c] => rfl
        | [], c :: d :: _ => simp [escaped?, cut c rfl]
        | [a], c :: _ => simp [escaped?, cut c rfl]
        | a :: b :: rest, c :: _ =>
            simp only [List.cons_append, escaped?] at found ⊢
            split at found <;> simp_all
      rw [List.cons_append, decodeBytes_percent, decodeBytes_percent, whole, found, ih,
        List.append_assoc]
  | plain different ih =>
      rw [List.cons_append, decodeBytes_cons different, decodeBytes_cons different, ih,
        List.append_assoc]

/-- A text can be cut after characters that are no percent sign. -/
theorem decodeBytes_append_of_plain {before : List Char} (plain : '%' ∉ before)
    (after : List Char) :
    decodeBytes (before ++ after) = decodeBytes before ++ decodeBytes after := by
  induction before with
  | nil => rfl
  | cons c rest ih =>
      obtain ⟨different, later⟩ := not_or.mp (mt List.mem_cons.mpr plain)
      rw [List.cons_append, decodeBytes_cons (Ne.symm different),
        decodeBytes_cons (Ne.symm different), ih later, List.append_assoc]

/-! ## Encoding -/

/-- A set that leaves hexadecimal digits and the percent sign as they are. -/
structure EncodeSet.Sparing (set : EncodeSet) : Prop where
  percent : set '%' = false
  digit : ∀ c, (Text.hexDigit? c).isSome = true → set c = false

theorem bounds_of_hexDigit {c : Char} (digit : (Text.hexDigit? c).isSome = true) :
    (48 ≤ c.toNat ∧ c.toNat ≤ 57) ∨ (97 ≤ c.toNat ∧ c.toNat ≤ 102) ∨
      (65 ≤ c.toNat ∧ c.toNat ≤ 70) := by
  unfold Text.hexDigit? at digit
  split at digit
  · next decimal =>
      simp only [Char.isDigit, Bool.and_eq_true, decide_eq_true_eq] at decimal
      exact Or.inl decimal
  split at digit
  · next small =>
      simp only [Bool.and_eq_true, decide_eq_true_eq] at small
      exact Or.inr (Or.inl small)
  split at digit
  · next large =>
      simp only [Bool.and_eq_true, decide_eq_true_eq] at large
      exact Or.inr (Or.inr large)
  · cases digit

theorem sparing_controls : EncodeSet.Sparing isControlOrForeign := by
  refine ⟨by decide, fun c digit => ?_⟩
  have bounds := bounds_of_hexDigit digit
  simp only [isControlOrForeign, Bool.or_eq_false_iff, decide_eq_false_iff_not]
  omega

theorem sparing_pathSet : EncodeSet.Sparing pathSet := by
  refine ⟨by decide, fun c digit => ?_⟩
  have bounds := bounds_of_hexDigit digit
  have other : ∀ d : Char, (Text.hexDigit? d).isSome = false → (c == d) = false := by
    intro d none
    refine beq_eq_false_iff_ne.mpr ?_
    rintro rfl
    rw [digit] at none
    cases none
  simp only [pathSet, fragmentSet, sparing_controls.digit c digit, Bool.false_or,
    other ' ' rfl, other '"' rfl, other '<' rfl, other '>' rfl, other '\x60' rfl, other '#' rfl,
    other '?' rfl, other '\x7b' rfl, other '\x7d' rfl]

theorem encode_cons (set : EncodeSet) (c : Char) (text : List Char) :
    encode set (c :: text) = (if set c then encodeChar c else [c]) ++ encode set text :=
  List.flatMap_cons

theorem encodeChar_eq (c : Char) : ∃ rest, encodeChar c = '%' :: rest := by
  have bytes : encodeChar c = (charBytes c).flatMap encodeByte := rfl
  cases found : charBytes c with
  | nil => exact absurd found (charBytes_ne_nil c)
  | cons b others =>
      rw [bytes, found]
      exact ⟨_, rfl⟩

theorem escaped?_percent (text : List Char) : escaped? ('%' :: text) = none := by
  cases text <;> rfl

theorem escaped?_encode {set : EncodeSet} (sparing : set.Sparing) (text : List Char) :
    escaped? (encode set text) =
      (escaped? text).map fun escaped => (escaped.1, encode set escaped.2) := by
  have undigit : ∀ {c : Char}, set c = true → Text.hexDigit? c = none := by
    intro c member
    cases digit : Text.hexDigit? c with
    | none => rfl
    | some d =>
        rw [sparing.digit c (by rw [digit]; rfl)] at member
        cases member
  match text with
  | [] => rfl
  | [a] =>
      rw [encode_cons]
      split
      · obtain ⟨rest, encoded⟩ := encodeChar_eq a
        rw [encoded]
        exact escaped?_percent _
      · rfl
  | a :: b :: rest =>
      rw [encode_cons, encode_cons]
      split
      · next first =>
          obtain ⟨after, encoded⟩ := encodeChar_eq a
          rw [encoded, escaped?, undigit first]
          exact escaped?_percent _
      split
      · next second =>
          obtain ⟨after, encoded⟩ := encodeChar_eq b
          have mark : Text.hexDigit? '%' = none := rfl
          simp only [encoded, List.cons_append, List.nil_append, escaped?, mark, undigit second]
          cases Text.hexDigit? a <;> rfl
      · simp only [List.cons_append, List.nil_append, escaped?]
        cases Text.hexDigit? a <;> cases Text.hexDigit? b <;> rfl

theorem decodeBytes_encodeByte (b : UInt8) (rest : List Char) :
    decodeBytes (encodeByte b ++ rest) = b :: decodeBytes rest := by
  have digit : ∀ n < 16, Text.hexDigit? (Nat.digitChar n).toUpper = some n := by decide
  have below : b.toNat < 256 := b.toNat_lt
  have whole : UInt8.ofNat (16 * (b.toNat / 16) + b.toNat % 16) = b := by
    rw [Nat.div_add_mod, UInt8.ofNat_toNat]
  simp only [encodeByte, List.cons_append, List.nil_append]
  rw [decodeBytes_percent, escaped?, digit _ (by omega), digit _ (by omega)]
  exact congrArg (· :: decodeBytes rest) whole

theorem decodeBytes_encodeChar (c : Char) (rest : List Char) :
    decodeBytes (encodeChar c ++ rest) = charBytes c ++ decodeBytes rest := by
  have all : ∀ bytes : List UInt8,
      decodeBytes (bytes.flatMap encodeByte ++ rest) = bytes ++ decodeBytes rest := by
    intro bytes
    induction bytes with
    | nil => rfl
    | cons b others ih =>
        rw [List.flatMap_cons, List.append_assoc, decodeBytes_encodeByte, ih]
        rfl
  exact all (charBytes c)

/-- What is encoded stands for the same bytes. -/
theorem decodeBytes_encode {set : EncodeSet} (sparing : set.Sparing) (text : List Char) :
    decodeBytes (encode set text) = decodeBytes text := by
  have kept : ∀ text, encode set ('%' :: text) = '%' :: encode set text := by
    intro text
    rw [encode_cons, sparing.percent]
    rfl
  induction text using induction_on_bytes with
  | nil => rfl
  | escape found ih =>
      rw [kept, decodeBytes_percent, decodeBytes_percent, escaped?_encode sparing, found]
      exact congrArg (_ :: ·) ih
  | percent found ih =>
      rw [kept, decodeBytes_percent, decodeBytes_percent, escaped?_encode sparing, found]
      exact congrArg (_ ++ ·) ih
  | @plain c text different ih =>
      rw [encode_cons, decodeBytes_cons different]
      split
      · rw [decodeBytes_encodeChar, ih]
      · rw [List.singleton_append, decodeBytes_cons different, ih]

/-! ## Weight -/

def byteWeight (b : UInt8) : Nat := if b = 92 then 2 else 1

/-- How many bytes a text stands for, a backslash counted twice. -/
def weight (text : List Char) : Nat := ((decodeBytes text).map byteWeight).sum

@[simp] theorem weight_nil : weight [] = 0 := rfl

theorem weight_encode {set : EncodeSet} (sparing : set.Sparing) (text : List Char) :
    weight (encode set text) = weight text := by rw [weight, decodeBytes_encode sparing, weight]

theorem weight_append {after : List Char} (before : List Char)
    (cut : ∀ c ∈ after.head?, Text.hexDigit? c = none) :
    weight (before ++ after) = weight before + weight after := by
  rw [weight, decodeBytes_append before cut, List.map_append, List.sum_append, weight, weight]

theorem weight_append_of_plain {before : List Char} (plain : '%' ∉ before) (after : List Char) :
    weight (before ++ after) = weight before + weight after := by
  rw [weight, decodeBytes_append_of_plain plain, List.map_append, List.sum_append, weight, weight]

theorem weight_cons {c : Char} (different : c ≠ '%') (text : List Char) :
    weight (c :: text) = weight [c] + weight text := by
  have plain : '%' ∉ [c] := fun member => different (List.mem_singleton.mp member).symm
  exact weight_append_of_plain plain text

/-- A mark cuts a text in two. -/
theorem weight_mark {c : Char} (different : c ≠ '%') (cut : Text.hexDigit? c = none)
    (before after : List Char) :
    weight (before ++ c :: after) = weight before + weight [c] + weight after := by
  rw [weight_append before (by simpa using cut), weight_cons different, Nat.add_assoc]

theorem weight_slash : weight ['/'] = 1 := by decide +kernel

theorem weight_backslash : weight ['\\'] = 2 := by decide +kernel

theorem weight_pos {text : List Char} (filled : text ≠ []) : 0 < weight text := by
  have heavy : ∀ {bytes : List UInt8}, bytes ≠ [] → 0 < (bytes.map byteWeight).sum := by
    intro bytes some
    cases bytes with
    | nil => exact absurd rfl some
    | cons b others =>
        have least : 0 < byteWeight b := by
          unfold byteWeight
          split <;> decide
        rw [List.map_cons, List.sum_cons]
        omega
  apply heavy
  cases text with
  | nil => exact absurd rfl filled
  | cons c rest =>
      by_cases mark : c = '%'
      · subst mark
        rw [decodeBytes_percent]
        split
        · exact List.cons_ne_nil _ _
        · simp [charBytes_ne_nil]
      · rw [decodeBytes_cons mark]
        simp [charBytes_ne_nil]

end ModuleDepot.Url
