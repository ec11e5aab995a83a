import ModuleDepot.Bytes.Utf8

/-!
Reading back what was written as UTF-8. Nothing is replaced, as every character is written as the
bytes that it is read from.
-/

namespace ModuleDepot.Bytes

theorem toList_eq (data : ByteArray) : data.toList = data.data.toList := by
  have all : ∀ (i : Nat) (read : List UInt8), ByteArray.toList.loop data i read =
      read.reverse ++ data.data.toList.drop i := by
    intro i read
    fun_induction ByteArray.toList.loop data i read with
    | case1 i read below ih =>
        have inside : i < data.data.toList.length := by simpa using below
        have first : data.get! i = data.data.toList[i] := by
          rw [ByteArray.get!, Array.getElem_toList]
          exact getElem!_pos data.data i below
        rw [ih, List.reverse_cons, List.append_assoc, first, List.singleton_append,
          List.getElem_cons_drop]
    | case2 i read beyond =>
        rw [List.drop_eq_nil_of_le (by simpa using beyond), List.append_nil]
  simpa [ByteArray.toList] using all 0 []

theorem toNat_ofNat_of_lt {n : Nat} (small : n < 256) : (UInt8.ofNat n).toNat = n := by
  rw [UInt8.toNat_ofNat', Nat.mod_eq_of_lt small]

theorem isContinuation_iff (b : UInt8) :
    isContinuation b = true ↔ 128 ≤ b.toNat ∧ b.toNat ≤ 191 := by
  simp [isContinuation, UInt8.le_iff_toNat_le]

section Steps

variable {a b c d : UInt8} {rest : List UInt8}

theorem decodeLossy_one (single : a.toNat < 128) :
    decodeLossy (a :: rest) = Char.ofNat a.toNat :: decodeLossy rest := by
  rw [decodeLossy.eq_def]
  simp only
  rw [if_pos (by simpa [UInt8.lt_iff_toNat_lt] using single)]

theorem decodeLossy_two (lead : 194 ≤ a.toNat ∧ a.toNat ≤ 223) (next : isContinuation b = true) :
    decodeLossy (a :: b :: rest) =
      Char.ofNat (a.toNat % 32 * 64 + payload b) :: decodeLossy rest := by
  rw [decodeLossy, if_neg (by simp [UInt8.lt_iff_toNat_lt]; omega),
    if_pos (by simpa [UInt8.le_iff_toNat_le] using lead)]
  simp only [next, if_true]

theorem decodeLossy_three (lead : 224 ≤ a.toNat ∧ a.toNat ≤ 239) (next : mayFollow a b = true)
    (last : isContinuation c = true) : decodeLossy (a :: b :: c :: rest) =
      Char.ofNat ((a.toNat % 16 * 64 + payload b) * 64 + payload c) :: decodeLossy rest := by
  rw [decodeLossy, if_neg (by simp [UInt8.lt_iff_toNat_lt]; omega),
    if_neg (by simp [UInt8.le_iff_toNat_le]; omega),
    if_pos (by simpa [UInt8.le_iff_toNat_le] using lead)]
  simp only [next, last, Bool.not_true, Bool.false_eq_true, if_false, if_true]

theorem decodeLossy_four (lead : 240 ≤ a.toNat ∧ a.toNat ≤ 244) (next : mayFollow a b = true)
    (third : isContinuation c = true) (last : isContinuation d = true) :
    decodeLossy (a :: b :: c :: d :: rest) =
      Char.ofNat (((a.toNat % 8 * 64 + payload b) * 64 + payload c) * 64 + payload d) ::
        decodeLossy rest := by
  rw [decodeLossy, if_neg (by simp [UInt8.lt_iff_toNat_lt]; omega),
    if_neg (by simp [UInt8.le_iff_toNat_le]; omega),
    if_neg (by simp [UInt8.le_iff_toNat_le]; omega),
    if_pos (by simpa [UInt8.le_iff_toNat_le] using lead)]
  simp only [next, third, last, Bool.not_true, Bool.false_eq_true, if_false, if_true]

theorem mayFollow_iff (a b : UInt8) : mayFollow a b = true ↔
    if a.toNat = 224 then 160 ≤ b.toNat ∧ b.toNat ≤ 191
    else if a.toNat = 237 then 128 ≤ b.toNat ∧ b.toNat ≤ 159
    else if a.toNat = 240 then 144 ≤ b.toNat ∧ b.toNat ≤ 191
    else if a.toNat = 244 then 128 ≤ b.toNat ∧ b.toNat ≤ 143
    else 128 ≤ b.toNat ∧ b.toNat ≤ 191 := by
  simp only [mayFollow, isContinuation, ← UInt8.toNat_inj, UInt8.reduceToNat]
  repeat' split
  all_goals simp [UInt8.le_iff_toNat_le]

end Steps

theorem decodeLossy_utf8EncodeChar (c : Char) (rest : List UInt8) :
    decodeLossy (String.utf8EncodeChar c ++ rest) = c :: decodeLossy rest := by
  have valid : c.val.toNat < 55296 ∨ 57343 < c.val.toNat ∧ c.val.toNat < 1114112 := c.valid
  have read {n : Nat} (same : n = c.val.toNat) : Char.ofNat n = c := by
    rw [same]
    exact Char.ofNat_toNat c
  fun_cases String.utf8EncodeChar c with
  | case1 v one =>
      have small : v < 256 := by omega
      rw [List.singleton_append, decodeLossy_one (by rw [toNat_ofNat_of_lt small]; omega), read]
      exact toNat_ofNat_of_lt small
  | case2 v one two =>
      have first := toNat_ofNat_of_lt (n := v / 64 % 32 + 192) (by omega)
      have second := toNat_ofNat_of_lt (n := v % 64 + 128) (by omega)
      rw [List.cons_append, List.singleton_append, decodeLossy_two (by omega)
        ((isContinuation_iff _).mpr (by omega)), read]
      rw [payload, first, second]
      omega
  | case3 v one two three =>
      have first := toNat_ofNat_of_lt (n := v / 4096 % 16 + 224) (by omega)
      have second := toNat_ofNat_of_lt (n := v / 64 % 64 + 128) (by omega)
      have third := toNat_ofNat_of_lt (n := v % 64 + 128) (by omega)
      rw [List.cons_append, List.cons_append, List.singleton_append, decodeLossy_three (by omega)
        ((mayFollow_iff _ _).mpr ?_) ((isContinuation_iff _).mpr (by omega)), read]
      · rw [payload, payload, first, second, third]
        omega
      · rw [first, second]
        repeat' split
        all_goals omega
  | case4 v one two three =>
      have first := toNat_ofNat_of_lt (n := v / 262144 % 8 + 240) (by omega)
      have second := toNat_ofNat_of_lt (n := v / 4096 % 64 + 128) (by omega)
      have third := toNat_ofNat_of_lt (n := v / 64 % 64 + 128) (by omega)
      have fourth := toNat_ofNat_of_lt (n := v % 64 + 128) (by omega)
      rw [List.cons_append, List.cons_append, List.cons_append, List.singleton_append,
        decodeLossy_four (by omega) ((mayFollow_iff _ _).mpr ?_)
        ((isContinuation_iff _).mpr (by omega)) ((isContinuation_iff _).mpr (by omega)), read]
      · rw [payload, payload, payload, first, second, third, fourth]
        omega
      · rw [first, second]
        repeat' split
        all_goals omega

theorem decodeLossy_encoded (text : List Char) :
    decodeLossy (text.flatMap String.utf8EncodeChar) = text := by
  induction text with
  | nil => rw [List.flatMap_nil, decodeLossy]
  | cons c rest ih => rw [List.flatMap_cons, decodeLossy_utf8EncodeChar, ih]

theorem toUTF8_toList (text : String) :
    text.toUTF8.toList = text.toList.flatMap String.utf8EncodeChar := by
  rw [toList_eq, String.toUTF8_eq_toByteArray, ← String.utf8Encode_toList, List.utf8Encode]
  simp

theorem lossyText_toUTF8 (text : String) : lossyText text.toUTF8 = text := by
  rw [lossyText, toUTF8_toList, decodeLossy_encoded, String.ofList_toList]

end ModuleDepot.Bytes
