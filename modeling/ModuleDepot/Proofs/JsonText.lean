import ModuleDepot.Json.Reader
import ModuleDepot.Json.Writer

/-!
Reading JSON text that was written from a tree gives the tree back. This holds of plain
trees, in which every string and every name is a text and every number is whole: what a
reader only keeps to object to, such as a broken string, has no written form of its own.
-/

namespace ModuleDepot.Json

/-! ## Strings -/

def Piece.StandsFor (p : Piece) (c : Char) : Prop :=
  ∀ pieces, joinPieces (p :: pieces) = (joinPieces pieces).map (c :: ·)

theorem Piece.char_standsFor (c : Char) : (Piece.char c).StandsFor c := fun _ => by rw [joinPieces]

/-- A unit outside the surrogates is a character, whatever comes after it. -/
theorem Piece.unit_standsFor {n : Nat} (low : n < 0xd800) :
    (Piece.unit n).StandsFor (Char.ofNat n) := by
  intro pieces
  have no_half : ¬ 0xd800 ≤ n := by omega
  have no_low_half : ¬ 0xdc00 ≤ n := by omega
  cases pieces with
  | nil => simp [joinPieces, no_half]
  | cons p rest => cases p <;> simp [joinPieces, no_half, no_low_half]

theorem numberIn?_hexByte {n : Nat} (small : n < 0x20) :
    Text.numberIn? 16 ('0' :: '0' :: hexByte n) = some n := by
  have each : ∀ n < 0x20, Text.numberIn? 16 ('0' :: '0' :: hexByte n) = some n := by decide
  exact each n small

theorem readPieces_short {letter c : Char} (short : shortEscape? letter = some c)
    (rest : List Char) :
    readPieces ('\\' :: letter :: rest) =
      (readPieces rest).map fun (pieces, rest) => (.char c :: pieces, rest) := by
  rw [readPieces.eq_4 _ _ (by rintro _ _ _ _ _ rfl; simp [shortEscape?] at short), short]
  cases readPieces rest <;> rfl

theorem writeChar_cases (c : Char) :
    (∃ letter, writeChar c = ['\\', letter] ∧ shortEscape? letter = some c) ∨
      (c.toNat < 0x20 ∧ writeChar c = '\\' :: 'u' :: '0' :: '0' :: hexByte c.toNat) ∨
      (¬ c.toNat < 0x20 ∧ c ≠ '"' ∧ c ≠ '\\' ∧ writeChar c = [c]) := by
  unfold writeChar
  iterate 7
    split
    · next short => exact .inl ⟨_, rfl, by rw [short]; rfl⟩
  split
  · next control => exact .inr (.inl ⟨control, rfl⟩)
  · next no_quote no_backslash _ _ _ _ _ no_control =>
    exact .inr (.inr ⟨no_control, no_quote, no_backslash, rfl⟩)

/-- A written character is read as one piece, and that piece stands for it. -/
theorem readPieces_writeChar (c : Char) : ∃ p : Piece, p.StandsFor c ∧
    ∀ rest, readPieces (writeChar c ++ rest) =
      (readPieces rest).map fun (pieces, rest) => (p :: pieces, rest) := by
  obtain ⟨letter, written, short⟩ | ⟨control, written⟩ |
    ⟨no_control, no_quote, no_backslash, written⟩ := writeChar_cases c
  · exact ⟨.char c, Piece.char_standsFor c, fun rest => written ▸ readPieces_short short rest⟩
  · refine ⟨.unit c.toNat, ?_, fun rest => ?_⟩
    · have stands := Piece.unit_standsFor (n := c.toNat) (by omega)
      rwa [Char.ofNat_toNat] at stands
    · have value := numberIn?_hexByte control
      simp only [hexByte] at value
      simp only [written, hexByte, List.cons_append, List.nil_append, readPieces, value]
      cases readPieces rest <;> rfl
  · refine ⟨.char c, Piece.char_standsFor c, fun rest => ?_⟩
    have admitted : (decide (c.toNat < 0x20) || c == '\\') = false := by
      simp only [no_control, no_backslash, decide_false, Bool.false_or, beq_eq_false_iff_ne, ne_eq,
        not_false_eq_true]
    rw [written, List.singleton_append, readPieces.eq_5 c rest no_quote
      (fun _ _ _ _ _ backslash => absurd backslash no_backslash)
      (fun _ _ backslash => absurd backslash no_backslash), admitted]
    cases readPieces rest <;> rfl

theorem readPieces_written (text rest : List Char) : ∃ pieces, joinPieces pieces = some text ∧
    readPieces (text.flatMap writeChar ++ '"' :: rest) = some (pieces, rest) := by
  induction text with
  | nil => exact ⟨[], rfl, rfl⟩
  | cons c text ih =>
    obtain ⟨p, stands, head⟩ := readPieces_writeChar c
    obtain ⟨pieces, joined, tail⟩ := ih
    refine ⟨p :: pieces, ?_, ?_⟩
    · rw [stands, joined]; rfl
    · rw [List.flatMap_cons, List.append_assoc, head, tail]; rfl

/-! ## Numbers -/

/-- Text that does not go on with a digit, a point or an exponent: a number ends before it. -/
def EndsNumber (rest : List Char) : Prop :=
  ∀ c tail, rest = c :: tail → c.isDigit = false ∧ c ≠ '.' ∧ c ≠ 'e' ∧ c ≠ 'E'

theorem takeWhile_digits {digits rest : List Char} (digital : ∀ c ∈ digits, c.isDigit = true)
    (ends : EndsNumber rest) :
    (digits ++ rest).takeWhile Char.isDigit = digits ∧
      (digits ++ rest).dropWhile Char.isDigit = rest := by
  rw [List.takeWhile_append_of_pos digital, List.dropWhile_append_of_pos digital]
  cases rest with
  | nil => simp
  | cons c tail => simp [(ends c tail rfl).1]

theorem isDigit_of_mem {n : Nat} : ∀ c ∈ Nat.toDigits 10 n, c.isDigit = true :=
  fun _ => Nat.isDigit_of_mem_toDigits (by decide) (by decide)

theorem head_digit (n : Nat) :
    ∃ c tail, Nat.toDigits 10 n = c :: tail ∧ c.isDigit = true := by
  obtain ⟨c, tail, eq⟩ := List.exists_cons_of_ne_nil (Nat.toDigits_ne_nil (n := n) (b := 10))
  exact ⟨c, tail, eq, isDigit_of_mem c (eq ▸ List.mem_cons_self)⟩

theorem head_toDigits {n : Nat} (positive : n ≠ 0) :
    ∃ c tail, Nat.toDigits 10 n = c :: tail ∧ c ≠ '0' := by
  induction n using Nat.strongRecOn with
  | ind n ih =>
    rw [Nat.toDigits_eq_if (by decide)]
    split
    · next small =>
      have each : ∀ n < 10, n ≠ 0 → n.digitChar ≠ '0' := by decide
      exact ⟨_, [], rfl, each n small positive⟩
    · next large =>
      obtain ⟨c, tail, eq, ne⟩ := ih (n / 10) (by omega) (by omega)
      exact ⟨c, tail ++ [(n % 10).digitChar], by rw [eq, List.cons_append], ne⟩

theorem readWhole_toDigits (n : Nat) {rest : List Char} (ends : EndsNumber rest) :
    readWhole (Nat.toDigits 10 n ++ rest) = some (Nat.toDigits 10 n, rest) := by
  by_cases zero : n = 0
  · subst zero
    rfl
  · obtain ⟨c, tail, eq, ne⟩ := head_toDigits zero
    obtain ⟨taken, dropped⟩ := takeWhile_digits isDigit_of_mem ends
    rw [readWhole.eq_2 _ (by rw [eq]; exact fun _ same => ne (List.cons.inj same).1), taken,
      dropped, eq]

theorem decimalValue_toDigits (n : Nat) : Text.decimalValue (Nat.toDigits 10 n) = n := by
  have value := Nat.ofDigitChars_ten_toDigits (n := n)
  rwa [Nat.ofDigitChars_eq_foldl] at value

theorem readFraction_none {rest : List Char} (ends : EndsNumber rest) :
    readFraction rest = some ([], rest) := by
  cases rest with
  | nil => rfl
  | cons c tail =>
    obtain ⟨_, no_point, _⟩ := ends c tail rfl
    exact readFraction.eq_2 _ fun _ same => no_point (List.cons.inj same).1

theorem readExponent_none {rest : List Char} (ends : EndsNumber rest) :
    readExponent rest = some (none, rest) := by
  cases rest with
  | nil => rfl
  | cons c tail =>
    obtain ⟨_, _, no_small, no_capital⟩ := ends c tail rfl
    simp [readExponent, no_small, no_capital]

theorem toList_writeNumber {n : Number} (scale : n.scale = 0) :
    (writeNumber n).toList = (if n.negative then ['-'] else []) ++ Nat.toDigits 10 n.digits := by
  unfold writeNumber
  rw [if_pos scale, String.append_empty, String.toList_append, Nat.toString_eq_repr,
    Nat.toList_repr]
  cases n.negative <;> rfl

theorem readNumber_written {n : Number} (whole : n.whole = true) (scale : n.scale = 0)
    {rest : List Char} (ends : EndsNumber rest) :
    readNumber ((writeNumber n).toList ++ rest) = some (n, rest) := by
  obtain ⟨negative, digits, s, w⟩ := n
  subst whole scale
  have parts := readWhole_toDigits digits ends
  rw [toList_writeNumber rfl]
  unfold readNumber
  cases negative with
  | true =>
    simp only [if_true, List.cons_append, List.nil_append, parts, readFraction_none ends,
      readExponent_none ends, bind, Option.bind, List.append_nil, decimalValue_toDigits]
    rfl
  | false =>
    obtain ⟨c, cs, eq, digit⟩ := head_digit digits
    have no_sign : c ≠ '-' := by rintro rfl; exact absurd digit (by decide)
    rw [eq] at parts ⊢
    simp only [Bool.false_eq_true, if_false, List.nil_append, List.cons_append] at parts ⊢
    split
    · next sign => exact absurd (List.cons.inj sign).1 no_sign
    · simp only [parts, readFraction_none ends, readExponent_none ends, bind, Option.bind,
        List.append_nil, ← eq, decimalValue_toDigits]
      rfl

theorem head_writeNumber {n : Number} (scale : n.scale = 0) :
    ∃ c tail, (writeNumber n).toList = c :: tail ∧ (c = '-' ∨ c.isDigit = true) := by
  rw [toList_writeNumber scale]
  cases n.negative with
  | true => exact ⟨'-', _, rfl, .inl rfl⟩
  | false =>
    obtain ⟨c, cs, eq, digit⟩ := head_digit n.digits
    exact ⟨c, cs, eq, .inr digit⟩

theorem ne_of_startsNumber {c d : Char} (starts : c = '-' ∨ c.isDigit = true)
    (other : (d = '-' ∨ d.isDigit = true) → False) : c ≠ d := by
  rintro rfl
  exact other starts

/-! ## Trees -/

/-- A tree of texts, whole numbers and containers of them. -/
inductive Plain : Value → Prop
  | null : Plain .null
  | bool (b : Bool) : Plain (.bool b)
  | string (s : String) : Plain (.string s)
  | number (n : Number) (whole : n.whole = true) (scale : n.scale = 0) : Plain (.number n)
  | array (items : List Value) (each : ∀ item ∈ items, Plain item) : Plain (.array items)
  | object (members : List (Option String × Value)) (names : ∀ m ∈ members, m.1.isSome = true)
      (each : ∀ m ∈ members, Plain m.2) : Plain (.object members)

theorem toList_writeString (text : String) :
    (writeString text).toList = '"' :: (text.toList.flatMap writeChar ++ ['"']) := by
  simp [writeString]

theorem writeItems_eq_map (items : List Value) : writeItems items = items.map write := by
  induction items with
  | nil => rfl
  | cons item rest ih => rw [writeItems, ih, List.map_cons]

theorem writeMembers_eq_map (members : List (Option String × Value)) :
    writeMembers members =
      members.map fun m => writeString (m.1.getD "") ++ ":" ++ write m.2 := by
  induction members with
  | nil => rfl
  | cons m rest ih => rw [writeMembers, ih, List.map_cons]

theorem toList_joined_cons (text : String) {texts : List String} (more : texts ≠ []) :
    (",".intercalate (text :: texts)).toList =
      text.toList ++ ',' :: (",".intercalate texts).toList := by
  cases texts with
  | nil => exact absurd rfl more
  | cons other texts => simp [String.toList_intercalate]

/-- The text of a tree begins with a character that is no space and closes no container. -/
theorem head_write {v : Value} (plain : Plain v) : ∃ c tail, (write v).toList = c :: tail ∧
    isSpace c = false ∧ c ≠ ']' ∧ c ≠ '\x7d' := by
  cases plain with
  | null => exact ⟨_, _, rfl, by decide⟩
  | bool b => cases b <;> exact ⟨_, _, rfl, by decide⟩
  | string s => exact ⟨_, _, toList_writeString s, by decide⟩
  | number n whole scale =>
    obtain ⟨c, tail, eq, kind⟩ := head_writeNumber scale
    exact ⟨c, tail, by rw [write, eq], by simp [isSpace, ne_of_startsNumber kind],
      ne_of_startsNumber kind (by decide), ne_of_startsNumber kind (by decide)⟩
  | array items each => exact ⟨'[', _, by simp [write]; rfl, by decide⟩
  | object members names each => exact ⟨'\x7b', _, by simp [write]; rfl, by decide⟩

theorem skipSpace_cons {c : Char} (no_space : isSpace c = false) (tail : List Char) :
    skipSpace (c :: tail) = c :: tail := List.dropWhile_cons_of_neg (by simp [no_space])

def ReadsBack (v : Value) : Prop :=
  ∀ fuel rest, (write v).toList.length ≤ fuel → EndsNumber rest →
    readValue fuel ((write v).toList ++ rest) = (v, rest)

theorem endsNumber_cons {c : Char} {tail : List Char}
    (ends : c.isDigit = false ∧ c ≠ '.' ∧ c ≠ 'e' ∧ c ≠ 'E') : EndsNumber (c :: tail) := by
  rintro _ _ ⟨⟩
  exact ends

theorem readItems_written {items : List Value} (some_item : items ≠ [])
    (each : ∀ item ∈ items, ReadsBack item) (fuel : Nat) (rest : List Char)
    (enough : (",".intercalate (writeItems items)).toList.length < fuel) :
    readItems fuel ((",".intercalate (writeItems items)).toList ++ ']' :: rest) =
      (items, rest) := by
  -- Each item takes one unit of fuel, which its own text pays for.
  induction items generalizing fuel with
  | nil => exact absurd rfl some_item
  | cons item items ih =>
    obtain ⟨fuel, rfl⟩ : ∃ f, fuel = f + 1 := ⟨fuel - 1, by omega⟩
    have head := each item List.mem_cons_self
    rw [readItems.eq_2]
    by_cases last : items = []
    · subst last
      rw [writeItems, writeItems, String.intercalate_singleton] at enough ⊢
      rw [head fuel _ (by omega) (endsNumber_cons (by decide))]
      rfl
    · have more : writeItems items ≠ [] := by simpa [writeItems_eq_map] using last
      rw [writeItems, toList_joined_cons _ more] at enough ⊢
      rw [List.length_append, List.length_cons] at enough
      rw [List.append_assoc, List.cons_append,
        head fuel _ (by omega) (endsNumber_cons (by decide))]
      have tail := ih last (fun item mem => each item (List.mem_cons_of_mem _ mem)) fuel (by omega)
      simp only [skipSpace_cons (c := ',') rfl, tail]

/-- A member is read as its name and its value; after a comma more members are read, and after a
bracket none. -/
theorem readMembers_member (name : String) {value : Value} (back : ReadsBack value) {fuel : Nat}
    {rest more : List Char} (enough : (write value).toList.length ≤ fuel)
    (ends : EndsNumber rest) :
    let text := (writeString name ++ ":" ++ write value).toList ++ rest
    (skipSpace rest = ',' :: more → readMembers (fuel + 1) text =
      ((some name, value) :: (readMembers fuel more).1, (readMembers fuel more).2)) ∧
    (skipSpace rest = '\x7d' :: more →
      readMembers (fuel + 1) text = ([(some name, value)], more)) := by
  intro text
  obtain ⟨pieces, joined, read⟩ :=
    readPieces_written name.toList (':' :: ((write value).toList ++ rest))
  have shape : text =
      '"' :: (name.toList.flatMap writeChar ++ '"' :: ':' :: ((write value).toList ++ rest)) := by
    simp [text, toList_writeString]
  have name_back : (joinPieces pieces).map String.ofList = some name := by
    rw [joined, Option.map_some, String.ofList_toList]
  have value_back := back fuel rest enough ends
  rw [shape, readMembers.eq_2]
  simp only [skipSpace_cons (c := '"') rfl, skipSpace_cons (c := ':') rfl, read, value_back,
    name_back]
  exact ⟨fun comma => by simp only [comma], fun bracket => by simp only [bracket]⟩

theorem readMembers_written {members : List (Option String × Value)} (some_member : members ≠ [])
    (names : ∀ m ∈ members, m.1.isSome = true) (each : ∀ m ∈ members, ReadsBack m.2)
    (fuel : Nat) (rest : List Char)
    (enough : (",".intercalate (writeMembers members)).toList.length < fuel) :
    readMembers fuel ((",".intercalate (writeMembers members)).toList ++ '\x7d' :: rest) =
      (members, rest) := by
  induction members generalizing fuel with
  | nil => exact absurd rfl some_member
  | cons m members ih =>
    obtain ⟨fuel, rfl⟩ : ∃ f, fuel = f + 1 := ⟨fuel - 1, by omega⟩
    obtain ⟨name?, value⟩ := m
    obtain ⟨name, rfl⟩ := Option.isSome_iff_exists.mp (names _ List.mem_cons_self)
    have head : ReadsBack value := each _ List.mem_cons_self
    by_cases last : members = []
    · subst last
      rw [writeMembers, writeMembers, String.intercalate_singleton] at enough ⊢
      simp only [String.toList_append, List.length_append] at enough
      exact (readMembers_member name head (by omega) (endsNumber_cons (by decide))).2
        (skipSpace_cons rfl _)
    · have more : writeMembers members ≠ [] := by simpa [writeMembers_eq_map] using last
      rw [writeMembers, toList_joined_cons _ more] at enough ⊢
      simp only [String.toList_append, List.length_append, List.length_cons] at enough
      have tail := ih last (fun m mem => names m (List.mem_cons_of_mem _ mem))
        (fun m mem => each m (List.mem_cons_of_mem _ mem)) fuel (by omega)
      rw [List.append_assoc, List.cons_append]
      refine ((readMembers_member name head (by omega) (endsNumber_cons (by decide))).1
        (skipSpace_cons rfl _)).trans ?_
      rw [tail]

theorem readValue_number {c : Char} (starts : c = '-' ∨ c.isDigit = true) {fuel : Nat}
    {tail rest : List Char} {n : Number} (read : readNumber (c :: tail) = some (n, rest)) :
    readValue (fuel + 1) (c :: tail) = (.number n, rest) := by
  have no_space : isSpace c = false := by simp [isSpace, ne_of_startsNumber starts]
  rw [readValue.eq_2, skipSpace_cons no_space]
  split
  -- The first six cases begin with a letter, a quote or a bracket.
  iterate 6
    · next h => exact absurd (List.cons.inj h).1 (ne_of_startsNumber starts (by decide))
  · rw [read]

theorem readValue_brackets {text rest : List Char} {items : List Value} {fuel : Nat}
    (unclosed : ∀ tail, skipSpace text ≠ ']' :: tail)
    (read : readItems fuel text = (items, rest)) :
    readValue (fuel + 1) ('[' :: text) = (.array items, rest) := by
  rw [readValue.eq_2]
  simp only [skipSpace_cons (c := '[') rfl, read]

theorem readValue_braces {text rest : List Char} {members : List (Option String × Value)}
    {fuel : Nat} (unclosed : ∀ tail, skipSpace text ≠ '\x7d' :: tail)
    (read : readMembers fuel text = (members, rest)) :
    readValue (fuel + 1) ('\x7b' :: text) = (.object members, rest) := by
  rw [readValue.eq_2]
  simp only [skipSpace_cons (c := '\x7b') rfl, read]

theorem toList_write_array (items : List Value) :
    (write (.array items)).toList =
      '[' :: ((",".intercalate (writeItems items)).toList ++ [']']) := by
  rw [write, String.toList_append, String.toList_append]
  rfl

theorem toList_write_object (members : List (Option String × Value)) :
    (write (.object members)).toList =
      '\x7b' :: ((",".intercalate (writeMembers members)).toList ++ ['\x7d']) := by
  rw [write, String.toList_append, String.toList_append]
  rfl

theorem readsBack_of_succ {v : Value} (some_text : (write v).toList ≠ [])
    (back : ∀ fuel rest, (write v).toList.length ≤ fuel + 1 → EndsNumber rest →
      readValue (fuel + 1) ((write v).toList ++ rest) = (v, rest)) : ReadsBack v := by
  intro fuel rest enough ends
  have := List.length_pos_iff.mpr some_text
  obtain ⟨fuel, rfl⟩ : ∃ f, fuel = f + 1 := ⟨fuel - 1, by omega⟩
  exact back fuel rest enough ends

theorem unclosed_joined {c close : Char} {part : List Char} {text : String}
    (head : text.toList = c :: part) (no_space : isSpace c = false) (other : c ≠ close)
    (texts : List String) (rest tail : List Char) :
    skipSpace ((",".intercalate (text :: texts)).toList ++ rest) ≠ close :: tail := by
  have joined : ∃ more, (",".intercalate (text :: texts)).toList = c :: more := by
    cases texts with
    | nil => exact ⟨part, by rw [String.intercalate_singleton, head]⟩
    | cons next texts =>
      exact ⟨_, by rw [toList_joined_cons _ (List.cons_ne_nil next texts), head, List.cons_append]⟩
  obtain ⟨more, eq⟩ := joined
  rw [eq, List.cons_append, skipSpace_cons no_space]
  exact fun same => other (List.cons.inj same).1

theorem readsBack_array {items : List Value} (plain : ∀ item ∈ items, Plain item)
    (each : ∀ item ∈ items, ReadsBack item) : ReadsBack (.array items) := by
  refine readsBack_of_succ (by simp [toList_write_array]) fun fuel rest enough _ => ?_
  rw [toList_write_array] at enough ⊢
  rw [List.length_cons, List.length_append, List.length_singleton] at enough
  cases items with
  | nil => rfl
  | cons item items =>
    have read := readItems_written (List.cons_ne_nil item items) each fuel rest (by omega)
    rw [List.cons_append, List.append_assoc, List.singleton_append]
    obtain ⟨c, tail, head, no_space, other, -⟩ := head_write (plain item List.mem_cons_self)
    exact readValue_brackets (unclosed_joined head no_space other _ _) read

theorem readsBack_object {members : List (Option String × Value)}
    (names : ∀ m ∈ members, m.1.isSome = true) (each : ∀ m ∈ members, ReadsBack m.2) :
    ReadsBack (.object members) := by
  refine readsBack_of_succ (by simp [toList_write_object]) fun fuel rest enough _ => ?_
  rw [toList_write_object] at enough ⊢
  rw [List.length_cons, List.length_append, List.length_singleton] at enough
  cases members with
  | nil => rfl
  | cons m members =>
    have read :=
      readMembers_written (List.cons_ne_nil m members) names each fuel rest (by omega)
    rw [List.cons_append, List.append_assoc, List.singleton_append]
    obtain ⟨part, head⟩ :
        ∃ part, (writeString (m.1.getD "") ++ ":" ++ write m.2).toList = '"' :: part :=
      ⟨_, by rw [String.toList_append, String.toList_append, toList_writeString]; rfl⟩
    exact readValue_braces (unclosed_joined head rfl (by decide) _ _) read

/-- A written tree is read as itself. The fuel only has to be as long as its text. -/
theorem readsBack_of_plain {v : Value} (plain : Plain v) : ReadsBack v := by
  induction plain with
  | null => exact readsBack_of_succ (by decide) fun _ _ _ _ => rfl
  | bool b => cases b <;> exact readsBack_of_succ (by decide) fun _ _ _ _ => rfl
  | string s =>
    refine readsBack_of_succ (by simp [write, toList_writeString]) fun fuel rest _ _ => ?_
    obtain ⟨pieces, joined, read⟩ := readPieces_written s.toList rest
    rw [write, toList_writeString, List.cons_append, List.append_assoc, List.singleton_append]
    simp only [readValue.eq_2, skipSpace_cons (c := '"') rfl, read, joined, String.ofList_toList]
  | number n whole scale =>
    obtain ⟨c, tail, eq, starts⟩ := head_writeNumber scale
    refine readsBack_of_succ (by simp [write, eq]) fun fuel rest _ ends => ?_
    have read := readNumber_written whole scale ends
    rw [eq, List.cons_append] at read
    rw [write, eq, List.cons_append, readValue_number starts read]
  | array items plain ih => exact readsBack_array plain ih
  | object members names _ ih => exact readsBack_object names ih

/-- A written document is read as itself, to its end. -/
theorem read_write {v : Value} (plain : Plain v) : read (write v) = (v, true) := by
  have back := readsBack_of_plain plain ((write v).toList.length + 1) [] (by omega)
    (fun _ _ h => absurd h.symm (List.cons_ne_nil _ _))
  rw [List.append_nil] at back
  simp only [read, back]
  rfl

end ModuleDepot.Json
