import Mathlib.Algebra.GroupWithZero.Nat
import ModuleDepot.Proofs.SortOrders

/-!
The precedence of versions, said without lengths and letters of numbers: identifiers that are
numbers are compared by value. On texts that read as versions the comparison of the sort is this
precedence, and the sort is the only list that has its versions in this order, the other texts
behind them, and all that is equal where it was.
-/

namespace ModuleDepot.Version

open Std (LawfulEqCmp OrientedCmp TransCmp)
open Text (decimalValue)

/-! ## Precedence -/

inductive IdentifierBefore (a b : List Char) : Prop
  | numbers : isNumeric a = true → isNumeric b = true → decimalValue a < decimalValue b →
      IdentifierBefore a b
  | numberFirst : isNumeric a = true → isNumeric b = false → IdentifierBefore a b
  | words : isNumeric a = false → isNumeric b = false → a < b → IdentifierBefore a b

/-- Numbers of a build may begin with zeros; of equal ones that with fewer zeros comes first. -/
inductive BuildBefore (a b : List Char) : Prop
  | identifier : IdentifierBefore a b → BuildBefore a b
  | zeros : isNumeric a = true → isNumeric b = true → decimalValue a = decimalValue b →
      a.length < b.length → BuildBefore a b

inductive PreReleaseBefore : List (List Char) → List (List Char) → Prop
  | release {first : List Char} {rest : List (List Char)} : PreReleaseBefore (first :: rest) []
  | identifiers {first : List Char} {rest others : List (List Char)} :
      List.Lex IdentifierBefore (first :: rest) others → PreReleaseBefore (first :: rest) others

inductive Before (v w : Version) : Prop
  | major : v.major < w.major → Before v w
  | minor : v.major = w.major → v.minor < w.minor → Before v w
  | patch : v.major = w.major → v.minor = w.minor → v.patch < w.patch → Before v w
  | preRelease : v.major = w.major → v.minor = w.minor → v.patch = w.patch →
      PreReleaseBefore v.pre w.pre → Before v w
  | build : v.major = w.major → v.minor = w.minor → v.patch = w.patch → v.pre = w.pre →
      List.Lex BuildBefore v.build w.build → Before v w

/-! ## Values of digits -/

section Digits

def AreDigits (digits : List Char) : Prop := ∀ c ∈ digits, c.isDigit = true

variable {a b : List Char}

theorem areDigits_iff : isNumeric a = true ↔ AreDigits a := List.all_eq_true

theorem decimalValue_cons (c : Char) (rest : List Char) :
    decimalValue (c :: rest) =
      10 ^ rest.length * (c.toNat - '0'.toNat) + decimalValue rest := by
  have split : Nat.ofDigitChars 10 rest (c.toNat - '0'.toNat) = _ :=
    Nat.ofDigitChars_eq_ofDigitChars_zero
  rw [Nat.ofDigitChars_eq_foldl, Nat.ofDigitChars_eq_foldl] at split
  rw [decimalValue, List.foldl_cons, Nat.mul_zero, Nat.zero_add]
  exact split

theorem decimalValue_lt (digits : AreDigits a) : decimalValue a < 10 ^ a.length := by
  induction a with
  | nil => decide
  | cons c rest ih =>
    have within := (Char.isDigit_iff_toNat.mp (digits c List.mem_cons_self)).2
    have small : c.toNat - '0'.toNat ≤ 9 := Nat.sub_le_of_le_add within
    have below := ih fun d among => digits d (List.mem_cons_of_mem c among)
    have first := Nat.mul_le_mul_left (10 ^ rest.length) small
    rw [decimalValue_cons, List.length_cons, Nat.pow_succ]
    omega

theorem compare_digit {c d : Char} (first : c.isDigit = true) (second : d.isDigit = true) :
    compare (c.toNat - '0'.toNat) (d.toNat - '0'.toNat) = compare c d := by
  have low := (Char.isDigit_iff_toNat.mp first).1
  have high := (Char.isDigit_iff_toNat.mp second).1
  have less : c.toNat - '0'.toNat < d.toNat - '0'.toNat ↔ c.toNat < d.toNat := by omega
  have greater : d.toNat - '0'.toNat < c.toNat - '0'.toNat ↔ d.toNat < c.toNat := by omega
  rw [Nat.compare_eq_ite_lt]
  simp only [less, greater]
  rw [← Nat.compare_eq_ite_lt]
  simp [compare, compareOfLessAndEq, Char.lt_def, ← Char.toNat_inj]
  rfl

theorem compare_mul_add {size x y v w : Nat} (left : v < size) (right : w < size) :
    compare (size * x + v) (size * y + w) = (compare x y).then (compare v w) := by
  rcases Nat.lt_trichotomy x y with less | rfl | greater
  · have grown := Nat.mul_le_mul_left size (Nat.succ_le_of_lt less)
    rw [Nat.mul_succ] at grown
    rw [Nat.compare_eq_lt.mpr less]
    exact Nat.compare_eq_lt.mpr (by omega)
  · simp [Nat.compare_eq_ite_lt]
  · have grown := Nat.mul_le_mul_left size (Nat.succ_le_of_lt greater)
    rw [Nat.mul_succ] at grown
    rw [Nat.compare_eq_gt.mpr greater]
    exact Nat.compare_eq_gt.mpr (by omega)

-- Numbers of one length are compared by their first different digit.
theorem compare_of_length_eq (first : AreDigits a) (second : AreDigits b)
    (same : a.length = b.length) : compare (decimalValue a) (decimalValue b) = compare a b := by
  induction a generalizing b with
  | nil =>
    rw [List.eq_nil_of_length_eq_zero same.symm]
    rfl
  | cons c rest ih =>
    cases b with
    | nil => cases same
    | cons d more =>
      have lengths : rest.length = more.length := Nat.succ.inj same
      obtain ⟨digit, left⟩ := List.forall_mem_cons.mp first
      obtain ⟨other, right⟩ := List.forall_mem_cons.mp second
      calc compare (decimalValue (c :: rest)) (decimalValue (d :: more))
          = (compare (c.toNat - '0'.toNat) (d.toNat - '0'.toNat)).then
              (compare (decimalValue rest) (decimalValue more)) := by
            rw [decimalValue_cons, decimalValue_cons, lengths]
            exact compare_mul_add (lengths ▸ decimalValue_lt left) (decimalValue_lt right)
        _ = (compare c d).then (compare rest more) := by
            rw [compare_digit digit other, ih left right lengths]
        _ = compare (c :: rest) (d :: more) := List.compareLex_cons_cons.symm

theorem lt_of_length_lt (first : AreDigits a) (second : AreDigits b)
    (full : b.head? ≠ some '0') (shorter : a.length < b.length) :
    decimalValue a < decimalValue b := by
  cases b with
  | nil => cases shorter
  | cons d more =>
    have left := decimalValue_lt first
    have low := (Char.isDigit_iff_toNat.mp (second d List.mem_cons_self)).1
    have other : d ≠ '0' := by simpa using full
    have some_value : 1 ≤ d.toNat - '0'.toNat := by
      have apart : d.toNat ≠ '0'.toNat := fun same => other (Char.toNat_inj.mp same)
      omega
    have grown : 10 ^ a.length ≤ 10 ^ more.length :=
      Nat.pow_le_pow_right (by decide) (Nat.lt_succ_iff.mp shorter)
    have most := Nat.mul_le_mul_left (10 ^ more.length) some_value
    rw [decimalValue_cons]
    omega

-- Without zeros in front the longer number is the greater one.
theorem compare_length_then (first : AreDigits a) (second : AreDigits b)
    (full : a.length < b.length → b.head? ≠ some '0')
    (other_full : b.length < a.length → a.head? ≠ some '0') :
    (compare a.length b.length).then (compare a b) =
      compare (decimalValue a) (decimalValue b) := by
  rcases Nat.lt_trichotomy a.length b.length with shorter | same | longer
  · rw [Nat.compare_eq_lt.mpr shorter,
      Nat.compare_eq_lt.mpr (lt_of_length_lt first second (full shorter) shorter)]
    rfl
  · rw [Nat.compare_eq_eq.mpr same, compare_of_length_eq first second same]
    rfl
  · rw [Nat.compare_eq_gt.mpr longer,
      Nat.compare_eq_gt.mpr (lt_of_length_lt second first (other_full longer) longer)]
    rfl

theorem decimalValue_dropWhile (a : List Char) :
    decimalValue (a.dropWhile (· == '0')) = decimalValue a := by
  induction a with
  | nil => rfl
  | cons c rest ih =>
    by_cases zero : c = '0'
    · subst zero
      rw [List.dropWhile_cons_of_pos (by decide), ih, decimalValue_cons, Nat.sub_self,
        Nat.mul_zero, Nat.zero_add]
    · rw [List.dropWhile_cons_of_neg (by simpa using zero)]

theorem head?_dropWhile_ne (a : List Char) : (a.dropWhile (· == '0')).head? ≠ some '0' := by
  induction a with
  | nil => simp
  | cons c rest ih =>
    by_cases zero : c = '0'
    · rwa [List.dropWhile_cons_of_pos (by simpa using zero)]
    · rw [List.dropWhile_cons_of_neg (by simpa using zero)]
      simpa using zero

-- What is dropped from two texts of one length is then as many zeros.
theorem eq_of_dropWhile (same : a.dropWhile (· == '0') = b.dropWhile (· == '0'))
    (lengths : a.length = b.length) : a = b := by
  have zeros : ∀ c : List Char, c.takeWhile (· == '0') =
      List.replicate (c.takeWhile (· == '0')).length '0' := fun c =>
    List.eq_replicate_of_mem fun d among => by
      simpa using List.all_eq_true.mp List.all_takeWhile d among
  have first := List.takeWhile_append_dropWhile (p := (· == '0')) (l := a)
  have second := List.takeWhile_append_dropWhile (p := (· == '0')) (l := b)
  have counts : (a.takeWhile (· == '0')).length = (b.takeWhile (· == '0')).length := by
    rw [← first, ← second, List.length_append, List.length_append, same] at lengths
    simpa using lengths
  rw [← first, ← second, zeros a, zeros b, counts, same]

end Digits

/-! ## Comparisons that decide -/

section Decides

variable {α : Type} {cmp : α → α → Ordering} {before : α → α → Prop} {a b : α}

def Decides (cmp : α → α → Ordering) (before : α → α → Prop) (a b : α) : Prop :=
  (cmp a b = .lt ↔ before a b) ∧ (cmp a b = .eq ↔ a = b)

-- The first items that differ decide, or else the end of the shorter list.
theorem decides_compareLex {as bs : List α}
    (each : ∀ a ∈ as, ∀ b ∈ bs, Decides cmp before a b) :
    Decides (List.compareLex cmp) (List.Lex before) as bs := by
  induction as generalizing bs with
  | nil =>
    cases bs with
    | nil => simp [Decides, List.compareLex_nil_nil]
    | cons b bs => simp [Decides, List.compareLex_nil_cons]
  | cons a as ih =>
    cases bs with
    | nil => simp [Decides, List.compareLex_cons_nil]
    | cons b bs =>
      obtain ⟨less, equal⟩ := each a List.mem_cons_self b List.mem_cons_self
      obtain ⟨later_less, later_equal⟩ := ih fun c among d other =>
        each c (List.mem_cons_of_mem a among) d (List.mem_cons_of_mem b other)
      rw [Decides, List.compareLex_cons_cons, Ordering.then_eq_lt, Ordering.then_eq_eq,
        List.cons_lex_cons_iff, less, equal, later_less, later_equal, List.cons.injEq]
      exact ⟨Iff.rfl, Iff.rfl⟩

end Decides

theorem decides_letters (a b : List Char) : Decides compare (· < ·) a b :=
  decides_compareLex fun _ _ _ _ =>
    ⟨compareOfLessAndEq_eq_lt, LawfulEqCmp.compare_eq_iff_eq⟩

section Identifiers

variable {a b : List Char}

theorem identifierBefore_numbers (first : isNumeric a = true) (second : isNumeric b = true) :
    IdentifierBefore a b ↔ decimalValue a < decimalValue b := by
  constructor
  · rintro (⟨-, -, less⟩ | ⟨-, word⟩ | ⟨word, -, -⟩)
    · exact less
    · simp [second] at word
    · simp [first] at word
  · exact .numbers first second

theorem identifierBefore_words (first : isNumeric a = false) (second : isNumeric b = false) :
    IdentifierBefore a b ↔ a < b := by
  constructor
  · rintro (⟨number, -, -⟩ | ⟨number, -⟩ | ⟨-, -, less⟩)
    · simp [first] at number
    · simp [first] at number
    · exact less
  · exact .words first second

theorem not_identifierBefore_number (first : isNumeric a = false) (second : isNumeric b = true) :
    ¬ IdentifierBefore a b := by
  rintro (⟨number, -, -⟩ | ⟨number, -⟩ | ⟨-, word, -⟩)
  · simp [first] at number
  · simp [first] at number
  · simp [second] at word

def Canonical (identifier : List Char) : Prop := identifier ≠ [] ∧ hasExtraZero identifier = false

-- A number of more than one digit does not begin with a zero.
theorem Canonical.full (sound : Canonical b) (number : isNumeric b = true) (some_digit : a ≠ [])
    (shorter : a.length < b.length) : b.head? ≠ some '0' := by
  have long : 1 < b.length := Nat.lt_of_le_of_lt (List.length_pos_iff.mpr some_digit) shorter
  intro zero
  have extra := sound.2
  simp [hasExtraZero, number, zero, long] at extra

theorem decides_of_word (word : isNumeric a = false ∨ isNumeric b = false) :
    Decides comparePre IdentifierBefore a b := by
  cases number : isNumeric a <;> cases other : isNumeric b
  case true.true => simp [number, other] at word
  case false.false =>
    simp only [Decides, comparePre, number, other, identifierBefore_words number other]
    exact decides_letters a b
  case true.false =>
    simp only [Decides, comparePre, number, other]
    refine ⟨iff_of_true trivial (.numberFirst number other), iff_of_false (by simp) ?_⟩
    rintro rfl
    simp [number] at other
  case false.true =>
    simp only [Decides, comparePre, number, other]
    refine ⟨iff_of_false (by simp) (not_identifierBefore_number number other),
      iff_of_false (by simp) ?_⟩
    rintro rfl
    simp [number] at other

theorem decides_comparePre (first : Canonical a) (second : Canonical b) :
    Decides comparePre IdentifierBefore a b := by
  by_cases both : isNumeric a = true ∧ isNumeric b = true
  · obtain ⟨number, other⟩ := both
    have values := compare_length_then (areDigits_iff.mp number) (areDigits_iff.mp other)
      (second.full other first.1) (first.full number second.1)
    have compared : comparePre a b = (compare a.length b.length).then (compare a b) := by
      simp only [comparePre, number, other]
    constructor
    · rw [compared, values, Nat.compare_eq_lt, identifierBefore_numbers number other]
    · rw [compared, Ordering.then_eq_eq, Nat.compare_eq_eq, LawfulEqCmp.compare_eq_iff_eq]
      exact ⟨And.right, fun same => ⟨congrArg List.length same, same⟩⟩
  · exact decides_of_word (by simpa [imp_iff_not_or] using both)

theorem buildBefore_iff : BuildBefore a b ↔ IdentifierBefore a b ∨
    isNumeric a = true ∧ isNumeric b = true ∧ decimalValue a = decimalValue b ∧
      a.length < b.length := by
  constructor
  · rintro (before | ⟨number, other, same, fewer⟩)
    · exact .inl before
    · exact .inr ⟨number, other, same, fewer⟩
  · rintro (before | ⟨number, other, same, fewer⟩)
    · exact .identifier before
    · exact .zeros number other same fewer

theorem decides_compareBuild (a b : List Char) : Decides compareBuild BuildBefore a b := by
  by_cases both : isNumeric a = true ∧ isNumeric b = true
  · obtain ⟨number, other⟩ := both
    have within : ∀ c : List Char, AreDigits c → AreDigits (c.dropWhile (· == '0')) :=
      fun c digits d among => digits d ((List.dropWhile_sublist _).subset among)
    have values := compare_length_then (within a (areDigits_iff.mp number))
      (within b (areDigits_iff.mp other)) (fun _ => head?_dropWhile_ne b)
      fun _ => head?_dropWhile_ne a
    have compared : compareBuild a b =
        ((compare (a.dropWhile (· == '0')).length (b.dropWhile (· == '0')).length).then
          (compare (a.dropWhile (· == '0')) (b.dropWhile (· == '0')))).then
          (compare a.length b.length) := by
      simp only [compareBuild, number, other]
    constructor
    · rw [compared, values, decimalValue_dropWhile, decimalValue_dropWhile, Ordering.then_eq_lt,
        Nat.compare_eq_lt, Nat.compare_eq_eq, Nat.compare_eq_lt, buildBefore_iff,
        identifierBefore_numbers number other]
      simp [number, other]
    · simp only [compared, Ordering.then_eq_eq, LawfulEqCmp.compare_eq_iff_eq]
      constructor
      · rintro ⟨⟨-, same⟩, lengths⟩
        exact eq_of_dropWhile same lengths
      · rintro rfl
        simp
  · have word : isNumeric a = false ∨ isNumeric b = false := by
      simpa [imp_iff_not_or] using both
    have compared : compareBuild a b = comparePre a b := by
      cases number : isNumeric a <;> cases other : isNumeric b
      case true.true => exact absurd ⟨number, other⟩ both
      all_goals simp only [compareBuild, comparePre, number, other]
    have before : BuildBefore a b ↔ IdentifierBefore a b := by
      rw [buildBefore_iff, or_iff_left]
      exact fun numbers => both ⟨numbers.1, numbers.2.1⟩
    rw [Decides, compared, before]
    exact decides_of_word word

end Identifiers

/-! ## Versions -/

theorem decides_comparePreRelease {as bs : List (List Char)} (first : ∀ i ∈ as, Canonical i)
    (second : ∀ i ∈ bs, Canonical i) : Decides comparePreRelease PreReleaseBefore as bs := by
  cases as with
  | nil =>
    cases bs with
    | nil =>
      refine ⟨iff_of_false (by simp [comparePreRelease]) (by rintro ⟨⟩), ?_⟩
      simp [comparePreRelease]
    | cons b bs =>
      refine ⟨iff_of_false (by simp [comparePreRelease]) (by rintro ⟨⟩), ?_⟩
      simp [comparePreRelease]
  | cons a as =>
    cases bs with
    | nil => exact ⟨iff_of_true rfl .release, by simp [comparePreRelease]⟩
    | cons b bs =>
      have lists := decides_compareLex fun i member j other =>
        decides_comparePre (first i member) (second j other)
      rw [← compareIdentifiers_eq] at lists
      refine ⟨lists.1.trans ⟨.identifiers, ?_⟩, lists.2⟩
      rintro ⟨⟩
      assumption

theorem before_iff {v w : Version} : Before v w ↔
    v.major < w.major ∨ v.major = w.major ∧ (v.minor < w.minor ∨ v.minor = w.minor ∧
      (v.patch < w.patch ∨ v.patch = w.patch ∧ (PreReleaseBefore v.pre w.pre ∨ v.pre = w.pre ∧
        List.Lex BuildBefore v.build w.build))) := by
  constructor
  · rintro (less | ⟨major, less⟩ | ⟨major, minor, less⟩ | ⟨major, minor, patch, less⟩ |
      ⟨major, minor, patch, pre, less⟩)
    · exact .inl less
    · exact .inr ⟨major, .inl less⟩
    · exact .inr ⟨major, .inr ⟨minor, .inl less⟩⟩
    · exact .inr ⟨major, .inr ⟨minor, .inr ⟨patch, .inl less⟩⟩⟩
    · exact .inr ⟨major, .inr ⟨minor, .inr ⟨patch, .inr ⟨pre, less⟩⟩⟩⟩
  · rintro (less | ⟨major, less | ⟨minor, less | ⟨patch, less | ⟨pre, less⟩⟩⟩⟩)
    · exact .major less
    · exact .minor major less
    · exact .patch major minor less
    · exact .preRelease major minor patch less
    · exact .build major minor patch pre less

theorem decides_order {v w : Version} (first : ∀ i ∈ v.pre, Canonical i)
    (second : ∀ i ∈ w.pre, Canonical i) : Decides order Before v w := by
  obtain ⟨pre_less, pre_equal⟩ := decides_comparePreRelease first second
  have build :
      Decides (compareIdentifiers compareBuild) (List.Lex BuildBefore) v.build w.build := by
    rw [compareIdentifiers_eq]
    exact decides_compareLex fun i _ j _ => decides_compareBuild i j
  constructor
  · simp only [order, Ordering.then_eq_lt, Nat.compare_eq_lt, Nat.compare_eq_eq, pre_less,
      pre_equal, build.1, before_iff]
  · simp only [order, Ordering.then_eq_eq, Nat.compare_eq_eq, pre_equal, build.2]
    constructor
    · rintro ⟨major, minor, patch, pre, same⟩
      cases v
      cases w
      simp_all
    · rintro rfl
      simp

/-! ## Texts -/

theorem nonempty_of_readIdentifiers {text rest : List Char} {identifiers : List (List Char)}
    (read : readIdentifiers text = some (identifiers, rest)) : ∀ i ∈ identifiers, i ≠ [] := by
  rw [readIdentifiers] at read
  split at read
  · cases read
  · next full =>
    cases read
    intro i member empty
    exact full (List.any_eq_true.mpr ⟨i, member, by rw [empty]; rfl⟩)

theorem nonempty_of_readAfter {mark : Char} {text rest : List Char}
    {identifiers : List (List Char)} (read : readAfter mark text = some (identifiers, rest)) :
    ∀ i ∈ identifiers, i ≠ [] := by
  rw [readAfter.eq_def] at read
  split at read
  · cases read
    simp
  · split at read
    · exact nonempty_of_readIdentifiers read
    · cases read
      simp

theorem canonical_of_parse {text : String} {v : Version} (read : parse? text = some v) :
    ∀ i ∈ v.pre, Canonical i := by
  simp only [parse?, bind, Option.bind_eq_some_iff] at read
  obtain ⟨_, -, _, -, _, -, _, -, _, -, ⟨pre, after⟩, reads, read⟩ := read
  split at read
  · cases read
  · next plain =>
    obtain ⟨⟨build, _⟩, -, read⟩ := Option.bind_eq_some_iff.mp read
    split at read
    · cases read
      intro i member
      refine ⟨nonempty_of_readAfter reads i member, ?_⟩
      rw [← Bool.not_eq_true]
      exact fun extra => plain (List.any_eq_true.mpr ⟨i, member, extra⟩)
    · cases read

/-- A version comes before what is no version. -/
def Precedes (a b : String) : Prop :=
  ∃ v, parse? a = some v ∧ ∀ w, parse? b = some w → v.Before w

theorem decides_textOrder (a b : String) :
    (textOrder a b = .lt ↔ Precedes a b) ∧ (textOrder a b = .eq ↔ parse? a = parse? b) := by
  cases first : parse? a with
  | none => cases second : parse? b <;> simp [textOrder, Precedes, first, second]
  | some v =>
    cases second : parse? b with
    | none => simp [textOrder, Precedes, first, second]
    | some w =>
      have decided := decides_order (canonical_of_parse first) (canonical_of_parse second)
      simpa [Decides, textOrder, Precedes, first, second] using decided

/-! ## The sort -/

/-- Versions in ascending order, other texts behind them, and each text among those of its version
where it was among them. -/
structure InOrder (versions sorted : List String) : Prop where
  perm : sorted.Perm versions
  othersLast : sorted.Pairwise fun a b => parse? a = none → parse? b = none
  ascending : sorted.Pairwise fun a b =>
    ∀ v w, parse? a = some v → parse? b = some w → ¬ w.Before v
  stable : ∀ v : Option Version,
    sorted.filter (fun a => parse? a = v) = versions.filter fun a => parse? a = v

theorem isLE_iff (a b : String) : (textOrder a b).isLE = true ↔ ¬ Precedes b a := by
  rw [← (decides_textOrder b a).1, show textOrder b a = (textOrder a b).swap from
    OrientedCmp.eq_swap]
  cases textOrder a b <;> simp

theorem not_precedes_iff (a b : String) : ¬ Precedes b a ↔
    (parse? a = none → parse? b = none) ∧
      ∀ v w, parse? a = some v → parse? b = some w → ¬ w.Before v := by
  cases first : parse? a <;> cases second : parse? b <;> simp [Precedes, first, second]

theorem inOrder_iff (versions sorted : List String) :
    InOrder versions sorted ↔ StablySorted textOrder versions sorted := by
  have ascends : (sorted.Pairwise fun a b => (textOrder a b).isLE = true) ↔
      (sorted.Pairwise fun a b => parse? a = none → parse? b = none) ∧
        sorted.Pairwise fun a b =>
          ∀ v w, parse? a = some v → parse? b = some w → ¬ w.Before v := by
    rw [← List.pairwise_and_iff]
    simp only [isLE_iff, not_precedes_iff]
  have classes : ∀ a b, decide (textOrder a b = .eq) = decide (parse? b = parse? a) := fun a b => by
    rw [decide_eq_decide, (decides_textOrder a b).2, eq_comm]
  constructor
  · rintro ⟨perm, last, up, stable⟩
    refine ⟨perm, ascends.mpr ⟨last, up⟩, fun a => ?_⟩
    simp only [classes]
    exact stable (parse? a)
  · rintro ⟨perm, up, stable⟩
    obtain ⟨last, up⟩ := ascends.mp up
    refine ⟨perm, last, up, fun v => ?_⟩
    by_cases held : ∃ a, parse? a = v
    · obtain ⟨a, rfl⟩ := held
      simpa only [classes] using stable a
    · have none : ∀ l : List String, l.filter (fun a => parse? a = v) = [] := fun l =>
        List.filter_eq_nil_iff.mpr fun a _ same => held ⟨a, by simpa using same⟩
      rw [none, none]

/-- The comparison of texts is transitive and total. It puts versions by precedence before texts
that are none, and calls only those equal that read alike; and the sort of a list is the one list
that is in this order. -/
theorem versions_sorted_by_precedence :
    TransCmp textOrder ∧
    (∀ a b, (textOrder a b = .lt ↔ Precedes a b) ∧ (textOrder a b = .eq ↔ parse? a = parse? b)) ∧
    ∀ versions sorted, sort versions = sorted ↔ InOrder versions sorted := by
  refine ⟨inferInstance, decides_textOrder, fun versions sorted => ?_⟩
  rw [inOrder_iff]
  constructor
  · rintro rfl
    exact stablySorted versions
  · intro ordered
    exact (stablySorted versions).unique ordered

end ModuleDepot.Version
