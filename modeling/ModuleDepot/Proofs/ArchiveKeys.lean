import ModuleDepot.Storage.Key

/-!
Archive keys tell coordinates apart. The escape can be read back, and since a checked
source holds no `@`, the first `@` of a key stands right behind its source.
-/

namespace ModuleDepot

namespace Text

/-- A cut finds the mark that stands behind a text without it. -/
theorem cutFirst_append (mark : Char) (before after : List Char) (absent : mark ∉ before) :
    cutFirst mark (before ++ mark :: after) = some (before, after) := by
  induction before with
  | nil => simp [cutFirst]
  | cons c rest ih =>
      obtain ⟨different, later⟩ := not_or.mp (mt List.mem_cons.mpr absent)
      simp [cutFirst, Ne.symm different, ih later]

end Text

namespace EscapedPath

/-- A letter is the upper-case form of its own lower-case form. -/
theorem lower_of_upper (c : Char) (upper : c.isUpper = true) :
    c.toLower.isLower = true ∧ c.toLower.toUpper = c ∧ c.toLower ≠ '@' := by
  have within : 65 ≤ c.val ∧ c.val ≤ 90 := of_decide_eq_true upper
  have bounds : 65 ≤ c.toNat ∧ c.toNat ≤ 90 :=
    ⟨UInt32.le_iff_toNat_le.mp within.1, UInt32.le_iff_toNat_le.mp within.2⟩
  have letter : c = Char.ofNat c.toNat := (Char.ofNat_toNat c).symm
  generalize c.toNat = n at bounds letter
  subst letter
  obtain ⟨low, high⟩ := bounds
  -- There are only a few capitals, so all of them can be tried.
  have all : ∀ n < 91, 65 ≤ n → (Char.ofNat n).toLower.isLower = true ∧
      (Char.ofNat n).toLower.toUpper = Char.ofNat n ∧ (Char.ofNat n).toLower ≠ '@' := by
    decide
  exact all n (by omega) low

/-- What was escaped is read back. -/
theorem restoreCase_of_foldCase (text folded : List Char) (escaped : foldCase? text = some folded) :
    restoreCase folded = .ok text := by
  induction text generalizing folded with
  | nil =>
      obtain rfl : [] = folded := by simpa [foldCase?] using escaped
      rfl
  | cons c rest ih =>
      -- A capital is written as a mark and its small letter, any other character as it is.
      unfold foldCase? at escaped
      by_cases mark : c = '!'
      · simp [mark] at escaped
      · by_cases upper : c.isUpper = true
        · rw [if_neg mark, if_pos upper, Option.map_eq_some_iff] at escaped
          obtain ⟨tail, inner, rfl⟩ := escaped
          obtain ⟨lower, back, -⟩ := lower_of_upper c upper
          simp [restoreCase, lower, back, ih tail inner, Except.map]
        · rw [if_neg mark, if_neg upper, Option.map_eq_some_iff] at escaped
          obtain ⟨tail, inner, rfl⟩ := escaped
          simp [restoreCase, mark, upper, ih tail inner, Except.map]

/-- The escape writes no `@` that was not there. -/
theorem absent_of_foldCase (text folded : List Char) (escaped : foldCase? text = some folded)
    (absent : '@' ∉ text) : '@' ∉ folded := by
  induction text generalizing folded with
  | nil =>
      obtain rfl : [] = folded := by simpa [foldCase?] using escaped
      exact absent
  | cons c rest ih =>
      obtain ⟨different, later⟩ := not_or.mp (mt List.mem_cons.mpr absent)
      unfold foldCase? at escaped
      by_cases mark : c = '!'
      · simp [mark] at escaped
      · by_cases upper : c.isUpper = true
        · rw [if_neg mark, if_pos upper, Option.map_eq_some_iff] at escaped
          obtain ⟨tail, inner, rfl⟩ := escaped
          obtain ⟨-, -, other⟩ := lower_of_upper c upper
          simp [Ne.symm other, ih tail inner later]
        · rw [if_neg mark, if_neg upper, Option.map_eq_some_iff] at escaped
          obtain ⟨tail, inner, rfl⟩ := escaped
          simp [different, ih tail inner later]

theorem escape_eq_ok_iff (text escaped : String) :
    escape text = .ok escaped ↔ foldCase? text.toList = some escaped.toList := by
  unfold escape
  cases folded : foldCase? text.toList with
  | none => simp
  | some chars =>
      simp only [Except.ok.injEq, Option.some.injEq]
      constructor
      · rintro rfl
        exact String.toList_ofList.symm
      · rintro rfl
        exact String.ofList_toList

theorem escape_injective (a b escaped : String) (first : escape a = .ok escaped)
    (second : escape b = .ok escaped) : a = b := by
  rw [escape_eq_ok_iff] at first second
  have same := (restoreCase_of_foldCase _ _ first).symm.trans (restoreCase_of_foldCase _ _ second)
  exact String.toList_inj.mp (Except.ok.inj same)

end EscapedPath

namespace Coordinate

/-- The coordinate passes the check that every coordinate made from two texts passes. -/
def Accepted (c : Coordinate) : Prop := make c.source c.version = .ok c

theorem accepted_iff (c : Coordinate) : c.Accepted ↔ fault? c = none := by
  simp [Accepted, make_eq_ok_iff]

instance (c : Coordinate) : Decidable c.Accepted := decidable_of_iff _ (accepted_iff c).symm

theorem isForbidden_eq_false_iff (letter : Char) :
    isForbidden letter = false ↔ letter ≠ '@' ∧ Text.isBlank letter = false := by
  rw [isForbidden, Bool.or_eq_false_iff, beq_eq_false_iff_ne, and_comm]

theorem hasEdgeSlash_eq_false_iff (source : String) : hasEdgeSlash source = false ↔
    source.toList.head? ≠ some '/' ∧ source.toList.getLast? ≠ some '/' := by
  rw [hasEdgeSlash, Bool.or_eq_false_iff, beq_eq_false_iff_ne, beq_eq_false_iff_ne]

/-- What is asked of a coordinate: both halves are there, the source neither begins nor ends in a
slash, and no letter of either half is an `@` or a blank. -/
structure Sound (c : Coordinate) : Prop where
  some_source : c.source ≠ ""
  some_version : c.version ≠ ""
  begins : c.source.toList.head? ≠ some '/'
  ends : c.source.toList.getLast? ≠ some '/'
  clean : ∀ letter ∈ c.source.toList ++ c.version.toList,
    letter ≠ '@' ∧ Text.isBlank letter = false

theorem accepted_iff_sound (c : Coordinate) : c.Accepted ↔ c.Sound := by
  have clean : (c.source.toList ++ c.version.toList).find? isForbidden = none ↔
      ∀ letter ∈ c.source.toList ++ c.version.toList,
        letter ≠ '@' ∧ Text.isBlank letter = false := by
    simp only [List.find?_eq_none, Bool.not_eq_true, isForbidden_eq_false_iff]
  rw [accepted_iff, fault?]
  constructor
  · intro sound
    split at sound
    · cases sound
    · next some_source =>
        split at sound
        · cases sound
        · next some_version =>
            split at sound
            · cases sound
            · next edges =>
                rw [Bool.not_eq_true, hasEdgeSlash_eq_false_iff] at edges
                exact ⟨some_source, some_version, edges.1, edges.2,
                  clean.mp (Option.map_eq_none_iff.mp sound)⟩
  · rintro ⟨some_source, some_version, begins, ends, letters⟩
    have edges := (hasEdgeSlash_eq_false_iff c.source).mpr ⟨begins, ends⟩
    rw [if_neg some_source, if_neg some_version, edges, if_neg Bool.false_ne_true,
      clean.mpr letters, Option.map_none]

/-- Neither half holds a blank or an `@`. -/
theorem Accepted.clean {c : Coordinate} (accepted : c.Accepted) :
    ∀ d ∈ c.source.toList ++ c.version.toList, isForbidden d = false := fun d member =>
  (isForbidden_eq_false_iff d).mpr (((accepted_iff_sound c).mp accepted).clean d member)

theorem Accepted.unmarked {c : Coordinate} (accepted : c.Accepted) :
    '@' ∉ c.source.toList ∧ '@' ∉ c.version.toList := by
  have absent : '@' ∉ c.source.toList ++ c.version.toList := fun member => by
    simpa [isForbidden] using accepted.clean '@' member
  simpa using absent

theorem archiveKey_eq_ok_iff (c : Coordinate) (key : String) :
    c.archiveKey = .ok key ↔ ∃ source version, EscapedPath.escape c.source = .ok source ∧
      EscapedPath.escape c.version = .ok version ∧
      key = source ++ "/@v/" ++ version ++ ".zip" := by
  unfold archiveKey
  cases EscapedPath.escape c.source with
  | error e => simp [bind, Except.bind]
  | ok source =>
      cases EscapedPath.escape c.version with
      | error e => simp [bind, Except.bind]
      | ok version =>
          simp only [bind, Except.bind, pure, Except.pure, Except.ok.injEq]
          constructor
          · rintro rfl
            exact ⟨source, version, rfl, rfl, rfl⟩
          · rintro ⟨_, _, rfl, rfl, rfl⟩
            rfl

/-- Two accepted coordinates with the same key are the same. -/
theorem archiveKey_injective {a b : Coordinate} (first : a.Accepted) (second : b.Accepted)
    {key : String} (keyA : a.archiveKey = .ok key) (keyB : b.archiveKey = .ok key) : a = b := by
  obtain ⟨sourceA, versionA, escSourceA, escVersionA, rfl⟩ := (archiveKey_eq_ok_iff a key).mp keyA
  obtain ⟨sourceB, versionB, escSourceB, escVersionB, same⟩ := (archiveKey_eq_ok_iff b _).mp keyB
  have absentA := EscapedPath.absent_of_foldCase _ _
    ((EscapedPath.escape_eq_ok_iff _ _).mp escSourceA) first.unmarked.1
  have absentB := EscapedPath.absent_of_foldCase _ _
    ((EscapedPath.escape_eq_ok_iff _ _).mp escSourceB) second.unmarked.1
  -- Both keys are cut at their first `@`, which the text before it cannot hold.
  have cut : ∀ source version : String, '@' ∉ source.toList →
      Text.cutFirst '@' (source ++ "/@v/" ++ version ++ ".zip").toList =
        some (source.toList ++ ['/'], 'v' :: '/' :: version.toList ++ ".zip".toList) := by
    intro source version absent
    have shape : (source ++ "/@v/" ++ version ++ ".zip").toList =
        (source.toList ++ ['/']) ++ '@' :: ('v' :: '/' :: version.toList ++ ".zip".toList) := by
      simp [String.toList_append]
    rw [shape]
    exact Text.cutFirst_append _ _ _ (by simp [absent])
  have halves := (cut sourceA versionA absentA).symm.trans
    ((congrArg (Text.cutFirst '@' ∘ String.toList) same).trans (cut sourceB versionB absentB))
  simp only [Option.some.injEq, Prod.mk.injEq, List.append_cancel_right_eq, List.cons_append,
    List.cons.injEq, true_and] at halves
  obtain ⟨sources, versions⟩ := halves
  have sameSource := EscapedPath.escape_injective _ _ _ escSourceA
    (String.toList_inj.mp sources ▸ escSourceB)
  have sameVersion := EscapedPath.escape_injective _ _ _ escVersionA
    (String.toList_inj.mp versions ▸ escVersionB)
  cases a
  cases b
  simp only at sameSource sameVersion
  rw [sameSource, sameVersion]

end Coordinate

end ModuleDepot
