import Mathlib.Data.List.Basic
import ModuleDepot.Version

/-!
The addressable part of a version with a build. The fields between dashes are counted while the
build still stands at the end, so dashes of the build count as well: they can make a pseudo-version
of any version, and keep a pseudo-version from being taken for one.
-/

namespace ModuleDepot.Version

def dashes (text : String) : Nat := text.toList.count '-'

def withoutBuild (text : String) : String := String.ofList (text.toList.takeWhile (· != '+'))

/-! ## Fields -/

theorem length_splitOn (text : List Char) :
    (text.splitOn '-').length = text.count '-' + 1 := by
  induction text with
  | nil => rfl
  | cons c rest ih =>
    rw [List.splitOn_cons_eq_if_modifyHead, List.count_cons]
    by_cases dash : c = '-'
    · simp [dash, ih]
    · simp [dash, ih]

theorem dashes_append (first second : String) :
    dashes (first ++ second) = dashes first + dashes second := by
  simp [dashes]

theorem exists_last_field {text : String} (some_dash : dashes text ≠ 0) :
    ∃ front last, text = front ++ "-" ++ last ∧ dashes last = 0 := by
  have among : '-' ∈ text.toList.reverse := by
    rw [List.mem_reverse]
    exact List.count_pos_iff.mp (Nat.pos_of_ne_zero some_dash)
  obtain ⟨last, front, whole, plain⟩ := List.eq_append_cons_of_mem among
  rw [List.reverse_eq_iff] at whole
  refine ⟨String.ofList front.reverse, String.ofList last.reverse, ?_, ?_⟩
  · rw [← String.toList_inj]
    simp [whole]
  · simpa [dashes, List.count_eq_zero] using plain

theorem addressable_of_three {front last : String} (one : dashes front = 1)
    (none : dashes last = 0) : addressable (front ++ "-" ++ last) = withoutBuild last := by
  have split : (front ++ "-" ++ last).toList.splitOn '-' =
      front.toList.splitOn '-' ++ [last.toList] := by
    rw [dashes, List.count_eq_zero] at none
    rw [← List.splitOn_eq_singleton none, ← List.splitOn_append_cons_self]
    simp
  have two := length_splitOn front.toList
  rw [show front.toList.count '-' = 1 from one] at two
  obtain ⟨base, time, both⟩ := List.length_eq_two.mp two
  rw [both] at split
  rw [addressable, split]
  rfl

theorem addressable_of_others {text : String} (other : dashes text ≠ 2) :
    addressable text = withoutBuild text := by
  rw [addressable]
  split
  · next base time commit split =>
    have count := length_splitOn text.toList
    rw [split] at count
    simp only [List.length_cons, List.length_nil] at count
    exact absurd (Nat.succ.inj count).symm other
  · rfl

/-! ## Builds -/

theorem takeWhile_of_plain {text : List Char} (plain : '+' ∉ text) (rest : List Char) :
    (text ++ rest).takeWhile (· != '+') = text ++ rest.takeWhile (· != '+') :=
  List.takeWhile_append_of_pos fun c among => by
    simpa using fun same : c = '+' => plain (same ▸ among)

theorem withoutBuild_append {text : String} (plain : '+' ∉ text.toList) (b : String) :
    withoutBuild (text ++ "+" ++ b) = text := by
  rw [withoutBuild, String.toList_append, String.toList_append, List.append_assoc,
    takeWhile_of_plain plain]
  simp

theorem withoutBuild_of_plain {text : String} (plain : '+' ∉ text.toList) :
    withoutBuild text = text := by
  rw [withoutBuild, ← List.append_nil text.toList, takeWhile_of_plain plain]
  simp

theorem dashes_withoutBuild_le (text : String) : dashes (withoutBuild text) ≤ dashes text := by
  rw [dashes, withoutBuild, String.toList_ofList]
  exact (List.takeWhile_sublist _).count_le _

theorem dashes_build (v b : String) : dashes (v ++ "+" ++ b) = dashes v + dashes b := by
  rw [dashes_append, dashes_append]
  rfl

theorem dashes_split (front last : String) :
    dashes (front ++ "-" ++ last) = dashes front + 1 + dashes last := by
  rw [dashes_append, dashes_append]
  rfl

theorem dashes_addressable_of_two {text : String} (two : dashes text = 2) :
    dashes (addressable text) = 0 := by
  have some_dash : dashes text ≠ 0 := by omega
  obtain ⟨front, last, rfl, none⟩ := exists_last_field some_dash
  rw [dashes_split] at two
  rw [addressable_of_three (by omega) none]
  exact Nat.le_zero.mp (none ▸ dashes_withoutBuild_le last)

/-- The last dash of all is in the build, and what is behind it is taken for a commit. -/
theorem addressable_build_of_dashed {v front last : String} (none : dashes last = 0)
    (two : dashes v + dashes (front ++ "-" ++ last) = 2) :
    addressable (v ++ "+" ++ (front ++ "-" ++ last)) = withoutBuild last := by
  rw [dashes_split] at two
  have moved : v ++ "+" ++ (front ++ "-" ++ last) = v ++ "+" ++ front ++ "-" ++ last := by
    simp only [String.append_assoc]
  rw [moved, addressable_of_three (by rw [dashes_build]; omega) none]

section Plain

variable {v : String} (plain : '+' ∉ v.toList)

include plain

theorem addressable_of_plain (other : dashes v ≠ 2) : addressable v = v := by
  rw [addressable_of_others other, withoutBuild_of_plain plain]

theorem addressable_build_of_others {b : String} (other : dashes v + dashes b ≠ 2) :
    addressable (v ++ "+" ++ b) = v := by
  rw [addressable_of_others (by rwa [dashes_build]), withoutBuild_append plain]

/-- The commit is the last field of the version, with and without such a build. -/
theorem addressable_build_of_undashed {b : String} (none : dashes b = 0) :
    addressable (v ++ "+" ++ b) = addressable v := by
  by_cases two : dashes v = 2
  · have some_dash : dashes v ≠ 0 := by omega
    obtain ⟨front, last, rfl, bare⟩ := exists_last_field some_dash
    rw [dashes_split] at two
    have absent : '+' ∉ last.toList := fun among => plain (by simp [among])
    have moved : front ++ "-" ++ last ++ "+" ++ b = front ++ "-" ++ (last ++ "+" ++ b) := by
      simp only [String.append_assoc]
    rw [moved, addressable_of_three (by omega) (by rw [dashes_build, bare, none]),
      withoutBuild_append absent, addressable_of_three (by omega) bare,
      withoutBuild_of_plain absent]
  · rw [addressable_build_of_others plain (by omega), addressable_of_plain plain two]

theorem addressable_build_iff {b : String} (dashed : dashes b ≠ 0) :
    addressable (v ++ "+" ++ b) = addressable v ↔
      dashes v ≠ 2 ∧ dashes v + dashes b ≠ 2 ∨
        dashes v = 0 ∧ dashes b = 2 ∧ addressable b = v := by
  by_cases two : dashes v + dashes b = 2
  · obtain ⟨front, last, rfl, none⟩ := exists_last_field dashed
    have few := dashes_withoutBuild_le last
    rw [addressable_build_of_dashed none two, addressable_of_plain plain (by omega)]
    constructor
    · intro same
      have bare : dashes v = 0 := by rw [same] at few; omega
      have both : dashes (front ++ "-" ++ last) = 2 := by omega
      rw [dashes_split] at both
      exact .inr ⟨bare, by omega, by rw [addressable_of_three (by omega) none, same]⟩
    · rintro (⟨-, other⟩ | ⟨bare, both, same⟩)
      · exact absurd two other
      · rw [dashes_split] at both
        rwa [addressable_of_three (by omega) none] at same
  · rw [addressable_build_of_others plain two]
    by_cases pseudo : dashes v = 2
    · have other : v ≠ addressable v := fun same => by
        have bare := dashes_addressable_of_two pseudo
        rw [← same] at bare
        omega
      simp [pseudo, other]
    · simp [pseudo, two, addressable_of_plain plain pseudo]

end Plain

/-- A build makes no difference if it has no dashes. If it has some, it makes none exactly if there
are three fields neither without it nor with it, or if its own last field happens to be the
version. -/
theorem build_dropped_unless_dashed (v b : String) (plain : '+' ∉ v.toList) :
    (∀ front commit, v = front ++ "-" ++ commit → dashes front = 1 → dashes commit = 0 →
      addressable v = commit) ∧
    (dashes v ≠ 2 → addressable v = v) ∧
    (addressable (v ++ "+" ++ b) = addressable v ↔
      dashes b = 0 ∨ dashes v ≠ 2 ∧ dashes v + dashes b ≠ 2 ∨
        dashes v = 0 ∧ dashes b = 2 ∧ addressable b = v) := by
  refine ⟨?_, addressable_of_plain plain, ?_⟩
  · rintro front commit rfl one none
    rw [addressable_of_three one none, withoutBuild_of_plain fun among => plain (by simp [among])]
  · by_cases none : dashes b = 0
    · simp [none, addressable_build_of_undashed plain none]
    · rw [addressable_build_iff plain none, or_iff_right none]

theorem build_dropped_incompatible :
    '+' ∉ "v2.0.0-20180111040409-fbec762f837d".toList ∧
      addressable ("v2.0.0-20180111040409-fbec762f837d" ++ "+" ++ "incompatible") =
        addressable "v2.0.0-20180111040409-fbec762f837d" ∧
      addressable "v2.0.0-20180111040409-fbec762f837d" = "fbec762f837d" := by
  have plain : '+' ∉ "v2.0.0-20180111040409-fbec762f837d".toList := by decide
  obtain ⟨commit, -, same⟩ :=
    build_dropped_unless_dashed "v2.0.0-20180111040409-fbec762f837d" "incompatible" plain
  exact ⟨plain, same.mpr (.inl (by decide)),
    commit "v2.0.0-20180111040409" "fbec762f837d" (by decide) (by decide) (by decide)⟩

/-- A dash of the build makes a commit of what is behind it, or hides the commit of the version. -/
theorem dashed_build_misread :
    addressable ("v1.2.3-rc.1" ++ "+" ++ "build-5") = "5" ∧
      addressable "v1.2.3-rc.1" = "v1.2.3-rc.1" ∧
      addressable ("v0.0.0-20180111040409-fbec762f837d" ++ "+" ++ "linux-arm") =
        "v0.0.0-20180111040409-fbec762f837d" ∧
      addressable "v0.0.0-20180111040409-fbec762f837d" = "fbec762f837d" := by
  decide +kernel

end ModuleDepot.Version
