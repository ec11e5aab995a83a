import Mathlib.Algebra.Order.BigOperators.Group.List
import Mathlib.Algebra.Order.Ring.Nat
import ModuleDepot.Proofs.FileWalks
import ModuleDepot.Proofs.Outcomes

/-!
Walks in trees with any links. The way to a path is the way to any path above it and from there
on, and all of that is walked whether a link at the end is followed or not. A path that ends in a
name leads where its names lead.
-/

namespace ModuleDepot.FileTree

variable {tree : FileTree} {here mid place : Location} {follow : Bool} {links : Nat}
  {front back steps path : List String} {name : String}

/-! ## Parts of a walk -/

theorem walk_front (walked : walk tree follow links here (front ++ back) = .ok place)
    (on : back ≠ [] ∨ follow = true) : ∃ mid, walk tree true links here front = .ok mid := by
  fun_induction walk tree true links here front with
  | case1 links here => exact ⟨here, rfl⟩
  | case2 links here step steps dir =>
    rw [List.cons_append, walk, if_pos dir] at walked
    cases walked
  | case3 links here step steps dir dot ih =>
    rw [List.cons_append, walk_dot (Classical.not_not.mp dir) dot] at walked
    exact ih walked
  | case4 links here steps dir _ ih =>
    rw [List.cons_append, walk_up (Classical.not_not.mp dir)] at walked
    exact ih walked
  | case5 links here step steps dir not_dot not_up long =>
    rw [List.cons_append, walk, if_neg dir, if_neg not_dot, if_neg not_up, if_pos long] at walked
    cases walked
  | case6 links here step steps dir not_dot not_up short missing =>
    rw [List.cons_append, walk, if_neg dir, if_neg not_dot, if_neg not_up, if_neg short,
      missing] at walked
    cases walked
  | case7 => simp_all
  | case8 here step steps dir not_dot not_up short fromTop target stands _ =>
    have ahead : ((steps ++ back).isEmpty && !follow) = false := by
      rcases on with more | yes
      · simp [more]
      · simp [yes]
    rw [List.cons_append, walk, if_neg dir, if_neg not_dot, if_neg not_up, if_neg short,
      stands] at walked
    simp [ahead] at walked
  | case9 here step steps dir not_dot not_up short fromTop target stands _ left ih =>
    have followed : steps ++ back ≠ [] ∨ follow = true := on.imp_left fun more => by simp [more]
    rw [List.cons_append, walk_link (Classical.not_not.mp dir) (isName_of_not not_dot not_up)
      (Bool.not_eq_true _ ▸ short) stands followed, ← List.append_assoc] at walked
    rw [dite_eq_ite] at ih
    exact ih walked
  | case10 links here step steps dir not_dot not_up short node solid stands ih =>
    rw [List.cons_append, walk_name (Classical.not_not.mp dir) (isName_of_not not_dot not_up)
      (Bool.not_eq_true _ ▸ short) stands solid] at walked
    exact ih walked

theorem walk_to_end (walked : walk tree follow links here (front ++ back) = .ok place)
    (on : back ≠ [] ∨ follow = true) :
    ∃ mid left, walk tree true links here front = .ok mid ∧
      walk tree follow left mid back = .ok place := by
  obtain ⟨mid, reached⟩ := walk_front walked on
  obtain ⟨left, goes_on⟩ := walk_append (extends_refl tree) reached
  exact ⟨mid, left, reached, goes_on on ▸ walked⟩

theorem walk_of_extends {base : FileTree} (stays : tree.Extends base)
    (walked : walk base true links here steps = .ok place) :
    walk tree true links here steps = .ok place := by
  obtain ⟨left, goes_on⟩ := walk_append stays walked
  have whole : walk tree true links here (steps ++ []) = walk tree true left place [] :=
    goes_on (.inr rfl)
  rwa [List.append_nil, walk] at whole

theorem walk_unfollowed (walked : walk tree true links here steps = .ok place) :
    ∃ q, walk tree false links here steps = .ok q := by
  fun_induction walk tree true links here steps with
  | case1 links here => exact ⟨here, by rw [walk]⟩
  | case2 => cases walked
  | case3 links here step steps dir dot ih =>
    rw [walk_dot (Classical.not_not.mp dir) dot]
    exact ih walked
  | case4 links here steps dir _ ih =>
    rw [walk_up (Classical.not_not.mp dir)]
    exact ih walked
  | case5 => cases walked
  | case6 => cases walked
  | case7 => simp_all
  | case8 => cases walked
  | case9 here step steps dir not_dot not_up short fromTop target stands _ left ih =>
    by_cases last : steps = []
    · refine ⟨here ++ [step], ?_⟩
      rw [walk, if_neg dir, if_neg not_dot, if_neg not_up, if_neg short, stands, last]
      rfl
    · rw [walk_link (Classical.not_not.mp dir) (isName_of_not not_dot not_up)
        (Bool.not_eq_true _ ▸ short) stands (.inl last)]
      rw [dite_eq_ite] at ih
      exact ih walked
  | case10 links here step steps dir not_dot not_up short node solid stands ih =>
    rw [walk_name (Classical.not_not.mp dir) (isName_of_not not_dot not_up)
      (Bool.not_eq_true _ ▸ short) stands solid]
    exact ih walked

theorem walk_not_directory (not_directory : tree.at? here ≠ some .directory)
    (some_steps : steps ≠ []) : walk tree follow links here steps = .error .notDirectory := by
  cases steps with
  | nil => exact absurd rfl some_steps
  | cons step rest => rw [walk, if_pos not_directory]

/-- The steps end in a name, if there are any. -/
def EndsInName (steps : List String) : Prop := ∀ name, steps.getLast? = some name → IsName name

theorem endsInName_concat (named : IsName name) (front : List String) :
    EndsInName (front ++ [name]) := by
  intro last same
  rw [List.getLast?_concat] at same
  exact Option.some.inj same ▸ named

theorem EndsInName.of_suffix (ends : EndsInName steps) (suffix : back <:+ steps) :
    EndsInName back := by
  intro name last
  obtain ⟨front, rfl⟩ := suffix
  exact ends name (by simp [List.getLast?_append, last])

theorem EndsInName.names_eq_nil_iff (ends : EndsInName steps) : names steps = [] ↔ steps = [] := by
  constructor
  · intro none
    cases last : steps.getLast? with
    | none => exact List.getLast?_eq_none_iff.mp last
    | some name =>
      have named := ends name last
      have among := List.mem_of_getLast? last
      simp only [names, List.filter_eq_nil_iff] at none
      exact absurd (none name among) (by simp [named.1, named.2.1])
  · rintro rfl
    rfl

theorem EndsInName.isEmpty_append (ends : EndsInName back) :
    (front ++ names back).isEmpty = (front ++ back).isEmpty := by
  rw [Bool.eq_iff_iff, List.isEmpty_iff, List.isEmpty_iff, List.append_eq_nil_iff,
    List.append_eq_nil_iff, ends.names_eq_nil_iff]

/-- Before a name at the end, steps that stand for nothing make no difference. -/
theorem walk_names_eq (ends : EndsInName back) :
    walk tree follow links here (front ++ names back) =
      walk tree follow links here (front ++ back) := by
  generalize whole : front ++ back = all
  fun_induction walk tree follow links here all generalizing front back with
  | case1 links here =>
    obtain ⟨rfl, rfl⟩ := List.append_eq_nil_iff.mp whole
    exact walk.eq_1 _ _ _ _
  | case2 links here step steps dir =>
    refine walk_not_directory dir fun none => ?_
    obtain ⟨rfl, none⟩ := List.append_eq_nil_iff.mp none
    rw [ends.names_eq_nil_iff.mp none] at whole
    cases whole
  | case3 links here step steps dir dot ih =>
    rcases List.append_eq_cons_iff.mp whole with ⟨rfl, rfl⟩ | ⟨front, rfl, rfl⟩
    · rw [names_dot dot]
      exact ih (ends.of_suffix (List.suffix_cons step steps)) rfl
    · rw [List.cons_append, walk_dot (Classical.not_not.mp dir) dot]
      exact ih ends rfl
  | case4 links here steps dir not_dot ih =>
    obtain ⟨front, back, rest, eq, suffix⟩ := append_names_cons whole not_dot
    rw [eq, walk_up (Classical.not_not.mp dir)]
    exact ih (ends.of_suffix suffix) rest
  | case5 links here step steps dir not_dot not_up long =>
    obtain ⟨front, back, rest, eq, suffix⟩ := append_names_cons whole not_dot
    rw [eq, walk, if_neg dir, if_neg not_dot, if_neg not_up, if_pos long]
  | case6 links here step steps dir not_dot not_up short missing =>
    obtain ⟨front, back, rest, eq, suffix⟩ := append_names_cons whole not_dot
    rw [eq, walk, if_neg dir, if_neg not_dot, if_neg not_up, if_neg short, missing]
  | case7 links here step steps dir not_dot not_up short fromTop target stands last =>
    obtain ⟨front, back, rfl, eq, suffix⟩ := append_names_cons whole not_dot
    rw [← (ends.of_suffix suffix).isEmpty_append] at last
    rw [eq, walk, if_neg dir, if_neg not_dot, if_neg not_up, if_neg short, stands]
    simp [last]
  | case8 here step steps dir not_dot not_up short fromTop target stands on =>
    obtain ⟨front, back, rfl, eq, suffix⟩ := append_names_cons whole not_dot
    rw [← (ends.of_suffix suffix).isEmpty_append] at on
    rw [eq, walk, if_neg dir, if_neg not_dot, if_neg not_up, if_neg short, stands]
    simp only [on, Bool.false_eq_true, if_false]
  | case9 here step steps dir not_dot not_up short fromTop target stands on left ih =>
    obtain ⟨front, back, rfl, eq, suffix⟩ := append_names_cons whole not_dot
    have followed := on
    rw [← (ends.of_suffix suffix).isEmpty_append] at followed
    rw [eq, walk, if_neg dir, if_neg not_dot, if_neg not_up, if_neg short, stands]
    simp only [followed]
    rw [← List.append_assoc]
    exact ih (ends.of_suffix suffix) (List.append_assoc _ _ _)
  | case10 links here step steps dir not_dot not_up short node solid stands ih =>
    obtain ⟨front, back, rest, eq, suffix⟩ := append_names_cons whole not_dot
    rw [eq, walk_name (Classical.not_not.mp dir) (isName_of_not not_dot not_up)
      (Bool.not_eq_true _ ▸ short) stands solid]
    exact ih (ends.of_suffix suffix) rest

/-! ## The last name -/

theorem walk_last (named : IsName name)
    (walked : walk tree follow links here [name] = .ok place) :
    tree.at? here = some .directory ∧ isLongName name = false ∧
      tree.at? (here ++ [name]) ≠ none ∧
      ((∀ fromTop target, tree.at? (here ++ [name]) ≠ some (.link fromTop target)) →
        place = here ++ [name]) := by
  rw [walk] at walked
  split at walked
  · cases walked
  · next dir =>
    rw [if_neg named.not_dot, if_neg named.2.2] at walked
    split at walked
    · cases walked
    · next short =>
      refine ⟨Classical.not_not.mp dir, by simpa using short, ?_⟩
      split at walked
      · cases walked
      · next fromTop target stands =>
        rw [stands]
        exact ⟨by simp, fun solid => absurd rfl (solid fromTop target)⟩
      · next stands =>
        rw [stands]
        rw [walk] at walked
        cases walked
        exact ⟨by simp, fun _ => rfl⟩

theorem walk_missing (named : IsName name)
    (missing : walk tree false links here [name] = .error .notFound) :
    tree.at? here = some .directory ∧ tree.at? (here ++ [name]) = none := by
  rw [walk] at missing
  split at missing
  · cases missing
  · next dir =>
    rw [if_neg named.not_dot, if_neg named.2.2] at missing
    split at missing
    · cases missing
    · split at missing
      · next free => exact ⟨Classical.not_not.mp dir, free⟩
      · simp at missing
      · simp [walk] at missing

theorem walk_standing (named : IsName name) (short : isLongName name = false)
    (directory : tree.at? here = some .directory) (stands : tree.at? (here ++ [name]) ≠ none) :
    walk tree false links here [name] = .ok (here ++ [name]) := by
  obtain ⟨node, stands⟩ := Option.ne_none_iff_exists'.mp stands
  rw [walk, if_neg (not_not_intro directory), if_neg named.not_dot, if_neg named.2.2,
    if_neg (by simp [short]), stands]
  cases node with
  | link fromTop target => simp
  | directory => simp [walk]
  | file data => simp [walk]

/-! ## Paths that can be sent -/

theorem pathSize_eq (path : List String) :
    pathSize path = (path.map fun step => step.utf8ByteSize + 1).sum := by
  have from_any : ∀ size, path.foldl (fun size step => size + step.utf8ByteSize + 1) size =
      size + (path.map fun step => step.utf8ByteSize + 1).sum := by
    induction path with
    | nil => simp
    | cons step rest ih =>
      intro size
      rw [List.foldl_cons, ih, List.map_cons, List.sum_cons]
      omega
  rw [pathSize, from_any, Nat.zero_add]

theorem checkPath_of_sublist (fewer : front.Sublist path) (sendable : checkPath path = .ok ()) :
    checkPath front = .ok () := by
  rw [checkPath] at sendable ⊢
  split at sendable
  · cases sendable
  · next clean =>
    split at sendable
    · cases sendable
    · next fits =>
      have size : pathSize front ≤ pathSize path := by
        rw [pathSize_eq, pathSize_eq]
        exact (fewer.map _).sum_le_sum (by simp)
      rw [if_neg, if_neg (by omega)]
      rw [List.any_eq_true] at clean ⊢
      rintro ⟨step, among, null⟩
      exact clean ⟨step, fewer.subset among, null⟩

theorem locate_eq_ok_iff : tree.locate follow path = .ok place ↔
    checkPath path = .ok () ∧ walk tree follow linkLimit [] path = .ok place := by
  rw [locate]
  cases checkPath path with
  | error e => simp [bind, Except.bind]
  | ok _ => simp [bind, Except.bind]

theorem checkPath_ne_notFound (path : List String) : checkPath path ≠ .error .notFound := by
  rw [checkPath]
  split
  · exact fun same => nomatch same
  · split <;> exact fun same => nomatch same

theorem locate_eq_notFound_iff : tree.locate follow path = .error .notFound ↔
    checkPath path = .ok () ∧ walk tree follow linkLimit [] path = .error .notFound := by
  rw [locate]
  cases sendable : checkPath path with
  | error e =>
    have other : e ≠ .notFound := by
      rintro rfl
      exact checkPath_ne_notFound path sendable
    simp [bind, Except.bind, other]
  | ok _ => simp [bind, Except.bind]

theorem names_sublist (path : List String) : (names path).Sublist path := List.filter_sublist

theorem locate_unfollowed (located : tree.locate true path = .ok place) :
    ∃ q, tree.locate false path = .ok q := by
  obtain ⟨sendable, walked⟩ := locate_eq_ok_iff.mp located
  obtain ⟨q, walked⟩ := walk_unfollowed walked
  exact ⟨q, locate_eq_ok_iff.mpr ⟨sendable, walked⟩⟩

theorem locate_front (located : tree.locate follow (front ++ back) = .ok place)
    (on : back ≠ [] ∨ follow = true) : ∃ mid, tree.locate true front = .ok mid := by
  obtain ⟨sendable, walked⟩ := locate_eq_ok_iff.mp located
  obtain ⟨mid, reached⟩ := walk_front walked on
  exact ⟨mid, locate_eq_ok_iff.mpr
    ⟨checkPath_of_sublist (List.sublist_append_left front back) sendable, reached⟩⟩

theorem locate_names (located : tree.locate true path = .ok place) :
    tree.locate true (names path) = .ok place := by
  obtain ⟨sendable, walked⟩ := locate_eq_ok_iff.mp located
  exact locate_eq_ok_iff.mpr ⟨checkPath_of_sublist (names_sublist path) sendable,
    walk_thinned walked⟩

end ModuleDepot.FileTree
