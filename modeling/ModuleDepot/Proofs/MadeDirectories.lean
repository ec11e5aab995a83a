import Mathlib.Data.List.Induction
import ModuleDepot.Proofs.FileCalls

/-!
Directories that are made along a path which may lead over links. They come up only below the part
of the path that stands, where nothing stood, and hold no links; so the path leads on to them by its
names.
-/

namespace ModuleDepot.FileTree

variable {base tree next : FileTree} {place spot : Location} {front path : List String}

/-! ## Below what stands -/

/-- Whatever stands somewhere stands in a directory. -/
def Grounded (tree : FileTree) : Prop :=
  ∀ place name, tree.at? (place ++ [name]) ≠ none → tree.at? place = some .directory

theorem grounded_of_entries
    (each : ∀ entry ∈ tree.entries, tree.at? entry.1.dropLast = some .directory) :
    tree.Grounded := by
  intro place name stands
  by_contra other
  rw [at?, if_neg (by simp)] at stands
  refine stands (List.lookup_eq_none_iff.mpr fun entry among => ?_)
  have differs : entry.1 ≠ place ++ [name] := by
    intro same
    have directory := each entry among
    rw [same, List.dropLast_concat] at directory
    exact other directory
  simpa using Ne.symm differs

theorem Grounded.nothing_below (grounded : tree.Grounded) (free : tree.at? spot = none)
    (below : spot <+: place) : tree.at? place = none := by
  obtain ⟨below, rfl⟩ := below
  induction below using List.reverseRecOn with
  | nil => rwa [List.append_nil]
  | append_singleton above name ih =>
    by_contra stands
    rw [← List.append_assoc] at stands
    rw [grounded _ _ stands] at ih
    cases ih

/-- A tree that differs from another one only at and below a place, and has no links there. -/
structure Grown (base : FileTree) (spot : Location) (tree : FileTree) : Prop where
  kept : ∀ q, ¬ spot <+: q → tree.at? q = base.at? q
  solid : ∀ q, spot <+: q → ∀ fromTop target, tree.at? q ≠ some (.link fromTop target)

theorem grown_base (nothing : ∀ q, spot <+: q → base.at? q = none) : base.Grown spot base where
  kept _ _ := rfl
  solid q below fromTop target := by rw [nothing q below]; simp

theorem Grown.extends (grown : base.Grown spot tree)
    (nothing : ∀ q, spot <+: q → base.at? q = none) : tree.Extends base := by
  intro q node stands
  rw [grown.kept q, stands]
  intro below
  rw [nothing q below] at stands
  cases stands

theorem Grown.set_directory (grown : base.Grown spot tree) (some_place : place ≠ [])
    (below : spot <+: place) : base.Grown spot (tree.set place .directory) := by
  constructor
  · intro q outside
    rw [at?_set some_place, if_neg (by rintro rfl; exact outside below)]
    exact grown.kept q outside
  · intro q inside fromTop target
    rw [at?_set some_place]
    split
    · simp
    · exact grown.solid q inside fromTop target

theorem names_eq_self {steps : List String} (named : ∀ n ∈ steps, IsName n) :
    names steps = steps := by
  rw [names, List.filter_eq_self]
  intro n among
  simp [(named n among).1, (named n among).2.1]

section Missing

variable {here : Location} {first : String} {steps : List String}
  (located : base.locate true front = .ok here) (named : ∀ n ∈ steps, IsName n)
  (begins : steps.head? = some first)
  (nothing : ∀ q, here ++ [first] <+: q → base.at? q = none)
  (grown : base.Grown (here ++ [first]) tree)

include located nothing grown

theorem Grown.locate_front : tree.locate true front = .ok here := by
  obtain ⟨sendable, walked⟩ := locate_eq_ok_iff.mp located
  exact locate_eq_ok_iff.mpr ⟨sendable, walk_of_extends (grown.extends nothing) walked⟩

include named begins

-- Each name is below the place that was missing, where there are no links to go over.
theorem Grown.walk_eq {above : List String} {directory : Location} (along : above <+: steps)
    (reached : walk tree true linkLimit [] (front ++ above) = .ok directory) :
    directory = here ++ above := by
  obtain ⟨left, on⟩ := walk_append (grown.extends nothing) (locate_eq_ok_iff.mp located).2
  rw [on (.inr rfl)] at reached
  have all : ∀ n ∈ above, IsName n := fun n among => named n (along.subset among)
  obtain ⟨rfl, -⟩ := walk_solid (fun up => (all ".." up).2.2 rfl) (fun front some_front => by
    rw [names_eq_self all] at some_front
    refine grown.solid _ ?_
    obtain ⟨name, rest, rfl⟩ := List.exists_cons_of_ne_nil some_front.1
    obtain ⟨rest', whole⟩ := some_front.2.trans along
    rw [← whole] at begins
    cases begins
    exact ⟨rest, by simp⟩) reached
  rw [names_eq_self all]

theorem Grown.ensureDirectory {above : List String} {name : String}
    (along : above ++ [name] <+: steps)
    (ensured : tree.ensureDirectory (front ++ above ++ [name]) = .ok next) :
    base.Grown (here ++ [first]) next := by
  rw [FileTree.ensureDirectory] at ensured
  split at ensured
  · next made =>
    cases ensured
    have called : IsName name := named name (along.subset (by simp))
    obtain ⟨directory, ends, -, rfl⟩ := makeDirectory_ends called made
    have below := (List.prefix_append above [name]).trans along
    obtain rfl := grown.walk_eq located named begins nothing below ends.walked
    refine grown.set_directory (by simp) ?_
    obtain ⟨rest, whole⟩ := along
    cases above with
    | nil =>
      rw [← whole] at begins
      cases begins
      exact ⟨[], by simp⟩
    | cons head above =>
      rw [← whole] at begins
      cases begins
      exact ⟨above ++ [name], by simp⟩
  · split at ensured
    · cases ensured
      exact grown
    · cases ensured

theorem Grown.ensureDirectoriesUpward (filled : "" ∉ front) (up : List String)
    (along : up.reverse <+: steps) :
    base.Grown (here ++ [first])
      (tree.ensureDirectoriesUpward (up ++ front.reverse)).2 := by
  induction up with
  | nil =>
    have stands := ensureDirectories_of_stands filled (grown.locate_front located nothing)
    rw [ensureDirectories] at stands
    rw [List.nil_append, stands]
    exact grown
  | cons name above ih =>
    rw [List.reverse_cons] at along
    have path : (name :: (above ++ front.reverse)).reverse = front ++ above.reverse ++ [name] := by
      simp
    have kept := ih ((List.prefix_append above.reverse [name]).trans along)
    rw [List.cons_append, FileTree.ensureDirectoriesUpward, path]
    split
    · next made => exact grown.ensureDirectory located named begins nothing along made
    · split
      · next made =>
        rw [made] at kept
        exact kept
      · next made =>
        rw [made] at kept
        split
        · next last => exact kept.ensureDirectory located named begins nothing along last
        · exact kept
    · exact grown

end Missing

theorem ensureDirectories_below {here : Location} {rest : List String} (grounded : tree.Grounded)
    (filled : "" ∉ front) (located : tree.locate true front = .ok here)
    (named : ∀ n ∈ rest, IsName n)
    (missing : ∀ first, rest.head? = some first →
      tree.locate false (front ++ [first]) = .error .notFound)
    (ensured : (tree.ensureDirectories (front ++ rest)).2 = next) :
    (∀ q, ¬ here <+: q → next.at? q = tree.at? q) ∧
      ∀ directory, walk next true linkLimit [] (front ++ rest) = .ok directory →
        directory = here ++ rest := by
  have walked := (locate_eq_ok_iff.mp located).2
  cases rest with
  | nil =>
    rw [List.append_nil] at ensured ⊢
    rw [ensureDirectories_of_stands filled located] at ensured
    subst ensured
    refine ⟨fun q _ => rfl, fun directory reached => ?_⟩
    rw [walked] at reached
    cases reached
    exact (List.append_nil here).symm
  | cons first more =>
    have called : IsName first := named first List.mem_cons_self
    obtain ⟨left, goes_on⟩ := walk_append (extends_refl tree) walked
    have gap := (locate_eq_notFound_iff.mp (missing first rfl)).2
    rw [goes_on (.inl (by simp))] at gap
    have nothing : ∀ q, here ++ [first] <+: q → tree.at? q = none := fun q below =>
      grounded.nothing_below (walk_missing called gap).2 below
    have grown := grown_base nothing
    have kept := grown.ensureDirectoriesUpward located named rfl nothing filled
      (first :: more).reverse (by simp)
    rw [← List.reverse_append, ← ensureDirectories, ensured] at kept
    constructor
    · intro q outside
      exact kept.kept q fun below => outside ((List.prefix_append here [first]).trans below)
    · intro directory reached
      exact kept.walk_eq located named rfl nothing List.prefix_rfl reached

end ModuleDepot.FileTree
