import ModuleDepot.Proofs.LinkWalks
import ModuleDepot.Proofs.Outcomes
import ModuleDepot.Storage.FileStore

/-!
Which keys a store resolves. A key that is refused by its text stays refused whatever stands in the
tree. Of any other key either the whole path stands, and leads below the root, or the deepest part
of it that stands does.
-/

namespace ModuleDepot.FileStore

open FileTree (IsName names steps)

variable {tree : FileTree} {anchor : Location} {store : FileStore} {key : String}

/-! ## Keys as texts -/

theorem steps_ne_nil (key : String) : steps key ≠ [] := by
  rw [steps, ne_eq, List.map_eq_nil_iff]
  exact List.splitOn_ne_nil _ _

theorem isRelative_iff : isRelative key = true ↔
    key.toList.head? ≠ some '\\' ∧ (steps key).head? ≠ some "" ∧ (steps key).head? ≠ some "." ∧
      ".." ∉ steps key := by
  obtain ⟨first, rest, split⟩ := List.exists_cons_of_ne_nil (steps_ne_nil key)
  simp [isRelative, split, and_assoc]

theorem not_up_of_isRelative (relative : isRelative key = true) : ".." ∉ steps key :=
  (isRelative_iff.mp relative).2.2.2

/-- The first step of a key is a name, so the key has names. -/
theorem names_ne_nil_of_isRelative (relative : isRelative key = true) :
    names (steps key) ≠ [] := by
  obtain ⟨-, filled, plain, -⟩ := isRelative_iff.mp relative
  obtain ⟨first, rest, split⟩ := List.exists_cons_of_ne_nil (steps_ne_nil key)
  rw [split] at filled plain ⊢
  rw [FileTree.names_name]
  · exact List.cons_ne_nil _ _
  · rintro (rfl | rfl)
    · exact filled rfl
    · exact plain rfl

/-! ## What resolves -/

def path (store : FileStore) (key : String) : List String := store.root ++ steps key

theorem names_path_ne_nil (relative : isRelative key = true) : names (store.path key) ≠ [] := by
  rw [FileStore.path, FileTree.names_append]
  simp [names_ne_nil_of_isRelative relative]

theorem resolve_eq_ok_iff {path : List String} (some_key : key ≠ "") :
    store.resolve key = .ok path ↔ isRelative key = true ∧ path = store.path key ∧
      ∃ anchor, store.tree.locate true store.root = .ok anchor ∧
        checkUpward store.tree anchor key (upward path) = .ok () := by
  rw [resolve, if_neg some_key]
  cases relative : isRelative key with
  | false => simp
  | true =>
    cases located : store.tree.locate true store.root with
    | error e => simp [bind, Except.bind]
    | ok anchor =>
      rw [← FileStore.path]
      cases checked : checkUpward store.tree anchor key (upward (store.path key)) with
      | error e =>
        constructor
        · intro resolved
          simp [checked, bind, Except.bind] at resolved
        · rintro ⟨-, rfl, other, same, fine⟩
          cases same
          rw [checked] at fine
          cases fine
      | ok _ =>
        simp only [checked, mapError_ok, bind, Except.bind, Bool.not_true, Bool.false_eq_true,
          if_false, pure, Except.pure, Except.ok.injEq]
        constructor
        · rintro rfl
          exact ⟨trivial, rfl, anchor, rfl, checked⟩
        · rintro ⟨-, rfl, -⟩
          rfl

theorem resolve_eq_ok {path : List String} (some_key : key ≠ "")
    (resolved : store.resolve key = .ok path) :
    isRelative key = true ∧ path = store.root ++ steps key := by
  obtain ⟨relative, same, -⟩ := (resolve_eq_ok_iff some_key).mp resolved
  exact ⟨relative, same⟩

/-- The path that a key resolves to; the empty one is that of the root. -/
def target (store : FileStore) (key : String) : List String :=
  if key = "" then store.root else store.path key

theorem target_eq_path (some_key : key ≠ "") : store.target key = store.path key := if_neg some_key

theorem resolve_eq_target {path : List String} (resolved : store.resolve key = .ok path) :
    path = store.target key := by
  by_cases some_key : key = ""
  · rw [resolve, if_pos some_key] at resolved
    cases resolved
    rw [target, if_pos some_key]
  · rw [target_eq_path some_key]
    exact (resolve_eq_ok some_key resolved).2

theorem checkUpward_cons {path : List String} {above : List (List String)}
    (checked : checkUpward tree anchor key (path :: above) = .ok ()) :
    tree.locate false path = .error .notFound ∧ checkUpward tree anchor key above = .ok () ∨
      ∃ place, tree.locate true path = .ok place ∧ anchor <+: place := by
  rw [checkUpward] at checked
  split at checked
  · next missing => exact .inl ⟨missing, checked⟩
  · cases checked
  · split at checked
    · cases checked
    · next place leads =>
      split at checked
      · next below => exact .inr ⟨place, leads, List.isPrefixOf_iff_prefix.mp below⟩
      · cases checked

-- The paths are looked at from the longest to the shortest.
theorem checkUpward_range (taken : Nat → List String) (n : Nat)
    (checked : checkUpward tree anchor key ((List.range n).reverse.map taken) = .ok ()) :
    (∀ m < n, tree.locate false (taken m) = .error .notFound) ∨
      ∃ k < n, (∃ place, tree.locate true (taken k) = .ok place ∧ anchor <+: place) ∧
        ∀ m < n, k < m → tree.locate false (taken m) = .error .notFound := by
  induction n with
  | zero => exact .inl fun m small => absurd small (Nat.not_lt_zero m)
  | succ n ih =>
    rw [List.range_succ, List.reverse_append, List.reverse_singleton, List.singleton_append,
      List.map_cons] at checked
    rcases checkUpward_cons checked with ⟨missing, checked⟩ | leads
    · rcases ih checked with all | ⟨k, small, leads, above⟩
      · refine .inl fun m small => ?_
        rcases Nat.lt_succ_iff_lt_or_eq.mp small with smaller | rfl
        · exact all m smaller
        · exact missing
      · refine .inr ⟨k, Nat.lt_succ_of_lt small, leads, fun m small later => ?_⟩
        rcases Nat.lt_succ_iff_lt_or_eq.mp small with smaller | rfl
        · exact above m smaller later
        · exact missing
    · exact .inr ⟨n, Nat.lt_succ_self n, leads, fun m small later => by omega⟩

/-- The part of a path that stands, and leads below a place; of the names behind it none stands. -/
structure StandsTo (tree : FileTree) (anchor : Location) (path front rest : List String)
    (last : String) (here : Location) : Prop where
  whole : names path = front ++ rest ++ [last]
  leads : tree.locate true front = .ok here
  below : anchor <+: here
  missing : ∀ more, more ≠ [] → more <+: rest →
    tree.locate false (front ++ more) = .error .notFound

theorem standsTo_of_take {path : List String} {n : Nat} {here : Location}
    (inside : n < (names path).length)
    (leads : tree.locate true ((names path).take n) = .ok here) (below : anchor <+: here)
    (missing : ∀ m < (names path).length, n < m →
      tree.locate false ((names path).take m) = .error .notFound) :
    ∃ front rest last, StandsTo tree anchor path front rest last here := by
  obtain ⟨rest, last, split⟩ : ∃ rest last, (names path).drop n = rest ++ [last] := by
    have some_left : (names path).drop n ≠ [] := by simpa using inside
    exact ⟨_, _, (List.dropLast_append_getLast some_left).symm⟩
  have whole : names path = (names path).take n ++ rest ++ [last] := by
    rw [List.append_assoc, ← split, List.take_append_drop]
  refine ⟨(names path).take n, rest, last, whole, leads, below, fun more some_more along => ?_⟩
  obtain ⟨later, rfl⟩ := along
  have size : ((names path).take n).length = n := List.length_take_of_le (Nat.le_of_lt inside)
  have length := congrArg List.length whole
  simp only [List.length_append, size, List.length_singleton] at length
  have positive := List.length_pos_iff.mpr some_more
  have taken : (names path).take (n + more.length) = (names path).take n ++ more := by
    rw [List.take_add, split]
    simp
  rw [← taken]
  exact missing _ (by omega) (by omega)

/-- What a store has found out about a key that it resolves. -/
theorem resolve_cases {path : List String} (some_key : key ≠ "")
    (located : store.tree.locate true store.root = .ok anchor)
    (resolved : store.resolve key = .ok path) :
    isRelative key = true ∧ path = store.path key ∧
      ((∃ place, store.tree.locate true path = .ok place ∧ anchor <+: place) ∨
        store.tree.locate false path = .error .notFound ∧
          ∃ front rest last here, StandsTo store.tree anchor path front rest last here) := by
  obtain ⟨relative, rfl, found, same, checked⟩ := (resolve_eq_ok_iff some_key).mp resolved
  obtain rfl : anchor = found := Except.ok.inj (located.symm.trans same)
  refine ⟨relative, rfl, ?_⟩
  rw [upward] at checked
  rcases checkUpward_cons checked with ⟨missing, checked⟩ | leads
  · right
    refine ⟨missing, ?_⟩
    rcases checkUpward_range _ _ checked with all | ⟨n, inside, ⟨here, leads, below⟩, gap⟩
    · -- The top always stands.
      have top := all 0 (List.length_pos_iff.mpr (names_path_ne_nil relative))
      simp [FileTree.locate, FileTree.checkPath, FileTree.pathSize, FileTree.pathLimit,
        FileTree.walk, bind, Except.bind] at top
    · obtain ⟨front, rest, last, stands⟩ := standsTo_of_take inside leads below gap
      exact ⟨front, rest, last, here, stands⟩
  · exact .inl leads

end ModuleDepot.FileStore
