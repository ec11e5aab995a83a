import Mathlib.Data.List.Nodup
import ModuleDepot.Proofs.SerialSets
import ModuleDepot.Registry.Router

/-!
What holds of a catalog after any requests: its rows ascend by serial id, no id and
no coordinate comes twice, and no row is ever lost.
-/

namespace ModuleDepot

/-! ## The catalog -/

namespace Catalog

/-- Rows ascend by serial id, have coordinates of their own, and no id is above the last one
used. -/
structure Ordered (catalog : Catalog) : Prop where
  ascending : catalog.rows.Pairwise fun a b => a.serial < b.serial
  distinct : catalog.rows.Pairwise fun a b => a.coordinate ≠ b.coordinate
  used : ∀ r ∈ catalog.rows, r.serial ≤ catalog.lastUsed

variable {catalog next : Catalog}

theorem Ordered.eq_of_serial (ordered : catalog.Ordered) {a b : SerialCoordinate}
    (first : a ∈ catalog.rows) (second : b ∈ catalog.rows) (same : a.serial = b.serial) :
    a = b := by
  have distinct : (catalog.rows.map SerialCoordinate.serial).Nodup :=
    List.pairwise_map.mpr (ordered.ascending.imp Int64.ne_of_lt)
  exact List.inj_on_of_nodup_map distinct first second same

theorem Ordered.eq_of_coordinate (ordered : catalog.Ordered) {a b : SerialCoordinate}
    (first : a ∈ catalog.rows) (second : b ∈ catalog.rows) (same : a.coordinate = b.coordinate) :
    a = b := by
  have distinct : (catalog.rows.map SerialCoordinate.coordinate).Nodup :=
    List.pairwise_map.mpr ordered.distinct
  exact List.inj_on_of_nodup_map distinct first second same

theorem ordered_empty : empty.Ordered := by
  refine ⟨List.Pairwise.nil, List.Pairwise.nil, ?_⟩
  intro r member
  cases member

/-- Registering keeps the order, and every row. -/
def Extends (catalog next : Catalog) : Prop :=
  next.Ordered ∧ ∀ r ∈ catalog.rows, r ∈ next.rows

theorem extends_registerOne (ordered : catalog.Ordered) {c : Coordinate} {new : Bool}
    (registered : catalog.registerOne c = .ok (new, next)) : catalog.Extends next := by
  unfold registerOne at registered
  cases fresh : SerialId.next? catalog.lastUsed with
  | none =>
      rw [fresh] at registered
      cases registered
  | some id =>
      rw [fresh] at registered
      dsimp only at registered
      have above : ∀ r ∈ catalog.rows, r.serial < id := by
        intro r member
        have reached := Int64.le_iff_toInt_le.mp (ordered.used r member)
        rw [SerialId.next?_eq_some_iff] at fresh
        rw [Int64.lt_iff_toInt_lt]
        omega
      -- A known coordinate uses up the id all the same.
      by_cases known : catalog.knows c = true
      · rw [if_pos known] at registered
        cases registered
        refine ⟨⟨ordered.ascending, ordered.distinct, ?_⟩, fun r member => member⟩
        intro r member
        exact Int64.le_of_lt (above r member)
      · rw [if_neg known] at registered
        cases registered
        have unknown : ∀ r ∈ catalog.rows, r.coordinate ≠ c := by
          simpa [knows] using known
        refine ⟨⟨?_, ?_, ?_⟩, fun r member => List.mem_append_left _ member⟩
        · rw [List.pairwise_append]
          refine ⟨ordered.ascending, List.pairwise_singleton _ _, ?_⟩
          intro r member last same
          rw [List.mem_singleton.mp same]
          exact above r member
        · rw [List.pairwise_append]
          refine ⟨ordered.distinct, List.pairwise_singleton _ _, ?_⟩
          intro r member last same
          rw [List.mem_singleton.mp same]
          exact unknown r member
        · intro r member
          rcases List.mem_append.mp member with old | added
          · exact Int64.le_of_lt (above r old)
          · rw [List.mem_singleton.mp added]
            exact Int64.le_refl id

theorem extends_registerAll {cs : List Coordinate} (ordered : catalog.Ordered) {added total : Nat}
    (registered : catalog.registerAll added cs = .ok (total, next)) : catalog.Extends next := by
  induction cs generalizing catalog added with
  | nil =>
      cases registered
      exact ⟨ordered, fun r member => member⟩
  | cons c rest ih =>
      unfold registerAll at registered
      cases one : catalog.registerOne c with
      | error e =>
          rw [one] at registered
          cases registered
      | ok result =>
          rw [one] at registered
          obtain ⟨still, kept⟩ := extends_registerOne ordered one
          obtain ⟨done, all⟩ := ih still registered
          exact ⟨done, fun r member => all r (kept r member)⟩

end Catalog

/-! ## Requests to the registry -/

namespace Registry

theorem dispatch_cases {m : Type → Type} [Monad m] {handlers : List (String × m Http.Reply)}
    {property : m Http.Reply → Prop} (each : ∀ h ∈ handlers, property h.2)
    (refused : ∀ reply, property (pure reply)) (method : String) :
    property (Http.dispatch handlers method) := by
  have found : ∀ name handler, handlers.lookup name = some handler → property handler := by
    intro name handler here
    obtain ⟨before, after, rfl, _⟩ := List.lookup_eq_some_iff.mp here
    exact each (name, handler) (List.mem_append_right before List.mem_cons_self)
  unfold Http.dispatch
  split
  · next handler here => exact found method handler here
  · split
    · next handler here _ => exact found "GET" handler here
    · exact refused _

/-- A step that registers at most one batch. -/
def RegistersOnly (step : Step Http.Reply) : Prop :=
  ∀ catalog, (step catalog).2 = catalog ∨
    ∃ batch added, catalog.register batch = .ok (added, (step catalog).2)

theorem registersOnly_pure (reply : Http.Reply) : RegistersOnly (pure reply) :=
  fun _ => Or.inl rfl

theorem get_bind_apply {α : Type} (f : Catalog → Step α) (catalog : Catalog) :
    (get >>= f) catalog = f catalog catalog := rfl

theorem registerBatch_cases (batch : List Coordinate) (catalog : Catalog) :
    (∃ e, registerBatch batch catalog = (.error e, catalog)) ∨
      ∃ modules added next, catalog.register modules = .ok (added, next) ∧
        registerBatch batch catalog = (.ok added, next) := by
  unfold registerBatch
  cases checkBatch batch with
  | error e => exact Or.inl ⟨e, rfl⟩
  | ok modules =>
      dsimp only
      rw [get_bind_apply]
      cases registered : catalog.register modules with
      | error e => exact Or.inl ⟨.catalog e, rfl⟩
      | ok result => exact Or.inr ⟨modules, result.1, result.2, registered, rfl⟩

theorem registersOnly_registerModules (request : Http.Incoming) :
    RegistersOnly (registerModules request) := by
  intro catalog
  unfold registerModules
  cases readBody batchOfJson request with
  | error reply => exact Or.inl rfl
  | ok batch =>
      simp only [bind, StateT.bind]
      rcases registerBatch_cases batch catalog with ⟨e, failed⟩ | ⟨modules, added, next, done, made⟩
      · rw [failed]
        exact Or.inl rfl
      · rw [made]
        exact Or.inr ⟨modules, added, done⟩

theorem registersOnly_listMissing (request : Http.Incoming) :
    RegistersOnly (listMissing request) := by
  intro catalog
  unfold listMissing
  cases readBody SerialRanges.ofQuestion request <;> exact Or.inl rfl

/-- Whatever is asked of a registry, its catalog only changes by registering a batch. -/
theorem registersOnly_serve (request : Http.Incoming) : RegistersOnly (serve request) := by
  have handled : RegistersOnly (handle request) := by
    unfold handle
    split
    · refine dispatch_cases (fun h member => ?_) registersOnly_pure _
      rw [List.mem_singleton.mp member]
      exact fun _ => Or.inl rfl
    · refine dispatch_cases (fun h member => ?_) registersOnly_pure _
      rw [List.mem_singleton.mp member]
      exact registersOnly_registerModules request
    · refine dispatch_cases (fun h member => ?_) registersOnly_pure _
      rcases List.mem_cons.mp member with rfl | later
      · exact fun _ => Or.inl rfl
      · rw [List.mem_singleton.mp later]
        exact registersOnly_listMissing request
    · exact registersOnly_pure _
  exact handled

/-- Every request keeps the catalog in order, and all its rows. -/
theorem extends_serve (request : Http.Incoming) {catalog : Catalog} (ordered : catalog.Ordered) :
    catalog.Extends (serve request catalog).2 := by
  rcases registersOnly_serve request catalog with same | ⟨batch, added, registered⟩
  · rw [same]
    exact ⟨ordered, fun r member => member⟩
  · exact Catalog.extends_registerAll ordered registered

end Registry

end ModuleDepot
