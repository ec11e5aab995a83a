import ModuleDepot.Proofs.CatalogOrder
import ModuleDepot.Proofs.RegistryCycle
import ModuleDepot.Proxy.Router

/-!
An index and the catalog it is kept in step with. The proxy only tells serial ids,
and the registry only looks at them, but as long as every indexed coordinate has
the serial id of the catalog, that is as good as telling coordinates.
-/

namespace ModuleDepot.Proxy

open Procedure

/-- What an index and a catalog come to that both start empty. The registry serves requests, the
proxy runs cycles of which any call may fail, and modules are removed. -/
inductive Reachable : Index → Catalog → Prop
  | start : Reachable .empty .empty
  | request {i : Index} {k : Catalog} (r : Http.Incoming) :
      Reachable i k → Reachable i (Registry.serve r k).2
  | cycle {i j : Index} {k : Catalog} {r : Reconciler} {report : CycleReport} :
      Reachable i k → Runs (orFails (servesFrom k)) r.runOnce i report j → Reachable j k
  | removal {i j : Index} {k : Catalog} {c : Coordinate} {result : Except RequestError Unit} :
      Reachable i k → Runs (orFails indexServes) (removeModule c) i result j → Reachable j k

/-- Every indexed coordinate has the serial id of its catalog row. -/
structure Agrees (i : Index) (k : Catalog) : Prop where
  distinct : i.Distinct
  ordered : k.Ordered
  registered : ∀ c id, i.serial? c = some id → ⟨c, id⟩ ∈ k.rows

variable {i j : Index} {k : Catalog}

/-! ## What each step keeps -/

theorem agrees_empty : Agrees .empty .empty := by
  refine ⟨Index.distinct_empty, Catalog.ordered_empty, ?_⟩
  rintro c id ⟨⟩

theorem agrees_request (agrees : Agrees i k) (r : Http.Incoming) :
    Agrees i (Registry.serve r k).2 := by
  obtain ⟨ordered, kept⟩ := Registry.extends_serve r agrees.ordered
  exact ⟨agrees.distinct, ordered, fun c id found => kept _ (agrees.registered c id found)⟩

theorem agrees_cycle (agrees : Agrees i k) {r : Reconciler} {report : CycleReport}
    (run : Runs (orFails (servesFrom k)) r.runOnce i report j) : Agrees j k := by
  obtain ⟨follows, _⟩ := cycleDone_of_runs agrees.ordered.distinct run
  refine ⟨follows.distinct agrees.distinct, agrees.ordered, fun c id found => ?_⟩
  rcases follows.serial c with same | ⟨s, member, rfl, brought⟩
  · exact agrees.registered c id (same ▸ found)
  · rw [found] at brought
    cases brought
    exact (List.mem_filter.mp member).1

theorem removed_or_same {c : Coordinate} {result : Except RequestError Unit}
    (run : Runs (orFails indexServes) (removeModule c) i result j) :
    j = i ∨ j = i.remove c := by
  have kept : Holds (orFails indexServes) (fun _ => True) (fun _ j => j = i ∨ j = i.remove c)
      (removeModule c) i := by
    rw [removeModule, holds_bind]
    intro answer next served
    apply And.intro trivial
    rw [Holds]
    rcases served with ⟨rfl, rfl⟩ | ⟨⟨e, rfl⟩, rfl⟩
    · rw [holds_bind]
      intro answer last served
      apply And.intro trivial
      rcases served with same | ⟨_, same⟩ <;> exact Or.inr same
    · exact Or.inl rfl
  have ended := runs_post run kept
  exact ended

theorem agrees_removal (agrees : Agrees i k) {c : Coordinate} {result : Except RequestError Unit}
    (run : Runs (orFails indexServes) (removeModule c) i result j) : Agrees j k := by
  rcases removed_or_same run with rfl | rfl
  · exact agrees
  · refine ⟨Index.distinct_remove c agrees.distinct, agrees.ordered, fun other id found => ?_⟩
    rw [Index.serial?_remove] at found
    by_cases same : other = c
    · rw [if_pos same] at found
      cases found
    · rw [if_neg same] at found
      exact agrees.registered other id found

theorem agrees_of_reachable (reached : Reachable i k) : Agrees i k := by
  induction reached with
  | start => exact agrees_empty
  | request r _ ih => exact agrees_request ih r
  | cycle _ run ih => exact agrees_cycle ih run
  | removal _ run ih => exact agrees_removal ih run

/-! ## Serial ids stand for coordinates -/

/-- A row of the catalog has its serial id in the index exactly if its coordinate is listed. -/
theorem held_iff_listed (agrees : Agrees i k) {s : SerialCoordinate} (member : s ∈ k.rows) :
    s.serial ∈ i.rows.map IndexRow.serial ↔ i.Lists s.coordinate := by
  rw [Index.mem_serials_iff agrees.distinct, Index.lists_iff, Option.isSome_iff_exists]
  -- Either way the index leads to a row of the catalog, of which there is only one.
  constructor
  · rintro ⟨c, found⟩
    have same := agrees.ordered.eq_of_serial (agrees.registered c s.serial found) member rfl
    rw [← same]
    exact ⟨s.serial, found⟩
  · rintro ⟨id, found⟩
    have same := agrees.ordered.eq_of_coordinate (agrees.registered _ id found) member rfl
    rw [← same]
    exact ⟨s.coordinate, found⟩

theorem unheld_eq (agrees : Agrees i k) :
    k.unheld i = k.rows.filter fun s => ¬ i.Lists s.coordinate := by
  apply List.filter_congr
  intro s member
  rw [decide_eq_decide]
  exact not_congr (held_iff_listed agrees member)

/-- After a cycle without failures everything in the catalog is indexed. -/
theorem indexed_after_cycle (agrees : Agrees i k) {r : Reconciler} {report : CycleReport}
    (run : Runs (orFails (servesFrom k)) r.runOnce i report j) (whole : report.aborted = false)
    (clean : report.failed = 0) : ∀ s ∈ k.rows, j.serial? s.coordinate = some s.serial := by
  obtain ⟨follows, all⟩ := cycleDone_of_runs agrees.ordered.distinct run
  intro s member
  by_cases listed : i.Lists s.coordinate
  · have still := follows.lists listed
    rw [Index.lists_iff, Option.isSome_iff_exists] at still
    obtain ⟨id, found⟩ := still
    -- What is listed has the serial id of its catalog row, before the cycle and after it.
    have row := (agrees_cycle agrees run).registered _ id found
    rw [found, ← agrees.ordered.eq_of_coordinate row member rfl]
  · apply all whole clean
    rw [unheld_eq agrees, List.mem_filter]
    exact ⟨member, by simpa using listed⟩

/-- An index only holds rows of the catalog, what its serial ids do not cover are the coordinates
that are not indexed, in ascending order, and after a cycle that was not aborted and counts no
failure nothing is missing. -/
theorem catalog_agreement (reached : Reachable i k) :
    (∀ row ∈ i.rows, (⟨row.coordinate, row.serial⟩ : SerialCoordinate) ∈ k.rows) ∧
    (∃ missing, k.answerTo i.serials = .ok missing ∧
      missing = (k.rows.filter fun s => ¬ i.Lists s.coordinate) ∧
      missing.Pairwise fun a b => a.serial < b.serial) ∧
    ∀ (r : Reconciler) (report : CycleReport) (j : Index),
      Runs (orFails (servesFrom k)) r.runOnce i report j → report.aborted = false →
      report.failed = 0 →
      (∀ s ∈ k.rows, j.serial? s.coordinate = some s.serial) ∧ k.answerTo j.serials = .ok [] := by
  have agrees := agrees_of_reachable reached
  refine ⟨?_, ⟨k.unheld i, k.answerTo_serials i, unheld_eq agrees, ?_⟩, ?_⟩
  · intro row member
    exact agrees.registered _ _ (Index.serial?_of_mem agrees.distinct member)
  · exact agrees.ordered.ascending.sublist List.filter_sublist
  · intro r report j run whole clean
    have indexed := indexed_after_cycle agrees run whole clean
    apply And.intro indexed
    have none : k.unheld j = [] := by
      rw [unheld_eq (agrees_cycle agrees run), List.filter_eq_nil_iff]
      intro s member
      simp [Index.lists_iff, indexed s member]
    rw [← none]
    exact k.answerTo_serials j

/-! ## A module that is registered and brought in -/

namespace Sample

def registration : Http.Incoming :=
  ⟨"POST", "/v1/registry/sources/new", some "application/json",
    "\x7b\"modules\":[\x7b\"source\":\"m\",\"version\":\"v\"\x7d]\x7d"⟩

def catalog : Catalog := ⟨[wanted], 1⟩

def index : Index := Index.empty.put (.ofNanos 0) addition

theorem reachable_registered : Reachable .empty catalog := by
  have same : (Registry.serve registration .empty).2 = catalog := by decide +kernel
  rw [← same]
  exact Reachable.request registration Reachable.start

theorem runs_cycle : Runs (orFails (servesFrom catalog)) reconciler.runOnce .empty
    ⟨1, 0, 0, 1, 0, false⟩ index :=
  runs_download catalog .empty (catalog.answerTo_serials .empty) rfl

end Sample

theorem catalog_agreement_after_download :
    Reachable .empty Sample.catalog ∧
      Sample.index.serial? Sample.wanted.coordinate = some Sample.wanted.serial ∧
      Sample.catalog.answerTo Sample.index.serials = .ok [] := by
  obtain ⟨indexed, nothing⟩ := (catalog_agreement Sample.reachable_registered).2.2
    _ _ _ Sample.runs_cycle rfl rfl
  exact ⟨Sample.reachable_registered, indexed Sample.wanted List.mem_cons_self, nothing⟩

end ModuleDepot.Proxy
