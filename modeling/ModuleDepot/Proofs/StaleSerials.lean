import ModuleDepot.Proofs.CatalogOrder
import ModuleDepot.Proofs.RegistryCycle

/-!
Indexes whose serial ids are not those of the catalog, as when a registry has
numbered its modules anew. An old id may then stand for another module and hide it.
Cycles put the ids of registered coordinates right, one after another, and bring in
what they hid; what an unregistered coordinate hides stays hidden.
-/

namespace ModuleDepot

/-- No two rows have one coordinate, and no two one serial id. -/
def Catalog.Unambiguous (catalog : Catalog) : Prop :=
  (catalog.rows.map SerialCoordinate.coordinate).Nodup ∧
    (catalog.rows.map SerialCoordinate.serial).Nodup

instance (catalog : Catalog) : Decidable catalog.Unambiguous :=
  inferInstanceAs (Decidable (_ ∧ _))

namespace Proxy

open Procedure

/-- Every indexed coordinate is registered, though perhaps under another serial id. -/
def Registered (i : Index) (k : Catalog) : Prop :=
  ∀ c, i.Lists c → ∃ s ∈ k.rows, s.coordinate = c

/-- Whether a coordinate is indexed under another serial id than that of the catalog. -/
def IsStale (i : Index) (s : SerialCoordinate) : Prop :=
  i.Lists s.coordinate ∧ i.serial? s.coordinate ≠ some s.serial

instance (i : Index) (s : SerialCoordinate) : Decidable (IsStale i s) :=
  inferInstanceAs (Decidable (_ ∧ _))

/-- How many coordinates are indexed under another serial id than that of the catalog. -/
def staleCount (i : Index) (k : Catalog) : Nat := (k.rows.filter fun s => IsStale i s).length

/-- A cycle that was not aborted and counts no failure. -/
def Clean (report : CycleReport) : Prop := report.aborted = false ∧ report.failed = 0

/-- A number of cycles, one after another, with reports of some kind. -/
inductive Cycles (k : Catalog) (kind : CycleReport → Prop) : Nat → Index → Index → Prop
  | none (i : Index) : Cycles k kind 0 i i
  | more {n : Nat} {i j l : Index} {r : Reconciler} {report : CycleReport} :
      Runs (orFails (servesFrom k)) r.runOnce i report j → kind report →
      Cycles k kind n j l → Cycles k kind (n + 1) i l

variable {i j : Index} {k : Catalog} {r : Reconciler} {report : CycleReport}

/-! ## One cycle -/

theorem cycleDone_of_unambiguous (unambiguous : k.Unambiguous)
    (run : Runs (orFails (servesFrom k)) r.runOnce i report j) : CycleDone k i report j :=
  cycleDone_of_runs (List.pairwise_map.mp unambiguous.1) run

theorem registered_cycle (registered : Registered i k) (done : CycleDone k i report j) :
    Registered j k := by
  intro c listed
  rcases done.1.serial c with same | ⟨s, member, own, _⟩
  · rw [Index.lists_iff, same, ← Index.lists_iff] at listed
    exact registered c listed
  · exact ⟨s, (List.mem_filter.mp member).1, own⟩

/-- What a clean cycle leaves stale was stale before, and was not needed. -/
theorem stale_before (unambiguous : k.Unambiguous) (done : CycleDone k i report j)
    (clean : Clean report) {s : SerialCoordinate} (member : s ∈ k.rows) (stale : IsStale j s) :
    IsStale i s ∧ s ∉ k.unheld i := by
  have spared : s ∉ k.unheld i := fun needed =>
    stale.2 (done.2 clean.1 clean.2 s needed)
  rcases done.1.serial s.coordinate with same | ⟨t, needed, own, _⟩
  · rw [IsStale, Index.lists_iff, same, ← Index.lists_iff] at stale
    exact ⟨stale, spared⟩
  · have one : t = s :=
      List.inj_on_of_nodup_map unambiguous.1 (List.mem_filter.mp needed).1 member own
    exact absurd (one ▸ needed) spared

/-- If an unlisted row is hidden, there are not enough ids for all registered coordinates that are
indexed, so that one of them is stale and needed. -/
theorem stale_needed (distinct : i.Distinct) (unambiguous : k.Unambiguous)
    (registered : Registered i k) {s : SerialCoordinate} (member : s ∈ k.rows)
    (unlisted : ¬ i.Lists s.coordinate) (hidden : s ∉ k.unheld i) :
    ∃ t ∈ k.rows, IsStale i t ∧ t ∈ k.unheld i := by
  apply Classical.byContradiction
  intro nowhere
  -- Otherwise the id of every registered coordinate that is listed is held.
  have held : ∀ t ∈ k.rows, t ∉ k.unheld i → t.serial ∈ i.rows.map IndexRow.serial := by
    intro t present spared
    refine Classical.byContradiction fun absent => spared ?_
    exact List.mem_filter.mpr ⟨present, by simpa using absent⟩
  let listed := k.rows.filter fun t => i.Lists t.coordinate
  have ids : ∀ t ∈ listed, t.serial ∈ i.rows.map IndexRow.serial := by
    intro t chosen
    obtain ⟨present, listed⟩ := List.mem_filter.mp chosen
    by_cases stale : IsStale i t
    · exact held t present fun needed => nowhere ⟨t, present, stale, needed⟩
    · have listed : i.Lists t.coordinate := by simpa using listed
      have found : i.serial? t.coordinate = some t.serial :=
        Classical.byContradiction fun other => stale ⟨listed, other⟩
      exact (Index.mem_serials_iff distinct t.serial).mpr ⟨t.coordinate, found⟩
  -- All those ids and the hidden one are held by rows of the index, one by each.
  have fewer : (listed.map SerialCoordinate.serial).length + 1 ≤
      (i.rows.map IndexRow.serial).length := by
    have apart : (s.serial :: listed.map SerialCoordinate.serial).Nodup := by
      refine List.nodup_cons.mpr ⟨?_, unambiguous.2.sublist (List.filter_sublist.map _)⟩
      intro again
      obtain ⟨t, chosen, same⟩ := List.mem_map.mp again
      obtain ⟨present, listed⟩ := List.mem_filter.mp chosen
      have one : t = s := List.inj_on_of_nodup_map unambiguous.2 present member same
      exact unlisted (by simpa [one] using listed)
    apply List.Nodup.length_le_of_subset apart
    intro id among
    rcases List.mem_cons.mp among with rfl | later
    · exact held s member hidden
    · obtain ⟨t, chosen, rfl⟩ := List.mem_map.mp later
      exact ids t chosen
  -- Yet there are no more rows than registered coordinates that are listed.
  have more : (i.rows.map IndexRow.coordinate).length ≤
      (listed.map SerialCoordinate.coordinate).length := by
    apply List.Nodup.length_le_of_subset distinct
    intro c among
    obtain ⟨row, present, rfl⟩ := List.mem_map.mp among
    obtain ⟨t, inCatalog, same⟩ := registered row.coordinate ⟨row, present, rfl⟩
    have chosen : t ∈ listed :=
      List.mem_filter.mpr ⟨inCatalog, by simpa [same] using ⟨row, present, rfl⟩⟩
    exact List.mem_map.mpr ⟨t, chosen, same⟩
  simp only [List.length_map] at fewer more
  omega

/-- A clean cycle brings in what is not listed, or has fewer stale coordinates than before. -/
theorem listed_or_fewer_stale (distinct : i.Distinct) (unambiguous : k.Unambiguous)
    (registered : Registered i k) (done : CycleDone k i report j) (clean : Clean report) :
    (∀ s ∈ k.rows, j.Lists s.coordinate) ∨ staleCount j k < staleCount i k := by
  by_cases visible : ∀ s ∈ k.rows, ¬ i.Lists s.coordinate → s ∈ k.unheld i
  · left
    intro s member
    by_cases listed : i.Lists s.coordinate
    · exact done.1.lists listed
    · rw [Index.lists_iff, done.2 clean.1 clean.2 s (visible s member listed)]
      rfl
  · right
    simp only [Classical.not_forall] at visible
    obtain ⟨s, member, unlisted, hidden⟩ := visible
    obtain ⟨t, present, stale, needed⟩ :=
      stale_needed distinct unambiguous registered member unlisted hidden
    -- No coordinate has become stale, and the one that was needed has been put right.
    have kept : (k.rows.filter fun s => IsStale j s) =
        (k.rows.filter fun s => IsStale i s).filter fun s => IsStale j s := by
      rw [List.filter_filter]
      apply List.filter_congr
      intro s member
      by_cases still : IsStale j s
      · simp [still, (stale_before unambiguous done clean member still).1]
      · simp [still]
    rw [staleCount, kept, staleCount, List.length_filter_lt_length_iff_exists]
    refine ⟨t, List.mem_filter.mpr ⟨present, by simpa using stale⟩, ?_⟩
    intro still
    have spared := (stale_before unambiguous done clean present (by simpa using still)).2
    exact spared needed

/-! ## Many cycles -/

theorem lists_after_cycles (unambiguous : k.Unambiguous) {kind : CycleReport → Prop} {n : Nat}
    (cycles : Cycles k kind n i j) {c : Coordinate} (listed : i.Lists c) : j.Lists c := by
  induction cycles with
  | none i => exact listed
  | more run _ _ ih => exact ih ((cycleDone_of_unambiguous unambiguous run).1.lists listed)

/-- After more clean cycles than there are stale coordinates everything is indexed. -/
theorem listed_after_clean_cycles (unambiguous : k.Unambiguous) {n : Nat}
    (cycles : Cycles k Clean n i j) (distinct : i.Distinct) (registered : Registered i k)
    (enough : staleCount i k < n) : ∀ s ∈ k.rows, j.Lists s.coordinate := by
  induction cycles with
  | none i => exact absurd enough (Nat.not_lt_zero _)
  | @more n i j l r report run clean rest ih =>
      have done := cycleDone_of_unambiguous unambiguous run
      rcases listed_or_fewer_stale distinct unambiguous registered done clean with all | fewer
      · exact fun s member => lists_after_cycles unambiguous rest (all s member)
      · exact ih (done.1.distinct distinct) (registered_cycle registered done) (by omega)

/-- What an unregistered coordinate hides stays hidden. -/
theorem hidden_after_cycles (unambiguous : k.Unambiguous) {kind : CycleReport → Prop} {n : Nat}
    (cycles : Cycles k kind n i j) {s : SerialCoordinate} (member : s ∈ k.rows)
    (unlisted : ¬ i.Lists s.coordinate) {c : Coordinate} (foreign : ∀ t ∈ k.rows, t.coordinate ≠ c)
    (held : i.serial? c = some s.serial) :
    ¬ j.Lists s.coordinate ∧ j.serial? c = some s.serial := by
  induction cycles with
  | none i => exact ⟨unlisted, held⟩
  | @more n i j l r report run _ rest ih =>
      have done := cycleDone_of_unambiguous unambiguous run
      have spared : s ∉ k.unheld i := by
        obtain ⟨row, present, _, same⟩ := Index.mem_of_serial? held
        intro needed
        have absent : s.serial ∉ i.rows.map IndexRow.serial := by
          simpa using (List.mem_filter.mp needed).2
        exact absent (List.mem_map.mpr ⟨row, present, same⟩)
      apply ih
      · rcases done.1.serial s.coordinate with same | ⟨t, needed, own, _⟩
        · rw [Index.lists_iff, same, ← Index.lists_iff]
          exact unlisted
        · have one : t = s :=
            List.inj_on_of_nodup_map unambiguous.1 (List.mem_filter.mp needed).1 member own
          exact absurd (one ▸ needed) spared
      · rcases done.1.serial c with same | ⟨t, needed, own, _⟩
        · rw [same]
          exact held
        · exact absurd own (foreign t (List.mem_filter.mp needed).1)

/-- What is needed are the rows whose serial ids are not held, so that an unindexed coordinate may
be hidden by another one that holds its id. If every indexed coordinate is registered, enough clean
cycles bring everything in; what an unregistered coordinate hides is never brought in. -/
theorem needed_unless_hidden (distinct : i.Distinct) (unambiguous : k.Unambiguous) :
    (∃ needed, k.answerTo i.serials = .ok needed ∧
      ∀ s ∈ k.rows, ¬ i.Lists s.coordinate →
        (s ∈ needed ↔ ∀ row ∈ i.rows, row.serial ≠ s.serial)) ∧
    (Registered i k → ∀ n j, Cycles k Clean n i j → staleCount i k < n →
      ∀ s ∈ k.rows, j.Lists s.coordinate) ∧
    ∀ s ∈ k.rows, ¬ i.Lists s.coordinate →
      (∃ row ∈ i.rows, row.serial = s.serial ∧ ∀ t ∈ k.rows, t.coordinate ≠ row.coordinate) →
      ∀ n j, Cycles k (fun _ => True) n i j → ¬ j.Lists s.coordinate := by
  refine ⟨⟨k.unheld i, k.answerTo_serials i, ?_⟩, ?_, ?_⟩
  · intro s member _
    simp [Catalog.unheld, member]
  · intro registered n j cycles enough
    exact listed_after_clean_cycles unambiguous cycles distinct registered enough
  · rintro s member unlisted ⟨row, present, same, foreign⟩ n j cycles
    have held := Index.serial?_of_mem distinct present
    rw [same] at held
    exact (hidden_after_cycles unambiguous cycles member unlisted foreign held).1

/-! ## A module that is hidden for one cycle -/

namespace Sample

/-- A module that had the serial id which is now that of the wanted one. -/
def moved : SerialCoordinate := ⟨⟨"a", "v"⟩, 2⟩

def renumbered : Catalog := ⟨[wanted, moved], 2⟩

def outdated : Index := ⟨[⟨moved.coordinate, 1, "module a\n", .ofNanos 0⟩]⟩

def corrected : Index := ⟨[⟨moved.coordinate, 2, "module a\n", .ofNanos 0⟩]⟩

def completed : Index := corrected.put (.ofNanos 0) addition

theorem runs_correction : Runs (orFails (servesFrom renumbered)) reconciler.runOnce outdated
    ⟨1, 0, 1, 0, 0, false⟩ corrected := by
  have needed : renumbered.answerTo outdated.serials = .ok [moved] :=
    renumbered.answerTo_serials outdated
  have begun : orFails (servesFrom renumbered) (.count .cycles) outdated () outdated := Or.inl rfl
  have held : orFails (servesFrom renumbered) .heldSerials outdated (.ok outdated.serials)
      outdated := Or.inl ⟨rfl, rfl⟩
  have answered : orFails (servesFrom renumbered) (.askRegistry outdated.serials) outdated
      (.ok [moved]) outdated := Or.inl ⟨⟨[moved], needed, rfl⟩, rfl⟩
  have found : orFails (servesFrom renumbered) (.findSerial moved.coordinate) outdated
      (.ok (some 1)) outdated := Or.inl ⟨rfl, rfl⟩
  have changed : orFails (servesFrom renumbered) (.setSerial moved) outdated (.ok ()) corrected :=
    Or.inl ⟨rfl, rfl⟩
  have counted : orFails (servesFrom renumbered) (.count .renumberings) corrected () corrected :=
    Or.inl rfl
  refine Runs.ask begun (Runs.ask held (Runs.ask answered ?_))
  exact Runs.ask found (Runs.ask changed (Runs.ask counted (Runs.done _ corrected)))

theorem runs_completion : Runs (orFails (servesFrom renumbered)) reconciler.runOnce corrected
    ⟨1, 0, 0, 1, 0, false⟩ completed :=
  runs_download renumbered corrected (renumbered.answerTo_serials corrected) rfl

theorem cycles_completed : Cycles renumbered Clean 2 outdated completed :=
  Cycles.more runs_correction ⟨rfl, rfl⟩
    (Cycles.more runs_completion ⟨rfl, rfl⟩ (Cycles.none completed))

end Sample

/-- The wanted module is hidden at first, and indexed after two cycles. -/
theorem needed_unless_hidden_renumbered :
    Sample.renumbered.answerTo Sample.outdated.serials = .ok [Sample.moved] ∧
      ∀ s ∈ Sample.renumbered.rows, Sample.completed.Lists s.coordinate := by
  have registered : Registered Sample.outdated Sample.renumbered := by
    rintro c ⟨row, member, rfl⟩
    rw [List.mem_singleton.mp member]
    exact ⟨Sample.moved, by decide, rfl⟩
  have all := needed_unless_hidden (i := Sample.outdated) (k := Sample.renumbered) (by decide)
    (by decide)
  exact ⟨Sample.renumbered.answerTo_serials Sample.outdated,
    all.2.1 registered 2 Sample.completed Sample.cycles_completed (by decide)⟩

/-- An index that was filled before its registry numbered its modules anew may hide a module of
the catalog. -/
theorem unindexed_may_be_hidden :
    ¬ ∀ (i : Index) (k : Catalog), i.Distinct → k.Unambiguous →
      ∀ s ∈ k.rows, ¬ i.Lists s.coordinate →
        ∃ needed, k.answerTo i.serials = .ok needed ∧ s ∈ needed := by
  intro always
  obtain ⟨needed, answered, member⟩ := always
    ⟨[⟨⟨"example.com/old", "v1.0.0"⟩, 1, "module example.com/old\n", .ofNanos 0⟩]⟩
    ⟨[⟨⟨"example.com/new", "v1.0.0"⟩, 1⟩], 1⟩ (by decide) (by decide) _ List.mem_cons_self
    (by decide)
  rw [Catalog.answerTo_serials] at answered
  cases answered
  simp at member

end Proxy

end ModuleDepot
