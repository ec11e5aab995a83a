import ModuleDepot.Proofs.CallEffects
import ModuleDepot.Proofs.RangeDiff

/-!
What a cycle leaves of an index. The registry answers from its catalog, and every
call may fail. A coordinate then has the serial id it had, or the one under which
it was needed, and after a cycle without failures everything that was needed is
indexed.
-/

namespace ModuleDepot

namespace Index

/-- An index after coordinates were brought in: each coordinate keeps its serial id, or has that
of one of the given items. -/
structure Follows (items : List SerialCoordinate) (before after : Index) : Prop where
  distinct : before.Distinct → after.Distinct
  serial : ∀ c, after.serial? c = before.serial? c ∨
    ∃ s ∈ items, s.coordinate = c ∧ after.serial? c = some s.serial

variable {items more : List SerialCoordinate} {i j k : Index}

theorem follows_refl (items : List SerialCoordinate) (i : Index) : Follows items i i :=
  ⟨id, fun _ => Or.inl rfl⟩

theorem follows_trans (first : Follows items i j) (second : Follows items j k) :
    Follows items i k := by
  constructor
  · intro distinct
    exact second.distinct (first.distinct distinct)
  · intro c
    rcases second.serial c with same | changed
    · rw [same]
      exact first.serial c
    · exact Or.inr changed

theorem follows_mono (included : ∀ s ∈ items, s ∈ more) (follows : Follows items i j) :
    Follows more i j := by
  apply Follows.mk follows.distinct
  intro c
  rcases follows.serial c with same | ⟨s, member, own, found⟩
  · exact Or.inl same
  · exact Or.inr ⟨s, included s member, own, found⟩

theorem follows_put {s : SerialCoordinate} (member : s ∈ items) (now : Moment) (manifest : String)
    (i : Index) : Follows items i (i.put now ⟨s.coordinate, s.serial, manifest⟩) := by
  apply Follows.mk (distinct_put now _)
  intro c
  rw [serial?_put]
  by_cases same : c = s.coordinate
  · rw [if_pos same]
    exact Or.inr ⟨s, member, same.symm, rfl⟩
  · rw [if_neg same]
    exact Or.inl rfl

theorem follows_setSerial {s : SerialCoordinate} (member : s ∈ items)
    (changed : i.setSerial s = .ok j) : Follows items i j := by
  apply Follows.mk (distinct_setSerial changed)
  intro c
  rw [serial?_setSerial changed]
  by_cases same : c = s.coordinate
  · rw [if_pos same]
    exact Or.inr ⟨s, member, same.symm, rfl⟩
  · rw [if_neg same]
    exact Or.inl rfl

theorem Follows.lists (follows : Follows items i j) {c : Coordinate} (listed : i.Lists c) :
    j.Lists c := by
  rw [lists_iff] at *
  rcases follows.serial c with same | ⟨s, _, _, found⟩
  · rw [same]
    exact listed
  · rw [found]
    rfl

end Index

/-- The rows of a catalog whose serial ids no row of an index has. -/
def Catalog.unheld (catalog : Catalog) (index : Index) : List SerialCoordinate :=
  catalog.rows.filter fun r => r.serial ∉ index.rows.map IndexRow.serial

namespace Proxy

open Procedure Index

/-- An index beside a registry that answers from its catalog. -/
def servesFrom (catalog : Catalog) : Service Call Answer Index
  | .askRegistry held, index, answer, next =>
      (∃ needed, catalog.answerTo held = .ok needed ∧ answer = .ok needed) ∧ next = index
  | c, index, answer, next => indexServes c index answer next

variable {catalog : Catalog} {i : Index}

theorem cycle_unchanged {c : Call} {answer : Answer c} {j : Index} (quiet : c.changesIndex = false)
    (served : orFails (servesFrom catalog) c i answer j) : j = i := by
  rcases served with served | ⟨_, same⟩
  · cases c with
    | askRegistry held => exact served.2
    | _ => exact @index_unchanged _ answer i j quiet served
  · exact same

/-- What a procedure promises of its end when the registry answers from a catalog. -/
abbrev Ends {α : Type} (catalog : Catalog) (post : α → Index → Prop) (p : Task α) (i : Index) :
    Prop := Holds (orFails (servesFrom catalog)) (fun _ => True) post p i

theorem ends_call {c : Call} (quiet : c.changesIndex = false) {post : Answer c → Index → Prop}
    (ends : ∀ answer, post answer i) : Ends catalog post (ask c) i := by
  intro answer j served
  rw [cycle_unchanged quiet served]
  exact ⟨trivial, ends answer⟩

/-! ## One module -/

/-- The end of work on one module: unless it failed, the module is indexed. -/
def Settled (s : SerialCoordinate) (i : Index) (result : Except ReconcileError Outcome)
    (j : Index) : Prop :=
  Follows [s] i j ∧ ∀ outcome, result = .ok outcome → j.serial? s.coordinate = some s.serial

theorem settled_failure (s : SerialCoordinate) (i : Index) (e : ReconcileError) :
    Settled s i (.error e) i := by
  apply And.intro (follows_refl [s] i)
  rintro outcome ⟨⟩

theorem ends_takeIn (s : SerialCoordinate) (data : ByteArray) (source : ArchiveSource) :
    Ends catalog (Settled s i) (Reconciler.takeIn s data source) i := by
  unfold Reconciler.takeIn
  cases Reconciler.manifestOf s.coordinate data with
  | error e => exact settled_failure s i e
  | ok manifest =>
      rw [Ends, holds_bind]
      apply ends_call rfl
      intro stored
      cases stored with
      | error e => exact settled_failure s i (.storage e)
      | ok _ =>
          rw [holds_bind]
          intro answer j served
          apply And.intro trivial
          rcases served with ⟨rfl, now, rfl⟩ | ⟨⟨e, rfl⟩, rfl⟩
          · rw [Holds, holds_bind]
            apply ends_call rfl
            intro _
            apply And.intro (follows_put List.mem_cons_self now manifest i)
            intro outcome _
            rw [serial?_put]
            exact if_pos rfl
          · exact settled_failure s j (.index e)

theorem ends_reconcile (r : Reconciler) (s : SerialCoordinate) (i : Index) :
    Ends catalog (Settled s i) (r.reconcile s) i := by
  rw [Ends, Reconciler.reconcile, holds_bind]
  intro answer j served
  obtain rfl := cycle_unchanged rfl served
  apply And.intro trivial
  rw [Holds]
  rcases served with ⟨rfl, _⟩ | ⟨⟨e, rfl⟩, _⟩
  · cases found : j.serial? s.coordinate with
    | none =>
        -- Downloading leaves the index alone, so that it is still the one that was searched.
        rw [holds_bind]
        apply holds_of_only ?_ (only_download r s.coordinate) trivial
        · intro fetched
          cases fetched with
          | error e => exact settled_failure s j e
          | ok archive => exact ends_takeIn s archive.1 archive.2
        · intro c answer next network served
          exact cycle_unchanged (Call.quiet_of_isExchange network).1 served
    | some held =>
        dsimp only
        by_cases same : held = s.serial
        · rw [if_pos same]
          apply And.intro (follows_refl [s] j)
          intro _ _
          rw [found, same]
        · rw [if_neg same, holds_bind]
          intro answer next served
          apply And.intro trivial
          rcases served with attempted | ⟨⟨e, rfl⟩, rfl⟩
          · rcases attempts_cases attempted with ⟨⟨e, _, rfl⟩, rfl⟩ | ⟨rfl, changed⟩
            · exact settled_failure s next (.index e)
            · rw [Holds, holds_bind]
              apply ends_call rfl
              intro _
              apply And.intro (follows_setSerial List.mem_cons_self changed)
              intro _ _
              rw [serial?_setSerial changed]
              exact if_pos rfl
          · exact settled_failure s next (.index e)
  · exact settled_failure s j (.index e)

/-! ## A whole cycle -/

theorem ends_noteFailure (c : Coordinate) (result : Except ReconcileError Outcome) :
    Ends catalog (fun _ j => j = i) (Reconciler.noteFailure c result) i := by
  cases result with
  | ok outcome => rfl
  | error e =>
      rw [Ends, Reconciler.noteFailure, holds_bind]
      exact ends_call rfl fun _ => ends_call rfl fun _ => rfl

theorem add_aborted (report : CycleReport) (result : Except ReconcileError Outcome) :
    (report.add result).aborted = report.aborted := by
  rcases result with e | (_ | _ | _) <;> rfl

theorem failed_le_add (report : CycleReport) (result : Except ReconcileError Outcome) :
    report.failed ≤ (report.add result).failed := by
  rcases result with e | (_ | _ | _)
  · exact Nat.le_succ report.failed
  all_goals exact Nat.le_refl report.failed

theorem ok_of_add_failed (report : CycleReport) (result : Except ReconcileError Outcome)
    (same : (report.add result).failed = report.failed) : ∃ outcome, result = .ok outcome := by
  cases result with
  | ok outcome => exact ⟨outcome, rfl⟩
  | error e => exact absurd same (Nat.succ_ne_self report.failed)

/-- The end of work on several modules, from a report to another one: if no failure was added,
all of them are indexed. -/
def AllSettled (items : List SerialCoordinate) (report : CycleReport) (i : Index)
    (ending : CycleReport) (j : Index) : Prop :=
  Follows items i j ∧ ending.aborted = report.aborted ∧ report.failed ≤ ending.failed ∧
    (ending.failed = report.failed → ∀ s ∈ items, j.serial? s.coordinate = some s.serial)

/-- Later modules have other coordinates, so that what was settled stays. -/
theorem ends_reconcileAll (r : Reconciler) (items : List SerialCoordinate)
    (report : CycleReport) (i : Index)
    (distinct : items.Pairwise fun a b => a.coordinate ≠ b.coordinate) :
    Ends catalog (AllSettled items report i) (r.reconcileAll report items) i := by
  induction items generalizing report i with
  | nil =>
      refine ⟨follows_refl [] i, rfl, Nat.le_refl _, fun _ s member => ?_⟩
      cases member
  | cons s rest ih =>
      obtain ⟨apart, distinct⟩ := List.pairwise_cons.mp distinct
      rw [Ends, Reconciler.reconcileAll, holds_bind]
      refine holds_mono _ _ ?_ (ends_reconcile r s i)
      rintro result j ⟨follows, settled⟩
      rw [holds_bind]
      refine holds_mono _ _ ?_ (ends_noteFailure s.coordinate result)
      rintro _ _ rfl
      refine holds_mono _ _ ?_ (ih (report.add result) _ distinct)
      rintro ending k ⟨later, aborted, failures, all⟩
      have more := failed_le_add report result
      refine ⟨?_, aborted.trans (add_aborted report result), Nat.le_trans more failures, ?_⟩
      · exact follows_trans (follows_mono (by simp) follows)
          (follows_mono (fun _ => List.mem_cons_of_mem s) later)
      · -- The number of failures only grows, so neither this module nor a later one added to it.
        intro none t member
        obtain ⟨outcome, succeeded⟩ := ok_of_add_failed report result (by omega)
        rcases List.mem_cons.mp member with rfl | member
        · rcases later.serial t.coordinate with same | ⟨other, present, own, _⟩
          · rw [same]
            exact settled outcome succeeded
          · exact absurd own.symm (apart other present)
        · exact all (by omega) t member

/-- After a cycle that was neither aborted nor counts a failure, everything that was needed is
indexed under the catalog's serial id. In every cycle, nothing else has changed. -/
def CycleDone (catalog : Catalog) (i : Index) (report : CycleReport) (j : Index) : Prop :=
  Follows (catalog.unheld i) i j ∧
    (report.aborted = false → report.failed = 0 →
      ∀ s ∈ catalog.unheld i, j.serial? s.coordinate = some s.serial)

theorem ends_abandon : Ends catalog (CycleDone catalog i) Reconciler.abandon i := by
  rw [Ends, Reconciler.abandon, holds_bind]
  refine ends_call rfl fun _ => ⟨follows_refl _ i, ?_⟩
  rintro ⟨⟩

theorem ends_runOnce (r : Reconciler) (i : Index)
    (distinct : catalog.rows.Pairwise fun a b => a.coordinate ≠ b.coordinate) :
    Ends catalog (CycleDone catalog i) r.runOnce i := by
  rw [Ends, Reconciler.runOnce, holds_bind]
  apply ends_call rfl
  intro _
  rw [holds_bind]
  intro answer j served
  obtain rfl := cycle_unchanged rfl served
  apply And.intro trivial
  rw [Holds]
  rcases served with ⟨rfl, _⟩ | ⟨⟨e, rfl⟩, _⟩
  · rw [holds_bind]
    intro answer k served
    obtain rfl := cycle_unchanged rfl served
    apply And.intro trivial
    rw [Holds]
    rcases served with ⟨⟨needed, answered, rfl⟩, _⟩ | ⟨⟨e, rfl⟩, _⟩
    · -- The index has not changed since the ids were read, so the answer is about this one.
      rw [catalog.answerTo_serials] at answered
      cases answered
      refine holds_mono _ _ ?_ (ends_reconcileAll r (catalog.unheld k) _ k
        (distinct.sublist List.filter_sublist))
      rintro report j ⟨follows, _, _, all⟩
      exact ⟨follows, fun _ clean => all clean⟩
    · exact ends_abandon
  · exact ends_abandon

theorem cycleDone_of_runs {r : Reconciler} {i j : Index} {report : CycleReport}
    (distinct : catalog.rows.Pairwise fun a b => a.coordinate ≠ b.coordinate)
    (run : Runs (orFails (servesFrom catalog)) r.runOnce i report j) :
    CycleDone catalog i report j :=
  runs_post run (ends_runOnce r i distinct)

/-- A proxy whose registry answers from a catalog performs such runs. -/
theorem runs_perform {σ α : Type} {outside : Outside σ}
    (answers : ∀ held w, (outside.askRegistry held w).1 =
      (catalog.answerTo held).mapError fun _ => .notUnderstood)
    (task : Task α) (s : State) (w : σ) :
    Runs (orFails (servesFrom catalog)) task s.index (State.perform outside task s w).1
      (State.perform outside task s w).2.1.index := by
  have meets : ∀ c (t : State × σ), orFails (servesFrom catalog) c t.1.index
      (State.answer outside c t).1 (State.answer outside c t).2.1.index := by
    rintro c ⟨s, w⟩
    have own := indexServes_answer outside c (s, w)
    cases c with
    | askRegistry held =>
        have told : (State.answer outside (.askRegistry held) (s, w)).1 =
          (catalog.answerTo held).mapError fun _ => .notUnderstood := answers held w
        rw [told]
        cases answered : catalog.answerTo held with
        | error e => exact Or.inr ⟨⟨_, rfl⟩, rfl⟩
        | ok needed => exact Or.inl ⟨⟨needed, answered, rfl⟩, rfl⟩
    | _ => exact Or.inl own
  exact runs_run (fun t : State × σ => t.1.index) meets task (s, w)

namespace Sample

/-- A cycle of which nothing fails and that brings the wanted module in. -/
theorem runs_download (catalog : Catalog) (i : Index)
    (needed : catalog.answerTo i.serials = .ok [wanted])
    (absent : i.serial? wanted.coordinate = none) :
    Runs (orFails (servesFrom catalog)) reconciler.runOnce i ⟨1, 0, 0, 1, 0, false⟩
      (i.put (.ofNanos 0) addition) := by
  have quiet (c : Call) (index : Index) (answer : Answer c)
      (served : servesFrom catalog c index answer index) :
      orFails (servesFrom catalog) c index answer index := Or.inl served
  have begun := quiet (.count .cycles) i () rfl
  have held := quiet .heldSerials i (.ok i.serials) ⟨rfl, rfl⟩
  have answered := quiet (.askRegistry i.serials) i (.ok [wanted]) ⟨⟨[wanted], needed, rfl⟩, rfl⟩
  have searched := quiet (.findSerial wanted.coordinate) i (.ok none) ⟨by rw [absent], rfl⟩
  have fetched := quiet (.exchange request) i (some ⟨200, archive⟩) rfl
  have stored := quiet (.putArchive wanted.coordinate archive) i (.ok ()) rfl
  have listed : orFails (servesFrom catalog) (.putRow addition) i (.ok ())
      (i.put (.ofNanos 0) addition) := Or.inl ⟨rfl, .ofNanos 0, rfl⟩
  have counted := quiet (.count (.downloads .openProxy)) (i.put (.ofNanos 0) addition) () rfl
  refine Runs.ask begun (Runs.ask held (Runs.ask answered ?_))
  refine Runs.ask searched (Runs.ask fetched (Runs.ask stored ?_))
  exact Runs.ask listed (Runs.ask counted (Runs.done _ _))

end Sample

end Proxy

end ModuleDepot
