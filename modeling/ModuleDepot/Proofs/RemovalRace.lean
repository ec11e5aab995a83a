import ModuleDepot.Proofs.ArchiveCustody
import ModuleDepot.Proofs.ReconcileCourses

/-!
A worker brings a module in while removals are under way. Each of them keeps every
listed archive by itself, but a removal may take away the archive that the worker
has just stored and leave the row that the worker is about to put. That is the only
way in which a listed coordinate loses its archive.
-/

namespace ModuleDepot.Proxy

open Procedure

/-- Every listed coordinate is accepted, and its archive is held. -/
def Depot.Stocked (d : Depot) : Prop :=
  ∀ c, d.index.Lists c → c.Accepted ∧ (d.archive? c).isSome = true

/-- A module is brought in while modules are removed, the same one or others. -/
def contenders (r : Reconciler) (s : SerialCoordinate) (removed : List Coordinate) :
    List (Task Unit) :=
  (Operation.bringIn r s).task :: removed.map fun c => (Operation.remove c).task

/-- An archive that is stored and then deleted, although the coordinate's row is put after it
was stored and not removed any more. -/
def Overtaken (c : Coordinate) (calls : List Call) : Prop :=
  ∃ before data between a after,
    calls = before ++ .putArchive c data :: (between ++ .putRow a :: after) ∧
      a.coordinate = c ∧ .deleteArchive c ∈ between ++ after ∧ .removeRow c ∉ after

/-! ## The calls of each procedure -/

/-- The calls by which a module comes in. -/
def Call.bringsIn : Call → Bool
  | .putArchive _ _ => true
  | .putRow _ => true
  | _ => false

/-- The changes that bringing a module in may make. -/
def OfWorker (s : SerialCoordinate) : Call → Prop
  | .putArchive c _ => c = s.coordinate
  | .putRow a => a.coordinate = s.coordinate
  | .setSerial r => r = s
  | .removeRow _ => False
  | .deleteArchive _ => False
  | _ => True

def OfRemoval (c : Coordinate) (call : Call) : Prop :=
  call = .removeRow c ∨ call = .deleteArchive c

theorem ofWorker_of_trace {r : Reconciler} {s : SerialCoordinate}
    {events : List (Event Call Answer)} {result : Except ReconcileError Outcome}
    (trace : Trace (r.reconcile s) events result) : ∀ x ∈ events, OfWorker s x.1 := by
  rintro ⟨call, answer⟩ member
  have own := (course_of_trace trace).ofReconciliation _ member
  cases call with
  | putRow a => exact own.1
  | putArchive | setSerial | removeRow | deleteArchive => exact own
  | _ => trivial

theorem only_removeModule (c : Coordinate) : Only (OfRemoval c) (removeModule c) := by
  apply only_call_bind
  · exact Or.inl rfl
  intro removed
  cases removed with
  | error e => exact only_pure _ _
  | ok _ => exact only_call_bind (Or.inr rfl) fun _ => only_pure _ _

/-- A removal deletes the archive only after the row. -/
theorem trace_removeModule {c : Coordinate} {events : List (Event Call Answer)}
    {result : Except RequestError Unit} (trace : Trace (removeModule c) events result) :
    ∃ x ∈ events, x.1 = .removeRow c := by
  obtain ⟨removed, rest, _, rfl⟩ := trace_call_bind trace
  exact ⟨_, List.mem_cons_self, rfl⟩

/-- How far a module came in: not at all, up to a store that failed, or up to its row, which is
put only after its archive was stored. -/
def Progress (s : SerialCoordinate) (events : List (Event Call Answer)) : Prop :=
  events = [] ∨
    (∃ data failure, events = [⟨.putArchive s.coordinate data, .error failure⟩]) ∨
    ∃ data a answer, a.coordinate = s.coordinate ∧
      events = [⟨.putArchive s.coordinate data, .ok ()⟩, ⟨.putRow a, answer⟩]

/-- Only a module that was not found is brought in. -/
theorem progress_of_trace {r : Reconciler} {s : SerialCoordinate}
    {events : List (Event Call Answer)} {result : Except ReconcileError Outcome}
    (trace : Trace (r.reconcile s) events result) :
    Progress s (events.filter fun x => x.1.bringsIn) := by
  have network : Only (fun c => c.bringsIn = false) (r.download s.coordinate) := by
    refine only_mono (fun c exchange => ?_) (only_download r s.coordinate)
    cases c with
    | exchange request => rfl
    | _ => cases exchange
  cases course_of_trace trace with
  | unsearched | known | unchanged | renumbered => exact Or.inl rfl
  | unfetched fetch =>
      rw [List.filter_cons_of_neg (by simp [Call.bringsIn]), filter_of_only network fetch]
      exact Or.inl rfl
  | fetched fetch intake =>
      rw [List.filter_cons_of_neg (by simp [Call.bringsIn]), List.filter_append,
        filter_of_only network fetch, List.nil_append]
      cases intake with
      | unreadable => exact Or.inl rfl
      | unstored e => exact Or.inr (Or.inl ⟨_, e, rfl⟩)
      | unlisted | listed => exact Or.inr (Or.inr ⟨_, _, _, rfl, rfl⟩)

/-! ## What single calls do -/

/-- A coordinate is listed after a call that puts its row, and otherwise if it was listed before
and the call does not remove its row. -/
theorem lists_after {call : Call} {answer : Answer call} {index next : Index}
    (served : indexServes call index answer next) (c : Coordinate) :
    next.Lists c ↔ (∃ a, call = .putRow a ∧ a.coordinate = c) ∨
      index.Lists c ∧ call ≠ .removeRow c := by
  cases call with
  | putRow a =>
      obtain ⟨_, now, rfl⟩ := served
      simp [Index.lists_put_iff, eq_comm]
  | setSerial s =>
      rcases attempts_cases served with ⟨_, rfl⟩ | ⟨_, changed⟩
      · simp
      · simp [Index.lists_setSerial_iff changed]
  | removeRow gone =>
      obtain ⟨_, rfl⟩ := served
      simp [Index.lists_remove_iff, eq_comm]
  | _ =>
      rw [index_unchanged rfl served]
      simp

/-- The coordinates under which a call changes archives are accepted. -/
def Call.KeepsApart (call : Call) : Prop :=
  (∀ c data, call = .putArchive c data → c.Accepted) ∧
    ∀ c, call = .deleteArchive c → c.Accepted

/-- An archive is held after a call that stores it, and otherwise if it was held before and the
call does not delete it. -/
theorem held_after {call : Call} {answer : Answer call} {objects next : Objects}
    (served : objectsServe call objects answer next) (apart : call.KeepsApart) {c : Coordinate}
    (accepted : c.Accepted) :
    (next.archive? c).isSome = true ↔
      (∃ data, (⟨call, answer⟩ : Event Call Answer) = ⟨.putArchive c data, .ok ()⟩) ∨
        (objects.archive? c).isSome = true ∧ call ≠ .deleteArchive c := by
  cases call with
  | putArchive other data =>
      rcases attempts_cases served with ⟨⟨failure, _, rfl⟩, rfl⟩ | ⟨rfl, stored⟩
      · simp
      · rw [Objects.archive?_putArchive (apart.1 other data rfl) accepted stored]
        by_cases same : c = other
        · subst same
          simp
        · simp [same, Ne.symm same]
  | deleteArchive other =>
      rcases attempts_cases served with ⟨⟨failure, failed, rfl⟩, rfl⟩ | ⟨rfl, deleted⟩
      · by_cases same : other = c
        · subst same
          simp [Objects.archive?_of_deleteArchive_error failed]
        · simp [same]
      · rw [Objects.archive?_deleteArchive (apart.2 other rfl) accepted deleted]
        by_cases same : c = other
        · subst same
          simp
        · simp [same, Ne.symm same]
  | _ =>
      rw [objects_unchanged rfl served]
      simp

/-! ## The calls of all together -/

variable {r : Reconciler} {s : SerialCoordinate} {removed : List Coordinate} {d e : Depot}
  {events : List (Event Call Answer)}

/-- Every call is that of the worker or that of a removal, which has removed the row. -/
theorem owners (run : Interleaved Depot.serves (contenders r s removed) d events e) :
    ∀ x ∈ events, OfWorker s x.1 ∨
      ∃ c ∈ removed, OfRemoval c x.1 ∧ ∃ y ∈ events, y.1 = .removeRow c := by
  intro x member
  obtain ⟨p, among, own, a, trace, present, part⟩ := owner_of_interleaved run x member
  rcases List.mem_cons.mp among with rfl | removal
  · obtain ⟨first, _, second, inner, outer, rfl⟩ := trace_bind trace
    rw [trace_pure outer, List.append_nil] at present
    exact Or.inl (ofWorker_of_trace inner x present)
  · obtain ⟨c, included, rfl⟩ := List.mem_map.mp removal
    have only : Only (OfRemoval c) (Operation.remove c).task :=
      only_bind (only_removeModule c) fun _ => only_pure _ _
    obtain ⟨first, _, second, inner, _, rfl⟩ := trace_bind trace
    obtain ⟨y, early, removes⟩ := trace_removeModule inner
    exact Or.inr ⟨c, included, trace_only only trace x present, y,
      part.subset (List.mem_append_left second early), removes⟩

/-- Only the worker brings a module in, in the order of its own calls. -/
theorem progress_of_run (run : Interleaved Depot.serves (contenders r s removed) d events e) :
    Progress s (events.filter fun x => x.1.bringsIn) := by
  have foreign : ∀ p ∈ removed.map fun c => (Operation.remove c).task,
      Only (fun c => c.bringsIn = false) p := by
    intro p member
    obtain ⟨c, _, rfl⟩ := List.mem_map.mp member
    refine only_mono (fun call own => ?_)
      (only_bind (only_removeModule c) fun _ => only_pure _ _)
    rcases own with rfl | rfl <;> rfl
  obtain ⟨own, a, trace, equal⟩ := filter_of_interleaved run foreign
  obtain ⟨first, _, second, inner, outer, rfl⟩ := trace_bind trace
  rw [equal, trace_pure outer, List.append_nil]
  exact progress_of_trace inner

theorem keepsApart_of_run (run : Interleaved Depot.serves (contenders r s removed) d events e)
    (accepted : s.coordinate.Accepted) (removedAccepted : ∀ c ∈ removed, c.Accepted) :
    ∀ x ∈ events, x.1.KeepsApart := by
  rintro ⟨call, answer⟩ member
  constructor
  · rintro c data rfl
    rcases owners run _ member with own | ⟨_, _, own | own, _⟩
    · rw [show c = s.coordinate from own]
      exact accepted
    · cases own
    · cases own
  · rintro c rfl
    rcases owners run _ member with own | ⟨other, included, own | own, _⟩
    · exact own.elim
    · cases own
    · cases own
      exact removedAccepted c included

/-- No archive is deleted unless its row has been removed. -/
theorem removed_of_deleted (run : Interleaved Depot.serves (contenders r s removed) d events e)
    {c : Coordinate} {x : Event Call Answer} (member : x ∈ events)
    (deletes : x.1 = .deleteArchive c) : ∃ y ∈ events, y.1 = .removeRow c := by
  rcases owners run x member with own | ⟨other, _, own | own, before⟩
  · rw [deletes] at own
    exact own.elim
  · rw [deletes] at own
    cases own
  · rw [deletes] at own
    cases own
    exact before

theorem lists_in_end (passes : Passes Depot.serves events d e) (c : Coordinate) :
    e.index.Lists c ↔ d.index.Lists c ∧ (∀ x ∈ events, ¬ x.1 = .removeRow c) ∨
      ∃ before x after, events = before ++ x :: after ∧
        (∃ a, x.1 = .putRow a ∧ a.coordinate = c) ∧ ∀ y ∈ after, ¬ y.1 = .removeRow c :=
  present_iff passes fun _ _ _ _ served => lists_after served.1 c

theorem held_in_end (passes : Passes Depot.serves events d e)
    (apart : ∀ x ∈ events, x.1.KeepsApart) {c : Coordinate} (accepted : c.Accepted) :
    (e.archive? c).isSome = true ↔
      (d.archive? c).isSome = true ∧ (∀ x ∈ events, ¬ x.1 = .deleteArchive c) ∨
      ∃ before x after, events = before ++ x :: after ∧
        (∃ data, x = ⟨.putArchive c data, .ok ()⟩) ∧ ∀ y ∈ after, ¬ y.1 = .deleteArchive c :=
  present_iff passes fun x member _ _ served => held_after served.2 (apart x member) accepted

/-! ## How an archive is lost -/

/-- The archive was stored when the row is put. -/
theorem Progress.stored_before {first second : List (Event Call Answer)} {x : Event Call Answer}
    {a : Addition} (progress : Progress s (first ++ x :: second)) (puts : x.1 = .putRow a) :
    a.coordinate = s.coordinate ∧
      ∃ data, (⟨.putArchive s.coordinate data, .ok ()⟩ : Event Call Answer) ∈ first := by
  rcases progress with nothing | ⟨data, failure, one⟩ | ⟨data, row, answer, same, two⟩
  · simp at nothing
  · cases first with
    | nil =>
        cases one
        cases puts
    | cons y rest => simp at one
  · cases first with
    | nil =>
        cases two
        cases puts
    | cons y rest =>
        cases rest with
        | nil =>
            cases two
            cases puts
            exact ⟨same, data, List.mem_cons_self⟩
        | cons z rest => simp at two

/-- After its archive was stored only the row is put. -/
theorem Progress.stored_once {first second : List (Event Call Answer)} {x : Event Call Answer}
    {c : Coordinate} {data : ByteArray} (progress : Progress s (first ++ x :: second))
    (stores : x.1 = .putArchive c data) : ∀ y ∈ second, ∃ a, y.1 = .putRow a := by
  rcases progress with nothing | ⟨data, failure, one⟩ | ⟨data, row, answer, _, two⟩
  · simp at nothing
  · cases first with
    | nil =>
        cases one
        simp
    | cons y rest => simp at one
  · cases first with
    | nil =>
        cases two
        simp
    | cons y rest =>
        cases rest with
        | nil =>
            cases two
            cases stores
        | cons z rest => simp at two

/-- A listed coordinate without its archive is that of the worker, and was overtaken. -/
theorem overtaken_of_lost (run : Interleaved Depot.serves (contenders r s removed) d events e)
    (accepted : s.coordinate.Accepted) (removedAccepted : ∀ c ∈ removed, c.Accepted)
    (stocked : d.Stocked) {c : Coordinate} (cAccepted : c.Accepted) (listed : e.index.Lists c)
    (lost : ¬ (e.archive? c).isSome = true) : Overtaken s.coordinate (events.map Sigma.fst) := by
  have passes := passes_of_interleaved run
  have held := held_in_end passes (keepsApart_of_run run accepted removedAccepted) cAccepted
  rcases (lists_in_end passes c).mp listed with
    ⟨before, never⟩ | ⟨before, x, after, split, ⟨a, puts, same⟩, kept⟩
  · -- The row stood from the start, so nothing has deleted its archive.
    refine absurd (held.mpr (Or.inl ⟨(stocked c before).2, ?_⟩)) lost
    intro x member deletes
    obtain ⟨y, present, removes⟩ := removed_of_deleted run member deletes
    exact never y present removes
  · -- Only the worker puts rows, and it had stored the archive of its own before.
    have progress := progress_of_run run
    have brings : x.1.bringsIn = true := by rw [puts]; rfl
    rw [split, List.filter_append, List.filter_cons, if_pos brings] at progress
    obtain ⟨own, data, stored⟩ := progress.stored_before puts
    obtain rfl : c = s.coordinate := same.symm.trans own
    obtain ⟨early, between, rfl⟩ := List.append_of_mem (List.mem_filter.mp stored).1
    have deleted : ∃ y ∈ between ++ after, y.1 = .deleteArchive s.coordinate := by
      refine Classical.byContradiction fun never => lost (held.mpr (Or.inr ?_))
      refine ⟨early, ⟨.putArchive s.coordinate data, .ok ()⟩, between ++ x :: after,
        by simp [split], ⟨data, rfl⟩, ?_⟩
      intro y member deletes
      rcases List.mem_append.mp member with before | here
      · exact never ⟨y, List.mem_append_left after before, deletes⟩
      rcases List.mem_cons.mp here with rfl | later
      · rw [puts] at deletes
        cases deletes
      · exact never ⟨y, List.mem_append_right between later, deletes⟩
    obtain ⟨y, member, deletes⟩ := deleted
    refine ⟨early.map Sigma.fst, data, between.map Sigma.fst, a, after.map Sigma.fst, ?_, own,
      ?_, ?_⟩
    · simp [split, puts]
    · rw [← deletes, ← List.map_append]
      exact List.mem_map_of_mem member
    · intro removes
      obtain ⟨y, later, removal⟩ := List.mem_map.mp removes
      exact kept y later removal

/-- A coordinate that was overtaken is listed without its archive. -/
theorem lost_of_overtaken (run : Interleaved Depot.serves (contenders r s removed) d events e)
    (accepted : s.coordinate.Accepted) (removedAccepted : ∀ c ∈ removed, c.Accepted)
    (overtaken : Overtaken s.coordinate (events.map Sigma.fst)) :
    e.index.Lists s.coordinate ∧ ¬ (e.archive? s.coordinate).isSome = true := by
  obtain ⟨_, data, _, a, _, calls, own, deleted, kept⟩ := overtaken
  obtain ⟨before, fromStore, rfl, rfl, storing⟩ := List.map_eq_append_iff.mp calls
  obtain ⟨x, afterStore, rfl, stores, onward⟩ := List.map_eq_cons_iff.mp storing
  obtain ⟨between, fromPut, rfl, rfl, onPut⟩ := List.map_eq_append_iff.mp onward
  obtain ⟨y, after, rfl, puts, rfl⟩ := List.map_eq_cons_iff.mp onPut
  have passes := passes_of_interleaved run
  have apart := keepsApart_of_run run accepted removedAccepted
  constructor
  · refine (lists_in_end passes s.coordinate).mpr (Or.inr ?_)
    refine ⟨before ++ x :: between, y, after, by simp, ⟨a, puts, own⟩, ?_⟩
    intro z later removes
    exact kept (removes ▸ List.mem_map_of_mem later)
  · -- Once the archive was stored, it is only deleted.
    have suffix : ∃ t, Passes Depot.serves (between ++ y :: after) t e := by
      apply passes_suffix (before ++ [x])
      simpa using passes
    obtain ⟨t, passes⟩ := suffix
    have within : ∀ z ∈ between ++ y :: after, z.1.KeepsApart := fun z member =>
      apart z (List.mem_append_right before (List.mem_cons_of_mem x member))
    rw [held_in_end passes within accepted]
    rintro (⟨_, never⟩ | ⟨first, z, last, split, ⟨other, rfl⟩, _⟩)
    · rw [← List.map_append] at deleted
      obtain ⟨z, member, deletes⟩ := List.mem_map.mp deleted
      refine never z ?_ deletes
      rcases List.mem_append.mp member with earlier | later
      · exact List.mem_append_left _ earlier
      · exact List.mem_append_right between (List.mem_cons_of_mem y later)
    · -- The worker does not store a second time.
      have progress := progress_of_run run
      have brings : x.1.bringsIn = true := by rw [stores]; rfl
      rw [List.filter_append, List.filter_cons, if_pos brings] at progress
      have again : (⟨.putArchive s.coordinate other, .ok ()⟩ : Event Call Answer) ∈
          (between ++ y :: after).filter fun z => z.1.bringsIn := by
        rw [List.mem_filter, split]
        exact ⟨List.mem_append_right first List.mem_cons_self, rfl⟩
      obtain ⟨row, puts⟩ := progress.stored_once stores _ again
      cases puts

/-- When all have finished, every listed coordinate has its archive, except if the worker's own
coordinate was overtaken by its removal. -/
theorem stocked_iff_not_overtaken (accepted : s.coordinate.Accepted)
    (removedAccepted : ∀ c ∈ removed, c.Accepted) (stocked : d.Stocked)
    (run : Interleaved Depot.serves (contenders r s removed) d events e) :
    e.Stocked ↔ ¬ Overtaken s.coordinate (events.map Sigma.fst) := by
  constructor
  · intro stillStocked overtaken
    obtain ⟨listed, lost⟩ := lost_of_overtaken run accepted removedAccepted overtaken
    exact lost (stillStocked s.coordinate listed).2
  · intro spared c listed
    have cAccepted : c.Accepted := by
      rcases (lists_in_end (passes_of_interleaved run) c).mp listed with
        ⟨before, _⟩ | ⟨before, x, after, rfl, ⟨a, puts, rfl⟩, _⟩
      · exact (stocked c before).1
      · rcases owners run x (List.mem_append_right before List.mem_cons_self) with
          own | ⟨other, _, own | own, _⟩
        · rw [puts] at own
          rw [show a.coordinate = s.coordinate from own]
          exact accepted
        · rw [puts] at own
          cases own
        · rw [puts] at own
          cases own
    refine ⟨cAccepted, Decidable.byContradiction fun lost => spared ?_⟩
    exact overtaken_of_lost run accepted removedAccepted stocked cAccepted listed lost

/-! ## A removal that overtakes the worker -/

namespace Sample

/-- The row is put after the archive was deleted. -/
def bereft : Depot :=
  ⟨Index.empty.put (.ofNanos 0) addition, Function.update stored.objects "m/@v/v.zip" none⟩

/-- The removal takes place between the worker's last two steps. -/
def race : List (Event Call Answer) :=
  [⟨.findSerial wanted.coordinate, .ok none⟩, ⟨.exchange request, some ⟨200, archive⟩⟩,
    ⟨.putArchive wanted.coordinate archive, .ok ()⟩, ⟨.removeRow wanted.coordinate, .ok ()⟩,
    ⟨.deleteArchive wanted.coordinate, .ok ()⟩, ⟨.putRow addition, .ok ()⟩,
    ⟨.count (.downloads .openProxy), ()⟩]

theorem interleaved_race :
    Interleaved Depot.serves (contenders reconciler wanted [wanted.coordinate]) .empty race
      bereft := by
  have absent : Depot.serves (.findSerial wanted.coordinate) .empty (.ok none) .empty :=
    ⟨⟨rfl, rfl⟩, rfl⟩
  have fetched : Depot.serves (.exchange request) .empty (some ⟨200, archive⟩) .empty := ⟨rfl, rfl⟩
  have put : Depot.serves (.putArchive wanted.coordinate archive) .empty (.ok ()) stored :=
    ⟨rfl, rfl, rfl⟩
  have forgotten : Depot.serves (.removeRow wanted.coordinate) stored (.ok ()) stored :=
    ⟨⟨rfl, rfl⟩, rfl⟩
  have deleted : Depot.serves (.deleteArchive wanted.coordinate) stored (.ok ())
      ⟨.empty, bereft.objects⟩ := ⟨rfl, rfl, rfl⟩
  have listed : Depot.serves (.putRow addition) ⟨.empty, bereft.objects⟩ (.ok ()) bereft :=
    ⟨⟨rfl, .ofNanos 0, rfl⟩, rfl⟩
  have counted : Depot.serves (.count (.downloads .openProxy)) bereft () bereft := ⟨rfl, rfl⟩
  refine Interleaved.turn [] [(Operation.remove wanted.coordinate).task] absent ?_
  refine Interleaved.turn [] [(Operation.remove wanted.coordinate).task] fetched ?_
  refine Interleaved.turn [] [(Operation.remove wanted.coordinate).task] put ?_
  refine Interleaved.turn [_] [] forgotten ?_
  refine Interleaved.turn [_] [] deleted ?_
  refine Interleaved.turn [] [.done ()] listed ?_
  refine Interleaved.turn [] [.done ()] counted ?_
  exact Interleaved.finished [(), ()] bereft

theorem empty_stocked : Depot.empty.Stocked := by
  intro c listed
  exact absurd listed (Index.not_lists_empty c)

end Sample

/-- Although no call fails, a listed coordinate may be left without its archive. -/
theorem listed_archive_may_be_lost :
    ¬ ∀ (r : Reconciler) (s : SerialCoordinate) (removed : List Coordinate) (d e : Depot)
      (events : List (Event Call Answer)), s.coordinate.Accepted → (∀ c ∈ removed, c.Accepted) →
      d.Stocked → Interleaved Depot.serves (contenders r s removed) d events e →
      (∀ x ∈ events, ¬ Failed x.1 x.2) → e.Stocked := by
  intro always
  have succeeded : ∀ x ∈ Sample.race, ¬ Failed x.1 x.2 := by
    simp [Sample.race, Failed]
  have stocked := always _ _ _ _ _ _ (by decide) (by decide) Sample.empty_stocked
    Sample.interleaved_race succeeded
  have held := (stocked Sample.wanted.coordinate (by decide)).2
  exact absurd held (by decide)

theorem stocked_iff_not_overtaken_race :
    Overtaken Sample.wanted.coordinate (Sample.race.map Sigma.fst) ∧ ¬ Sample.bereft.Stocked := by
  have overtaken : Overtaken Sample.wanted.coordinate (Sample.race.map Sigma.fst) := by
    refine ⟨[.findSerial Sample.wanted.coordinate, .exchange Sample.request], Sample.archive,
      [.removeRow Sample.wanted.coordinate, .deleteArchive Sample.wanted.coordinate],
      Sample.addition, [.count (.downloads .openProxy)], rfl, rfl, by simp, by simp⟩
  have exactly := stocked_iff_not_overtaken (by decide) (by decide) Sample.empty_stocked
    Sample.interleaved_race
  exact ⟨overtaken, fun stocked => exactly.mp stocked overtaken⟩

end ModuleDepot.Proxy
