import ModuleDepot.Proofs.CallEffects
import ModuleDepot.Proofs.ProcedureTurns

/-!
How bringing a module in may go: which calls are made, which answers they get, and how
it ends. Nothing is assumed of the answers. Everything that is said of one module, and
of a whole cycle, is read off these courses.
-/

namespace ModuleDepot.Proxy

open Procedure

/-- The calls of a procedure that only uses the network. -/
theorem trace_online {α : Type} {p : Http.Online α} {events : List (Event Call Answer)} {a : α}
    (trace : Trace (online p) events a) :
    ∃ sent, Trace p sent a ∧ events = sent.map fun x => ⟨.exchange x.1, x.2⟩ := by
  change Trace (p.embed _ _) events a at trace
  induction p generalizing events with
  | done b =>
      cases trace
      exact ⟨[], Trace.done _, rfl⟩
  | ask q next ih =>
      cases trace with
      | ask rest =>
          obtain ⟨sent, own, rfl⟩ := ih _ rest
          exact ⟨_, Trace.ask own, rfl⟩

theorem trace_online_of_trace {α : Type} {p : Http.Online α} {a : α}
    {sent : List (Event Http.Request fun _ => Option Http.Response)} (trace : Trace p sent a) :
    Trace (online p) (sent.map fun x => ⟨.exchange x.1, x.2⟩) a := by
  induction trace with
  | done a => exact Trace.done a
  | ask _ ih => exact Trace.ask ih

/-- How an archive that was fetched is taken in. -/
inductive Intake (s : SerialCoordinate) (data : ByteArray) (source : ArchiveSource) :
    List (Event Call Answer) → Except ReconcileError Outcome → Prop
  | unreadable {e : ReconcileError} : Reconciler.manifestOf s.coordinate data = .error e →
      Intake s data source [] (.error e)
  | unstored {text : String} (e : StorageError) :
      Reconciler.manifestOf s.coordinate data = .ok text →
      Intake s data source [⟨.putArchive s.coordinate data, .error e⟩] (.error (.storage e))
  | unlisted {text : String} (e : IndexError) :
      Reconciler.manifestOf s.coordinate data = .ok text →
      Intake s data source
        [⟨.putArchive s.coordinate data, .ok ()⟩,
          ⟨.putRow ⟨s.coordinate, s.serial, text⟩, .error e⟩] (.error (.index e))
  | listed {text : String} : Reconciler.manifestOf s.coordinate data = .ok text →
      Intake s data source
        [⟨.putArchive s.coordinate data, .ok ()⟩,
          ⟨.putRow ⟨s.coordinate, s.serial, text⟩, .ok ()⟩,
          ⟨.count (.downloads source), ()⟩] (.ok (.downloaded source))

/-- How a module is brought in under its serial id. -/
inductive Course (r : Reconciler) (s : SerialCoordinate) :
    List (Event Call Answer) → Except ReconcileError Outcome → Prop
  | unsearched (e : IndexError) :
      Course r s [⟨.findSerial s.coordinate, .error e⟩] (.error (.index e))
  | known : Course r s [⟨.findSerial s.coordinate, .ok (some s.serial)⟩] (.ok .skipped)
  | unchanged {held : SerialId} (e : IndexError) : held ≠ s.serial →
      Course r s [⟨.findSerial s.coordinate, .ok (some held)⟩, ⟨.setSerial s, .error e⟩]
        (.error (.index e))
  | renumbered {held : SerialId} : held ≠ s.serial →
      Course r s
        [⟨.findSerial s.coordinate, .ok (some held)⟩, ⟨.setSerial s, .ok ()⟩,
          ⟨.count .renumberings, ()⟩] (.ok .updated)
  | unfetched {fetch : List (Event Call Answer)} {e : ReconcileError} :
      Trace (r.download s.coordinate) fetch (.error e) →
      Course r s (⟨.findSerial s.coordinate, .ok none⟩ :: fetch) (.error e)
  | fetched {fetch taken : List (Event Call Answer)} {data : ByteArray} {source : ArchiveSource}
      {result : Except ReconcileError Outcome} :
      Trace (r.download s.coordinate) fetch (.ok (data, source)) →
      Intake s data source taken result →
      Course r s (⟨.findSerial s.coordinate, .ok none⟩ :: (fetch ++ taken)) result

variable {r : Reconciler} {s : SerialCoordinate} {events : List (Event Call Answer)}
  {result : Except ReconcileError Outcome}

theorem intake_of_trace {data : ByteArray} {source : ArchiveSource}
    (trace : Trace (Reconciler.takeIn s data source) events result) :
    Intake s data source events result := by
  unfold Reconciler.takeIn at trace
  cases manifest : Reconciler.manifestOf s.coordinate data with
  | error e =>
      rw [manifest] at trace
      cases trace
      exact Intake.unreadable manifest
  | ok text =>
      rw [manifest] at trace
      obtain ⟨stored, rest, onStored, rfl⟩ := trace_call_bind trace
      cases stored with
      | error e =>
          cases onStored
          exact Intake.unstored e manifest
      | ok _ =>
          obtain ⟨put, rest, onPut, rfl⟩ := trace_call_bind onStored
          cases put with
          | error e =>
              cases onPut
              exact Intake.unlisted e manifest
          | ok _ =>
              obtain ⟨_, rest, onCount, rfl⟩ := trace_call_bind onPut
              cases onCount
              exact Intake.listed manifest

/-- These are all the courses that bringing a module in may take. -/
theorem course_of_trace (trace : Trace (r.reconcile s) events result) :
    Course r s events result := by
  obtain ⟨found, rest, onFound, rfl⟩ := trace_call_bind trace
  cases found with
  | error e =>
      cases onFound
      exact Course.unsearched e
  | ok held =>
      cases held with
      | none =>
          obtain ⟨fetch, fetched, taken, onFetch, onFetched, rfl⟩ := trace_bind onFound
          cases fetched with
          | error e =>
              cases onFetched
              rw [List.append_nil]
              exact Course.unfetched onFetch
          | ok archive => exact Course.fetched onFetch (intake_of_trace onFetched)
      | some held =>
          dsimp only at onFound
          split at onFound
          · next same =>
              cases onFound
              rw [same]
              exact Course.known
          · next other =>
              obtain ⟨changed, rest, onChanged, rfl⟩ := trace_call_bind onFound
              cases changed with
              | error e =>
                  cases onChanged
                  exact Course.unchanged e other
              | ok _ =>
                  obtain ⟨_, rest, onCount, rfl⟩ := trace_call_bind onChanged
                  cases onCount
                  exact Course.renumbered other

/-- However an archive is fetched, only the network is used. -/
theorem exchanges_of_download {c : Coordinate}
    {fetched : Except ReconcileError (ByteArray × ArchiveSource)}
    (trace : Trace (r.download c) events fetched) : ∀ x ∈ events, x.1.isExchange = true :=
  trace_only (only_download r c) trace

/-! ## The calls of a course -/

/-- The calls by which a module may be brought in. -/
def OfReconciliation (s : SerialCoordinate) : Call → Prop
  | .findSerial c => c = s.coordinate
  | .setSerial other => other = s
  | .exchange _ => True
  | .putArchive c _ => c = s.coordinate
  | .putRow a => a.coordinate = s.coordinate ∧ a.serial = s.serial
  | .count _ => True
  | _ => False

theorem Intake.ofReconciliation {data : ByteArray} {source : ArchiveSource}
    (intake : Intake s data source events result) : ∀ x ∈ events, OfReconciliation s x.1 := by
  cases intake with
  | unreadable => simp
  | unstored | unlisted | listed => simp [OfReconciliation]

theorem Course.ofReconciliation (course : Course r s events result) :
    ∀ x ∈ events, OfReconciliation s x.1 := by
  have network : ∀ {fetched : Except ReconcileError (ByteArray × ArchiveSource)}
      {fetch : List (Event Call Answer)}, Trace (r.download s.coordinate) fetch fetched →
      ∀ x ∈ fetch, OfReconciliation s x.1 := by
    rintro fetched fetch trace ⟨c, answer⟩ member
    have exchange := exchanges_of_download trace _ member
    cases c with
    | exchange q => trivial
    | _ => cases exchange
  cases course with
  | unsearched | known | unchanged | renumbered => simp [OfReconciliation]
  | unfetched trace => exact List.forall_mem_cons.mpr ⟨rfl, network trace⟩
  | fetched trace intake =>
      refine List.forall_mem_cons.mpr ⟨rfl, fun x member => ?_⟩
      rcases List.mem_append.mp member with fetch | taken
      · exact network trace x fetch
      · exact intake.ofReconciliation x taken

/-- A course that fails changes no index: the calls that would have done so have failed. -/
theorem Course.quiet_of_error {e : ReconcileError} (course : Course r s events (.error e)) :
    ∀ x ∈ events, x.1.changesIndex = false ∨ Failed x.1 x.2 := by
  have quiet : ∀ {fetched : Except ReconcileError (ByteArray × ArchiveSource)}
      {fetch : List (Event Call Answer)}, Trace (r.download s.coordinate) fetch fetched →
      ∀ x ∈ fetch, x.1.changesIndex = false := fun trace x member =>
    (Call.quiet_of_isExchange (exchanges_of_download trace x member)).1
  cases course with
  | unsearched e => simp [Call.changesIndex]
  | unchanged e other => simp [Call.changesIndex, Failed]
  | unfetched trace =>
      intro x member
      rcases List.mem_cons.mp member with rfl | later
      · exact Or.inl rfl
      · exact Or.inl (quiet trace x later)
  | fetched trace intake =>
      intro x member
      rcases List.mem_cons.mp member with rfl | later
      · exact Or.inl rfl
      rcases List.mem_append.mp later with fetch | taken
      · exact Or.inl (quiet trace x fetch)
      · cases intake with
        | unreadable manifest => cases taken
        | unstored e manifest =>
            rw [List.mem_singleton.mp taken]
            exact Or.inl rfl
        | unlisted e manifest =>
            simp only [List.mem_cons, List.not_mem_nil, or_false] at taken
            rcases taken with rfl | rfl
            · exact Or.inl rfl
            · exact Or.inr ⟨e, rfl⟩

/-- In a course that succeeds nothing but the network may have failed. -/
theorem Course.sound_of_ok {outcome : Outcome} (course : Course r s events (.ok outcome)) :
    ∀ x ∈ events, Failed x.1 x.2 → x.1.isExchange = true := by
  cases course with
  | known => simp [Failed]
  | renumbered other => simp [Failed]
  | fetched trace intake =>
      intro x member failed
      rcases List.mem_cons.mp member with rfl | later
      · simp [Failed] at failed
      rcases List.mem_append.mp later with fetch | taken
      · exact exchanges_of_download trace x fetch
      · cases intake with
        | listed manifest =>
            simp only [List.mem_cons, List.not_mem_nil, or_false] at taken
            rcases taken with rfl | rfl | rfl <;> simp [Failed] at failed

end ModuleDepot.Proxy
