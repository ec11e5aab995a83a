import ModuleDepot.Proofs.ProxyBooks
import ModuleDepot.Proofs.ReconcileCourses

/-!
What a cycle leaves of a proxy's books. A module that cannot be brought in changes no row
of the index; it is counted, its failure is recorded, and the modules after it fare as if
it had not been needed. Index, archives, registry and network may fail at any call.
-/

namespace ModuleDepot.Proxy

open Procedure

variable {r : Reconciler} {events : List (Event Call Answer)} {i j : Index}

/-! ## Attempts -/

/-- What came of one needed module: the calls of its reconciliation, and how it ended. -/
structure Attempt where
  wanted : SerialCoordinate
  calls : List (Event Call Answer)
  result : Except ReconcileError Outcome

namespace Attempt

/-- The calls are those of a reconciliation that ended so. -/
def Made (r : Reconciler) (a : Attempt) : Prop := Trace (r.reconcile a.wanted) a.calls a.result

def succeeded (a : Attempt) : Bool := a.result.isOk

/-- The calls by which a failure is noted. -/
def notes (a : Attempt) : List (Event Call Answer) :=
  match a.result with
  | .ok _ => []
  | .error e => [⟨.count .failures, ()⟩, ⟨.reportProblem a.wanted.coordinate e.message, ()⟩]

/-- All calls of attempts, one attempt after another. -/
def record (attempts : List Attempt) : List (Event Call Answer) :=
  attempts.flatMap fun a => a.calls ++ a.notes

/-- How many attempts ended with an outcome. -/
def ended (outcome : Outcome) (attempts : List Attempt) : Nat :=
  attempts.countP fun a => a.result = .ok outcome

/-- How many attempts failed. -/
def failed (attempts : List Attempt) : Nat := attempts.countP fun a => !a.succeeded

/-- The failure of an attempt at a coordinate. -/
def failure? (c : Coordinate) (a : Attempt) : Option ReconcileError :=
  match a.result with
  | .ok _ => none
  | .error e => if a.wanted.coordinate = c then some e else none

/-- The failures of a coordinate, in their order. -/
def failures (c : Coordinate) (attempts : List Attempt) : List ReconcileError :=
  attempts.filterMap (failure? c)

/-- The report of a cycle over attempts. -/
def report (attempts : List Attempt) : CycleReport :=
  { needed := attempts.length
    skipped := ended .skipped attempts
    updated := ended .updated attempts
    downloaded := ended (.downloaded .openProxy) attempts + ended (.downloaded .home) attempts
    failed := failed attempts
    aborted := false }

end Attempt

variable {a : Attempt} {attempts : List Attempt}

theorem trace_noteFailure_iff (a : Attempt) {u : Unit} :
    Trace (Reconciler.noteFailure a.wanted.coordinate a.result) events u ↔ events = a.notes := by
  obtain ⟨wanted, calls, result⟩ := a
  cases result with
  | ok outcome =>
      constructor
      · exact trace_pure
      · rintro rfl
        exact Trace.done ()
  | error e =>
      constructor
      · intro trace
        obtain ⟨_, rest, onReport, rfl⟩ := trace_call_bind trace
        rw [trace_call onReport]
        rfl
      · rintro rfl
        exact Trace.ask (Trace.ask (Trace.done ()))

/-- Bringing modules in one after another is an attempt at each of them. -/
theorem trace_reconcileAll_iff {items : List SerialCoordinate} {start ending : CycleReport} :
    Trace (r.reconcileAll start items) events ending ↔
      ∃ attempts, attempts.map Attempt.wanted = items ∧ (∀ a ∈ attempts, a.Made r) ∧
        events = Attempt.record attempts ∧
        ending = attempts.foldl (fun report a => report.add a.result) start := by
  induction items generalizing start events with
  | nil =>
      constructor
      · intro trace
        cases trace
        exact ⟨[], rfl, by simp, rfl, rfl⟩
      · rintro ⟨attempts, none, -, rfl, rfl⟩
        obtain rfl := List.map_eq_nil_iff.mp none
        exact Trace.done start
  | cons s rest ih =>
      constructor
      · intro trace
        obtain ⟨calls, result, _, own, after, rfl⟩ := trace_bind trace
        obtain ⟨notes, _, others, noted, later, rfl⟩ := trace_bind after
        obtain ⟨attempts, rfl, made, rfl, rfl⟩ := ih.mp later
        obtain rfl := (trace_noteFailure_iff ⟨s, calls, result⟩).mp noted
        refine ⟨⟨s, calls, result⟩ :: attempts, rfl, List.forall_mem_cons.mpr ⟨own, made⟩, ?_, rfl⟩
        simp [Attempt.record]
      · rintro ⟨attempts, wanted, made, rfl, rfl⟩
        obtain ⟨a, attempts, rfl, rfl, rfl⟩ := List.map_eq_cons_iff.mp wanted
        obtain ⟨own, made⟩ := List.forall_mem_cons.mp made
        have noted : Trace (Reconciler.noteFailure a.wanted.coordinate a.result) a.notes () :=
          (trace_noteFailure_iff a).mpr rfl
        have later : Trace (r.reconcileAll (start.add a.result) (attempts.map Attempt.wanted))
            (Attempt.record attempts) _ := ih.mpr ⟨attempts, rfl, made, rfl, rfl⟩
        have after : Trace (do
            Reconciler.noteFailure a.wanted.coordinate a.result
            r.reconcileAll (start.add a.result) (attempts.map Attempt.wanted))
            (a.notes ++ Attempt.record attempts) _ := noted.bind later
        have whole : Trace (r.reconcileAll start (a.wanted :: attempts.map Attempt.wanted))
            (a.calls ++ (a.notes ++ Attempt.record attempts)) _ := Trace.bind own after
        simpa [Attempt.record] using whole

/-- The calls by which a cycle finds out what is needed. -/
def opening (held : SerialRanges) (needed : List SerialCoordinate) : List (Event Call Answer) :=
  [⟨.count .cycles, ()⟩, ⟨.heldSerials, .ok held⟩, ⟨.askRegistry held, .ok needed⟩]

/-- How a cycle may go. -/
inductive CycleCourse (r : Reconciler) : List (Event Call Answer) → CycleReport → Prop
  | unread (e : IndexError) :
      CycleCourse r
        [⟨.count .cycles, ()⟩, ⟨.heldSerials, .error e⟩, ⟨.count .cycleFailures, ()⟩] .abandoned
  | unanswered (held : SerialRanges) (e : RegistryError) :
      CycleCourse r
        [⟨.count .cycles, ()⟩, ⟨.heldSerials, .ok held⟩, ⟨.askRegistry held, .error e⟩,
          ⟨.count .cycleFailures, ()⟩] .abandoned
  | answered (held : SerialRanges) {attempts : List Attempt} : (∀ a ∈ attempts, a.Made r) →
      CycleCourse r (opening held (attempts.map Attempt.wanted) ++ Attempt.record attempts)
        (attempts.foldl (fun report a => report.add a.result) (.start attempts.length))

theorem cycleCourse_of_trace {report : CycleReport} (trace : Trace r.runOnce events report) :
    CycleCourse r events report := by
  obtain ⟨_, rest, onBegin, rfl⟩ := trace_call_bind trace
  obtain ⟨held, rest, onHeld, rfl⟩ := trace_call_bind onBegin
  cases held with
  | error e =>
      obtain ⟨_, rest, onCount, rfl⟩ := trace_call_bind onHeld
      cases onCount
      exact CycleCourse.unread e
  | ok held =>
      obtain ⟨needed, rest, onNeeded, rfl⟩ := trace_call_bind onHeld
      cases needed with
      | error e =>
          obtain ⟨_, rest, onCount, rfl⟩ := trace_call_bind onNeeded
          cases onCount
          exact CycleCourse.unanswered held e
      | ok needed =>
          obtain ⟨attempts, rfl, made, rfl, rfl⟩ := trace_reconcileAll_iff.mp onNeeded
          rw [List.length_map]
          exact CycleCourse.answered held made

/-! ## The index -/

/-- An attempt that failed leaves the index as it was. -/
theorem index_of_failure (made : a.Made r) (failed : a.succeeded = false)
    (passes : Passes (orFails indexServes) (a.calls ++ a.notes) i j) : j = i := by
  obtain ⟨wanted, calls, result⟩ := a
  cases result with
  | ok outcome => cases failed
  | error e =>
      apply passes_still passes
      intro x member t v served
      apply index_still served
      rcases List.mem_append.mp member with called | noted
      · exact (course_of_trace made).quiet_of_error x called
      · simp only [Attempt.notes, List.mem_cons, List.not_mem_nil, or_false] at noted
        rcases noted with rfl | rfl <;> exact Or.inl rfl

/-- An attempt that succeeded found the index working. -/
theorem index_of_success (made : a.Made r) (succeeded : a.succeeded = true)
    (passes : Passes (orFails indexServes) (a.calls ++ a.notes) i j) :
    Passes indexServes (a.calls ++ a.notes) i j := by
  obtain ⟨wanted, calls, result⟩ := a
  cases result with
  | error e => cases succeeded
  | ok outcome =>
      rw [Attempt.notes, List.append_nil] at passes ⊢
      refine passes_view id passes fun x member t v served => ?_
      exact indexServes_of_sound served ((course_of_trace made).sound_of_ok x member)

/-- Attempts leave the index as do those of them alone that succeeded. -/
theorem index_of_attempts (made : ∀ a ∈ attempts, a.Made r)
    (passes : Passes (orFails indexServes) (Attempt.record attempts) i j) :
    Passes indexServes (Attempt.record (attempts.filter Attempt.succeeded)) i j := by
  induction attempts generalizing i with
  | nil => exact passes_view id passes fun x member => absurd member List.not_mem_nil
  | cons a rest ih =>
      obtain ⟨own, others⟩ := List.forall_mem_cons.mp made
      rw [Attempt.record, List.flatMap_cons] at passes
      obtain ⟨t, first, later⟩ := passes_append.mp passes
      cases known : a.succeeded with
      | false =>
          rw [List.filter_cons_of_neg (by simp [known])]
          rw [index_of_failure own known first] at later
          exact ih others later
      | true =>
          rw [List.filter_cons_of_pos known, Attempt.record, List.flatMap_cons]
          exact passes_append.mpr ⟨t, index_of_success own known first, ih others later⟩

/-! ## The record of problems -/

theorem reports_attempt (c : Coordinate) (made : a.Made r) :
    reports c (a.calls ++ a.notes) =
      ((Attempt.failure? c a).map ReconcileError.message).toList := by
  obtain ⟨wanted, calls, result⟩ := a
  have silent : reports c calls = [] := by
    refine List.filterMap_eq_nil_iff.mpr ?_
    rintro ⟨call, answer⟩ member
    have own := (course_of_trace made).ofReconciliation _ member
    cases call with
    | reportProblem => cases own
    | _ => rfl
  rw [reports_append, silent]
  cases result with
  | ok outcome => rfl
  | error e =>
      by_cases same : wanted.coordinate = c <;>
        simp [reports, Attempt.notes, Call.report?, Attempt.failure?, same]

/-- Of each module its failures are reported, and nothing else. -/
theorem reports_record (c : Coordinate) (made : ∀ a ∈ attempts, a.Made r) :
    reports c (Attempt.record attempts) =
      (Attempt.failures c attempts).map ReconcileError.message := by
  induction attempts with
  | nil => rfl
  | cons a rest ih =>
      obtain ⟨own, others⟩ := List.forall_mem_cons.mp made
      have split : Attempt.record (a :: rest) = (a.calls ++ a.notes) ++ Attempt.record rest :=
        List.flatMap_cons
      rw [split, reports_append, reports_attempt c own, ih others, Attempt.failures,
        Attempt.failures, List.filterMap_cons]
      cases Attempt.failure? c a <;> rfl

/-! ## What is counted -/

/-- What an attempt adds to the counts. -/
def Attempt.counters (a : Attempt) : List Counter :=
  match a.result with
  | .ok .skipped => []
  | .ok .updated => [.renumberings]
  | .ok (.downloaded source) => [.downloads source]
  | .error _ => [.failures]

theorem counted_attempt (made : a.Made r) : counted (a.calls ++ a.notes) = a.counters := by
  obtain ⟨wanted, calls, result⟩ := a
  have network : ∀ {fetched : Except ReconcileError (ByteArray × ArchiveSource)}
      {fetch : List (Event Call Answer)}, Trace (r.download wanted.coordinate) fetch fetched →
      counted fetch = [] := by
    intro fetched fetch trace
    refine List.filterMap_eq_nil_iff.mpr ?_
    rintro ⟨call, answer⟩ member
    have exchange := exchanges_of_download trace _ member
    cases call with
    | count => cases exchange
    | _ => rfl
  rw [counted_append]
  have course : Course r wanted calls result := course_of_trace made
  cases course with
  | unsearched | known | unchanged | renumbered => rfl
  | unfetched trace =>
      rw [← List.singleton_append, counted_append, network trace]
      rfl
  | fetched trace intake =>
      rw [← List.singleton_append, counted_append, counted_append, network trace]
      cases intake <;> rfl

theorem counted_record (made : ∀ a ∈ attempts, a.Made r) :
    counted (Attempt.record attempts) = attempts.flatMap Attempt.counters := by
  induction attempts with
  | nil => rfl
  | cons a rest ih =>
      obtain ⟨own, others⟩ := List.forall_mem_cons.mp made
      have split : Attempt.record (a :: rest) = (a.calls ++ a.notes) ++ Attempt.record rest :=
        List.flatMap_cons
      rw [split, counted_append, counted_attempt own, ih others, List.flatMap_cons]

/-! ## How attempts ended -/

namespace Attempt

theorem ended_cons (outcome : Outcome) (a : Attempt) (rest : List Attempt) :
    ended outcome (a :: rest) = ended outcome rest + if a.result = .ok outcome then 1 else 0 := by
  simp [ended, List.countP_cons]

theorem failed_cons (a : Attempt) (rest : List Attempt) :
    failed (a :: rest) = failed rest + if a.succeeded then 0 else 1 := by
  cases known : a.succeeded <;> simp [failed, known]

end Attempt

theorem foldl_add (attempts : List Attempt) (start : CycleReport) :
    attempts.foldl (fun report a => report.add a.result) start =
      { needed := start.needed
        skipped := start.skipped + Attempt.ended .skipped attempts
        updated := start.updated + Attempt.ended .updated attempts
        downloaded := start.downloaded + (Attempt.ended (.downloaded .openProxy) attempts +
          Attempt.ended (.downloaded .home) attempts)
        failed := start.failed + Attempt.failed attempts
        aborted := start.aborted } := by
  induction attempts generalizing start with
  | nil => rfl
  | cons a rest ih =>
      rw [List.foldl_cons, ih]
      obtain ⟨wanted, calls, result⟩ := a
      simp only [Attempt.ended_cons, Attempt.failed_cons, Attempt.succeeded]
      match result with
      | .error e => simp [CycleReport.add, Except.isOk, Except.toBool]; omega
      | .ok .skipped => simp [CycleReport.add, Except.isOk, Except.toBool]; omega
      | .ok .updated => simp [CycleReport.add, Except.isOk, Except.toBool]; omega
      | .ok (.downloaded .openProxy) => simp [CycleReport.add, Except.isOk, Except.toBool]; omega
      | .ok (.downloaded .home) => simp [CycleReport.add, Except.isOk, Except.toBool]; omega

/-- Every attempt is counted by how it ended. -/
theorem count_counters (attempts : List Attempt) (counter : Counter) :
    (attempts.flatMap Attempt.counters).count counter =
      match counter with
      | .cycles => 0
      | .cycleFailures => 0
      | .downloads source => Attempt.ended (.downloaded source) attempts
      | .failures => Attempt.failed attempts
      | .renumberings => Attempt.ended .updated attempts := by
  induction attempts with
  | nil => cases counter <;> rfl
  | cons a rest ih =>
      rw [List.flatMap_cons, List.count_append, ih]
      obtain ⟨wanted, calls, result⟩ := a
      simp only [Attempt.ended_cons, Attempt.failed_cons, Attempt.succeeded, Attempt.counters]
      rcases counter with _ | _ | (_ | _) | _ | _ <;>
        rcases result with e | (_ | _ | (_ | _)) <;>
        simp [Except.isOk, Except.toBool, Nat.add_comm]

theorem length_eq_ended_add_failed (attempts : List Attempt) :
    attempts.length = Attempt.ended .skipped attempts + Attempt.ended .updated attempts +
      (Attempt.ended (.downloaded .openProxy) attempts +
        Attempt.ended (.downloaded .home) attempts) + Attempt.failed attempts := by
  induction attempts with
  | nil => rfl
  | cons a rest ih =>
      obtain ⟨wanted, calls, result⟩ := a
      simp only [Attempt.ended_cons, Attempt.failed_cons, Attempt.succeeded, List.length_cons]
      rcases result with e | (_ | _ | (_ | _)) <;> simp [Except.isOk, Except.toBool] <;> omega

/-! ## The account of a cycle -/

section Account

variable {τ : Type} {store : Service Call Answer τ} {b n : Books τ} {report : CycleReport}

/-- A cycle that could not find out what is needed leaves all but two counts as it was. -/
structure Abandoned (b n : Books τ) (report : CycleReport) : Prop where
  reported : report = ⟨0, 0, 0, 0, 0, true⟩
  index : n.index = b.index
  archives : n.archives = b.archives
  problems : n.problems = b.problems
  counts : n.counts = { b.counts with
    cycles := b.counts.cycles + 1
    cycleFailures := b.counts.cycleFailures + 1 }

/-- Attempts leave the index that is left, apart from times, by bringing in only those modules
that did not fail, with the same answers to every call. -/
structure Isolated (r : Reconciler) (attempts : List Attempt) (i j : Index) : Prop where
  replayed : Trace
    (r.reconcileAll (.start (attempts.filter Attempt.succeeded).length)
      ((attempts.filter Attempt.succeeded).map Attempt.wanted))
    (Attempt.record (attempts.filter Attempt.succeeded))
    (Attempt.report (attempts.filter Attempt.succeeded))
  reaches : Passes indexServes (Attempt.record (attempts.filter Attempt.succeeded)) i j
  only : ∀ k, Passes indexServes (Attempt.record (attempts.filter Attempt.succeeded)) i k →
    k.Alike j

/-- What a cycle leaves that attempted to bring in every module that was needed. -/
structure Accounted (r : Reconciler) (attempts : List Attempt) (b n : Books τ)
    (report : CycleReport) : Prop where
  made : ∀ a ∈ attempts, a.Made r
  reported : report = Attempt.report attempts
  balanced : report.needed =
    report.skipped + report.updated + report.downloaded + report.failed
  isolated : Isolated r attempts b.index n.index
  failed : ∀ c e, (Attempt.failures c attempts).getLast? = some e →
    ∃ time, n.problems.get? c = some ⟨c, time, e.message⟩
  spared : ∀ c, Attempt.failures c attempts = [] → n.problems.get? c = b.problems.get? c
  downloaded : report.downloaded =
    Attempt.ended (.downloaded .openProxy) attempts + Attempt.ended (.downloaded .home) attempts
  counts : n.counts =
    { cycles := b.counts.cycles + 1
      cycleFailures := b.counts.cycleFailures
      openProxyDownloads :=
        b.counts.openProxyDownloads + Attempt.ended (.downloaded .openProxy) attempts
      homeDownloads := b.counts.homeDownloads + Attempt.ended (.downloaded .home) attempts
      failures := b.counts.failures + report.failed
      renumberings := b.counts.renumberings + report.updated }

theorem report_of_attempts (attempts : List Attempt) :
    attempts.foldl (fun report a => report.add a.result) (.start attempts.length) =
      Attempt.report attempts := by
  rw [foldl_add]
  simp [CycleReport.start, Attempt.report]

theorem isolated_of_passes (made : ∀ a ∈ attempts, a.Made r)
    (passes : Passes (orFails indexServes) (Attempt.record attempts) i j) :
    Isolated r attempts i j := by
  have reaches := index_of_attempts made passes
  have kept : ∀ a ∈ attempts.filter Attempt.succeeded, a.Made r := fun a member =>
    made a (List.mem_of_mem_filter member)
  refine ⟨trace_reconcileAll_iff.mpr ⟨_, rfl, kept, rfl, (report_of_attempts _).symm⟩, reaches, ?_⟩
  intro k replayed
  exact alike_of_passes replayed reaches rfl

theorem abandoned_of_surveys (passes : Passes (Books.Serve store) events b n)
    (surveys : ∀ x ∈ events, x.1.surveys = true)
    (counts : counted events = [.cycles, .cycleFailures]) : Abandoned b n .abandoned := by
  obtain ⟨index, archives, problems⟩ := books_of_surveys passes surveys
  have totals : Passes countsServe events b.counts n.counts :=
    passes_view Books.counts passes fun _ _ _ _ served => served.counts
  refine ⟨rfl, index, archives, problems, ?_⟩
  rw [counts_of_passes totals, counts]
  rfl

theorem accounted_of_attempts {held : SerialRanges} (made : ∀ a ∈ attempts, a.Made r)
    (passes : Passes (Books.Serve store)
      (opening held (attempts.map Attempt.wanted) ++ Attempt.record attempts) b n) :
    Accounted r attempts b n (Attempt.report attempts) := by
  obtain ⟨t, opened, attempted⟩ := passes_append.mp passes
  obtain ⟨index, _, problems⟩ := books_of_surveys opened (by simp [opening, Call.surveys])
  have onIndex : Passes (orFails indexServes) (Attempt.record attempts) t.index n.index :=
    passes_view Books.index attempted fun _ _ _ _ served => served.index
  have onProblems : Passes problemsServe (Attempt.record attempts) t.problems n.problems :=
    passes_view Books.problems attempted fun _ _ _ _ served => served.problems
  have onCounts : Passes countsServe _ b.counts n.counts :=
    passes_view Books.counts passes fun _ _ _ _ served => served.counts
  rw [index] at onIndex
  rw [problems] at onProblems
  refine ⟨made, rfl, length_eq_ended_add_failed attempts, isolated_of_passes made onIndex, ?_, ?_,
    rfl, ?_⟩
  · intro c e last
    apply (problem_of_passes c onProblems).1 e.message
    rw [reports_record c made, List.getLast?_map, last]
    rfl
  · intro c none
    apply (problem_of_passes c onProblems).2
    rw [reports_record c made, none]
    rfl
  · have begun : counted (opening held (attempts.map Attempt.wanted)) = [.cycles] := rfl
    rw [counts_of_passes onCounts, counted_append, begun, counted_record made,
      List.singleton_append, List.foldl_cons, foldl_bump]
    simp [count_counters, Counts.bump, Attempt.report]

/-- A cycle either cannot find out what is needed, since the ids that are held cannot be read or the
registry fails when it is asked about them, and then leaves all but two counts as it was; or it
accounts for every module that was needed, and a failure shows in nothing but the module's own
problem and the counts of failures. -/
theorem cycle_accounts (trace : Trace r.runOnce events report)
    (passes : Passes (Books.Serve store) events b n) :
    ((∃ e, events =
          [⟨.count .cycles, ()⟩, ⟨.heldSerials, .error e⟩, ⟨.count .cycleFailures, ()⟩]) ∨
        ∃ held e, events =
          [⟨.count .cycles, ()⟩, ⟨.heldSerials, .ok held⟩, ⟨.askRegistry held, .error e⟩,
            ⟨.count .cycleFailures, ()⟩]) ∧
        Abandoned b n report ∨
      ∃ held attempts, events = opening held (attempts.map Attempt.wanted) ++
        Attempt.record attempts ∧ Accounted r attempts b n report := by
  cases cycleCourse_of_trace trace with
  | unread e =>
      refine Or.inl ⟨Or.inl ⟨e, rfl⟩, ?_⟩
      exact abandoned_of_surveys passes (by simp [Call.surveys]) rfl
  | unanswered held e =>
      refine Or.inl ⟨Or.inr ⟨held, e, rfl⟩, ?_⟩
      exact abandoned_of_surveys passes (by simp [Call.surveys]) rfl
  | answered held made =>
      rw [report_of_attempts]
      exact Or.inr ⟨held, _, rfl, accounted_of_attempts made passes⟩

end Account

/-! ## A module that is needed twice -/

namespace Sample

/-- The wanted module under another serial id. -/
def wantedLater : SerialCoordinate := ⟨wanted.coordinate, 2⟩

def laterAddition : Addition := ⟨wanted.coordinate, 2, "module m\n"⟩

/-- The failure when the open proxy does not answer. -/
def unreached : ReconcileError := .origin (.transfer (.noAnswer "http://p/m/@v/v.zip"))

/-- The open proxy first does not answer, and then does. -/
def secondTry : List (Event Call Answer) :=
  opening .empty [wanted, wantedLater] ++
    [⟨.findSerial wanted.coordinate, .ok none⟩, ⟨.exchange request, none⟩, ⟨.count .failures, ()⟩,
      ⟨.reportProblem wanted.coordinate unreached.message, ()⟩,
      ⟨.findSerial wanted.coordinate, .ok none⟩, ⟨.exchange request, some ⟨200, archive⟩⟩,
      ⟨.putArchive wanted.coordinate archive, .ok ()⟩, ⟨.putRow laterAddition, .ok ()⟩,
      ⟨.count (.downloads .openProxy), ()⟩]

def blank : Books Objects := ⟨.empty, fun _ => none, .empty, .zero⟩

def begun : Books Objects := { blank with counts := ⟨1, 0, 0, 0, 0, 0⟩ }

def missed : Books Objects := { blank with counts := ⟨1, 0, 0, 0, 1, 0⟩ }

def reported : Books Objects :=
  { missed with problems := ⟨[⟨wanted.coordinate, .ofNanos 0, unreached.message⟩]⟩ }

def restored : Books Objects :=
  { reported with archives := Function.update (fun _ => none) "m/@v/v.zip" (some archive) }

def relisted : Books Objects :=
  { restored with index := Index.empty.put (.ofNanos 0) laterAddition }

/-- What the second try leaves. -/
def filled : Books Objects := { relisted with counts := ⟨1, 0, 1, 0, 1, 0⟩ }

theorem trace_secondTry : Trace reconciler.runOnce secondTry ⟨2, 0, 0, 1, 1, false⟩ := by
  refine Trace.ask (Trace.ask (Trace.ask ?_))
  refine Trace.ask (Trace.ask (Trace.ask (Trace.ask ?_)))
  refine Trace.ask (Trace.ask (Trace.ask (Trace.ask (Trace.ask ?_))))
  exact Trace.done _

theorem passes_secondTry : Passes (Books.Serve objectsServe) secondTry blank filled := by
  have counted (counter : Counter) (b n : Books Objects)
      (bumped : { b with counts := b.counts.bump counter } = n) :
      Books.Serve objectsServe (.count counter) b () n := by
    subst bumped
    exact ⟨Or.inl rfl, rfl, rfl, rfl⟩
  have absent (b : Books Objects) (empty : b.index = .empty) :
      Books.Serve objectsServe (.findSerial wanted.coordinate) b (.ok none) b :=
    ⟨Or.inl ⟨by rw [empty]; rfl, rfl⟩, rfl, rfl, rfl⟩
  have fetched (b : Books Objects) (answer : Option Http.Response) :
      Books.Serve objectsServe (.exchange request) b answer b := ⟨Or.inl rfl, rfl, rfl, rfl⟩
  have nothing : SerialRanges.empty = Index.empty.serials := by
    simp [Index.serials, Index.empty, SerialRanges.compress, SerialRanges.dropRepeats]
  have held : Books.Serve objectsServe .heldSerials begun (.ok .empty) begun :=
    ⟨Or.inl ⟨congrArg Except.ok nothing, rfl⟩, rfl, rfl, rfl⟩
  have needed : Books.Serve objectsServe (.askRegistry .empty) begun (.ok [wanted, wantedLater])
      begun := ⟨Or.inl rfl, rfl, rfl, rfl⟩
  have noted : Books.Serve objectsServe (.reportProblem wanted.coordinate unreached.message) missed
      () reported := ⟨Or.inl rfl, rfl, ⟨.ofNanos 0, rfl⟩, rfl⟩
  have put : Books.Serve objectsServe (.putArchive wanted.coordinate archive) reported (.ok ())
      restored := ⟨Or.inl rfl, ⟨rfl, rfl⟩, rfl, rfl⟩
  have listed : Books.Serve objectsServe (.putRow laterAddition) restored (.ok ()) relisted :=
    ⟨Or.inl ⟨rfl, .ofNanos 0, rfl⟩, rfl, rfl, rfl⟩
  refine Passes.call (counted .cycles blank begun rfl) (Passes.call held (Passes.call needed ?_))
  refine Passes.call (absent begun rfl) (Passes.call (fetched begun none) ?_)
  refine Passes.call (counted .failures begun missed rfl) (Passes.call noted ?_)
  refine Passes.call (absent reported rfl) (Passes.call (fetched reported _) ?_)
  refine Passes.call put (Passes.call listed ?_)
  exact Passes.call (counted (.downloads .openProxy) relisted filled rfl) (Passes.stay filled)

end Sample

/-- The failure of a first attempt stays on record, although the module came in by a second. -/
theorem cycle_accounts_second_try :
    Trace Sample.reconciler.runOnce Sample.secondTry ⟨2, 0, 0, 1, 1, false⟩ ∧
      Passes (Books.Serve objectsServe) Sample.secondTry Sample.blank Sample.filled ∧
      ∃ attempts, attempts.map Attempt.wanted = [Sample.wanted, Sample.wantedLater] ∧
        Accounted Sample.reconciler attempts Sample.blank Sample.filled ⟨2, 0, 0, 1, 1, false⟩ := by
  refine ⟨Sample.trace_secondTry, Sample.passes_secondTry, ?_⟩
  rcases cycle_accounts Sample.trace_secondTry Sample.passes_secondTry with
    ⟨⟨e, events⟩ | ⟨held, e, events⟩, -⟩ | ⟨held, attempts, events, accounted⟩
  · simp [Sample.secondTry, opening] at events
  · simp [Sample.secondTry, opening] at events
  · refine ⟨attempts, ?_, accounted⟩
    injection events with _ events
    injection events with _ events
    injection events with answered _
    injection answered with _ answered
    injection answered with answered
    exact answered.symm

end ModuleDepot.Proxy
