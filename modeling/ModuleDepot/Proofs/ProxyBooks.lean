import ModuleDepot.Proofs.CallEffects
import ModuleDepot.Proofs.ProblemRecords
import ModuleDepot.Proofs.ProcedureTurns

/-!
The books of a proxy: its index, its archives, its record of problems and its counts. Each
of them answers some calls and is nothing to the others, so that what a run leaves of it can
be read off those calls alone. The time of a row or of a problem is not told.
-/

namespace ModuleDepot

/-! ## Indexes apart from times -/

/-- What a row says, without the time at which it came in. -/
def IndexRow.untimed (r : IndexRow) : Addition := ⟨r.coordinate, r.serial, r.manifest⟩

namespace Index

/-- Two indexes say the same apart from the times at which their rows came in. -/
def Alike (i j : Index) : Prop := i.rows.map IndexRow.untimed = j.rows.map IndexRow.untimed

variable {i j k l : Index}

theorem untimed_putRow (now later : Moment) (a : Addition) {rows others : List IndexRow}
    (alike : rows.map IndexRow.untimed = others.map IndexRow.untimed) :
    (putRow now a rows).map IndexRow.untimed = (putRow later a others).map IndexRow.untimed := by
  induction rows generalizing others with
  | nil =>
      cases others with
      | nil => rfl
      | cons other others => cases alike
  | cons row rows ih =>
      cases others with
      | nil => cases alike
      | cons other others =>
          obtain ⟨first, rest⟩ := List.cons.inj alike
          have same : row.coordinate = other.coordinate := congrArg Addition.coordinate first
          by_cases known : other.coordinate = a.coordinate
          · simp [putRow, same, known, rest, IndexRow.untimed]
          · simp [putRow, same, known, first, ih rest]

theorem alike_put (alike : Alike i j) (now later : Moment) (a : Addition) :
    Alike (i.put now a) (j.put later a) := untimed_putRow now later a alike

theorem alike_setSerial (alike : Alike i j) {s : SerialCoordinate} (changed : i.setSerial s = .ok k)
    (other : j.setSerial s = .ok l) : Alike k l := by
  let renumber : Addition → Addition := fun a =>
    if a.coordinate = s.coordinate then { a with serial := s.serial } else a
  -- Renumbering only looks at coordinates, so that it may come after the times are left out.
  have commutes : ∀ rows : List IndexRow,
      (rows.map fun r => if r.coordinate = s.coordinate then { r with serial := s.serial }
        else r).map IndexRow.untimed = (rows.map IndexRow.untimed).map renumber := by
    intro rows
    rw [List.map_map, List.map_map]
    apply List.map_congr_left
    intro r _
    by_cases here : r.coordinate = s.coordinate <;> simp [renumber, IndexRow.untimed, here]
  rw [Alike, ((setSerial_eq_ok_iff s i k).mp changed).2, ((setSerial_eq_ok_iff s j l).mp other).2,
    commutes, commutes, alike]

theorem alike_remove (alike : Alike i j) (c : Coordinate) : Alike (i.remove c) (j.remove c) := by
  have commutes : ∀ rows : List IndexRow,
      (rows.filter fun r => r.coordinate ≠ c).map IndexRow.untimed =
        (rows.map IndexRow.untimed).filter fun a => a.coordinate ≠ c := by
    intro rows
    rw [List.filter_map]
    rfl
  rw [Alike, remove, remove, commutes, commutes, alike]

end Index

namespace Proxy

open Procedure

/-! ## The books of a proxy -/

/-- What a cycle works on. Of the archives only a state of some kind is known. -/
structure Books (τ : Type) where
  index : Index
  archives : τ
  problems : Problems
  counts : Counts

/-- What the record of problems answers, and what it becomes. The time is not told. -/
def problemsServe : Service Call Answer Problems
  | .reportProblem c message, problems, _, next =>
      ∃ now, next = problems.set ⟨c, now, message⟩
  | .findProblem c, problems, answer, next => answer = problems.get? c ∧ next = problems
  | .listProblems, problems, answer, next => answer = problems.list ∧ next = problems
  | _, problems, _, next => next = problems

def countsServe : Service Call Answer Counts
  | .count counter, counts, _, next => next = counts.bump counter
  | .readCounts, counts, answer, next => answer = counts ∧ next = counts
  | _, counts, _, next => next = counts

/-- How books answer a call. The index may fail, the archives answer in any way that `store`
allows, and the network and the registry answer anything. -/
structure Books.Serve {τ : Type} (store : Service Call Answer τ) (c : Call) (b : Books τ)
    (answer : Answer c) (n : Books τ) : Prop where
  index : orFails indexServes c b.index answer n.index
  archives : if c.concernsArchives then store c b.archives answer n.archives
    else n.archives = b.archives
  problems : problemsServe c b.problems answer n.problems
  counts : countsServe c b.counts answer n.counts

variable {events : List (Event Call Answer)} {i j k l : Index}

/-! ## One call of an index -/

/-- Where nothing but the network fails, the index works. -/
theorem indexServes_of_sound {c : Call} {answer : Answer c}
    (served : orFails indexServes c i answer j)
    (sound : Failed c answer → c.isExchange = true) : indexServes c i answer j := by
  rcases served with served | ⟨failed, same⟩
  · exact served
  · cases c with
    | exchange q => exact same
    | _ => cases sound failed

/-- The same answers leave indexes alike that were alike. -/
theorem alike_of_served {c : Call} {answer : Answer c} (alike : i.Alike j)
    (first : indexServes c i answer k) (second : indexServes c j answer l) : k.Alike l := by
  cases c with
  | putRow a =>
      obtain ⟨_, now, rfl⟩ := first
      obtain ⟨_, later, rfl⟩ := second
      exact Index.alike_put alike now later a
  | setSerial s =>
      rcases attempts_cases first with ⟨⟨e, _, rfl⟩, rfl⟩ | ⟨rfl, changed⟩
      · rcases attempts_cases second with ⟨_, rfl⟩ | ⟨made, _⟩
        · exact alike
        · cases made
      · rcases attempts_cases second with ⟨⟨_, _, refused⟩, _⟩ | ⟨_, other⟩
        · cases refused
        · exact Index.alike_setSerial alike changed other
  | removeRow c =>
      obtain ⟨_, rfl⟩ := first
      obtain ⟨_, rfl⟩ := second
      exact Index.alike_remove alike c
  | _ =>
      rw [@index_unchanged _ answer i k rfl first, @index_unchanged _ answer j l rfl second]
      exact alike

theorem alike_of_passes (first : Passes indexServes events i k)
    (second : Passes indexServes events j l) (alike : i.Alike j) : k.Alike l := by
  induction first generalizing j with
  | stay i =>
      cases second
      exact alike
  | call served _ ih =>
      cases second with
      | call other rest => exact ih rest (alike_of_served alike served other)

/-! ## What is reported -/

/-- What a call reports of a coordinate. -/
def Call.report? (c : Coordinate) : Call → Option String
  | .reportProblem other message => if other = c then some message else none
  | _ => none

/-- What is reported of a coordinate, report after report. -/
def reports (c : Coordinate) (events : List (Event Call Answer)) : List String :=
  events.filterMap fun x => x.1.report? c

theorem reports_append (c : Coordinate) (first second : List (Event Call Answer)) :
    reports c (first ++ second) = reports c first ++ reports c second := List.filterMap_append

/-- A coordinate has the problem that was reported of it last, or the one it had. -/
theorem problem_of_passes {p q : Problems} (c : Coordinate)
    (passes : Passes problemsServe events p q) :
    (∀ message, (reports c events).getLast? = some message →
      ∃ time, q.get? c = some ⟨c, time, message⟩) ∧
    (reports c events = [] → q.get? c = p.get? c) := by
  induction passes with
  | stay p => simp [reports]
  | @call x answer events p t q served _ ih =>
      cases x with
      | reportProblem other message =>
          obtain ⟨now, rfl⟩ := served
          by_cases same : other = c
          · subst same
            have all : reports other (⟨.reportProblem other message, answer⟩ :: events) =
                message :: reports other events := by simp [reports, Call.report?]
            rw [all]
            refine ⟨fun last found => ?_, fun none => by cases none⟩
            cases later : reports other events with
            | nil =>
                rw [later] at found
                cases found
                rw [ih.2 later, Problems.get?_set, if_pos rfl]
                exact ⟨now, rfl⟩
            | cons next others =>
                rw [later, List.getLast?_cons_cons, ← later] at found
                exact ih.1 last found
          · have all : reports c (⟨.reportProblem other message, answer⟩ :: events) =
                reports c events := by simp [reports, Call.report?, same]
            rw [all]
            rw [Problems.get?_set, if_neg same] at ih
            exact ih
      | findProblem | listProblems =>
          obtain ⟨_, rfl⟩ := served
          exact ih
      | _ =>
          obtain rfl := served
          exact ih

/-! ## What is counted -/

def Call.counter? : Call → Option Counter
  | .count counter => some counter
  | _ => none

/-- What is counted, count after count. -/
def counted (events : List (Event Call Answer)) : List Counter :=
  events.filterMap fun x => x.1.counter?

theorem counted_append (first second : List (Event Call Answer)) :
    counted (first ++ second) = counted first ++ counted second := List.filterMap_append

theorem counts_of_passes {k l : Counts} (passes : Passes countsServe events k l) :
    l = (counted events).foldl Counts.bump k := by
  induction passes with
  | stay k => rfl
  | @call x answer events k t l served _ ih =>
      cases x with
      | readCounts =>
          obtain ⟨_, rfl⟩ := served
          exact ih
      | _ =>
          obtain rfl := served
          exact ih

theorem foldl_bump (counters : List Counter) (k : Counts) :
    counters.foldl Counts.bump k =
      { cycles := k.cycles + counters.count .cycles
        cycleFailures := k.cycleFailures + counters.count .cycleFailures
        openProxyDownloads := k.openProxyDownloads + counters.count (.downloads .openProxy)
        homeDownloads := k.homeDownloads + counters.count (.downloads .home)
        failures := k.failures + counters.count .failures
        renumberings := k.renumberings + counters.count .renumberings } := by
  induction counters generalizing k with
  | nil => rfl
  | cons counter rest ih =>
      rw [List.foldl_cons, ih]
      rcases counter with _ | _ | (_ | _) | _ | _ <;>
        simp [Counts.bump] <;> omega

/-! ## What is left alone -/

/-- The calls by which a cycle finds out what is needed, or gives up. -/
def Call.surveys : Call → Bool
  | .count _ => true
  | .heldSerials => true
  | .askRegistry _ => true
  | _ => false

/-- Finding out what is needed only changes counts. -/
theorem books_of_surveys {τ : Type} {store : Service Call Answer τ} {b n : Books τ}
    (passes : Passes (Books.Serve store) events b n)
    (surveys : ∀ x ∈ events, x.1.surveys = true) :
    n.index = b.index ∧ n.archives = b.archives ∧ n.problems = b.problems := by
  induction passes with
  | stay b => exact ⟨rfl, rfl, rfl⟩
  | @call c answer events b t n served _ ih =>
      obtain ⟨index, archives, problems⟩ :=
        ih fun x later => surveys x (List.mem_cons_of_mem _ later)
      have survey : c.surveys = true := surveys _ List.mem_cons_self
      cases c with
      | count | heldSerials | askRegistry =>
          have same := index_still served.index (Or.inl rfl)
          exact ⟨index.trans same, archives.trans served.archives, problems.trans served.problems⟩
      | _ => cases survey

end Proxy

end ModuleDepot
