import ModuleDepot.Proofs.OpenProxyAddresses
import ModuleDepot.Proofs.ReconcileCourses

/-!
What bringing one module in may touch. A module that is indexed costs no request and no
archive, and at most gets another serial id. One that is not is fetched from one place, the
open proxy or its own host, and policy alone decides which. A failure leaves the index as
it was.
-/

namespace ModuleDepot.Proxy

open Procedure

variable {r : Reconciler} {s : SerialCoordinate} {events : List (Event Call Answer)}
  {result : Except ReconcileError Outcome} {d e : Depot}

/-! ## Where requests go -/

/-- The requests among the calls of a run. -/
def requests (events : List (Event Call Answer)) : List (Event Call Answer) :=
  events.filter fun x => x.1.isExchange

theorem requests_append (first second : List (Event Call Answer)) :
    requests (first ++ second) = requests first ++ requests second := List.filter_append ..

theorem Intake.requests_eq {data : ByteArray} {source : ArchiveSource}
    (intake : Intake s data source events result) : requests events = [] := by
  cases intake <;> rfl

/-- Requests are only made to fetch the archive. -/
theorem Course.requests_eq (course : Course r s events result) :
    requests events = [] ∨
      ∃ fetched, Trace (r.download s.coordinate) (requests events) fetched := by
  have all : ∀ {fetched : Except ReconcileError (ByteArray × ArchiveSource)}
      {fetch : List (Event Call Answer)}, Trace (r.download s.coordinate) fetch fetched →
      requests fetch = fetch := fun trace => List.filter_eq_self.mpr (exchanges_of_download trace)
  cases course with
  | unsearched | known | unchanged | renumbered => exact Or.inl rfl
  | @unfetched _ e trace =>
      refine Or.inr ⟨.error e, ?_⟩
      rw [← List.singleton_append, requests_append, all trace]
      exact trace
  | @fetched _ _ data source _ trace intake =>
      refine Or.inr ⟨.ok (data, source), ?_⟩
      rw [← List.singleton_append, requests_append, requests_append, all trace, intake.requests_eq,
        List.append_nil]
      exact trace

/-- How the requests for one archive are dispatched. The open proxy gets a single request for a
public module, and nobody else gets one; for others there is no open proxy, as the procedure
that fetches them from their own hosts knows none. -/
structure Dispatched (r : Reconciler) (c : Coordinate) (sent : List (Event Call Answer)) :
    Prop where
  proxied : ∀ p, r.openProxy = some p → isPublic r.transforms c = true →
    sent = [] ∨ ∃ u response, p.archiveUrl c = .ok u ∧
      sent = [⟨.exchange (OpenProxy.question u), response⟩]
  home : r.openProxy = none ∨ isPublic r.transforms c = false →
    sent = [] ∨ ∃ fetched, Trace (Reconciler.fetchHome ⟨r.transforms, none⟩ c) sent fetched

theorem dispatched_nil (r : Reconciler) (c : Coordinate) : Dispatched r c [] :=
  ⟨fun _ _ _ => Or.inl rfl, fun _ => Or.inl rfl⟩

theorem dispatched_of_download {c : Coordinate} {sent : List (Event Call Answer)}
    {fetched : Except ReconcileError (ByteArray × ArchiveSource)}
    (trace : Trace (r.download c) sent fetched) : Dispatched r c sent := by
  unfold Reconciler.download at trace
  constructor
  · intro p configured isOpen
    rw [Reconciler.openProxyFor, if_pos isOpen, configured] at trace
    obtain ⟨first, answer, second, own, following, rfl⟩ := trace_bind trace
    have silent : second = [] := by cases answer <;> exact trace_pure following
    obtain ⟨asked, onAsked, rfl⟩ := trace_online own
    rw [silent, List.append_nil]
    have asks := OpenProxy.asks_of_archive onAsked
    cases found : p.archiveUrl c with
    | error e =>
        rw [found] at asks
        obtain rfl : asked = [] := asks
        exact Or.inl rfl
    | ok u =>
        rw [found, OpenProxy.Asks] at asks
        split at asks
        · obtain ⟨response, rfl⟩ := asks
          exact Or.inr ⟨u, response, rfl, rfl⟩
        · rw [asks]
          exact Or.inl rfl
  · intro unserved
    have alone : r.openProxyFor c = none := by
      rcases unserved with missing | hidden
      · simp [Reconciler.openProxyFor, missing]
      · simp [Reconciler.openProxyFor, hidden]
    rw [alone] at trace
    obtain ⟨first, answer, second, own, following, rfl⟩ := trace_bind trace
    have silent : second = [] := by cases answer <;> exact trace_pure following
    rw [silent, List.append_nil]
    exact Or.inr ⟨answer, own⟩

theorem Course.dispatched (course : Course r s events result) :
    Dispatched r s.coordinate (requests events) := by
  rcases course.requests_eq with none | ⟨fetched, trace⟩
  · rw [none]
    exact dispatched_nil r s.coordinate
  · exact dispatched_of_download trace

/-! ## What index and archives become -/

/-- Of the archives, the module's own is stored, and nothing else is done. -/
theorem Course.storesOwn (course : Course r s events result) :
    ∀ x ∈ events, x.1.concernsArchives = true → ∃ data, x.1 = .putArchive s.coordinate data := by
  rintro ⟨c, answer⟩ member concerns
  have own := course.ofReconciliation _ member
  cases c with
  | putArchive other data =>
      obtain rfl : other = s.coordinate := own
      exact ⟨data, rfl⟩
  | getArchive | deleteArchive | checkStore => cases own
  | _ => cases concerns

theorem objects_of_putArchive {c : Coordinate} {data : ByteArray} {objects next : Objects}
    (stored : objects.putArchive c data = .ok next) {key : String}
    (apart : c.archiveKey ≠ .ok key) : next key = objects key := by
  cases found : c.archiveKey with
  | error failure =>
      rw [Objects.putArchive, Objects.archiveKey_of_error found] at stored
      cases stored
  | ok own =>
      rw [Objects.putArchive, Objects.archiveKey_of_ok found] at stored
      cases stored
      have different : key ≠ own := by
        rintro rfl
        exact apart found
      exact Function.update_of_ne different _ _

/-- A call leaves alone what is stored under keys that are not those of its archive. -/
theorem object_still {c : Call} {answer : Answer c} (served : orFails Depot.serves c d answer e)
    {key : String} (apart : ∀ other data, c = .putArchive other data → other.archiveKey ≠ .ok key)
    (kept : ∀ other, c ≠ .deleteArchive other) : e.objects key = d.objects key := by
  rcases served with ⟨_, served⟩ | ⟨_, rfl⟩
  · cases c with
    | putArchive other data =>
        rcases attempts_cases served with ⟨_, same⟩ | ⟨_, stored⟩
        · rw [same]
        · exact objects_of_putArchive stored (apart other data rfl)
    | deleteArchive other => exact absurd rfl (kept other)
    | _ => rw [objects_unchanged rfl served]
  · rfl

/-- Only the module's own archive may change. -/
theorem Course.objects_apart (course : Course r s events result)
    (passes : Passes (orFails Depot.serves) events d e) {key : String}
    (apart : s.coordinate.archiveKey ≠ .ok key) : e.objects key = d.objects key := by
  have single : Passes (fun _ t _ v => v = t) events (d.objects key) (e.objects key) := by
    refine passes_view (fun d : Depot => d.objects key) passes ?_
    intro x member t v served
    have own := course.ofReconciliation x member
    apply object_still served
    · intro other data same
      rw [same] at own
      obtain rfl : other = s.coordinate := own
      exact apart
    · intro other same
      rw [same] at own
      exact own
  exact passes_still single fun _ _ _ _ same => same

theorem Course.index_of_error {failure : ReconcileError}
    (course : Course r s events (.error failure))
    (passes : Passes (orFails Depot.serves) events d e) : e.index = d.index := by
  have onIndex : Passes (orFails indexServes) events d.index e.index :=
    passes_view Depot.index passes fun x _ t v served => served.imp And.left fun failed =>
      ⟨failed.1, congrArg Depot.index failed.2⟩
  exact passes_still onIndex fun x member t v served =>
    index_still served (course.quiet_of_error x member)

/-- What was found is what the index holds, and searching changes nothing. -/
theorem passes_found {c : Coordinate} {held : Option SerialId} {rest : List (Event Call Answer)}
    (passes : Passes (orFails Depot.serves) (⟨.findSerial c, .ok held⟩ :: rest) d e) :
    d.index.serial? c = held ∧ Passes (orFails Depot.serves) rest d e := by
  cases passes with
  | call served later =>
      obtain ⟨rfl, ⟨failure, failed⟩ | found⟩ := Depot.served_findSerial served
      · cases failed
      · cases found
        exact ⟨rfl, later⟩

/-- Counting is nothing to index and archives. -/
theorem passes_counted {counter : Counter} {answer : Answer (.count counter)}
    (passes : Passes (orFails Depot.serves) [⟨.count counter, answer⟩] d e) : e = d :=
  passes_still passes fun x member t v served => by
    obtain rfl := List.mem_singleton.mp member
    exact depot_unchanged rfl rfl served

/-- Giving a row another serial id, where that does not fail, and counting it. -/
theorem passes_renumbered
    (passes : Passes (orFails Depot.serves)
      [⟨.setSerial s, .ok ()⟩, ⟨.count .renumberings, ()⟩] d e) :
    d.index.setSerial s = .ok e.index ∧ e.objects = d.objects := by
  cases passes with
  | call served later =>
      obtain rfl := passes_counted later
      rcases Depot.served_setSerial served with ⟨⟨_, failed⟩, _⟩ | ⟨_, index, changed, rfl⟩
      · cases failed
      · exact ⟨changed, rfl⟩

/-- Of a module that is indexed only the row changes, and in it only the serial id. -/
theorem Course.of_listed (course : Course r s events result)
    (passes : Passes (orFails Depot.serves) events d e) (listed : d.index.Lists s.coordinate) :
    (∀ x ∈ events, x.1.isExchange = false ∧ x.1.concernsArchives = false) ∧
      e.objects = d.objects ∧ (e.index = d.index ∨ d.index.setSerial s = .ok e.index) := by
  have held : d.index.serial? s.coordinate ≠ none := fun none =>
    (Index.serial?_eq_none_iff d.index s.coordinate).mp none listed
  cases course with
  | unsearched failure =>
      have same : e = d := passes_still passes fun x member t v served => by
        obtain rfl := List.mem_singleton.mp member
        exact depot_unchanged rfl rfl served
      subst same
      exact ⟨by simp [Call.isExchange, Call.concernsArchives], rfl, Or.inl rfl⟩
  | known =>
      cases (passes_found passes).2
      exact ⟨by simp [Call.isExchange, Call.concernsArchives], rfl, Or.inl rfl⟩
  | unchanged failure other =>
      obtain ⟨_, later⟩ := passes_found passes
      cases later with
      | call served rest =>
          cases rest
          rcases Depot.served_setSerial served with ⟨_, rfl⟩ | ⟨made, _⟩
          · exact ⟨by simp [Call.isExchange, Call.concernsArchives], rfl, Or.inl rfl⟩
          · cases made
  | renumbered other =>
      obtain ⟨changed, objects⟩ := passes_renumbered (passes_found passes).2
      exact ⟨by simp [Call.isExchange, Call.concernsArchives], objects, Or.inr changed⟩
  | unfetched trace => exact absurd (passes_found passes).1 held
  | fetched trace intake => exact absurd (passes_found passes).1 held

/-- Whatever the outcome, the module is indexed under its serial id. -/
theorem Course.serial_of_ok {outcome : Outcome} (course : Course r s events (.ok outcome))
    (passes : Passes (orFails Depot.serves) events d e) :
    e.index.serial? s.coordinate = some s.serial := by
  cases course with
  | known =>
      obtain ⟨found, rest⟩ := passes_found passes
      cases rest
      exact found
  | renumbered other =>
      obtain ⟨changed, _⟩ := passes_renumbered (passes_found passes).2
      rw [Index.serial?_setSerial changed, if_pos rfl]
  | fetched trace intake =>
      obtain ⟨t, _, taken⟩ := passes_append.mp (passes_found passes).2
      cases intake with
      | listed manifest =>
          cases taken with
          | call stored later =>
              cases later with
              | call put counted =>
                  obtain rfl := passes_counted counted
                  rcases Depot.served_putRow put with ⟨⟨_, failed⟩, _⟩ | ⟨_, now, rfl⟩
                  · cases failed
                  · rw [Index.serial?_put, if_pos rfl]

/-! ## The frame -/

/-- What bringing a module in may do. -/
structure Framed (r : Reconciler) (s : SerialCoordinate) (events : List (Event Call Answer))
    (result : Except ReconcileError Outcome) (d e : Depot) : Prop where
  listed : d.index.Lists s.coordinate →
    requests events = [] ∧ (∀ x ∈ events, x.1.concernsArchives = false) ∧
      e.objects = d.objects ∧ (e.index = d.index ∨ e.index.rows = d.index.rows.map fun row =>
        if row.coordinate = s.coordinate then { row with serial := s.serial } else row)
  dispatched : ¬ d.index.Lists s.coordinate → Dispatched r s.coordinate (requests events)
  settled : ∀ outcome, result = .ok outcome → e.index.serial? s.coordinate = some s.serial
  undone : ∀ failure, result = .error failure → e.index = d.index
  apart : ∀ key, s.coordinate.archiveKey ≠ .ok key → e.objects key = d.objects key
  storesOwn : ∀ x ∈ events, x.1.concernsArchives = true →
    ∃ data, x.1 = .putArchive s.coordinate data

/-- However bringing a module in goes and ends, it stays within its frame. -/
theorem reconcile_framed (trace : Trace (r.reconcile s) events result)
    (passes : Passes (orFails Depot.serves) events d e) : Framed r s events result d e := by
  have course := course_of_trace trace
  refine ⟨?_, fun _ => course.dispatched, ?_, ?_, fun key => course.objects_apart passes,
    course.storesOwn⟩
  · intro listed
    obtain ⟨quiet, objects, index⟩ := course.of_listed passes listed
    have unsent : requests events = [] :=
      List.filter_eq_nil_iff.mpr fun x member => by simp [(quiet x member).1]
    refine ⟨unsent, fun x member => (quiet x member).2, objects, ?_⟩
    exact index.imp_right fun changed => ((Index.setSerial_eq_ok_iff s _ _).mp changed).2
  · rintro outcome rfl
    exact course.serial_of_ok passes
  · rintro failure rfl
    exact course.index_of_error passes

/-! ## An archive without a row -/

namespace Sample

/-- The archive is fetched and stored, and then the index fails. -/
def unlisted : List (Event Call Answer) :=
  [⟨.findSerial wanted.coordinate, .ok none⟩, ⟨.exchange request, some ⟨200, archive⟩⟩,
    ⟨.putArchive wanted.coordinate archive, .ok ()⟩, ⟨.putRow addition, .error (.database "busy")⟩]

theorem trace_unlisted :
    Trace (reconciler.reconcile wanted) unlisted (.error (.index (.database "busy"))) :=
  Trace.ask (Trace.ask (Trace.ask (Trace.ask (Trace.done _))))

theorem passes_unlisted : Passes (orFails Depot.serves) unlisted .empty stored := by
  have absent : orFails Depot.serves (.findSerial wanted.coordinate) .empty (.ok none) .empty :=
    Or.inl ⟨⟨rfl, rfl⟩, rfl⟩
  have fetched : orFails Depot.serves (.exchange request) .empty (some ⟨200, archive⟩) .empty :=
    Or.inl ⟨rfl, rfl⟩
  have put : orFails Depot.serves (.putArchive wanted.coordinate archive) .empty (.ok ()) stored :=
    Or.inl ⟨rfl, rfl, rfl⟩
  have refused : orFails Depot.serves (.putRow addition) stored (.error (.database "busy"))
      stored := Or.inr ⟨⟨_, rfl⟩, rfl⟩
  exact Passes.call absent (Passes.call fetched (Passes.call put (Passes.call refused
    (Passes.stay stored))))

end Sample

/-- The one request went to the open proxy, and what is left is an archive under its own key. -/
theorem reconcile_framed_unlisted :
    ¬ Depot.empty.index.Lists Sample.wanted.coordinate ∧
      Framed Sample.reconciler Sample.wanted Sample.unlisted
        (.error (.index (.database "busy"))) .empty Sample.stored :=
  ⟨by decide, reconcile_framed Sample.trace_unlisted Sample.passes_unlisted⟩

end ModuleDepot.Proxy
