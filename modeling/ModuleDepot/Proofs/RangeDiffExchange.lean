import ModuleDepot.Proofs.JsonText
import ModuleDepot.Proofs.RangeDiff
import ModuleDepot.Registry.Client
import ModuleDepot.Registry.Router

/-!
A proxy asks its registry what it lacks: the ids that it holds are written as a text, the
registry reads them and writes its answer, and the proxy reads that. Both texts are read as
what was written, so the proxy is told exactly the catalog's rows whose ids it does not
hold.
-/

namespace ModuleDepot

open Json (Value Plain)

/-! ## Documents that are plain, and documents that can be kept -/

namespace Json

theorem plain_int (i : Int) : Plain (.int i) := .number _ rfl rfl

theorem plain_record {members : List (String × Value)} (each : ∀ m ∈ members, Plain m.2) :
    Plain (.record members) := by
  refine .object _ (fun m mem => ?_) (fun m mem => ?_)
  all_goals
    obtain ⟨member, inside, rfl⟩ := List.mem_map.mp mem
  · rfl
  · exact each member inside

theorem plain_array_map {α : Type} {write : α → Value} (each : ∀ a, Plain (write a))
    (items : List α) : Plain (.array (items.map write)) := by
  refine .array _ fun item mem => ?_
  obtain ⟨a, -, rfl⟩ := List.mem_map.mp mem
  exact each a

theorem isFinite_of_small {n : Number} (scale : n.scale = 0)
    (small : n.digits < 1 <<< 1024 - 1 <<< 970) : n.isFinite = true := by
  obtain ⟨negative, digits, s, whole⟩ := n
  subst scale
  unfold Number.isFinite
  by_cases zero : digits = 0
  · simp [zero]
  · simpa [zero] using small

theorem isFinite_ofInt (id : Int64) : (Number.ofInt id.toInt).isFinite = true := by
  have low := id.le_toInt
  have high := id.toInt_lt
  have magnitude : id.toInt.natAbs ≤ 2 ^ 63 := by omega
  exact isFinite_of_small rfl (Nat.lt_of_le_of_lt magnitude (by decide))

theorem areStorable_iff (room : Nat) (items : List Value) :
    Value.areStorable room items = true ↔ ∀ item ∈ items, item.isStorable room = true := by
  induction items with
  | nil => simp [Value.areStorable]
  | cons item rest ih => simp [Value.areStorable, ih]

end Json

theorem SerialRanges.plain_toQuestion (held : SerialRanges) : Plain held.toQuestion := by
  refine Json.plain_record fun m mem => ?_
  obtain rfl := List.mem_singleton.mp mem
  exact Json.plain_array_map (fun r => Json.plain_array_map Json.plain_int [_, _]) held.ranges

theorem plain_serialsToJson (serials : List SerialCoordinate) : Plain (serialsToJson serials) := by
  refine Json.plain_record fun m mem => ?_
  obtain rfl := List.mem_singleton.mp mem
  refine Json.plain_array_map (fun s => Json.plain_record fun m mem => ?_) serials
  simp only [List.mem_cons, List.not_mem_nil, or_false] at mem
  obtain rfl | rfl | rfl := mem
  · exact .string _
  · exact .string _
  · exact Json.plain_int _

theorem isStorable_serialsToJson (serials : List SerialCoordinate) :
    (serialsToJson serials).isStorable Json.nestingLimit = true := by
  have each : ∀ item ∈ serials.map SerialCoordinate.toJson, item.isStorable 125 = true := by
    intro item mem
    obtain ⟨s, -, rfl⟩ := List.mem_map.mp mem
    simp [SerialCoordinate.toJson, Value.record, Value.int, Value.isStorable,
      Value.membersStorable, Json.isFinite_ofInt]
  have items := (Json.areStorable_iff 125 _).mpr each
  simp [serialsToJson, Value.record, Value.isStorable, Value.membersStorable, Json.nestingLimit,
    items]

/-! ## Both texts are read as what was written -/

theorem SerialRanges.decode_question (held : SerialRanges) :
    Json.decode ofQuestion (Json.write held.toQuestion) = .ok (ofRanges held.ranges) := by
  simp only [Json.decode, Json.read_write held.plain_toQuestion, ofQuestion_toQuestion, if_true]

theorem readStorable?_answer (serials : List SerialCoordinate) :
    Json.readStorable? (Json.write (serialsToJson serials)) = some (serialsToJson serials) := by
  simp only [Json.readStorable?, Json.read_write (plain_serialsToJson serials),
    isStorable_serialsToJson, Bool.and_self, if_true]

theorem fromUTF8?_toUTF8 (text : String) : String.fromUTF8? text.toUTF8 = some text := by
  have valid : text.toUTF8.IsValidUTF8 := text.isValidUTF8
  exact dif_pos valid

/-! ## The exchange -/

namespace Registry

open Http (Incoming)

theorem serve_question {request : Incoming} {held : SerialRanges} (catalog : Catalog)
    (posted : request.method = "POST") (path : request.path = RegistryInstances.questionPath)
    (json : request.contentType.any Http.MediaType.isJson = true)
    (fits : request.body.utf8ByteSize ≤ bodyLimit)
    (read : Json.decode SerialRanges.ofQuestion request.body = .ok held) :
    serve request catalog = (.json 200 (serialsToJson (catalog.missing held)), catalog) := by
  have body : readBody SerialRanges.ofQuestion request = .ok held := by
    unfold readBody
    rw [json, read, if_neg (by decide), if_neg (Nat.not_lt.mpr fits)]
  have handled : handle request = listMissing request := by
    unfold handle
    rw [path, posted]
    rfl
  unfold serve
  rw [handled, posted]
  unfold listMissing
  rw [body]
  rfl

end Registry

/-- A network that brings what is posted to a registry, and its reply back. -/
def BringsToRegistry
    (network : Http.Request → Catalog → Option Http.Response × Catalog) : Prop :=
  ∀ request catalog, request.method = "POST" → ∃ incoming : Http.Incoming,
    incoming.method = "POST" ∧ incoming.path = RegistryInstances.questionPath ∧
    incoming.contentType.any Http.MediaType.isJson = true ∧ incoming.body = request.body ∧
    network request catalog =
      (some ⟨(Registry.serve incoming catalog).1.status, (Registry.serve incoming catalog).1.body⟩,
        (Registry.serve incoming catalog).2)

/-- Whether a request to an address can be sent at all. -/
def Http.CanSend (url : String) : Prop :=
  ∃ u, Url.read url = .ok u ∧ u.host.isSome = true ∧ isReachable u = true

instance (url : String) : Decidable (Http.CanSend url) :=
  match read : Url.read url with
  | .ok u => decidable_of_iff (u.host.isSome = true ∧ Http.isReachable u = true)
      ⟨fun able => ⟨u, read, able⟩, fun can => by
        obtain ⟨u', again, able⟩ := can
        rw [read] at again
        exact Except.ok.inj again ▸ able⟩
  | .error _ => isFalse fun can => by
      obtain ⟨u, again, -⟩ := can
      rw [read] at again
      cases again

theorem Http.run_send {url : String} (can : CanSend url) (method body : String) :
    ∃ request : Request, request.method = method ∧ request.body = body ∧
      ∀ {σ : Type} {network : Request → σ → Option Response × σ} {state next : σ}
        {response : Response}, network request state = (some response, next) →
        Procedure.run network (send method url [] body) state = (.ok response, next) := by
  obtain ⟨u, read, host, reachable⟩ := can
  refine ⟨⟨method, u.bare, userHeader u ++ [], body⟩, rfl, rfl, ?_⟩
  intro σ network state next response answered
  have hosted : u.host.isNone = false := by simpa using host
  simp only [send, read, hosted, sendTo, checkHeaders, reachable]
  change Procedure.run network (.ask _ _) state = _
  simp only [Procedure.run, List.reverse_nil, answered]
  rfl

namespace RegistryInstances

/-- The first instance is believed, so one that can be reached decides the answer. -/
theorem run_needed {network : Http.Request → Catalog → Option Http.Response × Catalog}
    (brings : BringsToRegistry network) {address : String} {others : List String}
    (can : Http.CanSend (address ++ questionPath)) {held : SerialRanges}
    (fits : (Json.write held.toQuestion).utf8ByteSize ≤ Registry.bodyLimit) (catalog : Catalog) :
    Procedure.run network (needed ⟨address :: others⟩ held) catalog =
      (.ok (catalog.missing (.ofRanges held.ranges)), catalog) := by
  obtain ⟨request, posted, body, sent⟩ :=
    Http.run_send can "POST" (Json.write held.toQuestion)
  obtain ⟨incoming, method, path, json, same, answered⟩ := brings request catalog posted
  rw [Registry.serve_question catalog method path json (by rw [same, body]; exact fits)
    (by rw [same, body]; exact held.decode_question)] at answered
  have one : Procedure.run network (askOne address questionPath held.toQuestion) catalog =
      (.ok (serialsToJson (catalog.missing (.ofRanges held.ranges))), catalog) := by
    unfold askOne
    refine (Procedure.run_andThen _ _ _ _).trans ?_
    rw [sent answered]
    simp only [Http.Reply.json, fromUTF8?_toUTF8, Option.bind_some, readStorable?_answer]
    rfl
  have all : Procedure.run network (ask ⟨address :: others⟩ questionPath held.toQuestion)
      catalog = (.ok (serialsToJson (catalog.missing (.ofRanges held.ranges))), catalog) := by
    unfold ask askFrom
    refine (Procedure.run_andThen _ _ _ _).trans ?_
    rw [one]
    rfl
  unfold needed
  refine (Procedure.run_andThen _ _ _ _).trans ?_
  rw [all]
  simp only [serialsOfJson_toJson]
  rfl

end RegistryInstances

/-- Asking a registry what is missing is exact. Whatever ids the index holds, its question is
read from its text and the answer from its text, and the answer is the catalog's rows that no row
of the index has the id of: each once, unchanged and in ascending order. A client that can send
its question gets that answer, as long as the question is not too long for a body. -/
theorem Catalog.range_diff_exact (catalog : Catalog) (index : Index)
    (ascending : catalog.rows.Pairwise fun a b => a.serial < b.serial) :
    ∃ held answer lacking,
      Json.decode SerialRanges.ofQuestion (Json.write index.serials.toQuestion) = .ok held ∧
      Json.readStorable? (Json.write (serialsToJson (catalog.missing held))) = some answer ∧
      serialsOfJson answer = .ok lacking ∧
      (∀ s, s ∈ lacking ↔ s ∈ catalog.rows ∧ ∀ row ∈ index.rows, row.serial ≠ s.serial) ∧
      (lacking.Pairwise fun a b => a.serial < b.serial) ∧
      ∀ network address others, BringsToRegistry network →
        Http.CanSend (address ++ RegistryInstances.questionPath) →
        (Json.write index.serials.toQuestion).utf8ByteSize ≤ Registry.bodyLimit →
        Procedure.run network (RegistryInstances.needed ⟨address :: others⟩ index.serials)
          catalog = (.ok lacking, catalog) := by
  refine ⟨.ofRanges index.serials.ranges, _, _, index.serials.decode_question,
    readStorable?_answer _, serialsOfJson_toJson _, fun s => ?_, ?_, ?_⟩
  · rw [catalog.missing_serials]
    simp
  · rw [catalog.missing_serials]
    exact ascending.filter _
  · intro network address others brings can fits
    exact RegistryInstances.run_needed brings can fits catalog

namespace Sample

def soleRegistry (request : Http.Request) (catalog : Catalog) :
    Option Http.Response × Catalog :=
  let (reply, next) := Registry.serve
    ⟨"POST", RegistryInstances.questionPath, some "application/json", request.body⟩ catalog
  (some ⟨reply.status, reply.body⟩, next)

theorem soleRegistry_brings : BringsToRegistry soleRegistry := by
  intro request catalog _
  refine ⟨⟨"POST", RegistryInstances.questionPath, some "application/json", request.body⟩,
    rfl, ?_, ?_, rfl, rfl⟩
  · change String.ofList (Http.Incoming.pathIn RegistryInstances.questionPath.toList) = _
    decide
  · change Option.any Http.MediaType.isJson (some "application/json") = true
    decide

def wideCatalog : Catalog :=
  ⟨[⟨⟨"example.com/a", "v1.0.0"⟩, Int64.minValue⟩, ⟨⟨"example.com/b", "v1.0.0"⟩, 6⟩,
    ⟨⟨"example.com/c", "v1.0.0"⟩, 7⟩, ⟨⟨"example.com/d", "v1.0.0"⟩, Int64.maxValue⟩],
    Int64.maxValue⟩

/-- Ids out of order, one of them twice. -/
def wideIndex : Index :=
  ⟨[⟨⟨"example.com/d", "v1.0.0"⟩, Int64.maxValue, "", .ofNanos 0⟩,
    ⟨⟨"example.com/b", "v1.0.0"⟩, 6, "", .ofNanos 0⟩,
    ⟨⟨"example.com/old", "v1.0.0"⟩, 6, "", .ofNanos 0⟩]⟩

theorem serials_wideIndex : wideIndex.serials = ⟨[.single 6, .single Int64.maxValue]⟩ := by
  have sorted : [Int64.maxValue, 6, 6].mergeSort (fun a b => a ≤ b) = [6, 6, Int64.maxValue] := by
    have ascending : ([Int64.maxValue, 6, 6].mergeSort fun a b => a ≤ b).Pairwise
        fun a b => decide (a ≤ b) = true :=
      List.pairwise_mergeSort (by simpa using fun _ _ _ => Int64.le_trans)
        (by simpa using Int64.le_total) _
    refine List.Perm.eq_of_pairwise (fun _ _ _ _ => Int64.le_antisymm) (by simpa using ascending)
      (by decide) ((List.mergeSort_perm _ _).trans (by decide))
  change SerialRanges.compress [Int64.maxValue, 6, 6] = _
  unfold SerialRanges.compress
  rw [sorted]
  rfl

end Sample

/-- A proxy that holds the largest id, and another one twice, is told of the two others. -/
theorem Catalog.range_diff_exact_wide :
    (Sample.wideCatalog.rows.Pairwise fun a b => a.serial < b.serial) ∧
      ∃ lacking,
        Procedure.run Sample.soleRegistry
          (RegistryInstances.needed ⟨["http://registry"]⟩ Sample.wideIndex.serials)
          Sample.wideCatalog = (.ok lacking, Sample.wideCatalog) ∧
        ∀ s, s ∈ lacking ↔ s ∈ Sample.wideCatalog.rows ∧ s.serial ≠ Int64.maxValue ∧
          s.serial ≠ 6 := by
  have ascending : Sample.wideCatalog.rows.Pairwise fun a b => a.serial < b.serial := by decide
  obtain ⟨_, _, lacking, _, _, _, members, _, exchange⟩ :=
    Catalog.range_diff_exact Sample.wideCatalog Sample.wideIndex ascending
  refine ⟨ascending, lacking, ?_, fun s => ?_⟩
  · refine exchange Sample.soleRegistry "http://registry" [] Sample.soleRegistry_brings ?_ ?_
    · decide +kernel
    · rw [Sample.serials_wideIndex]
      decide +kernel
  · rw [members s]
    simp [Sample.wideIndex, eq_comm]

end ModuleDepot
