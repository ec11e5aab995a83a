import ModuleDepot.Proofs.ArchiveKeys
import ModuleDepot.Proofs.CatalogBatches
import ModuleDepot.Proofs.Outcomes
import ModuleDepot.Proofs.RangeDiffExchange

/-!
The requests that a registry serves, one after another. Only a batch that is posted can change its
catalog: the batch is refused for the first coordinate in it that does not pass the check, before
anything of it is registered, and otherwise all of it is listed from then on.
-/

namespace ModuleDepot

theorem Coordinate.ofJson_toJson (c : Coordinate) : ofJson c.toJson = .ok c := rfl

theorem Coordinate.plain_toJson (c : Coordinate) : Json.Plain c.toJson := by
  refine Json.plain_record fun m mem => ?_
  simp only [List.mem_cons, List.not_mem_nil, or_false] at mem
  obtain rfl | rfl := mem <;> exact .string _

namespace Json

theorem sum_le_utf8ByteSize_joined (texts : List String) :
    (texts.map String.utf8ByteSize).sum ≤ (",".intercalate texts).utf8ByteSize := by
  induction texts with
  | nil => simp
  | cons text texts ih =>
    rw [List.map_cons, List.sum_cons]
    by_cases last : texts = []
    · simp [last]
    · rw [String.intercalate_cons_of_ne_nil last, String.utf8ByteSize_append,
        String.utf8ByteSize_append]
      omega

theorem sum_le_utf8ByteSize_array (items : List Value) :
    (items.map fun item => (write item).utf8ByteSize).sum ≤
      (write (.array items)).utf8ByteSize := by
  have joined := sum_le_utf8ByteSize_joined (writeItems items)
  rw [writeItems_eq_map, List.map_map] at joined
  rw [write, String.utf8ByteSize_append, String.utf8ByteSize_append, writeItems_eq_map]
  exact Nat.le_trans joined (by omega)

end Json

namespace Registry

open Http (Incoming Reply)

/-! ## Batches that are posted -/

/-- The batch that a request brings, if it is posted where batches are and can be read. -/
def batch? (r : Incoming) : Option (List Coordinate) :=
  if r.method = "POST" ∧ r.path = "/v1/registry/sources/new" then
    (readBody batchOfJson r).toOption
  else none

def submission (batch : List Coordinate) : Incoming :=
  ⟨"POST", "/v1/registry/sources/new", some "application/json",
    Json.write (.record [("modules", .array (batch.map Coordinate.toJson))])⟩

theorem path_submission (batch : List Coordinate) :
    (submission batch).path = "/v1/registry/sources/new" := by
  change String.ofList (Incoming.pathIn "/v1/registry/sources/new".toList) = _
  decide

theorem isJson_submission {batch : List Coordinate} :
    (submission batch).contentType.any Http.MediaType.isJson = true := by
  change Option.any Http.MediaType.isJson (some "application/json") = true
  decide

/-- Every batch that is not too long for a body can be brought, coordinates that do not pass the
check included. -/
theorem batch?_submission {batch : List Coordinate}
    (fits : (submission batch).body.utf8ByteSize ≤ bodyLimit) :
    batch? (submission batch) = some batch := by
  have plain : Json.Plain (.record [("modules", .array (batch.map Coordinate.toJson))]) := by
    refine Json.plain_record fun m mem => ?_
    obtain rfl := List.mem_singleton.mp mem
    exact Json.plain_array_map Coordinate.plain_toJson batch
  have back : batchOfJson (.record [("modules", .array (batch.map Coordinate.toJson))]) =
      .ok batch := by
    unfold batchOfJson
    rw [Json.read_single]
    exact Json.decodeList_map _ _ Coordinate.ofJson_toJson batch
  have read : Json.decode batchOfJson (submission batch).body = .ok batch := by
    simp only [submission, Json.decode, Json.read_write plain, back, if_true]
  unfold batch? readBody
  rw [if_pos ⟨rfl, path_submission batch⟩, isJson_submission, read, if_neg (by decide),
    if_neg (Nat.not_lt.mpr fits)]
  rfl

theorem batch?_eq_none_iff {r : Incoming} : batch? r = none ↔
    r.method ≠ "POST" ∨ r.path ≠ "/v1/registry/sources/new" ∨
      ∃ reply, readBody batchOfJson r = .error reply := by
  unfold batch?
  split
  · next posted =>
    cases readBody batchOfJson r with
    | ok batch => simp [posted, Except.toOption]
    | error reply => simp [Except.toOption]
  · next elsewhere =>
    rw [not_and_or] at elsewhere
    exact iff_of_true rfl (or_assoc.mp (.inl elsewhere))

theorem readBody_of_long {α : Type} (read : Json.Value → Json.Decoded α) {r : Incoming}
    (json : r.contentType.any Http.MediaType.isJson = true)
    (long : bodyLimit < r.body.utf8ByteSize) :
    readBody read r =
      .error (.text 413 "Failed to buffer the request body: length limit exceeded") := by
  unfold readBody
  rw [json, if_neg (by decide), if_pos long]

/-- The body of a submission is at least as long as its coordinates are when written. -/
theorem sum_le_utf8ByteSize_submission (batch : List Coordinate) :
    (batch.map fun c => (Json.write c.toJson).utf8ByteSize).sum ≤
      (submission batch).body.utf8ByteSize := by
  have items := Json.sum_le_utf8ByteSize_array (batch.map Coordinate.toJson)
  rw [List.map_map] at items
  have body : (submission batch).body =
      "\x7b" ++ (Json.writeString "modules" ++ ":" ++
        Json.write (.array (batch.map Coordinate.toJson))) ++ "\x7d" := by
    change Json.write (.object [(some "modules", .array (batch.map Coordinate.toJson))]) = _
    simp only [Json.write, Json.writeMembers, String.intercalate_singleton, Option.getD_some]
  rw [body]
  simp only [String.utf8ByteSize_append]
  exact Nat.le_trans items (by omega)

/-- A batch is refused for the first coordinate in it that does not pass the check. -/
def RefusedFor (batch : List Coordinate) (fault : CoordinateError) : Prop :=
  ∃ before c after, batch = before ++ c :: after ∧ (∀ b ∈ before, b.Accepted) ∧
    Coordinate.make c.source c.version = .error fault

theorem RefusedFor.cons {c : Coordinate} {rest : List Coordinate} {fault : CoordinateError}
    (accepted : c.Accepted) (refused : RefusedFor rest fault) : RefusedFor (c :: rest) fault := by
  obtain ⟨before, bad, after, rfl, sound, failed⟩ := refused
  exact ⟨c :: before, bad, after, rfl, List.forall_mem_cons.mpr ⟨accepted, sound⟩, failed⟩

theorem checkBatch_cons (c : Coordinate) (rest : List Coordinate) :
    checkBatch (c :: rest) =
      match Coordinate.make c.source c.version with
      | .error fault => .error (.domain (.coordinate fault))
      | .ok checked => (checkBatch rest).map (checked :: ·) := by
  rw [checkBatch, List.mapM_cons]
  cases Coordinate.make c.source c.version with
  | error fault => rfl
  | ok checked =>
    simp only [bind, Except.bind, checkBatch]
    cases rest.mapM fun c => Coordinate.make c.source c.version <;> rfl

theorem checkBatch_cases (batch : List Coordinate) :
    ((∀ c ∈ batch, c.Accepted) ∧ checkBatch batch = .ok batch) ∨
      ∃ fault, RefusedFor batch fault ∧
        checkBatch batch = .error (.domain (.coordinate fault)) := by
  induction batch with
  | nil => exact .inl ⟨by simp, rfl⟩
  | cons c rest ih =>
    rw [checkBatch_cons]
    cases made : Coordinate.make c.source c.version with
    | error fault => exact .inr ⟨fault, ⟨[], c, rest, rfl, by simp, made⟩, rfl⟩
    | ok checked =>
      obtain rfl : checked = c := (Coordinate.make_eq_ok_iff.mp made).1
      rcases ih with ⟨sound, passed⟩ | ⟨fault, refused, failed⟩
      · exact .inl ⟨List.forall_mem_cons.mpr ⟨made, sound⟩, by rw [passed]; rfl⟩
      · exact .inr ⟨fault, refused.cons made, by rw [failed]; rfl⟩

theorem RefusedFor.not_accepted {batch : List Coordinate} {fault : CoordinateError}
    (refused : RefusedFor batch fault) : ¬ ∀ c ∈ batch, c.Accepted := by
  obtain ⟨before, c, after, rfl, -, failed⟩ := refused
  intro accepted
  have passed : Coordinate.make c.source c.version = .ok c := accepted c (by simp)
  rw [failed] at passed
  cases passed

/-! ## What comes of one request -/

variable {r : Incoming} {batch : List Coordinate} {catalog next : Catalog}

/-- A step that only looks at the catalog. -/
def LooksOnly (step : Step Reply) : Prop := ∀ catalog, (step catalog).2 = catalog

theorem looksOnly_pure (reply : Reply) : LooksOnly (pure reply) := fun _ => rfl

theorem looksOnly_listMissing (r : Incoming) : LooksOnly (listMissing r) := by
  intro catalog
  unfold listMissing
  cases readBody SerialRanges.ofQuestion r <;> rfl

theorem dispatch_of_ne {m : Type → Type} [Monad m] {handler : m Reply} {method : String}
    (other : method ≠ "POST") :
    Http.dispatch [("POST", handler)] method = pure (.notAllowed ["POST"]) := by
  have missed : (method == "POST") = false := beq_eq_false_iff_ne.mpr other
  simp [Http.dispatch, List.lookup_cons, missed, Http.servedMethods]

/-- A request that brings no batch changes nothing. -/
theorem looksOnly_serve (none : batch? r = none) : LooksOnly (serve r) := by
  have handled : LooksOnly (handle r) := by
    unfold handle
    split
    · refine dispatch_cases (fun h member => ?_) looksOnly_pure _
      rw [List.mem_singleton.mp member]
      exact fun _ => rfl
    · next path =>
      by_cases posted : r.method = "POST"
      · rw [batch?, if_pos ⟨posted, path⟩] at none
        cases read : readBody batchOfJson r with
        | ok batch => rw [read] at none; cases none
        | error reply =>
          rw [posted]
          change LooksOnly (registerModules r)
          rw [registerModules, read]
          exact looksOnly_pure reply
      · rw [dispatch_of_ne posted]
        exact looksOnly_pure _
    · refine dispatch_cases (fun h member => ?_) looksOnly_pure _
      rcases List.mem_cons.mp member with rfl | later
      · exact fun _ => rfl
      · rw [List.mem_singleton.mp later]
        exact looksOnly_listMissing r
    · exact looksOnly_pure _
  exact handled

theorem handle_posted {r : Incoming} (posted : r.method = "POST")
    (path : r.path = "/v1/registry/sources/new") : handle r = registerModules r := by
  unfold handle
  rw [path, posted]
  rfl

theorem serve_unread {r : Incoming} {reply : Reply} (posted : r.method = "POST")
    (path : r.path = "/v1/registry/sources/new") (unread : readBody batchOfJson r = .error reply)
    (catalog : Catalog) : serve r catalog = (reply, catalog) := by
  unfold serve
  rw [handle_posted posted path, posted, registerModules, unread]
  rfl

theorem serve_batch (brings : batch? r = some batch) (catalog : Catalog) :
    serve r catalog =
      match registerBatch batch catalog with
      | (.error e, next) => (e.reply, next)
      | (.ok added, next) => (.json 200 (.record [("modules_added", .int added)]), next) := by
  rw [batch?] at brings
  split at brings
  · next posted =>
    obtain ⟨method, path⟩ := posted
    have read : readBody batchOfJson r = .ok batch := ok_of_toOption brings
    unfold serve
    rw [handle_posted method path, method]
    unfold registerModules
    rw [read]
    simp only [bind, StateT.bind]
    rcases registerBatch batch catalog with ⟨e | added, next⟩ <;> rfl
  · cases brings

/-- What can come of a request. -/
inductive Answers (r : Incoming) (catalog : Catalog) : Reply × Catalog → Prop
  | idle {reply : Reply} : batch? r = none → Answers r catalog (reply, catalog)
  | refused {batch : List Coordinate} {fault : CoordinateError} :
      batch? r = some batch → RefusedFor batch fault →
      Answers r catalog ((RequestError.domain (.coordinate fault)).reply, catalog)
  | taken {batch : List Coordinate} {new : List SerialCoordinate} {next : Catalog} :
      batch? r = some batch → (∀ c ∈ batch, c.Accepted) →
      catalog.Adds (Catalog.inOrder batch) new next →
      Answers r catalog (.json 200 (.record [("modules_added", .int new.length)]), next)
  | full {batch : List Coordinate} {reason : String} :
      batch? r = some batch → (∀ c ∈ batch, c.Accepted) →
      Int64.maxValue.toInt < catalog.lastUsed.toInt + batch.toFinset.card →
      Answers r catalog ((RequestError.catalog (.database reason)).reply, catalog)

theorem answers_serve (r : Incoming) (catalog : Catalog) :
    Answers r catalog (serve r catalog) := by
  cases brought : batch? r with
  | none =>
    have same : serve r catalog = ((serve r catalog).1, catalog) :=
      Prod.ext rfl (looksOnly_serve brought catalog)
    rw [same]
    exact .idle brought
  | some batch =>
    rw [serve_batch brought]
    unfold registerBatch
    rcases checkBatch_cases batch with ⟨accepted, passed⟩ | ⟨fault, refused, failed⟩
    · rw [passed]
      dsimp only
      rw [get_bind_apply]
      rcases catalog.register_cases batch with ⟨new, next, done, adds⟩ | ⟨⟨reason, failed⟩, full⟩
      · rw [done]
        exact .taken brought accepted adds
      · rw [failed]
        exact .full brought accepted full
    · rw [failed]
      exact .refused brought refused

/-! ## Requests one after another -/

/-- The catalog after some requests. -/
def serveAll (requests : List Incoming) (catalog : Catalog) : Catalog :=
  requests.foldl (fun catalog r => (serve r catalog).2) catalog

/-- How many coordinates requests bring, those of one batch counted once each. -/
def submitted (requests : List Incoming) : Nat :=
  (requests.map fun r => ((batch? r).getD []).toFinset.card).sum

theorem submitted_append (earlier later : List Incoming) :
    submitted (earlier ++ later) = submitted earlier + submitted later := by
  simp [submitted]

theorem submitted_of_batch? (brings : batch? r = some batch) :
    submitted [r] = batch.toFinset.card := by
  simp [submitted, brings]

/-- What requests leave of a catalog. -/
structure Follows (requests : List Incoming) (first last : Catalog) : Prop where
  accepted : (∀ row ∈ first.rows, row.coordinate.Accepted) →
    ∀ row ∈ last.rows, row.coordinate.Accepted
  kept : first.rows <+: last.rows
  used : last.lastUsed.toInt ≤ first.lastUsed.toInt + submitted requests

theorem Follows.cons {requests : List Incoming} {last : Catalog} (one : Follows [r] catalog next)
    (more : Follows requests next last) : Follows (r :: requests) catalog last where
  accepted sound := more.accepted (one.accepted sound)
  kept := one.kept.trans more.kept
  used := by
    have before := one.used
    have after := more.used
    rw [← List.singleton_append, submitted_append]
    omega

theorem follows_same (requests : List Incoming) (catalog : Catalog) :
    Follows requests catalog catalog where
  accepted sound := sound
  kept := List.prefix_rfl
  used := by omega

theorem follows_serve (r : Incoming) (catalog : Catalog) :
    Follows [r] catalog (serve r catalog).2 := by
  generalize came : serve r catalog = outcome
  have answers := answers_serve r catalog
  rw [came] at answers
  cases answers with
  | idle none => exact follows_same [r] catalog
  | refused brings refused => exact follows_same [r] catalog
  | full brings accepted full => exact follows_same [r] catalog
  | taken brings accepted adds =>
    constructor
    · intro sound row member
      rw [adds.rows] at member
      rcases List.mem_append.mp member with old | new
      · exact sound row old
      · have among := (adds.mem_new_iff row.coordinate).mp (List.mem_map_of_mem new)
        exact accepted _ among.1
    · rw [adds.rows]
      exact List.prefix_append _ _
    · rw [adds.used, Catalog.length_inOrder, submitted_of_batch? brings]

theorem follows_serveAll (requests : List Incoming) (catalog : Catalog) :
    Follows requests catalog (serveAll requests catalog) := by
  induction requests generalizing catalog with
  | nil => exact follows_same [] catalog
  | cons r rest ih => exact (follows_serve r catalog).cons (ih _)

/-! ## The listing -/

/-- The rows that a reply lists. -/
def listed (reply : Reply) : Option (List SerialCoordinate) :=
  ((String.fromUTF8? reply.body).bind Json.readStorable?).bind fun document =>
    (serialsOfJson document).toOption

theorem serve_listing {listing : Incoming} (method : listing.method = "GET")
    (path : listing.path = "/v1/registry/sources/list") (catalog : Catalog) :
    serve listing catalog = (.json 200 (serialsToJson catalog.all), catalog) := by
  have handled : handle listing = listAll := by
    unfold handle
    rw [path, method]
    rfl
  unfold serve
  rw [handled, method]
  rfl

theorem listed_serialsToJson (rows : List SerialCoordinate) :
    listed (.json 200 (serialsToJson rows)) = some rows := by
  simp only [listed, Reply.json, fromUTF8?_toUTF8, Option.bind_some, readStorable?_answer,
    serialsOfJson_toJson]
  rfl

/-- What is registered is listed, whatever is asked for in between. -/
theorem listed_of_adds {new : List SerialCoordinate}
    (adds : catalog.Adds (Catalog.inOrder batch) new next) (later : List Incoming)
    {listing : Incoming} (method : listing.method = "GET")
    (path : listing.path = "/v1/registry/sources/list") :
    ∃ reply rows, serve listing (serveAll later next) = (reply, serveAll later next) ∧
      reply.status = 200 ∧ listed reply = some rows ∧
      ∀ c ∈ batch, ∃ row ∈ rows, row.coordinate = c := by
  refine ⟨_, _, serve_listing method path _, rfl, listed_serialsToJson _, fun c member => ?_⟩
  have known := (adds.mem_coordinates_iff c).mpr (.inr member)
  obtain ⟨row, inside, named⟩ := List.mem_map.mp known
  exact ⟨row, (follows_serveAll later next).kept.subset inside, named⟩

/-! ## Batches are taken whole or not at all -/

/-- After any requests every row of the catalog has a coordinate that passes the check. A request
that posts no batch, such as one that lists or compares, or one that cannot be read, changes
nothing; a body over the limit is never read. A batch with a coordinate that does not pass is
refused for the first such, with status 400, and changes nothing. Any other batch is answered with
the number of its coordinates that were not in the catalog, and after any further requests all of it
is listed; unless there are not enough ids left for it, when again nothing is changed. -/
theorem batches_taken_whole (earlier : List Incoming) :
    let catalog := serveAll earlier .empty
    (∀ row ∈ catalog.all, row.coordinate.Accepted) ∧
    ∀ r : Incoming,
      (r.method ≠ "POST" ∨ r.path ≠ "/v1/registry/sources/new" ∨
          (∃ reply, readBody batchOfJson r = .error reply) → (serve r catalog).2 = catalog) ∧
      (r.method = "POST" → r.path = "/v1/registry/sources/new" →
        r.contentType.any Http.MediaType.isJson = true → bodyLimit < r.body.utf8ByteSize →
        serve r catalog =
          (.text 413 "Failed to buffer the request body: length limit exceeded", catalog)) ∧
      ∀ batch, batch? r = some batch →
        ((∃ c ∈ batch, ¬ c.Accepted) → ∃ fault reply,
          RefusedFor batch fault ∧ reply = (RequestError.domain (.coordinate fault)).reply ∧
          reply.status = 400 ∧ serve r catalog = (reply, catalog)) ∧
        ((∀ c ∈ batch, c.Accepted) →
          (∃ next, serve r catalog = (.json 200 (.record [("modules_added",
                .int (batch.toFinset \ catalog.coordinates.toFinset).card)]), next) ∧
              ∀ later listing, listing.method = "GET" →
                listing.path = "/v1/registry/sources/list" →
                ∃ reply rows, serve listing (serveAll later next) = (reply, serveAll later next) ∧
                  reply.status = 200 ∧ listed reply = some rows ∧
                  ∀ c ∈ batch, ∃ row ∈ rows, row.coordinate = c) ∨
            Int64.maxValue.toInt < submitted (earlier ++ [r]) ∧
              ∃ reply, reply.status = 500 ∧ serve r catalog = (reply, catalog)) := by
  intro catalog
  have before : Follows earlier .empty catalog := follows_serveAll earlier .empty
  refine ⟨before.accepted (by simp [Catalog.empty]), fun r => ⟨fun elsewhere => ?_, ?_, ?_⟩⟩
  · exact looksOnly_serve (batch?_eq_none_iff.mpr elsewhere) catalog
  · intro posted path json long
    exact serve_unread posted path (readBody_of_long _ json long) catalog
  · intro batch brings
    generalize came : serve r catalog = outcome
    have answers := answers_serve r catalog
    rw [came] at answers
    cases answers with
    | idle none => rw [brings] at none; cases none
    | @refused other fault same refused =>
      obtain rfl : batch = other := Option.some.inj (brings.symm.trans same)
      exact ⟨fun _ => ⟨fault, _, refused, rfl, rfl, rfl⟩,
        fun sound => absurd sound refused.not_accepted⟩
    | @taken other new next same sound adds =>
      obtain rfl : batch = other := Option.some.inj (brings.symm.trans same)
      refine ⟨fun rejected => absurd sound (by simpa using rejected), fun _ => .inl ⟨next, ?_,
        fun later listing method path => listed_of_adds adds later method path⟩⟩
      rw [adds.length_eq]
    | @full other reason same sound full =>
      obtain rfl : batch = other := Option.some.inj (brings.symm.trans same)
      refine ⟨fun rejected => absurd sound (by simpa using rejected),
        fun _ => .inr ⟨?_, _, rfl, rfl⟩⟩
      have bound := before.used
      have none : Catalog.empty.lastUsed.toInt = 0 := rfl
      rw [submitted_append, submitted_of_batch? brings]
      omega

theorem batches_taken_whole_mixed :
    let known : Coordinate := ⟨"github.com/a/b", "v1.0.0"⟩
    let fresh : Coordinate := ⟨"github.com/a/b", "v1.1.0"⟩
    let spaced : Coordinate := ⟨"github.com/a b", "v1.0.0"⟩
    let listing : Incoming := ⟨"GET", "/v1/registry/sources/list", none, ""⟩
    let catalog := serveAll [submission [known]] .empty
    (serve (submission [fresh, spaced]) catalog).1.status = 400 ∧
      (serve (submission [fresh, spaced]) catalog).2 = catalog ∧
      ∃ next, serve (submission [fresh, known]) catalog =
          (.json 200 (.record [("modules_added", .int 1)]), next) ∧
        ∃ rows, listed (serve listing (serveAll [submission [fresh, spaced]] next)).1 = some rows ∧
          ∃ row ∈ rows, row.coordinate = fresh := by
  intro known fresh spaced listing catalog
  have brought : ∀ batch ∈ [[known], [fresh, spaced], [fresh, known]],
      batch? (submission batch) = some batch := by
    intro batch member
    refine batch?_submission ?_
    have small : ∀ batch ∈ [[known], [fresh, spaced], [fresh, known]],
        (submission batch).body.utf8ByteSize ≤ bodyLimit := by decide +kernel
    exact small batch member
  have held : catalog = ⟨[⟨known, 1⟩], 1⟩ := by decide +kernel
  obtain ⟨-, each⟩ := batches_taken_whole [submission [known]]
  obtain ⟨refused, -⟩ := (each (submission [fresh, spaced])).2.2 _ (brought _ (by simp))
  obtain ⟨-, taken⟩ := (each (submission [fresh, known])).2.2 _ (brought _ (by simp))
  obtain ⟨fault, reply, -, -, status, answered⟩ := refused ⟨spaced, by simp, by decide +kernel⟩
  refine ⟨by rw [answered]; exact status, by rw [answered], ?_⟩
  rcases taken (by decide +kernel) with ⟨next, done, shows⟩ | ⟨full, -⟩
  · have one : ([fresh, known].toFinset \ catalog.coordinates.toFinset).card = 1 := by
      rw [held]
      decide +kernel
    rw [one] at done
    obtain ⟨reply, rows, told, -, read, inside⟩ :=
      shows [submission [fresh, spaced]] listing rfl (by decide +kernel)
    exact ⟨next, done, rows, by rw [told]; exact read, inside fresh (by simp)⟩
  · exfalso
    rw [submitted_append, submitted_of_batch? (brought [known] (by simp)),
      submitted_of_batch? (brought [fresh, known] (by simp))] at full
    revert full
    decide +kernel

-- Written, a coordinate of this kind takes 45 bytes and more.
theorem long_submission {batch : List Coordinate}
    (many : List.replicate 50000 ⟨"example.com/m", "v1.0.0"⟩ <+: batch) :
    bodyLimit < (submission batch).body.utf8ByteSize := by
  obtain ⟨more, rfl⟩ := many
  have size := sum_le_utf8ByteSize_submission
    (List.replicate 50000 ⟨"example.com/m", "v1.0.0"⟩ ++ more)
  have each : (Json.write (Coordinate.toJson ⟨"example.com/m", "v1.0.0"⟩)).utf8ByteSize = 45 := by
    decide +kernel
  rw [List.map_append, List.sum_append, List.map_replicate, each, List.sum_replicate_nat]
    at size
  have limit : bodyLimit = 2097152 := rfl
  omega

/-- A batch of fifty thousand coordinates is not read at all: it is neither refused for a coordinate
that does not pass nor taken if all of them do. -/
theorem long_batches_unread :
    (¬ ∀ batch : List Coordinate, (∃ c ∈ batch, ¬ c.Accepted) →
      (serve (submission batch) .empty).1.status = 400) ∧
    ¬ ∀ batch : List Coordinate, (∀ c ∈ batch, c.Accepted) →
      (serve (submission batch) .empty).1.status = 200 := by
  let known : Coordinate := ⟨"example.com/m", "v1.0.0"⟩
  let spaced : Coordinate := ⟨"example.com/a b", "v1.0.0"⟩
  have unread {batch : List Coordinate} (many : List.replicate 50000 known <+: batch) :
      (serve (submission batch) .empty).1.status = 413 := by
    have path : (submission batch).path = "/v1/registry/sources/new" := path_submission batch
    rw [serve_unread rfl path (readBody_of_long _ isJson_submission (long_submission many))]
    rfl
  constructor
  · intro refused
    have wrong := refused (List.replicate 50000 known ++ [spaced])
      ⟨spaced, List.mem_append_right _ List.mem_cons_self, by decide +kernel⟩
    rw [unread (List.prefix_append _ _)] at wrong
    cases wrong
  · intro taken
    have wrong := taken (List.replicate 50000 known) fun c among => by
      rw [List.eq_of_mem_replicate among]
      decide +kernel
    rw [unread List.prefix_rfl] at wrong
    cases wrong

end Registry

end ModuleDepot
