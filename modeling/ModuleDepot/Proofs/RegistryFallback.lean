import ModuleDepot.Proofs.Outcomes
import ModuleDepot.Proofs.RangeDiffExchange
import ModuleDepot.Proofs.ResolutionSteps
import ModuleDepot.Registry.Client

/-!
The instances of a registry are asked in their order until one is believed. An instance may
fail in four ways, each of which sends at most one request and lets the next one be asked;
what the believed document means is looked at when no other instance is asked any more.
-/

namespace ModuleDepot

open Json (Value)
open Procedure

namespace Http

/-- Where a request goes, unless it cannot be put together. -/
def destination (url : String) : Except TransferError Url :=
  match Url.read url with
  | .error _ => .error .badAddress
  | .ok u =>
      if u.host.isNone then .error (.badScheme u.display)
      else if isReachable u then .ok u
      else .error (.badScheme (withoutUser u).display)

section

variable {method url body : String} {u : Url} {e : TransferError}

theorem of_destination (goes : destination url = .ok u) :
    Url.read url = .ok u ∧ u.host.isNone = false ∧ isReachable u = true := by
  unfold destination at goes
  split at goes
  · cases goes
  · next v read =>
    split at goes
    · cases goes
    · next hosted =>
      split at goes
      · next reachable =>
        cases goes
        exact ⟨read, Bool.eq_false_iff.mpr hosted, reachable⟩
      · cases goes

theorem send_of_error (nowhere : destination url = .error e) :
    send method url [] body = pure (.error e) := by
  unfold destination at nowhere
  unfold send
  revert nowhere
  cases Url.read url with
  | error _ =>
    intro nowhere
    cases nowhere
    rfl
  | ok v =>
    intro nowhere
    dsimp only at nowhere ⊢
    split at nowhere
    · next homeless =>
      cases nowhere
      exact if_pos homeless
    · next hosted =>
      split at nowhere
      · cases nowhere
      · next unreachable =>
        cases nowhere
        exact (if_neg hosted).trans (if_pos (by simpa using unreachable))

theorem send_of_ok (goes : destination url = .ok u) :
    send method url [] body = do
      match ← call ⟨method, u.bare, userHeader u, body⟩ with
      | some response => return .ok response
      | none => return .error (.noAnswer (withoutUser u).display) := by
  obtain ⟨read, hosted, reachable⟩ := of_destination goes
  have given : send method url [] body = sendTo method u [] body := by
    rw [send, read]
    exact if_neg (by rw [hosted]; exact Bool.false_ne_true)
  have told : sendTo method u [] body = _ := if_neg (by rw [reachable]; exact Bool.false_ne_true)
  have bare : Request.mk method u.bare (userHeader u ++ []) body =
      ⟨method, u.bare, userHeader u, body⟩ := by rw [List.append_nil]
  exact given.trans (told.trans (congrArg (· >>= _) (congrArg call bare)))

end

end Http

namespace RegistryInstances

open Http (destination)

/-- The document in a response. A text is none if it is no JSON, and neither if it nests deeper
or holds a greater number than a document that can be kept. -/
def document? (response : Http.Response) : Option Value :=
  (String.fromUTF8? response.body).bind Json.readStorable?

/-- The request that asks an instance. -/
def posting (u : Url) (body : Value) : Http.Request :=
  ⟨"POST", u.bare, Http.userHeader u, Json.write body⟩

/-- How asking one instance may go. -/
inductive Answers (url : String) (body : Value) :
    List Asked → Except RegistryError Value → Prop
  | unsent {e : Http.TransferError} : destination url = .error e →
      Answers url body [] (.error (.transfer e))
  | silent {u : Url} : destination url = .ok u →
      Answers url body [⟨posting u body, none⟩]
        (.error (.transfer (.noAnswer (Http.withoutUser u).display)))
  | refused {u : Url} {response : Http.Response} : destination url = .ok u →
      Http.isSuccess response.status = false →
      Answers url body [⟨posting u body, some response⟩] (.error (.status url response.status))
  | garbled {u : Url} {response : Http.Response} : destination url = .ok u →
      Http.isSuccess response.status = true → document? response = none →
      Answers url body [⟨posting u body, some response⟩] (.error .notUnderstood)
  | believed {u : Url} {response : Http.Response} {value : Value} : destination url = .ok u →
      Http.isSuccess response.status = true → document? response = some value →
      Answers url body [⟨posting u body, some response⟩] (.ok value)

/-- An instance that was asked in vain. -/
structure Failure where
  address : String
  asked : List Asked
  error : RegistryError

def Failure.Met (path : String) (body : Value) (f : Failure) : Prop :=
  Answers (f.address ++ path) body f.asked (.error f.error)

variable {address path url : String} {body : Value} {asked : List Asked} {last e : RegistryError}
  {value : Value} {result : Except RegistryError Value} {addresses : List String}

theorem Answers.length_le (answers : Answers url body asked result) : asked.length ≤ 1 := by
  cases answers <;> simp

theorem trace_askOne_iff :
    Trace (askOne address path body) asked result ↔
      Answers (address ++ path) body asked result := by
  dsimp only [askOne]
  constructor
  · intro trace
    cases goes : destination (address ++ path) with
    | error e =>
      rw [Http.send_of_error goes] at trace
      cases trace
      exact .unsent goes
    | ok u =>
      rw [Http.send_of_ok goes] at trace
      cases trace with
      | @ask _ _ answer _ _ following =>
        cases answer with
        | none =>
          cases following
          exact .silent goes
        | some response =>
          change Trace (if _ then _ else _) _ _ at following
          cases success : Http.isSuccess response.status with
          | false =>
            rw [success] at following
            cases following
            exact .refused goes success
          | true =>
            rw [success] at following
            cases document : (String.fromUTF8? response.body).bind Json.readStorable? with
            | none =>
              rw [document] at following
              cases following
              exact .garbled goes success document
            | some value =>
              rw [document] at following
              cases following
              exact .believed goes success document
  · intro answers
    cases answers with
    | unsent goes =>
      rw [Http.send_of_error goes]
      exact .done _
    | silent goes =>
      rw [Http.send_of_ok goes]
      exact .ask (.done _)
    | refused goes success =>
      rw [Http.send_of_ok goes]
      refine .ask ?_
      change Trace (if _ then _ else _) _ _
      rw [success]
      exact .done _
    | garbled goes success document =>
      rw [Http.send_of_ok goes]
      refine .ask ?_
      rw [document?] at document
      change Trace (if _ then _ else _) _ _
      rw [success, document]
      exact .done _
    | believed goes success document =>
      rw [Http.send_of_ok goes]
      refine .ask ?_
      rw [document?] at document
      change Trace (if _ then _ else _) _ _
      rw [success, document]
      exact .done _

/-- One step: the instance is believed, or its error is handed on to the instances after it. -/
theorem trace_askFrom_cons :
    Trace (askFrom path body last (address :: addresses)) asked result ↔
      (∃ value, result = .ok value ∧ Answers (address ++ path) body asked (.ok value)) ∨
      ∃ first e second, Answers (address ++ path) body first (.error e) ∧
        Trace (askFrom path body e addresses) second result ∧ asked = first ++ second := by
  constructor
  · intro trace
    obtain ⟨first, answer, second, own, following, rfl⟩ := trace_bind trace
    have told := trace_askOne_iff.mp own
    cases answer with
    | ok value =>
      cases following
      exact .inl ⟨value, rfl, by simpa using told⟩
    | error e => exact .inr ⟨first, e, second, told, following, rfl⟩
  · rintro (⟨value, rfl, told⟩ | ⟨first, e, second, told, following, rfl⟩)
    · rw [← List.append_nil asked]
      exact Trace.bind (trace_askOne_iff.mpr told) (Trace.done _)
    · exact Trace.bind (trace_askOne_iff.mpr told) following

theorem trace_askFrom_ok_iff : Trace (askFrom path body last addresses) asked (.ok value) ↔
    ∃ (failures : List Failure) (address : String) (later : List String) (own : List Asked),
      addresses = failures.map Failure.address ++ address :: later ∧
      (∀ f ∈ failures, f.Met path body) ∧ Answers (address ++ path) body own (.ok value) ∧
      asked = failures.flatMap Failure.asked ++ own := by
  constructor
  · intro trace
    induction addresses generalizing last asked with
    | nil => cases trace
    | cons address rest ih =>
      rcases trace_askFrom_cons.mp trace with
        ⟨_, ⟨⟩, told⟩ | ⟨first, e, second, told, following, rfl⟩
      · exact ⟨[], address, rest, asked, rfl, by simp, told, by simp⟩
      · obtain ⟨failures, next, later, own, rfl, met, believed, rfl⟩ := ih following
        have both : ∀ f ∈ ⟨address, first, e⟩ :: failures, f.Met path body :=
          List.forall_mem_cons.mpr ⟨told, met⟩
        exact ⟨_, next, later, own, rfl, both, believed, by simp⟩
  · rintro ⟨failures, address, later, own, rfl, met, believed, rfl⟩
    induction failures generalizing last with
    | nil => exact trace_askFrom_cons.mpr (.inl ⟨value, rfl, believed⟩)
    | cons f rest ih =>
      obtain ⟨told, others⟩ := List.forall_mem_cons.mp met
      exact trace_askFrom_cons.mpr (.inr ⟨f.asked, f.error, _, told, ih others, by simp⟩)

/-- The error of the last of some failures, or the one that was there before them. -/
def lastError (failures : List Failure) (last : RegistryError) : RegistryError :=
  (failures.getLast?.map Failure.error).getD last

@[simp] theorem lastError_nil (last : RegistryError) : lastError [] last = last := rfl

@[simp] theorem lastError_cons (f : Failure) (failures : List Failure) (last : RegistryError) :
    lastError (f :: failures) last = lastError failures f.error := by
  cases failures with
  | nil => rfl
  | cons g rest =>
    rw [lastError, lastError, List.getLast?_cons_cons, List.getLast?_cons]
    rfl

theorem trace_askFrom_error_iff : Trace (askFrom path body last addresses) asked (.error e) ↔
    ∃ failures : List Failure, addresses = failures.map Failure.address ∧
      (∀ f ∈ failures, f.Met path body) ∧
      asked = failures.flatMap Failure.asked ∧ e = lastError failures last := by
  constructor
  · intro trace
    induction addresses generalizing last asked with
    | nil =>
      cases trace
      exact ⟨[], by simp⟩
    | cons address rest ih =>
      rcases trace_askFrom_cons.mp trace with
        ⟨_, ⟨⟩, _⟩ | ⟨first, early, second, told, following, rfl⟩
      obtain ⟨failures, rfl, met, rfl, rfl⟩ := ih following
      have both : ∀ f ∈ ⟨address, first, early⟩ :: failures, f.Met path body :=
        List.forall_mem_cons.mpr ⟨told, met⟩
      exact ⟨_, rfl, both, by simp, by simp⟩
  · rintro ⟨failures, rfl, met, rfl, rfl⟩
    induction failures generalizing last with
    | nil => exact Trace.done _
    | cons f rest ih =>
      obtain ⟨told, others⟩ := List.forall_mem_cons.mp met
      rw [lastError_cons]
      exact trace_askFrom_cons.mpr (.inr ⟨f.asked, f.error, _, told, ih others, by simp⟩)

theorem needed_eq (instances : RegistryInstances) (held : SerialRanges) :
    needed instances held = (do
      let answer ← ask instances questionPath held.toQuestion
      return answer.bind fun value => (serialsOfJson value).mapError fun _ => .notUnderstood) := by
  unfold needed
  congr 1
  funext answer
  cases answer with
  | error e => rfl
  | ok value => cases read : serialsOfJson value <;> simp [Except.bind, read]

theorem trace_needed_iff {instances : RegistryInstances} {held : SerialRanges}
    {result : Except RegistryError (List SerialCoordinate)} :
    Trace (needed instances held) asked result ↔
      ∃ answer, Trace (ask instances questionPath held.toQuestion) asked answer ∧
        result = answer.bind fun value =>
          (serialsOfJson value).mapError fun _ => .notUnderstood := by
  rw [needed_eq]
  constructor
  · intro trace
    obtain ⟨first, answer, second, own, following, rfl⟩ := trace_bind trace
    cases following
    exact ⟨answer, by simpa using own, rfl⟩
  · rintro ⟨answer, own, rfl⟩
    rw [← List.append_nil asked]
    exact Trace.bind own (Trace.done _)

/-- Instances are asked in their order, each once and only after all before it have failed. The
first document that comes with a success is the answer, and without one the last error is, when
every instance was asked. What a proxy needs is read from that answer, and no instance is asked
again if it cannot be. Every network brings a run to such an end. -/
theorem instances_asked_in_order (configured : List String) (path : String) (body : Value)
    (held : SerialRanges) :
    (∀ asked value, Trace (ask (ofAddresses configured) path body) asked (.ok value) ↔
      ∃ (failures : List Failure) (address : String) (later : List String) (own : List Asked),
        (ofAddresses configured).addresses = failures.map Failure.address ++ address :: later ∧
        (∀ f ∈ failures, f.Met path body) ∧ Answers (address ++ path) body own (.ok value) ∧
        asked = failures.flatMap Failure.asked ++ own) ∧
    (∀ asked e, Trace (ask (ofAddresses configured) path body) asked (.error e) ↔
      ∃ failures : List Failure,
        (ofAddresses configured).addresses = failures.map Failure.address ∧
        (∀ f ∈ failures, f.Met path body) ∧ asked = failures.flatMap Failure.asked ∧
        e = lastError failures .noInstances) ∧
    (∀ url asked result, Answers url body asked result → asked.length ≤ 1) ∧
    (∀ asked result, Trace (needed (ofAddresses configured) held) asked result ↔
      ∃ answer,
        Trace (ask (ofAddresses configured) questionPath held.toQuestion) asked answer ∧
        result = answer.bind fun value =>
          (serialsOfJson value).mapError fun _ => .notUnderstood) ∧
    ∀ {σ : Type} (network : Http.Request → σ → Option Http.Response × σ) (s : σ),
      (∃ asked,
        Trace (ask (ofAddresses configured) path body) asked
          (run network (ask (ofAddresses configured) path body) s).1 ∧
        Passes (handled network) asked s
          (run network (ask (ofAddresses configured) path body) s).2) ∧
      ∃ asked,
        Trace (needed (ofAddresses configured) held) asked
          (run network (needed (ofAddresses configured) held) s).1 ∧
        Passes (handled network) asked s
          (run network (needed (ofAddresses configured) held) s).2 := by
  refine ⟨?_, ?_, ?_, ?_, ?_⟩
  · intro asked value
    exact trace_askFrom_ok_iff
  · intro asked e
    exact trace_askFrom_error_iff
  · intro url asked result answers
    exact answers.length_le
  · intro asked result
    exact trace_needed_iff
  · intro σ network s
    exact ⟨trace_of_run network _ s, trace_of_run network _ s⟩

/-- The first instance answers with an error page, so the second one is asked and believed. -/
theorem instances_asked_in_order_second :
    ∃ asked, Trace (needed (ofAddresses ["http://down/", "http://up"]) ⟨[]⟩) asked
        (.ok [⟨⟨"example.com/m", "v1.0.0"⟩, 1⟩]) ∧
      asked.map (fun x => x.2.map Http.Response.status) = [some 500, some 200] := by
  let question := (⟨[]⟩ : SerialRanges).toQuestion
  let serials : List SerialCoordinate := [⟨⟨"example.com/m", "v1.0.0"⟩, 1⟩]
  have reachable : ((destination ("http://down" ++ questionPath)).toOption.isSome = true ∧
      (destination ("http://up" ++ questionPath)).toOption.isSome = true) := by decide +kernel
  have trimmed : (ofAddresses ["http://down/", "http://up"]).addresses =
      ["http://down", "http://up"] := by decide +kernel
  obtain ⟨down, goes⟩ := Option.isSome_iff_exists.mp reachable.1
  obtain ⟨up, goes'⟩ := Option.isSome_iff_exists.mp reachable.2
  have document : document? ⟨200, (Json.write (serialsToJson serials)).toUTF8⟩ =
      some (serialsToJson serials) := by
    simp only [document?, fromUTF8?_toUTF8, Option.bind_some, readStorable?_answer]
  let failure : Failure :=
    ⟨"http://down", [⟨posting down question, some ⟨500, ByteArray.empty⟩⟩],
      .status ("http://down" ++ questionPath) 500⟩
  have refused : failure.Met questionPath question := .refused (ok_of_toOption goes) rfl
  obtain ⟨answered, -, -, understood, -⟩ :=
    instances_asked_in_order ["http://down/", "http://up"] questionPath question ⟨[]⟩
  have told := (answered _ _).mpr ⟨[failure], "http://up", [], _, trimmed,
    List.forall_mem_singleton.mpr refused, .believed (ok_of_toOption goes') rfl document, rfl⟩
  refine ⟨_, (understood _ _).mpr ⟨_, told, ?_⟩, rfl⟩
  simp only [Except.bind, serialsOfJson_toJson, mapError_ok, serials]

end RegistryInstances

end ModuleDepot
