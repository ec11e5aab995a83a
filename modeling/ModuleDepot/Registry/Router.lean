import ModuleDepot.Fault
import ModuleDepot.Http.MediaType
import ModuleDepot.Http.Message
import ModuleDepot.Program
import ModuleDepot.Wire

/-!
The requests that a registry serves. Coordinates that arrive are checked before
any of them is registered, so a batch is taken as a whole or not at all.
-/

namespace ModuleDepot.Registry

open Http (Incoming Reply)
open Json (Value Decoded)

/-- A request as a step on the catalog. -/
abbrev Step := StateM Catalog

inductive RequestError where
  | catalog (e : CatalogError)
  | domain (e : Fault)
deriving DecidableEq

namespace RequestError

def message : RequestError → String
  | catalog e => "catalog error: " ++ e.message
  | domain e => "core error: " ++ e.message

def code : RequestError → String
  | catalog _ => "catalog_error"
  | domain _ => "core_error"

/-- The status of a failed request: only a bad coordinate is the client's fault. -/
def status : RequestError → Nat
  | catalog _ => 500
  | domain (.coordinate _) => 400
  | domain _ => 500

def reply (e : RequestError) : Reply :=
  .json e.status (.record [("code", .string e.code), ("message", .string e.message)])

end RequestError

/-! ## Bodies -/

/-- The longest body, in bytes. -/
def bodyLimit : Nat := 2 * 1024 * 1024

/-- Reads a body of JSON, or tells what to reply instead. -/
def readBody {α : Type} (read : Value → Decoded α) (r : Incoming) : Except Reply α :=
  if !(r.contentType.any Http.MediaType.isJson) then
    .error (.text 415 "Expected request with \x60Content-Type: application/json\x60")
  else if bodyLimit < r.body.utf8ByteSize then
    .error (.text 413 "Failed to buffer the request body: length limit exceeded")
  else
    match Json.decode read r.body with
    | .ok a => .ok a
    | .error .syntaxFault =>
        .error (.text 400 "Failed to parse the request body as JSON")
    | .error _ =>
        .error (.text 422 "Failed to deserialize the JSON body into the target type")

/-- Reads the coordinates to be registered, without checking them. -/
def batchOfJson (v : Value) : Decoded (List Coordinate) :=
  Json.Fields.read ["modules"] v fun fields =>
    fields.need "modules" (Json.decodeList Coordinate.ofJson)

/-! ## Requests -/

def health : Step Reply := return .json 200 healthDocument

def checkBatch (batch : List Coordinate) : Except RequestError (List Coordinate) :=
  (batch.mapM fun c => Coordinate.make c.source c.version).mapError fun e =>
    .domain (.coordinate e)

def registerBatch (batch : List Coordinate) : Step (Except RequestError Nat) := do
  match checkBatch batch with
  | .error e => return .error e
  | .ok modules =>
      match (← get).register modules with
      | .error e => return .error (.catalog e)
      | .ok (added, catalog) => do
          set catalog
          return .ok added

def registerModules (r : Incoming) : Step Reply := do
  match readBody batchOfJson r with
  | .error reply => return reply
  | .ok batch =>
      match ← registerBatch batch with
      | .error e => return e.reply
      | .ok added => return .json 200 (.record [("modules_added", .int added)])

/-- Lists what a proxy lacks that holds the given ids. -/
def listMissing (r : Incoming) : Step Reply := do
  match readBody SerialRanges.ofQuestion r with
  | .error reply => return reply
  | .ok held => return .json 200 (serialsToJson ((← get).missing held))

def listAll : Step Reply := return .json 200 (serialsToJson (← get).all)

def handle (r : Incoming) : Step Reply :=
  match r.path with
  | "/v1/health" => Http.dispatch [("GET", health)] r.method
  | "/v1/registry/sources/new" => Http.dispatch [("POST", registerModules r)] r.method
  | "/v1/registry/sources/list" =>
      Http.dispatch [("GET", listAll), ("POST", listMissing r)] r.method
  | _ => return .bare 404

def serve (r : Incoming) : Step Reply := do return (← handle r).sentFor r.method

end ModuleDepot.Registry
