import ModuleDepot.Http.Message
import ModuleDepot.Index
import ModuleDepot.Storage.FileStore

/-!
Failed requests to a proxy: each has a status, a short code, and a text.
-/

namespace ModuleDepot.Proxy

inductive RequestError where
  | notFound (what : String)
  | badRequest (what : String)
  | index (e : IndexError)
  | storage (e : StorageError)
  | domain (e : Fault)
deriving DecidableEq

namespace RequestError

def message : RequestError → String
  | notFound what => "not found: " ++ what
  | badRequest what => "bad request: " ++ what
  | index e => "index error: " ++ e.message
  | storage e => "storage error: " ++ e.message
  | domain e => "core error: " ++ e.message

def code : RequestError → String
  | notFound _ => "not_found"
  | badRequest _ => "bad_request"
  | index (.notIndexed _) => "not_indexed"
  | index _ => "index_error"
  | storage _ => "storage_error"
  | domain _ => "core_error"

/-- The status of a failed request. What is missing is not found, texts that cannot be read
are the client's fault, and the rest is the server's. -/
def status : RequestError → Nat
  | notFound _ => 404
  | badRequest _ => 400
  | index (.notIndexed _) => 404
  | index _ => 500
  | storage (.notFound _) => 404
  | storage _ => 500
  | domain (.coordinate _) => 400
  | domain (.escape _) => 400
  | domain _ => 500

def reply (e : RequestError) : Http.Reply :=
  .json e.status (.record [("code", .string e.code), ("message", .string e.message)])

end RequestError

end ModuleDepot.Proxy
