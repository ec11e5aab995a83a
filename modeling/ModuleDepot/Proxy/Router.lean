import ModuleDepot.Program
import ModuleDepot.Proxy.Call
import ModuleDepot.Proxy.Error
import ModuleDepot.Proxy.ModulePath

/-!
The requests that a proxy serves: a few fixed paths, and on every other path the
module protocol. Paths of the protocol hold slashes in their middle and are
looked at as they stand; the path of a problem is decoded first.
-/

namespace ModuleDepot.Proxy

open Http (Incoming Reply)
open Json (Value)

def replyOf {α : Type} (show' : α → Reply) : Except RequestError α → Reply
  | .ok a => show' a
  | .error e => e.reply

def documentReply : Option Value → Reply
  | some v => .json 200 v
  | none => .text 500 "the year cannot be written"

def health : Task Reply := do
  match ← ask .checkIndex with
  | .error e => return (RequestError.index e).reply
  | .ok _ =>
      match ← ask .checkStore with
      | .error e => return (RequestError.storage e).reply
      | .ok _ => return .json 200 healthDocument

def showSummary : Task Reply := do
  return replyOf (fun s => .json 200 s.toJson) ((← ask .summarise).mapError .index)

def showProblems : Task Reply := do
  return documentReply (((← ask .listProblems).mapM Problem.toJson?).map .array)

/-- The coordinate in the decoded path of a problem. -/
def problemCoordinate (path : List Char) : Except RequestError Coordinate :=
  match Text.cutLast ModulePath.mark path with
  | none =>
      .error (.badRequest ("expected \x7bsource\x7d/@v/\x7bversion\x7d, got " ++
        String.ofList path))
  | some (source, version) => do
      let source ← (ModulePath.unescaped source).mapError .domain
      (ModulePath.coordinate source version).mapError .domain

def showProblem (path : List Char) : Task Reply :=
  match Url.decode? path with
  | none => return .text 400 "Invalid URL: Invalid UTF-8 in \x60module\x60"
  | some path =>
      match problemCoordinate path with
      | .error e => return e.reply
      | .ok c => do
          match ← ask (.findProblem c) with
          | some p => return documentReply p.toJson?
          | none =>
              return (RequestError.notFound ("no problem recorded for " ++ c.display)).reply

def showCounts : Task Reply := do
  return ⟨200, some "text/plain; version=0.0.4; charset=utf-8", none,
    (← ask .readCounts).text.toUTF8⟩

def versionLines (versions : List String) : String :=
  let body := "\n".intercalate versions
  if body = "" then "" else body ++ "\n"

/-- Removes a module, from the index first: it is no longer listed before its archive is
gone. -/
def removeModule (c : Coordinate) : Task (Except RequestError Unit) := do
  match ← ask (.removeRow c) with
  | .error e => return .error (.index e)
  | .ok _ => return (← ask (.deleteArchive c)).mapError .storage

def serveModule (method : String) (path : ModulePath) : Task Reply :=
  match method, path with
  | "GET", .list source => do
      return replyOf (fun versions => .text 200 (versionLines versions))
        ((← ask (.listVersions source)).mapError .index)
  | "GET", .info c => do
      return replyOf (fun info => documentReply info.toJson?)
        ((← ask (.findInfo c)).mapError .index)
  | "GET", .manifest c => do
      return replyOf (.text 200) ((← ask (.findManifest c)).mapError .index)
  | "GET", .archive c => do
      return replyOf (fun data => ⟨200, some "application/zip", none, data⟩)
        ((← ask (.getArchive c)).mapError .storage)
  | "GET", .version c =>
      return (RequestError.notFound ("no such resource for " ++ c.display)).reply
  | "DELETE", .version c => do
      return replyOf (fun _ => .bare 204) (← removeModule c)
  | _, _ => return .bare 405

/-- Serves a path that is not one of the fixed ones. -/
def serveOther (method path : String) : Task Reply :=
  match ModulePath.parse path with
  | .error e => return (RequestError.domain e).reply
  | .ok none => return .text 404 "Not Found"
  | .ok (some named) => serveModule method named

def problemPath? (path : String) : Option (List Char) :=
  match "/v1/problems/".toList.isPrefixOf? path.toList with
  | some (c :: rest) => some (c :: rest)
  | _ => none

def handle (showsCounts : Bool) (r : Incoming) : Task Reply :=
  match r.path with
  | "/v1/health" => Http.dispatch [("GET", health)] r.method
  | "/v1/summary" => Http.dispatch [("GET", showSummary)] r.method
  | "/v1/problems" => Http.dispatch [("GET", showProblems)] r.method
  | path =>
      if showsCounts && path = "/metrics" then Http.dispatch [("GET", showCounts)] r.method
      else
        match problemPath? path with
        | some rest => Http.dispatch [("GET", showProblem rest)] r.method
        | none => serveOther r.method path

def serve (showsCounts : Bool) (r : Incoming) : Task Reply := do
  return (← handle showsCounts r).sentFor r.method

end ModuleDepot.Proxy
