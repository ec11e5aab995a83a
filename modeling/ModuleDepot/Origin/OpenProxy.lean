import ModuleDepot.Origin.Resolver
import ModuleDepot.EscapedPath
import ModuleDepot.Text.Blank

/-!
Open proxies: servers that already have archives in the module layout. Their
addresses are read relative to a base that ends in a slash, so that the base's own
path is kept.
-/

namespace ModuleDepot

open Http (Online)

structure OpenProxy where
  base : Url
deriving DecidableEq

namespace OpenProxy

def ofBase (text : String) : Except OriginError OpenProxy :=
  match Url.read (String.ofList (Text.dropTrailing '/' text.toList ++ ['/'])) with
  | .ok base => .ok ⟨base⟩
  | .error e => .error (.badAddress text e)

def urlFor (p : OpenProxy) (path : String) : Except OriginError Url :=
  match p.base.join path with
  | .ok url => .ok url
  | .error e => .error (.badAddress path e)

def escaped (text : String) : Except OriginError String :=
  match EscapedPath.escape text with
  | .ok s => .ok s
  | .error e => .error (.domainFault (.escape e))

def archiveUrl (p : OpenProxy) (c : Coordinate) : Except OriginError Url := do
  let source ← escaped c.source
  let version ← escaped c.version
  p.urlFor (source ++ "/@v/" ++ version ++ ".zip")

def listUrl (p : OpenProxy) (source : String) : Except OriginError Url := do
  p.urlFor ((← escaped source) ++ "/@v/list")

def get (url : Url) : Online (Except OriginError ByteArray) := do
  match ← Http.sendTo "GET" url [] "" with
  | .error e => return .error (.transfer e)
  | .ok response =>
      if Http.isSuccess response.status then return .ok response.body
      else return .error (.status url.display response.status)

def archive (p : OpenProxy) (c : Coordinate) : Online (Except OriginError ByteArray) :=
  match p.archiveUrl c with
  | .error e => return .error e
  | .ok url => get url

/-- The lines of a text. A line feed ends a line, with the return before it; what stands behind
the last one is a line as it is, unless nothing does. -/
def lines (text : List Char) : List (List Char) :=
  let parts := text.splitOn '\n'
  let last := parts.getLast?.getD []
  parts.dropLast.map (fun line => (Text.beforeEnding? ['\r'] line).getD line) ++
    if last = [] then [] else [last]

/-- The versions in a list: one in each line that is not blank. -/
def versionsIn (text : String) : List String :=
  (((lines text.toList).map Text.trim).filter (!·.isEmpty)).map String.ofList

def list (p : OpenProxy) (source : String) : Online (Except OriginError (List String)) :=
  match p.listUrl source with
  | .error e => return .error e
  | .ok url => do
      match ← get url with
      | .error e => return .error e
      | .ok body => return .ok (versionsIn (Bytes.lossyText body))

end OpenProxy

end ModuleDepot
