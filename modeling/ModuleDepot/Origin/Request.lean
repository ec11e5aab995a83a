import ModuleDepot.Coordinate

/-!
Requests for archives from where modules are kept: a host, a place on it, and
what to send along. A request starts out from a coordinate and is then shaped
step by step; only a step that knows the host's paths sets `path`.
-/

namespace ModuleDepot

/-- What it takes to fetch one archive. Headers are in ascending order of their names. -/
structure FetchRequest where
  transport : String
  domain : String
  segments : List String
  version : String
  path : String
  headers : List (String × String)
deriving DecidableEq

namespace FetchRequest

/-- The request that a coordinate stands for before any step. -/
def ofCoordinate (c : Coordinate) : FetchRequest :=
  let parts := (c.source.toList.splitOn '/').map String.ofList
  { transport := "https"
    domain := parts.headD ""
    segments := parts.tail
    version := c.version
    path := ""
    headers := [] }

def url (r : FetchRequest) : String :=
  r.transport ++ "://" ++ r.domain ++ "/" ++ String.ofList (Text.dropLeading '/' r.path.toList)

/-- The address of the page that may tell where a module is really kept. -/
def discoveryUrl (r : FetchRequest) : String :=
  let place := if r.segments.isEmpty then "" else "/" ++ "/".intercalate r.segments
  r.transport ++ "://" ++ r.domain ++ place ++ "?go-get=1"

end FetchRequest

end ModuleDepot
