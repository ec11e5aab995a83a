import ModuleDepot.Fault
import ModuleDepot.Http.Exchange
import ModuleDepot.Origin.Page
import ModuleDepot.Origin.Template
import ModuleDepot.Origin.Transform

/-!
Resolution: the steps of a list are taken in order, each from where the last one
left the request. Only a discovery step uses the network.

Whether a module is public is told by the significant steps alone: they must
leave its first request as it is.
-/

namespace ModuleDepot

open Http (Online)

inductive OriginError where
  | noTemplate (domain : String)
  | discovery (domain reason : String)
  | emptyPath (domain : String)
  | unsupportedTransport (transport : String)
  | status (url : String) (code : Nat)
  | transfer (e : Http.TransferError)
  | badAddress (text : String) (reason : Url.UrlError)
  | domainFault (e : Fault)
deriving DecidableEq

def OriginError.message : OriginError → String
  | noTemplate domain => "no path template configured for domain " ++ domain
  | discovery domain reason => "go-get discovery failed for " ++ domain ++ ": " ++ reason
  | emptyPath domain => "fetch request for " ++ domain ++ " has no path"
  | unsupportedTransport transport => "unsupported transport: " ++ transport
  | status url code => url ++ " returned HTTP " ++ toString code
  | transfer e => "http error: " ++ e.message
  | badAddress text reason => "invalid url: " ++ text ++ ": " ++ reason.message
  | domainFault e => e.message

/-- Domains that are always asked for the place of a module. -/
def knownDomains : List String :=
  ["cloud.google.com", "go.etcd.io", "go.opencensus.io", "go.opentelemetry.io", "go.uber.org",
   "gocloud.dev", "golang.org", "gonum.org", "google.golang.org", "gopkg.in", "gotest.tools",
   "honnef.co", "k8s.io", "mvdan.cc", "sigs.k8s.io"]

def DiscoveryMode.asks (mode : DiscoveryMode) (domains : List String) (domain : String) : Bool :=
  match mode with
  | .automatic => true
  | .selective => domains.contains domain || knownDomains.contains domain

namespace FetchRequest

/-- Moves a request to a place. Version and headers stay, and the path is forgotten. -/
def moveTo (r : FetchRequest) (place : Page.Place) : FetchRequest :=
  { r with
    transport := place.transport
    domain := place.domain
    segments := place.segments
    path := "" }

def discover (r : FetchRequest) : Online (Except OriginError FetchRequest) := do
  match ← Http.send "GET" r.discoveryUrl [] "" with
  | .error e => return .error (.discovery r.domain e.message)
  | .ok response =>
      if !Http.isSuccess response.status then
        return .error (.discovery r.domain
          (r.discoveryUrl ++ " returned HTTP " ++ Http.statusText response.status))
      else
        match Page.place (Bytes.lossyText response.body) with
        | .error e => return .error (.discovery r.domain e.message)
        | .ok place => return .ok (r.moveTo place)

/-- Adds a header unless there is one of that name. -/
def addHeader (headers : Texts) (entry : String × String) : Texts :=
  if (headers.lookup entry.1).isSome then headers
  else Json.insertEntry entry.1 entry.2 headers

end FetchRequest

namespace Transform

/-- A step without the network: redirects, headers and transports act on one domain only;
the other steps do nothing here. -/
def policy (t : Transform) (r : FetchRequest) : FetchRequest :=
  match t with
  | redirect domain target => if r.domain = domain then { r with domain := target } else r
  | headers domain entries =>
      if r.domain = domain then
        { r with headers := entries.foldl FetchRequest.addHeader r.headers }
      else r
  | transport domain name =>
      if r.domain = domain then { r with transport := name } else r
  | discover _ _ => r
  | path _ => r

def apply (t : Transform) (r : FetchRequest) : Online (Except OriginError FetchRequest) :=
  match t with
  | discover mode domains =>
      if !mode.asks domains r.domain then return .ok r
      else do
        match ← r.discover, mode with
        | .ok next, _ => return .ok next
        | .error e, .selective => return .error e
        | .error _, .automatic => return .ok r
  | path templates =>
      match r.shape? templates with
      | some next => return .ok next
      | none => return .error (.noTemplate r.domain)
  | t => return .ok (t.policy r)

end Transform

/-- Takes steps in order until one fails. -/
def FetchRequest.follow : List Transform → FetchRequest → Online (Except OriginError FetchRequest)
  | [], r => return .ok r
  | t :: rest, r => do
      match ← t.apply r with
      | .ok next => follow rest next
      | .error e => return .error e

/-- The request by which a coordinate's archive is fetched. -/
def resolve (transforms : List Transform) (c : Coordinate) :
    Online (Except OriginError FetchRequest) :=
  FetchRequest.follow transforms (.ofCoordinate c)

/-- Whether a coordinate may be fetched from an open proxy: no significant step changes its
first request. -/
def isPublic (transforms : List Transform) (c : Coordinate) : Bool :=
  let first := FetchRequest.ofCoordinate c
  (transforms.filter Transform.isPolicySignificant).foldl (fun r t => t.policy r) first = first

/-! ## Fetching -/

def clientTransports : List String := ["http", "https"]

def FetchRequest.fetch (r : FetchRequest) : Online (Except OriginError ByteArray) :=
  if r.path = "" then return .error (.emptyPath r.domain)
  else do
    match ← Http.send "GET" r.url r.headers "" with
    | .error e => return .error (.transfer e)
    | .ok response =>
        if Http.isSuccess response.status then return .ok response.body
        else return .error (.status r.url response.status)

def FetchRequest.fetchOver (transports : List String) (r : FetchRequest) :
    Online (Except OriginError ByteArray) :=
  if transports.contains r.transport then r.fetch
  else return .error (.unsupportedTransport r.transport)

end ModuleDepot
