import ModuleDepot.Bytes.Base64
import ModuleDepot.Bytes.Equality
import ModuleDepot.Http.Status
import ModuleDepot.Procedure
import ModuleDepot.Url.Reader

/-!
Exchanges over the network: one request, and one answer or none. A request that
cannot be put together is never sent.
-/

namespace ModuleDepot.Http

/-- A request as it is sent. Header names are in lower case. -/
structure Request where
  method : String
  url : Url
  headers : List (String × String)
  body : String
deriving DecidableEq

structure Response where
  status : Nat
  body : ByteArray
deriving DecidableEq

abbrev Online := Procedure Request (fun _ => Option Response)

inductive TransferError where
  | badAddress
  | badScheme (url : String)
  | badHeader
  | noAnswer (url : String)
deriving DecidableEq

def TransferError.message : TransferError → String
  | badAddress => "builder error"
  | badScheme url => "builder error for url (" ++ url ++ ")"
  | badHeader => "builder error"
  | noAnswer url => "error sending request for url (" ++ url ++ ")"

def isTokenChar (c : Char) : Bool :=
  c.isAlphanum || "!#$%&\x27*+-.^_\x60|~".toList.contains c

def isHeaderName (name : String) : Bool :=
  name ≠ "" && name.toList.all isTokenChar && name.length < 65536

def isHeaderValue (value : String) : Bool :=
  value.toList.all fun c => c == '\t' || (0x20 ≤ c.toNat && c.toNat ≠ 0x7f)

/-- Headers with their names in lower case, unless one of them is no header. -/
def checkHeaders (headers : List (String × String)) :
    Except TransferError (List (String × String)) :=
  headers.mapM fun (name, value) =>
    if isHeaderName name && isHeaderValue value then
      .ok (String.ofList (name.toList.map Char.toLower), value)
    else .error .badHeader

def userHeader (u : Url) : List (String × String) :=
  if u.username.isEmpty && u.password.isNone then []
  else
    match Url.decode? u.username, Url.decode? (u.password.getD []) with
    | some name, some password =>
        let pair := String.ofList (name ++ [':'] ++ password)
        [("authorization", "Basic " ++ String.ofList (Bytes.base64 pair.toUTF8.toList))]
    | _, _ => []

def withoutUser (u : Url) : Url := { u with username := [], password := none }

def isReachable (u : Url) : Bool :=
  u.scheme = "http".toList || u.scheme = "https".toList

def sendTo (method : String) (u : Url) (headers : List (String × String)) (body : String) :
    Online (Except TransferError Response) :=
  let shown := (withoutUser u).display
  match checkHeaders headers with
  | .error e => return .error e
  | .ok headers =>
      if !isReachable u then return .error (.badScheme shown)
      else do
        match ← Procedure.call ⟨method, u.bare, userHeader u ++ headers, body⟩ with
        | some response => return .ok response
        | none => return .error (.noAnswer shown)

/-- Sends a request to the address that a text stands for. -/
def send (method url : String) (headers : List (String × String)) (body : String) :
    Online (Except TransferError Response) :=
  match Url.read url with
  | .error _ => return .error .badAddress
  | .ok u =>
      if u.host.isNone then return .error (.badScheme u.display)
      else sendTo method u headers body

end ModuleDepot.Http
