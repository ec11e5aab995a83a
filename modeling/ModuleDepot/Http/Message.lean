import ModuleDepot.Bytes.Equality
import ModuleDepot.Json.Writer

/-!
Requests to a server and its replies, as far as the services look at them.
-/

namespace ModuleDepot.Http

/-- A request that has come in. The target is an address or a path, with a query. -/
structure Incoming where
  method : String
  target : String
  contentType : Option String
  body : String
deriving DecidableEq

structure Reply where
  status : Nat
  contentType : Option String
  allow : Option String
  body : ByteArray
deriving DecidableEq

namespace Incoming

def bareTarget (target : List Char) : List Char :=
  target.takeWhile fun c => c ≠ '?' && c ≠ '#'

/-- The path in a target. It is taken as it stands, without decoding. -/
def pathIn (target : List Char) : List Char :=
  match bareTarget target with
  | [] => ['/']
  | '/' :: rest => '/' :: rest
  | text =>
      match (List.range text.length).find? fun n => "://".toList.isPrefixOf (text.drop n) with
      | none => text
      | some n =>
          match (text.drop (n + 3)).dropWhile (· ≠ '/') with
          | [] => ['/']
          | path => path

def path (r : Incoming) : String := String.ofList (pathIn r.target.toList)

end Incoming

namespace Reply

def plainText : String := "text/plain; charset=utf-8"

def bare (status : Nat) : Reply := ⟨status, none, none, ByteArray.empty⟩

def text (status : Nat) (body : String) : Reply := ⟨status, some plainText, none, body.toUTF8⟩

def json (status : Nat) (body : Json.Value) : Reply :=
  ⟨status, some "application/json", none, (Json.write body).toUTF8⟩

def notAllowed (methods : List String) : Reply :=
  { bare 405 with allow := some (",".intercalate methods) }

/-- A reply as it goes out: without its body if only the head was asked for. -/
def sentFor (method : String) (r : Reply) : Reply :=
  if method = "HEAD" then { r with body := ByteArray.empty } else r

end Reply

/-- The methods that are served where some are handled: what can be got can also be asked for
its head alone. -/
def servedMethods (handled : List String) : List String :=
  handled.flatMap fun m => if m = "GET" then ["GET", "HEAD"] else [m]

def dispatch {m : Type → Type} [Monad m] (handlers : List (String × m Reply))
    (method : String) : m Reply :=
  match handlers.lookup method with
  | some handler => handler
  | none =>
      match method, handlers.lookup "GET" with
      | "HEAD", some handler => handler
      | _, _ => return .notAllowed (servedMethods (handlers.map Prod.fst))

end ModuleDepot.Http
