import ModuleDepot.Text.Split
import ModuleDepot.Url.Host
import ModuleDepot.Width

/-!
Addresses to listen at: a numeric address, which stands in brackets if it has eight
groups, and a number behind the last colon. Names are no such addresses.
-/

namespace ModuleDepot.Http

/-- An address to listen at. The scope of eight groups tells an interface. -/
inductive SocketAddress where
  | v4 (address : Nat) (number : Nat)
  | v6 (groups : List Nat) (scope : Nat) (number : Nat)
deriving DecidableEq

namespace SocketAddress

/-- A decimal number below `limit`, in which zeros may stand in front. -/
def number? (limit : Nat) (digits : List Char) : Option Nat := do
  if digits.isEmpty then none
  let n ← Text.numberIn? 10 digits
  if n < limit then some n else none

def behindColon? : List Char → Option Nat
  | ':' :: digits => number? Width.count16 digits
  | _ => none

def bytes? (text : List Char) : Option Nat := do
  match ← (text.splitOn '.').mapM Url.Host.byte? with
  | [a, b, c, d] => return ((a * 256 + b) * 256 + c) * 256 + d
  | _ => none

def read? (text : String) : Option SocketAddress :=
  match text.toList with
  | '[' :: rest => do
      let (inner, after) ← Text.cutFirst ']' rest
      let n ← behindColon? after
      match Text.cutFirst '%' inner with
      | none => return .v6 (← Url.Host.ipv6? inner) 0 n
      | some (groups, scope) =>
          return .v6 (← Url.Host.ipv6? groups) (← number? Width.count32 scope) n
  | chars => do
      let (address, digits) ← Text.cutFirst ':' chars
      return .v4 (← bytes? address) (← number? Width.count16 digits)

/-- The written form of eight groups. Those that stand for an address of four bytes end in
its written form. -/
def groupsText (groups : List Nat) : List Char :=
  match groups with
  | [0, 0, 0, 0, 0, 0xffff, high, low] =>
      "::ffff:".toList ++ Url.Host.ipv4Text (high * 65536 + low)
  | groups => Url.Host.ipv6Text groups

def display : SocketAddress → String
  | v4 address n => String.ofList (Url.Host.ipv4Text address) ++ ":" ++ toString n
  | v6 groups scope n =>
      "[" ++ String.ofList (groupsText groups) ++
        (if scope = 0 then "" else "%" ++ toString scope) ++ "]:" ++ toString n

end SocketAddress

end ModuleDepot.Http
