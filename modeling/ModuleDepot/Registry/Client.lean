import ModuleDepot.Http.Exchange
import ModuleDepot.Json.Writer
import ModuleDepot.Wire

/-!
The registry as a proxy sees it: a list of instances, of which the first that
gives a JSON answer is believed. What the answer means is looked at afterwards.
-/

namespace ModuleDepot

open Http (Online)
open Json (Value)

inductive RegistryError where
  | noInstances
  | transfer (e : Http.TransferError)
  | status (url : String) (code : Nat)
  | notUnderstood
deriving DecidableEq

def RegistryError.message : RegistryError → String
  | noInstances => "no registry instances configured"
  | transfer e => "registry request failed: " ++ e.message
  | status url code => url ++ " returned HTTP " ++ toString code
  | notUnderstood => "invalid registry response: not the expected document"

/-- The instances of a registry, in the order in which they are asked. -/
structure RegistryInstances where
  addresses : List String
deriving DecidableEq

namespace RegistryInstances

/-- Where a registry answers which coordinates are missing. -/
def questionPath : String := "/v1/registry/sources/list"

/-- Instances from addresses that may end in slashes. -/
def ofAddresses (addresses : List String) : RegistryInstances :=
  ⟨addresses.map fun a => String.ofList (Text.dropTrailing '/' a.toList)⟩

def askOne (address path : String) (body : Value) : Online (Except RegistryError Value) := do
  let url := address ++ path
  match ← Http.send "POST" url [] (Json.write body) with
  | .error e => return .error (.transfer e)
  | .ok response =>
      if !Http.isSuccess response.status then return .error (.status url response.status)
      else
        match (String.fromUTF8? response.body).bind Json.readStorable? with
        | some value => return .ok value
        | none => return .error .notUnderstood

/-- Asks instances in order until one answers; `last` is the fault of the one before. -/
def askFrom (path : String) (body : Value) (last : RegistryError) :
    List String → Online (Except RegistryError Value)
  | [] => return .error last
  | address :: rest => do
      match ← askOne address path body with
      | .ok value => return .ok value
      | .error e => askFrom path body e rest

/-- Asks the instances in order until one answers. -/
def ask (instances : RegistryInstances) (path : String) (body : Value) :
    Online (Except RegistryError Value) :=
  askFrom path body .noInstances instances.addresses

def needed (instances : RegistryInstances) (held : SerialRanges) :
    Online (Except RegistryError (List SerialCoordinate)) := do
  match ← instances.ask questionPath held.toQuestion with
  | .error e => return .error e
  | .ok value =>
      match serialsOfJson (value) with
      | .ok serials => return .ok serials
      | .error _ => return .error .notUnderstood

end RegistryInstances

end ModuleDepot
