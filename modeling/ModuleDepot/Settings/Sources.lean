import ModuleDepot.Settings.Document
import ModuleDepot.Settings.Environment
import ModuleDepot.Toml.Reader

/-!
Where settings come from: a file, if there is one, and variables, which count over
the file. Settings with a fault are not used.
-/

namespace ModuleDepot.Settings

open Json (Value Decoded)

inductive SourceFault where
  | unreadable
  | fault (e : Fault)
deriving DecidableEq

/-- The document that the file and the variables make up. -/
def document? (file : Option ByteArray) (head : String) (environment : List (String × String)) :
    Option Value := do
  let base ← match file with
    | none => some (.object [])
    | some data => (String.fromUTF8? data).bind Toml.read?
  return overlay base (← layerOf? head environment)

def ofSources {α : Type} (read : Value → Decoded α) (fault? : α → Option Fault)
    (document : Option Value) : Except SourceFault α :=
  match document.map read with
  | some (.ok settings) =>
      match fault? settings with
      | none => .ok settings
      | some e => .error (.fault e)
  | _ => .error .unreadable

def Proxy.ofSources (document : Option Value) : Except SourceFault Proxy :=
  Settings.ofSources Proxy.ofJson Proxy.fault? document

def Registry.ofSources (document : Option Value) : Except SourceFault Registry :=
  Settings.ofSources Registry.ofJson Registry.fault? document

end ModuleDepot.Settings
