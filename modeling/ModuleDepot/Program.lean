import ModuleDepot.Json.Value

/-!
The two programs, the proxy and the registry, and what they say about themselves.
-/

namespace ModuleDepot

def programVersion : String := "0.1.0"

def healthDocument : Json.Value :=
  .record [("status", .string "ok"), ("version", .string programVersion)]

inductive Program where
  | proxy
  | registry
deriving DecidableEq

namespace Program

def name : Program → String
  | proxy => "modproxd"
  | registry => "modprox-registryd"

def summary : Program → String
  | proxy => "modprox - a module proxy kept in step with a registry"
  | registry => "modprox registry - assigns serial IDs to module coordinates"

def pathVariable : Program → String
  | proxy => "MODPROX_CONFIG"
  | registry => "MODPROX_REGISTRY_CONFIG"

def standardPath : Program → String
  | proxy => "config/proxy.toml"
  | registry => "config/registry.toml"

/-- How the names of the variables begin that hold settings. -/
def variableHead : Program → String
  | proxy => "MODPROX_"
  | registry => "MODPROX_REGISTRY_"

/-- The program of a name, which is the proxy unless it is the registry's. -/
def ofName (name : String) : Program :=
  if name = registry.name then registry else proxy

end Program

end ModuleDepot
