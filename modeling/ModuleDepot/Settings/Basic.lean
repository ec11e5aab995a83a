import ModuleDepot.Origin.Transform
import ModuleDepot.Text.Quoted

/-!
The settings of a proxy and of a registry: their values when nothing is said,
and what has to hold of them before a program starts.
-/

namespace ModuleDepot.Settings

structure Server where
  bind : String
  metricsEnabled : Bool
deriving DecidableEq

def proxyBind : String := "127.0.0.1:9000"

def registryBind : String := "127.0.0.1:9100"

def Server.standard : Server := ⟨proxyBind, true⟩

inductive Storage where
  | filesystem (path : String)
deriving DecidableEq

def Storage.standard : Storage := .filesystem "./data/zips"

inductive Encryption where
  | disable
  | prefer
  | require
deriving DecidableEq

/-- How to reach a database server: by one address, or by its parts. -/
structure ServerDatabase where
  url : Option String
  host : Option String
  portNumber : Option Nat
  username : Option String
  password : Option String
  database : Option String
  encryption : Option Encryption
  maxConnections : Nat
  statementTimeoutMs : Option Nat
deriving DecidableEq

inductive Database where
  | file (path : String) (queryTimeoutSecs : Option Nat)
  | server (settings : ServerDatabase)
deriving DecidableEq

def Database.ofPath (path : String) : Database := .file path (some 60)

inductive Fault where
  | noConnections
  | noServer
  | noDatabaseName
  | noInstances
  | noFetchTimeout
  | unknownTransport (transport domain : String)
  | noInterval
deriving DecidableEq

def Fault.message : Fault → String
  | noConnections => "postgres max_connections must be at least 1"
  | noServer => "postgres config requires either 'url' or 'host' + 'database'"
  | noDatabaseName => "postgres config requires 'database' when using individual fields"
  | noInstances => "registry.instances must name at least one registry"
  | noFetchTimeout => "upstream.timeout_secs cannot be 0"
  | unknownTransport transport domain =>
      "unsupported transport " ++ Text.quoted transport ++ " configured for " ++ domain
  | noInterval => "worker.interval_secs cannot be 0. Use a value >= 1 second."

/-- A database server needs a connection, and an address or a host with a database. -/
def Database.fault? : Database → Option Fault
  | .file _ _ => none
  | .server s =>
      if s.maxConnections = 0 then some .noConnections
      else
        match s.url, s.host, s.database with
        | some _, _, _ => none
        | none, some _, some _ => none
        | none, none, _ => some .noServer
        | none, some _, none => some .noDatabaseName

structure RegistryAccess where
  instances : List String
  timeoutSecs : Nat
deriving DecidableEq

def RegistryAccess.standard : RegistryAccess := ⟨["http://127.0.0.1:9100"], 30⟩

def RegistryAccess.fault? (r : RegistryAccess) : Option Fault :=
  if r.instances.isEmpty then some .noInstances else none

structure OpenProxy where
  enabled : Bool
  url : String
deriving DecidableEq

def OpenProxy.standard : OpenProxy := ⟨true, "https://proxy.golang.org"⟩

structure Fetching where
  timeoutSecs : Nat
  transforms : List Transform
  openProxy : OpenProxy
deriving DecidableEq

/-- The steps of the resolution when nothing is said. -/
def standardTransforms : List Transform := [.discover .selective [], .path none]

def Fetching.standard : Fetching := ⟨60, standardTransforms, .standard⟩

def transports : List String := ["http", "https"]

/-- The first step that names another transport. -/
def strangeTransport? : List Transform → Option Fault
  | [] => none
  | .transport domain transport :: rest =>
      if transports.contains transport then strangeTransport? rest
      else some (.unknownTransport transport domain)
  | _ :: rest => strangeTransport? rest

def Fetching.fault? (f : Fetching) : Option Fault :=
  if f.timeoutSecs = 0 then some .noFetchTimeout else strangeTransport? f.transforms

structure Worker where
  enabled : Bool
  intervalSecs : Nat
deriving DecidableEq

def Worker.standard : Worker := ⟨true, 30⟩

def Worker.fault? (w : Worker) : Option Fault :=
  if w.enabled && w.intervalSecs = 0 then some .noInterval else none

structure Proxy where
  server : Server
  storage : Storage
  index : Database
  registry : RegistryAccess
  fetching : Fetching
  worker : Worker
deriving DecidableEq

def Proxy.standard : Proxy :=
  ⟨.standard, .standard, .ofPath "./data/index.db", .standard, .standard, .standard⟩

def Proxy.withoutWorker : Proxy := { Proxy.standard with worker := ⟨false, 30⟩ }

def Proxy.fault? (p : Proxy) : Option Fault :=
  p.index.fault?.or <| p.registry.fault?.or <| p.fetching.fault?.or p.worker.fault?

structure Registry where
  server : Server
  catalog : Database
deriving DecidableEq

def Registry.standard : Registry := ⟨⟨registryBind, true⟩, .ofPath "./data/registry.db"⟩

def Registry.fault? (r : Registry) : Option Fault := r.catalog.fault?

end ModuleDepot.Settings
