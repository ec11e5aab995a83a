import ModuleDepot.CommandLine
import ModuleDepot.Database
import ModuleDepot.Http.SocketAddress
import ModuleDepot.Origin.OpenProxy
import ModuleDepot.Settings.Sources
import ModuleDepot.Storage.FileStore

/-!
Launching a program, up to the point where it would listen: it reads its command line
and its settings, opens what it keeps, and reads the address to listen at. What was
made on the way stays when a later step fails.
-/

namespace ModuleDepot

/-- What a program finds when it is called: files, the directory it is in, and variables. -/
structure Surroundings where
  tree : FileTree
  here : List String
  environment : List (String × String)

inductive LaunchFault where
  | settings (e : Settings.SourceFault)
  | noStorage
  | unhealthyStorage
  | noIndex
  | noCatalog
  | badOpenProxy
  | badAddress
deriving DecidableEq

def LaunchFault.message : LaunchFault → String
  | settings .unreadable => "failed to load configuration"
  | settings (.fault e) => "invalid configuration: " ++ e.message
  | noStorage => "failed to initialize storage"
  | unhealthyStorage => "storage health check failed"
  | noIndex => "failed to initialize index"
  | noCatalog => "failed to initialize catalog"
  | badOpenProxy => "invalid open proxy url"
  | badAddress => "invalid bind address"

namespace Launch

abbrev Steps := ExceptT LaunchFault (StateM FileTree)

/-- One step, in which every fault is the same to the launch. -/
def step {ε α : Type} (fault : LaunchFault)
    (work : FileTree → Except ε α × FileTree) : Steps α := fun tree =>
  let (result, tree) := work tree
  (result.mapError fun _ => fault, tree)

def demand (fault : LaunchFault) (good : Bool) : Steps Unit :=
  if good then pure () else throw fault

def file? (s : Surroundings) (path : String) : Option ByteArray :=
  if path = "" then none
  else (s.tree.readFile (FileTree.stepsFrom s.here path)).toOption

def document? (s : Surroundings) (p : Program) (path : String) : Option Json.Value :=
  Settings.document? (file? s path) p.variableHead s.environment

/-- Opens the store of archives. The empty path is no directory to keep anything in. -/
def openStorage (here : List String) : Settings.Storage → Steps Unit
  | .filesystem path => do
      if path = "" then throw .unhealthyStorage
      let store ← step .noStorage (FileStore.openAt (FileTree.stepsFrom here path))
      demand .unhealthyStorage store.health.isOk

def listenAt (server : Settings.Server) : Steps Http.SocketAddress :=
  match Http.SocketAddress.read? server.bind with
  | some address => return address
  | none => throw .badAddress

/-- Launches a proxy. The open proxy matters only to the worker. -/
def proxy (here : List String) (document : Option Json.Value) : Steps Http.SocketAddress := do
  match Settings.Proxy.ofSources document with
  | .error e => throw (.settings e)
  | .ok settings =>
      openStorage here settings.storage
      let _ ← step .noIndex (Database.openIndex here settings.index)
      let openProxy := settings.fetching.openProxy
      demand .badOpenProxy <|
        !settings.worker.enabled || !openProxy.enabled || (OpenProxy.ofBase openProxy.url).isOk
      listenAt settings.server

def registry (here : List String) (document : Option Json.Value) :
    Steps Http.SocketAddress := do
  match Settings.Registry.ofSources document with
  | .error e => throw (.settings e)
  | .ok settings =>
      let _ ← step .noCatalog (Database.openCatalog here settings.catalog)
      listenAt settings.server

def start (p : Program) (here : List String) (document : Option Json.Value) :
    Steps Http.SocketAddress :=
  match p with
  | .proxy => proxy here document
  | .registry => registry here document

end Launch

/-- How a call of a program ends: its status, what it prints and complains about, and the
files it leaves. -/
structure Ending where
  status : Nat
  output : String
  complaint : String
  tree : FileTree

namespace Program

/-- The settings file of a call: the one that the command line names, else the one that the
variable names. -/
def settingsPath (p : Program) (s : Surroundings) (named : Option String) : String :=
  (named.or (s.environment.lookup p.pathVariable)).getD p.standardPath

def databasePaths : Settings.Database → List String
  | .file path _ => [path]
  | .server _ => []

/-- Where a program keeps what it keeps, according to its settings. -/
def keptAt (p : Program) (document : Option Json.Value) : List String :=
  match p with
  | proxy =>
      match Settings.Proxy.ofSources document with
      | .ok ⟨_, .filesystem path, index, _, _, _⟩ => path :: databasePaths index
      | .error _ => []
  | registry =>
      match Settings.Registry.ofSources document with
      | .ok ⟨_, catalog⟩ => databasePaths catalog
      | .error _ => []

/-- The paths that a call looks at, as far as the settings file can be read. -/
def looksAt (p : Program) (s : Surroundings) (arguments : List String) : List String :=
  match CommandLine.read arguments with
  | .ok (.run named) =>
      let path := p.settingsPath s named
      path :: p.keptAt (Launch.document? s p path)
  | _ => []

/-- Calls a program. No address can be listened at, so a launch that gets there ends with
that complaint. -/
def call (p : Program) (s : Surroundings) (arguments : List String) : Ending :=
  match CommandLine.read arguments with
  | .error e => ⟨2, "", CommandLine.complaint p e, s.tree⟩
  | .ok .help => ⟨0, CommandLine.helpText p (s.environment.lookup p.pathVariable), "", s.tree⟩
  | .ok .version => ⟨0, CommandLine.versionText p, "", s.tree⟩
  | .ok (.run named) =>
      let document := Launch.document? s p (p.settingsPath s named)
      match (Launch.start p s.here document).run s.tree with
      | (.error e, tree) => ⟨1, "", "Error: " ++ e.message ++ "\n", tree⟩
      | (.ok address, tree) =>
          ⟨1, "", "Error: failed to bind to " ++ address.display ++ "\n", tree⟩

end Program

end ModuleDepot
