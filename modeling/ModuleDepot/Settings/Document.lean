import ModuleDepot.Json.Decode
import ModuleDepot.Settings.Basic

/-!
Settings as documents. Whatever is left out has its usual value; unknown names
are ignored. `depth` is how many containers already stand around a part, which
limits how deep tagged parts may nest.
-/

namespace ModuleDepot.Settings

open Json (Value Decoded Fields)

/-- The room that is left inside `depth` containers. -/
def roomIn (depth : Nat) : Nat := Json.nestingLimit - depth

def natOrNull (n : Option Nat) : Value := Value.orNull (fun n => .int n) n

def textOrNull (s : Option String) : Value := Value.orNull .string s

def textsToJson (entries : List (String × String)) : Value :=
  .record (entries.map fun (name, text) => (name, .string text))

def Server.ofJson (v : Value) : Decoded Server :=
  Fields.read ["bind", "metrics_enabled"] v fun fields => do
    return ⟨← fields.orElse "bind" proxyBind Json.decodeString,
      ← fields.orElse "metrics_enabled" true Json.decodeBool⟩

def Server.toJson (s : Server) : Value :=
  .record [("bind", .string s.bind), ("metrics_enabled", .bool s.metricsEnabled)]

def Storage.ofJson (depth : Nat) (v : Value) : Decoded Storage := do
  let (tag, rest) ← Json.splitTag (roomIn (depth + 1)) v
  match tag with
  | "filesystem" =>
      Fields.read ["path"] rest fun fields => do
        return .filesystem (← fields.need "path" Json.decodeString)
  | _ => throw .shape

def Storage.toJson : Storage → Value
  | .filesystem path => .record [("type", .string "filesystem"), ("path", .string path)]

/-- The spellings of the ways to encrypt a connection. -/
def Encryption.spellings : List (String × Encryption) :=
  [("disable", .disable), ("prefer", .prefer), ("require", .require)]

def Encryption.spelling : Encryption → String
  | .disable => "disable"
  | .prefer => "prefer"
  | .require => "require"

def ServerDatabase.ofJson (v : Value) : Decoded ServerDatabase :=
  Fields.read ["url", "host", "port", "username", "password", "database",
    "ssl_mode", "max_connections", "statement_timeout_ms"] v fun fields => do
    return {
      url := ← fields.maybe "url" Json.decodeString
      host := ← fields.maybe "host" Json.decodeString
      portNumber := ← fields.orElse "port" (some 5432)
        (Json.decodeOption (Json.decodeNat Width.count16))
      username := ← fields.maybe "username" Json.decodeString
      password := ← fields.maybe "password" Json.decodeString
      database := ← fields.maybe "database" Json.decodeString
      encryption := ← fields.maybe "ssl_mode" (Json.decodeChoice Encryption.spellings)
      maxConnections := ← fields.orElse "max_connections" 10 (Json.decodeNat Width.count32)
      statementTimeoutMs := ← fields.orElse "statement_timeout_ms" (some 30000)
        (Json.decodeOption (Json.decodeNat Width.count64)) }

def Database.ofJson (depth : Nat) (v : Value) : Decoded Database := do
  let (tag, rest) ← Json.splitTag (roomIn (depth + 1)) v
  match tag with
  | "sqlite" =>
      Fields.read ["path", "query_timeout_secs"] rest fun fields => do
        return .file (← fields.need "path" Json.decodeString)
          (← fields.orElse "query_timeout_secs" (some 60)
            (Json.decodeOption (Json.decodeNat Width.count64)))
  | "postgres" => return .server (← ServerDatabase.ofJson rest)
  | _ => throw .shape

def Database.toJson : Database → Value
  | .file path timeout =>
      .record [("type", .string "sqlite"), ("path", .string path),
        ("query_timeout_secs", natOrNull timeout)]
  | .server s =>
      .record [("type", .string "postgres"), ("url", textOrNull s.url),
        ("host", textOrNull s.host), ("port", natOrNull s.portNumber),
        ("username", textOrNull s.username), ("password", textOrNull s.password),
        ("database", textOrNull s.database),
        ("ssl_mode", textOrNull (s.encryption.map Encryption.spelling)),
        ("max_connections", .int s.maxConnections),
        ("statement_timeout_ms", natOrNull s.statementTimeoutMs)]

def RegistryAccess.ofJson (v : Value) : Decoded RegistryAccess :=
  Fields.read ["instances", "timeout_secs"] v fun fields => do
    return ⟨← fields.orElse "instances" RegistryAccess.standard.instances
        (Json.decodeList Json.decodeString),
      ← fields.orElse "timeout_secs" RegistryAccess.standard.timeoutSecs
        (Json.decodeNat Width.count64)⟩

def RegistryAccess.toJson (r : RegistryAccess) : Value :=
  .record [("instances", Value.strings r.instances), ("timeout_secs", .int r.timeoutSecs)]

/-- The spellings of the discovery modes. -/
def modeSpellings : List (String × DiscoveryMode) :=
  [("selective", .selective), ("automatic", .automatic)]

def modeSpelling : DiscoveryMode → String
  | .selective => "selective"
  | .automatic => "automatic"

def transformOfJson (depth : Nat) (v : Value) : Decoded Transform := do
  let (tag, rest) ← Json.splitTag (roomIn (depth + 1)) v
  match tag with
  | "static_redirect" =>
      Fields.read ["original", "substitution"] rest fun fields => do
        return .redirect (← fields.need "original" Json.decodeString)
          (← fields.need "substitution" Json.decodeString)
  | "go_get" =>
      Fields.read ["mode", "domains"] rest fun fields => do
        return .discover (← fields.orElse "mode" .selective (Json.decodeChoice modeSpellings))
          (← fields.orElse "domains" [] (Json.decodeList Json.decodeString))
  | "path" =>
      Fields.read ["templates"] rest fun fields => do
        return .path (← fields.orElse "templates" none (Json.decodeOption Json.decodeTexts))
  | "headers" =>
      Fields.read ["domain", "headers"] rest fun fields => do
        return .headers (← fields.need "domain" Json.decodeString)
          (← fields.need "headers" Json.decodeTexts)
  | "transport" =>
      Fields.read ["domain", "transport"] rest fun fields => do
        return .transport (← fields.need "domain" Json.decodeString)
          (← fields.need "transport" Json.decodeString)
  | _ => throw .shape

def transformTag : Transform → String
  | .redirect _ _ => "static_redirect"
  | .discover _ _ => "go_get"
  | .path _ => "path"
  | .headers _ _ => "headers"
  | .transport _ _ => "transport"

def transformToJson (t : Transform) : Value :=
  .record (("type", .string (transformTag t)) :: match t with
    | .redirect domain target => [("original", .string domain), ("substitution", .string target)]
    | .discover mode domains =>
        [("mode", .string (modeSpelling mode)), ("domains", Value.strings domains)]
    | .path templates => [("templates", Value.orNull textsToJson templates)]
    | .headers domain entries => [("domain", .string domain), ("headers", textsToJson entries)]
    | .transport domain transport =>
        [("domain", .string domain), ("transport", .string transport)])

def OpenProxy.ofJson (v : Value) : Decoded OpenProxy :=
  Fields.read ["enabled", "url"] v fun fields => do
    return ⟨← fields.orElse "enabled" OpenProxy.standard.enabled Json.decodeBool,
      ← fields.orElse "url" OpenProxy.standard.url Json.decodeString⟩

def OpenProxy.toJson (o : OpenProxy) : Value :=
  .record [("enabled", .bool o.enabled), ("url", .string o.url)]

def Fetching.ofJson (depth : Nat) (v : Value) : Decoded Fetching :=
  Fields.read ["timeout_secs", "transforms", "open_proxy"] v fun fields => do
    return ⟨← fields.orElse "timeout_secs" Fetching.standard.timeoutSecs
        (Json.decodeNat Width.count64),
      ← fields.orElse "transforms" standardTransforms
        (Json.decodeList (transformOfJson (depth + 2))),
      ← fields.orElse "open_proxy" .standard OpenProxy.ofJson⟩

def Fetching.toJson (f : Fetching) : Value :=
  .record [("timeout_secs", .int f.timeoutSecs),
    ("transforms", .array (f.transforms.map transformToJson)),
    ("open_proxy", f.openProxy.toJson)]

def Worker.ofJson (v : Value) : Decoded Worker :=
  Fields.read ["enabled", "interval_secs"] v fun fields => do
    return ⟨← fields.orElse "enabled" Worker.standard.enabled Json.decodeBool,
      ← fields.orElse "interval_secs" Worker.standard.intervalSecs (Json.decodeNat Width.count64)⟩

def Worker.toJson (w : Worker) : Value :=
  .record [("enabled", .bool w.enabled), ("interval_secs", .int w.intervalSecs)]

def Proxy.ofJson (v : Value) : Decoded Proxy :=
  Fields.read ["server", "storage", "index", "registry", "upstream", "worker"] v fun fields => do
    return {
      server := ← fields.orElse "server" .standard Server.ofJson
      storage := ← fields.orElse "storage" .standard (Storage.ofJson 1)
      index := ← fields.orElse "index" Proxy.standard.index (Database.ofJson 1)
      registry := ← fields.orElse "registry" .standard RegistryAccess.ofJson
      fetching := ← fields.orElse "upstream" .standard (Fetching.ofJson 1)
      worker := ← fields.orElse "worker" .standard Worker.ofJson }

def Proxy.toJson (p : Proxy) : Value :=
  .record [("server", p.server.toJson), ("storage", p.storage.toJson),
    ("index", p.index.toJson), ("registry", p.registry.toJson),
    ("upstream", p.fetching.toJson), ("worker", p.worker.toJson)]

def Registry.ofJson (v : Value) : Decoded Registry :=
  Fields.read ["server", "catalog"] v fun fields => do
    return {
      server := ← fields.orElse "server" Registry.standard.server Server.ofJson
      catalog := ← fields.orElse "catalog" Registry.standard.catalog (Database.ofJson 1) }

def Registry.toJson (r : Registry) : Value :=
  .record [("server", r.server.toJson), ("catalog", r.catalog.toJson)]

end ModuleDepot.Settings
