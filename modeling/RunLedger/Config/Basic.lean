import RunLedger.Engine.Graphql.Client
import RunLedger.Text.Split

/-!
# Configuration

What the program is told about its database, its engine, its passes and its HTTP interface. A
configuration may lack what a command does not need, so `Config.connection` and
`Config.databaseAddress` can fail. `Config.redacted` is the configuration as it may be shown: of the
engine's token it tells only whether there is one, and nothing of the password in the address of the
database.
-/

namespace RunLedger

/-- How the engine is reached. -/
structure EngineSection where
  baseUrl : Option String := none
  authToken : Option String := none
  timeoutSecs : Nat := 30
  maxRetries : Nat := 3
  backoffBaseMs : Nat := 300
deriving DecidableEq, Repr, Inhabited

/-- When passes run and how many runs they ask for at a time. -/
structure SyncSection where
  intervalSecs : Nat := 30
  pageSize : Nat := 100
deriving DecidableEq, Repr, Inhabited

/-- Where the HTTP interface listens. -/
structure ServerSection where
  port : Nat := 8090
deriving DecidableEq, Repr, Inhabited

/-- A configuration. -/
structure Config where
  databaseUrl : Option String := none
  engine : EngineSection := {}
  sync : SyncSection := {}
  server : ServerSection := {}
deriving DecidableEq, Repr, Inhabited

/-- What is wrong with a configuration. -/
inductive ConfigError where
  /-- The file cannot be read. -/
  | unreadable (path reason : String)
  /-- The file is no configuration. -/
  | malformed (path reason : String)
  /-- A variable of the environment is no number in the range of its setting. -/
  | notANumber (name value : String)
  /-- A setting is zero that must not be. -/
  | zero (setting : String)
  /-- The address of the engine is not one of HTTP. -/
  | notHttp (url : String)
  /-- A setting that is needed is absent. -/
  | missing (setting : String)
deriving DecidableEq, Repr, Inhabited

namespace ConfigError

def message : ConfigError → String
  | unreadable path reason => "cannot read config file " ++ path ++ ": " ++ reason
  | malformed path reason => "cannot parse config file " ++ path ++ ": " ++ reason
  | notANumber name value =>
    "invalid configuration: " ++ name ++ " must be a number, got '" ++ value ++ "'"
  | zero setting => "invalid configuration: " ++ setting ++ " must be at least 1"
  | notHttp url =>
    "invalid configuration: engine.base_url must be an http(s) URL, got '" ++ url ++ "'"
  | missing setting => "\x60" ++ setting ++ "\x60 is not configured"

end ConfigError

namespace Config

/-- Whether an address is one of HTTP. -/
def isHttp (url : String) : Bool :=
  "http://".toList.isPrefixOf url.toList || "https://".toList.isPrefixOf url.toList

/-- The first fault of a configuration. -/
def fault? (c : Config) : Option ConfigError :=
  if c.sync.intervalSecs = 0 then some (.zero "sync.interval_secs")
  else if c.sync.pageSize = 0 then some (.zero "sync.page_size")
  else if c.engine.timeoutSecs = 0 then some (.zero "engine.timeout_secs")
  else
    match c.engine.baseUrl with
    | some url => if isHttp url then none else some (.notHttp url)
    | none => none

/-- The address of the database. -/
def databaseAddress (c : Config) : Except ConfigError String :=
  match c.databaseUrl with
  | some url => .ok url
  | none => .error (.missing "database_url")

/-- The connection to the engine. -/
def connection (c : Config) : Except ConfigError Graphql.Connection :=
  match c.engine.baseUrl with
  | some url => .ok
      { baseUrl := url
        authToken := c.engine.authToken
        timeout := c.engine.timeoutSecs * 1000000000
        backoff := { maxRetries := c.engine.maxRetries, base := c.engine.backoffBaseMs * 1000000 } }
  | none => .error (.missing "engine.base_url")

/-- The nanoseconds between passes. -/
def interval (c : Config) : Nat := c.sync.intervalSecs * 1000000000

/-- What is shown in place of a secret. -/
def mask : String := "***"

/-- An address with its password masked: the password lies between the first colon after the scheme
and the last at sign. -/
def maskPassword (url : String) : String :=
  match Text.splitFirst? "://".toList url.toList with
  | none => url
  | some (scheme, rest) =>
    match Text.splitLast? '@' rest with
    | none => url
    | some (userinfo, host) =>
      match Text.splitFirst? [':'] userinfo with
      | none => url
      | some (user, _) =>
        String.ofList scheme ++ "://" ++ String.ofList user ++ ":" ++ mask ++ "@" ++
          String.ofList host

/-- The configuration with its secrets masked. -/
def redacted (c : Config) : Config :=
  { c with
    databaseUrl := c.databaseUrl.map maskPassword
    engine := { c.engine with authToken := c.engine.authToken.map fun _ => mask } }

/-- The configuration as it is shown, its settings in the order of their declaration. -/
def toJson (c : Config) : Json :=
  .obj
    [("database_url", Json.ofOption .str c.databaseUrl),
     ("engine", .obj
        [("base_url", Json.ofOption .str c.engine.baseUrl),
         ("auth_token", Json.ofOption .str c.engine.authToken),
         ("timeout_secs", .ofNat c.engine.timeoutSecs),
         ("max_retries", .ofNat c.engine.maxRetries),
         ("backoff_base_ms", .ofNat c.engine.backoffBaseMs)]),
     ("sync", .obj
        [("interval_secs", .ofNat c.sync.intervalSecs), ("page_size", .ofNat c.sync.pageSize)]),
     ("server", .obj [("port", .ofNat c.server.port)])]

end Config

end RunLedger
