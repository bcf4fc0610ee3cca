import RunLedger.Cli.Arguments
import RunLedger.Cli.Help
import RunLedger.Config.Document
import RunLedger.Config.Environment
import RunLedger.Store.Error

/-!
# Running a command line

A command line is run on a host, which keeps files and an environment. The configuration is loaded
before anything else. A command that works on the store needs the address of the database, and one
that asks the engine needs the engine's address before that; each begins by connecting to the
database, and from here no database can be reached.
-/

namespace RunLedger.Cli

/-- Why a file cannot be read. -/
inductive ReadFailure where
  | absent
  | other (reason : String)
deriving DecidableEq, Repr, Inhabited

def ReadFailure.message : ReadFailure → String
  | absent => "No such file or directory (os error 2)"
  | other reason => reason

/-- What a command line finds around it. -/
structure Host (m : Type → Type) where
  /-- The text of a file. -/
  file : String → m (Except ReadFailure String)
  /-- The value of a variable of the environment. -/
  value : String → m (Option String)
  /-- Why the database at an address cannot be reached. -/
  unreachable : String → m StoreError

/-- Why a command failed. -/
inductive Failure where
  | config (e : ConfigError)
  | store (e : StoreError)
deriving DecidableEq, Repr, Inhabited

def Failure.message : Failure → String
  | config e => e.message
  | store e => e.message

/-- What comes of a command line. -/
inductive Outcome where
  /-- A text to show. -/
  | shown (text : String)
  | failed (reason : Failure)
  | misused
deriving DecidableEq, Repr, Inhabited

namespace Outcome

def exitCode : Outcome → Nat
  | shown _ => 0
  | failed _ => 1
  | misused => 2

/-- What is written to the standard output. -/
def output : Outcome → String
  | shown text => text
  | _ => ""

/-- What is written to the standard error output. -/
def errors : Outcome → String
  | shown _ => ""
  | failed reason => "error: " ++ reason.message ++ "\n"
  | misused => misuseText

end Outcome

/-- What a command needs of its configuration. -/
inductive Need where
  | nothing
  /-- The database at an address. -/
  | database (address : String)
  /-- The engine behind a connection, and the database at an address. -/
  | engine (connection : Graphql.Connection) (address : String)
deriving DecidableEq, Repr, Inhabited

/-- What a command needs, or the first of it that a configuration lacks. -/
def Command.need (config : Config) : Command → Except ConfigError Need
  | .config => pure .nothing
  | .migrate => .database <$> config.databaseAddress
  | _ => do
    let connection ← config.connection
    let address ← config.databaseAddress
    pure (.engine connection address)

/-- The configuration file that is read when no other is named, if it is there. -/
def defaultConfigFile : String := "runsync.toml"

/-- The configuration that a file gives. -/
def parseConfig (path text : String) : Except ConfigError Config :=
  match Config.read? text with
  | some config => .ok config
  | none => .error (.malformed path "not a configuration")

section Run

variable {m : Type → Type} [Monad m]

/-- The configuration of the file that is named, or of the default file. -/
def readConfig (h : Host m) : Option String → m (Except ConfigError Config)
  | some path => do
    match ← h.file path with
    | .ok text => pure (parseConfig path text)
    | .error failure => pure (.error (.unreadable path failure.message))
  | none => do
    match ← h.file defaultConfigFile with
    | .ok text => pure (parseConfig defaultConfigFile text)
    | .error .absent => pure (.ok {})
    | .error failure => pure (.error (.unreadable defaultConfigFile failure.message))

/-- The variables of the environment that settings can be given by. -/
def environment (h : Host m) : m Config.Environment := do
  let values ← Config.variableNames.mapM fun name => (name, ·) <$> h.value name
  pure fun name => (values.lookup name).join

/-- A configuration without faults. -/
def checked (config : Config) : Except ConfigError Config :=
  match config.fault? with
  | some fault => .error fault
  | none => .ok config

/-- The configuration of a file with what the environment overrides. -/
def loadConfig (h : Host m) (path : Option String) : m (Except ConfigError Config) := do
  let written ← readConfig h path
  let env ← environment h
  pure do
    let config ← (← written).override env
    checked config

/-- Runs a command. -/
def Invocation.run (h : Host m) (i : Invocation) : m Outcome := do
  match ← loadConfig h i.configPath with
  | .error e => pure (.failed (.config e))
  | .ok config =>
    match i.command.need config with
    | .error e => pure (.failed (.config e))
    | .ok .nothing => pure (.shown (config.redacted.toJson.pretty ++ "\n"))
    | .ok (.database address) => .failed <$> .store <$> h.unreachable address
    | .ok (.engine _ address) => .failed <$> .store <$> h.unreachable address

/-- Runs a command line. -/
def run (h : Host m) (arguments : List String) : m Outcome :=
  match Invocation.ofArguments arguments with
  | .ok invocation => invocation.run h
  | .error .misuse => pure .misused
  | .error (.help topic) => pure (.shown (helpText topic))
  | .error .version => pure (.shown versionText)

end Run

end RunLedger.Cli
