import RunLedger.Config.Basic
import RunLedger.Text.Blank
import RunLedger.Text.Digits

/-!
# Settings from the environment

Some settings can be overridden by variables of the environment. A variable that is absent or blank
overrides nothing.
-/

namespace RunLedger.Config

/-- The variables of an environment. -/
abbrev Environment := String → Option String

/-- The variables that override settings. -/
def variableNames : List String :=
  ["RUNSYNC_DATABASE_URL", "RUNSYNC_ENGINE_URL", "RUNSYNC_ENGINE_AUTH_TOKEN",
    "RUNSYNC_SYNC_INTERVAL_SECS", "RUNSYNC_PORT"]

/-- The value of a variable that is not blank. -/
def Environment.value? (env : Environment) (name : String) : Option String :=
  (env name).filter (!Text.allBlank ·)

/-- The value of a variable, which must be a number in a word between blanks, or what it
overrides. -/
def Environment.number (env : Environment) (name : String) (bits : Nat) (overridden : Nat) :
    Except ConfigError Nat :=
  match env.value? name with
  | none => .ok overridden
  | some value =>
    match Text.natural? (Text.trim value.toList) with
    | some n => if n < wordCount bits then .ok n else .error (.notANumber name value)
    | none => .error (.notANumber name value)

/-- The configuration with the settings that an environment overrides. -/
def override (c : Config) (env : Environment) : Except ConfigError Config := do
  let interval ← env.number "RUNSYNC_SYNC_INTERVAL_SECS" 64 c.sync.intervalSecs
  let port ← env.number "RUNSYNC_PORT" 16 c.server.port
  pure
    { c with
      databaseUrl := (env.value? "RUNSYNC_DATABASE_URL").or c.databaseUrl
      engine :=
        { c.engine with
          baseUrl := (env.value? "RUNSYNC_ENGINE_URL").or c.engine.baseUrl
          authToken := (env.value? "RUNSYNC_ENGINE_AUTH_TOKEN").or c.engine.authToken }
      sync := { c.sync with intervalSecs := interval }
      server := { c.server with port := port } }

end RunLedger.Config
