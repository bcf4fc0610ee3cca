import RunLedger.Config.Basic
import RunLedger.Toml.Reader

/-!
# Configuration files

A configuration is written in TOML. Every setting may be left out, and a setting that is not known
is refused. A section may also be given by position, as an array of its settings in their order;
items beyond the last setting are ignored.
-/

namespace RunLedger.Config

/-- The settings of a section with settings of these names. -/
def asSection? (names : List String) : Toml → Option Toml.Entries
  | .table _ entries => if entries.all fun e => names.contains e.1 then some entries else none
  | .arr items => some (names.zip items)
  | _ => none

/-- The value of a setting, or what it is when it is left out. -/
def setting? {α : Type} (entries : Toml.Entries) (name : String) (absent : α)
    (read : Toml → Option α) : Option α :=
  match entries.lookup name with
  | some v => read v
  | none => some absent

/-- A text that may be left out. -/
def text? (v : Toml) : Option (Option String) :=
  v.asString?.map some

/-- The engine's section. -/
def engineSection? (v : Toml) : Option EngineSection := do
  let entries ← asSection?
    ["base_url", "auth_token", "timeout_secs", "max_retries", "backoff_base_ms"] v
  let absent : EngineSection := {}
  pure
    { baseUrl := ← setting? entries "base_url" absent.baseUrl text?
      authToken := ← setting? entries "auth_token" absent.authToken text?
      timeoutSecs := ← setting? entries "timeout_secs" absent.timeoutSecs (Toml.asNat? 64)
      maxRetries := ← setting? entries "max_retries" absent.maxRetries (Toml.asNat? 32)
      backoffBaseMs := ← setting? entries "backoff_base_ms" absent.backoffBaseMs (Toml.asNat? 64) }

/-- The section of the passes. -/
def syncSection? (v : Toml) : Option SyncSection := do
  let entries ← asSection? ["interval_secs", "page_size"] v
  let absent : SyncSection := {}
  pure
    { intervalSecs := ← setting? entries "interval_secs" absent.intervalSecs (Toml.asNat? 64)
      pageSize := ← setting? entries "page_size" absent.pageSize (Toml.asNat? 64) }

/-- The section of the HTTP interface. -/
def serverSection? (v : Toml) : Option ServerSection := do
  let entries ← asSection? ["port"] v
  let absent : ServerSection := {}
  pure { port := ← setting? entries "port" absent.port (Toml.asNat? 16) }

/-- The configuration that the entries of a document give. -/
def ofToml? (document : Toml.Entries) : Option Config := do
  let entries ← asSection? ["database_url", "engine", "sync", "server"] (.table .opened document)
  let absent : Config := {}
  pure
    { databaseUrl := ← setting? entries "database_url" absent.databaseUrl text?
      engine := ← setting? entries "engine" absent.engine engineSection?
      sync := ← setting? entries "sync" absent.sync syncSection?
      server := ← setting? entries "server" absent.server serverSection? }

/-- Reads a configuration file. -/
def read? (text : String) : Option Config :=
  (Toml.read? text).bind ofToml?

end RunLedger.Config
