/-!
# Invocations

What a command line asks for: a command with its options, or a text about the program.
-/

namespace RunLedger.Cli

/-- How answers are written. -/
inductive OutputFormat where
  | text
  | json
deriving DecidableEq, Repr, Inhabited

/-- The format with a name. -/
def OutputFormat.parse? : String → Option OutputFormat
  | "text" => some text
  | "json" => some json
  | _ => none

/-- The word that names a command. -/
inductive Verb where
  | serve
  | tick
  | sync
  | migrate
  | config
  /-- Explains another command. -/
  | help
deriving DecidableEq, Repr, Inhabited

namespace Verb

def all : List Verb := [serve, tick, sync, migrate, config, help]

def text : Verb → String
  | serve => "serve"
  | tick => "tick"
  | sync => "sync"
  | migrate => "migrate"
  | config => "config"
  | help => "help"

/-- The verb that a word names. -/
def parse? (word : String) : Option Verb :=
  all.find? (·.text == word)

end Verb

/-- A command. -/
inductive Command where
  /-- Runs passes regularly and serves the HTTP interface, on a port of its own if one is given. -/
  | serve (port : Option Nat)
  /-- Runs one pass. -/
  | tick
  /-- Syncs one run. -/
  | sync (runId : String)
  /-- Prepares the database. -/
  | migrate
  /-- Shows the configuration. -/
  | config
deriving DecidableEq, Repr, Inhabited

/-- A command with the options that all commands have. -/
structure Invocation where
  configPath : Option String := none
  output : OutputFormat := .text
  /-- The log is written as JSON. -/
  logJson : Bool := false
  command : Command
deriving DecidableEq, Repr, Inhabited

/-- Why a command line runs no command. -/
inductive Stop where
  /-- It is wrong. -/
  | misuse
  /-- It asks for help about a command or about the program. -/
  | help (topic : Option Verb)
  | version
deriving DecidableEq, Repr, Inhabited

end RunLedger.Cli
