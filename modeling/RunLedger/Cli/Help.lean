import RunLedger.Cli.Invocation

/-!
# Help

What the program says about itself and its commands.
-/

namespace RunLedger

/-- The name under which the program presents itself. -/
def programName : String := "runsync"

/-- The version under which the program presents itself. -/
def programVersion : String := "0.1.0"

namespace Cli

/-- A line of a table: a term and what it means. -/
abbrev Entry := String × String

/-- A titled table, its second column aligned. -/
def table (title : String) (entries : List Entry) : String :=
  let width := (entries.map (·.1.length)).foldl max 0
  entries.foldl (fun text (term, meaning) =>
    text ++ "  " ++ term ++ String.ofList (List.replicate (width - term.length + 2) ' ') ++
      meaning ++ "\n") (title ++ ":\n")

namespace Verb

/-- What a command does. -/
def about : Verb → String
  | serve => "Run the periodic sync driver and the HTTP trigger hook"
  | tick => "Run one reconciliation pass and exit"
  | sync => "Sync one run now, ignoring the cursor"
  | migrate => "Apply the database schema"
  | config => "Print the effective configuration with secrets redacted"
  | help => "Print this message or the help of the given subcommand(s)"

/-- The arguments of a command other than its options. -/
def operands : Verb → List Entry
  | sync => [("<RUN_ID>", "Engine run id")]
  | help => [("[COMMAND]...", "Print help for the subcommand(s)")]
  | _ => []

end Verb

def configEntry : Entry :=
  ("    --config <CONFIG>", "Path to the TOML config file (default: ./runsync.toml when present)")

def outputEntry : Entry :=
  ("    --output <OUTPUT>",
    "Output format (text or json) [default: text] [possible values: text, json]")

def logJsonEntry : Entry := ("    --log-json", "Emit logs as JSON lines")

def portEntry : Entry :=
  ("    --port <PORT>", "Port to listen on (overrides server.port)")

def helpEntry : Entry := ("-h, --help", "Print help")

def versionEntry : Entry := ("-V, --version", "Print version")

/-- The options of a command or of the program. -/
def optionEntries : Option Verb → List Entry
  | none => [configEntry, outputEntry, logJsonEntry, helpEntry, versionEntry]
  | some .serve => [configEntry, portEntry, outputEntry, logJsonEntry, helpEntry]
  | some .help => []
  | some _ => [configEntry, outputEntry, logJsonEntry, helpEntry]

/-- How a command or the program is called. -/
def usage (topic : Option Verb) : String :=
  let options := if (optionEntries topic).isEmpty then "" else " [OPTIONS]"
  "Usage: " ++ programName ++ match topic with
    | none => options ++ " <COMMAND>\n"
    | some verb =>
      " " ++ verb.text ++ options ++ String.join (verb.operands.map (" " ++ ·.1)) ++ "\n"

/-- The tables about a command or the program. -/
def tables : Option Verb → List String
  | none => [table "Commands" (Verb.all.map fun v => (v.text, v.about)),
      table "Options" (optionEntries none)]
  | some verb => [("Arguments", verb.operands), ("Options", optionEntries (some verb))].filterMap
      fun (title, entries) => if entries.isEmpty then none else some (table title entries)

/-- The help about a command or the program. -/
def helpText (topic : Option Verb) : String :=
  let about := match topic with
    | none => "Run status sync engine for a GraphQL execution engine"
    | some verb => verb.about
  "\n".intercalate ((about ++ "\n") :: usage topic :: tables topic)

/-- The version of the program. -/
def versionText : String := programName ++ " " ++ programVersion ++ "\n"

/-- What is said about a wrong command line. -/
def misuseText : String :=
  "error: the command line is wrong\n\n" ++ usage none ++
    "\nFor more information, try '--help'.\n"

end Cli

end RunLedger
