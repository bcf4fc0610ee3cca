import RunLedger.Cli.Invocation
import RunLedger.Text.Digits
import RunLedger.Text.Split

/-!
# Arguments

`Invocation.ofArguments` reads a command line. It has two levels, the program's own arguments and
those of a command, which begin after the command's verb. The options that all commands have may
stand on either level; where one stands on both, the command's counts. An option stands at most once
on a level.

A value may be attached to its option or follow it. A value that follows is judged only when the
level goes on to its next option or ends, so a request for help to a command comes before a
complaint about the last value in front of the command's verb.
-/

namespace RunLedger.Cli

/-- An option with a value. -/
inductive Setting where
  | config
  | output
  | port
deriving DecidableEq, Repr, Inhabited

/-- An option. -/
inductive Flag where
  | setting (s : Setting)
  | logJson
  | help
  | version
deriving DecidableEq, Repr, Inhabited

/-- A level of the command line: the program's, or that of a command. -/
abbrev Level := Option Verb

/-- The option that a long name stands for on a level. -/
def Flag.ofName? (level : Level) (name : String) : Option Flag :=
  match name with
  | "config" => some (setting .config)
  | "output" => some (setting .output)
  | "log-json" => some logJson
  | "help" => some help
  | "port" => if level = some .serve then some (setting .port) else none
  | "version" => if level.isNone then some version else none
  | _ => none

/-- The option that a letter stands for on a level. -/
def Flag.ofLetter? (level : Level) (letter : Char) : Option Flag :=
  if letter = 'h' then some help
  else if letter = 'V' && level.isNone then some version
  else none

/-- The shape of an argument. -/
inductive Shape where
  /-- Two hyphens alone: no options follow. -/
  | divider
  | long (name : String) (attached : Option String)
  | short (letters : List Char)
  | plain
deriving DecidableEq, Repr, Inhabited

/-- The shape that an argument has. -/
def Shape.of (argument : String) : Shape :=
  match argument.toList with
  | ['-', '-'] => divider
  | '-' :: '-' :: body =>
    match Text.splitFirst? ['='] body with
    | some (name, value) => long (String.ofList name) (some (String.ofList value))
    | none => long (String.ofList body) none
  | '-' :: c :: letters => short (c :: letters)
  | _ => plain

/-- What a level of the command line has given so far. -/
structure Given where
  configPath : Option String := none
  output : Option OutputFormat := none
  logJson : Bool := false
  port : Option Nat := none
  runId : Option String := none
  /-- A value that is not judged yet. -/
  pending : Option (Setting × String) := none
deriving DecidableEq, Repr, Inhabited

namespace Given

/-- The number of a port. -/
def port? (value : String) : Option Nat :=
  match Text.integer? value.toList with
  | some n => if 0 ≤ n && n < wordCount 16 then some n.toNat else none
  | none => none

/-- Judges a value. -/
def put (g : Given) : Setting → String → Except Stop Given
  | .config, value =>
    if value.isEmpty || g.configPath.isSome then .error .misuse
    else .ok { g with configPath := some value }
  | .output, value =>
    match g.output, OutputFormat.parse? value with
    | none, some format => .ok { g with output := some format }
    | _, _ => .error .misuse
  | .port, value =>
    match g.port, port? value with
    | none, some port => .ok { g with port := some port }
    | _, _ => .error .misuse

/-- Judges the value that is not judged yet. -/
def settle (g : Given) : Except Stop Given :=
  match g.pending with
  | some (setting, value) => { g with pending := none }.put setting value
  | none => .ok g

/-- Takes an argument that is no option. -/
def takePlain (g : Given) (verb : Verb) (argument : String) : Except Stop Given := do
  let g ← g.settle
  if verb = .sync && g.runId.isNone then pure { g with runId := some argument }
  else .error .misuse

/-- Takes an option without value. -/
def takeFlag (g : Given) (level : Level) : Flag → Except Stop Given
  | .help => do
    let _ ← g.settle
    .error (.help level)
  | .version => do
    let _ ← g.settle
    .error .version
  | .logJson => do
    let g ← g.settle
    if g.logJson then .error .misuse else pure { g with logJson := true }
  | .setting _ => .error .misuse

/-- Takes an option that is written by letters; no letter stands for an option that a command runs
with, so the first one decides. -/
def takeLetters (g : Given) (level : Level) (letters : List Char) : Except Stop Given :=
  match letters.head?.bind (Flag.ofLetter? level) with
  | some flag => g.takeFlag level flag
  | none => .error .misuse

/-- The command that a verb and what its level has given make up. -/
def command (g : Given) : Verb → Except Stop Command
  | .serve => .ok (.serve g.port)
  | .tick => .ok .tick
  | .sync => match g.runId with
    | some runId => .ok (.sync runId)
    | none => .error .misuse
  | .migrate => .ok .migrate
  | .config => .ok .config
  | .help => .error .misuse

end Given

/-- Takes an option of a level that is written by its name. The answer is also what follows it. -/
def takeLong (level : Level) (g : Given) (name : String) (attached : Option String)
    (rest : List String) : Except Stop (Given × List String) :=
  match Flag.ofName? level name, attached, rest with
  | some (.setting s), some value, _ => do
    let g ← g.settle
    let g ← g.put s value
    pure (g, rest)
  | some (.setting s), none, value :: rest => do
    let g ← g.settle
    if Shape.of value = .plain then pure ({ g with pending := some (s, value) }, rest)
    else .error .misuse
  | some flag, none, _ => do
    let g ← g.takeFlag level flag
    pure (g, rest)
  | _, _, _ => .error .misuse

/-- Reads the level of a command. -/
def readCommand (verb : Verb) : (fuel : Nat) → Given → List String → Except Stop Given
  | _, g, [] => g.settle
  | 0, _, _ => .error .misuse
  | fuel + 1, g, argument :: rest =>
    match Shape.of argument with
    | .divider => do
      let g ← rest.foldlM (fun g argument => g.takePlain verb argument) g
      g.settle
    | .long name attached => do
      let (g, rest) ← takeLong (some verb) g name attached rest
      readCommand verb fuel g rest
    | .short letters => do
      let g ← g.takeLetters (some verb) letters
      readCommand verb fuel g rest
    | .plain => do
      let g ← g.takePlain verb argument
      readCommand verb fuel g rest

/-- Reads the words after the verb that asks for help. -/
def readTopic : List String → Stop
  | [] => .help none
  | [word] => match Verb.parse? word with
    | some verb => .help (some verb)
    | none => .misuse
  | _ => .misuse

/-- Joins what the two levels gave. -/
def join (program given : Given) (command : Command) : Invocation where
  configPath := given.configPath.or program.configPath
  output := (given.output.or program.output).getD .text
  logJson := given.logJson || program.logJson
  command := command

/-- Reads the program's level from an argument on. -/
def readProgram : (fuel : Nat) → Given → List String → Except Stop Invocation
  | _, _, [] => .error .misuse
  | 0, _, _ => .error .misuse
  | fuel + 1, g, argument :: rest =>
    match Shape.of argument with
    | .divider => .error .misuse
    | .long name attached => do
      let (g, rest) ← takeLong none g name attached rest
      readProgram fuel g rest
    | .short letters => do
      let g ← g.takeLetters none letters
      readProgram fuel g rest
    | .plain =>
      match Verb.parse? argument with
      | none => .error .misuse
      | some .help => .error (readTopic rest)
      | some verb => do
        let given ← readCommand verb fuel {} rest
        let command ← given.command verb
        let g ← g.settle
        pure (join g given command)

/-- Reads a command line. -/
def Invocation.ofArguments (arguments : List String) : Except Stop Invocation :=
  readProgram arguments.length {} arguments

end RunLedger.Cli
