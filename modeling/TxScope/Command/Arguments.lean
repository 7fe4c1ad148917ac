import TxScope.Address.Network

/-!
# Command line arguments

A command, its options and its texts. Options begin with two dashes; their value follows, or stands
behind an equals sign. After a bare `--` everything is text. Arguments are looked at from left to
right and the first one that is wrong ends the reading, also if help is asked for later.
-/

namespace TxScope

/-- What the arguments ask for. -/
inductive Command where
  | decode (hex file : Option String) (json : Bool) (network : Option Network)
  | disasm (script : String)
  | classify (script : String) (network : Option Network)
  | serve (bind : Option String) (network : Option Network)
  | sample
  deriving DecidableEq, Repr

namespace Command

/-- The names of the commands. -/
inductive Name where
  | decode
  | disasm
  | classify
  | serve
  | sample
  | help
  deriving DecidableEq, Repr

def Name.ofText? : String → Option Name
  | "decode" => some .decode
  | "disasm" => some .disasm
  | "classify" => some .classify
  | "serve" => some .serve
  | "sample" => some .sample
  | "help" => some .help
  | _ => none

/-- Why the arguments do not make a command. -/
inductive UsageError where
  | missingCommand
  | unknownCommand (name : String)
  | unexpected (argument : String)
  | missingValue (option : String)
  | invalidValue (option value : String)
  | repeated (option : String)
  | missingText
  deriving DecidableEq, Repr

def UsageError.message : UsageError → String
  | .missingCommand => "a command is required"
  | .unknownCommand name => s!"unrecognized command {name}"
  | .unexpected argument => s!"unexpected argument {argument}"
  | .missingValue option => s!"a value is required for --{option}"
  | .invalidValue option value => s!"invalid value {value} for --{option}"
  | .repeated option => s!"--{option} cannot be used more than once"
  | .missingText => "a required argument was not given"

/-- What a command takes: options with a value, options without, and texts. -/
structure Form where
  valued : List String
  flags : List String
  texts : Nat

/-- The option that names the settings file goes with every command. -/
def Name.form : Name → Form
  | .decode => ⟨["config", "file", "network"], ["json"], 1⟩
  | .disasm => ⟨["config"], [], 1⟩
  | .classify => ⟨["config", "network"], [], 1⟩
  | .serve => ⟨["config", "bind", "network"], [], 0⟩
  | .sample => ⟨["config"], [], 0⟩
  | .help => ⟨[], [], 0⟩

/-- The options and texts read so far. -/
structure Given where
  values : List (String × String)
  flags : List String
  texts : List String

def Given.empty : Given := ⟨[], [], []⟩

def Given.value? (g : Given) (option : String) : Option String := g.values.lookup option

/-- An argument that is not plain text. -/
inductive Dashed where
  | long (name : List Char) (value : Option (List Char))
  | short (names : List Char)
  /-- Everything after it is text. -/
  | terminator
  deriving DecidableEq, Repr

/-- A single dash is plain text, and so is everything that does not begin with one. -/
def Dashed.ofText? (argument : String) : Option Dashed :=
  match argument.toList with
  | ['-', '-'] => some .terminator
  | '-' :: '-' :: cs =>
    let name := cs.takeWhile (· != '=')
    match cs.dropWhile (· != '=') with
    | _ :: value => some (.long name (some value))
    | [] => some (.long name none)
  | '-' :: c :: cs => some (.short (c :: cs))
  | _ => none

/-- Whether an option takes a value: files need a name, and a network has to be known. -/
def acceptsValue (option value : String) : Bool :=
  match option with
  | "config" | "file" => !value.isEmpty
  | "network" => (Network.ofText? value).isSome
  | _ => true

def Given.addValue (g : Given) (option value : String) : Except UsageError Given :=
  if (g.value? option).isSome then .error (.repeated option)
  else if acceptsValue option value then .ok { g with values := (option, value) :: g.values }
  else .error (.invalidValue option value)

def Given.addFlag (g : Given) (flag : String) : Except UsageError Given :=
  if g.flags.contains flag then .error (.repeated flag)
  else .ok { g with flags := flag :: g.flags }

def Given.addText (g : Given) (form : Form) (text : String) : Except UsageError Given :=
  if g.texts.length < form.texts then .ok { g with texts := g.texts ++ [text] }
  else .error (.unexpected text)

/-- What reading the arguments of a command comes to. -/
inductive Reading where
  | given (g : Given)
  | help
  /-- The next command, before its arguments; only where commands may stand. -/
  | command (g : Given) (name : Name) (rest : List String)

/-- All that is left is text. -/
def readTexts (form : Form) (g : Given) : List String → Except UsageError Given
  | [] => .ok g
  | t :: ts => do readTexts form (← g.addText form t) ts

/-- What an argument with dashes means. -/
inductive Meaning where
  | set (g : Given)
  | await (option : String)
  | help

def meaning (form : Form) (g : Given) (argument : String) : Dashed → Except UsageError Meaning
  | .short ('h' :: _) => .ok .help
  | .long name value =>
    let name := String.ofList name
    match value with
    | some v =>
      if form.valued.contains name then .set <$> g.addValue name (String.ofList v)
      else .error (.unexpected argument)
    | none =>
      if form.valued.contains name then .ok (.await name)
      else if form.flags.contains name then .set <$> g.addFlag name
      else if name = "help" then .ok .help
      else .error (.unexpected argument)
  | _ => .error (.unexpected argument)

/-- Reads arguments in turn; `awaited` is the option whose value comes next. Where a command may
stand, the first plain text has to be its name. -/
def read (form : Form) (beforeCommand : Bool) : (awaited : Option String) → Given →
    List String → Except UsageError Reading
  | none, g, [] => .ok (.given g)
  | some option, _, [] => .error (.missingValue option)
  | awaited, g, a :: rest =>
    match Dashed.ofText? a, awaited with
    | some _, some option => .error (.missingValue option)
    | some .terminator, none => .given <$> readTexts form g rest
    | some dashed, none => do
      match ← meaning form g a dashed with
      | .help => return .help
      | .set g => read form beforeCommand none g rest
      | .await option => read form beforeCommand (some option) g rest
    | none, some option => do read form beforeCommand none (← g.addValue option a) rest
    | none, none =>
      if beforeCommand then
        match Name.ofText? a with
        | some name => .ok (.command g name rest)
        | none => .error (.unknownCommand a)
      else do read form beforeCommand none (← g.addText form a) rest

end Command

/-- The command and the settings file to use with it, or a request for help on a command or on all
of them. -/
inductive Arguments where
  | run (config : Option String) (command : Command)
  | help (topic : Option Command.Name)
  deriving DecidableEq, Repr

namespace Arguments

open Command (Given Name UsageError)

/-- The command that a name and its options and texts make. -/
def commandOf (name : Name) (g : Given) : Except UsageError Command :=
  let network := (g.value? "network").bind Network.ofText?
  match name, g.texts with
  | .decode, texts => .ok (.decode texts.head? (g.value? "file") (g.flags.contains "json") network)
  | .disasm, script :: _ => .ok (.disasm script)
  | .classify, script :: _ => .ok (.classify script network)
  | .serve, _ => .ok (.serve (g.value? "bind") network)
  | .sample, _ => .ok .sample
  | _, _ => .error .missingText

/-- The topic of a request for help. -/
def helpTopic : List String → Except UsageError Arguments
  | [] => .ok (.help none)
  | [topic] =>
    match Name.ofText? topic with
    | some name => .ok (.help (some name))
    | none => .error (.unknownCommand topic)
  | topic :: other :: _ =>
    match Name.ofText? topic with
    | some _ => .error (.unknownCommand other)
    | none => .error (.unknownCommand topic)

/-- What may stand before the command. -/
def outerForm : Command.Form := ⟨["config"], [], 0⟩

/-- Reads all arguments. A settings file named behind the command counts before one named in front
of it. -/
def ofTexts (args : List String) : Except UsageError Arguments := do
  match ← Command.read outerForm true none .empty args with
  | .help => return .help none
  | .given _ => .error .missingCommand
  | .command _ .help rest => helpTopic rest
  | .command outer name rest =>
    match ← Command.read name.form false none .empty rest with
    | .help => return .help (some name)
    | .given g =>
      return .run ((g.value? "config").or (outer.value? "config")) (← commandOf name g)
    | .command _ _ _ => .error .missingCommand

end Arguments

end TxScope
