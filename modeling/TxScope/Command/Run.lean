import TxScope.Command.Help
import TxScope.Command.Workspace
import TxScope.Report.Json
import TxScope.Report.Text
import TxScope.Settings

/-!
# Running a command

`Invocation.run` says how a run ends, and what it leaves in the working directory, from everything
the command can see: its arguments, the environment, the files and the standard input. The order is
fixed: arguments, settings, log file, and only then the work itself.
-/

namespace TxScope

structure Invocation where
  args : List String
  environment : List (String × String)
  workspace : Workspace
  input : String

/-- How a run ends. -/
inductive Ending where
  | finished (output : String)
  /-- The work failed; the text is shown behind the word "Error". -/
  | failed (diagnostic : String)
  /-- The arguments make no command. -/
  | misused (message : String)
  /-- The log file cannot be opened. -/
  | broken
  /-- The service is to listen at an address. -/
  | serving (bind : String) (network : Network)
  deriving DecidableEq, Repr

namespace Ending

def exitCode : Ending → Nat
  | .finished _ => 0
  | .failed _ => 1
  | .misused _ => 2
  | .broken => 101
  | .serving _ _ => 0

def output : Ending → String
  | .finished output => output
  | _ => ""

/-- The line about a failed run. -/
def errorLine? : Ending → Option String
  | .failed diagnostic => some s!"Error: {diagnostic}"
  | _ => none

end Ending

/-- One transaction with witnesses, one input and two outputs. -/
def sampleHex : String :=
  "020000000001018f105811203439c1a1f0325eb553eb7dc7ddfb11f434bf8dfb640f1244eea4df0000000000" ++
  "ffffffff021010e9000000000016001456d46899fe8a6d2694abe1294d14888ccebb66bfd79c412200000000" ++
  "1600149c38191f20275ea9ececd2f762c450ff159508f802473044022070181cd1291be94ae0ef7976ffc77a" ++
  "9644f223e0a91c0059c364ecf148809e3202203be57465271368a823410a1a3578c761c6cb2cd582871ec406" ++
  "4e4a336c0121cb012103e6bbd3f40f01ddd7587915a514c30998561d26abf8baf1cc53ac1360fae860f60000" ++
  "0000"

/-! ## Settings and log file -/

/-- The format of a settings file, by the ending of its name. A point that stands first does not
begin an ending. -/
def settingsFormat? (name : String) : Option Settings.Format := do
  match (Text.split '.' (← (FilePath.ofText name).name?)).reverse with
  | ending :: stem :: more =>
    if stem = "" ∧ more.isEmpty then none else Settings.Format.ofEnding? ending
  | _ => none

/-- The names with an ending behind their last part, and the formats of these. No ending can be put
behind a point, or two of them. -/
def withEndings (name : String) : List (String × Settings.Format) :=
  match (Text.split '/' name).reverse.dropWhile fun p => p == "" || p == "." with
  | [] | ".." :: _ => []
  | last :: before =>
    Settings.Format.all.flatMap fun format => format.endings.map fun ending =>
      ("/".intercalate (s!"{last}.{ending}" :: before).reverse, format)

/-- The settings file of a name: the file itself, or one whose name has an ending behind it. -/
def findSettings? (w : Workspace) (name : String) : Option (String × Settings.Format) :=
  if w.isFile name then (settingsFormat? name).map (name, ·)
  else (withEndings name).find? fun (found, _) => w.isFile found

/-- A file that is named has to be there; the default file may be missing. -/
def loadSettings (w : Workspace) (config : Option String) (environment : List (String × String)) :
    Except Settings.Error Settings :=
  let name := config.getD Settings.defaultFile
  match findSettings? w name with
  | some (found, format) =>
    Settings.ofFile ((w.read found).toOption.map fun text => ⟨found, format, text⟩) environment
  | none => if config.isSome then .error (.missingFile name) else Settings.ofFile none environment

/-- The home directory: the environment names it, or else it is the first account's. -/
def homeDirectory (environment : List (String × String)) : String :=
  match environment.lookup "HOME" with
  | none | some "" => "/root"
  | some home => home

/-- A tilde in front, alone or before a slash, stands for the home directory. -/
def expandHome (environment : List (String × String)) (path : String) : String :=
  match path.toList with
  | '~' :: rest =>
    if rest.isEmpty || rest.head? == some '/' then homeDirectory environment ++ String.ofList rest
    else path
  | _ => path

/-- Opens the log file, if the settings name one: how the run ends if that fails, and the files
then. -/
def openLog (w : Workspace) (environment : List (String × String)) (s : Settings) :
    Option Ending × Workspace :=
  match s.logFile with
  | none => (none, w)
  | some file =>
    let path := FilePath.ofText (expandHome environment file)
    if path.parts.isEmpty then
      (some (.failed "\"Invalid log file path: no parent directory\""), w)
    else if path.name?.isNone then (some (.failed "\"Invalid log file path: no filename\""), w)
    else
      let (w, opened) := w.create path
      (if opened then none else some .broken, w)

/-! ## The work -/

/-- Why the service cannot listen at an address. -/
inductive BindError where
  | invalidAddress
  | invalidPort
  | unknownHost
  /-- The address belongs to another machine. -/
  | unavailable
  deriving DecidableEq, Repr

def BindError.diagnostic : BindError → String
  | .invalidAddress => "Error \x7b kind: InvalidInput, message: \"invalid socket address\" \x7d"
  | .invalidPort => "Error \x7b kind: InvalidInput, message: \"invalid port value\" \x7d"
  | .unknownHost =>
    "Custom \x7b kind: Uncategorized, error: \"failed to lookup address information: " ++
      "Name or service not known\" \x7d"
  | .unavailable =>
    "Os \x7b code: 99, kind: AddrNotAvailable, message: \"Cannot assign requested address\" \x7d"

/-- The number of a socket has 16 bits; a plus sign may stand in front. -/
def isPort (cs : List Char) : Bool :=
  let ds :=
    match cs with
    | '+' :: ds => ds
    | ds => ds
  !ds.isEmpty && ds.all Char.isDigit &&
    ds.foldl (fun n c => 10 * n + (c.toNat - '0'.toNat)) 0 < 0x10000

/-- The numbers of an address of four bytes, with points between them. -/
def fourBytes? (host : String) : Option (List Nat) :=
  let parts := Text.split '.' host
  let numbers := (parts.filter fun p => p.toList.all Char.isDigit).filterMap String.toNat?
  if parts.length = 4 ∧ numbers.length = 4 ∧ numbers.all (· < 256) then some numbers else none

/-- Whether a machine may listen at an address of four bytes: at its own, at all addresses, or at
one that is for many machines. -/
def mayListen (address : List Nat) : Bool :=
  match address with
  | [0, 0, 0, 0] | [255, 255, 255, 255] => true
  | first :: _ => first = 127 || (224 ≤ first && first < 240)
  | [] => false

/-- An address is a host and, behind the last colon, the number of a socket. -/
def checkBind (bind : String) : Except BindError Unit :=
  let cs := bind.toList
  if cs.contains ':' then
    if isPort (cs.reverse.takeWhile (· != ':')).reverse then
      let host := String.ofList ((cs.reverse.dropWhile (· != ':')).drop 1).reverse
      match fourBytes? host with
      | some address => if mayListen address then .ok () else .error .unavailable
      | none =>
        if host = "localhost" || host.toList.head? == some '[' then .ok () else .error .unknownHost
    else .error .invalidPort
  else .error .invalidAddress

/-- The standard input, as a file. -/
def inputFile : FilePath := ⟨true, ["dev", "stdin"]⟩

/-- The text to decode: given, in a file, or on the standard input. -/
def decodeInput (i : Invocation) (hex file : Option String) : Except FileError String :=
  match hex, file with
  | some hex, _ => .ok hex
  | none, some file =>
    if (FilePath.ofText file).place = inputFile then .ok i.input else i.workspace.read file
  | none, none => .ok i.input

def runDecode (json : Bool) (network : Network) (text : String) : Ending :=
  match Report.ofHex .standard .standard network text with
  | .error e => .failed e.diagnostic
  | .ok report => .finished (if json then report.toJson.pretty ++ "\n" else report.text)

/-- The bytes of a script on the command line. -/
def scriptOf (text : String) : Except Hex.Error Bytes := Hex.decode (Text.trim text)

/-- Does what the command asks for, under settings that are loaded. -/
def runCommand (i : Invocation) (s : Settings) : Command → Ending
  | .decode hex file json network =>
    match decodeInput i hex file with
    | .error e => .failed e.diagnostic
    | .ok text => runDecode json (network.getD s.network) text
  | .disasm script =>
    match scriptOf script with
    | .error e => .failed e.diagnostic
    | .ok bs => .finished (Script.render bs ++ "\n")
  | .classify script network =>
    match scriptOf script with
    | .error e => .failed e.diagnostic
    | .ok bs =>
      let c := Classification.ofScript bs .standard (network.getD s.network)
      .finished (c.toJson.pretty ++ "\n")
  | .serve bind network =>
    let bind := bind.getD s.bind
    match checkBind bind with
    | .error e => .failed e.diagnostic
    | .ok () => .serving bind (network.getD s.network)
  | .sample => .finished (sampleHex ++ "\n")

/-- Runs the command. -/
def Invocation.run (i : Invocation) : Ending × Workspace :=
  match Arguments.ofTexts i.args with
  | .error e => (.misused e.message, i.workspace)
  | .ok (.help none) => (.finished Command.overview, i.workspace)
  | .ok (.help (some name)) => (.finished (Command.helpPage name), i.workspace)
  | .ok (.run config command) =>
    match loadSettings i.workspace config i.environment with
    | .error e => (.failed e.message, i.workspace)
    | .ok s =>
      match openLog i.workspace i.environment s with
      | (some ending, w) => (ending, w)
      | (none, w) => (runCommand { i with workspace := w } s command, w)

/-- Whether a run may look at its standard input. -/
def Invocation.needsInput (args : List String) : Bool :=
  match Arguments.ofTexts args with
  | .ok (.run _ (.decode none none _ _)) => true
  | .ok (.run _ (.decode none (some file) _ _)) => (FilePath.ofText file).place = inputFile
  | _ => false

/-- The files that a run may look at. -/
def Invocation.neededFiles (args : List String) : List String :=
  match Arguments.ofTexts args with
  | .ok (.run config command) =>
    let name := config.getD Settings.defaultFile
    name :: (withEndings name).map Prod.fst ++
      match command with
      | .decode none (some file) _ _ => [file]
      | _ => []
  | _ => []

end TxScope
