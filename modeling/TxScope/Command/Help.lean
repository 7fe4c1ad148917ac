import TxScope.Command.Arguments

/-!
# Help

The page about all commands, and one for each. Options stand in a table of two columns.
-/

namespace TxScope.Command

/-- What a command does, in one line. -/
def Name.summary : Name → String
  | .decode => "Decode a transaction from an argument, a file, or stdin"
  | .disasm => "Disassemble a script"
  | .classify => "Classify a scriptPubKey and derive its address"
  | .serve => "Run the HTTP API"
  | .sample => "Print the built-in sample transaction"
  | .help => "Print this message or the help of the given subcommand(s)"

/-- An option with its value, and what it is for. -/
abbrev OptionRow := String × String

def configRow : OptionRow :=
  ("      --config <CONFIG>", "Settings file (defaults to ./txdecode.toml when present)")

def networkRow : OptionRow := ("      --network <NETWORK>", "")

def helpRow : OptionRow := ("  -h, --help", "Print help")

/-- The options of a command, in the order of the page. -/
def Name.optionRows : Name → List OptionRow
  | .decode =>
    [configRow, ("      --file <FILE>", ""), ("      --json", "Print the report as JSON"),
     networkRow, helpRow]
  | .disasm | .sample => [configRow, helpRow]
  | .classify => [configRow, networkRow, helpRow]
  | .serve => [("      --bind <BIND>", ""), configRow, networkRow, helpRow]
  | .help => []

/-- Rows with their second columns below each other. -/
def tableLines (rows : List OptionRow) : List String :=
  let width := (rows.map fun (name, _) => name.length).foldl max 0
  rows.map fun (name, about) =>
    name ++ String.ofList (List.replicate (width - name.length) ' ') ++ "  " ++ about

/-- Lines, with their ends. -/
def page (lines : List String) : String := String.join (lines.map (· ++ "\n"))

def overview : String :=
  page <|
    ["Decode raw Bitcoin transactions", "",
     "Usage: txdecode [OPTIONS] <COMMAND>", "",
     "Commands:",
     s!"  decode    {Name.decode.summary}",
     s!"  disasm    {Name.disasm.summary}",
     s!"  classify  {Name.classify.summary}",
     s!"  serve     {Name.serve.summary}",
     s!"  sample    {Name.sample.summary}",
     s!"  help      {Name.help.summary}", "",
     "Options:"] ++ tableLines [configRow, helpRow]

/-- What follows the name of a command where its use is shown. -/
def Name.usage : Name → String
  | .decode => "decode [OPTIONS] [HEX]"
  | .disasm => "disasm [OPTIONS] <SCRIPT_HEX>"
  | .classify => "classify [OPTIONS] <SCRIPT_HEX>"
  | .serve => "serve [OPTIONS]"
  | .sample => "sample [OPTIONS]"
  | .help => "help [COMMAND]..."

/-- The text that a command takes, and what it is for. -/
def Name.textRow? : Name → Option OptionRow
  | .decode => some ("  [HEX]", "")
  | .disasm | .classify => some ("  <SCRIPT_HEX>", "")
  | .serve | .sample => none
  | .help => some ("  [COMMAND]...", "Print help for the subcommand(s)")

/-- A titled table, behind an empty line; without rows it is left out. -/
def titled (title : String) (rows : List OptionRow) : List String :=
  if rows.isEmpty then [] else "" :: title :: tableLines rows

def helpPage (name : Name) : String :=
  page <|
    [name.summary, "", s!"Usage: txdecode {name.usage}"] ++
      titled "Arguments:" name.textRow?.toList ++ titled "Options:" name.optionRows

end TxScope.Command
