import TxScope.Address.Network
import TxScope.Settings.Format
import TxScope.Settings.KeyPath

/-!
# Settings

Settings come in three layers: the defaults, a file, and environment variables. A key that the
environment sets hides the file's, and one that the file sets hides the default. The layers are put
into one table, which is then read; keys that no setting has are passed over.

An environment variable belongs here when its name starts with the prefix, in any case. The rest of
the name, in lower case, is the key, with two underscores between a table and a key in it.
-/

namespace TxScope

inductive LogFormat where
  | pretty
  | json
  deriving DecidableEq, Repr

def LogFormat.name : LogFormat → String
  | .pretty => "pretty"
  | .json => "json"

structure Settings where
  network : Network
  logLevel : String
  logFormat : LogFormat
  logFile : Option String
  /-- The address that the service listens at. -/
  bind : String
  deriving DecidableEq, Repr

namespace Settings

def default : Settings where
  network := .mainnet
  logLevel := "info"
  logFormat := .pretty
  logFile := none
  bind := "127.0.0.1:3005"

/-- The file that is read, if it is there, when no other is named. -/
def defaultFile : String := "txdecode.toml"

/-- Why there are no settings. -/
inductive Error where
  | missingFile (name : String)
  | malformed (name : String)
  /-- A list or table where text was wanted. -/
  | wrongType (key : String)
  /-- A value that the setting does not take. -/
  | refused (key : String)
  deriving DecidableEq, Repr

namespace Error

def kind : Error → String
  | .missingFile _ => "foreign"
  | .malformed _ => "file_parse"
  | .wrongType _ => "type"
  | .refused _ => "message"

def message : Error → String
  | .missingFile name => s!"configuration file \"{name}\" not found"
  | .malformed name => s!"{name} is not a configuration file"
  | .wrongType key => s!"{key} has to be text"
  | .refused key => s!"{key} does not take this value"

end Error

/-! ## Layers -/

/-- Puts the values of a layer over a table, in the order of the list. This counts only where one
path leads to what another has set, as with `server` and `server.bind`. No order is promised between
such keys of one file. -/
def placeAll (layer : List (String × Value)) (t : Table) : Table :=
  layer.foldl (fun t (key, v) => (KeyPath.ofText key).put v t) t

/-- What the name of an environment variable has to start with, in lower case. -/
def environmentStart : List Char := "txdecode_".toList

/-- A point for every two underscores, from the left. -/
def joinLevels : List Char → List Char
  | '_' :: '_' :: cs => '.' :: joinLevels cs
  | c :: cs => c :: joinLevels cs
  | [] => []

/-- The small letter of a letter, where that is in ASCII: of the capitals and of the Kelvin sign. -/
def smallLetter (c : Char) : Char := if c = '\u212a' then 'k' else c.toLower

/-- The key that an environment variable sets. -/
def keyOfVariable? (name : String) : Option String :=
  let cs := name.toList.map smallLetter
  if environmentStart.isPrefixOf cs then
    some (String.ofList (joinLevels (cs.drop environmentStart.length)))
  else none

/-- The keys and values that the environment sets. -/
def environmentLayer (env : List (String × String)) : List (String × Value) :=
  env.filterMap fun (name, text) => (keyOfVariable? name).map fun key => (key, .string text)

/-- File and environment in one table. -/
def layered (file : Table) (env : List (String × String)) : Table :=
  placeAll (environmentLayer env) (placeAll file [])

/-! ## Reading -/

def asText (key : String) (v : Value) : Except Error String :=
  match v.scalarText? with
  | some s => .ok s
  | none => .error (.wrongType key)

/-- A value, or a null for none. -/
def asOptional {α : Type} (read : Value → Except Error α) (v : Value) : Except Error (Option α) :=
  match v with
  | .nothing => .ok none
  | v => some <$> read v

/-- A name out of a few: as text, or as the only key of a table. -/
def asChoice {α : Type} (key : String) (choose : String → Option α) (v : Value) : Except Error α :=
  let name? :=
    match v with
    | .string s => some s
    | .table [(k, _)] => some k
    | _ => none
  match name?.bind choose with
  | some x => .ok x
  | none => .error (.refused key)

def logFormat? : String → Option LogFormat
  | "pretty" => some .pretty
  | "json" => some .json
  | _ => none

/-- The address inside the server's table, or at the head of a list. -/
def asServer (v : Value) : Except Error String :=
  match v with
  | .table entries =>
    match lookup "bind" entries with
    | some v => asText "server.bind" v
    | none => .error (.refused "server")
  | .array (v :: _) => asText "server.bind" v
  | _ => .error (.refused "server")

/-- The value of a key, or the default. -/
def field {α : Type} (t : Table) (key : String) (default : α) (read : Value → Except Error α) :
    Except Error α :=
  match lookup key t with
  | some v => read v
  | none => .ok default

def ofTable (t : Table) : Except Error Settings := do
  let network ← field t "network" default.network (asChoice "network" Network.ofName?)
  let logLevel ← field t "log_level" default.logLevel (asText "log_level")
  let logFormat ← field t "log_format" default.logFormat (asChoice "log_format" logFormat?)
  let logFile ← field t "log_file" default.logFile (asOptional (asText "log_file"))
  let bind ← field t "server" default.bind asServer
  return { network, logLevel, logFormat, logFile, bind }

/-- The settings that a file's table and the environment give. -/
def ofLayers (file : Table) (env : List (String × String)) : Except Error Settings :=
  ofTable (layered file env)

/-- A settings file. -/
structure Source where
  name : String
  format : Format
  text : String

/-- The settings from a file, if there is one, and the environment. -/
def ofFile (file : Option Source) (env : List (String × String)) : Except Error Settings :=
  match file with
  | none => ofLayers [] env
  | some file =>
    match file.format.read? file.text with
    | some t => ofLayers t env
    | none => .error (.malformed file.name)

end Settings

end TxScope
