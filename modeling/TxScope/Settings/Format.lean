import TxScope.Ini
import TxScope.Json.Document
import TxScope.Json.Relaxed
import TxScope.Ron
import TxScope.Toml.Document
import TxScope.Yaml.Document

/-!
# Formats of settings files

The ending of a file's name says in which format it is written. Whatever the format, a file stands
for a table; one that holds something else counts as empty, if its format allows that at all.
-/

namespace TxScope.Settings

inductive Format where
  | toml
  | json
  | yaml
  | ini
  | ron
  | relaxedJson
  deriving DecidableEq, Repr

namespace Format

def all : List Format := [.toml, .json, .yaml, .ini, .ron, .relaxedJson]

/-- What the name of a file ends with, behind its last point. -/
def endings : Format → List String
  | .toml => ["toml"]
  | .json => ["json"]
  | .yaml => ["yaml", "yml"]
  | .ini => ["ini"]
  | .ron => ["ron"]
  | .relaxedJson => ["json5"]

def ofEnding? (ending : String) : Option Format := all.find? (·.endings.contains ending)

/-- The entries of a table; anything else has none. -/
def entriesOf : Value → Table
  | .table entries => entries
  | _ => []

/-- The table that a text stands for, unless it is malformed. -/
def read? : Format → String → Option Table
  | .toml, text => Toml.ofText? text
  | .json, text => (JsonText.ofText? text).map entriesOf
  | .yaml, text => (Yaml.ofText? text).map entriesOf
  | .ini, text => Ini.ofText? text
  | .ron, text => (Ron.ofText? text).map entriesOf
  | .relaxedJson, text => RelaxedJson.ofText? text

end Format

end TxScope.Settings
