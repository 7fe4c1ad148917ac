import TxScope.Cursor
import TxScope.Text.Hex

/-!
# Why a transaction was not read

Each cause has a short name for counting (`kind`), a sentence for people (`message`) and the form
in which the command line reports it (`diagnostic`).
-/

namespace TxScope

/-- The field that was being read. -/
inductive Stage where
  | version
  | inputCount
  | input (index : Nat)
  | outputCount
  | output (index : Nat)
  | witness (index : Nat)
  | lockTime
  deriving DecidableEq, Repr

def Stage.message : Stage → String
  | .version => "version"
  | .inputCount => "input count"
  | .input i => s!"input #{i}"
  | .outputCount => "output count"
  | .output i => s!"output #{i}"
  | .witness i => s!"witness for input #{i}"
  | .lockTime => "locktime"

def Stage.diagnostic : Stage → String
  | .version => "Version"
  | .inputCount => "InputCount"
  | .input i => s!"Input({i})"
  | .outputCount => "OutputCount"
  | .output i => s!"Output({i})"
  | .witness i => s!"Witness({i})"
  | .lockTime => "Locktime"

def Truncated.diagnostic (t : Truncated) : String :=
  s!"Truncated \x7b offset: {t.offset}, needed: {t.needed}, remaining: {t.remaining} \x7d"

def Hex.Error.diagnostic : Hex.Error → String
  | .oddLength => "OddLength"
  | .invalidDigit value index =>
    s!"InvalidHexCharacter \x7b c: {Text.quoteByte value}, index: {index} \x7d"

inductive DecodeError where
  | emptyInput
  | invalidHex (cause : Hex.Error)
  | truncated (stage : Stage) (shortage : Truncated)
  | trailingBytes (count : Nat)
  deriving DecidableEq, Repr

namespace DecodeError

def message : DecodeError → String
  | .emptyInput => "no transaction data supplied"
  | .invalidHex cause => s!"invalid transaction hex: {cause.message}"
  | .truncated stage shortage =>
    s!"transaction truncated while reading {stage.message}: {shortage.message}"
  | .trailingBytes count => s!"{count} unexpected bytes after locktime"

def kind : DecodeError → String
  | .emptyInput => "empty_input"
  | .invalidHex _ => "invalid_hex"
  | .truncated _ _ => "truncated"
  | .trailingBytes _ => "trailing_bytes"

def diagnostic : DecodeError → String
  | .emptyInput => "EmptyInput"
  | .invalidHex cause => s!"InvalidHex({cause.diagnostic})"
  | .truncated stage shortage =>
    s!"Truncated \x7b stage: {stage.diagnostic}, source: {shortage.diagnostic} \x7d"
  | .trailingBytes count => s!"TrailingBytes \x7b count: {count} \x7d"

end DecodeError

end TxScope
