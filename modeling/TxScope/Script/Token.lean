import TxScope.Script.Opcode
import TxScope.Text.Hex

/-!
# Script tokens

A script is a row of opcodes and pushes of data. Reading it never fails: a push that is cut off
becomes a token that says what was missing, and is the last one.
-/

namespace TxScope.Script

/-- Why a push is cut off. -/
inductive MalformedPush where
  /-- The length field itself is short. -/
  | missingLength (field : LengthField)
  /-- The declared length is more than what is left of the script. -/
  | exceedsBuffer (declared available : Nat)
  deriving DecidableEq, Repr

inductive Token where
  | opcode (op : UInt8)
  | push (op : UInt8) (data : Bytes)
  | malformed (reason : MalformedPush)
  deriving DecidableEq, Repr

def MalformedPush.message : MalformedPush → String
  | .missingLength field => s!"invalid {field.name}: missing length bytes"
  | .exceedsBuffer _ _ => "push length exceeds buffer"

namespace Token

/-- The width of the length field behind a push opcode. -/
def headerWidth (op : UInt8) : Nat :=
  match LengthField.ofOpcode? op with
  | some field => field.width
  | none => 0

/-- How many bytes of the script the token covers. -/
def size : Token → Nat
  | .opcode _ => 1
  | .push op data => 1 + headerWidth op + data.length
  | .malformed _ => 0

def isMalformed : Token → Bool
  | .malformed _ => true
  | _ => false

/-- The token as it stands in an assembly listing. An opcode without a name is shown by number. -/
def text : Token → String
  | .opcode op => (mnemonic? op).getD s!"[0x{Hex.encode [op]}]"
  | .push _ data => s!"<{Hex.encode data}>"
  | .malformed reason => s!"[{reason.message}]"

end Token

end TxScope.Script
