import TxScope.Bytes

/-!
# Opcodes

The opcodes that have a name here, and the ones whose following bytes are data.
-/

namespace TxScope.Script

/-- The opcodes that the output templates are made of. -/
def op0 : UInt8 := 0x00
def op1 : UInt8 := 0x51
def opReturn : UInt8 := 0x6a
def opDup : UInt8 := 0x76
def opEqual : UInt8 := 0x87
def opEqualVerify : UInt8 := 0x88
def opHash160 : UInt8 := 0xa9
def opCheckSig : UInt8 := 0xac
def opCheckMultisig : UInt8 := 0xae

/-- The greatest opcode that is itself the length of the data after it. -/
def maxDirectPush : UInt8 := 0x4b

/-- The name of an opcode that is not a push. Most opcodes have none. -/
def mnemonic? (op : UInt8) : Option String :=
  if 0x51 ≤ op ∧ op ≤ 0x60 then some s!"OP_{op.toNat - 0x50}"
  else
    match op with
    | 0x00 => some "OP_0"
    | 0x61 => some "OP_NOP"
    | 0x6a => some "OP_RETURN"
    | 0x76 => some "OP_DUP"
    | 0x87 => some "OP_EQUAL"
    | 0x88 => some "OP_EQUALVERIFY"
    | 0xa9 => some "OP_HASH160"
    | 0xac => some "OP_CHECKSIG"
    | 0xad => some "OP_CHECKSIGVERIFY"
    | 0xae => some "OP_CHECKMULTISIG"
    | 0xb1 => some "OP_CHECKLOCKTIMEVERIFY"
    | 0xb2 => some "OP_CHECKSEQUENCEVERIFY"
    | 0xba => some "OP_CHECKSIGADD"
    | _ => none

/-- The pushes whose length stands in a field of its own, by the width of the field. -/
inductive LengthField where
  | one
  | two
  | four
  deriving DecidableEq, Repr

namespace LengthField

def ofOpcode? (op : UInt8) : Option LengthField :=
  match op with
  | 0x4c => some .one
  | 0x4d => some .two
  | 0x4e => some .four
  | _ => none

def width : LengthField → Nat
  | .one => 1
  | .two => 2
  | .four => 4

def name : LengthField → String
  | .one => "OP_PUSHDATA1"
  | .two => "OP_PUSHDATA2"
  | .four => "OP_PUSHDATA4"

end LengthField

end TxScope.Script
