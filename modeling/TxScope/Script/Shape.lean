import TxScope.Script.Opcode

/-!
# The shape of an output script

What can be told of an output from its bytes alone, before any address is made. The standard forms
have fixed bytes around one hash, program or key; data outputs start with the opcode `opReturn`.
-/

namespace TxScope.Script

inductive Shape where
  | empty
  /-- A data output, with its payload if one push behind the first byte can be read. -/
  | data (payload : Option Bytes)
  /-- A data output of `length` bytes whose two-byte length field is cut off. -/
  | cutData (length : Nat)
  | keyHash (hash : Bytes)
  | scriptHash (hash : Bytes)
  | witnessKeyHash (program : Bytes)
  | witnessScriptHash (program : Bytes)
  | taproot (key : Bytes)
  | publicKey (key : Bytes)
  | multisig
  | other
  deriving DecidableEq, Repr

/-- The `size` bytes between two fixed byte strings, if the script is nothing else. -/
def framed? (before : Bytes) (size : Nat) (after script : Bytes) : Option Bytes :=
  let payload := slice script before.length (before.length + size)
  if script.length = before.length + size + after.length ∧ script = before ++ payload ++ after then
    some payload
  else none

/-- The first `size` bytes, if there are as many. -/
def firstBytes? (size : Nat) (bs : Bytes) : Option Bytes :=
  if size ≤ bs.length then some (bs.take size) else none

/-- The shape of a data output, from the bytes behind its first one. Payloads with a length field
of four bytes are not taken out. -/
def dataShape : Bytes → Shape
  | [] => .data none
  | push :: rest =>
    if push ≤ maxDirectPush then .data (firstBytes? push.toNat rest)
    else
      match LengthField.ofOpcode? push with
      | some .one =>
        match rest with
        | [] => .data none
        | size :: payload => .data (firstBytes? size.toNat payload)
      | some .two =>
        if rest.length < 2 then .cutData (2 + rest.length)
        else .data (firstBytes? (littleEndian (rest.take 2)) (rest.drop 2))
      | _ => .data none

/-- The shortest script that counts as a multisignature: one short key and its numbers. -/
def minimumMultisig : Nat := 37

/-- The shape of a script that is neither empty nor a data output. -/
def standardShape (script : Bytes) : Shape :=
  if let some hash := framed? [opDup, opHash160, 20] 20 [opEqualVerify, opCheckSig] script then
    .keyHash hash
  else if let some hash := framed? [opHash160, 20] 20 [opEqual] script then .scriptHash hash
  else if let some program := framed? [op0, 20] 20 [] script then .witnessKeyHash program
  else if let some program := framed? [op0, 32] 32 [] script then .witnessScriptHash program
  else if let some key := framed? [op1, 32] 32 [] script then .taproot key
  else if let some key := framed? [65] 65 [opCheckSig] script then .publicKey key
  else if let some key := framed? [33] 33 [opCheckSig] script then .publicKey key
  else if minimumMultisig ≤ script.length ∧ script.getLast? = some opCheckMultisig then .multisig
  else .other

def Shape.ofScript : Bytes → Shape
  | [] => .empty
  | op :: rest => if op = opReturn then dataShape rest else standardShape (op :: rest)

end TxScope.Script
