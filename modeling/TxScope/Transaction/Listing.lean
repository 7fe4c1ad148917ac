import TxScope.Transaction.Basic

/-!
# A transaction field by field

The listing names each field on a line of its own, for logs and for reading by eye.
-/

namespace TxScope

/-- Items between square brackets, with a comma and a space between two. -/
def bracketed (items : List String) : String := "[" ++ ", ".intercalate items ++ "]"

/-- Bytes in hexadecimal between double quotes. -/
def quotedHex (bs : Bytes) : String := "\"" ++ Hex.encode bs ++ "\""

def Input.listing (i : Input) : String :=
  "\x7b\n" ++
  s!"    prevout: {i.prevTxid}:{i.prevIndex.toNat}\n" ++
  s!"    script_sig: {quotedHex i.scriptSig}\n" ++
  s!"    sequence: {i.sequence.toNat}\n" ++
  s!"    witness: {bracketed (i.witness.map quotedHex)}\n" ++
  "\x7d"

def Output.listing (o : Output) : String :=
  "\x7b\n" ++
  s!"    value: {o.value.toNat}\n" ++
  s!"    script_pubkey: {quotedHex o.scriptPubKey}\n" ++
  "\x7d"

def Transaction.listing (tx : Transaction) : String :=
  "Transaction \x7b\n" ++
  s!"    version: {tx.version.toInt}\n" ++
  s!"    has_witness: {tx.hasWitness}\n" ++
  s!"    inputs: {bracketed (tx.inputs.map Input.listing)}\n" ++
  s!"    outputs: {bracketed (tx.outputs.map Output.listing)}\n" ++
  s!"    lock_time: {tx.lockTime.toNat}\n" ++
  "\x7d\n"

end TxScope
