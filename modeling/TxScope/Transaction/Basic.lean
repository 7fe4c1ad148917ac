import TxScope.Digest

/-!
# Transactions

A transaction with the bytes it was read from. The span `body` holds the inputs and outputs with
their counts, that is, what stands between the version (and the witness marker) and the witnesses
(or the lock time); with it the bytes without witness data are cut out of `raw`.
-/

namespace TxScope

/-- The bytes from `start` up to, and without, `stop`. -/
structure Span where
  start : Nat
  stop : Nat
  deriving DecidableEq, Repr

def Span.length (s : Span) : Nat := s.stop - s.start

structure Input where
  /-- The transaction that the spent output belongs to. -/
  prevHash : Hash256
  prevIndex : UInt32
  scriptSig : Bytes
  sequence : UInt32
  witness : List Bytes
  deriving DecidableEq

structure Output where
  value : UInt64
  scriptPubKey : Bytes
  deriving DecidableEq

structure Transaction where
  version : Int32
  hasWitness : Bool
  inputs : List Input
  outputs : List Output
  lockTime : UInt32
  raw : Bytes
  body : Span
  deriving DecidableEq

/-- The name of the transaction that an input spends from. -/
def Input.prevTxid (i : Input) : String := i.prevHash.reference

/-- The greatest sequence number: the input is final. -/
def finalSequence : UInt32 := 0xffffffff

/-- An input offers replacement when its sequence is below the two greatest numbers. -/
def Input.signalsReplacement (i : Input) : Bool := i.sequence < finalSequence - 1

namespace Transaction

/-- The bytes without marker and witnesses: version, body and lock time. -/
def stripped (tx : Transaction) : Bytes :=
  if tx.hasWitness then
    tx.raw.take 4 ++ slice tx.raw tx.body.start tx.body.stop ++ tx.raw.drop (tx.raw.length - 4)
  else tx.raw

/-- The bytes in all witness items together, without counts and lengths. -/
def witnessBytes (tx : Transaction) : Nat :=
  (tx.inputs.flatMap Input.witness).foldr (fun item n => item.length + n) 0

/-- The sum of the output values, held at the greatest 64-bit number. -/
def totalOutputValue (tx : Transaction) : Nat :=
  tx.outputs.foldl (fun total o => min (total + o.value.toNat) 0xffffffffffffffff) 0

/-- Some input offers replacement. -/
def isReplaceable (tx : Transaction) : Bool := tx.inputs.any Input.signalsReplacement

end Transaction

end TxScope
