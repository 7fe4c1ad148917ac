import TxScope.Classification
import TxScope.Report.Amount
import TxScope.Script.Disassembly
import TxScope.Transaction.Decode
import TxScope.Transaction.Size

/-!
# Reports

Everything that is shown about a transaction, as text and numbers. `Report.ofTransaction` builds it
from a transaction, `Report.ofHex` reads the transaction first.
-/

namespace TxScope

/-- How transactions are named: by their bytes without witnesses, and by all of them. -/
structure Identifier where
  txid : Bytes → String
  wtxid : Bytes → String

/-- Both names are double SHA-256. -/
def Identifier.standard : Identifier where
  txid := fun bs => (Hash256.ofMessage bs).display
  wtxid := fun bs => (Hash256.ofMessage bs).display

structure InputReport where
  index : Nat
  txid : String
  vout : UInt32
  sequence : UInt32
  sequenceHex : String
  scriptSig : String
  /-- The listing of the script, unless it is empty. -/
  scriptSigAsm : Option String
  witness : List String
  deriving DecidableEq, Repr

structure OutputReport where
  index : Nat
  value : UInt64
  amount : String
  scriptPubKey : String
  scriptPubKeyAsm : String
  classification : Classification
  deriving DecidableEq, Repr

structure Report where
  txid : String
  /-- Only for a transaction with witnesses. -/
  wtxid : Option String
  network : Network
  version : Int32
  size : Nat
  weight : Nat
  virtualSize : Nat
  hasWitness : Bool
  isReplaceable : Bool
  lockTime : UInt32
  totalOutputValue : Nat
  totalOutputAmount : String
  inputs : List InputReport
  outputs : List OutputReport
  deriving DecidableEq, Repr

def InputReport.ofInput (index : Nat) (i : Input) : InputReport where
  index := index
  txid := i.prevTxid
  vout := i.prevIndex
  sequence := i.sequence
  sequenceHex := "0x" ++ Text.hexadecimal i.sequence.toNat
  scriptSig := Hex.encode i.scriptSig
  scriptSigAsm := if i.scriptSig.isEmpty then none else some (Script.render i.scriptSig)
  witness := i.witness.map Hex.encode

def OutputReport.ofOutput (codec : Codec) (network : Network) (index : Nat) (o : Output) :
    OutputReport where
  index := index
  value := o.value
  amount := Amount.text o.value.toNat
  scriptPubKey := Hex.encode o.scriptPubKey
  scriptPubKeyAsm := Script.render o.scriptPubKey
  classification := Classification.ofScript o.scriptPubKey codec network

namespace Report

def ofTransaction (codec : Codec) (identifier : Identifier) (network : Network)
    (tx : Transaction) : Report where
  txid := identifier.txid tx.stripped
  wtxid := if tx.hasWitness then some (identifier.wtxid tx.raw) else none
  network := network
  version := tx.version
  size := tx.sizes.size
  weight := tx.sizes.weight
  virtualSize := tx.sizes.virtualSize
  hasWitness := tx.hasWitness
  isReplaceable := tx.isReplaceable
  lockTime := tx.lockTime
  totalOutputValue := tx.totalOutputValue
  totalOutputAmount := Amount.text tx.totalOutputValue
  inputs := tx.inputs.mapIdx InputReport.ofInput
  outputs := tx.outputs.mapIdx (OutputReport.ofOutput codec network)

/-- Reads hexadecimal text as one transaction and reports on it. -/
def ofHex (codec : Codec) (identifier : Identifier) (network : Network) (text : String) :
    Except DecodeError Report := do
  let raw ← Transaction.bytesOfHex text
  let tx ← Transaction.decode raw
  return ofTransaction codec identifier network tx

end Report

end TxScope
