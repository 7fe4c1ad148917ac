import TxScope.Json.Value
import TxScope.Report.Basic

/-!
# The report as JSON

Members come in a fixed order; a member without a value is left out.
-/

namespace TxScope

/-- A member that is there only with a value. -/
def Json.optional (key : String) (value : Option Json) : List (String × Json) :=
  match value with
  | some v => [(key, v)]
  | none => []

def Json.natural (n : Nat) : Json := .number n

def Classification.toJson (c : Classification) : Json :=
  .object <|
    [("type", .text c.type.name)] ++
    Json.optional "address" (c.address.map .text) ++
    [("description", .text c.description)] ++
    Json.optional "data" (c.data.map fun d => .text (Hex.encode d))

def InputReport.toJson (i : InputReport) : Json :=
  .object <|
    [("index", .natural i.index),
     ("txid", .text i.txid),
     ("vout", .natural i.vout.toNat),
     ("sequence", .natural i.sequence.toNat),
     ("sequence_hex", .text i.sequenceHex),
     ("script_sig", .text i.scriptSig)] ++
    Json.optional "script_sig_asm" (i.scriptSigAsm.map .text) ++
    if i.witness.isEmpty then [] else [("witness", .list (i.witness.map .text))]

def OutputReport.toJson (o : OutputReport) : Json :=
  .object
    [("index", .natural o.index),
     ("value", .natural o.value.toNat),
     ("amount", .text o.amount),
     ("script_pubkey", .text o.scriptPubKey),
     ("script_pubkey_asm", .text o.scriptPubKeyAsm),
     ("classification", o.classification.toJson)]

def Report.toJson (r : Report) : Json :=
  .object <|
    [("txid", .text r.txid)] ++
    Json.optional "wtxid" (r.wtxid.map .text) ++
    [("network", .text r.network.name),
     ("version", .number r.version.toInt),
     ("size", .natural r.size),
     ("weight", .natural r.weight),
     ("vsize", .natural r.virtualSize),
     ("has_witness", .bool r.hasWitness),
     ("is_rbf", .bool r.isReplaceable),
     ("locktime", .natural r.lockTime.toNat),
     ("total_output_value", .natural r.totalOutputValue),
     ("total_output_amount", .text r.totalOutputAmount),
     ("inputs", .list (r.inputs.map InputReport.toJson)),
     ("outputs", .list (r.outputs.map OutputReport.toJson))]

end TxScope
