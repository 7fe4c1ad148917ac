import TxScope.Report.Basic

/-!
# The report as plain text

Sections with a heading each, one line a field. Fields that a transaction does not have are left
out: the second identifier and the virtual size without witnesses, the listing of an empty script,
the payload of a data output that carries no bytes.
-/

namespace TxScope

def yesNo (b : Bool) : String := if b then "yes" else "no"

/-- Lines, each with its end. -/
def unlines (lines : List String) : String := String.join (lines.map (· ++ "\n"))

/-- Items with their number in front. -/
def numbered (items : List String) : List String := items.mapIdx fun i item => s!"    [{i}] {item}"

def InputReport.lines (i : InputReport) : List String :=
  ["", s!"Input #{i.index}:",
   s!"  Previous tx: {i.txid}",
   s!"  Output index (vout): {i.vout.toNat}",
   s!"  Sequence: {i.sequence.toNat} ({i.sequenceHex})"] ++
  (match i.scriptSigAsm with
    | some asm => [s!"  ScriptSig: {i.scriptSig}", s!"  Disassembly: {asm}"]
    | none => ["  ScriptSig: [empty]"]) ++
  if i.witness.isEmpty then [] else "  Witness:" :: numbered i.witness

def OutputReport.lines (o : OutputReport) : List String :=
  let c := o.classification
  ["", s!"Output #{o.index}:",
   s!"  Amount: {o.amount}",
   s!"  ScriptPubKey: {o.scriptPubKey}",
   s!"  Disassembly: {o.scriptPubKeyAsm}",
   s!"  Type: {c.type.name}",
   s!"  Description: {c.description}"] ++
  (match c.address with
    | some address => [s!"  Address: {address}"]
    | none => []) ++
  match c.data with
    | some (b :: bs) => [s!"  Data: {Hex.encode (b :: bs)}"]
    | _ => []

namespace Report

def headLines (r : Report) : List String :=
  ["=== Transaction ===", s!"TxID: {r.txid}"] ++
  (match r.wtxid with
    | some wtxid => [s!"WTxID: {wtxid}"]
    | none => []) ++
  [s!"Version: {r.version.toInt}", s!"Size: {r.size} bytes"] ++
  (if r.hasWitness then [s!"Virtual size: {r.virtualSize} vB"] else []) ++
  [s!"Weight: {r.weight} WU",
   s!"Segregated witness: {yesNo r.hasWitness}",
   s!"Replace-By-Fee (RBF): {yesNo r.isReplaceable}",
   s!"Total output: {r.totalOutputAmount}"]

def lines (r : Report) : List String :=
  r.headLines ++
  ["", s!"=== Inputs ({r.inputs.length}) ==="] ++ r.inputs.flatMap InputReport.lines ++
  ["", s!"=== Outputs ({r.outputs.length}) ==="] ++ r.outputs.flatMap OutputReport.lines ++
  ["", "=== Other ===", s!"Locktime: {r.lockTime.toNat}"]

/-- The whole text. -/
def text (r : Report) : String := unlines r.lines

end Report

end TxScope
