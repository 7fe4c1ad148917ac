import TxScope.Proofs.Identifiers
import TxScope.Proofs.Lines
import TxScope.Proofs.Serialization
import TxScope.Proofs.Sizes

/-!
# A report read off its text

The text of a report leaves lines out and puts some fields into sentences, but tells the report
(`Report.text_eq_text_iff`). Of an input and an output it tells all but what the script stands for,
which follows from the script. Whether the lines for a transaction with witnesses are there is seen
from the first character of the line in their place, and without witnesses the virtual size is the
size.
-/

namespace TxScope

open Text

/-! ## Witnesses -/

def itemLine (p : Bytes × Nat) : String := s!"    [{p.2}] {Hex.encode p.1}"

def witnessLines (stack : List Bytes) : List String :=
  if stack.isEmpty then [] else "  Witness:" :: stack.zipIdx.flatMap fun p => [itemLine p]

theorem numbered_map_encode (stack : List Bytes) :
    numbered (stack.map Hex.encode) = stack.zipIdx.flatMap fun p => [itemLine p] := by
  rw [numbered, List.mapIdx_eq_zipIdx_map, List.zipIdx_map, List.map_map, List.map_eq_flatMap]
  rfl

theorem tells_item (p q : Bytes × Nat) :
    Tells (spell [itemLine p]) (spell [itemLine q]) (p = q) := by
  have hline : ∀ p, spell [itemLine p] = "    [".toList ++
      ((toString p.2).toList ++ [']'] ++ spell [" " ++ Hex.encode p.1]) := by
    intro p
    simp [spell_singleton, itemLine, toString_text]
  rw [hline, hline]
  refine (((Tells.number rfl _ _).append fun _ => tells_hex " " _ _).append_left _).imp ?_
  intro h
  exact Prod.ext h.2 h.1

/-- The items of a witness end at an empty line. Without items there is no heading either, and the
empty line stands in its place. -/
theorem tells_witness (stack stack' : List Bytes) :
    Tells (spell (witnessLines stack ++ [""])) (spell (witnessLines stack' ++ [""]))
      (stack = stack') := by
  have hstop : ∀ p, Tells (spell [itemLine p]) (spell [""]) False := fun p =>
    clash_lines (by simp [itemLine, toString_text])
  have hitems := tells_row tells_item hstop hstop (.same _) stack.zipIdx stack'.zipIdx
  rcases stack with _ | ⟨item, items⟩
  · rcases stack' with _ | ⟨item', items'⟩
    · exact (Tells.same _).imp fun _ => rfl
    · exact (clash_lines (by simp)).of_clash
  · rcases stack' with _ | ⟨item', items'⟩
    · exact (clash_lines (by simp)).of_clash
    · refine (tells_heading _ hitems).imp fun h => ?_
      rw [← List.zipIdx_map_fst 0 (item :: items), h.1, List.zipIdx_map_fst]

/-! ## Inputs -/

/-- What the text shows for the script of an input. -/
def sigText (script : Bytes) : String := if script.isEmpty then "[empty]" else Hex.encode script

def asmLines (script : Bytes) : List String :=
  if script.isEmpty then [] else [s!"  Disassembly: {Script.render script}"]

/-- The lines of an input, without the empty one. -/
def inputLines (p : Input × Nat) : List String :=
  s!"Input #{p.2}:" :: s!"  Previous tx: {p.1.prevTxid}" ::
  s!"  Output index (vout): {p.1.prevIndex.toNat}" ::
  s!"  Sequence: {p.1.sequence.toNat} ({(InputReport.ofInput p.2 p.1).sequenceHex})" ::
  s!"  ScriptSig: {sigText p.1.scriptSig}" :: (asmLines p.1.scriptSig ++ witnessLines p.1.witness)

theorem lines_ofInput (index : Nat) (i : Input) :
    (InputReport.ofInput index i).lines = "" :: inputLines (i, index) := by
  have hwitness : (if (InputReport.ofInput index i).witness.isEmpty then []
      else "  Witness:" :: numbered (InputReport.ofInput index i).witness) =
      witnessLines i.witness := by
    rw [InputReport.ofInput, numbered_map_encode, List.isEmpty_map, witnessLines]
  rw [InputReport.lines, hwitness]
  rcases hscript : i.scriptSig with _ | ⟨b, bs⟩
  · simp [InputReport.ofInput, inputLines, hscript, sigText, asmLines, toString_text]
  · simp [InputReport.ofInput, inputLines, hscript, sigText, asmLines, toString_text]

theorem newline_not_mem_sigText (script : Bytes) : '\n' ∉ (sigText script).toList := by
  unfold sigText
  split_ifs
  · simp
  · exact Hex.not_mem_encode rfl

theorem encode_ne_empty_mark (script : Bytes) : Hex.encode script ≠ "[empty]" := by
  intro h
  have hlength := congrArg String.length h
  rw [Hex.encode, String.length_ofList, Hex.length_encodeChars] at hlength
  have hmark : "[empty]".length = 7 := rfl
  omega

theorem sigText_injective : Function.Injective sigText := by
  intro script script' h
  unfold sigText at h
  split_ifs at h with hempty hempty' hempty'
  · rw [List.isEmpty_iff.1 hempty, List.isEmpty_iff.1 hempty']
  · exact absurd h.symm (encode_ne_empty_mark script')
  · exact absurd h (encode_ne_empty_mark script)
  · exact Hex.encode_injective h

theorem tells_hash (label : String) (h h' : Hash256) :
    Tells (spell [label ++ h.display]) (spell [label ++ h'.display]) (h = h') :=
  (tells_hex label h.bytes.reverse h'.bytes.reverse).imp fun hbytes =>
    Hash256.display_injective (congrArg Hex.encode hbytes)

theorem tells_input (p q : Input × Nat) :
    Tells (spell (inputLines p ++ [""])) (spell (inputLines q ++ [""])) (p = q) := by
  obtain ⟨⟨hash, index, script, sequence, witness⟩, k⟩ := p
  obtain ⟨⟨hash', index', script', sequence', witness'⟩, k'⟩ := q
  have hnumber := tells_measure "Input #" ":" ':' rfl (by simp) k k'
  have hhash := tells_hash "  Previous tx: " hash hash'
  have hindex := tells_number "  Output index (vout): " index.toNat index'.toNat
  have hsequence := tells_figure "  Sequence: " (fun n => " (" ++ ("0x" ++ hexadecimal n) ++ ")")
    (c := ' ') rfl (fun _ => by simp) sequence.toNat sequence'.toNat
  have hscript := tells_label "  ScriptSig: "
    (tells_field (newline_not_mem_sigText script) (newline_not_mem_sigText script'))
  have hbehind : sigText script = sigText script' →
      Tells (spell (asmLines script ++ (witnessLines witness ++ [""])))
        (spell (asmLines script' ++ (witnessLines witness' ++ [""])))
        (True ∧ witness = witness') := by
    intro h
    rw [sigText_injective h]
    exact tells_append (.same _) fun _ => tells_witness witness witness'
  have hall := tells_cons hnumber fun _ => tells_cons hhash fun _ => tells_cons hindex fun _ =>
    tells_cons hsequence fun _ => tells_cons hscript hbehind
  simp only [String.append_assoc] at hall
  simp only [inputLines, Input.prevTxid, Hash256.reference_eq_display, List.cons_append,
    List.append_assoc, String.append_assoc]
  refine hall.imp fun h => ?_
  obtain ⟨hk, hhash, hindex, hsequence, hscript, -, hwitness⟩ := h
  rw [hk, hhash, UInt32.toNat_inj.1 hindex, UInt32.toNat_inj.1 hsequence, sigText_injective hscript,
    hwitness]

/-! ## Outputs -/

section Outputs

variable (codec : Codec) (network : Network)

/-- The lines that the script of an output is enough for. -/
def scriptLines (script : Bytes) : List String :=
  let c := Classification.ofScript script codec network
  [s!"  Disassembly: {Script.render script}", s!"  Type: {c.type.name}",
    s!"  Description: {c.description}"] ++
  (match c.address with
    | some address => [s!"  Address: {address}"]
    | none => []) ++
  match c.data with
    | some (b :: bs) => [s!"  Data: {Hex.encode (b :: bs)}"]
    | _ => []

/-- The lines of an output, without the empty one. -/
def outputLines (p : Output × Nat) : List String :=
  s!"Output #{p.2}:" :: s!"  Amount: {Amount.text p.1.value.toNat}" ::
  s!"  ScriptPubKey: {Hex.encode p.1.scriptPubKey}" :: scriptLines codec network p.1.scriptPubKey

theorem lines_ofOutput (index : Nat) (o : Output) :
    (OutputReport.ofOutput codec network index o).lines =
      "" :: outputLines codec network (o, index) := rfl

theorem tells_output (p q : Output × Nat) :
    Tells (spell (outputLines codec network p ++ [""]))
      (spell (outputLines codec network q ++ [""])) (p = q) := by
  obtain ⟨⟨value, script⟩, k⟩ := p
  obtain ⟨⟨value', script'⟩, k'⟩ := q
  have hnumber := tells_measure "Output #" ":" ':' rfl (by simp) k k'
  have hamount := tells_amount "  Amount: " value.toNat value'.toNat
  have hscript := tells_hex "  ScriptPubKey: " script script'
  have hbehind : script = script' → Tells (spell (scriptLines codec network script ++ [""]))
      (spell (scriptLines codec network script' ++ [""])) True := by
    intro h
    rw [h]
    exact .same _
  have hall := tells_cons hnumber fun _ => tells_cons hamount fun _ => tells_cons hscript hbehind
  refine hall.imp fun h => ?_
  obtain ⟨hk, hvalue, hscript, -⟩ := h
  rw [hk, UInt64.toNat_inj.1 hvalue, hscript]

end Outputs

/-! ## The head -/

namespace Transaction

/-- What is there only for a transaction with witnesses. -/
def witnessed {α : Type} (tx : Transaction) (x : α) : List α := if tx.hasWitness then [x] else []

theorem hasWitness_eq_of_witnessed {α : Type} {tx tx' : Transaction} {x x' : α}
    (h : tx.witnessed x = tx'.witnessed x') : tx.hasWitness = tx'.hasWitness := by
  unfold witnessed at h
  split_ifs at h with hw hw' hw'
  · rw [hw, hw']
  · simp [hw, hw']

theorem eq_of_witnessed {α : Type} {tx tx' : Transaction} {x x' : α}
    (h : tx.witnessed x = tx'.witnessed x') (hw : tx.hasWitness = true) : x = x' := by
  have hw' := hw
  rw [hasWitness_eq_of_witnessed h] at hw'
  rw [witnessed, witnessed, if_pos hw, if_pos hw'] at h
  exact (List.cons.inj h).1

end Transaction

def flagLines (tx : Transaction) : List String :=
  [s!"Segregated witness: {yesNo tx.hasWitness}",
    s!"Replace-By-Fee (RBF): {yesNo tx.isReplaceable}",
    s!"Total output: {Amount.text tx.totalOutputValue}"]

def versionLine (version : Int32) : String := s!"Version: {version.toInt}"

def wtxidLine (wtxid : Hash256) : String := s!"WTxID: {wtxid.display}"

def sizeLines (tx : Transaction) : List String :=
  versionLine tx.version :: s!"Size: {tx.sizes.size} bytes" ::
    ((tx.witnessed tx.sizes.virtualSize).flatMap (fun n => [s!"Virtual size: {n} vB"]) ++
      s!"Weight: {tx.sizes.weight} WU" :: flagLines tx)

theorem headLines_ofTransaction (codec : Codec) (network : Network) (tx : Transaction) :
    (Report.ofTransaction codec .standard network tx).headLines =
      "=== Transaction ===" :: s!"TxID: {(Hash256.ofMessage tx.stripped).display}" ::
        ((tx.witnessed (Hash256.ofMessage tx.raw)).flatMap (fun h => [wtxidLine h]) ++
          sizeLines tx) := by
  rcases hw : tx.hasWitness with _ | _
  · simp [Report.headLines, Report.ofTransaction, Transaction.witnessed, sizeLines, flagLines, hw,
      versionLine, wtxidLine, Identifier.standard]
  · simp [Report.headLines, Report.ofTransaction, Transaction.witnessed, sizeLines, flagLines, hw,
      versionLine, wtxidLine, Identifier.standard]

theorem newline_not_mem_yesNo (b : Bool) : '\n' ∉ (yesNo b).toList := by
  cases b <;> simp [yesNo]

theorem tells_flags (tx tx' : Transaction) :
    Tells (spell (flagLines tx)) (spell (flagLines tx')) True := by
  have hwitness := tells_label "Segregated witness: "
    (tells_field (newline_not_mem_yesNo tx.hasWitness) (newline_not_mem_yesNo tx'.hasWitness))
  have hreplace := tells_label "Replace-By-Fee (RBF): " (tells_field
    (newline_not_mem_yesNo tx.isReplaceable) (newline_not_mem_yesNo tx'.isReplaceable))
  have htotal := tells_amount "Total output: " tx.totalOutputValue tx'.totalOutputValue
  exact (tells_cons hwitness fun _ => tells_cons hreplace fun _ => tells_cons htotal fun _ =>
    Tells.same _).imp fun _ => trivial

theorem tells_version (version version' : Int32) :
    Tells (spell [versionLine version]) (spell [versionLine version']) (version = version') := by
  have hnewline : ∀ z : Int, '\n' ∉ (toString z).toList := fun z =>
    not_mem_toString_int rfl (by simp)
  refine (tells_label "Version: " (tells_field (hnewline _) (hnewline _))).imp fun h => ?_
  exact Int32.toInt_inj.1 (toString_int_injective h)

theorem tells_sizes (tx tx' : Transaction) :
    Tells (spell (sizeLines tx)) (spell (sizeLines tx'))
      (tx.version = tx'.version ∧ tx.sizes.size = tx'.sizes.size ∧
        tx.witnessed tx.sizes.virtualSize = tx'.witnessed tx'.sizes.virtualSize ∧
        tx.sizes.weight = tx'.sizes.weight) := by
  have hsize := tells_measure "Size: " " bytes" ' ' rfl (by simp) tx.sizes.size tx'.sizes.size
  have hweight := tells_measure "Weight: " " WU" ' ' rfl (by simp) tx.sizes.weight tx'.sizes.weight
  have hvirtual : ∀ m n : Nat, Tells (spell [s!"Virtual size: {m} vB"])
      (spell [s!"Virtual size: {n} vB"]) (m = n) :=
    tells_measure "Virtual size: " " vB" ' ' rfl (by simp)
  have hstop : ∀ (tx : Transaction) (n : Nat), Tells (spell [s!"Virtual size: {n} vB"])
      (spell (s!"Weight: {tx.sizes.weight} WU" :: flagLines tx)) False := fun tx n =>
    clash_lines (by simp [toString_text])
  have hlast := (tells_cons hweight fun _ => tells_flags tx tx').imp And.left
  exact tells_cons (tells_version _ _) fun _ => tells_cons hsize fun _ =>
    tells_row hvirtual (hstop tx) (hstop tx') hlast _ _

/-! ## The whole text -/

namespace Report

variable (codec : Codec) (network : Network)

theorem tells_headLines (tx tx' : Transaction) :
    Tells (spell (ofTransaction codec .standard network tx).headLines)
      (spell (ofTransaction codec .standard network tx').headLines)
      (Hash256.ofMessage tx.stripped = Hash256.ofMessage tx'.stripped ∧
        tx.witnessed (Hash256.ofMessage tx.raw) = tx'.witnessed (Hash256.ofMessage tx'.raw) ∧
        tx.version = tx'.version ∧ tx.sizes.size = tx'.sizes.size ∧
        tx.witnessed tx.sizes.virtualSize = tx'.witnessed tx'.sizes.virtualSize ∧
        tx.sizes.weight = tx'.sizes.weight) := by
  have hwtxid : ∀ h h' : Hash256, Tells (spell [wtxidLine h]) (spell [wtxidLine h']) (h = h') :=
    tells_hash "WTxID: "
  have hstop : ∀ (tx : Transaction) (h : Hash256), Tells (spell [wtxidLine h])
      (spell (sizeLines tx)) False := fun tx h =>
    clash_lines (by simp [wtxidLine, versionLine, toString_text])
  rw [headLines_ofTransaction, headLines_ofTransaction]
  exact tells_heading _ (tells_cons (tells_hash "TxID: " _ _) fun _ =>
    tells_row hwtxid (hstop tx) (hstop tx') (tells_sizes tx tx') _ _)

def footLines (tx : Transaction) : List String :=
  ["=== Other ===", s!"Locktime: {tx.lockTime.toNat}"]

/-- The lines from the heading of the inputs to the end. -/
def bodyLines (tx : Transaction) : List String :=
  "" :: s!"=== Inputs ({tx.inputs.length}) ===" ::
    ((tx.inputs.zipIdx.flatMap fun p => "" :: inputLines p) ++
      "" :: s!"=== Outputs ({tx.outputs.length}) ===" ::
        ((tx.outputs.zipIdx.flatMap fun p => "" :: outputLines codec network p) ++
          "" :: footLines tx))

theorem lines_ofTransaction (tx : Transaction) :
    (ofTransaction codec .standard network tx).lines =
      (ofTransaction codec .standard network tx).headLines ++ bodyLines codec network tx := by
  have hinputs : (tx.inputs.mapIdx InputReport.ofInput).flatMap InputReport.lines =
      tx.inputs.zipIdx.flatMap fun p => "" :: inputLines p := by
    rw [List.mapIdx_eq_zipIdx_map, List.flatMap_map]
    exact congrArg (tx.inputs.zipIdx.flatMap ·) (funext fun p => lines_ofInput p.2 p.1)
  have houtputs : (tx.outputs.mapIdx (OutputReport.ofOutput codec network)).flatMap
      OutputReport.lines =
      tx.outputs.zipIdx.flatMap fun p => "" :: outputLines codec network p := by
    rw [List.mapIdx_eq_zipIdx_map, List.flatMap_map]
    exact congrArg (tx.outputs.zipIdx.flatMap ·) (funext fun p =>
      lines_ofOutput codec network p.2 p.1)
  simp only [lines, ofTransaction, hinputs, houtputs, List.length_mapIdx, List.append_assoc,
    List.cons_append, List.nil_append]
  rfl

theorem tells_foot (tx tx' : Transaction) :
    Tells (spell (footLines tx)) (spell (footLines tx')) (tx.lockTime = tx'.lockTime) := by
  have hlock := tells_number "Locktime: " tx.lockTime.toNat tx'.lockTime.toNat
  exact (tells_heading _ (tells_cons hlock fun _ => .same _)).imp fun h => UInt32.toNat_inj.1 h.1

theorem tells_body (tx tx' : Transaction) :
    Tells (spell (bodyLines codec network tx)) (spell (bodyLines codec network tx'))
      (tx.inputs = tx'.inputs ∧ tx.outputs = tx'.outputs ∧ tx.lockTime = tx'.lockTime) := by
  have hinputs := tells_measure "=== Inputs (" ") ===" ')' rfl (by simp) tx.inputs.length
    tx'.inputs.length
  have houtputs := tells_measure "=== Outputs (" ") ===" ')' rfl (by simp) tx.outputs.length
    tx'.outputs.length
  have hinput : ∀ (n : Nat) ls p, Tells (spell (inputLines p))
      (spell (s!"=== Outputs ({n}) ===" :: ls)) False := fun n ls p =>
    clash_lines (by simp [toString_text])
  have houtput : ∀ (tx : Transaction) p, Tells (spell (outputLines codec network p))
      (spell (footLines tx)) False := fun tx p => clash_lines (by simp [toString_text])
  have hrows := tells_blocks tells_input (hinput _ _) (hinput _ _)
    (tells_cons houtputs fun _ => tells_blocks (tells_output codec network) (houtput tx)
      (houtput tx') (tells_foot tx tx') tx.outputs.zipIdx tx'.outputs.zipIdx)
    tx.inputs.zipIdx tx'.inputs.zipIdx
  refine (tells_heading _ (tells_cons hinputs fun _ => hrows)).imp ?_
  intro h
  obtain ⟨-, hin, -, hout, hlock⟩ := h
  refine ⟨?_, ?_, hlock⟩
  · rw [← List.zipIdx_map_fst 0 tx.inputs, hin, List.zipIdx_map_fst]
  · rw [← List.zipIdx_map_fst 0 tx.outputs, hout, List.zipIdx_map_fst]

/-- The virtual size, which stands there only with witnesses, follows without them. -/
theorem virtualSize_eq {tx tx' : Transaction} (hsize : tx.sizes.size = tx'.sizes.size)
    (h : tx.witnessed tx.sizes.virtualSize = tx'.witnessed tx'.sizes.virtualSize) :
    tx.sizes.virtualSize = tx'.sizes.virtualSize := by
  have hwitness := Transaction.hasWitness_eq_of_witnessed h
  rcases hw : tx.hasWitness with _ | _
  · rw [hw] at hwitness
    rw [Transaction.sizes_of_plain hw, Transaction.sizes_of_plain hwitness.symm] at hsize ⊢
    exact hsize
  · exact Transaction.eq_of_witnessed h hw

theorem spell_lines (r : Report) : spell r.lines = r.text.toList := rfl

/-- Nothing of a report is missing in its text: what is left out follows from what is there. -/
theorem eq_of_text_eq {tx tx' : Transaction}
    (h : (ofTransaction codec .standard network tx).text =
      (ofTransaction codec .standard network tx').text) :
    ofTransaction codec .standard network tx = ofTransaction codec .standard network tx' := by
  have hall := (tells_headLines codec network tx tx').append fun _ =>
    tells_body codec network tx tx'
  rw [← spell_append, ← spell_append, ← lines_ofTransaction, ← lines_ofTransaction] at hall
  obtain ⟨⟨htxid, hwtxid, hversion, hsize, hvirtual, hweight⟩, hinputs, houtputs, hlock⟩ :=
    hall.of_eq (by rw [spell_lines, spell_lines, h])
  have hwitness := Transaction.hasWitness_eq_of_witnessed hwtxid
  have hname : (if tx'.hasWitness then some (Hash256.ofMessage tx.raw).display else none) =
      if tx'.hasWitness then some (Hash256.ofMessage tx'.raw).display else none := by
    by_cases hw : tx.hasWitness = true
    · rw [Transaction.eq_of_witnessed hwtxid hw]
    · rw [← hwitness, if_neg hw, if_neg hw]
  simp only [ofTransaction, Identifier.standard, Transaction.isReplaceable,
    Transaction.totalOutputValue, htxid, hname, hversion, hsize, virtualSize_eq hsize hvirtual,
    hweight, hwitness, hinputs, houtputs, hlock]

/-- The texts of two reports are the same exactly if the reports are, in every field: the sizes,
the totals, each input with its witness, each output with what its script is taken for, and both
names. -/
theorem text_eq_text_iff (codec : Codec) (network : Network) (text text' : String)
    (report report' : Report) (h : ofHex codec .standard network text = .ok report)
    (h' : ofHex codec .standard network text' = .ok report') :
    report.text = report'.text ↔ report = report' := by
  obtain ⟨raw, tx, -, -, rfl⟩ := ofHex_eq_ok_iff.1 h
  obtain ⟨raw', tx', -, -, rfl⟩ := ofHex_eq_ok_iff.1 h'
  exact ⟨eq_of_text_eq codec network, congrArg Report.text⟩

/-- A witness of one empty item and no witness items at all make different texts. -/
theorem text_eq_text_iff_spends :
    let tx := Transaction.oneSpend [[]] [1, 0]
    let tx' := Transaction.oneSpend [] [0]
    ofHex .standard .standard .mainnet (Hex.encode tx.raw) =
      .ok (ofTransaction .standard .standard .mainnet tx) ∧
    ofHex .standard .standard .mainnet (Hex.encode tx'.raw) =
      .ok (ofTransaction .standard .standard .mainnet tx') ∧
    (ofTransaction .standard .standard .mainnet tx).text ≠
      (ofTransaction .standard .standard .mainnet tx').text := by
  have hdecode : Transaction.decode (Transaction.oneSpend [[]] [1, 0]).raw =
      .ok (Transaction.oneSpend [[]] [1, 0]) := rfl
  have hdecode' : Transaction.decode (Transaction.oneSpend [] [0]).raw =
      .ok (Transaction.oneSpend [] [0]) := rfl
  have htx := ofHex_encode .standard .standard .mainnet hdecode
  have htx' := ofHex_encode .standard .standard .mainnet hdecode'
  refine ⟨htx, htx', fun h => ?_⟩
  have hreport := (text_eq_text_iff _ _ _ _ _ _ htx htx').1 h
  have hstacks := congrArg (fun r => r.inputs.map InputReport.witness) hreport
  cases hstacks

end Report

end TxScope
