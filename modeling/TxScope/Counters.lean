import TxScope.Report.Basic

/-!
# Counters

How often transactions were read, by outcome, and how many outputs were reported, by type. The
counters are shown in the text format of metrics: a family for each, with its lines in the order of
their labels. What a duration is depends on a clock, so durations are only counted. Of their family
the heading is shown; its buckets, its sum and its count are left out.
-/

namespace TxScope

/-- Counts by label, in the order of the labels. -/
abbrev Tally := List (String × Nat)

namespace Tally

/-- The count of a label; a label that never occurred has none. -/
def count (t : Tally) (label : String) : Nat :=
  match t with
  | [] => 0
  | (l, n) :: rest => if l = label then n else count rest label

/-- One more of a label. -/
def add : Tally → String → Tally
  | [], label => [(label, 1)]
  | (l, n) :: rest, label =>
    if l = label then (l, n + 1) :: rest
    else if label < l then (label, 1) :: (l, n) :: rest
    else (l, n) :: add rest label

end Tally

structure Counters where
  /-- Readings of a transaction, by outcome. -/
  decodes : Tally
  /-- Reported outputs, by type. -/
  outputs : Tally
  /-- How many durations were taken. -/
  durations : Nat
  deriving DecidableEq, Repr

namespace Counters

def zero : Counters := ⟨[], [], 0⟩

def recordDecode (c : Counters) (outcome : String) : Counters :=
  { c with decodes := Tally.add c.decodes outcome, durations := c.durations + 1 }

def recordOutput (c : Counters) (type : String) : Counters :=
  { c with outputs := Tally.add c.outputs type }

def recordOutputs (c : Counters) (outputs : List OutputReport) : Counters :=
  outputs.foldl (fun c o => c.recordOutput o.classification.type.name) c

/-- Counts one reading: its outcome and, if there is a report, its outputs. -/
def record (c : Counters) (result : Except DecodeError Report) : Counters :=
  match result with
  | .ok report => (c.recordOutputs report.outputs).recordDecode "ok"
  | .error e => c.recordDecode e.kind

/-- A label between double quotes. -/
def quoteLabel (label : String) : String :=
  let escape := fun c : Char =>
    match c with
    | '\\' => ['\\', '\\']
    | '"' => ['\\', '"']
    | '\n' => ['\\', 'n']
    | c => [c]
  "\"" ++ String.ofList (label.toList.flatMap escape) ++ "\""

def heading (name help kind : String) : String :=
  s!"# HELP {name} {help}\n# TYPE {name} {kind}\n"

/-- A family of counters, left out while it has no line. -/
def family (name help key : String) (t : Tally) : String :=
  if t.isEmpty then ""
  else
    heading name help "counter" ++
      String.join (t.map fun (label, n) => s!"{name}\x7b{key}={quoteLabel label}\x7d {n}\n")

/-- All families, in the order of their names. -/
def text (c : Counters) : String :=
  heading "txdecode_decode_duration_seconds" "Time to decode a transaction and build its report"
    "histogram" ++
  family "txdecode_decodes_total" "Transaction decode attempts by outcome" "outcome" c.decodes ++
  family "txdecode_outputs_classified_total" "Outputs classified by script type" "script_type"
    c.outputs

end Counters

end TxScope
