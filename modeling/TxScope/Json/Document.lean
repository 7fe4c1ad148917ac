import TxScope.Json.Text
import TxScope.Settings.Value

/-!
# Settings files in JSON

Any value may be the whole of a file. Of members with one name the last counts. Brackets may be
open 127 deep.
-/

namespace TxScope.JsonText

open Settings (Value Table assign)

/-- The value of a number. What is no integer of 64 bits with sign is a float, and so is a zero
below zero. -/
def Decimal.value? (negative : Bool) (d : Decimal) : Option Value :=
  let n := Text.valueIn 10 d.whole
  if d.fraction.isNone && d.exponent.isNone && negative && 0 < n && n ≤ 0x8000000000000000 then
    some (.integer (-n))
  else if d.fraction.isNone && d.exponent.isNone && !negative && n < 0x8000000000000000 then
    some (.integer n)
  else d.float?.map fun x => .real (.finite negative x)

def numberValue (negative : Bool) : Scan Value := fun cs => do
  let (d, rest) ← unsignedNumber cs
  match d.value? negative with
  | some v => return (v, rest)
  | none => .error .malformed

/-- How deep brackets may be open. -/
def depthLimit : Nat := 127

mutual

/-- Any value with brackets at most `depth` deep. The fuel is twice the length of the text. -/
def value : (fuel depth : Nat) → Scan Value
  | 0, _, _ => .error .malformed
  | fuel + 1, depth, cs =>
    match skipSpaces cs with
    | 'n' :: rest => do return (.nothing, (← word "ull" rest).2)
    | 't' :: rest => do return (.boolean true, (← word "rue" rest).2)
    | 'f' :: rest => do return (.boolean false, (← word "alse" rest).2)
    | '"' :: rest => do
      let (s, rest) ← stringTail rest
      return (.string s, rest)
    | '[' :: rest =>
      match depth, skipSpaces rest with
      | 0, _ => .error .malformed
      | _, ']' :: rest => .ok (.array [], rest)
      | depth + 1, rest => do
        let (vs, rest) ← elements fuel depth rest
        return (.array vs, rest)
    | '\x7b' :: rest =>
      match depth, skipSpaces rest with
      | 0, _ => .error .malformed
      | _, '\x7d' :: rest => .ok (.table [], rest)
      | depth + 1, '"' :: rest => do
        let (name, rest) ← stringTail rest
        let (v, rest) ← value fuel depth (← colon rest)
        let (t, rest) ← members fuel depth [(name, v)] rest
        return (.table t, rest)
      | _, _ => .error .malformed
    | '-' :: rest => numberValue true rest
    | rest => numberValue false rest

/-- The elements of a list, behind its bracket or a comma. -/
def elements : (fuel depth : Nat) → Scan (List Value)
  | 0, _, _ => .error .malformed
  | fuel + 1, depth, cs => do
    let (v, rest) ← value fuel depth cs
    match skipSpaces rest with
    | ',' :: rest =>
      let (vs, rest) ← elements fuel depth rest
      return (v :: vs, rest)
    | ']' :: rest => return ([v], rest)
    | _ => .error .malformed

/-- The members of an object, behind the ones already read. -/
def members : (fuel depth : Nat) → Table → Scan Table
  | 0, _, _, _ => .error .malformed
  | fuel + 1, depth, t, cs =>
    match skipSpaces cs with
    | '\x7d' :: rest => .ok (t, rest)
    | ',' :: rest =>
      match skipSpaces rest with
      | '"' :: rest => do
        let (name, rest) ← stringTail rest
        let (v, rest) ← value fuel depth (← colon rest)
        members fuel depth (assign name v t) rest
      | _ => .error .malformed
    | _ => .error .malformed

end

/-- The value that a file holds. -/
def ofText? (text : String) : Option Value :=
  let cs := Text.byteChars (Text.utf8 text)
  match value (2 * cs.length + 2) depthLimit cs with
  | .ok (v, rest) => if (skipSpaces rest).isEmpty then some v else none
  | .error _ => none

end TxScope.JsonText
