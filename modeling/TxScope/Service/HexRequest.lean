import TxScope.Address.Network
import TxScope.Json.Text

/-!
# The body of a request

An object with the text `hex` and, if wished, a `network`; other members are passed over. A list of
the two values stands for the object.
-/

namespace TxScope

structure HexRequest where
  hex : String
  network : Option Network
  deriving DecidableEq, Repr

namespace HexRequest

open JsonText (Scan Fault skipSpaces faultAt)

/-- A network by its exact name. -/
def networkName : Scan Network := fun cs => do
  let (name, rest) ← JsonText.string cs
  match Network.ofName? name with
  | some n => return (n, rest)
  | none => .error .mismatch

/-- Nothing, under a name that says it all. -/
def nullValue : Scan Unit := fun cs =>
  match skipSpaces cs with
  | 'n' :: rest => JsonText.word "ull" rest
  | other => .error (faultAt other)

/-- A network by its name, or as an object with the name as its only key and nothing under it. -/
def networkValue : Scan Network := fun cs =>
  match skipSpaces cs with
  | '"' :: rest => networkName ('"' :: rest)
  | '\x7b' :: rest => do
    let (n, rest) ← networkName rest
    let ((), rest) ← nullValue (← JsonText.colon rest)
    match skipSpaces rest with
    | '\x7d' :: rest => return (n, rest)
    | _ => .error .malformed
  | _ => .error .malformed

/-- A network, or null for none. -/
def optionalNetwork : Scan (Option Network) := fun cs =>
  match skipSpaces cs with
  | 'n' :: rest => do
    let ((), rest) ← JsonText.word "ull" rest
    return (none, rest)
  | other => do
    let (n, rest) ← networkValue other
    return (some n, rest)

/-- The members read so far. -/
structure Draft where
  hex : Option String
  network : Option (Option Network)

/-- The request, once all members are read. -/
def Draft.finish (d : Draft) : Except Fault HexRequest :=
  match d.hex with
  | some hex => .ok ⟨hex, d.network.getD none⟩
  | none => .error .mismatch

/-- The value under a key. A key that came before is refused before its value is looked at. -/
def member (d : Draft) (key : String) : Scan Draft := fun cs =>
  if key = "hex" then
    if d.hex.isSome then .error .mismatch
    else do
      let (hex, rest) ← JsonText.string (← JsonText.colon cs)
      return ({ d with hex := some hex }, rest)
  else if key = "network" then
    if d.network.isSome then .error .mismatch
    else do
      let (network, rest) ← optionalNetwork (← JsonText.colon cs)
      return ({ d with network := some network }, rest)
  else do
    let rest ← JsonText.skipValue (← JsonText.colon cs)
    return (d, rest)

/-- The members behind an opening brace, or behind the ones already read. Every member takes at
least one character, so the fuel is the length of the text. -/
def members : (fuel : Nat) → (first : Bool) → Draft → Scan HexRequest
  | 0, _, _, _ => .error .malformed
  | fuel + 1, first, d, cs => do
    let keyed ←
      match skipSpaces cs with
      | '\x7d' :: rest => return (← d.finish, rest)
      | ',' :: rest => if first then Except.error Fault.malformed else .ok (skipSpaces rest)
      | other => if first then .ok other else .error .malformed
    match keyed with
    | '"' :: rest =>
      let (key, rest) ← JsonText.stringTail rest
      let (d, rest) ← member d key rest
      members fuel false d rest
    | _ => .error .malformed

/-- The next element of a list; `none` at its end, which is left to be read. -/
def element (first : Bool) (cs : List Char) : Except Fault (Option (List Char)) :=
  match skipSpaces cs with
  | [] => .error .malformed
  | ']' :: _ => .ok none
  | ',' :: rest =>
    if first then .ok (some (',' :: rest))
    else
      match skipSpaces rest with
      | [] | ']' :: _ => .error .malformed
      | rest => .ok (some rest)
  | other => if first then .ok (some other) else .error .malformed

/-- The elements behind an opening bracket. -/
def elements : Scan HexRequest := fun cs => do
  match ← element true cs with
  | none => .error .mismatch
  | some cs =>
    let (hex, rest) ← JsonText.string cs
    let (network, rest) ←
      match ← element false rest with
      | none => .ok (none, rest)
      | some rest => optionalNetwork rest
    match skipSpaces rest with
    | ']' :: rest => return (⟨hex, network⟩, rest)
    | _ => .error .malformed

/-- Reads a whole body. -/
def ofBytes (body : Bytes) : Except Fault HexRequest := do
  let (request, rest) ←
    match skipSpaces (Text.byteChars body) with
    | '\x7b' :: rest => members (rest.length + 1) true ⟨none, none⟩ rest
    | '[' :: rest => elements rest
    | other => .error (faultAt other)
  if (skipSpaces rest).isEmpty then return request else .error .malformed

end HexRequest

end TxScope
