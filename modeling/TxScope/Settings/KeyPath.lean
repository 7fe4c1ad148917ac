import TxScope.Settings.Value

/-!
# Keys as paths

A key of a settings layer may be a path: names with points between them lead into tables, a number
in brackets into an array. `KeyPath.put` stores a value at a path and makes what is missing on the
way; what is of the wrong kind there is replaced.
-/

namespace TxScope

open Settings (Value Table lookup assign)

/-- One step of a path into a value. -/
inductive PathStep where
  | key (name : String)
  /-- An element, from the end of the array if the number is negative. -/
  | item (index : Int)
  deriving DecidableEq, Repr

structure KeyPath where
  head : String
  steps : List PathStep
  deriving DecidableEq, Repr

namespace KeyPath

/-! ## Reading -/

/-- The characters of names. -/
def isNameChar (c : Char) : Bool := c.isAlphanum || c == ' ' || c == '_' || c == '-'

def isSpace (c : Char) : Bool := c == ' ' || c == '\t' || c == '\r' || c == '\n'

/-- The number in brackets, behind the first of them, and the text behind the other. It has to fit
in 64 bits with sign. -/
def index? (cs : List Char) : Option (Int × List Char) :=
  let cs := cs.dropWhile isSpace
  let (negative, cs) :=
    match cs with
    | '-' :: rest => (true, rest)
    | cs => (false, cs)
  let ds := cs.takeWhile Char.isDigit
  let size : Nat := ds.foldl (fun v c => 10 * v + (c.toNat - '0'.toNat)) 0
  let n : Int := if negative then -size else size
  match (cs.dropWhile Char.isDigit).dropWhile isSpace with
  | ']' :: rest =>
    if !ds.isEmpty && -0x8000000000000000 ≤ n && n < 0x8000000000000000 then some (n, rest)
    else none
  | _ => none

/-- The steps behind the first name. The fuel is the length of the text. -/
def steps? : (fuel : Nat) → List Char → Option (List PathStep)
  | _, [] => some []
  | fuel + 1, '.' :: cs =>
    match cs.takeWhile isNameChar with
    | [] => none
    | name => (steps? fuel (cs.dropWhile isNameChar)).map (.key (String.ofList name) :: ·)
  | fuel + 1, '[' :: cs => do
    let (i, rest) ← index? cs
    let steps ← steps? fuel rest
    return .item i :: steps
  | _, _ => none

/-- The path that a key spells; a key that spells none is a single name. -/
def ofText (key : String) : KeyPath :=
  let cs := key.toList
  match cs.takeWhile isNameChar, steps? cs.length (cs.dropWhile isNameChar) with
  | _ :: _, some steps => ⟨String.ofList (cs.takeWhile isNameChar), steps⟩
  | _, _ => ⟨key, []⟩

/-! ## Storing -/

/-- The entries of a table; anything else counts as an empty one. -/
def entriesOf : Value → Table
  | .table entries => entries
  | _ => []

/-- The elements of an array; anything else counts as an empty one. -/
def itemsOf : Value → List Value
  | .array items => items
  | _ => []

mutual

/-- A value put over an older one: the entries of a table go over the older ones key by key, and a
table without entries leaves what was there. Any other value replaces it. -/
def overlay (old : Option Value) : Value → Value
  | .table [] => old.getD (.table [])
  | .table ((k, v) :: rest) =>
    let below := entriesOf (old.getD .nothing)
    .table (overlayAll (assign k (overlay (lookup k below) v) below) rest)
  | v => v

def overlayAll (below : Table) : List (String × Value) → Table
  | [] => below
  | (k, v) :: rest => overlayAll (assign k (overlay (lookup k below) v) below) rest

end

/-- The place of an element in an array of the given length. -/
def position (length : Nat) (index : Int) : Nat :=
  (if 0 ≤ index then index else length + index).toNat

/-- The array with an element put at a place; places before it that are new hold nothing. -/
def setItem (i : Nat) (v : Value) (items : List Value) : List Value :=
  (items ++ List.replicate (i + 1 - items.length) Value.nothing).set i v

/-- An older value with a value stored behind some steps. -/
def putSteps (v : Value) : List PathStep → (old : Value) → Value
  | [], _ => v
  | [.key k], old =>
    let t := entriesOf old
    .table (assign k (overlay (lookup k t) v) t)
  | .key k :: steps, old =>
    let t := entriesOf old
    .table (assign k (putSteps v steps ((lookup k t).getD .nothing)) t)
  | .item i :: steps, old =>
    let items := itemsOf old
    let i := position items.length i
    .array (setItem i (putSteps v steps (items.getD i .nothing)) items)

/-- The table with a value stored at a path. -/
def put (path : KeyPath) (v : Value) (t : Table) : Table :=
  entriesOf (putSteps v (.key path.head :: path.steps) (.table t))

end KeyPath

end TxScope
