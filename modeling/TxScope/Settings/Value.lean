import TxScope.Decimal.Binary64
import TxScope.Text.Digit

/-!
# Values in settings files

What a settings file can hold, in whatever format it is written. Tables keep the order of their
entries and name each key once.
-/

namespace TxScope.Settings

/-- A floating-point number. -/
inductive Real where
  | finite (negative : Bool) (magnitude : Binary64)
  | infinite (negative : Bool)
  | undefined
  deriving DecidableEq, Repr

def signed (negative : Bool) (text : String) : String := if negative then "-" ++ text else text

def Real.text : Real → String
  | .finite negative magnitude => signed negative magnitude.text
  | .infinite negative => signed negative "inf"
  | .undefined => "NaN"

/-- A sign, and what follows it. -/
def takeSign : List Char → Bool × List Char
  | '-' :: cs => (true, cs)
  | '+' :: cs => (false, cs)
  | cs => (false, cs)

/-- The power of ten at the end of a number. -/
def exponent? : List Char → Option Int
  | [] => some 0
  | c :: cs =>
    let (negative, ds) := takeSign cs
    let n : Int := Text.valueIn 10 ds
    if (c = 'e' ∨ c = 'E') ∧ ds ≠ [] ∧ ds.all Char.isDigit then
      some (if negative then -n else n)
    else none

/-- The number that a text is: digits, with a point among them or at one of their ends, or one of
the words for what is no number, and a sign in front. What is too great is infinite. -/
def Real.ofChars? (cs : List Char) : Option Real := do
  let (negative, cs) := takeSign cs
  let word := String.ofList (cs.map Char.toLower)
  if word = "inf" ∨ word = "infinity" then return .infinite negative
  else if word = "nan" then return .undefined
  else
    let whole := cs.takeWhile Char.isDigit
    let (fraction, rest) :=
      match cs.dropWhile Char.isDigit with
      | '.' :: r => (r.takeWhile Char.isDigit, r.dropWhile Char.isDigit)
      | r => ([], r)
    if whole.isEmpty && fraction.isEmpty then none
    else
      let e ← exponent? rest
      match Binary64.ofDecimal? (Text.valueIn 10 (whole ++ fraction)) (e - fraction.length) with
      | some x => return .finite negative x
      | none => return .infinite negative

/-- The integer of 64 bits with sign that a text is: digits with a sign in front. -/
def integer64? (cs : List Char) : Option Int :=
  let (negative, ds) := takeSign cs
  let size : Nat := Text.valueIn 10 ds
  let n : Int := if negative then -size else size
  if ds ≠ [] ∧ ds.all Char.isDigit ∧ -0x8000000000000000 ≤ n ∧ n < 0x8000000000000000 then some n
  else none

inductive Value where
  /-- A null, or a place that was made and never filled. -/
  | nothing
  | string (s : String)
  | integer (n : Int)
  | real (x : Real)
  | boolean (b : Bool)
  /-- A date, a time or both, in the usual notation. -/
  | moment (text : String)
  | array (items : List Value)
  | table (entries : List (String × Value))

abbrev Table := List (String × Value)

/-- The value under a key. -/
def lookup (key : String) (t : Table) : Option Value := List.lookup key t

/-- The table with a value put under a key. -/
def assign (key : String) (v : Value) : Table → Table
  | [] => [(key, v)]
  | (k, w) :: t => if k = key then (k, v) :: t else (k, w) :: assign key v t

/-- The text of a scalar value; arrays and tables have none. -/
def Value.scalarText? : Value → Option String
  | .nothing => none
  | .string s => some s
  | .integer n => some (toString n)
  | .real x => some x.text
  | .boolean b => some (toString b)
  | .moment s => some s
  | .array _ => none
  | .table _ => none

end TxScope.Settings
