import TxScope.Text.Digit
import TxScope.Text.Parse
import TxScope.Toml.Written

/-!
# Numbers and other values without quotes

Everything that a file writes without quotes or brackets is made of runs of letters, digits, dashes
and underscores, joined by plus signs, points and colons. A single underscore may stand between two
digits; decimal numbers have no zero in front; integers have 64 bits with sign.
-/

namespace TxScope.Toml

open Settings (Value)
open Text (Parse char? isDigitIn valueIn)

/-- The characters of a run, which are those of a key without quotes. -/
def isBare (c : Char) : Bool := c.isAlphanum || c == '-' || c == '_'

/-- A run, which has at least one character. -/
def run? : Parse (List Char) := fun cs =>
  match cs.takeWhile isBare with
  | [] => none
  | run => some (run, cs.dropWhile isBare)

/-! ## Numbers -/

/-- The digits at the front, without the underscores between them, and the text after them. -/
def digitRun (base : Nat) : List Char → List Char × List Char
  | [] => ([], [])
  | [c] => if isDigitIn base c then ([c], []) else ([], [c])
  | c :: '_' :: d :: cs =>
    if isDigitIn base c then
      if isDigitIn base d then
        let (ds, rest) := digitRun base (d :: cs)
        (c :: ds, rest)
      else ([c], '_' :: d :: cs)
    else ([], c :: '_' :: d :: cs)
  | c :: d :: cs =>
    if isDigitIn base c then
      let (ds, rest) := digitRun base (d :: cs)
      (c :: ds, rest)
    else ([], c :: d :: cs)

/-- Digits and nothing else. -/
def allDigits? (base : Nat) (cs : List Char) : Option (List Char) :=
  match digitRun base cs with
  | ([], _) => none
  | (ds, []) => some ds
  | _ => none

/-- Digits without a needless zero in front. -/
def plainDigits? : List Char → Option (List Char)
  | [] => none
  | '0' :: _ :: _ => none
  | ds => some ds

/-- An integer of 64 bits with sign. -/
def integer64? (n : Int) : Option Value :=
  if -0x8000000000000000 ≤ n ∧ n < 0x8000000000000000 then some (.integer n) else none

/-- An integer in another base than ten, behind the letter that names the base. -/
def basedInteger? (base : Nat) (cs : List Char) : Option Value := do
  integer64? (valueIn base (← allDigits? base cs))

/-- A minus sign, and what follows it. -/
def takeMinus : List Char → Bool × List Char
  | '-' :: cs => (true, cs)
  | cs => (false, cs)

def negateIf (negative : Bool) (n : Int) : Int := if negative then -n else n

def decimalInteger? (cs : List Char) : Option Value := do
  let (negative, cs) := takeMinus cs
  let ds ← plainDigits? (← allDigits? 10 cs)
  integer64? (negateIf negative (valueIn 10 ds))

/-- The exponent at the end of a run, behind its digits; its plus sign and digits stand behind the
run. -/
def exponent? (cs : List Char) : Parse Int := fun rest =>
  match cs with
  | [] => some (0, rest)
  | c :: cs =>
    if c ≠ 'e' ∧ c ≠ 'E' then none
    else
      match cs with
      | [] => do
        let (run, rest) ← run? (← char? '+' rest)
        return ((valueIn 10 (← allDigits? 10 run) : Nat), rest)
      | cs => do
        let (negative, cs) := takeMinus cs
        return (negateIf negative (valueIn 10 (← allDigits? 10 cs)), rest)

/-- A number with an exponent or, if there is one, with the run `after` behind a point. -/
def real? (run : List Char) (after : Option (List Char)) : Parse Value := fun rest => do
  let (negative, cs) := takeMinus run
  let (whole, tail) := digitRun 10 cs
  let whole ← plainDigits? whole
  let (fraction, tail) ←
    match after with
    | none => some ([], tail)
    | some after =>
      match tail, digitRun 10 after with
      | _ :: _, _ | _, ([], _) => none
      | [], (fraction, tail) => some (fraction, tail)
  let (exponent, rest) ← exponent? tail rest
  let x ← Binary64.ofDecimal? (valueIn 10 (whole ++ fraction)) (exponent - fraction.length)
  return (.real (.finite negative x), rest)

/-- A number that begins with a run. -/
def number? (run : List Char) : Parse Value := fun rest =>
  match run with
  | '0' :: 'x' :: ds => (basedInteger? 16 ds).map (·, rest)
  | '0' :: 'o' :: ds => (basedInteger? 8 ds).map (·, rest)
  | '0' :: 'b' :: ds => (basedInteger? 2 ds).map (·, rest)
  | run =>
    if run.contains 'e' || run.contains 'E' then real? run none rest
    else
      match rest with
      | '.' :: rest => do
        let (after, rest) ← run? rest
        real? run (some after) rest
      | rest =>
        let value? :=
          if run = "inf".toList then some (.real (.infinite false))
          else if run = "-inf".toList then some (.real (.infinite true))
          else if run = "nan".toList ∨ run = "-nan".toList then some (.real .undefined)
          else decimalInteger? run
        value?.map (·, rest)

/-! ## Dates -/

/-- A run behind a separator. -/
def joined? (separator : Char) : Parse (List Char) := fun cs => do
  let (run, rest) ← run? (← char? separator cs)
  return (separator :: run, rest)

/-- A run behind a separator, if the separator is there. -/
def optional? (separator : Char) : Parse (List Char) := fun cs =>
  if cs.head? = some separator then joined? separator cs else some ([], cs)

/-- The time behind a single space. -/
def spacedHour : List Char → List Char × List Char
  | ' ' :: cs =>
    match run? cs with
    | some (run, rest) => (' ' :: run, rest)
    | none => ([], ' ' :: cs)
  | cs => ([], cs)

/-- The text of a date or time that begins with a run. Whether it is one is not looked at. -/
def moment? (run : List Char) : Parse (List Char) := fun cs => do
  let (hour, cs) := spacedHour cs
  if cs.head? = some ':' then
    let (minute, cs) ← joined? ':' cs
    let (second, cs) ← joined? ':' cs
    let (fraction, cs) ← optional? '.' cs
    let (offset, cs) ← optional? '+' cs
    let (last, cs) ← optional? ':' cs
    return (run ++ hour ++ minute ++ second ++ fraction ++ offset ++ last, cs)
  else return (run ++ hour, cs)

/-- Whether an exponent with a minus sign begins somewhere. -/
def hasMinusExponent : List Char → Bool
  | c :: d :: cs => ((c == 'e' || c == 'E') && d == '-') || hasMinusExponent (d :: cs)
  | _ => false

/-- The run looks like the start of a date: it has a T, or a dash inside that is no exponent's. -/
def looksLikeDate (run : List Char) : Bool :=
  run.contains 'T' || run.contains 't' || (run.tail.contains '-' && !hasMinusExponent run)

/-! ## All of them -/

/-- A value without quotes or brackets. A plus sign stands before numbers only. -/
def unquoted? : Parse Written := fun cs =>
  match cs with
  | '+' :: cs => do
    let (run, rest) ← run? cs
    let (v, rest) ← number? run rest
    return (.plain v, rest)
  | cs => do
    let (run, rest) ← run? cs
    if run = "true".toList then return (.plain (.boolean true), rest)
    else if run = "false".toList then return (.plain (.boolean false), rest)
    else if run.head?.any (fun c => c == '-' || isDigitIn 10 c) ∨ run = "inf".toList ∨
        run = "nan".toList then
      if looksLikeDate run || rest.head? = some ':' then
        let (text, rest) ← moment? run rest
        return (.moment text, rest)
      else
        let (v, rest) ← number? run rest
        return (.plain v, rest)
    else none

end TxScope.Toml
