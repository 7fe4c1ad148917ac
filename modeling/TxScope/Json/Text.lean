import TxScope.Decimal.Binary64
import TxScope.Text.Digit
import TxScope.Text.Utf8

/-!
# Reading JSON text piece by piece

A reader that knows which value it wants takes it straight from the text. Two things can be wrong,
and the first one in the text counts: the text is `malformed`, or it is well formed so far but the
value that begins is a `mismatch` with the one wanted.

The text is read byte by byte, each byte as a character (`Text.byteChars`). It need not be UTF-8 as
a whole; only the strings that are kept have to be.
-/

namespace TxScope.JsonText

inductive Fault where
  | malformed
  | mismatch
  deriving DecidableEq, Repr

/-- A piece of text taken off the front, and the text after it. -/
abbrev Scan (α : Type) := List Char → Except Fault (α × List Char)

def isSpace (c : Char) : Bool := c == ' ' || c == '\n' || c == '\t' || c == '\r'

def skipSpaces (cs : List Char) : List Char := cs.dropWhile isSpace

def isDigit (c : Char) : Bool := '0' ≤ c && c ≤ '9'

/-- The number that four hexadecimal digits spell. -/
def codeUnit? (a b c d : Char) : Option Nat :=
  if [a, b, c, d].all (Text.isDigitIn 16) then some (Text.valueIn 16 [a, b, c, d]) else none

def isHighSurrogate (n : Nat) : Bool := 0xd800 ≤ n && n < 0xdc00

def isLowSurrogate (n : Nat) : Bool := 0xdc00 ≤ n && n < 0xe000

/-- The character that a pair of surrogates stands for. -/
def joinSurrogates (high low : Nat) : Char :=
  Char.ofNat (0x10000 + (high - 0xd800) * 0x400 + (low - 0xdc00))

/-- The character behind a backslash. -/
def simpleEscape? : Char → Option Char
  | '"' => some '"'
  | '\\' => some '\\'
  | '/' => some '/'
  | 'b' => some '\x08'
  | 'f' => some '\x0c'
  | 'n' => some '\n'
  | 'r' => some '\r'
  | 't' => some '\t'
  | _ => none

/-- The bytes of a string whose opening quote was taken. Surrogates have to come in pairs. -/
def stringBytes : Scan Bytes
  | [] => .error .malformed
  | '"' :: cs => .ok ([], cs)
  | '\\' :: 'u' :: a :: b :: c :: d :: '\\' :: 'u' :: e :: f :: g :: h :: cs =>
    match codeUnit? a b c d with
    | none => .error .malformed
    | some n =>
      if isHighSurrogate n then
        match codeUnit? e f g h with
        | none => .error .malformed
        | some m =>
          if isLowSurrogate m then
            (stringBytes cs).map fun (s, rest) =>
              (String.utf8EncodeChar (joinSurrogates n m) ++ s, rest)
          else .error .malformed
      else if isLowSurrogate n then .error .malformed
      else
        (stringBytes ('\\' :: 'u' :: e :: f :: g :: h :: cs)).map fun (s, rest) =>
          (String.utf8EncodeChar (Char.ofNat n) ++ s, rest)
  | '\\' :: 'u' :: a :: b :: c :: d :: cs =>
    match codeUnit? a b c d with
    | none => .error .malformed
    | some n =>
      if isHighSurrogate n || isLowSurrogate n then .error .malformed
      else (stringBytes cs).map fun (s, rest) =>
        (String.utf8EncodeChar (Char.ofNat n) ++ s, rest)
  | '\\' :: c :: cs =>
    match simpleEscape? c with
    | none => .error .malformed
    | some c => (stringBytes cs).map fun (s, rest) => (c.toUInt8 :: s, rest)
  | c :: cs =>
    if c.toNat < 0x20 || c == '\\' then .error .malformed
    else (stringBytes cs).map fun (s, rest) => (c.toUInt8 :: s, rest)
termination_by cs => cs.length

/-- The rest of a string whose opening quote was taken. -/
def stringTail : Scan String := fun cs => do
  let (bs, rest) ← stringBytes cs
  match Text.ofUtf8? bs with
  | some s => return (s, rest)
  | none => .error .malformed

/-- The rest of a string that nobody asked for. Lone surrogates pass, and what is no UTF-8 does. -/
def skipString : List Char → Except Fault (List Char)
  | [] => .error .malformed
  | '"' :: cs => .ok cs
  | '\\' :: 'u' :: a :: b :: c :: d :: cs =>
    if (codeUnit? a b c d).isSome then skipString cs else .error .malformed
  | '\\' :: c :: cs => if (simpleEscape? c).isSome then skipString cs else .error .malformed
  | c :: cs => if c.toNat < 0x20 || c == '\\' then .error .malformed else skipString cs

/-- A number without its sign, as it is written. -/
structure Decimal where
  whole : List Char
  /-- The digits behind the point, if there is one. -/
  fraction : Option (List Char)
  exponent : Option Int

/-- The power of ten at the end of a number. -/
def exponentPart : Scan (Option Int) := fun cs =>
  match cs with
  | c :: rest =>
    if c = 'e' ∨ c = 'E' then
      let (negative, rest) :=
        match rest with
        | '-' :: r => (true, r)
        | '+' :: r => (false, r)
        | r => (false, r)
      let ds := rest.takeWhile isDigit
      if ds.isEmpty then .error .malformed
      else
        let n : Int := Text.valueIn 10 ds
        .ok (some (if negative then -n else n), rest.dropWhile isDigit)
    else .ok (none, cs)
  | [] => .ok (none, cs)

/-- The digits behind the point. -/
def fractionPart : Scan (Option (List Char))
  | '.' :: rest =>
    let ds := rest.takeWhile isDigit
    if ds.isEmpty then .error .malformed else .ok (some ds, rest.dropWhile isDigit)
  | cs => .ok (none, cs)

/-- A number without its sign. No zero stands in front of other digits. -/
def unsignedNumber : Scan Decimal := fun cs =>
  let ds := cs.takeWhile isDigit
  match ds with
  | [] => .error .malformed
  | '0' :: _ :: _ => .error .malformed
  | _ => do
    let (fraction, rest) ← fractionPart (cs.dropWhile isDigit)
    let (exponent, rest) ← exponentPart rest
    return (⟨ds, fraction, exponent⟩, rest)

def number : Scan Decimal
  | '-' :: cs => unsignedNumber cs
  | cs => unsignedNumber cs

/-- A number with more digits behind it, as long as it fits in 64 bits, and the digits that do not
fit. -/
def appendDigits (n : Nat) : List Char → Nat × List Char
  | [] => (n, [])
  | d :: ds =>
    let m := 10 * n + (d.toNat - '0'.toNat)
    if m < 0x10000000000000000 then appendDigits m ds else (n, d :: ds)

/-- An integer of 64 bits and a power of ten. Digits that do not fit are cut. -/
def Decimal.scaled (d : Decimal) : Nat × Int :=
  let (n, cut) := appendDigits 0 d.whole
  let fraction := d.fraction.getD []
  let (n, left) := appendDigits n fraction
  (n, (cut.length : Int) - (fraction.length - left.length : Nat) + d.exponent.getD 0)

/-- A power of ten as a float. -/
def tenTo (k : Nat) : Binary64 := (Binary64.ofDecimal? 1 k).getD ⟨0, 0⟩

/-- A float divided by a power of ten, in steps that are floats themselves; three of them leave
nothing of an integer of 64 bits. -/
def divideByTens : (fuel : Nat) → Binary64 → Nat → Option Binary64
  | 0, _, _ => some ⟨0, Binary64.minExponent⟩
  | fuel + 1, x, k =>
    if k ≤ 308 then x.over? (tenTo k)
    else do divideByTens fuel (← x.over? (tenTo 308)) (k - 308)

/-- The float that is meant: the integer, rounded, and its power of ten, rounded, are put together
and rounded again. `none` if it is too great. -/
def Decimal.float? (d : Decimal) : Option Binary64 :=
  let (n, e) := d.scaled
  if n = 0 then some ⟨0, Binary64.minExponent⟩
  else do
    let x ← Binary64.nearest? n 1
    if e < 0 then divideByTens 4 x (-e).toNat
    else if e ≤ 308 then x.times? (tenTo e.toNat)
    else none

/-- The number is too great for a binary float of 64 bits. -/
def Decimal.isHuge (d : Decimal) : Bool := d.float?.isNone

/-- Takes a fixed word off the front. -/
def word (w : String) : Scan Unit := fun cs =>
  if w.toList.isPrefixOf cs then .ok ((), cs.drop w.length) else .error .malformed

/-- What is wrong where a value of another kind was wanted: the value that begins is a mismatch if
it is a whole scalar or opens a list or an object. -/
def faultAt (cs : List Char) : Fault :=
  let outcome : Except Fault Unit :=
    match cs with
    | 'n' :: _ => (word "null" cs).map fun _ => ()
    | 't' :: _ => (word "true" cs).map fun _ => ()
    | 'f' :: _ => (word "false" cs).map fun _ => ()
    | '"' :: rest => (stringTail rest).map fun _ => ()
    | '[' :: _ => .ok ()
    | '\x7b' :: _ => .ok ()
    | _ =>
      match number cs with
      | .ok (d, _) => if d.isHuge then .error .malformed else .ok ()
      | .error e => .error e
  match outcome with
  | .ok () => .mismatch
  | .error e => e

/-- A string value. -/
def string : Scan String := fun cs =>
  match skipSpaces cs with
  | '"' :: rest => stringTail rest
  | other => .error (faultAt other)

/-- The colon between key and value. -/
def colon (cs : List Char) : Except Fault (List Char) :=
  match skipSpaces cs with
  | ':' :: rest => .ok rest
  | _ => .error .malformed

/-- An open list or object. -/
inductive Bracket where
  | list
  | object
  deriving DecidableEq, Repr

/-- What has to come next while a value is skipped. -/
inductive Expected where
  | value
  | key
  /-- A comma or the end of the innermost bracket. -/
  | more

/-- Skips what is left of a value inside the open brackets, innermost first. Every step takes at
least one character, so the fuel is as many steps as there are characters. -/
def skipOpen : (fuel : Nat) → Expected → List Bracket → List Char → Except Fault (List Char)
  | 0, _, _, _ => .error .malformed
  | _ + 1, .more, [], cs => .ok cs
  | fuel + 1, .more, b :: bs, cs =>
    match skipSpaces cs, b with
    | ',' :: rest, .list => skipOpen fuel .value (b :: bs) rest
    | ',' :: rest, .object => skipOpen fuel .key (b :: bs) rest
    | ']' :: rest, .list => skipOpen fuel .more bs rest
    | '\x7d' :: rest, .object => skipOpen fuel .more bs rest
    | _, _ => .error .malformed
  | fuel + 1, .key, bs, cs =>
    match skipSpaces cs with
    | '"' :: rest => do skipOpen fuel .value bs (← colon (← skipString rest))
    | _ => .error .malformed
  | fuel + 1, .value, bs, cs =>
    match skipSpaces cs with
    | '[' :: rest =>
      match skipSpaces rest with
      | ']' :: rest => skipOpen fuel .more bs rest
      | rest => skipOpen fuel .value (.list :: bs) rest
    | '\x7b' :: rest =>
      match skipSpaces rest with
      | '\x7d' :: rest => skipOpen fuel .more bs rest
      | rest => skipOpen fuel .key (.object :: bs) rest
    | '"' :: rest => do skipOpen fuel .more bs (← skipString rest)
    | 'n' :: rest => do skipOpen fuel .more bs (← word "ull" rest).2
    | 't' :: rest => do skipOpen fuel .more bs (← word "rue" rest).2
    | 'f' :: rest => do skipOpen fuel .more bs (← word "alse" rest).2
    | rest => do skipOpen fuel .more bs (← number rest).2

/-- Skips one value of any kind. -/
def skipValue (cs : List Char) : Except Fault (List Char) :=
  skipOpen (2 * cs.length + 2) .value [] cs

end TxScope.JsonText
