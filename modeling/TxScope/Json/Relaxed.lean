import TxScope.Json.Text
import TxScope.Settings.Value
import TxScope.Text.Blank
import TxScope.Text.Parse

/-!
# Settings files in relaxed JSON

The format for hands: comments, names without quotes, single quotes, commas at the end, numbers with
a plus sign, without digits on one side of the point, or in base sixteen. The whole of a file is an
object; of members with one name the last counts.
-/

namespace TxScope.RelaxedJson

open Settings (Value Table Real assign integer64?)
open JsonText (isHighSurrogate isLowSurrogate joinSurrogates codeUnit?)
open Text (Parse word? valueIn isDigitIn)

/-! ## Blanks and comments -/

def isLineEnd (c : Char) : Bool := c == '\n' || c == '\r' || c == '\u2028' || c == '\u2029'

def isSpace (c : Char) : Bool := (Text.isBlank c && c != '\u0085') || c == '\ufeff'

/-- What follows the end of a comment between slashes with stars. -/
def afterComment : List Char → Option (List Char)
  | '*' :: '/' :: cs => some cs
  | _ :: cs => afterComment cs
  | [] => none

/-- Skips blanks and comments; a comment without an end is left. The fuel is the length of the
text. -/
def skip : (fuel : Nat) → List Char → List Char
  | 0, cs => cs
  | fuel + 1, cs =>
    match cs.dropWhile isSpace with
    | '/' :: '/' :: rest => skip fuel (rest.dropWhile fun c => !isLineEnd c)
    | '/' :: '*' :: rest =>
      match afterComment rest with
      | some rest => skip fuel rest
      | none => '/' :: '*' :: rest
    | rest => rest

def skipAll (cs : List Char) : List Char := skip (cs.length + 1) cs

/-! ## Texts and names -/

/-- The character behind a backslash, unless digits belong to it. -/
def simpleEscape? : Char → Option Char
  | 'b' => some '\x08'
  | 'f' => some '\x0c'
  | 'n' => some '\n'
  | 'r' => some '\r'
  | 't' => some '\t'
  | 'v' => some '\x0b'
  | '0' => some '\x00'
  | c => if c.isDigit || c == 'x' || c == 'u' then none else some c

/-- The character that four digits stand for, or eight digits of a pair of surrogates. -/
def unicodeEscape? : Parse Char
  | a :: b :: c :: d :: cs => do
    let n ← codeUnit? a b c d
    if isLowSurrogate n then none
    else if isHighSurrogate n then
      match cs with
      | '\\' :: 'u' :: e :: f :: g :: h :: cs => do
        let m ← codeUnit? e f g h
        if isLowSurrogate m then some (joinSurrogates n m, cs) else none
      | _ => none
    else some (Char.ofNat n, cs)
  | _ => none

/-- Text in quotes, behind the first of them. The fuel is the length of the text. -/
def stringTail (quote : Char) : (fuel : Nat) → Parse (List Char)
  | 0, _ | _, [] => none
  | fuel + 1, '\\' :: cs =>
    match cs with
    | '\r' :: '\n' :: cs => stringTail quote fuel cs
    | 'x' :: a :: b :: cs =>
      if [a, b].all (isDigitIn 16) then
        (stringTail quote fuel cs).map fun (s, rest) => (Char.ofNat (valueIn 16 [a, b]) :: s, rest)
      else none
    | 'u' :: cs => do
      let (c, cs) ← unicodeEscape? cs
      let (s, rest) ← stringTail quote fuel cs
      return (c :: s, rest)
    | c :: cs =>
      if isLineEnd c then stringTail quote fuel cs
      else do
        let c ← simpleEscape? c
        let (s, rest) ← stringTail quote fuel cs
        return (c :: s, rest)
    | [] => none
  | fuel + 1, c :: cs =>
    if c = quote then some ([], cs)
    else if isLineEnd c then none
    else (stringTail quote fuel cs).map fun (s, rest) => (c :: s, rest)

/-- The characters that a name may begin with. -/
def isNameStart (c : Char) : Bool :=
  c.isAlpha || c == '$' || c == '_' || (c.toNat > 0x7f && !isSpace c)

/-- The rest of a name. The fuel is the length of the text. -/
def nameTail : (fuel : Nat) → Parse (List Char)
  | 0, cs => some ([], cs)
  | fuel + 1, '\\' :: 'u' :: cs => do
    let (c, cs) ← unicodeEscape? cs
    let (s, rest) ← nameTail fuel cs
    return (c :: s, rest)
  | fuel + 1, c :: cs =>
    if isNameStart c || c.isDigit then
      (nameTail fuel cs).map fun (s, rest) => (c :: s, rest)
    else some ([], c :: cs)
  | _ + 1, [] => some ([], [])

/-- The name of a member. -/
def name? : Parse String := fun cs =>
  let found :=
    match cs with
    | '"' :: rest => stringTail '"' rest.length rest
    | '\'' :: rest => stringTail '\'' rest.length rest
    | c :: _ => if isNameStart c || c == '\\' then nameTail cs.length cs else none
    | [] => none
  match found with
  | some (s, rest) =>
    if s.isEmpty && !(cs.head? == some '"' || cs.head? == some '\'') then none
    else some (String.ofList s, rest)
  | none => none

/-! ## Numbers -/

/-- The exponent at the end of a number, if a whole one stands there, and what follows it. -/
def exponentPart (cs : List Char) : List Char × List Char :=
  match cs with
  | e :: rest =>
    let sign := rest.takeWhile fun c => c == '+' || c == '-'
    let digits := (rest.drop sign.length).takeWhile Char.isDigit
    if (e = 'e' ∨ e = 'E') ∧ sign.length ≤ 1 ∧ !digits.isEmpty then
      (e :: sign ++ digits, rest.drop (sign.length + digits.length))
    else ([], cs)
  | [] => ([], [])

/-- The digits in front of the point; a zero has no others behind it. -/
def wholePart : List Char → List Char × List Char
  | '0' :: rest => (['0'], rest)
  | cs => (cs.takeWhile Char.isDigit, cs.dropWhile Char.isDigit)

/-- A number in base ten, behind its sign. It is an integer if it has no point and no exponent. -/
def decimal? (negative : Bool) : Parse Value := fun cs =>
  let sign := if negative then ['-'] else []
  let (whole, rest) := wholePart cs
  let (fraction, rest) :=
    match rest with
    | '.' :: r => ('.' :: r.takeWhile Char.isDigit, r.dropWhile Char.isDigit)
    | r => ([], r)
  let (exponent, rest) := exponentPart rest
  if fraction.isEmpty && exponent.isEmpty then
    (integer64? (sign ++ whole)).map fun n => (.integer n, rest)
  else
    match Real.ofChars? (sign ++ whole ++ fraction ++ exponent) with
    | some (.finite negative x) => some (.real (.finite negative x), rest)
    | _ => none

/-- A number in base sixteen has 32 bits. -/
def hexadecimal? : Parse Value := fun cs =>
  let ds := cs.takeWhile (isDigitIn 16)
  if !ds.isEmpty && valueIn 16 ds < 0x100000000 then
    some (.integer (valueIn 16 ds), cs.dropWhile (isDigitIn 16))
  else none

/-- A number. Only base ten goes with a plus sign, and base sixteen with none. -/
def number? : Parse Value
  | '0' :: 'x' :: cs | '0' :: 'X' :: cs => hexadecimal? cs
  | '+' :: cs => decimal? false cs
  | 'I' :: cs => (word? "nfinity" cs).map (.real (.infinite false), ·)
  | 'N' :: cs => (word? "aN" cs).map (.real .undefined, ·)
  | '-' :: 'I' :: cs => (word? "nfinity" cs).map (.real (.infinite true), ·)
  | '-' :: 'N' :: cs => (word? "aN" cs).map (.real .undefined, ·)
  | '-' :: cs => decimal? true cs
  | cs => decimal? false cs

/-! ## Values -/

mutual

/-- Any value. The fuel is twice the length of the text. -/
def value? : (fuel : Nat) → Parse Value
  | 0, _ => none
  | fuel + 1, cs =>
    match cs with
    | 'n' :: rest => (word? "ull" rest).map (.nothing, ·)
    | 't' :: rest => (word? "rue" rest).map (.boolean true, ·)
    | 'f' :: rest => (word? "alse" rest).map (.boolean false, ·)
    | '"' :: rest =>
      (stringTail '"' rest.length rest).map fun (s, r) => (.string (String.ofList s), r)
    | '\'' :: rest =>
      (stringTail '\'' rest.length rest).map fun (s, r) => (.string (String.ofList s), r)
    | '\x7b' :: rest => (members? fuel true [] (skipAll rest)).map fun (t, r) => (.table t, r)
    | '[' :: rest => (elements? fuel true (skipAll rest)).map fun (vs, r) => (.array vs, r)
    | cs => number? cs

/-- The elements of a list, behind its bracket if `first`, else behind an element. -/
def elements? : (fuel : Nat) → (first : Bool) → Parse (List Value)
  | 0, _, _ => none
  | fuel + 1, first, cs =>
    match first, cs with
    | _, ']' :: rest => some ([], rest)
    | false, ',' :: rest =>
      match skipAll rest with
      | ']' :: rest => some ([], rest)
      | rest => element fuel rest
    | false, _ => none
    | true, cs => element fuel cs

/-- An element and those behind it. -/
def element : (fuel : Nat) → Parse (List Value)
  | 0, _ => none
  | fuel + 1, cs => do
    let (v, rest) ← value? fuel cs
    let (vs, rest) ← elements? fuel false (skipAll rest)
    return (v :: vs, rest)

/-- The members of an object, behind its brace if `first`, else behind a member. -/
def members? : (fuel : Nat) → (first : Bool) → Table → Parse Table
  | 0, _, _, _ => none
  | fuel + 1, first, t, cs =>
    match first, cs with
    | _, '\x7d' :: rest => some (t, rest)
    | false, ',' :: rest =>
      match skipAll rest with
      | '\x7d' :: rest => some (t, rest)
      | rest => member fuel t rest
    | false, _ => none
    | true, cs => member fuel t cs

/-- A member and those behind it. -/
def member : (fuel : Nat) → Table → Parse Table
  | 0, _, _ => none
  | fuel + 1, t, cs => do
    let (name, rest) ← name? cs
    match skipAll rest with
    | ':' :: rest =>
      let (v, rest) ← value? fuel (skipAll rest)
      members? fuel false (assign name v t) (skipAll rest)
    | _ => none

end

/-- The table that a file describes. -/
def ofText? (text : String) : Option Table :=
  let cs := text.toList
  match value? (4 * cs.length + 4) (skipAll cs) with
  | some (.table t, rest) => if (skipAll rest).isEmpty then some t else none
  | _ => none

end TxScope.RelaxedJson
