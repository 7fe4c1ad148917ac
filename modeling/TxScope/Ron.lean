import TxScope.Settings.Value
import TxScope.Text.Digit
import TxScope.Text.Parse

/-!
# Settings files in object notation

Values as a program would write them: `(name: value, …)` is a structure with named fields and
`(value, …)` one without names, each of them behind its own name if wished; there are lists in
square brackets, maps in braces, options, texts, characters and numbers. Comments may stand between
all of these, and a comma may stand at the end of a list.

A structure with fields is read as a table, one without names as an array, a bare name as nothing.
-/

namespace TxScope.Ron

open Settings (Value Table Real assign takeSign)
open Text (Parse isDigitIn valueIn)

/-! ## Blanks and comments -/

def isSpace (c : Char) : Bool := c == ' ' || c == '\n' || c == '\t' || c == '\r'

/-- What follows the end of comments between slashes with stars, `depth` of them in each other. -/
def afterComment (depth : Nat) : List Char → Option (List Char)
  | '*' :: '/' :: cs => if depth ≤ 1 then some cs else afterComment (depth - 1) cs
  | '/' :: '*' :: cs => afterComment (depth + 1) cs
  | _ :: cs => afterComment depth cs
  | [] => none

/-- Skips blanks and comments; a comment without an end is left. The fuel is the length of the
text. -/
def skip : (fuel : Nat) → List Char → List Char
  | 0, cs => cs
  | fuel + 1, cs =>
    match cs.dropWhile isSpace with
    | '/' :: '/' :: rest => skip fuel (rest.dropWhile (· != '\n'))
    | '/' :: '*' :: rest =>
      match afterComment 1 rest with
      | some rest => skip fuel rest
      | none => '/' :: '*' :: rest
    | rest => rest

def skipAll (cs : List Char) : List Char := skip (cs.length + 1) cs

/-- A comma that need not be there, with the blanks around it. -/
def skipComma (cs : List Char) : Bool × List Char :=
  match skipAll cs with
  | ',' :: rest => (true, skipAll rest)
  | rest => (false, rest)

/-! ## Names -/

def isNameStart (c : Char) : Bool := c.isAlpha || c == '_'

def isNameChar (c : Char) : Bool := isNameStart c || c.isDigit

/-- The characters of names behind the mark for any name. -/
def isRawNameChar (c : Char) : Bool := isNameChar c || c == '.' || c == '+' || c == '-'

/-- A name. What looks like the start of a text without escapes is none. -/
def name? : Parse (List Char) := fun cs =>
  match cs with
  | 'r' :: '"' :: _ => none
  | 'r' :: '#' :: rest =>
    match rest.takeWhile isRawNameChar with
    | [] => none
    | name => some (name, rest.dropWhile isRawNameChar)
  | c :: _ =>
    let rest := cs.dropWhile isNameChar
    if !isNameStart c || (rest.head?.map isRawNameChar).getD false then none
    else some (cs.takeWhile isNameChar, rest)
  | [] => none

/-- Takes a word off the front that no further letter or digit follows. -/
def word? (w : String) (cs : List Char) : Option (List Char) :=
  (Text.word? w cs).filter fun rest => !rest.head?.any isNameChar

/-! ## Texts -/

/-- The character behind a backslash. -/
def escape? : Parse Char
  | 'n' :: cs => some ('\n', cs)
  | 'r' :: cs => some ('\r', cs)
  | 't' :: cs => some ('\t', cs)
  | '0' :: cs => some ('\x00', cs)
  | 'x' :: a :: b :: cs =>
    if [a, b].all (isDigitIn 16) then some (Char.ofNat (valueIn 16 [a, b]), cs) else none
  | 'u' :: '\x7b' :: cs =>
    let ds := cs.takeWhile (isDigitIn 16)
    match cs.dropWhile (isDigitIn 16) with
    | '\x7d' :: rest =>
      if ds.isEmpty || 6 < ds.length then none else (Text.codePoint? ds).map (·, rest)
    | _ => none
  | c :: cs => if c = '\'' ∨ c = '"' ∨ c = '\\' then some (c, cs) else none
  | [] => none

/-- Text in double quotes, behind the first of them. The fuel is the length of the text. -/
def stringTail : (fuel : Nat) → Parse (List Char)
  | 0, _ | _, [] => none
  | _, '"' :: cs => some ([], cs)
  | fuel + 1, '\\' :: cs => do
    let (c, cs) ← escape? cs
    let (s, rest) ← stringTail fuel cs
    return (c :: s, rest)
  | fuel + 1, c :: cs => (stringTail fuel cs).map fun (s, rest) => (c :: s, rest)

/-- Text without escapes, up to a quote and as many hash signs as stood before it. -/
def rawTail (close : List Char) : Parse (List Char)
  | [] => none
  | c :: cs =>
    if close.isPrefixOf (c :: cs) then some ([], (c :: cs).drop close.length)
    else (rawTail close cs).map fun (s, rest) => (c :: s, rest)

/-- A text in quotes of either kind. -/
def string? : Parse String := fun cs =>
  let found :=
    match cs with
    | '"' :: rest => stringTail rest.length rest
    | 'r' :: rest =>
      let hashes := rest.takeWhile (· == '#')
      match rest.dropWhile (· == '#') with
      | '"' :: rest => rawTail ('"' :: hashes) rest
      | _ => none
    | _ => none
  found.map fun (s, rest) => (String.ofList s, rest)

/-- A single character, behind its quote. -/
def character? : Parse String := fun cs =>
  let found :=
    match cs with
    | '\\' :: cs => escape? cs
    | c :: cs => some (c, cs)
    | [] => none
  match found with
  | some (c, '\'' :: rest) => some (String.ofList [c], rest)
  | _ => none

/-! ## Numbers -/

def isIntegerChar (c : Char) : Bool := isDigitIn 16 c || c == '_'

def isRealChar (c : Char) : Bool :=
  c.isDigit || c == 'e' || c == 'E' || c == '.' || c == '+' || c == '-'

/-- The base of an integer, and its digits behind the mark of it. -/
def baseOf : List Char → Nat × List Char
  | '0' :: 'x' :: cs => (16, cs)
  | '0' :: 'b' :: cs => (2, cs)
  | '0' :: 'o' :: cs => (8, cs)
  | cs => (10, cs)

/-- An integer without its sign. Underscores may stand behind the first digit. -/
def integer? : Parse Nat := fun cs =>
  let (base, cs) := baseOf cs
  match cs.takeWhile isIntegerChar with
  | [] | '_' :: _ => none
  | ds =>
    let ds := ds.filter (· != '_')
    if ds.all (isDigitIn base) then some (valueIn base ds, cs.dropWhile isIntegerChar) else none

/-- A number that begins with a sign, a digit or a point. -/
def number? : Parse Value := fun cs =>
  let asReal :=
    (Real.ofChars? (cs.takeWhile isRealChar)).map fun x => (.real x, cs.dropWhile isRealChar)
  let (_, body) := takeSign cs
  if (body.takeWhile isIntegerChar).length < (body.takeWhile isRealChar).length then asReal
  else
    match cs, integer? body with
    | '-' :: _, some (n, rest) =>
      if n ≤ 0x8000000000000000 then some (.integer (-n), rest) else asReal
    | '+' :: _, some (n, rest) =>
      if n < 0x8000000000000000 then some (.integer n, rest) else asReal
    | _, some (n, rest) =>
      if n < 0x8000000000000000 then some (.integer n, rest)
      else if n < 0x10000000000000000 then
        (Binary64.nearest? n 1).map fun x => (.real (.finite false x), rest)
      else asReal
    | _, none => asReal

/-! ## Values -/

/-- Whether a structure, behind its bracket, has no names: its first field does not begin with a
name and a colon. -/
def isNameless (cs : List Char) : Bool :=
  match name? cs with
  | some (_, rest) => !(skipAll rest).head?.any (· == ':')
  | none => true

/-- A value that is a word of its own. -/
def wordValue? (cs : List Char) : Option (Value × List Char) :=
  ((word? "true" cs).map (.boolean true, ·)) <|> ((word? "false" cs).map (.boolean false, ·)) <|>
    ((word? "None" cs).map (.nothing, ·)) <|>
    ((word? "inf" cs).map (.real (.infinite false), ·)) <|>
    ((word? "-inf" cs).map (.real (.infinite true), ·)) <|>
    ((word? "NaN" cs).map (.real .undefined, ·))

mutual

/-- Any value. The fuel is a few times the length of the text. -/
def value? : (fuel : Nat) → Parse Value
  | 0, _ => none
  | fuel + 1, cs =>
    match wordValue? cs with
    | some found => some found
    | none =>
      match word? "Some" cs with
      | some rest =>
        match skipAll rest with
        | '(' :: rest => do
          let (v, rest) ← value? fuel (skipAll rest)
          match (skipComma rest).2 with
          | ')' :: rest => return (v, rest)
          | _ => none
        | _ => none
      | none =>
        match name? cs with
        | some (_, rest) =>
          match skipAll rest with
          | '(' :: rest => structure? fuel rest
          | rest => some (.nothing, rest)
        | none =>
          match cs with
          | '(' :: ')' :: rest => some (.nothing, rest)
          | '(' :: rest => structure? fuel rest
          | '[' :: rest => (elements? fuel ']' (skipAll rest)).map fun (vs, r) => (.array vs, r)
          | '\x7b' :: rest => (entries? fuel [] (skipAll rest)).map fun (t, r) => (.table t, r)
          | '"' :: _ | 'r' :: _ => (string? cs).map fun (s, r) => (.string s, r)
          | '\'' :: rest => (character? rest).map fun (s, r) => (.string s, r)
          | c :: _ =>
            if c.isDigit || c == '+' || c == '-' || c == '.' then number? cs else none
          | [] => none

/-- A structure, behind its bracket. -/
def structure? : (fuel : Nat) → Parse Value
  | 0, _ => none
  | fuel + 1, cs =>
    let cs := skipAll cs
    if isNameless cs then (elements? fuel ')' cs).map fun (vs, r) => (.array vs, r)
    else (fields? fuel [] cs).map fun (t, r) => (.table t, r)

/-- The elements up to a closing bracket. -/
def elements? : (fuel : Nat) → (close : Char) → Parse (List Value)
  | 0, _, _ => none
  | fuel + 1, close, cs =>
    if cs.head? = some close then some ([], cs.drop 1)
    else do
      let (v, rest) ← value? fuel cs
      match skipComma rest with
      | (true, rest) =>
        let (vs, rest) ← elements? fuel close rest
        return (v :: vs, rest)
      | (false, rest) => if rest.head? = some close then return ([v], rest.drop 1) else none

/-- The fields of a structure, behind the ones already read. -/
def fields? : (fuel : Nat) → Table → Parse Table
  | 0, _, _ => none
  | _, t, ')' :: rest => some (t, rest)
  | fuel + 1, t, cs => do
    let (name, rest) ← name? cs
    let (t, more, rest) ← valueUnder fuel (String.ofList name) t rest
    if more then fields? fuel t rest
    else if rest.head? = some ')' then return (t, rest.drop 1)
    else none

/-- The entries of a map, whose keys are texts, behind the ones already read. -/
def entries? : (fuel : Nat) → Table → Parse Table
  | 0, _, _ => none
  | _, t, '\x7d' :: rest => some (t, rest)
  | fuel + 1, t, cs => do
    let (key, rest) ← value? fuel cs
    match key with
    | .string key =>
      let (t, more, rest) ← valueUnder fuel key t rest
      if more then entries? fuel t rest
      else if rest.head? = some '\x7d' then return (t, rest.drop 1)
      else none
    | _ => none

/-- A colon and a value, put under a key; and whether a comma follows. -/
def valueUnder : (fuel : Nat) → (key : String) → Table → List Char →
    Option (Table × Bool × List Char)
  | 0, _, _, _ => none
  | fuel + 1, key, t, cs =>
    match skipAll cs with
    | ':' :: rest => do
      let (v, rest) ← value? fuel (skipAll rest)
      let (more, rest) := skipComma rest
      return (assign key v t, more, rest)
    | _ => none

end

/-- The value that a file holds. -/
def ofText? (text : String) : Option Value :=
  let cs := text.toList
  match value? (4 * cs.length + 4) (skipAll cs) with
  | some (v, rest) => if (skipAll rest).isEmpty then some v else none
  | none => none

end TxScope.Ron
