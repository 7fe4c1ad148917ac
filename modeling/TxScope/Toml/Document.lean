import TxScope.Toml.Scalar
import TxScope.Toml.Section

/-!
# Configuration files

A file is a row of lines: an entry `key = value`, a header `[table]` or `[[table]]`, or nothing;
a comment may end each of them. A header opens a section with the entries below it. `ofText?` gives
the table that a file describes, or nothing if the text is no such file.
-/

namespace TxScope.Toml

open Settings (Table)
open Text (Parse char?)

def isGap (c : Char) : Bool := c == ' ' || c == '\t'

def skipGap (cs : List Char) : List Char := cs.dropWhile isGap

/-- The characters that may stand inside quotes. -/
def isTextChar (c : Char) : Bool := c == '\t' || (c.toNat ≥ 0x20 && c.toNat != 0x7f)

/-- A comment, up to the end of its line. -/
def skipComment : List Char → List Char
  | '#' :: cs => cs.dropWhile fun c => c == '\t' || c.toNat ≥ 0x20
  | cs => cs

/-- The end of a line: a comment may come first, then a line feed or the end of the text. -/
def lineEnd? (cs : List Char) : Option (List Char) :=
  match skipComment (skipGap cs) with
  | [] => some []
  | '\n' :: rest => some rest
  | _ => none

/-- The character with a number given by exactly `count` hexadecimal digits. -/
def codePoint? (count : Nat) (cs : List Char) : Option Char :=
  if count ≤ cs.length then Text.codePoint? (cs.take count) else none

/-- The character behind a backslash. -/
def escape? : Parse Char
  | 'b' :: cs => some ('\x08', cs)
  | 't' :: cs => some ('\t', cs)
  | 'n' :: cs => some ('\n', cs)
  | 'f' :: cs => some ('\x0c', cs)
  | 'r' :: cs => some ('\r', cs)
  | '"' :: cs => some ('"', cs)
  | '\\' :: cs => some ('\\', cs)
  | 'u' :: cs => (codePoint? 4 cs).map fun c => (c, cs.drop 4)
  | 'U' :: cs => (codePoint? 8 cs).map fun c => (c, cs.drop 8)
  | _ => none

/-- Text in double quotes on one line, behind the first quote. The fuel is the length of the
text. -/
def basicTail : (fuel : Nat) → Parse (List Char)
  | 0, _ => none
  | _ + 1, [] => none
  | _ + 1, '"' :: cs => some ([], cs)
  | fuel + 1, '\\' :: cs => do
    let (c, rest) ← escape? cs
    let (s, rest) ← basicTail fuel rest
    return (c :: s, rest)
  | fuel + 1, c :: cs =>
    if isTextChar c then (basicTail fuel cs).map fun (s, rest) => (c :: s, rest) else none

/-- Text in single quotes on one line, behind the first quote. -/
def literalTail : Parse (List Char)
  | [] => none
  | '\'' :: cs => some ([], cs)
  | c :: cs =>
    if isTextChar c then (literalTail cs).map fun (s, rest) => (c :: s, rest) else none

/-- What a backslash at the end of a line takes away: the rest of the line, which is blank, and all
blank text after it. -/
def joinLines? (cs : List Char) : Option (List Char) :=
  match skipGap cs with
  | '\n' :: rest => some (rest.dropWhile fun c => isGap c || c == '\n')
  | _ => none

/-- The end of a text between three quotes on each side, behind the closing three: one or two more
quotes are the last characters of the text. -/
def closeBlock (quote : Char) : List Char → List Char × List Char
  | a :: b :: cs =>
    if a = quote then if b = quote then ([a, b], cs) else ([a], b :: cs) else ([], a :: b :: cs)
  | [a] => if a = quote then ([a], []) else ([], [a])
  | [] => ([], [])

/-- Text between three double quotes on each side, behind the first three. -/
def basicBlock : (fuel : Nat) → Parse (List Char)
  | 0, _ => none
  | _ + 1, '"' :: '"' :: '"' :: cs => some (closeBlock '"' cs)
  | fuel + 1, '\\' :: cs =>
    match joinLines? cs with
    | some rest => basicBlock fuel rest
    | none => do
      let (c, rest) ← escape? cs
      let (s, rest) ← basicBlock fuel rest
      return (c :: s, rest)
  | fuel + 1, c :: cs =>
    if isTextChar c || c == '\n' then (basicBlock fuel cs).map fun (s, rest) => (c :: s, rest)
    else none
  | _ + 1, [] => none

/-- Text between three single quotes on each side, behind the first three. -/
def literalBlock : Parse (List Char)
  | '\'' :: '\'' :: '\'' :: cs => some (closeBlock '\'' cs)
  | c :: cs =>
    if isTextChar c || c == '\n' then (literalBlock cs).map fun (s, rest) => (c :: s, rest)
    else none
  | [] => none

/-- A line feed directly behind the opening quotes is not part of the text. -/
def dropFirstLineFeed : List Char → List Char
  | '\n' :: cs => cs
  | cs => cs

/-- A carriage return before a line feed does not count. -/
def foldLineEnds : List Char → List Char
  | '\r' :: '\n' :: cs => '\n' :: foldLineEnds cs
  | c :: cs => c :: foldLineEnds cs
  | [] => []

def asString (r : Option (List Char × List Char)) : Option (String × List Char) :=
  r.map fun (s, rest) => (String.ofList s, rest)

/-- Text in quotes of any kind. -/
def quoted? : Parse String
  | '"' :: '"' :: '"' :: cs => asString (basicBlock (cs.length + 1) (dropFirstLineFeed cs))
  | '\'' :: '\'' :: '\'' :: cs => asString (literalBlock (dropFirstLineFeed cs))
  | '"' :: cs => asString (basicTail (cs.length + 1) cs)
  | '\'' :: cs => asString (literalTail cs)
  | _ => none

/-- A key: bare, or in quotes on one line. -/
def key? : Parse String
  | '"' :: '"' :: '"' :: _ => none
  | '\'' :: '\'' :: '\'' :: _ => none
  | '"' :: cs => quoted? ('"' :: cs)
  | '\'' :: cs => quoted? ('\'' :: cs)
  | cs => asString (run? cs)

/-- Keys with points between them. The fuel is the length of the text. -/
def dottedKey? : (fuel : Nat) → Parse (List String)
  | 0, _ => none
  | fuel + 1, cs => do
    let (k, rest) ← key? cs
    match skipGap rest with
    | '.' :: rest =>
      let (ks, rest) ← dottedKey? fuel (skipGap rest)
      return (k :: ks, rest)
    | rest => return ([k], rest)

/-- Blank text, line ends and comments between the parts of an array. -/
def skipBreaks : (fuel : Nat) → List Char → List Char
  | 0, cs => cs
  | fuel + 1, cs =>
    match skipGap cs with
    | '#' :: rest => skipBreaks fuel (skipComment ('#' :: rest))
    | '\n' :: rest => skipBreaks fuel rest
    | rest => rest

mutual

/-- Any value. Each call takes a character or hands on the fuel for one. -/
def value? : (fuel : Nat) → Parse Written
  | 0, _ => none
  | fuel + 1, cs =>
    match cs with
    | '"' :: _ | '\'' :: _ => (quoted? cs).map fun (s, rest) => (.plain (.string s), rest)
    | '[' :: rest => (items? fuel rest).map fun (ws, rest) => (.array ws, rest)
    | '\x7b' :: rest =>
      match skipGap rest with
      | '\x7d' :: rest => some (.table false [], rest)
      | rest => (members? fuel [] rest).map fun (es, rest) => (.table false es, rest)
    | cs => unquoted? cs

/-- The values of an array, behind its bracket or a comma. -/
def items? : (fuel : Nat) → Parse (List Written)
  | 0, _ => none
  | fuel + 1, cs =>
    match skipBreaks (cs.length + 1) cs with
    | ']' :: rest => some ([], rest)
    | cs => do
      let (w, rest) ← value? fuel cs
      match skipBreaks (rest.length + 1) rest with
      | ']' :: rest => return ([w], rest)
      | ',' :: rest =>
        let (ws, rest) ← items? fuel rest
        return (w :: ws, rest)
      | _ => none

/-- The entries of a table on one line, behind its brace or a comma and behind the ones in
`entries`. -/
def members? : (fuel : Nat) → List (String × Written) → Parse (List (String × Written))
  | 0, _, _ => none
  | fuel + 1, entries, cs => do
    let (path, rest) ← dottedKey? (cs.length + 1) (skipGap cs)
    let rest ← char? '=' (skipGap rest)
    let (w, rest) ← value? fuel (skipGap rest)
    let entries ← w.insert path entries
    match skipGap rest with
    | '\x7d' :: rest => return (entries, rest)
    | ',' :: rest => members? fuel entries rest
    | _ => none

end

/-- A header, behind its first bracket. -/
def header? : Parse Section := fun cs => do
  let (many, cs) :=
    match cs with
    | '[' :: rest => (true, rest)
    | cs => (false, cs)
  let (path, rest) ← dottedKey? (cs.length + 1) (skipGap cs)
  let rest ← char? ']' (skipGap rest)
  let rest ← if many then char? ']' rest else some rest
  let rest ← lineEnd? rest
  return (⟨path, many, some []⟩, rest)

/-- A key and its value, put behind the entries before them. -/
def entry? (entries : List (String × Written)) : Parse (List (String × Written)) := fun cs => do
  let (path, rest) ← dottedKey? (cs.length + 1) cs
  let rest ← char? '=' (skipGap rest)
  let rest := skipGap rest
  let (w, rest) ← value? (2 * rest.length + 2) rest
  let rest ← lineEnd? rest
  return (← w.insert path entries, rest)

/-- The section that lines belong to while they are read; without header and entries it is none. -/
def Section.close (s : Section) : List Section :=
  if s.path.isEmpty && (s.entries.getD []).isEmpty then [] else [s]

/-- Reads line after line; each line takes at least one character of the fuel. `current` is the
section of the last header, or the one in front of all headers. -/
def sections? : (fuel : Nat) → (current : Section) → List Char → Option (List Section)
  | 0, current, cs => if cs.isEmpty then some current.close else none
  | fuel + 1, current, cs =>
    match skipGap cs with
    | [] => some current.close
    | '[' :: rest => do
      let (next, rest) ← header? rest
      return current.close ++ (← sections? fuel next rest)
    | '\n' :: rest => sections? fuel current rest
    | '#' :: rest => do sections? fuel current (← lineEnd? ('#' :: rest))
    | cs => do
      let (entries, rest) ← entry? (current.entries.getD []) cs
      sections? fuel { current with entries := some entries } rest

/-- A mark of the byte order in front of the text does not count. -/
def dropMark : List Char → List Char
  | '\ufeff' :: cs => cs
  | cs => cs

/-- The table that a file describes. -/
def ofText? (text : String) : Option Table := do
  let cs := foldLineEnds (dropMark text.toList)
  Section.table? (← sections? (cs.length + 1) ⟨[], false, some []⟩ cs)

end TxScope.Toml
