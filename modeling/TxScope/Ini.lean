import TxScope.Settings.Value
import TxScope.Text.Blank
import TxScope.Text.Digit

/-!
# Settings files in sections of plain entries

An entry is a key, an equals sign or a colon, and a text up to the end of the line; a name in
brackets opens a section. A comment has a line of its own, from its first column on. All values are
texts. Blanks around keys, names and texts do not count; a backslash gives the next character a
meaning of its own.

The entries in front of all sections belong to the file's table itself. Of sections with one name
the last counts, and of entries with one key in a section.
-/

namespace TxScope.Ini

open Settings (Value Table assign lookup)

/-- A part of a file. -/
inductive Item where
  | header (name : String)
  | entry (key text : String)

/-- The character behind a backslash. -/
def escaped : Char → Char
  | '0' => '\x00'
  | 'a' => '\x07'
  | 'b' => '\x08'
  | 't' => '\t'
  | 'r' => '\r'
  | 'n' => '\n'
  | c => c

/-- Text up to a character that ends it, which is left to be read; the end of the file may end it
too if `orEnd` says so. -/
def textUntil (stop : Char → Bool) (orEnd : Bool) : List Char → Option (List Char × List Char)
  | [] => if orEnd then some ([], []) else none
  | '\\' :: cs =>
    match cs with
    | [] => none
    | '\n' :: cs => textUntil stop orEnd cs
    | 'x' :: a :: b :: c :: d :: cs => do
      let c ← Text.codePoint? [a, b, c, d]
      let (s, rest) ← textUntil stop orEnd cs
      return (c :: s, rest)
    | 'x' :: _ => none
    | c :: cs => do
      let (s, rest) ← textUntil stop orEnd cs
      return (escaped c :: s, rest)
  | c :: cs =>
    if stop c then some ([], c :: cs)
    else do
      let (s, rest) ← textUntil stop orEnd cs
      return (c :: s, rest)

def isLineEnd (c : Char) : Bool := c == '\n' || c == '\r'

/-- The rest of a line. -/
def lineText (cs : List Char) : Option (List Char × List Char) := textUntil isLineEnd true cs

/-- The text of an entry, behind its sign. A text in quotes may go over several lines; what follows
it on its last line belongs to it. -/
def entryText (cs : List Char) : Option (List Char × List Char) :=
  match cs.dropWhile fun c => Text.isBlank c && !isLineEnd c with
  | '"' :: rest => do quoted '"' rest
  | '\'' :: rest => do quoted '\'' rest
  | rest => lineText rest
where
  quoted (quote : Char) (cs : List Char) : Option (List Char × List Char) := do
    let (s, rest) ← textUntil (· == quote) false cs
    let (more, rest) ← lineText (rest.drop 1)
    return (s ++ more, rest)

/-- A text without the blanks around it. -/
def trimmed (cs : List Char) : String := Text.trim (String.ofList cs)

/-- Skips blanks; says whether the next character is the first of its line. -/
def skipBlanks (first : Bool) : List Char → Bool × List Char
  | c :: cs => if Text.isBlank c then skipBlanks (c == '\n') cs else (first, c :: cs)
  | [] => (first, [])

/-- Reads part after part; each takes at least one character of the fuel. -/
def items? : (fuel : Nat) → (first : Bool) → List Char → Option (List Item)
  | 0, _, _ => none
  | fuel + 1, first, cs =>
    match skipBlanks first cs with
    | (_, []) => some []
    | (first, c :: cs) =>
      if c = ';' ∨ c = '#' then
        if first then items? fuel true ((cs.dropWhile (· != '\n')).drop 1) else none
      else if c = '[' then do
        let (name, rest) ← textUntil (· == ']') false cs
        return .header (trimmed name) :: (← items? fuel false (rest.drop 1))
      else do
        let (key, rest) ← textUntil (fun c => c == '=' || c == ':') false (c :: cs)
        let (text, rest) ← entryText (rest.drop 1)
        if (trimmed key).isEmpty then none
        else return .entry (trimmed key) (trimmed text) :: (← items? fuel false rest)

/-- Puts the parts behind the ones before them into a table; `current` is the open section. -/
def build (current : Option String) (t : Table) : List Item → Table
  | [] => t
  | .header name :: rest => build (some name) (assign name (.table []) t) rest
  | .entry key text :: rest =>
    match current with
    | none => build none (assign key (.string text) t) rest
    | some name =>
      let entries :=
        match lookup name t with
        | some (.table entries) => entries
        | _ => []
      build (some name) (assign name (.table (assign key (.string text) entries)) t) rest

/-- The table that a file describes. -/
def ofText? (text : String) : Option Table := do
  let cs := text.toList
  return build none [] (← items? (cs.length + 1) true cs)

end TxScope.Ini
