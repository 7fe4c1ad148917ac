import TxScope.Settings.Value

/-!
# Scalars by indentation

The texts in a file whose structure is its indentation: plain, in quotes, or as a block of lines.
Where a plain or quoted text goes over several lines, a single line end between two words counts as
a space, and of more of them all but the first count.

`resolve` says what a plain text means.
-/

namespace TxScope.Yaml

open Settings (Value Real integer64?)

/-- A place in a file: the number of characters in front of it on its line, and what follows. -/
structure Spot where
  column : Nat
  rest : List Char
  deriving DecidableEq, Repr

namespace Spot

/-- The place some characters further on the same line. -/
def skip (n : Nat) (s : Spot) : Spot := ⟨s.column + n, s.rest.drop n⟩

end Spot

def isBlank (c : Char) : Bool := c == ' ' || c == '\t'

def isBreak (c : Char) : Bool := c == '\n' || c == '\r'

/-- Whether a blank, a line end or the end of the file comes next. -/
def atGap (cs : List Char) : Bool :=
  match cs with
  | c :: _ => isBlank c || isBreak c
  | [] => true

def isFlow (c : Char) : Bool :=
  c == ',' || c == '[' || c == ']' || c == '\x7b' || c == '\x7d'

/-- Whether the mark between two documents, or behind one, stands here. -/
def Spot.atMarker (s : Spot) : Bool :=
  s.column == 0 &&
    match s.rest with
    | '-' :: '-' :: '-' :: cs | '.' :: '.' :: '.' :: cs => atGap cs
    | _ => false

/-- What stands between two words: blanks up to the first line end, the number of line ends, and
the place behind all of it. -/
structure Gap where
  blanks : List Char
  breaks : Nat
  behind : Spot

def gapFrom (blanks : List Char) (breaks column : Nat) : List Char → Gap
  | '\r' :: '\n' :: cs => gapFrom blanks (breaks + 1) 0 cs
  | c :: cs =>
    if isBreak c then gapFrom blanks (breaks + 1) 0 cs
    else if isBlank c then
      gapFrom (if breaks = 0 then blanks ++ [c] else blanks) breaks (column + 1) cs
    else ⟨blanks, breaks, column, c :: cs⟩
  | [] => ⟨blanks, breaks, column, []⟩

def Spot.gap (s : Spot) : Gap := gapFrom [] 0 s.column s.rest

/-- What a gap counts as. -/
def Gap.folded (g : Gap) : List Char :=
  match g.breaks with
  | 0 => g.blanks
  | 1 => [' ']
  | n + 2 => List.replicate (n + 1) '\n'

/-! ## Plain texts -/

/-- The characters of a plain text up to the next gap. Inside brackets they end the text too. -/
def plainWord (flow : Bool) : List Char → List Char
  | [] => []
  | c :: cs =>
    if isBlank c || isBreak c || (flow && isFlow c) then []
    else if c = ':' ∧ (atGap cs ∨ (flow ∧ (cs.head?.map isFlow).getD false)) then []
    else c :: plainWord flow cs

/-- The rest of a plain text behind some words. Its lines are at least `indent` columns further in.
The fuel is the length of the text. -/
def plainTail (flow : Bool) (indent : Nat) : (fuel : Nat) → Spot → List Char × Spot
  | 0, s => ([], s)
  | fuel + 1, s =>
    let g := s.gap
    let word := plainWord flow g.behind.rest
    if word.isEmpty || g.behind.rest.head? == some '#' || g.behind == s ||
        (!flow && g.behind.column < indent) || g.behind.atMarker then ([], s)
    else
      let (more, behind) := plainTail flow indent fuel (g.behind.skip word.length)
      (g.folded ++ word ++ more, behind)

/-- Whether a plain text begins here. -/
def isPlainStart (flow : Bool) (cs : List Char) : Bool :=
  match cs with
  | [] => false
  | c :: rest =>
    if c = '-' ∨ (!flow ∧ (c = '?' ∨ c = ':')) then !atGap rest
    else !("#&*!|>'\"%@`?:".toList.contains c) && !isFlow c && !isBlank c && !isBreak c

def plain? (flow : Bool) (indent : Nat) (s : Spot) : Option (List Char × Spot) :=
  if isPlainStart flow s.rest then
    let word := plainWord flow s.rest
    let (more, behind) := plainTail flow indent s.rest.length (s.skip word.length)
    some (word ++ more, behind)
  else none

/-! ## Quoted texts -/

/-- The character with a number of some hexadecimal digits. -/
def numbered? (count : Nat) (s : Spot) : Option (Char × Spot) :=
  if count ≤ s.rest.length then (Text.codePoint? (s.rest.take count)).map (·, s.skip count)
  else none

/-- The character behind a backslash. -/
def escape? (s : Spot) : Option (Char × Spot) :=
  match s.rest with
  | 'x' :: _ => numbered? 2 (s.skip 1)
  | 'u' :: _ => numbered? 4 (s.skip 1)
  | 'U' :: _ => numbered? 8 (s.skip 1)
  | c :: _ =>
    let meant :=
      [('0', '\x00'), ('a', '\x07'), ('b', '\x08'), ('t', '\t'), ('\t', '\t'), ('n', '\n'),
       ('v', '\x0b'), ('f', '\x0c'), ('r', '\r'), ('e', '\x1b'), (' ', ' '), ('"', '"'),
       ('\'', '\''), ('\\', '\\'), ('N', '\u0085'), ('_', '\u00a0'), ('L', '\u2028'),
       ('P', '\u2029')].lookup c
    meant.map (·, s.skip 1)
  | [] => none

/-- Text in single quotes, behind the first of them. The fuel is the length of the text. -/
def singleTail : (fuel : Nat) → Spot → Option (List Char × Spot)
  | 0, _ => none
  | fuel + 1, s =>
    if s.atMarker then none
    else
      match s.rest with
      | '\'' :: '\'' :: _ => (singleTail fuel (s.skip 2)).map fun (t, b) => ('\'' :: t, b)
      | '\'' :: _ => some ([], s.skip 1)
      | c :: _ =>
        if isBlank c || isBreak c then
          (singleTail fuel s.gap.behind).map fun (t, b) => (s.gap.folded ++ t, b)
        else (singleTail fuel (s.skip 1)).map fun (t, b) => (c :: t, b)
      | [] => none

/-- Text in double quotes, behind the first of them. A backslash takes the line end behind it
away. The fuel is the length of the text. -/
def doubleTail : (fuel : Nat) → Spot → Option (List Char × Spot)
  | 0, _ => none
  | fuel + 1, s =>
    if s.atMarker then none
    else
      match s.rest with
      | '"' :: _ => some ([], s.skip 1)
      | '\\' :: c :: _ =>
        if isBreak c then
          let g := (s.skip 1).gap
          (doubleTail fuel g.behind).map fun (t, b) => (List.replicate (g.breaks - 1) '\n' ++ t, b)
        else do
          let (c, s) ← escape? (s.skip 1)
          let (t, b) ← doubleTail fuel s
          return (c :: t, b)
      | '\\' :: [] => none
      | c :: _ =>
        if isBlank c || isBreak c then
          (doubleTail fuel s.gap.behind).map fun (t, b) => (s.gap.folded ++ t, b)
        else (doubleTail fuel (s.skip 1)).map fun (t, b) => (c :: t, b)
      | [] => none

/-- A text in quotes of either kind. -/
def quoted? (s : Spot) : Option (List Char × Spot) :=
  match s.rest with
  | '\'' :: rest => singleTail (rest.length + 1) (s.skip 1)
  | '"' :: rest => doubleTail (rest.length + 1) (s.skip 1)
  | _ => none

/-! ## Blocks of lines -/

/-- Which line ends at the end of a block belong to it. -/
inductive Chomp where
  | none
  | one
  | all
  deriving DecidableEq, Repr

/-- How a block is written. -/
structure BlockStyle where
  literal : Bool
  chomp : Chomp
  /-- How much further in than its surroundings its lines are, if that is said. -/
  increment : Option Nat

/-- The rest of the line of a block's head, in any order of its two marks. -/
def blockStyle? (literal : Bool) (marks : List Char) : Option BlockStyle :=
  let chompOf : Char → Option Chomp := fun c =>
    if c = '+' then some .all else if c = '-' then some .none else none
  let stepOf : Char → Option Nat := fun c =>
    if '1' ≤ c ∧ c ≤ '9' then some (c.toNat - '0'.toNat) else none
  match marks with
  | [] => some ⟨literal, .one, none⟩
  | [a] =>
    match chompOf a, stepOf a with
    | some chomp, _ => some ⟨literal, chomp, none⟩
    | none, some n => some ⟨literal, .one, some n⟩
    | none, none => none
  | [a, b] =>
    match chompOf a, stepOf b, stepOf a, chompOf b with
    | some chomp, some n, _, _ => some ⟨literal, chomp, some n⟩
    | _, _, some n, some chomp => some ⟨literal, chomp, some n⟩
    | _, _, _, _ => none
  | _ => none

/-- Takes the line end off the front. -/
def dropBreak : List Char → List Char
  | '\r' :: '\n' :: cs => cs
  | c :: cs => if isBreak c then cs else c :: cs
  | [] => []

/-- Skips empty lines and the indentation of the next one, of `indent` columns if that is known;
gives the number of line ends and the widest indentation. The fuel is the length of the text. -/
def blockBreaks (indent : Option Nat) : (fuel breaks widest : Nat) → List Char → Nat × Nat × Spot
  | 0, breaks, widest, cs => (breaks, widest, ⟨0, cs⟩)
  | fuel + 1, breaks, widest, cs =>
    let blanks := (cs.takeWhile (· == ' ')).length
    let column := min blanks (indent.getD blanks)
    let rest := cs.drop column
    let widest := max widest column
    if (rest.head?.map isBreak).getD false then
      blockBreaks indent fuel (breaks + 1) widest (dropBreak rest)
    else (breaks, widest, ⟨column, rest⟩)

/-- The lines of a block from a place on. `ends` are the line ends before it, `begun` says that a
line stands before them, `folds` that the first of them may count as a space. The fuel is the length
of the text. -/
def blockLines (style : BlockStyle) (indent : Nat) : (fuel ends : Nat) → (begun folds : Bool) →
    Spot → List Char × Spot
  | 0, _, _, _, s => ([], s)
  | fuel + 1, ends, begun, folds, s =>
    if s.column < indent || s.rest.isEmpty then
      let kept :=
        match style.chomp with
        | .none => 0
        | .one => if begun then min ends 1 else 0
        | .all => ends
      (List.replicate kept '\n', s)
    else
      let blank := (s.rest.head?.map isBlank).getD false
      let before :=
        if !style.literal && folds && !blank && 0 < ends then
          if ends = 1 then [' '] else List.replicate (ends - 1) '\n'
        else List.replicate ends '\n'
      let line := s.rest.takeWhile fun c => !isBreak c
      match s.rest.drop line.length with
      | [] => (before ++ line, ⟨s.column + line.length, []⟩)
      | behind =>
        let rest := dropBreak behind
        let (breaks, _, next) := blockBreaks (some indent) (rest.length + 1) 0 0 rest
        let (more, last) := blockLines style indent fuel (breaks + 1) true (!blank) next
        (before ++ line ++ more, last)

/-- A block, behind the character that begins its head. Its lines are further in than `parent`. -/
def block? (literal : Bool) (parent : Int) (s : Spot) : Option (List Char × Spot) := do
  let marks := s.rest.takeWhile fun c => !isBlank c && !isBreak c
  let style ← blockStyle? literal marks
  let rest := (s.rest.drop marks.length).dropWhile isBlank
  let rest := if rest.head? = some '#' then rest.dropWhile (fun c => !isBreak c) else rest
  if !(rest.head?.map isBreak).getD true then none
  else
    let rest := dropBreak rest
    let known := style.increment.map fun n => parent.toNat + n
    let (breaks, widest, first) := blockBreaks known (rest.length + 1) 0 0 rest
    let indent := known.getD (max (max widest (parent + 1).toNat) 1)
    if first.rest.head? = some '\t' ∧ first.column < indent then none
    else
      let (text, behind) := blockLines style indent (rest.length + 1) breaks false false first
      return (text, behind)

/-! ## Meaning -/

/-- An integer in another base than ten, behind the two characters that name the base. -/
def based? (base : Nat) (cs : List Char) : Option Value :=
  let n := Text.valueIn base cs
  if cs ≠ [] ∧ cs.all (Text.isDigitIn base) ∧ n < 0x8000000000000000 then some (.integer n)
  else none

/-- The word that a plain text is, or the number in another base. -/
def special? : List Char → Option Value
  | ['~'] => some .nothing
  | '0' :: 'x' :: ds => based? 16 ds
  | '0' :: 'o' :: ds => based? 8 ds
  | cs =>
    match String.ofList cs with
    | "null" => some .nothing
    | "true" => some (.boolean true)
    | "false" => some (.boolean false)
    | _ => none

/-- The words for numbers that have no digits; they begin with a point and no value has them. -/
def isPointWord (cs : List Char) : Bool :=
  [".inf", ".Inf", ".INF", "+.inf", "+.Inf", "+.INF", "-.inf", "-.Inf", "-.INF", ".nan",
   ".NAN"].contains (String.ofList cs)

/-- What a plain text means: a null, a truth value, a number, or the text itself. -/
def resolve (cs : List Char) : Option Value :=
  match special? cs, integer64? cs, Real.ofChars? cs with
  | some v, _, _ => some v
  | none, some n, _ => some (.integer n)
  | none, none, some x => some (.real x)
  | none, none, none => if isPointWord cs then none else some (.string (String.ofList cs))

end TxScope.Yaml
