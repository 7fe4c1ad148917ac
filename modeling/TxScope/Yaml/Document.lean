import TxScope.Yaml.Scalar

/-!
# Settings files by indentation

A mapping is a row of keys in one column, a list a row of dashes in one column; what belongs to one
of them stands further in. Lists and mappings in brackets may be written anywhere on the way. A
comment begins at a hash sign behind a blank.

Only keys that mean texts count; of two with the same text the last counts. Anchors, aliases and
tags are not known. A file has one document at most.
-/

namespace TxScope.Yaml

open Settings (Value Table assign)

/-- Where the next thing in a file stands, and whether it is on a later line. -/
structure Next where
  later : Bool
  spot : Spot

def nextFrom (later comment : Bool) (column : Nat) : List Char → Next
  | [] => ⟨later, column, []⟩
  | '\r' :: '\n' :: cs => nextFrom true false 0 cs
  | c :: cs =>
    if isBreak c then nextFrom true false 0 cs
    else if comment || c = ' ' || (c = '\t' && !later) then nextFrom later comment (column + 1) cs
    else if c = '#' then nextFrom later true (column + 1) cs
    else ⟨later, column, c :: cs⟩

def Spot.next (s : Spot) : Next := nextFrom false false s.column s.rest

/-- Skips blanks, line ends and comments inside brackets. -/
def Spot.nextInside (s : Spot) : Spot := go false s.column s.rest
where
  go (comment : Bool) (column : Nat) : List Char → Spot
    | [] => ⟨column, []⟩
    | c :: cs =>
      if isBreak c then go false 0 cs
      else if comment || isBlank c then go comment (column + 1) cs
      else if c = '#' then go true (column + 1) cs
      else ⟨column, c :: cs⟩

/-- Whether the file, or the document in it, ends here. -/
def Spot.atEnd (s : Spot) : Bool := s.rest.isEmpty || s.atMarker

/-- A dash, a colon or another mark that a gap follows. -/
def Spot.atMark (mark : Char) (s : Spot) : Bool :=
  match s.rest with
  | c :: cs => c = mark && atGap cs
  | [] => false

/-! ## Inside brackets -/

/-- A key's colon inside brackets; it may stand directly behind a key in quotes. -/
def Spot.atColon (adjacent : Bool) (s : Spot) : Bool :=
  match s.rest with
  | ':' :: cs => adjacent || atGap cs || (cs.head?.map isFlow).getD false
  | _ => false

/-- The text under which an entry is kept. -/
def keyText? : Value → Option String
  | .string s => some s
  | _ => none

def assignUnder (key : Value) (v : Value) (t : Table) : Table :=
  match keyText? key with
  | some k => assign k v t
  | none => t

mutual

/-- A value inside brackets. The fuel is a few times the length of the text. -/
def flowValue : (fuel : Nat) → Spot → Option (Value × Spot)
  | 0, _ => none
  | fuel + 1, s =>
    match s.rest with
    | '[' :: _ => (flowItems fuel (s.skip 1).nextInside).map fun (vs, b) => (.array vs, b)
    | '\x7b' :: _ => (flowEntries fuel [] (s.skip 1).nextInside).map fun (t, b) => (.table t, b)
    | '"' :: _ | '\'' :: _ => (quoted? s).map fun (t, b) => (.string (String.ofList t), b)
    | _ => do
      let (text, b) ← plain? true 0 s
      return (← resolve text, b)

/-- The elements up to a closing bracket. -/
def flowItems : (fuel : Nat) → Spot → Option (List Value × Spot)
  | 0, _ => none
  | fuel + 1, s =>
    if s.rest.head? = some ']' then some ([], s.skip 1)
    else do
      let (v, b) ← flowValue fuel s
      let b := b.nextInside
      match b.rest with
      | ',' :: _ =>
        let (vs, b) ← flowItems fuel (b.skip 1).nextInside
        return (v :: vs, b)
      | ']' :: _ => return ([v], b.skip 1)
      | _ => none

/-- The entries up to a closing brace, behind the ones already read. -/
def flowEntries : (fuel : Nat) → Table → Spot → Option (Table × Spot)
  | 0, _, _ => none
  | fuel + 1, t, s =>
    if s.rest.head? = some '\x7d' then some (t, s.skip 1)
    else do
      let (key, b) ← flowValue fuel s
      let b := b.nextInside
      let adjacent := s.rest.head? = some '"' || s.rest.head? = some '\''
      let (v, b) ←
        if b.atColon adjacent then
          let b := (b.skip 1).nextInside
          if b.rest.head? = some ',' ∨ b.rest.head? = some '\x7d' then some (Value.nothing, b)
          else flowValue fuel b
        else some (Value.nothing, b)
      let b := b.nextInside
      match b.rest with
      | ',' :: _ => flowEntries fuel (assignUnder key v t) (b.skip 1).nextInside
      | '\x7d' :: _ => return (assignUnder key v t, b.skip 1)
      | _ => none

end

/-! ## By indentation -/

/-- A text as a value. -/
def textAt (later : Bool) (t : List Char) (s : Spot) : Value × Bool × Spot :=
  (.string (String.ofList t), later, s)

/-- A text on its own: its value, whether a new line begins behind it, and the place there. -/
def scalar? (parent : Int) (s : Spot) : Option (Value × Bool × Spot) :=
  match s.rest with
  | '|' :: _ => (block? true parent (s.skip 1)).map fun (t, b) => textAt true t b
  | '>' :: _ => (block? false parent (s.skip 1)).map fun (t, b) => textAt true t b
  | '"' :: _ | '\'' :: _ => (quoted? s).map fun (t, b) => textAt false t b
  | '[' :: _ | '\x7b' :: _ =>
    (flowValue (4 * s.rest.length + 4) s).map fun (v, b) => (v, false, b)
  | _ => do
    let (text, b) ← plain? false (parent + 1).toNat s
    return (← resolve text, false, b)

/-- What comes behind a value. -/
def behind (later : Bool) (s : Spot) : Next :=
  let n := s.next
  ⟨later || n.later, n.spot⟩

/-- Whether a key ends here: on the line where it began, a colon follows. -/
def endsKey (start : List Char) (later : Bool) (s : Spot) : Bool :=
  let key := start.take (start.length - s.rest.length)
  let n := s.next
  !later && !n.later && !key.any isBreak && n.spot.atMark ':'

mutual

/-- The value that begins at a place, further in than `parent`. A row of keys or dashes may begin
only where `rows` says so. The fuel is a few times the length of the text. -/
def value? : (fuel : Nat) → (rows : Bool) → (parent : Int) → Spot → Option (Value × Bool × Spot)
  | 0, _, _, _ => none
  | fuel + 1, rows, parent, s =>
    if s.atMark '-' then
      if rows then do
        let (vs, later, b) ← items? fuel s.column s
        return (.array vs, later, b)
      else none
    else do
      let (v, later, b) ← scalar? parent s
      if endsKey s.rest later b then
        if rows then do
          let (t, later, b) ← entries? fuel s.column [] s
          return (.table t, later, b)
        else none
      else return (v, later, b)

/-- The elements of a list from one of its dashes on. -/
def items? : (fuel column : Nat) → Spot → Option (List Value × Bool × Spot)
  | 0, _, _ => none
  | fuel + 1, column, s => do
    let n := (s.skip 1).next
    let (v, later, b) ←
      if n.spot.atEnd || (n.later && n.spot.column ≤ column) then
        some (Value.nothing, false, s.skip 1)
      else value? fuel true column n.spot
    let n := behind later b
    if n.later && n.spot.column = column && n.spot.atMark '-' && !n.spot.atEnd then do
      let (vs, later, b) ← items? fuel column n.spot
      return (v :: vs, later, b)
    else return ([v], later, b)

/-- The entries of a mapping from one of its keys on, behind the ones already read. -/
def entries? : (fuel column : Nat) → Table → Spot → Option (Table × Bool × Spot)
  | 0, _, _, _ => none
  | fuel + 1, column, t, s => do
    let (key, later, b) ← scalar? column s
    if !endsKey s.rest later b then none
    else
      let colon := b.next.spot.skip 1
      let n := colon.next
      let (v, later, b) ←
        if n.spot.atEnd then some (Value.nothing, false, colon)
        else if !n.later then value? fuel false column n.spot
        else if column < n.spot.column then value? fuel true column n.spot
        else if n.spot.column = column && n.spot.atMark '-' then value? fuel true column n.spot
        else some (Value.nothing, false, colon)
      let t := assignUnder key v t
      let n := behind later b
      if n.later && n.spot.column = column && !n.spot.atEnd then entries? fuel column t n.spot
      else return (t, later, b)

end

/-- The start of the document, behind its mark if there is one. -/
def start (s : Spot) : Spot :=
  match s.atMarker, s.rest with
  | true, '-' :: _ => (s.skip 3).next.spot
  | _, _ => s

/-- Whether nothing but the end of the document follows. -/
def closes (later : Bool) (s : Spot) : Bool :=
  let n := behind later s
  n.spot.rest.isEmpty ||
    (n.later && n.spot.atMarker && n.spot.rest.head? == some '.' &&
      (n.spot.skip 3).next.spot.rest.isEmpty)

/-- The value that a file holds; an empty file holds an empty table. -/
def ofText? (text : String) : Option Value :=
  let cs := text.toList
  let first := (Spot.mk 0 cs).next.spot
  if first.rest.isEmpty then some (.table [])
  else
    let s := start first
    if s.atEnd then if closes true s then some .nothing else none
    else
      match value? (8 * cs.length + 8) true (-1) s with
      | some (v, later, b) => if closes later b then some v else none
      | none => none

end TxScope.Yaml
