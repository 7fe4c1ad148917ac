import TxScope.Text.Parse

/-!
# Dates and times

A date, a time of day, or both with a capital or small T or a space between them; only both together
may have an offset from universal time. `normal?` gives the notation in which they are shown.
-/

namespace TxScope.Toml.Moment

open Text (char?)

def isDigit (c : Char) : Bool := '0' ≤ c && c ≤ '9'

/-- A number of exactly two digits at the front. -/
def twoDigits? : List Char → Option (Nat × List Char)
  | a :: b :: cs =>
    if isDigit a && isDigit b then some (10 * (a.toNat - '0'.toNat) + (b.toNat - '0'.toNat), cs)
    else none
  | _ => none

/-- A date, year to day, with dashes. -/
def date? (cs : List Char) : Option (List Char × List Char) := do
  let (_, r) ← twoDigits? cs
  let (_, r) ← twoDigits? r
  let (month, r) ← twoDigits? (← char? '-' r)
  let (day, r) ← twoDigits? (← char? '-' r)
  if 1 ≤ month ∧ month ≤ 12 ∧ 1 ≤ day ∧ day ≤ 31 then return (cs.take 10, r) else none

/-- Nine digits at most count behind the point, and zeros at the end do not show. -/
def trimFraction (ds : List Char) : List Char :=
  ((ds.take 9).reverse.dropWhile (· == '0')).reverse

/-- A time with colons, and a fraction of its seconds. -/
def time? (cs : List Char) : Option (List Char × List Char) := do
  let (hour, r) ← twoDigits? cs
  let (minute, r) ← twoDigits? (← char? ':' r)
  let (second, r) ← twoDigits? (← char? ':' r)
  if 24 < hour ∨ 59 < minute ∨ 59 < second then none
  else
    match r with
    | '.' :: r =>
      let ds := r.takeWhile isDigit
      if ds.isEmpty then none
      else
        let shown := trimFraction ds
        return (cs.take 8 ++ if shown.isEmpty then [] else '.' :: shown, r.dropWhile isDigit)
    | r => return (cs.take 8, r)

/-- The offset, up to the end of the text. The sign belongs to the hours, and no hours have none. -/
def offset? : List Char → Option (List Char)
  | [] => some []
  | ['Z'] | ['z'] => some ['Z']
  | sign :: cs => do
    let (hours, r) ← twoDigits? cs
    let (_, r) ← twoDigits? (← char? ':' r)
    if (sign = '+' ∨ sign = '-') ∧ r.isEmpty then
      return (if hours = 0 then '+' else sign) :: cs
    else none

/-- The notation in which a date, a time, or both are shown. -/
def normalChars? (cs : List Char) : Option (List Char) :=
  match time? cs with
  | some (time, []) => some time
  | some _ => none
  | none => do
    let (date, r) ← date? cs
    match r with
    | [] => return date
    | c :: r =>
      let (time, r) ← time? r
      let offset ← offset? r
      if c = 'T' ∨ c = 't' ∨ c = ' ' then return date ++ 'T' :: time ++ offset else none

def normal? (cs : List Char) : Option String := (normalChars? cs).map String.ofList

end TxScope.Toml.Moment
