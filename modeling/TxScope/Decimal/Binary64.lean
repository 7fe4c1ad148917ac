/-!
# Decimal text of binary floats

A finite binary float of 64 bits is a mantissa below 2^53 times a power of two, at least 2^-1074.
`ofDecimal?` rounds a decimal to the nearest one, a tie to the even mantissa. `shortest` goes back:
among the decimals that round to the number it takes one with the fewest digits, of two such the
nearer, and of two as near the greater. All of it is arithmetic on natural numbers.
-/

namespace TxScope

structure Binary64 where
  mantissa : Nat
  exponent : Int
  deriving DecidableEq, Repr

namespace Binary64

/-- A positive fraction of natural numbers, from a numerator and powers of two and ten. -/
def fraction (n : Nat) (twos tens : Int) : Nat × Nat :=
  (n * Nat.pow 2 twos.toNat * Nat.pow 10 tens.toNat,
    Nat.pow 2 (-twos).toNat * Nat.pow 10 (-tens).toNat)

/-- The integer nearest to `n / d`; a tie goes to the even one. -/
def roundDiv (n d : Nat) : Nat :=
  let q := n / d
  let r := n % d
  if 2 * r < d then q
  else if d < 2 * r then q + 1
  else if q % 2 = 0 then q
  else q + 1

/-- The least exponent. -/
def minExponent : Int := -1074

/-- The greatest exponent. -/
def maxExponent : Int := 971

/-- The exponent that leaves 53 bits, or fewer at the lower end, of the fraction `n / d`. -/
def exponentFor (n d : Nat) : Int :=
  let guess : Int := (n.log2 : Int) - d.log2 - 53
  let (n', d') := fraction 1 (-guess) 0
  let e := if 0x20000000000000 ≤ n * n' / (d * d') then guess + 1 else guess
  max e minExponent

/-- The float nearest to the fraction `n / d`, unless that is too great. -/
def nearest? (n d : Nat) : Option Binary64 :=
  if n = 0 then some ⟨0, minExponent⟩
  else
    let e := exponentFor n d
    let (n', d') := fraction 1 (-e) 0
    let m := roundDiv (n * n') (d * d')
    let (m, e) := if m = 0x20000000000000 then (0x10000000000000, e + 1) else (m, e)
    if e ≤ maxExponent then some ⟨m, e⟩ else none

/-- The float nearest to `digits * 10 ^ tens`, unless that is too great. Numbers with more than 320
places before the point, or 330 zeros after it, are settled without their powers of ten. -/
def ofDecimal? (digits : Nat) (tens : Int) : Option Binary64 :=
  let places := (Nat.toDigits 10 digits).length + tens
  if digits = 0 ∨ places < -330 then some ⟨0, minExponent⟩
  else if 320 < places then none
  else
    let (n, d) := fraction digits 0 tens
    nearest? n d

/-- The fraction that a float is. -/
def toFraction (x : Binary64) : Nat × Nat := fraction x.mantissa x.exponent 0

/-- The product, rounded, unless it is too great. -/
def times? (x y : Binary64) : Option Binary64 :=
  let (n, d) := x.toFraction
  let (n', d') := y.toFraction
  nearest? (n * n') (d * d')

/-- The quotient, rounded, unless it is too great. -/
def over? (x y : Binary64) : Option Binary64 :=
  let (n, d) := x.toFraction
  let (n', d') := y.toFraction
  nearest? (n * d') (d * n')

/-- The position of the first digit of the fraction `n / d`: zero for the units. Below one it is
searched downwards; the fuel bounds the search. -/
def leadingPlace (n d : Nat) : Int :=
  if d ≤ n then ((Nat.toDigits 10 (n / d)).length : Int) - 1
  else
    let rec down : (fuel : Nat) → Nat → Int → Int
      | 0, _, place => place
      | fuel + 1, n, place => if d ≤ 10 * n then place else down fuel (10 * n) (place - 1)
    down 400 n (-1)

/-- The decimals that round to a float, as numerators over a shared denominator. -/
structure Interval where
  low : Nat
  value : Nat
  high : Nat
  denominator : Nat
  /-- The two ends round to the float as well. -/
  closed : Bool

def interval (x : Binary64) : Interval :=
  let below := if x.mantissa = 0x10000000000000 ∧ minExponent < x.exponent then 1 else 2
  let scale := fun k => (fraction k (x.exponent - 2) 0).1
  { low := scale (4 * x.mantissa - below)
    value := scale (4 * x.mantissa)
    high := scale (4 * x.mantissa + 2)
    denominator := (fraction 1 (x.exponent - 2) 0).2
    closed := x.mantissa % 2 = 0 }

def Interval.contains (i : Interval) (n d : Nat) : Bool :=
  let a := n * i.denominator
  if i.closed then i.low * d ≤ a && a ≤ i.high * d else i.low * d < a && a < i.high * d

/-- The multiple of `10 ^ place` nearest to the float among its two neighbours on that grid, if one
of them rounds to the float. -/
def onGrid? (i : Interval) (place : Int) : Option Nat :=
  let (un, ud) := fraction 1 0 place
  let floor := i.value * ud / (i.denominator * un)
  let lower := i.contains (floor * un) ud
  let upper := i.contains ((floor + 1) * un) ud
  if lower && upper then
    if 2 * (i.value * ud) < (2 * floor + 1) * (i.denominator * un) then some floor
    else some (floor + 1)
  else if lower then some floor
  else if upper then some (floor + 1)
  else none

/-- Tries coarser grids first; seventeen digits are always enough. -/
def search (i : Interval) : (fuel : Nat) → (place : Int) → Nat × Int
  | 0, place => (0, place)
  | fuel + 1, place =>
    match onGrid? i place with
    | some n => (n, place)
    | none => search i fuel (place - 1)

/-- A float just below a power of ten can be nearest to that power, which is one place further
up. -/
def carry (n : Nat) (place : Int) : Nat × Int := if n = 10 then (1, place + 1) else (n, place)

/-- The shortest decimal: an integer and a power of ten. -/
def shortest (x : Binary64) : Nat × Int :=
  if x.mantissa = 0 then (0, 0)
  else
    let i := x.interval
    let (n, place) := search i 20 (leadingPlace i.value i.denominator)
    carry n place

/-- An integer times a power of ten, written without an exponent. -/
def positional (n : Nat) (place : Int) : String :=
  let ds := Nat.toDigits 10 n
  if 0 ≤ place then
    String.ofList (if n = 0 then ds else ds ++ List.replicate place.toNat '0')
  else
    let places := (-place).toNat
    let ds := List.replicate (places + 1 - ds.length) '0' ++ ds
    String.ofList (ds.take (ds.length - places) ++ '.' :: ds.drop (ds.length - places))

/-- The shortest text that rounds to the float. -/
def text (x : Binary64) : String :=
  let (n, place) := x.shortest
  positional n place

end Binary64

end TxScope
