import TxScope.Bytes

/-!
# Public keys

A key is a point of the curve y² = x³ + 7 over the integers modulo `fieldSize`. Short keys give x
and the parity of y, long keys both; an x-only key gives x. A short key is good when x³ + 7 is a
square, which Euler's criterion decides.
-/

namespace TxScope.Curve

/-- 2^256 - 2^32 - 977. -/
def fieldSize : Nat := 0xfffffffffffffffffffffffffffffffffffffffffffffffffffffffefffffc2f

/-- `b ^ e` modulo `m`, by squaring. -/
def powMod (m b : Nat) (e : Nat) : Nat :=
  if e = 0 then 1 % m
  else
    let half := powMod m (b * b % m) (e / 2)
    if e % 2 = 1 then b * half % m else half
termination_by e

/-- The right-hand side of the curve's equation. -/
def cubic (x : Nat) : Nat := (x * x * x + 7) % fieldSize

/-- Zero is a square; any other number is when its power by half the order of the group is one. -/
def isSquare (n : Nat) : Bool := n == 0 || powMod fieldSize n ((fieldSize - 1) / 2) == 1

/-- Some point has this first coordinate. -/
def hasPoint (x : Nat) : Bool := x < fieldSize && isSquare (cubic x)

def isPoint (x y : Nat) : Bool := x < fieldSize && y < fieldSize && y * y % fieldSize == cubic x

/-- Why bytes are not a public key. -/
inductive KeyError where
  | wrongLength
  | wrongHeader (first : UInt8)
  | notOnCurve
  deriving DecidableEq, Repr

def KeyError.message : KeyError → String
  | .wrongLength => "key base58 error"
  | .wrongHeader first => s!"key prefix invalid: {first.toNat}"
  | .notOnCurve => "key secp256k1 error"

/-- Short keys have 33 bytes and start with 2 or 3, long keys have 65 and start with 4. -/
def checkKey (key : Bytes) : Except KeyError Unit :=
  let first := key.headD 0
  let x := bigEndian (slice key 1 33)
  if key.length = 33 then
    if (first = 2 ∨ first = 3) ∧ hasPoint x then .ok () else .error .notOnCurve
  else if key.length = 65 then
    if first ≠ 4 then .error (.wrongHeader first)
    else if isPoint x (bigEndian (slice key 33 65)) then .ok () else .error .notOnCurve
  else .error .wrongLength

/-- Whether 32 bytes are the first coordinate of a point. -/
def isXOnlyKey (key : Bytes) : Bool := hasPoint (bigEndian key)

end TxScope.Curve
