/-!
# Digits

Digits of numbers in a base up to sixteen, as letters in either case, and the numbers they spell.
-/

namespace TxScope.Text

/-- The value of a digit in any base up to sixteen. -/
def digitValue? (c : Char) : Option Nat :=
  if '0' ≤ c ∧ c ≤ '9' then some (c.toNat - '0'.toNat)
  else if 'a' ≤ c ∧ c ≤ 'f' then some (c.toNat - 'a'.toNat + 10)
  else if 'A' ≤ c ∧ c ≤ 'F' then some (c.toNat - 'A'.toNat + 10)
  else none

def isDigitIn (base : Nat) (c : Char) : Bool :=
  match digitValue? c with
  | some v => v < base
  | none => false

/-- The number that digits spell; what is no digit counts as a zero. -/
def valueIn (base : Nat) (ds : List Char) : Nat :=
  ds.foldl (fun v c => base * v + (digitValue? c).getD 0) 0

/-- The character with a number that is given by its hexadecimal digits. -/
def codePoint? (ds : List Char) : Option Char :=
  let n := valueIn 16 ds
  if ds.all (isDigitIn 16) ∧ n.isValidChar then some (Char.ofNat n) else none

end TxScope.Text
