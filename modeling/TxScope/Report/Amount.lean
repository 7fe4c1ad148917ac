/-!
# Amounts

An amount is shown twice: in the smallest unit with commas between groups of three digits, and in
whole coins with eight decimals.
-/

namespace TxScope.Amount

/-- Smallest units to a coin. -/
def unitsPerCoin : Nat := 100000000

/-- A comma before each group of three, counted from the right. -/
def groupThousands (digits : List Char) : List Char :=
  match digits with
  | [] => []
  | d :: ds =>
    let rest := groupThousands ds
    if ds ≠ [] ∧ ds.length % 3 = 0 then d :: ',' :: rest else d :: rest

/-- The decimal digits of a number below `10 ^ width`, filled up with zeros on the left. -/
def padded (width n : Nat) : List Char :=
  let ds := Nat.toDigits 10 n
  List.replicate (width - ds.length) '0' ++ ds

def text (units : Nat) : String :=
  String.ofList (groupThousands (Nat.toDigits 10 units)) ++ " sat (" ++
    toString (units / unitsPerCoin) ++ "." ++
    String.ofList (padded 8 (units % unitsPerCoin)) ++ " BTC)"

end TxScope.Amount
