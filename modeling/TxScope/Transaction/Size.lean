import TxScope.Transaction.Basic

/-!
# Sizes

Fees are paid by virtual size. The bytes of witness items weigh one unit each and all other bytes
four; counts, lengths, marker and flag have no discount. Without witnesses size and virtual size
agree.
-/

namespace TxScope

structure Sizes where
  size : Nat
  weight : Nat
  virtualSize : Nat
  witnessBytes : Nat
  strippedSize : Nat
  deriving DecidableEq, Repr

def Transaction.sizes (tx : Transaction) : Sizes :=
  let size := tx.raw.length
  if tx.hasWitness then
    let weight := 4 * size - 3 * tx.witnessBytes
    { size, weight
      virtualSize := (weight + 3) / 4
      witnessBytes := tx.witnessBytes
      strippedSize := 4 + tx.body.length + 4 }
  else { size, weight := 4 * size, virtualSize := size, witnessBytes := 0, strippedSize := size }

end TxScope
