/-!
# Byte strings and the numbers they spell

Every part of the wire format is a list of bytes. `littleEndian` and `bigEndian` read a byte
string as a number; `toLittleEndian` and `toBigEndian` write a number in a fixed count of bytes,
dropping what does not fit.
-/

namespace TxScope

abbrev Bytes := List UInt8

/-- The number a byte string spells, least significant byte first. -/
def littleEndian : Bytes → Nat
  | [] => 0
  | b :: bs => b.toNat + 256 * littleEndian bs

/-- The number a byte string spells, most significant byte first. -/
def bigEndian (bs : Bytes) : Nat := littleEndian bs.reverse

/-- The low `width` bytes of a number, least significant first. -/
def toLittleEndian : (width : Nat) → Nat → Bytes
  | 0, _ => []
  | w + 1, n => UInt8.ofNat n :: toLittleEndian w (n / 256)

/-- The low `width` bytes of a number, most significant first. -/
def toBigEndian (width n : Nat) : Bytes := (toLittleEndian width n).reverse

/-- The bytes from offset `start` up to, and without, offset `stop`. -/
def slice (bs : Bytes) (start stop : Nat) : Bytes := (bs.drop start).take (stop - start)

theorem toLittleEndian_length (w n : Nat) : (toLittleEndian w n).length = w := by
  induction w generalizing n with
  | zero => rfl
  | succ w ih => simp [toLittleEndian, ih]

theorem toBigEndian_length (w n : Nat) : (toBigEndian w n).length = w := by
  simp [toBigEndian, toLittleEndian_length]

end TxScope
