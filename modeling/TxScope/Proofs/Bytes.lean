import Mathlib.Algebra.Order.Ring.Int
import Mathlib.Algebra.Order.Ring.Nat
import Mathlib.Tactic.ByContra
import Mathlib.Tactic.SplitIfs
import TxScope.Bytes

/-!
# Numbers of a fixed width

Writing a number in `w` bytes and reading it back are inverse to each other: `w` bytes spell
exactly the numbers below `256 ^ w` (`littleEndian_toLittleEndian`, `toLittleEndian_littleEndian`).
-/

namespace TxScope

theorem littleEndian_lt : ∀ bs : Bytes, littleEndian bs < 256 ^ bs.length
  | [] => by simp [littleEndian]
  | b :: bs => by
    have hbs := littleEndian_lt bs
    have hb := b.toNat_lt
    simp only [littleEndian, List.length_cons, Nat.pow_succ]
    omega

theorem littleEndian_toLittleEndian :
    ∀ {w n : Nat}, n < 256 ^ w → littleEndian (toLittleEndian w n) = n
  | 0, n, h => by
    simp only [Nat.pow_zero] at h
    simp only [toLittleEndian, littleEndian]
    omega
  | w + 1, n, h => by
    have hn : n / 256 < 256 ^ w := by
      rw [Nat.pow_succ] at h
      omega
    simp only [toLittleEndian, littleEndian, littleEndian_toLittleEndian hn, UInt8.toNat_ofNat']
    omega

theorem toLittleEndian_littleEndian :
    ∀ bs : Bytes, toLittleEndian bs.length (littleEndian bs) = bs
  | [] => rfl
  | b :: bs => by
    have hb := b.toNat_lt
    have hhigh : (b.toNat + 256 * littleEndian bs) / 256 = littleEndian bs := by omega
    have hlow : UInt8.ofNat (b.toNat + 256 * littleEndian bs) = b := by
      apply UInt8.toNat_inj.mp
      rw [UInt8.toNat_ofNat']
      omega
    simp only [littleEndian, List.length_cons, toLittleEndian, hhigh, hlow,
      toLittleEndian_littleEndian bs]

theorem toLittleEndian_zero : ∀ w : Nat, toLittleEndian w 0 = List.replicate w 0
  | 0 => rfl
  | w + 1 => by
    rw [toLittleEndian, Nat.zero_div, toLittleEndian_zero w, List.replicate_succ]
    rfl

end TxScope
