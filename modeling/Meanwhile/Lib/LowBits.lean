-- SUMMARY: Arithmetic on wide machine words seen through their low bits.
import Mathlib.Data.Nat.Bitwise
import Mathlib.Tactic.Ring

/-!
# Low bits

Code that computes with 16-bit quantities in wider machine words masks nothing
until the end: it relies on sums, bitwise operations and rotations spelled as
shifts acting on the low bits alone. `BitVec.setWidth` to the smaller width is
that projection, and these lemmas push it through the operations.
-/

namespace LowBits

variable {v w : Nat}

theorem setWidth_add (h : v ≤ w) (x y : BitVec w) :
    (x + y).setWidth v = x.setWidth v + y.setWidth v :=
  BitVec.setWidth_add x y h

theorem setWidth_sub (h : v ≤ w) (x y : BitVec w) :
    (x - y).setWidth v = x.setWidth v - y.setWidth v := by
  rw [BitVec.sub_eq_add_neg, BitVec.sub_eq_add_neg, BitVec.setWidth_add _ _ h,
    BitVec.setWidth_neg_of_le h]

/-- A rotation of the low `v` bits spelled as two shifts in a wider signed word:
the bits above `v` that the left shift drags along do not matter, and the mask
keeps the copies of the sign out. -/
theorem setWidth_rotate {n : Nat} (h : v ≤ w) (hn : n < v) (x : BitVec w) :
    ((x <<< n) ||| (x.sshiftRight (v - n) &&& BitVec.ofNat w (2 ^ n - 1))).setWidth v =
      (x.setWidth v).rotateLeft n := by
  apply BitVec.eq_of_getLsbD_eq
  intro i hi
  have hiw : i < w := by omega
  rw [BitVec.getLsbD_rotateLeft_of_le hn]
  simp only [BitVec.getLsbD_setWidth, BitVec.getLsbD_or, BitVec.getLsbD_shiftLeft,
    BitVec.getLsbD_and, BitVec.getLsbD_sshiftRight, BitVec.getLsbD_ofNat,
    Nat.testBit_two_pow_sub_one, hi, hiw]
  by_cases hin : i < n
  · have hw : v - n + i < w := by omega
    have hv : v - n + i < v := by omega
    simp [hin, hiw, hw, hv]
  · have hv : i - n < v := by omega
    simp [hin, hv]

/-- Two rotations that make up the whole width do nothing. -/
theorem rotateLeft_rotateLeft {m n : Nat} (hv : n + m = v) (hn : 0 < n) (hm : 0 < m)
    (x : BitVec v) : (x.rotateLeft n).rotateLeft m = x := by
  apply BitVec.eq_of_getLsbD_eq
  intro i hi
  rw [BitVec.getLsbD_rotateLeft_of_le (by omega), BitVec.getLsbD_rotateLeft_of_le (by omega),
    BitVec.getLsbD_rotateLeft_of_le (by omega)]
  by_cases him : i < m
  · have hidx : v - m + i = n + i := by omega
    simp [him, hidx, hi]
    omega
  · have hlt : i - m < n := by omega
    have hidx : v - n + (i - m) = i := by omega
    simp [him, hlt, hidx, hi]

end LowBits
