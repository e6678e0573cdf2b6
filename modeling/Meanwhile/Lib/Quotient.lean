-- SUMMARY: Estimates of a quotient from leading digits and from a reciprocal, with how far they can be off.
import Mathlib.Data.Nat.ModEq
import Mathlib.Tactic.Ring

/-!
# Estimates of a quotient

Long division guesses each digit of the quotient from the leading digits of its operands
and corrects the guess. Barrett reduction guesses the quotient by a divisor that is used
many times from a reciprocal that is computed once. A guess is never too small in the one
and never too large in the other, and both are off by at most two.

Powers are computed by squaring, one bit of the exponent at a time.
-/

namespace Quotient

/-! ## Leading digits -/

section

variable {base scale u v : Nat}

/-- The quotient of the leading digits, at most the largest digit -/
def guess (base scale u v : Nat) : Nat := min (u / scale / (v / scale)) (base - 1)

/-- The quotient is no larger than that of the leading digits. -/
theorem div_le_top (hscale : 0 < scale) (htop : 0 < v / scale) : u / v ≤ u / scale / (v / scale) := by
  have hpos : 0 < scale * (v / scale) := Nat.mul_pos hscale htop
  calc u / v ≤ u / (scale * (v / scale)) := Nat.div_le_div_left (Nat.mul_div_le v scale) hpos
    _ = u / scale / (v / scale) := (Nat.div_div_eq_div_mul ..).symm

theorem div_le_guess (hscale : 0 < scale) (htop : 0 < v / scale) (hlt : u < base * v) :
    u / v ≤ guess base scale u v := by
  have hdigit : u / v < base := Nat.div_lt_of_lt_mul (by rwa [Nat.mul_comm])
  exact le_min (div_le_top hscale htop) (by omega)

/-- When the leading digit of the divisor is at least half of the base, the guess is at most
two too large. -/
theorem guess_le (hscale : 0 < scale) (hhalf : base ≤ 2 * (v / scale)) (hbase : 2 ≤ base) :
    guess base scale u v ≤ u / v + 2 := by
  have htop : 0 < v / scale := by omega
  have hv : 0 < v := by
    by_contra hzero
    rw [Nat.eq_zero_of_not_pos hzero, Nat.zero_div] at htop
    exact htop.ne rfl
  have hgtop : guess base scale u v * (v / scale) ≤ u / scale :=
    (Nat.mul_le_mul_right _ (min_le_left _ _)).trans (Nat.div_mul_le_self _ _)
  have hgbase : guess base scale u v ≤ base - 1 := min_le_right _ _
  generalize guess base scale u v = g at hgtop hgbase ⊢
  have hbelow : v < scale * (v / scale + 1) := Nat.lt_mul_div_succ v hscale
  have htopv : scale * (v / scale) ≤ v := Nat.mul_div_le v scale
  have hu : g * (v / scale) * scale ≤ u :=
    (Nat.mul_le_mul_right scale hgtop).trans (Nat.div_mul_le_self _ _)
  generalize v / scale = d at hhalf htop hbelow htopv hu
  by_contra hmore
  -- two divisors less than the guess would still be below what the guess takes out of `u`
  have hlt : u < v * (u / v + 1) := Nat.lt_mul_div_succ u hv
  generalize u / v = q at hmore hlt
  have hfew : v * (q + 1) ≤ v * (g - 2) := Nat.mul_le_mul_left v (by omega)
  have hsplit : v * (g - 2) + 2 * v = v * g := by
    rw [Nat.mul_comm 2 v, ← Nat.mul_add, Nat.sub_add_cancel (by omega)]
  have hgap : g * scale ≤ 2 * v := by
    calc g * scale ≤ 2 * d * scale := Nat.mul_le_mul_right scale (by omega)
      _ = 2 * (scale * d) := by ring
      _ ≤ 2 * v := Nat.mul_le_mul_left 2 htopv
  have hvg : v * g ≤ g * d * scale + g * scale := by
    calc v * g ≤ scale * (d + 1) * g := Nat.mul_le_mul_right g hbelow.le
      _ = g * d * scale + g * scale := by ring
  omega

end

/-! ## A reciprocal -/

section

variable {a r m x : Nat}

/-- The quotient of `x` by `m`, from the reciprocal `a * r / m` -/
def byReciprocal (a r m x : Nat) : Nat := x / a * (a * r / m) / r

theorem byReciprocal_le (hr : 0 < r) : byReciprocal a r m x * m ≤ x := by
  have hout : byReciprocal a r m x * r ≤ x / a * (a * r / m) := Nat.div_mul_le_self _ _
  refine Nat.le_of_mul_le_mul_right ?_ hr
  calc byReciprocal a r m x * m * r = byReciprocal a r m x * r * m := by ring
    _ ≤ x / a * (a * r / m) * m := Nat.mul_le_mul_right m hout
    _ = x / a * (a * r / m * m) := by ring
    _ ≤ x / a * (a * r) := Nat.mul_le_mul_left _ (Nat.div_mul_le_self _ _)
    _ = x / a * a * r := by ring
    _ ≤ x * r := Nat.mul_le_mul_right r (Nat.div_mul_le_self x a)

/-- What is left once the estimate has been taken out is less than three times the divisor. -/
theorem lt_byReciprocal (ha : 0 < a) (hr : 0 < r) (ham : a ≤ m) (hx : x < a * r) :
    x < (byReciprocal a r m x + 3) * m := by
  have hm : 0 < m := ha.trans_le ham
  have hq1 : x / a < r := Nat.div_lt_of_lt_mul hx
  have hlow : x < a * (x / a) + a := by
    have := Nat.lt_mul_div_succ x ha
    rwa [Nat.mul_succ] at this
  have hmu : a * r ≤ m * (a * r / m) + m := by
    have := (Nat.lt_mul_div_succ (a * r) hm).le
    rwa [Nat.mul_succ] at this
  have hq3 : x / a * (a * r / m) < r * (byReciprocal a r m x + 1) := Nat.lt_mul_div_succ _ hr
  set q1 := x / a
  set mu := a * r / m
  set q3 := byReciprocal a r m x
  have hscaled : a * q1 * r < (q3 + 2) * m * r := by
    calc a * q1 * r = q1 * (a * r) := by ring
      _ ≤ q1 * (m * mu + m) := Nat.mul_le_mul_left q1 hmu
      _ = q1 * mu * m + q1 * m := by ring
      _ < r * (q3 + 1) * m + r * m := Nat.add_lt_add
          (Nat.mul_lt_mul_of_pos_right hq3 hm) (Nat.mul_lt_mul_of_pos_right hq1 hm)
      _ = (q3 + 2) * m * r := by ring
  have hmain : a * q1 < (q3 + 2) * m := Nat.lt_of_mul_lt_mul_right hscaled
  calc x < a * q1 + a := hlow
    _ ≤ (q3 + 2) * m + m := by omega
    _ = (q3 + 3) * m := by ring

/-- The remainder, computed with as many digits as it needs and one above them -/
theorem sub_mod_of_lt {q w : Nat} (hle : q * m ≤ x) (hlt : x - q * m < w) :
    (if q * m % w ≤ x % w then x % w - q * m % w else x % w + w - q * m % w) = x - q * m := by
  obtain ⟨d, hd⟩ := Nat.exists_eq_add_of_le hle
  rw [hd, Nat.add_sub_cancel_left] at hlt ⊢
  have hw : 0 < w := by omega
  have hmod : q * m % w < w := Nat.mod_lt _ hw
  have hsum : (q * m + d) % w =
      if q * m % w + d < w then q * m % w + d else q * m % w + d - w := by
    rw [Nat.add_mod, Nat.mod_eq_of_lt hlt]
    split
    · exact Nat.mod_eq_of_lt ‹_›
    · rw [Nat.mod_eq_sub_mod (by omega), Nat.mod_eq_of_lt (by omega)]
  rw [hsum]
  split <;> split <;> omega

end

/-! ## Powers by squaring -/

section

variable {m : Nat}

/-- What a bit of the exponent does to the power so far and to the square -/
def powStep (m : Nat) (bit : Bool) (p : Nat × Nat) : Nat × Nat :=
  (if bit then p.1 * p.2 % m else p.1, p.2 * p.2 % m)

/-- Both go on from where they are. -/
theorem powStep_modEq (e : Nat) (bit : Bool) {p : Nat × Nat} :
    (powStep m bit p).1 * (powStep m bit p).2 ^ e ≡ p.1 * p.2 ^ (bit.toNat + 2 * e) [MOD m] := by
  have hsquare : (p.2 * p.2 % m) ^ e ≡ p.2 ^ (2 * e) [MOD m] := by
    rw [pow_mul, pow_two]
    exact (Nat.mod_modEq _ _).pow e
  cases bit with
  | false =>
    simp only [powStep, Bool.false_eq_true, if_false, Bool.toNat_false, zero_add]
    exact hsquare.mul_left _
  | true =>
    simp only [powStep, if_true, Bool.toNat_true, pow_add, pow_one, ← mul_assoc]
    exact (Nat.mod_modEq _ _).mul hsquare

/-- The power so far and the square, `u` before and `u'` after `n` bits of the exponent, which
stand for `e`. Nothing but a bit that is set reduces the power. -/
structure Raised (m e n : Nat) (u u' : Nat × Nat) : Prop where
  modEq : ∀ f, u'.1 * u'.2 ^ f ≡ u.1 * u.2 ^ (e + 2 ^ n * f) [MOD m]
  zero : e = 0 → u'.1 = u.1
  lt : e ≠ 0 → u'.1 < m

variable {e e' n n' : Nat} {u u' u'' : Nat × Nat}

theorem Raised.refl (u : Nat × Nat) : Raised m 0 0 u u :=
  ⟨fun f => by rw [pow_zero, one_mul, zero_add], fun _ => rfl, fun h => absurd rfl h⟩

theorem Raised.step (hm : 0 < m) (bit : Bool) (u : Nat × Nat) :
    Raised m bit.toNat 1 u (powStep m bit u) where
  modEq f := by
    rw [pow_one]
    exact powStep_modEq f bit
  zero h := by cases bit <;> simp [powStep] at h ⊢
  lt h := by
    cases bit
    · exact absurd rfl h
    · exact Nat.mod_lt _ hm

theorem Raised.trans (h : Raised m e n u u') (h' : Raised m e' n' u' u'') :
    Raised m (e + 2 ^ n * e') (n + n') u u'' where
  modEq f := by
    have hexp : e + 2 ^ n * (e' + 2 ^ n' * f) = e + 2 ^ n * e' + 2 ^ (n + n') * f := by
      rw [pow_add]
      ring
    exact hexp ▸ (h'.modEq f).trans (h.modEq _)
  zero hzero := by
    have hboth := Nat.add_eq_zero_iff.mp hzero
    have hhigh := (Nat.mul_eq_zero.mp hboth.2).resolve_left (Nat.two_pow_pos n).ne'
    exact (h'.zero hhigh).trans (h.zero hboth.1)
  lt hne := by
    by_cases hhigh : e' = 0
    · rw [hhigh, mul_zero, add_zero] at hne
      rw [h'.zero hhigh]
      exact h.lt hne
    · exact h'.lt hhigh

/-- From one, the power comes out reduced unless the exponent is zero. -/
theorem Raised.eq {x : Nat} (h : Raised m e n (1, x) u) : u.1 = if e = 0 then 1 else x ^ e % m := by
  split
  case isTrue hzero => exact h.zero hzero
  case isFalse hne =>
    have hmod := h.modEq 0
    rw [pow_zero, mul_one, mul_zero, add_zero, one_mul] at hmod
    exact (Nat.mod_eq_of_lt (h.lt hne)).symm.trans hmod

end

end Quotient
