-- SUMMARY: The modular reduction and exponentiation of mpi.c, with the reciprocal of the modulus computed once.
import Meanwhile.Mpi.Division
import Meanwhile.Mpi.Product

/-!
# Powers for a modulus

`s_mw_mp_reduce` takes the remainder of a number with a reciprocal of the modulus that has
been computed before. The number of bits that it keeps is passed on as a digit, so that the
modulus may not have more than 4094 digits.

`mw_mp_exptmod` goes through the bits of the exponent from the lowest one. It starts with one
and only reduces what it multiplies, which matters for a modulus of one. All of it rests on
products of `int`s that wrap around.
-/

namespace Meanwhile.Mpi

open MwMpInt

/-! ## Comparing -/

/-- `mw_mp_cmp` -/
def mwMpCmp (a b : MwMpInt) : Ordering :=
  if a.sign = b.sign then if a.sign = .zpos then sMwMpCmp a b else (sMwMpCmp a b).swap
  else if a.sign = .zpos then .gt
  else .lt

/-! ## Reduction -/

/-- `DIGIT_BIT * (um + 1)`, as the digit that it is passed on as -/
def reduceBits (m : MwMpInt) : MwMpDigit := UInt16.ofNat (16 * (m.used + 1))

/-- The loop that backs off a remainder that is too large. More turns than there is fuel for
are `none`. -/
def reduceLoop (m : MwMpInt) : Nat → MwMpInt → Option MwMpInt
  | 0, x => if mwMpCmp x m = .lt then some x else none
  | fuel + 1, x => if mwMpCmp x m = .lt then some x else (subOkay x m).bind (reduceLoop m fuel)

/-- `b^(k+1)` is added to a difference that is negative. What is left of `q` is not needed. -/
def addBack (m q x : MwMpInt) : Option MwMpInt :=
  if mwMpCmwMpZ x = .lt then mwMpAdd x (sMwMpLshd (mwMpSet q 1) (m.used + 1)) .first else some x

/-- `s_mw_mp_reduce`, where the remainder is backed off twice at most -/
def sMwMpReduce (x m mu : MwMpInt) : Option MwMpInt := do
  let q := sMwMpRshd (mwMpInitCopy x) (m.used - 1)
  let q := sMwMpRshd (← sMwMpMul q mu) (m.used + 1)
  let x := sMwMpMod2d x (reduceBits m)
  let q := sMwMpMod2d (← sMwMpMul q m) (reduceBits m)
  let x ← mwMpSub x q .first
  let x ← addBack m q x
  reduceLoop m 2 x

section

variable {a b m mu x : MwMpInt} {n p : Nat}

/-- A number that is not negative -/
def Natural (a : MwMpInt) (n : Nat) : Prop := a.Holds n ∧ a.sign = .zpos

theorem mwMpCmp_natural (ha : Natural a n) (hb : Natural b p) : mwMpCmp a b = compare n p := by
  rw [mwMpCmp, ha.2, hb.2, if_pos rfl, if_pos rfl]
  exact sMwMpCmp_eq ha.1 hb.1

theorem reduceLoop_spec (hm : Natural m p) {fuel : Nat} (hx : Natural x n) (hlt : n < (fuel + 1) * p) :
    ∃ r, reduceLoop m fuel x = some r ∧ Natural r (n % p) := by
  induction fuel generalizing x n with
  | zero =>
    rw [Nat.zero_add, Nat.one_mul] at hlt
    refine ⟨x, ?_, by rwa [Nat.mod_eq_of_lt hlt]⟩
    rw [reduceLoop, mwMpCmp_natural hx hm, Nat.compare_eq_lt.mpr hlt, if_pos rfl]
  | succ fuel ih =>
    unfold reduceLoop
    rw [mwMpCmp_natural hx hm]
    by_cases hless : n < p
    · rw [Nat.compare_eq_lt.mpr hless, if_pos rfl]
      exact ⟨x, rfl, by rwa [Nat.mod_eq_of_lt hless]⟩
    · have hge : p ≤ n := Nat.le_of_not_lt hless
      obtain ⟨r, hr, hholds, hzpos, -⟩ := holds_sMwMpSub hx.1 hm.1 hge
      rw [Nat.succ_mul] at hlt
      obtain ⟨r', hr', hrest⟩ := ih ⟨hholds, hzpos hx.2⟩ (by omega)
      rw [if_neg (by rw [Nat.compare_eq_lt]; exact hless), subOkay, hr]
      refine ⟨r', by simpa using hr', ?_⟩
      rwa [Nat.mod_eq_sub_mod hge]

theorem natural_iff : Natural a n ↔ Represents a (n : Int) := represents_natCast.symm

theorem mwMpCmwMpZ_lt_iff {z : Int} (h : Represents a z) : mwMpCmwMpZ a = .lt ↔ z < 0 := by
  rw [← h.sign_neg_iff]
  unfold mwMpCmwMpZ
  split
  case isTrue hneg => exact iff_of_true rfl hneg
  case isFalse hpos =>
    refine iff_of_false ?_ hpos
    split <;> simp

/-- The bits that are kept are those of one digit more than the modulus has. -/
theorem two_pow_reduceBits (hused : m.used ≤ 4094) :
    2 ^ (reduceBits m).toNat = 65536 ^ (m.used + 1) := by
  have hbits : (reduceBits m).toNat = 16 * (m.used + 1) := by
    rw [reduceBits, UInt16.toNat_ofNat', Nat.mod_eq_of_lt (by omega)]
  rw [hbits, Nat.pow_mul]

/-- The difference of what is left of two numbers that were cut off -/
theorem reduceDiff_spec {q r : Nat} {y : MwMpInt} (hx : Natural x r) (hy : Natural y q)
    (hlt : q < 65536 ^ (m.used + 1)) :
    ∃ d d', mwMpSub x y .first = some d ∧ addBack m y d = some d' ∧
      Natural d' (if q ≤ r then r - q else r + 65536 ^ (m.used + 1) - q) := by
  have hunit : Natural (sMwMpLshd (mwMpSet y 1) (m.used + 1)) (65536 ^ (m.used + 1)) := by
    have hone := holds_sMwMpLshd (holds_mwMpSet y 1) (by decide) (m.used + 1)
    rw [UInt16.toNat_one, Nat.mul_one] at hone
    exact ⟨hone, (sMwMpLshd_sign _ _).trans rfl⟩
  obtain ⟨d, hd, hdiff⟩ := mwMpSub_spec (natural_iff.mp hx) (natural_iff.mp hy) .first
  have hneg := mwMpCmwMpZ_lt_iff hdiff
  unfold addBack
  by_cases hle : q ≤ r
  · refine ⟨d, d, hd, by rw [if_neg (by rw [hneg]; omega)], ?_⟩
    rw [if_pos hle, natural_iff, Nat.cast_sub hle]
    exact hdiff
  · obtain ⟨d', hd', hsum⟩ := mwMpAdd_spec hdiff (natural_iff.mp hunit) .first
    refine ⟨d, d', hd, by rw [if_pos (hneg.mpr (by omega)), hd'], ?_⟩
    generalize 65536 ^ (m.used + 1) = w at hlt hsum ⊢
    have hcast : ((r + w - q : Nat) : Int) = (r : Int) - q + w := by omega
    rwa [if_neg hle, natural_iff, hcast]

/-- The remainder of any number that has up to twice as many digits as the modulus -/
theorem sMwMpReduce_spec (hm : Natural m p) (hp : 0 < p) (hused : m.used ≤ 4094)
    (hmu : mu.Holds (65536 ^ (2 * m.used) / p)) (hx : Natural x n) (hlt : n < 65536 ^ (2 * m.used)) :
    ∃ r, sMwMpReduce x m mu = some r ∧ Natural r (n % p) := by
  have hpos := hm.1.used_pos
  have hw := two_pow_reduceBits hused
  have hsplit : 65536 ^ (2 * m.used) = 65536 ^ (m.used - 1) * 65536 ^ (m.used + 1) := by
    rw [← Nat.pow_add]
    congr 1
    omega
  have hlow : 65536 ^ (m.used - 1) ≤ p := by
    by_cases hmany : 1 < m.used
    · exact hm.1.le hmany
    · rw [show m.used - 1 = 0 by omega]
      exact hp
  have hrpos : 0 < 65536 ^ (m.used + 1) := Nat.pow_pos (by decide)
  rw [hsplit] at hmu hlt
  set q := Quotient.byReciprocal (65536 ^ (m.used - 1)) (65536 ^ (m.used + 1)) p n with hq
  have hle : q * p ≤ n := Quotient.byReciprocal_le hrpos
  have hnear : n < (q + 3) * p := Quotient.lt_byReciprocal (Nat.pow_pos (by decide)) hrpos hlow hlt
  have hthree : n - q * p < (2 + 1) * p := by
    rw [Nat.add_mul] at hnear
    omega
  have hfits : n - q * p < 65536 ^ (m.used + 1) := by
    have := hm.1.lt
    rw [Nat.pow_succ]
    omega
  obtain ⟨q1, hq1, hq1holds, hq1zpos⟩ :=
    holds_sMwMpMul (holds_sMwMpRshd (holds_mwMpInitCopy hx.1) (m.used - 1)) hmu
  obtain ⟨q2, hq2, hq2holds, hq2zpos⟩ := holds_sMwMpMul (holds_sMwMpRshd hq1holds (m.used + 1)) hm.1
  have hxmod := holds_sMwMpMod2d hx.1 (reduceBits m)
  have hqmod := holds_sMwMpMod2d hq2holds (reduceBits m)
  rw [hw] at hxmod hqmod
  set y := sMwMpMod2d q2 (reduceBits m) with hy
  obtain ⟨d, d', hd, hd', hdiff⟩ := reduceDiff_spec (m := m)
    (show Natural _ _ from ⟨hxmod, sMwMpMod2d_zpos hx.2 _⟩)
    (show Natural _ _ from ⟨hqmod, sMwMpMod2d_zpos hq2zpos _⟩) (Nat.mod_lt _ hrpos)
  rw [show n / 65536 ^ (m.used - 1) * _ / 65536 ^ (m.used + 1) = q from rfl,
    Quotient.sub_mod_of_lt hle hfits] at hdiff
  obtain ⟨r, hr, hrest⟩ := reduceLoop_spec hm hdiff hthree
  refine ⟨r, ?_, ?_⟩
  · simp only [sMwMpReduce, hq1, hq2, ← hy, hd, hd', hr, Option.bind_eq_bind, Option.bind_some]
  · obtain ⟨k, hk⟩ := Nat.exists_eq_add_of_le hle
    rw [hk, Nat.add_sub_cancel_left] at hrest
    rwa [hk, Nat.mul_add_mod_self_right]

end

/-! ## Exponentiation -/

/-- A bit of the exponent: the power so far is multiplied if it is set, and the square goes on. -/
def expBit (m mu : MwMpInt) (bit : Bool) (u : MwMpInt × MwMpInt) : Option (MwMpInt × MwMpInt) := do
  let s ← if bit then (sMwMpMul u.1 u.2).bind (sMwMpReduce · m mu) else some u.1
  let x ← (sMwMpSqr u.2).bind (sMwMpReduce · m mu)
  return (s, x)

/-- A digit below the highest one, of which every bit counts -/
def expDigit (m mu : MwMpInt) :
    Nat → MwMpDigit → MwMpInt × MwMpInt → Option (MwMpInt × MwMpInt)
  | 0, _, u => some u
  | bits + 1, d, u => (expBit m mu (d &&& 1 ≠ 0) u).bind (expDigit m mu bits (d >>> 1))

/-- The highest digit, up to its last bit -/
def expLast (m mu : MwMpInt) :
    Nat → MwMpDigit → MwMpInt × MwMpInt → Option (MwMpInt × MwMpInt)
  | 0, d, u => if d = 0 then some u else none
  | fuel + 1, d, u =>
      if d = 0 then some u
      else (expBit m mu (d &&& 1 ≠ 0) u).bind (expLast m mu fuel (d >>> 1))

/-- The digits in ascending order -/
def expDigits (m mu : MwMpInt) :
    List MwMpDigit → MwMpInt × MwMpInt → Option (MwMpInt × MwMpInt)
  | [], u => some u
  | [d], u => expLast m mu 16 d u
  | d :: e :: ds, u => (expDigit m mu 16 d u).bind (expDigits m mu (e :: ds))

/-- `mw_mp_exptmod` -/
def mwMpExptmod (a b m : MwMpInt) : Option (Except MwMpErr MwMpInt) :=
  if mwMpCmwMpZ b = .lt ∨ mwMpCmwMpZ m ≠ .gt then some (.error .range)
  else
    ifOkay (mwMpMod (mwMpInitCopy a) m (mwMpInitCopy a)) fun x =>
    let mu := sMwMpLshd (sMwMpAddD mwMpInit 1) (2 * m.used)
    ifOkay (mwMpDiv mu m mu mwMpInit) fun mu =>
    (expDigits m mu.1 b.digits (mwMpSet mwMpInit 1, x)).map fun u => .ok u.1

section

variable {a b m mu : MwMpInt} {p : Nat} {u : MwMpInt × MwMpInt} {v : Nat × Nat}

/-- The modulus with its reciprocal -/
structure Modulus (m mu : MwMpInt) (p : Nat) : Prop where
  natural : Natural m p
  pos : 0 < p
  used_le : m.used ≤ 4094
  mu_holds : mu.Holds (65536 ^ (2 * m.used) / p)

/-- The power so far and the square hold the numbers that they should. -/
structure Powers (p : Nat) (u : MwMpInt × MwMpInt) (v : Nat × Nat) : Prop where
  power : Natural u.1 v.1
  square : Natural u.2 v.2
  power_le : v.1 ≤ p
  square_lt : v.2 < p

/-- A product of two numbers that are not above the modulus can be reduced. -/
theorem Modulus.reduce (h : Modulus m mu p) {x : MwMpInt} {n k : Nat} (hx : Natural x (n * k))
    (hn : n ≤ p) (hk : k ≤ p) : ∃ r, sMwMpReduce x m mu = some r ∧ Natural r (n * k % p) := by
  refine sMwMpReduce_spec h.natural h.pos h.used_le h.mu_holds hx ?_
  have hlt := h.natural.1.lt
  calc n * k ≤ p * p := Nat.mul_le_mul hn hk
    _ < 65536 ^ m.used * 65536 ^ m.used := Nat.mul_lt_mul_of_lt_of_lt hlt hlt
    _ = 65536 ^ (2 * m.used) := by rw [← Nat.pow_add, Nat.two_mul]

theorem expBit_spec (h : Modulus m mu p) (hu : Powers p u v) (bit : Bool) :
    ∃ u', expBit m mu bit u = some u' ∧ Powers p u' (Quotient.powStep p bit v) := by
  have hsquare := hu.square_lt.le
  obtain ⟨y, hy, hyholds, hyzpos⟩ := holds_sMwMpSqr hu.square.1
  obtain ⟨x, hx, hxnat⟩ := h.reduce ⟨hyholds, hyzpos⟩ hsquare hsquare
  have hxlt := Nat.mod_lt (v.2 * v.2) h.pos
  cases bit with
  | false =>
    refine ⟨(u.1, x), ?_, hu.power, hxnat, hu.power_le, hxlt⟩
    simp [expBit, hy, hx]
  | true =>
    obtain ⟨z, hz, hzholds, hzzpos⟩ := holds_sMwMpMul hu.power.1 hu.square.1
    obtain ⟨s, hs, hsnat⟩ := h.reduce ⟨hzholds, hzzpos⟩ hu.power_le hsquare
    refine ⟨(s, x), ?_, hsnat, hxnat, (Nat.mod_lt _ h.pos).le, hxlt⟩
    simp [expBit, hy, hx, hz, hs]

/-- The lowest bit of a digit and the others -/
theorem bit_add_half (d : MwMpDigit) :
    (decide (d &&& 1 ≠ 0)).toNat + 2 * (d >>> 1).toNat = d.toNat := by
  rw [shiftRight_one]
  have hlow := low_bit d
  by_cases heven : d &&& 1 = 0
  · have := hlow.mp heven
    simp only [heven, ne_eq, not_true_eq_false, decide_false, Bool.toNat_false]
    omega
  · have := mt hlow.mpr heven
    simp only [heven, ne_eq, not_false_eq_true, decide_true, Bool.toNat_true]
    omega

theorem expDigit_spec (h : Modulus m mu p) (hu : Powers p u v) (bits : Nat) (d : MwMpDigit) :
    ∃ u' v', expDigit m mu bits d u = some u' ∧ Powers p u' v' ∧
      Quotient.Raised p (d.toNat % 2 ^ bits) bits v v' := by
  induction bits generalizing d u v with
  | zero => exact ⟨u, v, rfl, hu, by simpa [Nat.mod_one] using Quotient.Raised.refl v⟩
  | succ bits ih =>
    obtain ⟨u1, hu1, hpowers⟩ := expBit_spec h hu (d &&& 1 ≠ 0)
    obtain ⟨u2, v2, hu2, hpowers2, hraised⟩ := ih hpowers (d >>> 1)
    refine ⟨u2, v2, by rw [expDigit, hu1]; exact hu2, hpowers2, ?_⟩
    have hboth := (Quotient.Raised.step h.pos (d &&& 1 ≠ 0) v).trans hraised
    have hexp : d.toNat % 2 ^ (bits + 1) =
        (decide (d &&& 1 ≠ 0)).toNat + 2 ^ 1 * ((d >>> 1).toNat % 2 ^ bits) := by
      have hsplit := bit_add_half d
      have hbit := Bool.toNat_le (decide (d &&& 1 ≠ 0))
      rw [Nat.pow_succ', Nat.mod_mul, ← hsplit, Nat.add_mul_mod_self_left,
        Nat.add_mul_div_left _ _ (by decide), Nat.div_eq_of_lt (by omega), Nat.zero_add,
        Nat.mod_eq_of_lt (by omega), Nat.pow_one]
    rwa [hexp, Nat.add_comm bits]

theorem expLast_spec (h : Modulus m mu p) (hu : Powers p u v) {fuel : Nat} {d : MwMpDigit}
    (hfuel : d.toNat < 2 ^ fuel) :
    ∃ u' v' n, expLast m mu fuel d u = some u' ∧ Powers p u' v' ∧ Quotient.Raised p d.toNat n v v' := by
  induction fuel generalizing d u v with
  | zero =>
    have hzero : d = 0 := UInt16.toNat_inj.mp (by rw [UInt16.toNat_zero]; omega)
    refine ⟨u, v, 0, by rw [expLast, if_pos hzero], hu, ?_⟩
    rw [hzero]
    exact Quotient.Raised.refl v
  | succ fuel ih =>
    by_cases hzero : d = 0
    · refine ⟨u, v, 0, by rw [expLast, if_pos hzero], hu, ?_⟩
      rw [hzero]
      exact Quotient.Raised.refl v
    · have hsplit := bit_add_half d
      have hfuel' : (d >>> 1).toNat < 2 ^ fuel := by
        rw [Nat.pow_succ] at hfuel
        omega
      obtain ⟨u1, hu1, hpowers⟩ := expBit_spec h hu (d &&& 1 ≠ 0)
      obtain ⟨u2, v2, n, hu2, hpowers2, hraised⟩ := ih hpowers hfuel'
      refine ⟨u2, v2, 1 + n, by rw [expLast, if_neg hzero, hu1]; exact hu2, hpowers2, ?_⟩
      have hboth := (Quotient.Raised.step h.pos (d &&& 1 ≠ 0) v).trans hraised
      rwa [Nat.pow_one, hsplit] at hboth

/-- The exponent is what the digits stand for. -/
theorem expDigits_spec (h : Modulus m mu p) (hu : Powers p u v) (ds : List MwMpDigit) :
    ∃ u' v' n, expDigits m mu ds u = some u' ∧ Powers p u' v' ∧ Quotient.Raised p (value ds) n v v' := by
  induction ds generalizing u v with
  | nil => exact ⟨u, v, 0, rfl, hu, Quotient.Raised.refl v⟩
  | cons d ds ih =>
    cases ds with
    | nil =>
      rw [value_cons, value_nil, Nat.mul_zero, Nat.add_zero]
      exact expLast_spec h hu (digit_lt d)
    | cons e ds =>
      obtain ⟨u1, v1, hu1, hpowers, hraised⟩ := expDigit_spec h hu 16 d
      obtain ⟨u2, v2, n, hu2, hpowers2, hraised2⟩ := ih hpowers
      refine ⟨u2, v2, 16 + n, by rw [expDigits, hu1]; exact hu2, hpowers2, ?_⟩
      have hboth := hraised.trans hraised2
      rwa [Nat.mod_eq_of_lt (show d.toNat < 2 ^ 16 from digit_lt d)] at hboth

/-- A modulus that is small enough for the reduction is small enough for the division. -/
theorem shortPow_of_used (hm : m.Holds p) {k : Nat} (hused : m.used ≤ k) (hk : 16 * k ≤ 65536) :
    ShortPow p := by
  refine shortPow_of_lt ?_ hk
  calc p < 65536 ^ m.used := hm.lt
    _ ≤ 65536 ^ k := Nat.pow_le_pow_right (by decide) hused
    _ = 2 ^ (16 * k) := (Nat.pow_mul 2 16 k).symm

theorem mwMpCmwMpZ_gt (hm : Natural m p) (hp : 0 < p) : mwMpCmwMpZ m = .gt := by
  have hne := mwMpCmwMpZ_ne_eq hm.1 hp
  have hge := mt (mwMpCmwMpZ_lt_iff (natural_iff.mp hm)).mp (by omega)
  cases hcmp : mwMpCmwMpZ m with
  | lt => exact absurd hcmp hge
  | eq => exact absurd hcmp hne
  | gt => rfl

/-- The power, which is reduced unless the exponent is zero -/
theorem mwMpExptmod_spec {x : Int} {k : Nat} (ha : Represents a x) (hb : Natural b k) (hm : Natural m p)
    (hp : 0 < p) (hused : m.used ≤ 4094) :
    ∃ r, mwMpExptmod a b m = some (.ok r) ∧ Represents r (if k = 0 then 1 else x ^ k % (p : Int)) := by
  have hpow := shortPow_of_used hm.1 hused (by decide)
  have hpint : (0 : Int) < p := by omega
  have hcopy : Represents (mwMpInitCopy a) x := ⟨holds_mwMpInitCopy ha.holds, ha.sign⟩
  obtain ⟨x0, hx0, hx0rep⟩ := mwMpMod_spec hcopy (natural_iff.mp hm) hpint (by omega) hpow
    (mwMpInitCopy a)
  have hnonneg := Int.emod_nonneg x hpint.ne'
  obtain ⟨n, hn⟩ := Int.eq_ofNat_of_zero_le hnonneg
  have hlt : n < p := by
    have := Int.emod_lt_of_pos x hpint
    omega
  rw [hn] at hx0rep
  -- the reciprocal
  have hunit : Natural (sMwMpLshd (sMwMpAddD mwMpInit 1) (2 * m.used)) (65536 ^ (2 * m.used)) := by
    have hone := holds_sMwMpLshd (holds_sMwMpAddD (holds_mwMpInitSize defprec) 1) (by decide) (2 * m.used)
    rw [UInt16.toNat_one, Nat.zero_add, Nat.mul_one] at hone
    exact ⟨hone, (sMwMpLshd_sign _ _).trans rfl⟩
  obtain ⟨mu, hmu, hmurep, -⟩ := mwMpDiv_spec (natural_iff.mp hunit) (natural_iff.mp hm) hpint.ne'
    (by omega) hpow (sMwMpLshd (sMwMpAddD mwMpInit 1) (2 * m.used)) mwMpInit
  rw [← Int.ofNat_tdiv] at hmurep
  have hmodulus : Modulus m mu.1 p := ⟨hm, hp, hused, (natural_iff.mpr hmurep).1⟩
  have hstart : Powers p (mwMpSet mwMpInit 1, x0) (1, n) :=
    ⟨⟨holds_mwMpSet mwMpInit 1, rfl⟩, natural_iff.mpr hx0rep, hp, hlt⟩
  obtain ⟨u, v, l, hu, hpowers, hraised⟩ := expDigits_spec hmodulus hstart b.digits
  have hvalue : v.1 = if k = 0 then 1 else n ^ k % p := by
    have := hraised.eq
    rwa [show value b.digits = k from hb.1.abs_eq] at this
  have hb0 := mt (mwMpCmwMpZ_lt_iff (natural_iff.mp hb)).mp (by omega)
  refine ⟨u.1, ?_, ?_⟩
  · have hpositive : ¬ (mwMpCmwMpZ b = .lt ∨ mwMpCmwMpZ m ≠ .gt) :=
      not_or.mpr ⟨hb0, not_not.mpr (mwMpCmwMpZ_gt hm hp)⟩
    rw [mwMpExptmod, if_neg hpositive, hx0]
    simp only [ifOkay, hmu, hu, Option.map_some]
  · have hcast : ((if k = 0 then 1 else n ^ k % p : Nat) : Int) = if k = 0 then 1 else x ^ k % (p : Int) := by
      split
      · rfl
      · rw [Int.natCast_mod, Int.natCast_pow, show (n : Int) = x % p from hn.symm]
        exact (Int.mod_modEq x p).pow k
    have hnat := natural_iff.mp hpowers.power
    rwa [hvalue, hcast] at hnat

theorem mwMpCmwMpZ_gt_iff {z : Int} (hm : Represents m z) : mwMpCmwMpZ m = .gt ↔ 0 < z := by
  constructor
  · intro hgt
    by_contra hle
    by_cases hzero : z = 0
    · have hdigits := (digits_eq_zero_iff hm.holds).mpr (by rw [hzero]; rfl)
      have hsign := hm.sign
      rw [if_neg (by omega)] at hsign
      simp [mwMpCmwMpZ, hsign, used, hdigits] at hgt
    · rw [(mwMpCmwMpZ_lt_iff hm).mpr (by omega)] at hgt
      cases hgt
  · intro hpos
    obtain ⟨p, rfl⟩ := Int.eq_ofNat_of_zero_le hpos.le
    exact mwMpCmwMpZ_gt (natural_iff.mpr hm) (Int.natCast_pos.mp hpos)

/-- For every base and exponent whose digits an `int` counts, and every modulus -/
theorem mwMpExptmod_eq {x y z : Int} (ha : Represents a x) (_ : a.Indexed) (hb : Represents b y)
    (_ : b.Indexed) (hm : Represents m z) (hused : m.used ≤ 4094) :
    if y < 0 ∨ z ≤ 0 then mwMpExptmod a b m = some (.error .range)
    else ∃ r, mwMpExptmod a b m = some (.ok r) ∧ Represents r (if y = 0 then 1 else x ^ y.toNat % z) := by
  split
  case isTrue hrange =>
    refine if_pos (hrange.imp (mwMpCmwMpZ_lt_iff hb).mpr fun hle => ?_)
    rw [Ne, mwMpCmwMpZ_gt_iff hm]
    omega
  case isFalse hrange =>
    obtain ⟨hy, hz⟩ := not_or.mp hrange
    obtain ⟨k, rfl⟩ := Int.eq_ofNat_of_zero_le (Int.not_lt.mp hy)
    obtain ⟨p, rfl⟩ := Int.eq_ofNat_of_zero_le (Int.le_of_lt (Int.not_le.mp hz))
    obtain ⟨r, hr, hrep⟩ := mwMpExptmod_spec ha (natural_iff.mpr hb) (natural_iff.mpr hm) (by omega) hused
    refine ⟨r, hr, ?_⟩
    simpa using hrep

/-- A power of a negative number, where the modulus has two digits -/
theorem mwMpExptmod_neg :
    if (65539 : Int) < 0 ∨ (131101 : Int) ≤ 0 then
      mwMpExptmod { sign := .neg, digits := [2] } { digits := [3, 1] } { digits := [29, 2] } =
        some (.error .range)
    else ∃ r, mwMpExptmod { sign := .neg, digits := [2] } { digits := [3, 1] } { digits := [29, 2] } =
        some (.ok r) ∧
      Represents r (if (65539 : Int) = 0 then 1 else (-2) ^ (65539 : Int).toNat % 131101) :=
  mwMpExptmod_eq
    ⟨holds_mk _ (by decide) (by decide), rfl⟩ (by decide)
    ⟨holds_mk _ (by decide) (by decide), rfl⟩ (by decide)
    ⟨holds_mk _ (by decide) (by decide), rfl⟩
    (by decide)

end

end Meanwhile.Mpi
