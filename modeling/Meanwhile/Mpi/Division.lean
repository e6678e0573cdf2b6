-- SUMMARY: The long division of mpi.c, how far its guesses for a digit are backed off, and the remainder for a modulus.
import Meanwhile.Mpi.Shift
import Meanwhile.Mpi.Sum
import Meanwhile.Lib.Quotient

/-!
# Division

`s_mw_mp_div` takes a shortcut for powers of two and divides digit by digit otherwise. Each
digit of the quotient is guessed from the leading digits, multiplied out, and backed off for
as long as the product is too large.

A comment says that backing off happens once, or in rare cases twice. That is so for a good
guess. There is one case for which the guess is not good, see `guessDigit_eq`.
-/

namespace Meanwhile.Mpi

open MwMpInt

/-! ## Powers of two -/

/-- The loop of `s_mw_mp_ispow2`: the digit without its lowest zeros, and how many there are -/
def stripZeros : Nat → MwMpDigit → MwMpDigit × Nat
  | 0, d => (d, 0)
  | fuel + 1, d =>
      if d ≠ 0 ∧ d &&& 1 = 0 then
        let r := stripZeros fuel (d >>> 1)
        (r.1, r.2 + 1)
      else (d, 0)

/-- What an `int` makes of a number -/
def toInt32 (n : Int) : Int := (BitVec.ofInt 32 n).toInt

/-- `s_mw_mp_ispow2`. The index of the loop and the exponent are `int`s, and `-1` stands for no
power of two. -/
def sMwMpIspow2 (v : MwMpInt) : Int :=
  let r := stripZeros 16 (v.digits.getLastD 0)
  let ix := toInt32 (v.used - 2)
  if r.1 = 1 ∧ (v.digits.take (ix + 1).toNat).all (· = 0) then toInt32 ((v.used - 1) * 16 + r.2)
  else -1

section

variable {a b : MwMpInt} {m n : Nat}

theorem low_bit (d : MwMpDigit) : d &&& 1 = 0 ↔ d.toNat % 2 = 0 := by
  rw [← UInt16.toNat_inj, UInt16.toNat_and, UInt16.toNat_one, Nat.and_one_is_mod, UInt16.toNat_zero]

theorem shiftRight_one (d : MwMpDigit) : (d >>> 1).toNat = d.toNat / 2 := by
  rw [UInt16.toNat_shiftRight, UInt16.toNat_one, Nat.mod_eq_of_lt (by decide : 1 < 16),
    Nat.shiftRight_eq_div_pow, Nat.pow_one]

theorem stripZeros_spec (fuel : Nat) (d : MwMpDigit) :
    d.toNat = (stripZeros fuel d).1.toNat * 2 ^ (stripZeros fuel d).2 := by
  induction fuel generalizing d with
  | zero => simp [stripZeros]
  | succ fuel ih =>
    unfold stripZeros
    split
    case isTrue heven =>
      have hhalf := ih (d >>> 1)
      rw [shiftRight_one] at hhalf
      have := (low_bit d).mp heven.2
      dsimp only
      rw [Nat.pow_succ, ← Nat.mul_assoc, ← hhalf]
      omega
    case isFalse => simp

/-- A digit that is a power of two is one without its lowest zeros. -/
theorem stripZeros_pow {fuel k : Nat} {d : MwMpDigit} (hd : d.toNat = 2 ^ k) (hfuel : k ≤ fuel) :
    stripZeros fuel d = (1, k) := by
  induction fuel generalizing d k with
  | zero =>
    rw [Nat.le_zero.mp hfuel] at hd ⊢
    rw [stripZeros, show d = 1 from UInt16.toNat_inj.mp hd]
  | succ fuel ih =>
    cases k with
    | zero =>
      rw [show d = 1 from UInt16.toNat_inj.mp hd]
      rfl
    | succ k =>
      rw [Nat.pow_succ] at hd
      have hpos := Nat.two_pow_pos k
      have hne : d ≠ 0 := by
        rintro rfl
        rw [UInt16.toNat_zero] at hd
        omega
      have heven : d &&& 1 = 0 := (low_bit d).mpr (by omega)
      have hhalf := ih (d := d >>> 1) (k := k) (by rw [shiftRight_one]; omega) (by omega)
      rw [stripZeros, if_pos ⟨hne, heven⟩, hhalf]

theorem abs_eq_dropLast (h : a.Wf) :
    a.abs = value a.digits.dropLast + 65536 ^ (a.used - 1) * (a.digits.getLastD 0).toNat := by
  have hsplit := value_append a.digits.dropLast [a.digits.getLastD 0]
  rw [List.getLastD_eq_getLast?, List.getLast?_eq_some_getLast h.digits_ne, Option.getD_some,
    List.dropLast_append_getLast h.digits_ne, List.length_dropLast, value_cons, value_nil] at hsplit
  rw [List.getLastD_eq_getLast?, List.getLast?_eq_some_getLast h.digits_ne, Option.getD_some]
  exact hsplit

theorem value_eq_zero_iff (ds : List MwMpDigit) : value ds = 0 ↔ ∀ d ∈ ds, d = 0 := by
  refine ⟨fun hzero => ?_, IsClear.value_eq⟩
  induction ds with
  | nil => simp
  | cons d ds ih =>
    rw [value_cons] at hzero
    refine List.forall_mem_cons.mpr ⟨UInt16.toNat_inj.mp ?_, ih (by omega)⟩
    rw [UInt16.toNat_zero]
    omega

/-- The digit that is stripped of fifteen zeros has no more. -/
theorem stripZeros_lt {d : MwMpDigit} (hone : (stripZeros 16 d).1 = 1) : (stripZeros 16 d).2 < 16 := by
  have hd := stripZeros_spec 16 d
  rw [hone, UInt16.toNat_one, Nat.one_mul] at hd
  exact (Nat.pow_lt_pow_iff_right (by decide : 1 < 2)).mp (hd ▸ digit_lt d)

theorem toInt32_of_lt {n : Int} (hle : -2 ^ 31 ≤ n) (hlt : n < 2 ^ 31) : toInt32 n = n :=
  BitVec.toInt_ofInt_eq_self (by decide) hle hlt

/-- As long as an `int` counts the bits, the loop looks at all digits but the last, and the
exponent is what it is. -/
theorem sMwMpIspow2_of_used (hb : b.Wf) (hused : b.used ≤ 2 ^ 27) :
    sMwMpIspow2 b =
      if (stripZeros 16 (b.digits.getLastD 0)).1 = 1 ∧ b.digits.dropLast.all (· = 0) then
        (((b.used - 1) * 16 + (stripZeros 16 (b.digits.getLastD 0)).2 : Nat) : Int)
      else -1 := by
  have hpos := hb.used_pos
  have hix : toInt32 ((b.used : Int) - 2) = (b.used : Int) - 2 := toInt32_of_lt (by omega) (by omega)
  have htake : ((b.used : Int) - 2 + 1).toNat = b.digits.length - 1 := by
    rw [used] at hpos ⊢
    omega
  unfold sMwMpIspow2
  simp only [hix, htake, List.dropLast_eq_take]
  split
  case isTrue hpow =>
    have hzeros := stripZeros_lt hpow.1
    rw [toInt32_of_lt (by omega) (by omega)]
    omega
  case isFalse => rfl

/-- The exponent of a power of two, and nothing else, is not negative. -/
theorem sMwMpIspow2_eq (hb : b.Holds m) (hsize : b.used ≤ 2 ^ 27) (k : Nat) :
    sMwMpIspow2 b = k ↔ m = 2 ^ k := by
  have habs := abs_eq_dropLast hb.toWf
  rw [hb.abs_eq] at habs
  have htop := stripZeros_spec 16 (b.digits.getLastD 0)
  have hdigits : ∀ u : Nat, 65536 ^ u = 2 ^ (u * 16) := fun u => by rw [Nat.mul_comm, Nat.pow_mul]
  have hpow : ∀ u e : Nat, 65536 ^ u * 2 ^ e = 2 ^ (u * 16 + e) := fun u e => by
    rw [hdigits, ← Nat.pow_add]
  rw [sMwMpIspow2_of_used hb.toWf hsize]
  constructor
  · intro hexp
    split at hexp
    case isTrue hclear =>
      obtain ⟨hone, hclear⟩ := hclear
      obtain rfl := Int.natCast_inj.mp hexp
      rw [hone, UInt16.toNat_one, Nat.one_mul] at htop
      have hlow : IsClear b.digits.dropLast := by simpa [IsClear] using hclear
      rw [habs, hlow.value_eq, Nat.zero_add, htop, hpow]
    case isFalse => omega
  · rintro rfl
    set u := b.used - 1 with hu
    have hused := hb.used_pos
    have hlow : u * 16 ≤ k := by
      refine (Nat.pow_le_pow_iff_right (by decide : 1 < 2)).mp ?_
      rw [← hdigits]
      by_cases hmany : 1 < b.used
      · exact hb.le hmany
      · rw [show u = 0 by omega]
        exact Nat.two_pow_pos k
    have hhigh : k < (u + 1) * 16 := by
      refine (Nat.pow_lt_pow_iff_right (by decide : 1 < 2)).mp ?_
      rw [← hdigits, show u + 1 = b.used by omega]
      exact hb.lt
    obtain ⟨e, rfl⟩ := Nat.exists_eq_add_of_le hlow
    have hlead := abs_div_top hb.toWf
    rw [hb.abs_eq, ← hu, ← hpow, Nat.mul_div_cancel_left _ (Nat.pow_pos (by decide))] at hlead
    rw [← hlead, hpow] at habs
    have hclear : ∀ d ∈ b.digits.dropLast, d = 0 := (value_eq_zero_iff _).mp (by omega)
    rw [stripZeros_pow hlead.symm (by omega), if_pos ⟨rfl, by simpa using hclear⟩]

end

/-! ## A digit of the quotient -/

/-- The guess for the next digit, from the leading digits. It is at most `RADIX - 1`. -/
def guessDigit (rem b : MwMpInt) : MwMpWord :=
  let top := (b.digits.getLastD 0).toUInt32
  let q := (rem.digits.getLastD 0).toUInt32
  let q :=
    if q ≤ top ∧ rem.used > 1 then q <<< 16 ||| (rem.digits.getD (rem.used - 2) 0).toUInt32 else q
  let q := q / top
  if q ≥ 65536 then 65535 else q

/-- The loop that backs off a guess whose product `t` is too large. More turns than there is
fuel for are `none`. -/
def backOff (b rem : MwMpInt) : Nat → MwMpWord → MwMpInt → Option (MwMpWord × MwMpInt)
  | 0, q, t => if sMwMpCmp t rem = .gt then none else some (q, t)
  | fuel + 1, q, t =>
      if sMwMpCmp t rem = .gt then (sMwMpSub t b).bind fun r => backOff b rem fuel (q - 1) r.1
      else some (q, t)

section

variable {a b rem t : MwMpInt} {k m n : Nat}

/-- The two leading digits -/
theorem abs_div_top_two (h : rem.Holds n) (hmany : 1 < rem.used) :
    n / 65536 ^ (rem.used - 2) =
      65536 * (rem.digits.getLastD 0).toNat + (rem.digits.getD (rem.used - 2) 0).toNat := by
  have hlength : rem.used - 2 < rem.digits.length := by unfold used at hmany ⊢; omega
  have htop := abs_div_top h.toWf
  have hlead : n / 65536 ^ (rem.used - 2) / 65536 = (rem.digits.getLastD 0).toNat := by
    rw [Nat.div_div_eq_div_mul, ← Nat.pow_succ, show (rem.used - 2).succ = rem.used - 1 by omega,
      ← h.abs_eq, htop]
  have hdrop : n / 65536 ^ (rem.used - 2) = (rem.digits.getD (rem.used - 2) 0).toNat +
      65536 * value (rem.digits.drop (rem.used - 2 + 1)) := by
    rw [← h.abs_eq, MwMpInt.abs, ← value_drop, List.drop_eq_getElem_cons hlength, value_cons,
      List.getD_eq_getElem _ _ hlength]
  have hlow := digit_lt (rem.digits.getD (rem.used - 2) 0)
  omega

/-- The remainder has as many digits as the divisor and the same leading one, and it is not the
only one. -/
def SameTop (rem b : MwMpInt) : Prop :=
  rem.used = b.used ∧ 1 < b.used ∧ rem.digits.getLastD 0 = b.digits.getLastD 0

instance (rem b : MwMpInt) : Decidable (SameTop rem b) := by unfold SameTop; infer_instance

/-- What is divided here: numbers with a divisor whose leading digit is at least half of the
radix, and a quotient that is one digit -/
structure Guessed (rem b : MwMpInt) (n m : Nat) : Prop where
  rem_holds : rem.Holds n
  b_holds : b.Holds m
  half : 2 ^ 15 ≤ (b.digits.getLastD 0).toNat
  le : m ≤ n
  lt : n < 65536 * m

theorem Guessed.top (h : Guessed rem b n m) : m / 65536 ^ (b.used - 1) = (b.digits.getLastD 0).toNat := by
  rw [← h.b_holds.abs_eq]
  exact abs_div_top h.b_holds.toWf

theorem Guessed.used (h : Guessed rem b n m) : rem.used = b.used ∨ rem.used = b.used + 1 := by
  have hpos := h.b_holds.used_pos
  have hle : b.used ≤ rem.used := by
    by_contra hless
    have := lt_of_used_lt h.rem_holds h.b_holds (Nat.lt_of_not_le hless)
    have := h.le
    omega
  by_contra hmore
  have hmany : 1 < rem.used := by omega
  have hfew : 65536 ^ (b.used + 1) ≤ 65536 ^ (rem.used - 1) :=
    Nat.pow_le_pow_right (by decide) (by omega)
  have hlow := h.rem_holds.le hmany
  have hhigh := h.lt
  have hb := h.b_holds.lt
  rw [Nat.pow_succ] at hfew
  omega

/-- The guess in numbers -/
theorem guessDigit_toNat (rem b : MwMpInt) :
    (guessDigit rem b).toNat =
      min ((if (rem.digits.getLastD 0).toNat ≤ (b.digits.getLastD 0).toNat ∧ rem.used > 1 then
          65536 * (rem.digits.getLastD 0).toNat + (rem.digits.getD (rem.used - 2) 0).toNat
        else (rem.digits.getLastD 0).toNat) / (b.digits.getLastD 0).toNat) 65535 := by
  have hpair : ∀ x y : MwMpDigit, (x.toUInt32 <<< 16 ||| y.toUInt32).toNat = 65536 * x.toNat + y.toNat := by
    intro x y
    have hx := digit_lt x
    rw [UInt32.toNat_or, UInt32.toNat_shiftLeft, UInt16.toNat_toUInt32, UInt16.toNat_toUInt32,
      show (16 : MwMpWord).toNat % 32 = 16 from rfl, Nat.shiftLeft_eq,
      Nat.mod_eq_of_lt (by omega), ← Nat.shiftLeft_eq, BigEndian.shiftLeft_or (digit_lt y)]
    omega
  have hword : ∀ c : Prop, ∀ _ : Decidable c, ∀ w w' : MwMpWord,
      (if c then w else w').toNat = if c then w.toNat else w'.toNat := by
    intro c _ w w'
    split <;> rfl
  have hmin : ∀ p : Nat, (if 65536 ≤ p then 65535 else p) = min p 65535 := by
    intro p
    split <;> omega
  unfold guessDigit
  dsimp only
  simp only [UInt32.le_iff_toNat_le, ge_iff_le, UInt16.toNat_toUInt32, UInt32.toNat_div, hword, hpair]
  rw [show (65536 : MwMpWord).toNat = 65536 from rfl, show (65535 : MwMpWord).toNat = 65535 from rfl]
  exact hmin _

/-- The guess is the quotient of the leading digits, but where these are the same and there are
more of them it is the largest digit. -/
theorem guessDigit_eq (h : Guessed rem b n m) :
    (guessDigit rem b).toNat =
      if SameTop rem b then 65535 else Quotient.guess 65536 (65536 ^ (b.used - 1)) n m := by
  have hhalf := h.half
  have hlead := abs_div_top h.rem_holds.toWf
  have hpos := h.b_holds.used_pos
  rw [h.rem_holds.abs_eq] at hlead
  rw [guessDigit_toNat, Quotient.guess, h.top]
  rcases h.used with hsame | hmore
  · rw [hsame] at hlead ⊢
    have hle : (b.digits.getLastD 0).toNat ≤ (rem.digits.getLastD 0).toNat := by
      rw [← hlead, ← h.top]
      exact Nat.div_le_div_right h.le
    by_cases htop : SameTop rem b
    · obtain ⟨hmany, heq⟩ := htop.2
      rw [if_pos htop, if_pos ⟨by rw [heq], hmany⟩, heq]
      have hlarge : 65536 ≤ (65536 * (b.digits.getLastD 0).toNat +
          (rem.digits.getD (b.used - 2) 0).toNat) / (b.digits.getLastD 0).toNat :=
        (Nat.le_div_iff_mul_le (by omega)).mpr (Nat.le_add_right _ _)
      omega
    · have hone : ¬ ((rem.digits.getLastD 0).toNat ≤ (b.digits.getLastD 0).toNat ∧ b.used > 1) :=
        fun hboth => htop ⟨hsame, hboth.2, UInt16.toNat_inj.mp (Nat.le_antisymm hboth.1 hle)⟩
      rw [if_neg htop, if_neg hone, hlead]
  · have hmany : 1 < rem.used := by omega
    have htwo := abs_div_top_two h.rem_holds hmany
    have hle : (rem.digits.getLastD 0).toNat ≤ (b.digits.getLastD 0).toNat := by
      rw [← hlead, ← h.top, hmore, Nat.add_sub_cancel]
      refine Nat.le_of_lt_succ (Nat.div_lt_of_lt_mul ?_)
      have hb := Nat.lt_mul_div_succ m (Nat.pow_pos (by decide) : 0 < 65536 ^ (b.used - 1))
      have hlt := h.lt
      have hpow : 65536 ^ b.used = 65536 * 65536 ^ (b.used - 1) := by
        rw [← Nat.pow_succ', Nat.sub_one, Nat.succ_pred_eq_of_pos hpos]
      rw [hpow, Nat.mul_assoc]
      exact hlt.trans (Nat.mul_lt_mul_of_pos_left hb (by decide))
    have hdiff : ¬ SameTop rem b := fun hsame => by
      have := hsame.1
      omega
    rw [if_neg hdiff, if_pos ⟨hle, hmany⟩, ← htwo, show rem.used - 2 = b.used - 1 by omega]

theorem Guessed.pos (h : Guessed rem b n m) : 0 < m := by
  have hle := h.le
  have hlt := h.lt
  omega

theorem Guessed.scale_pos (_ : Guessed rem b n m) : 0 < 65536 ^ (b.used - 1) := Nat.pow_pos (by decide)

theorem guessDigit_lt (h : Guessed rem b n m) : (guessDigit rem b).toNat < 65536 := by
  rw [guessDigit_eq h]
  split
  · decide
  · exact Nat.lt_of_le_of_lt (Nat.min_le_right _ _) (by decide)

theorem le_guessDigit (h : Guessed rem b n m) : n / m ≤ (guessDigit rem b).toNat := by
  have hdigit : n / m < 65536 := Nat.div_lt_of_lt_mul (by rw [Nat.mul_comm]; exact h.lt)
  rw [guessDigit_eq h]
  split
  · omega
  · have htop := h.top
    have hhalf := h.half
    exact Quotient.div_le_guess h.scale_pos (by omega) h.lt

/-- A good guess is at most two too large. -/
theorem guessDigit_le (h : Guessed rem b n m) (hdiff : ¬ SameTop rem b) :
    (guessDigit rem b).toNat ≤ n / m + 2 := by
  have htop := h.top
  have hhalf := h.half
  rw [guessDigit_eq h, if_neg hdiff]
  exact Quotient.guess_le h.scale_pos (by omega) (by decide)

/-- Where the leading digits are the same, the quotient is one. -/
theorem SameTop.div_eq (h : Guessed rem b n m) (hsame : SameTop rem b) : n / m = 1 := by
  have hlead := abs_div_top h.rem_holds.toWf
  rw [h.rem_holds.abs_eq, hsame.1, hsame.2.2, ← h.top] at hlead
  have hn := Nat.lt_mul_div_succ n h.scale_pos
  have hm := Nat.mul_div_le m (65536 ^ (b.used - 1))
  have hhalf := h.half
  rw [hlead, Nat.mul_succ] at hn
  rw [← h.top] at hhalf
  have hscale : 65536 ^ (b.used - 1) * 2 ^ 15 ≤ 65536 ^ (b.used - 1) * (m / 65536 ^ (b.used - 1)) :=
    Nat.mul_le_mul_left _ hhalf
  have hpos := h.scale_pos
  have hle := h.le
  exact Nat.div_eq_of_lt_le (by omega) (by omega)

/-- The loop ends with the quotient as soon as there is fuel for what the guess is too large. -/
theorem backOff_spec (fuel : Nat) {q : MwMpWord} (hrem : rem.Holds n) (hb : b.Holds m) (hm : 0 < m)
    (ht : t.Holds (q.toNat * m)) (hge : n / m ≤ q.toNat) :
    if q.toNat ≤ n / m + fuel then
      ∃ q' t', backOff b rem fuel q t = some (q', t') ∧ q'.toNat = n / m ∧ t'.Holds (n / m * m)
    else backOff b rem fuel q t = none := by
  -- the product is too large exactly when the guess is
  have hcmp : ∀ {q : MwMpWord} {t : MwMpInt}, t.Holds (q.toNat * m) →
      (sMwMpCmp t rem = .gt ↔ n / m < q.toNat) := by
    intro q t ht
    rw [sMwMpCmp_eq ht hrem, Nat.compare_eq_gt, Nat.div_lt_iff_lt_mul hm]
  generalize n / m = w at hcmp hge ⊢
  induction fuel generalizing q t with
  | zero =>
    unfold backOff
    by_cases hlarge : w < q.toNat
    · rw [if_neg (by omega), if_pos ((hcmp ht).mpr hlarge)]
    · have heq : q.toNat = w := by omega
      rw [if_pos (by omega), if_neg (mt (hcmp ht).mp hlarge)]
      exact ⟨q, t, rfl, heq, heq ▸ ht⟩
  | succ fuel ih =>
    unfold backOff
    by_cases hlarge : w < q.toNat
    · have hpred : (q - 1).toNat = q.toNat - 1 := by
        refine UInt32.toNat_sub_of_le _ _ (UInt32.le_iff_toNat_le.mpr ?_)
        rw [UInt32.toNat_one]
        omega
      have hsplit : q.toNat * m = (q - 1).toNat * m + m := by
        rw [← Nat.succ_mul, hpred, Nat.succ_eq_add_one, Nat.sub_add_cancel (by omega)]
      obtain ⟨r, hr, hholds, -⟩ := holds_sMwMpSub ht hb (by omega)
      rw [hsplit, Nat.add_sub_cancel] at hholds
      have hrest := ih hholds (by omega)
      have hfuel : q.toNat ≤ w + (fuel + 1) ↔ (q - 1).toNat ≤ w + fuel := by omega
      rw [if_pos ((hcmp ht).mpr hlarge), hr, Option.bind_some, if_congr hfuel rfl rfl]
      exact hrest
    · have heq : q.toNat = w := by omega
      rw [if_pos (by omega), if_neg (mt (hcmp ht).mp hlarge)]
      exact ⟨q, t, rfl, heq, heq ▸ ht⟩

end

/-! ## Long division -/

/-- The next digit of the dividend is brought down to the remainder. -/
def bringDigit (rem : MwMpInt) (d : MwMpDigit) : MwMpInt :=
  let rem := sMwMpLshd rem 1
  sMwMpClamp { rem with digits := rem.digits.set 0 d }

/-- The inner loop, over the digits of the dividend from the top -/
def bringDown (b : MwMpInt) :
    List MwMpDigit → MwMpInt → MwMpInt → List MwMpDigit × MwMpInt × MwMpInt
  | [], rem, quot => ([], rem, quot)
  | d :: ds, rem, quot =>
      if sMwMpCmp rem b = .lt then bringDown b ds (bringDigit rem d) (sMwMpLshd quot 1)
      else (d :: ds, rem, quot)

/-- A digit of the quotient, and what the remainder and the temporary are after it -/
def nextDigit (b rem t : MwMpInt) : Option (MwMpWord × MwMpInt × MwMpInt) :=
  let q := guessDigit rem b
  (sMwMpMulD (mwMpCopy b t) q.toUInt16).bind fun t =>
  (backOff b rem q.toNat q t).bind fun r =>
  (subOkay rem r.2).map fun rem => (r.1, rem, r.2)

/-- The outer loop. A turn takes at least one digit of the dividend. -/
def divLoop (b : MwMpInt) :
    Nat → List MwMpDigit → MwMpInt → MwMpInt → MwMpInt → Option (MwMpInt × MwMpInt)
  | _, [], rem, quot, _ => some (quot, rem)
  | 0, _ :: _, _, _, _ => none
  | fuel + 1, d :: ds, rem, quot, t =>
      let r := bringDown b (d :: ds) rem quot
      if sMwMpCmp r.2.1 b = .lt then some (r.2.2, r.2.1)
      else
        (nextDigit b r.2.1 t).bind fun next =>
        divLoop b fuel r.1 next.2.1 { r.2.2 with digits := r.2.2.digits.set 0 next.1.toUInt16 } next.2.2

/-- `s_mw_mp_div`. It is `MP_RANGE` in `none`, for a zero divisor. -/
def sMwMpDiv (a b : MwMpInt) : Option (MwMpInt × MwMpInt) :=
  if mwMpCmwMpZ b = .eq then none
  else
    let ix := sMwMpIspow2 b
    if 0 ≤ ix then
      some (sMwMpDiv2d a (UInt16.ofNat ix.toNat), sMwMpMod2d (mwMpCopy a b) (UInt16.ofNat ix.toNat))
    else
      (sMwMpNorm a b).bind fun norm =>
      let init := mwMpInitSize a.used
      (divLoop norm.2.2 norm.2.1.used norm.2.1.digits.reverse init init init).map fun r =>
      (sMwMpClamp r.1, sMwMpClamp (if norm.1 ≠ 0 then sMwMpDiv2d r.2 norm.1 else r.2))

section

variable {a b rem quot t : MwMpInt} {ds : List MwMpDigit} {m n : Nat}

theorem value_set_zero {ds : List MwMpDigit} (hzero : ds.head? = some 0) (d : MwMpDigit) :
    value (ds.set 0 d) = value ds + d.toNat := by
  cases ds with
  | nil => cases hzero
  | cons e ds =>
    obtain rfl := Option.some.inj hzero
    rw [List.set_cons_zero, value_cons, value_cons, UInt16.toNat_zero]
    omega

theorem sMwMpLshd_one_head (h : rem.Wf) : (sMwMpLshd rem 1).digits.head? = some 0 := by
  rw [sMwMpLshd_digits h]
  rfl

theorem holds_bringDigit (h : rem.Holds n) (d : MwMpDigit) :
    (bringDigit rem d).Holds (n * 65536 + d.toNat) := by
  have hwf := sMwMpLshd_wf h.toWf 1
  have habs := sMwMpLshd_abs h.toWf 1
  rw [h.abs_eq, Nat.pow_one] at habs
  refine holds_sMwMpClamp ⟨by simp [hwf.digits_ne], hwf.clear⟩ ?_
  rw [MwMpInt.abs, value_set_zero (sMwMpLshd_one_head h.toWf), ← MwMpInt.abs, habs, Nat.mul_comm]

/-- What the digits of a dividend stand for, with what is above them -/
def above (n : Nat) (ds : List MwMpDigit) : Nat := n * 65536 ^ ds.length + value ds.reverse

@[simp]
theorem above_nil (n : Nat) : above n [] = n := by simp [above]

theorem above_cons (n : Nat) (d : MwMpDigit) (ds : List MwMpDigit) :
    above n (d :: ds) = above (n * 65536 + d.toNat) ds := by
  rw [above, above, List.reverse_cons, value_append, List.length_reverse, value_cons, value_nil,
    List.length_cons, Nat.pow_succ]
  ring

/-- What a loop over the digits from the top takes from one state to another -/
structure Brought (b : MwMpInt) (m n : Nat) (quot : MwMpInt) (ds : List MwMpDigit)
    (r : List MwMpDigit × MwMpInt × MwMpInt) (n' : Nat) : Prop where
  rem_holds : r.2.1.Holds n'
  quot_wf : r.2.2.Wf
  above_eq : above n' r.1 = above n ds
  quot_eq : r.2.2.abs * 65536 ^ r.1.length = quot.abs * 65536 ^ ds.length
  enough : n' < m → r.1 = []
  lt : n < 65536 * m → n' < 65536 * m
  moved : (r.1 = ds ∧ r.2.2 = quot ∧ n' = n) ∨ (r.1.length < ds.length ∧ r.2.2.digits.head? = some 0)

theorem Brought.refl {n : Nat} (hrem : rem.Holds n) (hquot : quot.Wf) (henough : n < m → ds = []) :
    Brought b m n quot ds (ds, rem, quot) n :=
  ⟨hrem, hquot, rfl, rfl, henough, id, .inl ⟨rfl, rfl, rfl⟩⟩

theorem bringDown_spec (ds : List MwMpDigit) (hb : b.Holds m) (hrem : rem.Holds n) (hquot : quot.Wf) :
    ∃ n', Brought b m n quot ds (bringDown b ds rem quot) n' := by
  induction ds generalizing rem quot n with
  | nil => exact ⟨n, .refl hrem hquot fun _ => rfl⟩
  | cons d ds ih =>
    have hcmp : sMwMpCmp rem b = .lt ↔ n < m := by rw [sMwMpCmp_eq hrem hb, Nat.compare_eq_lt]
    unfold bringDown
    by_cases hless : n < m
    · have hd := digit_lt d
      obtain ⟨n', hbrought⟩ := ih (holds_bringDigit hrem d) (sMwMpLshd_wf hquot 1)
      have hquot' := hbrought.quot_eq
      rw [sMwMpLshd_abs hquot, Nat.pow_one] at hquot'
      rw [if_pos (hcmp.mpr hless)]
      refine ⟨n', hbrought.rem_holds, hbrought.quot_wf, ?_, ?_, hbrought.enough, fun _ => ?_, .inr ?_⟩
      · rw [hbrought.above_eq, above_cons]
      · rw [hquot', List.length_cons, Nat.pow_succ]
        ring
      · exact hbrought.lt (by omega)
      · rcases hbrought.moved with ⟨hds, hsame, -⟩ | ⟨hfew, hhead⟩
        · rw [hds, hsame]
          exact ⟨Nat.lt_succ_self _, sMwMpLshd_one_head hquot⟩
        · exact ⟨hfew.trans (Nat.lt_succ_self _), hhead⟩
    · rw [if_neg (mt hcmp.mp hless)]
      exact ⟨n, .refl hrem hquot fun h => absurd h hless⟩

/-- The product of a guess fits, or has a carry that there is room for. -/
theorem guess_fits (h : Guessed rem b n m) (t : MwMpInt) {q : MwMpDigit} :
    MulFits (mwMpCopy b t) q := by
  have hhalf := h.half
  have hholds := holds_mwMpCopy h.b_holds t
  have hdigits := mwMpCopy_digits b t
  unfold MulFits
  rw [hdigits, hholds.abs_eq]
  by_cases hfew : q.toNat ≤ 1
  · have hprod : m * q.toNat ≤ m * 1 := Nat.mul_le_mul_left m hfew
    rw [Nat.mul_one] at hprod
    exact .inl (hprod.trans_lt hholds.lt)
  · have hprod : 2 ^ 15 * 2 ≤ (b.digits.getLastD 0).toNat * q.toNat := Nat.mul_le_mul hhalf (by omega)
    exact .inr (.inl hprod)

/-- The product of the guess comes out in full. -/
theorem mul_guess (h : Guessed rem b n m) (t : MwMpInt) :
    ∃ r, sMwMpMulD (mwMpCopy b t) (guessDigit rem b).toUInt16 = some r ∧
      r.Holds ((guessDigit rem b).toNat * m) := by
  have hq : (guessDigit rem b).toUInt16.toNat = (guessDigit rem b).toNat := by
    rw [UInt32.toNat_toUInt16, Nat.mod_eq_of_lt (guessDigit_lt h)]
  rcases sMwMpMulD_spec (holds_mwMpCopy h.b_holds t) (guessDigit rem b).toUInt16 with
    ⟨r, hr, hholds, -⟩ | ⟨-, hnot⟩
  · rw [hq, Nat.mul_comm] at hholds
    exact ⟨r, hr, hholds⟩
  · exact absurd (guess_fits h t) hnot

theorem nextDigit_spec (h : Guessed rem b n m) (t : MwMpInt) :
    ∃ next, nextDigit b rem t = some next ∧ next.1.toNat = n / m ∧ next.2.1.Holds (n % m) := by
  obtain ⟨p, hp, hproduct⟩ := mul_guess h t
  have hback := backOff_spec (guessDigit rem b).toNat h.rem_holds h.b_holds h.pos hproduct
    (le_guessDigit h)
  rw [if_pos (Nat.le_add_left _ _)] at hback
  obtain ⟨q, p', hback, hq, hproduct'⟩ := hback
  have hle : n / m * m ≤ n := Nat.div_mul_le_self n m
  obtain ⟨r, hr, hrest, -⟩ := holds_sMwMpSub h.rem_holds hproduct' hle
  rw [← Nat.mod_eq_sub_div_mul] at hrest
  refine ⟨(q, r, p'), ?_, hq, hrest⟩
  simp [nextDigit, hp, hback, subOkay, hr]

theorem divLoop_spec (hb : b.Holds m) (hhalf : 2 ^ 15 ≤ (b.digits.getLastD 0).toNat) {fuel : Nat}
    (hfuel : ds.length ≤ fuel) (hrem : rem.Holds n) (hless : n < m) (hquot : quot.Wf) (t : MwMpInt) :
    ∃ r n', divLoop b fuel ds rem quot t = some r ∧ r.1.Wf ∧ r.2.Holds n' ∧ n' < m ∧
      r.1.abs * m + n' = quot.abs * m * 65536 ^ ds.length + above n ds := by
  induction fuel generalizing ds rem quot t n with
  | zero =>
    obtain rfl := List.eq_nil_of_length_eq_zero (Nat.le_zero.mp hfuel)
    exact ⟨(quot, rem), n, rfl, hquot, hrem, hless, by simp⟩
  | succ fuel ih =>
    cases ds with
    | nil => exact ⟨(quot, rem), n, rfl, hquot, hrem, hless, by simp⟩
    | cons d ds =>
      obtain ⟨n', hbrought⟩ := bringDown_spec (d :: ds) hb hrem hquot
      unfold divLoop
      dsimp only
      generalize bringDown b (d :: ds) rem quot = r at hbrought ⊢
      have hcmp : sMwMpCmp r.2.1 b = .lt ↔ n' < m := by
        rw [sMwMpCmp_eq hbrought.rem_holds hb, Nat.compare_eq_lt]
      have hquot' := hbrought.quot_eq
      have habove := hbrought.above_eq
      by_cases hdone : n' < m
      · have hnil := hbrought.enough hdone
        rw [hnil, List.length_nil, Nat.pow_zero, Nat.mul_one] at hquot'
        rw [hnil, above_nil] at habove
        refine ⟨(r.2.2, r.2.1), n', by rw [if_pos (hcmp.mpr hdone)], hbrought.quot_wf, hbrought.rem_holds,
          hdone, ?_⟩
        rw [hquot', habove, Nat.mul_right_comm]
      · have hmoved : r.1.length < (d :: ds).length ∧ r.2.2.digits.head? = some 0 :=
          hbrought.moved.resolve_left fun hstay => by
            have := hstay.2.2
            omega
        have hguessed : Guessed r.2.1 b n' m :=
          ⟨hbrought.rem_holds, hb, hhalf, Nat.le_of_not_lt hdone, hbrought.lt (by omega)⟩
        obtain ⟨next, hnext, hq, hrest⟩ := nextDigit_spec hguessed t
        have hset := value_set_zero hmoved.2 next.1.toUInt16
        have hdigit : n' / m < 65536 := Nat.div_lt_of_lt_mul (by rw [Nat.mul_comm]; exact hguessed.lt)
        rw [UInt32.toNat_toUInt16, hq, Nat.mod_eq_of_lt hdigit] at hset
        have hwf : Wf { r.2.2 with digits := r.2.2.digits.set 0 next.1.toUInt16 } :=
          ⟨by simp [hbrought.quot_wf.digits_ne], hbrought.quot_wf.clear⟩
        have hfuel' : r.1.length ≤ fuel := by omega
        obtain ⟨r', n'', hrun, hwf', hrem', hless', hvalue⟩ :=
          ih hfuel' hrest (Nat.mod_lt _ hguessed.pos) hwf next.2.2
        refine ⟨r', n'', ?_, hwf', hrem', hless', ?_⟩
        · rw [if_neg (mt hcmp.mp hdone), hnext]
          exact hrun
        · rw [hvalue, MwMpInt.abs, hset, ← habove, above, above, Nat.mul_right_comm quot.abs, ← hquot',
            MwMpInt.abs]
          calc (value r.2.2.digits + n' / m) * m * 65536 ^ r.1.length +
                (n' % m * 65536 ^ r.1.length + value r.1.reverse)
              = value r.2.2.digits * 65536 ^ r.1.length * m +
                ((m * (n' / m) + n' % m) * 65536 ^ r.1.length + value r.1.reverse) := by ring
            _ = _ := by rw [Nat.div_add_mod]

theorem mwMpCmwMpZ_ne_eq (h : b.Holds m) (hm : 0 < m) : mwMpCmwMpZ b ≠ .eq := by
  have hzero := digits_eq_zero_iff h
  unfold mwMpCmwMpZ
  split
  · simp
  · split
    case isTrue hboth =>
      obtain ⟨d, hd⟩ := List.length_eq_one_iff.mp hboth.1
      have hdigit : d = 0 := by simpa [hd] using hboth.2
      have := hzero.mp (by rw [hd, hdigit])
      omega
    case isFalse => simp

/-- The shortcut shifts by what is left of the exponent in a digit. -/
theorem holds_sMwMpDiv_pow (ha : a.Holds n) {k : Nat} (hb : b.Holds (2 ^ k))
    (hsize : b.used ≤ 2 ^ 27) :
    ∃ r, sMwMpDiv a b = some r ∧ r.1.Holds (n / 2 ^ (k % 65536)) ∧ r.2.Holds (n % 2 ^ (k % 65536)) := by
  have hdigit : (UInt16.ofNat k).toNat = k % 65536 := UInt16.toNat_ofNat'
  have hquot := holds_sMwMpDiv2d ha (UInt16.ofNat k)
  have hrem := holds_sMwMpMod2d (holds_mwMpCopy ha b) (UInt16.ofNat k)
  rw [hdigit] at hquot hrem
  refine ⟨(sMwMpDiv2d a (UInt16.ofNat k), sMwMpMod2d (mwMpCopy a b) (UInt16.ofNat k)), ?_, hquot, hrem⟩
  rw [sMwMpDiv, if_neg (mwMpCmwMpZ_ne_eq hb (Nat.two_pow_pos k)), (sMwMpIspow2_eq hb hsize k).mpr rfl]
  exact if_pos (Int.natCast_nonneg k)

theorem holds_sMwMpDiv_digits (ha : a.Holds n) (hb : b.Holds m) (hm : 0 < m) (hsize : b.used ≤ 2 ^ 27)
    (hpow : ∀ k, m ≠ 2 ^ k) :
    ∃ r, sMwMpDiv a b = some r ∧ r.1.Holds (n / m) ∧ r.2.Holds (n % m) := by
  have hshortcut : ¬ 0 ≤ sMwMpIspow2 b := by
    intro hnonneg
    obtain ⟨k, hk⟩ := Int.eq_ofNat_of_zero_le hnonneg
    exact hpow k ((sMwMpIspow2_eq hb hsize k).mp hk)
  obtain ⟨d, a', b', hnorm, ha', hb', hhalf⟩ := sMwMpNorm_spec ha hb hm
  have hscale : 0 < 2 ^ d.toNat := Nat.two_pow_pos _
  have hinit := holds_mwMpInitSize a.used
  have hfuel : a'.digits.reverse.length ≤ a'.digits.length := Nat.le_of_eq List.length_reverse
  obtain ⟨r, n', hrun, hwf, hrem, hless, hvalue⟩ := divLoop_spec hb' hhalf hfuel hinit
    (Nat.mul_pos hm hscale) hinit.toWf (mwMpInitSize a.used)
  rw [hinit.abs_eq, above, List.reverse_reverse, ← MwMpInt.abs, ha'.abs_eq] at hvalue
  simp only [Nat.zero_mul, Nat.zero_add] at hvalue
  have hdiv : r.1.abs = n / m := by
    have hq : n * 2 ^ d.toNat / (m * 2 ^ d.toNat) = r.1.abs := by
      rw [← hvalue, Nat.mul_comm r.1.abs, Nat.mul_add_div (Nat.mul_pos hm hscale), Nat.div_eq_of_lt hless,
        Nat.add_zero]
    rw [← hq, Nat.mul_div_mul_right _ _ hscale]
  have hmod : n' = n % m * 2 ^ d.toNat := by
    have hr : n * 2 ^ d.toNat % (m * 2 ^ d.toNat) = n' := by
      rw [← hvalue, Nat.mul_comm r.1.abs, Nat.mul_add_mod, Nat.mod_eq_of_lt hless]
    rw [← hr, Nat.mul_mod_mul_right]
  have hback : (if d ≠ 0 then sMwMpDiv2d r.2 d else r.2).Holds (n % m) := by
    split
    case isTrue =>
      have hshift := holds_sMwMpDiv2d hrem d
      rwa [hmod, Nat.mul_div_cancel _ hscale] at hshift
    case isFalse hzero =>
      rw [not_not.mp hzero, UInt16.toNat_zero, Nat.pow_zero, Nat.mul_one] at hmod
      exact hmod ▸ hrem
  refine ⟨(sMwMpClamp r.1, sMwMpClamp (if d ≠ 0 then sMwMpDiv2d r.2 d else r.2)), ?_,
    holds_sMwMpClamp hwf hdiv, holds_sMwMpClamp hback.toWf hback.abs_eq⟩
  rw [sMwMpDiv, if_neg (mwMpCmwMpZ_ne_eq hb hm)]
  simp only [if_neg hshortcut, hnorm, Option.bind_some]
  rw [show a'.used = a'.digits.length from rfl, hrun, Option.map_some]

/-- The divisor is not a power of two whose exponent is more than a digit. -/
def ShortPow (m : Nat) : Prop := ∀ k, m = 2 ^ k → k < 65536

/-- A divisor with a few digits is no such power. -/
theorem shortPow_of_lt {k : Nat} (hm : m < 2 ^ k) (hk : k ≤ 65536) : ShortPow m := by
  rintro j rfl
  exact ((Nat.pow_lt_pow_iff_right (by decide)).mp hm).trans_le hk

theorem holds_sMwMpDiv (ha : a.Holds n) (hb : b.Holds m) (hm : 0 < m) (hsize : b.used ≤ 2 ^ 27)
    (hpow : ShortPow m) :
    ∃ r, sMwMpDiv a b = some r ∧ r.1.Holds (n / m) ∧ r.2.Holds (n % m) := by
  by_cases hsome : ∃ k, m = 2 ^ k
  · obtain ⟨k, rfl⟩ := hsome
    have hdiv := holds_sMwMpDiv_pow ha hb hsize
    rwa [Nat.mod_eq_of_lt (hpow k rfl)] at hdiv
  · exact holds_sMwMpDiv_digits ha hb hm hsize (not_exists.mp hsome)

/-- A divisor that is a power of two with a larger exponent is taken for a smaller one. An `int`
counts the digits of the dividend and the bits of the divisor. -/
theorem sMwMpDiv_iff (ha : a.Holds n) (_ : a.Indexed) (hb : b.Holds m) (hsize : b.used ≤ 2 ^ 27)
    (hm : 0 < m) (hle : m ≤ n) :
    (∃ r, sMwMpDiv a b = some r ∧ r.1.Holds (n / m) ∧ r.2.Holds (n % m)) ↔ ShortPow m := by
  refine ⟨?_, holds_sMwMpDiv ha hb hm hsize⟩
  rintro ⟨r, hr, hquot, -⟩ k rfl
  by_contra hlong
  obtain ⟨r', hr', hquot', -⟩ := holds_sMwMpDiv_pow ha hb hsize
  obtain rfl := Option.some.inj (hr.symm.trans hr')
  have hsame : n / 2 ^ k = n / 2 ^ (k % 65536) := hquot.abs_eq.symm.trans hquot'.abs_eq
  have hsplit : 2 ^ k = 2 ^ (k % 65536) * 2 ^ (65536 * (k / 65536)) := by
    rw [← Nat.pow_add, Nat.mod_add_div]
  have hlarge : 2 ≤ 2 ^ (65536 * (k / 65536)) := by
    have hexp : 1 ≤ 65536 * (k / 65536) := by omega
    exact Nat.pow_le_pow_right (by decide : 0 < 2) hexp
  have hone : 1 ≤ n / 2 ^ k := (Nat.le_div_iff_mul_le hm).mpr (by omega)
  rw [hsplit, ← Nat.div_div_eq_div_mul] at hsame hone
  have hhalf := Nat.div_le_div_left hlarge (by decide : 0 < 2) (a := n / 2 ^ (k % 65536))
  omega

/-- A quotient of two digits, by a divisor of one -/
theorem sMwMpDiv_iff_three :
    (∃ r, sMwMpDiv { digits := [7, 9] } { digits := [3] } = some r ∧ r.1.Holds (589831 / 3) ∧
      r.2.Holds (589831 % 3)) ↔ ShortPow 3 :=
  sMwMpDiv_iff
    (holds_mk _ (by decide) (by decide)) (by decide)
    (holds_mk _ (by decide) (by decide)) (by decide)
    (by decide) (by decide)

/-- How many turns a guess is backed off: at most two for a good one, and all but one of the
digits where the leading digits are the same. -/
theorem backOff_turns (h : Guessed rem b n m) (t : MwMpInt) (fuel : Nat) :
    ∃ p, sMwMpMulD (mwMpCopy b t) (guessDigit rem b).toUInt16 = some p ∧
      (SameTop rem b → ((backOff b rem fuel (guessDigit rem b) p).isSome ↔ 65534 ≤ fuel)) ∧
      (¬ SameTop rem b → 2 ≤ fuel → (backOff b rem fuel (guessDigit rem b) p).isSome) := by
  obtain ⟨p, hp, hproduct⟩ := mul_guess h t
  have hback := backOff_spec fuel h.rem_holds h.b_holds h.pos hproduct (le_guessDigit h)
  have hguess := guessDigit_eq h
  refine ⟨p, hp, fun hsame => ?_, fun hdiff hfuel => ?_⟩
  · rw [if_pos hsame] at hguess
    rw [hguess, hsame.div_eq h] at hback
    constructor
    · intro hsome
      by_contra hfew
      rw [if_neg (by omega)] at hback
      rw [hback] at hsome
      cases hsome
    · intro hmany
      rw [if_pos (by omega)] at hback
      obtain ⟨q, t', hrun, -⟩ := hback
      rw [hrun]
      rfl
  · rw [if_pos ((guessDigit_le h hdiff).trans (Nat.add_le_add_left hfuel _))] at hback
    obtain ⟨q, t', hrun, -⟩ := hback
    rw [hrun]
    rfl

/-- The smallest divisor of two digits that is normalised, and a remainder one above it -/
theorem backOff_turns_sameTop :
    ∃ p, sMwMpMulD (mwMpCopy { digits := [1, 0x8000] } mwMpInit)
        (guessDigit { digits := [2, 0x8000] } { digits := [1, 0x8000] }).toUInt16 = some p ∧
      (SameTop { digits := [2, 0x8000] } { digits := [1, 0x8000] } →
        ((backOff { digits := [1, 0x8000] } { digits := [2, 0x8000] } 2
          (guessDigit { digits := [2, 0x8000] } { digits := [1, 0x8000] }) p).isSome ↔ 65534 ≤ 2)) ∧
      (¬ SameTop { digits := [2, 0x8000] } { digits := [1, 0x8000] } → 2 ≤ 2 →
        (backOff { digits := [1, 0x8000] } { digits := [2, 0x8000] } 2
          (guessDigit { digits := [2, 0x8000] } { digits := [1, 0x8000] }) p).isSome) :=
  backOff_turns
    { rem_holds := holds_mk _ (by decide) (by decide)
      b_holds := holds_mk _ (by decide) (by decide)
      half := by decide
      le := by decide
      lt := by decide } mwMpInit 2

end

/-! ## Division with signs -/

/-- `mw_mp_err`, of which a division has one -/
inductive MwMpErr where
  | range
deriving DecidableEq, Repr

/-- `if((res = ...) != MP_OKAY) return res` -/
def ifOkay {α β : Type} (r : Option (Except MwMpErr α)) (f : α → Option (Except MwMpErr β)) :
    Option (Except MwMpErr β) :=
  match r with
  | none => none
  | some (.error e) => some (.error e)
  | some (.ok x) => f x

/-- `if(s_mw_mp_cmw_mp_d(c, 0) == MP_EQ) SIGN(c) = MP_ZPOS` -/
def zeroSign (c : MwMpInt) : MwMpInt := if sMwMpCmwMpD c 0 = .eq then { c with sign := .zpos } else c

/-- `mw_mp_div`, where `q` and `r` are what receives the results, as they are before. Who
passes `NULL` for one of them leaves that result alone. -/
def mwMpDiv (a b q r : MwMpInt) : Option (Except MwMpErr (MwMpInt × MwMpInt)) :=
  if mwMpCmwMpZ b = .eq then some (.error .range)
  else
    match sMwMpCmp a b with
    | .lt => some (.ok (mwMpZero q, mwMpCopy a r))
    | .eq =>
        let q := mwMpSet q 1
        some (.ok (if a.sign ≠ b.sign then { q with sign := .neg } else q, mwMpZero r))
    | .gt =>
        (sMwMpDiv (mwMpInitCopy a) (mwMpInitCopy b)).map fun u =>
        .ok (zeroSign { u.1 with sign := if a.sign = b.sign then .zpos else .neg },
          zeroSign { u.2 with sign := a.sign })

/-- The end of `mw_mp_mod`: what is negative is one modulus short. -/
def addModulus (c m : MwMpInt) (negative : Bool) : Option (Except MwMpErr MwMpInt) :=
  if negative then (mwMpAdd c m .first).map .ok else some (.ok c)

/-- `mw_mp_mod`, where `c` is what receives the result, as it is before -/
def mwMpMod (a m c : MwMpInt) : Option (Except MwMpErr MwMpInt) :=
  if m.sign = .neg then some (.error .range)
  else
    match sMwMpCmp a m with
    | .gt =>
        ifOkay (mwMpDiv a m mwMpInit c) fun u => addModulus u.2 m (u.2.sign = .neg)
    | .lt => addModulus (mwMpCopy a c) m (mwMpCmwMpZ a = .lt)
    | .eq => some (.ok (mwMpZero c))

section

variable {a b m : MwMpInt} {x y : Int}

theorem represents_zeroSign {c : MwMpInt} {z : Int} (h : c.Holds z.natAbs)
    (hsign : z ≠ 0 → c.sign = if z < 0 then .neg else .zpos) : Represents (zeroSign c) z := by
  unfold zeroSign
  rw [sMwMpCmwMpD_eq h, UInt16.toNat_zero]
  split
  case isTrue hzero =>
    have hz : z = 0 := Int.natAbs_eq_zero.mp (Nat.compare_eq_eq.mp hzero)
    exact ⟨h.of_digits rfl h.clear, by simp [hz]⟩
  case isFalse hne =>
    refine ⟨h, hsign fun hz => hne ?_⟩
    rw [hz]
    rfl

theorem Represents.copy (ha : Represents a x) (c : MwMpInt) : Represents (mwMpCopy a c) x :=
  ⟨holds_mwMpCopy ha.holds c, (mwMpCopy_sign a c).trans ha.sign⟩

theorem represents_mwMpZero (c : MwMpInt) : Represents (mwMpZero c) 0 := ⟨holds_mwMpZero c, rfl⟩

theorem tdiv_neg_iff (hne : x.tdiv y ≠ 0) : x.tdiv y < 0 ↔ ¬ (x < 0 ↔ y < 0) := by
  have hsign := Int.sign_tdiv x y
  split at hsign
  case isTrue => exact absurd (Int.sign_eq_zero_iff_zero.mp hsign) hne
  case isFalse =>
    have hx : x ≠ 0 := by
      rintro rfl
      simp at hne
    have hy : y ≠ 0 := by
      rintro rfl
      simp at hne
    rw [← Int.sign_eq_neg_one_iff_neg, hsign]
    rcases Int.lt_or_gt_of_ne hx with hx | hx <;> rcases Int.lt_or_gt_of_ne hy with hy | hy <;>
      simp [Int.sign_eq_neg_one_of_neg, Int.sign_eq_one_of_pos, hx, hy, Int.lt_asymm]

theorem tmod_neg_iff (hne : x.tmod y ≠ 0) : x.tmod y < 0 ↔ x < 0 := by
  by_cases hx : x < 0
  · have hnonneg := Int.tmod_nonneg (a := -x) y (by omega)
    rw [Int.neg_tmod] at hnonneg
    omega
  · have hnonneg := Int.tmod_nonneg (a := x) y (by omega)
    omega

/-- The quotient is cut off towards zero, and the remainder has the sign of the dividend. -/
theorem mwMpDiv_spec (ha : Represents a x) (hb : Represents b y) (hy : y ≠ 0)
    (hsize : b.used ≤ 2 ^ 27) (hpow : ShortPow y.natAbs) (q r : MwMpInt) :
    ∃ u, mwMpDiv a b q r = some (.ok u) ∧ Represents u.1 (x.tdiv y) ∧ Represents u.2 (x.tmod y) := by
  have hpos : 0 < y.natAbs := Int.natAbs_pos.mpr hy
  have hsigns := sign_eq_iff hb ha
  have hsplit := Int.mul_tdiv_add_tmod x y
  unfold mwMpDiv
  rw [if_neg (mwMpCmwMpZ_ne_eq hb.holds hpos), sMwMpCmp_eq ha.holds hb.holds]
  rcases Nat.lt_trichotomy x.natAbs y.natAbs with hlt | heq | hgt
  · have hzero : x.tdiv y = 0 := by
      rw [← Int.natAbs_eq_zero, Int.natAbs_tdiv]
      exact Nat.div_eq_of_lt hlt
    rw [hzero, Int.mul_zero, Int.zero_add] at hsplit
    rw [Nat.compare_eq_lt.mpr hlt, hzero, hsplit]
    exact ⟨_, rfl, represents_mwMpZero q, ha.copy r⟩
  · rw [Nat.compare_eq_eq.mpr heq]
    have hone := holds_mwMpSet q 1
    rcases Int.natAbs_eq_natAbs_iff.mp heq with rfl | rfl
    · refine ⟨_, rfl, ?_, ?_⟩
      · rw [Int.tdiv_self hy, if_neg (not_not.mpr (hsigns.mpr Iff.rfl))]
        exact ⟨hone, rfl⟩
      · rw [Int.tmod_self]
        exact represents_mwMpZero r
    · have hdiff : a.sign ≠ b.sign := by
        rw [Ne, hsigns]
        omega
      refine ⟨_, rfl, ?_, ?_⟩
      · rw [Int.neg_tdiv, Int.tdiv_self hy, if_pos hdiff]
        exact ⟨hone.of_digits rfl hone.clear, rfl⟩
      · rw [Int.neg_tmod, Int.tmod_self, Int.neg_zero]
        exact represents_mwMpZero r
  · rw [Nat.compare_eq_gt.mpr hgt]
    obtain ⟨u, hu, hquot, hrem⟩ :=
      holds_sMwMpDiv (holds_mwMpInitCopy ha.holds) (holds_mwMpInitCopy hb.holds) hpos
        (by rwa [used, digits_eq_of_holds (holds_mwMpInitCopy hb.holds) hb.holds]) hpow
    refine ⟨_, by rw [hu]; rfl, represents_zeroSign ?_ fun hne => ?_, represents_zeroSign ?_ fun hne => ?_⟩
    · rw [Int.natAbs_tdiv]
      exact hquot.of_digits rfl hquot.clear
    · simp only [hsigns, tdiv_neg_iff hne, ite_not]
    · rw [Int.natAbs_tmod]
      exact hrem.of_digits rfl hrem.clear
    · simp only [tmod_neg_iff hne]
      exact ha.sign

theorem Represents.sign_neg_iff (ha : Represents a x) : a.sign = .neg ↔ x < 0 := by
  rw [ha.sign]
  split <;> simp [*]

/-- A remainder with the sign of the dividend becomes the one that is not negative. -/
theorem addModulus_spec (ha : Represents a (x.tmod y)) (hm : Represents m y) (hy : 0 < y) {negative : Bool}
    (hneg : negative = true ↔ x.tmod y < 0) :
    ∃ r, addModulus a m negative = some (.ok r) ∧ Represents r (x % y) := by
  have hmod := Int.tmod_eq_emod (a := x) (b := y)
  have hlt := Int.emod_lt_of_pos x hy
  have hnonneg := Int.emod_nonneg x hy.ne'
  unfold addModulus
  cases negative with
  | true =>
    have hless := hneg.mp rfl
    obtain ⟨r, hr, hrep⟩ := mwMpAdd_spec ha hm .first
    refine ⟨r, by simp [hr], ?_⟩
    have hsum : x % y = x.tmod y + y := by
      split at hmod <;> omega
    rwa [hsum]
  | false =>
    have hge : ¬ x.tmod y < 0 := fun h => by simpa using hneg.mpr h
    refine ⟨a, by simp, ?_⟩
    have hsame : x % y = x.tmod y := by
      split at hmod <;> omega
    rwa [hsame]

/-- The remainder is never negative. -/
theorem mwMpMod_spec (ha : Represents a x) (hm : Represents m y) (hy : 0 < y)
    (hsize : m.used ≤ 2 ^ 27) (hpow : ShortPow y.natAbs) (c : MwMpInt) :
    ∃ r, mwMpMod a m c = some (.ok r) ∧ Represents r (x % y) := by
  unfold mwMpMod
  rw [if_neg (fun h => by have := hm.sign_neg_iff.mp h; omega), sMwMpCmp_eq ha.holds hm.holds]
  rcases Nat.lt_trichotomy x.natAbs y.natAbs with hlt | heq | hgt
  · have hsame : x.tmod y = x := by
      have hzero : x.tdiv y = 0 := by
        rw [← Int.natAbs_eq_zero, Int.natAbs_tdiv]
        exact Nat.div_eq_of_lt hlt
      have hsplit := Int.mul_tdiv_add_tmod x y
      rwa [hzero, Int.mul_zero, Int.zero_add] at hsplit
    have hcmp : mwMpCmwMpZ a = .lt ↔ x < 0 := by
      rw [← ha.sign_neg_iff]
      unfold mwMpCmwMpZ
      split
      case isTrue hneg => exact iff_of_true rfl hneg
      case isFalse hpos =>
        refine iff_of_false ?_ hpos
        split <;> simp
    rw [Nat.compare_eq_lt.mpr hlt]
    refine addModulus_spec ?_ hm hy ?_
    · rw [hsame]
      exact ha.copy c
    · rw [decide_eq_true_iff, hcmp, hsame]
  · rw [Nat.compare_eq_eq.mpr heq]
    refine ⟨_, rfl, ?_⟩
    have hzero : x % y = 0 := by
      rcases Int.natAbs_eq_natAbs_iff.mp heq with rfl | rfl <;> simp
    rw [hzero]
    exact represents_mwMpZero c
  · rw [Nat.compare_eq_gt.mpr hgt]
    obtain ⟨u, hu, -, hrem⟩ := mwMpDiv_spec ha hm hy.ne' hsize hpow mwMpInit c
    simp only [hu, ifOkay]
    refine addModulus_spec hrem hm hy ?_
    rw [decide_eq_true_iff, hrem.sign_neg_iff]

/-- Quotient and remainder belong to each other, and the remainder has the sign of the
dividend. An `int` counts the digits of the dividend and the bits of the divisor. -/
theorem mwMpDiv_euclid (ha : Represents a x) (_ : a.Indexed) (hb : Represents b y) (hy : y ≠ 0)
    (hsize : b.used ≤ 2 ^ 27) (hpow : ShortPow y.natAbs) (q r : MwMpInt) :
    ∃ u z w, mwMpDiv a b q r = some (.ok u) ∧ Represents u.1 z ∧ Represents u.2 w ∧ x = y * z + w ∧
      w.natAbs < y.natAbs ∧ (w ≠ 0 → (w < 0 ↔ x < 0)) := by
  obtain ⟨u, hu, hquot, hrem⟩ := mwMpDiv_spec ha hb hy hsize hpow q r
  refine ⟨u, _, _, hu, hquot, hrem, (Int.mul_tdiv_add_tmod x y).symm, ?_, tmod_neg_iff⟩
  rw [Int.natAbs_tmod]
  exact Nat.mod_lt _ (Int.natAbs_pos.mpr hy)

/-- A dividend and a divisor of two digits, the one negative and the other not -/
theorem mwMpDiv_euclid_neg :
    ∃ u z w, mwMpDiv { sign := .neg, digits := [7, 0, 9] } { digits := [3, 5] } mwMpInit mwMpInit =
        some (.ok u) ∧
      Represents u.1 z ∧ Represents u.2 w ∧ -38654705671 = 327683 * z + w ∧
      w.natAbs < (327683 : Int).natAbs ∧ (w ≠ 0 → (w < 0 ↔ (-38654705671 : Int) < 0)) :=
  mwMpDiv_euclid
    ⟨holds_mk _ (by decide) (by decide), rfl⟩ (by decide)
    ⟨holds_mk _ (by decide) (by decide), rfl⟩
    (by decide) (by decide) (shortPow_of_lt (by decide : 327683 < 2 ^ 32) (by decide)) mwMpInit mwMpInit

end

end Meanwhile.Mpi
