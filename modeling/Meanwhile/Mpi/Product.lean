-- SUMMARY: The multiplication and the squaring of mpi.c: row by row into a buffer that both numbers' digits fit.
import Meanwhile.Mpi.Digit
import Meanwhile.Lib.BigEndian

/-!
# Products

`s_mw_mp_mul` adds a row for each digit of the second number to a buffer with room for the
digits of both. A row ends with a digit that it writes and does not add to, and it may,
since nothing has reached that far before.

`s_mw_mp_sqr` takes each product of two different digits twice. That is one bit more than a
word has, and is looked after by hand. What a row carries out at its end then goes up one
at a time, for which the carry must not be more than one. It is not, because what has been
added up so far is at most twice the number that is left.
-/

namespace Meanwhile.Mpi

open MwMpInt

/-! ## Multiplication -/

/-- A row of `s_mw_mp_mul`: a digit of `b` times the digits of `a` -/
def mulRow (b : MwMpDigit) : List MwMpDigit → List MwMpDigit → MwMpWord → Option (List MwMpDigit)
  | [], _ :: ts, k => some (k.toUInt16 :: ts)
  | a :: as, t :: ts, k =>
      let w := b.toUInt32 * a.toUInt32 + k + t.toUInt32
      (mulRow b as ts (carryout w)).map (accum w :: ·)
  | _, [], _ => none

/-- A zero digit of `b` has no row. -/
def mulDigit (as : List MwMpDigit) (b : MwMpDigit) (ts : List MwMpDigit) : Option (List MwMpDigit) :=
  if b = 0 then some ts else mulRow b as ts 0

/-- The rows, each of them one digit further up -/
def mulRows (as : List MwMpDigit) : List MwMpDigit → List MwMpDigit → Option (List MwMpDigit)
  | [], ts => some ts
  | b :: bs, ts =>
      match mulDigit as b ts with
      | some (t :: ts) => (mulRows as bs ts).map (t :: ·)
      | _ => none

/-- `s_mw_mp_mul` -/
def sMwMpMul (a b : MwMpInt) : Option MwMpInt := do
  let ts ← mulRows a.digits b.digits (List.replicate (a.used + b.used) 0)
  return sMwMpClamp { digits := ts }

section

variable {a b : MwMpInt} {m n : Nat}

theorem mulRow_toNat (b a t : MwMpDigit) {k : MwMpWord} (hk : k.toNat < 65536) :
    (b.toUInt32 * a.toUInt32 + k + t.toUInt32).toNat = b.toNat * a.toNat + k.toNat + t.toNat ∧
      b.toNat * a.toNat + k.toNat + t.toNat < 65536 * 65536 := by
  have hprod : b.toNat * a.toNat ≤ 65535 * 65535 :=
    Nat.mul_le_mul (Nat.le_of_lt_succ (digit_lt b)) (Nat.le_of_lt_succ (digit_lt a))
  have ht := digit_lt t
  rw [UInt32.toNat_add, mul_toNat b a hk, UInt16.toNat_toUInt32]
  omega

/-- A row, where the buffer does not reach above the digits of the first number -/
theorem mulRow_spec (b : MwMpDigit) {as ts : List MwMpDigit} (hlength : as.length < ts.length)
    (hvalue : value ts < 65536 ^ as.length) {k : MwMpWord} (hk : k.toNat < 65536) :
    ∃ ts', mulRow b as ts k = some ts' ∧ ts'.length = ts.length ∧
      value ts' = value ts + b.toNat * value as + k.toNat := by
  induction as generalizing ts k with
  | nil =>
    cases ts with
    | nil => cases hlength
    | cons t ts =>
      rw [List.length_nil, Nat.pow_zero, value_cons] at hvalue
      refine ⟨_, rfl, rfl, ?_⟩
      rw [value_cons, value_cons, UInt32.toNat_toUInt16, Nat.mod_eq_of_lt hk, value_nil]
      omega
  | cons a as ih =>
    cases ts with
    | nil => cases hlength
    | cons t ts =>
      obtain ⟨hw, hlt⟩ := mulRow_toNat b a t hk
      have hcarry : (carryout (b.toUInt32 * a.toUInt32 + k + t.toUInt32)).toNat < 65536 := by
        rw [carryout_toNat, hw]
        omega
      rw [value_cons, List.length_cons, Nat.pow_succ] at hvalue
      obtain ⟨ts', hrun, hlength', hvalue'⟩ := ih (Nat.lt_of_succ_lt_succ hlength) (by omega) hcarry
      refine ⟨_, by rw [mulRow, hrun]; rfl, by rw [List.length_cons, List.length_cons, hlength'], ?_⟩
      have hup : b.toNat * (65536 * value as) = 65536 * (b.toNat * value as) :=
        Nat.mul_left_comm b.toNat 65536 (value as)
      rw [value_cons, value_cons, value_cons, accum_toNat, hvalue', carryout_toNat, hw,
        Nat.mul_add b.toNat, hup]
      omega

theorem mulDigit_spec (b : MwMpDigit) {as ts : List MwMpDigit} (hlength : as.length < ts.length)
    (hvalue : value ts < 65536 ^ as.length) :
    ∃ ts', mulDigit as b ts = some ts' ∧ ts'.length = ts.length ∧
      value ts' = value ts + b.toNat * value as := by
  unfold mulDigit
  split
  case isTrue hzero => exact ⟨ts, rfl, rfl, by simp [hzero]⟩
  case isFalse => exact mulRow_spec b hlength hvalue (by decide : (0 : MwMpWord).toNat < 65536)

theorem mulRows_spec {as bs ts : List MwMpDigit} (hlength : as.length + bs.length ≤ ts.length)
    (hvalue : value ts < 65536 ^ as.length) :
    ∃ ts', mulRows as bs ts = some ts' ∧ ts'.length = ts.length ∧
      value ts' = value ts + value bs * value as := by
  induction bs generalizing ts with
  | nil => exact ⟨ts, rfl, rfl, by simp⟩
  | cons b bs ih =>
    rw [List.length_cons] at hlength
    have hb := digit_lt b
    obtain ⟨ts1, hrun, hlength1, hvalue1⟩ := mulDigit_spec b (by omega : as.length < ts.length) hvalue
    cases ts1 with
    | nil =>
      rw [← hlength1] at hlength
      cases hlength
    | cons t ts1 =>
      rw [List.length_cons] at hlength1
      rw [value_cons] at hvalue1
      -- one digit further up, the buffer is as short as it was
      have hbelow : value ts1 < 65536 ^ as.length := by
        have hlow := value_lt as
        have hpos : 0 < 65536 ^ as.length := Nat.pow_pos (by decide)
        have hprod : b.toNat * value as ≤ 65535 * (65536 ^ as.length - 1) :=
          Nat.mul_le_mul (by omega) (by omega)
        omega
      obtain ⟨ts', hrest, hlength', hvalue'⟩ := ih (by omega) hbelow
      refine ⟨t :: ts', ?_, by rw [List.length_cons, hlength', hlength1], ?_⟩
      · simp only [mulRows, hrun, hrest, Option.map_some]
      · rw [value_cons, value_cons, hvalue', Nat.mul_add, Nat.add_mul, Nat.mul_assoc]
        omega

theorem holds_sMwMpMul (ha : a.Holds n) (hb : b.Holds m) :
    ∃ r, sMwMpMul a b = some r ∧ r.Holds (n * m) ∧ r.sign = .zpos := by
  have hroom : a.digits.length + b.digits.length ≤
      (List.replicate (a.used + b.used) (0 : MwMpDigit)).length :=
    Nat.le_of_eq List.length_replicate.symm
  have hzero := (isClear_replicate (a.used + b.used)).value_eq
  obtain ⟨ts, hrun, hlength, hvalue⟩ := mulRows_spec hroom
    (by rw [hzero]; exact Nat.pow_pos (by decide))
  have hne : ts ≠ [] := by
    refine List.length_pos_iff.mp ?_
    rw [hlength, List.length_replicate]
    exact Nat.add_pos_left ha.used_pos _
  have hclear : IsClear [] := by simp [IsClear]
  refine ⟨_, by rw [sMwMpMul, hrun]; rfl, holds_sMwMpClamp ⟨hne, hclear⟩ ?_, sMwMpClamp_zpos rfl⟩
  rw [hzero, Nat.zero_add, show value b.digits = m from hb.abs_eq, show value a.digits = n from ha.abs_eq,
    Nat.mul_comm] at hvalue
  exact hvalue

end

/-! ## Squaring -/

/-- The carry that goes up at the end of a row, one at a time. The buffer ends before it does
in `none`. -/
def bump : List MwMpDigit → MwMpWord → Option (List MwMpDigit)
  | [], k => if k = 0 then some [] else none
  | t :: ts, k =>
      if k = 0 then some (t :: ts)
      else (bump ts (carryout (t.toUInt32 + 1))).map (accum (t.toUInt32 + 1) :: ·)

/-- One more bit than a word has: the digit and the carry of `t + 2 * a * b + k` -/
def sqrStep (a b t : MwMpDigit) (k : MwMpWord) : MwMpDigit × MwMpWord :=
  let w := a.toUInt32 * b.toUInt32
  let u := (w >>> 31) &&& 1
  let w := w * 2
  let v := t.toUInt32 + k
  let u := u ||| if 0xffffffff - v < w then 1 else 0
  let w := w + v
  (accum w, carryout w ||| u <<< 16)

/-- The products of a digit with the ones after it -/
def sqrRow (a : MwMpDigit) : List MwMpDigit → List MwMpDigit → MwMpWord → Option (List MwMpDigit)
  | [], t :: ts, k =>
      let k := t.toUInt32 + k
      (bump ts (carryout k)).map (accum k :: ·)
  | b :: bs, t :: ts, k =>
      let r := sqrStep a b t k
      (sqrRow a bs ts r.2).map (r.1 :: ·)
  | _, [], _ => none

/-- The row of a digit, which starts with its square -/
def sqrDigit (a : MwMpDigit) (as : List MwMpDigit) : List MwMpDigit → Option (List MwMpDigit)
  | [] => none
  | t :: ts =>
      if a = 0 then some (t :: ts)
      else
        let w := t.toUInt32 + a.toUInt32 * a.toUInt32
        (sqrRow a as ts (carryout w)).map (accum w :: ·)

/-- The rows, each of them two digits further up -/
def sqrRows : List MwMpDigit → List MwMpDigit → Option (List MwMpDigit)
  | [], ts => some ts
  | a :: as, ts =>
      match sqrDigit a as ts with
      | some (t :: t' :: ts) => (sqrRows as ts).map (t :: t' :: ·)
      | _ => none

/-- `s_mw_mp_sqr`, where `*pa1 * *pa2` wraps around in an `int`. That is more than C says of it:
the bit that is looked after by hand is the sign of that `int`. -/
def sMwMpSqr (a : MwMpInt) : Option MwMpInt := do
  let ts ← sqrRows a.digits (List.replicate (2 * a.used) 0)
  return sMwMpClamp { digits := ts }

section

theorem bump_spec {ts : List MwMpDigit} {k : MwMpWord} (hk : k.toNat ≤ 1)
    (hfits : value ts + k.toNat < 65536 ^ ts.length) :
    ∃ ts', bump ts k = some ts' ∧ ts'.length = ts.length ∧ value ts' = value ts + k.toNat := by
  induction ts generalizing k with
  | nil =>
    have hzero : k = 0 := by
      rw [value_nil, List.length_nil, Nat.pow_zero] at hfits
      exact UInt32.toNat_inj.mp (by rw [UInt32.toNat_zero]; omega)
    exact ⟨[], by simp [bump, hzero], rfl, by simp [hzero]⟩
  | cons t ts ih =>
    by_cases hzero : k = 0
    · exact ⟨t :: ts, by simp [bump, hzero], rfl, by simp [hzero]⟩
    · have hone : k.toNat = 1 := by
        have : k.toNat ≠ 0 := fun h => hzero (UInt32.toNat_inj.mp h)
        omega
      have ht := digit_lt t
      have hw := add_toNat (a := t) (k := 1) (by decide)
      rw [UInt32.toNat_one] at hw
      have hcarry : (carryout (t.toUInt32 + 1)).toNat ≤ 1 := by
        rw [carryout_toNat, hw]
        omega
      rw [value_cons, List.length_cons, Nat.pow_succ, hone] at hfits
      obtain ⟨ts', hrun, hlength, hvalue⟩ := ih hcarry (by rw [carryout_toNat, hw]; omega)
      refine ⟨_, by rw [bump, if_neg hzero, hrun]; rfl, by simp [hlength], ?_⟩
      rw [value_cons, value_cons, accum_toNat, hvalue, carryout_toNat, hw, hone]
      omega

/-- The bit that does not fit into a word is the one that is added to the carry. -/
theorem sqrStep_spec (a b t : MwMpDigit) {k : MwMpWord} (hk : k.toNat < 131072) :
    (sqrStep a b t k).1.toNat + 65536 * (sqrStep a b t k).2.toNat =
        t.toNat + 2 * (a.toNat * b.toNat) + k.toNat ∧
      (sqrStep a b t k).2.toNat < 131072 := by
  have ha := digit_lt a
  have hb := digit_lt b
  have ht := digit_lt t
  have hprod : a.toNat * b.toNat ≤ 65535 * 65535 := Nat.mul_le_mul (by omega) (by omega)
  have hw : (a.toUInt32 * b.toUInt32).toNat = a.toNat * b.toNat := by
    simpa using mul_toNat a b (by decide : (0 : MwMpWord).toNat < 65536)
  have hv : (t.toUInt32 + k).toNat = t.toNat + k.toNat := by
    rw [UInt32.toNat_add, UInt16.toNat_toUInt32]
    omega
  unfold sqrStep
  dsimp only
  generalize a.toUInt32 * b.toUInt32 = w at hw ⊢
  generalize t.toUInt32 + k = v at hv ⊢
  generalize a.toNat * b.toNat = p at hprod hw ⊢
  have htop : ((w >>> 31) &&& 1).toNat = p / 2 ^ 31 := by
    rw [UInt32.toNat_and, UInt32.toNat_shiftRight, hw, UInt32.toNat_one, Nat.and_one_is_mod,
      show (31 : MwMpWord).toNat % 32 = 31 from rfl, Nat.shiftRight_eq_div_pow]
    omega
  have hdouble : (w * 2).toNat = 2 * p % 2 ^ 32 := by
    rw [UInt32.toNat_mul, hw, show (2 : MwMpWord).toNat = 2 from rfl, Nat.mul_comm]
  have hover : (0xffffffff - v < w * 2) ↔ 2 ^ 32 ≤ 2 * p % 2 ^ 32 + (t.toNat + k.toNat) := by
    have hmax : (0xffffffff - v).toNat = 2 ^ 32 - 1 - v.toNat :=
      UInt32.toNat_sub_of_le _ _ (UInt32.le_iff_toNat_le.mpr (Nat.le_of_lt_succ v.toNat_lt))
    rw [UInt32.lt_iff_toNat_lt, hmax, hdouble, hv]
    omega
  have hsum : (w * 2 + v).toNat = (2 * p % 2 ^ 32 + (t.toNat + k.toNat)) % 2 ^ 32 := by
    rw [UInt32.toNat_add, hdouble, hv]
  have hbit : (((w >>> 31) &&& 1) ||| if 0xffffffff - v < w * 2 then 1 else 0 : MwMpWord).toNat =
      (2 * p + t.toNat + k.toNat) / 2 ^ 32 := by
    rw [UInt32.toNat_or, htop]
    by_cases hcarry : 0xffffffff - v < w * 2
    · -- the two bits are not both set
      have hzero : p / 2 ^ 31 = 0 := by
        have := hover.mp hcarry
        omega
      rw [if_pos hcarry, hzero, UInt32.toNat_one, Nat.zero_or]
      have := hover.mp hcarry
      omega
    · rw [if_neg hcarry, UInt32.toNat_zero, Nat.or_zero]
      have := mt hover.mpr hcarry
      omega
  generalize (((w >>> 31) &&& 1) ||| if 0xffffffff - v < w * 2 then 1 else 0 : MwMpWord) = u at hbit ⊢
  have hu : u.toNat ≤ 1 := by omega
  have hshift : (u <<< 16).toNat = u.toNat <<< 16 := by
    rw [UInt32.toNat_shiftLeft, show (16 : MwMpWord).toNat % 32 = 16 from rfl]
    refine Nat.mod_eq_of_lt ?_
    rw [Nat.shiftLeft_eq]
    omega
  have hcarry : (carryout (w * 2 + v) ||| u <<< 16).toNat =
      u.toNat * 65536 + (w * 2 + v).toNat / 65536 := by
    have hlt : (w * 2 + v).toNat / 65536 < 2 ^ 16 := by
      have := (w * 2 + v).toNat_lt
      omega
    rw [UInt32.toNat_or, hshift, carryout_toNat, Nat.or_comm, BigEndian.shiftLeft_or hlt]
    rfl
  rw [accum_toNat, hcarry, hsum, hbit]
  omega

/-- A row, where what it adds up to has one bit more than the digits it has a word for -/
theorem sqrRow_spec (a : MwMpDigit) {as ts : List MwMpDigit} {k : MwMpWord} (hk : k.toNat < 131072)
    (hrow : value ts + 2 * (a.toNat * value as) + k.toNat < 2 * 65536 ^ (as.length + 1))
    (hlength : as.length < ts.length)
    (hfits : value ts + 2 * (a.toNat * value as) + k.toNat < 65536 ^ ts.length) :
    ∃ ts', sqrRow a as ts k = some ts' ∧ ts'.length = ts.length ∧
      value ts' = value ts + 2 * (a.toNat * value as) + k.toNat := by
  induction as generalizing ts k with
  | nil =>
    cases ts with
    | nil => cases hlength
    | cons t ts =>
      rw [value_nil, Nat.mul_zero, Nat.mul_zero, Nat.add_zero] at hrow hfits ⊢
      rw [List.length_nil, Nat.zero_add, Nat.pow_one, value_cons] at hrow
      rw [List.length_cons, Nat.pow_succ, value_cons] at hfits
      have hsum : (t.toUInt32 + k).toNat = t.toNat + k.toNat := by
        have := digit_lt t
        rw [UInt32.toNat_add, UInt16.toNat_toUInt32]
        omega
      have hcarry : (carryout (t.toUInt32 + k)).toNat ≤ 1 := by
        rw [carryout_toNat, hsum]
        omega
      obtain ⟨ts', hrun, hlength', hvalue⟩ := bump_spec hcarry
        (by rw [carryout_toNat, hsum]; omega : value ts + _ < 65536 ^ ts.length)
      refine ⟨_, by rw [sqrRow, hrun]; rfl, by simp [hlength'], ?_⟩
      rw [value_cons, value_cons, accum_toNat, hvalue, carryout_toNat, hsum]
      omega
  | cons b bs ih =>
    cases ts with
    | nil => cases hlength
    | cons t ts =>
      obtain ⟨hdigit, hcarry⟩ := sqrStep_spec a b t hk
      have hprod : a.toNat * value (b :: bs) = a.toNat * b.toNat + 65536 * (a.toNat * value bs) := by
        rw [value_cons, Nat.mul_add, Nat.mul_left_comm a.toNat 65536]
      rw [hprod, value_cons] at hrow hfits
      rw [List.length_cons, Nat.pow_succ] at hrow
      rw [show (t :: ts).length = ts.length + 1 from rfl, Nat.pow_succ] at hfits
      obtain ⟨ts', hrun, hlength', hvalue⟩ := ih hcarry (by omega) (Nat.lt_of_succ_lt_succ hlength)
        (by omega)
      refine ⟨_, by rw [sqrRow, hrun]; rfl, by simp [hlength'], ?_⟩
      rw [value_cons, value_cons, hvalue, hprod]
      omega

/-- What has been added up is at most twice what is left of the number. With the square of
what is left it fits into twice as many digits. -/
theorem double_add_sq_lt {as ts : List MwMpDigit} (hdouble : value ts ≤ 2 * value as)
    (hlength : ts.length = 2 * as.length) : value ts + value as * value as < 65536 ^ ts.length := by
  have hlt := value_lt as
  have hsq : (value as + 1) * (value as + 1) ≤ 65536 ^ as.length * 65536 ^ as.length :=
    Nat.mul_le_mul hlt hlt
  have hexpand : (value as + 1) * (value as + 1) = value as * value as + 2 * value as + 1 := by ring
  rw [hlength, Nat.two_mul, Nat.pow_add]
  omega

theorem sqrDigit_spec {a : MwMpDigit} {as ts : List MwMpDigit}
    (hdouble : value ts ≤ 2 * value (a :: as)) (hlength : ts.length = 2 * (as.length + 1)) :
    ∃ ts', sqrDigit a as ts = some ts' ∧ ts'.length = ts.length ∧
      value ts' = value ts + a.toNat * a.toNat + 2 * (65536 * (a.toNat * value as)) := by
  have hfits := double_add_sq_lt hdouble hlength
  cases ts with
  | nil =>
    rw [List.length_nil] at hlength
    omega
  | cons t ts =>
    by_cases hzero : a = 0
    · exact ⟨t :: ts, by rw [sqrDigit, if_pos hzero], rfl, by simp [hzero]⟩
    · have ha := digit_lt a
      have hlow := value_lt as
      have hsq : a.toNat * a.toNat ≤ 65535 * a.toNat := Nat.mul_le_mul_right _ (by omega)
      have hrow : a.toNat * value as ≤ 65535 * value as := Nat.mul_le_mul_right _ (by omega)
      obtain ⟨hw, hlt⟩ : (t.toUInt32 + a.toUInt32 * a.toUInt32).toNat = t.toNat + a.toNat * a.toNat ∧
          t.toNat + a.toNat * a.toNat < 65536 * 65536 := by
        have := mulRow_toNat a a t (by decide : (0 : MwMpWord).toNat < 65536)
        rw [UInt32.add_zero, UInt32.add_comm, UInt32.toNat_zero] at this
        omega
      have hsquare : value (a :: as) * value (a :: as) =
          a.toNat * a.toNat + 2 * (65536 * (a.toNat * value as)) +
            65536 * 65536 * (value as * value as) := by
        rw [value_cons]
        ring
      rw [hsquare, value_cons, List.length_cons, Nat.pow_succ] at hfits
      rw [value_cons, value_cons] at hdouble
      have hcarry : (carryout (t.toUInt32 + a.toUInt32 * a.toUInt32)).toNat =
          (t.toNat + a.toNat * a.toNat) / 65536 := by rw [carryout_toNat, hw]
      generalize hk : carryout (t.toUInt32 + a.toUInt32 * a.toUInt32) = k at hcarry
      have hbound : value ts + 2 * (a.toNat * value as) + k.toNat < 2 * 65536 ^ (as.length + 1) := by
        rw [Nat.pow_succ]
        omega
      rw [List.length_cons] at hlength
      obtain ⟨ts', hrun, hlength', hvalue⟩ := sqrRow_spec a (by omega) hbound (by omega) (by omega)
      refine ⟨_, by simp only [sqrDigit, if_neg hzero, hk, hrun]; rfl,
        by simp [hlength'], ?_⟩
      rw [value_cons, value_cons, accum_toNat, hvalue, hcarry, hw]
      omega

theorem sqrRows_spec {as ts : List MwMpDigit} (hdouble : value ts ≤ 2 * value as)
    (hlength : ts.length = 2 * as.length) :
    ∃ ts', sqrRows as ts = some ts' ∧ ts'.length = ts.length ∧
      value ts' = value ts + value as * value as := by
  induction as generalizing ts with
  | nil => exact ⟨ts, rfl, rfl, by simp⟩
  | cons a as ih =>
    obtain ⟨ts1, hrun, hlength1, hvalue1⟩ := sqrDigit_spec hdouble hlength
    rw [hlength, List.length_cons] at hlength1
    cases ts1 with
    | nil => cases hlength1
    | cons t ts1 =>
      cases ts1 with
      | nil => cases hlength1
      | cons t' ts1 =>
        have ha := digit_lt a
        have hsq : a.toNat * a.toNat ≤ 65535 * a.toNat := Nat.mul_le_mul_right _ (by omega)
        have hrow : a.toNat * value as ≤ 65535 * value as := Nat.mul_le_mul_right _ (by omega)
        have hsquare : value (a :: as) * value (a :: as) =
            a.toNat * a.toNat + 2 * (65536 * (a.toNat * value as)) +
              65536 * 65536 * (value as * value as) := by
          rw [value_cons]
          ring
        rw [value_cons a] at hdouble
        rw [value_cons, value_cons] at hvalue1
        rw [List.length_cons, List.length_cons] at hlength1
        have hrest : value ts1 ≤ 2 * value as := by omega
        obtain ⟨ts', hrun', hlength', hvalue'⟩ := ih hrest (by omega)
        refine ⟨t :: t' :: ts', by simp only [sqrRows, hrun, hrun', Option.map_some], ?_, ?_⟩
        · rw [List.length_cons, List.length_cons, hlength', hlength, List.length_cons]
          omega
        · rw [value_cons, value_cons, hvalue', hsquare]
          omega

theorem holds_sMwMpSqr {a : MwMpInt} {n : Nat} (ha : a.Holds n) :
    ∃ r, sMwMpSqr a = some r ∧ r.Holds (n * n) ∧ r.sign = .zpos := by
  have hzero := (isClear_replicate (2 * a.used)).value_eq
  have hroom : (List.replicate (2 * a.used) (0 : MwMpDigit)).length = 2 * a.digits.length :=
    List.length_replicate
  obtain ⟨ts, hrun, hlength, hvalue⟩ := sqrRows_spec (by rw [hzero]; exact Nat.zero_le _) hroom
  have hne : ts ≠ [] := by
    refine List.length_pos_iff.mp ?_
    rw [hlength, List.length_replicate]
    exact Nat.mul_pos (by decide) ha.used_pos
  have hclear : IsClear [] := by simp [IsClear]
  refine ⟨_, by rw [sMwMpSqr, hrun]; rfl, holds_sMwMpClamp ⟨hne, hclear⟩ ?_, sMwMpClamp_zpos rfl⟩
  rw [hzero, Nat.zero_add, show value a.digits = n from ha.abs_eq] at hvalue
  exact hvalue

/-- The square is the product of a number with itself, digit for digit, where `int`s wrap around. -/
theorem sMwMpSqr_eq_sMwMpMul {a : MwMpInt} {n : Nat} (ha : a.Holds n) :
    ∃ r r', sMwMpSqr a = some r ∧ sMwMpMul a a = some r' ∧ r.digits = r'.digits ∧ r.Holds (n * n) := by
  obtain ⟨r, hr, hholds, -⟩ := holds_sMwMpSqr ha
  obtain ⟨r', hr', hholds', -⟩ := holds_sMwMpMul ha ha
  exact ⟨r, r', hr, hr', digits_eq_of_holds hholds hholds', hholds⟩

/-- The doubled products of the largest digits do not fit into a word. -/
theorem sMwMpSqr_eq_sMwMpMul_ffff :
    ∃ r r', sMwMpSqr { digits := [0xffff, 0xffff, 0xffff] } = some r ∧
      sMwMpMul { digits := [0xffff, 0xffff, 0xffff] } { digits := [0xffff, 0xffff, 0xffff] } = some r' ∧
      r.digits = r'.digits ∧ r.Holds (281474976710655 * 281474976710655) :=
  sMwMpSqr_eq_sMwMpMul
    (holds_mk _ (by decide) (by decide))

end

end Meanwhile.Mpi
