-- SUMMARY: Sums and differences of mpi.c, of magnitudes and of signed numbers, for every choice of the number that receives the result.
import Meanwhile.Mpi.Digit

/-!
# Sums and differences

`s_mw_mp_add` and `s_mw_mp_sub` work on magnitudes in place. `mw_mp_add` and `mw_mp_sub`
choose between them by the signs, and take a temporary when the number that receives the
result is the one that is still needed.
-/

namespace Meanwhile.Mpi

open MwMpInt

/-! ## Magnitudes -/

/-- The loops of `s_mw_mp_add`: over the digits of both, then of what is left of the first -/
def addDigits : List MwMpDigit → List MwMpDigit → MwMpWord → List MwMpDigit × MwMpWord
  | as, [], w => carryDigits as w
  | [], _ :: _, w => ([], w)
  | a :: as, b :: bs, w =>
      let w := w + (a.toUInt32 + b.toUInt32)
      let r := addDigits as bs (carryout w)
      (accum w :: r.1, r.2)

/-- `s_mw_mp_add` -/
def sMwMpAdd (a b : MwMpInt) : MwMpInt :=
  let a := sMwMpPad a b.used
  let r := addDigits a.digits b.digits 0
  putCarry { a with digits := r.1 } r.2

/-- The second loop of `s_mw_mp_sub` -/
def subBorrow : List MwMpDigit → MwMpWord → List MwMpDigit × MwMpWord
  | [], w => ([], w)
  | a :: as, w =>
      let w := 65536 + a.toUInt32 - w
      let r := subBorrow as (if carryout w ≠ 0 then 0 else 1)
      (accum w :: r.1, r.2)

/-- The loops of `s_mw_mp_sub` -/
def subDigits : List MwMpDigit → List MwMpDigit → MwMpWord → List MwMpDigit × MwMpWord
  | as, [], w => subBorrow as w
  | [], _ :: _, w => ([], w)
  | a :: as, b :: bs, w =>
      let w := 65536 + a.toUInt32 - w - b.toUInt32
      let r := subDigits as bs (if carryout w ≠ 0 then 0 else 1)
      (accum w :: r.1, r.2)

/-- `s_mw_mp_sub`, with whether it is `MP_RANGE` that it returns. With more digits in the
second number it goes on past those of the first: `none`. -/
def sMwMpSub (a b : MwMpInt) : Option (MwMpInt × Bool) :=
  if b.used ≤ a.used then
    let r := subDigits a.digits b.digits 0
    some (sMwMpClamp { a with digits := r.1 }, decide (r.2 ≠ 0))
  else none

section

variable {a b : MwMpInt} {m n : Nat}

theorem addDigits_length {as bs : List MwMpDigit} (hle : bs.length ≤ as.length) (w : MwMpWord) :
    (addDigits as bs w).1.length = as.length := by
  fun_induction addDigits as bs w with
  | case1 as w => exact carryDigits_length as w
  | case2 => cases hle
  | case3 a as b bs w w' r ih =>
    rw [List.length_cons, List.length_cons]
    exact congrArg (· + 1) (ih (Nat.le_of_succ_le_succ hle))

theorem addDigits_spec {as bs : List MwMpDigit} (hle : bs.length ≤ as.length) {w : MwMpWord}
    (hw : w.toNat ≤ 1) :
    value (addDigits as bs w).1 + 65536 ^ as.length * (addDigits as bs w).2.toNat =
        value as + value bs + w.toNat ∧
      (addDigits as bs w).2.toNat < 65536 := by
  fun_induction addDigits as bs w with
  | case1 as w => simpa using carryDigits_spec as (by omega)
  | case2 => cases hle
  | case3 a as b bs w w' r ih =>
    have ha := digit_lt a
    have hb := digit_lt b
    have hw' : w'.toNat = w.toNat + (a.toNat + b.toNat) := by
      rw [UInt32.toNat_add, UInt32.toNat_add, UInt16.toNat_toUInt32, UInt16.toNat_toUInt32]
      omega
    have hcarry : (carryout w').toNat ≤ 1 := by
      rw [carryout_toNat, hw']
      omega
    have hrest := ih (Nat.le_of_succ_le_succ hle) hcarry
    have hvalue : value r.1 + 65536 ^ as.length * r.2.toNat =
        value as + value bs + (carryout w').toNat := hrest.1
    refine ⟨?_, hrest.2⟩
    rw [carryout_toNat, hw'] at hvalue
    rw [value_cons, value_cons, value_cons, List.length_cons, accum_toNat, hw', Nat.pow_succ,
      show 65536 ^ as.length * 65536 * r.2.toNat = 65536 * (65536 ^ as.length * r.2.toNat) by ring]
    omega

theorem holds_sMwMpAdd (ha : a.Holds n) (hb : b.Holds m) : (sMwMpAdd a b).Holds (n + m) := by
  have hwf := sMwMpPad_wf ha.toWf b.used
  have hused := sMwMpPad_used ha.toWf b.used
  have habs := (sMwMpPad_abs ha.toWf b.used).trans ha.abs_eq
  unfold sMwMpAdd
  generalize sMwMpPad a b.used = padded at hwf hused habs ⊢
  have hle : b.digits.length ≤ padded.digits.length := hused.trans_ge (Nat.le_max_right a.used b.used)
  obtain ⟨hvalue, hlt⟩ := addDigits_spec hle (by decide : (0 : MwMpWord).toNat ≤ 1)
  have hlength := addDigits_length hle 0
  rw [UInt32.toNat_zero, Nat.add_zero, show value padded.digits = n from habs,
    show value b.digits = m from hb.abs_eq] at hvalue
  have hwf' : Wf { padded with digits := (addDigits padded.digits b.digits 0).1 } :=
    ⟨List.length_pos_iff.mp (hlength.trans_gt hwf.used_pos), hwf.clear⟩
  refine holds_putCarry hwf' hlt ?_ ?_
  · rw [← hvalue, used, hlength]
    rfl
  · intro hmany hzero
    rw [used, hlength, ← used, hused] at hmany ⊢
    rw [hzero, UInt32.toNat_zero, Nat.mul_zero, Nat.add_zero] at hvalue
    rw [MwMpInt.abs, hvalue]
    -- the longer of the two needs all of its digits
    rcases Nat.le_total a.used b.used with hshort | hlong
    · rw [Nat.max_eq_right hshort] at hmany ⊢
      exact (hb.le hmany).trans (Nat.le_add_left _ _)
    · rw [Nat.max_eq_left hlong] at hmany ⊢
      exact (ha.le hmany).trans (Nat.le_add_right _ _)

theorem sMwMpAdd_sign (a b : MwMpInt) : (sMwMpAdd a b).sign = a.sign :=
  (putCarry_sign _ _).trans (sMwMpPad_sign a b.used)

/-- The digit and the borrow of one step -/
theorem borrow_spec (a b : MwMpDigit) {w : MwMpWord} (hw : w.toNat ≤ 1) :
    (accum (65536 + a.toUInt32 - w - b.toUInt32)).toNat + b.toNat + w.toNat =
        a.toNat + 65536 * (if carryout (65536 + a.toUInt32 - w - b.toUInt32) ≠ 0 then 0 else 1 :
          MwMpWord).toNat ∧
      (if carryout (65536 + a.toUInt32 - w - b.toUInt32) ≠ 0 then 0 else 1 : MwMpWord).toNat ≤ 1 := by
  have ha := digit_lt a
  have hb := digit_lt b
  have hdiff : (65536 + a.toUInt32 - w - b.toUInt32).toNat = 65536 + a.toNat - w.toNat - b.toNat := by
    have hlit : (65536 : MwMpWord).toNat = 65536 := rfl
    rw [UInt32.toNat_sub, UInt32.toNat_sub, UInt32.toNat_add, UInt16.toNat_toUInt32,
      UInt16.toNat_toUInt32, hlit]
    omega
  have hcarry : carryout (65536 + a.toUInt32 - w - b.toUInt32) ≠ 0 ↔
      65536 ≤ 65536 + a.toNat - w.toNat - b.toNat := by
    rw [Ne, ← UInt32.toNat_inj, carryout_toNat, hdiff, UInt32.toNat_zero]
    omega
  rw [accum_toNat, hdiff]
  split
  case isTrue h =>
    have := hcarry.mp h
    rw [UInt32.toNat_zero]
    omega
  case isFalse h =>
    have := mt hcarry.mpr h
    rw [UInt32.toNat_one]
    omega

theorem subBorrow_length (as : List MwMpDigit) (w : MwMpWord) :
    (subBorrow as w).1.length = as.length := by
  induction as generalizing w with
  | nil => rfl
  | cons a as ih => simp [subBorrow, ih]

theorem subDigits_length {as bs : List MwMpDigit} (hle : bs.length ≤ as.length) (w : MwMpWord) :
    (subDigits as bs w).1.length = as.length := by
  fun_induction subDigits as bs w with
  | case1 as w => exact subBorrow_length as w
  | case2 => cases hle
  | case3 a as b bs w w' r ih =>
    rw [List.length_cons, List.length_cons]
    exact congrArg (· + 1) (ih (Nat.le_of_succ_le_succ hle))

theorem subBorrow_spec (as : List MwMpDigit) {w : MwMpWord} (hw : w.toNat ≤ 1) :
    value (subBorrow as w).1 + w.toNat = value as + 65536 ^ as.length * (subBorrow as w).2.toNat ∧
      (subBorrow as w).2.toNat ≤ 1 := by
  induction as generalizing w with
  | nil => simpa [subBorrow] using hw
  | cons a as ih =>
    have hstep := borrow_spec a 0 hw
    rw [show ∀ x : MwMpWord, x - (0 : MwMpDigit).toUInt32 = x by simp, UInt16.toNat_zero, Nat.add_zero]
      at hstep
    obtain ⟨hdigit, hborrow⟩ := hstep
    obtain ⟨hvalue, hle⟩ := ih hborrow
    refine ⟨?_, hle⟩
    simp only [subBorrow, value_cons, List.length_cons, Nat.pow_succ]
    have hexp : ∀ k : Nat, 65536 ^ as.length * 65536 * k = 65536 * (65536 ^ as.length * k) := by
      intro k
      ring
    rw [hexp]
    omega

theorem subDigits_spec {as bs : List MwMpDigit} (hle : bs.length ≤ as.length) {w : MwMpWord}
    (hw : w.toNat ≤ 1) :
    value (subDigits as bs w).1 + value bs + w.toNat =
      value as + 65536 ^ as.length * (subDigits as bs w).2.toNat := by
  fun_induction subDigits as bs w with
  | case1 as w => simpa using (subBorrow_spec as hw).1
  | case2 => cases hle
  | case3 a as b bs w w' r ih =>
    obtain ⟨hdigit, hborrow⟩ := borrow_spec a b hw
    have hvalue : value r.1 + value bs + (if carryout w' ≠ 0 then 0 else 1 : MwMpWord).toNat =
        value as + 65536 ^ as.length * r.2.toNat := ih (Nat.le_of_succ_le_succ hle) hborrow
    have hdigit' : (accum w').toNat + b.toNat + w.toNat =
        a.toNat + 65536 * (if carryout w' ≠ 0 then 0 else 1 : MwMpWord).toNat := hdigit
    rw [value_cons, value_cons, value_cons, List.length_cons, Nat.pow_succ,
      show 65536 ^ as.length * 65536 * r.2.toNat = 65536 * (65536 ^ as.length * r.2.toNat) by ring]
    omega

/-- The difference, when it is not negative -/
theorem holds_sMwMpSub (ha : a.Holds n) (hb : b.Holds m) (hle : m ≤ n) :
    ∃ r, sMwMpSub a b = some (r, false) ∧ r.Holds (n - m) ∧ (a.sign = .zpos → r.sign = .zpos) ∧
      (n ≠ m → r.sign = a.sign) := by
  have hused : b.used ≤ a.used := by
    by_contra hmore
    have := lt_of_used_lt ha hb (Nat.lt_of_not_le hmore)
    omega
  have hvalue := subDigits_spec hused (by decide : (0 : MwMpWord).toNat ≤ 1)
  have hlength := subDigits_length hused 0
  have hlow := value_lt (subDigits a.digits b.digits 0).1
  rw [hlength] at hlow
  rw [UInt32.toNat_zero, Nat.add_zero, show value a.digits = n from ha.abs_eq,
    show value b.digits = m from hb.abs_eq] at hvalue
  have hlt : n < 65536 ^ a.digits.length := ha.lt
  have hzero : (subDigits a.digits b.digits 0).2 = 0 := by
    rw [← UInt32.toNat_inj, UInt32.toNat_zero]
    by_contra hne
    have hpos := Nat.mul_le_mul_left (65536 ^ a.digits.length) (Nat.pos_of_ne_zero hne)
    omega
  rw [hzero, UInt32.toNat_zero, Nat.mul_zero, Nat.add_zero] at hvalue
  have hwf : Wf { a with digits := (subDigits a.digits b.digits 0).1 } :=
    ⟨List.length_pos_iff.mp (hlength.trans_gt ha.used_pos), ha.clear⟩
  have habs : MwMpInt.abs { a with digits := (subDigits a.digits b.digits 0).1 } = n - m := by
    change value (subDigits a.digits b.digits 0).1 = n - m
    omega
  refine ⟨_, by rw [sMwMpSub, if_pos hused]; simp only [hzero]; rfl, holds_sMwMpClamp hwf habs,
    fun h => sMwMpClamp_zpos h, fun hne => ?_⟩
  rw [sMwMpClamp_sign hwf, habs, if_neg (by omega)]

end

/-! ## Signed numbers -/

/-- A number with its sign, where zero has none -/
structure Represents (mp : MwMpInt) (z : Int) : Prop where
  holds : mp.Holds z.natAbs
  sign : mp.sign = if z < 0 then .neg else .zpos

/-- Which number receives a result: an operand, or another number with what it holds -/
inductive Dest where
  | first
  | second
  | other (c : MwMpInt)

namespace Dest

/-- The first operand where the result is going to be, or in a temporary -/
def fromFirst (a : MwMpInt) : Dest → MwMpInt
  | .first => a
  | .second => mwMpInitCopy a
  | .other c => mwMpCopy a c

/-- The second operand where the result is going to be, or in a temporary -/
def fromSecond (b : MwMpInt) : Dest → MwMpInt
  | .first => mwMpInitCopy b
  | .second => b
  | .other c => mwMpCopy b c

/-- What the number that receives the result holds before -/
def before (a b : MwMpInt) : Dest → MwMpInt
  | .first => a
  | .second => b
  | .other c => c

end Dest

/-- `s_mw_mp_sub` where anything but `MP_OKAY` ends the function that calls it -/
def subOkay (a b : MwMpInt) : Option MwMpInt := do
  let (r, range) ← sMwMpSub a b
  if range then none else return r

/-- `if(USED(c) == 1 && DIGIT(c, 0) == 0) SIGN(c) = MP_ZPOS` -/
def dropSign (c : MwMpInt) : MwMpInt := if c.digits = [0] then { c with sign := .zpos } else c

/-- `!SIGN` -/
def MwMpSign.flip : MwMpSign → MwMpSign
  | .zpos => .neg
  | .neg => .zpos

/-- `mw_mp_add` -/
def mwMpAdd (a b : MwMpInt) (c : Dest) : Option MwMpInt :=
  if a.sign = b.sign then
    match c with
    | .second => some (dropSign (sMwMpAdd b a))
    | c => some (dropSign (sMwMpAdd (c.fromFirst a) b))
  else
    match sMwMpCmp a b with
    | .gt => (subOkay (c.fromFirst a) b).map dropSign
    | .eq => some (mwMpZero (c.before a b))
    | .lt => (subOkay (c.fromSecond b) a).map dropSign

/-- `mw_mp_sub` -/
def mwMpSub (a b : MwMpInt) (c : Dest) : Option MwMpInt :=
  if a.sign ≠ b.sign then
    match c with
    | .first => some (dropSign (sMwMpAdd a b))
    | c => some (dropSign { sMwMpAdd (c.fromSecond b) a with sign := a.sign })
  else
    match sMwMpCmp a b with
    | .gt => (subOkay (c.fromFirst a) b).map dropSign
    | .eq => some (mwMpZero (c.before a b))
    | .lt => (subOkay (c.fromSecond b) a).map fun r => dropSign { r with sign := b.sign.flip }

section

variable {a b : MwMpInt} {m n : Nat} {x y : Int}

theorem represents_natCast : Represents a (n : Int) ↔ a.Holds n ∧ a.sign = .zpos := by
  constructor
  · intro h
    exact ⟨by simpa using h.holds, by simpa [show ¬ ((n : Int) < 0) by omega] using h.sign⟩
  · rintro ⟨hholds, hsign⟩
    exact ⟨by simpa using hholds, by simpa [show ¬ ((n : Int) < 0) by omega] using hsign⟩

theorem fromFirst_spec (ha : a.Holds n) (c : Dest) :
    (c.fromFirst a).Holds n ∧ (c.fromFirst a).sign = a.sign := by
  cases c with
  | first => exact ⟨ha, rfl⟩
  | second => exact ⟨holds_mwMpInitCopy ha, rfl⟩
  | other c => exact ⟨holds_mwMpCopy ha c, mwMpCopy_sign a c⟩

theorem fromSecond_spec (hb : b.Holds m) (c : Dest) :
    (c.fromSecond b).Holds m ∧ (c.fromSecond b).sign = b.sign := by
  cases c with
  | first => exact ⟨holds_mwMpInitCopy hb, rfl⟩
  | second => exact ⟨hb, rfl⟩
  | other c => exact ⟨holds_mwMpCopy hb c, mwMpCopy_sign b c⟩

/-- The digits of zero are those of no other number. -/
theorem digits_eq_zero_iff (h : a.Holds n) : a.digits = [0] ↔ n = 0 := by
  constructor
  · intro hdigits
    rw [← h.abs_eq, MwMpInt.abs, hdigits]
    simp
  · rintro rfl
    obtain ⟨d, hd⟩ := List.length_eq_one_iff.mp (h.used_eq_one (by decide))
    have habs := h.abs_eq
    rw [MwMpInt.abs, hd, value_cons, value_nil, Nat.mul_zero, Nat.add_zero] at habs
    rw [hd, UInt16.toNat_inj.mp (habs.trans UInt16.toNat_zero.symm)]

/-- The sign that a number is given is its own as soon as zero has lost it. -/
theorem represents_dropSign {z : Int} (h : a.Holds z.natAbs)
    (hsign : z ≠ 0 → a.sign = if z < 0 then .neg else .zpos) : Represents (dropSign a) z := by
  have hzero := digits_eq_zero_iff h
  unfold dropSign
  split
  case isTrue hdigits =>
    have hz : z = 0 := Int.natAbs_eq_zero.mp (hzero.mp hdigits)
    exact ⟨h.of_digits rfl h.clear, by simp [hz]⟩
  case isFalse hdigits =>
    exact ⟨h, hsign fun hz => hdigits (hzero.mpr (Int.natAbs_eq_zero.mpr hz))⟩

theorem subOkay_spec (ha : a.Holds n) (hb : b.Holds m) (hlt : m < n) :
    ∃ r, subOkay a b = some r ∧ r.Holds (n - m) ∧ r.sign = a.sign := by
  obtain ⟨r, hr, hholds, -, hsign⟩ := holds_sMwMpSub ha hb (Nat.le_of_lt hlt)
  exact ⟨r, by simp [subOkay, hr], hholds, hsign (by omega)⟩

/-- What two signs say about the numbers -/
theorem sign_eq_iff (hb : Represents b y) (ha : Represents a x) : a.sign = b.sign ↔ (x < 0 ↔ y < 0) := by
  rw [ha.sign, hb.sign]
  by_cases hx : x < 0 <;> by_cases hy : y < 0 <;> simp [hx, hy]

/-- The sum, whichever number receives it -/
theorem mwMpAdd_spec (ha : Represents a x) (hb : Represents b y) (c : Dest) :
    ∃ r, mwMpAdd a b c = some r ∧ Represents r (x + y) := by
  obtain ⟨hfirst, hfirstsign⟩ := fromFirst_spec ha.holds c
  obtain ⟨hsecond, hsecondsign⟩ := fromSecond_spec hb.holds c
  have hsigns := sign_eq_iff hb ha
  unfold mwMpAdd
  split
  case isTrue hsame =>
    rw [hsigns] at hsame
    have hsum : ∀ u : MwMpInt, u.Holds (x.natAbs + y.natAbs) → u.sign = a.sign →
        Represents (dropSign u) (x + y) := by
      intro u hu husign
      refine represents_dropSign ?_ fun hne => ?_
      · rwa [show (x + y).natAbs = x.natAbs + y.natAbs by omega]
      · rw [husign, ha.sign]
        exact if_congr (by omega) rfl rfl
    have hplain := hsum _ (holds_sMwMpAdd hfirst hb.holds) ((sMwMpAdd_sign _ _).trans hfirstsign)
    cases c with
    | first => exact ⟨_, rfl, hplain⟩
    | second =>
      refine ⟨_, rfl, hsum _ ?_ ((sMwMpAdd_sign _ _).trans (hsigns.mpr hsame).symm)⟩
      exact Nat.add_comm x.natAbs _ ▸ holds_sMwMpAdd hb.holds ha.holds
    | other c => exact ⟨_, rfl, hplain⟩
  case isFalse hother =>
    rw [hsigns] at hother
    rw [sMwMpCmp_eq ha.holds hb.holds]
    rcases Nat.lt_trichotomy x.natAbs y.natAbs with hlt | heq | hgt
    · rw [Nat.compare_eq_lt.mpr hlt]
      obtain ⟨r, hr, hholds, hsign⟩ := subOkay_spec hsecond ha.holds hlt
      refine ⟨dropSign r, by simp [hr], represents_dropSign ?_ fun _ => ?_⟩
      · rwa [show (x + y).natAbs = y.natAbs - x.natAbs by omega]
      · rw [hsign, hsecondsign, hb.sign]
        exact if_congr (by omega) rfl rfl
    · rw [Nat.compare_eq_eq.mpr heq]
      refine ⟨_, rfl, ?_⟩
      rw [show x + y = 0 by omega]
      exact ⟨holds_mwMpZero _, rfl⟩
    · rw [Nat.compare_eq_gt.mpr hgt]
      obtain ⟨r, hr, hholds, hsign⟩ := subOkay_spec hfirst hb.holds hgt
      refine ⟨dropSign r, by simp [hr], represents_dropSign ?_ fun _ => ?_⟩
      · rwa [show (x + y).natAbs = x.natAbs - y.natAbs by omega]
      · rw [hsign, hfirstsign, ha.sign]
        exact if_congr (by omega) rfl rfl

theorem MwMpSign.flip_eq (hb : Represents b y) (hne : y ≠ 0) :
    b.sign.flip = if 0 < y then .neg else .zpos := by
  rw [hb.sign]
  split <;> split <;> first | rfl | omega

/-- The difference, whichever number receives it -/
theorem mwMpSub_spec (ha : Represents a x) (hb : Represents b y) (c : Dest) :
    ∃ r, mwMpSub a b c = some r ∧ Represents r (x - y) := by
  obtain ⟨hfirst, hfirstsign⟩ := fromFirst_spec ha.holds c
  obtain ⟨hsecond, hsecondsign⟩ := fromSecond_spec hb.holds c
  have hsigns := sign_eq_iff hb ha
  unfold mwMpSub
  split
  case isTrue hother =>
    rw [Ne, hsigns] at hother
    have hsum : ∀ u : MwMpInt, u.Holds (x.natAbs + y.natAbs) → u.sign = a.sign →
        Represents (dropSign u) (x - y) := by
      intro u hu husign
      refine represents_dropSign ?_ fun hne => ?_
      · rwa [show (x - y).natAbs = x.natAbs + y.natAbs by omega]
      · rw [husign, ha.sign]
        exact if_congr (by omega) rfl rfl
    have hplain : MwMpInt.Holds { sMwMpAdd (c.fromSecond b) a with sign := a.sign }
        (x.natAbs + y.natAbs) :=
      (Nat.add_comm x.natAbs _ ▸ holds_sMwMpAdd hsecond ha.holds).of_digits rfl
        (holds_sMwMpAdd hsecond ha.holds).clear
    cases c with
    | first => exact ⟨_, rfl, hsum _ (holds_sMwMpAdd ha.holds hb.holds) (sMwMpAdd_sign _ _)⟩
    | second => exact ⟨_, rfl, hsum _ hplain rfl⟩
    | other c => exact ⟨_, rfl, hsum _ hplain rfl⟩
  case isFalse hsame =>
    rw [Ne, hsigns, not_not] at hsame
    rw [sMwMpCmp_eq ha.holds hb.holds]
    rcases Nat.lt_trichotomy x.natAbs y.natAbs with hlt | heq | hgt
    · rw [Nat.compare_eq_lt.mpr hlt]
      obtain ⟨r, hr, hholds, hsign⟩ := subOkay_spec hsecond ha.holds hlt
      refine ⟨dropSign { r with sign := b.sign.flip }, by simp [hr], represents_dropSign ?_ fun _ => ?_⟩
      · rw [show (x - y).natAbs = y.natAbs - x.natAbs by omega]
        exact hholds.of_digits rfl hholds.clear
      · rw [MwMpSign.flip_eq hb (by omega)]
        exact if_congr (by omega) rfl rfl
    · rw [Nat.compare_eq_eq.mpr heq]
      refine ⟨_, rfl, ?_⟩
      rw [show x - y = 0 by omega]
      exact ⟨holds_mwMpZero _, rfl⟩
    · rw [Nat.compare_eq_gt.mpr hgt]
      obtain ⟨r, hr, hholds, hsign⟩ := subOkay_spec hfirst hb.holds hgt
      refine ⟨dropSign r, by simp [hr], represents_dropSign ?_ fun _ => ?_⟩
      · rwa [show (x - y).natAbs = x.natAbs - y.natAbs by omega]
      · rw [hsign, hfirstsign, ha.sign]
        exact if_congr (by omega) rfl rfl

/-- What has been added is taken away again, wherever the results go. An `int` counts the
digits of both numbers. -/
theorem mwMpSub_mwMpAdd (ha : Represents a x) (_ : a.Indexed) (hb : Represents b y) (_ : b.Indexed)
    (c c' : Dest) :
    ∃ s d, mwMpAdd a b c = some s ∧ mwMpSub s b c' = some d ∧ Represents s (x + y) ∧
      d.digits = a.digits ∧ d.sign = a.sign := by
  obtain ⟨s, hs, hsum⟩ := mwMpAdd_spec ha hb c
  obtain ⟨d, hd, hdiff⟩ := mwMpSub_spec hsum hb c'
  rw [Int.add_sub_cancel] at hdiff
  exact ⟨s, d, hs, hd, hsum, digits_eq_of_holds hdiff.holds ha.holds, hdiff.sign.trans ha.sign.symm⟩

/-- The sum is negative and in the second number, the difference in the first. -/
theorem mwMpSub_mwMpAdd_neg :
    ∃ s d, mwMpAdd { digits := [5] } { sign := .neg, digits := [0, 1] } .second = some s ∧
      mwMpSub s { sign := .neg, digits := [0, 1] } .first = some d ∧
      Represents s (5 + -65536) ∧ d.digits = [5] ∧ d.sign = .zpos :=
  mwMpSub_mwMpAdd
    ⟨holds_mk _ (by decide) (by decide), rfl⟩ (by decide)
    ⟨holds_mk _ (by decide) (by decide), rfl⟩ (by decide) .second .first

end

end Meanwhile.Mpi
