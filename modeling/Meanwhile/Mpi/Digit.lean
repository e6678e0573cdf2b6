-- SUMMARY: The loops of mpi.c that change a number by one digit or by a shift of less than one, and what they carry out.
import Meanwhile.Mpi
import Mathlib.Data.Nat.Bitwise
import Mathlib.Tactic.Ring

/-!
# One digit at a time

Adding a digit, multiplying by one, and multiplying and dividing by a power of two. Each
function has a loop over the digits, that hands a carry from one to the next.

A product of two digits is computed as a word. In the code it is an `int` first, which is
too short for half of them: C leaves open what becomes of those. The products here, in this
module and in those that build on it, are the ones of an `int` that wraps around in two's
complement.
-/

namespace Meanwhile.Mpi

open MwMpInt

variable {mp : MwMpInt} {n : Nat}

/-! ## Carries -/

/-- The carry goes up as long as there is one. -/
def carryDigits : List MwMpDigit → MwMpWord → List MwMpDigit × MwMpWord
  | [], k => ([], k)
  | a :: as, k =>
      if k = 0 then (a :: as, 0)
      else
        let w := a.toUInt32 + k
        let r := carryDigits as (carryout w)
        (accum w :: r.1, r.2)

theorem carryDigits_length (as : List MwMpDigit) (k : MwMpWord) :
    (carryDigits as k).1.length = as.length := by
  fun_induction carryDigits as k with
  | case1 => rfl
  | case2 => rfl
  | case3 a as k hk w r ih => simp [r, ih]

theorem add_toNat {a : MwMpDigit} {k : MwMpWord} (hk : k.toNat < 65536) :
    (a.toUInt32 + k).toNat = a.toNat + k.toNat := by
  have ha := digit_lt a
  rw [UInt32.toNat_add, UInt16.toNat_toUInt32]
  omega

theorem carryDigits_spec (as : List MwMpDigit) {k : MwMpWord} (hk : k.toNat < 65536) :
    value (carryDigits as k).1 + 65536 ^ as.length * (carryDigits as k).2.toNat =
        value as + k.toNat ∧
      (carryDigits as k).2.toNat < 65536 := by
  fun_induction carryDigits as k with
  | case1 k => simpa using hk
  | case2 a as => simp
  | case3 a as k hzero w r ih =>
    have hw := add_toNat (a := a) hk
    have ha := digit_lt a
    have hcarry : (carryout w).toNat < 65536 := by
      rw [carryout_toNat, hw]
      omega
    have hvalue : value r.1 + 65536 ^ as.length * r.2.toNat = value as + (carryout w).toNat :=
      (ih hcarry).1
    refine ⟨?_, (ih hcarry).2⟩
    rw [carryout_toNat, hw] at hvalue
    rw [value_cons, value_cons, List.length_cons, accum_toNat, hw, Nat.pow_succ]
    have hexp : 65536 ^ as.length * 65536 * r.2.toNat = 65536 * (65536 ^ as.length * r.2.toNat) := by
      ring
    rw [hexp]
    generalize 65536 ^ as.length * r.2.toNat = top at hvalue
    omega

/-- What a carry needs is made for it. -/
def putCarry (mp : MwMpInt) (k : MwMpWord) : MwMpInt :=
  if k = 0 then mp
  else
    let mp' := sMwMpPad mp (mp.used + 1)
    { mp' with digits := mp'.digits.set mp.used k.toUInt16 }

theorem putCarry_digits (h : mp.Wf) {k : MwMpWord} (hk : k ≠ 0) :
    (putCarry mp k).digits = mp.digits ++ [k.toUInt16] := by
  unfold putCarry
  rw [if_neg hk]
  dsimp only
  rw [sMwMpPad_digits h.clear, Nat.add_sub_cancel_left, used]
  simp

theorem putCarry_sign (mp : MwMpInt) (k : MwMpWord) : (putCarry mp k).sign = mp.sign := by
  unfold putCarry
  split
  · rfl
  · exact sMwMpPad_sign mp _

/-- A number whose digits are clamped once the carry is there -/
theorem holds_putCarry (h : mp.Wf) {k : MwMpWord} (hk : k.toNat < 65536)
    (habs : mp.abs + 65536 ^ mp.used * k.toNat = n)
    (hle : 1 < mp.used → k = 0 → 65536 ^ (mp.used - 1) ≤ mp.abs) : (putCarry mp k).Holds n := by
  by_cases hzero : k = 0
  · rw [hzero, UInt32.toNat_zero, Nat.mul_zero, Nat.add_zero] at habs
    rw [putCarry, if_pos hzero]
    exact holds_of_le h habs fun hmany => habs ▸ hle hmany hzero
  · have hdigits := putCarry_digits h hzero
    have hk16 : k.toUInt16.toNat = k.toNat := by
      rw [UInt32.toNat_toUInt16]
      exact Nat.mod_eq_of_lt hk
    have hpos : 0 < k.toNat := Nat.pos_of_ne_zero fun hk0 => hzero (UInt32.toNat_inj.mp hk0)
    have hclear : IsClear (putCarry mp k).spare := by
      unfold putCarry
      rw [if_neg hzero]
      exact sMwMpPad_clear h.clear _
    have habs' : (putCarry mp k).abs = n := by
      rw [MwMpInt.abs, hdigits, value_append, value_cons, value_nil, hk16, ← habs]
      rfl
    refine holds_of_le ⟨by rw [hdigits]; simp, hclear⟩ habs' fun _ => ?_
    rw [used, hdigits, List.length_append, List.length_singleton, Nat.add_sub_cancel, ← habs]
    calc 65536 ^ mp.digits.length = 65536 ^ mp.used * 1 := (Nat.mul_one _).symm
      _ ≤ 65536 ^ mp.used * k.toNat := Nat.mul_le_mul_left _ hpos
      _ ≤ _ := Nat.le_add_left _ _

/-! ## Adding and taking away a digit -/

/-- The first digits of `s_mw_mp_add_d`: the lowest one takes the digit, the others a carry. -/
def addDigit : List MwMpDigit → MwMpDigit → List MwMpDigit × MwMpWord
  | [], _ => ([], 0)
  | a :: as, d =>
      let w := a.toUInt32 + d.toUInt32
      let r := carryDigits as (carryout w)
      (accum w :: r.1, r.2)

/-- `s_mw_mp_add_d` -/
def sMwMpAddD (mp : MwMpInt) (d : MwMpDigit) : MwMpInt :=
  let r := addDigit mp.digits d
  putCarry { mp with digits := r.1 } r.2

/-- A borrow goes up as long as there is one. -/
def borrowDigits : List MwMpDigit → MwMpWord → List MwMpDigit × MwMpWord
  | [], b => ([], b)
  | a :: as, b =>
      if b = 0 then (a :: as, 0)
      else
        let w := 65536 + a.toUInt32 - b
        let r := borrowDigits as (if carryout w ≠ 0 then 0 else 1)
        (accum w :: r.1, r.2)

/-- What `s_mw_mp_sub_d` leaves, and whether it is `MP_RANGE` that it returns -/
def sMwMpSubD (mp : MwMpInt) (d : MwMpDigit) : MwMpInt × Bool :=
  match mp.digits with
  | [] => (mp, false)
  | a :: as =>
      let w := 65536 + a.toUInt32 - d.toUInt32
      let r := borrowDigits as (if carryout w ≠ 0 then 0 else 1)
      (sMwMpClamp { mp with digits := accum w :: r.1 }, r.2 ≠ 0)

theorem toUInt32_lt (d : MwMpDigit) : d.toUInt32.toNat < 65536 := by
  rw [UInt16.toNat_toUInt32]
  exact digit_lt d

theorem addDigit_length (as : List MwMpDigit) (d : MwMpDigit) : (addDigit as d).1.length = as.length := by
  cases as with
  | nil => rfl
  | cons a as => simp [addDigit, carryDigits_length]

theorem addDigit_spec {as : List MwMpDigit} (hne : as ≠ []) (d : MwMpDigit) :
    value (addDigit as d).1 + 65536 ^ as.length * (addDigit as d).2.toNat = value as + d.toNat ∧
      (addDigit as d).2.toNat < 65536 := by
  cases as with
  | nil => exact absurd rfl hne
  | cons a as =>
    have hw := add_toNat (a := a) (toUInt32_lt d)
    have ha := digit_lt a
    have hd := digit_lt d
    rw [UInt16.toNat_toUInt32] at hw
    have hcarry : (carryout (a.toUInt32 + d.toUInt32)).toNat < 65536 := by
      rw [carryout_toNat, hw]
      omega
    obtain ⟨hvalue, hlt⟩ := carryDigits_spec as hcarry
    refine ⟨?_, hlt⟩
    rw [carryout_toNat, hw] at hvalue
    simp only [addDigit, value_cons, List.length_cons, accum_toNat, hw, Nat.pow_succ]
    have hexp : ∀ k : Nat, 65536 ^ as.length * 65536 * k = 65536 * (65536 ^ as.length * k) := by
      intro k
      ring
    rw [hexp]
    omega

theorem holds_sMwMpAddD (h : mp.Holds n) (d : MwMpDigit) : (sMwMpAddD mp d).Holds (n + d.toNat) := by
  obtain ⟨hvalue, hlt⟩ := addDigit_spec h.digits_ne d
  have hlength := addDigit_length mp.digits d
  have hne : (addDigit mp.digits d).1 ≠ [] := by
    refine List.length_pos_iff.mp ?_
    exact hlength.trans_gt h.used_pos
  have habs : value mp.digits = n := h.abs_eq
  have hwf : Wf { mp with digits := (addDigit mp.digits d).1 } := ⟨hne, h.clear⟩
  refine holds_putCarry hwf hlt ?_ ?_
  · rw [← habs, ← hvalue, used, hlength]
    rfl
  · intro hmany hzero
    have hmany' : 1 < mp.used := by
      rw [used, ← hlength]
      exact hmany
    rw [hzero, UInt32.toNat_zero, Nat.mul_zero, Nat.add_zero, habs] at hvalue
    change 65536 ^ ((addDigit mp.digits d).1.length - 1) ≤ value (addDigit mp.digits d).1
    rw [hvalue, hlength]
    exact (h.le hmany').trans (Nat.le_add_right _ _)

theorem sMwMpAddD_sign (mp : MwMpInt) (d : MwMpDigit) : (sMwMpAddD mp d).sign = mp.sign :=
  putCarry_sign _ _

/-! ## Multiplying by a digit -/

/-- A digit of the product and the carry into the next one -/
def mulDigits : List MwMpDigit → MwMpDigit → MwMpWord → List MwMpDigit × MwMpWord
  | [], _, k => ([], k)
  | a :: as, d, k =>
      let w := a.toUInt32 * d.toUInt32 + k
      let r := mulDigits as d (carryout w)
      (accum w :: r.1, r.2)

/-- `s_mw_mp_mul_d`. It makes room when the product of the highest digit needs two digits,
and has no room for the carry otherwise: `none` is a write past the digits allocated. -/
def sMwMpMulD (a : MwMpInt) (d : MwMpDigit) : Option MwMpInt :=
  let max := a.used
  let a := if carryout ((a.digits.getLastD 0).toUInt32 * d.toUInt32) ≠ 0 then sMwMpPad a (max + 1) else a
  let r := mulDigits (a.digits.take max) d 0
  if r.2 = 0 then some (sMwMpClamp { a with digits := r.1 ++ a.digits.drop max })
  else if max < a.alloc then
    some (sMwMpClamp
      { a with
        digits := r.1 ++ [r.2.toUInt16]
        spare := (a.digits.drop max ++ a.spare).tail })
  else none

theorem mulDigits_length (as : List MwMpDigit) (d : MwMpDigit) (k : MwMpWord) :
    (mulDigits as d k).1.length = as.length := by
  induction as generalizing k with
  | nil => rfl
  | cons a as ih => simp [mulDigits, ih]

theorem mul_toNat (a d : MwMpDigit) {k : MwMpWord} (hk : k.toNat < 65536) :
    (a.toUInt32 * d.toUInt32 + k).toNat = a.toNat * d.toNat + k.toNat := by
  have hprod : a.toNat * d.toNat ≤ 65535 * 65535 :=
    Nat.mul_le_mul (Nat.le_of_lt_succ (digit_lt a)) (Nat.le_of_lt_succ (digit_lt d))
  rw [UInt32.toNat_add, UInt32.toNat_mul, UInt16.toNat_toUInt32, UInt16.toNat_toUInt32]
  omega

theorem mulDigits_spec (as : List MwMpDigit) (d : MwMpDigit) {k : MwMpWord} (hk : k.toNat < 65536) :
    value (mulDigits as d k).1 + 65536 ^ as.length * (mulDigits as d k).2.toNat =
        value as * d.toNat + k.toNat ∧
      (mulDigits as d k).2.toNat < 65536 := by
  induction as generalizing k with
  | nil => simpa [mulDigits] using hk
  | cons a as ih =>
    have hw := mul_toNat a d hk
    have hprod : a.toNat * d.toNat ≤ 65535 * 65535 :=
      Nat.mul_le_mul (Nat.le_of_lt_succ (digit_lt a)) (Nat.le_of_lt_succ (digit_lt d))
    have hcarry : (carryout (a.toUInt32 * d.toUInt32 + k)).toNat < 65536 := by
      rw [carryout_toNat, hw]
      omega
    obtain ⟨hvalue, hlt⟩ := ih hcarry
    refine ⟨?_, hlt⟩
    rw [carryout_toNat, hw] at hvalue
    simp only [mulDigits, value_cons, List.length_cons, accum_toNat, hw, Nat.pow_succ]
    have hexp : ∀ k : Nat, 65536 ^ as.length * 65536 * k = 65536 * (65536 ^ as.length * k) := by
      intro k
      ring
    rw [hexp, Nat.add_mul, Nat.mul_assoc]
    omega

/-- The room that `s_mw_mp_mul_d` makes -/
def mulRoom (a : MwMpInt) (d : MwMpDigit) : MwMpInt :=
  if carryout ((a.digits.getLastD 0).toUInt32 * d.toUInt32) ≠ 0 then sMwMpPad a (a.used + 1) else a

theorem mulRoom_take (h : mp.Wf) (d : MwMpDigit) : (mulRoom mp d).digits.take mp.used = mp.digits := by
  unfold mulRoom
  split
  · rw [sMwMpPad_digits h.clear, used, List.take_left]
  · exact List.take_length

theorem mulRoom_drop (h : mp.Wf) (d : MwMpDigit) : IsClear ((mulRoom mp d).digits.drop mp.used) := by
  unfold mulRoom
  split
  · rw [sMwMpPad_digits h.clear, used, List.drop_left]
    exact isClear_replicate _
  · rw [used, List.drop_length]
    simp [IsClear]

theorem mulRoom_clear (h : mp.Wf) (d : MwMpDigit) : IsClear (mulRoom mp d).spare := by
  unfold mulRoom
  split
  · exact sMwMpPad_clear h.clear _
  · exact h.clear

theorem carryout_mul_ne_zero (a d : MwMpDigit) :
    carryout (a.toUInt32 * d.toUInt32) ≠ 0 ↔ 65536 ≤ a.toNat * d.toNat := by
  have hw : (a.toUInt32 * d.toUInt32).toNat = a.toNat * d.toNat := by
    simpa using mul_toNat a d (by decide : (0 : MwMpWord).toNat < 65536)
  rw [Ne, ← UInt32.toNat_inj, carryout_toNat, hw, UInt32.toNat_zero]
  omega

theorem lt_mulRoom_alloc (h : mp.Wf) (d : MwMpDigit) :
    mp.used < (mulRoom mp d).alloc ↔
      65536 ≤ (mp.digits.getLastD 0).toNat * d.toNat ∨ mp.spare ≠ [] := by
  unfold mulRoom
  rw [← carryout_mul_ne_zero]
  split
  case isTrue hcarry =>
    have hused := sMwMpPad_used h (mp.used + 1)
    refine iff_of_true ?_ (.inl hcarry)
    rw [used, Nat.max_eq_right (Nat.le_succ _)] at hused
    rw [alloc, hused]
    omega
  case isFalse hcarry =>
    rw [or_iff_right hcarry, alloc, used, ← List.length_pos_iff]
    omega

/-- The product fits, or there is room for one more digit. -/
def MulFits (mp : MwMpInt) (d : MwMpDigit) : Prop :=
  mp.abs * d.toNat < 65536 ^ mp.used ∨ 65536 ≤ (mp.digits.getLastD 0).toNat * d.toNat ∨ mp.spare ≠ []

/-- What the loop carries out of the highest digit -/
theorem mulDigits_carry (mp : MwMpInt) (d : MwMpDigit) :
    (mulDigits mp.digits d 0).2 = 0 ↔ mp.abs * d.toNat < 65536 ^ mp.used := by
  obtain ⟨hvalue, -⟩ := mulDigits_spec mp.digits d (by decide : (0 : MwMpWord).toNat < 65536)
  have hlow := value_lt (mulDigits mp.digits d 0).1
  rw [mulDigits_length] at hlow
  rw [UInt32.toNat_zero, Nat.add_zero] at hvalue
  rw [← UInt32.toNat_inj, UInt32.toNat_zero, MwMpInt.abs, ← hvalue, used]
  constructor
  · intro hzero
    rw [hzero, Nat.mul_zero, Nat.add_zero]
    exact hlow
  · intro hlt
    by_contra hne
    have hpos : 1 ≤ (mulDigits mp.digits d 0).2.toNat := Nat.pos_of_ne_zero hne
    have hle := Nat.mul_le_mul_left (65536 ^ mp.digits.length) hpos
    omega

/-- Either the product comes out, or the carry is written past the digits allocated. -/
theorem sMwMpMulD_spec (h : mp.Holds n) (d : MwMpDigit) :
    (∃ r, sMwMpMulD mp d = some r ∧ r.Holds (n * d.toNat) ∧ MulFits mp d) ∨
      (sMwMpMulD mp d = none ∧ ¬ MulFits mp d) := by
  obtain ⟨hvalue, hlt⟩ := mulDigits_spec mp.digits d (by decide : (0 : MwMpWord).toNat < 65536)
  have hlength := mulDigits_length mp.digits d 0
  have hcarry := mulDigits_carry mp d
  have hroom := lt_mulRoom_alloc h.toWf d
  have hne : (mulDigits mp.digits d 0).1 ≠ [] :=
    List.length_pos_iff.mp (hlength.trans_gt h.used_pos)
  have hrun : sMwMpMulD mp d =
      (if (mulDigits mp.digits d 0).2 = 0 then
        some (sMwMpClamp { mulRoom mp d with
          digits := (mulDigits mp.digits d 0).1 ++ (mulRoom mp d).digits.drop mp.used })
      else if mp.used < (mulRoom mp d).alloc then
        some (sMwMpClamp { mulRoom mp d with
          digits := (mulDigits mp.digits d 0).1 ++ [(mulDigits mp.digits d 0).2.toUInt16]
          spare := ((mulRoom mp d).digits.drop mp.used ++ (mulRoom mp d).spare).tail })
      else none) := by
    have htake := mulRoom_take h.toWf d
    unfold mulRoom at htake
    unfold sMwMpMulD
    dsimp only
    rw [htake]
    rfl
  rw [UInt32.toNat_zero, Nat.add_zero, show value mp.digits = n from h.abs_eq] at hvalue
  rw [hrun]
  by_cases hzero : (mulDigits mp.digits d 0).2 = 0
  · rw [if_pos hzero]
    refine .inl ⟨_, rfl, holds_sMwMpClamp ⟨by simp [hne], mulRoom_clear h.toWf d⟩ ?_,
      .inl (hcarry.mp hzero)⟩
    rw [MwMpInt.abs, value_append, (mulRoom_drop h.toWf d).value_eq, Nat.mul_zero, Nat.add_zero, ← hvalue,
      hzero]
    simp
  · rw [if_neg hzero]
    have hmany := mt hcarry.mpr hzero
    by_cases hspace : mp.used < (mulRoom mp d).alloc
    · rw [if_pos hspace]
      have hclear : IsClear ((mulRoom mp d).digits.drop mp.used ++ (mulRoom mp d).spare).tail := by
        rw [← List.drop_one]
        exact ((mulRoom_drop h.toWf d).append (mulRoom_clear h.toWf d)).drop 1
      refine .inl ⟨_, rfl, holds_sMwMpClamp ⟨by simp, hclear⟩ ?_, .inr (hroom.mp hspace)⟩
      rw [MwMpInt.abs, value_append, value_cons, value_nil, Nat.mul_zero, Nat.add_zero, hlength, ← hvalue,
        UInt32.toNat_toUInt16, Nat.mod_eq_of_lt hlt]
    · rw [if_neg hspace]
      exact .inr ⟨rfl, fun hfits => hfits.elim hmany fun h => hspace (hroom.mpr h)⟩

/-- The carry is written past the digits when there is no room for it and the product of the
highest digit alone does not call for any. Everywhere else the product is left. -/
theorem sMwMpMulD_eq_none_iff (h : mp.Holds n) (d : MwMpDigit) :
    (sMwMpMulD mp d = none ↔
      mp.spare = [] ∧ (mp.digits.getLastD 0).toNat * d.toNat < 65536 ∧ 65536 ^ mp.used ≤ n * d.toNat) ∧
    (sMwMpMulD mp d ≠ none → ∃ r, sMwMpMulD mp d = some r ∧ r.Holds (n * d.toNat)) := by
  have hfits : ¬ MulFits mp d ↔ mp.spare = [] ∧ (mp.digits.getLastD 0).toNat * d.toNat < 65536 ∧
      65536 ^ mp.used ≤ n * d.toNat := by
    rw [MulFits, h.abs_eq, not_or, not_or, not_lt, not_le, not_not]
    exact ⟨fun hall => ⟨hall.2.2, hall.2.1, hall.1⟩, fun hall => ⟨hall.2.2, hall.2.1, hall.1⟩⟩
  rw [← hfits]
  rcases sMwMpMulD_spec h d with ⟨r, hr, hproduct, hyes⟩ | ⟨hnone, hno⟩
  · exact ⟨iff_of_false (by rw [hr]; simp) (not_not.mpr hyes), fun _ => ⟨r, hr, hproduct⟩⟩
  · exact ⟨iff_of_true hnone hno, fun hsome => absurd hnone hsome⟩

/-- A number of two digits with no room for a third: the carry is lost on it, and that of a
smaller product is none. -/
theorem sMwMpMulD_past :
    sMwMpMulD { digits := [0xffff, 1] } 0x8001 = none ∧
      ∃ r, sMwMpMulD { digits := [0xffff, 1] } 0x7fff = some r ∧ r.Holds (131071 * 32767) := by
  have hholds : ({ digits := [0xffff, 1] } : MwMpInt).Holds 131071 := holds_mk _ (by decide) (by decide)
  have hsmall := sMwMpMulD_eq_none_iff hholds 0x7fff
  exact ⟨(sMwMpMulD_eq_none_iff hholds 0x8001).1.mpr ⟨rfl, by decide, by decide⟩,
    hsmall.2 (mt hsmall.1.mp (by decide))⟩

end Meanwhile.Mpi
