-- SUMMARY: Shifts of mpi.c by any number of bits, as multiplication, division and remainder by powers of two.
import Meanwhile.Mpi.Digit
import Meanwhile.Lib.BigEndian

/-!
# Shifts

A shift goes by whole digits first, and what is left of it, less than a digit, goes
through the digits with the bits that move from one to the next.

The number of bits is a digit itself, so that no shift goes by `2 ^ 16` bits or more.
-/

namespace Meanwhile.Mpi

open MwMpInt

variable {mp : MwMpInt} {n : Nat}

/-! ## Loops -/

/-- The mask of the bits that move, `(1 << d) - 1` -/
def shiftMask (d : MwMpWord) : MwMpWord := 1 <<< d - 1

/-- The loop of `s_mw_mp_mul_2d`, upward -/
def shlDigits : List MwMpDigit → MwMpWord → MwMpDigit → List MwMpDigit × MwMpDigit
  | [], _, save => ([], save)
  | a :: as, d, save =>
      let next := ((a.toUInt32 >>> (16 - d)) &&& shiftMask d).toUInt16
      let r := shlDigits as d next
      ((a.toUInt32 <<< d ||| save.toUInt32).toUInt16 :: r.1, r.2)

/-- The loop of `s_mw_mp_div_2d`, downward -/
def shrDigits : List MwMpDigit → MwMpWord → List MwMpDigit × MwMpDigit
  | [], _ => ([], 0)
  | a :: as, d =>
      let r := shrDigits as d
      ((a.toUInt32 >>> d ||| r.2.toUInt32 <<< (16 - d)).toUInt16 :: r.1,
        (a.toUInt32 &&& shiftMask d).toUInt16)

section

variable {d : MwMpWord}

theorem shiftMask_toNat (hd : d.toNat < 16) : (shiftMask d).toNat = 2 ^ d.toNat - 1 := by
  have hpow : 2 ^ d.toNat ≤ 2 ^ 15 := Nat.pow_le_pow_right (by decide) (by omega)
  have hpos : 0 < 2 ^ d.toNat := Nat.two_pow_pos _
  have hone : (1 <<< d : MwMpWord).toNat = 2 ^ d.toNat := by
    rw [UInt32.toNat_shiftLeft, Nat.mod_eq_of_lt (by omega : d.toNat < 32), UInt32.toNat_one,
      Nat.one_shiftLeft, Nat.mod_eq_of_lt (by omega)]
  rw [shiftMask, UInt32.toNat_sub, hone, UInt32.toNat_one]
  omega

theorem back_toNat (hd : d.toNat < 16) : (16 - d).toNat = 16 - d.toNat := by
  rw [UInt32.toNat_sub_of_le]
  · rfl
  · exact UInt32.le_iff_toNat_le.mpr (Nat.le_of_lt hd)

theorem two_pow_split (hd : d.toNat < 16) : 2 ^ d.toNat * 2 ^ (16 - d.toNat) = 65536 := by
  rw [← Nat.pow_add, Nat.add_sub_cancel' (Nat.le_of_lt hd)]

theorem and_shiftMask (hd : d.toNat < 16) (w : MwMpWord) :
    (w &&& shiftMask d).toUInt16.toNat = w.toNat % 2 ^ d.toNat := by
  have hpow : 2 ^ d.toNat ≤ 2 ^ 15 := Nat.pow_le_pow_right (by decide) (by omega)
  rw [UInt32.toNat_toUInt16, UInt32.toNat_and, shiftMask_toNat hd, Nat.and_two_pow_sub_one_eq_mod]
  exact Nat.mod_eq_of_lt ((Nat.mod_lt _ (Nat.two_pow_pos _)).trans_le (by omega))

theorem shr_toNat (hd : d.toNat < 32) (a : MwMpDigit) :
    (a.toUInt32 >>> d).toNat = a.toNat / 2 ^ d.toNat := by
  rw [UInt32.toNat_shiftRight, Nat.mod_eq_of_lt hd, UInt16.toNat_toUInt32, Nat.shiftRight_eq_div_pow]

theorem shl_toNat (hd : d.toNat ≤ 16) (a : MwMpDigit) :
    (a.toUInt32 <<< d).toNat = a.toNat <<< d.toNat := by
  have ha := digit_lt a
  have hpow : 2 ^ d.toNat ≤ 2 ^ 16 := Nat.pow_le_pow_right (by decide) hd
  rw [UInt32.toNat_shiftLeft, Nat.mod_eq_of_lt (by omega : d.toNat < 32), UInt16.toNat_toUInt32]
  refine Nat.mod_eq_of_lt ?_
  rw [Nat.shiftLeft_eq]
  calc a.toNat * 2 ^ d.toNat ≤ 65535 * 2 ^ 16 := Nat.mul_le_mul (by omega) hpow
    _ < 2 ^ 32 := by decide

/-- The bits of a digit that go up and those that stay -/
theorem shlDigit_spec (hd : d.toNat < 16) (a : MwMpDigit) {save : MwMpDigit}
    (hsave : save.toNat < 2 ^ d.toNat) :
    (a.toUInt32 <<< d ||| save.toUInt32).toUInt16.toNat +
        65536 * ((a.toUInt32 >>> (16 - d)) &&& shiftMask d).toUInt16.toNat =
        a.toNat * 2 ^ d.toNat + save.toNat ∧
      ((a.toUInt32 >>> (16 - d)) &&& shiftMask d).toUInt16.toNat < 2 ^ d.toNat := by
  have hsplit := two_pow_split hd
  have ha := digit_lt a
  have hback := back_toNat hd
  have hhigh : a.toNat / 2 ^ (16 - d.toNat) < 2 ^ d.toNat :=
    Nat.div_lt_of_lt_mul (by rw [Nat.mul_comm, hsplit]; exact ha)
  have hnext : ((a.toUInt32 >>> (16 - d)) &&& shiftMask d).toUInt16.toNat =
      a.toNat / 2 ^ (16 - d.toNat) := by
    rw [and_shiftMask hd, shr_toNat (by omega), hback]
    exact Nat.mod_eq_of_lt hhigh
  have hout : (a.toUInt32 <<< d ||| save.toUInt32).toUInt16.toNat =
      (a.toNat * 2 ^ d.toNat + save.toNat) % 65536 := by
    rw [UInt32.toNat_toUInt16, UInt32.toNat_or, shl_toNat (Nat.le_of_lt hd), UInt16.toNat_toUInt32,
      BigEndian.shiftLeft_or hsave]
  have hdiv : (a.toNat * 2 ^ d.toNat + save.toNat) / 65536 = a.toNat / 2 ^ (16 - d.toNat) := by
    rw [← hsplit, ← Nat.div_div_eq_div_mul, Nat.add_comm, Nat.add_mul_div_right _ _ (Nat.two_pow_pos _),
      Nat.div_eq_of_lt hsave, Nat.zero_add]
  refine ⟨?_, hnext ▸ hhigh⟩
  rw [hnext, hout, ← hdiv]
  exact Nat.mod_add_div _ _

theorem shlDigits_length (as : List MwMpDigit) (d : MwMpWord) (save : MwMpDigit) :
    (shlDigits as d save).1.length = as.length := by
  induction as generalizing save with
  | nil => rfl
  | cons a as ih => simp [shlDigits, ih]

theorem shlDigits_spec (hd : d.toNat < 16) (as : List MwMpDigit) {save : MwMpDigit}
    (hsave : save.toNat < 2 ^ d.toNat) :
    value (shlDigits as d save).1 + 65536 ^ as.length * (shlDigits as d save).2.toNat =
      value as * 2 ^ d.toNat + save.toNat := by
  induction as generalizing save with
  | nil => simp [shlDigits]
  | cons a as ih =>
    obtain ⟨hdigit, hnext⟩ := shlDigit_spec hd a hsave
    have hrest := ih hnext
    simp only [shlDigits, value_cons, List.length_cons, Nat.pow_succ]
    have hexp : ∀ k : Nat, 65536 ^ as.length * 65536 * k = 65536 * (65536 ^ as.length * k) := by
      intro k
      ring
    rw [hexp, Nat.add_mul, Nat.mul_assoc]
    omega

theorem shrDigits_length (as : List MwMpDigit) (d : MwMpWord) :
    (shrDigits as d).1.length = as.length := by
  induction as with
  | nil => rfl
  | cons a as ih => simp [shrDigits, ih]

theorem shrDigits_spec (hd : d.toNat < 16) (as : List MwMpDigit) :
    value (shrDigits as d).1 = value as / 2 ^ d.toNat ∧
      (shrDigits as d).2.toNat = value as % 2 ^ d.toNat := by
  induction as with
  | nil => simp [shrDigits]
  | cons a as ih =>
    obtain ⟨hvalue, hsave⟩ := ih
    have hsplit := two_pow_split hd
    have ha := digit_lt a
    have hpos : 0 < 2 ^ d.toNat := Nat.two_pow_pos _
    have hlow : a.toNat / 2 ^ d.toNat < 2 ^ (16 - d.toNat) :=
      Nat.div_lt_of_lt_mul (by rw [hsplit]; exact ha)
    have hback := back_toNat hd
    have hsavelt : (shrDigits as d).2.toNat < 2 ^ d.toNat := hsave ▸ Nat.mod_lt _ hpos
    -- the bits that come down are above those that stay
    have hor : (a.toUInt32 >>> d ||| (shrDigits as d).2.toUInt32 <<< (16 - d)).toUInt16.toNat =
        (shrDigits as d).2.toNat * 2 ^ (16 - d.toNat) + a.toNat / 2 ^ d.toNat := by
      rw [UInt32.toNat_toUInt16, UInt32.toNat_or, shr_toNat (by omega), shl_toNat (by omega), hback,
        Nat.or_comm, BigEndian.shiftLeft_or hlow]
      refine Nat.mod_eq_of_lt ?_
      calc _ < (shrDigits as d).2.toNat * 2 ^ (16 - d.toNat) + 2 ^ (16 - d.toNat) :=
            Nat.add_lt_add_left hlow _
        _ = ((shrDigits as d).2.toNat + 1) * 2 ^ (16 - d.toNat) := by ring
        _ ≤ 2 ^ d.toNat * 2 ^ (16 - d.toNat) := Nat.mul_le_mul_right _ hsavelt
        _ = 65536 := hsplit
    have hhigh : a.toNat + 65536 * value as = a.toNat + 2 ^ d.toNat * (2 ^ (16 - d.toNat) * value as) := by
      rw [← Nat.mul_assoc, hsplit]
    constructor
    · simp only [shrDigits, value_cons]
      rw [hor, hvalue, hhigh, Nat.add_mul_div_left _ _ hpos, hsave]
      have hval := Nat.mod_add_div (value as) (2 ^ d.toNat)
      generalize value as % 2 ^ d.toNat = save at hval
      generalize value as / 2 ^ d.toNat = v at hval
      rw [← hval, ← hsplit]
      ring
    · simp only [shrDigits, value_cons]
      rw [and_shiftMask hd, UInt16.toNat_toUInt32, hhigh, Nat.add_mul_mod_self_left]

/-- What is carried out of the highest digit -/
theorem shlDigits_carry {as : List MwMpDigit} (hne : as ≠ []) (d : MwMpWord) (save : MwMpDigit) :
    (shlDigits as d save).2 = (((as.getLastD 0).toUInt32 >>> (16 - d)) &&& shiftMask d).toUInt16 := by
  induction as generalizing save with
  | nil => exact absurd rfl hne
  | cons a as ih =>
    cases as with
    | nil => rfl
    | cons b bs => exact ih (by simp) (((a.toUInt32 >>> (16 - d)) &&& shiftMask d).toUInt16)

end

/-! ## Numbers -/

/-- `s_mw_mp_mul_2d`. A write past the digits allocated is `none`. -/
def sMwMpMul2d (mp : MwMpInt) (d : MwMpDigit) : Option MwMpInt :=
  let mp := sMwMpLshd mp (d.toNat / 16)
  let used := mp.used
  let d := (d % 16).toUInt32
  let mp :=
    if ((mp.digits.getLastD 0).toUInt32 >>> (16 - d)) &&& shiftMask d ≠ 0 then sMwMpGrow mp (used + 1)
    else mp
  let r := shlDigits mp.digits d 0
  if r.2 = 0 then some (sMwMpClamp { mp with digits := r.1 })
  else if used < mp.alloc then
    some (sMwMpClamp { mp with digits := r.1 ++ [r.2], spare := mp.spare.tail })
  else none

/-- `s_mw_mp_div_2d` -/
def sMwMpDiv2d (mp : MwMpInt) (d : MwMpDigit) : MwMpInt :=
  let mp := sMwMpRshd mp (d.toNat / 16)
  sMwMpClamp { mp with digits := (shrDigits mp.digits (d % 16).toUInt32).1 }

/-- `s_mw_mp_mod_2d` -/
def sMwMpMod2d (mp : MwMpInt) (d : MwMpDigit) : MwMpInt :=
  let ndig := d.toNat / 16
  if ndig ≥ mp.used then mp
  else
    let dmask := (shiftMask (d % 16).toUInt32).toUInt16
    sMwMpClamp { mp with
      digits := mp.digits.take ndig ++ [mp.digits.getD ndig 0 &&& dmask] ++
        List.replicate (mp.used - (ndig + 1)) 0 }

/-- The loop of `s_mw_mp_norm`, which never ends for a digit that is zero -/
def normShift : Nat → MwMpDigit → Option MwMpDigit
  | 0, _ => none
  | fuel + 1, t => if t < 0x8000 then (normShift fuel (t <<< 1)).map (· + 1) else some 0

/-- `s_mw_mp_norm`, with the shift that it returns -/
def sMwMpNorm (a b : MwMpInt) : Option (MwMpDigit × MwMpInt × MwMpInt) := do
  let d ← normShift 17 (b.digits.getLastD 0)
  if d ≠ 0 then
    let a ← sMwMpMul2d a d
    let b ← sMwMpMul2d b d
    return (d, a, b)
  else return (d, a, b)

theorem bits_toNat (d : MwMpDigit) : (d % 16).toUInt32.toNat = d.toNat % 16 := by
  rw [UInt16.toNat_toUInt32, UInt16.toNat_mod]
  rfl

theorem bits_lt (d : MwMpDigit) : (d % 16).toUInt32.toNat < 16 := by
  rw [bits_toNat]
  exact Nat.mod_lt _ (by decide)

theorem two_pow_digits (d : Nat) : 2 ^ d = 65536 ^ (d / 16) * 2 ^ (d % 16) := by
  rw [show 65536 = 2 ^ 16 from rfl, ← Nat.pow_mul, ← Nat.pow_add, Nat.div_add_mod]

theorem holds_sMwMpMul2d (h : mp.Wf) (d : MwMpDigit) :
    ∃ r, sMwMpMul2d mp d = some r ∧ r.Holds (mp.abs * 2 ^ d.toNat) ∧
      (mp.sign = .zpos → r.sign = .zpos) := by
  have hshift := sMwMpLshd_abs h (d.toNat / 16)
  have hsign := sMwMpLshd_sign mp (d.toNat / 16)
  have hwf := sMwMpLshd_wf h (d.toNat / 16)
  have hd := bits_lt d
  have hbits := bits_toNat d
  unfold sMwMpMul2d
  dsimp only
  generalize sMwMpLshd mp (d.toNat / 16) = shifted at hshift hsign hwf ⊢
  rw [two_pow_digits, show mp.abs * (65536 ^ (d.toNat / 16) * 2 ^ (d.toNat % 16)) =
    shifted.abs * 2 ^ (d.toNat % 16) by rw [hshift]; ring, ← hbits]
  generalize (d % 16).toUInt32 = bits at hd
  -- the digits are the same whether there is room made above them or not
  set grown := if (shifted.digits.getLastD 0).toUInt32 >>> (16 - bits) &&& shiftMask bits ≠ 0 then
    sMwMpGrow shifted (shifted.used + 1) else shifted with hgrown
  have hdigits : grown.digits = shifted.digits := by
    rw [hgrown]
    split
    · exact sMwMpGrow_digits _ _
    · rfl
  have hclear : IsClear grown.spare := by
    rw [hgrown]
    split
    · exact sMwMpGrow_clear hwf.clear _
    · exact hwf.clear
  have hgrownsign : grown.sign = shifted.sign := by
    rw [hgrown]
    split
    · exact sMwMpGrow_sign _ _
    · rfl
  have hvalue := shlDigits_spec hd shifted.digits
    (show (0 : MwMpDigit).toNat < 2 ^ bits.toNat from Nat.two_pow_pos _)
  have hlength := shlDigits_length shifted.digits bits 0
  have hne : (shlDigits shifted.digits bits 0).1 ≠ [] :=
    List.length_pos_iff.mp (hlength.trans_gt hwf.used_pos)
  rw [UInt16.toNat_zero, Nat.add_zero] at hvalue
  rw [hdigits]
  have hzpos : ∀ mp' : MwMpInt, mp'.sign = grown.sign → mp.sign = .zpos → (sMwMpClamp mp').sign = .zpos :=
    fun mp' hmp' hmp => sMwMpClamp_zpos (hmp'.trans (hgrownsign.trans (hsign.trans hmp)))
  by_cases hsave : (shlDigits shifted.digits bits 0).2 = 0
  · rw [if_pos hsave]
    refine ⟨_, rfl, holds_sMwMpClamp ⟨hne, hclear⟩ ?_, hzpos _ rfl⟩
    rw [hsave, UInt16.toNat_zero, Nat.mul_zero, Nat.add_zero] at hvalue
    exact hvalue
  · have hroom : shifted.used < grown.alloc := by
      rw [hgrown, if_pos]
      · exact le_sMwMpGrow_alloc shifted (shifted.used + 1)
      · intro hzero
        rw [shlDigits_carry hwf.digits_ne, hzero] at hsave
        exact hsave rfl
    rw [if_neg hsave, if_pos hroom]
    have htail : IsClear grown.spare.tail := by
      rw [← List.drop_one]
      exact hclear.drop 1
    refine ⟨_, rfl, holds_sMwMpClamp ⟨by simp, htail⟩ ?_, hzpos _ rfl⟩
    rw [MwMpInt.abs, value_append, value_cons, value_nil, Nat.mul_zero, Nat.add_zero, hlength]
    exact hvalue

theorem holds_sMwMpDiv2d (h : mp.Holds n) (d : MwMpDigit) :
    (sMwMpDiv2d mp d).Holds (n / 2 ^ d.toNat) := by
  have hshift := holds_sMwMpRshd h (d.toNat / 16)
  obtain ⟨hvalue, -⟩ := shrDigits_spec (bits_lt d) (sMwMpRshd mp (d.toNat / 16)).digits
  have hlength := shrDigits_length (sMwMpRshd mp (d.toNat / 16)).digits (d % 16).toUInt32
  have hne : (shrDigits (sMwMpRshd mp (d.toNat / 16)).digits (d % 16).toUInt32).1 ≠ [] :=
    List.length_pos_iff.mp (hlength.trans_gt hshift.used_pos)
  refine holds_sMwMpClamp ⟨hne, hshift.clear⟩ ?_
  rw [MwMpInt.abs, hvalue, bits_toNat, two_pow_digits d.toNat, ← Nat.div_div_eq_div_mul]
  exact congrArg (· / 2 ^ (d.toNat % 16)) hshift.abs_eq

theorem holds_sMwMpMod2d (h : mp.Holds n) (d : MwMpDigit) :
    (sMwMpMod2d mp d).Holds (n % 2 ^ d.toNat) := by
  unfold sMwMpMod2d
  dsimp only
  have hpow := two_pow_digits d.toNat
  split
  case isTrue hall =>
    have hlt : n < 2 ^ d.toNat := by
      calc n < 65536 ^ mp.used := h.lt
        _ ≤ 65536 ^ (d.toNat / 16) := Nat.pow_le_pow_right (by decide) hall
        _ ≤ 2 ^ d.toNat := by rw [hpow]; exact Nat.le_mul_of_pos_right _ (Nat.two_pow_pos _)
    rwa [Nat.mod_eq_of_lt hlt]
  case isFalse hsome =>
    have hlt : d.toNat / 16 < mp.digits.length := Nat.lt_of_not_le hsome
    refine holds_sMwMpClamp ⟨by simp, h.clear⟩ ?_
    have hsplit : value mp.digits = value (mp.digits.take (d.toNat / 16)) +
        65536 ^ (d.toNat / 16) * ((mp.digits.getD (d.toNat / 16) 0).toNat +
          65536 * value (mp.digits.drop (d.toNat / 16 + 1))) := by
      have hdrop : mp.digits.drop (d.toNat / 16) =
          mp.digits.getD (d.toNat / 16) 0 :: mp.digits.drop (d.toNat / 16 + 1) := by
        rw [List.drop_eq_getElem_cons hlt, List.getD_eq_getElem _ _ hlt]
      rw [← value_cons, ← hdrop, value_take, value_drop, Nat.mod_add_div]
    have hbelow : value (mp.digits.take (d.toNat / 16)) < 65536 ^ (d.toNat / 16) := by
      have := value_lt (mp.digits.take (d.toNat / 16))
      rwa [List.length_take_of_le (Nat.le_of_lt hlt)] at this
    have hmask : (mp.digits.getD (d.toNat / 16) 0 &&& (shiftMask (d % 16).toUInt32).toUInt16).toNat =
        (mp.digits.getD (d.toNat / 16) 0).toNat % 2 ^ (d.toNat % 16) := by
      have hpow15 : 2 ^ (d.toNat % 16) ≤ 2 ^ 15 :=
        Nat.pow_le_pow_right (by decide) (by have := Nat.mod_lt d.toNat (by decide : 0 < 16); omega)
      rw [UInt16.toNat_and, UInt32.toNat_toUInt16, shiftMask_toNat (bits_lt d), bits_toNat,
        Nat.mod_eq_of_lt (by omega), Nat.and_two_pow_sub_one_eq_mod]
    rw [MwMpInt.abs, value_append_clear, value_append, value_cons, value_nil, Nat.mul_zero, Nat.add_zero,
      List.length_take_of_le (Nat.le_of_lt hlt), hmask, ← h.abs_eq, MwMpInt.abs, hsplit, hpow]
    have hdigit : 2 ^ (d.toNat % 16) ∣ 65536 :=
      (pow_dvd_pow 2 (Nat.le_of_lt (Nat.mod_lt _ (by decide : 0 < 16)))).trans (by decide)
    rw [Nat.mod_mul, Nat.add_mul_mod_self_left, Nat.mod_eq_of_lt hbelow,
      Nat.add_mul_div_left _ _ (Nat.pow_pos (by decide)), Nat.div_eq_of_lt hbelow, Nat.zero_add]
    obtain ⟨k, hk⟩ := hdigit
    rw [hk, Nat.mul_assoc, Nat.add_mul_mod_self_left]

theorem sMwMpMod2d_zpos (hsign : mp.sign = .zpos) (d : MwMpDigit) : (sMwMpMod2d mp d).sign = .zpos := by
  unfold sMwMpMod2d
  dsimp only
  split
  · exact hsign
  · exact sMwMpClamp_zpos hsign

/-! ## The leading digit -/

/-- The leading digit is what is left of the value without the others. -/
theorem abs_div_top (h : mp.Wf) : mp.abs / 65536 ^ (mp.used - 1) = (mp.digits.getLastD 0).toNat := by
  rw [MwMpInt.abs, ← value_drop, used, List.drop_length_sub_one h.digits_ne, value_cons, value_nil,
    Nat.mul_zero, Nat.add_zero, List.getLastD_eq_getLast?, List.getLast?_eq_some_getLast h.digits_ne,
    Option.getD_some]

theorem used_eq_of_le (h : mp.Holds n) {k : Nat} (hle : 65536 ^ k ≤ n) (hlt : n < 65536 ^ (k + 1)) :
    mp.used = k + 1 := by
  have hpos := h.used_pos
  have hlow : k < mp.used := (Nat.pow_lt_pow_iff_right (by decide)).mp (hle.trans_lt h.lt)
  by_contra hne
  have hmany : 1 < mp.used := by omega
  have hhigh : mp.used - 1 < k + 1 := (Nat.pow_lt_pow_iff_right (by decide)).mp ((h.le hmany).trans_lt hlt)
  omega

theorem normShift_spec (fuel : Nat) {t : MwMpDigit} (hpos : 0 < t.toNat) (hfuel : 2 ^ 15 ≤ t.toNat * 2 ^ fuel)
    (hfew : fuel ≤ 16) :
    ∃ d, normShift (fuel + 1) t = some d ∧ d.toNat ≤ fuel ∧ 2 ^ 15 ≤ t.toNat * 2 ^ d.toNat ∧
      t.toNat * 2 ^ d.toNat < 2 ^ 16 := by
  induction fuel generalizing t with
  | zero =>
    have hlarge : ¬ t < 0x8000 := by
      rw [UInt16.lt_iff_toNat_lt, show (0x8000 : MwMpDigit).toNat = 2 ^ 15 from rfl]
      omega
    refine ⟨0, ?_, Nat.le_refl _, ?_, ?_⟩
    · rw [normShift, if_neg hlarge]
    · simpa using hfuel
    · simpa using digit_lt t
  | succ fuel ih =>
    by_cases hsmall : t < 0x8000
    · have ht : t.toNat < 2 ^ 15 := UInt16.lt_iff_toNat_lt.mp hsmall
      have hdouble : (t <<< 1).toNat = t.toNat * 2 := by
        rw [UInt16.toNat_shiftLeft, UInt16.toNat_one, Nat.mod_eq_of_lt (by decide : 1 < 16),
          Nat.shiftLeft_eq, Nat.mod_eq_of_lt (by omega)]
      obtain ⟨d, hd, hle, hlow, hhigh⟩ := ih (t := t <<< 1) (by omega)
        (by rw [hdouble, Nat.mul_assoc, ← Nat.pow_succ']; exact hfuel) (by omega)
      have hsucc : (d + 1).toNat = d.toNat + 1 := by
        rw [UInt16.toNat_add, UInt16.toNat_one]
        exact Nat.mod_eq_of_lt (by omega)
      rw [hdouble, Nat.mul_assoc, ← Nat.pow_succ', Nat.succ_eq_add_one, ← hsucc] at hlow hhigh
      refine ⟨d + 1, ?_, by omega, hlow, hhigh⟩
      rw [normShift, if_pos hsmall, hd, Option.map_some]
    · refine ⟨0, by rw [normShift, if_neg hsmall], Nat.zero_le _, ?_, by simpa using digit_lt t⟩
      have hlarge : 2 ^ 15 ≤ t.toNat := Nat.le_of_not_lt fun h => hsmall (UInt16.lt_iff_toNat_lt.mpr h)
      simpa using hlarge

/-- Both numbers are shifted until the leading digit of the divisor is at least half of the
radix. -/
theorem sMwMpNorm_spec {a b : MwMpInt} {m : Nat} (ha : a.Holds n) (hb : b.Holds m) (hm : 0 < m) :
    ∃ d a' b', sMwMpNorm a b = some (d, a', b') ∧ a'.Holds (n * 2 ^ d.toNat) ∧
      b'.Holds (m * 2 ^ d.toNat) ∧ 2 ^ 15 ≤ (b'.digits.getLastD 0).toNat := by
  have htop := abs_div_top hb.toWf
  rw [hb.abs_eq] at htop
  have hpos : 0 < (b.digits.getLastD 0).toNat := by
    rw [← htop]
    refine Nat.div_pos ?_ (Nat.pow_pos (by decide))
    by_cases hmany : 1 < b.used
    · exact hb.le hmany
    · rw [show b.used - 1 = 0 by omega]
      exact hm
  obtain ⟨d, hd, -, hlow, hhigh⟩ := normShift_spec 16 hpos (by omega) (Nat.le_refl _)
  unfold sMwMpNorm
  rw [hd]
  simp only [Option.bind_eq_bind, Option.bind_some, Option.pure_def]
  by_cases hzero : d = 0
  · subst hzero
    refine ⟨0, a, b, by simp, by simpa using ha, by simpa using hb, by simpa using hlow⟩
  · obtain ⟨a', ha', hholds, -⟩ := holds_sMwMpMul2d ha.toWf d
    obtain ⟨b', hb', hholds', -⟩ := holds_sMwMpMul2d hb.toWf d
    rw [ha.abs_eq] at hholds
    rw [hb.abs_eq] at hholds'
    refine ⟨d, a', b', by simp [hzero, ha', hb'], hholds, hholds', ?_⟩
    set scale := 65536 ^ (b.used - 1) with hscale
    have hspos : 0 < scale := Nat.pow_pos (by decide)
    -- the divisor keeps its number of digits
    have hge : scale * 2 ^ 15 ≤ m * 2 ^ d.toNat := by
      calc scale * 2 ^ 15 ≤ scale * ((b.digits.getLastD 0).toNat * 2 ^ d.toNat) :=
            Nat.mul_le_mul_left _ hlow
        _ = scale * (m / scale) * 2 ^ d.toNat := by rw [← htop]; ring
        _ ≤ m * 2 ^ d.toNat := Nat.mul_le_mul_right _ (Nat.mul_div_le m scale)
    have hlt : m * 2 ^ d.toNat < scale * 65536 := by
      have hfit : ((b.digits.getLastD 0).toNat + 1) * 2 ^ d.toNat ≤ 65536 := by
        have hd16 : d.toNat ≤ 16 := by
          by_contra hmore
          have := Nat.pow_le_pow_right (by decide : 0 < 2) (show 17 ≤ d.toNat by omega)
          have := Nat.mul_le_mul hpos this
          omega
        have hsplit : 2 ^ (16 - d.toNat) * 2 ^ d.toNat = 65536 := by
          rw [← Nat.pow_add, Nat.sub_add_cancel hd16]
        rw [← hsplit]
        refine Nat.mul_le_mul_right _ (Nat.succ_le_of_lt ?_)
        refine Nat.lt_of_mul_lt_mul_right (a := 2 ^ d.toNat) ?_
        rw [hsplit]
        exact hhigh
      calc m * 2 ^ d.toNat < scale * ((b.digits.getLastD 0).toNat + 1) * 2 ^ d.toNat := by
            refine Nat.mul_lt_mul_of_pos_right ?_ (Nat.two_pow_pos _)
            rw [← htop]
            exact Nat.lt_mul_div_succ m hspos
        _ = scale * (((b.digits.getLastD 0).toNat + 1) * 2 ^ d.toNat) := Nat.mul_assoc _ _ _
        _ ≤ scale * 65536 := Nat.mul_le_mul_left _ hfit
    have hused := used_eq_of_le hholds' (hscale ▸ (Nat.le_mul_of_pos_right _ (by decide)).trans hge)
      (by rw [Nat.pow_succ, ← hscale]; exact hlt)
    rw [← abs_div_top hholds'.toWf, hholds'.abs_eq, hused, Nat.add_sub_cancel, ← hscale]
    exact (Nat.le_div_iff_mul_le hspos).mpr (by rw [Nat.mul_comm]; exact hge)

end Meanwhile.Mpi
