-- SUMMARY: Numbers of many digits as mpi.c lays them out, their values, and the operations that move whole digits.
import Mathlib.Data.Nat.Digits.Lemmas

/-!
# Numbers of many digits

`mw_mp_int` is a sign and a buffer of digits of sixteen bits, the lowest first. The first
`used` digits are those of the number. The others are allocated and should be zero, so
that a number can grow into them: `s_mw_mp_pad` counts on it.

`Wf` is what every operation is given and gives back. A number is `Clamped` when its last
digit is not zero, or is the only one. Comparisons look at `used` first, so that they are
right about clamped numbers only.

The code has an `int` for the index of the digits in `s_mw_mp_cmp`, in the loop of
`s_mw_mp_div` and in that of `mw_mp_exptmod`, which skip their digits when there are more than
it counts. Here indices are not bounded: the functions are those of the code for numbers that
are `Indexed`.
-/

namespace Meanwhile.Mpi

/-! ## Digits -/

/-- `mw_mp_digit` -/
abbrev MwMpDigit := UInt16

/-- `mw_mp_word` -/
abbrev MwMpWord := UInt32

/-- `ACCUM` -/
def accum (w : MwMpWord) : MwMpDigit := w.toUInt16

/-- `CARRYOUT` -/
def carryout (w : MwMpWord) : MwMpWord := w >>> 16

/-- The value of a string of digits. `RADIX` is 65536. -/
def value (ds : List MwMpDigit) : Nat := Nat.ofDigits 65536 (ds.map UInt16.toNat)

@[simp]
theorem accum_toNat (w : MwMpWord) : (accum w).toNat = w.toNat % 65536 := UInt32.toNat_toUInt16 w

@[simp]
theorem carryout_toNat (w : MwMpWord) : (carryout w).toNat = w.toNat / 65536 := by
  simp [carryout, Nat.shiftRight_eq_div_pow]

theorem digit_lt (d : MwMpDigit) : d.toNat < 65536 := d.toNat_lt

@[simp]
theorem value_nil : value [] = 0 := rfl

@[simp]
theorem value_cons (d : MwMpDigit) (ds : List MwMpDigit) :
    value (d :: ds) = d.toNat + 65536 * value ds := by
  simp [value, Nat.ofDigits_cons]

theorem value_append (ds es : List MwMpDigit) :
    value (ds ++ es) = value ds + 65536 ^ ds.length * value es := by
  simp [value, Nat.ofDigits_append]

theorem value_lt (ds : List MwMpDigit) : value ds < 65536 ^ ds.length := by
  have h := Nat.ofDigits_lt_base_pow_length (b := 65536) (l := ds.map UInt16.toNat) (by decide)
    (by simp only [List.mem_map]; rintro x ⟨d, -, rfl⟩; exact digit_lt d)
  simpa [value] using h

/-- Strings of zeros -/
def IsClear (ds : List MwMpDigit) : Prop := ∀ d ∈ ds, d = 0

theorem IsClear.value_eq {ds : List MwMpDigit} (h : IsClear ds) : value ds = 0 := by
  induction ds with
  | nil => rfl
  | cons d ds ih =>
    obtain ⟨rfl, hds⟩ := List.forall_mem_cons.mp h
    simp [ih hds]

theorem isClear_replicate (n : Nat) : IsClear (List.replicate n 0) :=
  fun _ h => (List.mem_replicate.mp h).2

theorem IsClear.append {ds es : List MwMpDigit} (hds : IsClear ds) (hes : IsClear es) :
    IsClear (ds ++ es) :=
  List.forall_mem_append.mpr ⟨hds, hes⟩

theorem IsClear.take {ds : List MwMpDigit} (h : IsClear ds) (n : Nat) : IsClear (ds.take n) :=
  fun d hd => h d (List.mem_of_mem_take hd)

theorem IsClear.drop {ds : List MwMpDigit} (h : IsClear ds) (n : Nat) : IsClear (ds.drop n) :=
  fun d hd => h d (List.mem_of_mem_drop hd)

/-! ## Comparison -/

/-- The loop of `s_mw_mp_cmp`: the first digits from the top that differ decide. -/
def cmpDigits : List MwMpDigit → List MwMpDigit → Ordering
  | a :: as, b :: bs => (cmpDigits as bs).then (compare a b)
  | _, _ => .eq

theorem compare_digits (a b : MwMpDigit) : compare a b = compare a.toNat b.toNat := by
  rcases Nat.lt_trichotomy a.toNat b.toNat with hlt | heq | hgt
  · rw [Nat.compare_eq_lt.mpr hlt]
    exact Std.compare_eq_lt.mpr hlt
  · rw [UInt16.toNat_inj.mp heq]
    simp
  · rw [Nat.compare_eq_gt.mpr hgt]
    exact Std.compare_eq_gt.mpr hgt

/-- Numbers compare as what is above their last digits does, and as these when that is the
same. -/
theorem compare_place {a b x y n : Nat} (ha : a < n) (hb : b < n) :
    compare (a + n * x) (b + n * y) = (compare x y).then (compare a b) := by
  have hstep : ∀ {a b x y : Nat}, a < n → x < y → a + n * x < b + n * y := by
    intro a b x y ha hxy
    calc a + n * x < n * (x + 1) := by rw [Nat.mul_succ]; omega
      _ ≤ n * y := Nat.mul_le_mul_left n hxy
      _ ≤ b + n * y := Nat.le_add_left _ _
  rcases Nat.lt_trichotomy x y with hlt | rfl | hgt
  · rw [Nat.compare_eq_lt.mpr hlt, Nat.compare_eq_lt.mpr (hstep ha hlt)]
    rfl
  · rw [Nat.compare_eq_eq.mpr (rfl : x = x), Ordering.then, Nat.compare_eq_ite_lt,
      Nat.compare_eq_ite_lt]
    simp only [Nat.add_lt_add_iff_right]
  · rw [Nat.compare_eq_gt.mpr hgt, Nat.compare_eq_gt.mpr (hstep hb hgt)]
    rfl

theorem cmpDigits_eq {as bs : List MwMpDigit} (hlength : as.length = bs.length) :
    cmpDigits as bs = compare (value as) (value bs) := by
  induction as generalizing bs with
  | nil =>
    obtain rfl := List.eq_nil_of_length_eq_zero hlength.symm
    rfl
  | cons a as ih =>
    cases bs with
    | nil => cases hlength
    | cons b bs =>
      rw [cmpDigits, ih (Nat.succ.inj hlength), compare_digits, value_cons, value_cons]
      exact (compare_place (digit_lt a) (digit_lt b)).symm

/-! ## Numbers -/

/-- `mw_mp_sign` -/
inductive MwMpSign where
  | zpos
  | neg
deriving DecidableEq, Repr

/-- `mw_mp_int`. The buffer is in two: the digits used and the ones above them. -/
structure MwMpInt where
  sign : MwMpSign := .zpos
  digits : List MwMpDigit
  spare : List MwMpDigit := []
deriving DecidableEq, Repr

namespace MwMpInt

/-- `USED` -/
def used (mp : MwMpInt) : Nat := mp.digits.length

/-- `ALLOC` -/
def alloc (mp : MwMpInt) : Nat := mp.digits.length + mp.spare.length

/-- The number without its sign -/
def abs (mp : MwMpInt) : Nat := value mp.digits

/-- There is a digit, and what is above the digits is zero. -/
structure Wf (mp : MwMpInt) : Prop where
  digits_ne : mp.digits ≠ []
  clear : IsClear mp.spare

/-- The last digit is not zero unless it is the only one. -/
def Clamped (mp : MwMpInt) : Prop := 1 < mp.used → mp.digits.getLast? ≠ some 0

/-- A number as the operations leave it -/
structure Holds (mp : MwMpInt) (n : Nat) : Prop extends Wf mp where
  abs_eq : mp.abs = n
  clamped : mp.Clamped

theorem Wf.used_pos {mp : MwMpInt} (h : mp.Wf) : 0 < mp.used := List.length_pos_iff.mpr h.digits_ne

theorem abs_lt (mp : MwMpInt) : mp.abs < 65536 ^ mp.used := value_lt _

/-- Being clamped is a matter of how many digits the value needs. -/
theorem clamped_iff {mp : MwMpInt} (h : mp.Wf) :
    mp.Clamped ↔ (1 < mp.used → 65536 ^ (mp.used - 1) ≤ mp.abs) := by
  obtain ⟨d, hd⟩ : ∃ d, mp.digits.getLast? = some d := ⟨_, List.getLast?_eq_some_getLast h.digits_ne⟩
  refine imp_congr_right fun _ => ?_
  rw [hd, Ne, Option.some.injEq]
  obtain ⟨init, hinit⟩ := List.getLast?_eq_some_iff.mp hd
  have hlow := value_lt init
  have habs : mp.abs = value init + 65536 ^ init.length * d.toNat := by
    rw [abs, hinit, value_append]
    simp
  have hused : mp.used - 1 = init.length := by rw [used, hinit]; simp
  rw [hused, habs]
  constructor
  · intro hne
    have hpos : 1 ≤ d.toNat := Nat.pos_of_ne_zero fun hzero => hne (UInt16.toNat_inj.mp hzero)
    calc 65536 ^ init.length = 65536 ^ init.length * 1 := (Nat.mul_one _).symm
      _ ≤ 65536 ^ init.length * d.toNat := Nat.mul_le_mul_left _ hpos
      _ ≤ _ := Nat.le_add_left _ _
  · rintro hle rfl
    simp only [UInt16.toNat_zero, Nat.mul_zero, Nat.add_zero] at hle
    omega

theorem Holds.le {mp : MwMpInt} {n : Nat} (h : mp.Holds n) (hused : 1 < mp.used) :
    65536 ^ (mp.used - 1) ≤ n :=
  h.abs_eq ▸ (clamped_iff h.toWf).mp h.clamped hused

theorem Holds.lt {mp : MwMpInt} {n : Nat} (h : mp.Holds n) : n < 65536 ^ mp.used :=
  h.abs_eq ▸ mp.abs_lt

/-- The same digits, whatever the sign and what is above them -/
theorem Holds.of_digits {mp mp' : MwMpInt} {n : Nat} (h : mp.Holds n) (hdigits : mp'.digits = mp.digits)
    (hclear : IsClear mp'.spare) : mp'.Holds n where
  digits_ne := hdigits ▸ h.digits_ne
  clear := hclear
  abs_eq := by rw [abs, hdigits]; exact h.abs_eq
  clamped := by rw [Clamped, used, hdigits]; exact h.clamped

/-- Digits that are enough for a value and no more hold it. -/
theorem holds_of_le {mp : MwMpInt} {n : Nat} (h : mp.Wf) (habs : mp.abs = n)
    (hle : 1 < mp.used → 65536 ^ (mp.used - 1) ≤ n) : mp.Holds n :=
  ⟨h, habs, (clamped_iff h).mpr (habs ▸ hle)⟩

/-- Digits in a buffer of their own -/
theorem holds_mk (sign : MwMpSign) {ds : List MwMpDigit} (hne : ds ≠ [])
    (htop : 1 < ds.length → ds.getLast? ≠ some 0) : Holds { sign := sign, digits := ds } (value ds) where
  digits_ne := hne
  clear := by simp [IsClear]
  abs_eq := rfl
  clamped := htop

theorem Holds.used_eq_one {mp : MwMpInt} {n : Nat} (h : mp.Holds n) (hn : n < 65536) : mp.used = 1 := by
  by_contra hused
  have hmany : 1 < mp.used := Nat.lt_of_le_of_ne h.used_pos (Ne.symm hused)
  have hle := h.le hmany
  have hone : 65536 ^ 1 ≤ 65536 ^ (mp.used - 1) := Nat.pow_le_pow_right (by decide) (by omega)
  omega

/-- An `int` reaches every digit, and one more. -/
def Indexed (mp : MwMpInt) : Prop := mp.used < 2 ^ 31

instance : DecidablePred Indexed := fun mp => inferInstanceAs (Decidable (mp.used < 2 ^ 31))

end MwMpInt

/-- `s_mw_mp_cmp`, for numbers that are `Indexed` or do not have the same size -/
def sMwMpCmp (a b : MwMpInt) : Ordering :=
  if a.used > b.used then .gt
  else if a.used < b.used then .lt
  else cmpDigits a.digits b.digits

/-- What has fewer digits is smaller. -/
theorem lt_of_used_lt {a b : MwMpInt} {m n : Nat} (ha : a.Holds m) (hb : b.Holds n)
    (h : a.used < b.used) : m < n :=
  calc m < 65536 ^ a.used := ha.lt
    _ ≤ 65536 ^ (b.used - 1) := Nat.pow_le_pow_right (by decide) (by omega)
    _ ≤ n := hb.le (by have := ha.used_pos; omega)

/-- A value has one representation. -/
theorem digits_eq_of_holds {a b : MwMpInt} {n : Nat} (ha : a.Holds n) (hb : b.Holds n) :
    a.digits = b.digits := by
  have hused : a.used = b.used := by
    rcases Nat.lt_trichotomy a.used b.used with hlt | heq | hgt
    · exact absurd (lt_of_used_lt ha hb hlt) (Nat.lt_irrefl n)
    · exact heq
    · exact absurd (lt_of_used_lt hb ha hgt) (Nat.lt_irrefl n)
  have hdigit : ∀ ds : List MwMpDigit, ∀ x ∈ ds.map UInt16.toNat, x < 65536 := by
    simp only [List.mem_map]
    rintro ds x ⟨d, -, rfl⟩
    exact digit_lt d
  have hmap := Nat.ofDigits_inj_of_len_eq (by decide : 1 < 65536)
    (by rw [List.length_map, List.length_map]; exact hused) (hdigit a.digits) (hdigit b.digits)
    (ha.abs_eq.trans hb.abs_eq.symm)
  exact List.map_injective_iff.mpr (fun _ _ => UInt16.toNat_inj.mp) hmap

theorem sMwMpCmp_eq {a b : MwMpInt} {m n : Nat} (ha : a.Holds m) (hb : b.Holds n) :
    sMwMpCmp a b = compare m n := by
  unfold sMwMpCmp
  split
  case isTrue hgt => exact (Nat.compare_eq_gt.mpr (lt_of_used_lt hb ha hgt)).symm
  case isFalse hle =>
    split
    case isTrue hlt => exact (Nat.compare_eq_lt.mpr (lt_of_used_lt ha hb hlt)).symm
    case isFalse hge =>
      rw [cmpDigits_eq (by unfold MwMpInt.used at hle hge; omega), ← ha.abs_eq, ← hb.abs_eq]
      rfl

/-- `s_mw_mp_cmw_mp_d` -/
def sMwMpCmwMpD (a : MwMpInt) (d : MwMpDigit) : Ordering :=
  if a.used > 1 then .gt else compare (a.digits.headD 0) d

theorem sMwMpCmwMpD_eq {a : MwMpInt} {n : Nat} (ha : a.Holds n) (d : MwMpDigit) :
    sMwMpCmwMpD a d = compare n d.toNat := by
  unfold sMwMpCmwMpD
  have hd := digit_lt d
  split
  case isTrue hmany =>
    have hle := ha.le hmany
    have hone : 65536 ^ 1 ≤ 65536 ^ (a.used - 1) := Nat.pow_le_pow_right (by decide) (by omega)
    exact (Nat.compare_eq_gt.mpr (by omega)).symm
  case isFalse hone =>
    have hlength : a.digits.length = 1 := Nat.le_antisymm (Nat.le_of_not_lt hone) ha.used_pos
    obtain ⟨x, hx⟩ := List.length_eq_one_iff.mp hlength
    have habs : n = x.toNat := by rw [← ha.abs_eq, MwMpInt.abs, hx]; simp
    rw [hx, List.headD_cons, compare_digits, habs]

/-- `mw_mp_cmw_mp_z` -/
def mwMpCmwMpZ (a : MwMpInt) : Ordering :=
  if a.sign = .neg then .lt
  else if a.used = 1 ∧ a.digits.headD 0 = 0 then .eq
  else .gt

/-! ## Buffers -/

/-- `MP_DEFPREC` -/
def defprec : Nat := 32

/-- `mw_mp_init_size` -/
def mwMpInitSize (prec : Nat) : MwMpInt := { digits := [0], spare := List.replicate (prec - 1) 0 }

/-- `mw_mp_init` -/
def mwMpInit : MwMpInt := mwMpInitSize defprec

/-- `mw_mp_init_copy` -/
def mwMpInitCopy (from_ : MwMpInt) : MwMpInt := { from_ with spare := [] }

/-- `mw_mp_copy` -/
def mwMpCopy (from_ to_ : MwMpInt) : MwMpInt :=
  if to_.alloc ≥ from_.used then { from_ with spare := List.replicate (to_.alloc - from_.used) 0 }
  else { from_ with spare := [] }

/-- `mw_mp_zero` -/
def mwMpZero (mp : MwMpInt) : MwMpInt := { digits := [0], spare := List.replicate (mp.alloc - 1) 0 }

/-- `mw_mp_set` -/
def mwMpSet (mp : MwMpInt) (d : MwMpDigit) : MwMpInt := { mwMpZero mp with digits := [d] }

/-- `s_mw_mp_grow` -/
def sMwMpGrow (mp : MwMpInt) (min : Nat) : MwMpInt :=
  if min > mp.alloc then
    { mp with spare := List.replicate ((min + (defprec - 1)) / defprec * defprec - mp.used) 0 }
  else mp

/-- `s_mw_mp_pad` -/
def sMwMpPad (mp : MwMpInt) (min : Nat) : MwMpInt :=
  if min > mp.used then
    let mp' := sMwMpGrow mp min
    { mp' with
      digits := mp.digits ++ mp'.spare.take (min - mp.used)
      spare := mp'.spare.drop (min - mp.used) }
  else mp

/-- The loop of `s_mw_mp_clamp`, over the digits from the top -/
def clampUsed : List MwMpDigit → Nat
  | d :: e :: ds => if d = 0 then clampUsed (e :: ds) else ds.length + 2
  | ds => ds.length

/-- `s_mw_mp_clamp` -/
def sMwMpClamp (mp : MwMpInt) : MwMpInt :=
  let du := clampUsed mp.digits.reverse
  let digits := mp.digits.take du
  { sign := if digits = [0] then .zpos else mp.sign
    digits := digits
    spare := mp.digits.drop du ++ mp.spare }

/-- `s_mw_mp_lshd` -/
def sMwMpLshd (mp : MwMpInt) (p : Nat) : MwMpInt :=
  if p = 0 then mp
  else
    let mp := sMwMpPad mp (mp.used + p)
    { mp with digits := List.replicate p 0 ++ mp.digits.take (mp.used - p) }

/-- `s_mw_mp_rshd` -/
def sMwMpRshd (mp : MwMpInt) (p : Nat) : MwMpInt :=
  if p = 0 then mp
  else if p ≥ mp.used then mwMpZero mp
  else sMwMpClamp { mp with digits := mp.digits.drop p ++ List.replicate p 0 }

/-! ## What they do to the value -/

section

open MwMpInt

variable {mp : MwMpInt} {n : Nat}

theorem holds_mwMpInitSize (prec : Nat) : (mwMpInitSize prec).Holds 0 where
  digits_ne := by simp [mwMpInitSize]
  clear := isClear_replicate _
  abs_eq := by simp [mwMpInitSize, MwMpInt.abs]
  clamped := by simp [mwMpInitSize, Clamped, used]

theorem holds_mwMpInitCopy (h : mp.Holds n) : (mwMpInitCopy mp).Holds n :=
  h.of_digits rfl (by simp [mwMpInitCopy, IsClear])

theorem mwMpCopy_digits (from_ to_ : MwMpInt) : (mwMpCopy from_ to_).digits = from_.digits := by
  unfold mwMpCopy
  split <;> rfl

theorem mwMpCopy_sign (from_ to_ : MwMpInt) : (mwMpCopy from_ to_).sign = from_.sign := by
  unfold mwMpCopy
  split <;> rfl

theorem holds_mwMpCopy (h : mp.Holds n) (to_ : MwMpInt) : (mwMpCopy mp to_).Holds n := by
  refine h.of_digits (mwMpCopy_digits mp to_) ?_
  unfold mwMpCopy
  split
  · exact isClear_replicate _
  · simp [IsClear]

theorem holds_mwMpSet (mp : MwMpInt) (d : MwMpDigit) : (mwMpSet mp d).Holds d.toNat where
  digits_ne := by simp [mwMpSet]
  clear := isClear_replicate _
  abs_eq := by simp [mwMpSet, MwMpInt.abs]
  clamped := by simp [mwMpSet, Clamped, used]

theorem holds_mwMpZero (mp : MwMpInt) : (mwMpZero mp).Holds 0 := holds_mwMpSet mp 0

theorem sMwMpGrow_digits (mp : MwMpInt) (min : Nat) : (sMwMpGrow mp min).digits = mp.digits := by
  unfold sMwMpGrow
  split <;> rfl

theorem sMwMpGrow_sign (mp : MwMpInt) (min : Nat) : (sMwMpGrow mp min).sign = mp.sign := by
  unfold sMwMpGrow
  split <;> rfl

theorem sMwMpGrow_clear (h : IsClear mp.spare) (min : Nat) : IsClear (sMwMpGrow mp min).spare := by
  unfold sMwMpGrow
  split
  · exact isClear_replicate _
  · exact h

/-- There is room for as many digits as were asked for. -/
theorem le_sMwMpGrow_alloc (mp : MwMpInt) (min : Nat) : min ≤ (sMwMpGrow mp min).alloc := by
  unfold sMwMpGrow
  split
  · simp only [alloc, used, List.length_replicate, defprec]
    omega
  · omega

/-- The number gets the digits that it lacks, all of them zero. -/
theorem sMwMpPad_digits (h : IsClear mp.spare) (min : Nat) :
    (sMwMpPad mp min).digits = mp.digits ++ List.replicate (min - mp.used) 0 := by
  unfold sMwMpPad
  split
  case isTrue hmore =>
    have hroom := le_sMwMpGrow_alloc mp min
    rw [alloc, sMwMpGrow_digits] at hroom
    have hlength : ((sMwMpGrow mp min).spare.take (min - mp.used)).length = min - mp.used := by
      rw [List.length_take, used]
      omega
    have hclear := (sMwMpGrow_clear h min).take (min - mp.used)
    exact congrArg (mp.digits ++ ·) (List.eq_replicate_iff.mpr ⟨hlength, hclear⟩)
  case isFalse hless => simp [Nat.sub_eq_zero_of_le (Nat.le_of_not_lt hless)]

theorem sMwMpPad_clear (h : IsClear mp.spare) (min : Nat) : IsClear (sMwMpPad mp min).spare := by
  unfold sMwMpPad
  split
  · exact (sMwMpGrow_clear h min).drop _
  · exact h

theorem sMwMpPad_sign (mp : MwMpInt) (min : Nat) : (sMwMpPad mp min).sign = mp.sign := by
  unfold sMwMpPad
  split
  · exact sMwMpGrow_sign mp min
  · rfl

theorem sMwMpPad_wf (h : mp.Wf) (min : Nat) : (sMwMpPad mp min).Wf where
  digits_ne := by rw [sMwMpPad_digits h.clear]; simp [h.digits_ne]
  clear := sMwMpPad_clear h.clear min

theorem sMwMpPad_used (h : mp.Wf) (min : Nat) : (sMwMpPad mp min).used = max mp.used min := by
  rw [used, sMwMpPad_digits h.clear, List.length_append, List.length_replicate, ← used]
  omega

theorem value_append_clear (ds : List MwMpDigit) (k : Nat) :
    value (ds ++ List.replicate k 0) = value ds := by
  rw [value_append, (isClear_replicate k).value_eq, Nat.mul_zero, Nat.add_zero]

theorem sMwMpPad_abs (h : mp.Wf) (min : Nat) : (sMwMpPad mp min).abs = mp.abs := by
  rw [MwMpInt.abs, sMwMpPad_digits h.clear, value_append_clear]
  rfl

theorem clampUsed_le (ds : List MwMpDigit) : clampUsed ds ≤ ds.length := by
  fun_induction clampUsed ds with
  | case1 e ds ih => exact ih.trans (Nat.le_succ _)
  | case2 => exact Nat.le_refl _
  | case3 => exact Nat.le_refl _

/-- What is cut off is zero, and what is left ends with something else or is one digit. -/
theorem clampUsed_spec (ds : List MwMpDigit) :
    IsClear (ds.take (ds.length - clampUsed ds)) ∧
      (1 < clampUsed ds → (ds.drop (ds.length - clampUsed ds)).head? ≠ some 0) ∧
      (ds ≠ [] → 0 < clampUsed ds) := by
  fun_induction clampUsed ds with
  | case1 e ds ih =>
    obtain ⟨hclear, hhead, hpos⟩ := ih
    have hlength : (0 :: e :: ds).length - clampUsed (e :: ds) =
        (e :: ds).length - clampUsed (e :: ds) + 1 := by
      have := clampUsed_le (e :: ds)
      simp only [List.length_cons] at this ⊢
      omega
    rw [hlength, List.take_succ_cons, List.drop_succ_cons]
    exact ⟨List.forall_mem_cons.mpr ⟨rfl, hclear⟩, hhead, fun _ => hpos (by simp)⟩
  | case2 d e ds hne => simp [IsClear, hne]
  | case3 ds hfew =>
    refine ⟨by simp [IsClear], fun hmany => ?_, fun hne => List.length_pos_iff.mpr hne⟩
    rcases ds with _ | ⟨d, _ | ⟨e, ds⟩⟩
    · cases hmany
    · cases hmany with | step h => cases h
    · exact absurd rfl (hfew d e ds)

/-- The number keeps its value and loses its leading zeros. -/
theorem holds_sMwMpClamp (h : mp.Wf) (habs : mp.abs = n) : (sMwMpClamp mp).Holds n := by
  obtain ⟨hclear, hhead, hpos⟩ := clampUsed_spec mp.digits.reverse
  have hle := clampUsed_le mp.digits.reverse
  rw [List.length_reverse] at hclear hhead hle
  rw [List.take_reverse, Nat.sub_sub_self hle] at hclear
  rw [List.drop_reverse, Nat.sub_sub_self hle, List.head?_reverse] at hhead
  have hdropped : IsClear (mp.digits.drop (clampUsed mp.digits.reverse)) :=
    fun d hd => hclear d (List.mem_reverse.mpr hd)
  have hused : (sMwMpClamp mp).used = clampUsed mp.digits.reverse := by
    rw [used, sMwMpClamp, List.length_take, Nat.min_eq_left hle]
  refine ⟨⟨?_, hdropped.append h.clear⟩, ?_, ?_⟩
  · refine List.length_pos_iff.mp ?_
    exact hused.trans_gt (hpos (by simpa using h.digits_ne))
  · have hsplit := value_append (mp.digits.take (clampUsed mp.digits.reverse))
      (mp.digits.drop (clampUsed mp.digits.reverse))
    rw [List.take_append_drop, hdropped.value_eq, Nat.mul_zero, Nat.add_zero] at hsplit
    exact hsplit.symm.trans habs
  · intro hmany
    exact hhead (hused ▸ hmany)

theorem sMwMpClamp_zpos (hsign : mp.sign = .zpos) : (sMwMpClamp mp).sign = .zpos := by
  unfold sMwMpClamp
  dsimp only
  split
  · rfl
  · exact hsign

/-- The sign stays, but zero has none. -/
theorem sMwMpClamp_sign (h : mp.Wf) :
    (sMwMpClamp mp).sign = if mp.abs = 0 then .zpos else mp.sign := by
  have hholds := holds_sMwMpClamp h rfl
  have hzero : mp.abs = 0 ↔ (sMwMpClamp mp).digits = [0] := by
    constructor
    · intro hzero
      have hone := hholds.used_eq_one (by omega)
      obtain ⟨x, hx⟩ := List.length_eq_one_iff.mp hone
      have habs := hholds.abs_eq
      rw [MwMpInt.abs, hx, value_cons, value_nil, hzero, Nat.mul_zero, Nat.add_zero] at habs
      rw [hx, UInt16.toNat_inj.mp (habs.trans UInt16.toNat_zero.symm)]
    · intro hdigits
      rw [← hholds.abs_eq, MwMpInt.abs, hdigits]
      simp
  simp only [hzero]
  rfl

theorem sMwMpLshd_wf (h : mp.Wf) (p : Nat) : (sMwMpLshd mp p).Wf := by
  unfold sMwMpLshd
  split
  case isTrue => exact h
  case isFalse hp => exact ⟨by simp [hp], sMwMpPad_clear h.clear _⟩

theorem sMwMpLshd_digits (h : mp.Wf) (p : Nat) :
    (sMwMpLshd mp p).digits = List.replicate p 0 ++ mp.digits := by
  unfold sMwMpLshd
  split
  case isTrue hp => simp [hp]
  case isFalse hp =>
    dsimp only
    rw [sMwMpPad_used h, sMwMpPad_digits h.clear, Nat.max_eq_right (Nat.le_add_right _ _),
      Nat.add_sub_cancel, show mp.used = mp.digits.length from rfl, List.take_left]

theorem sMwMpLshd_abs (h : mp.Wf) (p : Nat) : (sMwMpLshd mp p).abs = 65536 ^ p * mp.abs := by
  rw [MwMpInt.abs, sMwMpLshd_digits h, value_append, (isClear_replicate p).value_eq, Nat.zero_add,
    List.length_replicate]
  rfl

theorem sMwMpLshd_sign (mp : MwMpInt) (p : Nat) : (sMwMpLshd mp p).sign = mp.sign := by
  unfold sMwMpLshd
  split
  · rfl
  · exact sMwMpPad_sign mp _

theorem holds_sMwMpLshd (h : mp.Holds n) (hn : 0 < n) (p : Nat) :
    (sMwMpLshd mp p).Holds (65536 ^ p * n) := by
  refine holds_of_le (sMwMpLshd_wf h.toWf p) (by rw [sMwMpLshd_abs h.toWf, h.abs_eq]) fun _ => ?_
  have hpos := h.used_pos
  have hlength : (sMwMpLshd mp p).used - 1 = p + (mp.used - 1) := by
    rw [used, sMwMpLshd_digits h.toWf, List.length_append, List.length_replicate, ← used]
    omega
  rw [hlength, Nat.pow_add]
  refine Nat.mul_le_mul_left _ ?_
  by_cases hmany : 1 < mp.used
  · exact h.le hmany
  · rw [show mp.used - 1 = 0 by omega]
    exact hn

theorem value_drop (ds : List MwMpDigit) (p : Nat) : value (ds.drop p) = value ds / 65536 ^ p := by
  have h := Nat.ofDigits_div_pow_eq_ofDigits_drop p (by decide : 0 < 65536) (ds.map UInt16.toNat)
    (by simp only [List.mem_map]; rintro x ⟨d, -, rfl⟩; exact digit_lt d)
  rw [value, List.map_drop]
  exact h.symm

theorem value_take (ds : List MwMpDigit) (p : Nat) : value (ds.take p) = value ds % 65536 ^ p := by
  have h := Nat.ofDigits_mod_pow_eq_ofDigits_take p (by decide : 0 < 65536) (ds.map UInt16.toNat)
    (by simp only [List.mem_map]; rintro x ⟨d, -, rfl⟩; exact digit_lt d)
  rw [value, List.map_take]
  exact h.symm

theorem holds_sMwMpRshd (h : mp.Holds n) (p : Nat) : (sMwMpRshd mp p).Holds (n / 65536 ^ p) := by
  unfold sMwMpRshd
  split
  case isTrue hp => simpa [hp] using h
  case isFalse hp =>
    split
    case isTrue hall =>
      have hlt : n < 65536 ^ p := h.lt.trans_le (Nat.pow_le_pow_right (by decide) hall)
      rw [Nat.div_eq_of_lt hlt]
      exact holds_mwMpZero mp
    case isFalse hsome =>
      refine holds_sMwMpClamp ⟨by simp [hp], h.clear⟩ ?_
      rw [MwMpInt.abs, value_append_clear, value_drop, ← h.abs_eq]
      rfl

end

end Meanwhile.Mpi
