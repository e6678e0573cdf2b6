-- SUMMARY: Numbers of mpi.c from and to bytes: what is written is the shortest string, and reads back.
import Meanwhile.Mpi.Modular
import Meanwhile.Lib.BigEndian

/-!
# Numbers and bytes

A number is read a byte at a time, from the highest one. It is written from its digits, the
lowest byte first, and turned around in the end. Zero is a byte of its own where the shortest
string of zero has none, and a string of no bytes is not read at all.
-/

namespace Meanwhile.Mpi

open MwMpInt

/-! ## Reading -/

/-- `mw_mp_add_d`, with the sum in the same number -/
def mwMpAddD (b : MwMpInt) (d : MwMpDigit) : MwMpInt :=
  if b.sign = .zpos then sMwMpAddD b d
  else if sMwMpCmwMpD b d ≠ .lt then (sMwMpSubD b d).1
  else { b with sign := .zpos, digits := b.digits.set 0 (d - b.digits.headD 0) }

/-- The loop of `mw_mp_read_unsigned_bin` -/
def readBytes : MwMpInt → List UInt8 → Option MwMpInt
  | mp, [] => some mp
  | mp, c :: str => (sMwMpMul2d mp 8).bind fun mp => readBytes (mwMpAddD mp c.toUInt16) str

/-- `mw_mp_read_unsigned_bin`, where `none` is the assertion that there is a byte -/
def mwMpReadUnsignedBin (mp : MwMpInt) (str : List UInt8) : Option MwMpInt :=
  if str = [] then none else readBytes (mwMpZero mp) str

/-- The loop of `mw_mp_set_int`, with a byte of the number for each turn from the highest one -/
def setBytes : Nat → MwMpInt → UInt64 → Option MwMpInt
  | 0, mp, _ => some mp
  | ix + 1, mp, v =>
      (sMwMpMul2d mp 8).bind fun mp =>
      setBytes ix (sMwMpAddD mp ((v >>> UInt64.ofNat (ix * 8)) &&& 255).toUInt16) v

/-- `mw_mp_set_int` -/
def mwMpSetInt (mp : MwMpInt) (z : Int64) : Option MwMpInt :=
  if z = 0 then some (mwMpZero mp)
  else
    (setBytes 8 (mwMpZero mp) z.abs.toUInt64).map fun mp =>
    if z < 0 then { mp with sign := .neg } else mp

section

variable {mp : MwMpInt} {n : Nat} {z : Int}

theorem natural_readBytes (h : Natural mp n) (str : List UInt8) :
    ∃ r, readBytes mp str = some r ∧ Natural r (n * 256 ^ str.length + BigEndian.value str) := by
  induction str generalizing mp n with
  | nil => exact ⟨mp, rfl, by simpa [BigEndian.value] using h⟩
  | cons c str ih =>
    obtain ⟨r, hr, hholds, hzpos⟩ := holds_sMwMpMul2d h.1.toWf 8
    rw [h.1.abs_eq] at hholds
    have hsum : Natural (mwMpAddD r c.toUInt16) (n * 2 ^ 8 + c.toNat) := by
      rw [mwMpAddD, if_pos (hzpos h.2)]
      have hadd := holds_sMwMpAddD hholds c.toUInt16
      rw [UInt8.toNat_toUInt16] at hadd
      exact ⟨hadd, (sMwMpAddD_sign r _).trans (hzpos h.2)⟩
    obtain ⟨r', hr', hnat⟩ := ih hsum
    refine ⟨r', by rw [readBytes, hr]; exact hr', ?_⟩
    rw [BigEndian.value_cons, List.length_cons, Nat.pow_succ]
    rw [Nat.add_mul] at hnat
    convert hnat using 1
    ring

theorem mwMpReadUnsignedBin_spec (mp : MwMpInt) {str : List UInt8} (hne : str ≠ []) :
    ∃ r, mwMpReadUnsignedBin mp str = some r ∧ Natural r (BigEndian.value str) := by
  obtain ⟨r, hr, hnat⟩ := natural_readBytes (show Natural (mwMpZero mp) 0 from ⟨holds_mwMpZero mp, rfl⟩) str
  rw [Nat.zero_mul, Nat.zero_add] at hnat
  exact ⟨r, by rw [mwMpReadUnsignedBin, if_neg hne]; exact hr, hnat⟩

theorem setByte_toNat {ix : Nat} (hix : ix < 8) (v : UInt64) :
    ((v >>> UInt64.ofNat (ix * 8)) &&& 255).toUInt16.toNat = v.toNat / 256 ^ ix % 256 := by
  rw [UInt64.toNat_toUInt16, UInt64.toNat_and, UInt64.toNat_shiftRight, UInt64.toNat_ofNat',
    show (255 : UInt64).toNat = 2 ^ 8 - 1 from rfl, Nat.and_two_pow_sub_one_eq_mod,
    Nat.mod_eq_of_lt (by omega : ix * 8 < 2 ^ 64), Nat.mod_eq_of_lt (by omega : ix * 8 < 64),
    Nat.shiftRight_eq_div_pow, Nat.mul_comm ix, Nat.pow_mul, show (2 : Nat) ^ 8 = 256 from rfl]
  exact Nat.mod_eq_of_lt ((Nat.mod_lt _ (by decide)).trans (by decide))

theorem natural_setBytes {ix : Nat} (hix : ix ≤ 8) (h : Natural mp n) (v : UInt64) :
    ∃ r, setBytes ix mp v = some r ∧ Natural r (n * 256 ^ ix + v.toNat % 256 ^ ix) := by
  induction ix generalizing mp n with
  | zero => exact ⟨mp, rfl, by simpa [Nat.mod_one] using h⟩
  | succ ix ih =>
    obtain ⟨r, hr, hholds, hzpos⟩ := holds_sMwMpMul2d h.1.toWf 8
    rw [h.1.abs_eq] at hholds
    have hadd := holds_sMwMpAddD hholds ((v >>> UInt64.ofNat (ix * 8)) &&& 255).toUInt16
    rw [setByte_toNat (by omega)] at hadd
    obtain ⟨r', hr', hnat⟩ := ih (by omega) ⟨hadd, (sMwMpAddD_sign r _).trans (hzpos h.2)⟩
    refine ⟨r', by rw [setBytes, hr]; exact hr', ?_⟩
    have hsplit : n * 256 ^ (ix + 1) + v.toNat % 256 ^ (ix + 1) =
        (n * 2 ^ (8 : MwMpDigit).toNat + v.toNat / 256 ^ ix % 256) * 256 ^ ix + v.toNat % 256 ^ ix := by
      rw [Nat.pow_succ, Nat.mod_mul, show (2 : Nat) ^ (8 : MwMpDigit).toNat = 256 from rfl]
      ring
    rwa [hsplit]

/-- The absolute value is right as an unsigned number even where it is none as a signed one. -/
theorem abs_toUInt64 (z : Int64) : z.abs.toUInt64.toNat = z.toInt.natAbs := by
  have hlt := z.toBitVec.isLt
  rw [← UInt64.toNat_toBitVec, Int64.toBitVec_toUInt64, Int64.toBitVec_abs, BitVec.toNat_abs,
    ← Int64.toInt_toBitVec, BitVec.toInt_eq_msb_cond]
  split <;> omega

theorem mwMpSetInt_spec (mp : MwMpInt) (z : Int64) :
    ∃ r, mwMpSetInt mp z = some r ∧ Represents r z.toInt := by
  unfold mwMpSetInt
  by_cases hzero : z = 0
  · rw [if_pos hzero, hzero]
    exact ⟨_, rfl, represents_mwMpZero mp⟩
  · have hne : z.toInt ≠ 0 := fun h => hzero (Int64.toInt_inj.mp h)
    have hstart : Natural (mwMpZero mp) 0 := ⟨holds_mwMpZero mp, rfl⟩
    obtain ⟨r, hr, hnat⟩ := natural_setBytes (Nat.le_refl 8) hstart z.abs.toUInt64
    rw [abs_toUInt64, Nat.zero_mul, Nat.zero_add, Nat.mod_eq_of_lt
      (abs_toUInt64 z ▸ z.abs.toUInt64.toNat_lt : z.toInt.natAbs < 256 ^ 8)] at hnat
    have hneg : z < 0 ↔ z.toInt < 0 := Int64.lt_iff_toInt_lt
    rw [if_neg hzero, hr]
    refine ⟨_, rfl, ?_⟩
    split
    case isTrue hless => exact ⟨hnat.1.of_digits rfl hnat.1.clear, by rw [if_pos (hneg.mp hless)]⟩
    case isFalse hmore => exact ⟨hnat.1, by rw [if_neg (mt hneg.mpr hmore)]; exact hnat.2⟩

end

/-! ## Writing -/

/-- The bytes of the highest digit, from the lowest one, without leading zeros -/
def topBytes : Nat → MwMpDigit → List UInt8
  | 0, _ => []
  | fuel + 1, d => if d = 0 then [] else d.toUInt8 :: topBytes fuel (d >>> 8)

/-- `mw_mp_unsigned_bin_size`. A digit has two bytes. -/
def mwMpUnsignedBinSize (mp : MwMpInt) : Nat :=
  if mp.digits = [0] then 1 else (mp.used - 1) * 2 + (topBytes 2 (mp.digits.getLastD 0)).length

/-- The bytes of a number in the order in which `mw_mp_to_unsigned_bin` generates them -/
def binBytes : List MwMpDigit → List UInt8
  | [] => []
  | [d] => topBytes 2 d
  | d :: e :: ds => d.toUInt8 :: (d >>> 8).toUInt8 :: binBytes (e :: ds)

/-- `mw_mp_to_unsigned_bin` -/
def mwMpToUnsignedBin (mp : MwMpInt) : List UInt8 :=
  if mp.digits = [0] then [0] else (binBytes mp.digits).reverse

section

variable {mp : MwMpInt} {n : Nat}

theorem shiftRight_eight (d : MwMpDigit) : (d >>> 8).toNat = d.toNat / 256 := by
  rw [UInt16.toNat_shiftRight, show (8 : MwMpDigit).toNat % 16 = 8 from rfl, Nat.shiftRight_eq_div_pow]

theorem topBytes_value (fuel : Nat) {d : MwMpDigit} (hfuel : d.toNat < 256 ^ fuel) :
    Nat.ofDigits 256 ((topBytes fuel d).map UInt8.toNat) = d.toNat := by
  induction fuel generalizing d with
  | zero =>
    rw [Nat.pow_zero] at hfuel
    rw [topBytes, List.map_nil, Nat.ofDigits_nil]
    omega
  | succ fuel ih =>
    unfold topBytes
    split
    case isTrue hzero => simp [hzero]
    case isFalse =>
      have hshift := shiftRight_eight d
      rw [Nat.pow_succ] at hfuel
      have hrest := ih (d := d >>> 8) (by omega)
      rw [List.map_cons, Nat.ofDigits_cons, hrest, hshift, UInt16.toNat_toUInt8]
      omega

/-- The last byte is not zero, and only zero has none. -/
theorem topBytes_last (fuel : Nat) {d : MwMpDigit} (hfuel : d.toNat < 256 ^ fuel) :
    (topBytes fuel d).getLast? ≠ some 0 ∧ (topBytes fuel d = [] ↔ d = 0) := by
  induction fuel generalizing d with
  | zero =>
    rw [Nat.pow_zero] at hfuel
    refine ⟨by simp [topBytes], iff_of_true rfl (UInt16.toNat_inj.mp ?_)⟩
    rw [UInt16.toNat_zero]
    omega
  | succ fuel ih =>
    unfold topBytes
    split
    case isTrue hzero => simp [hzero]
    case isFalse hne =>
      have hshift := shiftRight_eight d
      rw [Nat.pow_succ] at hfuel
      obtain ⟨hlast, hnil⟩ := ih (d := d >>> 8) (by omega)
      refine ⟨?_, by simp [hne]⟩
      rw [List.getLast?_cons]
      by_cases hempty : topBytes fuel (d >>> 8) = []
      · -- one byte is all of the digit
        rw [hempty]
        have hlow : (d >>> 8).toNat = 0 := by rw [hnil.mp hempty, UInt16.toNat_zero]
        intro hbyte
        have hzero := congrArg UInt8.toNat (Option.some.inj hbyte)
        rw [List.getLast?_nil, Option.getD_none, UInt16.toNat_toUInt8, UInt8.toNat_zero] at hzero
        exact hne (UInt16.toNat_inj.mp (by rw [UInt16.toNat_zero]; omega))
      · rw [List.getLast?_eq_some_getLast hempty, Option.getD_some]
        rwa [List.getLast?_eq_some_getLast hempty] at hlast

theorem binBytes_value (ds : List MwMpDigit) :
    Nat.ofDigits 256 ((binBytes ds).map UInt8.toNat) = value ds := by
  fun_induction binBytes ds with
  | case1 => rfl
  | case2 d => rw [topBytes_value 2 (digit_lt d), value_cons, value_nil, Nat.mul_zero, Nat.add_zero]
  | case3 d e ds ih =>
    rw [List.map_cons, List.map_cons, Nat.ofDigits_cons, Nat.ofDigits_cons, ih, UInt16.toNat_toUInt8,
      UInt16.toNat_toUInt8, shiftRight_eight, value_cons d]
    have hd := digit_lt d
    omega

theorem binBytes_length (ds : List MwMpDigit) :
    (binBytes ds).length = (ds.length - 1) * 2 + (topBytes 2 (ds.getLastD 0)).length := by
  fun_induction binBytes ds with
  | case1 => rfl
  | case2 d => simp
  | case3 d e ds ih =>
    rw [List.length_cons, List.length_cons, ih, List.length_cons, List.length_cons, List.length_cons,
      List.getLastD_cons, List.getLastD_cons, List.getLastD_cons]
    omega

/-- Where the highest digit is not zero, neither is the highest byte. -/
theorem binBytes_last {ds : List MwMpDigit} (hne : ds ≠ []) (htop : ds.getLast? ≠ some 0) :
    binBytes ds ≠ [] ∧ (binBytes ds).getLast? ≠ some 0 := by
  fun_induction binBytes ds with
  | case1 => exact absurd rfl hne
  | case2 d =>
    obtain ⟨hlast, hnil⟩ := topBytes_last 2 (digit_lt d)
    exact ⟨mt hnil.mp fun hzero => htop (by rw [hzero]; rfl), hlast⟩
  | case3 d e ds ih =>
    obtain ⟨hbytes, hlast⟩ := ih (List.cons_ne_nil _ _) (by rwa [List.getLast?_cons_cons] at htop)
    refine ⟨List.cons_ne_nil _ _, ?_⟩
    obtain ⟨c, cs, hcs⟩ := List.exists_cons_of_ne_nil hbytes
    rw [hcs] at hlast ⊢
    rwa [List.getLast?_cons_cons, List.getLast?_cons_cons]

/-- The highest digit of a number that is not zero -/
theorem MwMpInt.Holds.getLast?_ne (h : mp.Holds n) (hn : n ≠ 0) : mp.digits.getLast? ≠ some 0 := by
  by_cases hmany : 1 < mp.used
  · exact h.clamped hmany
  · obtain ⟨d, hd⟩ := List.length_eq_one_iff.mp (Nat.le_antisymm (Nat.le_of_not_lt hmany) h.used_pos)
    have hzero := mt (digits_eq_zero_iff h).mp hn
    rw [hd] at hzero ⊢
    simpa using hzero

/-- What is written is the shortest string, but zero is a byte. -/
theorem mwMpToUnsignedBin_eq (h : mp.Holds n) :
    mwMpToUnsignedBin mp = if n = 0 then [0] else BigEndian.bytes n := by
  unfold mwMpToUnsignedBin
  rw [if_congr (digits_eq_zero_iff h) rfl rfl]
  split
  case isTrue => rfl
  case isFalse hne =>
    obtain ⟨-, hlast⟩ := binBytes_last h.digits_ne (h.getLast?_ne hne)
    rw [BigEndian.reverse_eq_bytes hlast, binBytes_value, ← h.abs_eq, MwMpInt.abs]

/-- The size is that of what is written. -/
theorem mwMpUnsignedBinSize_eq (mp : MwMpInt) : mwMpUnsignedBinSize mp = (mwMpToUnsignedBin mp).length := by
  unfold mwMpUnsignedBinSize mwMpToUnsignedBin
  split
  · rfl
  · rw [List.length_reverse, binBytes_length, used]

/-- What is written reads back, zero included. -/
theorem mwMpReadUnsignedBin_write (h : mp.Holds n) (mp' : MwMpInt) :
    ∃ r, mwMpReadUnsignedBin mp' (mwMpToUnsignedBin mp) = some r ∧ Natural r n := by
  have hwrite := mwMpToUnsignedBin_eq h
  have hvalue : BigEndian.value (mwMpToUnsignedBin mp) = n := by
    rw [hwrite]
    split
    case isTrue hzero => simp [hzero, BigEndian.value]
    case isFalse => exact BigEndian.value_bytes n
  have hne : mwMpToUnsignedBin mp ≠ [] := by
    rw [hwrite]
    split
    case isTrue => simp
    case isFalse hpos =>
      intro hnil
      have := BigEndian.value_bytes n
      rw [hnil] at this
      exact hpos this.symm
  rw [← hvalue]
  exact mwMpReadUnsignedBin_spec mp' hne

/-- What has been read is written without the zeros that it starts with, and zero as one byte.
That is as many bytes as are said to be needed, and reads back. -/
theorem mwMpToUnsignedBin_read (mp mp' : MwMpInt) {str : List UInt8} (hne : str ≠ []) :
    ∃ r r', mwMpReadUnsignedBin mp str = some r ∧
      mwMpToUnsignedBin r = (if BigEndian.value str = 0 then [0] else str.dropWhile (· = 0)) ∧
      mwMpUnsignedBinSize r = (mwMpToUnsignedBin r).length ∧
      mwMpReadUnsignedBin mp' (mwMpToUnsignedBin r) = some r' ∧ r'.digits = r.digits := by
  obtain ⟨r, hr, hnat⟩ := mwMpReadUnsignedBin_spec mp hne
  obtain ⟨r', hr', hnat'⟩ := mwMpReadUnsignedBin_write hnat.1 mp'
  refine ⟨r, r', hr, ?_, mwMpUnsignedBinSize_eq r, hr', digits_eq_of_holds hnat'.1 hnat.1⟩
  rw [mwMpToUnsignedBin_eq hnat.1, BigEndian.bytes_value]

theorem mwMpToUnsignedBin_read_zeros :
    ∃ r r', mwMpReadUnsignedBin mwMpInit [0, 0, 1, 2, 0] = some r ∧
      mwMpToUnsignedBin r =
        (if BigEndian.value [0, 0, 1, 2, 0] = 0 then [0] else [0, 0, 1, 2, 0].dropWhile (· = 0)) ∧
      mwMpUnsignedBinSize r = (mwMpToUnsignedBin r).length ∧
      mwMpReadUnsignedBin mwMpInit (mwMpToUnsignedBin r) = some r' ∧ r'.digits = r.digits :=
  mwMpToUnsignedBin_read mwMpInit mwMpInit (by decide)

end

end Meanwhile.Mpi
