-- SUMMARY: Big-endian byte strings: their value, the shortest string of a value, and words assembled by shifts.
import Mathlib.Data.Nat.Bitwise
import Mathlib.Data.Nat.Digits.Lemmas

/-!
# Big-endian byte strings

The value of a byte string read most significant byte first, the shortest byte
string of a value, and the shift-and-or assembly of 16- and 32-bit words that
network code uses in their place.
-/

namespace BigEndian

/-- The value of a byte string, most significant byte first. -/
def value (bs : List UInt8) : Nat :=
  Nat.ofDigits 256 (bs.reverse.map UInt8.toNat)

/-- The shortest byte string of a value: no leading zero byte, empty for zero. -/
def bytes (n : Nat) : List UInt8 :=
  ((Nat.digits 256 n).map UInt8.ofNat).reverse

theorem value_bytes (n : Nat) : value (bytes n) = n := by
  have hdigits : (Nat.digits 256 n).map (UInt8.toNat ∘ UInt8.ofNat) = Nat.digits 256 n := by
    rw [List.map_congr_left (g := id) ?_, List.map_id]
    intro d hd
    have hlt : d < 256 := Nat.digits_lt_base (by decide) hd
    exact UInt8.toNat_ofNat_of_lt (by simpa [UInt8.size] using hlt)
  simp only [value, bytes, List.reverse_reverse, List.map_map, hdigits]
  exact Nat.ofDigits_digits 256 n

theorem value_lt (bs : List UInt8) : value bs < 256 ^ bs.length := by
  have h := Nat.ofDigits_lt_base_pow_length (by decide : 1 < 256)
    (l := bs.reverse.map UInt8.toNat)
    (by simp only [List.mem_map]; rintro x ⟨d, -, rfl⟩; exact d.toNat_lt)
  rwa [List.length_map, List.length_reverse] at h

theorem value_cons (b : UInt8) (bs : List UInt8) :
    value (b :: bs) = b.toNat * 256 ^ bs.length + value bs := by
  simp only [value, List.reverse_cons, List.map_append, Nat.ofDigits_append, List.length_map,
    List.length_reverse, List.map_cons, List.map_nil, Nat.ofDigits_singleton]
  rw [Nat.add_comm, Nat.mul_comm]

/-- Digits from the lowest one up are the shortest string of their value in reverse, unless the
highest one is zero. -/
theorem reverse_eq_bytes {ds : List UInt8} (hlast : ds.getLast? ≠ some 0) :
    ds.reverse = bytes (Nat.ofDigits 256 (ds.map UInt8.toNat)) := by
  have hdigits := Nat.digits_ofDigits 256 (by decide) (ds.map UInt8.toNat)
    (by simp only [List.mem_map]; rintro x ⟨d, -, rfl⟩; exact d.toNat_lt) (fun hne hzero => by
      have hne' : ds ≠ [] := by simpa using hne
      refine hlast ((List.getLast?_eq_some_getLast hne').trans (congrArg some ?_))
      rw [List.getLast_map] at hzero
      exact UInt8.toNat_inj.mp hzero)
  have hback : ds.map (UInt8.ofNat ∘ UInt8.toNat) = ds := by simp [Function.comp_def]
  rw [bytes, hdigits, List.map_map, hback]

/-- The shortest string of a value is any string of it without the zeros that it starts with. -/
theorem bytes_value (bs : List UInt8) : bytes (value bs) = bs.dropWhile (· = 0) := by
  have hvalue : value (bs.dropWhile (· = 0)) = value bs := by
    induction bs with
    | nil => rfl
    | cons b bs ih =>
      by_cases hzero : b = 0
      · rw [List.dropWhile_cons_of_pos (by simpa using hzero), ih, value_cons, hzero, UInt8.toNat_zero,
          Nat.zero_mul, Nat.zero_add]
      · rw [List.dropWhile_cons_of_neg (by simpa using hzero)]
  have hhead : (bs.dropWhile (· = 0)).reverse.getLast? ≠ some 0 := by
    rw [List.getLast?_reverse]
    intro hsome
    have := List.head?_dropWhile_not (fun b : UInt8 => decide (b = 0)) bs
    rw [hsome] at this
    simp at this
  have hbytes := reverse_eq_bytes hhead
  rw [List.reverse_reverse] at hbytes
  rw [← hvalue]
  exact hbytes.symm

/-- A value of at least `256 ^ k` needs more than `k` bytes. -/
theorem lt_length_bytes {n k : Nat} (h : 256 ^ k ≤ n) : k < (bytes n).length := by
  simpa [bytes] using (Nat.lt_digits_length_iff (by decide : 1 < 256) n).mpr h

/-! ## Words -/

theorem shiftLeft_or {a b k : Nat} (hb : b < 2 ^ k) : a <<< k ||| b = a * 2 ^ k + b := by
  rw [← Nat.shiftLeft_add_eq_or_of_lt hb, Nat.shiftLeft_eq]

/-- Two bytes assembled by shifting the first one up. -/
theorem word16 {a b : Nat} (hb : b < 256) : a <<< 8 ||| b = a * 256 + b :=
  shiftLeft_or (k := 8) hb

/-- Four bytes assembled by shifts, most significant byte first. -/
theorem word32 {a b c d : Nat} (hb : b < 256) (hc : c < 256) (hd : d < 256) :
    a <<< 24 ||| b <<< 16 ||| c <<< 8 ||| d =
      a * 2 ^ 24 + b * 2 ^ 16 + c * 2 ^ 8 + d := by
  have hcd : c <<< 8 ||| d = c * 2 ^ 8 + d := shiftLeft_or hd
  have hbcd : b <<< 16 ||| (c <<< 8 ||| d) = b * 2 ^ 16 + (c * 2 ^ 8 + d) := by
    rw [hcd]
    exact shiftLeft_or (by omega)
  rw [Nat.or_assoc, Nat.or_assoc, hbcd, shiftLeft_or (by omega)]
  omega

end BigEndian
