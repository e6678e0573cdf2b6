-- SUMMARY: Cipher block chaining over an arbitrary block cipher, with the chaining value carried across messages.
import Mathlib.Data.List.Basic

/-!
# Cipher block chaining

Chaining over any type of blocks with a combining operation that cancels itself.
The chaining value is part of the result, so that one run of blocks can be
continued by the next.
-/

namespace Cbc

variable {B : Type} (xor : B → B → B)

/-- Encrypt blocks in order: the chaining value afterwards, and the output. -/
def encrypt (enc : B → B) : B → List B → B × List B
  | iv, [] => (iv, [])
  | iv, p :: ps =>
      let c := enc (xor p iv)
      let r := encrypt enc c ps
      (r.1, c :: r.2)

/-- Decrypt blocks in order: the chaining value afterwards, and the output. -/
def decrypt (dec : B → B) : B → List B → B × List B
  | iv, [] => (iv, [])
  | iv, c :: cs =>
      let p := xor (dec c) iv
      let r := decrypt dec c cs
      (r.1, p :: r.2)

/-- Decryption from the same chaining value undoes encryption and ends with the
same chaining value. -/
theorem decrypt_encrypt {enc dec : B → B} (hdec : ∀ b, dec (enc b) = b)
    (hxor : ∀ a b, xor (xor a b) b = a) (iv : B) (ps : List B) :
    decrypt xor dec iv (encrypt xor enc iv ps).2 = ((encrypt xor enc iv ps).1, ps) := by
  induction ps generalizing iv with
  | nil => rfl
  | cons p ps ih => simp [encrypt, decrypt, hdec, hxor, ih]

theorem length_encrypt (enc : B → B) (iv : B) (ps : List B) :
    (encrypt xor enc iv ps).2.length = ps.length := by
  induction ps generalizing iv with
  | nil => rfl
  | cons p ps ih => simp [encrypt, ih]

end Cbc
