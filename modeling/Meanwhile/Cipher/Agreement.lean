-- SUMMARY: Two RC2/128 ciphers agree on a key, whichever of the two has offered it.
import Meanwhile.Cipher.Instance

/-!
# The agreed key

Each side raises the public key of the other to its own private key, one of them when it
has been offered the cipher and the other when the offer has been accepted. Both get the
same secret, and the end of it is the key if the secret is not too short.
-/

namespace Meanwhile

/-- The secret that two private keys share -/
def agreedSecret (privateKey privateKey' : Nat) : Nat := dhBase ^ (privateKey * privateKey') % dhPrime

theorem agreedSecret_comm (k k' : Nat) : agreedSecret k k' = agreedSecret k' k := by
  rw [agreedSecret, agreedSecret, Nat.mul_comm]

theorem mwDhCalculateShared_publicKey (k k' : Nat) :
    mwDhCalculateShared (mwDhPublicKey k') k = agreedSecret k k' := by
  rw [mwDhCalculateShared, mwDhPublicKey, ← Nat.pow_mod, ← Nat.pow_mul, agreedSecret, Nat.mul_comm]

theorem mwDhImportKey_mwDhExportKey (key : Nat) : mwDhImportKey (mwDhExportKey key) = key :=
  BigEndian.value_bytes key

/-- A key is expanded from the secret of two private keys. -/
def AgreedKey (k k' : Nat) (key : EKey) : Prop :=
  expandShared (mwDhExportKey (agreedSecret k k')) = some key

theorem AgreedKey.symm {k k' : Nat} {key : EKey} (h : AgreedKey k k' key) : AgreedKey k' k key := by
  rw [AgreedKey, agreedSecret_comm]
  exact h

/-- A secret of fifteen bytes and a bit is long enough. -/
theorem exists_agreedKey {k k' : Nat} (h : 2 ^ 120 ≤ agreedSecret k k') : ∃ key, AgreedKey k k' key := by
  have hlength : 15 < (mwDhExportKey (agreedSecret k k')).length :=
    BigEndian.lt_length_bytes (by simpa using h)
  exact ⟨_, if_neg (by omega)⟩

/-- What an instance makes of the public key of the other side, `offered_RC2_128` and
`accepted_RC2_128` alike -/
theorem offeredRc2_128_agree {k k' : Nat} {key : EKey} (h : AgreedKey k k' key) {c : MwCipherRc2_128}
    (hc : c.privateKey = k) (ci : MwCipherInstanceRc2_128) {item : MwEncryptItem}
    (hitem : item.info = mwDhExportKey (mwDhPublicKey k')) :
    offeredRc2_128 c ci item = some (.rc2_128 { ci with shared := key }) := by
  rw [offeredRc2_128, hitem, hc, mwDhImportKey_mwDhExportKey, mwDhCalculateShared_publicKey]
  rw [show expandShared (mwDhExportKey (agreedSecret k k')) = some key from h]
  rfl

end Meanwhile
