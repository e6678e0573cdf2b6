-- SUMMARY: The Diffie-Hellman functions of cipher.c on the numbers of mpi.c, which do what the ciphers take the library at its word for.
import Meanwhile.Cipher.Agreement
import Meanwhile.Mpi.Binary

/-!
# The keys in digits

The ciphers are modelled with natural numbers for keys. The functions of cipher.c that they
use for them are given here as they are, with the numbers of mpi.c, and compute the same. Two
things are different: a public key of no bytes is not imported but stops the program, and a
key of zero is exported as a byte. The second makes no difference, as such a key is too short
for a cipher either way.

As in the modules on mpi.c, `int`s are taken to wrap around where digits are multiplied.
-/

namespace Meanwhile.Mpi

open MwMpInt

/-- `dh_prime` -/
def dhPrimeBytes : List UInt8 := [
  0xcf, 0x84, 0xaf, 0xce, 0x86, 0xdd, 0xfa, 0x52,
  0x7f, 0x13, 0x6d, 0x10, 0x35, 0x75, 0x28, 0xee,
  0xfb, 0xa0, 0xaf, 0xef, 0x80, 0x8f, 0x29, 0x17,
  0x4e, 0x3b, 0x6a, 0x9e, 0x97, 0x00, 0x01, 0x71,
  0x7c, 0x8f, 0x10, 0x6c, 0x41, 0xc1, 0x61, 0xa6,
  0xce, 0x91, 0x05, 0x7b, 0x34, 0xda, 0x62, 0xcb,
  0xb8, 0x7b, 0xfd, 0xc1, 0xb3, 0x5c, 0x1b, 0x91,
  0x0f, 0xea, 0x72, 0x24, 0x9d, 0x56, 0x6b, 0x9f]

/-- `mwInitDHPrime` -/
def mwInitDhPrime : Option MwMpInt := mwMpReadUnsignedBin mwMpInit dhPrimeBytes

/-- `mwInitDHBase` -/
def mwInitDhBase : Option MwMpInt := mwMpSetInt mwMpInit 3

/-- The buffer of `mw_mp_set_rand`, of which the first byte has only some of its bits -/
def randBuffer (bits : Nat) : List UInt8 → List UInt8
  | [] => []
  | c :: buf => (c &&& UInt8.ofNat (0xff >>> (8 - bits % 8))) :: buf

/-- `mw_mp_set_rand`, with the `bits / 8 + 1` bytes that are drawn -/
def mwMpSetRand (i : MwMpInt) (bits : Nat) (drawn : List UInt8) : Option MwMpInt :=
  mwMpReadUnsignedBin i (randBuffer bits drawn)

/-- `mw_mp_exptmod` by a caller that does not look at what it returns -/
def exptmodInto (a b m c : MwMpInt) : Option MwMpInt :=
  (mwMpExptmod a b m).map fun r =>
  match r with
  | .ok r => r
  | .error _ => c

/-- `mwDHRandKeypair`, with the 65 bytes that are drawn: the private key and the public one. -/
def mwDhRandKeypair (privateKey publicKey : MwMpInt) (drawn : List UInt8) :
    Option (MwMpInt × MwMpInt) := do
  let prime ← mwInitDhPrime
  let base ← mwInitDhBase
  let privateKey ← mwMpSetRand privateKey 512 drawn
  return (privateKey, ← exptmodInto base privateKey prime publicKey)

/-- `mwDHCalculateShared` -/
def mwDhCalculateShared (sharedKey remoteKey privateKey : MwMpInt) : Option MwMpInt := do
  exptmodInto remoteKey privateKey (← mwInitDhPrime) sharedKey

/-- `mwDHImportKey` -/
def mwDhImportKey (key : MwMpInt) (o : MwOpaque) : Option MwMpInt := mwMpReadUnsignedBin key o

/-- `mwDHExportKey`, which writes into a buffer of `mwMpUnsignedBinSize` bytes -/
def mwDhExportKey (key : MwMpInt) : MwOpaque := mwMpToUnsignedBin key

/-- The secret that `offered_RC2_128` and `compose_auth_rc2_128` export -/
def exportShared (privateKey : MwMpInt) (o : MwOpaque) : Option MwOpaque := do
  let remoteKey ← mwDhImportKey mwMpInit o
  return mwDhExportKey (← mwDhCalculateShared mwMpInit remoteKey privateKey)

section

variable {a b c prime : MwMpInt} {n k : Nat}

theorem mwInitDhPrime_spec : ∃ r, mwInitDhPrime = some r ∧ Natural r dhPrime ∧ r.used ≤ 4094 := by
  obtain ⟨r, hr, hnat⟩ := mwMpReadUnsignedBin_spec mwMpInit (by decide : dhPrimeBytes ≠ [])
  have hprime : BigEndian.value dhPrimeBytes = dhPrime := rfl
  rw [hprime] at hnat
  have hused : r.used = 31 + 1 := used_eq_of_le hnat.1 (by decide +kernel) (by decide +kernel)
  exact ⟨r, hr, hnat, by omega⟩

theorem mwInitDhBase_spec : ∃ r, mwInitDhBase = some r ∧ Represents r (dhBase : Int) :=
  mwMpSetInt_spec mwMpInit 3

theorem exptmodInto_spec (ha : Represents a (n : Int)) (hb : Natural b k) (hprime : Natural prime dhPrime)
    (hused : prime.used ≤ 4094) (c : MwMpInt) :
    ∃ r, exptmodInto a b prime c = some r ∧ Natural r (n ^ k % dhPrime) := by
  have hpos : 1 < dhPrime := by decide +kernel
  obtain ⟨r, hr, hrep⟩ := mwMpExptmod_spec ha hb hprime (by omega) hused
  refine ⟨r, by rw [exptmodInto, hr]; rfl, natural_iff.mpr ?_⟩
  have hcast : ((n ^ k % dhPrime : Nat) : Int) = if k = 0 then 1 else (n : Int) ^ k % (dhPrime : Int) := by
    split
    case isTrue hzero =>
      rw [hzero, Nat.pow_zero, Nat.mod_eq_of_lt hpos]
      rfl
    case isFalse => rw [Int.natCast_mod, Int.natCast_pow]
  rwa [hcast]

/-- What is drawn has no more bits than were asked for. -/
theorem value_randBuffer_lt (bits : Nat) {drawn : List UInt8} (hlength : drawn.length = bits / 8 + 1) :
    BigEndian.value (randBuffer bits drawn) < 2 ^ bits := by
  cases drawn with
  | nil => cases hlength
  | cons d buf =>
    have hbuf := BigEndian.value_lt buf
    have hmask : (d &&& UInt8.ofNat (0xff >>> (8 - bits % 8))).toNat + 1 ≤ 2 ^ (bits % 8) := by
      rw [UInt8.toNat_and, UInt8.toNat_ofNat']
      refine Nat.lt_of_le_of_lt Nat.and_le_right ?_
      have hbits : bits % 8 < 8 := Nat.mod_lt _ (by decide)
      generalize bits % 8 = e at hbits
      interval_cases e <;> decide
    have hsplit : 2 ^ bits = 2 ^ (bits % 8) * 256 ^ (bits / 8) := by
      rw [show (256 : Nat) = 2 ^ 8 from rfl, ← Nat.pow_mul, ← Nat.pow_add, Nat.mod_add_div]
    rw [List.length_cons, Nat.add_right_cancel_iff] at hlength
    rw [hlength] at hbuf
    rw [randBuffer, BigEndian.value_cons, hlength, hsplit]
    calc _ < ((d &&& UInt8.ofNat (0xff >>> (8 - bits % 8))).toNat + 1) * 256 ^ (bits / 8) := by
          rw [Nat.succ_mul]
          omega
      _ ≤ _ := Nat.mul_le_mul_right _ hmask

/-- The private key of a key pair has 512 bits, and the public key belongs to it. -/
theorem mwDhRandKeypair_spec (privateKey publicKey : MwMpInt) {drawn : List UInt8}
    (hlength : drawn.length = 65) :
    ∃ r k, mwDhRandKeypair privateKey publicKey drawn = some r ∧ k < 2 ^ 512 ∧ Natural r.1 k ∧
      Natural r.2 (mwDhPublicKey k) := by
  have hlt := value_randBuffer_lt 512 hlength
  have hne : randBuffer 512 drawn ≠ [] := by
    cases drawn with
    | nil => cases hlength
    | cons d buf => simp [randBuffer]
  obtain ⟨prime, hprime, hprimenat, hused⟩ := mwInitDhPrime_spec
  obtain ⟨base, hbase, hbaserep⟩ := mwInitDhBase_spec
  obtain ⟨r, hr, hrnat⟩ := mwMpReadUnsignedBin_spec privateKey hne
  obtain ⟨r', hr', hrnat'⟩ := exptmodInto_spec hbaserep hrnat hprimenat hused publicKey
  refine ⟨(r, r'), _, ?_, hlt, hrnat, hrnat'⟩
  simp only [mwDhRandKeypair, hprime, hbase, mwMpSetRand, hr, hr', Option.bind_eq_bind, Option.bind_some,
    Option.pure_def]

theorem mwDhCalculateShared_spec (ha : Natural a n) (hb : Natural b k) (c : MwMpInt) :
    ∃ r, mwDhCalculateShared c a b = some r ∧ Natural r (Meanwhile.mwDhCalculateShared n k) := by
  obtain ⟨prime, hprime, hprimenat, hused⟩ := mwInitDhPrime_spec
  obtain ⟨r, hr, hnat⟩ := exptmodInto_spec (natural_iff.mp ha) hb hprimenat hused c
  exact ⟨r, by simp only [mwDhCalculateShared, hprime, hr, Option.bind_eq_bind, Option.bind_some], hnat⟩

theorem mwDhExportKey_eq (ha : Natural a n) (hn : n ≠ 0) : mwDhExportKey a = Meanwhile.mwDhExportKey n := by
  rw [mwDhExportKey, mwMpToUnsignedBin_eq ha.1, if_neg hn]
  rfl

/-- A secret is exported as the ciphers take it, unless it is zero. -/
theorem exportShared_spec (hb : Natural b k) {o : MwOpaque} (hne : o ≠ []) :
    ∃ r, exportShared b o = some r ∧
      r = if Meanwhile.mwDhCalculateShared (Meanwhile.mwDhImportKey o) k = 0 then [0]
        else Meanwhile.mwDhExportKey (Meanwhile.mwDhCalculateShared (Meanwhile.mwDhImportKey o) k) := by
  obtain ⟨remote, hremote, hremotenat⟩ := mwMpReadUnsignedBin_spec mwMpInit hne
  obtain ⟨r, hr, hnat⟩ := mwDhCalculateShared_spec hremotenat hb mwMpInit
  refine ⟨mwDhExportKey r, ?_, mwMpToUnsignedBin_eq hnat.1⟩
  simp only [exportShared, mwDhImportKey, hremote, hr, Option.bind_eq_bind, Option.bind_some, Option.pure_def]

/-- A power of the base is not a multiple of the prime. -/
theorem pow_mod_dhPrime_ne_zero (e : Nat) : dhBase ^ e % dhPrime ≠ 0 := by
  intro hzero
  have hcoprime : Nat.Coprime dhBase dhPrime := by decide +kernel
  have hone := Nat.Coprime.eq_one_of_dvd (hcoprime.pow_left e).symm (Nat.dvd_of_mod_eq_zero hzero)
  exact absurd hone (by decide +kernel)

/-- Two key pairs lead to one secret, whatever is drawn for them. -/
theorem exportShared_agree (p q p' q' : MwMpInt) {drawn drawn' : List UInt8} (hlength : drawn.length = 65)
    (hlength' : drawn'.length = 65) :
    ∃ r r' k k', mwDhRandKeypair p q drawn = some r ∧ mwDhRandKeypair p' q' drawn' = some r' ∧
      Natural r.1 k ∧ Natural r'.1 k' ∧
      exportShared r.1 (mwDhExportKey r'.2) = some (Meanwhile.mwDhExportKey (agreedSecret k k')) ∧
      exportShared r'.1 (mwDhExportKey r.2) = some (Meanwhile.mwDhExportKey (agreedSecret k k')) := by
  obtain ⟨r, k, hr, -, hpriv, hpub⟩ := mwDhRandKeypair_spec p q hlength
  obtain ⟨r', k', hr', -, hpriv', hpub'⟩ := mwDhRandKeypair_spec p' q' hlength'
  have hshared : ∀ {a b : MwMpInt} {k k' : Nat}, Natural a k → Natural b (mwDhPublicKey k') →
      exportShared a (mwDhExportKey b) = some (Meanwhile.mwDhExportKey (agreedSecret k k')) := by
    intro a b k k' ha hb
    have hexport := mwDhExportKey_eq hb (pow_mod_dhPrime_ne_zero k')
    have hne : mwDhExportKey b ≠ [] := by
      rw [hexport]
      intro hnil
      have hback := mwDhImportKey_mwDhExportKey (mwDhPublicKey k')
      rw [hnil] at hback
      exact pow_mod_dhPrime_ne_zero k' hback.symm
    obtain ⟨secret, hsecret, rfl⟩ := exportShared_spec ha hne
    have hpos : agreedSecret k k' ≠ 0 := pow_mod_dhPrime_ne_zero _
    rw [hexport, mwDhImportKey_mwDhExportKey, mwDhCalculateShared_publicKey, if_neg hpos] at hsecret
    rwa [hexport]
  refine ⟨r, r', k, k', hr, hr', hpriv, hpriv', hshared hpriv hpub', ?_⟩
  rw [agreedSecret_comm]
  exact hshared hpriv' hpub

/-- The same byte is drawn throughout, one for each side. -/
theorem exportShared_agree_drawn :
    ∃ r r' k k', mwDhRandKeypair mwMpInit mwMpInit (List.replicate 65 0x11) = some r ∧
      mwDhRandKeypair mwMpInit mwMpInit (List.replicate 65 0x7c) = some r' ∧
      Natural r.1 k ∧ Natural r'.1 k' ∧
      exportShared r.1 (mwDhExportKey r'.2) = some (Meanwhile.mwDhExportKey (agreedSecret k k')) ∧
      exportShared r'.1 (mwDhExportKey r.2) = some (Meanwhile.mwDhExportKey (agreedSecret k k')) :=
  exportShared_agree mwMpInit mwMpInit mwMpInit mwMpInit rfl rfl

/-- `offered_RC2_128`, with the private key of the cipher, and `accepted_RC2_128` alike -/
def offeredRc2_128 (privateKey : MwMpInt) (ci : MwCipherInstanceRc2_128) (item : MwEncryptItem) :
    Option MwCipherInstance := do
  let shared ← expandShared (← exportShared privateKey item.info)
  return .rc2_128 { ci with shared := shared }

/-- What an instance makes of a public key is what the ciphers are modelled with. An `int`
counts the digits of the private key and the bytes of the public one. -/
theorem offeredRc2_128_eq (hb : Natural b k) (_ : b.Indexed) {c : MwCipherRc2_128}
    (hc : c.privateKey = k) (ci : MwCipherInstanceRc2_128) {item : MwEncryptItem}
    (hne : item.info ≠ []) (_ : item.info.length < 2 ^ 31) :
    offeredRc2_128 b ci item = Meanwhile.offeredRc2_128 c ci item := by
  obtain ⟨r, hr, heq⟩ := exportShared_spec hb hne
  have hexpand : expandShared r = expandShared (Meanwhile.mwDhExportKey
      (Meanwhile.mwDhCalculateShared (Meanwhile.mwDhImportKey item.info) k)) := by
    rw [heq]
    split
    case isTrue hzero =>
      have hempty : Meanwhile.mwDhExportKey 0 = [] := by simp [Meanwhile.mwDhExportKey, BigEndian.bytes]
      rw [hzero, hempty, expandShared, expandShared, if_pos (by decide), if_pos (by decide)]
    case isFalse => rfl
  simp only [offeredRc2_128, Meanwhile.offeredRc2_128, hr, hc, hexpand, Option.bind_eq_bind,
    Option.bind_some]

/-- A private key of one digit and a public key of two bytes -/
theorem offeredRc2_128_eq_five :
    offeredRc2_128 { digits := [5] } {} { id := MwCipherType.code .rc2_128, info := [9, 1] } =
      Meanwhile.offeredRc2_128 { privateKey := 5, publicKey := [] } {}
        { id := MwCipherType.code .rc2_128, info := [9, 1] } :=
  offeredRc2_128_eq
    ⟨holds_mk _ (by decide) (by decide), rfl⟩ (by decide) rfl {} (by decide) (by decide)

end

end Meanwhile.Mpi
