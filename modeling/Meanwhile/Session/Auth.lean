-- SUMMARY: The keys taken from shared secrets and login ids: which bytes are read for them, and that a server reads the password sent.
import Meanwhile.Session.Process
import Meanwhile.Cipher.Agreement
import Meanwhile.Cipher.Rc2Inverse

/-!
# Keys

There are five places where `mwKeyExpand` is given a part of a buffer: the last 16
bytes of a shared secret that has been exported without its leading zeros, or the
first five of a login id. Neither length is looked at. A `KeyCall` is one of these
calls with what its caller has in hand.

The second part is about `compose_auth_rc2_128` and the server it is meant for.
-/

namespace Meanwhile

/-! ## Calls of mwKeyExpand -/

/-- The five callers, each with the data that decides what is read -/
inductive KeyCall where
  /-- `offered_RC2_128` -/
  | offered128 (c : MwCipherRc2_128) (item : MwEncryptItem)
  /-- `accepted_RC2_128` -/
  | accepted128 (c : MwCipherRc2_128) (item : MwEncryptItem)
  /-- `compose_auth_rc2_128` -/
  | composeAuth128 (privateKey : Nat) (rkey : MwOpaque)
  /-- `new_instance_RC2_40` -/
  | newInstance40 (c : MwCipherRc2_40) (login : MwLoginInfo)
  /-- `accepted_RC2_40` -/
  | accepted40 (user : MwLoginInfo)

/-- The exported secret that a caller with two numbers takes a key from -/
def sharedSecret (remoteKey privateKey : Nat) : MwOpaque :=
  mwDhExportKey (mwDhCalculateShared remoteKey privateKey)

/-- A login id with its terminator -/
def loginIdBuffer : MwString → MwOpaque
  | none => []
  | some id => id.val ++ [0]

/-- The buffer that the key is a part of -/
def KeyCall.buffer : KeyCall → MwOpaque
  | .offered128 c item | .accepted128 c item =>
      sharedSecret (mwDhImportKey item.info) c.privateKey
  | .composeAuth128 privateKey rkey => sharedSecret (mwDhImportKey rkey) privateKey
  | .newInstance40 _ login => loginIdBuffer login.loginId
  | .accepted40 user => loginIdBuffer user.loginId

/-- `mwKeyExpand(ekey, key, keylen)` with `key` at the given offset -/
def keyOffsets (key : Int) (keylen : Nat) : List Int :=
  (List.range (min keylen 128)).map (fun i => key + Int.ofNat i)

/-- `mwKeyExpand` of `sho.data+(sho.len-16)` -/
def sharedOffsets (sho : MwOpaque) : List Int := keyOffsets (sho.length - 16) 16

/-- `mwKeyExpand` of a login id, which does nothing without one -/
def loginIdOffsets : MwString → List Int
  | none => []
  | some _ => keyOffsets 0 5

/-- The offsets in the buffer at which a key is read. An RC2/40 cipher that is ready
keeps the key it has. -/
def KeyCall.offsets : KeyCall → List Int
  | .offered128 c item | .accepted128 c item =>
      sharedOffsets (sharedSecret (mwDhImportKey item.info) c.privateKey)
  | .composeAuth128 privateKey rkey =>
      sharedOffsets (sharedSecret (mwDhImportKey rkey) privateKey)
  | .newInstance40 c login => if c.ready then [] else loginIdOffsets login.loginId
  | .accepted40 user => loginIdOffsets user.loginId

/-- The key is read from inside of the buffer. -/
def KeyCall.Inside (call : KeyCall) : Prop :=
  ∀ off ∈ call.offsets, 0 ≤ off ∧ off < call.buffer.length

/-- A login id of at least four characters, or none at all -/
def LongEnough (id : MwString) : Prop := ∀ s : CString, id = some s → 4 ≤ s.val.length

/-- There is enough to take a key from: a shared number of more than 120 bits, or a
login id that is long enough. -/
def KeyCall.Enough : KeyCall → Prop
  | .offered128 c item | .accepted128 c item =>
      2 ^ 120 ≤ mwDhImportKey item.info ^ c.privateKey % dhPrime
  | .composeAuth128 privateKey rkey => 2 ^ 120 ≤ mwDhImportKey rkey ^ privateKey % dhPrime
  | .newInstance40 c login => c.ready = true ∨ LongEnough login.loginId
  | .accepted40 user => LongEnough user.loginId

theorem mem_keyOffsets {key off : Int} {keylen : Nat} (h : keylen ≤ 128) :
    off ∈ keyOffsets key keylen ↔ key ≤ off ∧ off < key + keylen := by
  unfold keyOffsets
  rw [List.mem_map, Nat.min_eq_left h]
  constructor
  · rintro ⟨i, hi, rfl⟩
    have := List.mem_range.mp hi
    simp only [Int.ofNat_eq_natCast]
    omega
  · rintro ⟨hlow, hhigh⟩
    refine ⟨(off - key).toNat, List.mem_range.mpr (by omega), ?_⟩
    simp only [Int.ofNat_eq_natCast]
    omega

theorem sharedOffsets_inside_iff (sho : MwOpaque) :
    (∀ off ∈ sharedOffsets sho, 0 ≤ off ∧ off < sho.length) ↔ 16 ≤ sho.length := by
  unfold sharedOffsets
  constructor
  · intro hall
    have := hall (sho.length - 16) ((mem_keyOffsets (by decide)).mpr (by omega))
    omega
  · intro hlen off hoff
    have := (mem_keyOffsets (by decide)).mp hoff
    omega

theorem loginIdOffsets_inside_iff (id : MwString) :
    (∀ off ∈ loginIdOffsets id, 0 ≤ off ∧ off < (loginIdBuffer id).length) ↔ LongEnough id := by
  unfold LongEnough
  cases id with
  | none => simp [loginIdOffsets]
  | some s =>
    have hbuffer : (loginIdBuffer (some s)).length = s.val.length + 1 := by simp [loginIdBuffer]
    rw [hbuffer, loginIdOffsets]
    constructor
    · rintro hall _ ⟨⟩
      have := hall 4 ((mem_keyOffsets (by decide)).mpr (by omega))
      omega
    · intro hlong off hoff
      have := (mem_keyOffsets (by decide)).mp hoff
      have := hlong s rfl
      omega

/-- A shared secret has 16 bytes when its number has more than 120 bits. -/
theorem sharedSecret_length_iff (remoteKey privateKey : Nat) :
    16 ≤ (sharedSecret remoteKey privateKey).length ↔ 2 ^ 120 ≤ remoteKey ^ privateKey % dhPrime := by
  have hlength : (sharedSecret remoteKey privateKey).length =
      (Nat.digits 256 (remoteKey ^ privateKey % dhPrime)).length := by
    simp [sharedSecret, mwDhExportKey, mwDhCalculateShared, BigEndian.bytes]
  rw [hlength, show 2 ^ 120 = 256 ^ 15 by decide]
  exact Nat.lt_digits_length_iff (by decide) _

/-- Every key is read from inside of its buffer exactly when there is enough in it. -/
theorem KeyCall.inside_iff (call : KeyCall) : call.Inside ↔ call.Enough := by
  unfold KeyCall.Inside
  cases call with
  | offered128 c item =>
    exact (sharedOffsets_inside_iff _).trans (sharedSecret_length_iff _ _)
  | accepted128 c item =>
    exact (sharedOffsets_inside_iff _).trans (sharedSecret_length_iff _ _)
  | composeAuth128 privateKey rkey =>
    exact (sharedOffsets_inside_iff _).trans (sharedSecret_length_iff _ _)
  | newInstance40 c login =>
    cases hready : c.ready with
    | true => simp [KeyCall.offsets, KeyCall.Enough, hready]
    | false =>
      simp only [KeyCall.offsets, KeyCall.Enough, KeyCall.buffer, hready, Bool.false_eq_true,
        if_false, false_or]
      exact loginIdOffsets_inside_iff login.loginId
  | accepted40 user => exact loginIdOffsets_inside_iff user.loginId

/-! ## The model and its buffers -/

theorem expandShared_isSome_iff (sho : MwOpaque) :
    (expandShared sho).isSome ↔ ∀ off ∈ sharedOffsets sho, 0 ≤ off ∧ off < sho.length := by
  rw [sharedOffsets_inside_iff]
  unfold expandShared
  split
  case isTrue hshort => simp only [Option.isSome_none, Bool.false_eq_true, false_iff]; omega
  case isFalse hlong => simp only [Option.isSome_some, true_iff]; omega

theorem expandLoginId_isSome_iff (key : EKey) (id : MwString) :
    (expandLoginId key id).isSome ↔
      ∀ off ∈ loginIdOffsets id, 0 ≤ off ∧ off < (loginIdBuffer id).length := by
  rw [loginIdOffsets_inside_iff]
  unfold LongEnough
  cases id with
  | none => simp [expandLoginId]
  | some s =>
    simp only [expandLoginId, List.length_append, List.length_singleton, Option.some.injEq,
      forall_eq']
    split
    case isTrue hshort => simp only [Option.isSome_none, Bool.false_eq_true, false_iff]; omega
    case isFalse hlong => simp only [Option.isSome_some, true_iff]; omega

/-- What the model of a caller has for a result -/
def KeyCall.returns : KeyCall → Bool
  | .offered128 c item =>
      (mwCipherInstanceOffered item (.rc2_128 c) (.rc2_128 {})).isSome
  | .accepted128 c item =>
      (mwCipherInstanceAccepted {} item (.rc2_128 c) (.rc2_128 {})).isSome
  | .composeAuth128 privateKey rkey => (composeAuthRc2_128 .zero privateKey none 0 rkey).isSome
  | .newInstance40 c login => (mwCipherNewInstance login (.rc2_40 c)).isSome
  | .accepted40 user => (acceptedRc2_40 user {}).isSome

/-- The models of the callers have no result exactly where a key is read from outside
of its buffer. -/
theorem KeyCall.returns_iff (call : KeyCall) : call.returns = true ↔ call.Inside := by
  unfold KeyCall.Inside
  cases call with
  | offered128 c item =>
    refine Iff.trans ?_ (expandShared_isSome_iff _)
    cases h : expandShared (sharedSecret (mwDhImportKey item.info) c.privateKey) <;>
      simp_all [KeyCall.returns, mwCipherInstanceOffered, offeredRc2_128, sharedSecret]
  | accepted128 c item =>
    refine Iff.trans ?_ (expandShared_isSome_iff _)
    cases h : expandShared (sharedSecret (mwDhImportKey item.info) c.privateKey) <;>
      simp_all [KeyCall.returns, mwCipherInstanceAccepted, offeredRc2_128, sharedSecret]
  | composeAuth128 privateKey rkey =>
    refine Iff.trans ?_ (expandShared_isSome_iff _)
    cases h : expandShared (sharedSecret (mwDhImportKey rkey) privateKey) with
    | none => simp_all [KeyCall.returns, composeAuthRc2_128, sharedSecret]
    | some key =>
      obtain ⟨iv, c, -, hencrypt, -⟩ := mwDecryptExpanded_mwEncryptExpanded .zero key mwIvInit
        (m := guint32Put 0 ++ mwStringPut none) (by decide)
      simp_all [KeyCall.returns, composeAuthRc2_128, sharedSecret]
  | newInstance40 c login =>
    cases hready : c.ready with
    | true => simp [KeyCall.offsets, KeyCall.returns, mwCipherNewInstance, hready]
    | false =>
      simp only [KeyCall.offsets, KeyCall.buffer, hready, Bool.false_eq_true, if_false]
      refine Iff.trans ?_ (expandLoginId_isSome_iff c.sessionKey login.loginId)
      cases h : expandLoginId c.sessionKey login.loginId <;>
        simp_all [KeyCall.returns, mwCipherNewInstance]
  | accepted40 user =>
    refine Iff.trans ?_ (expandLoginId_isSome_iff (fun _ => 0) user.loginId)
    cases h : expandLoginId (fun _ => 0) user.loginId <;>
      simp_all [KeyCall.returns, acceptedRc2_40]

/-- The server's key is one, whatever is raised to it is one, and a login id `ab` ends
before its fifth byte. -/
theorem KeyCall.not_inside :
    ¬ (KeyCall.offered128 ⟨5, []⟩ { info := [1] }).Inside ∧
      ¬ (KeyCall.composeAuth128 5 (List.replicate 63 0 ++ [1])).Inside ∧
      ¬ (KeyCall.newInstance40 {} { loginId := some (.ofBytes [0x61, 0x62]) }).Inside := by
  refine ⟨?_, ?_, ?_⟩
  · rw [← KeyCall.returns_iff]
    decide +kernel
  · rw [← KeyCall.returns_iff]
    decide +kernel
  · rw [← KeyCall.returns_iff]
    decide +kernel

/-! ## The password and the server -/

/-- The three fields of what `compose_auth_rc2_128` makes: a word, the public key of
the client and the encrypted password -/
def authGet : Get (UInt16 × MwOpaque × MwOpaque) := do
  let word ← guint16Get 0
  let publicKey ← mwOpaqueGet
  let ciphertext ← mwOpaqueGet
  return (word, publicKey, ciphertext)

/-- What a server with a private key makes of the last two -/
def serverDecrypt (privateKey : Nat) (publicKey ciphertext : MwOpaque) : Option MwOpaque := do
  let shared := mwDhCalculateShared (mwDhImportKey publicKey) privateKey
  let key ← expandShared (mwDhExportKey shared)
  let d ← mwDecryptExpanded key mwIvInit ciphertext
  d.contents

/-- Either side arrives at the same secret. -/
theorem mwDhCalculateShared_comm (a b : Nat) :
    mwDhCalculateShared (mwDhPublicKey a) b = mwDhCalculateShared (mwDhPublicKey b) a := by
  rw [mwDhCalculateShared_publicKey, mwDhCalculateShared_publicKey, agreedSecret_comm]

theorem authGet_between {publicKey ciphertext : MwOpaque} (word : UInt16) (hkey : publicKey.Fits)
    (hcipher : ciphertext.Fits) :
    authGet (.wrapOpaque (guint16Put word ++ mwOpaquePut publicKey ++ mwOpaquePut ciphertext)) =
      ((word, publicKey, ciphertext),
        .between (guint16Put word ++ mwOpaquePut publicKey ++ mwOpaquePut ciphertext) []) := by
  have hlast : ∀ pre : List UInt8, mwOpaqueGet (.between pre (mwOpaquePut ciphertext)) =
      (ciphertext, .between (pre ++ mwOpaquePut ciphertext) []) := by
    intro pre
    simpa using mwOpaqueGet_between hcipher pre []
  simp [authGet, GetBuffer.wrapOpaque_eq_between, mwOpaqueGet_between hkey, hlast]

/-- A number below the prime is exported with at most 64 bytes. -/
theorem mwDhExportKey_fits (privateKey : Nat) :
    MwOpaque.Fits (mwDhExportKey (mwDhPublicKey privateKey)) := by
  have hlt : mwDhPublicKey privateKey < 256 ^ 64 := by
    calc mwDhPublicKey privateKey < dhPrime := Nat.mod_lt _ (by decide +kernel)
      _ ≤ 256 ^ 64 := by decide +kernel
  have hlen : (mwDhExportKey (mwDhPublicKey privateKey)).length ≤ 64 := by
    simpa [mwDhExportKey, BigEndian.bytes] using
      (Nat.digits_length_le_iff (by decide : 1 < 256) _).mpr hlt
  exact Nat.lt_of_le_of_lt hlen (by decide)

/-- The server reads the password and the magic number that the client has sent. -/
theorem serverDecrypt_composeAuth (fresh : Block) (clientKey serverKey : Nat) {rkey : MwOpaque} {pass : MwString}
    (magic : UInt32) (hrkey : mwDhImportKey rkey = mwDhPublicKey serverKey)
    (hpass : pass.length ≤ 65535)
    (hshared : 2 ^ 120 ≤ mwDhCalculateShared (mwDhPublicKey serverKey) clientKey) :
    ∃ auth ciphertext b, composeAuthRc2_128 fresh clientKey pass magic rkey = some auth ∧
      authGet (.wrapOpaque auth) =
        ((1, mwDhExportKey (mwDhPublicKey clientKey), ciphertext), b) ∧
      b.error = false ∧ b.rem = 0 ∧
      serverDecrypt serverKey (mwDhExportKey (mwDhPublicKey clientKey)) ciphertext =
        some (guint32Put magic ++ mwStringPut pass) := by
  set secret := mwDhCalculateShared (mwDhPublicKey serverKey) clientKey with hsecret
  have hlong : 16 ≤ (mwDhExportKey secret).length :=
    (sharedSecret_length_iff (mwDhPublicKey serverKey) clientKey).mpr hshared
  obtain ⟨key, hkey⟩ : ∃ key, expandShared (mwDhExportKey secret) = some key :=
    ⟨_, if_neg (by omega)⟩
  have hput : (mwStringPut pass).length = 2 + pass.length := by
    cases pass <;> simp [mwStringPut, MwString.length]
  have hlength : (guint32Put magic ++ mwStringPut pass).length = 6 + pass.length := by
    rw [List.length_append, guint32Put_length, hput]
    omega
  obtain ⟨iv, c, d, hencrypt, hclen, hdecrypt, htake⟩ :=
    mwDecryptExpanded_mwEncryptExpanded fresh key mwIvInit
      (m := guint32Put magic ++ mwStringPut pass) (by rw [hlength]; omega)
  have hcfits : MwOpaque.Fits c := by
    rw [MwOpaque.Fits, hclen, hlength]
    unfold paddedLength
    omega
  have hget := authGet_between 1 (mwDhExportKey_fits clientKey) hcfits
  refine ⟨_, c, _, ?_, hget, rfl, rfl, ?_⟩
  · simp [composeAuthRc2_128, hrkey, ← hsecret, hkey, hencrypt]
  · have hdlen : (guint32Put magic ++ mwStringPut pass).length ≤ d.length := by
      have := congrArg List.length htake
      rw [List.length_take] at this
      omega
    have hsame : mwDhCalculateShared (mwDhPublicKey clientKey) serverKey = secret :=
      mwDhCalculateShared_comm clientKey serverKey
    simp only [serverDecrypt, mwDhImportKey_mwDhExportKey, hsame, hkey, Option.bind_eq_bind,
      Option.bind_some, hdecrypt, Decrypted.contents, if_pos hdlen, htake]

/-- The password `pw` for a server whose public key is 27, sent with 64 bytes -/
theorem serverDecrypt_composeAuth_pw :
    ∃ auth ciphertext b,
      composeAuthRc2_128 .zero 40 (some (.ofBytes [0x70, 0x77])) 7 (List.replicate 63 0 ++ [27]) =
        some auth ∧
      authGet (.wrapOpaque auth) = ((1, mwDhExportKey (mwDhPublicKey 40), ciphertext), b) ∧
      b.error = false ∧ b.rem = 0 ∧
      serverDecrypt 3 (mwDhExportKey (mwDhPublicKey 40)) ciphertext =
        some (guint32Put 7 ++ mwStringPut (some (.ofBytes [0x70, 0x77]))) := by
  apply serverDecrypt_composeAuth
  · decide +kernel
  · decide
  · decide +kernel

end Meanwhile
