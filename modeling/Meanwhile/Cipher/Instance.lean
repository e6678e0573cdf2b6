-- SUMMARY: Diffie-Hellman keys, and the RC2/40 and RC2/128 ciphers with their per-channel instances.
import Meanwhile.Cipher.Rc2
import Meanwhile.Common.Types

/-!
# Ciphers and cipher instances

The second half of cipher.c. The big-integer library is taken at its word: it
reads and writes numbers as `BigEndian.value` and `BigEndian.bytes` do, and its
modular exponentiation is that of the natural numbers.

A function without a result (`none`) is one whose C code reads outside of the
buffer it takes a key from, or leaves a buffer while decrypting.
-/

namespace Meanwhile

/-! ## Diffie-Hellman -/

/-- `dh_prime`, imported -/
def dhPrime : Nat := BigEndian.value [
  0xcf, 0x84, 0xaf, 0xce, 0x86, 0xdd, 0xfa, 0x52,
  0x7f, 0x13, 0x6d, 0x10, 0x35, 0x75, 0x28, 0xee,
  0xfb, 0xa0, 0xaf, 0xef, 0x80, 0x8f, 0x29, 0x17,
  0x4e, 0x3b, 0x6a, 0x9e, 0x97, 0x00, 0x01, 0x71,
  0x7c, 0x8f, 0x10, 0x6c, 0x41, 0xc1, 0x61, 0xa6,
  0xce, 0x91, 0x05, 0x7b, 0x34, 0xda, 0x62, 0xcb,
  0xb8, 0x7b, 0xfd, 0xc1, 0xb3, 0x5c, 0x1b, 0x91,
  0x0f, 0xea, 0x72, 0x24, 0x9d, 0x56, 0x6b, 0x9f]

/-- `DH_BASE` -/
def dhBase : Nat := 3

/-- The public key that `mwDHRandKeypair` computes for a private one. -/
def mwDhPublicKey (privateKey : Nat) : Nat := dhBase ^ privateKey % dhPrime

/-- `mwDHCalculateShared` -/
def mwDhCalculateShared (remoteKey privateKey : Nat) : Nat := remoteKey ^ privateKey % dhPrime

/-- `mwDHImportKey` -/
def mwDhImportKey (o : MwOpaque) : Nat := BigEndian.value o

/-- `mwDHExportKey` -/
def mwDhExportKey (key : Nat) : MwOpaque := BigEndian.bytes key

/-- `mwKeyExpand(key, sho.data+(sho.len-16), 16)` -/
def expandShared (sho : MwOpaque) : Option EKey :=
  if sho.length < 16 then none else some (mwKeyExpand (sho.drop (sho.length - 16)))

/-- `mwKeyExpand(key, login_id, 5)`. The terminator is part of the buffer, and
`mwKeyExpand` leaves the key alone when there is no id. -/
def expandLoginId (key : EKey) : MwString → Option EKey
  | none => some key
  | some id =>
      let buf := id.val ++ [0]
      if buf.length < 5 then none else some (mwKeyExpand (buf.take 5))

/-! ## Ciphers -/

/-- `enum mwCipherType` -/
inductive MwCipherType where
  | rc2_40 | rc2_128
deriving DecidableEq, Repr

def MwCipherType.code : MwCipherType → UInt16
  | .rc2_40 => 0x0000
  | .rc2_128 => 0x0001

/-- `struct mwCipher_RC2_40` -/
structure MwCipherRc2_40 where
  sessionKey : EKey := fun _ => 0
  ready : Bool := false

/-- `struct mwCipher_RC2_128` -/
structure MwCipherRc2_128 where
  privateKey : Nat
  publicKey : MwOpaque

/-- The ciphers of the library, each with its state. -/
inductive MwCipher where
  | rc2_40 (c : MwCipherRc2_40)
  | rc2_128 (c : MwCipherRc2_128)

/-- `mwCipher_getType` -/
def MwCipher.type : MwCipher → MwCipherType
  | .rc2_40 _ => .rc2_40
  | .rc2_128 _ => .rc2_128

/-- `mwCipher_new_RC2_40` -/
def mwCipherNewRc2_40 : MwCipher := .rc2_40 {}

/-- `mwCipher_new_RC2_128`, with the private key it draws -/
def mwCipherNewRc2_128 (privateKey : Nat) : MwCipher :=
  .rc2_128 ⟨privateKey, mwDhExportKey (mwDhPublicKey privateKey)⟩

/-! ## Instances -/

/-- `struct mwCipherInstance_RC2_40` -/
structure MwCipherInstanceRc2_40 where
  incomingKey : EKey := fun _ => 0
  outgoingIv : Block := mwIvInit
  incomingIv : Block := mwIvInit

/-- `struct mwCipherInstance_RC2_128` -/
structure MwCipherInstanceRc2_128 where
  shared : EKey := fun _ => 0
  outgoingIv : Block := mwIvInit
  incomingIv : Block := mwIvInit

inductive MwCipherInstance where
  | rc2_40 (ci : MwCipherInstanceRc2_40)
  | rc2_128 (ci : MwCipherInstanceRc2_128)

def MwCipherInstance.type : MwCipherInstance → MwCipherType
  | .rc2_40 _ => .rc2_40
  | .rc2_128 _ => .rc2_128

/-- `mwCipher_newInstance`, with the login information of the session: the
cipher afterwards and the instance. -/
def mwCipherNewInstance (login : MwLoginInfo) : MwCipher → Option (MwCipher × MwCipherInstance)
  | .rc2_40 c =>
      if c.ready then some (.rc2_40 c, .rc2_40 {})
      else do
        let sessionKey ← expandLoginId c.sessionKey login.loginId
        return (.rc2_40 { sessionKey := sessionKey, ready := true }, .rc2_40 {})
  | .rc2_128 c => some (.rc2_128 c, .rc2_128 {})

/-- `offered_RC2_128` -/
def offeredRc2_128 (c : MwCipherRc2_128) (ci : MwCipherInstanceRc2_128) (item : MwEncryptItem) :
    Option MwCipherInstance := do
  let sho := mwDhExportKey (mwDhCalculateShared (mwDhImportKey item.info) c.privateKey)
  let shared ← expandShared sho
  return .rc2_128 { ci with shared := shared }

/-- `mwCipherInstance_offered`. RC2/40 has nothing to do there. -/
def mwCipherInstanceOffered (item : MwEncryptItem) :
    MwCipher → MwCipherInstance → Option MwCipherInstance
  | .rc2_128 c, .rc2_128 ci => offeredRc2_128 c ci item
  | _, ci => some ci

/-- `mwCipherInstance_offer` -/
def mwCipherInstanceOffer : MwCipher → MwEncryptItem
  | .rc2_40 _ => { id := MwCipherType.code .rc2_40 }
  | .rc2_128 c => { id := MwCipherType.code .rc2_128, info := c.publicKey }

/-- `accepted_RC2_40`, with the user of the channel -/
def acceptedRc2_40 (user : MwLoginInfo) (ci : MwCipherInstanceRc2_40) : Option MwCipherInstance := do
  let incomingKey ← expandLoginId ci.incomingKey user.loginId
  return .rc2_40 { ci with incomingKey := incomingKey }

/-- `mwCipherInstance_accepted` -/
def mwCipherInstanceAccepted (user : MwLoginInfo) (item : MwEncryptItem) :
    MwCipher → MwCipherInstance → Option MwCipherInstance
  | .rc2_128 c, .rc2_128 ci => offeredRc2_128 c ci item
  | .rc2_40 _, .rc2_40 ci => acceptedRc2_40 user ci
  | _, ci => some ci

/-- `mwCipherInstance_accept`: the instance afterwards and the item to send. -/
def mwCipherInstanceAccept (user : MwLoginInfo) :
    MwCipher → MwCipherInstance → Option (MwCipherInstance × MwEncryptItem)
  | .rc2_40 c, .rc2_40 ci => do
      let ci ← acceptedRc2_40 user ci
      return (ci, mwCipherInstanceOffer (.rc2_40 c))
  | c, ci => some (ci, mwCipherInstanceOffer c)

/-- `mwCipherInstance_encrypt`: the instance afterwards and the data. RC2/40 sends
with the key of the session, RC2/128 with the shared one. -/
def mwCipherInstanceEncrypt (fresh : Block) (data : MwOpaque) :
    MwCipher → MwCipherInstance → Option (MwCipherInstance × MwOpaque)
  | .rc2_40 c, .rc2_40 ci => do
      let (iv, o) ← mwEncryptExpanded fresh c.sessionKey ci.outgoingIv data
      return (.rc2_40 { ci with outgoingIv := iv }, o)
  | _, .rc2_128 ci => do
      let (iv, o) ← mwEncryptExpanded fresh ci.shared ci.outgoingIv data
      return (.rc2_128 { ci with outgoingIv := iv }, o)
  | .rc2_128 _, ci => some (ci, data)

/-- The opaque that `mwDecryptExpanded` leaves, unless it claims to be longer
than its buffer. -/
def Decrypted.contents (d : Decrypted) : Option MwOpaque :=
  if d.len ≤ d.data.length then some (d.data.take d.len) else none

/-- `mwCipherInstance_decrypt`: the instance afterwards and the data. -/
def mwCipherInstanceDecrypt (data : MwOpaque) :
    MwCipherInstance → Option (MwCipherInstance × MwOpaque)
  | .rc2_40 ci => do
      let d ← mwDecryptExpanded ci.incomingKey ci.incomingIv data
      let o ← d.contents
      return (.rc2_40 { ci with incomingIv := d.iv }, o)
  | .rc2_128 ci => do
      let d ← mwDecryptExpanded ci.shared ci.incomingIv data
      let o ← d.contents
      return (.rc2_128 { ci with incomingIv := d.iv }, o)

end Meanwhile
