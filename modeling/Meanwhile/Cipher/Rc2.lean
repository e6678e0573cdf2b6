-- SUMMARY: RC2 as cipher.c computes it: key expansion, the two block functions, and chaining with padding by length.
import Meanwhile.Common.Buffer

/-!
# RC2

The block functions compute in C `int`s, which are 32-bit two's complement, and
mask nothing before the bytes are written out. Buffers are byte lists; a block
is the eight bytes under the cursor.

`mwEncryptExpanded` and `mwDecryptExpanded` count with `int`s, so they are
modelled as partial: there is no result where the C code would leave its buffers.
Only the last lengths that fit an `int` are an exception. Padded they do not fit it, and
such data come out of `mwEncryptExpanded` as they are.
-/

namespace Meanwhile

/-- C `int` -/
abbrev CInt := BitVec 32

/-- `const int *ekey`, an array of 64 -/
abbrev EKey := Fin 64 → CInt

/-- Eight bytes, as the block functions and the initialization vectors have them. -/
structure Block where
  b0 : UInt8
  b1 : UInt8
  b2 : UInt8
  b3 : UInt8
  b4 : UInt8
  b5 : UInt8
  b6 : UInt8
  b7 : UInt8
deriving DecidableEq, Repr

namespace Block

def toList (b : Block) : List UInt8 := [b.b0, b.b1, b.b2, b.b3, b.b4, b.b5, b.b6, b.b7]

def zero : Block := ⟨0, 0, 0, 0, 0, 0, 0, 0⟩

/-- `for(y = 8; y--; o[y] ^= iv[y])` -/
def xor (o iv : Block) : Block :=
  ⟨o.b0 ^^^ iv.b0, o.b1 ^^^ iv.b1, o.b2 ^^^ iv.b2, o.b3 ^^^ iv.b3,
    o.b4 ^^^ iv.b4, o.b5 ^^^ iv.b5, o.b6 ^^^ iv.b6, o.b7 ^^^ iv.b7⟩

theorem xor_xor (a b : Block) : (a.xor b).xor b = a := by
  simp only [xor, UInt8.xor_assoc, UInt8.xor_self, UInt8.xor_zero]

end Block

/-! ## Keys -/

/-- `mwIV_init` -/
def mwIvInit : Block := ⟨0x01, 0x23, 0x45, 0x67, 0x89, 0xab, 0xcd, 0xef⟩

/-- From RFC2268 -/
def PT : List UInt8 := [
  0xd9, 0x78, 0xf9, 0xc4, 0x19, 0xdd, 0xb5, 0xed,
  0x28, 0xe9, 0xfd, 0x79, 0x4a, 0xa0, 0xd8, 0x9d,
  0xc6, 0x7e, 0x37, 0x83, 0x2b, 0x76, 0x53, 0x8e,
  0x62, 0x4c, 0x64, 0x88, 0x44, 0x8b, 0xfb, 0xa2,
  0x17, 0x9a, 0x59, 0xf5, 0x87, 0xb3, 0x4f, 0x13,
  0x61, 0x45, 0x6d, 0x8d, 0x09, 0x81, 0x7d, 0x32,
  0xbd, 0x8f, 0x40, 0xeb, 0x86, 0xb7, 0x7b, 0x0b,
  0xf0, 0x95, 0x21, 0x22, 0x5c, 0x6b, 0x4e, 0x82,
  0x54, 0xd6, 0x65, 0x93, 0xce, 0x60, 0xb2, 0x1c,
  0x73, 0x56, 0xc0, 0x14, 0xa7, 0x8c, 0xf1, 0xdc,
  0x12, 0x75, 0xca, 0x1f, 0x3b, 0xbe, 0xe4, 0xd1,
  0x42, 0x3d, 0xd4, 0x30, 0xa3, 0x3c, 0xb6, 0x26,
  0x6f, 0xbf, 0x0e, 0xda, 0x46, 0x69, 0x07, 0x57,
  0x27, 0xf2, 0x1d, 0x9b, 0xbc, 0x94, 0x43, 0x03,
  0xf8, 0x11, 0xc7, 0xf6, 0x90, 0xef, 0x3e, 0xe7,
  0x06, 0xc3, 0xd5, 0x2f, 0xc8, 0x66, 0x1e, 0xd7,
  0x08, 0xe8, 0xea, 0xde, 0x80, 0x52, 0xee, 0xf7,
  0x84, 0xaa, 0x72, 0xac, 0x35, 0x4d, 0x6a, 0x2a,
  0x96, 0x1a, 0xd2, 0x71, 0x5a, 0x15, 0x49, 0x74,
  0x4b, 0x9f, 0xd0, 0x5e, 0x04, 0x18, 0xa4, 0xec,
  0xc2, 0xe0, 0x41, 0x6e, 0x0f, 0x51, 0xcb, 0xcc,
  0x24, 0x91, 0xaf, 0x50, 0xa1, 0xf4, 0x70, 0x39,
  0x99, 0x7c, 0x3a, 0x85, 0x23, 0xb8, 0xb4, 0x7a,
  0xfc, 0x02, 0x36, 0x5b, 0x25, 0x55, 0x97, 0x31,
  0x2d, 0x5d, 0xfa, 0x98, 0xe3, 0x8a, 0x92, 0xae,
  0x05, 0xdf, 0x29, 0x10, 0x67, 0x6c, 0xba, 0xc9,
  0xd3, 0x00, 0xe6, 0xcf, 0xe1, 0x9e, 0xa8, 0x2c,
  0x63, 0x16, 0x01, 0x3f, 0x58, 0xe2, 0x89, 0xa9,
  0x0d, 0x38, 0x34, 0x1b, 0xab, 0x33, 0xff, 0xb0,
  0xbb, 0x48, 0x0c, 0x5f, 0xb9, 0xb1, 0xcd, 0x2e,
  0xc5, 0xf3, 0xdb, 0x47, 0xe5, 0xa5, 0x9c, 0x77,
  0x0a, 0xa6, 0x20, 0x68, 0xfe, 0x7f, 0xc1, 0xad]

/-- `PT[ x & 0xff ]` for a byte. -/
def ptAt (x : UInt8) : UInt8 := PT.getD x.toNat 0

/-- `for(i = 0; keylen < 128; i++) tmp[keylen++] = PT[ (tmp[keylen - 1] + tmp[i]) & 0xff ]`,
with `fuel` the bytes still missing. -/
def keyExpandLoop : Nat → Nat → List UInt8 → List UInt8
  | 0, _, tmp => tmp
  | fuel + 1, i, tmp =>
      keyExpandLoop fuel (i + 1) (tmp ++ [ptAt (tmp.getLastD 0 + tmp.getD i 0)])

/-- `mwKeyExpand` of a non-empty key; a longer one than 128 bytes is cut. -/
def mwKeyExpand (key : List UInt8) : EKey :=
  let key := key.take 128
  let tmp := keyExpandLoop (128 - key.length) 0 key
  let tmp := tmp.modifyHead ptAt
  fun i =>
    ((tmp.getD (2 * i) 0).toBitVec.setWidth 32 &&& 0xff) |||
      ((tmp.getD (2 * i + 1) 0).toBitVec.setWidth 32 <<< 8)

/-! ## Blocks -/

/-- The four `int`s the block functions work on. -/
structure Words where
  a : CInt
  b : CInt
  c : CInt
  d : CInt

/-- `(hi << 8) | (lo & 0xff)` -/
def bytesToInt (hi lo : UInt8) : CInt :=
  (hi.toBitVec.setWidth 32 <<< 8) ||| (lo.toBitVec.setWidth 32 &&& 0xff)

def Block.toWords (out : Block) : Words where
  a := bytesToInt out.b7 out.b6
  b := bytesToInt out.b5 out.b4
  c := bytesToInt out.b3 out.b2
  d := bytesToInt out.b1 out.b0

/-- `x & 0xff`, stored in a byte -/
def intLow (x : CInt) : UInt8 := ⟨(x &&& 0xff).setWidth 8⟩

/-- `(x >> 8) & 0xff`, stored in a byte -/
def intHigh (x : CInt) : UInt8 := ⟨(x.sshiftRight 8 &&& 0xff).setWidth 8⟩

def Words.toBlock (w : Words) : Block :=
  ⟨intLow w.d, intHigh w.d, intLow w.c, intHigh w.c,
    intLow w.b, intHigh w.b, intLow w.a, intHigh w.a⟩

/-- `ekey[j]` -/
def ekeyAt (ekey : EKey) (j : Nat) : CInt := ekey (Fin.ofNat 64 j)

/-- `ekey[x & 0x003f]` -/
def ekeyMash (ekey : EKey) (x : CInt) : CInt := ekeyAt ekey (x &&& 0x003f).toNat

/-- `x += ((y & (s ^ 0xffff)) + (z & s) + k); x = (x << n) | (x >> m & mask)` -/
def mixWord (n m : Nat) (mask x y z s k : CInt) : CInt :=
  let x := x + ((y &&& (s ^^^ 0xffff)) + (z &&& s) + k)
  (x <<< n) ||| (x.sshiftRight m &&& mask)

/-- The mixing part of an encryption round. -/
def mix (ekey : EKey) (i : Nat) (w : Words) : Words :=
  let ⟨a, b, c, d⟩ := w
  let j := i * 4
  let d := mixWord 1 15 0x0001 d c b a (ekeyAt ekey j)
  let c := mixWord 2 14 0x0003 c b a d (ekeyAt ekey (j + 1))
  let b := mixWord 3 13 0x0007 b a d c (ekeyAt ekey (j + 2))
  let a := mixWord 5 11 0x001f a d c b (ekeyAt ekey (j + 3))
  ⟨a, b, c, d⟩

/-- The mashing part of an encryption round. -/
def mash (ekey : EKey) (w : Words) : Words :=
  let ⟨a, b, c, d⟩ := w
  let d := d + ekeyMash ekey a
  let c := c + ekeyMash ekey d
  let b := b + ekeyMash ekey c
  let a := a + ekeyMash ekey b
  ⟨a, b, c, d⟩

/-- One turn of the loop of `mwEncryptBlock` -/
def encryptRound (ekey : EKey) (w : Words) (i : Nat) : Words :=
  let w := mix ekey i w
  if i = 4 ∨ i = 10 then mash ekey w else w

/-- `mwEncryptBlock` -/
def mwEncryptBlock (ekey : EKey) (out : Block) : Block :=
  ((List.range 16).foldl (encryptRound ekey) out.toWords).toBlock

/-- `x = (x << n) | (x >> m & mask); x -= ((y & (s ^ 0xffff)) + (z & s) + k)` -/
def unmixWord (n m : Nat) (mask x y z s k : CInt) : CInt :=
  let x := (x <<< n) ||| (x.sshiftRight m &&& mask)
  x - ((y &&& (s ^^^ 0xffff)) + (z &&& s) + k)

/-- The mixing undone, from the last word to the first. -/
def unmix (ekey : EKey) (i : Nat) (w : Words) : Words :=
  let ⟨a, b, c, d⟩ := w
  let j := i * 4 + 3
  let a := unmixWord 11 5 0x07ff a d c b (ekeyAt ekey j)
  let b := unmixWord 13 3 0x1fff b a d c (ekeyAt ekey (j - 1))
  let c := unmixWord 14 2 0x3fff c b a d (ekeyAt ekey (j - 2))
  let d := unmixWord 15 1 0x7fff d c b a (ekeyAt ekey (j - 3))
  ⟨a, b, c, d⟩

/-- The mashing undone. -/
def unmash (ekey : EKey) (w : Words) : Words :=
  let ⟨a, b, c, d⟩ := w
  let a := a - ekeyMash ekey b
  let b := b - ekeyMash ekey c
  let c := c - ekeyMash ekey d
  let d := d - ekeyMash ekey a
  ⟨a, b, c, d⟩

/-- One turn of the loop of `mwDecryptBlock` -/
def decryptRound (ekey : EKey) (w : Words) (i : Nat) : Words :=
  let w := unmix ekey i w
  if i = 5 ∨ i = 11 then unmash ekey w else w

/-- `mwDecryptBlock` -/
def mwDecryptBlock (ekey : EKey) (out : Block) : Block :=
  ((List.range 16).reverse.foldl (decryptRound ekey) out.toWords).toBlock

/-! ## Messages -/

/-- The loop of `mwEncryptExpanded` over a buffer of whole blocks: the running
vector afterwards and the buffer. -/
def encryptLoop (ekey : EKey) : Block → List UInt8 → Block × List UInt8
  | iv, b0 :: b1 :: b2 :: b3 :: b4 :: b5 :: b6 :: b7 :: o =>
      let c := mwEncryptBlock ekey (Block.xor ⟨b0, b1, b2, b3, b4, b5, b6, b7⟩ iv)
      let (iv, o) := encryptLoop ekey c o
      (iv, c.toList ++ o)
  | iv, _ => (iv, [])

/-- `i_len + (8 - (i_len % 8))` -/
def paddedLength (iLen : Nat) : Nat := iLen + (8 - iLen % 8)

/-- `mwEncryptExpanded`: the running vector afterwards and the output, which is allocated
with `fresh` at its end. The counter of the copying loop starts out negative once the
length does not fit an `int`. If only the padded length does not, those of the other two loops
do: the data are copied, and neither padded nor encrypted. -/
def mwEncryptExpanded (fresh : Block) (ekey : EKey) (iv : Block) (inData : MwOpaque) :
    Option (Block × MwOpaque) :=
  let iLen := inData.length
  let oLen := paddedLength iLen
  let y := oLen - iLen
  if 2 ^ 31 ≤ iLen then none
  else if 2 ^ 31 ≤ oLen then some (iv, inData ++ fresh.toList.drop (8 - y))
  else some (encryptLoop ekey iv (inData ++ List.replicate y (UInt8.ofNat y)))

theorem mwEncryptExpanded_of_lt (fresh : Block) (ekey : EKey) (iv : Block) {inData : MwOpaque}
    (h : paddedLength inData.length < 2 ^ 31) :
    mwEncryptExpanded fresh ekey iv inData = some (encryptLoop ekey iv (inData ++
      List.replicate (paddedLength inData.length - inData.length)
        (UInt8.ofNat (paddedLength inData.length - inData.length)))) := by
  have hle : inData.length ≤ paddedLength inData.length := Nat.le_add_right _ _
  rw [mwEncryptExpanded, if_neg (by omega), if_neg (by omega)]

theorem mwEncryptExpanded_eq_none_iff (fresh : Block) (ekey : EKey) (iv : Block)
    (inData : MwOpaque) : mwEncryptExpanded fresh ekey iv inData = none ↔ 2 ^ 31 ≤ inData.length := by
  unfold mwEncryptExpanded
  dsimp only
  split
  · rename_i hlong
    exact ⟨fun _ => hlong, fun _ => rfl⟩
  · rename_i hint
    split <;> exact ⟨fun h => absurd h (by simp), fun hlong => absurd hlong hint⟩

/-- `mwEncrypt` -/
def mwEncrypt (fresh : Block) (key : List UInt8) (iv : Block) (inData : MwOpaque) :
    Option (Block × MwOpaque) :=
  mwEncryptExpanded fresh (mwKeyExpand key) iv inData

/-- The loop of `mwDecryptExpanded`. A last block that is not whole takes it
past the end of both buffers. -/
def decryptLoop (ekey : EKey) : Block → List UInt8 → Option (Block × List UInt8)
  | iv, [] => some (iv, [])
  | iv, b0 :: b1 :: b2 :: b3 :: b4 :: b5 :: b6 :: b7 :: i =>
      let c : Block := ⟨b0, b1, b2, b3, b4, b5, b6, b7⟩
      let p := (mwDecryptBlock ekey c).xor iv
      match decryptLoop ekey c i with
      | some (iv, o) => some (iv, p.toList ++ o)
      | none => none
  | _, _ => none

/-- What `mwDecryptExpanded` leaves in its `out_data`: the buffer, and the length
it claims to have. -/
structure Decrypted where
  iv : Block
  data : List UInt8
  len : Nat
deriving DecidableEq

/-- `mwDecryptExpanded`: the claimed length is a `gsize` and wraps around when the
last byte is larger than the buffer. With no data at all, that byte is the one
before the buffer. -/
def mwDecryptExpanded (ekey : EKey) (iv : Block) (inData : MwOpaque) : Option Decrypted :=
  let iLen := inData.length
  if 2 ^ 31 ≤ iLen then none
  else
    match decryptLoop ekey iv inData with
    | none => none
    | some (iv, o) =>
        match o.getLast? with
        | none => none
        | some filler => some ⟨iv, o, (iLen + 2 ^ 64 - filler.toNat) % 2 ^ 64⟩

end Meanwhile
