-- SUMMARY: The RC2 block functions are mutually inverse, and decrypting a sequence of messages undoes encrypting it.
import Meanwhile.Cipher.Rc2
import Meanwhile.Lib.LowBits
import Meanwhile.Lib.Cbc

/-!
# Decryption undoes encryption

The block functions only ever need the low 16 bits of their `int`s: the shifts
that rotate leave rubbish above them, which no later step looks at. So each
round is compared with its shadow on 16-bit words, where mixing is an addition
followed by a true rotation and both can be undone exactly.
-/

namespace Meanwhile

/-! ## The low 16 bits -/

/-- The shadow of `Words`: four 16-bit words. -/
structure Words16 where
  a : BitVec 16
  b : BitVec 16
  c : BitVec 16
  d : BitVec 16

def Words.low (w : Words) : Words16 :=
  ⟨w.a.setWidth 16, w.b.setWidth 16, w.c.setWidth 16, w.d.setWidth 16⟩

namespace Words16

/-- What a word of the block is mixed with: `s` selects between `y` and `z`. -/
def select (y z s : BitVec 16) (k : CInt) : BitVec 16 :=
  (y &&& ~~~s) + (z &&& s) + k.setWidth 16

def mix (ekey : EKey) (i : Nat) (w : Words16) : Words16 :=
  let ⟨a, b, c, d⟩ := w
  let d := (d + select c b a (ekeyAt ekey (i * 4))).rotateLeft 1
  let c := (c + select b a d (ekeyAt ekey (i * 4 + 1))).rotateLeft 2
  let b := (b + select a d c (ekeyAt ekey (i * 4 + 2))).rotateLeft 3
  let a := (a + select d c b (ekeyAt ekey (i * 4 + 3))).rotateLeft 5
  ⟨a, b, c, d⟩

def unmix (ekey : EKey) (i : Nat) (w : Words16) : Words16 :=
  let ⟨a, b, c, d⟩ := w
  let a := a.rotateLeft 11 - select d c b (ekeyAt ekey (i * 4 + 3))
  let b := b.rotateLeft 13 - select a d c (ekeyAt ekey (i * 4 + 2))
  let c := c.rotateLeft 14 - select b a d (ekeyAt ekey (i * 4 + 1))
  let d := d.rotateLeft 15 - select c b a (ekeyAt ekey (i * 4))
  ⟨a, b, c, d⟩

/-- The key word that the low six bits pick. -/
def mashKey (ekey : EKey) (x : BitVec 16) : BitVec 16 :=
  (ekeyAt ekey (x &&& 0x003f).toNat).setWidth 16

def mash (ekey : EKey) (w : Words16) : Words16 :=
  let ⟨a, b, c, d⟩ := w
  let d := d + mashKey ekey a
  let c := c + mashKey ekey d
  let b := b + mashKey ekey c
  let a := a + mashKey ekey b
  ⟨a, b, c, d⟩

def unmash (ekey : EKey) (w : Words16) : Words16 :=
  let ⟨a, b, c, d⟩ := w
  let a := a - mashKey ekey b
  let b := b - mashKey ekey c
  let c := c - mashKey ekey d
  let d := d - mashKey ekey a
  ⟨a, b, c, d⟩

theorem unmix_mix (ekey : EKey) (i : Nat) (w : Words16) : unmix ekey i (mix ekey i w) = w := by
  simp (disch := decide) only [mix, unmix, LowBits.rotateLeft_rotateLeft, BitVec.add_sub_cancel]

theorem mix_unmix (ekey : EKey) (i : Nat) (w : Words16) : mix ekey i (unmix ekey i w) = w := by
  simp (disch := decide) only [mix, unmix, LowBits.rotateLeft_rotateLeft, BitVec.sub_add_cancel]

theorem unmash_mash (ekey : EKey) (w : Words16) : unmash ekey (mash ekey w) = w := by
  simp only [mash, unmash, BitVec.add_sub_cancel]

theorem mash_unmash (ekey : EKey) (w : Words16) : mash ekey (unmash ekey w) = w := by
  simp only [mash, unmash, BitVec.sub_add_cancel]

def encryptRound (ekey : EKey) (w : Words16) (i : Nat) : Words16 :=
  if i = 4 ∨ i = 10 then mash ekey (mix ekey i w) else mix ekey i w

def decryptRound (ekey : EKey) (w : Words16) (i : Nat) : Words16 :=
  if i = 5 ∨ i = 11 then unmash ekey (unmix ekey i w) else unmix ekey i w

/-- The mash is done at the end of rounds 4 and 10 and undone at the end of
rounds 11 and 5, so the rounds do not pair up one by one: written out, the 16
of one side cancel the 16 of the other from the middle outwards. -/
theorem decrypt_encrypt (ekey : EKey) (w : Words16) :
    (List.range 16).reverse.foldl (decryptRound ekey)
      ((List.range 16).foldl (encryptRound ekey) w) = w := by
  simp [List.range, List.range.loop, encryptRound, decryptRound, unmix_mix, unmash_mash]

theorem encrypt_decrypt (ekey : EKey) (w : Words16) :
    (List.range 16).foldl (encryptRound ekey)
      ((List.range 16).reverse.foldl (decryptRound ekey) w) = w := by
  simp [List.range, List.range.loop, encryptRound, decryptRound, mix_unmix, mash_unmash]

end Words16

/-! ## The shadow follows the code -/

theorem setWidth_select (y z s k : CInt) :
    ((y &&& (s ^^^ 0xffff)) + (z &&& s) + k).setWidth 16 =
      Words16.select (y.setWidth 16) (z.setWidth 16) (s.setWidth 16) k := by
  have hnot : (s ^^^ 0xffff).setWidth 16 = ~~~ s.setWidth 16 := by
    rw [BitVec.setWidth_xor]
    exact BitVec.xor_allOnes
  simp only [Words16.select, LowBits.setWidth_add (by decide : 16 ≤ 32), BitVec.setWidth_and, hnot]

theorem setWidth_mixWord {n m : Nat} {mask : CInt} (hn : n < 16) (hm : m = 16 - n)
    (hmask : mask = BitVec.ofNat 32 (2 ^ n - 1)) (x y z s k : CInt) :
    (mixWord n m mask x y z s k).setWidth 16 =
      (x.setWidth 16 +
        Words16.select (y.setWidth 16) (z.setWidth 16) (s.setWidth 16) k).rotateLeft n := by
  subst hm hmask
  rw [mixWord, LowBits.setWidth_rotate (by decide) hn, LowBits.setWidth_add (by decide),
    setWidth_select]

theorem setWidth_unmixWord {n m : Nat} {mask : CInt} (hn : n < 16) (hm : m = 16 - n)
    (hmask : mask = BitVec.ofNat 32 (2 ^ n - 1)) (x y z s k : CInt) :
    (unmixWord n m mask x y z s k).setWidth 16 =
      (x.setWidth 16).rotateLeft n -
        Words16.select (y.setWidth 16) (z.setWidth 16) (s.setWidth 16) k := by
  subst hm hmask
  rw [unmixWord, LowBits.setWidth_sub (by decide), LowBits.setWidth_rotate (by decide) hn,
    setWidth_select]

theorem mix_low (ekey : EKey) (i : Nat) (w : Words) :
    (mix ekey i w).low = Words16.mix ekey i w.low := by
  have h1 := @setWidth_mixWord 1 15 0x0001 (by decide) rfl rfl
  have h2 := @setWidth_mixWord 2 14 0x0003 (by decide) rfl rfl
  have h3 := @setWidth_mixWord 3 13 0x0007 (by decide) rfl rfl
  have h5 := @setWidth_mixWord 5 11 0x001f (by decide) rfl rfl
  simp only [mix, Words.low, Words16.mix, h1, h2, h3, h5]

theorem unmix_low (ekey : EKey) (i : Nat) (w : Words) :
    (unmix ekey i w).low = Words16.unmix ekey i w.low := by
  have h11 := @setWidth_unmixWord 11 5 0x07ff (by decide) rfl rfl
  have h13 := @setWidth_unmixWord 13 3 0x1fff (by decide) rfl rfl
  have h14 := @setWidth_unmixWord 14 2 0x3fff (by decide) rfl rfl
  have h15 := @setWidth_unmixWord 15 1 0x7fff (by decide) rfl rfl
  simp only [unmix, Words.low, Words16.unmix, h11, h13, h14, h15]
  rfl

theorem setWidth_ekeyMash (ekey : EKey) (x : CInt) :
    (ekeyMash ekey x).setWidth 16 = Words16.mashKey ekey (x.setWidth 16) := by
  have hidx : (x &&& 0x003f).toNat = (x.setWidth 16 &&& 0x003f).toNat := by
    have hmod (n : Nat) : n &&& 63 = n % 2 ^ 6 := Nat.and_two_pow_sub_one_eq_mod n 6
    have hx : (x &&& 0x003f).toNat = x.toNat % 2 ^ 6 := hmod _
    have hlow : (x.setWidth 16 &&& 0x003f).toNat = (x.setWidth 16).toNat % 2 ^ 6 := hmod _
    rw [hx, hlow, BitVec.toNat_setWidth]
    omega
  rw [ekeyMash, Words16.mashKey, hidx]

theorem mash_low (ekey : EKey) (w : Words) : (mash ekey w).low = Words16.mash ekey w.low := by
  simp only [mash, Words.low, Words16.mash, LowBits.setWidth_add (by decide : 16 ≤ 32),
    setWidth_ekeyMash]

theorem unmash_low (ekey : EKey) (w : Words) :
    (unmash ekey w).low = Words16.unmash ekey w.low := by
  simp only [unmash, Words.low, Words16.unmash, LowBits.setWidth_sub (by decide : 16 ≤ 32),
    setWidth_ekeyMash]

theorem encryptRound_low (ekey : EKey) (w : Words) (i : Nat) :
    (encryptRound ekey w i).low = Words16.encryptRound ekey w.low i := by
  unfold encryptRound Words16.encryptRound
  split
  · rw [mash_low, mix_low]
  · rw [mix_low]

theorem decryptRound_low (ekey : EKey) (w : Words) (i : Nat) :
    (decryptRound ekey w i).low = Words16.decryptRound ekey w.low i := by
  unfold decryptRound Words16.decryptRound
  split
  · rw [unmash_low, unmix_low]
  · rw [unmix_low]

theorem encryptRounds_low (ekey : EKey) (is : List Nat) (w : Words) :
    (is.foldl (encryptRound ekey) w).low = is.foldl (Words16.encryptRound ekey) w.low := by
  induction is generalizing w with
  | nil => rfl
  | cons i is ih => rw [List.foldl_cons, List.foldl_cons, ih, encryptRound_low]

theorem decryptRounds_low (ekey : EKey) (is : List Nat) (w : Words) :
    (is.foldl (decryptRound ekey) w).low = is.foldl (Words16.decryptRound ekey) w.low := by
  induction is generalizing w with
  | nil => rfl
  | cons i is ih => rw [List.foldl_cons, List.foldl_cons, ih, decryptRound_low]

/-! ## Blocks -/

/-- A word of a block, from its two bytes. -/
def join (hi lo : UInt8) : BitVec 16 := hi.toBitVec ++ lo.toBitVec

theorem getLsbD_join (hi lo : UInt8) (i : Nat) :
    (join hi lo).getLsbD i =
      if i < 8 then lo.toBitVec.getLsbD i else hi.toBitVec.getLsbD (i - 8) := by
  rw [join]
  exact BitVec.getLsbD_append

theorem setWidth_bytesToInt (hi lo : UInt8) : (bytesToInt hi lo).setWidth 16 = join hi lo := by
  apply BitVec.eq_of_getLsbD_eq
  intro i hi16
  have hff : (0xff : CInt) = BitVec.ofNat 32 (2 ^ 8 - 1) := rfl
  simp only [bytesToInt, hff, BitVec.getLsbD_setWidth, getLsbD_join, BitVec.getLsbD_or,
    BitVec.getLsbD_and, BitVec.getLsbD_shiftLeft, BitVec.getLsbD_ofNat,
    Nat.testBit_two_pow_sub_one]
  have h32 : i < 32 := by omega
  have h32' : i - 8 < 32 := by omega
  by_cases h8 : i < 8
  · simp [hi16, h8, h32]
  · have hlo : lo.toBitVec.getLsbD i = false := BitVec.getLsbD_of_ge _ _ (by omega)
    simp [hi16, h8, h32, h32', hlo]

/-- The low byte of a sum of 32 bits, through the low 16 of them. -/
theorem getLsbD_intLow (x : CInt) {i : Nat} (hi : i < 8) :
    (intLow x).toBitVec.getLsbD i = (x.setWidth 16).getLsbD i := by
  have hff : (0xff : CInt) = BitVec.ofNat 32 (2 ^ 8 - 1) := rfl
  have h16 : i < 16 := by omega
  have h32 : i < 32 := by omega
  simp only [intLow, hff, BitVec.getLsbD_setWidth, BitVec.getLsbD_and, BitVec.getLsbD_ofNat,
    Nat.testBit_two_pow_sub_one]
  simp [hi, h16, h32]

theorem getLsbD_intHigh (x : CInt) {i : Nat} (hi : i < 8) :
    (intHigh x).toBitVec.getLsbD i = (x.setWidth 16).getLsbD (8 + i) := by
  have hff : (0xff : CInt) = BitVec.ofNat 32 (2 ^ 8 - 1) := rfl
  have h16 : 8 + i < 16 := by omega
  have h32 : i < 32 := by omega
  have h32' : 8 + i < 32 := by omega
  simp only [intHigh, hff, BitVec.getLsbD_setWidth, BitVec.getLsbD_and, BitVec.getLsbD_ofNat,
    Nat.testBit_two_pow_sub_one, BitVec.getLsbD_sshiftRight]
  simp [hi, h16, h32, h32']

/-- The two bytes that are written out are those of the low 16 bits. -/
theorem join_intHigh_intLow (x : CInt) : join (intHigh x) (intLow x) = x.setWidth 16 := by
  apply BitVec.eq_of_getLsbD_eq
  intro i hi16
  rw [getLsbD_join]
  by_cases h8 : i < 8
  · rw [if_pos h8, getLsbD_intLow x h8]
  · rw [if_neg h8, getLsbD_intHigh x (by omega)]
    congr
    omega

theorem join_injective {hi lo hi' lo' : UInt8} (h : join hi lo = join hi' lo') :
    hi = hi' ∧ lo = lo' := by
  constructor
  · apply UInt8.eq_of_toBitVec_eq
    apply BitVec.eq_of_getLsbD_eq
    intro i hi8
    have := congrArg (BitVec.getLsbD · (8 + i)) h
    simpa [getLsbD_join] using this
  · apply UInt8.eq_of_toBitVec_eq
    apply BitVec.eq_of_getLsbD_eq
    intro i hi8
    have := congrArg (BitVec.getLsbD · i) h
    simpa [getLsbD_join, hi8] using this

/-- Writing four `int`s out and reading them back keeps the low 16 bits. -/
theorem toWords_toBlock_low (w : Words) : w.toBlock.toWords.low = w.low := by
  simp only [Words.toBlock, Block.toWords, Words.low, setWidth_bytesToInt, join_intHigh_intLow]

/-- A block is determined by the low 16 bits of its words. -/
theorem toBlock_eq_of_low {w : Words} {b : Block} (h : w.low = b.toWords.low) : w.toBlock = b := by
  simp only [Words.low, Block.toWords, setWidth_bytesToInt, Words16.mk.injEq] at h
  obtain ⟨ha, hb, hc, hd⟩ := h
  rw [← join_intHigh_intLow] at ha hb hc hd
  obtain ⟨h7, h6⟩ := join_injective ha
  obtain ⟨h5, h4⟩ := join_injective hb
  obtain ⟨h3, h2⟩ := join_injective hc
  obtain ⟨h1, h0⟩ := join_injective hd
  simp only [Words.toBlock, h0, h1, h2, h3, h4, h5, h6, h7]

theorem mwDecryptBlock_mwEncryptBlock (ekey : EKey) (b : Block) :
    mwDecryptBlock ekey (mwEncryptBlock ekey b) = b := by
  apply toBlock_eq_of_low
  rw [decryptRounds_low, mwEncryptBlock, toWords_toBlock_low, encryptRounds_low,
    Words16.decrypt_encrypt]

theorem mwEncryptBlock_mwDecryptBlock (ekey : EKey) (b : Block) :
    mwEncryptBlock ekey (mwDecryptBlock ekey b) = b := by
  apply toBlock_eq_of_low
  rw [encryptRounds_low, mwDecryptBlock, toWords_toBlock_low, decryptRounds_low,
    Words16.encrypt_decrypt]

/-- The two block functions undo each other, under any expanded key. -/
theorem blocks_undone (ekey : EKey) :
    Function.LeftInverse (mwDecryptBlock ekey) (mwEncryptBlock ekey) ∧
      Function.RightInverse (mwDecryptBlock ekey) (mwEncryptBlock ekey) :=
  ⟨mwDecryptBlock_mwEncryptBlock ekey, mwEncryptBlock_mwDecryptBlock ekey⟩

/-! ## Messages -/

theorem exists_blocks {o : List UInt8} {n : Nat} (h : o.length = 8 * n) :
    ∃ bs : List Block, o = bs.flatMap Block.toList := by
  induction n generalizing o with
  | zero => exact ⟨[], List.eq_nil_of_length_eq_zero h⟩
  | succ n ih =>
      match o, h with
      | b0 :: b1 :: b2 :: b3 :: b4 :: b5 :: b6 :: b7 :: o, h =>
          obtain ⟨bs, rfl⟩ := ih (o := o) (by simp only [List.length_cons] at h; omega)
          exact ⟨⟨b0, b1, b2, b3, b4, b5, b6, b7⟩ :: bs, rfl⟩

theorem encryptLoop_blocks (ekey : EKey) (iv : Block) (bs : List Block) :
    encryptLoop ekey iv (bs.flatMap Block.toList) =
      ((Cbc.encrypt Block.xor (mwEncryptBlock ekey) iv bs).1,
        (Cbc.encrypt Block.xor (mwEncryptBlock ekey) iv bs).2.flatMap Block.toList) := by
  induction bs generalizing iv with
  | nil => rfl
  | cons b bs ih =>
      simp only [List.flatMap_cons, Block.toList, List.cons_append, List.nil_append, encryptLoop,
        Cbc.encrypt]
      rw [ih]

theorem decryptLoop_blocks (ekey : EKey) (iv : Block) (bs : List Block) :
    decryptLoop ekey iv (bs.flatMap Block.toList) =
      some ((Cbc.decrypt Block.xor (mwDecryptBlock ekey) iv bs).1,
        (Cbc.decrypt Block.xor (mwDecryptBlock ekey) iv bs).2.flatMap Block.toList) := by
  induction bs generalizing iv with
  | nil => rfl
  | cons b bs ih =>
      simp only [List.flatMap_cons, Block.toList, List.cons_append, List.nil_append, decryptLoop,
        Cbc.decrypt]
      rw [ih]

theorem length_flatMap_toList (bs : List Block) :
    (bs.flatMap Block.toList).length = 8 * bs.length := by
  induction bs with
  | nil => rfl
  | cons b bs ih =>
      rw [List.flatMap_cons, List.length_append, ih, List.length_cons, Block.toList]
      simp only [List.length_cons, List.length_nil]
      omega

/-- Over whole blocks the loops undo each other, and the running vectors agree. -/
theorem decryptLoop_encryptLoop (ekey : EKey) (iv : Block) {o : List UInt8} {n : Nat}
    (h : o.length = 8 * n) :
    decryptLoop ekey iv (encryptLoop ekey iv o).2 = some ((encryptLoop ekey iv o).1, o) ∧
      (encryptLoop ekey iv o).2.length = o.length := by
  obtain ⟨bs, rfl⟩ := exists_blocks h
  rw [encryptLoop_blocks]
  constructor
  · rw [decryptLoop_blocks, Cbc.decrypt_encrypt Block.xor (mwDecryptBlock_mwEncryptBlock ekey)
      Block.xor_xor]
  · rw [length_flatMap_toList, length_flatMap_toList, Cbc.length_encrypt]

/-- The padded length is the next multiple of the block size. -/
theorem paddedLength_isLeast (n : Nat) : IsLeast {m | 8 ∣ m ∧ n < m} (paddedLength n) := by
  unfold paddedLength
  constructor
  · constructor <;> omega
  · rintro m ⟨hdvd, hlt⟩
    omega

/-- Decrypting a message with the vector it was encrypted with gives it back,
and leaves the same running vector. -/
theorem mwDecryptExpanded_mwEncryptExpanded (fresh : Block) (ekey : EKey) (iv : Block)
    {m : MwOpaque} (hm : m.length < 2 ^ 31 - 8) :
    ∃ iv' c d, mwEncryptExpanded fresh ekey iv m = some (iv', c) ∧
      c.length = paddedLength m.length ∧
      mwDecryptExpanded ekey iv c = some ⟨iv', d, m.length⟩ ∧ d.take m.length = m := by
  have hbound : paddedLength m.length < 2 ^ 31 := by
    unfold paddedLength
    omega
  set y := paddedLength m.length - m.length with hy
  have hypos : 0 < y ∧ y ≤ 8 := by
    unfold paddedLength at hy
    omega
  set o := m ++ List.replicate y (UInt8.ofNat y) with ho
  have hlen : o.length = paddedLength m.length := by
    simp only [ho, List.length_append, List.length_replicate]
    omega
  obtain ⟨n, hn⟩ : 8 ∣ paddedLength m.length := (paddedLength_isLeast m.length).1.1
  obtain ⟨hdec, hclen⟩ := decryptLoop_encryptLoop ekey iv (hlen.trans hn)
  refine ⟨(encryptLoop ekey iv o).1, (encryptLoop ekey iv o).2, o, ?_, ?_, ?_, ?_⟩
  · exact mwEncryptExpanded_of_lt fresh ekey iv hbound
  · rw [hclen, hlen]
  · have hlast : o.getLast? = some (UInt8.ofNat y) := by
      rw [ho, List.getLast?_append_of_ne_nil _ (by simp; omega), List.getLast?_replicate,
        if_neg (by omega)]
    have hyval : (UInt8.ofNat y).toNat = y := by
      rw [UInt8.toNat_ofNat']
      omega
    have hwrap : (paddedLength m.length + 2 ^ 64 - y) % 2 ^ 64 = m.length := by omega
    rw [mwDecryptExpanded, hclen, hlen, if_neg (by omega), hdec]
    simp only [hlast, hyval, hwrap]
  · rw [ho, List.take_left]

/-- One message of a stream as one of the two functions leaves it, with its
running vector. -/
structure CipherStep where
  data : MwOpaque
  iv : Block

/-- Messages encrypted in order through one running vector. -/
def encryptRun (fresh : Block) (ekey : EKey) : Block → List MwOpaque → Option (List CipherStep)
  | _, [] => some []
  | iv, m :: ms => do
      let (iv, c) ← mwEncryptExpanded fresh ekey iv m
      let steps ← encryptRun fresh ekey iv ms
      return ⟨c, iv⟩ :: steps

/-- Messages decrypted in order through one running vector; each is the part of
the buffer that its length claims. -/
def decryptRun (ekey : EKey) : Block → List MwOpaque → Option (List CipherStep)
  | _, [] => some []
  | iv, c :: cs => do
      let d ← mwDecryptExpanded ekey iv c
      let steps ← decryptRun ekey d.iv cs
      return ⟨d.data.take d.len, d.iv⟩ :: steps

/-- A stream of messages comes back as it was, each ciphertext is as long as its
padded plaintext, and after every message both sides have the same vector. -/
theorem decryptRun_encryptRun (fresh : Block) (ekey : EKey) (iv : Block) {ms : List MwOpaque}
    (hms : ∀ m ∈ ms, m.length < 2 ^ 31 - 8) :
    ∃ steps, encryptRun fresh ekey iv ms = some steps ∧
      List.Forall₂ (fun m s => IsLeast {n | 8 ∣ n ∧ m.length < n} s.data.length) ms steps ∧
      decryptRun ekey iv (steps.map (·.data)) =
        some (List.zipWith (fun m s => ⟨m, s.iv⟩) ms steps) := by
  induction ms generalizing iv with
  | nil => exact ⟨[], rfl, .nil, rfl⟩
  | cons m ms ih =>
      obtain ⟨iv', c, d, henc, hlen, hdec, hd⟩ :=
        mwDecryptExpanded_mwEncryptExpanded fresh ekey iv (hms m List.mem_cons_self)
      obtain ⟨steps, hrun, hlens, hback⟩ :=
        ih iv' (fun m' hm' => hms m' (List.mem_cons_of_mem m hm'))
      refine ⟨⟨c, iv'⟩ :: steps, ?_, ?_, ?_⟩
      · simp [encryptRun, henc, hrun]
      · refine .cons ?_ hlens
        rw [hlen]
        exact paddedLength_isLeast m.length
      · simp [decryptRun, hdec, hback, hd]

theorem decryptRun_encryptRun_two :
    let ms : List MwOpaque := [[], [7, 8, 9]]
    ∃ steps, encryptRun .zero (mwKeyExpand [1, 2, 3, 4, 5]) mwIvInit ms = some steps ∧
      List.Forall₂ (fun m s => IsLeast {n | 8 ∣ n ∧ m.length < n} s.data.length) ms steps ∧
      decryptRun (mwKeyExpand [1, 2, 3, 4, 5]) mwIvInit (steps.map (·.data)) =
        some (List.zipWith (fun m s => ⟨m, s.iv⟩) ms steps) := by
  intro ms
  exact decryptRun_encryptRun _ _ _ (by simp [ms])

end Meanwhile
