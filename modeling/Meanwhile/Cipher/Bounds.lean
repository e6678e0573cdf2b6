-- SUMMARY: Which bytes mwDecryptExpanded touches and how long it says its output is, for data of any length and contents.
import Meanwhile.Cipher.Rc2Inverse

/-!
# Decryption and its buffers

`mwDecryptExpanded` works on two buffers of the length of its input. It copies one
into the other, goes over both in steps of eight bytes, and at the end reads the
byte before its cursor to learn how much of the last block is padding. Its counter
is a signed `int`.

The offsets that it touches depend on the length only. The length of the output
depends on the last byte that comes out, which is not compared with anything.
-/

namespace Meanwhile

/-! ## Offsets -/

/-- `int x = i_len` -/
def decryptCounter (len : Nat) : Int := (BitVec.ofNat 32 len).toInt

/-- `for(x = i_len; x--; o[x] = i[x])`. A counter that is negative starts below the
buffer, and would go on from there. -/
def copyOffsets (x : Int) : List Int :=
  if x < 0 then [x - 1] else (List.range x.toNat).reverse.map Int.ofNat

/-- `for(x = o_len; x > 0; x -= 8)`, in which the eight bytes at `o` are used -/
def blockOffsets (x : Nat) (o : Int) : List Int :=
  if 0 < x then (List.range 8).map (fun y => o + Int.ofNat y) ++ blockOffsets (x - 8) (o + 8)
  else []
termination_by x

/-- Where the cursor stands after that loop -/
def blockEnd (x : Nat) (o : Int) : Int :=
  if 0 < x then blockEnd (x - 8) (o + 8) else o
termination_by x

/-- The offsets at which `mwDecryptExpanded` reads its input and reads and writes its
output -/
def decryptOffsets (len : Nat) : List Int :=
  let x := decryptCounter len
  copyOffsets x ++ blockOffsets x.toNat 0 ++ [blockEnd x.toNat 0 - 1]

/-- All of the offsets are inside of buffers of the length of the input. -/
def OffsetsInside (len : Nat) : Prop := ∀ off ∈ decryptOffsets len, 0 ≤ off ∧ off < len

theorem blockEnd_eq (x : Nat) (o : Int) : blockEnd x o = o + 8 * ((x + 7) / 8 : Nat) := by
  fun_induction blockEnd x o with
  | case1 x o hpos ih =>
    rw [ih]
    omega
  | case2 x o hzero =>
    obtain rfl : x = 0 := by omega
    simp

theorem mem_blockOffsets {x : Nat} {o off : Int} :
    off ∈ blockOffsets x o ↔ o ≤ off ∧ off < o + 8 * ((x + 7) / 8 : Nat) := by
  fun_induction blockOffsets x o with
  | case1 x o hpos ih =>
    have hhead : off ∈ (List.range 8).map (fun y => o + Int.ofNat y) ↔ o ≤ off ∧ off < o + 8 := by
      rw [List.mem_map]
      constructor
      · rintro ⟨y, hy, rfl⟩
        have := List.mem_range.mp hy
        simp only [Int.ofNat_eq_natCast]
        omega
      · rintro ⟨hlow, hhigh⟩
        refine ⟨(off - o).toNat, List.mem_range.mpr (by omega), ?_⟩
        simp only [Int.ofNat_eq_natCast]
        omega
    rw [List.mem_append, hhead, ih]
    omega
  | case2 x o hzero =>
    obtain rfl : x = 0 := by omega
    simp

theorem decryptCounter_eq {len : Nat} (h : len < 2 ^ 32) :
    decryptCounter len = if len < 2 ^ 31 then (len : Int) else len - 2 ^ 32 := by
  unfold decryptCounter
  rw [BitVec.toInt_eq_toNat_cond, BitVec.toNat_ofNat, Nat.mod_eq_of_lt h]
  split <;> split <;> omega

/-- The offsets stay inside when the data is made of whole blocks, at least one. -/
theorem offsetsInside_iff {len : Nat} (h : len < 2 ^ 32) :
    OffsetsInside len ↔ 0 < len ∧ 8 ∣ len ∧ len < 2 ^ 31 := by
  have hcounter := decryptCounter_eq h
  unfold OffsetsInside decryptOffsets
  simp only [List.mem_append, List.mem_singleton, mem_blockOffsets, blockEnd_eq]
  constructor
  · intro hall
    have hint : len < 2 ^ 31 := by
      by_contra hbig
      rw [if_neg hbig] at hcounter
      have hneg : decryptCounter len < 0 := by omega
      have := hall (decryptCounter len - 1) (.inl (.inl (by simp [copyOffsets, hneg])))
      omega
    rw [if_pos hint] at hcounter
    rw [hcounter, Int.toNat_natCast] at hall
    have hlast := hall _ (.inr rfl)
    refine ⟨by omega, ?_, hint⟩
    -- a block that is not whole has its end outside
    by_contra hpart
    have := hall len (.inl (.inr (by omega)))
    omega
  · rintro ⟨hpos, hdvd, hint⟩ off hoff
    rw [if_pos hint] at hcounter
    rw [hcounter, Int.toNat_natCast] at hoff
    rcases hoff with (hcopy | hblock) | rfl
    · rw [copyOffsets, if_neg (by omega), Int.toNat_natCast] at hcopy
      obtain ⟨i, hi, rfl⟩ := List.mem_map.mp hcopy
      have := List.mem_range.mp (List.mem_reverse.mp hi)
      simp only [Int.ofNat_eq_natCast]
      omega
    · omega
    · omega

/-! ## The padding -/

/-- The eight bytes at the start of a buffer -/
def blockAt (bs : List UInt8) : Block :=
  ⟨bs.getD 0 0, bs.getD 1 0, bs.getD 2 0, bs.getD 3 0, bs.getD 4 0, bs.getD 5 0, bs.getD 6 0,
    bs.getD 7 0⟩

/-- The byte that the end of the data stands for: what the last block decrypts to,
chained to the block before it, or to the vector if there is none -/
def fillerByte (ekey : EKey) (iv : Block) (inData : MwOpaque) : UInt8 :=
  (mwDecryptBlock ekey (blockAt (inData.drop (inData.length - 8)))).b7 ^^^
    if inData.length < 16 then iv.b7 else inData.getD (inData.length - 9) 0

theorem Block.toList_length (b : Block) : b.toList.length = 8 := rfl

/-- The first of several blocks is only there to be chained to. -/
theorem fillerByte_append (ekey : EKey) (iv b : Block) {rest : List UInt8} {n : Nat}
    (h : rest.length = 8 * (n + 1)) :
    fillerByte ekey iv (b.toList ++ rest) = fillerByte ekey b rest := by
  have hlen : (b.toList ++ rest).length = rest.length + 8 := by
    rw [List.length_append, Block.toList_length]
    omega
  have hlast : (b.toList ++ rest).drop (rest.length + 8 - 8) = rest.drop (rest.length - 8) := by
    rw [List.drop_append, Block.toList_length, List.drop_eq_nil_of_le, List.nil_append]
    · congr 1
    · rw [Block.toList_length]
      omega
  have hprev : (if rest.length + 8 < 16 then iv.b7
        else (b.toList ++ rest).getD (rest.length + 8 - 9) 0) =
      if rest.length < 16 then b.b7 else rest.getD (rest.length - 9) 0 := by
    rw [if_neg (by omega)]
    by_cases hone : n = 0
    · -- a single block is left, chained to the end of `b`
      rw [if_pos (by omega), h, hone, List.getD_append _ _ _ _ (by rw [Block.toList_length]; omega)]
      rfl
    · rw [if_neg (by omega), List.getD_append_right _ _ _ _ (by rw [Block.toList_length]; omega),
        Block.toList_length]
      congr 1
  unfold fillerByte
  rw [hlen, hlast, hprev]

theorem decryptLoop_getLast? (ekey : EKey) (iv : Block) (b : Block) (bs : List Block) :
    ((Cbc.decrypt Block.xor (mwDecryptBlock ekey) iv (b :: bs)).2.flatMap Block.toList).getLast? =
      some (fillerByte ekey iv ((b :: bs).flatMap Block.toList)) := by
  induction bs generalizing iv b with
  | nil => rfl
  | cons b' bs ih =>
    have hrest : ((b' :: bs).flatMap Block.toList).length = 8 * (bs.length + 1) :=
      length_flatMap_toList (b' :: bs)
    rw [Cbc.decrypt]
    dsimp only
    rw [List.flatMap_cons, List.getLast?_append, ih b b', ← fillerByte_append ekey iv b hrest]
    rfl

/-! ## Decryption stays inside -/

/-- The function touches nothing outside of its buffers, and says that its output is
at most as long as the input. -/
def DecryptsInside (ekey : EKey) (iv : Block) (inData : MwOpaque) : Prop :=
  OffsetsInside inData.length ∧
    ∃ d, mwDecryptExpanded ekey iv inData = some d ∧ d.len ≤ inData.length

/-- Whole blocks, with an end that stands for no more bytes than there are -/
def WellPadded (ekey : EKey) (iv : Block) (inData : MwOpaque) : Prop :=
  0 < inData.length ∧ 8 ∣ inData.length ∧ inData.length < 2 ^ 31 ∧
    (fillerByte ekey iv inData).toNat ≤ inData.length

/-- What decryption leaves of whole blocks -/
theorem mwDecryptExpanded_len {ekey : EKey} {iv : Block} {inData : MwOpaque}
    (hpos : 0 < inData.length) (hdvd : 8 ∣ inData.length) (hint : inData.length < 2 ^ 31) :
    ∃ d, mwDecryptExpanded ekey iv inData = some d ∧
      d.len = (inData.length + 2 ^ 64 - (fillerByte ekey iv inData).toNat) % 2 ^ 64 := by
  obtain ⟨n, hn⟩ := hdvd
  obtain ⟨bs, rfl⟩ := exists_blocks hn
  obtain ⟨b, bs, rfl⟩ : ∃ b bs', bs = b :: bs' := by
    cases bs with
    | nil => exact absurd hpos (by decide)
    | cons b bs => exact ⟨b, bs, rfl⟩
  have hlast := decryptLoop_getLast? ekey iv b bs
  unfold mwDecryptExpanded
  rw [if_neg (by omega), decryptLoop_blocks]
  simp only [hlast]
  exact ⟨_, rfl, rfl⟩

/-- The wrapped length is short enough if nothing is wrapped. -/
theorem wrapped_le_iff {len filler : Nat} (hlen : len < 2 ^ 31) (hfiller : filler < 256) :
    (len + 2 ^ 64 - filler) % 2 ^ 64 ≤ len ↔ filler ≤ len := by
  constructor
  · intro hle
    by_contra hlt
    rw [Nat.mod_eq_of_lt (by omega)] at hle
    omega
  · intro hle
    rw [show len + 2 ^ 64 - filler = len - filler + 2 ^ 64 by omega, Nat.add_mod_right,
      Nat.mod_eq_of_lt (by omega)]
    omega

/-- The data of a message, whose length is a 32-bit word, is decrypted inside of its
buffers when it is well padded. -/
theorem decryptsInside_iff (ekey : EKey) (iv : Block) {inData : MwOpaque} (hfits : inData.Fits) :
    DecryptsInside ekey iv inData ↔ WellPadded ekey iv inData := by
  unfold DecryptsInside WellPadded
  rw [offsetsInside_iff hfits]
  constructor
  · rintro ⟨⟨hpos, hdvd, hint⟩, d, hd, hle⟩
    obtain ⟨d', hd', hlen⟩ := mwDecryptExpanded_len hpos hdvd hint
    obtain rfl : d = d' := Option.some.inj (hd.symm.trans hd')
    rw [hlen] at hle
    exact ⟨hpos, hdvd, hint, (wrapped_le_iff hint (UInt8.toNat_lt _)).mp hle⟩
  · rintro ⟨hpos, hdvd, hint, hfiller⟩
    obtain ⟨d, hd, hlen⟩ := mwDecryptExpanded_len hpos hdvd hint
    refine ⟨⟨hpos, hdvd, hint⟩, d, hd, ?_⟩
    rw [hlen]
    exact (wrapped_le_iff hint (UInt8.toNat_lt _)).mpr hfiller

/-- Three bytes as `mwEncryptExpanded` pads and encrypts them -/
theorem decryptsInside_padded :
    let ekey := mwKeyExpand [1, 2, 3, 4, 5]
    DecryptsInside ekey mwIvInit (encryptLoop ekey mwIvInit [7, 8, 9, 5, 5, 5, 5, 5]).2 := by
  intro ekey
  refine (decryptsInside_iff ekey mwIvInit ?_).mpr ?_
  · decide +kernel
  · unfold WellPadded
    decide +kernel

/-- No data at all, a block that is not whole, and eight zeros, which end in a byte
that is larger than eight: with them the length of the output goes around. -/
theorem not_decryptsInside :
    let ekey := mwKeyExpand [1, 2, 3, 4, 5]
    ¬ DecryptsInside ekey mwIvInit [] ∧ ¬ DecryptsInside ekey mwIvInit [0, 0, 0, 0, 0] ∧
      ¬ DecryptsInside ekey mwIvInit [0, 0, 0, 0, 0, 0, 0, 0] := by
  intro ekey
  refine ⟨?_, ?_, ?_⟩
  · rintro ⟨-, d, hd, -⟩
    have hnone : mwDecryptExpanded ekey mwIvInit [] = none := by decide +kernel
    rw [hnone] at hd
    exact nomatch hd
  · rintro ⟨-, d, hd, -⟩
    have hnone : mwDecryptExpanded ekey mwIvInit [0, 0, 0, 0, 0] = none := by decide +kernel
    rw [hnone] at hd
    exact nomatch hd
  · rintro ⟨-, d, hd, hle⟩
    have hlong : 8 < ((mwDecryptExpanded ekey mwIvInit
        [0, 0, 0, 0, 0, 0, 0, 0]).map (·.len)).getD 0 := by
      decide +kernel
    rw [hd] at hlong
    exact absurd hle (Nat.not_le.mpr hlong)

end Meanwhile
