-- SUMMARY: How far reads take the cursor: fields that use up bytes, loops that read a counted list, and strings too long for their length word.
import Meanwhile.Common.Types

/-!
# Reading

A get function that ends without an error started without one and used up the
bytes of its fields. `Get.Uses` counts them, field by field.

A decoder of a counted list is a loop around a get function, a `CountedLoop`. Its
`turns` are the buffers that its turns start with, one for each element that is
built.
-/

namespace Meanwhile

/-! ## Bytes that are used up -/

/-- When the get function ends without an error, at least `n` bytes have been read. -/
def Get.Uses {α : Type} (n : Nat) (g : Get α) : Prop :=
  ∀ b : GetBuffer, (g b).2.error = false → b.error = false ∧ (g b).2.rem + n ≤ b.rem

namespace Get.Uses

variable {α β : Type} {m n : Nat}

theorem of_le {g : Get α} (h : g.Uses n) (hle : m ≤ n) : g.Uses m := by
  intro b hok
  obtain ⟨herror, hrem⟩ := h b hok
  exact ⟨herror, by omega⟩

theorem pure (a : α) : (Pure.pure a : Get α).Uses 0 := fun _ h => ⟨h, le_refl _⟩

theorem bind {x : Get α} {f : α → Get β} (hx : x.Uses m) (hf : ∀ a, (f a).Uses n) :
    (x >>= f).Uses (m + n) := by
  intro b hok
  obtain ⟨hmid, hrem⟩ := hf (x b).1 (x b).2 hok
  obtain ⟨herror, hrem'⟩ := hx b hmid
  rw [Get.bind_apply]
  exact ⟨herror, by omega⟩

/-- What follows a field may be left out of the count. -/
theorem bind_left {x : Get α} {f : α → Get β} (hx : x.Uses m) (hf : ∀ a, (f a).Uses 0) :
    (x >>= f).Uses m := hx.bind hf

theorem ite {p : Prop} [Decidable p] {x y : Get α} (hx : x.Uses n) (hy : y.Uses n) :
    (if p then x else y).Uses n := by
  split
  · exact hx
  · exact hy

theorem advance (len : Nat) : (mwGetBufferAdvance len).Uses 0 := by
  intro b hok
  rw [mwGetBufferAdvance_error] at hok
  refine ⟨hok, ?_⟩
  simp [mwGetBufferAdvance, hok, GetBuffer.skip]

theorem guint16 (val : UInt16) : (guint16Get val).Uses 2 := by
  rintro ⟨buf, len, ptr, rem, wrap, error⟩ hok
  cases error with
  | true => simp [guint16Get] at hok
  | false =>
    by_cases hrem : rem < 2
    · simp [guint16Get, GetBuffer.check, hrem] at hok
    · simp [guint16Get, GetBuffer.check, hrem, GetBuffer.skip]
      omega

theorem guint32 (val : UInt32) : (guint32Get val).Uses 4 := by
  intro b hok
  obtain ⟨herror, hrem, heq⟩ := guint32Get_of_ok hok
  rw [heq]
  simp only [GetBuffer.skip]
  exact ⟨herror, by omega⟩

theorem gboolean (val : Bool) : (gbooleanGet val).Uses 1 := by
  rintro ⟨buf, len, ptr, rem, wrap, error⟩ hok
  cases error with
  | true => simp [gbooleanGet] at hok
  | false =>
    by_cases hrem : rem = 0
    · simp [gbooleanGet, GetBuffer.check, hrem] at hok
    · simp [gbooleanGet, GetBuffer.check, hrem, GetBuffer.skip]
      omega

/-- A check that passes leaves the buffer as it is. -/
theorem check {b : GetBuffer} {k : Nat} (hok : (b.check k).error = false) :
    b.error = false ∧ k ≤ b.rem ∧ (b.check k).rem = b.rem := by
  unfold GetBuffer.check at hok ⊢
  cases herror : b.error with
  | true => simp [herror] at hok
  | false =>
    simp only [herror, Bool.false_eq_true, if_false, decide_eq_false_iff_not] at hok ⊢
    exact ⟨trivial, by omega, trivial⟩

theorem string : mwStringGet.Uses 2 := by
  intro b hok
  unfold mwStringGet at hok ⊢
  cases herror : b.error with
  | true => simp [herror] at hok
  | false =>
    simp only [herror, Bool.false_eq_true, if_false] at hok ⊢
    generalize hword : guint16Get 0 b = r at hok ⊢
    obtain ⟨len, b'⟩ := r
    dsimp only at hok ⊢
    cases hcheck : (b'.check len.toNat).error with
    | true => simp [hcheck] at hok
    | false =>
      obtain ⟨hmid, hle, hrem⟩ := check hcheck
      have huses := guint16 0 b (by rw [hword]; exact hmid)
      rw [hword] at huses
      have hstep : b'.rem + 2 ≤ b.rem := huses.2
      simp only [Bool.false_eq_true, if_false]
      refine ⟨trivial, ?_⟩
      split
      · exact hrem ▸ hstep
      · simp only [GetBuffer.skip, hrem]
        omega

/-- A get function that returns at once when there is an error already -/
theorem guarded {a : α} {x : Get α} (hx : x.Uses n) :
    (mwGetBufferError >>= fun error => if error = true then Pure.pure a else x).Uses n := by
  intro b hok
  rw [mwGetBufferError_bind, Get.ite_apply] at hok ⊢
  split at hok
  case isTrue herror => exact absurd herror (by simpa using hok)
  case isFalse herror =>
    rw [if_neg herror]
    exact hx b hok

theorem userItem (user : MwUserItem) : (mwUserItemGet user).Uses 5 := by
  unfold mwUserItemGet
  apply guarded
  show Get.Uses (1 + (2 + 2)) _
  refine (gboolean _).bind fun _ => ?_
  refine string.bind fun _ => ?_
  refine string.bind_left fun _ => ite ?_ (pure _)
  exact of_le (string.bind_left fun _ => pure _) (Nat.zero_le _)

theorem idBlock (idb : MwIdBlock) : (mwIdBlockGet idb).Uses 4 := by
  unfold mwIdBlockGet
  apply guarded
  show Get.Uses (2 + 2) _
  refine string.bind fun _ => ?_
  exact string.bind_left fun _ => pure _

end Get.Uses

/-! ## Buffers whose counts agree -/

/-- The bytes remaining are those under and after the cursor. -/
def GetBuffer.Sound (b : GetBuffer) : Prop := b.ptr + b.rem = b.buf.length

namespace GetBuffer.Sound

theorem wrapOpaque (o : MwOpaque) : (GetBuffer.wrapOpaque o).Sound := Nat.zero_add _

theorem rest_length {b : GetBuffer} (h : b.Sound) : b.rest.length = b.rem := by
  unfold GetBuffer.Sound at h
  simp only [GetBuffer.rest, List.length_drop]
  omega

theorem skip {b : GetBuffer} (h : b.Sound) {n : Nat} (hn : n ≤ b.rem) : (b.skip n).Sound := by
  unfold GetBuffer.Sound at h ⊢
  simp only [GetBuffer.skip]
  omega

theorem check {b : GetBuffer} (h : b.Sound) (n : Nat) : (b.check n).Sound := by
  unfold GetBuffer.check
  split
  · exact h
  · exact h

theorem advance {b : GetBuffer} (h : b.Sound) (len : Nat) : (mwGetBufferAdvance len b).2.Sound := by
  unfold mwGetBufferAdvance
  split
  · exact h
  · exact h.skip (Nat.min_le_right _ _)

theorem guint16 {b : GetBuffer} (h : b.Sound) (val : UInt16) : (guint16Get val b).2.Sound := by
  unfold guint16Get
  split
  · exact h
  · dsimp only
    split
    · exact h.check 2
    · rename_i hcheck
      obtain ⟨-, hrem, hsame⟩ := Get.Uses.check (by simpa using hcheck)
      exact (h.check 2).skip (hsame ▸ hrem)

theorem guint32 {b : GetBuffer} (h : b.Sound) (val : UInt32) : (guint32Get val b).2.Sound := by
  unfold guint32Get
  split
  · exact h
  · dsimp only
    split
    · exact h.check 4
    · rename_i hcheck
      obtain ⟨-, hrem, hsame⟩ := Get.Uses.check (by simpa using hcheck)
      exact (h.check 4).skip (hsame ▸ hrem)

/-- A word that can be read does not depend on what its target held before. -/
theorem guint32Get_eq {b : GetBuffer} (h : b.Sound) {val : UInt32} (val' : UInt32)
    (hok : (guint32Get val b).2.error = false) : guint32Get val' b = guint32Get val b := by
  have hsame : (guint32Get val' b).2 = (guint32Get val b).2 := by
    unfold guint32Get
    split
    · rfl
    · dsimp only
      split <;> rfl
  obtain ⟨-, hrem, heq⟩ := guint32Get_of_ok hok
  obtain ⟨-, -, heq'⟩ := guint32Get_of_ok (hsame ▸ hok)
  rw [heq, heq', mw32Get_of_length (h.rest_length ▸ hrem) val' val]

end GetBuffer.Sound

/-! ## Counted lists -/

/-- A loop `while(count--)` around a get function, which may look at what is left of
the count, and the buffer that it starts with. Every element takes up bytes. -/
structure CountedLoop (α : Type) where
  get : Nat → Get α
  uses : ∀ i, (get i).Uses 2
  count : Nat
  start : GetBuffer

namespace CountedLoop

variable {α : Type} (loop : CountedLoop α)

/-- The buffers that the turns start with, `count` of them still to go -/
def turnsFrom : Nat → GetBuffer → List GetBuffer
  | 0, _ => []
  | count + 1, b => b :: turnsFrom count (loop.get count b).2

/-- The elements that are built in these turns -/
def builtFrom : Nat → GetBuffer → List α
  | 0, _ => []
  | count + 1, b => (loop.get count b).1 :: builtFrom count (loop.get count b).2

/-- The buffer that the last of the turns starts with, `count` of them before it -/
def lastFrom : Nat → GetBuffer → GetBuffer
  | 0, b => b
  | count + 1, b => lastFrom count (loop.get (count + 1) b).2

/-- The buffer after the loop -/
def endFrom : Nat → GetBuffer → GetBuffer
  | 0, b => b
  | count + 1, b => endFrom count (loop.get count b).2

def turns : List GetBuffer := loop.turnsFrom loop.count loop.start

def built : List α := loop.builtFrom loop.count loop.start

/-- The loop builds no more elements than there are bytes when it starts, and none
once a read has run out of data. -/
def Bounded : Prop :=
  loop.built.length ≤ loop.start.rem ∧ ∀ b ∈ loop.turns, b.error = false

/-- There is an element for every one that is announced but for the last, and at least
one byte if one is announced at all. -/
def AllButLast : Prop :=
  match loop.count with
  | 0 => True
  | count + 1 => 0 < loop.start.rem ∧ (loop.lastFrom count loop.start).error = false

/-- One element is built in each turn, whatever is left in the buffer. -/
theorem builtFrom_length (count : Nat) (b : GetBuffer) :
    (loop.builtFrom count b).length = count := by
  induction count generalizing b with
  | zero => rfl
  | succ count ih => simp [builtFrom, ih]

theorem built_length : loop.built.length = loop.count := loop.builtFrom_length _ _

/-- The elements that were there used up bytes. -/
theorem lastFrom_ok {count : Nat} {b : GetBuffer} (hok : (loop.lastFrom count b).error = false) :
    b.error = false ∧ (loop.lastFrom count b).rem + 2 * count ≤ b.rem := by
  induction count generalizing b with
  | zero => exact ⟨hok, le_refl _⟩
  | succ count ih =>
    obtain ⟨hmid, hrem⟩ := ih hok
    obtain ⟨herror, hstep⟩ := loop.uses (count + 1) b hmid
    simp only [lastFrom]
    exact ⟨herror, by omega⟩

/-- An error stays, so the last turn tells about all of them. -/
theorem turnsFrom_ok_iff (count : Nat) (b : GetBuffer) :
    (∀ c ∈ loop.turnsFrom (count + 1) b, c.error = false) ↔
      (loop.lastFrom count b).error = false := by
  induction count generalizing b with
  | zero => simp [turnsFrom, lastFrom]
  | succ count ih =>
    rw [turnsFrom, List.forall_mem_cons, ih]
    constructor
    · exact And.right
    · intro hok
      have hmid : (loop.get (count + 1) b).2.error = false :=
        (loop.lastFrom_ok (b := (loop.get (count + 1) b).2) hok).1
      exact ⟨(loop.uses _ b hmid).1, hok⟩

/-- Without a look at the error flag, a loop stays within its data only if the data
is there. -/
theorem bounded_iff : loop.Bounded ↔ loop.AllButLast := by
  unfold Bounded AllButLast turns
  rw [built_length]
  cases loop.count with
  | zero => simp [turnsFrom]
  | succ count =>
    simp only [turnsFrom_ok_iff]
    constructor
    · rintro ⟨hcount, hok⟩
      exact ⟨by omega, hok⟩
    · rintro ⟨hrem, hok⟩
      refine ⟨?_, hok⟩
      -- every element before the last has used up two bytes, and a single one has one
      have hused := (loop.lastFrom_ok hok).2
      omega

end CountedLoop

/-! ## Strings and what follows them -/

/-- The characters of a string, of which `NULL` has none. -/
def MwString.chars : MwString → List UInt8
  | none => []
  | some s => s.val

theorem MwString.canon_chars (s : MwString) : s.canon.chars = s.chars := by
  cases s with
  | none => rfl
  | some s =>
    simp only [MwString.canon]
    split
    case isTrue hnil => simp [MwString.chars, hnil]
    case isFalse => rfl

/-- Reading the string that was put leaves the cursor at what was put after it, with
the string or the start of it read. -/
def ReadsInStep (s : MwString) (pre post : List UInt8) : Prop :=
  (mwStringGet (.between pre (mwStringPut s ++ post))).2 = .between (pre ++ mwStringPut s) post ∧
    (mwStringGet (.between pre (mwStringPut s ++ post))).1.chars <+: s.chars

/-- The cursor goes by the length word, which keeps the low 16 bits of the length. -/
theorem mwStringGet_ptr (s : MwString) (pre post : List UInt8) :
    (mwStringGet (.between pre (mwStringPut s ++ post))).2.ptr =
      pre.length + 2 + s.length % 2 ^ 16 := by
  have hput : mwStringPut s = guint16Put (UInt16.ofNat s.length) ++ s.chars := by
    cases s <;> rfl
  have hlen : (UInt16.ofNat s.length).toNat = s.length % 2 ^ 16 := UInt16.toNat_ofNat'
  have hle : (UInt16.ofNat s.length).toNat ≤ (s.chars ++ post).length := by
    have hmod : s.length % 2 ^ 16 ≤ s.length := Nat.mod_le _ _
    have hchars : s.chars.length = s.length := by cases s <;> rfl
    rw [hlen, List.length_append, hchars]
    omega
  unfold mwStringGet
  rw [hput, List.append_assoc, GetBuffer.between_error, guint16Get_between]
  simp only [Bool.false_eq_true, if_false, GetBuffer.between_check hle, GetBuffer.between_error]
  split
  case isTrue hzero =>
    have hmod : s.length % 2 ^ 16 = 0 := by rw [← hlen, hzero]; rfl
    rw [hmod]
    simp [GetBuffer.between]
  case isFalse =>
    simp [GetBuffer.between, GetBuffer.skip, hlen]

theorem not_readsInStep {s : MwString} (hlong : 65535 < s.length) (pre post : List UInt8) :
    ¬ ReadsInStep s pre post := by
  rintro ⟨hcursor, -⟩
  have hptr := congrArg GetBuffer.ptr hcursor
  rw [mwStringGet_ptr] at hptr
  have hput : (mwStringPut s).length = 2 + s.length := by
    cases s <;> simp [mwStringPut, MwString.length]
  have hmod : s.length % 2 ^ 16 < 2 ^ 16 := Nat.mod_lt _ (by decide)
  simp only [GetBuffer.between, List.length_append, hput] at hptr
  omega

/-- Reader and writer stay in step as long as the length fits its word. -/
theorem readsInStep_iff (s : MwString) (pre post : List UInt8) :
    ReadsInStep s pre post ↔ s.length ≤ 65535 := by
  constructor
  · intro hstep
    by_contra hlong
    exact not_readsInStep (by omega) pre post hstep
  · intro hfits
    unfold ReadsInStep
    rw [mwStringGet_between hfits]
    refine ⟨rfl, ?_⟩
    rw [MwString.canon_chars]

/-- `'A'`, 65536 times over -/
def longString : CString := ⟨List.replicate 65536 0x41, fun h => absurd (List.eq_of_mem_replicate h) (by decide)⟩

/-- The word put after a string of 65536 characters is read from the string. -/
theorem not_readsInStep_longString :
    ¬ ReadsInStep (some longString) [] (guint16Put 0x1234) := by
  apply not_readsInStep
  exact Nat.lt_of_lt_of_eq (by decide) List.length_replicate.symm

end Meanwhile
