-- SUMMARY: The get functions of common.c one byte at a time, with a record of the bytes that they read.
import Meanwhile.Common.Cursor

/-!
# Fetching bytes

The get functions once more, closer to what the machine does: a byte is read
through the cursor, the cursor moves, and the count of remaining bytes is taken down by a
statement of its own. Nothing here asks whether there is a byte under the cursor, so the
offsets that are read through are on record.

`Fetches f g` says that `f` does what `g` does, and reads only what `g` moves the
cursor over.
-/

namespace Meanwhile

open GetBuffer

/-- A get buffer, with the offsets that have been read through, the latest first. -/
structure Scan where
  b : GetBuffer
  reads : List Nat := []

/-- Code that reads from a buffer byte by byte. -/
abbrev Fetch := StateM Scan

/-- `b->ptr += n` -/
def GetBuffer.moved (b : GetBuffer) (n : Nat) : GetBuffer := { b with ptr := b.ptr + n }

namespace Fetch

@[simp] theorem bind_apply {α β : Type} (x : Fetch α) (f : α → Fetch β) (s : Scan) :
    (x >>= f) s = f (x s).1 (x s).2 := rfl

@[simp] theorem pure_apply {α : Type} (a : α) (s : Scan) : (pure a : Fetch α) s = (a, s) := rfl

theorem ite_apply {α : Type} (p : Prop) [Decidable p] (x y : Fetch α) (s : Scan) :
    (if p then x else y) s = if p then x s else y s := by
  split <;> rfl

/-- `*(b->ptr)++` -/
def nextByte : Fetch UInt8 := fun s =>
  (s.b.buf.getD s.b.ptr 0, ⟨s.b.moved 1, s.b.ptr :: s.reads⟩)

/-- `memcpy(data, b->ptr, n); b->ptr += n` -/
def nextBytes : Nat → Fetch (List UInt8)
  | 0 => pure []
  | n + 1 => do
      let c ← nextByte
      let cs ← nextBytes n
      return c :: cs

/-- `b->ptr += n` -/
def moved (n : Nat) : Fetch Unit := fun s => ((), { s with b := s.b.moved n })

/-- `b->rem -= n` -/
def used (n : Nat) : Fetch Unit := fun s => ((), { s with b := { s.b with rem := s.b.rem - n } })

/-- `mwGetBuffer_error` -/
def failed : Fetch Bool := fun s => (s.b.error, s)

/-- `mwGetBuffer_remaining` -/
def remaining : Fetch Nat := fun s => (s.b.rem, s)

/-- `check_buffer` -/
def checkBuffer (needed : Nat) : Fetch Bool := fun s =>
  (!(s.b.check needed).error, { s with b := s.b.check needed })

theorem failed_bind {β : Type} (f : Bool → Fetch β) (s : Scan) :
    (failed >>= f) s = f s.b.error s := rfl

theorem checkBuffer_bind {β : Type} (needed : Nat) (f : Bool → Fetch β) (s : Scan) :
    (checkBuffer needed >>= f) s =
      f (!(s.b.check needed).error) { s with b := s.b.check needed } := rfl

/-- `guint16_get` -/
def guint16 (val : UInt16) : Fetch UInt16 := do
  if ← failed then return val
  if !(← checkBuffer 2) then return val
  let h ← nextByte
  let l ← nextByte
  used 2
  return (h.toUInt16 <<< 8) ||| l.toUInt16

/-- `guint32_get` -/
def guint32 (val : UInt32) : Fetch UInt32 := do
  if ← failed then return val
  if !(← checkBuffer 4) then return val
  let a ← nextByte
  let b ← nextByte
  let c ← nextByte
  let d ← nextByte
  used 4
  return (a.toUInt32 <<< 24) ||| (b.toUInt32 <<< 16) ||| (c.toUInt32 <<< 8) ||| d.toUInt32

/-- `gboolean_get` -/
def gboolean (val : Bool) : Fetch Bool := do
  if ← failed then return val
  if !(← checkBuffer 1) then return val
  let c ← nextByte
  used 1
  return decide (c ≠ 0)

/-- `mwString_get` -/
def string : Fetch MwString := do
  if ← failed then return none
  let len ← guint16 0
  if !(← checkBuffer len.toNat) then return none
  if len ≠ 0 then
    let bytes ← nextBytes len.toNat
    used len.toNat
    return some (CString.ofBytes bytes)
  else return none

/-- `mwOpaque_get` -/
def mwOpaque : Fetch MwOpaque := do
  if ← failed then return []
  let tmp ← guint32 0
  if !(← checkBuffer tmp.toNat) then return []
  if 0 < tmp then
    let data ← nextBytes tmp.toNat
    used tmp.toNat
    return data
  else return []

/-- `mwGetBuffer_read`, which returns as many bytes as there are -/
def read (len : Nat) : Fetch (List UInt8) := do
  if ← failed then return []
  if len = 0 then return []
  let rem ← remaining
  let len := if rem < len then rem else len
  let data ← nextBytes len
  used len
  return data

/-- `mwGetBuffer_advance` -/
def advance (len : Nat) : Fetch Unit := do
  if ← failed then return
  if len = 0 then return
  let rem ← remaining
  let len := if rem < len then rem else len
  moved len
  used len

end Fetch

/-- `mwGetBuffer_read` as a get function -/
def mwGetBufferRead (len : Nat) : Get (List UInt8) := fun b =>
  if b.error then ([], b) else (b.rest.take (min len b.rem), b.skip (min len b.rem))

/-- A field of `n` bytes, once it is known that there is no error yet -/
def Get.field {α : Type} (n : Nat) (a : α) (v : GetBuffer → α) : Get α := fun b =>
  if (b.check n).error then (a, b.check n) else (v (b.check n), (b.check n).skip n)

theorem Get.Forward.field {α : Type} (n : Nat) (a : α) (v : GetBuffer → α) :
    (Get.field n a v).Forward := by
  intro b
  unfold Get.field
  split
  case isTrue => exact Follows.check b n
  case isFalse hok => exact Follows.checked hok

/-- The buffer has as many bytes as before. -/
def SameLen (b b' : GetBuffer) : Prop := b'.len = b.len

instance : Std.Refl SameLen where
  refl := fun _ => rfl

instance : IsTrans GetBuffer SameLen where
  trans := fun _ _ _ h h' => Eq.trans h' h

theorem SameLen.field {α : Type} (n : Nat) (a : α) (v : GetBuffer → α) :
    Keeps SameLen (Get.field n a v) := by
  have hcheck : ∀ b : GetBuffer, (b.check n).len = b.len := by
    intro b
    unfold GetBuffer.check
    split <;> rfl
  intro b
  unfold Get.field
  split <;> exact hcheck b

theorem SameLen.guarded {α : Type} {a : α} {g : Get α} (hg : Keeps SameLen g) :
    Keeps SameLen fun b => if b.error then (a, b) else g b := by
  intro b
  dsimp only
  split
  · exact Std.Refl.refl b
  · exact hg b

/-- `mwString_get` is a word, and a field as long as it says. -/
theorem mwStringGet_eq_field (b : GetBuffer) :
    mwStringGet b = if b.error then (none, b) else
      (guint16Get 0 >>= fun len => Get.field len.toNat none fun b =>
        if len = 0 then none else some (CString.ofBytes (b.rest.take len.toNat))) b := by
  unfold mwStringGet
  split
  · rfl
  · simp only [Get.bind_apply, Get.field]
    generalize guint16Get 0 b = word
    obtain ⟨len, b'⟩ := word
    dsimp only
    split
    · rfl
    · split
      case isTrue hzero =>
        rw [hzero]
        rfl
      case isFalse => rfl

/-- `mwOpaque_get` is a word, and a field as long as it says. -/
theorem mwOpaqueGet_eq_field (b : GetBuffer) :
    mwOpaqueGet b = if b.error then ([], b) else
      (guint32Get 0 >>= fun tmp => Get.field tmp.toNat [] fun b => b.rest.take tmp.toNat) b := rfl

/-! ## What is fetched -/

/-- `f` does what `g` does, and reads only what `g` moves the cursor over. -/
def Fetches {α : Type} (f : Fetch α) (g : Get α) : Prop :=
  ∀ s : Scan, s.b.Sound → ∃ offs : List Nat, f s = ((g s.b).1, ⟨(g s.b).2, offs ++ s.reads⟩) ∧
    ∀ off ∈ offs, s.b.ptr ≤ off ∧ off < (g s.b).2.ptr

section Bytes

open Fetch

theorem nextBytes_apply (n : Nat) (s : Scan) :
    ∃ offs : List Nat, nextBytes n s =
        ((List.range n).map fun i => s.b.buf.getD (s.b.ptr + i) 0,
          ⟨s.b.moved n, offs ++ s.reads⟩) ∧
      ∀ off ∈ offs, s.b.ptr ≤ off ∧ off < s.b.ptr + n := by
  induction n generalizing s with
  | zero => exact ⟨[], rfl, by simp⟩
  | succ n ih =>
    obtain ⟨offs, hrest, hin⟩ := ih (nextByte s).2
    refine ⟨offs ++ [s.b.ptr], ?_, fun off hoff => ?_⟩
    · have hnext : ∀ i, s.b.ptr + 1 + i = s.b.ptr + (i + 1) := by omega
      simp only [nextBytes, bind_apply, hrest, pure_apply, List.range_succ_eq_map, List.map_cons,
        List.map_map, List.append_assoc]
      simp only [nextByte, GetBuffer.moved, Function.comp_def, hnext]
      rfl
    · rcases List.mem_append.mp hoff with hoff | hoff
      · have := hin off hoff
        simp only [nextByte, GetBuffer.moved] at this
        omega
      · rw [List.mem_singleton.mp hoff]
        omega

/-- The bytes under the cursor are those of the rest. -/
theorem bytes_eq_take {b : GetBuffer} (hb : b.Sound) {n : Nat} (hn : n ≤ b.rem) :
    ((List.range n).map fun i => b.buf.getD (b.ptr + i) 0) = b.rest.take n := by
  have hlen := hb.rest_length
  apply List.ext_getElem
  · simp [hlen, hn]
  · intro i hi hi'
    have hbuf : b.ptr + i < b.buf.length := by
      simp at hi
      unfold GetBuffer.Sound at hb
      omega
    simp [GetBuffer.rest, List.getD_eq_getElem?_getD, List.getElem?_eq_getElem hbuf]

theorem nextBytes_of_le {s : Scan} (hb : s.b.Sound) {n : Nat} (hn : n ≤ s.b.rem) :
    ∃ offs : List Nat,
      (nextBytes n >>= fun data => used n >>= fun _ => pure data) s =
        (s.b.rest.take n, ⟨s.b.skip n, offs ++ s.reads⟩) ∧
      ∀ off ∈ offs, s.b.ptr ≤ off ∧ off < (s.b.skip n).ptr := by
  obtain ⟨offs, hbytes, hin⟩ := nextBytes_apply n s
  refine ⟨offs, ?_, hin⟩
  rw [bytes_eq_take hb hn] at hbytes
  simp only [bind_apply, hbytes, pure_apply, used, GetBuffer.moved, GetBuffer.skip]

end Bytes

/-! ## Fields -/

namespace Fetches

variable {α β : Type}

theorem pure (a : α) : Fetches (Pure.pure a) (Pure.pure a) := fun _ _ => ⟨[], rfl, by simp⟩

theorem bind {f : Fetch α} {g : Get α} {f' : α → Fetch β} {g' : α → Get β} (hf : Fetches f g)
    (hg : g.Forward) (hf' : ∀ a, Fetches (f' a) (g' a)) (hg' : ∀ a, (g' a).Forward) :
    Fetches (f >>= f') (g >>= g') := by
  intro s hs
  obtain ⟨offs, hfirst, hin⟩ := hf s hs
  obtain ⟨offs', hsecond, hin'⟩ := hf' (g s.b).1 ⟨(g s.b).2, offs ++ s.reads⟩ ((hg s.b).sound hs)
  have hptr := (hg s.b).ptr
  have hptr' := (hg' (g s.b).1 (g s.b).2).ptr
  refine ⟨offs' ++ offs, ?_, fun off hoff => ?_⟩
  · simp only [Fetch.bind_apply, Get.bind_apply, hfirst, hsecond, List.append_assoc]
  · simp only [Get.bind_apply]
    rcases List.mem_append.mp hoff with hoff | hoff
    · have := hin' off hoff
      dsimp only at this
      omega
    · have := hin off hoff
      omega

theorem failed : Fetches Fetch.failed mwGetBufferError := fun _ _ => ⟨[], rfl, by simp⟩

/-- Code that returns at once when there is an error already -/
theorem guarded {a : α} {f : Fetch α} {g : Get α} (hf : Fetches f g) :
    Fetches (do if ← Fetch.failed then return a else f)
      (fun b => if b.error then (a, b) else g b) := by
  intro s hs
  rw [Fetch.failed_bind, Fetch.ite_apply]
  dsimp only
  by_cases herror : s.b.error = true
  · rw [if_pos herror, if_pos herror]
    exact ⟨[], rfl, by simp⟩
  · rw [if_neg herror, if_neg herror]
    exact hf s hs

/-- Code that goes on when a field of `n` bytes is there -/
theorem checked {n : Nat} {a : α} {f : Fetch α} {v : GetBuffer → α}
    (hf : ∀ s : Scan, s.b.Sound → n ≤ s.b.rem → ∃ offs : List Nat,
      f s = (v s.b, ⟨s.b.skip n, offs ++ s.reads⟩) ∧
        ∀ off ∈ offs, s.b.ptr ≤ off ∧ off < (s.b.skip n).ptr) :
    Fetches (do if !(← Fetch.checkBuffer n) then return a else f)
      (Get.field n a v) := by
  intro s hs
  unfold Get.field
  rw [Fetch.checkBuffer_bind, Fetch.ite_apply]
  by_cases hcheck : (s.b.check n).error = true
  · rw [if_pos hcheck, if_pos (by simpa using hcheck)]
    exact ⟨[], rfl, by simp⟩
  · rw [if_neg hcheck, if_neg (by simpa using hcheck)]
    obtain ⟨hok, hn, -⟩ := Get.Uses.check (Bool.eq_false_of_not_eq_true hcheck)
    rw [check_of_le hok hn]
    exact hf s hs hn

end Fetches

section Words

variable {b : GetBuffer}

theorem getD_rest (b : GetBuffer) (i : Nat) : b.buf.getD (b.ptr + i) 0 = b.rest.getD i 0 := by
  rw [GetBuffer.rest, List.getD_eq_getElem?_getD, List.getD_eq_getElem?_getD, List.getElem?_drop]

theorem mw16Get_rest (hb : b.Sound) (h : 2 ≤ b.rem) (val : UInt16) :
    mw16Get val b.rest =
      ((b.buf.getD b.ptr 0).toUInt16 <<< 8) ||| (b.buf.getD (b.ptr + 1) 0).toUInt16 := by
  have hlen := hb.rest_length
  have hfirst := getD_rest b 0
  rw [Nat.add_zero] at hfirst
  rw [hfirst, getD_rest b 1]
  match b.rest, hlen with
  | _ :: _ :: _, _ => rfl
  | [], hlen | [_], hlen => exact absurd hlen.symm (by simp; omega)

theorem mw32Get_rest (hb : b.Sound) (h : 4 ≤ b.rem) (val : UInt32) :
    mw32Get val b.rest =
      ((b.buf.getD b.ptr 0).toUInt32 <<< 24) ||| ((b.buf.getD (b.ptr + 1) 0).toUInt32 <<< 16) |||
        ((b.buf.getD (b.ptr + 2) 0).toUInt32 <<< 8) ||| (b.buf.getD (b.ptr + 3) 0).toUInt32 := by
  have hlen := hb.rest_length
  have hfirst := getD_rest b 0
  rw [Nat.add_zero] at hfirst
  rw [hfirst, getD_rest b 1, getD_rest b 2, getD_rest b 3]
  match b.rest, hlen with
  | _ :: _ :: _ :: _ :: _, _ => rfl
  | [], hlen | [_], hlen | [_, _], hlen | [_, _, _], hlen => exact absurd hlen.symm (by simp; omega)

end Words

namespace Fetches

theorem guint16 (val : UInt16) : Fetches (Fetch.guint16 val) (guint16Get val) := by
  refine guarded (checked (v := fun b => mw16Get val b.rest) fun s hs hrem =>
    ⟨[s.b.ptr + 1, s.b.ptr], ?_, ?_⟩)
  · rw [mw16Get_rest hs hrem]
    rfl
  · simp [skip]

theorem guint32 (val : UInt32) : Fetches (Fetch.guint32 val) (guint32Get val) := by
  refine guarded (checked (v := fun b => mw32Get val b.rest) fun s hs hrem =>
    ⟨[s.b.ptr + 3, s.b.ptr + 2, s.b.ptr + 1, s.b.ptr], ?_, ?_⟩)
  · rw [mw32Get_rest hs hrem]
    rfl
  · simp [skip]

/-- What the byte at the cursor says -/
def boolAt (val : Bool) (b : GetBuffer) : Bool :=
  match b.rest with
  | c :: _ => decide (c ≠ 0)
  | [] => val

theorem gboolean (val : Bool) : Fetches (Fetch.gboolean val) (gbooleanGet val) := by
  refine guarded (checked
    (v := boolAt val) fun s hs hrem => ⟨[s.b.ptr], ?_, ?_⟩)
  · have hlen := hs.rest_length
    have hfirst := getD_rest s.b 0
    rw [Nat.add_zero] at hfirst
    cases hrest : s.b.rest with
    | nil =>
      rw [hrest, List.length_nil] at hlen
      omega
    | cons c bytes =>
      rw [hrest] at hfirst
      simp only [Fetch.bind_apply, Fetch.nextByte, Fetch.used, Fetch.pure_apply, hfirst, boolAt, hrest]
      rfl
  · simp [skip]

/-- The bytes of a string or of an opaque, after the word that announces them -/
theorem body {α : Type} (n : Nat) {a : α} (v : List UInt8 → α) :
    Fetches (do
        if !(← Fetch.checkBuffer n) then return a
        let bytes ← Fetch.nextBytes n
        Fetch.used n
        return v bytes)
      (Get.field n a fun b => v (b.rest.take n)) := by
  refine checked (v := fun b => v (b.rest.take n)) fun s hs hrem => ?_
  obtain ⟨offs, hbytes, hin⟩ := nextBytes_of_le hs hrem
  refine ⟨offs, ?_, hin⟩
  obtain ⟨hval, hscan⟩ := Prod.ext_iff.mp hbytes
  exact Prod.ext (congrArg v hval) hscan

/-- An announced length of zero, for which nothing is read -/
theorem empty {α : Type} {a : α} :
    Fetches (do if !(← Fetch.checkBuffer 0) then return a else return a)
      (Get.field 0 a fun _ => a) :=
  checked (v := fun _ => a) fun _ _ _ => ⟨[], rfl, by simp⟩

theorem string : Fetches Fetch.string mwStringGet := by
  rw [funext mwStringGet_eq_field]
  refine guarded (bind (guint16 0) (.guint16 0) (fun len => ?_) fun len => .field _ _ _)
  by_cases hzero : len = 0
  · simp only [hzero, ne_eq, not_true_eq_false, if_false, if_true]
    exact empty
  · simp only [hzero, ne_eq, not_false_eq_true, if_true, if_false]
    exact body len.toNat fun bytes => some (CString.ofBytes bytes)

theorem mwOpaque : Fetches Fetch.mwOpaque mwOpaqueGet := by
  rw [funext mwOpaqueGet_eq_field]
  refine guarded (bind (guint32 0) (.guint32 0) (fun tmp => ?_) fun tmp => .field _ _ _)
  by_cases hzero : tmp = 0
  · subst hzero
    exact empty
  · have hpos : 0 < tmp := by
      rw [UInt32.lt_iff_toNat_lt]
      exact Nat.pos_of_ne_zero fun h => hzero (UInt32.toNat_inj.mp h)
    simp only [hpos, if_true]
    exact body tmp.toNat id

theorem read (len : Nat) : Fetches (Fetch.read len) (mwGetBufferRead len) := by
  refine guarded ?_
  intro s hs
  by_cases hzero : len = 0
  · rw [if_pos hzero]
    exact ⟨[], by simp [hzero, skip], by simp⟩
  · rw [if_neg hzero]
    have hlen : (if s.b.rem < len then s.b.rem else len) = min len s.b.rem := by
      rw [Nat.min_def]
      split <;> split <;> omega
    have hread := nextBytes_of_le hs (Nat.min_le_right len s.b.rem)
    dsimp only
    rw [← hlen] at hread ⊢
    exact hread

theorem advance (len : Nat) : Fetches (Fetch.advance len) (mwGetBufferAdvance len) := by
  refine guarded ?_
  intro s hs
  by_cases hzero : len = 0
  · rw [if_pos hzero]
    exact ⟨[], by simp [hzero, skip], by simp⟩
  · rw [if_neg hzero]
    have hlen : (if s.b.rem < len then s.b.rem else len) = min len s.b.rem := by
      rw [Nat.min_def]
      split <;> split <;> omega
    dsimp only
    rw [← hlen]
    exact ⟨[], rfl, by simp⟩

end Fetches

/-- `mwGetBuffer_reset` -/
def mwGetBufferReset (b : GetBuffer) : GetBuffer :=
  { b with rem := b.len, ptr := 0, error := false }

end Meanwhile
