-- SUMMARY: The put buffer of common.c as it grows, and that it holds what has been put in the order in which it was put.
import Meanwhile.Common.Buffer

/-!
# Put buffers

`mwPutBuffer` with its allocation. A `gsize` is a number below `2 ^ 64`, and what
`g_malloc` returns holds anything. There is no result where a byte would be read or
written outside of the block, or where the loop that doubles the length has not ended
after 64 turns.

`Filled b out` says that the buffer has been given the bytes `out`. It is what every put
function keeps.
-/

namespace Meanwhile

/-- `a - b` of `gsize` -/
def gsizeSub (a b : Nat) : Nat := (a + 2 ^ 64 - b) % 2 ^ 64

/-- `struct mwPutBuffer`, with `ptr` as an offset into `buf`. The list is the whole of the
block, and empty for `NULL`. -/
structure PutBuffer where
  buf : List UInt8 := []
  len : Nat := 0
  ptr : Nat := 0
  rem : Nat := 0

/-- `g_malloc`, with what is in the block -/
abbrev Malloc := (n : Nat) → Vector UInt8 n

namespace PutBuffer

/-- `BUFFER_USED` -/
def used (b : PutBuffer) : Nat := gsizeSub b.len b.rem

/-- `while( (len - use) < needed ) len = len << 1` -/
def growLoop (use needed : Nat) : Nat → Nat → Option Nat
  | 0, _ => none
  | turns + 1, len =>
      if gsizeSub len use < needed then growLoop use needed turns (len * 2 % 2 ^ 64) else some len

/-- `*(b->ptr)++ = c` -/
def putByte (b : PutBuffer) (c : UInt8) : Option PutBuffer :=
  if b.ptr < b.buf.length then some { b with buf := b.buf.set b.ptr c, ptr := b.ptr + 1 } else none

/-- Bytes put one after another, by `memcpy` or by `MW16_PUT` and `MW32_PUT` -/
def putBytes : PutBuffer → List UInt8 → Option PutBuffer
  | b, [] => some b
  | b, c :: data => do
      let b ← b.putByte c
      putBytes b data

/-- The first bytes of a block, if it has so many -/
def firstBytes (buf : List UInt8) (n : Nat) : Option (List UInt8) :=
  if n ≤ buf.length then some (buf.take n) else none

/-- `if(b->buf) memcpy(buf, b->buf, use)`: what is copied -/
def kept (b : PutBuffer) (use : Nat) : Option (List UInt8) :=
  if b.buf = [] then some [] else firstBytes b.buf use

variable (malloc : Malloc)

/-- `ensure_buffer` -/
def ensureBuffer (b : PutBuffer) (needed : Nat) : Option PutBuffer :=
  if b.rem < needed then do
    let use := b.used
    let len := if b.len = 0 then 1024 else b.len
    let len ← growLoop use needed 64 len
    let kept ← b.kept use
    let new ← putBytes { buf := (malloc len).toList, len := len } kept
    return { new with ptr := use, rem := gsizeSub len use }
  else some b

/-- `ensure_buffer`, then the bytes, then `b->rem -= n` -/
def putAll (b : PutBuffer) (data : List UInt8) : Option PutBuffer := do
  let b ← b.ensureBuffer malloc data.length
  let b ← b.putBytes data
  return { b with rem := gsizeSub b.rem data.length }

end PutBuffer

open PutBuffer

/-! ## Put functions -/

/-- A put function of common.c -/
inductive PutOp where
  /-- `mwPutBuffer_write` -/
  | write (data : List UInt8)
  | guint16 (val : UInt16)
  | guint32 (val : UInt32)
  | gboolean (val : Bool)
  | string (val : MwString)
  /-- An opaque, or `NULL` -/
  | mwOpaque (o : Option MwOpaque)

namespace PutOp

/-- What the functions add to a buffer, by themselves -/
def bytes : PutOp → List UInt8
  | write data => data
  | guint16 val => guint16Put val
  | guint32 val => guint32Put val
  | gboolean val => gbooleanPut val
  | string val => mwStringPut val
  | mwOpaque o => mwOpaquePut (o.getD [])

/-- The characters of a string or the data of an opaque, when there are any -/
def putBody (malloc : Malloc) (b : PutBuffer) (data : List UInt8) : Option PutBuffer :=
  if data.length ≠ 0 then b.putAll malloc data else some b

def run (malloc : Malloc) (b : PutBuffer) : PutOp → Option PutBuffer
  | write data => putBody malloc b data
  | guint16 val => b.putAll malloc (guint16Put val)
  | guint32 val => b.putAll malloc (guint32Put val)
  | gboolean val => b.putAll malloc (gbooleanPut val)
  | string val => do
      let b ← b.putAll malloc (guint16Put (UInt16.ofNat val.length))
      match val with
      | none => some b
      | some s => putBody malloc b s.val
  | mwOpaque none => b.putAll malloc (guint32Put 0)
  | mwOpaque (some o) => do
      let b ← b.putAll malloc (guint32Put (UInt32.ofNat o.length))
      putBody malloc b o

end PutOp

/-- Put functions one after another -/
def putOps (malloc : Malloc) : PutBuffer → List PutOp → Option PutBuffer
  | b, [] => some b
  | b, op :: ops => do
      let b ← op.run malloc b
      putOps malloc b ops

/-- `mwPutBuffer_finalize` -/
def mwPutBufferFinalize (b : PutBuffer) : Option MwOpaque := firstBytes b.buf b.used

/-! ## Growing -/

theorem gsizeSub_of_le {a b : Nat} (h : b ≤ a) (ha : a < 2 ^ 64) : gsizeSub a b = a - b := by
  unfold gsizeSub
  omega

/-- The length is doubled until there is room, long before it wraps around. -/
theorem growLoop_of_le {use needed : Nat} (turns len : Nat) (huse : use ≤ len) (hlen : len ≤ 2 ^ 63)
    (hfew : use + needed < 2 ^ 62) (hturns : use + needed ≤ len * 2 ^ turns) :
    ∃ len', growLoop use needed (turns + 1) len = some len' ∧ use + needed ≤ len' ∧
      len' ≤ 2 ^ 63 := by
  have hroom := gsizeSub_of_le huse (by omega)
  induction turns generalizing len with
  | zero =>
    refine ⟨len, ?_, by simpa using hturns, hlen⟩
    rw [growLoop, hroom, if_neg (by omega)]
  | succ turns ih =>
    rw [growLoop, hroom]
    by_cases henough : use + needed ≤ len
    · exact ⟨len, if_neg (by omega), henough, hlen⟩
    · rw [if_pos (by omega), Nat.mod_eq_of_lt (by omega)]
      apply ih (len * 2) (by omega) (by omega)
      · rw [Nat.mul_assoc, ← Nat.pow_succ']
        exact hturns
      · exact gsizeSub_of_le (by omega) (by omega)

/-- The buffer has been given these bytes, and has its fields in step. -/
structure Filled (b : PutBuffer) (out : List UInt8) : Prop where
  block : b.buf.length = b.len
  count : b.ptr + b.rem = b.len
  small : b.len ≤ 2 ^ 63
  ptr : b.ptr = out.length
  out : b.buf.take b.ptr = out

theorem filled_new : Filled {} [] := ⟨rfl, rfl, by decide, rfl, rfl⟩

section Filled

variable {b : PutBuffer} {out : List UInt8}

theorem Filled.used (h : Filled b out) : b.used = out.length := by
  have hcount := h.count
  have hsmall := h.small
  have hptr := h.ptr
  rw [PutBuffer.used, gsizeSub_of_le (by omega) (by omega)]
  omega

/-- Bytes for which there is room -/
theorem putBytes_of_le (data : List UInt8) (hroom : b.ptr + data.length ≤ b.buf.length) :
    ∃ buf, b.putBytes data = some { b with buf := buf, ptr := b.ptr + data.length } ∧
      buf.length = b.buf.length ∧
      buf.take (b.ptr + data.length) = b.buf.take b.ptr ++ data := by
  induction data generalizing b with
  | nil => exact ⟨b.buf, rfl, rfl, by simp⟩
  | cons c data ih =>
    have hhere : b.ptr < b.buf.length := by
      simp only [List.length_cons] at hroom
      omega
    have hbyte : b.putByte c = some { b with buf := b.buf.set b.ptr c, ptr := b.ptr + 1 } :=
      if_pos hhere
    obtain ⟨buf, hput, hlen, htake⟩ :=
      ih (b := { b with buf := b.buf.set b.ptr c, ptr := b.ptr + 1 })
        (by simp only [List.length_cons, List.length_set] at hroom ⊢; omega)
    have hadd : b.ptr + 1 + data.length = b.ptr + (c :: data).length := by
      simp only [List.length_cons]
      omega
    simp only [hadd, List.length_set] at hput hlen htake
    refine ⟨buf, ?_, hlen, ?_⟩
    · simp only [putBytes, hbyte, Option.bind_eq_bind, Option.bind_some, hput]
    · rw [htake, List.take_succ_eq_append_getElem (by simpa using hhere)]
      simp [List.take_set_of_le]

theorem Filled.ensureBuffer (malloc : Malloc) (h : Filled b out) {needed : Nat}
    (hfew : out.length + needed < 2 ^ 62) :
    ∃ b', b.ensureBuffer malloc needed = some b' ∧ Filled b' out ∧ needed ≤ b'.rem := by
  have hused := h.used
  have hcount := h.count
  have hblock := h.block
  have hptr := h.ptr
  have hsmall := h.small
  unfold PutBuffer.ensureBuffer
  by_cases hroom : b.rem < needed
  · rw [if_pos hroom, hused]
    generalize hstart : (if b.len = 0 then 1024 else b.len) = start
    have hstart' : b.len ≤ start ∧ 1 ≤ start ∧ start ≤ 2 ^ 63 := by
      split at hstart <;> omega
    obtain ⟨len, hgrow, henough, hlen⟩ := growLoop_of_le 63 start (by omega) hstart'.2.2
      hfew (by omega)
    have hkept : b.kept out.length = some out := by
      unfold PutBuffer.kept
      split
      case isTrue hnil =>
        have hout := h.out
        rw [hnil, List.take_nil] at hout
        rw [hout]
      case isFalse => rw [firstBytes, if_pos (by omega), ← hptr, h.out]
    obtain ⟨buf, hput, hbuf, htake⟩ := putBytes_of_le
      (b := { buf := (malloc len).toList, len := len }) out (by simp; omega)
    simp only [Vector.length_toList, Nat.zero_add, List.take_zero, List.nil_append]
      at hput hbuf htake
    refine ⟨{ buf := buf, len := len, ptr := out.length, rem := gsizeSub len out.length },
      ?_, ?_, ?_⟩
    · simp only [hgrow, hkept, hput, Option.bind_eq_bind, Option.bind_some]
      rfl
    · have hrem := gsizeSub_of_le (a := len) (b := out.length) (by omega) (by omega)
      exact ⟨hbuf, by dsimp only; omega, hlen, rfl, htake⟩
    · dsimp only
      rw [gsizeSub_of_le (by omega) (by omega)]
      omega
  · rw [if_neg hroom]
    exact ⟨b, rfl, h, Nat.le_of_not_lt hroom⟩

theorem Filled.putBytes (h : Filled b out) {data : List UInt8} (hroom : data.length ≤ b.rem) :
    ∃ b', b.putBytes data = some b' ∧
      Filled { b' with rem := gsizeSub b'.rem data.length } (out ++ data) := by
  have hcount := h.count
  have hblock := h.block
  have hsmall := h.small
  obtain ⟨buf, hput, hbuf, htake⟩ := putBytes_of_le (b := b) data (by omega)
  refine ⟨_, hput, hbuf.trans hblock, ?_, hsmall, ?_, ?_⟩
  · have hrem := gsizeSub_of_le hroom (by omega)
    dsimp only
    omega
  · simp [h.ptr]
  · dsimp only
    rw [htake, h.out]

end Filled

/-! ## What is put -/

/-- From any buffer that holds some bytes, the function appends these. -/
def Puts (f : PutBuffer → Option PutBuffer) (data : List UInt8) : Prop :=
  ∀ b out, Filled b out → out.length + data.length < 2 ^ 62 →
    ∃ b', f b = some b' ∧ Filled b' (out ++ data)

namespace Puts

variable (malloc : Malloc)

theorem nil : Puts some [] := fun b out h _ => ⟨b, rfl, (List.append_nil out).symm ▸ h⟩

theorem append {f g : PutBuffer → Option PutBuffer} {data data' : List UInt8} (hf : Puts f data)
    (hg : Puts g data') : Puts (fun b => (f b).bind g) (data ++ data') := by
  intro b out h hfew
  rw [List.length_append] at hfew
  obtain ⟨b', hfirst, h'⟩ := hf b out h (by omega)
  obtain ⟨b'', hsecond, h''⟩ := hg b' (out ++ data) h' (by rw [List.length_append]; omega)
  refine ⟨b'', ?_, List.append_assoc .. ▸ h''⟩
  change (f b).bind g = _
  rw [hfirst, Option.bind_some, hsecond]

theorem putAll (data : List UInt8) : Puts (fun b => b.putAll malloc data) data := by
  intro b out h hfew
  obtain ⟨b', hensure, h', hroom⟩ := h.ensureBuffer malloc hfew
  obtain ⟨b'', hput, h''⟩ := h'.putBytes hroom
  refine ⟨_, ?_, h''⟩
  simp only [PutBuffer.putAll, hensure, hput, Option.bind_eq_bind, Option.bind_some]
  rfl

theorem putBody (data : List UInt8) : Puts (fun b => PutOp.putBody malloc b data) data := by
  intro b out h hfew
  unfold PutOp.putBody
  split
  case isTrue => exact putAll malloc data b out h hfew
  case isFalse hnil =>
    rw [List.eq_nil_of_length_eq_zero (not_not.mp hnil), List.append_nil]
    exact ⟨b, rfl, h⟩

/-- Every put function appends its bytes. -/
theorem run (op : PutOp) : Puts (fun b => op.run malloc b) op.bytes := by
  cases op with
  | write data => exact putBody malloc data
  | guint16 val => exact putAll malloc _
  | guint32 val => exact putAll malloc _
  | gboolean val => exact putAll malloc _
  | string val =>
    cases val with
    | none => exact append (putAll malloc _) nil
    | some s => exact append (putAll malloc _) (putBody malloc s.val)
  | mwOpaque o =>
    cases o with
    | none => exact putAll malloc _
    | some o => exact append (putAll malloc _) (putBody malloc o)

theorem ops (ops : List PutOp) : Puts (fun b => putOps malloc b ops) (ops.flatMap PutOp.bytes) := by
  induction ops with
  | nil => exact nil
  | cons op ops ih => exact append (run malloc op) ih

end Puts

/-- What is put into a new buffer stays inside of it, is counted, and comes out in one piece. -/
theorem putOps_new (malloc : Malloc) (ops : List PutOp)
    (hfew : (ops.flatMap PutOp.bytes).length < 2 ^ 62) :
    ∃ b, putOps malloc {} ops = some b ∧
      gsizeSub b.len b.rem = (ops.flatMap PutOp.bytes).length ∧
      mwPutBufferFinalize b = some (ops.flatMap PutOp.bytes) := by
  obtain ⟨b, hputs, h⟩ := Puts.ops malloc ops {} [] filled_new (by simpa using hfew)
  rw [List.nil_append] at h
  have hcount := h.count
  have hblock := h.block
  refine ⟨b, hputs, h.used, ?_⟩
  rw [mwPutBufferFinalize, h.used, ← h.ptr, firstBytes, if_pos (by omega), h.out]

theorem putOps_new_some :
    let ops : List PutOp := [.guint16 7, .gboolean true]
    let malloc : Malloc := fun n => Vector.replicate n 0xcc
    (ops.flatMap PutOp.bytes).length < 2 ^ 62 ∧
      ∃ b, putOps malloc {} ops = some b ∧
        gsizeSub b.len b.rem = (ops.flatMap PutOp.bytes).length ∧
        mwPutBufferFinalize b = some (ops.flatMap PutOp.bytes) :=
  ⟨by decide, putOps_new _ _ (by decide)⟩

end Meanwhile
