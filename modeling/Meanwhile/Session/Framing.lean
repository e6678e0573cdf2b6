-- SUMMARY: However the input is cut into pieces, a session hands on exactly the messages in it.
import Meanwhile.Session.Receive
import Meanwhile.Lib.Framing

/-!
# Framing of the input

What a byte stream from the server means is `wireFraming`. A session is fed this
stream in pieces, and the input buffer carries what is incomplete from one piece
to the next. `Holds` says how: that is the invariant of every step of the receive
loop, whichever of its paths the step takes.
-/

namespace Meanwhile

/-! ## The meaning of a stream -/

/-- The length that a frame starts with. -/
def wireLength (b : List UInt8) : Nat := BigEndian.value (b.take 4)

/-- Take a byte with the high bit set off a stream, or else a message with its
length. The length of an empty message is dropped. -/
def wireNext (b : List UInt8) : Option (Option (List UInt8) × List UInt8) :=
  match b with
  | [] => none
  | c :: r =>
      if 0x80 ≤ c.toNat then some (none, r)
      else if b.length < 4 ∨ b.length < 4 + wireLength b then none
      else
        let payload := (b.drop 4).take (wireLength b)
        some (if payload = [] then none else some payload, b.drop (4 + wireLength b))

theorem wireLength_append {b : List UInt8} (c : List UInt8) (h : 4 ≤ b.length) :
    wireLength (b ++ c) = wireLength b := by
  rw [wireLength, wireLength, List.take_append_of_le_length h]

def wireFraming : Framing UInt8 (Option (List UInt8)) where
  next := wireNext
  next_length := by
    intro b f r h
    cases b with
    | nil => simp [wireNext] at h
    | cons c b =>
      simp only [wireNext] at h
      split at h
      · simp_all
      · split at h
        · simp at h
        · simp only [Option.some.injEq, Prod.mk.injEq] at h
          simp only [← h.2, List.length_drop, List.length_cons]
          omega
  next_append := by
    intro b f r c h
    cases b with
    | nil => simp [wireNext] at h
    | cons x b =>
      simp only [wireNext, List.cons_append] at h ⊢
      split at h
      · simp_all
      · split at h
        · simp at h
        · rename_i hkeep hlen
          have hlen4 : 4 ≤ (x :: b).length := by omega
          have hL := wireLength_append c hlen4
          rw [List.cons_append] at hL
          have hdrop (n : Nat) (hn : n ≤ (x :: b).length) :
              (x :: (b ++ c)).drop n = (x :: b).drop n ++ c := by
            rw [← List.cons_append, List.drop_append_of_le_length hn]
          rw [if_neg hkeep, if_neg (by simp only [hL, List.length_cons, List.length_append] at *; omega),
            hL, hdrop 4 hlen4, hdrop _ (by omega), List.take_append_of_le_length (by
              simp only [List.length_drop]; omega)]
          simp_all

/-- The messages in a stream, and the bytes of an incomplete one at its end. -/
def wirePayloads (b : List UInt8) : List (List UInt8) := (wireFraming.frames b).filterMap id

def wireTail (b : List UInt8) : List UInt8 := wireFraming.tail b

theorem wirePayloads_append (a b : List UInt8) :
    wirePayloads (a ++ b) = wirePayloads a ++ wirePayloads (wireTail a ++ b) := by
  rw [wirePayloads, Framing.frames_append, List.filterMap_append]
  rfl

theorem wireTail_append (a b : List UInt8) : wireTail (a ++ b) = wireTail (wireTail a ++ b) :=
  Framing.tail_append a b

theorem wirePayloads_of_none {t : List UInt8} (h : wireNext t = none) : wirePayloads t = [] := by
  have hnext : wireFraming.next t = none := h
  rw [wirePayloads, Framing.frames_of_none hnext, List.filterMap_nil]

theorem wireTail_of_none {t : List UInt8} (h : wireNext t = none) : wireTail t = t := by
  have hnext : wireFraming.next t = none := h
  rw [wireTail, Framing.tail_of_none hnext]

/-! ## The buffer -/

/-- The input buffer carries the bytes `t` of an incomplete message. Until the
length is there, room is made for the length only. -/
structure Holds (i : InputBuffer) (t : List UInt8) : Prop where
  used : i.bufUsed = t.length
  bytes : i.buf.take t.length = t
  len : i.bufLen = if t = [] then 0 else if t.length < 4 then 4 else 4 + wireLength t
  room : i.buf.length = i.bufLen
  incomplete : wireNext t = none

theorem isKeepalive_iff (c : UInt8) : isKeepalive c = true ↔ 0x80 ≤ c.toNat := by
  have h : ∀ n : Fin 256, isKeepalive ⟨⟨n⟩⟩ = true ↔ 0x80 ≤ n.val := by decide +kernel
  exact h c.toFin

theorem wireNext_cons_of_keepalive {c : UInt8} (b : List UInt8) (h : isKeepalive c = true) :
    wireNext (c :: b) = some (none, b) := by
  rw [wireNext, if_pos ((isKeepalive_iff c).mp h)]

/-- A stream that starts with a length -/
def StartsFrame (b : List UInt8) : Prop := ∃ c r, b = c :: r ∧ isKeepalive c = false

theorem startsFrame_dropWhile {b : List UInt8} (hne : b.dropWhile isKeepalive ≠ []) :
    StartsFrame (b.dropWhile isKeepalive) := by
  obtain ⟨c, r, hcr⟩ := List.exists_cons_of_ne_nil hne
  refine ⟨c, r, hcr, ?_⟩
  have hhead := List.head_dropWhile_not isKeepalive hne
  simpa [hcr] using hhead

theorem StartsFrame.append {b : List UInt8} (h : StartsFrame b) (r : List UInt8) :
    StartsFrame (b ++ r) := by
  obtain ⟨c, b, rfl, hc⟩ := h
  exact ⟨c, b ++ r, rfl, hc⟩

theorem StartsFrame.ne_nil {b : List UInt8} (h : StartsFrame b) : b ≠ [] := by
  obtain ⟨c, r, rfl, -⟩ := h
  exact List.cons_ne_nil c r

theorem StartsFrame.wireNext_none {b : List UInt8} (h : StartsFrame b)
    (hlen : b.length < 4 ∨ b.length < 4 + wireLength b) : wireNext b = none := by
  obtain ⟨c, r, rfl, hc⟩ := h
  have hkeep : ¬ 0x80 ≤ c.toNat := by
    rw [← isKeepalive_iff, hc]
    decide
  rw [wireNext, if_neg hkeep, if_pos hlen]

theorem StartsFrame.wireNext_some {b : List UInt8} (h : StartsFrame b)
    (hlen : 4 + wireLength b ≤ b.length) :
    wireNext b =
      some (if (b.drop 4).take (wireLength b) = [] then none
          else some ((b.drop 4).take (wireLength b)),
        b.drop (4 + wireLength b)) := by
  obtain ⟨c, r, rfl, hc⟩ := h
  have hkeep : ¬ 0x80 ≤ c.toNat := by
    rw [← isKeepalive_iff, hc]
    decide
  rw [wireNext, if_neg hkeep, if_neg (by omega)]

/-- An incomplete message is nothing at all or the start of a frame. -/
theorem startsFrame_of_incomplete {t : List UInt8} (h : wireNext t = none) (hne : t ≠ []) :
    StartsFrame t ∧ (t.length < 4 ∨ t.length < 4 + wireLength t) := by
  cases t with
  | nil => exact absurd rfl hne
  | cons c r =>
    rw [wireNext] at h
    split at h
    · simp at h
    · rename_i hkeep
      split at h
      · rename_i hlen
        rw [← isKeepalive_iff] at hkeep
        exact ⟨⟨c, r, rfl, by simpa using hkeep⟩, hlen⟩
      · simp at h

theorem guint32Peek_toNat {b : List UInt8} (h : 4 ≤ b.length) :
    (guint32Peek (.wrapOpaque b)).toNat = wireLength b := by
  match b, h with
  | a :: b :: c :: d :: r, _ =>
      have hrem : 4 ≤ (GetBuffer.wrapOpaque (a :: b :: c :: d :: r)).rem := by
        simp [GetBuffer.wrapOpaque]
      rw [guint32Peek, if_pos hrem, GetBuffer.wrapOpaque, mw32Get_toNat]
      simp [wireLength, BigEndian.value, Nat.ofDigits_cons]
      omega

/-- Keep-alive bytes in front of a stream are frames without a message. -/
theorem frames_dropWhile (b : List UInt8) :
    wirePayloads b = wirePayloads (b.dropWhile isKeepalive) ∧
      wireTail b = wireTail (b.dropWhile isKeepalive) := by
  induction b with
  | nil => exact ⟨rfl, rfl⟩
  | cons c b ih =>
    rw [List.dropWhile_cons]
    split
    · rename_i hc
      have hnext : wireFraming.next (c :: b) = some (none, b) := wireNext_cons_of_keepalive b hc
      rw [← ih.1, ← ih.2, wirePayloads, wireTail, Framing.frames_of_some hnext,
        Framing.tail_of_some hnext]
      exact ⟨rfl, rfl⟩
    · exact ⟨rfl, rfl⟩

/-! ## One step -/

/-- A session together with a record of the payloads its callback was handed. -/
abbrev Recorded := MwSession × List (List UInt8)

instance : HasInput Recorded where
  input s := s.1.input
  setInput i s := ({ s.1 with input := i }, s.2)

/-- A callback that keeps the record -/
def recording (process : List UInt8 → MwSession → MwSession) (p : List UInt8) (s : Recorded) :
    Recorded :=
  (process p s.1, s.2 ++ [p])

/-- What a step of the receive loop has to do with a stream of which `t` is in the
buffer and `b` has arrived: it leaves fewer bytes, and what it hands on, buffers
and leaves is together the same stream. -/
structure StepOk (t b : List UInt8) (s : Recorded) (r : Recorded × List UInt8) : Prop where
  shrinks : r.2.length < b.length
  stream : ∃ t' handed, Holds r.1.1.input t' ∧ r.1.2 = s.2 ++ handed ∧
    wirePayloads (t ++ b) = handed.filter (· ≠ []) ++ wirePayloads (t' ++ r.2) ∧
    wireTail (t ++ b) = wireTail (t' ++ r.2)

theorem holds_nil : Holds {} [] := ⟨rfl, rfl, rfl, rfl, rfl⟩

theorem eq_nil_of_holds_nil {i : InputBuffer} (h : Holds i []) : i = {} := by
  obtain ⟨used, -, len, room, -⟩ := h
  obtain ⟨buf, bufLen, bufUsed⟩ := i
  simp_all

/-- A step that stores everything -/
theorem stepOk_of_buffered {t b : List UInt8} (hb : b ≠ []) (s : Recorded) {i : InputBuffer}
    (h : Holds i (t ++ b)) : StepOk t b s (setInput i s, []) where
  shrinks := List.length_pos_of_ne_nil hb
  stream := ⟨t ++ b, [], h, by simp [setInput], by simp, by simp⟩

/-- A step that completes a message -/
theorem stepOk_of_handed {t b p : List UInt8} {s : Recorded} {r : Recorded × List UInt8}
    (hlen : r.2.length < b.length) (hinput : r.1.1.input = {}) (hlog : r.1.2 = s.2 ++ [p])
    (hnext : wireNext (t ++ b) = some (if p = [] then none else some p, r.2)) :
    StepOk t b s r where
  shrinks := hlen
  stream := by
    have hnext' : wireFraming.next (t ++ b) = some (if p = [] then none else some p, r.2) := hnext
    refine ⟨[], [p], by rw [hinput]; exact holds_nil, hlog, ?_, ?_⟩
    · rw [wirePayloads, Framing.frames_of_some hnext', wirePayloads]
      by_cases hp : p = [] <;> simp [hp]
    · rw [wireTail, Framing.tail_of_some hnext', wireTail, List.nil_append]

theorem take_memcpy {buf t : List UInt8} (b : List UInt8) (h : buf.take t.length = t) :
    memcpy buf t.length b = t ++ b ++ buf.drop (t.length + b.length) := by
  rw [memcpy, h]

theorem length_memcpy {buf b : List UInt8} {offset : Nat} (h : offset + b.length ≤ buf.length) :
    (memcpy buf offset b).length = buf.length := by
  simp only [memcpy, List.length_append, List.length_take, List.length_drop]
  omega

theorem length_gMalloc (n : Nat) : (gMalloc n).length = n := List.length_replicate

/-- Storing the start of a frame in a buffer that is large enough for it -/
theorem holds_memcpy {buf t b : List UInt8} (hbuf : buf.take t.length = t)
    (hstart : StartsFrame (t ++ b)) (hroom : (t ++ b).length < buf.length)
    (hlen : buf.length = if (t ++ b).length < 4 then 4 else 4 + wireLength (t ++ b)) :
    Holds ⟨memcpy buf t.length b, buf.length, t.length + b.length⟩ (t ++ b) where
  used := by rw [List.length_append]
  bytes := by
    rw [take_memcpy b hbuf]
    exact List.take_left
  len := by
    rw [if_neg hstart.ne_nil]
    exact hlen
  room := by
    apply length_memcpy
    rw [List.length_append] at hroom
    omega
  incomplete := by
    apply hstart.wireNext_none
    split at hlen <;> omega

/-- Filling new memory in two goes -/
theorem memcpy_memcpy (buf a b : List UInt8) :
    memcpy (memcpy buf 0 a) a.length b = memcpy buf 0 (a ++ b) := by
  simp only [memcpy, List.take_zero, List.nil_append, Nat.zero_add]
  rw [List.take_left, List.drop_append, List.drop_eq_nil_of_le (by omega), List.nil_append,
    List.drop_drop, List.length_append]
  congr 2
  omega

theorem holds_gMalloc {b : List UInt8} (hstart : StartsFrame b) {n : Nat} (hroom : b.length < n)
    (hlen : n = if b.length < 4 then 4 else 4 + wireLength b) :
    Holds ⟨memcpy (gMalloc n) 0 b, n, b.length⟩ b := by
  have hholds := @holds_memcpy (gMalloc n) [] b rfl hstart (by simpa [length_gMalloc] using hroom)
    (by simpa [length_gMalloc] using hlen)
  simpa [length_gMalloc] using hholds

/-- The bytes that are missing do not all arrive. -/
theorem holds_more {i : InputBuffer} {t b : List UInt8} (h : Holds i t) (ht : t ≠ [])
    (hb : b.length < i.bufLen - i.bufUsed) :
    Holds { i with buf := memcpy i.buf i.bufUsed b, bufUsed := i.bufUsed + b.length } (t ++ b) := by
  obtain ⟨hstart, -⟩ := startsFrame_of_incomplete h.incomplete ht
  have happ : (t ++ b).length = t.length + b.length := List.length_append
  have hused := h.used
  have hroom : (t ++ b).length < i.buf.length := by
    rw [h.room]
    omega
  have hlen : i.buf.length = if (t ++ b).length < 4 then 4 else 4 + wireLength (t ++ b) := by
    rw [h.room]
    have hlen := h.len
    rw [if_neg ht] at hlen
    by_cases h4 : t.length < 4
    · rw [if_pos h4] at hlen
      rw [if_pos (by omega), hlen]
    · rw [if_neg h4] at hlen
      rw [if_neg (by omega), wireLength_append b (by omega), hlen]
  have hholds := holds_memcpy h.bytes (hstart.append b) hroom hlen
  simpa [h.room, hused] using hholds

/-- A whole length is in the buffer, and the rest of its message arrives. -/
theorem sessionRecvCont_body (process : List UInt8 → MwSession → MwSession) {s : Recorded}
    {t b : List UInt8} (h : Holds s.1.input t) (ht : t ≠ []) (h4 : 4 ≤ t.length) (hb : 4 + wireLength t ≤ (t ++ b).length) :
    StepOk t b s (sessionRecvCont (recording process) b s) := by
  obtain ⟨hstart, hinc⟩ := startsFrame_of_incomplete h.incomplete ht
  have happ : (t ++ b).length = t.length + b.length := List.length_append
  have hL : wireLength (t ++ b) = wireLength t := wireLength_append b h4
  have hlen : s.1.input.bufLen = 4 + wireLength t := by rw [h.len, if_neg ht, if_neg (by omega)]
  set x := 4 + wireLength t - t.length with hx
  -- the buffer is now exactly the frame
  have hbuf : memcpy s.1.input.buf s.1.input.bufUsed (b.take x) =
      (t ++ b).take (4 + wireLength t) := by
    have htake : t.take (4 + wireLength t) = t := List.take_of_length_le (by omega)
    have hroom := h.room
    rw [h.used, take_memcpy _ h.bytes, List.take_append, htake, List.drop_eq_nil_of_le,
      List.append_nil]
    rw [List.length_take]
    omega
  have hdrop : b.drop x = (t ++ b).drop (4 + wireLength t) := by
    have hnil : t.drop (4 + wireLength t) = [] := List.drop_eq_nil_of_le (by omega)
    rw [List.drop_append, hnil, List.nil_append]
  have hpayload : (((t ++ b).take (4 + wireLength t)).drop 4).take (4 + wireLength t - 4) =
      ((t ++ b).drop 4).take (wireLength t) := by
    rw [List.drop_take, List.take_take]
    congr 1
    omega
  simp only [sessionRecvCont, input, hlen, h.used, ← hx, if_neg (show ¬ b.length < x by omega),
    if_neg (show ¬ 4 + wireLength t = 4 by omega)]
  rw [← h.used, hbuf, hpayload, hdrop]
  apply stepOk_of_handed (p := ((t ++ b).drop 4).take (wireLength t))
  · simp only [List.length_drop]
    omega
  · rfl
  · rfl
  · rw [(hstart.append b).wireNext_some (by omega), hL]

/-- A session that is fed the pieces of a stream in order -/
def feed (process : List UInt8 → MwSession → MwSession) (chunks : List (List UInt8))
    (s : Recorded) : Recorded :=
  chunks.foldl (fun s b => mwSessionRecv (recording process) b s) s

section

variable {process : List UInt8 → MwSession → MwSession}
  (hproc : ∀ p s, (process p s).input = s.input)

include hproc

/-- The rest of a length arrives, and maybe more. -/
theorem sessionRecvCont_length {s : Recorded} {t b : List UInt8} (h : Holds s.1.input t)
    (ht : t ≠ []) (h4 : t.length < 4) (hb : 4 ≤ (t ++ b).length) :
    StepOk t b s (sessionRecvCont (recording process) b s) := by
  obtain ⟨hstart, -⟩ := startsFrame_of_incomplete h.incomplete ht
  have happ : (t ++ b).length = t.length + b.length := List.length_append
  have hlen : s.1.input.bufLen = 4 := by rw [h.len, if_neg ht, if_pos h4]
  have hx : 4 - s.1.input.bufUsed = 4 - t.length := by rw [h.used]
  have hbne : b ≠ [] := List.ne_nil_of_length_pos (by omega)
  -- the four bytes of the length, which end in `b`
  have hfour : (memcpy s.1.input.buf s.1.input.bufUsed (b.take (4 - t.length))).take 4 =
      (t ++ b).take 4 := by
    have htake : t.take 4 = t := List.take_of_length_le (by omega)
    rw [h.used, take_memcpy _ h.bytes, List.take_append_of_le_length, List.take_append,
      List.take_append, List.take_take, Nat.min_self, htake]
    simp only [List.length_append, List.length_take]
    omega
  have hpeek : (guint32Peek (.wrapOpaque ((t ++ b).take 4))).toNat = wireLength (t ++ b) := by
    rw [guint32Peek_toNat (by rw [List.length_take]; omega), wireLength, wireLength,
      List.take_take, Nat.min_self]
  have hdrop : b.drop (4 - t.length) = (t ++ b).drop 4 := by
    have hnil : t.drop 4 = [] := List.drop_eq_nil_of_le (by omega)
    rw [List.drop_append, hnil, List.nil_append]
  have hblen : ((t ++ b).drop 4).length = (t ++ b).length - 4 := List.length_drop
  simp only [sessionRecvCont, input, hlen, hx, if_neg (show ¬ b.length < 4 - t.length by omega),
    if_true, hfour, hpeek, hdrop, hblen]
  split
  · rename_i hlt
    apply stepOk_of_buffered hbne
    have hlen4 : ((t ++ b).take 4).length = 4 := by
      rw [List.length_take]
      omega
    have hfill := memcpy_memcpy (gMalloc (wireLength (t ++ b) + 4)) ((t ++ b).take 4)
      ((t ++ b).drop 4)
    rw [hlen4, List.take_append_drop] at hfill
    have hused : (t ++ b).length - 4 + 4 = (t ++ b).length := by omega
    rw [hfill, hused]
    apply holds_gMalloc (hstart.append b) (by omega)
    rw [if_neg (by omega), Nat.add_comm]
  · rename_i hge
    apply stepOk_of_handed (p := ((t ++ b).drop 4).take (wireLength (t ++ b)))
    · simp only [List.length_drop]
      omega
    · simp only [recording, setInput, hproc]
    · rfl
    · rw [(hstart.append b).wireNext_some (by omega), List.drop_drop]

theorem sessionRecvCont_ok {s : Recorded} {t b : List UInt8} (h : Holds s.1.input t)
    (ht : t ≠ []) (hb : b ≠ []) : StepOk t b s (sessionRecvCont (recording process) b s) := by
  by_cases hmore : b.length < s.1.input.bufLen - s.1.input.bufUsed
  · have hholds := holds_more h ht hmore
    simp only [sessionRecvCont, input, if_pos hmore]
    exact stepOk_of_buffered hb s hholds
  · have hlen := h.len
    have hused := h.used
    rw [if_neg ht] at hlen
    have happ : (t ++ b).length = t.length + b.length := List.length_append
    by_cases h4 : t.length < 4
    · rw [if_pos h4] at hlen
      exact sessionRecvCont_length hproc h ht h4 (by omega)
    · rw [if_neg h4] at hlen
      exact sessionRecvCont_body process h ht (by omega) (by omega)

/-- Nothing is in the buffer, and the stream goes on with a length. -/
theorem sessionRecvEmpty_ok {s : Recorded} {b : List UInt8} (h : s.1.input = {})
    (hstart : StartsFrame b) : StepOk [] b s (sessionRecvEmpty (recording process) b s) := by
  unfold sessionRecvEmpty
  by_cases h4 : b.length < 4
  · rw [if_pos h4]
    apply stepOk_of_buffered hstart.ne_nil
    exact holds_gMalloc hstart h4 (by rw [if_pos h4])
  · rw [if_neg h4]
    simp only [guint32Peek_toNat (Nat.le_of_not_lt h4)]
    have hnext := hstart.wireNext_some
    split
    · -- an empty message is skipped without being handed on
      rename_i hzero
      have hskip' : wireNext b = some (none, b.drop 4) := by simpa [hzero] using hnext (by omega)
      have hskip : wireFraming.next b = some (none, b.drop 4) := hskip'
      refine ⟨by simp only [List.length_drop]; omega, [], [], ?_, by simp, ?_, ?_⟩
      · rw [h]
        exact holds_nil
      · simp [wirePayloads, Framing.frames_of_some hskip]
      · simp [wireTail, Framing.tail_of_some hskip]
    · split
      · rename_i hlt
        apply stepOk_of_buffered hstart.ne_nil
        apply holds_gMalloc hstart (by omega)
        rw [if_neg h4, Nat.add_comm]
      · apply stepOk_of_handed (p := (b.drop 4).take (wireLength b))
        · simp only [List.length_drop]
          omega
        · simp only [recording, hproc, h]
        · rfl
        · rw [List.nil_append, hnext (by omega), List.drop_drop]

/-- Every step of the receive loop keeps the stream. -/
theorem sessionRecv_ok {s : Recorded} {t b : List UInt8} (h : Holds s.1.input t) (hb : b ≠ []) :
    StepOk t b s (sessionRecv (recording process) b s) := by
  by_cases ht : t = []
  · subst ht
    have hinput := eq_nil_of_holds_nil h
    have hzero : (input s).bufLen = 0 := by simp [input, hinput]
    obtain ⟨hpayloads, htail⟩ := frames_dropWhile b
    simp only [sessionRecv, hzero, if_true, Nat.lt_irrefl, if_false]
    split
    · rename_i hnil
      refine ⟨List.length_pos_of_ne_nil hb, [], [], by rwa [hinput] at h ⊢, by simp, ?_, ?_⟩
      · simp [hpayloads, hnil]
      · simp [htail, hnil]
    · rename_i hne
      have hstep := sessionRecvEmpty_ok hproc hinput (startsFrame_dropWhile hne)
      have hle : (b.dropWhile isKeepalive).length ≤ b.length := List.length_dropWhile_le _ _
      refine ⟨Nat.lt_of_lt_of_le hstep.shrinks hle, ?_⟩
      simpa [hpayloads, htail] using hstep.stream
  · have hpos : 0 < (input s).bufLen := by
      have hlen := h.len
      rw [if_neg ht] at hlen
      simp only [input, hlen]
      split <;> omega
    simp only [sessionRecv, if_neg (Nat.ne_of_gt hpos), if_neg hb, if_pos hpos]
    exact sessionRecvCont_ok hproc h ht hb

/-! ## Whole streams -/

/-- The loop takes in all it is given. -/
theorem recvLoop_ok {s : Recorded} {t b : List UInt8} (h : Holds s.1.input t) {fuel : Nat}
    (hfuel : b.length ≤ fuel) :
    ∃ handed, (recvLoop (recording process) fuel b s).1.2 = s.2 ++ handed ∧
      handed.filter (· ≠ []) = wirePayloads (t ++ b) ∧
      Holds (recvLoop (recording process) fuel b s).1.1.input (wireTail (t ++ b)) ∧
      (recvLoop (recording process) fuel b s).2 = [] := by
  induction fuel generalizing s t b with
  | zero =>
    obtain rfl : b = [] := List.eq_nil_of_length_eq_zero (by omega)
    rw [List.append_nil, wirePayloads_of_none h.incomplete, wireTail_of_none h.incomplete]
    exact ⟨[], by simp [recvLoop], rfl, h, rfl⟩
  | succ fuel ih =>
    by_cases hb : b = []
    · subst hb
      rw [List.append_nil, wirePayloads_of_none h.incomplete, wireTail_of_none h.incomplete]
      exact ⟨[], by simp [recvLoop], rfl, by simpa [recvLoop] using h, by simp [recvLoop]⟩
    · obtain ⟨hshrinks, t', handed, hholds, hlog, hpayloads, htail⟩ := sessionRecv_ok hproc h hb
      obtain ⟨handed', hlog', hpayloads', htail', hdone⟩ :=
        ih hholds (b := (sessionRecv (recording process) b s).2) (by omega)
      simp only [recvLoop, if_neg hb]
      refine ⟨handed ++ handed', ?_, ?_, ?_, hdone⟩
      · rw [hlog', hlog, List.append_assoc]
      · rw [List.filter_append, hpayloads', hpayloads]
      · rw [htail]
        exact htail'

theorem feed_ok {s : Recorded} {t : List UInt8} (h : Holds s.1.input t)
    (chunks : List (List UInt8)) :
    ∃ handed, (feed process chunks s).2 = s.2 ++ handed ∧
      handed.filter (· ≠ []) = wirePayloads (t ++ chunks.flatten) ∧
      Holds (feed process chunks s).1.input (wireTail (t ++ chunks.flatten)) := by
  induction chunks generalizing s t with
  | nil =>
    rw [List.flatten_nil, List.append_nil, wirePayloads_of_none h.incomplete,
      wireTail_of_none h.incomplete]
    exact ⟨[], by simp [feed], rfl, h⟩
  | cons b chunks ih =>
    obtain ⟨handed, hlog, hpayloads, hholds, -⟩ := recvLoop_ok hproc h (Nat.le_refl b.length)
    obtain ⟨handed', hlog', hpayloads', hholds'⟩ := ih hholds
    have happ : t ++ (b :: chunks).flatten = (t ++ b) ++ chunks.flatten := by simp
    refine ⟨handed ++ handed', ?_, ?_, ?_⟩
    · rw [← List.append_assoc, ← hlog]
      exact hlog'
    · rw [List.filter_append, hpayloads, hpayloads', happ, wirePayloads_append (t ++ b)]
    · rw [happ, wireTail_append]
      exact hholds'

theorem holds_of_recvSteps {s : Recorded} {t b : List UInt8} (h : Holds s.1.input t)
    {r : Recorded × List UInt8}
    (hr : Relation.ReflTransGen (RecvStep (recording process)) (s, b) r) :
    ∃ t', Holds r.1.1.input t' := by
  induction hr with
  | refl => exact ⟨t, h⟩
  | tail _ hstep ih =>
    obtain ⟨t', ht'⟩ := ih
    cases hstep with
    | step hb =>
      obtain ⟨-, t'', -, hholds, -⟩ := sessionRecv_ok hproc ht' hb
      exact ⟨t'', hholds⟩

/-- A stream that reaches a session in pieces, however it is cut: the payloads that
are handed on are the messages in the stream, and the buffer then carries the
incomplete one at its end. A further piece is taken in completely, and every turn
of the loop that does so leaves fewer bytes. -/
theorem feed_framing {s : MwSession} (hs : s.input = {}) (chunks : List (List UInt8)) :
    (feed process chunks (s, [])).2.filter (· ≠ []) = wirePayloads chunks.flatten ∧
      Holds (feed process chunks (s, [])).1.input (wireTail chunks.flatten) ∧
      ∀ b, (recvLoop (recording process) b.length b (feed process chunks (s, []))).2 = [] ∧
        ∀ r, Relation.ReflTransGen (RecvStep (recording process))
            (feed process chunks (s, []), b) r →
          r.2 ≠ [] → (sessionRecv (recording process) r.2 r.1).2.length < r.2.length := by
  have hstart : Holds ((s, []) : Recorded).1.input [] := by
    rw [hs]
    exact holds_nil
  obtain ⟨handed, hlog, hpayloads, hholds⟩ := feed_ok hproc hstart chunks
  refine ⟨by simpa [hlog] using hpayloads, hholds, ?_⟩
  intro b
  constructor
  · obtain ⟨-, -, -, -, hdone⟩ := recvLoop_ok hproc hholds (Nat.le_refl b.length)
    exact hdone
  · intro r hr hne
    obtain ⟨t, ht⟩ := holds_of_recvSteps hproc hholds hr
    exact (sessionRecv_ok hproc ht hne).shrinks

end

theorem feed_framing_cut :
    let chunks : List (List UInt8) := [[0x80, 0x00, 0x00], [0x00, 0x02, 0x07], [0x09, 0x00]]
    (feed (fun _ s => s) chunks ({}, [])).2.filter (· ≠ []) = wirePayloads chunks.flatten ∧
      Holds (feed (fun _ s => s) chunks ({}, [])).1.input (wireTail chunks.flatten) := by
  intro chunks
  obtain ⟨hpayloads, hholds, -⟩ := @feed_framing (fun _ s => s) (fun _ _ => rfl) {} rfl chunks
  exact ⟨hpayloads, hholds⟩

end Meanwhile
