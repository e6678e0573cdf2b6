-- SUMMARY: The input side of a session: cutting the received bytes into messages.
import Meanwhile.Session.State
import Mathlib.Logic.Relation

/-!
# Receiving bytes

`mwSession_recv` and below, over any state that has the input buffer of a session,
with `session_process` as a parameter. A function returns the state and the bytes
it has left over, where the C code returns their number.
-/

namespace Meanwhile

/-- A state with an input buffer in it -/
class HasInput (S : Type) where
  input : S → InputBuffer
  setInput : InputBuffer → S → S

export HasInput (input setInput)

instance : HasInput MwSession where
  input s := s.input
  setInput i s := { s with input := i }

variable {S : Type} [HasInput S] (process : List UInt8 → S → S)

/-- `memcpy(buf+offset, b, n)` -/
def memcpy (buf : List UInt8) (offset : Nat) (b : List UInt8) : List UInt8 :=
  buf.take offset ++ b ++ buf.drop (offset + b.length)

/-- `g_malloc`. What new memory holds is not read before it is written. -/
def gMalloc (n : Nat) : List UInt8 := List.replicate n 0

/-- `session_recv_cont`. A buffer of four bytes is an incomplete length. -/
def sessionRecvCont (b : List UInt8) (s : S) : S × List UInt8 :=
  let i := input s
  let x := i.bufLen - i.bufUsed
  if b.length < x then
    (setInput
      { i with buf := memcpy i.buf i.bufUsed b, bufUsed := i.bufUsed + b.length } s, [])
  else
    let buf := memcpy i.buf i.bufUsed (b.take x)
    let b := b.drop x
    if i.bufLen = 4 then
      let x := (guint32Peek (.wrapOpaque (buf.take 4))).toNat
      if b.length < x then
        -- the length is there now, but not all of the message
        let t := memcpy (memcpy (gMalloc (x + 4)) 0 (buf.take 4)) 4 b
        (setInput { buf := t, bufLen := x + 4, bufUsed := b.length + 4 } s, [])
      else
        let s := process (b.take x) (setInput {} s)
        (s, b.drop x)
    else
      let s := process ((buf.drop 4).take (i.bufLen - 4)) (setInput { i with buf := buf } s)
      (setInput {} s, b)

/-- `session_recv_empty` -/
def sessionRecvEmpty (b : List UInt8) (s : S) : S × List UInt8 :=
  let n := b.length
  if n < 4 then
    (setInput { buf := memcpy (gMalloc 4) 0 b, bufLen := 4, bufUsed := n } s, [])
  else
    let x := (guint32Peek (.wrapOpaque b)).toNat
    if x = 0 then (s, b.drop 4)
    else if n < x + 4 then
      (setInput { buf := memcpy (gMalloc (x + 4)) 0 b, bufLen := x + 4, bufUsed := n } s, [])
    else
      let b := b.drop 4
      (process (b.take x) s, b.drop x)

/-- `*b & 0x80`: a keep-alive or a series byte -/
def isKeepalive (c : UInt8) : Bool := c &&& 0x80 ≠ 0

/-- `session_recv` -/
def sessionRecv (b : List UInt8) (s : S) : S × List UInt8 :=
  let bufLen := (input s).bufLen
  let b := if bufLen = 0 then b.dropWhile isKeepalive else b
  if b = [] then (s, [])
  else if 0 < bufLen then sessionRecvCont process b s
  else sessionRecvEmpty process b s

/-- The loop of `mwSession_recv`, with a bound on the turns it takes: the state and
the bytes left when it ends. -/
def recvLoop : Nat → List UInt8 → S → S × List UInt8
  | 0, b, s => (s, b)
  | fuel + 1, b, s =>
      if b = [] then (s, [])
      else
        let (s, remain) := sessionRecv process b s
        recvLoop fuel remain s

/-- `mwSession_recv` -/
def mwSessionRecv (buf : List UInt8) (s : S) : S := (recvLoop process buf.length buf s).1

/-- One turn of the loop -/
inductive RecvStep : S × List UInt8 → S × List UInt8 → Prop where
  | step {s : S} {b : List UInt8} (hb : b ≠ []) : RecvStep (s, b) (sessionRecv process b s)

variable {process}

theorem recvSteps_cases {s : S} {b : List UInt8} {r : S × List UInt8}
    (h : Relation.ReflTransGen (RecvStep process) (s, b) r) :
    r = (s, b) ∨ b ≠ [] ∧ Relation.ReflTransGen (RecvStep process) (sessionRecv process b s) r := by
  obtain heq | ⟨_, hstep, hrest⟩ := Relation.ReflTransGen.cases_head h
  · exact .inl heq.symm
  · cases hstep with
    | step hb => exact .inr ⟨hb, hrest⟩

/-- What every turn of the loop keeps, the loop keeps. -/
theorem recvLoop_keeps {I : S → Prop} {fuel : Nat} {b : List UInt8} {s : S}
    (hstep : ∀ s' b', Relation.ReflTransGen (RecvStep process) (s, b) (s', b') → b' ≠ [] →
      I s' → I (sessionRecv process b' s').1)
    (hs : I s) : I (recvLoop process fuel b s).1 := by
  induction fuel generalizing b s with
  | zero => exact hs
  | succ fuel ih =>
    by_cases hb : b = []
    · simpa [recvLoop, hb] using hs
    · rw [recvLoop, if_neg hb]
      apply ih
      · intro s' b' hr
        exact hstep s' b' (.head (.step hb) hr)
      · exact hstep s b .refl hb hs

/-- What depends neither on the input nor on what a message does is kept by every
path through a turn. -/
theorem sessionRecv_keeps {I : S → Prop} (hinput : ∀ i s, I s → I (setInput i s))
    (hprocess : ∀ p s, I s → I (process p s)) (b : List UInt8) {s : S} (hs : I s) :
    I (sessionRecv process b s).1 := by
  have hcont (b : List UInt8) : I (sessionRecvCont process b s).1 := by
    simp only [sessionRecvCont]
    split
    · exact hinput _ _ hs
    · split
      · split
        · exact hinput _ _ hs
        · exact hprocess _ _ (hinput _ _ hs)
      · exact hinput _ _ (hprocess _ _ (hinput _ _ hs))
  have hempty (b : List UInt8) : I (sessionRecvEmpty process b s).1 := by
    simp only [sessionRecvEmpty]
    split
    · exact hinput _ _ hs
    · split
      · exact hs
      · split
        · exact hinput _ _ hs
        · exact hprocess _ _ hs
  simp only [sessionRecv]
  generalize (if (input s).bufLen = 0 then b.dropWhile isKeepalive else b) = b'
  split
  · exact hs
  · split
    · exact hcont b'
    · exact hempty b'

theorem mwSessionRecv_keeps {I : S → Prop} (hinput : ∀ i s, I s → I (setInput i s))
    (hprocess : ∀ p s, I s → I (process p s)) (b : List UInt8) {s : S} (hs : I s) :
    I (mwSessionRecv process b s) :=
  recvLoop_keeps (fun _ b' _ _ hs' => sessionRecv_keeps hinput hprocess b' hs') hs

end Meanwhile
