-- SUMMARY: One file transfer of srvc_ft.c with its channel: offering, accepting, sending, acknowledging and closing.
import Meanwhile.Service
import Meanwhile.Lib.Keeps
import Meanwhile.Lib.State

/-!
# File transfers

A `Side` is one end of a file transfer: the transfer once there is one, its
channel while it is in the set of channels, and what has been written for it. The
functions are those of srvc_ft.c, with the functions of channel.c that they use
cut down to one channel. A transfer never gets a second channel, so `channel` only
says that the pointer is not `NULL`.

The handler of the client answers a callback with calls, which make callbacks in
turn, so the hooks are built up by nesting depth as those of a session are.

`log` is not in the C structures; it records what happens, the latest first.
-/

namespace Meanwhile.Ft

/-! ## Data -/

/-- `enum mwFileTransferState` -/
inductive MwFileTransferState where
  | new | pending | opened | cancelLocal | cancelRemote | done | error | unknown
deriving DecidableEq, Repr

/-- `struct mwFileTransfer` -/
structure MwFileTransfer where
  state : MwFileTransferState := .new
  filename : MwString
  message : MwString
  size : UInt32
  remaining : UInt32
  channel : Bool := false
deriving DecidableEq

/-- A `CHANNEL_SEND` message of the service -/
abbrev Payload := UInt16 × MwOpaque

def msgTransfer : UInt16 := 0x0001
def msgReceived : UInt16 := 0x0002

/-- `struct mwChannel` -/
structure FtLine where
  outbound : Bool
  state : MwChannelState
  outgoing : List Payload := []
  incoming : List Payload := []
deriving DecidableEq

/-- A message on the channel -/
inductive FtPacket where
  | create (addtl : MwOpaque)
  | accept
  | send (msg : Payload)
  | destroy (reason : UInt32)
deriving DecidableEq

/-- The functions of `struct mwFileTransferHandler` -/
inductive FtCallback where
  | offered
  | opened
  | closed (code : UInt32)
  | recv (data : MwOpaque)
  | ack
deriving DecidableEq

inductive FtEvent where
  /-- A function of the handler is called for the transfer as it is then. -/
  | callback (c : FtCallback) (ft : Option MwFileTransfer)
  /-- `mwFileTransfer_send` has written a chunk. -/
  | sent (data : MwOpaque)
  /-- A `msg_RECEIVED` has come. -/
  | received
  /-- The transfer has become `mwFileTransfer_DONE`. -/
  | done
  /-- `mwFileTransfer_close` destroys the channel. -/
  | close (code : UInt32)
deriving DecidableEq

/-- One end of a file transfer. `ret` gives the return values of `io_write`. -/
structure Side where
  ft : Option MwFileTransfer := none
  line : Option FtLine := none
  ret : Nat → Int := fun _ => 0
  writes : Nat := 0
  /-- What has been written, in order -/
  wire : List FtPacket := []
  log : List FtEvent := []

abbrev FtM := StateM Side

/-- What the handler does -/
abbrev FtHooks := FtCallback → FtM Unit

def record (e : FtEvent) : FtM Unit := modify fun s => { s with log := e :: s.log }

/-- Call a function of the handler. -/
def callback (h : FtHooks) (c : FtCallback) : FtM Unit := do
  record (.callback c (← get).ft)
  h c

def modifyFt (f : MwFileTransfer → MwFileTransfer) : FtM Unit :=
  modify fun s => { s with ft := s.ft.map f }

/-- `ft_state` -/
def ftState (state : MwFileTransferState) : FtM Unit := do
  match (← get).ft with
  | none => return
  | some ft =>
      if ft.state = state then return
      modifyFt fun ft => { ft with state := state }
      if state = .done then record .done

/-! ## The channel -/

/-- `mwSession_send` -/
def write (p : FtPacket) : FtM Int := do
  let s ← get
  let ret := s.ret s.writes
  set { s with writes := s.writes + 1, wire := if ret = 0 then s.wire ++ [p] else s.wire }
  return ret

/-- `mwChannel_sendEncrypted`, whatever the cipher -/
def channelSend (msg : Payload) : FtM Int := do
  match (← get).line with
  | none => return -1
  | some line =>
      if line.state = .opened then write (.send msg)
      else
        modify fun s => { s with line := some { line with outgoing := line.outgoing ++ [msg] } }
        return 0

/-- `mwChannel_destroy` -/
def channelDestroy (reason : UInt32) : FtM Int := do
  match (← get).line with
  | none => return -1
  | some _ =>
      modify fun s => { s with line := none }
      write (.destroy reason)

/-! ## Closing and receiving -/

section

variable (h : FtHooks)

/-- `mwFileTransfer_close` -/
def mwFileTransferClose (code : UInt32) : FtM Int := do
  match (← get).ft with
  | none => return -1
  | some ft =>
      if ft.state = .opened then ftState .cancelLocal
      let ret ←
        if ft.channel then do
          record (.close code)
          let ret ← channelDestroy code
          modifyFt fun ft => { ft with channel := false }
          pure ret
        else pure 0
      callback h (.closed code)
      return ret

/-- `recv_TRANSFER`. A chunk that is too long is dropped. -/
def recvTransfer (data : MwOpaque) : FtM Unit := do
  match (← get).ft with
  | none => return
  | some ft =>
      if ft.state ≠ .opened then return
      if data.length > ft.remaining.toNat then return
      let remaining := ft.remaining - UInt32.ofNat data.length
      modifyFt fun ft => { ft with remaining := remaining }
      if remaining = 0 then ftState .done
      callback h (.recv data)

/-- Whether nothing of the transfer remains -/
def nothingRemains : FtM Bool := do return (← get).ft.any (·.remaining = 0)

/-- `recv_RECEIVED` -/
def recvReceived : FtM Unit := do
  record .received
  if ← nothingRemains then ftState .done
  callback h .ack
  if ← nothingRemains then discard (mwFileTransferClose h 0)

/-- `recv` -/
def recv (msg : Payload) : FtM Unit :=
  if msg.1 = msgTransfer then recvTransfer h msg.2
  else if msg.1 = msgReceived then recvReceived h
  else pure ()

/-- `recv_channelCreate`, on a channel with the additional data of its creation -/
def recvChannelCreate (addtl : MwOpaque) : FtM Unit := do
  let parsed : Get (MwString × MwString × UInt32) := do
    let _ ← guint32Get 0
    let fnm ← mwStringGet
    let txt ← mwStringGet
    let size ← guint32Get 0
    let _ ← guint32Get 0
    return (fnm, txt, size)
  let ((fnm, txt, size), b) := parsed (.wrapOpaque addtl)
  if b.error then discard (channelDestroy errFailure)
  else
    modify fun s =>
      { s with
        ft := some { state := .pending, filename := fnm, message := txt, size := size,
                     remaining := size, channel := true } }
    callback h .offered

/-- `recv_channelAccept` -/
def recvChannelAccept : FtM Unit := do
  match (← get).ft with
  | none => return
  | some _ =>
      ftState .opened
      callback h .opened

/-- `recv_channelDestroy` -/
def recvChannelDestroy (reason : UInt32) : FtM Unit := do
  match (← get).ft with
  | none => return
  | some ft =>
      modifyFt fun ft => { ft with channel := false }
      if ft.state ≠ .done then ftState .cancelRemote
      discard (mwFileTransferClose h reason)

/-- `flush_channel` -/
def flushChannel : FtM Unit := do
  match (← get).line with
  | none => return
  | some line =>
      line.incoming.forM (recv h)
      modify fun s => { s with line := s.line.map fun line => { line with incoming := [] } }
      match (← get).line with
      | none => return
      | some line =>
          line.outgoing.forM fun msg => discard (write (.send msg))
          modify fun s => { s with line := some { line with outgoing := [] } }

/-- A message of the other end. A side takes part in one transfer only, and its
channel is announced at most once. -/
def onPacket : FtPacket → FtM Unit
  | .create addtl => do
      if (← get).ft.isSome then return
      modify fun s => { s with line := some { outbound := false, state := .wait } }
      recvChannelCreate h addtl
  | .accept => do
      match (← get).line with
      | none => return
      | some line =>
          if line.outbound = false ∨ line.state ≠ .wait then
            discard (channelDestroy errRequestInvalid)
          else
            modify fun s => { s with line := some { line with state := .opened } }
            recvChannelAccept h
            match (← get).line with
            | none => return
            | some line => if line.state = .opened then flushChannel h else return
  | .send msg => do
      match (← get).line with
      | none => return
      | some line =>
          if line.state = .opened then recv h msg
          else modify fun s =>
            { s with line := some { line with incoming := line.incoming ++ [msg] } }
  | .destroy reason => do
      match (← get).line with
      | none => return
      | some line =>
          let state := if reason ≠ 0 then .error else .destroy
          modify fun s => { s with line := some { line with state := state } }
          recvChannelDestroy h reason
          modify fun s => { s with line := none }

/-! ## Calls -/

/-- `mwChannel_accept` for a channel that is waiting -/
def channelAccept : FtM Int := do
  match (← get).line with
  | none => return -1
  | some line =>
      let ret ← write .accept
      if ret ≠ 0 then modify fun s => { s with line := some { line with state := .error } }
      else
        modify fun s => { s with line := some { line with state := .opened } }
        flushChannel h
      return ret

/-- `mwFileTransfer_accept` -/
def mwFileTransferAccept : FtM Int := do
  match (← get).ft, (← get).line with
  | some ft, some line =>
      if ft.channel = false ∨ ft.state ≠ .pending ∨ line.outbound ∨ line.state ≠ .wait then
        return -1
      let ret ← channelAccept h
      if ret ≠ 0 then discard (mwFileTransferClose h errFailure)
      else
        ftState .opened
        callback h .opened
      return ret
  | _, _ => return -1

/-- The additional data that `ft_create_chan` composes -/
def createAddtl (ft : MwFileTransfer) : MwOpaque :=
  guint32Put 0 ++ mwStringPut ft.filename ++ mwStringPut ft.message ++ guint32Put ft.size ++
    guint32Put 0 ++ guint16Put 0

/-- `mwFileTransfer_offer`, with `ft_create_chan` -/
def mwFileTransferOffer : FtM Int := do
  match (← get).ft with
  | none => return -1
  | some ft =>
      if ft.channel ∨ ft.state ≠ .new then return -1
      let ret ← write (.create (createAddtl ft))
      let state := if ret ≠ 0 then .error else .wait
      modify fun s => { s with line := some { outbound := true, state := state } }
      if ret ≠ 0 then
        ftState .error
        discard (mwFileTransferClose h errFailure)
      else
        modifyFt fun ft => { ft with channel := true }
        ftState .pending
      return 0

end

/-- `mwFileTransfer_send` -/
def mwFileTransferSend (data : MwOpaque) : FtM Int := do
  match (← get).ft with
  | none => return -1
  | some ft =>
      if ft.state ≠ .opened ∨ ft.channel = false ∨ ¬ (← get).line.any (·.outbound) then return -1
      if data.length > ft.remaining.toNat then return -1
      let ret ← channelSend (msgTransfer, data)
      if ret = 0 then
        modifyFt fun ft => { ft with remaining := ft.remaining - UInt32.ofNat data.length }
        record (.sent data)
      return ret

/-- `mwFileTransfer_ack` -/
def mwFileTransferAck : FtM Int := do
  match (← get).ft with
  | none => return -1
  | some ft =>
      if ft.channel = false ∨ (← get).line.any (·.outbound) then return -1
      channelSend (msgReceived, [])

/-- What a client may call -/
inductive FtCall where
  | offer
  | accept
  | send (data : MwOpaque)
  | ack
  | close (code : UInt32)

def runCall (h : FtHooks) : FtCall → FtM Unit
  | .offer => discard (mwFileTransferOffer h)
  | .accept => discard (mwFileTransferAccept h)
  | .send data => discard (mwFileTransferSend data)
  | .ack => discard mwFileTransferAck
  | .close code => discard (mwFileTransferClose h code)

/-- A handler, by the calls it makes in its functions -/
abbrev FtClient := FtCallback → Side → List FtCall

/-- The hooks of a handler whose callbacks nest at most to a depth -/
def hooks (client : FtClient) : Nat → FtHooks
  | 0 => fun _ => pure ()
  | n + 1 => fun c => do (client c (← get)).forM (runCall (hooks client n))

/-! ## What the functions do -/

section

variable {s : Side}

@[simp] theorem write_ft (p : FtPacket) (s : Side) : (write p s).2.ft = s.ft := rfl
@[simp] theorem write_log (p : FtPacket) (s : Side) : (write p s).2.log = s.log := rfl

@[simp] theorem channelSend_ft (msg : Payload) (s : Side) : (channelSend msg s).2.ft = s.ft := by
  unfold channelSend
  rw [StateM.get_bind]
  cases s.line with
  | none => rfl
  | some line =>
    dsimp only
    rw [StateM.ite_apply]
    split <;> rfl

@[simp] theorem channelSend_log (msg : Payload) (s : Side) :
    (channelSend msg s).2.log = s.log := by
  unfold channelSend
  rw [StateM.get_bind]
  cases s.line with
  | none => rfl
  | some line =>
    dsimp only
    rw [StateM.ite_apply]
    split <;> rfl

theorem remaining_sub {remaining : UInt32} {n : Nat} (h : n ≤ remaining.toNat) :
    (remaining - UInt32.ofNat n).toNat = remaining.toNat - n := by
  have hlt := UInt32.toNat_lt remaining
  have hn : (UInt32.ofNat n).toNat = n := UInt32.toNat_ofNat_of_lt' (h.trans_lt hlt)
  have hle : UInt32.ofNat n ≤ remaining := by
    rw [UInt32.le_iff_toNat_le, hn]
    exact h
  rw [UInt32.toNat_sub_of_le _ _ hle, hn]

theorem ftState_of_some {ft : MwFileTransfer} (hft : s.ft = some ft) (state : MwFileTransferState) :
    (ftState state s).2 =
      if ft.state = state then s
      else
        { s with
          ft := some { ft with state := state }
          log := if state = .done then .done :: s.log else s.log } := by
  unfold ftState
  rw [StateM.get_bind, hft]
  dsimp only
  rw [StateM.ite_apply]
  split
  · rfl
  · simp only [modifyFt, StateM.modify_bind, StateM.ite_apply]
    split <;> simp [record, hft]

theorem nothingRemains_apply {ft : MwFileTransfer} (hft : s.ft = some ft) :
    nothingRemains s = (decide (ft.remaining = 0), s) := by
  simp [nothingRemains, hft]

/-- A side when it calls `ft_closed` -/
def Side.closing (code : UInt32) (ft : MwFileTransfer) (s : Side) : Side :=
  let ft' := { ft with
    state := if ft.state = .opened then .cancelLocal else ft.state
    channel := false }
  let s' := if ft.channel then (channelDestroy code { s with log := .close code :: s.log }).2 else s
  { s' with ft := some ft', log := .callback (.closed code) (some ft') :: s'.log }

theorem write_wire (p : FtPacket) (s : Side) :
    (write p s).2.wire = s.wire ∨ (write p s).2.wire = s.wire ++ [p] := by
  simp only [write, StateM.bind_apply, StateM.set_apply]
  split
  · exact .inr rfl
  · exact .inl rfl

@[simp] theorem write_line (p : FtPacket) (s : Side) : (write p s).2.line = s.line := rfl

/-- A write that succeeds has been written, and one that fails has not. -/
theorem write_wire_of_ret (p : FtPacket) (s : Side) :
    (write p s).2.wire = if (write p s).1 = 0 then s.wire ++ [p] else s.wire := rfl

theorem channelSend_of_opened {line : FtLine} (hline : s.line = some line)
    (hopened : line.state = .opened) (msg : Payload) : channelSend msg s = write (.send msg) s := by
  unfold channelSend
  rw [StateM.get_bind, hline]
  dsimp only
  rw [if_pos hopened]

theorem channelDestroy_wire (reason : UInt32) (s : Side) :
    (channelDestroy reason s).2.wire = s.wire ∨
      (channelDestroy reason s).2.wire = s.wire ++ [.destroy reason] := by
  unfold channelDestroy
  rw [StateM.get_bind]
  cases s.line with
  | none => exact .inl rfl
  | some line => exact write_wire (.destroy reason) { s with line := none }

theorem channelDestroy_line (reason : UInt32) (s : Side) :
    (channelDestroy reason s).2.line = none := by
  unfold channelDestroy
  rw [StateM.get_bind]
  cases hline : s.line with
  | none => exact hline
  | some line => rfl

@[simp] theorem channelDestroy_log (reason : UInt32) (s : Side) :
    (channelDestroy reason s).2.log = s.log := by
  unfold channelDestroy
  rw [StateM.get_bind]
  cases s.line <;> rfl

theorem channelDestroy_ft (reason : UInt32) (s : Side) : (channelDestroy reason s).2.ft = s.ft := by
  unfold channelDestroy
  rw [StateM.get_bind]
  cases s.line <;> rfl

theorem mwFileTransferClose_apply (h : FtHooks) (code : UInt32) {ft : MwFileTransfer}
    (hft : s.ft = some ft) :
    (mwFileTransferClose h code s).2 = (h (.closed code) (s.closing code ft)).2 := by
  obtain ⟨ft', line, ret, writes, wire, log⟩ := s
  obtain ⟨state, filename, message, size, remaining, channel⟩ := ft
  cases hft
  by_cases hopened : state = .opened <;> cases channel <;> cases line <;>
    simp [mwFileTransferClose, ftState, modifyFt, record, callback, channelDestroy, write,
      Side.closing, hopened]

end

/-! ## Two ends -/

/-- Two sides and how much each has been given of what the other has written. What is
written arrives unchanged and in order. -/
structure Pair where
  a : Side
  b : Side
  toA : Nat := 0
  toB : Nat := 0

inductive PairStep where
  | callA (call : FtCall)
  | callB (call : FtCall)
  | deliverA
  | deliverB

/-- The handlers of both ends -/
structure Clients where
  a : FtHooks
  b : FtHooks

def Pair.step (c : Clients) (p : Pair) : PairStep → Pair
  | .callA call => { p with a := (runCall c.a call p.a).2 }
  | .callB call => { p with b := (runCall c.b call p.b).2 }
  | .deliverA =>
      match p.b.wire[p.toA]? with
      | some packet => { p with a := (onPacket c.a packet p.a).2, toA := p.toA + 1 }
      | none => p
  | .deliverB =>
      match p.a.wire[p.toB]? with
      | some packet => { p with b := (onPacket c.b packet p.b).2, toB := p.toB + 1 }
      | none => p

def Pair.run (c : Clients) (steps : List PairStep) (p : Pair) : Pair := steps.foldl (Pair.step c) p

/-- `mwFileTransfer_new` at one end, and nothing yet at the other -/
def Pair.new (filename message : MwString) (size : UInt32) (retA retB : Nat → Int) : Pair where
  a := { ft := some { filename := filename, message := message, size := size, remaining := size },
         ret := retA }
  b := { ret := retB }

end Meanwhile.Ft
