-- SUMMARY: One service with its channels and what it writes, over an arbitrary service object and arbitrary messages.
import Meanwhile.Service

/-!
# A service and its channels

What service.c and channel.c do for one service: they keep its state, create,
open and destroy its channels, queue what comes too early, and hand on what the
server sends. The functions are those of the session, less what no service looks
at. Beyond the calls that a service makes itself, `Input` is all that can
happen to it.

The service object is a parameter `σ`, and so are the messages that the service
sends and receives, `α` and `β`.
-/

namespace Meanwhile

/-- `struct mwChannel`, as far as its service can tell -/
structure Line (α β : Type) where
  inbound : Bool := false
  state : MwChannelState := .init
  outgoing : List α := []
  incoming : List β := []

/-- What is written for a service -/
inductive Packet (α : Type) where
  | create (chan : Nat)
  | accept (chan : Nat)
  | send (chan : Nat) (msg : α)
  | destroy (chan : Nat) (reason : UInt32)
  | senseService

/-- What a service looks at in a message that offers it a channel -/
structure Offer where
  protoType : UInt32 := 0
  protoVer : UInt32 := 0
  user : MwIdBlock := {}
  addtl : MwOpaque := []

/-- A service in its session. `ret` gives the return values of `io_write`, one
for each call of it. `dangling` is set where a channel is used that is gone. -/
structure World (σ α β : Type) where
  srvc : σ
  state : MwServiceState := .stopped
  lines : Nat → Option (Line α β) := fun _ => none
  nextChan : Nat := 0
  ret : Nat → Int := fun _ => 0
  writes : Nat := 0
  /-- What has been written, in order -/
  wire : List (Packet α) := []
  dangling : Bool := false
  /-- The service has been freed. -/
  freed : Bool := false

variable {σ α β : Type}

namespace World

/-! ## Channels -/

/-- `mwSession_send`: a message is on its way if `io_write` returns zero. -/
def write (w : World σ α β) (p : Packet α) : Int × World σ α β :=
  (w.ret w.writes,
    { w with
      writes := w.writes + 1
      wire := if w.ret w.writes = 0 then w.wire ++ [p] else w.wire })

def setLine (w : World σ α β) (chan : Nat) (line : Option (Line α β)) : World σ α β :=
  { w with lines := Function.update w.lines chan line }

/-- `mwChannel_newOutgoing`, then `mwChannel_create`. The channel stays in its set
when it could not be created. -/
def createChannel (w : World σ α β) : Option Nat × World σ α β :=
  let chan := w.nextChan
  let (ret, w) := ({ w with nextChan := chan + 1 }).write (.create chan)
  let w := w.setLine chan (some { state := if ret ≠ 0 then .error else .wait })
  (if ret ≠ 0 then none else some chan, w)

/-- `mwChannel_send` -/
def mwChannelSend (w : World σ α β) (chan : Nat) (msg : α) : Int × World σ α β :=
  match w.lines chan with
  | none => (-1, { w with dangling := true })
  | some line =>
      if line.state = .opened then w.write (.send chan msg)
      else (0, w.setLine chan (some { line with outgoing := line.outgoing ++ [msg] }))

/-- `mwChannel_destroy` -/
def mwChannelDestroy (w : World σ α β) (chan : Nat) (reason : UInt32) : World σ α β :=
  match w.lines chan with
  | none => { w with dangling := true }
  | some _ => ((w.setLine chan none).write (.destroy chan reason)).2

/-- `mwSession_senseService` in a session that is up -/
def mwSessionSenseService (w : World σ α β) : World σ α β := (w.write .senseService).2

/-! ## The state of the service -/

/-- `mwService_started` -/
def mwServiceStarted (w : World σ α β) : World σ α β := { w with state := .started }

/-- `mwService_stopped` -/
def mwServiceStopped (w : World σ α β) : World σ α β := { w with state := .stopped }

/-- `MW_SERVICE_IS_LIVE` -/
def isLive (w : World σ α β) : Bool := w.state = .starting ∨ w.state = .started

/-- `MW_SERVICE_IS_DEAD` -/
def isDead (w : World σ α β) : Bool := w.state = .stopping ∨ w.state = .stopped

/-- `mwService_start`, with the function of the service -/
def mwServiceStart (start : World σ α β → World σ α β) (w : World σ α β) : World σ α β :=
  if w.state = .stopped then start { w with state := .starting } else w

/-- `mwService_stop`, with the function of the service -/
def mwServiceStop (stop : World σ α β → World σ α β) (w : World σ α β) : World σ α β :=
  if w.isDead then w else stop { w with state := .stopping }

/-- `mwService_error`, with the function of the service -/
def mwServiceError (stop : World σ α β → World σ α β) (w : World σ α β) : World σ α β :=
  if w.isDead then w else stop { w with state := .error }

/-- `mwService_free`, with the functions of the service -/
def mwServiceFree (stop clear : World σ α β → World σ α β) (w : World σ α β) : World σ α β :=
  { clear (w.mwServiceStop stop) with freed := true }

end World

/-- The functions of a service. A service that takes no channels destroys those it is
offered. -/
structure ServiceFns (σ α β : Type) where
  start : World σ α β → World σ α β
  stop : World σ α β → World σ α β
  recvCreate : Nat → Offer → World σ α β → World σ α β :=
    fun chan _ w => w.mwChannelDestroy chan errFailure
  recvAccept : Nat → World σ α β → World σ α β
  recvDestroy : Nat → UInt32 → World σ α β → World σ α β
  recv : Nat → β → World σ α β → World σ α β
  clear : World σ α β → World σ α β

namespace World

/-! ## Messages of the server -/

variable (f : ServiceFns σ α β)

/-- `channel_recv` for a channel in use. What is there to receive goes to the service
as long as the channel is. -/
def channelRecv (chan : Nat) (w : World σ α β) (msg : β) : World σ α β :=
  match w.lines chan with
  | none => { w with dangling := true }
  | some _ => f.recv chan msg w

/-- The first loop of `flush_channel` -/
def flushIncoming (chan : Nat) (w : World σ α β) : World σ α β :=
  match w.lines chan with
  | none => { w with dangling := true }
  | some line =>
      let w := line.incoming.foldl (channelRecv f chan) w
      match w.lines chan with
      | none => { w with dangling := true }
      | some line => w.setLine chan (some { line with incoming := [] })

/-- The second loop of `flush_channel`. Nobody looks at what the writes return. -/
def flushOutgoing (chan : Nat) (w : World σ α β) : World σ α β :=
  match w.lines chan with
  | none => w
  | some line =>
      (line.outgoing.foldl (fun w msg => (w.write (.send chan msg)).2) w).setLine chan
        (some { line with outgoing := [] })

/-- `flush_channel` -/
def flushChannel (chan : Nat) (w : World σ α β) : World σ α β :=
  flushOutgoing chan (flushIncoming f chan w)

/-- `mwChannel_recvCreate` for a channel that is not in the set yet -/
def recvCreate (offer : Offer) (w : World σ α β) : World σ α β :=
  let chan := w.nextChan
  let w := ({ w with nextChan := chan + 1 }).setLine chan (some { inbound := true, state := .wait })
  f.recvCreate chan offer w

/-- `mwChannel_recvAccept` for a channel that offers no cipher. An acceptance that
nobody waits for destroys the channel, and the service is not told. -/
def recvAccept (chan : Nat) (w : World σ α β) : World σ α β :=
  match w.lines chan with
  | none => w
  | some line =>
      if line.inbound ∨ line.state ≠ .wait then w.mwChannelDestroy chan 0x80000001
      else
        let w := f.recvAccept chan (w.setLine chan (some { line with state := .opened }))
        match w.lines chan with
        | none => { w with dangling := true }
        | some line => if line.state = .opened then w.flushChannel f chan else w

/-- `mwChannel_recvDestroy` -/
def recvDestroy (chan : Nat) (reason : UInt32) (w : World σ α β) : World σ α β :=
  match w.lines chan with
  | none => w
  | some line =>
      let state := if reason ≠ 0 then .error else .destroy
      (f.recvDestroy chan reason
        (w.setLine chan (some { line with state := state }))).setLine chan none

/-- `mwChannel_recv` -/
def recv (chan : Nat) (msg : β) (w : World σ α β) : World σ α β :=
  match w.lines chan with
  | none => w
  | some line =>
      if line.state = .opened then channelRecv f chan w msg
      else w.setLine chan (some { line with incoming := line.incoming ++ [msg] })

end World

/-! ## Inputs -/

/-- What the client and the server do to any service -/
inductive Input (β : Type) where
  | start
  | stop
  | error
  | free
  | create (offer : Offer)
  | accept (chan : Nat)
  | destroy (chan : Nat) (reason : UInt32)
  | recv (chan : Nat) (msg : β)

/-- A service that has been freed is not there to do anything. -/
def World.input (f : ServiceFns σ α β) (i : Input β) (w : World σ α β) : World σ α β :=
  if w.freed then w
  else
    match i with
    | .start => w.mwServiceStart f.start
    | .stop => w.mwServiceStop f.stop
    | .error => w.mwServiceError f.stop
    | .free => w.mwServiceFree f.stop f.clear
    | .create offer => w.recvCreate f offer
    | .accept chan => w.recvAccept f chan
    | .destroy chan reason => w.recvDestroy f chan reason
    | .recv chan msg => w.recv f chan msg

/-! ## Invariants of the service object and its state -/

/-- The functions of a service keep an invariant of its object and its state. -/
structure ServiceFns.Keep (f : ServiceFns σ α β) (I : σ → MwServiceState → Prop) : Prop where
  start : ∀ w : World σ α β, w.state = .stopped → I w.srvc .stopped →
    I (f.start { w with state := .starting }).srvc (f.start { w with state := .starting }).state
  stop : ∀ (w : World σ α β) (state : MwServiceState), w.isDead = false → I w.srvc w.state →
    I (f.stop { w with state := state }).srvc (f.stop { w with state := state }).state
  recvCreate : ∀ (chan : Nat) (offer : Offer) (w : World σ α β), I w.srvc w.state →
    I (f.recvCreate chan offer w).srvc (f.recvCreate chan offer w).state
  recvAccept : ∀ (chan : Nat) (w : World σ α β), I w.srvc w.state →
    I (f.recvAccept chan w).srvc (f.recvAccept chan w).state
  recvDestroy : ∀ (chan : Nat) (reason : UInt32) (w : World σ α β), I w.srvc w.state →
    I (f.recvDestroy chan reason w).srvc (f.recvDestroy chan reason w).state
  recv : ∀ (chan : Nat) (msg : β) (w : World σ α β), I w.srvc w.state →
    I (f.recv chan msg w).srvc (f.recv chan msg w).state
  clear : ∀ w : World σ α β, I (w.mwServiceStop f.stop).srvc (w.mwServiceStop f.stop).state →
    I (f.clear (w.mwServiceStop f.stop)).srvc (f.clear (w.mwServiceStop f.stop)).state

namespace World

variable {f : ServiceFns σ α β} {I : σ → MwServiceState → Prop} {w : World σ α β}

theorem mwServiceStart_keeps (hf : f.Keep I) (hI : I w.srvc w.state) :
    I (w.mwServiceStart f.start).srvc (w.mwServiceStart f.start).state := by
  unfold mwServiceStart
  split
  · rename_i hstopped
    exact hf.start w hstopped (hstopped ▸ hI)
  · exact hI

theorem mwServiceStop_keeps (hf : f.Keep I) (hI : I w.srvc w.state) :
    I (w.mwServiceStop f.stop).srvc (w.mwServiceStop f.stop).state := by
  unfold mwServiceStop
  split
  · exact hI
  · rename_i hdead
    exact hf.stop w .stopping (Bool.not_eq_true _ ▸ hdead) hI

theorem mwServiceError_keeps (hf : f.Keep I) (hI : I w.srvc w.state) :
    I (w.mwServiceError f.stop).srvc (w.mwServiceError f.stop).state := by
  unfold mwServiceError
  split
  · exact hI
  · rename_i hdead
    exact hf.stop w .error (Bool.not_eq_true _ ▸ hdead) hI

theorem mwChannelDestroy_state (chan : Nat) (reason : UInt32) :
    (w.mwChannelDestroy chan reason).state = w.state := by
  unfold mwChannelDestroy
  split <;> rfl

theorem channelRecv_keeps (hf : f.Keep I) (chan : Nat) (msg : β) (hI : I w.srvc w.state) :
    I (channelRecv f chan w msg).srvc (channelRecv f chan w msg).state := by
  unfold channelRecv
  split
  · exact hI
  · exact hf.recv chan msg w hI

theorem flushIncoming_keeps (hf : f.Keep I) (chan : Nat) (hI : I w.srvc w.state) :
    I (flushIncoming f chan w).srvc (flushIncoming f chan w).state := by
  have hloop : ∀ (msgs : List β) (w : World σ α β), I w.srvc w.state →
      I (msgs.foldl (channelRecv f chan) w).srvc (msgs.foldl (channelRecv f chan) w).state := by
    intro msgs
    induction msgs with
    | nil => exact fun _ hI => hI
    | cons msg msgs ih => exact fun w hI => ih _ (channelRecv_keeps hf chan msg hI)
  unfold flushIncoming
  split
  · exact hI
  · rename_i line _
    have hI' := hloop line.incoming w hI
    dsimp only
    split <;> exact hI'

theorem flushOutgoing_keeps (chan : Nat) (hI : I w.srvc w.state) :
    I (flushOutgoing chan w).srvc (flushOutgoing chan w).state := by
  have hloop : ∀ (msgs : List α) (w : World σ α β), I w.srvc w.state →
      I (msgs.foldl (fun w msg => (w.write (.send chan msg)).2) w).srvc
        (msgs.foldl (fun w msg => (w.write (.send chan msg)).2) w).state := by
    intro msgs
    induction msgs with
    | nil => exact fun _ hI => hI
    | cons msg msgs ih => exact fun w hI => ih _ hI
  unfold flushOutgoing
  split
  · exact hI
  · rename_i line _
    exact hloop line.outgoing w hI

/-- What the functions of a service keep, every input keeps. -/
theorem input_keeps (hf : f.Keep I) (i : Input β) (hI : I w.srvc w.state) :
    I (w.input f i).srvc (w.input f i).state := by
  unfold input
  split
  · exact hI
  · cases i with
    | start => exact mwServiceStart_keeps hf hI
    | stop => exact mwServiceStop_keeps hf hI
    | error => exact mwServiceError_keeps hf hI
    | free => exact hf.clear w (mwServiceStop_keeps hf hI)
    | create offer => exact hf.recvCreate w.nextChan offer (setLine _ w.nextChan _) hI
    | accept chan =>
      dsimp only
      unfold World.recvAccept
      split
      · exact hI
      · rename_i line _
        split
        · rw [mwChannelDestroy_state]
          unfold mwChannelDestroy
          split <;> exact hI
        · have hI' := hf.recvAccept chan (w.setLine chan (some { line with state := .opened })) hI
          dsimp only
          split
          · exact hI'
          · split
            · exact flushOutgoing_keeps chan (flushIncoming_keeps hf chan hI')
            · exact hI'
    | destroy chan reason =>
      dsimp only
      unfold World.recvDestroy
      split
      · exact hI
      · exact hf.recvDestroy chan reason (w.setLine chan _) hI
    | recv chan msg =>
      dsimp only
      unfold World.recv
      split
      · exact hI
      · split
        · exact channelRecv_keeps hf chan msg hI
        · exact hI

end World

/-! ## Lines, and writes that succeed -/

namespace World

variable {w : World σ α β}

@[simp] theorem setLine_srvc (chan : Nat) (line : Option (Line α β)) :
    (w.setLine chan line).srvc = w.srvc := rfl

@[simp] theorem write_srvc (p : Packet α) : (w.write p).2.srvc = w.srvc := rfl

@[simp] theorem createChannel_srvc : w.createChannel.2.srvc = w.srvc := rfl

@[simp] theorem mwSessionSenseService_srvc : w.mwSessionSenseService.srvc = w.srvc := rfl

@[simp] theorem mwChannelDestroy_srvc (chan : Nat) (reason : UInt32) :
    (w.mwChannelDestroy chan reason).srvc = w.srvc := by
  unfold mwChannelDestroy
  split <;> rfl

@[simp] theorem setLine_self (chan : Nat) (line : Option (Line α β)) :
    (w.setLine chan line).lines chan = line := Function.update_self ..

theorem setLine_of_ne {chan chan' : Nat} (h : chan' ≠ chan) (line : Option (Line α β)) :
    (w.setLine chan line).lines chan' = w.lines chan' := Function.update_of_ne h ..

theorem write_of_ret (hret : w.ret w.writes = 0) (p : Packet α) :
    w.write p = (0, { w with writes := w.writes + 1, wire := w.wire ++ [p] }) := by
  simp [write, hret]

theorem createChannel_of_ret (hret : w.ret w.writes = 0) :
    w.createChannel = (some w.nextChan,
      { w with
        nextChan := w.nextChan + 1
        writes := w.writes + 1
        wire := w.wire ++ [.create w.nextChan]
        lines := Function.update w.lines w.nextChan (some { state := .wait }) }) := by
  simp [createChannel, write, setLine, hret]

theorem mwChannelSend_of_opened {chan : Nat} {line : Line α β} (hline : w.lines chan = some line)
    (hopened : line.state = .opened) (msg : α) :
    w.mwChannelSend chan msg = w.write (.send chan msg) := by
  simp [mwChannelSend, hline, hopened]

theorem mwChannelSend_of_none {chan : Nat} (hline : w.lines chan = none) (msg : α) :
    w.mwChannelSend chan msg = (-1, { w with dangling := true }) := by
  simp [mwChannelSend, hline]

theorem mwChannelDestroy_of_none {chan : Nat} (hline : w.lines chan = none) (reason : UInt32) :
    w.mwChannelDestroy chan reason = { w with dangling := true } := by
  simp [mwChannelDestroy, hline]

theorem mwChannelDestroy_of_some (hret : w.ret w.writes = 0) {chan : Nat} {line : Line α β}
    (hline : w.lines chan = some line) (reason : UInt32) :
    w.mwChannelDestroy chan reason =
      { w with
        lines := Function.update w.lines chan none
        writes := w.writes + 1
        wire := w.wire ++ [.destroy chan reason] } := by
  simp [mwChannelDestroy, hline, write, setLine, hret]

/-- What is left in the queue of a channel goes out without the service. -/
theorem flushOutgoing_srvc (chan : Nat) (w : World σ α β) :
    (flushOutgoing chan w).srvc = w.srvc := by
  have hwrites : ∀ (msgs : List α) (w : World σ α β),
      (msgs.foldl (fun w msg => (w.write (.send chan msg)).2) w).srvc = w.srvc := by
    intro msgs
    induction msgs with
    | nil => exact fun _ => rfl
    | cons msg msgs ih => exact fun w => ih _
  unfold flushOutgoing
  split
  · rfl
  · exact hwrites _ w

theorem flushOutgoing_of_nil {chan : Nat} {line : Line α β} (hline : w.lines chan = some line)
    (hout : line.outgoing = []) : flushOutgoing chan w = w.setLine chan (some line) := by
  obtain ⟨inbound, state, outgoing, incoming⟩ := line
  subst hout
  simp [flushOutgoing, hline]

theorem flushChannel_srvc {f : ServiceFns σ α β} {chan : Nat} {line : Line α β}
    (hline : w.lines chan = some line) :
    (w.flushChannel f chan).srvc = (line.incoming.foldl (channelRecv f chan) w).srvc := by
  unfold flushChannel
  rw [flushOutgoing_srvc]
  unfold flushIncoming
  rw [hline]
  dsimp only
  split <;> rfl

/-- The channel stays what it is while its messages are handed over. -/
theorem flushIncoming_of_lines {f : ServiceFns σ α β} {chan : Nat} {line : Line α β}
    (hline : w.lines chan = some line)
    (hline' : (line.incoming.foldl (channelRecv f chan) w).lines chan = some line) :
    w.flushIncoming f chan =
      (line.incoming.foldl (channelRecv f chan) w).setLine chan
        (some { line with incoming := [] }) := by
  unfold flushIncoming
  rw [hline]
  dsimp only
  rw [hline']

/-- A channel that was waited for, and that its service leaves open -/
theorem recvAccept_of_wait {f : ServiceFns σ α β} {chan : Nat} {line line' : Line α β}
    (hline : w.lines chan = some line) (hinbound : line.inbound = false)
    (hwait : line.state = .wait)
    (hline' : (f.recvAccept chan (w.setLine chan (some { line with state := .opened }))).lines chan
      = some line') (hopened : line'.state = .opened) :
    w.recvAccept f chan =
      (f.recvAccept chan (w.setLine chan (some { line with state := .opened }))).flushChannel f
        chan := by
  unfold recvAccept
  rw [hline]
  dsimp only
  rw [if_neg (by simp [hinbound, hwait])]
  simp only [hline', hopened, if_true]

end World

end Meanwhile
