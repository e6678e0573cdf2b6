-- SUMMARY: The session with its channels, services and ciphers, the trace of what it does, and the callbacks it makes.
import Meanwhile.Message
import Meanwhile.Cipher.Instance

/-!
# The session

`MwSession` is the whole of what the library keeps for one connection. Code that
works on it is written in `Session`, the state monad over it.

Three fields are not in the C structure. `trace` records what the session does, the
latest event first: the writes, the callbacks, the changes of state, and the
calls and steps that the results about whole runs speak of. `fault` is set where
the C code would use a channel that is gone or leave a buffer; from there on the
program means nothing, and the model goes on without doing what it was about to do.
`dangling` is set for the first of these reasons only.

A channel is held by its id and its address. The address tells a channel from a
later one that took the same id, as the pointer does in C.
-/

namespace Meanwhile

/-! ## Channels -/

/-- `enum mwChannelState` -/
inductive MwChannelState where
  | new | init | wait | opened | destroy | error | unknown
deriving DecidableEq, Repr

/-- A `CHANNEL_SEND` message -/
structure ChannelMessage where
  head : MwMessageHead
  msg : MwMsgChannelSend
deriving DecidableEq

def ChannelMessage.toMessage (m : ChannelMessage) : MwMessage := ⟨m.head, .channelSend m.msg⟩

/-- `struct mwChannel`. The id is the key of the channel in its set, so it is not
kept here again. Of the statistics there is the count of messages received. -/
structure MwChannel where
  addr : Nat
  state : MwChannelState := .new
  user : MwLoginInfo := {}
  service : UInt32 := 0
  protoType : UInt32 := 0
  protoVer : UInt32 := 0
  options : UInt32 := 0
  addtlCreate : MwOpaque := []
  addtlAccept : MwOpaque := []
  /-- `NULL` once a cipher has been selected -/
  supported : Option (List MwCipherInstance) := some []
  offeredPolicy : UInt16 := 0
  policy : UInt16 := 0
  cipher : Option MwCipherInstance := none
  msgRecv : Nat := 0
  outgoingQueue : List ChannelMessage := []
  incomingQueue : List ChannelMessage := []
  srvcData : Nat := 0

/-- A `struct mwChannel *` -/
structure ChanRef where
  id : UInt32
  addr : Nat
deriving DecidableEq

/-- `mwChannel_idIsOutgoing` -/
def mwChannelIdIsOutgoing (id : UInt32) : Bool := id &&& 0x80000000 = 0

/-- `mwChannel_idIsIncoming` -/
def mwChannelIdIsIncoming (id : UInt32) : Bool := !mwChannelIdIsOutgoing id

/-- `MW_MASTER_CHANNEL_ID` -/
def masterChannelId : UInt32 := 0

/-- `struct mwChannelSet` -/
structure MwChannelSet where
  map : UInt32 → Option MwChannel := fun _ => none
  counter : UInt32 := 0

/-- A call of `mwChannel_sendEncrypted`, with the cipher instance that the
channel had then and the cipher this belongs to, with the state and the outgoing
queue that the channel had, and with what was at the end of a buffer allocated for it. -/
structure SendCall where
  chan : ChanRef
  type : UInt32
  data : MwOpaque
  encrypt : Bool
  cipher : Option MwCipherInstance
  owner : Option MwCipher
  state : MwChannelState
  queue : List ChannelMessage
  fresh : Block

/-! ## Services -/

/-- `enum mwServiceState` -/
inductive MwServiceState where
  | stopped | stopping | started | starting | error | unknown
deriving DecidableEq, Repr

/-- `struct mwService`, with which of its functions are there. There is no such
thing as a zero service type: `mwService_init` refuses it. -/
structure MwService where
  type : UInt32
  type_ne_zero : type ≠ 0
  state : MwServiceState := .stopped
  hasStart : Bool := false
  hasStop : Bool := false
  hasRecvCreate : Bool := false
  hasRecvAccept : Bool := false
  hasRecvDestroy : Bool := false
  hasRecv : Bool := false
deriving DecidableEq

/-! ## Session -/

/-- `enum mwSessionState` -/
inductive MwSessionState where
  | starting | handshake | handshakeAck | login | loginRedir | loginCont | loginAck
  | started | stopping | stopped | unknown
deriving DecidableEq, Repr

/-- `gpointer state_info` -/
inductive StateInfo where
  | code (reason : UInt32)
  | text (s : MwString)
deriving DecidableEq

/-- The optional functions of `struct mwSessionHandler` that are there. -/
structure MwSessionHandler where
  onStateChange : Bool := true
  onSetPrivacyInfo : Bool := true
  onSetUserStatus : Bool := true
  onAdmin : Bool := true
  onAnnounce : Bool := true
deriving DecidableEq

/-- The input buffer of a session: `buf`, `buf_len` and `buf_used`. -/
structure InputBuffer where
  buf : List UInt8 := []
  bufLen : Nat := 0
  bufUsed : Nat := 0
deriving DecidableEq, Repr

/-- The properties that the session itself uses, with the defaults of
`session_defaults`; what has not been set is zero or `NULL`. -/
structure Attributes where
  clientVerMajor : UInt32 := 0x001e
  clientVerMinor : UInt32 := 0x001d
  clientTypeId : UInt32 := 0x1700
  clientIp : UInt32 := 0
  clientHost : MwString := none
  authUserId : MwString := none
  authPassword : MwString := none
  serverVerMajor : UInt32 := 0
  serverVerMinor : UInt32 := 0

/-- The functions of the client and of the services that the session calls,
other than `io_write` and `io_close`. -/
inductive Callback where
  | onStateChange (state : MwSessionState) (info : StateInfo)
  | onSetPrivacyInfo
  | onSetUserStatus
  | onAdmin (text : MwString)
  | onAnnounce (sender : MwLoginInfo) (mayReply : Bool) (text : MwString)
  | start (srvc : UInt32)
  | stop (srvc : UInt32)
  | recvCreate (srvc : UInt32) (chan : ChanRef) (msg : MwMsgChannelCreate)
  | recvAccept (srvc : UInt32) (chan : ChanRef) (msg : MwMsgChannelAccept)
  | recvDestroy (srvc : UInt32) (chan : ChanRef) (msg : MwMsgChannelDestroy)
  | recv (srvc : UInt32) (chan : ChanRef) (type : UInt16) (data : MwOpaque)
deriving DecidableEq

/-- What happens to one channel -/
inductive ChannelEvent where
  /-- The channel is new in its set. -/
  | born
  /-- The channel has changed its state. -/
  | state (state : MwChannelState)
  /-- A message of the channel is given to `mwSession_send`. -/
  | sends (msg : MwMessage)
  /-- A message of the server has come for the channel. -/
  | arrives (msg : MwMessage)

inductive Event where
  /-- A message given to `io_write`, whatever it returns. -/
  | write (msg : MwMessage)
  | keepalive
  | callback (c : Callback)
  /-- `io_close` -/
  | close
  /-- `mwSession_start` on a stopped session -/
  | start
  /-- The session has changed its state. -/
  | state (state : MwSessionState)
  /-- `mwSession_stop` has been called in a state. -/
  | stop (state : MwSessionState)
  /-- `session_process` hands a message to its handler in a state. -/
  | handle (type : MwMessageType) (state : MwSessionState)
  | send (call : SendCall)
  /-- The cipher of a channel has been decided on; `true` is that there is one. -/
  | select (chan : ChanRef) (cipher : Bool)
  | channel (chan : ChanRef) (e : ChannelEvent)

/-- `struct mwSession` -/
structure MwSession where
  handler : MwSessionHandler := {}
  state : MwSessionState := .stopped
  stateInfo : StateInfo := .code 0
  input : InputBuffer := {}
  login : MwLoginInfo := {}
  status : MwUserStatus := {}
  privacy : MwPrivacyInfo := {}
  channels : MwChannelSet := {}
  services : List MwService := []
  ciphers : List MwCipher := []
  attributes : Attributes := {}
  /-- The address that the next channel gets. -/
  nextAddr : Nat := 0
  trace : List Event := []
  fault : Bool := false
  /-- A channel has been used that is gone. -/
  dangling : Bool := false

/-- Code that works on a session. -/
abbrev Session := StateM MwSession

namespace Session

@[simp] theorem bind_apply {α β : Type} (x : Session α) (f : α → Session β) (s : MwSession) :
    (x >>= f) s = f (x s).1 (x s).2 := rfl

@[simp] theorem pure_apply {α : Type} (a : α) (s : MwSession) : (pure a : Session α) s = (a, s) :=
  rfl

@[simp] theorem map_apply {α β : Type} (f : α → β) (x : Session α) (s : MwSession) :
    (f <$> x) s = (f (x s).1, (x s).2) := rfl

@[simp] theorem get_apply (s : MwSession) : (get : Session MwSession) s = (s, s) := rfl

@[simp] theorem modify_apply (f : MwSession → MwSession) (s : MwSession) :
    (modify f : Session Unit) s = ((), f s) := rfl

/-- Reading the state first. Before `bind_apply`, so that no test depends on the
state through `get`. -/
@[simp high] theorem get_bind {β : Type} (f : MwSession → Session β) (s : MwSession) :
    (get >>= f) s = f s s := rfl

@[simp high] theorem modify_bind {β : Type} (g : MwSession → MwSession) (f : Unit → Session β)
    (s : MwSession) : (modify g >>= f) s = f () (g s) := rfl

@[simp] theorem discard_apply {α : Type} (x : Session α) (s : MwSession) :
    (discard x) s = ((), (x s).2) := rfl

@[simp] theorem ite_apply {α : Type} (p : Prop) [Decidable p] (x y : Session α) (s : MwSession) :
    (if p then x else y) s = if p then x s else y s := by
  split <;> rfl

end Session

/-- The session with one more event in its trace -/
def MwSession.log (s : MwSession) (e : Event) : MwSession := { s with trace := e :: s.trace }

/-- Record an event. -/
def record (e : Event) : Session Unit := modify (·.log e)

@[simp] theorem record_apply (e : Event) (s : MwSession) : record e s = ((), s.log e) := rfl

@[simp high] theorem record_bind {β : Type} (e : Event) (f : Unit → Session β) (s : MwSession) :
    (record e >>= f) s = f () (s.log e) := rfl

/-- The code uses what it must not use. -/
def fault : Session Unit := modify fun s => { s with fault := true }

/-- What the session depends on outside of itself. -/
structure Hooks where
  /-- `io_write`, with its return value -/
  ioWrite : List UInt8 → Session Int
  ioClose : Session Unit
  call : Callback → Session Unit
  uninit : Uninit
  /-- The end of a buffer that `mwEncryptExpanded` allocates -/
  fresh : MwSession → Block
  /-- `mwKeyRandom(key, 5)` -/
  keyRandom : MwSession → List UInt8
  /-- The private key that `mwMpi_randDHKeypair` draws -/
  randPrivateKey : MwSession → Nat

/-- Call a function of the client or of a service. -/
def callback (h : Hooks) (c : Callback) : Session Unit := do
  record (.callback c)
  h.call c

/-! ## Channel objects -/

namespace MwSession

/-- The channel that a pointer denotes, if it is still there. -/
def channel? (s : MwSession) (chan : ChanRef) : Option MwChannel :=
  match s.channels.map chan.id with
  | some c => if c.addr = chan.addr then some c else none
  | none => none

def setChannel (s : MwSession) (id : UInt32) (c : Option MwChannel) : MwSession :=
  { s with channels := { s.channels with map := Function.update s.channels.map id c } }

/-- `map_guint_lookup` in the services -/
def service? (s : MwSession) (type : UInt32) : Option MwService :=
  s.services.find? (·.type = type)

/-- `mwSession_getCipher` -/
def cipher? (s : MwSession) (id : UInt16) : Option MwCipher :=
  s.ciphers.find? (·.type.code = id)

end MwSession

/-- Look through a pointer. -/
def deref (chan : ChanRef) : Session (Option MwChannel) := do
  let s ← get
  match s.channel? chan with
  | some c => return some c
  | none =>
      modify fun s => { s with fault := true, dangling := true }
      return none

theorem deref_of_some {s : MwSession} {chan : ChanRef} {c : MwChannel}
    (hc : s.channel? chan = some c) : deref chan s = (some c, s) := by
  simp [deref, hc]

theorem deref_of_none {s : MwSession} {chan : ChanRef} (hc : s.channel? chan = none) :
    deref chan s = (none, { s with fault := true, dangling := true }) := by
  simp [deref, hc]

/-- Write through a pointer. -/
def updateChannel (chan : ChanRef) (f : MwChannel → MwChannel) : Session Unit := do
  match ← deref chan with
  | some c => modify (·.setChannel chan.id (some (f c)))
  | none => return

theorem updateChannel_of_some {s : MwSession} {chan : ChanRef} {c : MwChannel}
    (hc : s.channel? chan = some c) (f : MwChannel → MwChannel) :
    updateChannel chan f s = ((), s.setChannel chan.id (some (f c))) := by
  simp [updateChannel, deref_of_some hc]

theorem updateChannel_of_none {s : MwSession} {chan : ChanRef} (hc : s.channel? chan = none)
    (f : MwChannel → MwChannel) :
    updateChannel chan f s = ((), { s with fault := true, dangling := true }) := by
  simp [updateChannel, deref_of_none hc]

/-- Replace the cipher of a type by a later state of it. -/
def updateCipher (c : MwCipher) : Session Unit :=
  modify fun s =>
    { s with ciphers := s.ciphers.map fun c' => if c'.type = c.type then c else c' }

end Meanwhile
