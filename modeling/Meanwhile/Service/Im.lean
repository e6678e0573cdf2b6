-- SUMMARY: Conversations of srvc_im.c with their channels, from opening to closing and freeing.
import Meanwhile.Service
import Meanwhile.Common.Types
import Meanwhile.Lib.Keeps
import Meanwhile.Lib.State
import Mathlib.Logic.Function.Basic

/-!
# Instant messaging

An `ImSide` is the IM service of a session that has no other service, with the
conversations in memory and the channels in the channel set. A conversation is
known by its address. Addresses are never used again, so that a pointer to what
has been freed finds nothing, and the model goes on without it.

The handler of the client answers a callback with calls, which make callbacks in
turn, so the hooks are built up by nesting depth.

`frames` and `log` are not in the C structures. `frames` is the stack of the calls
under way that make callbacks, and `log` records what happens, the latest first.
-/

namespace Meanwhile.Im

/-! ## Data -/

/-- `mwService_IM` -/
def mwServiceIm : UInt32 := 0x00001000

/-- `PROTOCOL_TYPE` -/
def protocolType : UInt32 := 0x00001000

/-- `PROTOCOL_VER` -/
def protocolVer : UInt32 := 0x00000003

def mwImAddtlANormal : UInt32 := 0x00000001
def mwImAddtlBPreconf : UInt32 := 0x00000019
def mwImAddtlCNormal : UInt32 := 0x00000002

/-- `msg_MESSAGE` -/
def msgMessage : UInt16 := 0x0064

/-- `BREAKUP` -/
def breakup : Nat := 2048

/-! `enum mwImType` -/

def mwImText : UInt32 := 0x00000001
def mwImData : UInt32 := 0x00000002

/-! `enum mwImDataType` -/

def mwImDataTyping : UInt32 := 0x00000001
def mwImDataSubject : UInt32 := 0x00000003
def mwImDataHtml : UInt32 := 0x00000004
def mwImDataMime : UInt32 := 0x00000005
def mwImDataTimestamp : UInt32 := 0x00000006
def mwImDataInvite : UInt32 := 0x0000000a
def mwImDataMultiStart : UInt32 := 0x00001388
def mwImDataMultiStop : UInt32 := 0x00001389

/-! `enum mwImClientType` -/

def mwImClientPlain : UInt32 := 0x00000001
def mwImClientNotesbuddy : UInt32 := 0x00033453

def mwStatusBusy : UInt16 := 0x0080

def errClientUserDnd : UInt32 := 0x80002001
def errImNotRegistered : UInt32 := 0x80002005

/-- `enum mwImSendType` -/
inductive MwImSendType where
  | plain | typing | html | subject | mime | timestamp
deriving DecidableEq, Repr

/-- `enum mwConversationState` -/
inductive MwConversationState where
  | closed | pending | opened | unknown
deriving DecidableEq, Repr

/-- `struct mwConversation` -/
structure MwConversation where
  channel : Option ChanRef := none
  target : MwIdBlock
  extId : Bool := false
  state : MwConversationState := .closed
  features : UInt32
  multi : Option (List UInt8) := none
  multiType : MwImSendType := .plain

/-- A `CHANNEL_SEND` message of the service -/
abbrev Payload := UInt16 × MwOpaque

/-- `struct mwChannel` -/
structure ImLine where
  addr : Nat
  state : MwChannelState
  srvcData : Option Nat := none
  outgoing : List Payload := []
  incoming : List Payload := []

/-- What a client is told with a message -/
inductive ImContent where
  | text (s : MwString)
  | flag (typing : Bool)
deriving DecidableEq

/-- The functions of `struct mwImHandler` -/
inductive ImCallback where
  | opened (a : Nat)
  | closed (a : Nat) (reason : UInt32)
  | recv (a : Nat) (type : MwImSendType) (msg : ImContent)
  | placeInvite (a : Nat) (msg title name : MwString)
deriving DecidableEq

/-- A `CHANNEL_CREATE` message -/
structure ImCreate where
  channel : UInt32
  service : UInt32 := mwServiceIm
  protoType : UInt32 := protocolType
  protoVer : UInt32 := protocolVer
  /-- Who creates the channel -/
  creator : MwIdBlock
  addtl : MwOpaque

/-- What the library writes -/
inductive ImPacket where
  | create (chan : ChanRef) (target : MwIdBlock) (addtl : MwOpaque)
  | accept (chan : ChanRef) (addtl : MwOpaque)
  | send (chan : ChanRef) (msg : Payload)
  | destroy (chan : ChanRef) (reason : UInt32)

/-- A call that makes callbacks and goes on after them -/
inductive ImFrame where
  /-- `mwConversation_close` -/
  | closing (a : Nat)
  /-- `mwConversation_free` -/
  | freeing (a : Nat)
  /-- `convo_multi_stop` -/
  | delivering (a : Nat)
  /-- `mwChannel_recvDestroy` -/
  | destroying (chan : ChanRef)
deriving DecidableEq

inductive ImEvent where
  | callback (c : ImCallback)
  /-- A message on the channel of a conversation is given to the service. -/
  | given (a : Nat) (msg : Payload)
  /-- `mwChannel_create` is called for a conversation, and returns `ret`. It is -1 too when
  no id is left for a channel. -/
  | creating (a : Nat) (ret : Int)
  /-- A conversation in a state is to fall back on plain text. -/
  | fallback (a : Nat) (state : MwConversationState)
  /-- A conversation is closed, with what it has in `multi` and the calls under way. -/
  | closing (a : Nat) (multi : Option (List UInt8)) (frames : List ImFrame)
  /-- `conversation_closed` has returned, with the conversation in a state. -/
  | closed (a : Nat) (state : MwConversationState) (frames : List ImFrame)
deriving DecidableEq

/-- `struct mwServiceIm` with the memory, the channels and what the code reads of the
session. `ret` gives the return values of `io_write`. -/
structure ImSide where
  features : UInt32 := mwImClientPlain
  /-- Whether the handler has a `place_invite` -/
  placeInvite : Bool := false
  /-- Whether the status of the user is `mwStatus_BUSY` -/
  stat : MwUserStatus
  conv : Nat → Option MwConversation := fun _ => none
  /-- The list `convs` -/
  convs : List Nat := []
  nextConv : Nat := 0
  line : UInt32 → Option ImLine := fun _ => none
  counter : UInt32 := 0
  nextLine : Nat := 0
  ret : Nat → Int := fun _ => 0
  writes : Nat := 0
  /-- What has been written, in order -/
  wire : List ImPacket := []
  /-- The string that a caller passes, with what follows it in memory -/
  mem : List UInt8 := []
  /-- What `with_who` of `convo_invite` holds before it is read -/
  stack : UInt16 := 0
  frames : List ImFrame := []
  log : List ImEvent := []

abbrev ImM := StateM ImSide

/-- What the handler does -/
abbrev ImHooks := ImCallback → ImM Unit

def ImSide.logged (s : ImSide) (e : ImEvent) : ImSide := { s with log := e :: s.log }

def record (e : ImEvent) : ImM Unit := modify fun s => s.logged e

theorem record_apply (e : ImEvent) (s : ImSide) : record e s = ((), s.logged e) := rfl

/-- Call a function of the handler. -/
def callback (h : ImHooks) (c : ImCallback) : ImM Unit := do
  record (.callback c)
  h c

def ImSide.pushed (s : ImSide) (f : ImFrame) : ImSide := { s with frames := f :: s.frames }

def ImSide.popped (s : ImSide) : ImSide := { s with frames := s.frames.tail }

/-- Make the callbacks of a call that goes on after them. -/
def within (f : ImFrame) (x : ImM Unit) : ImM Unit := do
  modify fun s => s.pushed f
  x
  modify fun s => s.popped

theorem within_apply (f : ImFrame) (x : ImM Unit) (s : ImSide) :
    within f x s = ((), (x (s.pushed f)).2.popped) := rfl

def ImSide.setConv (s : ImSide) (a : Nat) (c : Option MwConversation) : ImSide :=
  { s with conv := Function.update s.conv a c }

@[simp] theorem setConv_conv_self (s : ImSide) (a : Nat) (c : Option MwConversation) :
    (s.setConv a c).conv a = c := Function.update_self ..

theorem setConv_conv_of_ne (s : ImSide) {a b : Nat} (h : b ≠ a) (c : Option MwConversation) :
    (s.setConv a c).conv b = s.conv b := Function.update_of_ne h _ _

def modifyConv (a : Nat) (f : MwConversation → MwConversation) : ImM Unit :=
  modify fun s => s.setConv a ((s.conv a).map f)

theorem modifyConv_of_some {s : ImSide} {a : Nat} {c : MwConversation} (hc : s.conv a = some c)
    (f : MwConversation → MwConversation) : modifyConv a f s = ((), s.setConv a (some (f c))) := by
  change ((), s.setConv a ((s.conv a).map f)) = _
  rw [hc]
  rfl

def ImSide.setLine (s : ImSide) (id : UInt32) (line : Option ImLine) : ImSide :=
  { s with line := Function.update s.line id line }

@[simp] theorem setLine_line_self (s : ImSide) (id : UInt32) (line : Option ImLine) :
    (s.setLine id line).line id = line := Function.update_self ..

theorem setLine_line_of_ne (s : ImSide) {id id' : UInt32} (h : id' ≠ id) (line : Option ImLine) :
    (s.setLine id line).line id' = s.line id' := Function.update_of_ne h _ _

/-- The channel that a pointer points to -/
def ImSide.line? (s : ImSide) (chan : ChanRef) : Option ImLine :=
  (s.line chan.id).filter (·.addr = chan.addr)

def modifyLine (chan : ChanRef) (f : ImLine → ImLine) : ImM Unit := do
  match (← get).line? chan with
  | none => return
  | some line => modify fun s => s.setLine chan.id (some (f line))

/-! ## Channels -/

def ImSide.written (s : ImSide) (p : ImPacket) : ImSide :=
  { s with
    writes := s.writes + 1, wire := if s.ret s.writes = 0 then s.wire ++ [p] else s.wire }

/-- `mwSession_send` -/
def write (p : ImPacket) : ImM Int := do
  let s ← get
  set (s.written p)
  return s.ret s.writes

theorem write_apply (p : ImPacket) (s : ImSide) : write p s = (s.ret s.writes, s.written p) := rfl

/-- `mwChannel_newIncoming`. The map frees a channel that had the id before. -/
def mwChannelNewIncoming (id : UInt32) : ImM ChanRef := do
  let addr := (← get).nextLine
  modify fun s =>
    { s.setLine id (some { addr := addr, state := .wait }) with nextLine := addr + 1 }
  return ⟨id, addr⟩

/-- `mwChannel_newOutgoing` -/
def mwChannelNewOutgoing : ImM (Option ChanRef) := do
  let s ← get
  let used := fun id => (s.line id).map fun line => { addr := line.addr : MwChannel }
  match nextOutgoingId used (2 ^ 32) s.counter with
  | none => return none
  | some id =>
      modify fun s => { s with counter := id }
      let chan ← mwChannelNewIncoming id
      modifyLine chan fun line => { line with state := .init }
      return some chan

/-- `mwChannel_create`, of a new outgoing channel -/
def mwChannelCreate (chan : ChanRef) (target : MwIdBlock) (addtl : MwOpaque) : ImM Int := do
  if mwChannelIdIsOutgoing chan.id then
    let ret ← write (.create chan target addtl)
    modifyLine chan fun line => { line with state := if ret ≠ 0 then .error else .wait }
    return ret
  else return -1

/-- `mwChannel_destroy` -/
def mwChannelDestroy (chan : ChanRef) (reason : UInt32) : ImM Int := do
  match (← get).line? chan with
  | none => return -1
  | some _ =>
      modify fun s => s.setLine chan.id none
      write (.destroy chan reason)

/-- `mwChannel_sendEncrypted`, whatever the cipher -/
def mwChannelSendEncrypted (chan : ChanRef) (msg : Payload) : ImM Int := do
  match (← get).line? chan with
  | none => return -1
  | some line =>
      if line.state = .opened then write (.send chan msg)
      else
        modifyLine chan fun line => { line with outgoing := line.outgoing ++ [msg] }
        return 0

/-- `mwChannel_getServiceData`, for a conversation that is still there -/
def mwChannelGetServiceData (chan : ChanRef) : ImM (Option Nat) := do
  let s ← get
  match s.line? chan with
  | none => return none
  | some line => return line.srvcData.filter fun a => (s.conv a).isSome

/-! ## Conversations -/

/-- `convo_set_state` -/
def convoSetState (a : Nat) (state : MwConversationState) : ImM Unit :=
  modifyConv a fun c => { c with state := state }

/-- `convo_find_by_user` -/
def convoFindByUser (s : ImSide) (target : MwIdBlock) : Option Nat :=
  s.convs.find? fun a => (s.conv a).any (·.target = target)

/-- The service with a new conversation -/
def ImSide.withConv (s : ImSide) (c : MwConversation) : ImSide :=
  { s.setConv s.nextConv (some c) with
    convs := s.nextConv :: s.convs, nextConv := s.nextConv + 1 }

/-- `mwServiceIm_getConversation` -/
def mwServiceImGetConversation (target : MwIdBlock) : ImM Nat := do
  let s ← get
  match convoFindByUser s target with
  | some a => return a
  | none =>
      set (s.withConv { target := target, features := s.features })
      return s.nextConv

/-- `convo_create_chan` -/
def convoCreateChan (a : Nat) : ImM Unit := do
  match (← get).conv a with
  | none => return
  | some c =>
      if c.state ≠ .pending ∨ c.channel ≠ none then return
      match ← mwChannelNewOutgoing with
      | none => record (.creating a (-1))
      | some chan =>
          let addtl := guint32Put mwImAddtlANormal ++ guint32Put c.features
          let ret ← mwChannelCreate chan c.target addtl
          record (.creating a ret)
          if ret = 0 then
            modifyConv a fun c => { c with channel := some chan }
            modifyLine chan fun line => { line with srvcData := some a }

/-- `mwConversation_open` -/
def mwConversationOpen (a : Nat) : ImM Unit := do
  match (← get).conv a with
  | none => return
  | some c =>
      if c.state ≠ .closed then return
      convoSetState a .pending
      convoCreateChan a

/-- `convo_free` -/
def convoFree (a : Nat) : ImM Unit :=
  modify fun s => { s.setConv a none with convs := s.convs.filter (· ≠ a) }

/-- The `mwUserStatus` of the session is put after the constants. -/
def acceptAddtl (c : MwConversation) (stat : MwUserStatus) : MwOpaque :=
  guint32Put mwImAddtlANormal ++ guint32Put c.features ++ guint32Put mwImAddtlCNormal ++
    mwUserStatusPut stat

section

variable (h : ImHooks)

/-- `convo_opened` -/
def convoOpened (a : Nat) : ImM Unit := do
  convoSetState a .opened
  callback h (.opened a)

/-- What `mwConversation_close` does after the callback -/
def dropChannel (a : Nat) (reason : UInt32) : ImM Unit := do
  match (← get).conv a with
  | none => return
  | some c =>
      record (.closed a c.state (← get).frames)
      match c.channel with
      | none => return
      | some chan =>
          discard (mwChannelDestroy chan reason)
          modifyConv a fun c => { c with channel := none }

/-- `mwConversation_close` -/
def mwConversationClose (a : Nat) (reason : UInt32) : ImM Unit := do
  match (← get).conv a with
  | none => return
  | some c =>
      record (.closing a c.multi (← get).frames)
      convoSetState a .closed
      within (.closing a) (callback h (.closed a reason))
      dropChannel a reason

/-- `mwConversation_free` -/
def mwConversationFree (a : Nat) : ImM Unit := do
  match (← get).conv a with
  | none => return
  | some c =>
      within (.freeing a) (if c.state ≠ .closed then mwConversationClose h a 0 else pure ())
      convoFree a

/-! ## Receiving messages -/

/-- `convo_recv` -/
def convoRecv (a : Nat) (type : MwImSendType) (msg : ImContent) : ImM Unit :=
  callback h (.recv a type msg)

/-- `convo_multi_start` -/
def convoMultiStart (a : Nat) : ImM Unit :=
  modifyConv a fun c => if c.multi = none then { c with multi := some [] } else c

/-- `convo_multi_stop` -/
def convoMultiStop (a : Nat) : ImM Unit := do
  match (← get).conv a with
  | none => return
  | some c =>
      match c.multi with
      | none => return
      | some str =>
          within (.delivering a)
            (convoRecv h a c.multiType (.text (some (CString.ofBytes str))))
          modifyConv a fun c => { c with multi := none }

/-- `recv_text` -/
def recvText (chan : ChanRef) (b : GetBuffer) : ImM Unit := do
  match (mwStringGet b).1 with
  | none => return
  | some text =>
      match ← mwChannelGetServiceData chan with
      | none => return
      | some a =>
          match (← get).conv a with
          | none => return
          | some c =>
              match c.multi with
              | some str => modifyConv a fun c => { c with multi := some (str ++ text.val) }
              | none => convoRecv h a .plain (.text (some text))

/-- What `convo_invite` reads: the texts for the client, and a target where the
conversation has none. -/
def inviteGet (stack : UInt16) (target : MwIdBlock) :
    Get ((MwString × MwString × MwString) × MwIdBlock) := do
  mwGetBufferAdvance 4
  let title ← mwStringGet
  let msg ← mwStringGet
  mwGetBufferAdvance 19
  let name ← mwStringGet
  let _ ← mwStringGet
  let _ ← mwStringGet
  let withWho ← guint16Get stack
  if withWho ≠ 0 ∧ target.user = none then
    let user ← mwStringGet
    let _ ← mwStringGet
    let community ← mwStringGet
    return ((msg, title, name), { user := user, community := community })
  else return ((msg, title, name), target)

/-- `convo_invite` -/
def convoInvite (a : Nat) (o : MwOpaque) : ImM Unit := do
  let s ← get
  match s.conv a with
  | none => return
  | some c =>
      if s.placeInvite = false then return
      let (((msg, title, name), target), b) := inviteGet s.stack c.target (.wrapOpaque o)
      modifyConv a fun c => { c with target := target }
      if b.error then return
      callback h (.placeInvite a msg title name)

/-- `g_strndup` of an opaque, whose data are `NULL` when it is empty -/
def strndup (o : MwOpaque) : MwString := if o = [] then none else some (CString.ofBytes o)

/-- The cases `mwImData_HTML` and `mwImData_MIME` of `recv_data` -/
def recvLong (a : Nat) (type : MwImSendType) (o : MwOpaque) : ImM Unit := do
  match (← get).conv a with
  | none => return
  | some c =>
      match c.multi with
      | some str => modifyConv a fun c => { c with multi := some (str ++ o), multiType := type }
      | none => convoRecv h a type (.text (strndup o))

/-- The switch of `recv_data` -/
def recvDataFor (a : Nat) (type subtype : UInt32) (o : MwOpaque) : ImM Unit :=
  if type = mwImDataTyping then convoRecv h a .typing (.flag (subtype = 0))
  else if type = mwImDataHtml then if o ≠ [] then recvLong h a .html o else pure ()
  else if type = mwImDataSubject then convoRecv h a .subject (.text (strndup o))
  else if type = mwImDataMime then recvLong h a .mime o
  else if type = mwImDataTimestamp then pure ()
  else if type = mwImDataInvite then convoInvite h a o
  else if type = mwImDataMultiStart then convoMultiStart a
  else if type = mwImDataMultiStop then convoMultiStop h a
  else pure ()

/-- `recv_data` -/
def recvData (chan : ChanRef) (b : GetBuffer) : ImM Unit := do
  let parsed : Get (UInt32 × UInt32 × MwOpaque) := do
    let type ← guint32Get 0
    let subtype ← guint32Get 0
    let o ← mwOpaqueGet
    return (type, subtype, o)
  let ((type, subtype, o), b) := parsed b
  if b.error then return
  match ← mwChannelGetServiceData chan with
  | none => return
  | some a => recvDataFor h a type subtype o

/-- `recv` -/
def recv (chan : ChanRef) (msg : Payload) : ImM Unit := do
  match ← mwChannelGetServiceData chan with
  | none => pure ()
  | some a => record (.given a msg)
  if msg.1 ≠ msgMessage then return
  let (mt, b) := guint32Get 0 (.wrapOpaque msg.2)
  if b.error then return
  if mt = mwImText then recvText h chan b
  else if mt = mwImData then recvData h chan b
  else return

/-! ## Channels of conversations -/

/-- `flush_channel` -/
def flushChannel (chan : ChanRef) : ImM Unit := do
  match (← get).line? chan with
  | none => return
  | some line =>
      line.incoming.forM (recv h chan)
      modifyLine chan fun line => { line with incoming := [] }
      match (← get).line? chan with
      | none => return
      | some line =>
          line.outgoing.forM fun msg => discard (write (.send chan msg))
          modifyLine chan fun line => { line with outgoing := [] }

/-- `send_accept`, with `mwChannel_accept` for a channel that is waiting -/
def sendAccept (c : MwConversation) (chan : ChanRef) : ImM Int := do
  let ret ← write (.accept chan (acceptAddtl c (← get).stat))
  if ret ≠ 0 then modifyLine chan fun line => { line with state := .error }
  else
    modifyLine chan fun line => { line with state := .opened }
    flushChannel h chan
  return ret

/-- What `recv_channelCreate` reads of the additional data -/
def createGet : Get (UInt32 × UInt32) := do
  let x ← guint32Get 0
  let y ← guint32Get 0
  return (x, y)

/-- Why `recv_channelCreate` refuses a channel, if it does -/
def refusal (s : ImSide) (msg : ImCreate) : Option UInt32 :=
  let ((x, y), b) := createGet (.wrapOpaque msg.addtl)
  if msg.service ≠ mwServiceIm ∨ msg.protoType ≠ protocolType ∨ msg.protoVer ≠ protocolVer then
    some errServiceNoSupport
  else if b.error then some errFailure
  else if x ≠ mwImAddtlANormal then some errImNotRegistered
  else if y = mwImAddtlBPreconf then
    if s.placeInvite = false then some errImNotRegistered else none
  else if y ≠ mwImClientPlain ∧ y ≠ s.features then some errImNotRegistered
  else if s.stat.status = mwStatusBusy then some errClientUserDnd
  else none

/-- `recv_channelCreate` -/
def recvChannelCreate (chan : ChanRef) (msg : ImCreate) : ImM Unit := do
  let s ← get
  match refusal s msg with
  | some reason => discard (mwChannelDestroy chan reason)
  | none =>
      let c : MwConversation :=
        { channel := some chan, target := msg.creator, state := .pending,
          features := (createGet (.wrapOpaque msg.addtl)).1.2 }
      set (s.withConv c)
      modifyLine chan fun line => { line with srvcData := some s.nextConv }
      if (← sendAccept h c chan) ≠ 0 then mwConversationFree h s.nextConv
      else convoOpened h s.nextConv

/-- `recv_channelAccept` -/
def recvChannelAccept (chan : ChanRef) : ImM Unit := do
  match ← mwChannelGetServiceData chan with
  | none => discard (mwChannelDestroy chan errFailure)
  | some a => convoOpened h a

/-- `recv_channelDestroy`, with the channel in a state -/
def recvChannelDestroy (chan : ChanRef) (state : MwChannelState) (reason : UInt32) :
    ImM Unit := do
  match ← mwChannelGetServiceData chan with
  | none => return
  | some a =>
      match (← get).conv a with
      | none => return
      | some c =>
          modifyConv a fun c => { c with channel := none }
          if state = .error ∧ c.features ≠ mwImClientPlain ∧
              (reason = errImNotRegistered ∨ reason = errServiceNoSupport) then
            record (.fallback a c.state)
            modifyConv a fun c => { c with features := mwImClientPlain }
            convoCreateChan a
          else mwConversationClose h a reason

/-! ## Messages of the server -/

/-- `mwChannel_recvCreate`, on the new channel that the session has made for it -/
def onCreate (msg : ImCreate) : ImM Unit := do
  let chan ← mwChannelNewIncoming msg.channel
  if mwChannelIdIsOutgoing msg.channel then discard (mwChannelDestroy chan errRequestInvalid)
  else if msg.service ≠ mwServiceIm then discard (mwChannelDestroy chan errServiceNoSupport)
  else recvChannelCreate h chan msg

/-- `mwChannel_recvAccept`. `offered` says whether the cipher that the message names
has been offered, which is so too when it names none. -/
def onAccept (id : UInt32) (offered : Bool) : ImM Unit := do
  match (← get).line id with
  | none => return
  | some line =>
      let chan : ChanRef := ⟨id, line.addr⟩
      if mwChannelIdIsIncoming id ∨ line.state ≠ .wait ∨ offered = false then
        discard (mwChannelDestroy chan errRequestInvalid)
      else
        modifyLine chan fun line => { line with state := .opened }
        recvChannelAccept h chan
        match (← get).line? chan with
        | none => return
        | some line => if line.state = .opened then flushChannel h chan else return

/-- `mwChannel_recv` -/
def onSend (id : UInt32) (msg : Payload) : ImM Unit := do
  match (← get).line id with
  | none => return
  | some line =>
      let chan : ChanRef := ⟨id, line.addr⟩
      if line.state = .opened then recv h chan msg
      else modifyLine chan fun line => { line with incoming := line.incoming ++ [msg] }

/-- `mwChannel_recvDestroy` -/
def onDestroy (id : UInt32) (reason : UInt32) : ImM Unit := do
  match (← get).line id with
  | none => return
  | some line =>
      let chan : ChanRef := ⟨id, line.addr⟩
      let state := if reason ≠ 0 then .error else .destroy
      modifyLine chan fun line => { line with state := state }
      within (.destroying chan) (recvChannelDestroy h chan state reason)
      modify fun s => s.setLine id none

end

/-! ## Sending messages -/

/-- `strlen` of the string at an offset -/
def strlen (p : Nat) : ImM Nat := do
  return (((← get).mem.drop p).takeWhile (· ≠ 0)).length

def readMem (p : Nat) : ImM UInt8 := return (← get).mem.getD p 0

def writeMem (p : Nat) (byte : UInt8) : ImM Unit :=
  modify fun s => { s with mem := s.mem.set p byte }

/-- `convo_send_data` -/
def convoSendData (a : Nat) (type subtype : UInt32) (data : MwOpaque) : ImM Int := do
  match ((← get).conv a).bind (·.channel) with
  | none => return -1
  | some chan =>
      mwChannelSendEncrypted chan
        (msgMessage,
          guint32Put mwImData ++ guint32Put type ++ guint32Put subtype ++ mwOpaquePut data)

/-- `convo_send_multi_start` -/
def convoSendMultiStart (a : Nat) : ImM Int := convoSendData a mwImDataMultiStart 0 []

/-- `convo_send_multi_stop` -/
def convoSendMultiStop (a : Nat) : ImM Int := convoSendData a mwImDataMultiStop 0 []

/-- The loop of `convo_sendSegmented` -/
def sendSegments (send : Nat → ImM Int) (p len : Nat) (ret : Int) : ImM Int := do
  if len = 0 ∨ ret ≠ 0 then return ret
  else
    let seg := if len < breakup then len else breakup
    -- temporarily NUL-terminate this segment
    let tail ← readMem (p + seg)
    writeMem (p + seg) 0
    let ret ← send p
    writeMem (p + seg) tail
    sendSegments send (p + seg) (len - seg) ret
termination_by len
decreasing_by
  rename_i hlen
  have hbreakup : breakup = 2048 := rfl
  split <;> omega

/-- `convo_sendSegmented` -/
def convoSendSegmented (a p : Nat) (send : Nat → ImM Int) : ImM Int := do
  let len ← strlen p
  let ret ← convoSendMultiStart a
  let ret ← sendSegments send p len ret
  if ret = 0 then convoSendMultiStop a else return ret

/-- `convo_sendText` -/
def convoSendText (a p : Nat) : ImM Int := do
  let s ← get
  match (s.conv a).bind (·.channel) with
  | none => return -1
  | some chan =>
      mwChannelSendEncrypted chan
        (msgMessage, guint32Put mwImText ++ mwStringPut (some (CString.ofBytes (s.mem.drop p))))

/-- `convo_sendTyping` -/
def convoSendTyping (a : Nat) (typing : Bool) : ImM Int :=
  convoSendData a mwImDataTyping (if typing then 0 else 1) []

/-- `convo_sendSubject` -/
def convoSendSubject (a p : Nat) : ImM Int := do
  let len ← strlen p
  convoSendData a mwImDataSubject 0 (((← get).mem.drop p).take len)

/-- What `convo_sendHtml` and `convo_sendMime` do. They call themselves for each segment
of a long message, at most to a depth. -/
def convoSendLong (a : Nat) (type : UInt32) : Nat → Nat → ImM Int
  | 0, _ => return -1
  | depth + 1, p => do
      let len ← strlen p
      if len > breakup then convoSendSegmented a p (convoSendLong a type depth)
      else convoSendData a type 0 (((← get).mem.drop p).take len)

/-- `convo_sendHtml` -/
def convoSendHtml (a : Nat) (depth p : Nat) : ImM Int := convoSendLong a mwImDataHtml depth p

/-- `convo_sendMime` -/
def convoSendMime (a : Nat) (depth p : Nat) : ImM Int := convoSendLong a mwImDataMime depth p

/-- `mwConversation_send`. A text lies at the start of `mem`. -/
def mwConversationSend (a : Nat) (depth : Nat) (type : MwImSendType) (typing : Bool) :
    ImM Int := do
  match (← get).conv a with
  | none => return -1
  | some c =>
      if c.state ≠ .opened ∨ c.channel = none then return -1
      match type with
      | .plain => convoSendText a 0
      | .typing => convoSendTyping a typing
      | .subject => convoSendSubject a 0
      | .html => convoSendHtml a depth 0
      | .mime => convoSendMime a depth 0
      | .timestamp => return -1

/-! ## Calls and runs -/

/-- What a client may call -/
inductive ImCall where
  | getConversation (target : MwIdBlock)
  | setClientType (type : UInt32)
  | setUserStatus (stat : MwUserStatus)
  | open_ (a : Nat)
  | close (a : Nat) (reason : UInt32)
  | free (a : Nat)
  | send (a : Nat) (type : MwImSendType) (typing : Bool) (text : CString)

/-- How deep `convo_sendHtml` and `convo_sendMime` may call themselves -/
def sendDepth : Nat := 2

def runCall (h : ImHooks) : ImCall → ImM Unit
  | .getConversation target => discard (mwServiceImGetConversation target)
  | .setClientType type => modify fun s => { s with features := type }
  | .setUserStatus stat => modify fun s => { s with stat := stat }
  | .open_ a => mwConversationOpen a
  | .close a reason => mwConversationClose h a reason
  | .free a => mwConversationFree h a
  | .send a type typing text => do
      modify fun s => { s with mem := text.val ++ [0] }
      discard (mwConversationSend a sendDepth type typing)

/-- A handler, by the calls it makes in its functions -/
abbrev ImClient := ImCallback → ImSide → List ImCall

/-- The hooks of a handler whose callbacks nest at most to a depth -/
def hooks (client : ImClient) : Nat → ImHooks
  | 0 => fun _ => pure ()
  | n + 1 => fun c => do (client c (← get)).forM (runCall (hooks client n))

/-- What reaches the service: calls, and messages of the server -/
inductive ImInput where
  | call (c : ImCall)
  | create (msg : ImCreate)
  | accept (id : UInt32) (offered : Bool)
  | send (id : UInt32) (msg : Payload)
  | destroy (id : UInt32) (reason : UInt32)

def input (h : ImHooks) : ImInput → ImM Unit
  | .call c => runCall h c
  | .create msg => onCreate h msg
  | .accept id offered => onAccept h id offered
  | .send id msg => onSend h id msg
  | .destroy id reason => onDestroy h id reason

/-- A run of the service, from `mwServiceIm_new` -/
def run (h : ImHooks) (start : ImSide) (inputs : List ImInput) : ImSide :=
  (inputs.forM (input h) start).2

end Meanwhile.Im
