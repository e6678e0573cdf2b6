-- SUMMARY: All services of a session over one set of channels, with everything in them that refers to a channel.
import Meanwhile.Service.Opening

/-!
# References to channels

A `RefSide` is a session with its eight services, as far as they make, take, destroy and
refer to channels. Conversations, file transfers, places and conferences each have a
field for a channel, and four of the services have one themselves. The fields are kept
together, in one map from their holders, so that one statement covers them all.

A channel or an object is known by its address. Addresses are never used again, so that
a pointer to what has been freed finds nothing, and the model goes on without it.

What the library sends on a channel is left out, apart from whether a write succeeds. So
is what the services read from messages, unless it matters to a channel. Whatever a
message makes a service call of its handler is one callback, `message`. The functions
with which a client cleans up its data make no calls.

A session starts and stops its services one after another. Both are calls here.
-/

namespace Meanwhile

/-- The services of the library -/
inductive ServiceKind where
  | aware | im | conference | place | fileTransfer | storage | resolve | directory
deriving DecidableEq

namespace Refs

open Im (MwConversationState ImCreate)
open Ft (MwFileTransferState)
open Opening (MwConferenceState)

/-! ## Data -/

/-- What has a field for a channel -/
inductive Holder where
  | conversation (a : Nat)
  | transfer (a : Nat)
  | place (a : Nat)
  | conference (a : Nat)
  | aware | storage | resolve | directory
deriving DecidableEq

namespace Holder

/-- The service that a holder belongs to, or is -/
def kind : Holder → ServiceKind
  | conversation _ => .im
  | transfer _ => .fileTransfer
  | place _ => .place
  | conference _ => .conference
  | aware => .aware
  | storage => .storage
  | resolve => .resolve
  | directory => .directory

/-- The channels of the holder have it as their service data. -/
def tagged : Holder → Bool
  | conversation _ | transfer _ | place _ => true
  | _ => false

/-- The holder is a service. -/
def isService : Holder → Bool
  | aware | storage | resolve | directory => true
  | _ => false

/-- The address of an object -/
def object? : Holder → Option Nat
  | conversation a | transfer a | place a | conference a => some a
  | _ => none

end Holder

/-- The type of a service -/
def serviceType : ServiceKind → UInt32
  | .aware => 0x00000011
  | .im => Im.mwServiceIm
  | .conference => 0x80000010
  | .place => 0x80000022
  | .fileTransfer => 0x00000038
  | .storage => 0x00000018
  | .resolve => 0x00000015
  | .directory => 0x0000001a

/-- The service of a type -/
def serviceKind? (type : UInt32) : Option ServiceKind :=
  [.aware, .im, .conference, .place, .fileTransfer, .storage, .resolve, .directory].find?
    fun k => serviceType k = type

/-- `struct mwConversation`, `struct mwFileTransfer`, `struct mwPlace` and
`struct mwConference`, less their channels -/
inductive Object where
  | conversation (target : MwIdBlock) (state : MwConversationState) (features : UInt32)
  | transfer (state : MwFileTransferState) (remaining : UInt32)
  | place
  | conference (state : MwConferenceState)

/-- The service whose object it is -/
def Object.kind : Object → ServiceKind
  | conversation .. => .im
  | transfer .. => .fileTransfer
  | place => .place
  | conference _ => .conference

/-- A `CHANNEL_SEND` message -/
abbrev Payload := UInt16 × MwOpaque

/-- `struct mwChannel` -/
structure RefLine where
  addr : Nat
  state : MwChannelState
  service : Option ServiceKind := none
  srvcData : Option Holder := none
  incoming : List Payload := []
  /-- The holder that the channel was made for or handed to. It is not in the C structure. -/
  owner : Option Holder := none

/-- A call of `mwService_stop` or `mwService_error` that has returned, with the state of the service
and the channels that it found and that it left -/
structure Stop where
  kind : ServiceKind
  found : MwServiceState
  lineFound : UInt32 → Option RefLine
  state : MwServiceState
  line : UInt32 → Option RefLine

/-- A session with its services. `ret` gives the return values of `io_write`. -/
structure RefSide where
  line : UInt32 → Option RefLine := fun _ => none
  counter : UInt32 := 0
  nextLine : Nat := 0
  /-- The fields for channels -/
  channel : Holder → Option ChanRef := fun _ => none
  object : Nat → Option Object := fun _ => none
  nextObject : Nat := 0
  /-- The lists `convs`, `transfers`, `places` and `confs` -/
  objects : ServiceKind → List Nat := fun _ => []
  state : ServiceKind → MwServiceState := fun _ => .stopped
  /-- Whether a service is in the session -/
  installed : ServiceKind → Bool := fun _ => true
  features : UInt32 := Im.mwImClientPlain
  /-- Whether the handler of conversations has a `place_invite` -/
  placeInvite : Bool := false
  stat : MwUserStatus := {}
  ret : Nat → Int := fun _ => 0
  writes : Nat := 0
  /-- A client has opened a place that had a channel, or freed a closed conversation that still had
  one. This and the next are not in the C structures. -/
  slipped : Bool := false
  stops : List Stop := []

abbrev RefM := StateM RefSide

/-- What a client is told -/
inductive RefCallback where
  | opened (a : Nat)
  | closed (a : Nat) (reason : UInt32)
  | offered (a : Nat)
  /-- All that a message on the channel of a holder makes its service tell -/
  | message (x : Holder) (msg : Payload)

/-- What the handlers do -/
abbrev RefHooks := RefCallback → RefM Unit

namespace RefSide

variable (s : RefSide)

def setLine (id : UInt32) (line : Option RefLine) : RefSide :=
  { s with line := Function.update s.line id line }

def setChannel (x : Holder) (chan : Option ChanRef) : RefSide :=
  { s with channel := Function.update s.channel x chan }

def setObject (a : Nat) (o : Option Object) : RefSide :=
  { s with object := Function.update s.object a o }

def setState (k : ServiceKind) (state : MwServiceState) : RefSide :=
  { s with state := Function.update s.state k state }

/-- The channel that a pointer points to -/
def line? (chan : ChanRef) : Option RefLine := (s.line chan.id).filter (·.addr = chan.addr)

/-- The service with a new object, whose field for a channel is empty -/
def withObject (x : Nat → Holder) (o : Object) : RefSide :=
  let a := s.nextObject
  { (s.setObject a (some o)).setChannel (x a) none with
    nextObject := a + 1
    objects := Function.update s.objects (x a).kind (a :: s.objects (x a).kind) }

/-- The service without an object -/
def withoutObject (x : Nat → Holder) (a : Nat) : RefSide :=
  { (s.setObject a none).setChannel (x a) none with
    objects := Function.update s.objects (x a).kind ((s.objects (x a).kind).filter (· ≠ a)) }

end RefSide

def modifyLine (chan : ChanRef) (f : RefLine → RefLine) : RefM Unit := do
  match (← get).line? chan with
  | none => return
  | some line => modify fun s => s.setLine chan.id (some (f line))

def modifyObject (a : Nat) (f : Object → Object) : RefM Unit :=
  modify fun s => s.setObject a ((s.object a).map f)

def addObject (x : Nat → Holder) (o : Object) : RefM Nat := do
  let s ← get
  set (s.withObject x o)
  return s.nextObject

def freeObject (x : Nat → Holder) (a : Nat) : RefM Unit := do
  let s ← get
  if (s.object a).any (·.kind = (x a).kind) then set (s.withoutObject x a)

/-- A client has done what leaves the channel of a holder alone. -/
def slip (b : Bool) : RefM Unit := modify fun s => { s with slipped := s.slipped || b }

/-! ## Channels -/

/-- `mwSession_send` -/
def write : RefM Int := do
  let s ← get
  set { s with writes := s.writes + 1 }
  return s.ret s.writes

/-- `mwSession_senseService` in a session that is up -/
def mwSessionSenseService : RefM Unit := discard write

/-- `mwChannel_newIncoming`. The map frees a channel that had the id before. -/
def mwChannelNewIncoming (id : UInt32) : RefM ChanRef := do
  let addr := (← get).nextLine
  modify fun s =>
    { s.setLine id (some { addr := addr, state := .wait }) with nextLine := addr + 1 }
  return ⟨id, addr⟩

/-- `mwChannel_newOutgoing` for a holder, and `mwChannel_setService` -/
def mwChannelNewOutgoing (x : Holder) : RefM (Option ChanRef) := do
  let s ← get
  let used := fun id => (s.line id).map fun line => { addr := line.addr : MwChannel }
  match nextOutgoingId used (2 ^ 32) s.counter with
  | none => return none
  | some id =>
      modify fun s => { s with counter := id }
      let chan ← mwChannelNewIncoming id
      modifyLine chan fun line =>
        { line with state := .init, service := some x.kind, owner := some x }
      return some chan

/-- `mwChannel_create`, of a new outgoing channel -/
def mwChannelCreate (chan : ChanRef) : RefM Int := do
  if mwChannelIdIsOutgoing chan.id then
    let ret ← write
    modifyLine chan fun line => { line with state := if ret ≠ 0 then .error else .wait }
    return ret
  else return -1

/-- `mwChannel_destroy` -/
def mwChannelDestroy (chan : ChanRef) : RefM Int := do
  match (← get).line? chan with
  | none => return -1
  | some _ =>
      modify fun s => s.setLine chan.id none
      write

/-- `mwChannel_send` -/
def mwChannelSend (chan : ChanRef) : RefM Int := do
  match (← get).line? chan with
  | none => return -1
  | some line => if line.state = .opened then write else return 0

/-- What `make_blist`, `make_channel`, `convo_create_chan`, `ft_create_chan`, `mwPlace_open`
and `mwConference_open` have in common: a new channel that the holder keeps if it could be
created. It returns what `mwChannel_create` does, and nothing where no id is left. -/
def openChannel (x : Holder) : RefM (Option Int) := do
  match ← mwChannelNewOutgoing x with
  | none => return none
  | some chan =>
      let ret ← mwChannelCreate chan
      if ret = 0 then
        modify fun s => s.setChannel x (some chan)
        if x.tagged then modifyLine chan fun line => { line with srvcData := some x }
      return some ret

/-- A holder takes the channel that its service is offered. -/
def takeChannel (x : Holder) (chan : ChanRef) : RefM Unit := do
  modify fun s => s.setChannel x (some chan)
  modifyLine chan fun line =>
    { line with owner := some x, srvcData := if x.tagged then some x else line.srvcData }

/-- The channel of a holder that has one is destroyed, and the holder forgets it. -/
def closeChannel (x : Holder) : RefM Int := do
  match (← get).channel x with
  | none => return 0
  | some chan =>
      let ret ← mwChannelDestroy chan
      modify fun s => s.setChannel x none
      return ret

/-! ## Services with one channel -/

/-- `mwService_started` -/
def mwServiceStarted (k : ServiceKind) : RefM Unit := modify fun s => s.setState k .started

/-- `mwService_stopped` -/
def mwServiceStopped (k : ServiceKind) : RefM Unit := modify fun s => s.setState k .stopped

/-- The `start` of a service with one channel -/
def startChannel (x : Holder) : RefM Unit := do
  match ← openChannel x with
  | none => return
  | some ret => if ret ≠ 0 then mwServiceStopped x.kind

/-- The `stop` of a service with one channel -/
def stopChannel (x : Holder) : RefM Unit := do
  discard (closeChannel x)
  mwServiceStopped x.kind

def awareStart : RefM Unit := startChannel .aware
def storageStart : RefM Unit := startChannel .storage
def resolveStart : RefM Unit := startChannel .resolve
def directoryStart : RefM Unit := startChannel .directory

def awareStop : RefM Unit := stopChannel .aware
def storageStop : RefM Unit := stopChannel .storage
def resolveStop : RefM Unit := stopChannel .resolve

/-- `stop` of srvc_dir.c, which does not call `mwService_stopped` -/
def directoryStop : RefM Unit := discard (closeChannel .directory)

/-! ## Conversations -/

/-- `convo_set_state` -/
def convoSetState (a : Nat) (state : MwConversationState) : RefM Unit :=
  modifyObject a fun
    | .conversation target _ features => .conversation target state features
    | o => o

def convoSetFeatures (a : Nat) (features : UInt32) : RefM Unit :=
  modifyObject a fun
    | .conversation target state _ => .conversation target state features
    | o => o

/-- `convo_find_by_user` -/
def convoFindByUser (s : RefSide) (target : MwIdBlock) : Option Nat :=
  (s.objects .im).find? fun a =>
    match s.object a with
    | some (.conversation target' _ _) => target' = target
    | _ => false

/-- `mwServiceIm_getConversation` -/
def mwServiceImGetConversation (target : MwIdBlock) : RefM Nat := do
  let s ← get
  match convoFindByUser s target with
  | some a => return a
  | none => addObject .conversation (.conversation target .closed s.features)

/-- `convo_create_chan` -/
def convoCreateChan (a : Nat) : RefM Unit := do
  let s ← get
  match s.object a with
  | some (.conversation _ state _) =>
      if state ≠ .pending ∨ s.channel (.conversation a) ≠ none then return
      discard (openChannel (.conversation a))
  | _ => return

/-- `mwConversation_open` -/
def mwConversationOpen (a : Nat) : RefM Unit := do
  match (← get).object a with
  | some (.conversation _ state _) =>
      if state ≠ .closed then return
      convoSetState a .pending
      convoCreateChan a
  | _ => return

section

variable (h : RefHooks)

/-- `convo_opened` -/
def convoOpened (a : Nat) : RefM Unit := do
  convoSetState a .opened
  h (.opened a)

/-- `mwConversation_close` -/
def mwConversationClose (a : Nat) (reason : UInt32) : RefM Unit := do
  match (← get).object a with
  | some (.conversation ..) =>
      convoSetState a .closed
      h (.closed a reason)
      discard (closeChannel (.conversation a))
  | _ => return

/-- `mwConversation_free` -/
def mwConversationFree (a : Nat) : RefM Unit := do
  let s ← get
  match s.object a with
  | some (.conversation _ state _) =>
      if state ≠ .closed then mwConversationClose h a 0
      else slip (s.channel (.conversation a)).isSome
      freeObject .conversation a
  | _ => return

/-! ## File transfers -/

/-- `ft_state` -/
def ftState (a : Nat) (state : MwFileTransferState) : RefM Unit :=
  modifyObject a fun
    | .transfer _ remaining => .transfer state remaining
    | o => o

def ftRemaining (a : Nat) (remaining : UInt32) : RefM Unit :=
  modifyObject a fun
    | .transfer state _ => .transfer state remaining
    | o => o

/-- `mwFileTransfer_new` -/
def mwFileTransferNew (filesize : UInt32) : RefM Nat :=
  addObject .transfer (.transfer .new filesize)

/-- `mwFileTransfer_close` -/
def mwFileTransferClose (a : Nat) (code : UInt32) : RefM Int := do
  match (← get).object a with
  | some (.transfer state _) =>
      if state = .opened then ftState a .cancelLocal
      let ret ← closeChannel (.transfer a)
      h (.closed a code)
      return ret
  | _ => return -1

/-- `mwFileTransfer_free` -/
def mwFileTransferFree (a : Nat) : RefM Unit := do
  match (← get).object a with
  | some (.transfer ..) =>
      discard (closeChannel (.transfer a))
      freeObject .transfer a
  | _ => return

/-- `mwFileTransfer_offer`, with `ft_create_chan` -/
def mwFileTransferOffer (a : Nat) : RefM Int := do
  let s ← get
  match s.object a with
  | some (.transfer state _) =>
      if s.channel (.transfer a) ≠ none ∨ state ≠ .new then return -1
      match ← openChannel (.transfer a) with
      | none => return -1
      | some ret =>
          if ret = 0 then ftState a .pending
          else
            ftState a .error
            discard (mwFileTransferClose h a errFailure)
          return 0
  | _ => return -1

/-- `mwFileTransfer_send` -/
def mwFileTransferSend (a : Nat) (data : MwOpaque) : RefM Int := do
  let s ← get
  match s.object a, s.channel (.transfer a) with
  | some (.transfer state remaining), some chan =>
      if state ≠ .opened ∨ mwChannelIdIsIncoming chan.id then return -1
      if data.length > remaining.toNat then return -1
      let ret ← mwChannelSend chan
      if ret = 0 then ftRemaining a (remaining - UInt32.ofNat data.length)
      return ret
  | _, _ => return -1

/-- `recv_TRANSFER`. A chunk that is too long is dropped. -/
def recvTransfer (a : Nat) (msg : Payload) : RefM Unit := do
  match (← get).object a with
  | some (.transfer state remaining) =>
      if state ≠ .opened then return
      if msg.2.length > remaining.toNat then return
      let remaining := remaining - UInt32.ofNat msg.2.length
      ftRemaining a remaining
      if remaining = 0 then ftState a .done
      h (.message (.transfer a) msg)
  | _ => return

/-- Whether nothing of a transfer remains -/
def nothingRemains (a : Nat) : RefM Bool := do
  match (← get).object a with
  | some (.transfer _ remaining) => return remaining = 0
  | _ => return false

/-- `recv_RECEIVED` -/
def recvReceived (a : Nat) (msg : Payload) : RefM Unit := do
  if ← nothingRemains a then ftState a .done
  h (.message (.transfer a) msg)
  if ← nothingRemains a then discard (mwFileTransferClose h a 0)

/-! ## Places -/

/-- `mwPlace_new` -/
def mwPlaceNew : RefM Nat := addObject .place .place

/-- `mwPlace_open`, which does not look whether the place has a channel already -/
def mwPlaceOpen (a : Nat) : RefM Unit := do
  let s ← get
  match s.object a with
  | some .place =>
      slip (s.channel (.place a)).isSome
      discard (openChannel (.place a))
  | _ => return

/-- `mwPlace_destroy` -/
def mwPlaceDestroy (a : Nat) : RefM Unit := do
  match (← get).object a with
  | some .place =>
      discard (closeChannel (.place a))
      freeObject .place a
  | _ => return

/-! ## Conferences -/

/-- `conf_state` -/
def confState (a : Nat) (state : MwConferenceState) : RefM Unit :=
  modifyObject a fun
    | .conference _ => .conference state
    | o => o

/-- `conf_find` -/
def confFind (s : RefSide) (chan : ChanRef) : Option Nat :=
  (s.objects .conference).find? fun a => s.channel (.conference a) = some chan

/-- `mwConference_new` -/
def mwConferenceNew : RefM Nat := addObject .conference (.conference .new)

/-- `mwConference_open` -/
def mwConferenceOpen (a : Nat) : RefM Unit := do
  let s ← get
  match s.object a with
  | some (.conference state) =>
      if state ≠ .new ∨ s.channel (.conference a) ≠ none then return
      match ← openChannel (.conference a) with
      | none => return
      | some ret => confState a (if ret ≠ 0 then .error else .pending)
  | _ => return

/-- `mwConference_destroy` -/
def mwConferenceDestroy (a : Nat) : RefM Unit := do
  match (← get).object a with
  | some (.conference _) =>
      discard (closeChannel (.conference a))
      freeObject .conference a
  | _ => return

/-- What `WELCOME_recv` reads before it looks for an error -/
def welcomeGet : Get Unit := do
  let _ ← mwStringGet
  let _ ← mwStringGet
  let _ ← guint16Get 0
  let _ ← guint32Get 0
  let _ ← guint32Get 0

/-- `msg_WELCOME` -/
def msgWelcome : UInt16 := 0x0000

/-- `recv` of srvc_conf.c -/
def recvConference (a : Nat) (msg : Payload) : RefM Unit := do
  if msg.1 = msgWelcome then
    if (welcomeGet (.wrapOpaque msg.2)).2.error then mwConferenceDestroy a
    else
      confState a .opened
      h (.message (.conference a) msg)
  else h (.message (.conference a) msg)

/-! ## Starting and stopping -/

/-- The loop of a `stop`, which frees the objects of the service. It goes round at most so
often, since a client may make new conversations when one is closed. It returns whether it has come
to its end. -/
def stopAll (k : ServiceKind) (free : Nat → RefM Unit) : Nat → RefM Bool
  | 0 => return false
  | rounds + 1 => do
      match (← get).objects k with
      | [] =>
          mwServiceStopped k
          return true
      | a :: _ =>
          free a
          stopAll k free rounds

/-- The function `start` of a service. That of the place service is `NULL`, and three others
only call `mwService_started`. -/
def start : ServiceKind → RefM Unit
  | .aware => awareStart
  | .storage => storageStart
  | .resolve => resolveStart
  | .directory => directoryStart
  | k => mwServiceStarted k

/-- The function `stop` of a service, with whether it comes back -/
def stop (rounds : Nat) : ServiceKind → RefM Bool
  | .aware => do
      awareStop
      return true
  | .storage => do
      storageStop
      return true
  | .resolve => do
      resolveStop
      return true
  | .directory => do
      directoryStop
      return true
  | .im => stopAll .im (mwConversationFree h) rounds
  | .fileTransfer => stopAll .fileTransfer mwFileTransferFree rounds
  | .place => stopAll .place mwPlaceDestroy rounds
  | .conference => stopAll .conference mwConferenceDestroy rounds

/-- `mwService_start` -/
def mwServiceStart (k : ServiceKind) : RefM Unit := do
  if (← get).state k ≠ .stopped then return
  modify fun s => s.setState k .starting
  start k

/-- A stop that found the session in a state has returned. -/
def stopReturned (k : ServiceKind) (s : RefSide) : RefM Unit :=
  modify fun s' => { s' with stops := ⟨k, s.state k, s.line, s'.state k, s'.line⟩ :: s'.stops }

/-- What `mwService_stop` and `mwService_error` have in common: a service that is neither stopping
nor stopped gets a state and has its `stop` called. -/
def endService (state : MwServiceState) (rounds : Nat) (k : ServiceKind) : RefM Unit := do
  let s ← get
  if (s.state k).isDead then stopReturned k s
  else
    modify fun s => s.setState k state
    if ← stop h rounds k then stopReturned k s

/-- `mwService_stop` -/
def mwServiceStop (rounds : Nat) (k : ServiceKind) : RefM Unit := endService h .stopping rounds k

/-- `mwService_error` -/
def mwServiceError (rounds : Nat) (k : ServiceKind) : RefM Unit := endService h .error rounds k

/-! ## Messages on open channels -/

/-- The function `recv` of a service with one channel -/
def recvOn (x : Holder) (chan : ChanRef) (msg : Payload) : RefM Unit := do
  if (← get).channel x ≠ some chan then return
  h (.message x msg)

/-- The function `recv` of a service, on a channel with its service data -/
def recv (chan : ChanRef) (data : Option Holder) (msg : Payload) : ServiceKind → RefM Unit
  | .im | .place =>
      match data with
      | some x => h (.message x msg)
      | none => return
  | .fileTransfer =>
      match data with
      | some (.transfer a) =>
          if msg.1 = Ft.msgTransfer then recvTransfer h a msg
          else if msg.1 = Ft.msgReceived then recvReceived h a msg
          else return
      | _ => return
  | .conference => do
      match confFind (← get) chan with
      | some a => recvConference h a msg
      | none => return
  | .aware => recvOn h .aware chan msg
  | .storage => recvOn h .storage chan msg
  | .resolve => recvOn h .resolve chan msg
  | .directory => recvOn h .directory chan msg

/-- `mwChannel_getService` -/
def RefSide.service (s : RefSide) (line : RefLine) : Option ServiceKind :=
  line.service.filter s.installed

/-- `channel_recv`, with `mwService_recv` -/
def channelRecv (chan : ChanRef) (msg : Payload) : RefM Unit := do
  let s ← get
  match s.line? chan with
  | none => return
  | some line =>
      match s.service line with
      | none => return
      | some k => recv h chan line.srvcData msg k

/-- `flush_channel` -/
def flushChannel (chan : ChanRef) : RefM Unit := do
  match (← get).line? chan with
  | none => return
  | some line =>
      line.incoming.forM (channelRecv h chan)
      modifyLine chan fun line => { line with incoming := [] }

/-- `mwChannel_accept` -/
def mwChannelAccept (chan : ChanRef) : RefM Int := do
  match (← get).line? chan with
  | none => return -1
  | some line =>
      if mwChannelIdIsOutgoing chan.id ∨ line.state ≠ .wait then return -1
      let ret ← write
      if ret ≠ 0 then modifyLine chan fun line => { line with state := .error }
      else
        modifyLine chan fun line => { line with state := .opened }
        flushChannel h chan
      return ret

/-- `mwFileTransfer_accept` -/
def mwFileTransferAccept (a : Nat) : RefM Int := do
  let s ← get
  match s.object a, s.channel (.transfer a) with
  | some (.transfer state _), some chan =>
      if state ≠ .pending ∨ mwChannelIdIsOutgoing chan.id ∨
          ¬ (s.line? chan).any (·.state = .wait) then
        return -1
      let ret ← mwChannelAccept h chan
      if ret ≠ 0 then discard (mwFileTransferClose h a errFailure)
      else
        ftState a .opened
        h (.opened a)
      return ret
  | _, _ => return -1

/-- `mwConference_accept`, less the message that it sends -/
def mwConferenceAccept (a : Nat) : RefM Int := do
  let s ← get
  match s.object a, s.channel (.conference a) with
  | some (.conference state), some chan =>
      if state ≠ .invited then return -1
      mwChannelAccept h chan
  | _, _ => return -1

/-! ## Messages of the server about channels -/

/-- What the model of conversations alone needs, to say which channels are refused -/
def RefSide.imSide (s : RefSide) : Im.ImSide :=
  { features := s.features, placeInvite := s.placeInvite, stat := s.stat }

/-- `recv_channelCreate` of srvc_im.c -/
def imRecvChannelCreate (chan : ChanRef) (msg : ImCreate) : RefM Unit := do
  match Im.refusal (← get).imSide msg with
  | some _ => discard (mwChannelDestroy chan)
  | none =>
      let features := (Im.createGet (.wrapOpaque msg.addtl)).1.2
      let a ← addObject .conversation (.conversation msg.creator .pending features)
      takeChannel (.conversation a) chan
      if (← mwChannelAccept h chan) ≠ 0 then mwConversationFree h a else convoOpened h a

/-- What `recv_channelCreate` of srvc_ft.c reads: the size of the file -/
def transferGet : Get UInt32 := do
  let _ ← guint32Get 0
  let _ ← mwStringGet
  let _ ← mwStringGet
  let size ← guint32Get 0
  let _ ← guint32Get 0
  return size

/-- `recv_channelCreate` of srvc_ft.c -/
def ftRecvChannelCreate (chan : ChanRef) (msg : ImCreate) : RefM Unit := do
  let (size, b) := transferGet (.wrapOpaque msg.addtl)
  if b.error then discard (mwChannelDestroy chan)
  else
    let a ← mwFileTransferNew size
    takeChannel (.transfer a) chan
    ftState a .pending
    h (.offered a)

/-- What `recv_channelCreate` of srvc_conf.c reads -/
def inviteGet : Get Unit := do
  let _ ← guint32Get 0
  let _ ← mwStringGet
  let _ ← mwStringGet
  let _ ← guint32Get 0
  let _ ← mwLoginInfoGet {}
  let _ ← guint32Get 0
  let _ ← mwStringGet

/-- `recv_channelCreate` of srvc_conf.c -/
def confRecvChannelCreate (chan : ChanRef) (msg : ImCreate) : RefM Unit := do
  let a ← mwConferenceNew
  takeChannel (.conference a) chan
  if (inviteGet (.wrapOpaque msg.addtl)).2.error then mwConferenceDestroy a
  else
    confState a .invited
    h (.offered a)

/-- `mwService_recvCreate`. The services with one channel destroy those that they are
offered, and so does the place service, which has no function for them. -/
def recvCreate (chan : ChanRef) (msg : ImCreate) : ServiceKind → RefM Unit
  | .im => imRecvChannelCreate h chan msg
  | .fileTransfer => ftRecvChannelCreate h chan msg
  | .conference => confRecvChannelCreate h chan msg
  | _ => discard (mwChannelDestroy chan)

/-- `recv_accept` of srvc_aware.c and srvc_dir.c -/
def recvAcceptStarting (x : Holder) (chan : ChanRef) : RefM Unit := do
  let s ← get
  if s.channel x ≠ some chan then return
  if s.state x.kind = .starting then mwServiceStarted x.kind else discard (mwChannelDestroy chan)

/-- `recv_channelAccept` of srvc_store.c and `recv_accept` of srvc_resolve.c -/
def recvAcceptAlways (x : Holder) (chan : ChanRef) : RefM Unit := do
  if (← get).channel x ≠ some chan then return
  mwServiceStarted x.kind

/-- `mwService_recvAccept`, on a channel with its service data. A place only sends, and a
conference does nothing. -/
def recvAccept (chan : ChanRef) (data : Option Holder) : ServiceKind → RefM Unit
  | .im =>
      match data with
      | some (.conversation a) => convoOpened h a
      | some _ => return
      | none => discard (mwChannelDestroy chan)
  | .fileTransfer =>
      match data with
      | some (.transfer a) => do
          ftState a .opened
          h (.opened a)
      | _ => return
  | .place | .conference => return
  | .aware => recvAcceptStarting .aware chan
  | .directory => recvAcceptStarting .directory chan
  | .storage => recvAcceptAlways .storage chan
  | .resolve => recvAcceptAlways .resolve chan

/-- A holder forgets its channel. -/
def forgetChannel (x : Holder) : RefM Unit := modify fun s => s.setChannel x none

/-- `recv_channelDestroy` of srvc_im.c, on a channel in a state -/
def imRecvChannelDestroy (a : Nat) (state : MwChannelState) (reason : UInt32) : RefM Unit := do
  forgetChannel (.conversation a)
  match (← get).object a with
  | some (.conversation _ _ features) =>
      if state = .error ∧ features ≠ Im.mwImClientPlain ∧
          (reason = Im.errImNotRegistered ∨ reason = errServiceNoSupport) then
        convoSetFeatures a Im.mwImClientPlain
        convoCreateChan a
      else mwConversationClose h a reason
  | _ => return

/-- `recv_channelDestroy` of srvc_ft.c -/
def ftRecvChannelDestroy (a : Nat) (reason : UInt32) : RefM Unit := do
  forgetChannel (.transfer a)
  match (← get).object a with
  | some (.transfer state _) =>
      if state ≠ .done then ftState a .cancelRemote
      discard (mwFileTransferClose h a reason)
  | _ => return

/-- `recv_channelDestroy` of srvc_place.c -/
def placeRecvChannelDestroy (a : Nat) (reason : UInt32) : RefM Unit := do
  forgetChannel (.place a)
  match (← get).object a with
  | some .place =>
      h (.closed a reason)
      mwPlaceDestroy a
  | _ => return

/-- `recv_channelDestroy` of srvc_conf.c -/
def confRecvChannelDestroy (chan : ChanRef) (reason : UInt32) : RefM Unit := do
  match confFind (← get) chan with
  | some a =>
      forgetChannel (.conference a)
      confState a (if reason ≠ 0 then .error else .closing)
      h (.closed a reason)
      mwConferenceDestroy a
  | none => return

/-- `recv_destroy` of srvc_aware.c and srvc_dir.c, which do not look which channel it is -/
def recvDestroyAny (x : Holder) : RefM Unit := do
  forgetChannel x
  mwServiceStop h 0 x.kind

/-- `recv_channelDestroy` of srvc_store.c -/
def storageRecvChannelDestroy : RefM Unit := do
  recvDestroyAny h .storage
  mwSessionSenseService

/-- `recv_destroy` of srvc_resolve.c -/
def resolveRecvDestroy (chan : ChanRef) : RefM Unit := do
  if (← get).channel .resolve ≠ some chan then return
  recvDestroyAny h .resolve
  mwSessionSenseService

/-- `mwService_recvDestroy`, on a channel with its service data and its state -/
def recvDestroy (chan : ChanRef) (data : Option Holder) (state : MwChannelState) (reason : UInt32) :
    ServiceKind → RefM Unit
  | .im =>
      match data with
      | some (.conversation a) => imRecvChannelDestroy h a state reason
      | _ => return
  | .fileTransfer =>
      match data with
      | some (.transfer a) => ftRecvChannelDestroy h a reason
      | _ => return
  | .place =>
      match data with
      | some (.place a) => placeRecvChannelDestroy h a reason
      | _ => return
  | .conference => confRecvChannelDestroy h chan reason
  | .aware => recvDestroyAny h .aware
  | .directory => recvDestroyAny h .directory
  | .storage => storageRecvChannelDestroy h
  | .resolve => resolveRecvDestroy h chan

/-- `CHANNEL_CREATE_recv`, with `mwChannel_recvCreate` -/
def onCreate (msg : ImCreate) : RefM Unit := do
  let chan ← mwChannelNewIncoming msg.channel
  if mwChannelIdIsOutgoing msg.channel then discard (mwChannelDestroy chan)
  else
    modifyLine chan fun line => { line with service := serviceKind? msg.service }
    match (serviceKind? msg.service).filter (← get).installed with
    | some k => recvCreate h chan msg k
    | none => discard (mwChannelDestroy chan)

/-- `CHANNEL_ACCEPT_recv`, with `mwChannel_recvAccept`. `offered` says whether the cipher that
the message names has been offered, which is so too when it names none. -/
def onAccept (id : UInt32) (offered : Bool) : RefM Unit := do
  let s ← get
  match s.line id with
  | none => return
  | some line =>
      let chan : ChanRef := ⟨id, line.addr⟩
      if mwChannelIdIsIncoming id ∨ line.state ≠ .wait then discard (mwChannelDestroy chan)
      else
        match s.service line with
        | none => discard (mwChannelDestroy chan)
        | some k =>
            if offered = false then discard (mwChannelDestroy chan)
            else
              modifyLine chan fun line => { line with state := .opened }
              recvAccept h chan line.srvcData k
              match (← get).line? chan with
              | none => return
              | some line => if line.state = .opened then flushChannel h chan

/-- `CHANNEL_SEND_recv`, with `mwChannel_recv` -/
def onSend (id : UInt32) (msg : Payload) : RefM Unit := do
  match (← get).line id with
  | none => return
  | some line =>
      let chan : ChanRef := ⟨id, line.addr⟩
      if line.state = .opened then channelRecv h chan msg
      else modifyLine chan fun line => { line with incoming := line.incoming ++ [msg] }

/-- `CHANNEL_DESTROY_recv` for a channel of a service, with `mwChannel_recvDestroy` -/
def onDestroy (id : UInt32) (reason : UInt32) : RefM Unit := do
  let s ← get
  match s.line id with
  | none => return
  | some line =>
      let chan : ChanRef := ⟨id, line.addr⟩
      let state := if reason ≠ 0 then .error else .destroy
      modifyLine chan fun line => { line with state := state }
      match s.service line with
      | some k => recvDestroy h chan line.srvcData state reason k
      | none => pure ()
      modify fun s => s.setLine id none

end

/-! ## Calls and runs -/

/-- What a client may call. What only sends on a channel is left out. -/
inductive RefCall where
  | getConversation (target : MwIdBlock)
  | setClientType (type : UInt32)
  | setUserStatus (stat : MwUserStatus)
  | openConversation (a : Nat)
  | closeConversation (a : Nat) (reason : UInt32)
  | freeConversation (a : Nat)
  | newTransfer (filesize : UInt32)
  | offerTransfer (a : Nat)
  | acceptTransfer (a : Nat)
  | sendTransfer (a : Nat) (data : MwOpaque)
  | closeTransfer (a : Nat) (code : UInt32)
  | freeTransfer (a : Nat)
  | newPlace
  | openPlace (a : Nat)
  | destroyPlace (a : Nat)
  | newConference
  | openConference (a : Nat)
  | acceptConference (a : Nat)
  | destroyConference (a : Nat)
  | startService (k : ServiceKind)
  | stopService (k : ServiceKind) (rounds : Nat)
  | errorService (k : ServiceKind) (rounds : Nat)
  | addService (k : ServiceKind)
  | removeService (k : ServiceKind)

def RefSide.setInstalled (s : RefSide) (k : ServiceKind) (installed : Bool) : RefSide :=
  { s with installed := Function.update s.installed k installed }

def runCall (h : RefHooks) : RefCall → RefM Unit
  | .getConversation target => discard (mwServiceImGetConversation target)
  | .setClientType type => modify fun s => { s with features := type }
  | .setUserStatus stat => modify fun s => { s with stat := stat }
  | .openConversation a => mwConversationOpen a
  | .closeConversation a reason => mwConversationClose h a reason
  | .freeConversation a => mwConversationFree h a
  | .newTransfer filesize => discard (mwFileTransferNew filesize)
  | .offerTransfer a => discard (mwFileTransferOffer h a)
  | .acceptTransfer a => discard (mwFileTransferAccept h a)
  | .sendTransfer a data => discard (mwFileTransferSend a data)
  | .closeTransfer a code => discard (mwFileTransferClose h a code)
  | .freeTransfer a => mwFileTransferFree a
  | .newPlace => discard mwPlaceNew
  | .openPlace a => mwPlaceOpen a
  | .destroyPlace a => mwPlaceDestroy a
  | .newConference => discard mwConferenceNew
  | .openConference a => mwConferenceOpen a
  | .acceptConference a => discard (mwConferenceAccept h a)
  | .destroyConference a => mwConferenceDestroy a
  | .startService k => mwServiceStart k
  | .stopService k rounds => mwServiceStop h rounds k
  | .errorService k rounds => mwServiceError h rounds k
  | .addService k => modify fun s => s.setInstalled k true
  | .removeService k => modify fun s => s.setInstalled k false

/-- A client, by the calls it makes in the functions of its handlers -/
abbrev RefClient := RefCallback → RefSide → List RefCall

/-- The hooks of a client whose callbacks nest at most to a depth -/
def hooks (client : RefClient) : Nat → RefHooks
  | 0 => fun _ => pure ()
  | n + 1 => fun c => do (client c (← get)).forM (runCall (hooks client n))

/-- What reaches the session: calls, and messages of the server -/
inductive RefInput where
  | call (c : RefCall)
  | create (msg : ImCreate)
  | accept (id : UInt32) (offered : Bool)
  | send (id : UInt32) (msg : Payload)
  | destroy (id : UInt32) (reason : UInt32)

def input (h : RefHooks) : RefInput → RefM Unit
  | .call c => runCall h c
  | .create msg => onCreate h msg
  | .accept id offered => onAccept h id offered
  | .send id msg => onSend h id msg
  | .destroy id reason => onDestroy h id reason

/-- A run of a session -/
def run (h : RefHooks) (s : RefSide) (inputs : List RefInput) : RefSide :=
  (inputs.forM (input h) s).2

/-- A session before anything has reached it, by what its run depends on -/
def RefSide.initial (features : UInt32) (placeInvite : Bool) (stat : MwUserStatus)
    (ret : Nat → Int) : RefSide :=
  { features := features, placeInvite := placeInvite, stat := stat, ret := ret }

end Refs

end Meanwhile
