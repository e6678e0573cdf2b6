-- SUMMARY: The conferences of srvc_conf.c: their channels, their members in memory, and what the client is told of them.
import Meanwhile.Service.Opening
import Meanwhile.Lib.State

/-!
# Conferences

A `ConfSide` is the conference service with the memory that its conferences take up.
Conferences, channels and the login infos of members go by numbers, which are given out
in order and stand for addresses. A login info that is freed is no longer in `login`.

The log has what the client has been told, by the functions of its handler, and what it
has itself done about its conferences. A handler that leaves out functions is told less.
Handlers make no calls of their own: a client that accepts or rejects an invitation does so
after `on_invited` has returned.

Of the channels only the results of calls on them are known, which `ret` gives. A channel
that could not be made counts as one that could not be created.
-/

namespace Meanwhile.Conference

open Opening (MwConferenceState)

/-! ## Data -/

/-- `struct mwConference`. A member is its id and where its login info is. -/
structure MwConference where
  state : MwConferenceState := .new
  channel : Option Nat := none
  name : MwString := none
  title : MwString := none
  owner : MwLoginInfo := {}
  members : List (UInt16 × Nat) := []

abbrev Payload := UInt16 × MwOpaque

/-- The functions of `struct mwConferenceHandler`, with the login infos that they are given,
and what the client does -/
inductive ConfEvent where
  /-- `mwConference_new` has returned it. -/
  | created
  | invited (inviter : MwLoginInfo) (invite : MwString)
  | opened (members : List Nat)
  | closed (reason : UInt32)
  | peerJoined (m : Nat)
  | peerParted (m : Nat)
  | text (m : Nat) (what : CString)
  | typing (m : Nat) (typing : Bool)
  /-- The client has called `mwConference_destroy`. -/
  | destroyed
deriving DecidableEq

/-- Calls on channels -/
inductive ConfPacket where
  | create (chan : Nat) (addtl : MwOpaque)
  | accept (chan : Nat)
  | send (chan : Nat) (msg : Payload)
  | destroy (chan : Nat) (reason : UInt32) (text : MwOpaque)
deriving DecidableEq

/-- The conferences and what they keep in memory -/
structure Book where
  conf : Nat → Option MwConference := fun _ => none
  /-- `confs` -/
  confs : List Nat := []
  login : Nat → Option MwLoginInfo := fun _ => none
  nextConf : Nat := 0
  nextChan : Nat := 0
  nextLogin : Nat := 0
  /-- What happens, the latest first -/
  log : List (Nat × ConfEvent) := []

/-- `struct mwServiceConference` -/
structure ConfSide extends Book where
  ret : Nat → Int := fun _ => 0
  calls : Nat := 0
  out : List ConfPacket := []

abbrev ConfM := StateM ConfSide

/-! ## Message types -/

def msgWelcome : UInt16 := 0x0000
def msgInvite : UInt16 := 0x0001
def msgJoin : UInt16 := 0x0002
def msgPart : UInt16 := 0x0003
def msgMessage : UInt16 := 0x0004

def errSuccess : UInt32 := 0x00000000
def errFailure : UInt32 := 0x80000000

/-! ## Memory -/

def modifyBook (f : Book → Book) : ConfM Unit := modify fun s => { s with toBook := f s.toBook }

def Book.record (b : Book) (a : Nat) (e : ConfEvent) : Book := { b with log := (a, e) :: b.log }

def Book.setConf (b : Book) (a : Nat) (conf : Option MwConference) : Book :=
  { b with conf := Function.update b.conf a conf }

def Book.modifyConf (b : Book) (a : Nat) (f : MwConference → MwConference) : Book :=
  b.setConf a ((b.conf a).map f)

/-- The table of a conference -/
def Book.members (b : Book) (a : Nat) : List (UInt16 × Nat) := ((b.conf a).map (·.members)).getD []

/-- A login info in new memory -/
def Book.newLogin (b : Book) (info : MwLoginInfo) : Book :=
  { b with login := Function.update b.login b.nextLogin (some info), nextLogin := b.nextLogin + 1 }

/-- `login_free` -/
def Book.loginFree (b : Book) (m : Nat) : Book := { b with login := Function.update b.login m none }

def record (a : Nat) (e : ConfEvent) : ConfM Unit := modifyBook (·.record a e)

def modifyConf (a : Nat) (f : MwConference → MwConference) : ConfM Unit :=
  modifyBook (·.modifyConf a f)

/-- `MEMBER_FIND` -/
def Book.memberFind (b : Book) (a : Nat) (id : UInt16) : Option Nat := (b.members a).lookup id

/-- `MEMBER_REM`, which frees the login info -/
def Book.memberRem (b : Book) (a : Nat) (id : UInt16) : Book :=
  match b.memberFind a id with
  | none => b
  | some m =>
      (b.loginFree m).modifyConf a fun conf =>
        { conf with members := conf.members.filter (·.1 ≠ id) }

/-- `MEMBER_ADD`, which frees the login info that was there before -/
def Book.memberAdd (b : Book) (a : Nat) (id : UInt16) (m : Nat) : Book :=
  (b.memberRem a id).modifyConf a fun conf => { conf with members := (id, m) :: conf.members }

/-- A call on a channel, with its result -/
def channelCall (p : ConfPacket) : ConfM Int := fun s =>
  (s.ret s.calls, { s with calls := s.calls + 1, out := s.out ++ [p] })

/-! ## Conferences -/

/-- `conf_new` -/
def confNew : ConfM Nat := do
  let a := (← get).nextConf
  modifyBook fun b =>
    { b.setConf a (some {}) with confs := a :: b.confs, nextConf := a + 1 }
  return a

/-- `conf_free`, with the table and all in it -/
def Book.confFree (b : Book) (a : Nat) : Book :=
  { b.setConf a none with
    confs := b.confs.filter (· ≠ a)
    login := (b.members a).foldl (fun login e => Function.update login e.2 none) b.login }

/-- `conf_find` -/
def Book.confFind (b : Book) (chan : Nat) : Option Nat :=
  b.confs.find? fun a => (b.conf a).any (·.channel = some chan)

/-- `conf_state` -/
def confState (a : Nat) (state : MwConferenceState) : ConfM Unit :=
  modifyConf a fun conf => { conf with state := state }

/-- Close the channel of a conference, if it has one. -/
def closeChannel (conf : MwConference) (reason : UInt32) (text : MwString) : ConfM Int :=
  match conf.channel with
  | none => pure 0
  | some chan => channelCall (.destroy chan reason ((text.map (·.val)).getD []))

/-- `mwConference_destroy` -/
def mwConferenceDestroy (a : Nat) (reason : UInt32) (text : MwString) : ConfM Int := do
  match (← get).conf a with
  | none => return -1
  | some conf =>
      let ret ← closeChannel conf reason text
      modifyBook (·.confFree a)
      return ret

/-! ## What comes on channels -/

/-- What `recv_channelCreate` reads -/
def inviteGet : Get (MwString × MwString × MwLoginInfo × MwString) := do
  let _ ← guint32Get 0
  let name ← mwStringGet
  let title ← mwStringGet
  let _ ← guint32Get 0
  let owner ← mwLoginInfoGet {}
  let _ ← guint32Get 0
  let invite ← mwStringGet
  return (name, title, owner, invite)

/-- A channel that is new to the service -/
def newChannel : ConfM Nat := do
  let chan := (← get).nextChan
  modifyBook fun b => { b with nextChan := chan + 1 }
  return chan

/-- `recv_channelCreate` -/
def recvChannelCreate (addtl : MwOpaque) : ConfM Unit := do
  let chan ← newChannel
  let a ← confNew
  let ((name, title, owner, invite), b) := inviteGet (.wrapOpaque addtl)
  modifyConf a fun conf =>
    { conf with channel := some chan, name := name, title := title, owner := owner }
  if b.error then
    discard (mwConferenceDestroy a errFailure none)
  else
    confState a .invited
    record a (.invited owner invite)

/-- `recv_channelDestroy` -/
def recvChannelDestroy (chan : Nat) (reason : UInt32) : ConfM Unit := do
  match (← get).confFind chan with
  | none => return
  | some a =>
      modifyConf a fun conf => { conf with channel := none }
      confState a (if reason ≠ 0 then .error else .closing)
      record a (.closed reason)
      discard (mwConferenceDestroy a errSuccess none)

/-- What `WELCOME_recv` reads before the members -/
def welcomeGet : Get (MwString × MwString × UInt32) := do
  let name ← mwStringGet
  let title ← mwStringGet
  let _ ← guint16Get 0
  let _ ← guint32Get 0
  let count ← guint32Get 0
  return (name, title, count)

/-- A member, as WELCOME and JOIN have it -/
def memberGet : Get (UInt16 × MwLoginInfo) := do
  let id ← guint16Get 0
  let info ← mwLoginInfoGet {}
  return (id, info)

/-- The loop of `WELCOME_recv`, with the list `l` of what it has read. A member that
cannot be read is freed again. -/
def welcomeMembers (a : Nat) : Nat → GetBuffer → List Nat → ConfM (List Nat)
  | 0, _, l => return l
  | count + 1, b, l => do
      let ((id, info), b) := memberGet b
      if b.error then return l
      let m := (← get).nextLogin
      modifyBook fun book => (book.newLogin info).memberAdd a id m
      welcomeMembers a count b (l ++ [m])

/-- `WELCOME_recv` -/
def welcomeRecv (a : Nat) (b : GetBuffer) : ConfM Unit := do
  let ((name, title, count), b) := welcomeGet b
  modifyConf a fun conf => { conf with name := name, title := title }
  if b.error then
    discard (mwConferenceDestroy a errFailure none)
  else
    let l ← welcomeMembers a count.toNat b []
    confState a .opened
    record a (.opened l)

/-- `JOIN_recv` -/
def joinRecv (a : Nat) (conf : MwConference) (b : GetBuffer) : ConfM Unit := do
  if conf.state = .pending then return
  let ((id, info), b) := memberGet b
  if b.error then return
  let m := (← get).nextLogin
  modifyBook fun book => (book.newLogin info).memberAdd a id m
  record a (.peerJoined m)

/-- `PART_recv` -/
def partRecv (a : Nat) (b : GetBuffer) : ConfM Unit := do
  let (id, b) := guint16Get 0 b
  if b.error then return
  match (← get).memberFind a id with
  | none => return
  | some m =>
      record a (.peerParted m)
      modifyBook (·.memberRem a id)

/-- `text_recv` -/
def textRecv (a m : Nat) (b : GetBuffer) : ConfM Unit :=
  let (text, b) := mwStringGet b
  if b.error then pure ()
  else match text with
    | none => pure ()
    | some text => record a (.text m text)

/-- `data_recv` -/
def dataRecv (a m : Nat) (b : GetBuffer) : ConfM Unit :=
  let (type, b) := guint32Get 0 b
  let (subtype, b) := guint32Get 0 b
  if b.error then pure ()
  else if type ≠ 1 then pure ()
  else record a (.typing m (subtype = 0))

/-- What `MESSAGE_recv` reads before the message itself. The first word is not used. -/
def senderGet : Get (UInt16 × UInt32) := do
  let id ← guint16Get 0
  let _ ← guint32Get 0
  let type ← guint32Get 0
  return (id, type)

/-- `MESSAGE_recv` -/
def messageRecv (a : Nat) (b : GetBuffer) : ConfM Unit := do
  if b.rem = 0 then return
  let ((id, type), b) := senderGet b
  if b.error then return
  match (← get).memberFind a id with
  | none => return
  | some m =>
      if type = 1 then textRecv a m b
      else if type = 2 then dataRecv a m b
      else return

/-- `recv` -/
def recv (chan : Nat) (msg : Payload) : ConfM Unit := do
  match (← get).confFind chan with
  | none => return
  | some a =>
      match (← get).conf a with
      | none => return
      | some conf =>
          let b := GetBuffer.wrapOpaque msg.2
          if msg.1 = msgWelcome then welcomeRecv a b
          else if msg.1 = msgJoin then joinRecv a conf b
          else if msg.1 = msgPart then partRecv a b
          else if msg.1 = msgMessage then messageRecv a b
          else return

/-! ## What the client does -/

/-- `mwConference_new` -/
def mwConferenceNew (title : MwString) : ConfM Nat := do
  let a ← confNew
  modifyConf a fun conf => { conf with title := title }
  record a .created
  return a

/-- `mwConference_open`. `generated` is the name that `conf_generate_name` makes up. -/
def mwConferenceOpen (a : Nat) (generated : CString) : ConfM Int := do
  match (← get).conf a with
  | none => return -1
  | some conf =>
      if conf.state ≠ .new ∨ conf.channel ≠ none then return -1
      let name := conf.name.or (some generated)
      modifyConf a fun conf => { conf with name := name }
      let chan ← newChannel
      let ret ← channelCall
        (.create chan (mwStringPut name ++ mwStringPut conf.title ++ guint32Put 0))
      if ret ≠ 0 then
        confState a .error
      else
        confState a .pending
        modifyConf a fun conf => { conf with channel := some chan }
      return ret

/-- `mwConference_accept` -/
def mwConferenceAccept (a : Nat) : ConfM Int := do
  match (← get).conf a with
  | none => return -1
  | some conf =>
      if conf.state ≠ .invited then return -1
      match conf.channel with
      | none => return -1
      | some chan =>
          let ret ← channelCall (.accept chan)
          if ret ≠ 0 then return ret
          channelCall (.send chan (msgJoin, []))

/-- `mwChannel_sendEncrypted` on the channel of a conference that has one -/
def sendOn (conf : MwConference) (msg : Payload) : ConfM Int :=
  match conf.channel with
  | none => pure (-1)
  | some chan => channelCall (.send chan msg)

/-- The invitation of `mwConference_invite` -/
def invitation (who : MwIdBlock) (text : MwString) : Payload :=
  (msgInvite,
    mwIdBlockPut who ++ guint16Put 0 ++ guint32Put 0 ++ mwStringPut text ++ mwStringPut who.user)

/-- The message of `mwConference_sendText` -/
def textMessage (text : MwString) : Payload := (msgMessage, guint32Put 1 ++ mwStringPut text)

/-- The message of `mwConference_sendTyping` -/
def typingMessage (typing : Bool) : Payload :=
  (msgMessage,
    guint32Put 2 ++ guint32Put 1 ++ guint32Put (if typing then 0 else 1) ++ mwOpaquePut [])

/-- What `mwConference_invite` and `mwConference_sendText` do -/
def mwConferenceSend (a : Nat) (msg : Payload) : ConfM Int := do
  match (← get).conf a with
  | none => return -1
  | some conf => sendOn conf msg

/-- `mwConference_invite` -/
def mwConferenceInvite (a : Nat) (who : MwIdBlock) (text : MwString) : ConfM Int :=
  mwConferenceSend a (invitation who text)

/-- `mwConference_sendText` -/
def mwConferenceSendText (a : Nat) (text : MwString) : ConfM Int :=
  mwConferenceSend a (textMessage text)

/-- `mwConference_sendTyping` -/
def mwConferenceSendTyping (a : Nat) (typing : Bool) : ConfM Int := do
  match (← get).conf a with
  | none => return -1
  | some conf => if conf.state ≠ .opened then return -1 else sendOn conf (typingMessage typing)

/-! ## Runs -/

/-- The loop of `stop`, which goes round at most so many times -/
def stopLoop : Nat → ConfM Unit
  | 0 => return
  | rounds + 1 => do
      match (← get).confs with
      | [] => return
      | a :: _ =>
          discard (mwConferenceDestroy a errSuccess none)
          stopLoop rounds

/-- `stop`: every round takes a conference off the list. -/
def stop : ConfM Unit := do stopLoop (← get).confs.length

/-- The loop of `clear`, which leaves the channels alone -/
def clearLoop : Nat → ConfM Unit
  | 0 => return
  | rounds + 1 => do
      match (← get).confs with
      | [] => return
      | a :: _ =>
          modifyBook (·.confFree a)
          clearLoop rounds

/-- `clear`, with which `mwService_free` ends. A service that has been started is stopped
before, and has no conferences left. -/
def clear : ConfM Unit := do clearLoop (← get).confs.length

inductive ConfInput where
  | new (title : MwString)
  | opening (a : Nat) (generated : CString)
  | accept (a : Nat)
  | invite (a : Nat) (who : MwIdBlock) (text : MwString)
  | sendText (a : Nat) (text : MwString)
  | sendTyping (a : Nat) (typing : Bool)
  | destroy (a : Nat) (reason : UInt32) (text : MwString)
  | recvCreate (addtl : MwOpaque)
  | recvAccept (chan : Nat)
  | recv (chan : Nat) (msg : Payload)
  | recvDestroy (chan : Nat) (reason : UInt32)
  | stop
  | clear

/-- The client destroys a conference, if it is there. -/
def clientDestroy (a : Nat) (reason : UInt32) (text : MwString) : ConfM Unit := do
  match (← get).conf a with
  | none => return
  | some _ =>
      record a .destroyed
      discard (mwConferenceDestroy a reason text)

/-- One call of the client, or one arrival. `recv_channelAccept` does nothing. -/
def step : ConfInput → ConfM Unit
  | .new title => discard (mwConferenceNew title)
  | .opening a generated => discard (mwConferenceOpen a generated)
  | .accept a => discard (mwConferenceAccept a)
  | .invite a who text => discard (mwConferenceInvite a who text)
  | .sendText a text => discard (mwConferenceSendText a text)
  | .sendTyping a typing => discard (mwConferenceSendTyping a typing)
  | .destroy a reason text => clientDestroy a reason text
  | .recvCreate addtl => recvChannelCreate addtl
  | .recvAccept _ => pure ()
  | .recv chan msg => recv chan msg
  | .recvDestroy chan reason => recvChannelDestroy chan reason
  | .stop => stop
  | .clear => clear

def run (inputs : List ConfInput) (s : ConfSide) : ConfSide :=
  inputs.foldl (fun s i => (step i s).2) s

/-- What has happened to a conference, the latest first -/
def Book.history (b : Book) (a : Nat) : List ConfEvent :=
  b.log.filterMap fun e => if e.1 = a then some e.2 else none

end Meanwhile.Conference
