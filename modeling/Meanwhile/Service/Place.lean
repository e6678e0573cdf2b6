-- SUMMARY: One place of srvc_place.c with its channel: opening, joining, what the server says of it, and its end.
import Meanwhile.Service
import Meanwhile.Lib.State

/-!
# Places

A `Scene` is a place while it handles one message: the place, the get buffer that
its handlers read, what they send and what they tell the client. The handlers are
those of srvc_place.c. What a handler returns is left out, since it only decides
about a debug message. A client that leaves out functions of its handler is told
less.

`PlaceStack` is what the local variables of the handlers hold before anything is
read into them.

A `PlaceSide` is a place and its channel over the life of the place.
-/

namespace Meanwhile.Place

/-! ## Data -/

/-- `enum mwPlaceState` -/
inductive MwPlaceState where
  | new | pending | joining | joined | opened | closing | error | unknown
deriving DecidableEq, Repr

/-- `struct place_member` -/
structure PlaceMember where
  placeId : UInt32 := 0
  memberType : UInt16 := 0
  idb : MwIdBlock := {}
  loginId : MwString := none
  name : MwString := none
  loginType : UInt16 := 0
  unknownA : UInt32 := 0
  unknownB : UInt32 := 0
deriving DecidableEq

/-- `struct mwPlace` -/
structure MwPlace where
  state : MwPlaceState := .new
  channel : Bool := false
  title : MwString := none
  members : UInt32 → Option PlaceMember := fun _ => none
  ourId : UInt32 := 0
  section_ : UInt32 := 0
  requests : UInt32 := 0

abbrev Payload := UInt16 × MwOpaque

/-- The functions of `struct mwPlaceHandler`, and a change of the state -/
inductive PlaceEvent where
  | moved (before after : MwPlaceState)
  | opened
  | closed (reason : UInt32)
  | peerJoined (idb : MwIdBlock)
  | peerParted (idb : MwIdBlock)
  | peerSetAttribute (idb : MwIdBlock) (attr : UInt32) (o : MwOpaque)
  | peerUnsetAttribute (idb : MwIdBlock) (attr : UInt32)
  | message (idb : MwIdBlock) (msg : MwString)
deriving DecidableEq

structure Scene where
  place : MwPlace
  b : GetBuffer
  /-- What is sent, in order -/
  sent : List Payload := []
  /-- What happens, the latest first -/
  log : List PlaceEvent := []

abbrev PlaceM := StateM Scene

/-- The local variables that are read from the buffer without a value of their own -/
inductive PlaceLocal where
  | joinOurId | joinSection
  | messageId | messageLength
  | peerJoinSection
  | peerPartSection | peerPartId
  | clearAttrId | clearAttrKey
  | setAttrId | setAttrKey
  | listSection | listCount
  | partId
deriving DecidableEq

abbrev PlaceStack := PlaceLocal → UInt32

/-! ## Message types -/

def msgInJoinResponse : UInt16 := 0x0000
def msgInInfo : UInt16 := 0x0002
def msgInMessage : UInt16 := 0x0004
def msgInSection : UInt16 := 0x0014

def msgInSectionList : UInt16 := 0x0000
def msgInSectionPeer : UInt16 := 0x0001
def msgInSectionPart : UInt16 := 0x0003

def msgInSectionPeerJoin : UInt16 := 0x0000
def msgInSectionPeerPart : UInt16 := 0x0001
def msgInSectionPeerClearAttr : UInt16 := 0x0003
def msgInSectionPeerSetAttr : UInt16 := 0x0004

def msgOutJoinPlace : UInt16 := 0x0000
def msgOutSection : UInt16 := 0x0014
def msgOutSectionList : UInt16 := 0x0002

/-! ## Handling a message -/

/-- A get function on the buffer of the scene -/
def read {α : Type} (g : Get α) : PlaceM α := fun s => ((g s.b).1, { s with b := (g s.b).2 })

def modifyPlace (f : MwPlace → MwPlace) : PlaceM Unit := modify fun s => { s with place := f s.place }

def record (e : PlaceEvent) : PlaceM Unit := modify fun s => { s with log := e :: s.log }

/-- `place_state` -/
def placeState (state : MwPlaceState) : PlaceM Unit := do
  let place := (← get).place
  if place.state = state then return
  modifyPlace fun place => { place with state := state }
  record (.moved place.state state)

/-- `PUT_MEMBER` -/
def putMember (pm : PlaceMember) : PlaceM Unit :=
  modifyPlace fun place => { place with members := Function.update place.members pm.placeId (some pm) }

/-- `REMOVE_MEMBER_ID` -/
def removeMemberId (id : UInt32) : PlaceM Unit :=
  modifyPlace fun place => { place with members := Function.update place.members id none }

/-- `GET_MEMBER` -/
def getMember (id : UInt32) : PlaceM (Option PlaceMember) := do return (← get).place.members id

def send (msg : Payload) : PlaceM Unit := modify fun s => { s with sent := s.sent ++ [msg] }

variable (stack : PlaceStack)

/-- `recv_JOIN_RESPONSE` -/
def recvJoinResponse : PlaceM Unit := do
  let ourId ← read (guint32Get (stack .joinOurId))
  let section_ ← read (guint32Get (stack .joinSection))
  modifyPlace fun place => { place with ourId := ourId, section_ := section_ }

/-- `send_SECTION_LIST` -/
def sendSectionList (section_ : UInt32) : PlaceM Unit := do
  modifyPlace fun place => { place with requests := place.requests + 1 }
  let requests := (← get).place.requests
  send (msgOutSection,
    guint16Put msgOutSectionList ++ guint32Put section_ ++ gbooleanPut false ++ guint32Put requests)

/-- `recv_INFO` -/
def recvInfo : PlaceM Unit := do
  let skip ← read (guint32Get 0)
  let section_ ← read (guint32Get 0)
  read (mwGetBufferAdvance skip.toNat)
  if section_ = 0 then
    read (mwGetBufferAdvance 2)
    let title ← read mwStringGet
    modifyPlace fun place => { place with title := title }
    placeState .joined
    sendSectionList (← get).place.section_

/-- `recv_MESSAGE` -/
def recvMessage : PlaceM Unit := do
  if (← get).place.state ≠ .opened then return
  let pmId ← read (guint32Get (stack .messageId))
  match ← getMember pmId with
  | none => return
  | some pm =>
      let _ ← read (guint32Get 0)
      let ign ← read (guint32Get (stack .messageLength))
      if ign = 0 then return
      let _ ← read (guint32Get 0)
      let msg ← read mwStringGet
      record (.message pm.idb msg)

/-- `place_opened` -/
def placeOpened : PlaceM Unit := do
  placeState .opened
  record .opened

/-- A member, from its id on -/
def memberGet : Get PlaceMember := do
  let placeId ← guint32Get 0
  let memberType ← guint16Get 0
  let idb ← mwIdBlockGet {}
  let loginId ← mwStringGet
  let name ← mwStringGet
  let loginType ← guint16Get 0
  let unknownA ← guint32Get 0
  let unknownB ← guint32Get 0
  return { placeId := placeId, memberType := memberType, idb := idb, loginId := loginId,
           name := name, loginType := loginType, unknownA := unknownA, unknownB := unknownB }

/-- `recv_SECTION_PEER_JOIN` -/
def recvSectionPeerJoin : PlaceM Unit := do
  let section_ ← read (guint32Get (stack .peerJoinSection))
  if section_ = 0 then return
  read (mwGetBufferAdvance 4)
  let pm ← read memberGet
  putMember pm
  record (.peerJoined pm.idb)
  if pm.placeId = (← get).place.ourId then placeOpened

/-- A member that parts, if there is one -/
def memberParted (id : UInt32) : PlaceM Unit := do
  match ← getMember id with
  | none => return
  | some pm =>
      record (.peerParted pm.idb)
      removeMemberId pm.placeId

/-- `recv_SECTION_PEER_PART` -/
def recvSectionPeerPart : PlaceM Unit := do
  let section_ ← read (guint32Get (stack .peerPartSection))
  if section_ ≠ (← get).place.section_ then return
  let id ← read (guint32Get (stack .peerPartId))
  memberParted id

/-- `recv_SECTION_PEER_CLEAR_ATTR` -/
def recvSectionPeerClearAttr : PlaceM Unit := do
  let id ← read (guint32Get (stack .clearAttrId))
  let attr ← read (guint32Get (stack .clearAttrKey))
  match ← getMember id with
  | none => return
  | some pm => record (.peerUnsetAttribute pm.idb attr)

/-- `recv_SECTION_PEER_SET_ATTR` -/
def recvSectionPeerSetAttr : PlaceM Unit := do
  let id ← read (guint32Get (stack .setAttrId))
  read (mwGetBufferAdvance 4)
  let o ← read mwOpaqueGet
  read (mwGetBufferAdvance 4)
  let attr ← read (guint32Get (stack .setAttrKey))
  match ← getMember id with
  | none => return
  | some pm => record (.peerSetAttribute pm.idb attr o)

/-- `recv_SECTION_PEER` -/
def recvSectionPeer : PlaceM Unit := do
  let subtype ← read (guint16Get 0)
  if (← get).b.error then return
  if subtype = msgInSectionPeerJoin then recvSectionPeerJoin stack
  else if subtype = msgInSectionPeerPart then recvSectionPeerPart stack
  else if subtype = msgInSectionPeerClearAttr then recvSectionPeerClearAttr stack
  else if subtype = msgInSectionPeerSetAttr then recvSectionPeerSetAttr stack
  else return

/-- The loop of `recv_SECTION_LIST` -/
def listMembers : Nat → PlaceM Unit
  | 0 => return
  | count + 1 => do
      read (mwGetBufferAdvance 4)
      let m ← read memberGet
      putMember m
      listMembers count

/-- `recv_SECTION_LIST` -/
def recvSectionList : PlaceM Unit := do
  read (mwGetBufferAdvance 4)
  let sec ← read (guint32Get (stack .listSection))
  if sec ≠ (← get).place.section_ then return
  read (mwGetBufferAdvance 8)
  let count ← read (guint32Get (stack .listCount))
  read (mwGetBufferAdvance 8)
  listMembers count.toNat
  if (← get).place.state ≠ .opened then placeOpened

/-- `recv_SECTION_PART` -/
def recvSectionPart : PlaceM Unit := do
  let pmId ← read (guint32Get (stack .partId))
  memberParted pmId

/-- `recv_SECTION` -/
def recvSection : PlaceM Unit := do
  let subtype ← read (guint16Get 0)
  if (← get).b.error then return
  if subtype = msgInSectionList then recvSectionList stack
  else if subtype = msgInSectionPeer then recvSectionPeer stack
  else if subtype = msgInSectionPart then recvSectionPart stack
  else return

/-- `recv`, by the type of the message. `recv_UNKNOWNa` does nothing. -/
def recv (type : UInt16) : PlaceM Unit :=
  if type = msgInJoinResponse then recvJoinResponse stack
  else if type = msgInInfo then recvInfo
  else if type = msgInMessage then recvMessage stack
  else if type = msgInSection then recvSection stack
  else pure ()

/-- A place after it has been given a message -/
def receive (place : MwPlace) (msg : Payload) : Scene :=
  (recv stack msg.1 { place := place, b := .wrapOpaque msg.2 }).2

/-! ## The life of a place -/

/-- `struct mwChannel`. A place sends nothing before its channel is open. -/
structure PlaceLine where
  state : MwChannelState
  incoming : List Payload := []

inductive PlacePacket where
  | create
  | send (msg : Payload)
  | destroy (reason : UInt32)
deriving DecidableEq

/-- A place and its channel. `ret` gives the return values of `io_write`. -/
structure PlaceSide where
  place : Option MwPlace := none
  line : Option PlaceLine := none
  ret : Nat → Int := fun _ => 0
  writes : Nat := 0
  wire : List PlacePacket := []
  /-- What the place was given, with the place as it was then, the latest first -/
  given : List (MwPlace × Payload) := []
  log : List PlaceEvent := []

/-- `mwSession_send` -/
def PlaceSide.write (s : PlaceSide) (p : PlacePacket) : Int × PlaceSide :=
  (s.ret s.writes,
    { s with
      writes := s.writes + 1
      wire := if s.ret s.writes = 0 then s.wire ++ [p] else s.wire })

/-- What a scene leaves behind -/
def PlaceSide.after (s : PlaceSide) (scene : Scene) : PlaceSide :=
  scene.sent.foldl (fun s msg => (s.write (.send msg)).2)
    { s with place := some scene.place, log := scene.log ++ s.log }

/-- Code of the place that reads nothing -/
def PlaceSide.act (s : PlaceSide) (x : PlaceM Unit) : PlaceSide :=
  match s.place with
  | none => s
  | some place => s.after (x { place := place, b := .wrapOpaque [] }).2

/-- A message given to the place -/
def PlaceSide.give (frames : Nat → PlaceStack) (s : PlaceSide) (msg : Payload) : PlaceSide :=
  match s.place with
  | none => s
  | some place =>
      { s with given := (place, msg) :: s.given }.after
        (receive (frames s.given.length) place msg)

/-- The message of `send_JOIN_PLACE` -/
def joinPlace : Payload :=
  (msgOutJoinPlace, gbooleanPut false ++ guint16Put 1 ++ guint16Put 2 ++ guint16Put 1)

/-- `recv_channelAccept`, with `send_JOIN_PLACE` -/
def PlaceSide.recvChannelAccept (s : PlaceSide) : PlaceSide :=
  let (ret, s) := s.write (.send joinPlace)
  s.act (placeState (if ret ≠ 0 then .error else .joining))

/-- `mwPlace_destroy` -/
def PlaceSide.mwPlaceDestroy (s : PlaceSide) (code : UInt32) : PlaceSide :=
  match s.place with
  | none => s
  | some place =>
      let s := s.act (placeState .closing)
      let s := if place.channel then ({ s with line := none }.write (.destroy code)).2 else s
      { s with place := none }

/-- `recv_channelDestroy` -/
def PlaceSide.recvChannelDestroy (s : PlaceSide) (reason : UInt32) : PlaceSide :=
  let s := s.act do
    placeState .error
    modifyPlace fun place => { place with channel := false }
    record (.closed reason)
  s.mwPlaceDestroy reason

/-- What comes on the channel -/
inductive PlaceInput where
  | accept
  | recv (msg : Payload)
  | destroy (reason : UInt32)

/-- `mwChannel_recvAccept`, `mwChannel_recv` and `mwChannel_recvDestroy` -/
def PlaceSide.input (frames : Nat → PlaceStack) (s : PlaceSide) (i : PlaceInput) : PlaceSide :=
  match s.line with
  | none => s
  | some line =>
      match i with
      | .accept =>
          if line.state ≠ .wait then ({ s with line := none }.write (.destroy 0x80000001)).2
          else
            let s := { s with line := some { line with state := .opened } }.recvChannelAccept
            { line.incoming.foldl (give frames) s with line := some { state := .opened } }
      | .recv msg =>
          if line.state = .opened then s.give frames msg
          else { s with line := some { line with incoming := line.incoming ++ [msg] } }
      | .destroy reason =>
          let state := if reason ≠ 0 then .error else .destroy
          let s := { s with line := some { line with state := state } }.recvChannelDestroy reason
          { s with line := none }

def PlaceSide.run (frames : Nat → PlaceStack) (inputs : List PlaceInput) (s : PlaceSide) :
    PlaceSide :=
  inputs.foldl (input frames) s

/-- `mwPlace_new`, then `mwPlace_open` -/
def PlaceSide.open_ (title : MwString) (ret : Nat → Int) : PlaceSide :=
  let s : PlaceSide := { place := some { title := title }, ret := ret }
  let (ret, s) := s.write .create
  if ret ≠ 0 then s.act (placeState .error)
  else
    { s with line := some { state := .wait } }.act do
      placeState .pending
      modifyPlace fun place => { place with channel := true }

/-! ## Attributes

A request about an attribute is composed in a put buffer that nobody finalizes. What is sent
is the opaque that should have been taken from it, which is empty. -/

def msgOutSetAttr : UInt16 := 0x000a

/-- What `mwPlace_setAttribute` gives to `mwChannel_send` -/
def mwPlaceSetAttribute (place : MwPlace) (attrib : UInt32) (data : MwOpaque) : Payload :=
  let o : MwOpaque := []
  let b : List UInt8 := []
  let b := b ++ guint32Put place.ourId
  let b := b ++ guint32Put 0
  let b := b ++ guint32Put attrib
  let _b := b ++ mwOpaquePut data
  (msgOutSetAttr, o)

/-- What `mwPlace_unsetAttribute` gives to `mwChannel_send`. The type is the one for setting. -/
def mwPlaceUnsetAttribute (place : MwPlace) (attrib : UInt32) : Payload :=
  let o : MwOpaque := []
  let b : List UInt8 := []
  let b := b ++ guint32Put place.ourId
  let _b := b ++ guint32Put attrib
  (msgOutSetAttr, o)

inductive AttributeRequest where
  | set (attrib : UInt32) (data : MwOpaque)
  | unset (attrib : UInt32)
deriving DecidableEq

def AttributeRequest.message (place : MwPlace) : AttributeRequest → Payload
  | set attrib data => mwPlaceSetAttribute place attrib data
  | unset attrib => mwPlaceUnsetAttribute place attrib

/-- The fields of a request to set an attribute -/
def setAttributeGet : Get (UInt32 × UInt32 × UInt32 × MwOpaque) := do
  let id ← guint32Get 0
  let zero ← guint32Get 0
  let attrib ← guint32Get 0
  let data ← mwOpaqueGet
  return (id, zero, attrib, data)

/-- A request to set an attribute says so, with all that it is about. -/
def CarriesSet (place : MwPlace) (attrib : UInt32) (data : MwOpaque) : Prop :=
  let r := setAttributeGet (.wrapOpaque (mwPlaceSetAttribute place attrib data).2)
  r.2.error = false ∧ r.1 = (place.ourId, 0, attrib, data)

/-- No two requests can be told apart, and none to set an attribute says which. -/
theorem attributeRequests_alike (place : MwPlace) (r r' : AttributeRequest) (attrib : UInt32)
    (data : MwOpaque) :
    r.message place = r'.message place ∧ ¬ CarriesSet place attrib data := by
  constructor
  · cases r <;> cases r' <;> rfl
  · -- the first word is not there already
    intro h
    exact absurd h.1 (by decide : ¬ (setAttributeGet (.wrapOpaque [])).2.error = false)

/-- To set an attribute and to clear it again is the same message. -/
theorem not_requests_differ :
    ¬ ∀ (place : MwPlace) (r r' : AttributeRequest), r ≠ r' →
      r.message place ≠ r'.message place := by
  intro h
  exact h { ourId := 1 } (.set 5 [1]) (.unset 5) (by decide) rfl

end Meanwhile.Place
