-- SUMMARY: Channels as channel.c keeps them: creation, ciphers, sending and destruction.
import Meanwhile.Session.Send

/-!
# Channels

The part of channel.c that does not call into services. What it calls is the
session, and through it `io_write`, which may call back before it returns. So a
function that goes on with its channel after a write looks through the pointer
again, as the C code does.
-/

namespace Meanwhile

variable (h : Hooks)

/-- `state` of channel.c -/
def setChannelState (chan : ChanRef) (state : MwChannelState) : Session Unit := do
  match ← deref chan with
  | none => return
  | some c =>
      if c.state = state then return
      updateChannel chan fun c => { c with state := state }
      record (.channel chan (.state state))

/-- The session after the state of a channel has been set -/
def MwSession.withState (s : MwSession) (chan : ChanRef) (c : MwChannel) (state : MwChannelState) :
    MwSession :=
  if c.state = state then s
  else (s.setChannel chan.id (some { c with state := state })).log (.channel chan (.state state))

theorem setChannelState_of_some {s : MwSession} {chan : ChanRef} {c : MwChannel}
    (hc : s.channel? chan = some c) (state : MwChannelState) :
    setChannelState chan state s = ((), s.withState chan c state) := by
  rw [setChannelState, Session.bind_apply, deref_of_some hc, MwSession.withState]
  dsimp only
  rw [Session.ite_apply]
  split
  · rfl
  · rw [Session.bind_apply, updateChannel_of_some hc]
    rfl

theorem channel?_withState {s : MwSession} {chan : ChanRef} {c : MwChannel}
    (hc : s.channel? chan = some c) (state : MwChannelState) :
    (s.withState chan c state).channel? chan = some { c with state := state } := by
  unfold MwSession.withState
  split
  · rename_i hstate
    rw [hc, ← hstate]
  · have haddr : c.addr = chan.addr := by
      unfold MwSession.channel? at hc
      split at hc
      · split at hc
        · simp_all
        · simp at hc
      · simp at hc
    simp [MwSession.channel?, MwSession.setChannel, MwSession.log, haddr]

/-- A message of a channel, given to `mwSession_send` -/
def sendFor (chan : ChanRef) (msg : MwMessage) : Session Int := do
  record (.channel chan (.sends msg))
  mwSessionSend h msg

/-! ## New channels -/

/-- `mwChannel_newIncoming`. The map frees a channel that had the id before. -/
def mwChannelNewIncoming (id : UInt32) : Session ChanRef := do
  let addr := (← get).nextAddr
  modify fun s => { s.setChannel id (some { addr := addr }) with nextAddr := addr + 1 }
  record (.channel ⟨id, addr⟩ .born)
  setChannelState ⟨id, addr⟩ .wait
  return ⟨id, addr⟩

/-- The session with a new channel under an id -/
def MwSession.announced (s : MwSession) (id : UInt32) : MwSession :=
  { s.setChannel id (some { addr := s.nextAddr, state := .wait }) with
    nextAddr := s.nextAddr + 1
    trace := .channel ⟨id, s.nextAddr⟩ (.state .wait) :: .channel ⟨id, s.nextAddr⟩ .born :: s.trace }

theorem channel?_announced (s : MwSession) (id : UInt32) :
    (s.announced id).channel? ⟨id, s.nextAddr⟩ = some { addr := s.nextAddr, state := .wait } := by
  simp [MwSession.announced, MwSession.channel?, MwSession.setChannel]

theorem mwChannelNewIncoming_apply (id : UInt32) (s : MwSession) :
    mwChannelNewIncoming id s = (⟨id, s.nextAddr⟩, s.announced id) := by
  rw [mwChannelNewIncoming, Session.get_bind, Session.modify_bind, record_bind,
    Session.bind_apply, setChannelState_of_some (c := { addr := s.nextAddr })]
  · simp [MwSession.withState, MwSession.setChannel, MwSession.announced, MwSession.log]
  · simp [MwSession.channel?, MwSession.setChannel, MwSession.log]

/-- `do { id = ++cs->counter; } while(lookup(id))`; `none` is that every id is in
use, which the loop never finds out. -/
def nextOutgoingId (map : UInt32 → Option MwChannel) : Nat → UInt32 → Option UInt32
  | 0, _ => none
  | fuel + 1, counter =>
      let id := counter + 1
      if (map id).isSome then nextOutgoingId map fuel id else some id

/-- `mwChannel_newOutgoing` -/
def mwChannelNewOutgoing : Session (Option ChanRef) := do
  let cs := (← get).channels
  match nextOutgoingId cs.map (2 ^ 32) cs.counter with
  | none => return none
  | some id =>
      modify fun s => { s with channels := { s.channels with counter := id } }
      let chan ← mwChannelNewIncoming id
      setChannelState chan .init
      return some chan

/-- A setter that insists on `mwChannel_INIT` -/
def setWhileInit (chan : ChanRef) (f : MwChannel → MwChannel) : Session Unit := do
  match ← deref chan with
  | some c => if c.state = .init then updateChannel chan f else return
  | none => return

/-- `mwChannel_setService` -/
def mwChannelSetService (chan : ChanRef) (srvc : UInt32) : Session Unit :=
  setWhileInit chan fun c => { c with service := srvc }

/-- `mwChannel_setProtoType` -/
def mwChannelSetProtoType (chan : ChanRef) (protoType : UInt32) : Session Unit :=
  setWhileInit chan fun c => { c with protoType := protoType }

/-- `mwChannel_setProtoVer` -/
def mwChannelSetProtoVer (chan : ChanRef) (protoVer : UInt32) : Session Unit :=
  setWhileInit chan fun c => { c with protoVer := protoVer }

/-- `mwChannel_setOptions` -/
def mwChannelSetOptions (chan : ChanRef) (options : UInt32) : Session Unit :=
  setWhileInit chan fun c => { c with options := options }

/-- `mwChannel_setServiceData` -/
def mwChannelSetServiceData (chan : ChanRef) (data : Nat) : Session Unit :=
  updateChannel chan fun c => { c with srvcData := data }

/-- Writing through `mwChannel_getUser` -/
def mwChannelSetUser (chan : ChanRef) (user : MwLoginInfo) : Session Unit :=
  updateChannel chan fun c => { c with user := user }

/-- Writing through `mwChannel_getAddtlCreate` -/
def mwChannelSetAddtlCreate (chan : ChanRef) (addtl : MwOpaque) : Session Unit :=
  updateChannel chan fun c => { c with addtlCreate := addtl }

/-- Writing through `mwChannel_getAddtlAccept` -/
def mwChannelSetAddtlAccept (chan : ChanRef) (addtl : MwOpaque) : Session Unit :=
  updateChannel chan fun c => { c with addtlAccept := addtl }

/-! ## Ciphers of a channel -/

/-- `enum mwEncryptPolicy` -/
def encryptNone : UInt16 := 0x0000
def encryptWhatever : UInt16 := 0x0001
def encryptAll : UInt16 := 0x0002
def encryptRc2_40 : UInt16 := 0x1000
def encryptRc2_128 : UInt16 := 0x2000

/-- `get_supported` -/
def MwChannel.supported? (c : MwChannel) (id : UInt16) : Option MwCipherInstance :=
  (c.supported.getD []).find? (·.type.code = id)

/-- `g_hash_table_insert`: an instance of a cipher that is there already takes the place of
the one before, another goes to the end. -/
def putInstance (ci : MwCipherInstance) (l : List MwCipherInstance) : List MwCipherInstance :=
  if l.any (·.type = ci.type) then l.map fun old => if old.type = ci.type then ci else old
  else l ++ [ci]

theorem mem_putInstance {ci ci' : MwCipherInstance} {l : List MwCipherInstance}
    (h : ci' ∈ putInstance ci l) : ci' ∈ l ∨ ci' = ci := by
  unfold putInstance at h
  split at h
  · obtain ⟨old, hold, heq⟩ := List.mem_map.mp h
    split at heq
    · exact .inr heq.symm
    · exact .inl (heq ▸ hold)
  · simpa using h

/-- `put_supported` -/
def putSupported (chan : ChanRef) (ci : MwCipherInstance) : Session Unit :=
  updateChannel chan fun c => { c with supported := c.supported.map (putInstance ci) }

/-- `mwChannel_addSupportedCipherInstance` -/
def mwChannelAddSupportedCipherInstance (chan : ChanRef) (ci : MwCipherInstance) : Session Unit :=
  putSupported chan ci

/-- `mwCipher_newInstance` for a channel of the session -/
def newInstance (cipher : MwCipher) : Session (Option (MwCipher × MwCipherInstance)) := do
  match mwCipherNewInstance (← get).login cipher with
  | some (cipher, ci) =>
      updateCipher cipher
      return some (cipher, ci)
  | none =>
      fault
      return none

/-- `mwChannel_populateSupportedCipherInstances` -/
def mwChannelPopulateSupportedCipherInstances (chan : ChanRef) : Session Unit := do
  (← get).ciphers.forM fun cipher => do
    match ← newInstance cipher with
    | some (_, ci) => putSupported chan ci
    | none => return

/-- The policy that goes with a selected cipher -/
def MwCipherType.policy : MwCipherType → UInt16
  | .rc2_40 => encryptRc2_40
  | .rc2_128 => encryptRc2_128

/-- `mwChannel_selectCipherInstance`. It refuses to decide twice. -/
def mwChannelSelectCipherInstance (chan : ChanRef) (ci : Option MwCipherInstance) :
    Session Unit := do
  match ← deref chan with
  | none => return
  | some c =>
      if c.supported.isNone then return
      let policy := match ci with
        | some ci => ci.type.policy
        | none => encryptNone
      updateChannel chan fun c =>
        { c with cipher := ci, policy := policy, supported := none }
      record (.select chan ci.isSome)

/-! ## Create, destroy -/

/-- The items of an offer, one for each supported instance. -/
def offerItems (s : MwSession) (supported : List MwCipherInstance) : List MwEncryptItem :=
  supported.filterMap fun ci => (s.cipher? ci.type.code).map mwCipherInstanceOffer

/-- The message of `mwChannel_create` -/
def createMessage (s : MwSession) (id : UInt32) (c : MwChannel) : MwMessage where
  body := .channelCreate
    { channel := id
      target := { user := c.user.userId, community := c.user.community }
      service := c.service
      protoType := c.protoType
      protoVer := c.protoVer
      options := c.options
      addtl := c.addtlCreate
      encrypt :=
        { mode := c.offeredPolicy
          items := offerItems s (c.supported.getD [])
          extra := c.offeredPolicy } }

/-- `mwChannel_create` -/
def mwChannelCreate (chan : ChanRef) : Session Int := do
  match ← deref chan with
  | none => return -1
  | some c =>
      if c.state ≠ .init ∨ mwChannelIdIsIncoming chan.id then return -1
      let policy := if (c.supported.getD []).isEmpty then encryptNone else encryptWhatever
      updateChannel chan fun c => { c with offeredPolicy := policy }
      let ret ← sendFor h chan
        (createMessage (← get) chan.id { c with offeredPolicy := policy })
      setChannelState chan (if ret ≠ 0 then .error else .wait)
      return ret

/-- `mwChannel_destroy`. The channel is out of the set before the message is
written. -/
def mwChannelDestroy (chan : ChanRef) (reason : UInt32) (info : MwOpaque) : Session Int := do
  match ← deref chan with
  | none => return -1
  | some _ =>
      setChannelState chan (if reason ≠ 0 then .error else .destroy)
      modify (·.setChannel chan.id none)
      sendFor h chan
        { head := { channel := chan.id }
          body := .channelDestroy { reason := reason, data := info } }

theorem mwChannelDestroy_of_some {s : MwSession} {chan : ChanRef} {c : MwChannel}
    (hc : s.channel? chan = some c) (reason : UInt32) (info : MwOpaque) :
    mwChannelDestroy h chan reason info s =
      sendFor h chan
        { head := { channel := chan.id }
          body := .channelDestroy { reason := reason, data := info } }
        ((s.withState chan c (if reason ≠ 0 then .error else .destroy)).setChannel chan.id none) := by
  rw [mwChannelDestroy, Session.bind_apply, deref_of_some hc]
  dsimp only
  rw [Session.bind_apply, setChannelState_of_some hc]
  rfl

/-! ## Sending -/

/-- The message a call composes, with the next state of a cipher instance that
was used. Whether to encrypt depends on the call and on the cipher of the channel
at that time. -/
def SendCall.compose (call : SendCall) : Option (ChannelMessage × Option MwCipherInstance) :=
  match call.encrypt, call.cipher with
  | true, some ci => do
      let cipher ← call.owner
      let (ci, data) ← mwCipherInstanceEncrypt call.fresh call.data cipher ci
      return ({ head := { options := optionEncrypt, channel := call.chan.id }
                msg := { type := call.type.toUInt16, data := data } }, some ci)
  | _, _ =>
      some ({ head := { channel := call.chan.id }
              msg := { type := call.type.toUInt16, data := call.data } }, none)

/-- The cipher that the instance of a channel belongs to -/
def MwSession.owner? (s : MwSession) (c : MwChannel) : Option MwCipher := do
  let ci ← c.cipher
  s.cipher? ci.type.code

/-- `channel_send` -/
def channelSend (chan : ChanRef) (msg : ChannelMessage) : Session Int := do
  match ← deref chan with
  | none => return 0
  | some c =>
      if c.state = .opened then
        sendFor h chan msg.toMessage
      else
        updateChannel chan fun c => { c with outgoingQueue := c.outgoingQueue ++ [msg] }
        return 0

/-- `mwChannel_sendEncrypted` -/
def mwChannelSendEncrypted (chan : ChanRef) (type : UInt32) (data : MwOpaque) (encrypt : Bool) :
    Session Int := do
  match ← deref chan with
  | none => return -1
  | some c =>
      let s ← get
      let call : SendCall :=
        ⟨chan, type, data, encrypt, c.cipher, s.owner? c, c.state, c.outgoingQueue, h.fresh s⟩
      record (.send call)
      match call.compose with
      | none =>
          fault
          return -1
      | some (msg, ci) =>
          updateChannel chan fun c => { c with cipher := ci <|> c.cipher }
          channelSend h chan msg

/-- `mwChannel_send` -/
def mwChannelSend (chan : ChanRef) (type : UInt32) (data : MwOpaque) : Session Int :=
  mwChannelSendEncrypted h chan type data true

end Meanwhile
