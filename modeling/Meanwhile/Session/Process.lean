-- SUMMARY: The session's handlers for the messages of the server, and the start of a session.
import Meanwhile.Session.Api

/-!
# Handling messages

`session_process` and the `_recv` functions that it dispatches to. A message that
does not parse completely is handed on like any other, with what has been read of
it.
-/

namespace Meanwhile

variable (h : Hooks)

/-! ## Login -/

/-- `CONNECTION_BROKEN` -/
def connectionBroken : UInt32 := 0x80000221

/-- The handshake that `mwSession_start` sends -/
def handshakeMessage (a : Attributes) : MwMessage :=
  let msg : MwMsgHandshake :=
    { major := a.clientVerMajor.toUInt16
      minor := a.clientVerMinor.toUInt16
      loginType := a.clientTypeId.toUInt16
      loclcalcAddr := a.clientIp }
  if 0x001e ≤ msg.major ∧ 0x001d ≤ msg.minor then
    { body := .handshake { msg with unknownA := 0x0100, localHost := a.clientHost } }
  else { body := .handshake msg }

/-- `mwSession_start` -/
def mwSessionStart : Session Unit := do
  if (← get).state ≠ .stopped then return
  record .start
  setState h .starting (.code 0)
  let ret ← mwSessionSend h (handshakeMessage (← get).attributes)
  if ret ≠ 0 then mwSessionStop h connectionBroken
  else setState h .handshake (.code 0)

/-- `mwAuthType_RC2_40` and `mwAuthType_RC2_128` -/
def authTypeRc2_40 : UInt16 := 0x0002
def authTypeRc2_128 : UInt16 := 0x0004

/-- `compose_auth_rc2_40`, which needs a password -/
def composeAuthRc2_40 (fresh : Block) (key : List UInt8) (pass : MwString) : Option MwOpaque := do
  let pass ← pass
  let (_, b) ← mwEncrypt fresh key mwIvInit pass.val
  return mwOpaquePut key ++ mwOpaquePut b

/-- `compose_auth_rc2_128` -/
def composeAuthRc2_128 (fresh : Block) (privateKey : Nat) (pass : MwString) (magic : UInt32)
    (rkey : MwOpaque) : Option MwOpaque := do
  let shared := mwDhCalculateShared (mwDhImportKey rkey) privateKey
  let a := guint32Put magic ++ mwStringPut pass
  let key ← expandShared (mwDhExportKey shared)
  let (_, c) ← mwEncryptExpanded fresh key mwIvInit a
  return guint16Put 0x0001 ++ mwOpaquePut (mwDhExportKey (mwDhPublicKey privateKey)) ++
    mwOpaquePut c

/-- The authentication part of the login message, by what the server offers -/
def composeAuth (s : MwSession) (msg : MwMsgHandshakeAck) : Option (UInt16 × MwOpaque) :=
  let pw := s.attributes.authPassword
  if 64 ≤ msg.data.length then
    (composeAuthRc2_128 (h.fresh s) (h.randPrivateKey s) pw msg.magic msg.data).map
      (authTypeRc2_128, ·)
  else
    (composeAuthRc2_40 (h.fresh s) (h.keyRandom s) pw).map (authTypeRc2_40, ·)

/-- The login message -/
def loginMessage (a : Attributes) (auth : UInt16 × MwOpaque) : MwMessage where
  body := .login
    { loginType := a.clientTypeId.toUInt16
      name := a.authUserId
      authType := auth.1
      authData := auth.2 }

/-- Record the major/minor versions from the server. -/
def MwSession.setServerVersion (s : MwSession) (msg : MwMsgHandshakeAck) : MwSession :=
  { s with attributes :=
      { s.attributes with
        serverVerMajor := msg.major.toUInt32
        serverVerMinor := msg.minor.toUInt32 } }

/-- `HANDSHAKE_ACK_recv` -/
def handshakeAckRecv (msg : MwMsgHandshakeAck) : Session Unit := do
  let s ← get
  if s.state = .loginCont then
    setState h .handshakeAck (.code 0)
    setState h .login (.code 0)
  else if s.state = .handshake then
    setState h .handshakeAck (.code 0)
    modify (·.setServerVersion msg)
    match composeAuth h (← get) msg with
    | none => fault
    | some auth =>
        let ret ← mwSessionSend h (loginMessage (← get).attributes auth)
        if ret = 0 then setState h .login (.code 0)

/-- Store the login information in the session. -/
def MwSession.setLogin (s : MwSession) (msg : MwMsgLoginAck) : MwSession :=
  { s with login := mwLoginInfoClone {} msg.login }

/-- `LOGIN_ACK_recv` -/
def loginAckRecv (msg : MwMsgLoginAck) : Session Unit := do
  if (← get).state ≠ .login then return
  modify (·.setLogin msg)
  setState h .loginAck (.code 0)
  ((← get).services.map (·.type)).forM (mwServiceStart h)
  setState h .started (.code 0)

/-- `LOGIN_REDIRECT_recv` -/
def loginRedirectRecv (msg : MwMsgLoginRedirect) : Session Unit :=
  setState h .loginRedir (.text msg.host)

/-! ## Channels -/

/-- `CHANNEL_CREATE_recv` -/
def channelCreateRecv (head : MwMessageHead) (msg : MwMsgChannelCreate) : Session Unit := do
  let chan ← mwChannelNewIncoming msg.channel
  record (.channel chan (.arrives ⟨head, .channelCreate msg⟩))
  mwChannelRecvCreate h chan msg

/-- `mwChannel_find` -/
def mwChannelFind (id : UInt32) : Session (Option ChanRef) := do
  return ((← get).channels.map id).map fun c => ⟨id, c.addr⟩

theorem mwChannelFind_bind {α : Type} (id : UInt32) (f : Option ChanRef → Session α)
    (s : MwSession) :
    (mwChannelFind id >>= f) s = f ((s.channels.map id).map fun c => ⟨id, c.addr⟩) s := rfl

/-- `CHANNEL_ACCEPT_recv` -/
def channelAcceptRecv (head : MwMessageHead) (msg : MwMsgChannelAccept) : Session Unit := do
  match ← mwChannelFind head.channel with
  | some chan =>
      record (.channel chan (.arrives ⟨head, .channelAccept msg⟩))
      mwChannelRecvAccept h chan msg
  | none => return

/-- `CHANNEL_DESTROY_recv`. The server closes the session by destroying the zero
channel. -/
def channelDestroyRecv (head : MwMessageHead) (msg : MwMsgChannelDestroy) : Session Unit := do
  if head.channel = masterChannelId then mwSessionStop h msg.reason
  else
    match ← mwChannelFind head.channel with
    | some chan =>
        record (.channel chan (.arrives ⟨head, .channelDestroy msg⟩))
        mwChannelRecvDestroy h chan msg
    | none => return

/-- `CHANNEL_SEND_recv` -/
def channelSendRecv (head : MwMessageHead) (msg : MwMsgChannelSend) : Session Unit := do
  match ← mwChannelFind head.channel with
  | some chan =>
      record (.channel chan (.arrives ⟨head, .channelSend msg⟩))
      mwChannelRecv h chan ⟨head, msg⟩
  | none => return

section

variable {h} {s : MwSession} {head : MwMessageHead} {c : MwChannel}
  (hc : s.channels.map head.channel = some c)

include hc

theorem channelAcceptRecv_of_some (msg : MwMsgChannelAccept) :
    channelAcceptRecv h head msg s =
      mwChannelRecvAccept h ⟨head.channel, c.addr⟩ msg
        (s.log (.channel ⟨head.channel, c.addr⟩ (.arrives ⟨head, .channelAccept msg⟩))) := by
  rw [channelAcceptRecv, mwChannelFind_bind, hc]
  rfl

theorem channelDestroyRecv_of_some (hid : head.channel ≠ masterChannelId)
    (msg : MwMsgChannelDestroy) :
    channelDestroyRecv h head msg s =
      mwChannelRecvDestroy h ⟨head.channel, c.addr⟩ msg
        (s.log (.channel ⟨head.channel, c.addr⟩ (.arrives ⟨head, .channelDestroy msg⟩))) := by
  rw [channelDestroyRecv, if_neg hid, mwChannelFind_bind, hc]
  rfl

theorem channelSendRecv_of_some (msg : MwMsgChannelSend) :
    channelSendRecv h head msg s =
      mwChannelRecv h ⟨head.channel, c.addr⟩ ⟨head, msg⟩
        (s.log (.channel ⟨head.channel, c.addr⟩ (.arrives ⟨head, .channelSend msg⟩))) := by
  rw [channelSendRecv, mwChannelFind_bind, hc]
  rfl

end

/-! ## The rest -/

/-- `SET_PRIVACY_LIST_recv` -/
def setPrivacyListRecv (privacy : MwPrivacyInfo) : Session Unit := do
  modify fun s => { s with privacy := mwPrivacyInfoClone privacy }
  if (← get).handler.onSetPrivacyInfo then callback h .onSetPrivacyInfo

/-- `SENSE_SERVICE_recv` -/
def senseServiceRecv (service : UInt32) : Session Unit := mwServiceStart h service

/-- `ADMIN_recv` -/
def adminRecv (text : MwString) : Session Unit := do
  if (← get).handler.onAdmin then callback h (.onAdmin text)

/-- `ANNOUNCE_recv` -/
def announceRecv (msg : MwMsgAnnounce) : Session Unit := do
  if (← get).handler.onAnnounce then
    callback h (.onAnnounce msg.sender msg.mayReply msg.text)

/-- The `switch` of `session_process` -/
def dispatch (msg : MwMessage) : Session Unit :=
  match msg.body with
  | .handshakeAck m => handshakeAckRecv h m
  | .loginRedirect m => loginRedirectRecv h m
  | .loginAck m => loginAckRecv h m
  | .channelCreate m => channelCreateRecv h msg.head m
  | .channelDestroy m => channelDestroyRecv h msg.head m
  | .channelSend m => channelSendRecv h msg.head m
  | .channelAccept m => channelAcceptRecv h msg.head m
  | .setPrivacyList privacy => setPrivacyListRecv h privacy
  | .setUserStatus status => setUserStatusRecv h status
  | .senseService service => senseServiceRecv h service
  | .admin text => adminRecv h text
  | .announce m => announceRecv h m
  | .handshake _ | .login _ | .loginContinue => pure ()

/-- `session_process` -/
def sessionProcess (buf : List UInt8) : Session Unit := do
  if buf = [] then return
  match (mwMessageGet h.uninit (.wrapOpaque buf)).1 with
  | none => return
  | some msg =>
      record (.handle msg.body.type (← get).state)
      dispatch h msg

/-! ## Logging in, case by case -/

theorem mwSessionStart_of_stopped {s : MwSession} (hs : s.state = .stopped) :
    mwSessionStart h s =
      let s1 := (setState h .starting (.code 0) (s.log .start)).2
      let r := mwSessionSend h (handshakeMessage s1.attributes) s1
      if r.1 ≠ 0 then mwSessionStop h connectionBroken r.2
      else setState h .handshake (.code 0) r.2 := by
  rw [mwSessionStart, Session.get_bind, if_neg (not_not.mpr hs), record_bind, Session.bind_apply,
    Session.get_bind, Session.bind_apply, Session.ite_apply]

theorem handshakeAckRecv_of_handshake {s : MwSession} (msg : MwMsgHandshakeAck)
    (hs : s.state = .handshake) :
    handshakeAckRecv h msg s =
      let s1 := (setState h .handshakeAck (.code 0) s).2
      let s2 := s1.setServerVersion msg
      match composeAuth h s2 msg with
      | none => fault s2
      | some auth =>
          let r := mwSessionSend h (loginMessage s2.attributes auth) s2
          if r.1 = 0 then setState h .login (.code 0) r.2 else ((), r.2) := by
  have hne : s.state ≠ .loginCont := by
    rw [hs]
    decide
  rw [handshakeAckRecv, Session.get_bind]
  dsimp only
  rw [if_neg hne, if_pos hs, Session.bind_apply, Session.modify_bind, Session.get_bind]
  cases composeAuth h _ msg with
  | none => rfl
  | some auth =>
    dsimp only
    rw [Session.get_bind, Session.bind_apply, Session.ite_apply]
    rfl

theorem handshakeAckRecv_of_loginCont {s : MwSession} (msg : MwMsgHandshakeAck)
    (hs : s.state = .loginCont) :
    handshakeAckRecv h msg s =
      setState h .login (.code 0) (setState h .handshakeAck (.code 0) s).2 := by
  rw [handshakeAckRecv, Session.get_bind, if_pos hs, Session.bind_apply]

theorem handshakeAckRecv_of_ne {s : MwSession} (msg : MwMsgHandshakeAck)
    (hhandshake : s.state ≠ .handshake) (hcont : s.state ≠ .loginCont) :
    handshakeAckRecv h msg s = ((), s) := by
  rw [handshakeAckRecv, Session.get_bind, if_neg hcont, if_neg hhandshake]
  rfl

theorem loginAckRecv_of_login {s : MwSession} (msg : MwMsgLoginAck) (hs : s.state = .login) :
    loginAckRecv h msg s =
      let s1 := (setState h .loginAck (.code 0) (s.setLogin msg)).2
      let s2 := ((s1.services.map (·.type)).forM (mwServiceStart h) s1).2
      setState h .started (.code 0) s2 := by
  rw [loginAckRecv, Session.get_bind, if_neg (not_not.mpr hs), Session.modify_bind,
    Session.bind_apply, Session.get_bind, Session.bind_apply]

theorem loginAckRecv_of_ne {s : MwSession} (msg : MwMsgLoginAck) (hs : s.state ≠ .login) :
    loginAckRecv h msg s = ((), s) := by
  rw [loginAckRecv, Session.get_bind, if_pos hs]
  rfl

end Meanwhile
