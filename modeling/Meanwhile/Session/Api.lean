-- SUMMARY: What a client or a service may ask of a session, and callbacks as sequences of such calls.
import Meanwhile.Channel.Receive

/-!
# Calls into the library

`ApiCall` is what may be called at any time, also from inside a callback. A
client is an `Env`: it answers every callback with a list of calls, which may
depend on the whole session and its trace. Since these calls make callbacks in
turn, the hooks for an environment are built up by nesting depth. At depth zero
nobody calls back, and a client that does so for ever has no run.
-/

namespace Meanwhile

variable (h : Hooks)

/-! ## Session calls -/

/-- `session_buf_free` -/
def sessionBufFree : Session Unit := modify fun s => { s with input := {} }

/-- The middle of `mwSession_stop`, between its two changes of state. -/
def shutSession (reason : UInt32) : Session Unit := do
  ((← get).services.map (·.type)).forM (mwServiceStop h)
  let _ ← mwSessionSend h
    { head := { channel := masterChannelId }, body := .channelDestroy { reason := reason } }
  sessionBufFree
  record .close
  h.ioClose

/-- `mwSession_stop` -/
def mwSessionStop (reason : UInt32) : Session Unit := do
  let s ← get
  record (.stop s.state)
  if s.state = .stopped ∨ s.state = .stopping then return
  setState h .stopping (.code reason)
  shutSession h reason
  setState h .stopped (.code reason)

/-- `mwSession_forceLogin` -/
def mwSessionForceLogin : Session Int := do
  if (← get).state ≠ .loginRedir then return -1
  setState h .loginCont (.code 0)
  mwSessionSend h { body := .loginContinue }

/-- `mwSession_sendAnnounce` -/
def mwSessionSendAnnounce (mayReply : Bool) (text : MwString) (recipients : List MwString) :
    Session Int := do
  if (← get).state ≠ .started then return -1
  mwSessionSend h
    { body := .announce { mayReply := mayReply, text := text, recipients := recipients } }

/-- `mwSession_setPrivacyInfo` -/
def mwSessionSetPrivacyInfo (privacy : MwPrivacyInfo) : Session Int :=
  mwSessionSend h { body := .setPrivacyList (mwPrivacyInfoClone privacy) }

/-- `mwSession_setUserStatus` -/
def mwSessionSetUserStatus (status : MwUserStatus) : Session Int :=
  mwSessionSend h { body := .setUserStatus status }

/-- `mwSession_senseService` -/
def mwSessionSenseService (srvc : UInt32) : Session Unit := do
  if srvc = 0 ∨ (← get).state ≠ .started then return
  discard (mwSessionSend h { body := .senseService srvc })

/-! ## Calls -/

/-- A call on a channel, by what it does there. -/
inductive ChannelCall where
  | setService (srvc : UInt32)
  | setProtoType (protoType : UInt32)
  | setProtoVer (protoVer : UInt32)
  | setOptions (options : UInt32)
  | setUser (user : MwLoginInfo)
  | setAddtlCreate (addtl : MwOpaque)
  | setAddtlAccept (addtl : MwOpaque)
  | setServiceData (data : Nat)
  | populateSupportedCipherInstances
  /-- `mwChannel_selectCipherInstance` with a supported instance, or with none -/
  | selectCipherInstance (cipher : Option MwCipherType)
  | create
  | accept
  | destroy (reason : UInt32) (info : MwOpaque)
  | sendEncrypted (type : UInt32) (data : MwOpaque) (encrypt : Bool)

inductive ApiCall where
  | stop (reason : UInt32)
  | forceLogin
  | sendKeepalive
  | sendAnnounce (mayReply : Bool) (text : MwString) (recipients : List MwString)
  | setPrivacyInfo (privacy : MwPrivacyInfo)
  | setUserStatus (status : MwUserStatus)
  | senseService (srvc : UInt32)
  | serviceStart (srvc : UInt32)
  | serviceStarted (srvc : UInt32)
  | serviceStop (srvc : UInt32)
  | serviceStopped (srvc : UInt32)
  | serviceError (srvc : UInt32)
  | newOutgoing
  | channel (chan : ChanRef) (call : ChannelCall)

def runChannelCall (chan : ChanRef) (c : MwChannel) : ChannelCall → Session Unit
  | .setService srvc => mwChannelSetService chan srvc
  | .setProtoType protoType => mwChannelSetProtoType chan protoType
  | .setProtoVer protoVer => mwChannelSetProtoVer chan protoVer
  | .setOptions options => mwChannelSetOptions chan options
  | .setUser user => mwChannelSetUser chan user
  | .setAddtlCreate addtl => mwChannelSetAddtlCreate chan addtl
  | .setAddtlAccept addtl => mwChannelSetAddtlAccept chan addtl
  | .setServiceData data => mwChannelSetServiceData chan data
  | .populateSupportedCipherInstances => mwChannelPopulateSupportedCipherInstances chan
  | .selectCipherInstance none => mwChannelSelectCipherInstance chan none
  | .selectCipherInstance (some type) =>
      mwChannelSelectCipherInstance chan (c.supported? type.code)
  | .create => discard (mwChannelCreate h chan)
  | .accept => discard (mwChannelAccept h chan)
  | .destroy reason info => discard (mwChannelDestroy h chan reason info)
  | .sendEncrypted type data encrypt => discard (mwChannelSendEncrypted h chan type data encrypt)

/-- Make a call. Nobody can name a channel that is gone. -/
def runApiCall : ApiCall → Session Unit
  | .stop reason => mwSessionStop h reason
  | .forceLogin => discard (mwSessionForceLogin h)
  | .sendKeepalive => discard (mwSessionSendKeepalive h)
  | .sendAnnounce mayReply text recipients =>
      discard (mwSessionSendAnnounce h mayReply text recipients)
  | .setPrivacyInfo privacy => discard (mwSessionSetPrivacyInfo h privacy)
  | .setUserStatus status => discard (mwSessionSetUserStatus h status)
  | .senseService srvc => mwSessionSenseService h srvc
  | .serviceStart srvc => mwServiceStart h srvc
  | .serviceStarted srvc => mwServiceStarted srvc
  | .serviceStop srvc => mwServiceStop h srvc
  | .serviceStopped srvc => mwServiceStopped srvc
  | .serviceError srvc => mwServiceError h srvc
  | .newOutgoing => discard mwChannelNewOutgoing
  | .channel chan call => do
      match (← get).channel? chan with
      | some c => runChannelCall h chan c call
      | none => return

/-! ## Environments -/

/-- A client with its services. Starting a session and feeding it bytes are not
among the calls it makes from inside a callback. -/
structure Env where
  /-- What `io_write` does before it returns, and what it returns -/
  write : List UInt8 → MwSession → List ApiCall × Int
  close : MwSession → List ApiCall
  call : Callback → MwSession → List ApiCall
  uninit : Uninit := {}
  fresh : MwSession → Block := fun _ => .zero
  keyRandom : MwSession → List UInt8 := fun _ => [0, 0, 0, 0, 0]
  randPrivateKey : MwSession → Nat := fun _ => 0

/-- The hooks of an environment whose callbacks nest at most to a depth. -/
def Env.hooks (env : Env) : Nat → Hooks
  | 0 =>
      { ioWrite := fun b => do return (env.write b (← get)).2
        ioClose := pure ()
        call := fun _ => pure ()
        uninit := env.uninit
        fresh := env.fresh
        keyRandom := env.keyRandom
        randPrivateKey := env.randPrivateKey }
  | n + 1 =>
      { ioWrite := fun b => do
          let (calls, ret) := env.write b (← get)
          calls.forM (runApiCall (env.hooks n))
          return ret
        ioClose := do (env.close (← get)).forM (runApiCall (env.hooks n))
        call := fun c => do (env.call c (← get)).forM (runApiCall (env.hooks n))
        uninit := env.uninit
        fresh := env.fresh
        keyRandom := env.keyRandom
        randPrivateKey := env.randPrivateKey }

end Meanwhile
