-- SUMMARY: What the functions of a channel come to when io_write does nothing but write.
import Meanwhile.Session.Run

/-!
# Channels with a plain `io_write`

As long as `io_write` makes no calls of its own, most functions of a channel run
without anybody coming in between, and what they do to the session can be written
down. Only a service that is called by them can do more.
-/

namespace Meanwhile

/-- A client whose `io_write` does nothing else -/
def Env.OnlyWrites (env : Env) : Prop := ∀ b s, (env.write b s).1 = []

theorem Env.hooks_onlyWrites {env : Env} (henv : env.OnlyWrites) (n : Nat) (b : List UInt8)
    (s : MwSession) : ((env.hooks n).ioWrite b s).2 = s := by
  cases n with
  | zero => rfl
  | succ n => simp [Env.hooks, henv b s]

/-- The session once a message of a channel has been written -/
def MwSession.sent (s : MwSession) (chan : ChanRef) (msg : MwMessage) : MwSession :=
  (s.log (.channel chan (.sends msg))).log (.write msg)

/-- The message of `mwChannel_destroy` -/
def destroyMessage (id : UInt32) (reason : UInt32) (info : MwOpaque) : MwMessage where
  head := { channel := id }
  body := .channelDestroy { reason := reason, data := info }

/-- The state that a reason leaves a channel in -/
def closedState (reason : UInt32) : MwChannelState := if reason ≠ 0 then .error else .destroy

theorem closedState_cases (reason : UInt32) :
    closedState reason = .error ∨ closedState reason = .destroy := by
  unfold closedState
  split
  · exact .inl rfl
  · exact .inr rfl

/-- The policy that a channel is created with -/
def MwChannel.createPolicy (c : MwChannel) : UInt16 :=
  if (c.supported.getD []).isEmpty then encryptNone else encryptWhatever

/-- The channel that is about to be created -/
def MwChannel.offering (c : MwChannel) : MwChannel := { c with offeredPolicy := c.createPolicy }

/-- The session in which a channel that has been announced is looked at -/
def MwSession.arrived (s : MwSession) (head : MwMessageHead) (msg : MwMsgChannelCreate) : MwSession :=
  (s.announced msg.channel).log
    (.channel ⟨msg.channel, s.nextAddr⟩ (.arrives ⟨head, .channelCreate msg⟩))

theorem channel?_arrived (s : MwSession) (head : MwMessageHead) (msg : MwMsgChannelCreate) :
    (s.arrived head msg).channel? ⟨msg.channel, s.nextAddr⟩ =
      some { addr := s.nextAddr, state := .wait } :=
  channel?_announced s msg.channel

theorem channelCreateRecv_arrived (h : Hooks) (head : MwMessageHead) (msg : MwMsgChannelCreate)
    (s : MwSession) :
    channelCreateRecv h head msg s =
      mwChannelRecvCreate h ⟨msg.channel, s.nextAddr⟩ msg (s.arrived head msg) := by
  rw [channelCreateRecv, Session.bind_apply, mwChannelNewIncoming_apply, record_bind]
  rfl

section

variable {h : Hooks} (hwrite : ∀ b s, (h.ioWrite b s).2 = s)

include hwrite

theorem sendFor_write {msg : MwMessage} (hmsg : ∀ status, msg.body ≠ .setUserStatus status)
    (chan : ChanRef) (s : MwSession) : (sendFor h chan msg s).2 = s.sent chan msg := by
  rw [sendFor, record_bind, mwSessionSend_of_ne h hmsg, hwrite]
  rfl

theorem mwChannelCreate_write {s : MwSession} {chan : ChanRef} {c : MwChannel}
    (hc : s.channel? chan = some c) (hinit : c.state = .init)
    (hid : mwChannelIdIsOutgoing chan.id = true) :
    ∃ state, (state = .wait ∨ state = .error) ∧ (mwChannelCreate h chan s).2 =
      let s1 := s.setChannel chan.id (some c.offering)
      (s1.sent chan (createMessage s1 chan.id c.offering)).withState chan c.offering state := by
  have hgo : ¬ (c.state ≠ .init ∨ mwChannelIdIsIncoming chan.id = true) := by
    simp [hinit, mwChannelIdIsIncoming, hid]
  set s1 := s.setChannel chan.id (some c.offering) with hs1
  set msg := createMessage s1 chan.id c.offering with hmsg
  have hlive : (s1.sent chan msg).channel? chan = some c.offering := by
    have haddr : c.addr = chan.addr := (map_of_channel? hc).2
    simp [hs1, MwSession.sent, MwSession.log, MwSession.channel?, MwSession.setChannel,
      MwChannel.offering, haddr]
  have hrun : mwChannelCreate h chan s = (do
      let ret ← sendFor h chan msg
      setChannelState chan (if ret ≠ 0 then .error else .wait)
      return ret : Session Int) s1 := by
    rw [mwChannelCreate, Session.bind_apply, deref_of_some hc]
    dsimp only
    rw [if_neg hgo, Session.bind_apply, updateChannel_of_some hc]
    rfl
  refine ⟨if (sendFor h chan msg s1).1 ≠ 0 then .error else .wait, ?_, ?_⟩
  · split
    · exact .inr rfl
    · exact .inl rfl
  · rw [hrun, Session.bind_apply, Session.bind_apply,
      sendFor_write hwrite (by simp [hmsg, createMessage]), setChannelState_of_some hlive]
    rfl

theorem mwChannelDestroy_write {s : MwSession} {chan : ChanRef} {c : MwChannel}
    (hc : s.channel? chan = some c) (reason : UInt32) (info : MwOpaque) :
    (mwChannelDestroy h chan reason info s).2 =
      ((s.withState chan c (closedState reason)).setChannel chan.id none).sent chan
        (destroyMessage chan.id reason info) := by
  rw [mwChannelDestroy_of_some h hc]
  exact sendFor_write hwrite (by simp) chan _

end

end Meanwhile
