-- SUMMARY: The machine of a channel follows the calls that a client makes, and starts and stops of its session.
import Meanwhile.Channel.Calls

/-!
# Calls, seen from a channel

New channels, and everything that a client or a service can call: it makes calls of the
machine of each channel. The setting says what is known of the environment, which calls
are made on the channel and whether services leave it alone.
-/

namespace Meanwhile

/-! ## New channels -/

section

variable {k : Setting} {chan : ChanRef} {s : MwSession}

theorem MwSession.Fits.announced (h : s.Fits k) (id : UInt32) : (s.announced id).Fits k where
  addressed := by
    intro id' c hc
    show c.addr < s.nextAddr + 1
    simp only [MwSession.announced, MwSession.setChannel, Function.update_apply] at hc
    split at hc
    · obtain rfl := Option.some.inj hc
      exact Nat.lt_succ_self _
    · exact Nat.lt_succ_of_lt (h.addressed id' c hc)
  ciphers := h.ciphers
  services := h.services

theorem channel?_of_le (h : s.Addressed) (haddr : s.nextAddr ≤ chan.addr) : s.channel? chan = none := by
  cases hc : s.channel? chan with
  | none => rfl
  | some c =>
    have hc' := map_of_channel? hc
    have hlt := h _ c hc'.1
    rw [hc'.2] at hlt
    exact absurd haddr (Nat.not_le.mpr hlt)

theorem view_of_le (h : s.Addressed) (haddr : s.nextAddr ≤ chan.addr) :
    s.view chan = ⟨.unborn, s.history chan⟩ := by
  simp [MwSession.view, MwSession.life, channel?_of_le h haddr, haddr]

theorem view_announced_self (s : MwSession) (id : UInt32) :
    (s.announced id).view ⟨id, s.nextAddr⟩ =
      ⟨.live { addr := s.nextAddr, state := .wait },
        .channel ⟨id, s.nextAddr⟩ (.state .wait) :: .channel ⟨id, s.nextAddr⟩ .born ::
          s.history ⟨id, s.nextAddr⟩⟩ := by
  rw [view_of_some (channel?_announced s id)]
  simp [MwSession.history, MwSession.announced, Event.isOf]

/-- What another channel sees of a new one: nothing, that it has missed its time, or
that it has lost its place. -/
theorem view_announced_other (h : s.Addressed) {id : UInt32} (hne : chan ≠ ⟨id, s.nextAddr⟩) :
    (s.announced id).view chan = s.view chan ∨
      (s.announced id).view chan = ⟨.gone, s.history chan⟩ ∧
        (s.view chan = ⟨.unborn, s.history chan⟩ ∨
          ∃ c, s.channel? chan = some c ∧ s.channels.map id = some c) := by
  have hhistory : (s.announced id).history chan = s.history chan := by
    have hne' : (⟨id, s.nextAddr⟩ : ChanRef) ≠ chan := hne.symm
    simp [MwSession.history, MwSession.announced, Event.isOf, hne', MwSession.setChannel]
  have haddr_ne (hid : chan.id = id) : s.nextAddr ≠ chan.addr := by
    intro heq
    apply hne
    obtain ⟨id', addr'⟩ := chan
    simp_all
  have hnext : (s.announced id).nextAddr = s.nextAddr + 1 := rfl
  by_cases hid : chan.id = id
  · have hnone : (s.announced id).channel? chan = none := by
      simp [MwSession.channel?, MwSession.announced, MwSession.setChannel, hid, haddr_ne hid]
    cases hc : s.channel? chan with
    | none =>
      left
      have haddr : s.nextAddr + 1 ≤ chan.addr ↔ s.nextAddr ≤ chan.addr := by
        have := haddr_ne hid
        omega
      simp only [MwSession.view, hhistory, MwSession.life, hnone, hc, hnext, haddr]
    | some c =>
      right
      have hmap := (map_of_channel? hc).1
      have hlt : chan.addr < (s.announced id).nextAddr := by
        have hlt := h _ c hmap
        rw [(map_of_channel? hc).2] at hlt
        exact Nat.lt_succ_of_lt hlt
      refine ⟨?_, .inr ⟨c, rfl, by rw [← hid]; exact hmap⟩⟩
      rw [MwSession.view, life_of_none hnone hlt, hhistory]
  · have hsame : (s.announced id).channel? chan = s.channel? chan := by
      simp [MwSession.channel?, MwSession.announced, MwSession.setChannel,
        Function.update_of_ne hid]
    by_cases haddr : chan.addr = s.nextAddr
    · right
      have hnone := channel?_of_le h (Nat.le_of_eq haddr.symm)
      refine ⟨?_, .inl (view_of_le h (Nat.le_of_eq haddr.symm))⟩
      rw [MwSession.view, life_of_none (by rw [hsame, hnone]) (by rw [hnext, haddr]; omega), hhistory]
    · left
      have haddr' : s.nextAddr + 1 ≤ chan.addr ↔ s.nextAddr ≤ chan.addr := by omega
      simp only [MwSession.view, hhistory, MwSession.life, hsame, hnext, haddr']

theorem nextOutgoingId_free {map : UInt32 → Option MwChannel} {fuel : Nat} {counter id : UInt32}
    (h : nextOutgoingId map fuel counter = some id) : map id = none := by
  induction fuel generalizing counter with
  | zero => simp [nextOutgoingId] at h
  | succ fuel ih =>
    rw [nextOutgoingId] at h
    split at h
    · exact ih h
    · rename_i hfree
      obtain rfl := Option.some.inj h
      simpa using hfree

/-- The session with a new channel of its own -/
def MwSession.outgoing (s : MwSession) (id : UInt32) : MwSession :=
  (s.announced id).withState ⟨id, s.nextAddr⟩ { addr := s.nextAddr, state := .wait } .init

theorem newOutgoing_of_some {id : UInt32}
    (hid : nextOutgoingId s.channels.map (2 ^ 32) s.channels.counter = some id) :
    (mwChannelNewOutgoing s).2 =
      MwSession.outgoing { s with channels := { s.channels with counter := id } } id := by
  rw [mwChannelNewOutgoing, Session.get_bind]
  dsimp only
  rw [hid]
  dsimp only
  rw [Session.modify_bind, Session.bind_apply, mwChannelNewIncoming_apply, Session.bind_apply,
    setChannelState_of_some (channel?_announced _ id)]
  rfl

theorem newOutgoing_of_none
    (hid : nextOutgoingId s.channels.map (2 ^ 32) s.channels.counter = none) :
    (mwChannelNewOutgoing s).2 = s := by
  rw [mwChannelNewOutgoing, Session.get_bind]
  dsimp only
  rw [hid]
  rfl

theorem outgoing_follows {id : UInt32} (hs : s.Fits k) (hfree : s.channels.map id = none) :
    (s.outgoing id).Fits k ∧ Calls k chan (s.view chan) ((s.outgoing id).view chan) := by
  have hlive := channel?_announced s id
  refine ⟨(hs.announced id).withState hlive _, ?_⟩
  by_cases heq : chan = ⟨id, s.nextAddr⟩
  · subst heq
    have hhistory : (s.announced id).history ⟨id, s.nextAddr⟩ = _ :=
      congrArg ChannelView.history (view_announced_self s id)
    rw [MwSession.outgoing, view_withState hlive, view_of_le hs.addressed (Nat.le_refl _),
      enterState, if_neg (by simp), hhistory]
    exact .single (.newOutgoing _)
  · have hother : (s.outgoing id).view chan = (s.announced id).view chan := by
      rw [MwSession.outgoing, MwSession.withState, if_neg (by simp),
        view_log_other _ (by simpa [Event.isOf] using fun h => heq h.symm)]
      exact view_setChannel_other (fun h => heq h.symm) hlive (by simp)
    rw [hother]
    obtain hsame | ⟨hgone, hunborn | ⟨c, -, hc⟩⟩ := view_announced_other hs.addressed heq
    · rw [hsame]
      exact .refl
    · rw [hgone, hunborn]
      exact .single (.missed _)
    · exact absurd (hfree.symm.trans hc) (by simp)

theorem newOutgoing_follows : Keeps (Follows k chan) mwChannelNewOutgoing := by
  intro s hs
  cases hid : nextOutgoingId s.channels.map (2 ^ 32) s.channels.counter with
  | none =>
    rw [newOutgoing_of_none hid]
    exact ⟨hs, .refl⟩
  | some id =>
    rw [newOutgoing_of_some hid]
    have hfits : MwSession.Fits { s with channels := { s.channels with counter := id } } k :=
      hs.same rfl rfl rfl rfl
    exact outgoing_follows hfits (nextOutgoingId_free hid)

end

/-! ## Calls and callbacks -/

section

variable {k : Setting} {chan : ChanRef} {h : Hooks} (hh : h.Respects (Follows k chan))

include hh

theorem setState_follows (state : MwSessionState) (info : StateInfo) :
    Keeps (Follows k chan) (setState h state info) := by
  intro s
  by_cases hs : s.state = state
  · rw [setState_apply_of_eq h info hs]
    exact Std.Refl.refl s
  · rw [setState_apply_of_ne h info hs]
    have henter : Follows k chan s (s.enter state info) := by
      refine follows_same rfl rfl ?_ rfl rfl
      simp [MwSession.history, MwSession.enter, Event.isOf]
    refine IsTrans.trans _ _ _ henter ?_
    rw [Session.ite_apply]
    split
    · exact plainCallback_keeps hh rfl _
    · exact Std.Refl.refl _

theorem write_follows (msg : MwMessage) : Keeps (Follows k chan) (mwSessionSend h msg) :=
  mwSessionSend_keeps hh fun _ => follows_log_other _ rfl

theorem stop_follows (reason : UInt32) : Keeps (Follows k chan) (mwSessionStop h reason) := by
  refine Keeps.bind Keeps.get fun s => ?_
  refine Keeps.bind (fun s => follows_log_other _ rfl) fun _ => ?_
  refine Keeps.ite (fun _ => Keeps.pure _) fun _ => ?_
  refine Keeps.bind (setState_follows hh _ _) fun _ => ?_
  refine Keeps.bind ?_ fun _ => setState_follows hh _ _
  refine Keeps.bind Keeps.get fun s => ?_
  refine Keeps.bind (Keeps.forM fun srvc _ => shutService_keeps hh srvc _) fun _ => ?_
  refine Keeps.bind (write_follows hh _) fun _ => ?_
  refine Keeps.bind (fun s => follows_same rfl rfl rfl rfl rfl) fun _ => ?_
  exact Keeps.bind (fun s => follows_log_other _ rfl) fun _ => hh.ioClose

theorem forceLogin_follows : Keeps (Follows k chan) (mwSessionForceLogin h) := by
  refine Keeps.bind Keeps.get fun s => ?_
  refine Keeps.ite (fun _ => Keeps.pure _) fun _ => ?_
  exact Keeps.bind (setState_follows hh _ _) fun _ => write_follows hh _

theorem start_follows : Keeps (Follows k chan) (mwSessionStart h) := by
  refine Keeps.bind Keeps.get fun s => ?_
  refine Keeps.ite (fun _ => Keeps.pure _) fun _ => ?_
  refine Keeps.bind (fun s => follows_log_other _ rfl) fun _ => ?_
  refine Keeps.bind (setState_follows hh _ _) fun _ => ?_
  refine Keeps.bind Keeps.get fun s => ?_
  refine Keeps.bind (write_follows hh _) fun ret => ?_
  exact Keeps.ite (fun _ => stop_follows hh _) fun _ => setState_follows hh _ _

theorem handshakeAck_follows (msg : MwMsgHandshakeAck) :
    Keeps (Follows k chan) (handshakeAckRecv h msg) := by
  refine Keeps.bind Keeps.get fun s => ?_
  refine Keeps.ite (fun _ => ?_) fun _ => Keeps.ite (fun _ => ?_) fun _ => Keeps.pure _
  · exact Keeps.bind (setState_follows hh _ _) fun _ => setState_follows hh _ _
  · refine Keeps.bind (setState_follows hh _ _) fun _ => ?_
    refine Keeps.bind (fun s => Primitive.core (sameCore_setServerVersion s msg)) fun _ => ?_
    refine Keeps.bind Keeps.get fun s => ?_
    cases composeAuth h s msg with
    | none => exact fault_keeps
    | some auth =>
      refine Keeps.bind Keeps.get fun s => ?_
      refine Keeps.bind (write_follows hh _) fun ret => ?_
      exact Keeps.ite (fun _ => setState_follows hh _ _) fun _ => Keeps.pure _

theorem loginAck_follows (msg : MwMsgLoginAck) : Keeps (Follows k chan) (loginAckRecv h msg) := by
  refine Keeps.bind Keeps.get fun s => ?_
  refine Keeps.ite (fun _ => Keeps.pure _) fun _ => ?_
  refine Keeps.bind (fun s => Primitive.core (sameCore_setLogin s msg)) fun _ => ?_
  refine Keeps.bind (setState_follows hh _ _) fun _ => ?_
  refine Keeps.bind Keeps.get fun s => ?_
  refine Keeps.bind (Keeps.forM fun srvc _ => mwServiceStart_keeps hh srvc) fun _ => ?_
  exact setState_follows hh _ _

variable (hspares : k.spares → h.Spares chan) (hwrite : ∀ b s, (h.ioWrite b s).2 = s)

include hspares hwrite

theorem runChannelCall_follows {s : MwSession} {c : MwChannel} (hc : s.channel? chan = some c)
    {call : ChannelCall} (hcall : k.calls call c) :
    Follows k chan s (runChannelCall h chan c call s).2 := by
  cases call with
  | setService srvc => exact setService_follows hc srvc
  | setProtoType _ | setProtoVer _ | setOptions _ | setUser _ | setAddtlCreate _ | setAddtlAccept _
  | setServiceData _ => exact describe_keeps chan c rfl s
  | populateSupportedCipherInstances => exact populate_follows hc hcall
  | selectCipherInstance cipher =>
    cases cipher with
    | none => exact select_follows hc ⟨_, hcall⟩ (by simp)
    | some type =>
      exact select_follows hc ⟨_, hcall⟩ fun ci hci => List.mem_of_find?_eq_some hci
  | create => exact create_follows hc hwrite hcall
  | accept => exact accept_follows hh hspares hwrite hc hcall
  | destroy reason info => exact destroy_follows hc hwrite hcall
  | sendEncrypted type data encrypt => exact sendEncrypted_follows hc hwrite hcall

/-- A call, with what the setting says about those on the channel -/
theorem runApiCall_follows {call : ApiCall} {s : MwSession}
    (hcall : ∀ call' c, call = .channel chan call' → s.channel? chan = some c → k.calls call' c) :
    Follows k chan s (runApiCall h call s).2 := by
  refine runApiCall_of hh (fun reason _ => stop_follows hh reason)
    (fun _ => forceLogin_follows hh) (fun _ => newOutgoing_follows) ?_
  rintro chan' c call' heq hc
  by_cases hne : chan' = chan
  · subst hne
    exact runChannelCall_follows hh hspares hwrite hc (hcall call' c heq hc)
  · have := follows_through k hne
    exact runChannelCall_keeps hh c call' s

end

/-- A call is one of those that may be made on the channel, if it is on it. -/
def Allows (calls : ChannelCall → MwChannel → Prop) (chan : ChanRef) (call : ApiCall)
    (s : MwSession) : Prop :=
  ∀ call' c, call = .channel chan call' → s.channel? chan = some c → calls call' c

/-- An environment is what a setting says about a channel. -/
structure Env.Suits (env : Env) (k : Setting) (chan : ChanRef) : Prop where
  onlyWrites : env.OnlyWrites
  calls : env.Meets (Allows k.calls chan)
  spares : k.spares → ∀ n, (env.hooks n).Spares chan

theorem Env.Suits.follows {env : Env} {k : Setting} {chan : ChanRef} (henv : env.Suits k chan)
    (n : Nat) : (env.hooks n).Respects (Follows k chan) :=
  Env.hooks_respects henv.calls (fun n hh _ _ hcall =>
    runApiCall_follows hh (fun hk => henv.spares hk n) (Env.hooks_onlyWrites henv.onlyWrites n) hcall) n

end Meanwhile
