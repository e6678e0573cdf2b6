-- SUMMARY: Which of the messages that do not parse leave a session as it was.
import Meanwhile.Channel.Direct

/-!
# Malformed messages

`session_process` hands on a message that does not parse completely, with what has
been read of it. Whether anything comes of that depends on its type, on what has been
read and on the session: `MwSession.Ignores` says when nothing does, and everything
else shows in the session itself, at the server or at the client.
-/

namespace Meanwhile

/-! ## Noise -/

/-- Events that the server, the client or a service sees -/
def Event.visible : Event → Bool
  | .write _ | .keepalive | .callback _ | .close => true
  | _ => false

/-- Something has been seen in between. -/
def Noisy (s s' : MwSession) : Prop :=
  ∃ e t, Event.visible e = true ∧ s.trace <:+ t ∧ (e :: t) <:+ s'.trace

theorem Noisy.after {s s' s'' : MwSession} (h : Noisy s' s'') (hs : s.trace <:+ s'.trace) :
    Noisy s s'' := by
  obtain ⟨e, t, he, ht, hsuffix⟩ := h
  exact ⟨e, t, he, hs.trans ht, hsuffix⟩

theorem Noisy.before {s s' s'' : MwSession} (h : Noisy s s') (hs : s'.trace <:+ s''.trace) :
    Noisy s s'' := by
  obtain ⟨e, t, he, ht, hsuffix⟩ := h
  exact ⟨e, t, he, ht, hsuffix.trans hs⟩

theorem Noisy.trace {s s' : MwSession} (h : Noisy s s') : s.trace <:+ s'.trace := by
  obtain ⟨e, t, -, ht, hsuffix⟩ := h
  exact (ht.trans (List.suffix_cons _ _)).trans hsuffix

/-- The session is as it was, and nobody has seen anything. -/
structure Untouched (s s' : MwSession) : Prop where
  state : s'.state = s.state
  login : s'.login = s.login
  status : s'.status = s.status
  privacy : s'.privacy = s.privacy
  services : s'.services = s.services
  channels : s'.channels = s.channels
  silent : ∃ l, s'.trace = l ++ s.trace ∧ ∀ e ∈ l, Event.visible e = false
  fault : s'.fault = s.fault

theorem Noisy.not_untouched {s s' : MwSession} (h : Noisy s s') : ¬ Untouched s s' := by
  intro hsame
  obtain ⟨e, t, he, ⟨k, rfl⟩, m, hm⟩ := h
  obtain ⟨l, hl, hsilent⟩ := hsame.silent
  have happ : l ++ s.trace = (m ++ e :: k) ++ s.trace := by
    rw [← hl, ← hm]
    simp
  have hfalse := hsilent e (by simp [List.append_cancel_right happ])
  rw [he] at hfalse
  simp at hfalse

/-- Only an invisible event has been added. -/
theorem untouched_log (s : MwSession) {e : Event} (he : e.visible = false) : Untouched s (s.log e) :=
  ⟨rfl, rfl, rfl, rfl, rfl, rfl, ⟨[e], rfl, by simpa using he⟩, rfl⟩

theorem Untouched.trans {s t u : MwSession} (hst : Untouched s t) (htu : Untouched t u) :
    Untouched s u := by
  obtain ⟨l, hl, hsilent⟩ := hst.silent
  obtain ⟨l', hl', hsilent'⟩ := htu.silent
  refine ⟨htu.state.trans hst.state, htu.login.trans hst.login, htu.status.trans hst.status,
    htu.privacy.trans hst.privacy, htu.services.trans hst.services,
    htu.channels.trans hst.channels, ⟨l' ++ l, by rw [hl', hl, List.append_assoc], ?_⟩,
    htu.fault.trans hst.fault⟩
  intro e he
  obtain he | he := List.mem_append.mp he
  · exact hsilent' e he
  · exact hsilent e he

theorem Untouched.refl (s : MwSession) : Untouched s s :=
  ⟨rfl, rfl, rfl, rfl, rfl, rfl, ⟨[], rfl, by simp⟩, rfl⟩

theorem withState_trace (s : MwSession) (chan : ChanRef) (c : MwChannel) (state : MwChannelState) :
    s.trace <:+ (s.withState chan c state).trace := by
  unfold MwSession.withState
  split
  · exact List.suffix_refl _
  · exact List.suffix_cons _ _

section

variable {force : Prop} {h : Hooks} (hh : h.Respects (Eff force))

include hh

theorem callback_noisy (c : Callback) (s : MwSession) : Noisy s (callback h c s).2 :=
  ⟨.callback c, s.trace, rfl, List.suffix_refl _, (hh.call c (s.log (.callback c))).trace⟩

theorem mwSessionSend_noisy (msg : MwMessage) (s : MwSession) :
    Noisy s (mwSessionSend h msg s).2 :=
  ⟨.write msg, s.trace, rfl, List.suffix_refl _, (mwSessionSend_log hh msg s).trace⟩

/-- The client hears of a change of state, or it is all there is. -/
theorem setState_noisy {s : MwSession} {state : MwSessionState} (info : StateInfo)
    (hne : s.state ≠ state) :
    Noisy s (setState h state info s).2 ∨ (setState h state info s).2 = s.enter state info := by
  rw [setState_apply_of_ne h info hne, Session.ite_apply]
  split
  · exact .inl ((callback_noisy hh _ _).after (List.suffix_cons _ _))
  · exact .inr rfl

theorem sendFor_noisy (chan : ChanRef) (msg : MwMessage) (s : MwSession) :
    Noisy s (sendFor h chan msg s).2 :=
  (mwSessionSend_noisy hh msg _).after (List.suffix_cons _ _)

/-- Destroying a channel that is there is written. -/
theorem destroy_noisy {s : MwSession} {chan : ChanRef} {c : MwChannel}
    (hc : s.channel? chan = some c) (reason : UInt32) (info : MwOpaque) :
    Noisy s (mwChannelDestroy h chan reason info s).2 := by
  rw [mwChannelDestroy_of_some h hc]
  exact (sendFor_noisy hh chan _ _).after (withState_trace s chan c _)

end

/-! ## Calm -/

/-- The state that a channel is in, as long as it is there -/
def MwSession.channelState? (s : MwSession) (chan : ChanRef) : Option MwChannelState :=
  (s.channel? chan).map (·.state)

/-- A channel stays and stays in its state. -/
structure Still (chan : ChanRef) (s s' : MwSession) : Prop where
  trace : s.trace <:+ s'.trace
  state : s'.channelState? chan = s.channelState? chan

/-- It does so as long as nothing is seen. -/
structure Calm (chan : ChanRef) (s s' : MwSession) : Prop where
  trace : s.trace <:+ s'.trace
  state : Noisy s s' ∨ s'.channelState? chan = s.channelState? chan

theorem Noisy.calm {chan : ChanRef} {s s' : MwSession} (h : Noisy s s') : Calm chan s s' :=
  ⟨h.trace, .inl h⟩

theorem Still.calm {chan : ChanRef} {s s' : MwSession} (h : Still chan s s') : Calm chan s s' :=
  ⟨h.trace, .inr h.state⟩

theorem channel?_setChannel_of_ne {s : MwSession} {chan : ChanRef} {id : UInt32}
    (hid : chan.id ≠ id) (c' : Option MwChannel) :
    (s.setChannel id c').channel? chan = s.channel? chan := by
  simp [MwSession.channel?, MwSession.setChannel, Function.update_of_ne hid]

theorem still_update {chan chan' : ChanRef} {s : MwSession} {c c' : MwChannel}
    (hc : s.channel? chan' = some c) (haddr : c'.addr = c.addr) (hstate : c'.state = c.state) :
    Still chan s (s.setChannel chan'.id (some c')) := by
  refine ⟨List.suffix_refl _, ?_⟩
  rw [MwSession.channelState?, MwSession.channelState?]
  by_cases hid : chan.id = chan'.id
  · have hmap := map_of_channel? hc
    simp only [MwSession.channel?, MwSession.setChannel, hid, Function.update_self, hmap.1, haddr]
    split <;> simp [hstate]
  · rw [channel?_setChannel_of_ne hid]

instance (chan : ChanRef) : Primitive (Still chan) where
  refl := fun s => ⟨List.suffix_refl _, rfl⟩
  trans := fun _ _ _ hst htu => ⟨hst.trace.trans htu.trace, htu.state.trans hst.state⟩
  plain := fun _ _ _ => ⟨List.suffix_cons _ _, rfl⟩
  core := by
    intro s s' hs
    refine ⟨by rw [hs.trace], ?_⟩
    simp only [MwSession.channelState?, MwSession.channel?, hs.map]
  update := fun hc hsame => still_update hc hsame.addr hsame.state

instance (chan : ChanRef) : Primitive (Calm chan) where
  refl := fun s => Still.calm (Std.Refl.refl s)
  trans := by
    intro s t u hst htu
    refine ⟨hst.trace.trans htu.trace, ?_⟩
    obtain hnoisy | hst' := hst.state
    · exact .inl (hnoisy.before htu.trace)
    · obtain hnoisy | htu' := htu.state
      · exact .inl (hnoisy.after hst.trace)
      · exact .inr (htu'.trans hst')
  plain := fun s _ he => Still.calm (Primitive.plain s he)
  core := fun hs => Still.calm (Primitive.core hs)
  update := fun hc hsame => Still.calm (Primitive.update hc hsame)

instance (chan chan' : ChanRef) : Lenient (Still chan) chan' where
  change := fun hc haddr hstate _ => still_update hc haddr hstate
  select := fun _ _ => ⟨List.suffix_cons _ _, rfl⟩

instance (chan chan' : ChanRef) : Lenient (Calm chan) chan' where
  change := fun hc haddr hstate _ => Still.calm (still_update hc haddr hstate)
  select := fun _ _ => Still.calm ⟨List.suffix_cons _ _, rfl⟩

theorem flushChannel_calm {force : Prop} {h : Hooks} (hh : h.Respects (Eff force))
    (chan : ChanRef) : Keeps (Calm chan) (flushChannel h chan) := by
  have hcall (srvc : UInt32) (type : UInt16) (data : MwOpaque) :
      Keeps (Calm chan) (callback h (.recv srvc chan type data)) :=
    fun s => (callback_noisy hh _ s).calm
  have hsend (m : ChannelMessage) : Keeps (Calm chan) (sendFor h chan m.toMessage) :=
    fun s => (sendFor_noisy hh chan _ s).calm
  refine derefThen_keeps chan (Keeps.pure _) fun c => ?_
  refine Keeps.bind (flushIncoming_keeps hcall _) fun _ => ?_
  refine Keeps.bind (changeChannel_keeps fun _ => ⟨rfl, rfl, rfl⟩) fun _ => ?_
  refine derefThen_keeps chan (Keeps.pure _) fun c => ?_
  refine Keeps.bind (flushOutgoing_keeps hsend _) fun _ => ?_
  exact updateChannel_of fun hc => Still.calm (still_update hc rfl rfl)

/-! ## Messages that do something -/

/-- One of the ways in which a session is not as it was -/
inductive Touches (s s' : MwSession) : Prop where
  | noisy (h : Noisy s s')
  | state (h : s'.state ≠ s.state)
  | status (h : s'.status ≠ s.status)
  | privacy (h : s'.privacy ≠ s.privacy)
  | channels (h : s'.channels ≠ s.channels)
  | fault (h : s'.fault ≠ s.fault)

theorem Touches.not_untouched {s s' : MwSession} (h : Touches s s') : ¬ Untouched s s' := by
  intro hsame
  cases h with
  | noisy h => exact h.not_untouched hsame
  | state h => exact h hsame.state
  | status h => exact h hsame.status
  | privacy h => exact h hsame.privacy
  | channels h => exact h hsame.channels
  | fault h => exact h hsame.fault

theorem Touches.of_log {s s' : MwSession} {e : Event} (h : Touches (s.log e) s') :
    Touches s s' := by
  cases h with
  | noisy h => exact .noisy (h.after (List.suffix_cons _ _))
  | state h => exact .state h
  | status h => exact .status h
  | privacy h => exact .privacy h
  | channels h => exact .channels h
  | fault h => exact .fault h

section

variable {force : Prop} {h : Hooks} (hh : h.Respects (Eff force)) {s : MwSession}

include hh

theorem setState_state {state : MwSessionState} (info : StateInfo) (hstate : state ≠ .loginRedir) :
    (setState h state info s).2.state = state ∨ (setState h state info s).2.state = .stopped := by
  by_cases heq : s.state = state
  · rw [setState_apply_of_eq h info heq]
    exact .inl heq
  · exact ((setState_of_ne hh info heq).state_cases hstate).imp id And.left

/-- Once the state of a session has been set, it is there or the session is stopped. -/
theorem setState_touches {s0 : MwSession} {state : MwSessionState} (info : StateInfo)
    (hstate : state ≠ .loginRedir) (hne : s0.state ≠ state) (hstopped : s0.state ≠ .stopped) :
    Touches s0 (setState h state info s).2 := by
  refine .state fun heq => ?_
  obtain hset | hset := @setState_state _ h hh s _ info hstate
  · exact hne (heq.symm.trans hset)
  · exact hstopped (heq.symm.trans hset)

theorem handshakeAck_touches (msg : MwMsgHandshakeAck)
    (hs : s.state = .handshake ∨ s.state = .loginCont) :
    Touches s (handshakeAckRecv h msg s).2 := by
  have hne (state : MwSessionState) (hfirst : state ≠ .handshake) (hcont : state ≠ .loginCont) :
      s.state ≠ state := by
    rintro rfl
    exact hs.elim hfirst hcont
  have hlogin {s' : MwSession} : Touches s (setState h .login (.code 0) s').2 :=
    setState_touches hh _ (by decide) (hne _ (by decide) (by decide))
      (hne _ (by decide) (by decide))
  obtain hs | hs := hs
  · rw [handshakeAckRecv_of_handshake h msg hs]
    have hack := @setState_state _ h hh s .handshakeAck (.code 0) (by decide)
    set s1 := (setState h .handshakeAck (.code 0) s).2 with hs1
    dsimp only
    set s2 := s1.setServerVersion msg with hs2
    have hstate : s2.state = .handshakeAck ∨ s2.state = .stopped := hack
    have hlate {s' : MwSession} (h' : s'.state = s2.state ∨ s'.state = .stopped) :
        Touches s s' := by
      refine .state fun heq => ?_
      rw [heq] at h'
      obtain h' | h' := h'
      · obtain hstate | hstate := hstate
        · exact hne _ (by decide) (by decide) (h'.trans hstate)
        · exact hne _ (by decide) (by decide) (h'.trans hstate)
      · exact hne _ (by decide) (by decide) h'
    cases composeAuth h s2 msg with
    | none => exact hlate (.inl rfl)
    | some auth =>
      dsimp only
      split
      · exact hlogin
      · refine hlate (((mwSessionSend_log hh _ s2).state_cases ?_).imp id And.left)
        obtain hstate | hstate := hstate <;> simp [MwSession.log, hstate]
  · rw [handshakeAckRecv_of_loginCont h msg hs]
    exact hlogin

theorem loginAck_touches (msg : MwMsgLoginAck) (hs : s.state = .login) :
    Touches s (loginAckRecv h msg s).2 := by
  rw [loginAckRecv_of_login h msg hs]
  exact setState_touches hh _ (by decide) (by rw [hs]; decide) (by rw [hs]; decide)

theorem loginRedirect_touches (msg : MwMsgLoginRedirect) (hs : s.state ≠ .loginRedir) :
    Touches s (loginRedirectRecv h msg s).2 := by
  obtain hnoisy | hset := setState_noisy hh (.text msg.host) hs
  · exact .noisy hnoisy
  · refine .state ?_
    rw [loginRedirectRecv, hset]
    exact fun heq => hs heq.symm

theorem stop_touches (reason : UInt32) (hs : ¬ (s.state = .stopped ∨ s.state = .stopping)) :
    Touches s (mwSessionStop h reason s).2 := by
  obtain ⟨hstopped, hstopping⟩ := not_or.mp hs
  rw [mwSessionStop, Session.get_bind, record_bind, if_neg hs, Session.bind_apply,
    Session.bind_apply]
  exact setState_touches hh _ (by decide) hstopped hstopped

end

/-! ## Channel messages that do something -/

/-- For a channel that waits, something is seen to happen, or else the session ends up
in a certain way. -/
def Answers (chan : ChanRef) (P : MwSession → Prop) {α : Type} (m : Session α) : Prop :=
  ∀ s, s.channelState? chan = some .wait → Noisy s (m s).2 ∨ P (m s).2

section

variable {chan : ChanRef} {P : MwSession → Prop} {α β : Type}

theorem Answers.bind {x : Session α} {f : α → Session β} (hx : Keeps (Still chan) x)
    (hf : ∀ a, Answers chan P (f a)) : Answers chan P (x >>= f) := by
  intro s hs
  obtain hnoisy | hP := hf (x s).1 (x s).2 ((hx s).state.trans hs)
  · exact .inl (hnoisy.after (hx s).trace)
  · exact .inr hP

theorem Answers.ite {p : Prop} [Decidable p] {x y : Session α} (hx : p → Answers chan P x)
    (hy : ¬ p → Answers chan P y) : Answers chan P (if p then x else y) := by
  split
  · rename_i hp
    exact hx hp
  · rename_i hp
    exact hy hp

theorem Answers.discard {x : Session α} (hx : Answers chan P x) : Answers chan P (discard x) := hx

theorem channel?_of_channelState? {s : MwSession} {state : MwChannelState}
    (hs : s.channelState? chan = some state) : ∃ c, s.channel? chan = some c ∧ c.state = state :=
  Option.map_eq_some_iff.mp hs

variable {force : Prop} {h : Hooks} (hh : h.Respects (Eff force))

include hh

theorem destroy_answers (reason : UInt32) (info : MwOpaque) :
    Answers chan P (mwChannelDestroy h chan reason info) := by
  intro s hs
  obtain ⟨c, hc, -⟩ := channel?_of_channelState? hs
  exact .inl (destroy_noisy hh hc reason info)

/-- A channel that is announced is refused or handed to a service. -/
theorem recvCreate_answers (msg : MwMsgChannelCreate) :
    Answers chan P (mwChannelRecvCreate h chan msg) := by
  refine Answers.ite (fun _ => Answers.discard (destroy_answers hh _ _)) fun _ => ?_
  refine Answers.bind (changeChannel_keeps fun _ => ⟨rfl, rfl, rfl⟩) fun _ => ?_
  refine Answers.bind (Keeps.forM fun item _ => offeredCipher_keeps item) fun _ => ?_
  refine Answers.bind (changeChannel_keeps fun _ => ⟨rfl, rfl, rfl⟩) fun _ => ?_
  refine Answers.bind Keeps.get fun s => ?_
  cases s.service? msg.service with
  | none => exact Answers.discard (destroy_answers hh _ _)
  | some srvc =>
    refine Answers.ite (fun _ => ?_) fun _ => Answers.discard (destroy_answers hh _ _)
    exact fun s _ => .inl (callback_noisy hh _ s)

theorem channelCreate_touches (head : MwMessageHead) (msg : MwMsgChannelCreate) (s : MwSession) :
    Touches s (channelCreateRecv h head msg s).2 := by
  rw [channelCreateRecv_arrived]
  have hanswers := @recvCreate_answers ⟨msg.channel, s.nextAddr⟩ (fun _ => False) _ h hh msg
  obtain hnoisy | hfalse := hanswers (s.arrived head msg) (by
    rw [MwSession.channelState?, channel?_arrived]
    rfl)
  · exact .noisy (hnoisy.after ⟨[_, _, _], rfl⟩)
  · exact hfalse.elim

/-- A channel that has been opened is flushed, and stays open unless that is seen. -/
theorem channelOpen_calm {s : MwSession} {c : MwChannel} (hc : s.channel? chan = some c) :
    Noisy s (channelOpen h chan s).2 ∨
      (channelOpen h chan s).2.channelState? chan = some .opened := by
  rw [channelOpen, Session.bind_apply, setChannelState_of_some hc]
  have hcalm := flushChannel_calm hh chan (s.withState chan c .opened)
  refine hcalm.state.imp (fun hnoisy => hnoisy.after (withState_trace s chan c _)) fun hstate => ?_
  rw [hstate, MwSession.channelState?, channel?_withState hc]
  rfl

/-- The end of accepting a channel -/
theorem opened_answers (srvc : MwService) (msg : MwMsgChannelAccept) :
    Answers chan (fun s => s.channelState? chan = some .opened) (do
      setChannelState chan .opened
      mwServiceRecvAccept h srvc chan msg
      match ← deref chan with
      | none => return
      | some c => if c.state = .opened then channelOpen h chan else return) := by
  intro s hs
  obtain ⟨c, hc, -⟩ := channel?_of_channelState? hs
  rw [Session.bind_apply, setChannelState_of_some hc, Session.bind_apply]
  set s1 := s.withState chan c .opened with hs1
  have htrace : s.trace <:+ s1.trace := withState_trace s chan c .opened
  have hopened : s1.channel? chan = some { c with state := .opened } := channel?_withState hc .opened
  rw [mwServiceRecvAccept, Session.ite_apply, Session.bind_apply]
  split
  · have hnoisy : Noisy s (callback h (.recvAccept srvc.type chan msg) s1).2 :=
      (callback_noisy hh _ s1).after htrace
    refine .inl (hnoisy.before ?_)
    set s2 := (callback h (.recvAccept srvc.type chan msg) s1).2 with hs2
    cases hc2 : s2.channel? chan with
    | none =>
      rw [deref_of_none hc2]
      exact List.suffix_refl _
    | some c2 =>
      rw [deref_of_some hc2]
      dsimp only
      rw [Session.ite_apply]
      split
      · have heff : Keeps (Eff force) (channelOpen h chan) := channelOpen_keeps hh
        exact (heff s2).trace
      · exact List.suffix_refl _
  · rw [Session.pure_apply, deref_of_some hopened]
    dsimp only
    rw [if_pos rfl]
    exact (channelOpen_calm hh hopened).imp (fun hnoisy => hnoisy.after htrace) id

theorem recvAccept_touches {s : MwSession} {c : MwChannel} (hc : s.channel? chan = some c)
    (msg : MwMsgChannelAccept) : Touches s (mwChannelRecvAccept h chan msg s).2 := by
  rw [mwChannelRecvAccept, Session.bind_apply, deref_of_some hc]
  dsimp only
  by_cases hreject : mwChannelIdIsIncoming chan.id = true ∨ c.state ≠ .wait
  · rw [if_pos hreject]
    exact .noisy (destroy_noisy hh hc _ _)
  · rw [if_neg hreject]
    have hwait : s.channelState? chan = some .wait := by
      simp only [not_or, not_not] at hreject
      rw [MwSession.channelState?, hc, Option.map_some, hreject.2]
    have htouches {m : Session Unit}
        (hm : Answers chan (fun s => s.channelState? chan = some .opened) m) :
        Touches s (m s).2 := by
      obtain hnoisy | hopened := hm s hwait
      · exact .noisy hnoisy
      · refine .channels fun heq => ?_
        rw [MwSession.channelState?, MwSession.channel?, heq, ← MwSession.channel?,
          ← MwSession.channelState?, hwait] at hopened
        simp at hopened
    refine htouches (Answers.bind (changeChannel_keeps fun _ => ⟨rfl, rfl, rfl⟩) fun _ => ?_)
    refine Answers.bind Keeps.get fun s => ?_
    cases s.service? c.service with
    | none => exact Answers.discard (destroy_answers hh _ _)
    | some srvc =>
      refine Answers.bind (changeChannel_keeps fun _ => ⟨rfl, rfl, rfl⟩) fun _ => ?_
      refine Answers.bind (acceptedCipher_keeps _) fun ok => ?_
      refine Answers.ite (fun _ => opened_answers hh srvc msg) fun _ => ?_
      exact Answers.discard (destroy_answers hh _ _)

omit hh in
/-- A channel that is destroyed is gone in the end. -/
theorem recvDestroy_touches {s : MwSession} {c : MwChannel} (hc : s.channel? chan = some c)
    (msg : MwMsgChannelDestroy) : Touches s (mwChannelRecvDestroy h chan msg s).2 := by
  suffices hgone : (mwChannelRecvDestroy h chan msg s).2.channel? chan = none by
    refine .channels fun heq => ?_
    rw [MwSession.channel?, heq, ← MwSession.channel?, hc] at hgone
    simp at hgone
  have hremove (s : MwSession) : ((do
      match ← deref chan with
      | none => return
      | some _ => modify (·.setChannel chan.id none) : Session Unit) s).2.channel? chan = none := by
    cases hc : s.channel? chan with
    | none =>
      rw [Session.bind_apply, deref_of_none hc]
      exact hc
    | some c =>
      rw [Session.bind_apply, deref_of_some hc]
      simp [MwSession.channel?, MwSession.setChannel]
  rw [mwChannelRecvDestroy, Session.bind_apply, deref_of_some hc]
  dsimp only
  rw [Session.bind_apply, Session.get_bind]
  cases MwSession.service? _ c.service with
  | none => exact hremove _
  | some srvc => exact hremove _

theorem recv_touches {s : MwSession} {c : MwChannel} (hc : s.channel? chan = some c)
    (hfault : s.fault = false) (m : ChannelMessage) : Touches s (mwChannelRecv h chan m s).2 := by
  have haddr := (map_of_channel? hc).2
  have hmap := (map_of_channel? hc).1
  have hset {c' : MwChannel} (hne : c' ≠ c) {s' : MwSession}
      (hs' : s'.channels = (s.setChannel chan.id (some c')).channels) : Touches s s' := by
    refine .channels fun heq => ?_
    have hat := congrFun (congrArg MwChannelSet.map (hs'.symm.trans heq)) chan.id
    simp only [MwSession.setChannel, Function.update_self, hmap, Option.some.injEq] at hat
    exact hne hat
  rw [mwChannelRecv, Session.bind_apply, deref_of_some hc]
  dsimp only
  rw [Session.ite_apply]
  split
  · rw [channelRecv, Session.bind_apply, deref_of_some hc]
    dsimp only
    rw [Session.get_bind]
    cases receivedData c m with
    | none => exact .fault (by simp [fault, hfault])
    | some p =>
      dsimp only
      rw [Session.bind_apply, updateChannel_of_some hc]
      set s1 := s.setChannel chan.id (some { c with msgRecv := c.msgRecv + 1, cipher := p.1 })
      have hchanged : Touches s s1 := by
        refine hset ?_ rfl
        intro heq
        have hcount := congrArg MwChannel.msgRecv heq
        simp at hcount
      cases s.service? c.service with
      | none => exact hchanged
      | some srvc =>
        rw [mwServiceRecv]
        dsimp only
        rw [Session.ite_apply]
        split
        · exact .noisy ((callback_noisy hh _ s1).after (List.suffix_refl _))
        · exact hchanged
  · rw [updateChannel_of_some hc]
    refine hset ?_ rfl
    intro heq
    have hlen := congrArg (fun c => c.incomingQueue.length) heq
    simp at hlen

end

/-! ## Messages that do not parse -/

/-- When handling a message that did not parse completely, as far as it has been read,
comes to nothing -/
def MwSession.Ignores (s : MwSession) (msg : MwMessage) : Prop :=
  match msg.body with
  | .handshake _ | .login _ | .loginContinue | .senseService _ => True
  | .handshakeAck _ => s.state ≠ .handshake ∧ s.state ≠ .loginCont
  | .loginRedirect _ => s.state = .loginRedir
  | .loginAck _ => s.state ≠ .login
  | .channelCreate _ => False
  | .channelDestroy _ =>
      if msg.head.channel = masterChannelId then s.state = .stopped ∨ s.state = .stopping
      else s.channels.map msg.head.channel = none
  | .channelSend _ | .channelAccept _ => s.channels.map msg.head.channel = none
  | .setPrivacyList privacy =>
      s.handler.onSetPrivacyInfo = false ∧ mwPrivacyInfoClone privacy = s.privacy
  | .setUserStatus status => s.handler.onSetUserStatus = false ∧ status = s.status
  | .admin _ => s.handler.onAdmin = false
  | .announce _ => s.handler.onAnnounce = false

theorem mwMessageGet_nil (u : Uninit) : (mwMessageGet u (.wrapOpaque [])).1 = none := by
  have herror : (mwMessageHeadGet u (.wrapOpaque [])).2.error = true := by
    rw [mwMessageHeadGet, mwGetBufferError_bind, if_neg (by decide), Get.bind_apply,
      Get.bind_apply, Get.bind_apply, Get.ite_apply]
    split <;> rfl
  rw [mwMessageGet, Get.bind_apply]
  dsimp only
  rw [mwGetBufferError_bind, if_pos herror]
  rfl

theorem mwMessageBodyGet_type (u : Uninit) (head : MwMessageHead) (type : MwMessageType)
    (b : GetBuffer) : (mwMessageBodyGet u head type b).1.body.type = type := by
  cases type with
  | handshake =>
    rw [mwMessageBodyGet, handshakeGet, mwGetBufferError_bind]
    by_cases he : b.error = true
    · rw [if_pos he]
      rfl
    · rw [if_neg he]
      simp only [Get.bind_apply]
      by_cases hv : 30 ≤ (guint16Get 0 b).1 ∧ 29 ≤ (guint16Get 0 (guint16Get 0 b).2).1
      · rw [if_pos hv]
        rfl
      · rw [if_neg hv]
        rfl
  | _ => rfl

/-- A service that could not be read is zero. -/
theorem senseService_eq_zero {u : Uninit} {b : GetBuffer} {head : MwMessageHead} {service : UInt32}
    (hmsg : (mwMessageGet u b).1 = some ⟨head, .senseService service⟩)
    (herror : (mwMessageGet u b).2.error = true) : service = 0 := by
  rw [mwMessageGet, Get.bind_apply] at hmsg herror
  dsimp only at hmsg herror
  rw [mwGetBufferError_bind] at hmsg herror
  set r := mwMessageHeadGet u b with hr
  by_cases he : r.2.error = true
  · rw [if_pos he] at hmsg
    exact absurd hmsg (by simp)
  · rw [if_neg he] at hmsg herror
    cases htype : MwMessageType.ofCode r.1.1 with
    | none =>
      rw [htype] at hmsg
      exact absurd hmsg (by simp)
    | some type =>
      simp only [htype, Get.bind_apply, Get.pure_apply, Option.some.injEq] at hmsg herror
      have hsense : type = .senseService := by
        rw [← mwMessageBodyGet_type u r.1.2 type r.2, hmsg]
        rfl
      subst hsense
      have hservice : (guint32Get 0 r.2).1 = service := by
        have hbody := congrArg MwMessage.body hmsg
        exact MwMessageBody.senseService.inj hbody
      rw [← hservice]
      exact guint32Get_of_error herror

section

variable {force : Prop} {h : Hooks} (hh : h.Respects (Eff force)) {s : MwSession}

theorem dispatch_untouched {msg : MwMessage} (hignores : s.Ignores msg)
    (hsense : ∀ service, msg.body = .senseService service → service = 0) :
    Untouched s (dispatch h msg s).2 := by
  obtain ⟨head, body⟩ := msg
  have hnil := Untouched.refl s
  cases body with
  | handshake _ | login _ | loginContinue => exact hnil
  | handshakeAck m =>
    show Untouched s (handshakeAckRecv h m s).2
    rwa [handshakeAckRecv_of_ne h m hignores.1 hignores.2]
  | loginRedirect m =>
    show Untouched s (setState h .loginRedir (.text m.host) s).2
    rwa [setState_apply_of_eq h (.text m.host) hignores]
  | loginAck m =>
    show Untouched s (loginAckRecv h m s).2
    rwa [loginAckRecv_of_ne h m hignores]
  | channelCreate m => exact hignores.elim
  | channelDestroy m =>
    simp only [MwSession.Ignores] at hignores
    show Untouched s (channelDestroyRecv h head m s).2
    rw [channelDestroyRecv, Session.ite_apply]
    split
    · rename_i hmaster
      rw [if_pos hmaster] at hignores
      rw [mwSessionStop, Session.get_bind, record_bind, if_pos hignores]
      exact untouched_log s rfl
    · rename_i hmaster
      rw [if_neg hmaster] at hignores
      rwa [mwChannelFind_bind, hignores]
  | channelSend m =>
    have hnone : s.channels.map head.channel = none := hignores
    show Untouched s (channelSendRecv h head m s).2
    rwa [channelSendRecv, mwChannelFind_bind, hnone]
  | channelAccept m =>
    have hnone : s.channels.map head.channel = none := hignores
    show Untouched s (channelAcceptRecv h head m s).2
    rwa [channelAcceptRecv, mwChannelFind_bind, hnone]
  | setPrivacyList privacy =>
    obtain ⟨hhandler, hprivacy⟩ := hignores
    have hset : dispatch h ⟨head, .setPrivacyList privacy⟩ s =
        ((), { s with privacy := mwPrivacyInfoClone privacy }) := by
      simp [dispatch, setPrivacyListRecv, hhandler]
    rw [hset, hprivacy]
    exact hnil
  | setUserStatus status =>
    obtain ⟨hhandler, rfl⟩ := hignores
    have hset : dispatch h ⟨head, .setUserStatus s.status⟩ s = ((), s) := by
      simp [dispatch, setUserStatusRecv, hhandler]
    rwa [hset]
  | senseService service =>
    have hnone : s.service? 0 = none := by
      simp only [MwSession.service?, List.find?_eq_none, decide_eq_true_eq]
      exact fun srvc _ => srvc.type_ne_zero
    have hsame : dispatch h ⟨head, .senseService service⟩ s = ((), s) := by
      simp [dispatch, senseServiceRecv, mwServiceStart, hsense service rfl, hnone]
    rwa [hsame]
  | admin text =>
    have hhandler : s.handler.onAdmin = false := hignores
    have hsame : dispatch h ⟨head, .admin text⟩ s = ((), s) := by
      simp [dispatch, adminRecv, hhandler]
    rwa [hsame]
  | announce m =>
    have hhandler : s.handler.onAnnounce = false := hignores
    have hsame : dispatch h ⟨head, .announce m⟩ s = ((), s) := by
      simp [dispatch, announceRecv, hhandler]
    rwa [hsame]

include hh

theorem dispatch_touches (hfault : s.fault = false) {msg : MwMessage}
    (hignores : ¬ s.Ignores msg) : Touches s (dispatch h msg s).2 := by
  obtain ⟨head, body⟩ := msg
  have hlive {id : UInt32} (hid : ¬ s.channels.map id = none) :
      ∃ c, s.channels.map id = some c ∧ s.channel? ⟨id, c.addr⟩ = some c := by
    obtain ⟨c, hc⟩ := Option.ne_none_iff_exists'.mp hid
    exact ⟨c, hc, by simp [MwSession.channel?, hc]⟩
  cases body with
  | handshake _ | login _ | loginContinue | senseService _ => exact absurd trivial hignores
  | handshakeAck m =>
    refine handshakeAck_touches hh m ?_
    simp only [MwSession.Ignores, not_and_or, not_not] at hignores
    exact hignores
  | loginRedirect m => exact loginRedirect_touches hh m hignores
  | loginAck m => exact loginAck_touches hh m (not_not.mp hignores)
  | channelCreate m => exact channelCreate_touches hh head m s
  | channelDestroy m =>
    simp only [MwSession.Ignores] at hignores
    show Touches s (channelDestroyRecv h head m s).2
    by_cases hmaster : head.channel = masterChannelId
    · rw [if_pos hmaster] at hignores
      rw [channelDestroyRecv, if_pos hmaster]
      exact stop_touches hh _ hignores
    · rw [if_neg hmaster] at hignores
      obtain ⟨c, hmap, hc⟩ := hlive hignores
      rw [channelDestroyRecv_of_some hmap hmaster]
      exact Touches.of_log (recvDestroy_touches (s := s.log _) hc m)
  | channelSend m =>
    obtain ⟨c, hmap, hc⟩ := hlive hignores
    show Touches s (channelSendRecv h head m s).2
    rw [channelSendRecv_of_some hmap]
    exact Touches.of_log (recv_touches hh (s := s.log _) hc hfault _)
  | channelAccept m =>
    obtain ⟨c, hmap, hc⟩ := hlive hignores
    show Touches s (channelAcceptRecv h head m s).2
    rw [channelAcceptRecv_of_some hmap]
    exact Touches.of_log (recvAccept_touches hh (s := s.log _) hc m)
  | setPrivacyList privacy =>
    show Touches s (setPrivacyListRecv h privacy s).2
    rw [setPrivacyListRecv, Session.modify_bind, Session.get_bind, Session.ite_apply]
    split
    · exact .noisy ((callback_noisy hh _ _).after (List.suffix_refl _))
    · rename_i hhandler
      refine .privacy fun heq => hignores ⟨?_, heq⟩
      simpa using hhandler
  | setUserStatus status =>
    show Touches s (setUserStatusRecv h status s).2
    rw [setUserStatusRecv, Session.modify_bind, Session.get_bind, Session.ite_apply]
    split
    · exact .noisy ((callback_noisy hh _ _).after (List.suffix_refl _))
    · rename_i hhandler
      refine .status fun heq => hignores ⟨?_, heq⟩
      simpa using hhandler
  | admin text =>
    show Touches s (adminRecv h text s).2
    rw [adminRecv, Session.get_bind, if_pos (by simpa [MwSession.Ignores] using hignores)]
    exact .noisy (callback_noisy hh _ s)
  | announce m =>
    show Touches s (announceRecv h m s).2
    rw [announceRecv, Session.get_bind, if_pos (by simpa [MwSession.Ignores] using hignores)]
    exact .noisy (callback_noisy hh _ s)

end

theorem Env.hooks_uninit (env : Env) (n : Nat) : (env.hooks n).uninit = env.uninit := by
  cases n <;> rfl

/-- A message that does not parse leaves the session as it was in exactly these cases. -/
theorem process_untouched_iff (env : Env) (n : Nat) {s : MwSession} (hfault : s.fault = false)
    {buf : List UInt8} (herror : (mwMessageGet env.uninit (.wrapOpaque buf)).2.error = true) :
    Untouched s (process (env.hooks n) buf s) ↔
      ∀ msg, (mwMessageGet env.uninit (.wrapOpaque buf)).1 = some msg → s.Ignores msg := by
  have hh := env.hooks_force n
  by_cases hnil : buf = []
  · subst hnil
    simp [mwMessageGet_nil, process, sessionProcess, Untouched.refl]
  · rw [process, sessionProcess, if_neg hnil, env.hooks_uninit]
    cases hmsg : (mwMessageGet env.uninit (.wrapOpaque buf)).1 with
    | none => simp [Untouched.refl]
    | some msg =>
      simp only [Option.some.injEq, forall_eq']
      rw [Session.get_bind, record_bind]
      set s1 := s.log (.handle msg.body.type s.state) with hs1
      have hsense : ∀ service, msg.body = .senseService service → service = 0 := by
        intro service hbody
        obtain ⟨head, body⟩ := msg
        obtain rfl : body = .senseService service := hbody
        exact senseService_eq_zero hmsg herror
      constructor
      · intro hsame
        by_contra hignores
        exact (dispatch_touches hh (s := s1) hfault hignores).of_log.not_untouched hsame
      · intro hignores
        exact (untouched_log s rfl).trans (dispatch_untouched (s := s1) hignores hsense)

/-- The start of a message that destroys channel five, of which there is none -/
theorem process_untouched_unknown :
    let buf := [0x00, 0x03, 0x00, 0x00, 0x00, 0x00, 0x00, 0x05]
    (mwMessageGet Env.idle.uninit (.wrapOpaque buf)).2.error = true ∧
      Untouched { state := .started } (process (Env.idle.hooks 0) buf { state := .started }) := by
  refine ⟨by decide +kernel, (process_untouched_iff Env.idle 0 rfl (by decide +kernel)).mpr ?_⟩
  intro msg hmsg
  obtain rfl : ⟨{ channel := 5 }, .channelDestroy {}⟩ = msg := Option.some.inj hmsg
  rfl

/-- The start of the message that destroys the master channel ends the session. -/
theorem not_untouched_truncated :
    let buf := [0x00, 0x03, 0x00, 0x00, 0x00, 0x00, 0x00, 0x00]
    (mwMessageGet Env.idle.uninit (.wrapOpaque buf)).2.error = true ∧
      ¬ Untouched { state := .started } (process (Env.idle.hooks 0) buf { state := .started }) := by
  refine ⟨by decide +kernel, fun hsame => ?_⟩
  have hstate := hsame.state
  revert hstate
  decide +kernel

end Meanwhile
