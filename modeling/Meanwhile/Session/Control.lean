-- SUMMARY: What calls and channel messages can do to the state, the input and the trace of a session.
import Meanwhile.Session.Effects

/-!
# The state of a session under calls

`Eff` is what may become of a session in a call, or in handling any message that
is not part of logging in. Most of it is quiet. What is not is a stop, which is one
thing from its first change of state to its second, and going on after a redirect.
-/

namespace Meanwhile

/-! ## Effects -/

/-- Events that say nothing about the state of the session or its logging in -/
def Event.Quiet : Event → Prop
  | .state _ | .start | .handle _ _ => False
  | .write msg => msg.body.type ≠ .login
  | _ => True

/-- At most one quiet event happens, the state stays, and input can only be
dropped. Channels come with an address of their own. -/
structure Quiet (s s' : MwSession) : Prop where
  handler : s'.handler = s.handler
  state : s'.state = s.state
  input : s'.input = s.input ∨ s'.input = {}
  trace : s'.trace = s.trace ∨ ∃ e : Event, e.Quiet ∧ s'.trace = e :: s.trace
  nextAddr : s.nextAddr ≤ s'.nextAddr
  channels : ∀ id c', s'.channels.map id = some c' →
    (∃ c, s.channels.map id = some c ∧ c'.addr = c.addr) ∨
      s.nextAddr ≤ c'.addr ∧ c'.addr < s'.nextAddr

/-- What a call can do. `force` is whether `mwSession_forceLogin` is among its
parts. -/
inductive Eff (force : Prop) : MwSession → MwSession → Prop where
  | refl (s : MwSession) : Eff force s s
  | trans {s t u : MwSession} (hst : Eff force s t) (htu : Eff force t u) : Eff force s u
  | quiet {s s' : MwSession} (h : Quiet s s') : Eff force s s'
  | stop {s t : MwSession} (info info' : StateInfo) (hcall : .stop s.state ∈ s.trace)
      (hstopped : s.state ≠ .stopped) (hstopping : s.state ≠ .stopping)
      (hmid : Eff force (s.enter .stopping info) t) (hstate : t.state = .stopping)
      (hinput : t.input = {}) : Eff force s (t.enter .stopped info')
  | force (hforce : force) {s : MwSession} (info : StateInfo) (hstate : s.state = .loginRedir) :
      Eff force s (s.enter .loginCont info)

namespace Eff

variable {force : Prop} {s s' : MwSession}

/-- Nothing in the trace is forgotten. -/
theorem trace (h : Eff force s s') : s.trace <:+ s'.trace := by
  induction h with
  | refl => exact List.suffix_refl _
  | trans _ _ ih ih' => exact ih.trans ih'
  | quiet h =>
    obtain ht | ⟨e, -, ht⟩ := h.trace
    · rw [ht]
    · rw [ht]
      exact List.suffix_cons _ _
  | stop _ _ _ _ _ _ _ _ ih =>
    exact ((List.suffix_cons _ _).trans ih).trans (List.suffix_cons _ _)
  | force => exact List.suffix_cons _ _

/-- Nothing that happens while the session is being stopped changes its state. -/
theorem state_stopping (h : Eff force s s') (hs : s.state = .stopping) : s'.state = .stopping := by
  induction h with
  | refl => exact hs
  | trans _ _ ih ih' => exact ih' (ih hs)
  | quiet h => rw [h.state, hs]
  | stop _ _ _ _ hstopping => exact absurd hs hstopping
  | force _ _ hstate => simp [hs] at hstate

theorem state_stopped (h : Eff force s s') (hs : s.state = .stopped) : s'.state = .stopped := by
  induction h with
  | refl => exact hs
  | trans _ _ ih ih' => exact ih' (ih hs)
  | quiet h => rw [h.state, hs]
  | stop _ _ _ hstopped => exact absurd hs hstopped
  | force _ _ hstate => simp [hs] at hstate

/-- What becomes of the state in a call, unless it is one of waiting for
`mwSession_forceLogin` -/
theorem state_cases (h : Eff force s s')
    (hs : s.state ≠ .loginRedir) :
    s'.state = s.state ∨ s'.state = .stopped ∧ .stop s.state ∈ s'.trace := by
  induction h with
  | refl => exact .inl rfl
  | trans _ htu ih ih' =>
    obtain ht | ⟨ht, hmem⟩ := ih hs
    · rw [← ht]
      exact ih' (ht ▸ hs)
    · exact .inr ⟨htu.state_stopped ht, htu.trace.subset hmem⟩
  | quiet h => exact .inl h.state
  | stop _ _ hcall _ _ hmid =>
    refine .inr ⟨rfl, List.mem_cons_of_mem _ (hmid.trace.subset (List.mem_cons_of_mem _ hcall))⟩
  | force _ _ hstate => exact absurd hstate hs

theorem input_empty (h : Eff force s s') (hs : s.input = {}) : s'.input = {} := by
  induction h with
  | refl => exact hs
  | trans _ _ ih ih' => exact ih' (ih hs)
  | quiet h =>
    obtain hi | hi := h.input
    · rw [hi, hs]
    · exact hi
  | stop _ _ _ _ _ _ _ hinput => exact hinput
  | force => exact hs

theorem nextAddr_le (h : Eff force s s') : s.nextAddr ≤ s'.nextAddr := by
  induction h with
  | refl => exact Nat.le_refl _
  | trans _ _ ih ih' => exact Nat.le_trans ih ih'
  | quiet h => exact h.nextAddr
  | stop _ _ _ _ _ _ _ _ ih => exact ih
  | force => exact Nat.le_refl _

/-- A channel that is there afterwards was there before or is new. -/
theorem channels (h : Eff force s s') {id : UInt32} {c' : MwChannel}
    (hc : s'.channels.map id = some c') :
    (∃ c, s.channels.map id = some c ∧ c'.addr = c.addr) ∨
      s.nextAddr ≤ c'.addr ∧ c'.addr < s'.nextAddr := by
  induction h generalizing c' with
  | refl => exact .inl ⟨c', hc, rfl⟩
  | trans hst htu ih ih' =>
    obtain ⟨c, hc, heq⟩ | ⟨hle, hlt⟩ := ih' hc
    · rw [heq]
      exact (ih hc).imp (fun hold => hold) fun hnew =>
        ⟨hnew.1, Nat.lt_of_lt_of_le hnew.2 htu.nextAddr_le⟩
    · exact .inr ⟨Nat.le_trans hst.nextAddr_le hle, hlt⟩
  | quiet h => exact h.channels id c' hc
  | stop _ _ _ _ _ _ _ _ ih => exact ih hc
  | force => exact .inl ⟨c', hc, rfl⟩

end Eff

/-- The addresses in use are below the next one. -/
def MwSession.Addressed (s : MwSession) : Prop :=
  ∀ id c, s.channels.map id = some c → c.addr < s.nextAddr

/-! ## Quiet changes -/

theorem quiet_log (s : MwSession) {e : Event} (he : e.Quiet) : Quiet s (s.log e) where
  handler := rfl
  state := rfl
  input := .inl rfl
  trace := .inr ⟨e, he, rfl⟩
  nextAddr := Nat.le_refl _
  channels := fun _ c' hc => .inl ⟨c', hc, rfl⟩

theorem sameCore_setServerVersion (s : MwSession) (msg : MwMsgHandshakeAck) :
    SameCore s (s.setServerVersion msg) :=
  ⟨rfl, rfl, rfl, rfl, rfl, rfl, rfl, rfl⟩

theorem sameCore_setLogin (s : MwSession) (msg : MwMsgLoginAck) : SameCore s (s.setLogin msg) :=
  ⟨rfl, rfl, rfl, rfl, rfl, rfl, rfl, rfl⟩

theorem quiet_core {s s' : MwSession} (h : SameCore s s') : Quiet s s' where
  handler := h.handler
  state := h.state
  input := .inl h.input
  trace := .inl h.trace
  nextAddr := Nat.le_of_eq h.nextAddr.symm
  channels := by
    intro id c' hc
    rw [h.map] at hc
    exact .inl ⟨c', hc, rfl⟩

theorem map_of_channel? {s : MwSession} {chan : ChanRef} {c : MwChannel}
    (h : s.channel? chan = some c) : s.channels.map chan.id = some c ∧ c.addr = chan.addr := by
  unfold MwSession.channel? at h
  split at h
  · split at h
    · simp_all
    · simp at h
  · simp at h

theorem quiet_update {s : MwSession} {chan : ChanRef} {c c' : MwChannel}
    (hc : s.channel? chan = some c) (haddr : c'.addr = c.addr) :
    Quiet s (s.setChannel chan.id (some c')) where
  handler := rfl
  state := rfl
  input := .inl rfl
  trace := .inl rfl
  nextAddr := Nat.le_refl _
  channels := by
    intro id d hd
    simp only [MwSession.setChannel, Function.update_apply] at hd
    split at hd
    · rename_i hid
      obtain rfl := Option.some.inj hd
      exact .inl ⟨c, by rw [hid, (map_of_channel? hc).1], haddr⟩
    · exact .inl ⟨d, hd, rfl⟩

theorem quiet_remove (s : MwSession) (id : UInt32) : Quiet s (s.setChannel id none) where
  handler := rfl
  state := rfl
  input := .inl rfl
  trace := .inl rfl
  nextAddr := Nat.le_refl _
  channels := by
    intro id' d hd
    simp only [MwSession.setChannel, Function.update_apply] at hd
    split at hd
    · simp at hd
    · exact .inl ⟨d, hd, rfl⟩

theorem quiet_insert (s : MwSession) (id : UInt32) :
    Quiet s
      { s.setChannel id (some { addr := s.nextAddr }) with nextAddr := s.nextAddr + 1 } where
  handler := rfl
  state := rfl
  input := .inl rfl
  trace := .inl rfl
  nextAddr := Nat.le_succ _
  channels := by
    intro id' d hd
    simp only [MwSession.setChannel, Function.update_apply] at hd
    split at hd
    · obtain rfl := Option.some.inj hd
      exact .inr ⟨Nat.le_refl _, Nat.lt_succ_self _⟩
    · exact .inl ⟨d, hd, rfl⟩

theorem quiet_bufFree (s : MwSession) : Quiet s { s with input := {} } where
  handler := rfl
  state := rfl
  input := .inr rfl
  trace := .inl rfl
  nextAddr := Nat.le_refl _
  channels := fun _ c' hc => .inl ⟨c', hc, rfl⟩

theorem Event.Plain.quiet {e : Event} (h : e.Plain) : e.Quiet := by
  cases e with
  | write msg =>
    obtain ⟨head, body⟩ := msg
    cases body <;> simp_all [Event.Plain, MwMessage.Plain, Event.Quiet, MwMessageBody.type]
  | _ => simp_all [Event.Plain, Event.Quiet]

instance (force : Prop) : Primitive (Eff force) where
  refl := Eff.refl
  trans := fun _ _ _ => Eff.trans
  plain := fun s _ he => Eff.quiet (quiet_log s he.quiet)
  core := fun h => Eff.quiet (quiet_core h)
  update := fun hc hsame => Eff.quiet (quiet_update hc hsame.addr)

/-! ## Channels -/

theorem Event.On.quiet {chan : ChanRef} {e : Event} (h : e.On chan) : e.Quiet := by
  cases e with
  | write msg =>
    obtain ⟨head, body⟩ := msg
    cases body <;> simp_all [Event.On, MwMessage.OnChannel, Event.Quiet, MwMessageBody.type]
  | _ => simp_all [Event.On, Event.Quiet]

instance (force : Prop) (chan : ChanRef) : Through (Eff force) chan where
  replace := fun hc haddr => Eff.quiet (quiet_update hc haddr)
  remove := fun {s} _ _ => Eff.quiet (quiet_remove s chan.id)
  event := fun s _ he => Eff.quiet (quiet_log s he.quiet)

theorem newIncoming_eff {force : Prop} (id : UInt32) :
    Keeps (Eff force) (mwChannelNewIncoming id) := by
  intro s
  rw [mwChannelNewIncoming, Session.get_bind, Session.modify_bind, record_bind, Session.bind_apply]
  have hinsert : Eff force s _ := Eff.quiet (quiet_insert s id)
  have hborn (t : MwSession) : Eff force t (t.log (.channel ⟨id, s.nextAddr⟩ .born)) :=
    Eff.quiet (quiet_log t trivial)
  exact (hinsert.trans (hborn _)).trans (setChannelState_keeps _ _)

/-! ## Control -/

section

variable {force : Prop} {h : Hooks} (hh : h.Respects (Eff force))

include hh

/-- What follows a change of state is the callback. -/
theorem setState_of_ne {s : MwSession} {state : MwSessionState} (info : StateInfo)
    (hs : s.state ≠ state) : Eff force (s.enter state info) (setState h state info s).2 := by
  rw [setState_apply_of_ne h info hs, Session.ite_apply]
  split
  · exact plainCallback_keeps hh rfl _
  · exact Eff.refl _

theorem shutServices_eff (l : List UInt32) : Keeps (Eff force) (l.forM (mwServiceStop h)) :=
  Keeps.forM fun srvc _ => shutService_keeps hh srvc _

theorem shutSession_eff (reason : UInt32) : Keeps (Eff force) (shutSession h reason) := by
  refine Keeps.bind Keeps.get fun s => Keeps.bind (shutServices_eff hh _) fun _ => ?_
  refine Keeps.bind (mwSessionSend_keeps hh fun s => Eff.quiet (quiet_log s ?_)) fun ret => ?_
  · simp [Event.Quiet, MwMessageBody.type]
  · refine Keeps.bind (fun s => Eff.quiet (quiet_bufFree s)) fun _ => ?_
    exact Keeps.bind (fun s => Eff.quiet (quiet_log s trivial)) fun _ => hh.ioClose

/-- Stopping drops the input, and nothing fills it again. -/
theorem shutSession_input (reason : UInt32) (s : MwSession) :
    (shutSession h reason s).2.input = {} := by
  simp only [shutSession, sessionBufFree, Session.bind_apply]
  exact (hh.ioClose _).input_empty rfl

theorem stop_eff (reason : UInt32) : Keeps (Eff force) (mwSessionStop h reason) := by
  intro s
  have hlog : Eff force s (s.log (.stop s.state)) := Eff.quiet (quiet_log s trivial)
  simp only [mwSessionStop, Session.get_bind, record_bind]
  by_cases hs : s.state = .stopped ∨ s.state = .stopping
  · rw [if_pos hs]
    exact hlog
  · rw [if_neg hs]
    obtain ⟨hstopped, hstopping⟩ := not_or.mp hs
    simp only [Session.bind_apply]
    set s0 := s.log (.stop s.state) with hs0
    set s1 := (setState h .stopping (.code reason) s0).2 with hs1
    have h1 : Eff force (s0.enter .stopping (.code reason)) s1 := setState_of_ne hh _ hstopping
    have h2 : Eff force s1 (shutSession h reason s1).2 := shutSession_eff hh reason s1
    have hstate : (shutSession h reason s1).2.state = .stopping := (h1.trans h2).state_stopping rfl
    have hcall : .stop s0.state ∈ s0.trace := List.mem_cons_self
    have hstop : Eff force s0 _ := Eff.stop (.code reason) (.code reason) hcall hstopped hstopping
      (h1.trans h2) hstate (shutSession_input hh reason s1)
    refine (hlog.trans hstop).trans (setState_of_ne hh _ ?_)
    rw [hstate]
    decide

theorem forceLogin_eff (hforce : force) : Keeps (Eff force) (mwSessionForceLogin h) := by
  intro s
  simp only [mwSessionForceLogin, Session.get_bind]
  by_cases hs : s.state = .loginRedir
  · rw [if_neg (not_not.mpr hs), Session.bind_apply]
    have henter : Eff force s (s.enter .loginCont (.code 0)) := Eff.force hforce _ hs
    have hset : Eff force _ (setState h .loginCont (.code 0) s).2 :=
      setState_of_ne hh _ (by rw [hs]; decide)
    refine (henter.trans hset).trans (mwSessionSend_keeps hh (fun s => Eff.quiet (quiet_log s ?_)) _)
    simp [Event.Quiet, MwMessageBody.type]
  · rw [if_pos hs]
    exact Eff.refl s

end

theorem runApiCall_eff {h : Hooks} {force : Prop} (hh : h.Respects (Eff force)) {call : ApiCall}
    (hcall : call = .forceLogin → force) : Keeps (Eff force) (runApiCall h call) :=
  runApiCall_keeps hh newIncoming_eff (fun reason _ => stop_eff hh reason)
    fun heq => forceLogin_eff hh (hcall heq)

/-- Whatever the callbacks of an environment do is an effect. -/
theorem Env.hooks_eff {env : Env} {force : Prop} (henv : env.Uses (· = .forceLogin → force))
    (n : Nat) : (env.hooks n).Respects (Eff force) :=
  Env.hooks_respects henv.meets (fun _ hh _ s hcall => runApiCall_eff hh hcall s) n

/-- Every callback of an environment is an effect, forcing a login included. -/
theorem Env.hooks_force (env : Env) (n : Nat) : (env.hooks n).Respects (Eff True) :=
  Env.hooks_eff ⟨fun _ _ _ _ _ => trivial, fun _ _ _ _ => trivial, fun _ _ _ _ _ => trivial⟩ n

/-- Handling a message that is not part of logging in is an effect like a call. -/
theorem dispatch_eff {h : Hooks} {force : Prop} (hh : h.Respects (Eff force)) {msg : MwMessage}
    (hmsg : msg.body.type.isLogin = false) : Keeps (Eff force) (dispatch h msg) :=
  dispatch_keeps hh newIncoming_eff (fun reason => stop_eff hh reason) hmsg

end Meanwhile
