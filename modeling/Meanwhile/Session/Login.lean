-- SUMMARY: A session writes at most one login for each start, and is started only by the server's acknowledgement.
import Meanwhile.Session.Run

/-!
# Logging in

The login message is written by one handler, in one state, which the session
leaves before it writes and enters only when it is started. Nothing else that can
happen in between, from the server, the client or its callbacks, leads back there.
-/

namespace Meanwhile

/-! ## Traces -/

/-- How many logins have been written since the session was started. The latest
event of a trace is its first. -/
def loginsSinceStart : List Event → Nat
  | [] => 0
  | .start :: _ => 0
  | .write msg :: t => (if msg.body.type = .login then 1 else 0) + loginsSinceStart t
  | _ :: t => loginsSinceStart t

/-- The last message that was handled, and the state it was handled in. -/
def lastHandled : List Event → Option (MwMessageType × MwSessionState)
  | [] => none
  | .handle type state :: _ => some (type, state)
  | _ :: t => lastHandled t

theorem loginsSinceStart_quiet {e : Event} (he : e.Quiet) (t : List Event) :
    loginsSinceStart (e :: t) = loginsSinceStart t := by
  cases e with
  | write msg => simp_all [loginsSinceStart, Event.Quiet]
  | start => simp [Event.Quiet] at he
  | _ => rfl

theorem Eff.loginsSinceStart {force : Prop} {s s' : MwSession} (h : Eff force s s') :
    loginsSinceStart s'.trace = loginsSinceStart s.trace := by
  induction h with
  | refl => rfl
  | trans _ _ ih ih' => rw [ih', ih]
  | quiet h =>
    obtain ht | ⟨e, he, ht⟩ := h.trace
    · rw [ht]
    · rw [ht, loginsSinceStart_quiet he]
  | stop _ _ _ _ _ _ _ _ ih => exact ih
  | force => rfl

theorem Eff.lastHandled {force : Prop} {s s' : MwSession} (h : Eff force s s') :
    lastHandled s'.trace = lastHandled s.trace := by
  induction h with
  | refl => rfl
  | trans _ _ ih ih' => rw [ih', ih]
  | quiet h =>
    obtain ht | ⟨e, he, ht⟩ := h.trace
    · rw [ht]
    · rw [ht]
      cases e with
      | handle => simp [Event.Quiet] at he
      | _ => rfl
  | stop _ _ _ _ _ _ _ _ ih => exact ih
  | force => rfl

/-- The states in which the login is still to be written -/
def MwSessionState.beforeLogin (state : MwSessionState) : Prop :=
  state = .starting ∨ state = .handshake

/-- No call leads back there. -/
theorem Eff.beforeLogin {force : Prop} {s s' : MwSession} (h : Eff force s s')
    (hs : s'.state.beforeLogin) : s'.state = s.state := by
  induction h with
  | refl => rfl
  | trans _ _ ih ih' =>
    have htu := ih' hs
    rw [htu] at hs ⊢
    exact ih hs
  | quiet h => exact h.state
  | stop => simp [MwSession.enter, MwSessionState.beforeLogin] at hs
  | force => simp [MwSession.enter, MwSessionState.beforeLogin] at hs

/-! ## The invariant -/

structure LoginInvariant (s : MwSession) : Prop where
  atMostOne : ∀ t, t <:+ s.trace → loginsSinceStart t ≤ 1
  none : s.state.beforeLogin → loginsSinceStart s.trace = 0
  started : ∀ t, (.state .started :: t) <:+ s.trace → lastHandled t = some (.loginAck, .login)

namespace LoginInvariant

variable {s s' : MwSession}

/-- One more event, in a state where that is all right -/
theorem cons (hs : LoginInvariant s) {e : Event} (ht : s'.trace = e :: s.trace)
    (hone : loginsSinceStart (e :: s.trace) ≤ 1)
    (hnone : s'.state.beforeLogin → loginsSinceStart (e :: s.trace) = 0)
    (hstarted : e = .state .started → lastHandled s.trace = some (.loginAck, .login)) :
    LoginInvariant s' where
  atMostOne := by
    intro t hsuffix
    rw [ht, List.suffix_cons_iff] at hsuffix
    obtain rfl | hsuffix := hsuffix
    · exact hone
    · exact hs.atMostOne t hsuffix
  none := by
    rw [ht]
    exact hnone
  started := by
    intro t hsuffix
    rw [ht, List.suffix_cons_iff] at hsuffix
    obtain heq | hsuffix := hsuffix
    · obtain ⟨rfl, rfl⟩ := List.cons.inj heq
      exact hstarted rfl
    · exact hs.started t hsuffix

theorem current (hs : LoginInvariant s) : loginsSinceStart s.trace ≤ 1 :=
  hs.atMostOne _ (List.suffix_refl _)

/-- A change of state that the rest of the invariant allows -/
theorem enter (hs : LoginInvariant s) {state : MwSessionState} (info : StateInfo)
    (hnone : state.beforeLogin → loginsSinceStart s.trace = 0)
    (hstarted : state = .started → lastHandled s.trace = some (.loginAck, .login)) :
    LoginInvariant (s.enter state info) := by
  refine hs.cons rfl hs.current hnone ?_
  intro heq
  exact hstarted (Event.state.inj heq)

theorem eff {force : Prop} (h : Eff force s s') (hs : LoginInvariant s) : LoginInvariant s' := by
  induction h with
  | refl => exact hs
  | trans _ _ ih ih' => exact ih' (ih hs)
  | @quiet s s' h =>
    obtain ht | ⟨e, he, ht⟩ := h.trace
    · refine ⟨?_, ?_, ?_⟩
      · rw [ht]
        exact hs.atMostOne
      · rw [ht, h.state]
        exact hs.none
      · rw [ht]
        exact hs.started
    · refine hs.cons ht ?_ ?_ ?_
      · rw [loginsSinceStart_quiet he]
        exact hs.current
      · rw [loginsSinceStart_quiet he, h.state]
        exact hs.none
      · rintro rfl
        simp [Event.Quiet] at he
  | stop _ _ _ _ _ _ _ _ ih =>
    refine (ih (hs.enter _ ?_ ?_)).enter _ ?_ ?_ <;> simp [MwSessionState.beforeLogin]
  | force => refine hs.enter _ ?_ ?_ <;> simp [MwSessionState.beforeLogin]

theorem handle (hs : LoginInvariant s) (type : MwMessageType) :
    LoginInvariant (s.log (.handle type s.state)) :=
  hs.cons rfl hs.current hs.none (by simp)

theorem setInput (i : InputBuffer) (hs : LoginInvariant s) :
    LoginInvariant { s with input := i } :=
  ⟨hs.atMostOne, hs.none, hs.started⟩

section

variable {force : Prop} {h : Hooks} (hh : h.Respects (Eff force))

include hh

theorem setState (hs : LoginInvariant s) (state : MwSessionState) (info : StateInfo)
    (hnone : state.beforeLogin → loginsSinceStart s.trace = 0)
    (hstarted : state = .started → lastHandled s.trace = some (.loginAck, .login)) :
    LoginInvariant (setState h state info s).2 := by
  by_cases heq : s.state = state
  · rw [setState_apply_of_eq h info heq]
    exact hs
  · exact eff (setState_of_ne hh info heq) (hs.enter info hnone hstarted)

theorem start (hs : LoginInvariant s) : LoginInvariant (mwSessionStart h s).2 := by
  by_cases hstate : s.state = .stopped
  · rw [mwSessionStart_of_stopped h hstate]
    -- nothing has been written since the event that this begins with
    have hstart : LoginInvariant (s.log .start) :=
      hs.cons rfl (Nat.zero_le 1) (fun _ => rfl) (by simp)
    have hne : (s.log .start).state ≠ .starting := by
      simp [MwSession.log, hstate]
    have heff : Eff force ((s.log .start).enter .starting (.code 0)) _ :=
      setState_of_ne hh (.code 0) hne
    set s1 := (Meanwhile.setState h .starting (.code 0) (s.log .start)).2 with hs1
    have hsend : Eff force s1 (mwSessionSend h (handshakeMessage s1.attributes) s1).2 := by
      refine mwSessionSend_keeps hh (fun s => Eff.quiet (quiet_log s ?_)) s1
      simp only [handshakeMessage]
      split <;> simp [Event.Quiet, MwMessageBody.type]
    have hzero : loginsSinceStart (mwSessionSend h (handshakeMessage s1.attributes) s1).2.trace = 0 :=
      (heff.trans hsend).loginsSinceStart
    have hinv := eff (heff.trans hsend) (hstart.enter (.code 0) (fun _ => rfl) (by simp))
    dsimp only
    split
    · exact eff (stop_eff hh _ _) hinv
    · exact hinv.setState hh .handshake _ (fun _ => hzero) (by simp)
  · rw [mwSessionStart, Session.get_bind, if_pos hstate]
    exact hs

theorem handshakeAck (hs : LoginInvariant s) (msg : MwMsgHandshakeAck) :
    LoginInvariant (handshakeAckRecv h msg s).2 := by
  have hack := hs.setState hh .handshakeAck (.code 0) (by simp [MwSessionState.beforeLogin])
    (by simp)
  by_cases hhandshake : s.state = .handshake
  · rw [handshakeAckRecv_of_handshake h msg hhandshake]
    have hne : s.state ≠ .handshakeAck := by
      rw [hhandshake]
      decide
    have heff : Eff force (s.enter .handshakeAck (.code 0)) _ := setState_of_ne hh (.code 0) hne
    set s1 := (Meanwhile.setState h .handshakeAck (.code 0) s).2 with hs1
    -- no login so far, and no way back to the state in which one is due
    have hzero : loginsSinceStart s1.trace = 0 := by
      rw [heff.loginsSinceStart]
      exact hs.none (.inr hhandshake)
    have hlate : ¬ s1.state.beforeLogin := by
      intro hbefore
      rw [heff.beforeLogin hbefore] at hbefore
      simp [MwSession.enter, MwSessionState.beforeLogin] at hbefore
    have hinv : LoginInvariant (s1.setServerVersion msg) := ⟨hack.atMostOne, hack.none, hack.started⟩
    dsimp only
    set s2 := s1.setServerVersion msg with hs2
    cases composeAuth h s2 msg with
    | none => exact ⟨hinv.atMostOne, hinv.none, hinv.started⟩
    | some auth =>
      have hwritten : LoginInvariant (s2.log (.write (loginMessage s2.attributes auth))) := by
        refine hinv.cons rfl ?_ (fun hbefore => absurd hbefore hlate) (by simp)
        rw [loginsSinceStart, hs2, MwSession.setServerVersion, hzero]
        split <;> decide
      have hsent := eff (mwSessionSend_log hh _ s2) hwritten
      dsimp only
      split
      · exact hsent.setState hh .login _ (by simp [MwSessionState.beforeLogin]) (by simp)
      · exact hsent
  · by_cases hcont : s.state = .loginCont
    · rw [handshakeAckRecv_of_loginCont h msg hcont]
      exact hack.setState hh .login _ (by simp [MwSessionState.beforeLogin]) (by simp)
    · rw [handshakeAckRecv_of_ne h msg hhandshake hcont]
      exact hs

/-- The acknowledgement leads to the end, and is the last message handled there. -/
theorem loginAck (hs : LoginInvariant s) (msg : MwMsgLoginAck)
    (hlast : s.state = .login → lastHandled s.trace = some (.loginAck, .login)) :
    LoginInvariant (loginAckRecv h msg s).2 := by
  by_cases hlogin : s.state = .login
  · have hinv : LoginInvariant (s.setLogin msg) := ⟨hs.atMostOne, hs.none, hs.started⟩
    have hne : (s.setLogin msg).state ≠ .loginAck := by
      simp [MwSession.setLogin, hlogin]
    have hack := hinv.setState hh .loginAck (.code 0) (by simp [MwSessionState.beforeLogin])
      (by simp)
    have heff : Eff force ((s.setLogin msg).enter .loginAck (.code 0)) _ :=
      setState_of_ne hh (.code 0) hne
    rw [loginAckRecv_of_login h msg hlogin]
    set s1 := (Meanwhile.setState h .loginAck (.code 0) (s.setLogin msg)).2 with hs1
    have hstart : Eff force s1 ((s1.services.map (·.type)).forM (mwServiceStart h) s1).2 :=
      Keeps.forM (fun srvc _ => mwServiceStart_keeps hh srvc) s1
    refine (eff hstart hack).setState hh .started _ (by simp [MwSessionState.beforeLogin]) ?_
    intro _
    rw [(heff.trans hstart).lastHandled]
    exact hlast hlogin
  · rw [loginAckRecv_of_ne h msg hlogin]
    exact hs

theorem loginRedirect (hs : LoginInvariant s) (msg : MwMsgLoginRedirect) :
    LoginInvariant (loginRedirectRecv h msg s).2 :=
  hs.setState hh .loginRedir _ (by simp [MwSessionState.beforeLogin]) (by simp)

theorem process (hs : LoginInvariant s) (buf : List UInt8) :
    LoginInvariant (process h buf s) := by
  refine process_keeps hh (fun type hs => hs.handle type) (fun he hs => eff he hs) ?_ ?_ ?_ buf hs
  · intro m s hs
    exact (hs.handle _).handshakeAck hh m
  · intro m s hs
    refine (hs.handle _).loginAck hh m ?_
    intro hlogin
    rw [MwSession.log, lastHandled, ← hlogin]
    rfl
  · intro m s hs
    exact (hs.handle _).loginRedirect hh m

theorem runCommand (hs : LoginInvariant s) (command : Command)
    (hforce : command = .call .forceLogin → force) :
    LoginInvariant (runCommand h command s) := by
  cases command with
  | start => exact hs.start hh
  | recv b =>
    exact mwSessionRecv_keeps (fun i _ hs => hs.setInput i) (fun p _ hs => hs.process hh p) b hs
  | call call =>
    refine eff (runApiCall_eff hh ?_ s) hs
    rintro rfl
    exact hforce rfl

end

theorem new (handler : MwSessionHandler) (services : List MwService) (ciphers : List MwCipher)
    (attributes : Attributes) : LoginInvariant (mwSessionNew handler services ciphers attributes) where
  atMostOne := by
    intro t ht
    rw [List.suffix_nil.mp ht]
    exact Nat.zero_le 1
  none := fun _ => rfl
  started := by
    intro t ht
    simp [mwSessionNew] at ht

end LoginInvariant

/-- In a run of any commands, with a client that may do anything in its callbacks:
between one start and the next at most one login is written, acknowledgements that
nobody waits for do nothing, and the session is started only by the acknowledgement of
its login. -/
theorem run_login (env : Env) (n : Nat) (handler : MwSessionHandler) (services : List MwService)
    (ciphers : List MwCipher) (attributes : Attributes) (commands : List Command) :
    let s := run (env.hooks n) commands (mwSessionNew handler services ciphers attributes)
    (∀ t, t <:+ s.trace → loginsSinceStart t ≤ 1) ∧
    (∀ head m (s : MwSession), s.state ≠ .handshake → s.state ≠ .loginCont →
      dispatch (env.hooks n) ⟨head, .handshakeAck m⟩ s = ((), s)) ∧
    (∀ head m (s : MwSession), s.state ≠ .login →
      dispatch (env.hooks n) ⟨head, .loginAck m⟩ s = ((), s)) ∧
    (∀ t, (.state .started :: t) <:+ s.trace → lastHandled t = some (.loginAck, .login)) := by
  have hh := env.hooks_force n
  have hinv := run_keeps
    (fun command s (hs : LoginInvariant s) => hs.runCommand hh command fun _ => trivial)
    commands (LoginInvariant.new handler services ciphers attributes)
  refine ⟨hinv.atMostOne, ?_, ?_, hinv.started⟩
  · intro _ m s hhandshake hcont
    exact handshakeAckRecv_of_ne _ m hhandshake hcont
  · intro _ m s hlogin
    exact loginAckRecv_of_ne _ m hlogin

end Meanwhile
