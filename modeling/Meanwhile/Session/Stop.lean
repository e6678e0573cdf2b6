-- SUMMARY: When a stopped session stays stopped, and when its input buffer is then empty.
import Meanwhile.Session.Run
import Meanwhile.Session.Framing

/-!
# Stopping

`mwSession_stop` may be called anywhere, also from inside a handler that goes on
afterwards. Two of these do so without another look at the state: a redirect is
taken in any state, and the acknowledgement of a login starts the session at its end.
Apart from them a stopped session stays stopped.

The receive loop goes on after a stop as well. What it finds in the rest of the chunk
is dropped message by message, but an incomplete message is kept for later.
-/

namespace Meanwhile

/-! ## States in a trace -/

/-- The last state that a session with this trace has entered. -/
def lastState : List Event → MwSessionState
  | [] => .stopped
  | .state state :: _ => state
  | _ :: t => lastState t

/-- The session is stopped and has not been started again. -/
def restsStopped : List Event → Bool
  | [] => true
  | .start :: _ => false
  | .state state :: _ => state = .stopped
  | _ :: t => restsStopped t

/-- Every change of state in a trace comes to a session that is not stopped, or that
has been started. -/
def StaysStopped (trace : List Event) : Prop :=
  ∀ state t, (.state state :: t) <:+ trace → restsStopped t = false

/-- The two things that must not happen: a redirect to a stopped session, and a stop
while the acknowledgement of the login is being handled. -/
def Event.orderly : Event → Bool
  | .handle .loginRedirect .stopped => false
  | .stop .loginAck => false
  | _ => true

def Orderly (trace : List Event) : Prop := ∀ e ∈ trace, e.orderly = true

theorem Orderly.suffix {t t' : List Event} (h : Orderly t') (hsuffix : t <:+ t') : Orderly t :=
  fun e he => h e (hsuffix.subset he)

theorem lastState_quiet {e : Event} (he : e.Quiet) (t : List Event) :
    lastState (e :: t) = lastState t := by
  cases e with
  | state => simp [Event.Quiet] at he
  | _ => rfl

theorem restsStopped_quiet {e : Event} (he : e.Quiet) (t : List Event) :
    restsStopped (e :: t) = restsStopped t := by
  cases e with
  | state | start => simp [Event.Quiet] at he
  | _ => rfl

/-! ## The invariant -/

/-- The trace tells the state, and the state has never left a stop by itself. -/
structure Stays (s : MwSession) : Prop where
  state : s.state = lastState s.trace
  rests : restsStopped s.trace = true ↔ s.state = .stopped
  stays : StaysStopped s.trace

/-- As long as the session is orderly -/
def StopInvariant (s : MwSession) : Prop := Orderly s.trace → Stays s

namespace Stays

variable {s s' : MwSession}

theorem log (hs : Stays s) {e : Event} (hlast : lastState (e :: s.trace) = lastState s.trace)
    (hrests : restsStopped (e :: s.trace) = restsStopped s.trace)
    (he : ∀ state, e ≠ .state state) (htrace : s'.trace = e :: s.trace)
    (hstate : s'.state = s.state) : Stays s' where
  state := by rw [hstate, htrace, hlast, hs.state]
  rests := by rw [hstate, htrace, hrests, hs.rests]
  stays := by
    intro state t ht
    rw [htrace, List.suffix_cons_iff] at ht
    obtain heq | ht := ht
    · exact absurd (List.cons.inj heq).1.symm (he state)
    · exact hs.stays state t ht

theorem enter (hs : StaysStopped s.trace) (hrests : restsStopped s.trace = false)
    (state : MwSessionState) (info : StateInfo) : Stays (s.enter state info) where
  state := rfl
  rests := by simp [MwSession.enter, restsStopped]
  stays := by
    intro state' t ht
    simp only [MwSession.enter, List.suffix_cons_iff] at ht
    obtain heq | ht := ht
    · rw [(List.cons.inj heq).2]
      exact hrests
    · exact hs state' t ht

/-- A change of state that does not come to a stopped session -/
theorem enter_of_ne (hs : Stays s) (hne : s.state ≠ .stopped) (state : MwSessionState)
    (info : StateInfo) : Stays (s.enter state info) := by
  refine enter hs.stays ?_ state info
  rw [← Bool.not_eq_true, hs.rests]
  exact hne

theorem quiet (hs : Stays s) (h : Quiet s s') : Stays s' := by
  obtain ht | ⟨e, he, ht⟩ := h.trace
  · refine ⟨?_, ?_, ?_⟩
    · rw [h.state, ht, hs.state]
    · rw [h.state, ht, hs.rests]
    · rw [ht]
      exact hs.stays
  · refine hs.log (lastState_quiet he _) (restsStopped_quiet he _) ?_ ht h.state
    rintro state rfl
    simp [Event.Quiet] at he

theorem eff {force : Prop} (h : Eff force s s') (hs : Stays s) : Stays s' := by
  induction h with
  | refl => exact hs
  | trans _ _ ih ih' => exact ih' (ih hs)
  | quiet h => exact hs.quiet h
  | stop _ _ _ hstopped _ _ hstate _ ih =>
    refine (ih (hs.enter_of_ne hstopped _ _)).enter_of_ne ?_ _ _
    rw [hstate]
    decide
  | force _ _ hstate =>
    refine hs.enter_of_ne ?_ _ _
    rw [hstate]
    decide

end Stays

/-! ## Clients -/

/-- The states that are set on the way to another one, with only the client told of
them in between -/
def MwSessionState.passing (state : MwSessionState) : Prop :=
  state = .starting ∨ state = .handshakeAck

/-- A client that may do anything in `io_write`, such as stop the session, before it
returns an error; that only writes before it returns none; and that does nothing when
it hears of a state which is only passed. -/
structure Env.StopsOnError (env : Env) : Prop where
  write : ∀ b s, (env.write b s).2 = 0 → (env.write b s).1 = []
  passing : ∀ state info s, state.passing → env.call (.onStateChange state info) s = []

structure Hooks.StopsOnError (h : Hooks) : Prop where
  ioWrite : ∀ b s, (h.ioWrite b s).1 = 0 → (h.ioWrite b s).2 = s
  passing : ∀ state info s, state.passing → (h.call (.onStateChange state info) s).2 = s

theorem Env.hooks_stopsOnError {env : Env} (henv : env.StopsOnError) (n : Nat) :
    (env.hooks n).StopsOnError := by
  cases n with
  | zero => exact ⟨fun _ _ _ => rfl, fun _ _ _ _ => rfl⟩
  | succ n =>
    constructor
    · intro b s hret
      have hcalls := henv.write b s hret
      simp [Env.hooks, hcalls]
    · intro state info s hpassing
      have hcalls := henv.passing state info s hpassing
      simp [Env.hooks, hcalls]

section

variable {h : Hooks} (hstop : h.StopsOnError)

include hstop

theorem setState_passing {s : MwSession} {state : MwSessionState} (info : StateInfo)
    (hpassing : state.passing) (hne : s.state ≠ state) :
    (setState h state info s).2.state = state := by
  rw [setState_apply_of_ne h info hne, Session.ite_apply]
  split
  · rw [callback, record_bind, hstop.passing state info _ hpassing]
    rfl
  · rfl

/-- A message that has been written without an error has done nothing else. -/
theorem mwSessionSend_state {s : MwSession} {msg : MwMessage}
    (hmsg : ∀ status, msg.body ≠ .setUserStatus status) (hret : (mwSessionSend h msg s).1 = 0) :
    (mwSessionSend h msg s).2.state = s.state := by
  rw [mwSessionSend_of_ne h hmsg] at hret ⊢
  rw [hstop.ioWrite _ _ hret]
  rfl

end

/-! ## Steps -/

namespace StopInvariant

variable {s s' : MwSession}

theorem eff {force : Prop} (h : Eff force s s') (hs : StopInvariant s) : StopInvariant s' :=
  fun horderly => Stays.eff h (hs (horderly.suffix h.trace))

/-- An event that is neither a start nor a change of state -/
theorem log (hs : StopInvariant s) {e : Event}
    (hlast : lastState (e :: s.trace) = lastState s.trace)
    (hrests : restsStopped (e :: s.trace) = restsStopped s.trace)
    (he : ∀ state, e ≠ .state state) : StopInvariant (s.log e) :=
  fun horderly => (hs (horderly.suffix (List.suffix_cons _ _))).log hlast hrests he rfl rfl

theorem handle (hs : StopInvariant s) (type : MwMessageType) :
    StopInvariant (s.log (.handle type s.state)) :=
  hs.log rfl rfl (by simp)

theorem setInput (i : InputBuffer) (hs : StopInvariant s) : StopInvariant { s with input := i } :=
  fun horderly => ⟨(hs horderly).state, (hs horderly).rests, (hs horderly).stays⟩

theorem core (hs : StopInvariant s) (h : SameCore s s') : StopInvariant s' :=
  eff (Eff.quiet (quiet_core h) : Eff False s s') hs

section

variable {force : Prop} {h : Hooks} (hh : h.Respects (Eff force))

include hh

/-- A change of state, unless the session is stopped -/
theorem setState (hs : StopInvariant s) (state : MwSessionState) (info : StateInfo)
    (hne : Orderly s.trace → s.state ≠ .stopped) :
    StopInvariant (setState h state info s).2 := by
  by_cases heq : s.state = state
  · rw [setState_apply_of_eq h info heq]
    exact hs
  · refine eff (setState_of_ne hh info heq) fun horderly => ?_
    have htrace : Orderly s.trace := horderly.suffix (List.suffix_cons _ _)
    exact (hs htrace).enter_of_ne (hne htrace) state info

theorem loginRedirect (hs : StopInvariant s) (msg : MwMsgLoginRedirect) :
    StopInvariant (loginRedirectRecv h msg (s.log (.handle .loginRedirect s.state))).2 := by
  refine (hs.handle _).setState hh .loginRedir _ fun horderly hstopped => ?_
  have hevent := horderly _ List.mem_cons_self
  rw [show s.state = .stopped from hstopped] at hevent
  simp [Event.orderly] at hevent

/-- The session is started at the end whatever its services do, which is why none
of them may stop it. -/
theorem loginAck (hs : StopInvariant s) (msg : MwMsgLoginAck) :
    StopInvariant (loginAckRecv h msg s).2 := by
  by_cases hlogin : s.state = .login
  · rw [loginAckRecv_of_login h msg hlogin]
    have hset : StopInvariant (s.setLogin msg) := hs.core (sameCore_setLogin s msg)
    have hstate : (s.setLogin msg).state = .login := hlogin
    have hne : (s.setLogin msg).state ≠ .loginAck := by
      rw [hstate]
      decide
    have hack := hset.setState hh .loginAck (.code 0) (fun _ => by rw [hstate]; decide)
    have heff : Eff force ((s.setLogin msg).enter .loginAck (.code 0)) _ :=
      setState_of_ne hh (.code 0) hne
    set s1 := (Meanwhile.setState h .loginAck (.code 0) (s.setLogin msg)).2 with hs1
    have hstart : Eff force s1 ((s1.services.map (·.type)).forM (mwServiceStart h) s1).2 :=
      Keeps.forM (fun srvc _ => mwServiceStart_keeps hh srvc) s1
    refine (eff hstart hack).setState hh .started _ fun horderly => ?_
    obtain hsame | ⟨-, hmem⟩ :=
      (heff.trans hstart).state_cases (by simp [MwSession.enter])
    · rw [hsame]
      simp [MwSession.enter]
    · have hevent := horderly _ hmem
      simp [Event.orderly, MwSession.enter] at hevent
  · rw [loginAckRecv_of_ne h msg hlogin]
    exact hs

variable (hstop : h.StopsOnError)

include hstop

theorem start (hs : StopInvariant s) : StopInvariant (mwSessionStart h s).2 := by
  by_cases hstate : s.state = .stopped
  · rw [mwSessionStart_of_stopped h hstate]
    have hne : (s.log .start).state ≠ .starting := by
      simp [MwSession.log, hstate]
    have hpassed := setState_passing hstop (.code 0) (.inl rfl) hne
    have hstart : StopInvariant (Meanwhile.setState h .starting (.code 0) (s.log .start)).2 := by
      refine eff (setState_of_ne hh (.code 0) hne) fun horderly => ?_
      have hsuffix : s.trace <:+ ((s.log .start).enter .starting (.code 0)).trace :=
        (List.suffix_cons _ _).trans (List.suffix_cons _ _)
      have hold := hs (horderly.suffix hsuffix)
      refine Stays.enter ?_ rfl _ _
      intro state t ht
      rw [MwSession.log, List.suffix_cons_iff] at ht
      obtain heq | ht := ht
      · simp at heq
      · exact hold.stays state t ht
    set s1 := (Meanwhile.setState h .starting (.code 0) (s.log .start)).2 with hs1
    have hbody : ∀ status, (handshakeMessage s1.attributes).body ≠ .setUserStatus status := by
      intro status
      simp only [handshakeMessage]
      split <;> simp
    have hsend : Eff force s1 (mwSessionSend h (handshakeMessage s1.attributes) s1).2 := by
      refine mwSessionSend_keeps hh (fun s => Eff.quiet (quiet_log s ?_)) s1
      simp only [handshakeMessage]
      split <;> simp [Event.Quiet, MwMessageBody.type]
    dsimp only
    split
    · exact eff (hsend.trans (stop_eff hh _ _)) hstart
    · rename_i hret
      refine (eff hsend hstart).setState hh .handshake _ fun _ => ?_
      rw [mwSessionSend_state hstop hbody (not_not.mp hret), hpassed]
      decide
  · rw [mwSessionStart, Session.get_bind, if_pos hstate]
    exact hs

theorem handshakeAck (hs : StopInvariant s) (msg : MwMsgHandshakeAck) :
    StopInvariant (handshakeAckRecv h msg s).2 := by
  by_cases hhandshake : s.state = .handshake
  · rw [handshakeAckRecv_of_handshake h msg hhandshake]
    have hne : s.state ≠ .handshakeAck := by
      rw [hhandshake]
      decide
    have hpassed := setState_passing hstop (.code 0) (.inr rfl) hne
    have hack := hs.setState hh .handshakeAck (.code 0) (fun _ => by rw [hhandshake]; decide)
    set s1 := (Meanwhile.setState h .handshakeAck (.code 0) s).2 with hs1
    have hset : StopInvariant (s1.setServerVersion msg) :=
      hack.core (sameCore_setServerVersion s1 msg)
    have hstate : (s1.setServerVersion msg).state = .handshakeAck := hpassed
    dsimp only
    set s2 := s1.setServerVersion msg with hs2
    cases composeAuth h s2 msg with
    | none => exact hset.core ⟨rfl, rfl, rfl, rfl, rfl, rfl, rfl, rfl⟩
    | some auth =>
      have hwritten : StopInvariant (s2.log (.write (loginMessage s2.attributes auth))) :=
        hset.log rfl rfl (by simp)
      have hsent := eff (mwSessionSend_log hh _ s2) hwritten
      dsimp only
      split
      · rename_i hret
        refine hsent.setState hh .login _ fun _ => ?_
        rw [mwSessionSend_state hstop (by simp [loginMessage]) hret, hstate]
        decide
      · exact hsent
  · by_cases hcont : s.state = .loginCont
    · rw [handshakeAckRecv_of_loginCont h msg hcont]
      have hne : s.state ≠ .handshakeAck := by
        rw [hcont]
        decide
      have hack := hs.setState hh .handshakeAck (.code 0) (fun _ => by rw [hcont]; decide)
      refine hack.setState hh .login _ fun _ => ?_
      rw [setState_passing hstop (.code 0) (.inr rfl) hne]
      decide
    · rw [handshakeAckRecv_of_ne h msg hhandshake hcont]
      exact hs

theorem process (hs : StopInvariant s) (buf : List UInt8) : StopInvariant (process h buf s) := by
  refine process_keeps hh (fun type hs => hs.handle type) (fun he hs => eff he hs) ?_ ?_ ?_ buf hs
  · intro m s hs
    exact (hs.handle _).handshakeAck hh hstop m
  · intro m s hs
    exact (hs.handle _).loginAck hh m
  · intro m s hs
    exact hs.loginRedirect hh m

theorem runCommand (hs : StopInvariant s) (command : Command)
    (hforce : command = .call .forceLogin → force) :
    StopInvariant (runCommand h command s) := by
  cases command with
  | start => exact hs.start hh hstop
  | recv b =>
    exact mwSessionRecv_keeps (fun i _ hs => hs.setInput i) (fun p _ hs => hs.process hh hstop p)
      b hs
  | call call =>
    refine eff (runApiCall_eff hh ?_ s) hs
    rintro rfl
    exact hforce rfl

end

theorem new (handler : MwSessionHandler) (services : List MwService) (ciphers : List MwCipher)
    (attributes : Attributes) : StopInvariant (mwSessionNew handler services ciphers attributes) :=
  fun _ => ⟨rfl, by simp [mwSessionNew, restsStopped], by simp [StaysStopped, mwSessionNew]⟩

end StopInvariant

/-! ## A stopped session -/

/-- In an orderly run a session that is stopped stays so until it is started: the
trace has every change of state in it, also those in the middle of a chunk. -/
theorem run_staysStopped {env : Env} (henv : env.StopsOnError) (n : Nat)
    (handler : MwSessionHandler) (services : List MwService) (ciphers : List MwCipher)
    (attributes : Attributes) (commands : List Command)
    (horderly : Orderly
      (run (env.hooks n) commands (mwSessionNew handler services ciphers attributes)).trace) :
    let s := run (env.hooks n) commands (mwSessionNew handler services ciphers attributes)
    s.state = lastState s.trace ∧ StaysStopped s.trace := by
  have hinv := run_keeps
    (fun command s (hs : StopInvariant s) =>
      hs.runCommand (env.hooks_force n) (Env.hooks_stopsOnError henv n) command fun _ => trivial)
    commands (StopInvariant.new handler services ciphers attributes)
  exact ⟨(hinv horderly).state, (hinv horderly).stays⟩

/-- A client whose connection fails at once, and that stops the session when it does -/
def Env.broken : Env where
  write := fun _ _ => ([.stop 1], -1)
  close := fun _ => []
  call := fun _ _ => []

theorem run_staysStopped_broken :
    let s := run (Env.broken.hooks 1) [.start, .recv [0x80], .start] (mwSessionNew {} [] [] {})
    s.state = lastState s.trace ∧ StaysStopped s.trace :=
  run_staysStopped ⟨by simp [Env.broken], fun _ _ _ _ => rfl⟩ 1 {} [] [] {} _
    (by unfold Orderly; decide +kernel)

/-- A redirect, with an empty host and server id, as a frame -/
def redirectFrame : List UInt8 :=
  [0x00, 0x00, 0x00, 0x0c, 0x00, 0x18, 0x00, 0x00, 0x00, 0x00, 0x00, 0x00, 0x00, 0x00, 0x00, 0x00]

/-- A redirect takes a stopped session on. -/
theorem not_staysStopped_redirect :
    Env.idle.StopsOnError ∧
      ¬ StaysStopped (run (Env.idle.hooks 0) [.start, .call (.stop 0), .recv redirectFrame]
        (mwSessionNew {} [] [] {})).trace := by
  refine ⟨⟨fun _ _ _ => rfl, fun _ _ _ _ => rfl⟩, ?_⟩
  intro hstays
  set t := (run (Env.idle.hooks 0) [.start, .call (.stop 0), .recv redirectFrame]
    (mwSessionNew {} [] [] {})).trace with ht
  have hrests := hstays .loginRedir (t.drop 2) (List.drop_suffix 1 t)
  revert hrests
  rw [ht]
  decide +kernel

/-! ## The input of a stopped session -/

/-- There is a message in the bytes that is not complete, before any that is. -/
def StartsIncomplete (b : List UInt8) : Prop :=
  b.dropWhile isKeepalive ≠ [] ∧ wireNext (b.dropWhile isKeepalive) = none

instance (b : List UInt8) : Decidable (StartsIncomplete b) := inferInstanceAs (Decidable (_ ∧ _))

/-- No turn of the receive loop comes to an incomplete message in a stopped session. -/
def EndsClean (h : Hooks) : Command → MwSession → Prop
  | .recv b, s => ∀ r, Relation.ReflTransGen (RecvStep (process h)) (s, b) r →
      r.1.state = .stopped → ¬ StartsIncomplete r.2
  | _, _ => True

/-- A stopped session has no input. -/
def DropsInput (s : MwSession) : Prop := s.state = .stopped → s.input = {}

namespace DropsInput

variable {s s' : MwSession}

theorem eff {force : Prop} (h : Eff force s s') (hs : DropsInput s) : DropsInput s' := by
  induction h with
  | refl => exact hs
  | trans _ _ ih ih' => exact ih' (ih hs)
  | quiet h =>
    intro hstopped
    obtain hinput | hinput := h.input
    · rw [hinput]
      exact hs (h.state ▸ hstopped)
    · exact hinput
  | stop _ _ _ _ _ _ _ hinput => exact fun _ => hinput
  | force => exact fun hstopped => by simp [MwSession.enter] at hstopped

theorem core (hs : DropsInput s) (h : SameCore s s') : DropsInput s' :=
  eff (Eff.quiet (quiet_core h) : Eff False s s') hs

section

variable {force : Prop} {h : Hooks} (hh : h.Respects (Eff force))

include hh

theorem setState (hs : DropsInput s) {state : MwSessionState} (info : StateInfo)
    (hstate : state ≠ .stopped) : DropsInput (setState h state info s).2 := by
  by_cases heq : s.state = state
  · rw [setState_apply_of_eq h info heq]
    exact hs
  · exact eff (setState_of_ne hh info heq) fun hstopped => absurd hstopped hstate

theorem start (hs : DropsInput s) : DropsInput (mwSessionStart h s).2 := by
  by_cases hstate : s.state = .stopped
  · rw [mwSessionStart_of_stopped h hstate]
    have hlog : DropsInput (s.log .start) := hs
    have hstart := hlog.setState hh (.code 0) (show MwSessionState.starting ≠ .stopped by decide)
    set s1 := (Meanwhile.setState h .starting (.code 0) (s.log .start)).2 with hs1
    have hsend : Eff force s1 (mwSessionSend h (handshakeMessage s1.attributes) s1).2 := by
      refine mwSessionSend_keeps hh (fun s => Eff.quiet (quiet_log s ?_)) s1
      simp only [handshakeMessage]
      split <;> simp [Event.Quiet, MwMessageBody.type]
    dsimp only
    split
    · exact eff (hsend.trans (stop_eff hh _ _)) hstart
    · exact (eff hsend hstart).setState hh _ (by decide)
  · rw [mwSessionStart, Session.get_bind, if_pos hstate]
    exact hs

theorem handshakeAck (hs : DropsInput s) (msg : MwMsgHandshakeAck) :
    DropsInput (handshakeAckRecv h msg s).2 := by
  have hack := hs.setState hh (.code 0) (show MwSessionState.handshakeAck ≠ .stopped by decide)
  by_cases hhandshake : s.state = .handshake
  · rw [handshakeAckRecv_of_handshake h msg hhandshake]
    set s1 := (Meanwhile.setState h .handshakeAck (.code 0) s).2 with hs1
    have hset : DropsInput (s1.setServerVersion msg) :=
      hack.core (sameCore_setServerVersion s1 msg)
    dsimp only
    set s2 := s1.setServerVersion msg with hs2
    cases composeAuth h s2 msg with
    | none => exact hset
    | some auth =>
      have hwritten : DropsInput (s2.log (.write (loginMessage s2.attributes auth))) := hset
      have hsent := eff (mwSessionSend_log hh _ s2) hwritten
      dsimp only
      split
      · exact hsent.setState hh _ (by decide)
      · exact hsent
  · by_cases hcont : s.state = .loginCont
    · rw [handshakeAckRecv_of_loginCont h msg hcont]
      exact hack.setState hh _ (by decide)
    · rw [handshakeAckRecv_of_ne h msg hhandshake hcont]
      exact hs

theorem loginAck (hs : DropsInput s) (msg : MwMsgLoginAck) :
    DropsInput (loginAckRecv h msg s).2 := by
  by_cases hlogin : s.state = .login
  · rw [loginAckRecv_of_login h msg hlogin]
    have hack := (hs.core (sameCore_setLogin s msg)).setState hh (.code 0)
      (show MwSessionState.loginAck ≠ .stopped by decide)
    exact (eff (Keeps.forM (fun srvc _ => mwServiceStart_keeps hh srvc) _) hack).setState hh _
      (by decide)
  · rw [loginAckRecv_of_ne h msg hlogin]
    exact hs

theorem process (hs : DropsInput s) (buf : List UInt8) : DropsInput (process h buf s) := by
  have hhandle {s : MwSession} (type : MwMessageType) (hs : DropsInput s) :
      DropsInput (s.log (.handle type s.state)) := hs
  refine process_keeps hh (fun type hs => hhandle type hs) (fun he hs => eff he hs) ?_ ?_ ?_ buf hs
  · intro m s hs
    exact (hhandle _ hs).handshakeAck hh m
  · intro m s hs
    exact (hhandle _ hs).loginAck hh m
  · intro m s hs
    exact (hhandle _ hs).setState hh _ (show MwSessionState.loginRedir ≠ .stopped by decide)

/-- A turn that goes on with an incomplete message does so in a session that is not
stopped, or completes it first. -/
theorem recvCont (hs : s.state ≠ .stopped) (b : List UInt8) :
    DropsInput (sessionRecvCont (Meanwhile.process h) b s).1 := by
  have hinput (i : InputBuffer) : DropsInput (setInput i s) := fun hstopped => absurd hstopped hs
  unfold sessionRecvCont
  dsimp only
  split
  · exact hinput _
  · split
    · split
      · exact hinput _
      · exact (hinput _).process hh _
    · exact fun _ => rfl

theorem recvEmpty (hs : DropsInput s) {b : List UInt8} (hstart : StartsFrame b)
    (hclean : s.state = .stopped → wireNext b ≠ none) :
    DropsInput (sessionRecvEmpty (Meanwhile.process h) b s).1 := by
  have hinput (i : InputBuffer) (hlen : b.length < 4 ∨ b.length < 4 + wireLength b) :
      DropsInput (setInput i s) :=
    fun hstopped => absurd (hstart.wireNext_none hlen) (hclean hstopped)
  unfold sessionRecvEmpty
  by_cases h4 : b.length < 4
  · rw [if_pos h4]
    exact hinput _ (.inl h4)
  · rw [if_neg h4]
    simp only [guint32Peek_toNat (Nat.le_of_not_lt h4)]
    split
    · exact hs
    · split
      · exact hinput _ (.inr (by omega))
      · exact hs.process hh _

theorem recv (hs : DropsInput s) {b : List UInt8}
    (hclean : s.state = .stopped → ¬ StartsIncomplete b) :
    DropsInput (sessionRecv (Meanwhile.process h) b s).1 := by
  by_cases hlen : (input s).bufLen = 0
  · simp only [sessionRecv, hlen, if_true, Nat.lt_irrefl, if_false]
    split
    · exact hs
    · rename_i hne
      refine hs.recvEmpty hh (startsFrame_dropWhile hne) fun hstopped hnone => ?_
      exact hclean hstopped ⟨hne, hnone⟩
  · simp only [sessionRecv, if_neg hlen, if_pos (Nat.pos_of_ne_zero hlen)]
    split
    · exact hs
    · refine recvCont hh (fun hstopped => hlen ?_) b
      simp [input, hs hstopped]

theorem runCommand (hs : DropsInput s) {command : Command} (hclean : EndsClean h command s)
    (hforce : command = .call .forceLogin → force) :
    DropsInput (runCommand h command s) := by
  cases command with
  | start => exact hs.start hh
  | recv b =>
    refine recvLoop_keeps (fun s' b' hr _ hs' => ?_) hs
    exact hs'.recv hh (hclean (s', b') hr)
  | call call =>
    refine eff (runApiCall_eff hh ?_ s) hs
    rintro rfl
    exact hforce rfl

end

end DropsInput

/-- In a run in which the loop never comes to an incomplete message in a stopped
session, a session that is stopped has an empty input buffer. -/
theorem run_dropsInput (env : Env) (n : Nat) (handler : MwSessionHandler)
    (services : List MwService) (ciphers : List MwCipher) (attributes : Attributes)
    (commands : List Command)
    (hclean : RunMeets (env.hooks n) (EndsClean (env.hooks n)) commands
      (mwSessionNew handler services ciphers attributes)) :
    DropsInput (run (env.hooks n) commands (mwSessionNew handler services ciphers attributes)) :=
  runMeets_keeps
    (fun _ _ hclean hs => hs.runCommand (env.hooks_force n) hclean fun _ => trivial)
    hclean fun _ => rfl

/-- The message that ends a session, as a frame -/
def destroyFrame : List UInt8 :=
  [0x00, 0x00, 0x00, 0x10, 0x00, 0x03, 0x00, 0x00, 0x00, 0x00, 0x00, 0x00,
   0x00, 0x00, 0x00, 0x00, 0x00, 0x00, 0x00, 0x00]

/-- The server ends the session in the middle of a chunk. -/
theorem run_dropsInput_keepalive :
    let s := run (Env.idle.hooks 0) [.start, .recv (destroyFrame ++ [0x80])]
      (mwSessionNew {} [] [] {})
    s.state = .stopped ∧ DropsInput s := by
  refine ⟨by decide +kernel, run_dropsInput Env.idle 0 {} [] [] {} _ ⟨trivial, ?_, trivial⟩⟩
  intro r hr hstopped
  obtain rfl | ⟨-, hr⟩ := recvSteps_cases hr
  · revert hstopped
    decide +kernel
  · obtain rfl | ⟨-, hr⟩ := recvSteps_cases hr
    · decide +kernel
    · obtain rfl | ⟨hne, -⟩ := recvSteps_cases hr
      · decide +kernel
      · exact absurd rfl hne

/-- What follows in the chunk stays in the buffer of the stopped session. -/
theorem not_dropsInput_straggler :
    ¬ DropsInput (run (Env.idle.hooks 0) [.start, .recv (destroyFrame ++ [0x00])]
      (mwSessionNew {} [] [] {})) := by
  intro hdrops
  have hinput := hdrops (by decide +kernel)
  revert hinput
  decide +kernel

end Meanwhile
