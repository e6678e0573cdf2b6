-- SUMMARY: Changing the state of a session and writing messages to the server.
import Meanwhile.Session.State

/-!
# State and output

The lowest functions of session.c, which everything else that has an effect on
the outside goes through.
-/

namespace Meanwhile

variable (h : Hooks)

/-- The session after a change of state, before the client hears of it -/
def MwSession.enter (s : MwSession) (state : MwSessionState) (info : StateInfo) : MwSession :=
  { s with state := state, stateInfo := info, trace := .state state :: s.trace }

/-- `state` -/
def setState (state : MwSessionState) (info : StateInfo) : Session Unit := do
  if (← get).state = state then return
  modify (·.enter state info)
  if (← get).handler.onStateChange then callback h (.onStateChange state info)

theorem setState_apply_of_eq {s : MwSession} {state : MwSessionState} (info : StateInfo)
    (hs : s.state = state) : setState h state info s = ((), s) := by
  simp [setState, hs]

theorem setState_apply_of_ne {s : MwSession} {state : MwSessionState} (info : StateInfo)
    (hs : s.state ≠ state) :
    setState h state info s =
      (if s.handler.onStateChange then callback h (.onStateChange state info) else pure ())
        (s.enter state info) := by
  simp only [setState, Session.get_bind, if_neg hs, Session.modify_bind]
  rfl

/-- `SET_USER_STATUS_recv` -/
def setUserStatusRecv (status : MwUserStatus) : Session Unit := do
  modify fun s => { s with status := status }
  if (← get).handler.onSetUserStatus then callback h .onSetUserStatus

/-- `mwSession_send` of a message: its bytes are an opaque of their own. A status
that has been written counts as received. -/
def mwSessionSend (msg : MwMessage) : Session Int := do
  record (.write msg)
  let ret ← h.ioWrite (mwOpaquePut (mwMessagePut msg))
  if ret = 0 then
    match msg.body with
    | .setUserStatus status => setUserStatusRecv h status
    | _ => pure ()
  return ret

/-- All but a status is only written. -/
theorem mwSessionSend_of_ne {msg : MwMessage} (hmsg : ∀ status, msg.body ≠ .setUserStatus status)
    (s : MwSession) :
    mwSessionSend h msg s = h.ioWrite (mwOpaquePut (mwMessagePut msg)) (s.log (.write msg)) := by
  rw [mwSessionSend, record_bind, Session.bind_apply, Session.ite_apply]
  obtain ⟨head, body⟩ := msg
  cases body with
  | setUserStatus status => exact absurd rfl (hmsg status)
  | _ => exact ite_self _

/-- `mwSession_sendKeepalive` -/
def mwSessionSendKeepalive : Session Int := do
  record .keepalive
  h.ioWrite [0x80]

end Meanwhile
