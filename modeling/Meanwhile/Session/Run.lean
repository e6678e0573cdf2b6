-- SUMMARY: Runs of a session: what a client and a server do to it one after the other.
import Meanwhile.Session.Control
import Meanwhile.Session.Receive

/-!
# Runs

A run takes a new session through any sequence of starts, calls and received
bytes. Properties of all runs are shown step by step with `run_keeps`, and
`process_keeps` is for the step that handles a message: one that is not part of
logging in is as good as a call.
-/

namespace Meanwhile

/-- `mwSession_new`, with what the client adds before it does anything else. Nothing is added to
the services and the ciphers later, and nothing removed from them. -/
def mwSessionNew (handler : MwSessionHandler) (services : List MwService)
    (ciphers : List MwCipher) (attributes : Attributes) : MwSession :=
  { handler := handler, services := services, ciphers := ciphers, attributes := attributes }

/-- A client that does nothing in its callbacks but write -/
def Env.idle : Env where
  write := fun _ _ => ([], 0)
  close := fun _ => []
  call := fun _ _ => []

/-- What can be done to a session from outside -/
inductive Command where
  | start
  | recv (b : List UInt8)
  | call (call : ApiCall)

section

variable (h : Hooks)

/-- `session_process` as the callback of the receive loop -/
def process (buf : List UInt8) (s : MwSession) : MwSession := (sessionProcess h buf s).2

def runCommand : Command → MwSession → MwSession
  | .start, s => (mwSessionStart h s).2
  | .recv b, s => mwSessionRecv (process h) b s
  | .call call, s => (runApiCall h call s).2

/-- A run, as the commands in order -/
def run (commands : List Command) (s : MwSession) : MwSession :=
  commands.foldl (fun s command => runCommand h command s) s

/-- Every command of a run meets a condition in the state it is given in. -/
def RunMeets (P : Command → MwSession → Prop) : List Command → MwSession → Prop
  | [], _ => True
  | command :: commands, s => P command s ∧ RunMeets P commands (runCommand h command s)

end

variable {h : Hooks}

/-- A condition that every command meets -/
theorem runMeets_of_forall {P : Command → MwSession → Prop} (hP : ∀ command s, P command s)
    (commands : List Command) (s : MwSession) : RunMeets h P commands s := by
  induction commands generalizing s with
  | nil => trivial
  | cons command commands ih => exact ⟨hP command s, ih _⟩

theorem runMeets_keeps {P : Command → MwSession → Prop} {I : MwSession → Prop}
    (hI : ∀ command s, P command s → I s → I (runCommand h command s))
    {commands : List Command} {s : MwSession} (hP : RunMeets h P commands s) (hs : I s) :
    I (run h commands s) := by
  induction commands generalizing s with
  | nil => exact hs
  | cons command commands ih => exact ih hP.2 (hI command s hP.1 hs)

theorem run_keeps {I : MwSession → Prop} (hI : ∀ command s, I s → I (runCommand h command s))
    (commands : List Command) {s : MwSession} (hs : I s) : I (run h commands s) := by
  induction commands generalizing s with
  | nil => exact hs
  | cons command commands ih => exact ih (hI command s hs)

/-- Handling a message, from the effect that most messages have and from what the
three messages of logging in do. -/
theorem process_keeps {force : Prop} (hh : h.Respects (Eff force)) {I : MwSession → Prop}
    (hhandle : ∀ {s} (type : MwMessageType), I s → I (s.log (.handle type s.state)))
    (heff : ∀ {s s'}, Eff force s s' → I s → I s')
    (hack : ∀ m {s}, I s → I (handshakeAckRecv h m (s.log (.handle .handshakeAck s.state))).2)
    (hlogin : ∀ m {s}, I s → I (loginAckRecv h m (s.log (.handle .loginAck s.state))).2)
    (hredirect : ∀ m {s}, I s →
      I (loginRedirectRecv h m (s.log (.handle .loginRedirect s.state))).2)
    (buf : List UInt8) {s : MwSession} (hs : I s) : I (process h buf s) := by
  unfold process sessionProcess
  split
  · exact hs
  · cases hmsg : (mwMessageGet h.uninit (.wrapOpaque buf)).1 with
    | none => exact hs
    | some msg =>
      simp only [Session.get_bind, record_bind]
      obtain ⟨head, body⟩ := msg
      by_cases hb : body.type.isLogin = true
      · cases body with
        | handshakeAck m => exact hack m hs
        | loginAck m => exact hlogin m hs
        | loginRedirect m => exact hredirect m hs
        | _ => simp [MwMessageBody.type, MwMessageType.isLogin] at hb
      · exact heff (dispatch_eff hh (by simpa using hb) _) (hhandle _ hs)

end Meanwhile
