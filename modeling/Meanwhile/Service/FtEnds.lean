-- SUMMARY: How a file transfer ends: in which state the handler is told of it, and that it stays there.
import Meanwhile.Service.Transfer
import Meanwhile.Service.Acks

/-!
# The end of a file transfer

A transfer is over in a state that says how it ended, and without a channel.
`EndsWell` says that it is over when `ft_closed` is called, and at every callback
after that. `mwFileTransfer_close` gives only an open transfer such a state, so
that this holds in the runs that close no transfer before it has been opened. It
is not over either when a message waits on its channel that has it done while it
is being accepted, since it is made open afterwards.
-/

namespace Meanwhile.Ft

/-! ## Ending -/

/-- The states that say how a transfer ended -/
def MwFileTransferState.Final (state : MwFileTransferState) : Prop :=
  state = .cancelLocal ∨ state = .cancelRemote ∨ state = .done ∨ state = .error

instance (state : MwFileTransferState) : Decidable state.Final := by
  unfold MwFileTransferState.Final
  infer_instance

/-- A transfer that is over -/
def Over (ft : Option MwFileTransfer) : Prop :=
  ∃ ft', ft = some ft' ∧ ft'.state.Final ∧ ft'.channel = false

/-- `ft_closed` has been called. -/
def Closed (log : List FtEvent) : Prop := ∃ code ft, FtEvent.callback (.closed code) ft ∈ log

/-- The transfer is over in every callback from the first `ft_closed` on, and still is. -/
structure EndsWell (s : Side) : Prop where
  told : Justified (fun e before =>
    ∀ c ft, e = .callback c ft → Closed (e :: before) → Over ft) s.log
  now : Closed s.log → Over s.ft

/-! ## Runs -/

/-- A handler that looks at its side again before each of its calls -/
abbrev FtProgram := FtCallback → Side → List (Side → Option FtCall)

/-- Make the next call. -/
def runNext (h : FtHooks) (next : Side → Option FtCall) : FtM Unit := do
  match next (← get) with
  | none => return
  | some call => runCall h call

/-- The hooks of such a handler whose callbacks nest at most to a depth -/
def FtProgram.hooks (program : FtProgram) : Nat → FtHooks
  | 0 => fun _ => pure ()
  | n + 1 => fun c => do (program c (← get)).forM (runNext (hooks program n))

inductive FtStep where
  | call (call : FtCall)
  | packet (p : FtPacket)

def Side.step (h : FtHooks) (s : Side) : FtStep → Side
  | .call call => (runCall h call s).2
  | .packet p => (onPacket h p s).2

def Side.run (h : FtHooks) (steps : List FtStep) (s : Side) : Side := steps.foldl (Side.step h) s

/-- A side that has just made a transfer of its own with `mwFileTransfer_new`, or waits for one -/
def Side.before (file : Option (MwString × MwString × UInt32)) (ret : Nat → Int) : Side where
  ft := file.map fun (filename, message, size) =>
    { filename := filename, message := message, size := size, remaining := size }
  ret := ret

/-! ## When it works -/

/-- A transfer is closed only after it has been opened, and accepted only if that can be
written and no message that waits has it done. -/
def Proper (s : Side) : FtCall → Prop
  | .close _ => ∀ ft, s.ft = some ft → ft.state ≠ .new ∧ ft.state ≠ .pending
  | .accept => ∀ ft line, s.ft = some ft → s.line = some line → ft.state = .pending →
      ft.channel = true → line.outbound = false → line.state = .wait →
      s.ret s.writes = 0 ∧ (ft.remaining = 0 → ∀ msg ∈ line.incoming, msg.1 ≠ msgReceived)
  | _ => True

/-- Every call a handler makes is proper. -/
def FtProgram.Proper (program : FtProgram) : Prop :=
  ∀ c s, ∀ next ∈ program c s, ∀ t call, next t = some call → Ft.Proper t call

/-- Every call of a run is proper. -/
def ProperRun (h : FtHooks) : List FtStep → Side → Prop
  | [], _ => True
  | step :: steps, s =>
      (∀ call, step = .call call → Proper s call) ∧ ProperRun h steps (s.step h step)

/-! ## What is recorded -/

section

variable {s t : Side} {ft : MwFileTransfer} {h : FtHooks}

/-- An event that is no callback -/
@[simp] def FtEvent.quiet : FtEvent → Bool
  | .callback _ _ => false
  | _ => true

theorem closed_cons_of_quiet {e : FtEvent} (he : e.quiet = true) {log : List FtEvent} :
    Closed (e :: log) ↔ Closed log := by
  cases e with
  | callback c ft => cases he
  | _ => simp [Closed]

theorem EndsWell.quiet (hs : EndsWell s) {e : FtEvent} (he : e.quiet = true) :
    EndsWell { s with log := e :: s.log } := by
  refine ⟨.cons (fun c ft hcallback => ?_) hs.told, fun hclosed => ?_⟩
  · rw [hcallback] at he
    cases he
  · exact hs.now ((closed_cons_of_quiet he).mp hclosed)

/-- A callback other than `ft_closed`, or any when the transfer is over -/
theorem EndsWell.callback (hs : EndsWell s) {c : FtCallback}
    (hc : ∀ code, c = .closed code → Over s.ft) :
    EndsWell { s with log := .callback c s.ft :: s.log } := by
  have hover : Closed (.callback c s.ft :: s.log) → Over s.ft := by
    rintro ⟨code, ft, hmem⟩
    rcases List.mem_cons.mp hmem with heq | hmem
    · injection heq with hclosed
      exact hc code hclosed.symm
    · exact hs.now ⟨code, ft, hmem⟩
  refine ⟨.cons (fun c' ft' hcallback hclosed => ?_) hs.told, hover⟩
  injection hcallback with _ hft
  rw [← hft]
  exact hover hclosed

/-- A transfer that is over stays so. -/
theorem EndsWell.change (hs : EndsWell s) (hlog : t.log = s.log) (hft : Over s.ft → Over t.ft) :
    EndsWell t := by
  refine ⟨?_, fun hclosed => ?_⟩
  · rw [hlog]
    exact hs.told
  · rw [hlog] at hclosed
    exact hft (hs.now hclosed)

/-! ## Transfers that have been opened -/

/-- The transfer has been opened, or is over. -/
def Begun (s : Side) : Prop :=
  ∃ ft, s.ft = some ft ∧ ft.state ≠ .new ∧ ft.state ≠ .pending ∧ ft.state ≠ .unknown

theorem Begun.of_ft (hs : Begun s) (hft : t.ft = s.ft) : Begun t := by
  obtain ⟨ft, hs⟩ := hs
  exact ⟨ft, hft.trans hs.1, hs.2⟩

theorem Begun.ftState (hs : Begun s) {state : MwFileTransferState}
    (hstate : state.Final ∨ state = .opened) : Begun (ftState state s).2 := by
  obtain ⟨ft, hft, hs⟩ := hs
  rw [ftState_of_some hft]
  split
  · exact ⟨ft, hft, hs⟩
  · refine ⟨_, rfl, ?_⟩
    rcases hstate with (rfl | rfl | rfl | rfl) | rfl <;> simp

theorem Begun.closing (hft : s.ft = some ft) (hs : Begun s) (code : UInt32) :
    Over (s.closing code ft).ft := by
  obtain ⟨ft', hft', hnew, hpending, hunknown⟩ := hs
  cases hft.symm.trans hft'
  refine ⟨_, rfl, ?_, rfl⟩
  dsimp only
  generalize ft.state = state at *
  cases state <;> simp [MwFileTransferState.Final] at *

theorem Over.begun (hs : Over s.ft) : Begun s := by
  obtain ⟨ft, hft, hfinal, -⟩ := hs
  refine ⟨ft, hft, ?_⟩
  generalize ft.state = state at *
  rcases hfinal with rfl | rfl | rfl | rfl <;> simp

theorem Begun.mwFileTransferClose (hs : Begun s) (hh : h.Keep Begun) (code : UInt32) :
    Begun (mwFileTransferClose h code s).2 := by
  obtain ⟨ft, hft, -⟩ := id hs
  rw [mwFileTransferClose_apply h code hft]
  exact hh _ _ (hs.closing hft code).begun

theorem Begun.mwFileTransferSend (hs : Begun s) (data : MwOpaque) :
    Begun (mwFileTransferSend data s).2 := by
  rcases mwFileTransferSend_spec data s with ⟨-, hft⟩ | ⟨ft, hft, hopened, -, hft', -⟩
  · exact hs.of_ft hft
  · refine ⟨_, hft', ?_⟩
    simp [hopened]

theorem mwFileTransferAck_ft (s : Side) : (mwFileTransferAck s).2.ft = s.ft := by
  unfold mwFileTransferAck
  rw [StateM.get_bind]
  cases hft : s.ft with
  | none => exact hft
  | some ft =>
    dsimp only
    rw [StateM.get_bind, StateM.ite_apply]
    split
    · exact hft
    · rw [channelSend_ft]
      exact hft

theorem mwFileTransferAccept_of_ne (hft : s.ft = some ft) (hstate : ft.state ≠ .pending) :
    mwFileTransferAccept h s = (-1, s) := by
  unfold mwFileTransferAccept
  rw [StateM.get_bind, StateM.get_bind, hft]
  cases s.line with
  | none => rfl
  | some line =>
    dsimp only
    rw [StateM.ite_apply, if_pos (.inr (.inl hstate))]
    rfl

theorem mwFileTransferOffer_of_ne (hft : s.ft = some ft) (hstate : ft.state ≠ .new) :
    mwFileTransferOffer h s = (-1, s) := by
  unfold mwFileTransferOffer
  rw [StateM.get_bind, hft]
  dsimp only
  rw [StateM.ite_apply, if_pos (.inr hstate)]
  rfl

theorem Begun.runCall (hs : Begun s) (hh : h.Keep Begun) (call : FtCall) :
    Begun (runCall h call s).2 := by
  obtain ⟨ft, hft, hnew, hpending, -⟩ := id hs
  cases call with
  | offer =>
    change Begun (mwFileTransferOffer h s).2
    rw [mwFileTransferOffer_of_ne hft hnew]
    exact hs
  | accept =>
    change Begun (mwFileTransferAccept h s).2
    rw [mwFileTransferAccept_of_ne hft hpending]
    exact hs
  | send data => exact hs.mwFileTransferSend data
  | ack => exact hs.of_ft (mwFileTransferAck_ft s)
  | close code => exact hs.mwFileTransferClose hh code

end

/-! ## Handlers -/

/-- What every proper call keeps, a proper handler keeps. -/
theorem FtProgram.Proper.keep {program : FtProgram} (hprogram : program.Proper) {I : Side → Prop}
    (hcall : ∀ n, (program.hooks n).Keep I → ∀ call s, Ft.Proper s call → I s →
      I (runCall (program.hooks n) call s).2) (n : Nat) : (program.hooks n).Keep I := by
  induction n with
  | zero => exact fun c s hs => hs
  | succ n ih =>
    intro c s hs
    change I ((program c s).forM (runNext (program.hooks n)) s).2
    have hmem := hprogram c s
    generalize program c s = nexts at hmem
    induction nexts generalizing s with
    | nil => exact hs
    | cons next nexts ih' =>
      rw [StateM.forM_cons]
      refine ih' _ ?_ fun next' hnext' => hmem next' (List.mem_cons_of_mem _ hnext')
      unfold runNext
      rw [StateM.get_bind]
      cases hnext : next s with
      | none => exact hs
      | some call => exact hcall n ih call s (hmem next List.mem_cons_self s call hnext) hs

theorem FtProgram.Proper.begun {program : FtProgram} (hprogram : program.Proper) (n : Nat) :
    (program.hooks n).Keep Begun :=
  hprogram.keep (fun _ hh call _ _ hs => hs.runCall hh call) n

/-! ## While a channel is accepted -/

/-- A pending transfer while what waits on its channel is taken off -/
structure Flushing (ft : MwFileTransfer) (line : FtLine) (s : Side) : Prop where
  ends : EndsWell s
  ft : s.ft = some ft
  line : s.line = some line

namespace Flushing

variable {s : Side} {ft : MwFileTransfer} {line : FtLine} {h : FtHooks}

/-- No proper call does anything but write. -/
theorem runCall (hs : Flushing ft line s) (hpending : ft.state = .pending)
    (hopened : line.state = .opened) {call : FtCall} (hcall : Proper s call) :
    Flushing ft line (runCall h call s).2 := by
  cases call with
  | offer =>
    change Flushing ft line (mwFileTransferOffer h s).2
    rw [mwFileTransferOffer_of_ne hs.ft (by simp [hpending])]
    exact hs
  | accept =>
    have hsame : mwFileTransferAccept h s = (-1, s) := by
      unfold mwFileTransferAccept
      rw [StateM.get_bind, StateM.get_bind, hs.ft, hs.line]
      dsimp only
      rw [StateM.ite_apply, if_pos (by simp [hopened])]
      rfl
    change Flushing ft line (mwFileTransferAccept h s).2
    rw [hsame]
    exact hs
  | send data =>
    have hsame : mwFileTransferSend data s = (-1, s) := by
      unfold mwFileTransferSend
      rw [StateM.get_bind, hs.ft]
      dsimp only
      rw [StateM.get_bind, StateM.ite_apply, if_pos (by simp [hpending])]
      rfl
    change Flushing ft line (mwFileTransferSend data s).2
    rw [hsame]
    exact hs
  | ack =>
    change Flushing ft line (mwFileTransferAck s).2
    unfold mwFileTransferAck
    rw [StateM.get_bind, hs.ft]
    dsimp only
    rw [StateM.get_bind, StateM.ite_apply]
    split
    · exact hs
    · rw [channelSend_of_opened hs.line hopened]
      exact ⟨hs.ends.change rfl id, hs.ft, hs.line⟩
  | close code => exact absurd hpending (hcall ft hs.ft).2

theorem hooks {program : FtProgram} (hprogram : program.Proper) (hpending : ft.state = .pending)
    (hopened : line.state = .opened) (n : Nat) : (program.hooks n).Keep (Flushing ft line) :=
  hprogram.keep (fun _ _ _ _ hcall hs => hs.runCall hpending hopened hcall) n

theorem recv (hs : Flushing ft line s) (hpending : ft.state = .pending)
    (hh : h.Keep (Flushing ft line)) {msg : Payload}
    (hmsg : msg.1 = msgReceived → ft.remaining ≠ 0) : Flushing ft line (recv h msg s).2 := by
  unfold Ft.recv
  split
  · unfold recvTransfer
    rw [StateM.get_bind, hs.ft]
    dsimp only
    rw [StateM.ite_apply, if_pos (by simp [hpending])]
    exact hs
  · split
    · rename_i hreceived
      have hremaining := hmsg hreceived
      obtain ⟨s', hack, hs'⟩ := atAck_eq hs.ft
      rw [if_neg hremaining] at hs'
      have hacked : Flushing ft line (atAck s) := by
        rw [hack, hs']
        refine ⟨(hs.ends.quiet (e := .received) rfl).callback fun code hcode => ?_, hs.ft, hs.line⟩
        cases hcode
      have htold := hh .ack _ hacked
      rw [recvReceived_eq, StateM.bind_apply, StateM.bind_apply, nothingRemains_apply htold.ft,
        decide_eq_false hremaining]
      exact htold
    · exact hs

theorem recvs (hpending : ft.state = .pending) (hh : h.Keep (Flushing ft line))
    {msgs : List Payload} (hmsgs : ∀ msg ∈ msgs, msg.1 = msgReceived → ft.remaining ≠ 0)
    (hs : Flushing ft line s) : Flushing ft line (msgs.forM (Ft.recv h) s).2 := by
  induction msgs generalizing s with
  | nil => exact hs
  | cons msg msgs ih =>
    exact ih (fun m hm => hmsgs m (List.mem_cons_of_mem _ hm))
      (hs.recv hpending hh (hmsgs msg List.mem_cons_self))

/-- The transfer is pending still when the channel has been flushed. -/
theorem flushChannel (hs : Flushing ft line s) (hpending : ft.state = .pending)
    (hh : h.Keep (Flushing ft line))
    (hmsgs : ∀ msg ∈ line.incoming, msg.1 = msgReceived → ft.remaining ≠ 0) :
    Flushing ft { line with incoming := [], outgoing := [] } (flushChannel h s).2 := by
  have htaken := recvs hpending hh hmsgs hs
  unfold Ft.flushChannel
  rw [StateM.get_bind, hs.line]
  dsimp only
  rw [StateM.bind_apply]
  generalize (line.incoming.forM (Ft.recv h) s).2 = s' at htaken
  obtain ⟨extra, writes, hwritten, -⟩ := forM_write line.outgoing
    { s' with line := some { line with incoming := [] } }
  rw [StateM.modify_bind, StateM.get_bind]
  simp only [htaken.line, Option.map_some]
  rw [StateM.bind_apply, hwritten]
  exact ⟨htaken.ends.change rfl id, htaken.ft, rfl⟩

end Flushing

/-! ## One step -/

/-- What holds of a side between the calls: its handler has been told right, and the
channel tells how far the transfer is. -/
structure OnCourse (s : Side) : Prop where
  ends : EndsWell s
  known : ∀ ft, s.ft = some ft → ft.state ≠ .unknown
  waiting : ∀ line, s.line = some line → line.outbound = true → line.state = .wait →
    ∃ ft, s.ft = some ft ∧ ft.channel = true
  opened : ∀ line, s.line = some line → line.state = .opened → Begun s

/-- A side on course whose transfer has been opened -/
structure UnderWay (s : Side) : Prop where
  course : OnCourse s
  begun : Begun s

/-- A handler that keeps its side on course -/
structure Steady (h : FtHooks) : Prop where
  course : h.Keep OnCourse
  begun : h.Keep Begun
  flushing : ∀ ft line, ft.state = .pending → line.state = .opened → h.Keep (Flushing ft line)

section

variable {s t : Side} {ft : MwFileTransfer} {h : FtHooks}

theorem not_closed_of_channel (hs : EndsWell s) (hft : s.ft = some ft)
    (hchannel : ft.channel = true) : ¬ Closed s.log := by
  intro hclosed
  obtain ⟨ft', hft', -, hnone⟩ := hs.now hclosed
  cases hft.symm.trans hft'
  rw [hchannel] at hnone
  cases hnone

theorem not_closed_of_state (hs : EndsWell s) (hft : s.ft = some ft) (hstate : ¬ ft.state.Final) :
    ¬ Closed s.log := by
  intro hclosed
  obtain ⟨ft', hft', hfinal, -⟩ := hs.now hclosed
  cases hft.symm.trans hft'
  exact hstate hfinal

theorem EndsWell.of_not_closed (hs : EndsWell s) (hlog : t.log = s.log) (hc : ¬ Closed s.log) :
    EndsWell t := by
  refine ⟨?_, fun hclosed => ?_⟩
  · rw [hlog]
    exact hs.told
  · rw [hlog] at hclosed
    exact absurd hclosed hc

/-- The channel is the same but for what is queued on it. -/
theorem OnCourse.move (hs : OnCourse s) (hends : EndsWell t)
    (hknown : ∀ ft, t.ft = some ft → ft.state ≠ .unknown)
    (hline : ∀ line', t.line = some line' → ∃ line, s.line = some line ∧
      line'.outbound = line.outbound ∧ line'.state = line.state)
    (hchannel : ∀ ft, s.ft = some ft → ft.channel = true →
      ∃ ft', t.ft = some ft' ∧ ft'.channel = true)
    (hbegun : Begun s → Begun t) : OnCourse t := by
  refine ⟨hends, hknown, fun line' hl houtbound hwait => ?_, fun line' hl hopened => ?_⟩
  · obtain ⟨line, hl', hsame, hstate⟩ := hline line' hl
    obtain ⟨ft, hft, hc⟩ := hs.waiting line hl' (hsame ▸ houtbound) (hstate ▸ hwait)
    exact hchannel ft hft hc
  · obtain ⟨line, hl', -, hstate⟩ := hline line' hl
    exact hbegun (hs.opened line hl' (hstate ▸ hopened))

/-- An event recorded -/
theorem OnCourse.log (hs : OnCourse s) {log : List FtEvent}
    (hends : EndsWell { s with log := log }) : OnCourse { s with log := log } :=
  ⟨hends, hs.known, hs.waiting, hs.opened⟩

theorem OnCourse.callback (hs : OnCourse s) (hh : Steady h) {c : FtCallback}
    (hc : ∀ code, c ≠ .closed code) : OnCourse (callback h c s).2 :=
  hh.course c _ (hs.log (hs.ends.callback fun code hcode => absurd hcode (hc code)))

theorem UnderWay.callback (hs : UnderWay s) (hh : Steady h) {c : FtCallback}
    (hc : ∀ code, c ≠ .closed code) : UnderWay (callback h c s).2 :=
  ⟨hs.course.callback hh hc, hh.begun c _ (hs.begun.of_ft rfl)⟩

theorem UnderWay.ftState (hs : UnderWay s) {state : MwFileTransferState}
    (hstate : state.Final ∨ state = .opened ∧ ¬ Closed s.log) : UnderWay (ftState state s).2 := by
  have hbegun := hs.begun.ftState (hstate.imp_right And.left)
  refine ⟨?_, hbegun⟩
  obtain ⟨ft, hft, -⟩ := hs.begun
  rw [ftState_of_some hft] at hbegun ⊢
  split at hbegun
  · rw [if_pos ‹_›]
    exact hs.course
  · rw [if_neg ‹_›]
    have hends : EndsWell { s with ft := some { ft with state := state } } := by
      rcases hstate with hfinal | ⟨-, hc⟩
      · refine hs.course.ends.change rfl ?_
        rintro ⟨ft', hft', -, hchannel⟩
        cases hft.symm.trans hft'
        exact ⟨_, rfl, hfinal, hchannel⟩
      · exact hs.course.ends.of_not_closed rfl hc
    refine hs.course.move ?_ ?_ (fun line hl => ⟨line, hl, rfl, rfl⟩) ?_ fun _ => hbegun
    · split
      · exact hends.quiet (e := .done) rfl
      · exact hends
    · intro ft' hft'
      obtain ⟨ft'', hft'', -, -, hunknown⟩ := hbegun
      cases hft'.symm.trans hft''
      exact hunknown
    · intro ft' hft' hchannel
      cases hft.symm.trans hft'
      exact ⟨_, rfl, hchannel⟩

/-! ### Calls -/

theorem closing_line (code : UInt32) (ft : MwFileTransfer) (s : Side) :
    (s.closing code ft).line = if ft.channel then none else s.line := by
  unfold Side.closing
  by_cases hchannel : ft.channel = true <;> simp [hchannel, channelDestroy_line]

/-- An open transfer is over when it is closed, and no channel is left that could open it. -/
theorem UnderWay.closing (hs : UnderWay s) (hft : s.ft = some ft) (code : UInt32) :
    UnderWay (s.closing code ft) := by
  have hover := hs.begun.closing hft code
  have hbegun := hover.begun
  have hends : EndsWell { s.closing code ft with
      log := if ft.channel then .close code :: s.log else s.log } := by
    have hends : EndsWell { s.closing code ft with log := s.log } :=
      hs.course.ends.change rfl fun _ => hover
    split
    · exact hends.quiet (e := .close code) rfl
    · exact hends
  have hcalled := hends.callback (c := .closed code) fun _ _ => hover
  dsimp only at hcalled
  rw [← closing_log] at hcalled
  refine ⟨⟨hcalled, fun ft' hft' => ?_, fun line hl houtbound hwait => ?_, fun _ _ _ => hbegun⟩,
    hbegun⟩
  · obtain ⟨ft'', hft'', -, -, hunknown⟩ := hbegun
    cases hft'.symm.trans hft''
    exact hunknown
  · rw [closing_line] at hl
    split at hl
    · cases hl
    · obtain ⟨ft', hft', hchannel⟩ := hs.course.waiting line hl houtbound hwait
      cases hft.symm.trans hft'
      exact absurd hchannel ‹_›

theorem UnderWay.mwFileTransferClose (hs : UnderWay s) (hh : Steady h) (code : UInt32) :
    UnderWay (mwFileTransferClose h code s).2 := by
  obtain ⟨ft, hft, -⟩ := hs.begun
  rw [mwFileTransferClose_apply h code hft]
  have hclosing := hs.closing hft code
  exact ⟨hh.course _ _ hclosing.course, hh.begun _ _ hclosing.begun⟩

theorem channelSend_line (msg : Payload) {line' : FtLine}
    (hline' : (channelSend msg s).2.line = some line') :
    ∃ line, s.line = some line ∧ line'.outbound = line.outbound ∧ line'.state = line.state := by
  unfold channelSend at hline'
  rw [StateM.get_bind] at hline'
  cases hline : s.line with
  | none =>
    rw [hline] at hline'
    exact absurd (hline.symm.trans hline') (by simp)
  | some line =>
    rw [hline] at hline'
    dsimp only at hline'
    rw [StateM.ite_apply] at hline'
    split at hline'
    · rw [write_line] at hline'
      cases hline.symm.trans hline'
      exact ⟨_, rfl, rfl, rfl⟩
    · cases hline'
      exact ⟨_, rfl, rfl, rfl⟩

theorem OnCourse.channelSend (hs : OnCourse s) (msg : Payload) :
    OnCourse (channelSend msg s).2 := by
  have hft := channelSend_ft msg s
  refine hs.move (hs.ends.change (channelSend_log msg s) fun hover => hft ▸ hover) ?_
    (fun line' => channelSend_line msg) ?_ fun hbegun => hbegun.of_ft hft
  · rw [hft]
    exact hs.known
  · intro ft hft' hchannel
    exact ⟨ft, hft.trans hft', hchannel⟩

theorem OnCourse.mwFileTransferAck (hs : OnCourse s) : OnCourse (mwFileTransferAck s).2 := by
  unfold Ft.mwFileTransferAck
  rw [StateM.get_bind]
  cases hft : s.ft with
  | none => exact hs
  | some ft =>
    dsimp only
    rw [StateM.get_bind, StateM.ite_apply]
    split
    · exact hs
    · exact hs.channelSend _

/-- Less remains to be sent. -/
theorem OnCourse.remaining (hs : OnCourse s) (hft : s.ft = some ft) (remaining : UInt32) :
    OnCourse { s with ft := some { ft with remaining := remaining } } := by
  refine hs.move (hs.ends.change rfl ?_) ?_ (fun line hl => ⟨line, hl, rfl, rfl⟩) ?_ ?_
  · rintro ⟨ft', hft', hover⟩
    cases hft.symm.trans hft'
    exact ⟨_, rfl, hover⟩
  · intro ft' hft'
    cases hft'
    exact hs.known ft hft
  · intro ft' hft' hchannel
    cases hft.symm.trans hft'
    exact ⟨_, rfl, hchannel⟩
  · rintro ⟨ft', hft', hbegun⟩
    cases hft.symm.trans hft'
    exact ⟨_, rfl, hbegun⟩

theorem OnCourse.mwFileTransferSend (hs : OnCourse s) (data : MwOpaque) :
    OnCourse (mwFileTransferSend data s).2 := by
  unfold Ft.mwFileTransferSend
  rw [StateM.get_bind]
  cases hft : s.ft with
  | none => exact hs
  | some ft =>
    dsimp only
    rw [StateM.get_bind, StateM.ite_apply]
    split
    · exact hs
    · rw [StateM.ite_apply]
      split
      · exact hs
      · rw [StateM.bind_apply, StateM.ite_apply]
        have hsent := hs.channelSend (msgTransfer, data)
        have hft' := (channelSend_ft (msgTransfer, data) s).trans hft
        generalize (Ft.channelSend (msgTransfer, data) s).2 = s' at hsent hft' ⊢
        split
        · have hless := hsent.remaining hft' (ft.remaining - UInt32.ofNat data.length)
          have hmodify : (modifyFt (fun ft =>
              { ft with remaining := ft.remaining - UInt32.ofNat data.length }) s').2 =
              { s' with
                ft := some { ft with remaining := ft.remaining - UInt32.ofNat data.length } } := by
            simp [modifyFt, hft']
          rw [StateM.bind_apply, hmodify]
          exact hless.log (hless.ends.quiet (e := .sent data) rfl)
        · exact hsent

/-- An offer opens a channel that waits, or the transfer is an error. -/
theorem OnCourse.mwFileTransferOffer (hs : OnCourse s) (hh : Steady h) :
    OnCourse (mwFileTransferOffer h s).2 := by
  cases hft : s.ft with
  | none =>
    unfold Ft.mwFileTransferOffer
    rw [StateM.get_bind, hft]
    exact hs
  | some ft =>
    unfold Ft.mwFileTransferOffer
    rw [StateM.get_bind, hft]
    dsimp only
    rw [StateM.ite_apply]
    split
    · exact hs
    · rename_i hguard
      simp only [not_or, not_not] at hguard
      obtain ⟨-, hnew⟩ := hguard
      have hclosed := not_closed_of_state hs.ends hft (by simp [hnew, MwFileTransferState.Final])
      simp only [StateM.bind_apply, StateM.modify_apply, StateM.ite_apply]
      -- the transfer moves on once its channel has been made
      have hmoved : ∀ (t : Side) ft', t.log = s.log → t.ft = some ft' → ft'.state ≠ .unknown →
          (∀ line, t.line = some line →
            line.state ≠ .opened ∧ (line.state = .wait → ft'.channel = true)) →
          OnCourse t := by
        intro t ft' hlog hft' hunknown hline
        refine ⟨hs.ends.of_not_closed hlog hclosed, fun ft'' hft'' => ?_,
          fun line hl _ hwait => ⟨ft', hft', (hline line hl).2 hwait⟩,
          fun line hl hopened => absurd hopened (hline line hl).1⟩
        cases hft'.symm.trans hft''
        exact hunknown
      split
      · have hstate := ftState_of_some (s := { (write (.create (createAddtl ft)) s).2 with
            line := some { outbound := true, state := .error } }) hft .error
        have herror := hmoved
          { (write (.create (createAddtl ft)) s).2 with
            ft := some { ft with state := .error }
            line := some { outbound := true, state := .error } } _ rfl rfl (by simp) (by simp)
        have hway : UnderWay _ := ⟨herror, _, rfl, by simp, by simp, by simp⟩
        rw [if_neg (by simp [hnew])] at hstate
        rw [StateM.pure_apply, StateM.discard_apply, hstate]
        exact (hway.mwFileTransferClose hh errFailure).course
      · have hmodify : (modifyFt (fun ft => { ft with channel := true })
            { (write (.create (createAddtl ft)) s).2 with
              line := some { outbound := true, state := .wait } }).2 =
            { (write (.create (createAddtl ft)) s).2 with
              ft := some { ft with channel := true }
              line := some { outbound := true, state := .wait } } := by
          simp [modifyFt, hft]
        rw [hmodify, ftState_of_some rfl, if_neg (by simp [hnew])]
        exact hmoved _ _ rfl rfl (by simp) (by simp)

theorem OnCourse.mwFileTransferAccept (hs : OnCourse s) (hh : Steady h) (hcall : Proper s .accept) :
    OnCourse (mwFileTransferAccept h s).2 := by
  unfold Ft.mwFileTransferAccept
  rw [StateM.get_bind, StateM.get_bind]
  cases hft : s.ft with
  | none => exact hs
  | some ft =>
    cases hline : s.line with
    | none => exact hs
    | some line =>
      dsimp only
      rw [StateM.ite_apply]
      split
      · exact hs
      · rename_i hguard
        simp only [not_or, not_not, Bool.not_eq_true, Bool.not_eq_false] at hguard
        obtain ⟨hchannel, hpending, houtbound, hwait⟩ := hguard
        obtain ⟨hret, hmsgs⟩ := hcall ft line hft hline hpending hchannel houtbound hwait
        have hret : (write .accept s).1 = 0 := hret
        have haccepted := channelAccept_apply h hline
        rw [if_neg (not_not.mpr hret)] at haccepted
        rw [StateM.bind_apply, haccepted]
        dsimp only
        rw [if_neg (not_not.mpr hret)]
        have hflushing : Flushing ft { line with state := .opened }
            { (write .accept s).2 with line := some { line with state := .opened } } :=
          ⟨hs.ends.change rfl id, hft, rfl⟩
        have hflushed := hflushing.flushChannel hpending (hh.flushing _ _ hpending rfl)
          fun msg hmsg hreceived hzero => hmsgs hzero msg hmsg hreceived
        generalize (flushChannel h _).2 = s' at hflushed
        have hclosed := not_closed_of_channel hflushed.ends hflushed.ft hchannel
        have hopened : UnderWay (Ft.ftState .opened s').2 := by
          rw [ftState_of_some hflushed.ft, if_neg (by simp [hpending])]
          refine ⟨⟨hflushed.ends.of_not_closed rfl hclosed, ?_, ?_, ?_⟩, ?_⟩
          · rintro ft' ⟨⟩
            simp
          · intro line' hl hout
            cases hflushed.line.symm.trans hl
            exact absurd houtbound (by simpa using hout)
          · exact fun _ _ _ => ⟨_, rfl, by simp, by simp, by simp⟩
          · exact ⟨_, rfl, by simp, by simp, by simp⟩
        exact (hopened.callback hh (by simp)).course

theorem OnCourse.mwFileTransferClose (hs : OnCourse s) (hh : Steady h) {code : UInt32}
    (hcall : Proper s (.close code)) : OnCourse (mwFileTransferClose h code s).2 := by
  cases hft : s.ft with
  | none =>
    unfold Ft.mwFileTransferClose
    rw [StateM.get_bind, hft]
    exact hs
  | some ft =>
    obtain ⟨hnew, hpending⟩ := hcall ft hft
    have hway : UnderWay s := ⟨hs, ft, hft, hnew, hpending, hs.known ft hft⟩
    exact (hway.mwFileTransferClose hh code).course

theorem OnCourse.runCall (hs : OnCourse s) (hh : Steady h) {call : FtCall} (hcall : Proper s call) :
    OnCourse (runCall h call s).2 := by
  cases call with
  | offer => exact hs.mwFileTransferOffer hh
  | accept => exact hs.mwFileTransferAccept hh hcall
  | send data => exact hs.mwFileTransferSend data
  | ack => exact hs.mwFileTransferAck
  | close code => exact hs.mwFileTransferClose hh hcall

end

theorem FtProgram.Proper.steady {program : FtProgram} (hprogram : program.Proper) (n : Nat) :
    Steady (program.hooks n) := by
  have hflushing : ∀ n ft line, ft.state = .pending → line.state = .opened →
      (program.hooks n).Keep (Flushing ft line) :=
    fun n _ _ hpending hopened => Flushing.hooks hprogram hpending hopened n
  refine ⟨?_, hprogram.begun n, hflushing n⟩
  exact hprogram.keep
    (fun n hh _ _ hcall hs => hs.runCall ⟨hh, hprogram.begun n, hflushing n⟩ hcall) n

section

variable {s : Side} {ft : MwFileTransfer} {h : FtHooks}

/-! ### Messages -/

theorem UnderWay.recvTransfer (hs : UnderWay s) (hh : Steady h) (data : MwOpaque) :
    UnderWay (recvTransfer h data s).2 := by
  obtain ⟨ft, hft, hbegun⟩ := id hs.begun
  unfold Ft.recvTransfer
  rw [StateM.get_bind, hft]
  dsimp only
  rw [StateM.ite_apply]
  split
  · exact hs
  · rw [StateM.ite_apply]
    split
    · exact hs
    · have hless : UnderWay { s with
          ft := some { ft with remaining := ft.remaining - UInt32.ofNat data.length } } :=
        ⟨hs.course.remaining hft _, _, rfl, hbegun⟩
      have hmodify : (modifyFt (fun ft' =>
            { ft' with remaining := ft.remaining - UInt32.ofNat data.length }) s).2 =
          { s with
            ft := some { ft with remaining := ft.remaining - UInt32.ofNat data.length } } := by
        simp [modifyFt, hft]
      rw [StateM.bind_apply, hmodify, StateM.ite_apply]
      split
      · rw [StateM.bind_apply]
        exact (hless.ftState (.inl (.inr (.inr (.inl rfl))))).callback hh (by simp)
      · exact hless.callback hh (by simp)

theorem UnderWay.recvReceived (hs : UnderWay s) (hh : Steady h) :
    UnderWay (recvReceived h s).2 := by
  obtain ⟨ft, hft, -⟩ := id hs.begun
  obtain ⟨s', hack, hs'⟩ := atAck_eq hft
  have hreceived : UnderWay { s with log := .received :: s.log } :=
    ⟨hs.course.log (hs.course.ends.quiet (e := .received) rfl), hs.begun.of_ft rfl⟩
  have hway : UnderWay s' := by
    rw [hs']
    split
    · exact hreceived.ftState (.inl (.inr (.inr (.inl rfl))))
    · exact hreceived
  have htold : UnderWay (h .ack (atAck s)).2 := by
    rw [hack]
    exact hway.callback hh (by simp)
  rw [recvReceived_eq, StateM.bind_apply, StateM.bind_apply]
  generalize (h .ack (atAck s)).2 = u at htold
  obtain ⟨ft', hft', -⟩ := id htold.begun
  rw [nothingRemains_apply hft', StateM.ite_apply]
  split
  · exact htold.mwFileTransferClose hh 0
  · exact htold

theorem UnderWay.recv (hs : UnderWay s) (hh : Steady h) (msg : Payload) :
    UnderWay (recv h msg s).2 := by
  unfold Ft.recv
  split
  · exact hs.recvTransfer hh msg.2
  · split
    · exact hs.recvReceived hh
    · exact hs

theorem UnderWay.recvs (hs : UnderWay s) (hh : Steady h) (msgs : List Payload) :
    UnderWay (msgs.forM (Ft.recv h) s).2 := by
  induction msgs generalizing s with
  | nil => exact hs
  | cons msg msgs ih => exact ih (hs.recv hh msg)

/-- What is written and what waits on the channel, or the channel itself, may go. -/
theorem UnderWay.drop (hs : UnderWay s) (line : Option FtLine) (wire : List FtPacket) (writes : Nat)
    (hline : ∀ line', line = some line' → ∃ line₀, s.line = some line₀ ∧
      line'.outbound = line₀.outbound ∧ line'.state = line₀.state) :
    UnderWay { s with line := line, wire := wire, writes := writes } := by
  have hbegun : Begun { s with line := line, wire := wire, writes := writes } := hs.begun
  exact ⟨hs.course.move (hs.course.ends.change rfl id) hs.course.known hline
    (fun ft hft hchannel => ⟨ft, hft, hchannel⟩) fun _ => hbegun, hbegun⟩

theorem UnderWay.flushChannel (hs : UnderWay s) (hh : Steady h) :
    UnderWay (flushChannel h s).2 := by
  unfold Ft.flushChannel
  rw [StateM.get_bind]
  cases hline : s.line with
  | none => exact hs
  | some line =>
    have htaken := hs.recvs hh line.incoming
    dsimp only
    rw [StateM.bind_apply]
    generalize (line.incoming.forM (Ft.recv h) s).2 = s' at htaken
    rw [StateM.modify_bind, StateM.get_bind]
    cases hline' : s'.line with
    | none => exact htaken.drop none _ _ (by simp)
    | some line' =>
      obtain ⟨extra, writes, hwritten, -⟩ := forM_write line'.outgoing
        { s' with line := some { line' with incoming := [] } }
      dsimp only [Option.map_some]
      rw [StateM.bind_apply, hwritten]
      refine htaken.drop (some _) _ _ ?_
      rintro line'' ⟨⟩
      exact ⟨line', hline', rfl, rfl⟩

theorem OnCourse.channelDestroy (hs : OnCourse s) (reason : UInt32) :
    OnCourse (channelDestroy reason s).2 := by
  have hft := channelDestroy_ft reason s
  have hline := channelDestroy_line reason s
  refine hs.move (hs.ends.change (channelDestroy_log reason s) fun hover => hft ▸ hover) ?_ ?_ ?_
    fun hbegun => hbegun.of_ft hft
  · rw [hft]
    exact hs.known
  · simp [hline]
  · intro ft hft' hchannel
    exact ⟨ft, hft.trans hft', hchannel⟩

/-- A transfer that is offered -/
theorem OnCourse.onCreate (hs : OnCourse s) (hh : Steady h) (addtl : MwOpaque) :
    OnCourse (onPacket h (.create addtl) s).2 := by
  rw [onPacket, StateM.get_bind, StateM.ite_apply]
  split
  · exact hs
  · rename_i hnone
    have hft : s.ft = none := by simpa using hnone
    have hclosed : ¬ Closed s.log := by
      intro hclosed
      obtain ⟨ft, hsome, -⟩ := hs.ends.now hclosed
      cases hft.symm.trans hsome
    have hmoved : ∀ t : Side, t.log = s.log → (∀ ft, t.ft = some ft → ft.state ≠ .unknown) →
        t.line = some { outbound := false, state := .wait } → OnCourse t := by
      intro t hlog hknown hline
      refine ⟨hs.ends.of_not_closed hlog hclosed, hknown, fun line hl houtbound => ?_,
        fun line hl hopened => ?_⟩ <;> cases hline.symm.trans hl
      · cases houtbound
      · cases hopened
    rw [StateM.modify_bind]
    unfold recvChannelCreate
    simp only [Get.bind_apply, Get.pure_apply]
    rw [StateM.ite_apply]
    split
    · rw [StateM.discard_apply]
      refine (hmoved _ ?_ ?_ ?_).channelDestroy errFailure
      · rfl
      · simp [hft]
      · rfl
    · rw [StateM.modify_bind]
      refine (hmoved _ ?_ ?_ ?_).callback hh (by simp)
      · rfl
      · rintro ft ⟨⟩
        simp
      · rfl

/-- A transfer whose channel is accepted has not been closed before. -/
theorem OnCourse.onAccept (hs : OnCourse s) (hh : Steady h) :
    OnCourse (onPacket h .accept s).2 := by
  rw [onPacket, StateM.get_bind]
  cases hline : s.line with
  | none => exact hs
  | some line =>
    dsimp only
    rw [StateM.ite_apply]
    split
    · exact hs.channelDestroy errRequestInvalid
    · rename_i hguard
      simp only [not_or, not_not, Bool.not_eq_false] at hguard
      obtain ⟨houtbound, hwait⟩ := hguard
      obtain ⟨ft, hft, hchannel⟩ := hs.waiting line hline houtbound hwait
      have hclosed := not_closed_of_channel hs.ends hft hchannel
      have hstate : (ftState .opened { s with line := some { line with state := .opened } }).2 =
          { s with
            ft := some { ft with state := .opened }
            line := some { line with state := .opened } } := by
        rw [ftState_of_some (s := { s with line := some _ }) hft]
        split
        · rename_i hopened
          rw [← hopened, hft]
        · simp
      have hway :
          UnderWay (ftState .opened { s with line := some { line with state := .opened } }).2 := by
        have hbegun : Begun { s with
            ft := some { ft with state := .opened }
            line := some { line with state := .opened } } := ⟨_, rfl, by simp, by simp, by simp⟩
        rw [hstate]
        refine ⟨⟨hs.ends.of_not_closed rfl hclosed, ?_, ?_, fun _ _ _ => hbegun⟩, hbegun⟩
        · rintro ft' ⟨⟩
          simp
        · rintro line' ⟨⟩ - hwaits
          cases hwaits
      have hcalled := hway.callback hh (c := .opened) (by simp)
      have haccept :
          (recvChannelAccept h { s with line := some { line with state := .opened } }).2 =
          (Ft.callback h .opened
            (Ft.ftState .opened { s with line := some { line with state := .opened } }).2).2 := by
        unfold recvChannelAccept
        rw [StateM.get_bind]
        dsimp only
        rw [hft]
        rfl
      rw [StateM.modify_bind, StateM.bind_apply, haccept, StateM.get_bind]
      generalize (Ft.callback h .opened _).2 = s' at hcalled ⊢
      cases s'.line with
      | none => exact hcalled.course
      | some line' =>
        dsimp only
        rw [StateM.ite_apply]
        split
        · exact (hcalled.flushChannel hh).course
        · exact hcalled.course

theorem OnCourse.onSend (hs : OnCourse s) (hh : Steady h) (msg : Payload) :
    OnCourse (onPacket h (.send msg) s).2 := by
  rw [onPacket, StateM.get_bind]
  cases hline : s.line with
  | none => exact hs
  | some line =>
    dsimp only
    rw [StateM.ite_apply]
    split
    · rename_i hopened
      have hway : UnderWay s := ⟨hs, hs.opened line hline hopened⟩
      exact (hway.recv hh msg).course
    · refine hs.move (hs.ends.change rfl id) hs.known ?_
        (fun ft hft hchannel => ⟨ft, hft, hchannel⟩) id
      rintro line' ⟨⟩
      exact ⟨line, hline, rfl, rfl⟩

theorem OnCourse.onDestroy (hs : OnCourse s) (hh : Steady h) (reason : UInt32) :
    OnCourse (onPacket h (.destroy reason) s).2 := by
  cases hline : s.line with
  | none =>
    rw [onPacket, StateM.get_bind, hline]
    exact hs
  | some line =>
    cases hft : s.ft with
    | none =>
      have hgone : (onPacket h (.destroy reason) s).2 = { s with line := none } := by
        rw [onPacket, StateM.get_bind, hline]
        dsimp only
        rw [StateM.modify_bind]
        unfold recvChannelDestroy
        rw [StateM.bind_apply, StateM.get_bind]
        dsimp only
        rw [hft]
        rfl
      rw [hgone]
      exact hs.move (hs.ends.change rfl id) hs.known (by simp)
        (fun ft hft hchannel => ⟨ft, hft, hchannel⟩) id
    | some ft =>
      rw [onDestroy_apply h reason hft hline]
      have hover : Over (s.leaving reason ft line).ft := by
        refine ⟨_, rfl, ?_, rfl⟩
        dsimp only
        split <;> simp [MwFileTransferState.Final]
      have hleaving : UnderWay (s.leaving reason ft line) := by
        refine ⟨⟨hs.ends.change rfl fun _ => hover, fun ft' hft' => ?_, fun line' hl _ hwait => ?_,
          fun _ _ _ => hover.begun⟩, hover.begun⟩
        · obtain ⟨ft'', hft'', -, -, hunknown⟩ := hover.begun
          cases hft'.symm.trans hft''
          exact hunknown
        · cases hl
          dsimp only at hwait
          split at hwait <;> cases hwait
      exact ((hleaving.mwFileTransferClose hh reason).drop none _ _ (by simp)).course

theorem OnCourse.step (hs : OnCourse s) (hh : Steady h) {step : FtStep}
    (hcall : ∀ call, step = .call call → Proper s call) : OnCourse (s.step h step) := by
  cases step with
  | call call => exact hs.runCall hh (hcall call rfl)
  | packet p =>
    cases p with
    | create addtl => exact hs.onCreate hh addtl
    | accept => exact hs.onAccept hh
    | send msg => exact hs.onSend hh msg
    | destroy reason => exact hs.onDestroy hh reason

theorem OnCourse.run (hs : OnCourse s) (hh : Steady h) {steps : List FtStep}
    (hsteps : ProperRun h steps s) : OnCourse (Side.run h steps s) := by
  induction steps generalizing s with
  | nil => exact hs
  | cons step steps ih =>
    obtain ⟨hcall, hsteps⟩ := hsteps
    exact ih (hs.step hh hcall) hsteps

theorem OnCourse.before (file : Option (MwString × MwString × UInt32)) (ret : Nat → Int) :
    OnCourse (.before file ret) := by
  refine ⟨⟨.nil, ?_⟩, fun ft hft => ?_, fun _ hl => (nomatch hl), fun _ hl => (nomatch hl)⟩
  · rintro ⟨code, ft, hmem⟩
    cases hmem
  · cases file with
    | none => cases hft
    | some file =>
      cases hft
      simp

end

/-! ## Whole runs -/

/-- In a run of proper calls with a handler that makes proper calls only, the transfer is
over whenever `ft_closed` is called and from then on. -/
theorem run_endsWell (program : FtProgram) (hprogram : program.Proper) (n : Nat)
    (file : Option (MwString × MwString × UInt32)) (ret : Nat → Int) (steps : List FtStep)
    (hsteps : ProperRun (program.hooks n) steps (.before file ret)) :
    EndsWell (Side.run (program.hooks n) steps (.before file ret)) :=
  ((OnCourse.before file ret).run (hprogram.steady n) hsteps).ends

/-- A transfer closed by its handler once it has been opened -/
theorem run_endsWell_opened :
    let program : FtProgram := fun _ _ =>
      [fun s => if s.ft.any (·.state = .opened) then some (.close 0) else none]
    let s := Side.run (program.hooks 2) [.call .offer, .packet .accept]
      (.before (some (none, none, 0)) fun _ => 0)
    Closed s.log ∧ EndsWell s := by
  refine ⟨⟨0, some ⟨.cancelLocal, none, none, 0, 0, false⟩, by decide⟩, ?_⟩
  refine run_endsWell _ ?_ 2 (some (none, none, 0)) (fun _ => 0) [.call .offer, .packet .accept] ?_
  · intro c s next hnext t call hcall
    rw [List.mem_singleton.mp hnext] at hcall
    dsimp only at hcall
    split at hcall
    · rename_i hopened
      cases hcall
      intro ft hft
      rw [hft] at hopened
      simp_all
    · cases hcall
  · refine ⟨?_, ?_, trivial⟩
    · rintro call ⟨⟩
      trivial
    · rintro call ⟨⟩

/-- A transfer that is pending when it is rejected is so when the handler is told. -/
theorem not_endsWell_pending :
    ¬ ∀ (program : FtProgram) (n : Nat) (file : Option (MwString × MwString × UInt32))
      (ret : Nat → Int) (steps : List FtStep),
      EndsWell (Side.run (program.hooks n) steps (.before file ret)) := by
  intro h
  obtain ⟨ft, hft, hfinal, -⟩ := (h (fun _ _ => []) 0 (some (none, none, 0)) (fun _ => 0)
    [.call .offer, .call (.close 0x08000606)]).now
      ⟨0x08000606, some ⟨.pending, none, none, 0, 0, false⟩, by decide⟩
  cases hft
  revert hfinal
  decide

end Meanwhile.Ft
