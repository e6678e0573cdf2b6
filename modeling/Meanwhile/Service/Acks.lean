-- SUMMARY: When an outgoing file transfer is done: not always after the last chunk has been acknowledged.
import Meanwhile.Service.FileTransfer
import Meanwhile.Lib.History

/-!
# Acknowledgements

A sender is done when it is told of a chunk received while nothing remains to be
sent. What remains goes down when a chunk is sent, so that this may be any chunk.
`AckedFirst` says what the sender should wait for. It holds in the runs in which
the chunk that leaves nothing is sent when all the chunks before it have been
acknowledged, and not from inside `ft_ack`; in others it need not.
-/

namespace Meanwhile.Ft

/-! ## Sending and being told -/

/-- How many chunks have been sent -/
def sentCount (log : List FtEvent) : Nat := log.countP fun
  | .sent _ => true
  | _ => false

/-- How many acknowledgements have come -/
def ackCount (log : List FtEvent) : Nat := log.countP fun
  | .received => true
  | _ => false

/-- A transfer is done, and its channel closed as a success, only after as many
acknowledgements as there are chunks sent. -/
def AckedFirst (log : List FtEvent) : Prop :=
  Justified (fun e before =>
    (e = .done ∨ e = .close 0) → sentCount before ≤ ackCount before) log

/-- A handler that only ever sends -/
abbrev SendClient := FtCallback → Side → List MwOpaque

/-- Chunks sent one after the other -/
def sendAll (chunks : List MwOpaque) : FtM Unit :=
  chunks.forM fun data => discard (mwFileTransferSend data)

/-- A sender sends no chunk in answer to a call of its own, so that its callbacks do
not nest. -/
def SendClient.hooks (client : SendClient) : FtHooks := fun c => do sendAll (client c (← get))

inductive AckStep where
  | send (data : MwOpaque)
  | ack (data : MwOpaque)

def ackStep (client : SendClient) (s : Side) : AckStep → Side
  | .send data => (mwFileTransferSend data s).2
  | .ack data => (onPacket client.hooks (.send (msgReceived, data)) s).2

def ackRun (client : SendClient) (steps : List AckStep) (s : Side) : Side :=
  steps.foldl (ackStep client) s

/-- An outgoing transfer that has just been opened -/
def Side.outgoing (filename message : MwString) (size : UInt32) (ret : Nat → Int) : Side where
  ft := some { state := .opened, filename := filename, message := message, size := size,
               remaining := size, channel := true }
  line := some { outbound := true, state := .opened }
  ret := ret

/-! ## When it works -/

/-- Whenever `mwFileTransfer_send` is called with a chunk that leaves nothing, so many
acknowledgements are missing at most. A call that the channel refuses counts as well. -/
def LastWaits (missing : Nat) (data : MwOpaque) (s : Side) : Prop :=
  (∃ ft, s.ft = some ft ∧ data.length = ft.remaining.toNat) →
    sentCount s.log + 1 ≤ ackCount s.log + missing

/-- Every one of some chunks meets a condition in the state it is sent in. -/
def SendsMeet (P : MwOpaque → Side → Prop) : List MwOpaque → Side → Prop
  | [], _ => True
  | data :: chunks, s => P data s ∧ SendsMeet P chunks (mwFileTransferSend data s).2

/-- The state in which `recv_RECEIVED` calls `ft_ack` -/
def atAck (s : Side) : Side :=
  ((do
    record .received
    if ← nothingRemains then ftState .done
    record (.callback .ack (← get).ft) : FtM Unit) s).2

/-- A step of a sender that waits: the chunk that leaves nothing comes when no
acknowledgement is missing but its own, and from inside `ft_ack` only if not even
that one is. -/
def Waits (client : SendClient) (s : Side) : AckStep → Prop
  | .send data => LastWaits 1 data s
  | .ack _ => SendsMeet (LastWaits 0) (client .ack (atAck s)) (atAck s)

/-- Every step of a run waits. -/
def RunWaits (client : SendClient) : List AckStep → Side → Prop
  | [], _ => True
  | step :: steps, s => Waits client s step ∧ RunWaits client steps (ackStep client s step)

/-! ## One chunk -/

/-- A chunk is sent, or nothing happens that matters here. -/
theorem mwFileTransferSend_spec (data : MwOpaque) (s : Side) :
    ((mwFileTransferSend data s).2.log = s.log ∧ (mwFileTransferSend data s).2.ft = s.ft) ∨
      ∃ ft, s.ft = some ft ∧ ft.state = .opened ∧ data.length ≤ ft.remaining.toNat ∧
        (mwFileTransferSend data s).2.ft =
          some { ft with remaining := ft.remaining - UInt32.ofNat data.length } ∧
        (mwFileTransferSend data s).2.log = .sent data :: s.log := by
  unfold mwFileTransferSend
  rw [StateM.get_bind]
  cases hft : s.ft with
  | none => exact .inl ⟨rfl, hft⟩
  | some ft =>
    dsimp only
    rw [StateM.get_bind, StateM.ite_apply]
    split
    · exact .inl ⟨rfl, hft⟩
    · rename_i hguard
      rw [StateM.ite_apply]
      split
      · exact .inl ⟨rfl, hft⟩
      · rename_i hlen
        rw [StateM.bind_apply]
        by_cases hret : (channelSend (msgTransfer, data) s).1 = 0
        · rw [if_pos hret]
          refine .inr ⟨ft, rfl, ?_, Nat.le_of_not_lt hlen, ?_, ?_⟩
          · by_contra hstate
            exact hguard (.inl hstate)
          · simp [modifyFt, record, hft]
          · simp [modifyFt, record]
        · rw [if_neg hret]
          exact .inl ⟨channelSend_log _ s, (channelSend_ft _ s).trans hft⟩

/-! ## Invariants -/

@[simp] theorem sentCount_nil : sentCount [] = 0 := rfl
@[simp] theorem ackCount_nil : ackCount [] = 0 := rfl

/-- If nothing remains, so many acknowledgements are missing at most. -/
structure Waited (missing : Nat) (s : Side) : Prop where
  acked : AckedFirst s.log
  last : ∀ ft, s.ft = some ft → ft.remaining = 0 →
    sentCount s.log ≤ ackCount s.log + missing

variable {missing : Nat} {s : Side}

theorem Waited.send (hw : Waited missing s) {data : MwOpaque} (hlast : LastWaits missing data s) :
    Waited missing (mwFileTransferSend data s).2 := by
  rcases mwFileTransferSend_spec data s with ⟨hlog, hft⟩ | ⟨ft, hft, -, hlen, hft', hlog⟩
  · exact ⟨hlog ▸ hw.acked, by rw [hlog, hft]; exact hw.last⟩
  · refine ⟨?_, ?_⟩
    · rw [hlog]
      exact .cons (by simp) hw.acked
    · rw [hlog, hft']
      intro ft' heq hzero
      cases heq
      have hlen' : data.length = ft.remaining.toNat := by
        have hzero' := congrArg UInt32.toNat hzero
        rw [remaining_sub hlen] at hzero'
        simp only [UInt32.toNat_zero] at hzero'
        omega
      have := hlast ⟨ft, hft, hlen'⟩
      simpa [sentCount, ackCount] using this

theorem Waited.sendAll {chunks : List MwOpaque} (hw : Waited missing s)
    (hmeet : SendsMeet (LastWaits missing) chunks s) : Waited missing (sendAll chunks s).2 := by
  induction chunks generalizing s with
  | nil => exact hw
  | cons data chunks ih => exact ih (hw.send hmeet.1) hmeet.2

/-- A transfer that is not open sends nothing. -/
theorem sendAll_of_closed (chunks : List MwOpaque)
    (hclosed : ∀ ft, s.ft = some ft → ft.state ≠ .opened) :
    (sendAll chunks s).2.log = s.log ∧ (sendAll chunks s).2.ft = s.ft := by
  induction chunks generalizing s with
  | nil => exact ⟨rfl, rfl⟩
  | cons data chunks ih =>
    rcases mwFileTransferSend_spec data s with ⟨hlog, hft⟩ | ⟨ft, hft, hopened, -⟩
    · obtain ⟨hlog', hft'⟩ := ih (s := (mwFileTransferSend data s).2) (hft ▸ hclosed)
      exact ⟨hlog'.trans hlog, hft'.trans hft⟩
    · exact absurd hopened (hclosed ft hft)

/-! ## An acknowledgement -/

theorem recvReceived_eq (h : FtHooks) (s : Side) :
    recvReceived h s =
      (do
        h .ack
        if ← nothingRemains then discard (mwFileTransferClose h 0) : FtM Unit) (atAck s) := by
  unfold recvReceived atAck callback
  simp only [StateM.bind_apply]
  cases (nothingRemains (record .received s).2).1 <;> simp

/-- The state in which `ft_ack` is called, before that is recorded -/
theorem atAck_eq {ft : MwFileTransfer} (hft : s.ft = some ft) :
    ∃ s', atAck s = { s' with log := .callback .ack s'.ft :: s'.log } ∧
      s' = if ft.remaining = 0 then (ftState .done { s with log := .received :: s.log }).2
        else { s with log := .received :: s.log } := by
  refine ⟨_, ?_, rfl⟩
  unfold atAck
  simp only [record, StateM.bind_apply, StateM.modify_apply]
  rw [nothingRemains_apply (s := { s with log := .received :: s.log }) hft]
  by_cases hzero : ft.remaining = 0 <;> simp [hzero]

/-- What was missing has come by the time `ft_ack` is called. -/
theorem Waited.atAck (hw : Waited 1 s) {ft : MwFileTransfer} (hft : s.ft = some ft) :
    Waited 0 (atAck s) ∧ ∃ ft', (atAck s).ft = some ft' := by
  have hreceived : sentCount (.received :: s.log) = sentCount s.log ∧
      ackCount (.received :: s.log) = ackCount s.log + 1 := by
    simp [sentCount, ackCount]
  have hacked : AckedFirst (.received :: s.log) := .cons (by simp) hw.acked
  obtain ⟨s', heq, hs'⟩ := atAck_eq hft
  have hw' : Waited 0 s' ∧ ∃ ft', s'.ft = some ft' := by
    by_cases hzero : ft.remaining = 0
    · have hle : sentCount (.received :: s.log) ≤ ackCount (.received :: s.log) := by
        rw [hreceived.1, hreceived.2]
        exact hw.last ft hft hzero
      rw [if_pos hzero, ftState_of_some (s := { s with log := .received :: s.log }) hft] at hs'
      by_cases hdone : ft.state = .done
      · rw [if_pos hdone] at hs'
        subst hs'
        exact ⟨⟨hacked, fun _ _ _ => hle⟩, ft, hft⟩
      · rw [if_neg hdone, if_pos rfl] at hs'
        subst hs'
        exact ⟨⟨.cons (fun _ => hle) hacked, fun _ _ _ => by simpa [sentCount, ackCount] using hle⟩,
          _, rfl⟩
    · rw [if_neg hzero] at hs'
      subst hs'
      refine ⟨⟨hacked, fun ft' hft' hzero' => ?_⟩, ft, hft⟩
      cases hft.symm.trans hft'
      exact absurd hzero' hzero
  obtain ⟨hw', ft', hft'⟩ := hw'
  rw [heq]
  refine ⟨⟨.cons (by simp) hw'.acked, fun ft'' hft'' hzero => ?_⟩, ft', hft'⟩
  simpa [sentCount, ackCount] using hw'.last ft'' hft'' hzero

theorem closing_log (code : UInt32) (ft : MwFileTransfer) (s : Side) :
    (s.closing code ft).log =
      .callback (.closed code) (s.closing code ft).ft ::
        if ft.channel then .close code :: s.log else s.log := by
  unfold Side.closing
  by_cases hchannel : ft.channel = true <;> simp [hchannel]

/-- The close at the end of `recv_RECEIVED`. What the handler sends then is not sent. -/
theorem Waited.close (hw : Waited 0 s) {ft : MwFileTransfer} (hft : s.ft = some ft)
    (hzero : ft.remaining = 0) (client : SendClient) :
    Waited 1 (mwFileTransferClose client.hooks 0 s).2 ∧
      ∃ ft', (mwFileTransferClose client.hooks 0 s).2.ft = some ft' := by
  have hclosed : ∀ ft', (s.closing 0 ft).ft = some ft' → ft'.state ≠ .opened := by
    intro ft' hft'
    cases hft'
    dsimp only
    split
    · decide
    · assumption
  obtain ⟨hlog, hft'⟩ := sendAll_of_closed (client (.closed 0) (s.closing 0 ft)) hclosed
  rw [mwFileTransferClose_apply client.hooks 0 hft]
  change Waited 1 (Ft.sendAll _ _).2 ∧ ∃ ft', (Ft.sendAll _ _).2.ft = some ft'
  rw [hft']
  have hle := hw.last ft hft hzero
  have hacked : AckedFirst (if ft.channel then .close 0 :: s.log else s.log) := by
    split
    · exact .cons (fun _ => hle) hw.acked
    · exact hw.acked
  refine ⟨⟨?_, fun _ _ _ => ?_⟩, _, rfl⟩
  · rw [hlog, closing_log]
    exact .cons (by simp) hacked
  · rw [hlog, closing_log]
    have hcount : sentCount s.log ≤ ackCount s.log + 1 := Nat.le_succ_of_le hle
    split <;> simpa [sentCount, ackCount] using hcount

/-- The calls of the handler keep the transfer. -/
theorem sendAll_ft (chunks : List MwOpaque) {ft : MwFileTransfer} (hft : s.ft = some ft) :
    ∃ ft', (sendAll chunks s).2.ft = some ft' := by
  induction chunks generalizing s ft with
  | nil => exact ⟨ft, hft⟩
  | cons data chunks ih =>
    rcases mwFileTransferSend_spec data s with ⟨-, hft'⟩ | ⟨_, -, -, -, hft', -⟩
    · exact ih (s := (mwFileTransferSend data s).2) (hft'.trans hft)
    · exact ih (s := (mwFileTransferSend data s).2) hft'

theorem Waited.recvReceived (hw : Waited 1 s) {ft : MwFileTransfer} (hft : s.ft = some ft)
    (client : SendClient)
    (hmeet : SendsMeet (LastWaits 0) (client .ack (Ft.atAck s)) (Ft.atAck s)) :
    Waited 1 (recvReceived client.hooks s).2 ∧
      ∃ ft', (recvReceived client.hooks s).2.ft = some ft' := by
  obtain ⟨hw₁, ft₁, hft₁⟩ := hw.atAck hft
  have hw₂ := hw₁.sendAll hmeet
  obtain ⟨ft₂, hft₂⟩ := sendAll_ft (client .ack (Ft.atAck s)) hft₁
  have heq : (Ft.recvReceived client.hooks s).2 =
      if ft₂.remaining = 0 then
        (mwFileTransferClose client.hooks 0
          (Ft.sendAll (client .ack (Ft.atAck s)) (Ft.atAck s)).2).2
      else (Ft.sendAll (client .ack (Ft.atAck s)) (Ft.atAck s)).2 := by
    have hhook : (client.hooks .ack (Ft.atAck s)).2 =
        (Ft.sendAll (client .ack (Ft.atAck s)) (Ft.atAck s)).2 := rfl
    rw [recvReceived_eq]
    simp only [StateM.bind_apply, hhook, nothingRemains_apply hft₂]
    by_cases hzero : ft₂.remaining = 0 <;> simp [hzero]
  rw [heq]
  split
  · exact hw₂.close hft₂ ‹_› client
  · have hlast := fun ft' hft' hzero => Nat.le_succ_of_le (hw₂.last ft' hft' hzero)
    exact ⟨⟨hw₂.acked, hlast⟩, ft₂, hft₂⟩

/-! ## Whole runs -/

theorem Waited.ackStep (hw : Waited 1 s) {ft : MwFileTransfer} (hft : s.ft = some ft)
    {client : SendClient} {step : AckStep} (hwaits : Waits client s step) :
    Waited 1 (ackStep client s step) ∧ ∃ ft', (ackStep client s step).ft = some ft' := by
  cases step with
  | send data => exact ⟨hw.send hwaits, sendAll_ft [data] hft⟩
  | ack data =>
    unfold Ft.ackStep onPacket
    dsimp only
    rw [StateM.get_bind]
    cases s.line with
    | none => exact ⟨hw, ft, hft⟩
    | some line =>
      dsimp only
      rw [StateM.ite_apply]
      split
      · exact hw.recvReceived hft client hwaits
      · exact ⟨⟨hw.acked, hw.last⟩, ft, hft⟩

theorem Waited.ackRun {client : SendClient} {steps : List AckStep} (hw : Waited 1 s)
    {ft : MwFileTransfer} (hft : s.ft = some ft) (hwaits : RunWaits client steps s) :
    Waited 1 (ackRun client steps s) := by
  induction steps generalizing s ft with
  | nil => exact hw
  | cons step steps ih =>
    obtain ⟨hw', ft', hft'⟩ := hw.ackStep hft hwaits.1
    exact ih hw' hft' hwaits.2

/-- A transfer whose last chunk waits for the acknowledgements of all the others, and is
not sent from inside `ft_ack`, is done only after the last chunk has been acknowledged. -/
theorem ackRun_ackedFirst (client : SendClient) (steps : List AckStep)
    (filename message : MwString) (size : UInt32) (ret : Nat → Int)
    (hwaits : RunWaits client steps (Side.outgoing filename message size ret)) :
    AckedFirst (ackRun client steps (Side.outgoing filename message size ret)).log := by
  have hw : Waited 1 (Side.outgoing filename message size ret) :=
    ⟨.nil, fun _ _ _ => Nat.zero_le _⟩
  exact (hw.ackRun rfl hwaits).acked

theorem ackRun_ackedFirst_alternating :
    .done ∈ (ackRun (fun _ _ => []) [.send [1], .ack [], .send [2], .ack []]
        (Side.outgoing none none 2 fun _ => 0)).log ∧
      AckedFirst (ackRun (fun _ _ => []) [.send [1], .ack [], .send [2], .ack []]
        (Side.outgoing none none 2 fun _ => 0)).log := by
  refine ⟨by decide +kernel, ackRun_ackedFirst _ _ _ _ _ _ ?_⟩
  exact ⟨fun _ => by decide +kernel, trivial, fun _ => by decide +kernel, trivial, trivial⟩

/-- With two chunks on their way, the first acknowledgement finishes the transfer. -/
theorem not_ackedFirst_pipelined :
    ¬ AckedFirst (ackRun (fun _ _ => []) [.send [1], .send [2], .ack []]
      (Side.outgoing none none 2 fun _ => 0)).log := by
  intro h
  have hdone := h .done [.received, .sent [2], .sent [1]] (by decide +kernel) (.inl rfl)
  exact absurd hdone (by decide)

/-- A handler that sends the last chunk when the one before it has been acknowledged
has its channel closed at once, as a success. -/
example : ¬ AckedFirst (ackRun (fun c s => if c = .ack ∧ s.writes = 1 then [[2]] else [])
    [.send [1], .ack []] (Side.outgoing none none 2 fun _ => 0)).log := by
  intro h
  have hclose := h (.close 0)
    [.sent [2],
      .callback .ack (some { state := .opened, filename := none, message := none, size := 2,
                             remaining := 1, channel := true }),
      .received, .sent [1]] (by decide +kernel) (.inr rfl)
  exact absurd hclose (by decide)

end Meanwhile.Ft
