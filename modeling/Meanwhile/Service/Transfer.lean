-- SUMMARY: A sender and a receiver of a file over any schedule: what is passed on is a prefix of what was written.
import Meanwhile.Service.FileTransfer

/-!
# A file from one end to the other

`Transferred` is what the two ends of a transfer agree on at any time. It follows
from an invariant of each end, `Sender` and `Receiver`, that the calls and
callbacks of that end keep whatever the other end does, and from what a message
tells the end it is given to.
-/

namespace Meanwhile.Ft

/-! ## What the ends agree on -/

/-- The chunks among some messages -/
def chunks (wire : List FtPacket) : List MwOpaque :=
  wire.filterMap fun
    | .send msg => if msg.1 = msgTransfer then some msg.2 else none
    | _ => none

/-- The chunks passed to `ft_recv`, in order -/
def passed (log : List FtEvent) : List MwOpaque :=
  (log.filterMap fun
    | .callback (.recv data) _ => some data
    | _ => none).reverse

/-- How long chunks are in all -/
def total (l : List MwOpaque) : Nat := (l.map List.length).sum

/-- What holds of the two ends at any time -/
structure Transferred (p : Pair) : Prop where
  sender_remaining : ∀ ft, p.a.ft = some ft → ft.remaining ≤ ft.size
  receiver_remaining : ∀ ft, p.b.ft = some ft → ft.remaining ≤ ft.size
  sent : ∀ ft, p.a.ft = some ft → ft.size.toNat - ft.remaining.toNat = total (chunks p.a.wire)
  passed_on : passed p.b.log <+: chunks p.a.wire
  received : ∀ ft, p.b.ft = some ft →
    ft.size.toNat - ft.remaining.toNat = total (passed p.b.log)
  same_size : ∀ ft ft', p.a.ft = some ft → p.b.ft = some ft' → ft'.size = ft.size
  done : ∀ ft, p.b.ft = some ft → ft.state = .done → total (passed p.b.log) = ft.size.toNat

@[simp] theorem chunks_append (wire wire' : List FtPacket) :
    chunks (wire ++ wire') = chunks wire ++ chunks wire' := by
  simp [chunks]

@[simp] theorem chunks_create (addtl : MwOpaque) : chunks [.create addtl] = [] := rfl
@[simp] theorem chunks_accept : chunks [.accept] = [] := rfl
@[simp] theorem chunks_transfer (data : MwOpaque) : chunks [.send (msgTransfer, data)] = [data] := rfl
@[simp] theorem chunks_received (data : MwOpaque) : chunks [.send (msgReceived, data)] = [] := rfl
@[simp] theorem chunks_destroy (reason : UInt32) : chunks [.destroy reason] = [] := rfl

@[simp] theorem total_append (l l' : List MwOpaque) : total (l ++ l') = total l + total l' := by
  simp [total]

@[simp] theorem total_singleton (data : MwOpaque) : total [data] = data.length := by
  simp [total]

theorem total_le_of_isPrefix {l l' : List MwOpaque} (h : l <+: l') : total l ≤ total l' := by
  obtain ⟨rest, rfl⟩ := h
  simp

/-- A side when `recv_channelDestroy` closes the transfer -/
def Side.leaving (reason : UInt32) (ft : MwFileTransfer) (line : FtLine) (s : Side) : Side :=
  { s with
    ft := some { ft with
      channel := false
      state := if ft.state = .done then .done else .cancelRemote }
    line := some { line with state := if reason ≠ 0 then .error else .destroy } }

theorem onDestroy_apply (h : FtHooks) (reason : UInt32) {s : Side} {ft : MwFileTransfer}
    {line : FtLine} (hft : s.ft = some ft) (hline : s.line = some line) :
    (onPacket h (.destroy reason) s).2 =
      { (mwFileTransferClose h reason (s.leaving reason ft line)).2 with line := none } := by
  have hleft : (recvChannelDestroy h reason
      { s with line := some { line with state := if reason ≠ 0 then .error else .destroy } }).2 =
      (mwFileTransferClose h reason (s.leaving reason ft line)).2 := by
    unfold recvChannelDestroy
    rw [StateM.get_bind]
    dsimp only
    rw [hft]
    dsimp only
    rw [StateM.bind_apply, StateM.ite_apply]
    by_cases hdone : ft.state = .done
    · rw [if_neg (by simpa using hdone)]
      simp [modifyFt, Side.leaving, hdone]
    · rw [if_pos hdone, StateM.bind_apply, ftState_of_some rfl]
      by_cases hcancel : ft.state = .cancelRemote <;>
        simp [modifyFt, Side.leaving, hcancel, hdone]
  rw [onPacket, StateM.get_bind, hline]
  dsimp only
  rw [StateM.modify_bind, StateM.bind_apply, StateM.modify_apply, hleft]

/-! ## The sender -/

/-- The end that offers the file, after it has written `base`. `accepted` is whether it
has been told that the channel is accepted. -/
structure Sender (base : List FtPacket) (size : UInt32) (addtl : MwOpaque) (accepted : Prop)
    (s : Side) : Prop where
  grown : base <+: s.wire
  ft : ∃ ft, s.ft = some ft ∧ ft.size = size ∧ createAddtl ft = addtl ∧
    total (chunks s.wire) + ft.remaining.toNat = size.toNat ∧
    (ft.state = .opened → accepted ∧ ∀ line, s.line = some line → line.state = .opened)
  line : ∀ line, s.line = some line → line.outbound = true ∧ line.outgoing = [] ∧
    ∀ msg ∈ line.incoming, msg.1 ≠ msgTransfer
  chunks : chunks s.wire ≠ [] → accepted
  wire : ∀ p ∈ s.wire, p = .create addtl ∨ (∃ data, p = .send (msgTransfer, data)) ∨
    ∃ reason, p = .destroy reason

/-- Hooks that keep an invariant -/
def FtHooks.Keep (h : FtHooks) (I : Side → Prop) : Prop := ∀ c s, I s → I (h c s).2

namespace Sender

variable {base : List FtPacket} {size : UInt32} {addtl : MwOpaque} {accepted : Prop} {s : Side}
  {h : FtHooks}

/-- An event recorded -/
theorem log (hs : Sender base size addtl accepted s) (log : List FtEvent) :
    Sender base size addtl accepted { s with log := log } :=
  ⟨hs.grown, hs.ft, hs.line, hs.chunks, hs.wire⟩

theorem mono (hs : Sender base size addtl accepted s) {q : Prop} (h : accepted → q) :
    Sender base size addtl q s := by
  obtain ⟨ft, hft, hsize, haddtl, htotal, hopen⟩ := hs.ft
  exact ⟨hs.grown,
    ⟨ft, hft, hsize, haddtl, htotal, fun hopened => ⟨h (hopen hopened).1, (hopen hopened).2⟩⟩,
    hs.line, fun hne => h (hs.chunks hne), hs.wire⟩

/-- The transfer moved on without a chunk -/
theorem change (hs : Sender base size addtl accepted s) {t : Side} {ft ft' : MwFileTransfer}
    (hft : s.ft = some ft) (hft' : t.ft = some ft') (hsize : ft'.size = ft.size)
    (haddtl : createAddtl ft' = createAddtl ft) (hremaining : ft'.remaining = ft.remaining)
    (hopened : ft'.state = .opened → accepted ∧ ∀ line, t.line = some line → line.state = .opened)
    (hline : ∀ line, t.line = some line → line.outbound = true ∧ line.outgoing = [] ∧
      ∀ msg ∈ line.incoming, msg.1 ≠ msgTransfer)
    (hwire : t.wire = s.wire ∨
      ∃ p, t.wire = s.wire ++ [p] ∧ (p = .create addtl ∨ ∃ reason, p = .destroy reason)) :
    Sender base size addtl accepted t := by
  have hchunks : Ft.chunks t.wire = Ft.chunks s.wire := by
    rcases hwire with hwire | ⟨p, hwire, rfl | ⟨reason, rfl⟩⟩ <;> simp [hwire]
  obtain ⟨ft₀, hft₀, hsize₀, haddtl₀, htotal, -⟩ := hs.ft
  cases hft.symm.trans hft₀
  refine ⟨?_, ⟨ft', hft', hsize.trans hsize₀, haddtl.trans haddtl₀, ?_, hopened⟩, hline, ?_, ?_⟩
  · rcases hwire with hwire | ⟨p, hwire, -⟩
    · rw [hwire]
      exact hs.grown
    · rw [hwire]
      exact hs.grown.trans (List.prefix_append _ _)
  · rw [hchunks, hremaining]
    exact htotal
  · rw [hchunks]
    exact hs.chunks
  · rcases hwire with hwire | ⟨p, hwire, hp⟩
    · rw [hwire]
      exact hs.wire
    · rw [hwire]
      intro p' hp'
      rcases List.mem_append.mp hp' with hp' | hp'
      · exact hs.wire p' hp'
      · rw [List.mem_singleton.mp hp']
        exact hp.elim .inl fun h => .inr (.inr h)

theorem ftState (hs : Sender base size addtl accepted s) (state : MwFileTransferState)
    (hstate : state = .opened → accepted ∧ ∀ line, s.line = some line → line.state = .opened) :
    Sender base size addtl accepted (ftState state s).2 := by
  obtain ⟨ft, hft, -⟩ := hs.ft
  rw [ftState_of_some hft]
  split
  · exact hs
  · exact hs.change hft rfl rfl rfl rfl hstate hs.line (.inl rfl)

theorem channelDestroy (hs : Sender base size addtl accepted s) (reason : UInt32) :
    Sender base size addtl accepted (channelDestroy reason s).2 := by
  obtain ⟨ft, hft, -, -, -, hopen⟩ := hs.ft
  have hline := channelDestroy_line reason s
  refine hs.change hft ((channelDestroy_ft reason s).trans hft) rfl rfl rfl ?_ ?_ ?_
  · intro hopened
    exact ⟨(hopen hopened).1, by simp [hline]⟩
  · simp [hline]
  · rcases channelDestroy_wire reason s with hwire | hwire
    · exact .inl hwire
    · exact .inr ⟨_, hwire, .inr ⟨reason, rfl⟩⟩

/-- A transfer when it is closed -/
theorem closing (hs : Sender base size addtl accepted s) {ft : MwFileTransfer} (hft : s.ft = some ft)
    (code : UInt32) : Sender base size addtl accepted (s.closing code ft) := by
  have hwire := channelDestroy_wire code { s with log := .close code :: s.log }
  refine hs.change hft rfl rfl rfl rfl ?_ ?_ ?_
  · intro hopened
    dsimp only at hopened
    split at hopened
    · cases hopened
    · exact absurd hopened ‹_›
  · intro line hline
    unfold Side.closing at hline
    dsimp only at hline
    split at hline
    · rw [channelDestroy_line] at hline
      cases hline
    · exact hs.line line hline
  · unfold Side.closing
    dsimp only
    split
    · rcases hwire with hwire | hwire
      · exact .inl hwire
      · exact .inr ⟨_, hwire, .inr ⟨code, rfl⟩⟩
    · exact .inl rfl

theorem mwFileTransferClose (hs : Sender base size addtl accepted s)
    (hh : h.Keep (Sender base size addtl accepted)) (code : UInt32) :
    Sender base size addtl accepted (mwFileTransferClose h code s).2 := by
  obtain ⟨ft, hft, -⟩ := hs.ft
  rw [mwFileTransferClose_apply h code hft]
  exact hh _ _ (hs.closing hft code)

/-- A chunk is written and counted, or neither. -/
theorem mwFileTransferSend (hs : Sender base size addtl accepted s) (data : MwOpaque) :
    Sender base size addtl accepted (mwFileTransferSend data s).2 := by
  obtain ⟨ft, hft, hsize, haddtl, htotal, hopen⟩ := hs.ft
  unfold Ft.mwFileTransferSend
  rw [StateM.get_bind, hft]
  dsimp only
  rw [StateM.get_bind, StateM.ite_apply]
  split
  · exact hs
  · rename_i hguard
    rw [StateM.ite_apply]
    split
    · exact hs
    · rename_i hlen
      simp only [not_or, not_not] at hguard
      obtain ⟨hopened, -, hany⟩ := hguard
      obtain ⟨haccepted, hlines⟩ := hopen hopened
      obtain ⟨line, hline, -⟩ := (Option.any_eq_true _ _).mp hany
      have hstate := hlines line hline
      rw [StateM.bind_apply, channelSend_of_opened hline hstate]
      have hwire := write_wire_of_ret (.send (msgTransfer, data)) s
      by_cases hret : (write (.send (msgTransfer, data)) s).1 = 0
      · rw [if_pos hret] at hwire ⊢
        refine ⟨?_, ⟨{ ft with remaining := ft.remaining - UInt32.ofNat data.length }, ?_, hsize,
          haddtl, ?_, fun _ => ⟨haccepted, hlines⟩⟩, hs.line, fun _ => haccepted, ?_⟩
        · change base <+: (write _ s).2.wire
          rw [hwire]
          exact hs.grown.trans (List.prefix_append _ _)
        · simp [modifyFt, record, hft]
        · change total (Ft.chunks (write _ s).2.wire) + _ = _
          rw [hwire, remaining_sub (Nat.le_of_not_lt hlen), chunks_append, chunks_transfer,
            total_append, total_singleton]
          omega
        · intro p hp
          change p ∈ (write _ s).2.wire at hp
          rw [hwire] at hp
          rcases List.mem_append.mp hp with hp | hp
          · exact hs.wire p hp
          · exact .inr (.inl ⟨data, List.mem_singleton.mp hp⟩)
      · rw [if_neg hret] at hwire ⊢
        exact hs.change hft hft rfl rfl rfl hopen hs.line (.inl hwire)

theorem mwFileTransferAck (hs : Sender base size addtl accepted s) :
    Sender base size addtl accepted (mwFileTransferAck s).2 := by
  obtain ⟨ft, hft, -⟩ := hs.ft
  unfold Ft.mwFileTransferAck
  rw [StateM.get_bind, hft]
  dsimp only
  rw [StateM.get_bind, StateM.ite_apply]
  split
  · exact hs
  · rename_i hguard
    -- an open channel would be outgoing, so there is none
    cases hline : s.line with
    | none =>
      unfold channelSend
      rw [StateM.get_bind, hline]
      exact hs
    | some line =>
      exact absurd (.inr (by simp [hline, (hs.line line hline).1])) hguard

theorem mwFileTransferAccept (hs : Sender base size addtl accepted s) :
    Sender base size addtl accepted (mwFileTransferAccept h s).2 := by
  obtain ⟨ft, hft, -⟩ := hs.ft
  unfold Ft.mwFileTransferAccept
  rw [StateM.get_bind, StateM.get_bind, hft]
  cases hline : s.line with
  | none => exact hs
  | some line =>
    dsimp only
    rw [StateM.ite_apply, if_pos (.inr (.inr (.inl (hs.line line hline).1)))]
    exact hs

theorem mwFileTransferOffer (hs : Sender base size addtl accepted s)
    (hh : h.Keep (Sender base size addtl accepted)) :
    Sender base size addtl accepted (mwFileTransferOffer h s).2 := by
  obtain ⟨ft, hft, -, haddtl, -⟩ := hs.ft
  unfold Ft.mwFileTransferOffer
  rw [StateM.get_bind, hft]
  dsimp only
  rw [StateM.ite_apply]
  split
  · exact hs
  · rename_i hguard
    have hnew : ft.state = .new := by
      by_contra hne
      exact hguard (.inr hne)
    have hwire := write_wire (.create (createAddtl ft)) s
    rw [haddtl] at hwire ⊢
    simp only [StateM.bind_apply, StateM.modify_apply, StateM.ite_apply]
    -- the channel is new whether it could be created or not
    have hoffered : ∀ (channel : Bool) (state : MwChannelState), Sender base size addtl accepted
        { (write (.create addtl) s).2 with
          ft := some { ft with channel := channel }
          line := some { outbound := true, state := state } } := by
      intro channel state
      refine hs.change hft rfl rfl rfl rfl (fun hopened => ?_) ?_ ?_
      · exact absurd (hnew.symm.trans hopened) (by decide)
      · intro line hline
        cases hline
        exact ⟨rfl, rfl, by simp⟩
      · rcases hwire with hwire | hwire
        · exact .inl hwire
        · exact .inr ⟨_, hwire, .inl rfl⟩
    split
    · have hs' := hoffered ft.channel .error
      rw [show (some { ft with channel := ft.channel } : Option MwFileTransfer) =
        (write (.create addtl) s).2.ft from hft.symm] at hs'
      exact (hs'.ftState _ (by simp)).mwFileTransferClose hh errFailure
    · have hs' := hoffered true .wait
      have hmodify : (modifyFt (fun ft => { ft with channel := true })
          { (write (.create addtl) s).2 with
            line := some { outbound := true, state := .wait } }).2 =
          { (write (.create addtl) s).2 with
            ft := some { ft with channel := true }
            line := some { outbound := true, state := .wait } } := by
        simp [modifyFt, hft]
      rw [hmodify]
      exact hs'.ftState _ (by simp)

theorem runCall (hs : Sender base size addtl accepted s) (hh : h.Keep (Sender base size addtl accepted))
    (call : FtCall) : Sender base size addtl accepted (runCall h call s).2 := by
  cases call with
  | offer => exact hs.mwFileTransferOffer hh
  | accept => exact hs.mwFileTransferAccept
  | send data => exact hs.mwFileTransferSend data
  | ack => exact hs.mwFileTransferAck
  | close code => exact hs.mwFileTransferClose hh code

theorem hooks (client : FtClient) (n : Nat) :
    (hooks client n).Keep (Sender base size addtl accepted) := by
  induction n with
  | zero => exact fun c s hs => hs
  | succ n ih =>
    intro c s hs
    change Sender base size addtl accepted ((client c s).forM (Ft.runCall (Ft.hooks client n)) s).2
    generalize client c s = calls
    induction calls generalizing s with
    | nil => exact hs
    | cons call calls ih' => exact ih' _ (hs.runCall ih call)

/-! ### What the sender is told -/

theorem callback (hs : Sender base size addtl accepted s) (hh : h.Keep (Sender base size addtl accepted))
    (c : FtCallback) : Sender base size addtl accepted (callback h c s).2 :=
  hh c _ (hs.log _)

theorem recvReceived (hs : Sender base size addtl accepted s)
    (hh : h.Keep (Sender base size addtl accepted)) :
    Sender base size addtl accepted (recvReceived h s).2 := by
  have hend : ∀ s, Sender base size addtl accepted s → Sender base size addtl accepted
      ((do
        Ft.callback h .ack
        if ← nothingRemains then discard (Ft.mwFileTransferClose h 0) : FtM Unit) s).2 := by
    intro s hs
    have hack := hs.callback hh .ack
    simp only [StateM.bind_apply, StateM.ite_apply]
    split
    · exact hack.mwFileTransferClose hh 0
    · exact hack
  have hreceived := hs.log (.received :: s.log)
  unfold Ft.recvReceived
  rw [StateM.bind_apply, StateM.bind_apply, StateM.ite_apply]
  split
  · exact hend _ (hreceived.ftState _ (by simp))
  · exact hend _ hreceived

/-- A message that is no chunk -/
theorem recv (hs : Sender base size addtl accepted s) (hh : h.Keep (Sender base size addtl accepted))
    {msg : Payload} (hmsg : msg.1 ≠ msgTransfer) : Sender base size addtl accepted (recv h msg s).2 := by
  unfold Ft.recv
  rw [if_neg hmsg]
  split
  · exact hs.recvReceived hh
  · exact hs

theorem recvs (hh : h.Keep (Sender base size addtl accepted)) {msgs : List Payload}
    (hmsgs : ∀ msg ∈ msgs, msg.1 ≠ msgTransfer) (hs : Sender base size addtl accepted s) :
    Sender base size addtl accepted (msgs.forM (Ft.recv h) s).2 := by
  induction msgs generalizing s with
  | nil => exact hs
  | cons msg msgs ih =>
    exact ih (fun m hm => hmsgs m (List.mem_cons_of_mem _ hm))
      (hs.recv hh (hmsgs msg List.mem_cons_self))

theorem flushChannel (hs : Sender base size addtl accepted s)
    (hh : h.Keep (Sender base size addtl accepted)) :
    Sender base size addtl accepted (flushChannel h s).2 := by
  unfold Ft.flushChannel
  rw [StateM.get_bind]
  cases hline : s.line with
  | none => exact hs
  | some line =>
    dsimp only
    have hs' := hs.recvs hh (hs.line line hline).2.2
    simp only [StateM.bind_apply, StateM.modify_apply, StateM.get_apply]
    generalize (line.incoming.forM (Ft.recv h) s).2 = s' at hs'
    obtain ⟨ft, hft, -, -, -, hopen⟩ := hs'.ft
    cases hline' : s'.line with
    | none =>
      exact hs'.change (t := { s' with line := none }) hft hft rfl rfl rfl
        (fun hopened => ⟨(hopen hopened).1, by simp⟩) (by simp) (.inl rfl)
    | some line' =>
      -- a sender queues nothing before its channel is open
      obtain ⟨houtbound, houtgoing, -⟩ := hs'.line line' hline'
      simp only [Option.map_some, houtgoing]
      refine hs'.change hft hft rfl rfl rfl (fun hopened => ?_) ?_ (.inl rfl)
      · obtain ⟨haccepted, hlines⟩ := hopen hopened
        refine ⟨haccepted, fun line hline => ?_⟩
        cases hline
        exact hlines line' hline'
      · intro line hline
        cases hline
        exact ⟨houtbound, rfl, by simp⟩

/-- The sender is told that its channel is accepted. -/
theorem onAccept (hs : Sender base size addtl accepted s) (hh : h.Keep (Sender base size addtl True)) :
    Sender base size addtl True (onPacket h .accept s).2 := by
  have hs : Sender base size addtl True s := hs.mono fun _ => trivial
  obtain ⟨ft, hft, -⟩ := hs.ft
  rw [onPacket, StateM.get_bind]
  cases hline : s.line with
  | none => exact hs
  | some line =>
    dsimp only
    rw [StateM.ite_apply]
    split
    · exact hs.channelDestroy errRequestInvalid
    · obtain ⟨houtbound, houtgoing, hincoming⟩ := hs.line line hline
      have hopened : Sender base size addtl True { s with line := some { line with state := .opened } } :=
        hs.change hft hft rfl rfl rfl (fun _ => ⟨trivial, by simp⟩)
          (by simpa using ⟨houtbound, houtgoing, by simpa using hincoming⟩) (.inl rfl)
      have hcalled := (hopened.ftState .opened fun _ => ⟨trivial, by simp⟩).callback hh .opened
      have haccept : (recvChannelAccept h { s with line := some { line with state := .opened } }).2 =
          (Ft.callback h .opened
            (Ft.ftState .opened { s with line := some { line with state := .opened } }).2).2 := by
        unfold recvChannelAccept
        rw [StateM.get_bind]
        dsimp only
        rw [hft]
        rfl
      rw [StateM.modify_bind, StateM.bind_apply, haccept, StateM.get_bind]
      generalize (Ft.callback h .opened _).2 = s' at hcalled ⊢
      cases s'.line with
      | none => exact hcalled
      | some line' =>
        dsimp only
        rw [StateM.ite_apply]
        split
        · exact hcalled.flushChannel hh
        · exact hcalled

/-- A message that is no chunk -/
theorem onSend (hs : Sender base size addtl accepted s) (hh : h.Keep (Sender base size addtl accepted))
    {msg : Payload} (hmsg : msg.1 ≠ msgTransfer) :
    Sender base size addtl accepted (onPacket h (.send msg) s).2 := by
  obtain ⟨ft, hft, -, -, -, hopen⟩ := hs.ft
  rw [onPacket, StateM.get_bind]
  cases hline : s.line with
  | none => exact hs
  | some line =>
    dsimp only
    rw [StateM.ite_apply]
    split
    · exact hs.recv hh hmsg
    · obtain ⟨houtbound, houtgoing, hincoming⟩ := hs.line line hline
      refine hs.change hft hft rfl rfl rfl (fun hopened => ?_) ?_ (.inl rfl)
      · exact absurd ((hopen hopened).2 line hline) ‹_›
      · intro line' hline'
        cases hline'
        refine ⟨houtbound, houtgoing, fun m hm => ?_⟩
        rcases List.mem_append.mp hm with hm | hm
        · exact hincoming m hm
        · rw [List.mem_singleton.mp hm]
          exact hmsg

theorem onDestroy (hs : Sender base size addtl accepted s) (hh : h.Keep (Sender base size addtl accepted))
    (reason : UInt32) : Sender base size addtl accepted (onPacket h (.destroy reason) s).2 := by
  obtain ⟨ft, hft, -⟩ := hs.ft
  cases hline : s.line with
  | none =>
    rw [onPacket, StateM.get_bind, hline]
    exact hs
  | some line =>
    rw [onDestroy_apply h reason hft hline]
    obtain ⟨houtbound, houtgoing, hincoming⟩ := hs.line line hline
    have hleaving : Sender base size addtl accepted (s.leaving reason ft line) := by
      refine hs.change hft rfl rfl rfl rfl (fun hopened => ?_) ?_ (.inl rfl)
      · simp only at hopened
        split at hopened <;> cases hopened
      · intro line' hline'
        cases hline'
        exact ⟨houtbound, houtgoing, hincoming⟩
    have hclosed := hleaving.mwFileTransferClose hh reason
    obtain ⟨ft', hft', -, -, -, hopen⟩ := hclosed.ft
    exact hclosed.change hft' hft' rfl rfl rfl (fun hopened => ⟨(hopen hopened).1, by simp⟩)
      (by simp) (.inl rfl)

end Sender

/-! ## The receiver -/

/-- A chunk passed on is the last one. -/
@[simp] theorem passed_recv (data : MwOpaque) (ft : Option MwFileTransfer) (log : List FtEvent) :
    passed (.callback (.recv data) ft :: log) = passed log ++ [data] := by
  simp [passed]

/-- An event in which nothing is passed on -/
@[simp] def FtEvent.silent : FtEvent → Bool
  | .callback (.recv _) _ => false
  | _ => true

theorem passed_of_silent {e : FtEvent} (he : e.silent = true) (log : List FtEvent) :
    passed (e :: log) = passed log := by
  cases e with
  | callback c ft => cases c <;> simp_all [passed]
  | _ => simp [passed]

/-- What the receiver has of the file, when the chunks `given` have been given to its end.
In a transfer that is `gone` the other end has destroyed the channel. -/
structure Received (gone : Prop) (size : UInt32) (given : List MwOpaque) (s : Side)
    (ft : MwFileTransfer) : Prop where
  sameSize : ft.size = size
  counted : total (passed s.log) + ft.remaining.toNat = size.toNat
  isPrefix : passed s.log <+: given
  opened : ft.state = .opened →
    passed s.log = given ∧ ∃ line, s.line = some line ∧ line.state = .opened
  pending : ft.state = .pending → given = [] ∧ .accept ∉ s.wire
  done : ft.state = .done → ft.remaining = 0
  offered : ft.state ≠ .new
  gone : gone → ft.state ≠ .opened ∧ ft.channel = false

/-- The end that is offered the file, after it has written `base` -/
structure Receiver (base : List FtPacket) (gone : Prop) (size : UInt32) (given : List MwOpaque)
    (s : Side) : Prop where
  grown : base <+: s.wire
  absent : s.ft = none → given = [] ∧ passed s.log = [] ∧ .accept ∉ s.wire ∧ s.line = none
  ft : ∀ ft, s.ft = some ft → Received gone size given s ft
  line : ∀ line, s.line = some line → line.outbound = false ∧
    (∀ msg ∈ line.outgoing, msg = (msgReceived, [])) ∧
    (line.state = .wait → line.incoming = [] ∧ .accept ∉ s.wire)
  wire : ∀ p ∈ s.wire, p = .accept ∨ p = .send (msgReceived, []) ∨ ∃ reason, p = .destroy reason

/-- Messages a receiver writes besides its acceptance -/
def Replies (extra : List FtPacket) : Prop :=
  ∀ p ∈ extra, p = .send (msgReceived, []) ∨ ∃ reason, p = .destroy reason

theorem Replies.nil : Replies [] := by
  simp [Replies]

theorem Replies.destroy (reason : UInt32) : Replies [.destroy reason] := by
  simp [Replies]

theorem Replies.accept {extra : List FtPacket} (h : Replies extra) : .accept ∉ extra := by
  intro hmem
  rcases h _ hmem with hp | ⟨reason, hp⟩ <;> cases hp

/-- The messages of a queue written -/
theorem forM_write (msgs : List Payload) (s : Side) :
    ∃ extra writes, (msgs.forM (fun msg => discard (write (.send msg))) s).2 =
        { s with wire := s.wire ++ extra, writes := writes } ∧
      ∀ p ∈ extra, ∃ msg ∈ msgs, p = .send msg := by
  induction msgs generalizing s with
  | nil => exact ⟨[], s.writes, by simp, by simp⟩
  | cons msg msgs ih =>
    obtain ⟨extra, writes, hs, hextra⟩ := ih (write (.send msg) s).2
    have hmem : ∀ p ∈ extra, ∃ msg' ∈ msg :: msgs, p = .send msg' := by
      intro p hp
      obtain ⟨msg', hmsg', hp⟩ := hextra p hp
      exact ⟨msg', List.mem_cons_of_mem _ hmsg', hp⟩
    have hwire := write_wire_of_ret (.send msg) s
    rw [StateM.forM_cons, StateM.discard_apply, hs]
    split at hwire
    · refine ⟨.send msg :: extra, writes, ?_, ?_⟩
      · rw [hwire, List.append_assoc]
        rfl
      · intro p hp
        rcases List.mem_cons.mp hp with rfl | hp
        · exact ⟨msg, List.mem_cons_self, rfl⟩
        · exact hmem p hp
    · refine ⟨extra, writes, ?_, hmem⟩
      rw [hwire]
      rfl

theorem channelAccept_apply (h : FtHooks) {s : Side} {line : FtLine} (hline : s.line = some line) :
    channelAccept h s = ((write .accept s).1,
      if (write .accept s).1 ≠ 0 then
        { (write .accept s).2 with line := some { line with state := .error } }
      else
        (flushChannel h
          { (write .accept s).2 with line := some { line with state := .opened } }).2) := by
  unfold channelAccept
  rw [StateM.get_bind, hline]
  dsimp only
  rw [StateM.bind_apply, StateM.ite_apply]
  split <;> rfl

theorem channelAccept_of_failed (h : FtHooks) {s : Side} {line : FtLine} (hline : s.line = some line)
    (hret : (channelAccept h s).1 ≠ 0) :
    (channelAccept h s).2 =
      { s with writes := s.writes + 1, line := some { line with state := .error } } := by
  have hwire := write_wire_of_ret .accept s
  rw [channelAccept_apply h hline] at hret ⊢
  rw [if_neg hret] at hwire
  rw [if_pos hret]
  dsimp only
  rw [hwire]
  rfl

/-- The offer that `ft_create_chan` composes -/
theorem recvChannelCreate_apply (h : FtHooks) {ft : MwFileTransfer} (hfilename : ft.filename.Fits)
    (hmessage : ft.message.Fits) (s : Side) :
    (recvChannelCreate h (createAddtl ft) s).2 =
      (callback h .offered
        { s with
          ft := some { state := .pending, filename := ft.filename.canon,
                       message := ft.message.canon, size := ft.size, remaining := ft.size,
                       channel := true } }).2 := by
  unfold recvChannelCreate createAddtl
  simp only [GetBuffer.wrapOpaque_eq_between, List.append_assoc, Get.bind_apply,
    guint32Get_between, mwStringGet_between hfilename, mwStringGet_between hmessage,
    Get.pure_apply, GetBuffer.between_error]
  rfl

/-- An open transfer when it passes a chunk on -/
def Side.passing (data : MwOpaque) (ft : MwFileTransfer) (s : Side) : Side :=
  let remaining := ft.remaining - UInt32.ofNat data.length
  let ft' := { ft with
    remaining := remaining
    state := if remaining = 0 then .done else .opened }
  { s with
    ft := some ft'
    log := .callback (.recv data) (some ft') :: if remaining = 0 then .done :: s.log else s.log }

theorem recvTransfer_apply (h : FtHooks) {s : Side} {ft : MwFileTransfer} {data : MwOpaque}
    (hft : s.ft = some ft) (hopened : ft.state = .opened)
    (hfits : data.length ≤ ft.remaining.toNat) :
    (recvTransfer h data s).2 = (h (.recv data) (s.passing data ft)).2 := by
  unfold recvTransfer
  rw [StateM.get_bind, hft]
  dsimp only
  rw [if_neg (not_not.mpr hopened), if_neg (Nat.not_lt.mpr hfits), StateM.bind_apply,
    StateM.ite_apply]
  split
  · rename_i hzero
    rw [StateM.bind_apply, ftState_of_some (by rw [modifyFt, StateM.modify_apply, hft]; rfl)]
    simp [modifyFt, callback, record, Side.passing, hopened, hzero]
  · rename_i hzero
    simp [modifyFt, callback, record, Side.passing, hopened, hzero, hft]

/-- A channel on which nothing has come is accepted, and what is queued is written. -/
theorem channelAccept_of_ok (h : FtHooks) {s : Side} {line : FtLine} (hline : s.line = some line)
    (hincoming : line.incoming = []) (hret : (channelAccept h s).1 = 0) :
    ∃ extra writes, (channelAccept h s).2 =
        { s with
          line := some { line with state := .opened, outgoing := [] }
          wire := s.wire ++ .accept :: extra
          writes := writes } ∧
      ∀ p ∈ extra, ∃ msg ∈ line.outgoing, p = .send msg := by
  have hwire := write_wire_of_ret .accept s
  rw [channelAccept_apply h hline] at hret ⊢
  rw [if_pos hret] at hwire
  rw [if_neg (not_not.mpr hret)]
  obtain ⟨extra, writes, hs, hextra⟩ := forM_write line.outgoing
    { (write .accept s).2 with line := some { line with state := .opened, incoming := [] } }
  refine ⟨extra, writes, ?_, hextra⟩
  unfold flushChannel
  rw [StateM.get_bind]
  dsimp only
  rw [hincoming, StateM.bind_apply, StateM.forM_nil, StateM.modify_bind, StateM.get_bind]
  dsimp only [Option.map_some]
  rw [StateM.bind_apply, hs, StateM.modify_apply, hwire, List.append_assoc]
  rfl

namespace Receiver

variable {base : List FtPacket} {gone : Prop} {size : UInt32} {given : List MwOpaque} {s : Side}
  {h : FtHooks}

/-- An event recorded in which nothing is passed on -/
theorem log (hs : Receiver base gone size given s) {e : FtEvent} (he : e.silent = true) :
    Receiver base gone size given { s with log := e :: s.log } := by
  have hpassed := passed_of_silent he s.log
  refine ⟨hs.grown, ?_, fun ft hft => ?_, hs.line, hs.wire⟩
  · intro hft
    rw [hpassed]
    exact hs.absent hft
  · obtain ⟨hsize, htotal, hpre, hopened, hpending, hdone, hoffered, hgone⟩ := hs.ft ft hft
    refine ⟨hsize, ?_, ?_, ?_, hpending, hdone, hoffered, hgone⟩ <;> rw [hpassed] <;> assumption

/-- The transfer moved on without a chunk -/
theorem change (hs : Receiver base gone size given s) {ft : MwFileTransfer}
    (hft : s.ft = some ft) (t : Side) (ft' : MwFileTransfer) (hft' : t.ft = some ft') (hsize : ft'.size = ft.size)
    (hremaining : ft'.remaining = ft.remaining) (hlog : passed t.log = passed s.log)
    (hopened : ft'.state = .opened → ft.state = .opened ∧
      ∃ line, t.line = some line ∧ line.state = .opened)
    (hpending : ft'.state = .pending → ft.state = .pending)
    (hdone : ft'.state = .done → ft.state = .done) (hnew : ft'.state ≠ .new)
    {gone' : Prop} (hgone : gone' → ft'.state ≠ .opened ∧ ft'.channel = false)
    {extra : List FtPacket} (hwire : t.wire = s.wire ++ extra) (hextra : Replies extra)
    (hline : ∀ line, t.line = some line → line.outbound = false ∧
      (∀ msg ∈ line.outgoing, msg = (msgReceived, [])) ∧
      (line.state = .wait → line.incoming = [] ∧ .accept ∉ s.wire)) :
    Receiver base gone' size given t := by
  have haccept : ∀ {p : Prop}, p ∧ .accept ∉ s.wire → p ∧ .accept ∉ t.wire := by
    intro p hp
    refine ⟨hp.1, ?_⟩
    rw [hwire, List.mem_append]
    exact not_or.mpr ⟨hp.2, hextra.accept⟩
  have hr := hs.ft ft hft
  refine ⟨?_, fun hnone => ?_, fun ft₀ hft₀ => ?_, fun line hl => ?_, ?_⟩
  · rw [hwire]
    exact hs.grown.trans (List.prefix_append _ _)
  · cases hnone.symm.trans hft'
  · cases hft'.symm.trans hft₀
    refine ⟨hsize.trans hr.sameSize, ?_, ?_, fun hstate => ?_, fun hstate => ?_, fun hstate => ?_, hnew,
      hgone⟩
    · rw [hlog, hremaining]
      exact hr.counted
    · rw [hlog]
      exact hr.isPrefix
    · obtain ⟨hstate, hline⟩ := hopened hstate
      rw [hlog]
      exact ⟨(hr.opened hstate).1, hline⟩
    · exact haccept (hr.pending (hpending hstate))
    · rw [hremaining]
      exact hr.done (hdone hstate)
  · obtain ⟨houtbound, houtgoing, hwait⟩ := hline line hl
    exact ⟨houtbound, houtgoing, fun hstate => haccept (hwait hstate)⟩
  · rw [hwire]
    intro p hp
    rcases List.mem_append.mp hp with hp | hp
    · exact hs.wire p hp
    · exact .inr (hextra p hp)

theorem silentCallback (hs : Receiver base gone size given s)
    (hh : h.Keep (Receiver base gone size given)) {c : FtCallback} (hc : ∀ data, c ≠ .recv data) :
    Receiver base gone size given (callback h c s).2 := by
  refine hh c _ (hs.log ?_)
  cases c with
  | recv data => exact absurd rfl (hc data)
  | _ => rfl

/-- A transfer when it is closed -/
theorem closing (hs : Receiver base gone size given s) {ft : MwFileTransfer}
    (hft : s.ft = some ft) (code : UInt32) :
    Receiver base gone size given (s.closing code ft) := by
  have hnotOpened : (if ft.state = .opened then .cancelLocal else ft.state) ≠
      MwFileTransferState.opened := by
    split
    · decide
    · assumption
  have hsame : ∀ {state : MwFileTransferState}, state ≠ .cancelLocal →
      (if ft.state = .opened then .cancelLocal else ft.state) = state → ft.state = state := by
    intro state hne heq
    split at heq
    · exact absurd heq.symm hne
    · exact heq
  have hwire : ∃ extra, (s.closing code ft).wire = s.wire ++ extra ∧ Replies extra := by
    unfold Side.closing
    dsimp only
    split
    · rcases channelDestroy_wire code { s with log := .close code :: s.log } with hw | hw
      · exact ⟨[], by simpa using hw, .nil⟩
      · exact ⟨_, hw, .destroy code⟩
    · exact ⟨[], (List.append_nil _).symm, .nil⟩
  obtain ⟨extra, hwire, hextra⟩ := hwire
  refine hs.change hft (s.closing code ft) _ rfl rfl rfl ?_ (fun h => absurd h hnotOpened)
    (hsame (by decide)) (hsame (by decide))
    (fun h => (hs.ft ft hft).offered (hsame (by decide) h)) (fun _ => ⟨hnotOpened, rfl⟩)
    hwire hextra ?_
  · unfold Side.closing
    cases ft.channel with
    | false => exact passed_of_silent rfl _
    | true =>
      dsimp only
      rw [passed_of_silent rfl, if_pos rfl, channelDestroy_log, passed_of_silent rfl]
  · intro line hline
    unfold Side.closing at hline
    dsimp only at hline
    split at hline
    · rw [channelDestroy_line] at hline
      cases hline
    · exact hs.line line hline

theorem mwFileTransferClose (hs : Receiver base gone size given s)
    (hh : h.Keep (Receiver base gone size given)) (code : UInt32) :
    Receiver base gone size given (mwFileTransferClose h code s).2 := by
  cases hft : s.ft with
  | none =>
    unfold Ft.mwFileTransferClose
    rw [StateM.get_bind, hft]
    exact hs
  | some ft =>
    rw [mwFileTransferClose_apply h code hft]
    exact hh _ _ (hs.closing hft code)

/-- The receiver has no outgoing channel to send on. -/
theorem mwFileTransferSend (hs : Receiver base gone size given s) (data : MwOpaque) :
    Receiver base gone size given (mwFileTransferSend data s).2 := by
  have hany : ¬ s.line.any (·.outbound) = true := by
    intro hany
    obtain ⟨line, hline, houtbound⟩ := (Option.any_eq_true _ _).mp hany
    rw [(hs.line line hline).1] at houtbound
    cases houtbound
  unfold Ft.mwFileTransferSend
  rw [StateM.get_bind]
  cases s.ft with
  | none => exact hs
  | some ft =>
    dsimp only
    rw [StateM.get_bind, StateM.ite_apply, if_pos (.inr (.inr hany))]
    exact hs

theorem mwFileTransferOffer (hs : Receiver base gone size given s) :
    Receiver base gone size given (mwFileTransferOffer h s).2 := by
  unfold Ft.mwFileTransferOffer
  rw [StateM.get_bind]
  cases hft : s.ft with
  | none => exact hs
  | some ft =>
    dsimp only
    rw [StateM.ite_apply, if_pos (.inr (hs.ft ft hft).offered)]
    exact hs

theorem mwFileTransferAck (hs : Receiver base gone size given s) :
    Receiver base gone size given (mwFileTransferAck s).2 := by
  unfold Ft.mwFileTransferAck
  rw [StateM.get_bind]
  cases hft : s.ft with
  | none => exact hs
  | some ft =>
    have hr := hs.ft ft hft
    dsimp only
    rw [StateM.get_bind, StateM.ite_apply]
    split
    · exact hs
    · unfold channelSend
      rw [StateM.get_bind]
      cases hline : s.line with
      | none => exact hs
      | some line =>
        dsimp only
        rw [StateM.ite_apply]
        split
        · have hwire : ∃ extra, (write (.send (msgReceived, [])) s).2.wire = s.wire ++ extra ∧
              Replies extra := by
            rcases write_wire (.send (msgReceived, [])) s with hw | hw
            · exact ⟨[], by simpa using hw, .nil⟩
            · exact ⟨_, hw, by simp [Replies]⟩
          obtain ⟨extra, hwire, hextra⟩ := hwire
          exact hs.change hft (write (.send (msgReceived, [])) s).2 ft hft rfl rfl rfl
            (fun h => ⟨h, (hr.opened h).2⟩) id id hr.offered hr.gone hwire hextra hs.line
        · rename_i hstate
          obtain ⟨houtbound, houtgoing, hwait⟩ := hs.line line hline
          refine hs.change hft { s with line := some _ } ft hft rfl rfl rfl (fun h => ?_) id id
            hr.offered hr.gone (List.append_nil _).symm .nil ?_
          · obtain ⟨-, line', hline', hopened⟩ := hr.opened h
            cases hline.symm.trans hline'
            exact absurd hopened hstate
          · intro line' hline'
            cases hline'
            refine ⟨houtbound, fun msg hmsg => ?_, hwait⟩
            rcases List.mem_append.mp hmsg with hmsg | hmsg
            · exact houtgoing msg hmsg
            · exact List.mem_singleton.mp hmsg

/-- A pending transfer accepted -/
theorem accept (hs : Receiver base gone size given s) {ft : MwFileTransfer} {line : FtLine}
    (hft : s.ft = some ft) (hpending : ft.state = .pending) (hchannel : ft.channel = true)
    (houtbound : line.outbound = false) {extra : List FtPacket} {writes : Nat}
    (hextra : Replies extra) :
    Receiver base gone size given
      { s with
        ft := some { ft with state := .opened }
        line := some { line with state := .opened, outgoing := [] }
        wire := s.wire ++ .accept :: extra
        writes := writes } := by
  have hr := hs.ft ft hft
  obtain ⟨hgiven, -⟩ := hr.pending hpending
  have hpassed : passed s.log = given := by
    rw [hgiven]
    exact List.prefix_nil.mp (hgiven ▸ hr.isPrefix)
  refine ⟨hs.grown.trans (List.prefix_append _ _), by simp, fun ft' hft' => ?_, fun line' hline' => ?_,
    fun p hp => ?_⟩
  · cases hft'
    refine ⟨hr.sameSize, hr.counted, hr.isPrefix, fun _ => ⟨hpassed, _, rfl, rfl⟩, by simp, by simp,
      by simp, fun hgone => ?_⟩
    exact absurd hchannel (by simp [(hr.gone hgone).2])
  · cases hline'
    exact ⟨houtbound, by simp, by simp⟩
  · rcases List.mem_append.mp hp with hp | hp
    · exact hs.wire p hp
    · rcases List.mem_cons.mp hp with hp | hp
      · exact .inl hp
      · exact .inr (hextra p hp)

/-- The acceptance and what is queued are written, or the channel is closed. -/
theorem mwFileTransferAccept (hs : Receiver base gone size given s)
    (hh : h.Keep (Receiver base gone size given)) :
    Receiver base gone size given (mwFileTransferAccept h s).2 := by
  unfold Ft.mwFileTransferAccept
  rw [StateM.get_bind, StateM.get_bind]
  cases hft : s.ft with
  | none => exact hs
  | some ft =>
    cases hline : s.line with
    | none => exact hs
    | some line =>
      dsimp only
      rw [StateM.ite_apply]
      split
      · exact hs
      · rename_i hguard
        simp only [not_or, not_not, Bool.not_eq_true, Bool.not_eq_false] at hguard
        obtain ⟨hchannel, hpending, houtbound, hwait⟩ := hguard
        have hr := hs.ft ft hft
        obtain ⟨-, houtgoing, hline'⟩ := hs.line line hline
        obtain ⟨hincoming, -⟩ := hline' hwait
        rw [StateM.bind_apply, StateM.ite_apply]
        by_cases hret : (channelAccept h s).1 = 0
        · rw [if_neg (not_not.mpr hret)]
          obtain ⟨extra, writes, haccepted, hextra⟩ := channelAccept_of_ok h hline hincoming hret
          have hopened : Receiver base gone size given
              (ftState .opened (channelAccept h s).2).2 := by
            rw [haccepted,
              ftState_of_some (s := { s with line := some _, writes := _, wire := _ }) hft, hpending]
            exact hs.accept hft hpending hchannel houtbound fun p hp =>
              .inl ((hextra p hp).elim fun msg ⟨hmsg, hp⟩ => houtgoing msg hmsg ▸ hp)
          exact hopened.silentCallback hh (by simp)
        · rw [if_pos hret]
          have hfailed : Receiver base gone size given (channelAccept h s).2 := by
            rw [channelAccept_of_failed h hline hret]
            refine hs.change hft { s with line := some _, writes := _ } ft hft rfl rfl rfl
              (fun h => ?_) id id hr.offered hr.gone (List.append_nil _).symm .nil ?_
            · rw [hpending] at h
              cases h
            · intro line' hline'
              cases hline'
              exact ⟨houtbound, houtgoing, by simp⟩
          exact hfailed.mwFileTransferClose hh errFailure

theorem runCall (hs : Receiver base gone size given s)
    (hh : h.Keep (Receiver base gone size given)) (call : FtCall) :
    Receiver base gone size given (runCall h call s).2 := by
  cases call with
  | offer => exact hs.mwFileTransferOffer
  | accept => exact hs.mwFileTransferAccept hh
  | send data => exact hs.mwFileTransferSend data
  | ack => exact hs.mwFileTransferAck
  | close code => exact hs.mwFileTransferClose hh code

theorem hooks (client : FtClient) (n : Nat) :
    (hooks client n).Keep (Receiver base gone size given) := by
  induction n with
  | zero => exact fun c s hs => hs
  | succ n ih =>
    intro c s hs
    change Receiver base gone size given ((client c s).forM (Ft.runCall (Ft.hooks client n)) s).2
    generalize client c s = calls
    induction calls generalizing s with
    | nil => exact hs
    | cons call calls ih' => exact ih' _ (hs.runCall ih call)

/-! ### What the receiver is told -/

/-- The transfer is offered. -/
theorem onCreate (hs : Receiver base False size given s)
    (hh : h.Keep (Receiver base False size given)) {ft : MwFileTransfer}
    (hfilename : ft.filename.Fits) (hmessage : ft.message.Fits) (hsize : ft.size = size) :
    Receiver base False size given (onPacket h (.create (createAddtl ft)) s).2 := by
  rw [onPacket, StateM.get_bind, StateM.ite_apply]
  cases hft : s.ft with
  | some ft' => exact hs
  | none =>
    obtain ⟨hgiven, hpassed, haccept, hline⟩ := hs.absent hft
    rw [if_neg (by simp), StateM.modify_bind, recvChannelCreate_apply h hfilename hmessage]
    refine silentCallback ?_ hh (by simp)
    refine ⟨hs.grown, by simp, fun ft' hft' => ?_, fun line hline => ?_, hs.wire⟩
    · cases hft'
      refine ⟨hsize, ?_, ?_, by simp, fun _ => ⟨hgiven, haccept⟩, by simp, by simp, False.elim⟩
      · simp [hpassed, total, hsize]
      · simp [hpassed]
    · cases hline
      exact ⟨rfl, by simp, fun _ => ⟨rfl, haccept⟩⟩

/-- A chunk that comes when the transfer is not open any more -/
theorem ignore (hs : Receiver base False size given s) (data : MwOpaque)
    (haccept : .accept ∈ s.wire) (hclosed : ∀ ft, s.ft = some ft → ft.state ≠ .opened) :
    Receiver base False size (given ++ [data]) s := by
  refine ⟨hs.grown, fun hft => ?_, fun ft hft => ?_, hs.line, hs.wire⟩
  · exact absurd haccept (hs.absent hft).2.2.1
  · have hr := hs.ft ft hft
    exact { hr with
      isPrefix := hr.isPrefix.trans (List.prefix_append _ _)
      opened := fun hopened => absurd hopened (hclosed ft hft)
      pending := fun hpending => absurd haccept (hr.pending hpending).2 }

/-- A chunk of an open transfer -/
theorem passing (hs : Receiver base False size given s) {ft : MwFileTransfer} {data : MwOpaque}
    (hft : s.ft = some ft) (hopened : ft.state = .opened)
    (hfits : data.length ≤ ft.remaining.toNat) :
    Receiver base False size (given ++ [data]) (s.passing data ft) := by
  have hr := hs.ft ft hft
  obtain ⟨hgiven, hline⟩ := hr.opened hopened
  have hpassed : passed (s.passing data ft).log = given ++ [data] := by
    unfold Side.passing
    dsimp only
    rw [passed_recv, ← hgiven]
    split
    · rw [passed_of_silent rfl]
    · rfl
  refine ⟨hs.grown, ?_, fun ft' hft' => ?_, hs.line, hs.wire⟩
  · intro hnone
    cases hnone
  · cases hft'
    refine ⟨hr.sameSize, ?_, ?_, fun _ => ⟨hpassed, hline⟩, ?_, ?_, ?_, False.elim⟩
    · rw [hpassed, ← hgiven, total_append, total_singleton, ← hr.counted, remaining_sub hfits]
      omega
    · rw [hpassed]
    · dsimp only
      intro hstate
      split at hstate <;> cases hstate
    · dsimp only
      intro hstate
      split at hstate
      · assumption
      · cases hstate
    · dsimp only
      split <;> decide

/-- A chunk of the file, which the channel has been accepted for -/
theorem onChunk (hs : Receiver base False size given s) {data : MwOpaque}
    (hh : h.Keep (Receiver base False size (given ++ [data])))
    (haccept : .accept ∈ s.wire) (hfits : total (given ++ [data]) ≤ size.toNat) :
    Receiver base False size (given ++ [data]) (onPacket h (.send (msgTransfer, data)) s).2 := by
  rw [onPacket, StateM.get_bind]
  cases hft : s.ft with
  | none => exact absurd haccept (hs.absent hft).2.2.1
  | some ft =>
    have hr := hs.ft ft hft
    -- an open transfer has an open channel
    have hclosed : (∀ line, s.line = some line → line.state ≠ .opened) →
        ∀ ft, s.ft = some ft → ft.state ≠ .opened := by
      intro hstate ft hft hopened
      obtain ⟨-, line, hline, hopen⟩ := (hs.ft ft hft).opened hopened
      exact hstate line hline hopen
    cases hline : s.line with
    | none => exact hs.ignore data haccept (hclosed (by simp [hline]))
    | some line =>
      dsimp only
      rw [StateM.ite_apply]
      split
      · change Receiver base False size (given ++ [data]) (recvTransfer h data s).2
        by_cases hopened : ft.state = .opened
        · have hlen : data.length ≤ ft.remaining.toNat := by
            have hcounted := hr.counted
            rw [(hr.opened hopened).1] at hcounted
            rw [total_append, total_singleton] at hfits
            omega
          rw [recvTransfer_apply h hft hopened hlen]
          exact hh _ _ (hs.passing hft hopened hlen)
        · unfold recvTransfer
          rw [StateM.get_bind, hft]
          dsimp only
          rw [if_pos hopened]
          refine hs.ignore data haccept fun ft' hft' => ?_
          cases hft.symm.trans hft'
          exact hopened
      · rename_i hstate
        have hignored := hs.ignore data haccept (hclosed (by simpa [hline] using hstate))
        have hr' := hignored.ft ft hft
        obtain ⟨houtbound, houtgoing, hwait⟩ := hs.line line hline
        refine hignored.change hft { s with line := some _ } ft hft rfl rfl rfl (fun hopened => ?_) id
          id hr.offered hr'.gone (List.append_nil _).symm .nil ?_
        · exact absurd hopened (hclosed (by simpa [hline] using hstate) ft hft)
        · intro line' hline'
          cases hline'
          exact ⟨houtbound, houtgoing, fun hw => absurd haccept (hwait hw).2⟩

theorem onDestroy (hs : Receiver base False size given s)
    (hh : h.Keep (Receiver base True size given)) (reason : UInt32) :
    Receiver base False size given (onPacket h (.destroy reason) s).2 := by
  cases hft : s.ft with
  | none =>
    rw [onPacket, StateM.get_bind, (hs.absent hft).2.2.2]
    exact hs
  | some ft =>
    cases hline : s.line with
    | none =>
      rw [onPacket, StateM.get_bind, hline]
      exact hs
    | some line =>
      rw [onDestroy_apply h reason hft hline]
      obtain ⟨houtbound, houtgoing, hwait⟩ := hs.line line hline
      have hleaving : Receiver base True size given (s.leaving reason ft line) := by
        refine hs.change hft (s.leaving reason ft line) _ rfl rfl rfl rfl ?_ ?_ ?_ ?_ ?_
          (List.append_nil _).symm .nil ?_
        · dsimp only
          split <;> simp
        · dsimp only
          split <;> simp
        · dsimp only
          split <;> simp_all
        · dsimp only
          split <;> simp
        · intro _
          dsimp only
          refine ⟨?_, rfl⟩
          split <;> simp
        · intro line' hline'
          cases hline'
          refine ⟨houtbound, houtgoing, ?_⟩
          dsimp only
          split <;> simp
      have hclosed := hleaving.mwFileTransferClose hh reason
      generalize (Ft.mwFileTransferClose h reason (s.leaving reason ft line)).2 = s' at hclosed ⊢
      refine ⟨hclosed.grown, fun hft' => ?_, fun ft' hft' => ?_, by simp, hclosed.wire⟩
      · obtain ⟨hgiven, hpassed, haccept, -⟩ := hclosed.absent hft'
        exact ⟨hgiven, hpassed, haccept, rfl⟩
      · have hr := hclosed.ft ft' hft'
        obtain ⟨hnot, -⟩ := hr.gone trivial
        exact { hr with opened := fun hopened => absurd hopened hnot, gone := False.elim }

end Receiver

/-! ## Both ends -/

/-- The handlers of both ends, whose callbacks nest to some depth -/
def Clients.of (clientA clientB : FtClient) (n m : Nat) : Clients where
  a := hooks clientA n
  b := hooks clientB m

/-- What holds of both ends and of what is on its way between them -/
structure Joined (size : UInt32) (addtl : MwOpaque) (p : Pair) : Prop where
  sender : Sender [] size addtl (.accept ∈ p.b.wire.take p.toA) p.a
  receiver : Receiver [] False size (chunks (p.a.wire.take p.toB)) p.b
  toA_le : p.toA ≤ p.b.wire.length
  toB_le : p.toB ≤ p.a.wire.length

theorem Sender.rebase {base base' : List FtPacket} {size : UInt32} {addtl : MwOpaque}
    {accepted : Prop} {s : Side} (hs : Sender base size addtl accepted s) (h : base' <+: s.wire) :
    Sender base' size addtl accepted s :=
  ⟨h, hs.ft, hs.line, hs.chunks, hs.wire⟩

theorem Receiver.rebase {base base' : List FtPacket} {gone : Prop} {size : UInt32}
    {given : List MwOpaque} {s : Side} (hs : Receiver base gone size given s)
    (h : base' <+: s.wire) : Receiver base' gone size given s :=
  ⟨h, hs.absent, hs.ft, hs.line, hs.wire⟩

theorem take_of_isPrefix {l l' : List FtPacket} {n : Nat} (h : l <+: l') (hn : n ≤ l.length) :
    l'.take n = l.take n := by
  obtain ⟨rest, rfl⟩ := h
  exact List.take_append_of_le_length hn

theorem take_succ_of_getElem? {l : List FtPacket} {n : Nat} {packet : FtPacket}
    (h : l[n]? = some packet) : l.take (n + 1) = l.take n ++ [packet] := by
  rw [List.take_add_one, h]
  rfl

namespace Joined

variable {size : UInt32} {addtl : MwOpaque} {p : Pair}

/-- The sender moved on -/
theorem setA (hj : Joined size addtl p) {a : Side} {toA : Nat} (htoA : toA ≤ p.b.wire.length)
    (ha : Sender p.a.wire size addtl (.accept ∈ p.b.wire.take toA) a) :
    Joined size addtl { p with a := a, toA := toA } := by
  refine ⟨ha.rebase (List.nil_prefix), ?_, htoA, hj.toB_le.trans ha.grown.length_le⟩
  change Receiver [] False size (chunks (a.wire.take p.toB)) p.b
  rw [take_of_isPrefix ha.grown hj.toB_le]
  exact hj.receiver

/-- The receiver moved on -/
theorem setB (hj : Joined size addtl p) {b : Side} {toB : Nat} (htoB : toB ≤ p.a.wire.length)
    (hb : Receiver p.b.wire False size (chunks (p.a.wire.take toB)) b) :
    Joined size addtl { p with b := b, toB := toB } := by
  refine ⟨?_, hb.rebase (List.nil_prefix), hj.toA_le.trans hb.grown.length_le, htoB⟩
  change Sender [] size addtl (.accept ∈ b.wire.take p.toA) p.a
  rw [take_of_isPrefix hb.grown hj.toA_le]
  exact hj.sender

theorem deliverA (hj : Joined size addtl p) (clientA : FtClient) (n : Nat) {packet : FtPacket}
    (hpacket : p.b.wire[p.toA]? = some packet) :
    Joined size addtl
      { p with a := (onPacket (hooks clientA n) packet p.a).2, toA := p.toA + 1 } := by
  obtain ⟨hlt, hget⟩ := List.getElem?_eq_some_iff.mp hpacket
  have hs := hj.sender.rebase (List.prefix_refl p.a.wire)
  refine hj.setA hlt ?_
  rw [take_succ_of_getElem? hpacket]
  rcases hj.receiver.wire packet (List.mem_of_getElem? hpacket) with rfl | rfl | ⟨reason, rfl⟩
  · exact (hs.onAccept (Sender.hooks clientA n)).mono fun _ => by simp
  · have hs := hs.mono (q := .accept ∈ p.b.wire.take p.toA ++ [.send (msgReceived, [])])
      (List.mem_append_left _)
    exact hs.onSend (Sender.hooks clientA n) (by decide)
  · have hs := hs.mono (q := .accept ∈ p.b.wire.take p.toA ++ [.destroy reason])
      (List.mem_append_left _)
    exact hs.onDestroy (Sender.hooks clientA n) reason

theorem deliverB (hj : Joined size addtl p) (clientB : FtClient) (m : Nat) {packet : FtPacket}
    (hpacket : p.a.wire[p.toB]? = some packet) {ft : MwFileTransfer} (hfilename : ft.filename.Fits)
    (hmessage : ft.message.Fits) (hsize : ft.size = size) (haddtl : createAddtl ft = addtl) :
    Joined size addtl
      { p with b := (onPacket (hooks clientB m) packet p.b).2, toB := p.toB + 1 } := by
  obtain ⟨hlt, hget⟩ := List.getElem?_eq_some_iff.mp hpacket
  have hr := hj.receiver.rebase (List.prefix_refl p.b.wire)
  refine hj.setB hlt ?_
  rw [take_succ_of_getElem? hpacket, chunks_append]
  rcases hj.sender.wire packet (List.mem_of_getElem? hpacket) with rfl | ⟨data, rfl⟩ | ⟨reason, rfl⟩
  · rw [chunks_create, List.append_nil, ← haddtl]
    exact hr.onCreate (Receiver.hooks clientB m) hfilename hmessage hsize
  · rw [chunks_transfer]
    -- the chunk is one of those the sender has counted
    have hpre : chunks (p.a.wire.take p.toB) ++ [data] <+: chunks p.a.wire := by
      rw [← chunks_transfer data, ← chunks_append, ← take_succ_of_getElem? hpacket]
      obtain ⟨rest, hrest⟩ := List.take_prefix (p.toB + 1) p.a.wire
      nth_rewrite 2 [← hrest]
      rw [chunks_append]
      exact List.prefix_append _ _
    have haccepted := hj.sender.chunks fun hnil => by simp [hnil] at hpre
    obtain ⟨ft, -, -, -, htotal, -⟩ := hj.sender.ft
    refine hr.onChunk (Receiver.hooks clientB m) (List.mem_of_mem_take haccepted) ?_
    have hle := total_le_of_isPrefix hpre
    omega
  · rw [chunks_destroy, List.append_nil]
    exact hr.onDestroy (Receiver.hooks clientB m) reason

theorem step (hj : Joined size addtl p) (clientA clientB : FtClient) (n m : Nat)
    {ft : MwFileTransfer} (hfilename : ft.filename.Fits) (hmessage : ft.message.Fits)
    (hsize : ft.size = size) (haddtl : createAddtl ft = addtl) (step : PairStep) :
    Joined size addtl (p.step (.of clientA clientB n m) step) := by
  cases step with
  | callA call =>
    have hs := hj.sender.rebase (List.prefix_refl p.a.wire)
    exact hj.setA hj.toA_le (hs.runCall (Sender.hooks clientA n) call)
  | callB call =>
    have hr := hj.receiver.rebase (List.prefix_refl p.b.wire)
    exact hj.setB hj.toB_le (hr.runCall (Receiver.hooks clientB m) call)
  | deliverA =>
    cases hpacket : p.b.wire[p.toA]? with
    | none => simpa [Pair.step, hpacket] using hj
    | some packet => simpa [Pair.step, hpacket, Clients.of] using hj.deliverA clientA n hpacket
  | deliverB =>
    cases hpacket : p.a.wire[p.toB]? with
    | none => simpa [Pair.step, hpacket] using hj
    | some packet =>
      simpa [Pair.step, hpacket, Clients.of] using
        hj.deliverB clientB m hpacket hfilename hmessage hsize haddtl

theorem run (hj : Joined size addtl p) (clientA clientB : FtClient) (n m : Nat)
    {ft : MwFileTransfer} (hfilename : ft.filename.Fits) (hmessage : ft.message.Fits)
    (hsize : ft.size = size) (haddtl : createAddtl ft = addtl) (steps : List PairStep) :
    Joined size addtl (p.run (.of clientA clientB n m) steps) := by
  induction steps generalizing p with
  | nil => exact hj
  | cons step steps ih =>
    exact ih (hj.step clientA clientB n m hfilename hmessage hsize haddtl step)

theorem new (filename message : MwString) (size : UInt32) (retA retB : Nat → Int) {addtl : MwOpaque}
    (haddtl : ∀ ft, (Pair.new filename message size retA retB).a.ft = some ft →
      createAddtl ft = addtl) :
    Joined size addtl (Pair.new filename message size retA retB) := by
  refine ⟨⟨List.nil_prefix, ⟨_, rfl, rfl, haddtl _ rfl, ?_, by simp⟩, ?_, ?_, ?_⟩,
    ⟨List.nil_prefix, ?_, ?_, ?_, ?_⟩, Nat.zero_le _, Nat.zero_le _⟩
  all_goals simp [Pair.new, chunks, passed, total]

theorem transferred (hj : Joined size addtl p) : Transferred p := by
  obtain ⟨ft, hft, hsize, -, htotal, -⟩ := hj.sender.ft
  have hgiven : chunks (p.a.wire.take p.toB) <+: chunks p.a.wire := by
    nth_rewrite 2 [← List.take_append_drop p.toB p.a.wire]
    rw [chunks_append]
    exact List.prefix_append _ _
  refine ⟨?_, ?_, ?_, ?_, ?_, ?_, ?_⟩
  · intro ft' hft'
    cases hft.symm.trans hft'
    rw [UInt32.le_iff_toNat_le, hsize]
    omega
  · intro ft' hft'
    have hr := hj.receiver.ft ft' hft'
    have hcounted := hr.counted
    rw [UInt32.le_iff_toNat_le, hr.sameSize]
    omega
  · intro ft' hft'
    cases hft.symm.trans hft'
    rw [hsize]
    omega
  · cases hft' : p.b.ft with
    | none =>
      rw [(hj.receiver.absent hft').2.1]
      exact List.nil_prefix
    | some ft' => exact (hj.receiver.ft ft' hft').isPrefix.trans hgiven
  · intro ft' hft'
    have hr := hj.receiver.ft ft' hft'
    have hcounted := hr.counted
    rw [hr.sameSize]
    omega
  · intro ft₀ ft' hft₀ hft'
    cases hft.symm.trans hft₀
    rw [hsize, (hj.receiver.ft ft' hft').sameSize]
  · intro ft' hft' hdone
    have hr := hj.receiver.ft ft' hft'
    have hcounted := hr.counted
    rw [hr.done hdone] at hcounted
    rw [hr.sameSize, ← hcounted]
    rfl

end Joined

/-- In every run of two ends that are joined by a channel, whatever their clients do, the
counts of both ends are true to the chunks written and to those passed on. -/
theorem run_transferred (clientA clientB : FtClient) (n m : Nat) (filename message : MwString)
    (hfilename : filename.Fits) (hmessage : message.Fits) (size : UInt32) (retA retB : Nat → Int)
    (steps : List PairStep) :
    Transferred ((Pair.new filename message size retA retB).run (.of clientA clientB n m) steps) := by
  have hj : Joined size
      (createAddtl { filename := filename, message := message, size := size, remaining := size })
      (Pair.new filename message size retA retB) := by
    refine .new filename message size retA retB fun ft hft => ?_
    cases hft
    rfl
  exact (hj.run clientA clientB n m hfilename hmessage rfl rfl steps).transferred

/-- A receiver that acknowledges what it is passed, a chunk that is too long and a write that
fails -/
theorem run_transferred_done :
    let p := (Pair.new none none 3 (fun n => if n = 2 then 1 else 0) fun _ => 0).run
      (.of (fun _ _ => []) (fun c _ => if c = .offered then [.accept] else [.ack]) 1 1)
      [.callA .offer, .deliverB, .deliverA, .callA (.send [1, 2]), .callA (.send [3]),
        .callA (.send [3, 4]), .deliverB, .callA (.send [3]), .deliverB, .deliverA]
    (p.b.ft.map (·.state)) = some .done ∧ passed p.b.log = [[1, 2], [3]] ∧ Transferred p := by
  refine ⟨by decide +kernel, by decide +kernel, run_transferred _ _ _ _ _ _ ?_ ?_ _ _ _ _⟩
  · exact Nat.zero_le _
  · exact Nat.zero_le _

end Meanwhile.Ft
