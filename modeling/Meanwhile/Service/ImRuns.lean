-- SUMMARY: The calls of a client leave all conversations of srvc_im.c in line with their channels.
import Meanwhile.Service.ImLife

/-!
# Calls on conversations

Each function leaves all conversations in line with their channels, if the calls that
the handler makes do. The calls of a handler are made at a smaller nesting depth, so
this holds of all of them.
-/

namespace Meanwhile.Im

/-! ## What code adds -/

/-- No call more is under way, what has happened stays, and no channel is back to waiting. -/
structure Grows (s s' : ImSide) : Prop where
  frames : s'.frames = s.frames
  log : s.log <:+ s'.log
  nextLine : s.nextLine ≤ s'.nextLine
  waiting : ∀ id L', s'.line id = some L' → s.nextLine ≤ L'.addr ∨
    ∃ L, s.line id = some L ∧ L.addr = L'.addr ∧ (L'.state = .wait → L.state = .wait)

theorem Harmless.grows {s s' : ImSide} (h : Harmless s s') : Grows s s' where
  frames := h.frames
  log := h.log ▸ List.suffix_rfl
  nextLine := h.nextLine
  waiting := fun id L' hL' =>
    (h.line id L' hL').imp And.left fun ⟨L, hL, haddr, _, hwait⟩ => ⟨L, hL, haddr, hwait.mp⟩

namespace Grows

variable {s s' s'' : ImSide}

theorem refl (s : ImSide) : Grows s s := (Harmless.refl s).grows

theorem trans (h : Grows s s') (h' : Grows s' s'') : Grows s s'' where
  frames := h'.frames.trans h.frames
  log := h.log.trans h'.log
  nextLine := h.nextLine.trans h'.nextLine
  waiting := by
    intro id L'' hL''
    rcases h'.waiting id L'' hL'' with hge | ⟨L', hL', haddr', hwait'⟩
    · exact .inl (h.nextLine.trans hge)
    · rcases h.waiting id L' hL' with hge | ⟨L, hL, haddr, hwait⟩
      · exact .inl (haddr' ▸ hge)
      · exact .inr ⟨L, hL, haddr.trans haddr', fun h => hwait (hwait' h)⟩

instance : Std.Refl Grows := ⟨refl⟩
instance : IsTrans ImSide Grows := ⟨fun _ _ _ => trans⟩

/-- Only conversations have changed. -/
theorem of_eq (hframes : s'.frames = s.frames) (hlog : s.log <:+ s'.log)
    (hnextLine : s'.nextLine = s.nextLine) (hline : s'.line = s.line) : Grows s s' where
  frames := hframes
  log := hlog
  nextLine := hnextLine.ge
  waiting := fun _ L' hL' => .inr ⟨L', hline ▸ hL', rfl, id⟩

end Grows

theorem grows_of_harmless {α : Type} {x : ImM α} (h : Keeps Harmless x) : Keeps Grows x :=
  fun s => (h s).grows

theorem grows_modifyConv (a : Nat) (f : MwConversation → MwConversation) :
    Keeps Grows (modifyConv a f) :=
  fun _ => .of_eq rfl List.suffix_rfl rfl rfl

theorem grows_record (e : ImEvent) : Keeps Grows (record e) :=
  fun _ => .of_eq rfl (List.suffix_cons _ _) rfl rfl

theorem grows_within (f : ImFrame) {x : ImM Unit} (hx : Keeps Grows x) : Keeps Grows (within f x) := by
  intro s
  have h := hx (s.pushed f)
  exact ⟨congrArg List.tail h.frames, h.log, h.nextLine, h.waiting⟩

/-! ## A new channel -/

/-- The service with a new outgoing channel -/
def ImSide.outgoing (s : ImSide) (id : UInt32) : ImSide :=
  { s.setLine id (some { addr := s.nextLine, state := .init }) with
    counter := id, nextLine := s.nextLine + 1 }

theorem line?_outgoing (s : ImSide) (id : UInt32) :
    (s.outgoing id).line? ⟨id, s.nextLine⟩ = some { addr := s.nextLine, state := .init } :=
  line?_of_line (Function.update_self ..) rfl

theorem mwChannelNewOutgoing_cases (s : ImSide) :
    mwChannelNewOutgoing s = (none, s) ∨
      ∃ id, mwChannelNewOutgoing s = (some ⟨id, s.nextLine⟩, s.outgoing id) := by
  unfold mwChannelNewOutgoing
  rw [StateM.get_bind]
  cases nextOutgoingId (fun id => (s.line id).map fun line => { addr := line.addr }) (2 ^ 32)
    s.counter with
  | none => exact .inl rfl
  | some id =>
    refine .inr ⟨id, ?_⟩
    simp [mwChannelNewIncoming, modifyLine, ImSide.outgoing, ImSide.setLine, ImSide.line?,
      Option.filter_some]

theorem mwChannelCreate_apply {s : ImSide} {chan : ChanRef} {L : ImLine} (hL : s.line? chan = some L)
    (target : MwIdBlock) (addtl : MwOpaque) :
    ∃ ret state t, (ret = 0 → state = .wait) ∧ (t = s ∨ ∃ p, t = s.written p) ∧
      mwChannelCreate chan target addtl s =
        (ret, t.setLine chan.id (some { L with state := state })) := by
  by_cases hid : mwChannelIdIsOutgoing chan.id = true
  · have hline : (s.written (.create chan target addtl)).line? chan = some L := hL
    refine ⟨s.ret s.writes, if s.ret s.writes ≠ 0 then .error else .wait,
      s.written (.create chan target addtl), fun h => if_neg (not_not.mpr h), .inr ⟨_, rfl⟩, ?_⟩
    unfold mwChannelCreate
    rw [if_pos hid, StateM.bind_apply, write_apply]
    dsimp only
    rw [StateM.bind_apply, modifyLine_of_some hline]
    rfl
  · refine ⟨-1, L.state, s, fun h => absurd h (by decide), .inl rfl, ?_⟩
    unfold mwChannelCreate
    rw [if_neg hid]
    have hsame : s.setLine chan.id (some L) = s := by
      unfold ImSide.setLine
      rw [← (line_of_line? hL).1, Function.update_eq_self]
    exact congrArg (Prod.mk (-1 : Int)) hsame.symm

/-- A new channel that belongs to nobody yet does no harm. -/
theorem harmless_outgoing {s t : ImSide} {id : UInt32} (ht : t = s.outgoing id ∨
    ∃ p, t = (s.outgoing id).written p) (state : MwChannelState) :
    Harmless s (t.setLine id (some { addr := s.nextLine, state := state })) ∧
      t.conv = s.conv := by
  have hold : ∀ id', id' ≠ id → t.line id' = s.line id' := by
    intro id' hid
    rcases ht with rfl | ⟨p, rfl⟩ <;> exact setLine_line_of_ne s hid _
  have hnext : t.nextLine = s.nextLine + 1 := by rcases ht with rfl | ⟨p, rfl⟩ <;> rfl
  refine ⟨⟨?_, ?_, hnext ▸ Nat.le_succ _, ?_, ?_, fun id' L' hL' => ?_⟩, ?_⟩
  · rcases ht with rfl | ⟨p, rfl⟩ <;> exact fun _ => rfl
  · rcases ht with rfl | ⟨p, rfl⟩ <;> rfl
  · rcases ht with rfl | ⟨p, rfl⟩ <;> rfl
  · rcases ht with rfl | ⟨p, rfl⟩ <;> rfl
  · by_cases hid : id' = id
    · subst hid
      rw [setLine_line_self] at hL'
      obtain rfl := Option.some.inj hL'
      exact .inl ⟨le_rfl, hnext ▸ Nat.lt_succ_self _, rfl⟩
    · rw [setLine_line_of_ne _ hid, hold id' hid] at hL'
      exact .inr ⟨L', hL', rfl, rfl, Iff.rfl⟩
  · rcases ht with rfl | ⟨p, rfl⟩ <;> rfl

/-- What `convo_create_chan` does: nothing, or a new channel is not created, or it is
created and belongs to the conversation. -/
theorem convoCreateChan_cases {s : ImSide} {a : Nat} {c : MwConversation} (hc : s.conv a = some c) :
    (¬(c.state = .pending ∧ c.channel = none) ∧ (convoCreateChan a s).2 = s) ∨
    (c.state = .pending ∧ c.channel = none) ∧ ∃ t ret, Harmless s t ∧ t.conv = s.conv ∧
      ((ret ≠ 0 ∧ (convoCreateChan a s).2 = t.logged (.creating a ret)) ∨
        ret = 0 ∧ ∃ id L, t.line id = some L ∧ L.state = .wait ∧ s.nextLine ≤ L.addr ∧
          (convoCreateChan a s).2 =
            ((t.logged (.creating a ret)).setConv a
              (some { c with channel := some ⟨id, L.addr⟩ })).setLine id
                (some { L with srvcData := some a })) := by
  unfold convoCreateChan
  rw [StateM.get_bind, hc]
  dsimp only
  by_cases hguard : c.state ≠ .pending ∨ c.channel ≠ none
  · rw [if_pos hguard]
    exact .inl ⟨fun h => hguard.elim (· h.1) (· h.2), rfl⟩
  rw [if_neg hguard]
  refine .inr ⟨by simpa using hguard, ?_⟩
  rw [StateM.bind_apply]
  rcases mwChannelNewOutgoing_cases s with hnone | ⟨id, hsome⟩
  · rw [hnone]
    exact ⟨s, -1, .refl s, rfl, .inl ⟨by decide, rfl⟩⟩
  rw [hsome]
  dsimp only
  obtain ⟨ret, state, t, hwait, ht, hcreate⟩ := mwChannelCreate_apply (line?_outgoing s id)
    c.target (guint32Put mwImAddtlANormal ++ guint32Put c.features)
  obtain ⟨hharmless, hconv⟩ := harmless_outgoing ht state
  have hline := setLine_line_self t id (some { addr := s.nextLine, state := state })
  have hconv : (t.setLine id (some { addr := s.nextLine, state := state })).conv = s.conv := hconv
  generalize t.setLine id (some { addr := s.nextLine, state := state }) = t
    at hcreate hharmless hline hconv
  refine ⟨t, ret, hharmless, hconv, ?_⟩
  rw [StateM.bind_apply, hcreate]
  dsimp only
  rw [StateM.bind_apply, record_apply]
  dsimp only
  by_cases hret : ret = 0
  · refine .inr ⟨hret, id, { addr := s.nextLine, state := state }, hline, hwait hret, le_rfl, ?_⟩
    have hc' : (t.logged (.creating a ret)).conv a = some c := (congrFun hconv a).trans hc
    rw [if_pos hret, StateM.bind_apply, modifyConv_of_some hc']
    dsimp only
    rw [modifyLine_of_some (L := { addr := s.nextLine, state := state }) (line?_of_line hline rfl)]
  · rw [if_neg hret]
    exact .inl ⟨hret, rfl⟩

theorem grows_convoCreateChan (a : Nat) : Keeps Grows (convoCreateChan a) := by
  intro s
  cases hc : s.conv a with
  | none =>
    unfold convoCreateChan
    rw [StateM.get_bind, hc]
    exact .refl s
  | some c =>
    rcases convoCreateChan_cases hc with ⟨-, heq⟩ | ⟨-, t, ret, ht, -, ⟨-, heq⟩ | ⟨-, id, L, hL, -, hnew, heq⟩⟩
    · rw [heq]
      exact .refl s
    · rw [heq]
      exact ht.grows.trans (grows_record (.creating a ret) t)
    · rw [heq]
      have hgrows := ht.grows.trans (grows_record (.creating a ret) t)
      refine ⟨hgrows.frames, hgrows.log, hgrows.nextLine, fun id' L' hL' => ?_⟩
      by_cases hid : id' = id
      · subst hid
        rw [setLine_line_self] at hL'
        obtain rfl := Option.some.inj hL'
        exact .inl hnew
      · rw [setLine_line_of_ne _ hid] at hL'
        exact hgrows.waiting id' L' hL'

/-! ## Handlers -/

/-- What is needed of the calls that a handler makes -/
structure ImHooks.Sane (h : ImHooks) : Prop where
  grows : ∀ cb, Keeps Grows (h cb)
  good : ∀ cb s, Good s → Good (h cb s).2

theorem GoodBut.logged {a : Nat} {s : ImSide} (hs : GoodBut a s) {e : ImEvent}
    (he : ∀ b, e = .callback (.opened b) → b = a) : GoodBut a (s.logged e) :=
  ⟨⟨hs.fresh.conv, hs.fresh.line, hs.fresh.data⟩, fun b c hb hc =>
    (hs.sound b c hb hc).logged fun h => hb (he b h)⟩

theorem Good.logged {s : ImSide} (hs : Good s) {e : ImEvent} (he : ∀ b, e ≠ .callback (.opened b)) :
    Good (s.logged e) :=
  ⟨⟨hs.fresh.conv, hs.fresh.line, hs.fresh.data⟩, fun b c hc => (hs.sound b c hc).logged (he b)⟩

theorem Good.push {s : ImSide} (hs : Good s) (f : ImFrame) :
    Good (s.pushed f) :=
  ⟨⟨hs.fresh.conv, hs.fresh.line, hs.fresh.data⟩, fun b c hc => (hs.sound b c hc).pushed f⟩

/-- One conversation has changed and is in line with its channel again. -/
theorem GoodBut.setConv {a : Nat} {s : ImSide} (hs : GoodBut a s) (hlt : a < s.nextConv)
    {c : MwConversation} (hc : Sound s a c) : Good (s.setConv a (some c)) := by
  refine ⟨⟨fun b c' hc' => ?_, hs.fresh.line, hs.fresh.data⟩, fun b c' hc' => ?_⟩
  · by_cases hb : b = a
    · exact hb ▸ hlt
    · rw [setConv_conv_of_ne _ hb] at hc'
      exact hs.fresh.conv b c' hc'
  · by_cases hb : b = a
    · subst hb
      rw [setConv_conv_self] at hc'
      obtain rfl := Option.some.inj hc'
      exact ⟨hc.linked, hc.waiting, hc.live, hc.settled, hc.idle⟩
    · rw [setConv_conv_of_ne _ hb] at hc'
      have h := hs.sound b c' hb hc'
      exact ⟨h.linked, h.waiting, h.live, h.settled, h.idle⟩

theorem GoodBut.remove {a : Nat} {s : ImSide} (hs : GoodBut a s) (convs : List Nat) :
    Good { s.setConv a none with convs := convs } := by
  have hold : ∀ b c, (s.setConv a none).conv b = some c → b ≠ a ∧ s.conv b = some c := by
    intro b c hc
    by_cases hb : b = a
    · subst hb
      rw [setConv_conv_self] at hc
      cases hc
    · rw [setConv_conv_of_ne _ hb] at hc
      exact ⟨hb, hc⟩
  refine ⟨⟨fun b c hc => hs.fresh.conv b c (hold b c hc).2, hs.fresh.line, hs.fresh.data⟩, ?_⟩
  intro b c hc
  obtain ⟨hb, hc⟩ := hold b c hc
  have h := hs.sound b c hb hc
  exact ⟨h.linked, h.waiting, h.live, h.settled, h.idle⟩

/-- No channel belongs to a conversation, but for one that is being destroyed. -/
def Unlinked (s : ImSide) (a : Nat) : Prop :=
  ∀ id L, s.line id = some L → L.srvcData = some a → .destroying ⟨id, L.addr⟩ ∈ s.frames

/-- A conversation without a channel -/
theorem Unlinked.sound {s : ImSide} {a : Nat} (hs : Unlinked s a) {c : MwConversation}
    (hsettled : (∀ e ∈ s.log, e.Fine) → ¬Ending s.frames a → (c.state = .closed ↔ c.channel = none))
    (hidle : (∀ e ∈ s.log, e.Whole) → .delivering a ∉ s.frames → .freeing a ∉ s.frames →
      c.state ≠ .opened ∨ started a s.log = false → c.multi = none) : Sound s a c where
  linked := fun id L hL hdata hnot => absurd (hs id L hL hdata) hnot
  waiting := fun id L hL hdata hnot => absurd (hs id L hL hdata) hnot
  live := fun id L hL hdata hnot => absurd (hs id L hL hdata) hnot
  settled := hsettled
  idle := hidle

theorem Sound.unlinked {s : ImSide} {a : Nat} {c : MwConversation} (hs : Sound s a c)
    (hchannel : c.channel = none) : Unlinked s a := by
  intro id L hL hdata
  by_contra hnot
  have h := hs.linked id L hL hdata hnot
  rw [hchannel] at h
  cases h

theorem Unlinked.harmless {s s' : ImSide} {a : Nat} (hs : Unlinked s a) (h : Harmless s s') :
    Unlinked s' a := by
  intro id L' hL' hdata
  obtain ⟨L, hL, haddr, hdata', -⟩ := h.line_of_data hL' hdata
  rw [h.frames, ← haddr]
  exact hs id L hL hdata'

/-! ## Opening -/

/-- A conversation without a channel gets one, or it stays as it is. -/
theorem good_convoCreateChan {s : ImSide} {a : Nat} {c : MwConversation} (hs : GoodBut a s)
    (hc : s.conv a = some c) (hguard : ¬(c.state = .pending ∧ c.channel = none) → Sound s a c)
    (hunlinked : c.channel = none → Unlinked s a)
    (hidle : c.state = .pending → (∀ e ∈ s.log, e.Whole) → .delivering a ∉ s.frames →
      .freeing a ∉ s.frames → c.multi = none) : Good (convoCreateChan a s).2 := by
  have hlt := hs.fresh.conv a c hc
  rcases convoCreateChan_cases hc with ⟨hnot, heq⟩ | ⟨⟨hpending, hnone⟩, t, ret, ht, hconv, hcases⟩
  · rw [heq]
    refine hs.good fun c' hc' => ?_
    obtain rfl := Option.some.inj (hc.symm.trans hc')
    exact hguard hnot
  have htc : t.conv a = some c := (congrFun hconv a).trans hc
  have hbut : GoodBut a (t.logged (.creating a ret)) :=
    (ht.goodBut hs).logged fun b h => by cases h
  have hgone : Unlinked t a := (hunlinked hnone).harmless ht
  have hmulti : (∀ e ∈ (t.logged (.creating a ret)).log, e.Whole) →
      .delivering a ∉ t.frames → .freeing a ∉ t.frames → c.multi = none := by
    intro hwhole
    rw [ht.frames]
    exact hidle hpending fun e he => hwhole e (List.mem_cons_of_mem _ (ht.log ▸ he))
  rcases hcases with ⟨hret, heq⟩ | ⟨-, id, L, hL, hwait, -, heq⟩
  · -- the channel is not created, which is an event that is not fine
    rw [heq]
    refine hbut.good fun c' hc' => ?_
    obtain rfl := Option.some.inj (htc.symm.trans hc')
    have hgone : Unlinked (t.logged (.creating a ret)) a := hgone
    exact hgone.sound (fun hfine => absurd (hfine _ List.mem_cons_self) hret)
      fun hwhole hnot hnot' _ => hmulti hwhole hnot hnot'
  · rw [heq]
    have hltT : a < t.nextConv := ht.nextConv ▸ hlt
    have hsound : Sound ((t.logged (.creating a ret)).setLine id (some { L with srvcData := some a }))
        a { c with channel := some ⟨id, L.addr⟩ } := by
      have hown : ∀ id' L', ((t.logged (.creating a ret)).setLine id
          (some { L with srvcData := some a })).line id' = some L' → L'.srvcData = some a →
          .destroying ⟨id', L'.addr⟩ ∉ t.frames → id' = id ∧ L' = { L with srvcData := some a } := by
        intro id' L' hL' hdata hnot
        by_cases hid : id' = id
        · subst hid
          rw [setLine_line_self] at hL'
          exact ⟨rfl, (Option.some.inj hL').symm⟩
        · rw [setLine_line_of_ne _ hid] at hL'
          exact absurd (hgone id' L' hL' hdata) hnot
      constructor
      · intro id' L' hL' hdata hnot
        obtain ⟨rfl, rfl⟩ := hown id' L' hL' hdata hnot
        rfl
      · intro id' L' _ _ _ _
        exact fun h => by rw [hpending] at h; cases h
      · intro id' L' hL' hdata hnot hnotWait
        obtain ⟨rfl, rfl⟩ := hown id' L' hL' hdata hnot
        exact absurd hwait hnotWait
      · intro _ _
        simp [hpending]
      · exact fun hwhole hnot hnot' _ => hmulti hwhole hnot hnot'
    have hother : GoodBut a ((t.logged (.creating a ret)).setLine id
        (some { L with srvcData := some a })) := by
      refine ⟨⟨hbut.fresh.conv, fun id' L' hL' => ?_, fun id' L' b hL' hdata => ?_⟩,
        fun b c' hb hc' => ?_⟩
      · by_cases hid : id' = id
        · subst hid
          rw [setLine_line_self] at hL'
          obtain rfl := Option.some.inj hL'
          exact hbut.fresh.line id' L hL
        · rw [setLine_line_of_ne _ hid] at hL'
          exact hbut.fresh.line id' L' hL'
      · by_cases hid : id' = id
        · subst hid
          rw [setLine_line_self] at hL'
          obtain rfl := Option.some.inj hL'
          obtain rfl := Option.some.inj hdata
          exact hltT
        · rw [setLine_line_of_ne _ hid] at hL'
          exact hbut.fresh.data id' L' b hL' hdata
      · refine (hbut.sound b c' hb hc').of_lines rfl rfl ?_ rfl rfl rfl
        intro id' L' hL' hdata
        by_cases hid : id' = id
        · subst hid
          rw [setLine_line_self] at hL'
          obtain rfl := Option.some.inj hL'
          exact absurd (Option.some.inj hdata).symm hb
        · rw [setLine_line_of_ne _ hid] at hL'
          exact ⟨L', hL', rfl, hdata, Iff.rfl⟩
    exact hother.setConv hltT hsound

theorem good_mwConversationOpen {s : ImSide} (hs : Good s) (a : Nat) :
    Good (mwConversationOpen a s).2 := by
  unfold mwConversationOpen
  rw [StateM.get_bind]
  cases hc : s.conv a with
  | none => exact hs
  | some c =>
    dsimp only
    rw [StateM.ite_apply]
    split
    · exact hs
    · rename_i hclosed
      have hclosed : c.state = .closed := not_not.mp hclosed
      have hsound := hs.sound a c hc
      have hidle : (∀ e ∈ s.log, e.Whole) → .delivering a ∉ s.frames → .freeing a ∉ s.frames →
          c.multi = none :=
        fun hwhole hnot hnot' => hsound.idle hwhole hnot hnot' (.inl (by simp [hclosed]))
      rw [StateM.bind_apply, convoSetState, modifyConv_of_some hc]
      dsimp only
      have hbut : GoodBut a (s.setConv a (some { c with state := .pending })) := by
        refine ⟨⟨fun b c' hc' => ?_, hs.fresh.line, hs.fresh.data⟩, fun b c' hb hc' => ?_⟩
        · by_cases hb : b = a
          · exact hb ▸ hs.fresh.conv a c hc
          · rw [setConv_conv_of_ne _ hb] at hc'
            exact hs.fresh.conv b c' hc'
        · rw [setConv_conv_of_ne _ hb] at hc'
          exact (hs.sound b c' hc').of_lines rfl rfl
            (fun id L hL hdata => ⟨L, hL, rfl, hdata, Iff.rfl⟩) rfl rfl rfl
      refine good_convoCreateChan hbut (setConv_conv_self ..) (fun hnot => ?_)
        (fun hnone => hsound.unlinked hnone) fun _ => hidle
      -- the conversation has a channel still, since it is just being closed
      have hsome : c.channel ≠ none := fun h => hnot ⟨rfl, h⟩
      constructor
      · exact hsound.linked
      · exact fun _ _ _ _ _ _ h => by cases h
      · intro id L hL hdata hnot hwait
        refine (hsound.live id L hL hdata hnot hwait).imp_left fun h => ?_
        rw [hclosed] at h
        cases h
      · intro hfine hnot
        exact absurd ((hsound.settled hfine hnot).mp hclosed) hsome
      · exact fun hwhole hnot hnot' _ => hidle hwhole hnot hnot'

/-! ## Closing -/

section

variable {h : ImHooks}

namespace ImHooks.Sane

theorem good_callback (hh : h.Sane) {s : ImSide} (hs : Good s) (cb : ImCallback)
    (hcb : ∀ a, cb ≠ .opened a) : Good (callback h cb s).2 :=
  hh.good cb _ (hs.logged fun b heq => hcb b (ImEvent.callback.inj heq))

theorem grows_callback (hh : h.Sane) (cb : ImCallback) : Keeps Grows (callback h cb) :=
  .bind (grows_record _) fun _ => hh.grows cb

end ImHooks.Sane

theorem grows_dropChannel (a : Nat) (reason : UInt32) : Keeps Grows (dropChannel a reason) := by
  intro s
  unfold dropChannel
  rw [StateM.get_bind]
  cases s.conv a with
  | none => exact .refl s
  | some c =>
    refine Keeps.bind .get (fun t => .bind (grows_record _) fun _ => ?_) s
    cases c.channel with
    | none => exact .pure _
    | some chan =>
      exact .bind (grows_of_harmless (harmless_mwChannelDestroy chan reason)).discard
        fun _ => grows_modifyConv _ _

theorem grows_mwConversationClose (hh : h.Sane) (a : Nat) (reason : UInt32) :
    Keeps Grows (mwConversationClose h a reason) := by
  intro s
  unfold mwConversationClose
  rw [StateM.get_bind]
  cases s.conv a with
  | none => exact .refl s
  | some c =>
    refine Keeps.bind .get (fun t => ?_) s
    refine .bind (grows_record _) fun _ => .bind (grows_modifyConv _ _) fun _ => ?_
    exact .bind (grows_within _ (hh.grows_callback _)) fun _ => grows_dropChannel a reason

/-- A channel of a conversation is the one that it points to. -/
def LinkedAt (s : ImSide) (a : Nat) (c : MwConversation) : Prop :=
  ∀ id L, s.line id = some L → L.srvcData = some a → .destroying ⟨id, L.addr⟩ ∉ s.frames →
    c.channel = some ⟨id, L.addr⟩

theorem mwChannelDestroy_conv (chan : ChanRef) (reason : UInt32) (s : ImSide) :
    (mwChannelDestroy chan reason s).2.conv = s.conv := by
  unfold mwChannelDestroy
  rw [StateM.get_bind]
  cases s.line? chan <;> rfl

/-- A channel that has been destroyed is not there any more. -/
theorem line?_mwChannelDestroy (chan : ChanRef) (reason : UInt32) (s : ImSide) :
    (mwChannelDestroy chan reason s).2.line? chan = none := by
  unfold mwChannelDestroy
  rw [StateM.get_bind]
  cases hline : s.line? chan with
  | none => exact hline
  | some L =>
    change ((s.setLine chan.id none).line chan.id).filter _ = none
    rw [setLine_line_self]
    rfl

/-- A conversation that has been closed loses its channel. -/
theorem good_dropChannel {s : ImSide} {a : Nat} (hs : GoodBut a s)
    (hlinked : ∀ c, s.conv a = some c → LinkedAt s a c)
    (hidle : ∀ c, s.conv a = some c → (∀ e ∈ s.log, e.Whole) → .delivering a ∉ s.frames →
      .freeing a ∉ s.frames → c.state ≠ .opened ∨ started a s.log = false → c.multi = none)
    (reason : UInt32) : Good (dropChannel a reason s).2 := by
  unfold dropChannel
  rw [StateM.get_bind]
  cases hc : s.conv a with
  | none => exact hs.good fun c hc' => by rw [hc] at hc'; cases hc'
  | some c =>
    dsimp only
    rw [StateM.get_bind, StateM.bind_apply, record_apply]
    dsimp only
    obtain ⟨t, ht⟩ : ∃ t, t = s.logged (.closed a c.state s.frames) := ⟨_, rfl⟩
    rw [← ht]
    have hbut : GoodBut a t := by
      rw [ht]
      exact hs.logged fun b hb => by cases hb
    have hframes : t.frames = s.frames := by rw [ht]; rfl
    have hsettled : (∀ e ∈ t.log, e.Fine) → ¬Ending t.frames a → c.state = .closed := by
      intro hfine hnot
      rw [ht] at hfine hnot
      exact (hfine _ List.mem_cons_self).resolve_right hnot
    have hidle : (∀ e ∈ t.log, e.Whole) → .delivering a ∉ t.frames → .freeing a ∉ t.frames →
        c.state ≠ .opened ∨ started a t.log = false → c.multi = none := by
      rw [ht]
      exact fun hwhole => hidle c hc fun e he => hwhole e (List.mem_cons_of_mem _ he)
    have htc : t.conv a = some c := by rw [ht]; exact hc
    have hlinked : LinkedAt t a c := by rw [ht]; exact hlinked c hc
    cases hchannel : c.channel with
    | none =>
      have hunlinked : Unlinked t a := by
        intro id L hL hdata
        by_contra hnot
        have h := hlinked id L hL hdata hnot
        rw [hchannel] at h
        cases h
      refine hbut.good fun c' hc' => ?_
      obtain rfl := Option.some.inj (htc.symm.trans hc')
      exact hunlinked.sound
        (fun hfine hnot => iff_of_true (hsettled hfine hnot) hchannel) hidle
    | some chan =>
      dsimp only
      rw [StateM.bind_apply, StateM.discard_apply]
      dsimp only
      have hharmless := harmless_mwChannelDestroy chan reason t
      have hgone := line?_mwChannelDestroy chan reason t
      have hconv := mwChannelDestroy_conv chan reason t
      generalize (mwChannelDestroy chan reason t).2 = u at hharmless hgone hconv
      rw [modifyConv_of_some ((congrFun hconv a).trans htc)]
      have hunlinked : Unlinked u a := by
        intro id L hL hdata
        by_contra hnot
        obtain ⟨L', hL', haddr, hdata', -⟩ := hharmless.line_of_data hL hdata
        rw [hharmless.frames, ← haddr] at hnot
        have h := hlinked id L' hL' hdata' hnot
        rw [hchannel] at h
        obtain rfl := Option.some.inj h
        rw [line?_of_line hL haddr.symm] at hgone
        cases hgone
      refine (hharmless.goodBut hbut).setConv (hharmless.nextConv ▸ hbut.fresh.conv a c htc) ?_
      refine hunlinked.sound ?_ ?_
      · rw [hharmless.log, hharmless.frames]
        exact fun hfine hnot => iff_of_true (hsettled hfine hnot) rfl
      · rw [hharmless.log, hharmless.frames]
        exact hidle

/-- After a conversation is closed all of them are in line with their channels, even if
this one was not before. -/
theorem good_mwConversationClose (hh : h.Sane) {s : ImSide} {a : Nat} (hs : GoodBut a s)
    (hlinked : ∀ c, s.conv a = some c → LinkedAt s a c) (reason : UInt32) :
    Good (mwConversationClose h a reason s).2 := by
  unfold mwConversationClose
  rw [StateM.get_bind]
  cases hc : s.conv a with
  | none => exact hs.good fun c hc' => by rw [hc] at hc'; cases hc'
  | some c =>
    dsimp only
    rw [StateM.get_bind, StateM.bind_apply, record_apply]
    dsimp only
    have hc₁ : (s.logged (.closing a c.multi s.frames)).conv a = some c := hc
    rw [StateM.bind_apply, convoSetState, modifyConv_of_some hc₁]
    dsimp only
    rw [StateM.bind_apply, within_apply]
    -- before the callback the conversation is closed and may still have its channel
    have hlogged : GoodBut a (s.logged (.closing a c.multi s.frames)) :=
      hs.logged fun b hb => by cases hb
    have hbut : GoodBut a ((s.logged (.closing a c.multi s.frames)).pushed (.closing a)) :=
      ⟨⟨hlogged.fresh.conv, hlogged.fresh.line, hlogged.fresh.data⟩,
        fun b c' hb hc' => (hlogged.sound b c' hb hc').pushed _⟩
    have hgood : Good (((s.logged (.closing a c.multi s.frames)).pushed (.closing a)).setConv a
        (some { c with state := .closed })) := by
      refine hbut.setConv (hs.fresh.conv a c hc) ?_
      constructor
      · intro id L hL hdata hnot
        exact hlinked c hc id L hL hdata fun hmem => hnot (List.mem_cons_of_mem _ hmem)
      · exact fun _ _ _ _ _ _ heq => by cases heq
      · exact fun _ _ _ _ _ _ => .inr (.inl List.mem_cons_self)
      · exact fun _ hnot => absurd (.inl List.mem_cons_self) hnot
      · intro hwhole hnot hnot' _
        rcases hwhole _ List.mem_cons_self with hmulti | hmem | hmem
        · exact hmulti
        · exact absurd (List.mem_cons_of_mem _ hmem) hnot
        · exact absurd (List.mem_cons_of_mem _ hmem) hnot'
    have hgood₂ := hh.good_callback hgood (.closed a reason) fun b hb => by cases hb
    have hframes₂ := (hh.grows_callback (.closed a reason) (((s.logged (.closing a c.multi
      s.frames)).pushed (.closing a)).setConv a (some { c with state := .closed }))).frames
    change Good (dropChannel a reason (callback h (.closed a reason) (((s.logged (.closing a c.multi
      s.frames)).pushed (.closing a)).setConv a (some { c with state := .closed }))).2.popped).2
    generalize (callback h (.closed a reason) (((s.logged (.closing a c.multi
      s.frames)).pushed (.closing a)).setConv a (some { c with state := .closed }))).2 = t
      at hgood₂ hframes₂
    -- after it the conversation is not in line with its channel, unless it has none
    have hmem : ∀ f, f ≠ .closing a → (f ∈ t.frames ↔ f ∈ t.frames.tail) := by
      intro f hf
      have hcons : t.frames = .closing a :: s.frames := hframes₂
      rw [hcons, List.mem_cons, or_iff_right hf, List.tail_cons]
    refine good_dropChannel (s := t.popped)
      ⟨⟨hgood₂.fresh.conv, hgood₂.fresh.line, hgood₂.fresh.data⟩, ?_⟩ ?_ ?_ reason
    · intro b c' hb hc'
      refine (hgood₂.sound b c' hc').popped hframes₂ ⟨?_, by simp, by simp⟩ fun _ _ _ => by simp
      exact fun heq => hb (ImFrame.closing.inj heq).symm
    · intro c' hc' id L hL hdata hnot
      exact (hgood₂.sound a c' hc').linked id L hL hdata fun h => hnot ((hmem _ (by simp)).mp h)
    · intro c' hc' hwhole hnot hnot'
      exact (hgood₂.sound a c' hc').idle hwhole (fun h => hnot ((hmem _ (by simp)).mp h))
        fun h => hnot' ((hmem _ (by simp)).mp h)

theorem Good.linkedAt {s : ImSide} (hs : Good s) {a : Nat} {c : MwConversation}
    (hc : s.conv a = some c) : LinkedAt s a c :=
  (hs.sound a c hc).linked

theorem grows_convoFree (a : Nat) : Keeps Grows (convoFree a) :=
  fun _ => .of_eq rfl List.suffix_rfl rfl rfl

theorem grows_mwConversationFree (hh : h.Sane) (a : Nat) : Keeps Grows (mwConversationFree h a) := by
  intro s
  unfold mwConversationFree
  rw [StateM.get_bind]
  cases s.conv a with
  | none => exact .refl s
  | some c =>
    refine Keeps.bind (grows_within _ (.ite (fun _ => ?_) fun _ => .pure _))
      (fun _ => grows_convoFree a) s
    exact grows_mwConversationClose hh a 0

/-- A conversation that is freed need be in line with its channel only from then on. -/
theorem good_mwConversationFree (hh : h.Sane) {s : ImSide} {a : Nat} (hs : Good (s.pushed (.freeing a)))
    {c : MwConversation} (hc : s.conv a = some c) : Good (mwConversationFree h a s).2 := by
  unfold mwConversationFree
  rw [StateM.get_bind, hc]
  dsimp only
  rw [StateM.bind_apply, within_apply]
  obtain ⟨t, ht⟩ : ∃ t, t = ((if c.state ≠ .closed then mwConversationClose h a 0 else pure () :
    ImM Unit) (s.pushed (.freeing a))).2 := ⟨_, rfl⟩
  rw [← ht]
  have hgood : Good t := by
    rw [ht, StateM.ite_apply]
    split
    · exact good_mwConversationClose hh (hs.but a) (fun c' hc' => hs.linkedAt hc') 0
    · exact hs
  have hframes : t.frames = .freeing a :: s.frames := by
    rw [ht, StateM.ite_apply]
    split
    · exact (grows_mwConversationClose hh a 0 _).frames
    · rfl
  refine GoodBut.remove (a := a) (s := t.popped)
    ⟨⟨hgood.fresh.conv, hgood.fresh.line, hgood.fresh.data⟩, ?_⟩ _
  intro b c' hb hc'
  refine (hgood.sound b c' hc').popped hframes ⟨by simp, ?_, by simp⟩ fun _ _ _ => by simp
  exact fun heq => hb (ImFrame.freeing.inj heq).symm

/-! ## Calls -/

/-- The other conversations do not mind a new one. -/
theorem Good.withConv {s : ImSide} (hs : Good s) (c : MwConversation) :
    GoodBut s.nextConv (s.withConv c) := by
  have hold : ∀ b c', b ≠ s.nextConv → (s.withConv c).conv b = some c' → s.conv b = some c' :=
    fun b c' hb hc' => (setConv_conv_of_ne s hb _).symm.trans hc'
  refine ⟨⟨fun b c' hc' => ?_, hs.fresh.line, fun id L b hL hdata => ?_⟩, fun b c' hb hc' => ?_⟩
  · by_cases hb : b = s.nextConv
    · exact hb ▸ Nat.lt_succ_self _
    · exact (hs.fresh.conv b c' (hold b c' hb hc')).trans (Nat.lt_succ_self _)
  · exact (hs.fresh.data id L b hL hdata).trans (Nat.lt_succ_self _)
  · have h := hs.sound b c' (hold b c' hb hc')
    exact ⟨h.linked, h.waiting, h.live, h.settled, h.idle⟩

theorem withConv_conv_self (s : ImSide) (c : MwConversation) :
    (s.withConv c).conv s.nextConv = some c := setConv_conv_self ..

/-- No channel belongs to a conversation that there has not been yet. -/
theorem Fresh.unlinked {s : ImSide} (hs : Fresh s) : Unlinked s s.nextConv :=
  fun id L hL hdata => absurd (hs.data id L _ hL hdata) (Nat.lt_irrefl _)

theorem grows_mwServiceImGetConversation (target : MwIdBlock) :
    Keeps Grows (mwServiceImGetConversation target) := by
  intro s
  unfold mwServiceImGetConversation
  rw [StateM.get_bind]
  cases convoFindByUser s target with
  | some a => exact .refl s
  | none => exact .of_eq rfl List.suffix_rfl rfl rfl

theorem good_mwServiceImGetConversation {s : ImSide} (hs : Good s) (target : MwIdBlock) :
    Good (mwServiceImGetConversation target s).2 := by
  unfold mwServiceImGetConversation
  rw [StateM.get_bind]
  cases convoFindByUser s target with
  | some a => exact hs
  | none =>
    refine (hs.withConv _).good fun c hc => ?_
    obtain rfl := Option.some.inj ((withConv_conv_self s _).symm.trans hc)
    have hunlinked : Unlinked (s.withConv { target := target, features := s.features }) s.nextConv :=
      hs.fresh.unlinked
    exact hunlinked.sound (fun _ _ => iff_of_true rfl rfl) fun _ _ _ _ => rfl

theorem grows_runCall (hh : h.Sane) (call : ImCall) : Keeps Grows (runCall h call) := by
  cases call with
  | getConversation target => exact (grows_mwServiceImGetConversation target).discard
  | setClientType type => exact fun s => .of_eq rfl List.suffix_rfl rfl rfl
  | setUserStatus stat => exact fun s => .of_eq rfl List.suffix_rfl rfl rfl
  | open_ a =>
    intro s
    change Grows s (mwConversationOpen a s).2
    unfold mwConversationOpen
    rw [StateM.get_bind]
    cases s.conv a with
    | none => exact .refl s
    | some c =>
      refine Keeps.ite (fun _ => .pure _) (fun _ => ?_) s
      exact .bind (grows_modifyConv _ _) fun _ => grows_convoCreateChan a
  | close a reason => exact grows_mwConversationClose hh a reason
  | free a => exact grows_mwConversationFree hh a
  | send a type typing text =>
    refine .bind (fun s => .of_eq rfl List.suffix_rfl rfl rfl) fun _ => ?_
    exact (grows_of_harmless (harmless_mwConversationSend a sendDepth type typing)).discard

theorem good_runCall (hh : h.Sane) {s : ImSide} (hs : Good s) (call : ImCall) :
    Good (runCall h call s).2 := by
  cases call with
  | getConversation target => exact good_mwServiceImGetConversation hs target
  | setClientType type =>
    have hfeatures : Harmless s { s with features := type } := .of_eq rfl rfl rfl rfl rfl rfl
    exact hfeatures.good hs
  | setUserStatus stat =>
    have hstat : Harmless s { s with stat := stat } := .of_eq rfl rfl rfl rfl rfl rfl
    exact hstat.good hs
  | open_ a => exact good_mwConversationOpen hs a
  | close a reason => exact good_mwConversationClose hh (hs.but a) (fun c hc => hs.linkedAt hc) reason
  | free a =>
    cases hc : s.conv a with
    | none =>
      change Good (mwConversationFree h a s).2
      unfold mwConversationFree
      rw [StateM.get_bind, hc]
      exact hs
    | some c => exact good_mwConversationFree hh (hs.push _) hc
  | send a type typing text =>
    have hmem : Harmless s { s with mem := text.val ++ [0] } := .of_eq rfl rfl rfl rfl rfl rfl
    exact (hmem.trans (harmless_mwConversationSend a sendDepth type typing _)).good hs

/-- The calls of a handler, at whatever depth its callbacks nest -/
theorem sane_hooks (client : ImClient) (n : Nat) : (hooks client n).Sane := by
  induction n with
  | zero => exact ⟨fun _ => .pure _, fun _ _ hs => hs⟩
  | succ n ih =>
    refine ⟨fun cb => .bind .get fun s => .forM fun call _ => grows_runCall ih call, ?_⟩
    intro cb s hs
    change Good ((client cb s).forM (runCall (hooks client n)) s).2
    generalize client cb s = calls
    induction calls generalizing s with
    | nil => exact hs
    | cons call calls ihc => exact ihc _ (good_runCall ih hs call)

end

end Meanwhile.Im
