-- SUMMARY: What holds of each conversation of srvc_im.c and its channel, whatever is called and received.
import Meanwhile.Service.ImText

/-!
# Conversations and their channels

A channel belongs to the conversation that its service data points to. What holds of
one conversation (`Sound`) depends on the channels, on the calls under way and on what
has happened, but not on the other conversations. So a function that changes one
conversation may break what holds of it, as long as it is mended before the handler
is called or the function returns.
-/

namespace Meanwhile.Im

/-! ## Conditions on what happens -/

/-- A function that ends a conversation is under way. -/
def Ending (frames : List ImFrame) (a : Nat) : Prop := .closing a ∈ frames ∨ .freeing a ∈ frames

/-- A channel is created when one is asked for, the fallback on plain text happens to
pending conversations only, and a conversation is still closed when
`conversation_closed` returns. -/
def ImEvent.Fine : ImEvent → Prop
  | .creating _ ret => ret = 0
  | .fallback _ state => state = .pending
  | .closed a state frames => state = .closed ∨ Ending frames a
  | _ => True

/-- No conversation is closed in the middle of a multi-segment message, unless it is
freed or its last segment is just being delivered. -/
def ImEvent.Whole : ImEvent → Prop
  | .closing a multi frames => multi = none ∨ .delivering a ∈ frames ∨ .freeing a ∈ frames
  | _ => True

instance : DecidablePred ImEvent.Whole
  | .closing a multi frames =>
    inferInstanceAs (Decidable (multi = none ∨ .delivering a ∈ frames ∨ .freeing a ∈ frames))
  | .callback _ | .given .. | .creating .. | .fallback .. | .closed .. => .isTrue trivial

/-- A message is a start marker. -/
def startsMulti (msg : Payload) : Bool :=
  msg.1 = msgMessage ∧ ((dataOf msg.2).map Prod.fst) = some mwImDataMultiStart

/-- A start marker has come since a conversation was last opened. -/
def started (a : Nat) : List ImEvent → Bool
  | [] => false
  | .callback (.opened b) :: log => if b = a then false else started a log
  | .given b msg :: log => if b = a ∧ startsMulti msg then true else started a log
  | _ :: log => started a log

/-! ## What holds of a conversation -/

/-- A conversation in line with its channel -/
structure Sound (s : ImSide) (a : Nat) (c : MwConversation) : Prop where
  /-- A channel of the conversation is the one it points to. -/
  linked : ∀ id L, s.line id = some L → L.srvcData = some a →
    .destroying ⟨id, L.addr⟩ ∉ s.frames → c.channel = some ⟨id, L.addr⟩
  waiting : ∀ id L, s.line id = some L → L.srvcData = some a →
    .destroying ⟨id, L.addr⟩ ∉ s.frames → L.state = .wait → c.state ≠ .opened
  live : ∀ id L, s.line id = some L → L.srvcData = some a →
    .destroying ⟨id, L.addr⟩ ∉ s.frames → L.state ≠ .wait → c.state = .opened ∨ Ending s.frames a
  settled : (∀ e ∈ s.log, e.Fine) → ¬Ending s.frames a → (c.state = .closed ↔ c.channel = none)
  idle : (∀ e ∈ s.log, e.Whole) → .delivering a ∉ s.frames → .freeing a ∉ s.frames →
    c.state ≠ .opened ∨ started a s.log = false → c.multi = none

/-- Addresses not in use yet are free. -/
structure Fresh (s : ImSide) : Prop where
  conv : ∀ a c, s.conv a = some c → a < s.nextConv
  line : ∀ id L, s.line id = some L → L.addr < s.nextLine
  data : ∀ id L a, s.line id = some L → L.srvcData = some a → a < s.nextConv

/-- All conversations but one are in line with their channels. -/
structure GoodBut (a : Nat) (s : ImSide) : Prop where
  fresh : Fresh s
  sound : ∀ b c, b ≠ a → s.conv b = some c → Sound s b c

/-- All conversations are in line with their channels. -/
structure Good (s : ImSide) : Prop where
  fresh : Fresh s
  sound : ∀ b c, s.conv b = some c → Sound s b c

theorem Good.but {s : ImSide} (hs : Good s) (a : Nat) : GoodBut a s :=
  ⟨hs.fresh, fun b c _ hc => hs.sound b c hc⟩

theorem GoodBut.good {a : Nat} {s : ImSide} (hs : GoodBut a s)
    (ha : ∀ c, s.conv a = some c → Sound s a c) : Good s := by
  refine ⟨hs.fresh, fun b c hc => ?_⟩
  by_cases hb : b = a
  · exact ha c (hb ▸ hc) |> fun h => hb ▸ h
  · exact hs.sound b c hb hc

namespace Sound

variable {s : ImSide} {a : Nat} {c : MwConversation}

/-- Of the channels only those of the conversation matter, and of the conversation only
its state, its channel and what it has gathered. -/
theorem of_lines (hs : Sound s a c) {t : ImSide} {c' : MwConversation} (hframes : t.frames = s.frames)
    (hlog : t.log = s.log)
    (hline : ∀ id L', t.line id = some L' → L'.srvcData = some a →
      ∃ L, s.line id = some L ∧ L.addr = L'.addr ∧ L.srvcData = some a ∧
        (L'.state = .wait ↔ L.state = .wait))
    (hstate : c.state = c'.state) (hchannel : c.channel = c'.channel) (hmulti : c.multi = c'.multi) :
    Sound t a c' := by
  constructor
  · intro id L' hL' hdata hnot
    obtain ⟨L, hL, haddr, hdata', -⟩ := hline id L' hL' hdata
    rw [hframes, ← haddr] at hnot
    rw [← hchannel, ← haddr]
    exact hs.linked id L hL hdata' hnot
  · intro id L' hL' hdata hnot hwait'
    obtain ⟨L, hL, haddr, hdata', hwait⟩ := hline id L' hL' hdata
    rw [hframes, ← haddr] at hnot
    rw [← hstate]
    exact hs.waiting id L hL hdata' hnot (hwait.mp hwait')
  · intro id L' hL' hdata hnot hwait'
    obtain ⟨L, hL, haddr, hdata', hwait⟩ := hline id L' hL' hdata
    rw [hframes, ← haddr] at hnot
    rw [← hstate, hframes]
    exact hs.live id L hL hdata' hnot fun hw => hwait' (hwait.mpr hw)
  · rw [hframes, hlog, ← hstate, ← hchannel]
    exact hs.settled
  · rw [hframes, hlog, ← hstate, ← hmulti]
    exact hs.idle

/-- A call more is under way. -/
theorem pushed (hs : Sound s a c) (f : ImFrame) : Sound (s.pushed f) a c where
  linked := fun id L hL hdata hnot =>
    hs.linked id L hL hdata fun h => hnot (List.mem_cons_of_mem _ h)
  waiting := fun id L hL hdata hnot =>
    hs.waiting id L hL hdata fun h => hnot (List.mem_cons_of_mem _ h)
  live := fun id L hL hdata hnot hstate =>
    (hs.live id L hL hdata (fun h => hnot (List.mem_cons_of_mem _ h)) hstate).imp_right
      fun h => h.imp (List.mem_cons_of_mem _) (List.mem_cons_of_mem _)
  settled := fun hfine hnot =>
    hs.settled hfine fun h => hnot (h.imp (List.mem_cons_of_mem _) (List.mem_cons_of_mem _))
  idle := fun hwhole hnot hnot' =>
    hs.idle hwhole (fun h => hnot (List.mem_cons_of_mem _ h))
      fun h => hnot' (List.mem_cons_of_mem _ h)

/-- A call that is not about the conversation has ended. -/
theorem popped (hs : Sound s a c) {f : ImFrame} {frames : List ImFrame} (hframes : s.frames = f :: frames)
    (hf : f ≠ .closing a ∧ f ≠ .freeing a ∧ f ≠ .delivering a)
    (hdestroying : ∀ id L, s.line id = some L → f ≠ .destroying ⟨id, L.addr⟩) :
    Sound s.popped a c := by
  have hmem : ∀ g, g ≠ f → (g ∈ s.frames ↔ g ∈ s.frames.tail) := by
    intro g hg
    rw [hframes, List.mem_cons, or_iff_right hg, List.tail_cons]
  have hending : Ending s.frames a ↔ Ending s.frames.tail a :=
    or_congr (hmem _ hf.1.symm) (hmem _ hf.2.1.symm)
  constructor
  · intro id L hL hdata hnot
    exact hs.linked id L hL hdata fun h => hnot ((hmem _ (hdestroying id L hL).symm).mp h)
  · intro id L hL hdata hnot
    exact hs.waiting id L hL hdata fun h => hnot ((hmem _ (hdestroying id L hL).symm).mp h)
  · intro id L hL hdata hnot hstate
    have h := hs.live id L hL hdata (fun h => hnot ((hmem _ (hdestroying id L hL).symm).mp h)) hstate
    exact h.imp_right hending.mp
  · intro hfine hnot
    exact hs.settled hfine fun h => hnot (hending.mp h)
  · intro hwhole hnot hnot'
    exact hs.idle hwhole (fun h => hnot ((hmem _ hf.2.2.symm).mp h))
      fun h => hnot' ((hmem _ hf.2.1.symm).mp h)

/-- Something has happened that is not the opening of the conversation. -/
theorem logged (hs : Sound s a c) {e : ImEvent} (he : e ≠ .callback (.opened a)) :
    Sound (s.logged e) a c where
  linked := hs.linked
  waiting := hs.waiting
  live := hs.live
  settled := fun hfine hnot => hs.settled (fun e h => hfine e (List.mem_cons_of_mem _ h)) hnot
  idle := fun hwhole hnot hnot' hstate => by
    apply hs.idle (fun e h => hwhole e (List.mem_cons_of_mem _ h)) hnot hnot'
    refine hstate.imp_right fun hstarted => ?_
    cases e with
    | callback cb =>
      cases cb with
      | opened b =>
        have hb : b ≠ a := fun h => he (by rw [h])
        change (if b = a then false else started a s.log) = false at hstarted
        rwa [if_neg hb] at hstarted
      | closed => exact hstarted
      | recv => exact hstarted
      | placeInvite => exact hstarted
    | given b msg =>
      change (if b = a ∧ startsMulti msg then true else started a s.log) = false at hstarted
      split at hstarted
      · cases hstarted
      · exact hstarted
    | creating => exact hstarted
    | fallback => exact hstarted
    | closing => exact hstarted
    | closed => exact hstarted

end Sound

/-! ## Changes that do no harm -/

/-- What is kept of the conversations and of the channels that belong to them -/
structure Harmless (s s' : ImSide) : Prop where
  conv : ∀ a, (s'.conv a).map (fun c => (c.state, c.channel, c.multi)) =
    (s.conv a).map fun c => (c.state, c.channel, c.multi)
  nextConv : s'.nextConv = s.nextConv
  nextLine : s.nextLine ≤ s'.nextLine
  frames : s'.frames = s.frames
  log : s'.log = s.log
  line : ∀ id L', s'.line id = some L' →
    (s.nextLine ≤ L'.addr ∧ L'.addr < s'.nextLine ∧ L'.srvcData = none) ∨
      ∃ L, s.line id = some L ∧ L.addr = L'.addr ∧ L.srvcData = L'.srvcData ∧
        (L'.state = .wait ↔ L.state = .wait)

namespace Harmless

variable {s s' s'' : ImSide}

theorem refl (s : ImSide) : Harmless s s :=
  ⟨fun _ => rfl, rfl, le_rfl, rfl, rfl, fun _ L hL => .inr ⟨L, hL, rfl, rfl, Iff.rfl⟩⟩

theorem trans (h : Harmless s s') (h' : Harmless s' s'') : Harmless s s'' where
  conv := fun a => (h'.conv a).trans (h.conv a)
  nextConv := h'.nextConv.trans h.nextConv
  nextLine := h.nextLine.trans h'.nextLine
  frames := h'.frames.trans h.frames
  log := h'.log.trans h.log
  line := by
    intro id L'' hL''
    rcases h'.line id L'' hL'' with ⟨hge, hlt, hdata⟩ | ⟨L', hL', haddr', hdata', hwait'⟩
    · exact .inl ⟨h.nextLine.trans hge, hlt, hdata⟩
    · rcases h.line id L' hL' with ⟨hge, hlt, hdata⟩ | ⟨L, hL, haddr, hdata, hwait⟩
      · exact .inl ⟨haddr' ▸ hge, (haddr' ▸ hlt).trans_le h'.nextLine, hdata' ▸ hdata⟩
      · exact .inr ⟨L, hL, haddr.trans haddr', hdata.trans hdata', hwait'.trans hwait⟩

instance : Std.Refl Harmless := ⟨refl⟩
instance : IsTrans ImSide Harmless := ⟨fun _ _ _ => trans⟩

theorem conv_of_some (h : Harmless s s') {a : Nat} {c' : MwConversation} (hc' : s'.conv a = some c') :
    ∃ c, s.conv a = some c ∧ c.state = c'.state ∧ c.channel = c'.channel ∧ c.multi = c'.multi := by
  have hview := h.conv a
  rw [hc', Option.map_some] at hview
  obtain ⟨c, hc, heq⟩ := Option.map_eq_some_iff.mp hview.symm
  obtain ⟨hstate, hchannel, hmulti⟩ : _ ∧ _ ∧ _ := by simpa using heq
  exact ⟨c, hc, hstate, hchannel, hmulti⟩

/-- A channel that belongs to a conversation did so before. -/
theorem line_of_data (h : Harmless s s') {id : UInt32} {L' : ImLine} {a : Nat}
    (hL' : s'.line id = some L') (hdata : L'.srvcData = some a) :
    ∃ L, s.line id = some L ∧ L.addr = L'.addr ∧ L.srvcData = some a ∧
      (L'.state = .wait ↔ L.state = .wait) := by
  rcases h.line id L' hL' with ⟨-, -, hnone⟩ | ⟨L, hL, haddr, hdata', hwait⟩
  · rw [hnone] at hdata
    cases hdata
  · exact ⟨L, hL, haddr, hdata'.trans hdata, hwait⟩

theorem fresh (h : Harmless s s') (hs : Fresh s) : Fresh s' where
  conv := fun a c' hc' => by
    obtain ⟨c, hc, -⟩ := h.conv_of_some hc'
    exact h.nextConv ▸ hs.conv a c hc
  line := fun id L' hL' => by
    rcases h.line id L' hL' with ⟨-, hlt, -⟩ | ⟨L, hL, haddr, -⟩
    · exact hlt
    · exact haddr ▸ (hs.line id L hL).trans_le h.nextLine
  data := fun id L' a hL' hdata => by
    obtain ⟨L, hL, -, hdata', -⟩ := h.line_of_data hL' hdata
    exact h.nextConv ▸ hs.data id L a hL hdata'

theorem sound (h : Harmless s s') {a : Nat} {c c' : MwConversation} (hs : Sound s a c)
    (hstate : c.state = c'.state) (hchannel : c.channel = c'.channel) (hmulti : c.multi = c'.multi) :
    Sound s' a c' :=
  hs.of_lines h.frames h.log (fun _ _ hL' hdata => h.line_of_data hL' hdata) hstate hchannel hmulti

theorem good (h : Harmless s s') (hs : Good s) : Good s' := by
  refine ⟨h.fresh hs.fresh, fun b c' hc' => ?_⟩
  obtain ⟨c, hc, hstate, hchannel, hmulti⟩ := h.conv_of_some hc'
  exact h.sound (hs.sound b c hc) hstate hchannel hmulti

theorem goodBut (h : Harmless s s') {a : Nat} (hs : GoodBut a s) : GoodBut a s' := by
  refine ⟨h.fresh hs.fresh, fun b c' hb hc' => ?_⟩
  obtain ⟨c, hc, hstate, hchannel, hmulti⟩ := h.conv_of_some hc'
  exact h.sound (hs.sound b c hb hc) hstate hchannel hmulti

/-- Nothing that matters has changed. -/
theorem of_eq {s s' : ImSide} (hconv : s'.conv = s.conv) (hnextConv : s'.nextConv = s.nextConv)
    (hnextLine : s'.nextLine = s.nextLine) (hframes : s'.frames = s.frames) (hlog : s'.log = s.log)
    (hline : s'.line = s.line) : Harmless s s' where
  conv := fun a => by rw [hconv]
  nextConv := hnextConv
  nextLine := hnextLine.ge
  frames := hframes
  log := hlog
  line := fun id L hL => .inr ⟨L, hline ▸ hL, rfl, rfl, Iff.rfl⟩

theorem setLine_none (s : ImSide) (id : UInt32) : Harmless s (s.setLine id none) where
  conv := fun _ => rfl
  nextConv := rfl
  nextLine := le_rfl
  frames := rfl
  log := rfl
  line := fun id' L' hL' => by
    by_cases hid : id' = id
    · subst hid
      rw [setLine_line_self] at hL'
      cases hL'
    · rw [setLine_line_of_ne _ hid] at hL'
      exact .inr ⟨L', hL', rfl, rfl, Iff.rfl⟩

theorem setLine_some {s : ImSide} {id : UInt32} {L L' : ImLine} (hL : s.line id = some L)
    (haddr : L.addr = L'.addr) (hdata : L.srvcData = L'.srvcData)
    (hwait : L'.state = .wait ↔ L.state = .wait) : Harmless s (s.setLine id (some L')) where
  conv := fun _ => rfl
  nextConv := rfl
  nextLine := le_rfl
  frames := rfl
  log := rfl
  line := fun id' M hM => by
    by_cases hid : id' = id
    · subst hid
      rw [setLine_line_self] at hM
      obtain rfl := Option.some.inj hM
      exact .inr ⟨L, hL, haddr, hdata, hwait⟩
    · rw [setLine_line_of_ne _ hid] at hM
      exact .inr ⟨M, hM, rfl, rfl, Iff.rfl⟩

/-- Only other fields of a conversation change. -/
theorem modifyConv (a : Nat) {f : MwConversation → MwConversation}
    (hf : ∀ c, (f c).state = c.state ∧ (f c).channel = c.channel ∧ (f c).multi = c.multi) :
    Keeps Harmless (modifyConv a f) := by
  intro s
  refine ⟨fun b => ?_, rfl, le_rfl, rfl, rfl, fun id L hL => .inr ⟨L, hL, rfl, rfl, Iff.rfl⟩⟩
  change ((s.setConv a ((s.conv a).map f)).conv b).map _ = _
  by_cases hb : b = a
  · subst hb
    rw [setConv_conv_self, Option.map_map]
    congr 1
    funext c
    simp [hf c]
  · rw [setConv_conv_of_ne _ hb]

end Harmless

/-- The channel that a pointer points to has its id. -/
theorem line_of_line? {s : ImSide} {chan : ChanRef} {L : ImLine} (h : s.line? chan = some L) :
    s.line chan.id = some L ∧ L.addr = chan.addr := by
  obtain ⟨hL, haddr⟩ := Option.filter_eq_some_iff.mp h
  exact ⟨hL, by simpa using haddr⟩

theorem line?_of_line {s : ImSide} {chan : ChanRef} {L : ImLine} (h : s.line chan.id = some L)
    (haddr : L.addr = chan.addr) : s.line? chan = some L :=
  Option.filter_eq_some_iff.mpr ⟨h, by simpa using haddr⟩

theorem modifyLine_of_some {s : ImSide} {chan : ChanRef} {L : ImLine} (h : s.line? chan = some L)
    (f : ImLine → ImLine) : modifyLine chan f s = ((), s.setLine chan.id (some (f L))) := by
  unfold modifyLine
  rw [StateM.get_bind, h]
  rfl

theorem modifyLine_of_none {s : ImSide} {chan : ChanRef} (h : s.line? chan = none)
    (f : ImLine → ImLine) : modifyLine chan f s = ((), s) := by
  unfold modifyLine
  rw [StateM.get_bind, h]
  rfl

theorem harmless_write (p : ImPacket) : Keeps Harmless (write p) :=
  fun _ => .of_eq rfl rfl rfl rfl rfl rfl

theorem harmless_modifyLine (chan : ChanRef) {f : ImLine → ImLine}
    (hf : ∀ L, (f L).addr = L.addr ∧ (f L).srvcData = L.srvcData ∧
      ((f L).state = .wait ↔ L.state = .wait)) : Keeps Harmless (modifyLine chan f) := by
  intro s
  cases h : s.line? chan with
  | none =>
    rw [modifyLine_of_none h]
    exact .refl s
  | some L =>
    rw [modifyLine_of_some h]
    obtain ⟨haddr, hdata, hwait⟩ := hf L
    exact .setLine_some (line_of_line? h).1 haddr.symm hdata.symm hwait

theorem harmless_mwChannelDestroy (chan : ChanRef) (reason : UInt32) :
    Keeps Harmless (mwChannelDestroy chan reason) := by
  intro s
  unfold mwChannelDestroy
  rw [StateM.get_bind]
  cases s.line? chan with
  | none => exact .refl s
  | some L => exact (Harmless.setLine_none s chan.id).trans (harmless_write _ _)

theorem harmless_mwChannelSendEncrypted (chan : ChanRef) (msg : Payload) :
    Keeps Harmless (mwChannelSendEncrypted chan msg) := by
  intro s
  unfold mwChannelSendEncrypted
  rw [StateM.get_bind]
  cases s.line? chan with
  | none => exact .refl s
  | some L =>
    dsimp only
    rw [StateM.ite_apply]
    split
    · exact harmless_write _ s
    · refine Keeps.bind (harmless_modifyLine chan ?_) (fun _ => .pure _) s
      exact fun L => ⟨rfl, rfl, Iff.rfl⟩

theorem harmless_mwChannelGetServiceData (chan : ChanRef) :
    Keeps Harmless (mwChannelGetServiceData chan) := by
  intro s
  unfold mwChannelGetServiceData
  rw [StateM.get_bind]
  cases s.line? chan <;> exact .refl s

/-! ## Sending -/

theorem harmless_convoSendData (a : Nat) (type subtype : UInt32) (o : MwOpaque) :
    Keeps Harmless (convoSendData a type subtype o) := by
  intro s
  unfold convoSendData
  rw [StateM.get_bind]
  cases (s.conv a).bind (·.channel) with
  | none => exact .refl s
  | some chan => exact harmless_mwChannelSendEncrypted chan _ s

theorem harmless_strlen (p : Nat) : Keeps Harmless (strlen p) := fun s => .refl s

theorem harmless_sendSegments {send : Nat → ImM Int} (hsend : ∀ p, Keeps Harmless (send p))
    (p len : Nat) (ret : Int) : Keeps Harmless (sendSegments send p len ret) := by
  fun_induction sendSegments send p len ret with
  | case1 => exact .pure _
  | case2 p len ret _ seg ih =>
    refine .bind (fun s => .refl s) fun tail => ?_
    refine .bind (fun s => .of_eq rfl rfl rfl rfl rfl rfl) fun _ => ?_
    refine .bind (hsend p) fun ret => ?_
    exact .bind (fun s => .of_eq rfl rfl rfl rfl rfl rfl) fun _ => ih _

theorem harmless_convoSendLong (a : Nat) (type : UInt32) (depth : Nat) :
    ∀ p, Keeps Harmless (convoSendLong a type depth p) := by
  induction depth with
  | zero => exact fun p => .pure _
  | succ depth ih =>
    intro p
    unfold convoSendLong
    refine .bind (harmless_strlen p) fun len => .ite (fun _ => ?_) fun _ => ?_
    · unfold convoSendSegmented
      refine .bind (harmless_strlen p) fun len => ?_
      refine .bind (harmless_convoSendData _ _ _ _) fun ret => ?_
      refine .bind (harmless_sendSegments ih p len ret) fun ret => ?_
      exact .ite (fun _ => harmless_convoSendData _ _ _ _) fun _ => .pure _
    · exact .bind .get fun s => harmless_convoSendData _ _ _ _

theorem harmless_mwConversationSend (a depth : Nat) (type : MwImSendType) (typing : Bool) :
    Keeps Harmless (mwConversationSend a depth type typing) := by
  intro s
  unfold mwConversationSend
  rw [StateM.get_bind]
  cases s.conv a with
  | none => exact .refl s
  | some c =>
    dsimp only
    rw [StateM.ite_apply]
    split
    · exact .refl s
    · cases type with
      | plain =>
        change Harmless s (convoSendText a 0 s).2
        unfold convoSendText
        rw [StateM.get_bind]
        cases (s.conv a).bind (·.channel) with
        | none => exact .refl s
        | some chan => exact harmless_mwChannelSendEncrypted chan _ s
      | typing => exact harmless_convoSendData _ _ _ _ s
      | subject =>
        exact Keeps.bind (harmless_strlen 0)
          (fun len => .bind .get fun s => harmless_convoSendData _ _ _ _) s
      | html => exact harmless_convoSendLong _ _ _ _ s
      | mime => exact harmless_convoSendLong _ _ _ _ s
      | timestamp => exact .refl s

end Meanwhile.Im
