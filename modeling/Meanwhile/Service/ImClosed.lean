-- SUMMARY: In runs of the IM service a closed conversation has no channel and no message in progress.
import Meanwhile.Service.ImRuns

/-!
# Closed conversations

What is received leaves all conversations in line with their channels too. So in a run
in which only fine things happen the conversations without a channel are the closed
ones, and in a run in which no conversation is closed in the middle of a multi-segment
message, the first message of a conversation that is opened again comes on its own.
-/

namespace Meanwhile.Im

section

variable {h : ImHooks}

/-! ## Receiving messages -/

/-- A conversation has gathered something else, and is in line with its channel still. -/
theorem Sound.setMulti {s : ImSide} {a : Nat} {c c' : MwConversation} (hc : Sound s a c)
    (hstate : c'.state = c.state) (hchannel : c'.channel = c.channel)
    (hidle : (∀ e ∈ s.log, e.Whole) → .delivering a ∉ s.frames → .freeing a ∉ s.frames →
      c.state ≠ .opened ∨ started a s.log = false → c'.multi = none) : Sound s a c' where
  linked := hchannel ▸ hc.linked
  waiting := hstate ▸ hc.waiting
  live := hstate ▸ hc.live
  settled := by
    rw [hstate, hchannel]
    exact hc.settled
  idle := hstate ▸ hidle

theorem Good.setConv {s : ImSide} (hs : Good s) {a : Nat} {c c' : MwConversation}
    (hc : s.conv a = some c) (hc' : Sound s a c') : Good (s.setConv a (some c')) :=
  (hs.but a).setConv (hs.fresh.conv a c hc) hc'

/-- What is gathered is only added to while something is gathered. -/
theorem good_gather {s : ImSide} (hs : Good s) {a : Nat} {c : MwConversation}
    (hc : s.conv a = some c) {str : List UInt8} (hmulti : c.multi = some str)
    {f : MwConversation → MwConversation}
    (hf : (f c).state = c.state ∧ (f c).channel = c.channel) : Good (modifyConv a f s).2 := by
  rw [modifyConv_of_some hc]
  refine hs.setConv hc ((hs.sound a c hc).setMulti hf.1 hf.2 ?_)
  intro hwhole hnot hnot' hidle
  have hnone := (hs.sound a c hc).idle hwhole hnot hnot' hidle
  rw [hmulti] at hnone
  cases hnone

theorem good_convoRecv (hh : h.Sane) {s : ImSide} (hs : Good s) (a : Nat) (type : MwImSendType)
    (msg : ImContent) : Good (convoRecv h a type msg s).2 :=
  hh.good_callback hs _ fun b hb => by cases hb

theorem good_recvLong (hh : h.Sane) {s : ImSide} (hs : Good s) (a : Nat) (type : MwImSendType)
    (o : MwOpaque) : Good (recvLong h a type o s).2 := by
  unfold recvLong
  rw [StateM.get_bind]
  cases hc : s.conv a with
  | none => exact hs
  | some c =>
    dsimp only
    cases hmulti : c.multi with
    | none => exact good_convoRecv hh hs a type _
    | some str => exact good_gather hs hc hmulti ⟨rfl, rfl⟩

theorem good_convoMultiStop (hh : h.Sane) {s : ImSide} (hs : Good s) (a : Nat) :
    Good (convoMultiStop h a s).2 := by
  unfold convoMultiStop
  rw [StateM.get_bind]
  cases hc : s.conv a with
  | none => exact hs
  | some c =>
    dsimp only
    cases hmulti : c.multi with
    | none => exact hs
    | some str =>
      dsimp only
      rw [StateM.bind_apply, within_apply]
      dsimp only
      have hgood := good_convoRecv hh (hs.push (.delivering a)) a c.multiType
        (.text (some (CString.ofBytes str)))
      have hframes := (hh.grows_callback (.recv a c.multiType (.text (some (CString.ofBytes str))))
        (s.pushed (.delivering a))).frames
      change Good (modifyConv a _ (convoRecv h a c.multiType (.text (some (CString.ofBytes str)))
        (s.pushed (.delivering a))).2.popped).2
      unfold convoRecv at hgood ⊢
      generalize (callback h (.recv a c.multiType (.text (some (CString.ofBytes str))))
        (s.pushed (.delivering a))).2 = t at hgood hframes
      have hmem : ∀ f, f ≠ .delivering a → (f ∈ t.frames ↔ f ∈ t.frames.tail) := by
        intro f hf
        have hcons : t.frames = .delivering a :: s.frames := hframes
        rw [hcons, List.mem_cons, or_iff_right hf, List.tail_cons]
      have hbut : GoodBut a t.popped := by
        refine ⟨⟨hgood.fresh.conv, hgood.fresh.line, hgood.fresh.data⟩, fun b c' hb hc' => ?_⟩
        refine (hgood.sound b c' hc').popped hframes ⟨by simp, by simp, ?_⟩ fun _ _ _ => by simp
        exact fun heq => hb (ImFrame.delivering.inj heq).symm
      cases htc : t.conv a with
      | none =>
        have hnone : modifyConv a (fun c => { c with multi := none }) t.popped =
            ((), t.popped.setConv a none) := by
          change ((), t.popped.setConv a ((t.conv a).map _)) = _
          rw [htc]
          rfl
        rw [hnone]
        exact hbut.remove t.popped.convs
      | some c' =>
        have hc' : t.popped.conv a = some c' := htc
        rw [modifyConv_of_some hc']
        refine hbut.setConv (hgood.fresh.conv a c' htc) ?_
        have hsound := hgood.sound a c' htc
        constructor
        · intro id L hL hdata hnot
          exact hsound.linked id L hL hdata fun h => hnot ((hmem _ (by simp)).mp h)
        · intro id L hL hdata hnot
          exact hsound.waiting id L hL hdata fun h => hnot ((hmem _ (by simp)).mp h)
        · intro id L hL hdata hnot hwait
          refine (hsound.live id L hL hdata (fun h => hnot ((hmem _ (by simp)).mp h)) hwait).imp_right ?_
          exact fun h => h.imp (hmem _ (by simp)).mp (hmem _ (by simp)).mp
        · intro hfine hnot
          refine hsound.settled hfine fun h => hnot ?_
          exact h.imp (hmem _ (by simp)).mp (hmem _ (by simp)).mp
        · exact fun _ _ _ _ => rfl

theorem good_convoInvite (hh : h.Sane) {s : ImSide} (hs : Good s) (a : Nat) (o : MwOpaque) :
    Good (convoInvite h a o s).2 := by
  unfold convoInvite
  rw [StateM.get_bind]
  cases s.conv a with
  | none => exact hs
  | some c =>
    dsimp only
    rw [StateM.ite_apply]
    split
    · exact hs
    · generalize inviteGet s.stack c.target (.wrapOpaque o) = parsed
      obtain ⟨⟨⟨msg, title, name⟩, target⟩, b⟩ := parsed
      dsimp only
      rw [StateM.bind_apply, StateM.ite_apply]
      have hgood : ∀ target, Good (modifyConv a (fun c => { c with target := target }) s).2 :=
        fun target => (Harmless.modifyConv a (f := fun c => { c with target := target })
          (fun c => ⟨rfl, rfl, rfl⟩) s).good hs
      split
      · exact hgood _
      · exact hh.good_callback (hgood _) _ fun b hb => by cases hb

/-- Of the data messages only start markers need the conversation to be open. -/
theorem good_recvDataFor (hh : h.Sane) {s : ImSide} (hs : Good s) {a : Nat} {type : UInt32}
    (hstart : type = mwImDataMultiStart → ∀ c, s.conv a = some c →
      c.state = .opened ∧ started a s.log = true) (subtype : UInt32) (o : MwOpaque) :
    Good (recvDataFor h a type subtype o s).2 := by
  unfold recvDataFor
  simp only [StateM.ite_apply]
  repeat' split
  · exact good_convoRecv hh hs a _ _
  · exact good_recvLong hh hs a _ o
  · exact hs
  · exact good_convoRecv hh hs a _ _
  · exact good_recvLong hh hs a _ o
  · exact hs
  · exact good_convoInvite hh hs a o
  · rename_i htype
    cases hc : s.conv a with
    | none =>
      have hnone : convoMultiStart a s = ((), s.setConv a none) := by
        change ((), s.setConv a ((s.conv a).map _)) = _
        rw [hc]
        rfl
      rw [hnone]
      exact (hs.but a).remove s.convs
    | some c =>
      unfold convoMultiStart
      rw [modifyConv_of_some hc]
      obtain ⟨hopened, hstarted⟩ := hstart htype c hc
      refine hs.setConv hc ((hs.sound a c hc).setMulti ?_ ?_ ?_)
      · split <;> rfl
      · split <;> rfl
      · intro _ _ _ hidle
        rcases hidle with hidle | hidle
        · exact absurd hopened hidle
        · rw [hstarted] at hidle
          cases hidle
  · exact good_convoMultiStop hh hs a
  · exact hs

theorem mwChannelGetServiceData_cases (chan : ChanRef) (s : ImSide) :
    (mwChannelGetServiceData chan s = (none, s) ∧
      ∀ L a, s.line? chan = some L → L.srvcData = some a → s.conv a = none) ∨
      ∃ L a c, s.line? chan = some L ∧ L.srvcData = some a ∧ s.conv a = some c ∧
        mwChannelGetServiceData chan s = (some a, s) := by
  unfold mwChannelGetServiceData
  rw [StateM.get_bind]
  cases hL : s.line? chan with
  | none => exact .inl ⟨rfl, fun L a h => by cases h⟩
  | some L =>
    dsimp only
    cases hdata : L.srvcData with
    | none =>
      refine .inl ⟨rfl, fun L' a hL' hdata' => ?_⟩
      obtain rfl := Option.some.inj hL'
      rw [hdata] at hdata'
      cases hdata'
    | some a =>
      cases hc : s.conv a with
      | none =>
        refine .inl ⟨by simp [Option.filter_some, hc], fun L' a' hL' hdata' => ?_⟩
        obtain rfl := Option.some.inj hL'
        obtain rfl := Option.some.inj (hdata.symm.trans hdata')
        exact hc
      | some c =>
        refine .inr ⟨L, a, c, rfl, hdata, hc, ?_⟩
        simp [Option.filter_some, hc]

theorem mwChannelGetServiceData_logged (chan : ChanRef) (s : ImSide) (e : ImEvent) :
    mwChannelGetServiceData chan (s.logged e) =
      ((mwChannelGetServiceData chan s).1, s.logged e) := by
  unfold mwChannelGetServiceData
  rw [StateM.get_bind, StateM.get_bind, show (s.logged e).line? chan = s.line? chan from rfl]
  cases s.line? chan <;> rfl

/-- A channel that a pointer points to has been opened or is at an end. -/
def NotWaiting (chan : ChanRef) (s : ImSide) : Prop := ∀ L, s.line? chan = some L → L.state ≠ .wait

/-- A message is a start marker as `recv` and `recv_data` read it. -/
theorem startsMulti_of_parsed {msg : Payload} {subtype : UInt32} {o : MwOpaque} {b b' : GetBuffer}
    (hmsg : msg.1 = msgMessage) (hword : guint32Get 0 (.wrapOpaque msg.2) = (mwImData, b))
    (hparsed : ((do
      let type ← guint32Get 0
      let subtype ← guint32Get 0
      let o ← mwOpaqueGet
      return (type, subtype, o) : Get (UInt32 × UInt32 × MwOpaque)) b) =
        ((mwImDataMultiStart, subtype, o), b'))
    (hok : b'.error = false) : startsMulti msg = true := by
  have hdata : dataOf msg.2 = some (mwImDataMultiStart, o) := by
    have htype := congrArg (fun r => r.1.1) hparsed
    have ho := congrArg (fun r => r.1.2.2) hparsed
    have hb := congrArg (fun r => r.2) hparsed
    simp only [Get.bind_apply, Get.pure_apply] at htype ho hb
    unfold dataOf
    simp only [Get.bind_apply, Get.pure_apply, hword]
    rw [hb, htype, ho]
    simp [hok]
  simp [startsMulti, hmsg, hdata]

theorem good_recv (hh : h.Sane) {s : ImSide} (hs : Good s) (hframes : s.frames = [])
    {chan : ChanRef} (hchan : NotWaiting chan s) (msg : Payload) : Good (recv h chan msg s).2 := by
  unfold recv
  rw [StateM.bind_apply]
  rcases mwChannelGetServiceData_cases chan s with ⟨hnone, -⟩ | ⟨L, a, c, hL, hdata, hc, hsome⟩
  · -- no conversation hears of the message
    rw [hnone]
    change Good ((if msg.1 ≠ msgMessage then pure () else _ : ImM Unit) s).2
    rw [StateM.ite_apply]
    split
    · exact hs
    · generalize guint32Get 0 (.wrapOpaque msg.2) = word
      obtain ⟨mt, b⟩ := word
      dsimp only
      rw [StateM.ite_apply]
      split
      · exact hs
      · rw [StateM.ite_apply, StateM.ite_apply]
        split
        · unfold recvText
          cases (mwStringGet b).1 with
          | none => exact hs
          | some text =>
            dsimp only
            rw [StateM.bind_apply, hnone]
            exact hs
        · split
          · unfold recvData
            generalize (do
              let type ← guint32Get 0
              let subtype ← guint32Get 0
              let o ← mwOpaqueGet
              return (type, subtype, o) : Get (UInt32 × UInt32 × MwOpaque)) b = parsed
            obtain ⟨⟨type, subtype, o⟩, b⟩ := parsed
            dsimp only
            rw [StateM.ite_apply]
            split
            · exact hs
            · rw [StateM.bind_apply, hnone]
              exact hs
          · exact hs
  · rw [hsome]
    dsimp only
    rw [StateM.bind_apply, record_apply]
    dsimp only
    have hgood : Good (s.logged (.given a msg)) := hs.logged fun b hb => by cases hb
    have hconv : (s.logged (.given a msg)).conv a = some c := hc
    have hget := mwChannelGetServiceData_logged chan s (.given a msg)
    rw [hsome] at hget
    dsimp only at hget
    have hopened : c.state = .opened := by
      obtain ⟨hline, haddr⟩ := line_of_line? hL
      have hlive := (hs.sound a c hc).live chan.id L hline hdata (by simp [hframes]) (hchan L hL)
      rw [hframes] at hlive
      simpa [Ending] using hlive
    rw [StateM.ite_apply]
    split
    · exact hgood
    · rename_i htype
      have htype : msg.1 = msgMessage := not_not.mp htype
      rcases hword : guint32Get 0 (.wrapOpaque msg.2) with ⟨mt, b⟩
      dsimp only
      rw [StateM.ite_apply]
      split
      · exact hgood
      · rw [StateM.ite_apply, StateM.ite_apply]
        split
        · unfold recvText
          cases (mwStringGet b).1 with
          | none => exact hgood
          | some text =>
            dsimp only
            rw [StateM.bind_apply, hget]
            dsimp only
            rw [StateM.get_bind, hconv]
            dsimp only
            cases hmulti : c.multi with
            | none => exact good_convoRecv hh hgood a _ _
            | some str => exact good_gather hgood hconv hmulti ⟨rfl, rfl⟩
        · split
          · rename_i hmt
            rw [hmt] at hword
            unfold recvData
            rcases hparsed : (do
                let type ← guint32Get 0
                let subtype ← guint32Get 0
                let o ← mwOpaqueGet
                return (type, subtype, o) : Get (UInt32 × UInt32 × MwOpaque)) b with
              ⟨⟨type, subtype, o⟩, b'⟩
            dsimp only
            rw [StateM.ite_apply]
            split
            · exact hgood
            · rename_i hok
              rw [StateM.bind_apply, hget]
              refine good_recvDataFor hh hgood (fun hstart c' hc' => ?_) subtype o
              obtain rfl := Option.some.inj (hconv.symm.trans hc')
              refine ⟨hopened, ?_⟩
              subst hstart
              have hstarts := startsMulti_of_parsed htype hword hparsed (by simpa using hok)
              change (if a = a ∧ startsMulti msg then true else started a s.log) = true
              rw [if_pos ⟨rfl, hstarts⟩]
          · exact hgood

/-! ## What receiving adds -/

theorem grows_convoRecv (hh : h.Sane) (a : Nat) (type : MwImSendType) (msg : ImContent) :
    Keeps Grows (convoRecv h a type msg) :=
  hh.grows_callback _

theorem grows_recvLong (hh : h.Sane) (a : Nat) (type : MwImSendType) (o : MwOpaque) :
    Keeps Grows (recvLong h a type o) := by
  intro s
  unfold recvLong
  rw [StateM.get_bind]
  cases s.conv a with
  | none => exact .refl s
  | some c =>
    dsimp only
    cases c.multi with
    | none => exact grows_convoRecv hh a type _ s
    | some str => exact grows_modifyConv _ _ s

theorem grows_convoMultiStop (hh : h.Sane) (a : Nat) : Keeps Grows (convoMultiStop h a) := by
  intro s
  unfold convoMultiStop
  rw [StateM.get_bind]
  cases s.conv a with
  | none => exact .refl s
  | some c =>
    dsimp only
    cases c.multi with
    | none => exact .refl s
    | some str =>
      exact Keeps.bind (grows_within _ (grows_convoRecv hh a _ _)) (fun _ => grows_modifyConv _ _) s

theorem grows_convoInvite (hh : h.Sane) (a : Nat) (o : MwOpaque) : Keeps Grows (convoInvite h a o) := by
  intro s
  unfold convoInvite
  rw [StateM.get_bind]
  cases s.conv a with
  | none => exact .refl s
  | some c =>
    dsimp only
    generalize inviteGet s.stack c.target (.wrapOpaque o) = parsed
    obtain ⟨⟨⟨msg, title, name⟩, target⟩, b⟩ := parsed
    refine Keeps.ite (fun _ => .pure _) (fun _ => ?_) s
    exact .bind (grows_modifyConv _ _) fun _ => .ite (fun _ => .pure _) fun _ => hh.grows_callback _

theorem grows_recvDataFor (hh : h.Sane) (a : Nat) (type subtype : UInt32) (o : MwOpaque) :
    Keeps Grows (recvDataFor h a type subtype o) := by
  unfold recvDataFor
  refine .ite (fun _ => grows_convoRecv hh a _ _) fun _ => .ite (fun _ => ?_) fun _ => ?_
  · exact .ite (fun _ => grows_recvLong hh a _ o) fun _ => .pure _
  refine .ite (fun _ => grows_convoRecv hh a _ _) fun _ => ?_
  refine .ite (fun _ => grows_recvLong hh a _ o) fun _ => .ite (fun _ => .pure _) fun _ => ?_
  refine .ite (fun _ => grows_convoInvite hh a o) fun _ => ?_
  refine .ite (fun _ => grows_modifyConv _ _) fun _ => ?_
  exact .ite (fun _ => grows_convoMultiStop hh a) fun _ => .pure _

theorem grows_recvText (hh : h.Sane) (chan : ChanRef) (b : GetBuffer) :
    Keeps Grows (recvText h chan b) := by
  unfold recvText
  cases (mwStringGet b).1 with
  | none => exact .pure _
  | some text =>
    refine .bind (grows_of_harmless (harmless_mwChannelGetServiceData chan)) fun x => ?_
    cases x with
    | none => exact .pure _
    | some a =>
      refine .bind .get fun s => ?_
      cases s.conv a with
      | none => exact .pure _
      | some c =>
        dsimp only
        cases c.multi with
        | none => exact grows_convoRecv hh a _ _
        | some str => exact grows_modifyConv _ _

theorem grows_recvData (hh : h.Sane) (chan : ChanRef) (b : GetBuffer) :
    Keeps Grows (recvData h chan b) := by
  unfold recvData
  generalize (do
    let type ← guint32Get 0
    let subtype ← guint32Get 0
    let o ← mwOpaqueGet
    return (type, subtype, o) : Get (UInt32 × UInt32 × MwOpaque)) b = parsed
  obtain ⟨⟨type, subtype, o⟩, b⟩ := parsed
  refine .ite (fun _ => .pure _) fun _ => ?_
  refine .bind (grows_of_harmless (harmless_mwChannelGetServiceData chan)) fun x => ?_
  cases x with
  | none => exact .pure _
  | some a => exact grows_recvDataFor hh a _ _ _

/-- `recv`, once the conversation has been told that something arrives -/
theorem grows_recvMessage (hh : h.Sane) (chan : ChanRef) (msg : Payload) :
    Keeps Grows (if msg.1 ≠ msgMessage then return else
      let (mt, b) := guint32Get 0 (.wrapOpaque msg.2)
      if b.error then return
      else if mt = mwImText then recvText h chan b
      else if mt = mwImData then recvData h chan b
      else return : ImM Unit) := by
  refine .ite (fun _ => .pure _) fun _ => ?_
  refine .ite (fun _ => .pure _) fun _ => ?_
  refine .ite (fun _ => grows_recvText hh chan _) fun _ => ?_
  exact .ite (fun _ => grows_recvData hh chan _) fun _ => .pure _

theorem grows_recv (hh : h.Sane) (chan : ChanRef) (msg : Payload) : Keeps Grows (recv h chan msg) := by
  unfold recv
  refine .bind (grows_of_harmless (harmless_mwChannelGetServiceData chan)) fun x => ?_
  have hrest := grows_recvMessage hh chan msg
  cases x with
  | none => exact fun s => hrest s
  | some a => exact fun s => (grows_record _ s).trans (hrest _)

theorem NotWaiting.grows {s s' : ImSide} {chan : ChanRef} (hs : NotWaiting chan s) (h : Grows s s')
    (hlt : chan.addr < s.nextLine) : NotWaiting chan s' := by
  intro L' hL' hwait
  obtain ⟨hline, haddr⟩ := line_of_line? hL'
  rcases h.waiting chan.id L' hline with hge | ⟨L, hL, haddr', hwait'⟩
  · rw [haddr] at hge
    exact absurd hlt (Nat.not_lt.mpr hge)
  · exact hs L (line?_of_line hL (haddr'.trans haddr)) (hwait' hwait)

theorem good_recvs (hh : h.Sane) {chan : ChanRef} (msgs : List Payload) {s : ImSide} (hs : Good s)
    (hframes : s.frames = []) (hchan : NotWaiting chan s) (hlt : chan.addr < s.nextLine) :
    Good (msgs.forM (recv h chan) s).2 := by
  induction msgs generalizing s with
  | nil => exact hs
  | cons msg msgs ih =>
    have hgrows := grows_recv hh chan msg s
    exact ih (good_recv hh hs hframes hchan msg) (hgrows.frames.trans hframes)
      (hchan.grows hgrows hlt) (hlt.trans_le hgrows.nextLine)

/-- What `flushChannel` does once everything that has arrived is with the service -/
theorem harmless_flushed (chan : ChanRef) : Keeps Harmless (do
    modifyLine chan fun line => { line with incoming := [] }
    match (← get).line? chan with
    | none => return
    | some line =>
        line.outgoing.forM fun msg => discard (write (.send chan msg))
        modifyLine chan fun line => { line with outgoing := [] } : ImM Unit) := by
  refine .bind (harmless_modifyLine chan fun L => ⟨rfl, rfl, Iff.rfl⟩) fun _ => ?_
  refine .bind .get fun u => ?_
  cases u.line? chan with
  | none => exact .pure _
  | some L =>
    refine .bind (.forM fun msg _ => (harmless_write _).discard) fun _ => ?_
    exact harmless_modifyLine chan fun L => ⟨rfl, rfl, Iff.rfl⟩

/-- The queues of a channel are flushed. -/
theorem good_flushChannel (hh : h.Sane) {chan : ChanRef} {s : ImSide} (hs : Good s)
    (hframes : s.frames = []) (hchan : NotWaiting chan s) : Good (flushChannel h chan s).2 := by
  unfold flushChannel
  rw [StateM.get_bind]
  cases hL : s.line? chan with
  | none => exact hs
  | some L =>
    dsimp only
    obtain ⟨hline, haddr⟩ := line_of_line? hL
    have hlt : chan.addr < s.nextLine := haddr ▸ hs.fresh.line chan.id L hline
    have hgood := good_recvs hh L.incoming hs hframes hchan hlt
    rw [StateM.bind_apply]
    generalize (L.incoming.forM (recv h chan) s).2 = t at hgood
    exact (harmless_flushed chan t).good hgood

/-! ## Channels -/

/-- A conversation is opened on its channel, which no longer waits. -/
theorem good_convoOpened (hh : h.Sane) {s : ImSide} {a : Nat} {c : MwConversation} (hs : GoodBut a s)
    (hc : s.conv a = some c) (hlinked : LinkedAt s a c) (hchannel : c.channel ≠ none)
    (hopened : ∀ id L, s.line id = some L → L.srvcData = some a →
      .destroying ⟨id, L.addr⟩ ∉ s.frames → L.state ≠ .wait)
    (hidle : (∀ e ∈ s.log, e.Whole) → .delivering a ∉ s.frames → .freeing a ∉ s.frames →
      c.multi = none) : Good (convoOpened h a s).2 := by
  unfold convoOpened callback
  rw [StateM.bind_apply, convoSetState, modifyConv_of_some hc]
  dsimp only
  rw [StateM.bind_apply, record_apply]
  refine hh.good _ _ ?_
  have hbut : GoodBut a (s.logged (.callback (.opened a))) :=
    hs.logged fun b hb => (ImCallback.opened.inj (ImEvent.callback.inj hb)).symm
  refine hbut.setConv (hs.fresh.conv a c hc) ?_
  constructor
  · exact hlinked
  · exact fun id L hL hdata hnot hwait => absurd hwait (hopened id L hL hdata hnot)
  · exact fun _ _ _ _ _ _ => .inl rfl
  · exact fun _ _ => iff_of_false (by simp) hchannel
  · exact fun hwhole hnot hnot' _ => hidle (fun e he => hwhole e (List.mem_cons_of_mem _ he)) hnot hnot'

theorem grows_convoOpened (hh : h.Sane) (a : Nat) : Keeps Grows (convoOpened h a) :=
  .bind (grows_modifyConv _ _) fun _ => hh.grows_callback _

/-- No conversation needs a channel of another one. -/
theorem GoodBut.setLine {a : Nat} {s : ImSide} (hs : GoodBut a s) {id : UInt32} {L N : ImLine}
    (hL : s.line id = some L) (haddr : N.addr = L.addr)
    (hdata : N.srvcData = some a ∨ N.srvcData = none) (hlt : a < s.nextConv) :
    GoodBut a (s.setLine id (some N)) := by
  refine ⟨⟨hs.fresh.conv, fun id' M hM => ?_, fun id' M b hM hb => ?_⟩, fun b c hb hc => ?_⟩
  · by_cases hid : id' = id
    · subst hid
      rw [setLine_line_self] at hM
      obtain rfl := Option.some.inj hM
      exact haddr ▸ hs.fresh.line id' L hL
    · rw [setLine_line_of_ne _ hid] at hM
      exact hs.fresh.line id' M hM
  · by_cases hid : id' = id
    · subst hid
      rw [setLine_line_self] at hM
      obtain rfl := Option.some.inj hM
      rw [hb] at hdata
      rcases hdata with hdata | hdata
      · exact Option.some.inj hdata ▸ hlt
      · cases hdata
    · rw [setLine_line_of_ne _ hid] at hM
      exact hs.fresh.data id' M b hM hb
  · refine (hs.sound b c hb hc).of_lines rfl rfl (fun id' M hM hdata' => ?_) rfl rfl rfl
    by_cases hid : id' = id
    · subst hid
      rw [setLine_line_self] at hM
      obtain rfl := Option.some.inj hM
      rw [hdata'] at hdata
      rcases hdata with hdata | hdata
      · exact absurd (Option.some.inj hdata) hb
      · cases hdata
    · rw [setLine_line_of_ne _ hid] at hM
      exact ⟨M, hM, rfl, hdata', Iff.rfl⟩

theorem harmless_mwChannelNewIncoming (id : UInt32) : Keeps Harmless (mwChannelNewIncoming id) := by
  intro s
  refine ⟨fun _ => rfl, rfl, Nat.le_succ _, rfl, rfl, fun id' L' hL' => ?_⟩
  by_cases hid : id' = id
  · subst hid
    have hself : some _ = some L' := (setLine_line_self s id' _).symm.trans hL'
    obtain rfl := Option.some.inj hself
    exact .inl ⟨le_rfl, Nat.lt_succ_self _, rfl⟩
  · have hold : s.line id' = some L' := (setLine_line_of_ne s hid _).symm.trans hL'
    exact .inr ⟨L', hold, rfl, rfl, Iff.rfl⟩

/-- Nothing waits in a channel that has just been announced. -/
theorem flushChannel_of_empty {chan : ChanRef} {s : ImSide} {L : ImLine} (hL : s.line? chan = some L)
    (hincoming : L.incoming = []) (houtgoing : L.outgoing = []) : (flushChannel h chan s).2 = s := by
  have hsame : s.setLine chan.id (some L) = s := by
    unfold ImSide.setLine
    rw [← (line_of_line? hL).1, Function.update_eq_self]
  have hclean : { L with incoming := [] } = L := by rw [← hincoming]
  have hclean' : { L with outgoing := [] } = L := by rw [← houtgoing]
  unfold flushChannel
  rw [StateM.get_bind, hL]
  dsimp only
  rw [hincoming, StateM.bind_apply, StateM.forM_nil]
  dsimp only
  rw [StateM.bind_apply, modifyLine_of_some hL, hclean, hsame]
  dsimp only
  rw [StateM.get_bind, hL]
  dsimp only
  rw [houtgoing, StateM.bind_apply, StateM.forM_nil]
  dsimp only
  rw [modifyLine_of_some hL, hclean', hsame]

theorem sendAccept_apply {chan : ChanRef} {s : ImSide} {L : ImLine} (hL : s.line? chan = some L)
    (hincoming : L.incoming = []) (houtgoing : L.outgoing = []) (c : MwConversation) :
    ∃ (ret : Int) (p : ImPacket), sendAccept h c chan s =
      (ret, (s.written p).setLine chan.id
        (some { L with state := if ret ≠ 0 then .error else .opened })) := by
  refine ⟨s.ret s.writes, .accept chan (acceptAddtl c s.stat), ?_⟩
  have hline : (s.written (.accept chan (acceptAddtl c s.stat))).line? chan = some L := hL
  unfold sendAccept
  rw [StateM.get_bind, StateM.bind_apply, write_apply]
  dsimp only
  rw [StateM.ite_apply]
  by_cases hret : s.ret s.writes ≠ 0
  · rw [if_pos hret, if_pos hret, StateM.bind_apply, modifyLine_of_some hline]
    rfl
  · rw [if_neg hret, if_neg hret, StateM.bind_apply, modifyLine_of_some hline]
    dsimp only
    rw [StateM.bind_apply, flushChannel_of_empty (L := { L with state := .opened })
      (line?_of_line (setLine_line_self ..) (line_of_line? hL).2) hincoming houtgoing]
    rfl

/-- A conversation with a new channel: it is opened on it, or freed when the acceptance
cannot be written. -/
theorem good_recvChannelCreate (hh : h.Sane) {s : ImSide} (hs : Good s) (hframes : s.frames = [])
    {chan : ChanRef} {L : ImLine} (hL : s.line? chan = some L) (hincoming : L.incoming = [])
    (houtgoing : L.outgoing = []) (msg : ImCreate) : Good (recvChannelCreate h chan msg s).2 := by
  unfold recvChannelCreate
  rw [StateM.get_bind]
  cases refusal s msg with
  | some reason => exact (harmless_mwChannelDestroy chan reason s).good hs
  | none =>
    dsimp only
    obtain ⟨hline, haddr⟩ := line_of_line? hL
    obtain ⟨c, hc⟩ : ∃ c : MwConversation, c =
        { channel := some chan, target := msg.creator, state := .pending
          features := (createGet (.wrapOpaque msg.addtl)).1.2 } := ⟨_, rfl⟩
    rw [← hc, StateM.bind_apply, StateM.set_apply]
    dsimp only
    have hlineWith : (s.withConv c).line? chan = some L := hL
    rw [StateM.bind_apply, modifyLine_of_some hlineWith]
    dsimp only
    obtain ⟨M, hM⟩ : ∃ M : ImLine, M = { L with srvcData := some s.nextConv } := ⟨_, rfl⟩
    rw [← hM]
    obtain ⟨ret, p, haccept⟩ := sendAccept_apply (h := h) (L := M)
      (s := (s.withConv c).setLine chan.id (some M))
      (line?_of_line (setLine_line_self ..) (by rw [hM]; exact haddr)) (by rw [hM]; exact hincoming)
      (by rw [hM]; exact houtgoing) c
    rw [StateM.bind_apply, haccept]
    dsimp only
    rw [StateM.ite_apply]
    obtain ⟨state, hstate⟩ : ∃ state, state = if ret ≠ 0 then MwChannelState.error else .opened :=
      ⟨_, rfl⟩
    rw [← hstate]
    have hwait : state ≠ .wait := by
      rw [hstate]
      split <;> exact fun h => by cases h
    -- all that follows is about this state, in which the new channel no longer waits
    have hbut : GoodBut s.nextConv ((((s.withConv c).setLine chan.id (some M)).written p).setLine
        chan.id (some { M with state := state })) := by
      have hdata : M.srvcData = some s.nextConv := by rw [hM]
      have hset := (hs.withConv c).setLine (N := M) hline (by rw [hM]) (.inl hdata)
        (Nat.lt_succ_self _)
      have hwritten := (harmless_write p ((s.withConv c).setLine chan.id (some M))).goodBut hset
      exact hwritten.setLine (L := M) (setLine_line_self ..) rfl (.inl hdata) (Nat.lt_succ_self _)
    have hself : ((((s.withConv c).setLine chan.id (some M)).written p).setLine chan.id
        (some { M with state := state })).conv s.nextConv = some c := withConv_conv_self s c
    have hown : ∀ id N, ((((s.withConv c).setLine chan.id (some M)).written p).setLine chan.id
        (some { M with state := state })).line id = some N → N.srvcData = some s.nextConv →
        c.channel = some ⟨id, N.addr⟩ ∧ N.state = state := by
      intro id N hN hdata
      by_cases hid : id = chan.id
      · subst hid
        rw [setLine_line_self] at hN
        obtain rfl := Option.some.inj hN
        rw [hc, hM]
        exact ⟨congrArg some (congrArg (ChanRef.mk chan.id) haddr.symm), rfl⟩
      · have hold : s.line id = some N := by
          rw [setLine_line_of_ne _ hid] at hN
          exact (setLine_line_of_ne (s.withConv c) hid _).symm.trans hN
        have hmem := hs.fresh.unlinked id N hold hdata
        rw [hframes] at hmem
        cases hmem
    have hframes' : ((((s.withConv c).setLine chan.id (some M)).written p).setLine chan.id
        (some { M with state := state })).frames = [] := hframes
    generalize (((s.withConv c).setLine chan.id (some M)).written p).setLine chan.id
      (some { M with state := state }) = t at hbut hself hown hframes'
    split
    · refine good_mwConversationFree hh ?_ hself
      have hpushed : GoodBut s.nextConv (t.pushed (.freeing s.nextConv)) :=
        ⟨⟨hbut.fresh.conv, hbut.fresh.line, hbut.fresh.data⟩,
          fun b c' hb hc' => (hbut.sound b c' hb hc').pushed _⟩
      refine hpushed.good fun c' hc' => ?_
      obtain rfl := Option.some.inj (hself.symm.trans hc')
      constructor
      · exact fun id N hN hdata _ => (hown id N hN hdata).1
      · exact fun id N hN hdata _ hwait' => absurd ((hown id N hN hdata).2.symm.trans hwait') hwait
      · exact fun _ _ _ _ _ _ => .inr (.inr List.mem_cons_self)
      · exact fun _ hnot => absurd (.inr List.mem_cons_self) hnot
      · exact fun _ _ _ _ => by rw [hc]
    · refine good_convoOpened hh hbut hself (fun id N hN hdata _ => (hown id N hN hdata).1) ?_ ?_ ?_
      · rw [hc]
        exact Option.some_ne_none chan
      · exact fun id N hN hdata _ hwait' => hwait ((hown id N hN hdata).2.symm.trans hwait')
      · exact fun _ _ _ => by rw [hc]

/-! ## What messages of the server add -/

theorem grows_modifyLine (chan : ChanRef) {f : ImLine → ImLine}
    (hf : ∀ L, (f L).addr = L.addr ∧ ((f L).state = .wait → L.state = .wait)) :
    Keeps Grows (modifyLine chan f) := by
  intro s
  cases hL : s.line? chan with
  | none =>
    rw [modifyLine_of_none hL]
    exact .refl s
  | some L =>
    rw [modifyLine_of_some hL]
    refine ⟨rfl, List.suffix_rfl, le_rfl, fun id L' hL' => .inr ?_⟩
    by_cases hid : id = chan.id
    · subst hid
      rw [setLine_line_self] at hL'
      obtain rfl := Option.some.inj hL'
      exact ⟨L, (line_of_line? hL).1, (hf L).1.symm, (hf L).2⟩
    · rw [setLine_line_of_ne _ hid] at hL'
      exact ⟨L', hL', rfl, fun h => h⟩

theorem grows_setLine_none (id : UInt32) :
    Keeps Grows (modify fun s => s.setLine id none : ImM Unit) :=
  fun s => (Harmless.setLine_none s id).grows

theorem grows_mwChannelDestroy (chan : ChanRef) (reason : UInt32) :
    Keeps Grows (discard (mwChannelDestroy chan reason) : ImM Unit) :=
  (grows_of_harmless (harmless_mwChannelDestroy chan reason)).discard

theorem grows_flushChannel (hh : h.Sane) (chan : ChanRef) : Keeps Grows (flushChannel h chan) := by
  unfold flushChannel
  refine .bind .get fun s => ?_
  cases s.line? chan with
  | none => exact .pure _
  | some L =>
    refine .bind (.forM fun msg _ => grows_recv hh chan msg) fun _ => ?_
    refine .bind (grows_modifyLine chan fun L => ⟨rfl, fun h => h⟩) fun _ => .bind .get fun s => ?_
    cases s.line? chan with
    | none => exact .pure _
    | some L =>
      refine .bind (.forM fun msg _ => (grows_of_harmless (harmless_write _)).discard) fun _ => ?_
      exact grows_modifyLine chan fun L => ⟨rfl, fun h => h⟩

theorem grows_sendAccept (hh : h.Sane) (c : MwConversation) (chan : ChanRef) :
    Keeps Grows (sendAccept h c chan) := by
  unfold sendAccept
  refine .bind .get fun s => .bind (grows_of_harmless (harmless_write _)) fun ret => ?_
  refine .ite (fun _ => ?_) fun _ => ?_
  · refine .bind (grows_modifyLine chan fun L => ⟨rfl, fun h => ?_⟩) fun _ => .pure _
    cases h
  · refine .bind (grows_modifyLine chan fun L => ⟨rfl, fun h => ?_⟩) fun _ => ?_
    · cases h
    · exact .bind (grows_flushChannel hh chan) fun _ => .pure _

theorem grows_recvChannelCreate (hh : h.Sane) (chan : ChanRef) (msg : ImCreate) :
    Keeps Grows (recvChannelCreate h chan msg) := by
  intro s
  unfold recvChannelCreate
  rw [StateM.get_bind]
  cases refusal s msg with
  | some reason => exact grows_mwChannelDestroy chan reason s
  | none =>
    have hset : ∀ c, Grows s (s.withConv c) := fun c => .of_eq rfl List.suffix_rfl rfl rfl
    have hrest : ∀ c, Keeps Grows (do
        modifyLine chan fun line => { line with srvcData := some s.nextConv }
        if (← sendAccept h c chan) ≠ 0 then mwConversationFree h s.nextConv
        else convoOpened h s.nextConv : ImM Unit) := by
      intro c
      refine .bind (grows_modifyLine chan fun L => ⟨rfl, fun h => h⟩) fun _ => ?_
      refine .bind (grows_sendAccept hh _ chan) fun ret => .ite (fun _ => ?_) fun _ => ?_
      · exact grows_mwConversationFree hh _
      · exact grows_convoOpened hh _
    exact (hset _).trans (hrest _ _)

theorem grows_recvChannelAccept (hh : h.Sane) (chan : ChanRef) :
    Keeps Grows (recvChannelAccept h chan) := by
  refine .bind (grows_of_harmless (harmless_mwChannelGetServiceData chan)) fun x => ?_
  cases x with
  | none => exact grows_mwChannelDestroy chan errFailure
  | some a => exact grows_convoOpened hh a

theorem grows_recvChannelDestroy (hh : h.Sane) (chan : ChanRef) (state : MwChannelState)
    (reason : UInt32) : Keeps Grows (recvChannelDestroy h chan state reason) := by
  refine .bind (grows_of_harmless (harmless_mwChannelGetServiceData chan)) fun x => ?_
  cases x with
  | none => exact .pure _
  | some a =>
    refine .bind .get fun s => ?_
    cases s.conv a with
    | none => exact .pure _
    | some c =>
      refine .bind (grows_modifyConv _ _) fun _ => .ite (fun _ => ?_) fun _ => ?_
      · exact .bind (grows_record _) fun _ => .bind (grows_modifyConv _ _) fun _ =>
          grows_convoCreateChan a
      · exact grows_mwConversationClose hh a reason

theorem grows_input (hh : h.Sane) (i : ImInput) : Keeps Grows (input h i) := by
  cases i with
  | call c => exact grows_runCall hh c
  | create msg =>
    refine .bind (grows_of_harmless (harmless_mwChannelNewIncoming _)) fun chan => ?_
    refine .ite (fun _ => grows_mwChannelDestroy chan _) fun _ => ?_
    exact .ite (fun _ => grows_mwChannelDestroy chan _) fun _ => grows_recvChannelCreate hh chan msg
  | accept id offered =>
    refine .bind .get fun s => ?_
    cases s.line id with
    | none => exact .pure _
    | some L =>
      refine .ite (fun _ => grows_mwChannelDestroy _ _) fun _ => ?_
      refine .bind (grows_modifyLine _ fun L => ⟨rfl, fun h => ?_⟩) fun _ => ?_
      · cases h
      refine .bind (grows_recvChannelAccept hh _) fun _ => .bind .get fun s => ?_
      cases s.line? ⟨id, L.addr⟩ with
      | none => exact .pure _
      | some L => exact .ite (fun _ => grows_flushChannel hh _) fun _ => .pure _
  | send id msg =>
    refine .bind .get fun s => ?_
    cases s.line id with
    | none => exact .pure _
    | some L =>
      refine .ite (fun _ => grows_recv hh _ msg) fun _ => ?_
      exact grows_modifyLine _ fun L => ⟨rfl, fun h => h⟩
  | destroy id reason =>
    refine .bind .get fun s => ?_
    cases s.line id with
    | none => exact .pure _
    | some L =>
      refine .bind (grows_modifyLine _ fun L => ⟨rfl, fun h => ?_⟩) fun _ => ?_
      · revert h
        split <;> exact fun h => by cases h
      exact .bind (grows_within _ (grows_recvChannelDestroy hh _ _ reason)) fun _ =>
        grows_setLine_none id

/-! ## Messages of the server -/

theorem good_onCreate (hh : h.Sane) {s : ImSide} (hs : Good s) (hframes : s.frames = [])
    (msg : ImCreate) : Good (onCreate h msg s).2 := by
  have hnew := harmless_mwChannelNewIncoming msg.channel s
  unfold onCreate
  rw [StateM.bind_apply]
  have hchan : mwChannelNewIncoming msg.channel s =
      (⟨msg.channel, s.nextLine⟩, (mwChannelNewIncoming msg.channel s).2) := rfl
  have hL : (mwChannelNewIncoming msg.channel s).2.line? ⟨msg.channel, s.nextLine⟩ =
      some { addr := s.nextLine, state := .wait } :=
    line?_of_line (setLine_line_self s msg.channel _) rfl
  rw [hchan]
  generalize (mwChannelNewIncoming msg.channel s).2 = t at hnew hL
  dsimp only
  rw [StateM.ite_apply, StateM.ite_apply]
  split
  · exact (harmless_mwChannelDestroy _ _ t).good (hnew.good hs)
  · split
    · exact (harmless_mwChannelDestroy _ _ t).good (hnew.good hs)
    · exact good_recvChannelCreate hh (hnew.good hs) (hnew.frames.trans hframes) hL rfl rfl msg

/-- A channel that waited is open, and its conversation hears of it. -/
theorem good_recvChannelAccept (hh : h.Sane) {s : ImSide} (hs : Good s) (hframes : s.frames = [])
    {id : UInt32} {L : ImLine} (hL : s.line id = some L) (hwait : L.state = .wait) :
    Good (recvChannelAccept h ⟨id, L.addr⟩ (s.setLine id (some { L with state := .opened }))).2 := by
  have hline : (s.setLine id (some { L with state := .opened })).line? ⟨id, L.addr⟩ =
      some { L with state := .opened } := line?_of_line (setLine_line_self ..) rfl
  unfold recvChannelAccept
  rw [StateM.bind_apply]
  rcases mwChannelGetServiceData_cases ⟨id, L.addr⟩ (s.setLine id (some { L with state := .opened }))
    with ⟨hnone, hnobody⟩ | ⟨L', a, c, hL', hdata, hc, hsome⟩
  · -- the channel belongs to no conversation that is still there
    rw [hnone]
    dsimp only
    rw [StateM.discard_apply]
    refine (harmless_mwChannelDestroy _ _ _).good ⟨⟨hs.fresh.conv, fun id' M hM => ?_,
      fun id' M b hM hb => ?_⟩, fun b c hc => ?_⟩
    · by_cases hid : id' = id
      · subst hid
        rw [setLine_line_self] at hM
        obtain rfl := Option.some.inj hM
        exact hs.fresh.line id' L hL
      · rw [setLine_line_of_ne _ hid] at hM
        exact hs.fresh.line id' M hM
    · by_cases hid : id' = id
      · subst hid
        rw [setLine_line_self] at hM
        obtain rfl := Option.some.inj hM
        exact hs.fresh.data id' L b hL hb
      · rw [setLine_line_of_ne _ hid] at hM
        exact hs.fresh.data id' M b hM hb
    · refine (hs.sound b c hc).of_lines rfl rfl (fun id' M hM hdata => ?_) rfl rfl rfl
      by_cases hid : id' = id
      · subst hid
        rw [setLine_line_self] at hM
        obtain rfl := Option.some.inj hM
        have hgone := hnobody _ b hline hdata
        have hc' : (s.setLine id' (some { L with state := .opened })).conv b = some c := hc
        rw [hgone] at hc'
        cases hc'
      · rw [setLine_line_of_ne _ hid] at hM
        exact ⟨M, hM, rfl, hdata, Iff.rfl⟩
  · obtain rfl := Option.some.inj (hline.symm.trans hL')
    have hdata : L.srvcData = some a := hdata
    have hsound := hs.sound a c hc
    have hfree : ∀ f, f ∉ s.frames := by simp [hframes]
    have hchannel := hsound.linked id L hL hdata (hfree _)
    have hnotOpened := hsound.waiting id L hL hdata (hfree _) hwait
    rw [hsome]
    have hbut := (hs.but a).setLine (N := { L with state := .opened }) hL rfl (.inl hdata)
      (hs.fresh.conv a c hc)
    have hown : ∀ id' M, (s.setLine id (some { L with state := .opened })).line id' = some M →
        M.srvcData = some a → id' = id ∧ M = { L with state := .opened } := by
      intro id' M hM hdata'
      by_cases hid : id' = id
      · subst hid
        rw [setLine_line_self] at hM
        exact ⟨rfl, (Option.some.inj hM).symm⟩
      · rw [setLine_line_of_ne _ hid] at hM
        have hother := hsound.linked id' M hM hdata' (hfree _)
        rw [hchannel] at hother
        exact absurd (congrArg ChanRef.id (Option.some.inj hother)).symm hid
    refine good_convoOpened hh hbut hc ?_ ?_ ?_ ?_
    · intro id' M hM hdata' _
      obtain ⟨rfl, rfl⟩ := hown id' M hM hdata'
      exact hchannel
    · rw [hchannel]
      exact Option.some_ne_none _
    · intro id' M hM hdata' _
      obtain ⟨rfl, rfl⟩ := hown id' M hM hdata'
      exact fun h => by cases h
    · exact fun hwhole hnot hnot' => hsound.idle hwhole hnot hnot' (.inl hnotOpened)

theorem good_onAccept (hh : h.Sane) {s : ImSide} (hs : Good s) (hframes : s.frames = [])
    (id : UInt32) (offered : Bool) : Good (onAccept h id offered s).2 := by
  unfold onAccept
  rw [StateM.get_bind]
  cases hL : s.line id with
  | none => exact hs
  | some L =>
    dsimp only
    rw [StateM.ite_apply]
    split
    · exact (harmless_mwChannelDestroy _ _ s).good hs
    · rename_i hguard
      have hwait : L.state = .wait := by
        by_contra hne
        exact hguard (.inr (.inl hne))
      have hline : s.line? ⟨id, L.addr⟩ = some L := line?_of_line hL rfl
      rw [StateM.bind_apply, modifyLine_of_some hline]
      dsimp only
      rw [StateM.bind_apply]
      have hgood := good_recvChannelAccept hh hs hframes hL hwait
      have hgrows := grows_recvChannelAccept hh ⟨id, L.addr⟩
        (s.setLine id (some { L with state := .opened }))
      generalize (recvChannelAccept h ⟨id, L.addr⟩
        (s.setLine id (some { L with state := .opened }))).2 = t at hgood hgrows
      rw [StateM.get_bind]
      cases hM : t.line? ⟨id, L.addr⟩ with
      | none => exact hgood
      | some M =>
        dsimp only
        rw [StateM.ite_apply]
        split
        · rename_i hopened
          refine good_flushChannel hh hgood (hgrows.frames.trans hframes) fun M' hM' hwait' => ?_
          obtain rfl := Option.some.inj (hM.symm.trans hM')
          rw [hopened] at hwait'
          cases hwait'
        · exact hgood

theorem good_onSend (hh : h.Sane) {s : ImSide} (hs : Good s) (hframes : s.frames = [])
    (id : UInt32) (msg : Payload) : Good (onSend h id msg s).2 := by
  unfold onSend
  rw [StateM.get_bind]
  cases hL : s.line id with
  | none => exact hs
  | some L =>
    dsimp only
    rw [StateM.ite_apply]
    split
    · rename_i hopened
      refine good_recv hh hs hframes (fun M hM hwait => ?_) msg
      obtain ⟨hline, -⟩ := line_of_line? hM
      obtain rfl := Option.some.inj (hL.symm.trans hline)
      rw [hopened] at hwait
      cases hwait
    · have hqueue : Keeps Harmless (modifyLine ⟨id, L.addr⟩
          fun line => { line with incoming := line.incoming ++ [msg] }) :=
        harmless_modifyLine _ fun L => ⟨rfl, rfl, Iff.rfl⟩
      exact (hqueue s).good hs

/-- A channel is at an end, and its conversation no longer counts on it. -/
theorem good_recvChannelDestroy (hh : h.Sane) {s : ImSide} (hs : Good s) {chan : ChanRef}
    (hunlinked : ∀ L a c, s.line? chan = some L → L.srvcData = some a → s.conv a = some c →
      Unlinked s a)
    (state : MwChannelState) (reason : UInt32) :
    Good (recvChannelDestroy h chan state reason s).2 := by
  unfold recvChannelDestroy
  rw [StateM.bind_apply]
  rcases mwChannelGetServiceData_cases chan s with ⟨hnone, -⟩ | ⟨L, a, c, hL, hdata, hc, hsome⟩
  · rw [hnone]
    exact hs
  · have hgone := hunlinked L a c hL hdata hc
    have hsound := hs.sound a c hc
    rw [hsome]
    dsimp only
    rw [StateM.get_bind, hc]
    dsimp only
    rw [StateM.bind_apply, modifyConv_of_some hc, StateM.ite_apply]
    dsimp only
    obtain ⟨t, ht⟩ : ∃ t, t = s.setConv a (some { c with channel := none }) := ⟨_, rfl⟩
    rw [← ht]
    have hbut : GoodBut a t := by
      have hother : ∀ b c', b ≠ a → t.conv b = some c' → s.conv b = some c' := by
        intro b c' hb hc'
        rw [ht, setConv_conv_of_ne _ hb] at hc'
        exact hc'
      refine ⟨⟨fun b c' hc' => ?_, ?_, ?_⟩, fun b c' hb hc' => ?_⟩
      · rw [ht] at hc' ⊢
        by_cases hb : b = a
        · exact hb ▸ hs.fresh.conv a c hc
        · rw [setConv_conv_of_ne _ hb] at hc'
          exact hs.fresh.conv b c' hc'
      · rw [ht]
        exact hs.fresh.line
      · rw [ht]
        exact hs.fresh.data
      · refine (hs.sound b c' (hother b c' hb hc')).of_lines ?_ ?_ (fun id M hM hdata => ?_) rfl rfl rfl
        · rw [ht]; rfl
        · rw [ht]; rfl
        · rw [ht] at hM
          exact ⟨M, hM, rfl, hdata, Iff.rfl⟩
    have hself : t.conv a = some { c with channel := none } := by rw [ht, setConv_conv_self]
    have hunlinkedT : Unlinked t a := by rw [ht]; exact hgone
    have hidle : (∀ e ∈ t.log, e.Whole) → .delivering a ∉ t.frames → .freeing a ∉ t.frames →
        c.state ≠ .opened ∨ started a t.log = false → c.multi = none := by
      rw [ht]
      exact hsound.idle
    split
    · -- the fallback on plain text
      rw [StateM.bind_apply, record_apply]
      dsimp only
      have hself' : (t.logged (.fallback a c.state)).conv a = some { c with channel := none } := hself
      rw [StateM.bind_apply, modifyConv_of_some hself']
      dsimp only
      have hlogged : GoodBut a (t.logged (.fallback a c.state)) := hbut.logged fun b hb => by cases hb
      have hplain : GoodBut a ((t.logged (.fallback a c.state)).setConv a
          (some { c with channel := none, features := mwImClientPlain })) := by
        refine ⟨⟨fun b c' hc' => ?_, hlogged.fresh.line, hlogged.fresh.data⟩, fun b c' hb hc' => ?_⟩
        · by_cases hb : b = a
          · exact hb ▸ hlogged.fresh.conv a _ hself'
          · rw [setConv_conv_of_ne _ hb] at hc'
            exact hlogged.fresh.conv b c' hc'
        · rw [setConv_conv_of_ne _ hb] at hc'
          exact (hlogged.sound b c' hb hc').of_lines rfl rfl
            (fun id M hM hdata => ⟨M, hM, rfl, hdata, Iff.rfl⟩) rfl rfl rfl
      have hunlinked' : Unlinked ((t.logged (.fallback a c.state)).setConv a
          (some { c with channel := none, features := mwImClientPlain })) a := hunlinkedT
      refine good_convoCreateChan hplain (setConv_conv_self ..) (fun hnot => ?_)
        (fun _ => hunlinked') ?_
      · have hnotPending : c.state ≠ .pending := fun h => hnot ⟨h, rfl⟩
        refine hunlinked'.sound (fun hfine => ?_) fun hwhole => ?_
        · exact absurd (hfine _ List.mem_cons_self) hnotPending
        · exact hidle fun e he => hwhole e (List.mem_cons_of_mem _ he)
      · intro hpending hwhole hnot hnot'
        refine hidle (fun e he => hwhole e (List.mem_cons_of_mem _ he)) hnot hnot' (.inl ?_)
        have hpending : c.state = .pending := hpending
        simp [hpending]
    · refine good_mwConversationClose hh hbut (fun c' _ => ?_) reason
      exact fun id M hM hdata hnot => absurd (hunlinkedT id M hM hdata) hnot

theorem good_onDestroy (hh : h.Sane) {s : ImSide} (hs : Good s) (hframes : s.frames = [])
    (id : UInt32) (reason : UInt32) : Good (onDestroy h id reason s).2 := by
  unfold onDestroy
  rw [StateM.get_bind]
  cases hL : s.line id with
  | none => exact hs
  | some L =>
    dsimp only
    have hline : s.line? ⟨id, L.addr⟩ = some L := line?_of_line hL rfl
    obtain ⟨state, hstate⟩ : ∃ state, state = if reason ≠ 0 then MwChannelState.error else .destroy :=
      ⟨_, rfl⟩
    rw [← hstate, StateM.bind_apply, modifyLine_of_some hline]
    dsimp only
    rw [StateM.bind_apply, within_apply]
    dsimp only
    obtain ⟨t, ht⟩ : ∃ t, t = (s.setLine id (some { L with state := state })).pushed
        (.destroying ⟨id, L.addr⟩) := ⟨_, rfl⟩
    rw [← ht]
    have hlineT : ∀ id' M, t.line id' = some M → id' ≠ id → s.line id' = some M := by
      intro id' M hM hid
      rw [ht] at hM
      exact (setLine_line_of_ne s hid _).symm.trans hM
    have hselfT : ∀ M, t.line id = some M → M = { L with state := state } := by
      intro M hM
      rw [ht] at hM
      exact (Option.some.inj ((setLine_line_self s id _).symm.trans hM)).symm
    have hdestroying : .destroying ⟨id, L.addr⟩ ∈ t.frames := by
      rw [ht]
      exact List.mem_cons_self
    have hfree : ∀ f, f ∉ s.frames := by simp [hframes]
    have hgood : Good t := by
      refine ⟨⟨?_, fun id' M hM => ?_, fun id' M b hM hb => ?_⟩, fun b c hc => ?_⟩
      · rw [ht]
        exact hs.fresh.conv
      · rw [show t.nextLine = s.nextLine by rw [ht]; rfl]
        by_cases hid : id' = id
        · subst hid
          rw [hselfT M hM]
          exact hs.fresh.line id' L hL
        · exact hs.fresh.line id' M (hlineT id' M hM hid)
      · rw [show t.nextConv = s.nextConv by rw [ht]; rfl]
        by_cases hid : id' = id
        · subst hid
          rw [hselfT M hM] at hb
          exact hs.fresh.data id' L b hL hb
        · exact hs.fresh.data id' M b (hlineT id' M hM hid) hb
      · rw [ht] at hc
        have hsound := (hs.sound b c hc).pushed (.destroying ⟨id, L.addr⟩)
        have hother : ∀ id' M, t.line id' = some M → .destroying ⟨id', M.addr⟩ ∉ t.frames →
            (s.pushed (.destroying ⟨id, L.addr⟩)).line id' = some M := by
          intro id' M hM hnot
          by_cases hid : id' = id
          · subst hid
            rw [hselfT M hM] at hnot
            exact absurd hdestroying hnot
          · exact hlineT id' M hM hid
        have hframesT : t.frames = (s.pushed (.destroying ⟨id, L.addr⟩)).frames := by rw [ht]; rfl
        have hlogT : t.log = s.log := by rw [ht]; rfl
        constructor
        · intro id' M hM hdata hnot
          exact hsound.linked id' M (hother id' M hM hnot) hdata (hframesT ▸ hnot)
        · intro id' M hM hdata hnot
          exact hsound.waiting id' M (hother id' M hM hnot) hdata (hframesT ▸ hnot)
        · intro id' M hM hdata hnot
          rw [hframesT]
          exact hsound.live id' M (hother id' M hM hnot) hdata (hframesT ▸ hnot)
        · rw [hframesT, hlogT]
          exact hsound.settled
        · rw [hframesT, hlogT]
          exact hsound.idle
    have hunlinked : ∀ M a c, t.line? ⟨id, L.addr⟩ = some M → M.srvcData = some a →
        t.conv a = some c → Unlinked t a := by
      intro M a c hM hdata hc id' N hN hdata'
      by_cases hid : id' = id
      · subst hid
        rw [hselfT N hN]
        exact hdestroying
      · -- the conversation cannot point to two channels
        have hdata : L.srvcData = some a := by
          have hself := hselfT M (line_of_line? hM).1
          rw [hself] at hdata
          exact hdata
        rw [ht] at hc
        have hsound := hs.sound a c hc
        have hfirst := hsound.linked id L hL hdata (hfree _)
        have hsecond := hsound.linked id' N (hlineT id' N hN hid) hdata' (hfree _)
        rw [hfirst] at hsecond
        exact absurd (congrArg ChanRef.id (Option.some.inj hsecond)).symm hid
    have hresult := good_recvChannelDestroy hh hgood hunlinked state reason
    have hgrows := grows_recvChannelDestroy hh ⟨id, L.addr⟩ state reason t
    generalize (recvChannelDestroy h ⟨id, L.addr⟩ state reason t).2 = u at hresult hgrows
    have hremoved := (Harmless.setLine_none u id).good hresult
    have hframesU : (u.setLine id none).frames = .destroying ⟨id, L.addr⟩ :: s.frames := by
      change u.frames = _
      rw [hgrows.frames, ht]
      rfl
    refine ⟨⟨hremoved.fresh.conv, hremoved.fresh.line, hremoved.fresh.data⟩, fun b c hc => ?_⟩
    refine (hremoved.sound b c hc).popped hframesU ⟨by simp, by simp, by simp⟩ fun id' M hM heq => ?_
    obtain rfl : id = id' := congrArg ChanRef.id (ImFrame.destroying.inj heq)
    rw [setLine_line_self] at hM
    cases hM

theorem good_input (hh : h.Sane) {s : ImSide} (hs : Good s) (hframes : s.frames = [])
    (i : ImInput) : Good (input h i s).2 := by
  cases i with
  | call c => exact good_runCall hh hs c
  | create msg => exact good_onCreate hh hs hframes msg
  | accept id offered => exact good_onAccept hh hs hframes id offered
  | send id msg => exact good_onSend hh hs hframes id msg
  | destroy id reason => exact good_onDestroy hh hs hframes id reason

/-! ## Runs -/

/-- `mwServiceIm_new` -/
def ImSide.new (placeInvite : Bool) (stat : MwUserStatus) (counter : UInt32) (ret : Nat → Int)
    (stack : UInt16) : ImSide :=
  { placeInvite := placeInvite, stat := stat, counter := counter, ret := ret, stack := stack }

theorem good_run (client : ImClient) (n : Nat) (inputs : List ImInput) {s : ImSide} (hs : Good s)
    (hframes : s.frames = []) :
    Good (run (hooks client n) s inputs) ∧ (run (hooks client n) s inputs).frames = [] := by
  unfold run
  induction inputs generalizing s with
  | nil => exact ⟨hs, hframes⟩
  | cons i inputs ih =>
    have hh := sane_hooks client n
    exact ih (good_input hh hs hframes i) ((grows_input hh i s).frames.trans hframes)

theorem good_new (placeInvite : Bool) (stat : MwUserStatus) (counter : UInt32) (ret : Nat → Int)
    (stack : UInt16) : Good (ImSide.new placeInvite stat counter ret stack) :=
  ⟨⟨fun _ _ h => (nomatch h), fun _ _ h => (nomatch h), fun _ _ _ h => (nomatch h)⟩,
    fun _ _ h => (nomatch h)⟩

end

/-- In a run in which only fine things happen, a conversation is closed exactly when it has
no channel. -/
theorem run_closed_iff (client : ImClient) (n : Nat) (placeInvite : Bool) (stat : MwUserStatus)
    (counter : UInt32) (ret : Nat → Int) (stack : UInt16) (inputs : List ImInput)
    (hfine : ∀ e ∈ (run (hooks client n) (.new placeInvite stat counter ret stack) inputs).log,
      e.Fine) (a : Nat) (c : MwConversation)
    (hc : (run (hooks client n) (.new placeInvite stat counter ret stack) inputs).conv a = some c) :
    c.state = .closed ↔ c.channel = none := by
  obtain ⟨hgood, hframes⟩ := good_run client n inputs
    (good_new placeInvite stat counter ret stack) rfl
  refine (hgood.sound a c hc).settled hfine ?_
  rw [hframes]
  simp [Ending]

/-- A handler that makes no calls -/
def quiet : ImClient := fun _ _ => []

/-- A conversation is opened, and the writes return `ret`. -/
def opening (ret : Int) : ImSide :=
  run (hooks quiet 1) (.new false {} 0 (fun _ => ret) 0)
    [.call (.getConversation {}), .call (.open_ 0)]

theorem fine_opening : ∀ e ∈ (opening 0).log, e.Fine := by
  have hlog : (opening 0).log = [.creating 0 0] := by decide +kernel
  rw [hlog]
  intro e he
  obtain rfl := List.mem_singleton.mp he
  rfl

theorem run_closed_iff_opening :
    ∃ c, (opening 0).conv 0 = some c ∧ (c.state = .closed ↔ c.channel = none) := by
  have hsome : ((opening 0).conv 0).isSome := by decide +kernel
  obtain ⟨c, hc⟩ := Option.isSome_iff_exists.mp hsome
  exact ⟨c, hc, run_closed_iff quiet 1 false {} 0 (fun _ => 0) 0 _ fine_opening 0 c hc⟩

/-- When the creation of the channel cannot be written the conversation stays pending,
without a channel. -/
theorem pending_without_channel :
    ¬∀ (client : ImClient) (n : Nat) (placeInvite : Bool) (stat : MwUserStatus) (counter : UInt32)
      (ret : Nat → Int) (stack : UInt16) (inputs : List ImInput) (a : Nat) (c : MwConversation),
      (run (hooks client n) (.new placeInvite stat counter ret stack) inputs).conv a = some c →
        (c.state = .closed ↔ c.channel = none) := by
  intro hall
  have hview : ((opening (-1)).conv 0).map (fun c => (c.state, c.channel)) = some (.pending, none) := by
    decide +kernel
  obtain ⟨c, hc, hfields⟩ := Option.map_eq_some_iff.mp hview
  obtain ⟨hstate, hchannel⟩ := Prod.mk.inj hfields
  have hclosed := (hall quiet 1 false {} 0 (fun _ => -1) 0 _ 0 c hc).mpr hchannel
  rw [hstate] at hclosed
  cases hclosed

/-! ## Messages after an opening -/

/-- The text, HTML or MIME message that a payload is -/
def messageOf (payload : MwOpaque) : Option (MwImSendType × ImContent) :=
  let (mt, b) := guint32Get 0 (.wrapOpaque payload)
  if b.error then none
  else if mt = mwImText then (mwStringGet b).1.map fun text => (.plain, .text (some text))
  else
    match dataOf payload with
    | none => none
    | some (type, o) =>
        if type = mwImDataHtml ∧ o ≠ [] then some (.html, .text (strndup o))
        else if type = mwImDataMime then some (.mime, .text (strndup o))
        else none

/-- `conversation_recv` is the first callback, and the handler may make more. -/
theorem log_convoRecv {h : ImHooks} (hh : h.Sane) (a : Nat) (type : MwImSendType) (msg : ImContent)
    (s : ImSide) :
    ∃ later, (convoRecv h a type msg s).2.log = later ++ .callback (.recv a type msg) :: s.log := by
  obtain ⟨later, hlater⟩ := (hh.grows (.recv a type msg) (s.logged (.callback (.recv a type msg)))).log
  exact ⟨later, hlater.symm⟩

/-- What `recv_data` reads of a data message -/
theorem parsed_of_dataOf {payload o : MwOpaque} {type mt : UInt32} {b : GetBuffer}
    (hword : guint32Get 0 (.wrapOpaque payload) = (mt, b)) (hdata : dataOf payload = some (type, o)) :
    mt = mwImData ∧ ∃ subtype b', b'.error = false ∧
      (do
        let type ← guint32Get 0
        let subtype ← guint32Get 0
        let o ← mwOpaqueGet
        return (type, subtype, o) : Get (UInt32 × UInt32 × MwOpaque)) b = ((type, subtype, o), b') := by
  unfold dataOf at hdata
  simp only [Get.bind_apply, Get.pure_apply, hword] at hdata ⊢
  split at hdata
  · rename_i hok
    obtain ⟨rfl, rfl⟩ := Prod.mk.inj (Option.some.inj hdata)
    exact ⟨hok.2, _, _, hok.1, rfl⟩
  · cases hdata

/-- Without a start marker since the opening a message is told of at once. -/
theorem log_onSend {h : ImHooks} (hh : h.Sane) {s : ImSide} (hs : Good s)
    (hwhole : ∀ e ∈ s.log, e.Whole) (hframes : s.frames = []) {id : UInt32} {L : ImLine}
    (hL : s.line id = some L) (hopened : L.state = .opened) {a : Nat} {c : MwConversation}
    (hdata : L.srvcData = some a) (hc : s.conv a = some c) (hstarted : started a s.log = false)
    {payload : MwOpaque} {type : MwImSendType} {content : ImContent}
    (hmessage : messageOf payload = some (type, content)) :
    ∃ later, (onSend h id (msgMessage, payload) s).2.log =
      later ++ .callback (.recv a type content) :: .given a (msgMessage, payload) :: s.log := by
  have hmulti : c.multi = none :=
    (hs.sound a c hc).idle hwhole (by simp [hframes]) (by simp [hframes]) (.inr hstarted)
  have hpeer : Peer a ⟨id, L.addr⟩ Idle s := by
    refine ⟨?_, c, hc, hmulti⟩
    rw [line?_of_line hL rfl, Option.map_some, hdata]
  have hlogged := hpeer.logged (.given a (msgMessage, payload))
  have hlong : ∀ sendType o, ∃ later,
      (recvLong h a sendType o (s.logged (.given a (msgMessage, payload)))).2.log =
        later ++ .callback (.recv a sendType (.text (strndup o))) ::
          .given a (msgMessage, payload) :: s.log := by
    intro sendType o
    have hconv : (s.logged (.given a (msgMessage, payload))).conv a = some c := hc
    unfold recvLong
    rw [StateM.get_bind, hconv]
    dsimp only
    rw [hmulti]
    exact log_convoRecv hh a sendType _ _
  unfold onSend
  rw [StateM.get_bind, hL]
  dsimp only
  rw [StateM.ite_apply, if_pos hopened]
  unfold recv
  rw [StateM.bind_apply, hpeer.getServiceData]
  dsimp only
  rw [StateM.bind_apply, record_apply, StateM.ite_apply, if_neg (fun h => h rfl)]
  unfold messageOf at hmessage
  rcases hword : guint32Get 0 (.wrapOpaque payload) with ⟨mt, b⟩
  rw [hword] at hmessage
  dsimp only at hmessage ⊢
  split at hmessage
  · cases hmessage
  rename_i hok
  rw [StateM.ite_apply, if_neg hok, StateM.ite_apply, StateM.ite_apply]
  split at hmessage
  · -- a text
    rename_i htext
    obtain ⟨text, hstring, hfields⟩ := Option.map_eq_some_iff.mp hmessage
    obtain ⟨rfl, rfl⟩ := Prod.mk.inj hfields
    have hconv : (s.logged (.given a (msgMessage, payload))).conv a = some c := hc
    rw [if_pos htext]
    unfold recvText
    rw [hstring]
    dsimp only
    rw [StateM.bind_apply, hlogged.getServiceData]
    dsimp only
    rw [StateM.get_bind, hconv]
    dsimp only
    rw [hmulti]
    exact log_convoRecv hh a .plain _ _
  · rename_i htext
    cases hdataOf : dataOf payload with
    | none =>
      rw [hdataOf] at hmessage
      cases hmessage
    | some data =>
      obtain ⟨dataType, o⟩ := data
      rw [hdataOf] at hmessage
      dsimp only at hmessage
      obtain ⟨hmt, subtype, b', hok', hparsed⟩ := parsed_of_dataOf hword hdataOf
      rw [if_neg htext, if_pos hmt]
      unfold recvData
      rw [hparsed]
      dsimp only
      rw [StateM.ite_apply, if_neg (by simp [hok']), StateM.bind_apply, hlogged.getServiceData]
      dsimp only
      split at hmessage
      · rename_i hhtml
        obtain ⟨rfl, rfl⟩ := Prod.mk.inj (Option.some.inj hmessage)
        rw [hhtml.1]
        change ∃ later, ((if o ≠ [] then recvLong h a .html o else pure () : ImM Unit) _).2.log = _
        rw [if_pos hhtml.2]
        exact hlong .html o
      · split at hmessage
        · rename_i hmime
          obtain ⟨rfl, rfl⟩ := Prod.mk.inj (Option.some.inj hmessage)
          rw [hmime]
          exact hlong .mime o
        · cases hmessage

/-- In a run in which no conversation is closed in the middle of a multi-segment message, a
closed conversation has none in progress. So a text, HTML or MIME message that arrives on an
open channel comes on its own, with its own content, if no start marker has come since its
conversation was last opened. Messages that waited for the channel to open are not spoken
of in the second part, only in the first. -/
theorem run_closed_idle (client : ImClient) (n : Nat) (placeInvite : Bool) (stat : MwUserStatus)
    (counter : UInt32) (ret : Nat → Int) (stack : UInt16) (inputs : List ImInput)
    (hwhole : ∀ e ∈ (run (hooks client n) (.new placeInvite stat counter ret stack) inputs).log,
      e.Whole) :
    (∀ a c, (run (hooks client n) (.new placeInvite stat counter ret stack) inputs).conv a = some c →
      c.state = .closed → c.multi = none) ∧
    ∀ s, s = run (hooks client n) (.new placeInvite stat counter ret stack) inputs →
      ∀ id L a, s.line id = some L → L.state = .opened → L.srvcData = some a → (s.conv a).isSome →
        started a s.log = false →
        ∀ payload type content, messageOf payload = some (type, content) →
          ∃ later, (input (hooks client n) (.send id (msgMessage, payload)) s).2.log =
            later ++ .callback (.recv a type content) :: .given a (msgMessage, payload) :: s.log := by
  obtain ⟨hgood, hframes⟩ := good_run client n inputs
    (good_new placeInvite stat counter ret stack) rfl
  constructor
  · intro a c hc hclosed
    refine (hgood.sound a c hc).idle hwhole (by simp [hframes]) (by simp [hframes]) (.inl ?_)
    simp [hclosed]
  · rintro s rfl id L a hL hopened hdata hsome hstarted payload type content hmessage
    obtain ⟨c, hc⟩ := Option.isSome_iff_exists.mp hsome
    exact log_onSend (sane_hooks client n) hgood hwhole hframes hL hopened hdata hc hstarted hmessage

/-- A conversation is announced, begins a long message, and its channel dies. -/
def interrupted : ImSide :=
  run (hooks quiet 1) (.new false {} 0 (fun _ => 0) 0)
    [.create { channel := 0x80000001, creator := {}, addtl := guint32Put 1 ++ guint32Put 1 },
     .send 0x80000001 (msgMessage, dataPayload mwImDataMultiStart 0 []),
     .destroy 0x80000001 0]

/-- A conversation is announced and its channel dies. -/
def departed : ImSide :=
  run (hooks quiet 1) (.new false {} 0 (fun _ => 0) 0)
    [.create { channel := 0x80000001, creator := {}, addtl := guint32Put 1 ++ guint32Put 1 },
     .destroy 0x80000001 0]

theorem whole_departed : ∀ e ∈ departed.log, e.Whole := by decide +kernel

theorem run_closed_idle_departed :
    ∃ c, departed.conv 0 = some c ∧ c.state = .closed ∧ c.multi = none := by
  have hview : (departed.conv 0).map MwConversation.state = some .closed := by decide +kernel
  obtain ⟨c, hc, hstate⟩ := Option.map_eq_some_iff.mp hview
  exact ⟨c, hc, hstate,
    (run_closed_idle quiet 1 false {} 0 (fun _ => 0) 0 _ whole_departed).1 0 c hc hstate⟩

theorem closed_in_progress :
    ¬∀ (client : ImClient) (n : Nat) (placeInvite : Bool) (stat : MwUserStatus) (counter : UInt32)
      (ret : Nat → Int) (stack : UInt16) (inputs : List ImInput) (a : Nat) (c : MwConversation),
      (run (hooks client n) (.new placeInvite stat counter ret stack) inputs).conv a = some c →
        c.state = .closed → c.multi = none := by
  intro hall
  have hview : (interrupted.conv 0).map (fun c => (c.state, c.multi)) = some (.closed, some []) := by
    decide +kernel
  obtain ⟨c, hc, hfields⟩ := Option.map_eq_some_iff.mp hview
  obtain ⟨hstate, hmulti⟩ := Prod.mk.inj hfields
  have hnone := hall quiet 1 false {} 0 (fun _ => 0) 0 _ 0 c hc hstate
  rw [hmulti] at hnone
  cases hnone

end Meanwhile.Im
