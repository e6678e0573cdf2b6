-- SUMMARY: The type with which a multi-segment message is delivered, which depends on the messages before it.
import Meanwhile.Service.ImClosed

/-!
# Types of multi-segment messages

What a conversation has gathered can be read off the messages that were given to it
(`gathered`): the kinds of the segments since the start marker, and those of the segments
before. `multi_type` is set by HTML and MIME segments and never reset, so that it is the
kind of the last of them all (`Gathers`). The type that belongs to a message is the kind of
the last of its own.

All code but that which receives messages leaves alone what is gathered (`Calm`), the calls
of the handler included.
-/

namespace Meanwhile.Im

/-! ## What a message says -/

inductive Said where
  | text (s : CString)
  | html (o : MwOpaque)
  | mime (o : MwOpaque)
  | multiStart
  | multiStop
  | other

/-- The word of a payload that says what the rest is, with the rest -/
def kindOf (payload : MwOpaque) : UInt32 × GetBuffer := guint32Get 0 (.wrapOpaque payload)

/-- What `recv_data` reads -/
def dataGet : Get (UInt32 × UInt32 × MwOpaque) := do
  let type ← guint32Get 0
  let subtype ← guint32Get 0
  let o ← mwOpaqueGet
  return (type, subtype, o)

/-- What a data message says -/
def saidData (type : UInt32) (o : MwOpaque) : Said :=
  if type = mwImDataHtml then if o ≠ [] then .html o else .other
  else if type = mwImDataMime then .mime o
  else if type = mwImDataMultiStart then .multiStart
  else if type = mwImDataMultiStop then .multiStop
  else .other

def said (msg : Payload) : Said :=
  let (mt, b) := kindOf msg.2
  if msg.1 ≠ msgMessage ∨ b.error then .other
  else if mt = mwImText then
    match (mwStringGet b).1 with
    | none => .other
    | some s => .text s
  else if mt = mwImData then
    let ((type, _, o), b) := dataGet b
    if b.error then .other else saidData type o
  else .other

/-- The type of a segment on its own -/
def Said.segment : Said → Option MwImSendType
  | .text _ => some .plain
  | .html _ => some .html
  | .mime _ => some .mime
  | _ => none

/-! ## What has been gathered -/

/-- The types of the segments, the latest first: of the message in progress, if there is
one, and of the messages before -/
structure Gathered where
  current : Option (List MwImSendType) := none
  earlier : List MwImSendType := []

/-- One message more -/
def Gathered.next (g : Gathered) (msg : Said) : Gathered :=
  match g.current, msg with
  | none, .multiStart => { g with current := some [] }
  | none, _ => g
  | some segs, .multiStop => { current := none, earlier := segs ++ g.earlier }
  | some segs, msg =>
      match msg.segment with
      | none => g
      | some type => { g with current := some (type :: segs) }

/-- What a conversation has gathered, by the messages that were given to it -/
def gathered (a : Nat) : List ImEvent → Gathered
  | [] => {}
  | .given b msg :: log =>
      if b = a then (gathered a log).next (said msg) else gathered a log
  | _ :: log => gathered a log

/-- The type of a message with some segments: that of the last that is HTML or MIME, and
plain if there is none -/
def typeOf (segs : List MwImSendType) : MwImSendType := (segs.find? (· ≠ .plain)).getD .plain

/-- The type of the last HTML or MIME segment of all -/
def Gathered.kept (g : Gathered) : MwImSendType := typeOf (g.current.getD [] ++ g.earlier)

/-- A message in progress is ended. -/
def Ends (a : Nat) (msg : Payload) (log : List ImEvent) (segs : List MwImSendType) : Prop :=
  (said msg matches .multiStop) ∧ (gathered a log).current = some segs

/-- Each multi-segment message is delivered with the type of its own segments. -/
def TypesOfTheirOwn (log : List ImEvent) : Prop :=
  ∀ later a type content msg log' segs,
    log = later ++ .callback (.recv a type content) :: .given a msg :: log' →
    Ends a msg log' segs → type = typeOf segs

/-- No message of text alone is ended after HTML or MIME segments in earlier messages. -/
def TextBeforeOthers (log : List ImEvent) : Prop :=
  ∀ later a msg log' segs, log = later ++ .given a msg :: log' → Ends a msg log' segs →
    (∀ type ∈ segs, type = .plain) → ∀ type ∈ (gathered a log').earlier, type = .plain

/-! ## Code that receives nothing -/

/-- An event is not of a message that is given to the service. -/
def ImEvent.NotGiven : ImEvent → Prop
  | .given .. => False
  | _ => True

/-- Nothing has been received, and what conversations gather is as it was. -/
structure Calm (s s' : ImSide) : Prop where
  log : ∃ later, s'.log = later ++ s.log ∧ ∀ e ∈ later, e.NotGiven
  nextConv : s.nextConv ≤ s'.nextConv
  conv : ∀ a c', s'.conv a = some c' →
    (∃ c, s.conv a = some c ∧ c.multi = c'.multi ∧ c.multiType = c'.multiType) ∨
      s.nextConv ≤ a ∧ a < s'.nextConv ∧ c'.multi = none ∧ c'.multiType = .plain

namespace Calm

variable {s s' s'' : ImSide}

theorem refl (s : ImSide) : Calm s s :=
  ⟨⟨[], rfl, nofun⟩, le_rfl, fun _ c hc => .inl ⟨c, hc, rfl, rfl⟩⟩

theorem trans (h : Calm s s') (h' : Calm s' s'') : Calm s s'' := by
  obtain ⟨later, hlog, hgiven⟩ := h.log
  obtain ⟨later', hlog', hgiven'⟩ := h'.log
  refine ⟨⟨later' ++ later, by rw [hlog', hlog, List.append_assoc], ?_⟩,
    h.nextConv.trans h'.nextConv, fun a c'' hc'' => ?_⟩
  · exact fun e he => (List.mem_append.mp he).elim (hgiven' e) (hgiven e)
  · rcases h'.conv a c'' hc'' with ⟨c', hc', hmulti', htype'⟩ | ⟨hge, hlt, hnew⟩
    · rcases h.conv a c' hc' with ⟨c, hc, hmulti, htype⟩ | ⟨hge, hlt, hmulti, htype⟩
      · exact .inl ⟨c, hc, hmulti.trans hmulti', htype.trans htype'⟩
      · exact .inr ⟨hge, hlt.trans_le h'.nextConv, hmulti' ▸ hmulti, htype' ▸ htype⟩
    · exact .inr ⟨h.nextConv.trans hge, hlt, hnew⟩

instance : Std.Refl Calm := ⟨refl⟩
instance : IsTrans ImSide Calm := ⟨fun _ _ _ => trans⟩

/-- Neither conversations nor what has happened have changed. -/
theorem of_eq (hconv : s'.conv = s.conv) (hnext : s'.nextConv = s.nextConv)
    (hlog : s'.log = s.log) : Calm s s' :=
  ⟨⟨[], hlog, nofun⟩, hnext.ge, fun _ c hc => .inl ⟨c, hconv ▸ hc, rfl, rfl⟩⟩

/-- A conversation changes in other fields. -/
theorem setConv {a : Nat} {c c' : MwConversation} (hc : s.conv a = some c)
    (hmulti : c.multi = c'.multi) (htype : c.multiType = c'.multiType) :
    Calm s (s.setConv a (some c')) := by
  refine ⟨⟨[], rfl, nofun⟩, le_rfl, fun b d hd => .inl ?_⟩
  by_cases hb : b = a
  · subst hb
    rw [setConv_conv_self] at hd
    obtain rfl := Option.some.inj hd
    exact ⟨c, hc, hmulti, htype⟩
  · rw [setConv_conv_of_ne _ hb] at hd
    exact ⟨d, hd, rfl, rfl⟩

end Calm

/-! ### Channels -/

theorem calm_write (p : ImPacket) : Keeps Calm (write p) := fun _ => .of_eq rfl rfl rfl

theorem calm_setLine (id : UInt32) (line : Option ImLine) :
    Keeps Calm (modify fun s => s.setLine id line : ImM Unit) := fun _ => .of_eq rfl rfl rfl

theorem calm_modifyLine (chan : ChanRef) (f : ImLine → ImLine) :
    Keeps Calm (modifyLine chan f) := by
  refine .bind .get fun s => ?_
  cases s.line? chan with
  | none => exact .pure _
  | some L => exact calm_setLine _ _

theorem calm_mwChannelNewIncoming (id : UInt32) : Keeps Calm (mwChannelNewIncoming id) :=
  fun _ => .of_eq rfl rfl rfl

theorem calm_mwChannelNewOutgoing : Keeps Calm mwChannelNewOutgoing := by
  refine .bind .get fun s => ?_
  dsimp only
  split
  case h_1 => exact .pure _
  case h_2 id _ =>
    refine .bind (fun _ => .of_eq rfl rfl rfl) fun _ => ?_
    refine .bind (calm_mwChannelNewIncoming id) fun chan => ?_
    exact .bind (calm_modifyLine chan _) fun _ => .pure _

theorem calm_mwChannelCreate (chan : ChanRef) (target : MwIdBlock) (addtl : MwOpaque) :
    Keeps Calm (mwChannelCreate chan target addtl) := by
  refine .ite (fun _ => ?_) fun _ => .pure _
  refine .bind (calm_write _) fun ret => ?_
  exact .bind (calm_modifyLine chan _) fun _ => .pure _

theorem calm_mwChannelDestroy (chan : ChanRef) (reason : UInt32) :
    Keeps Calm (mwChannelDestroy chan reason) := by
  refine .bind .get fun s => ?_
  cases s.line? chan with
  | none => exact .pure _
  | some L => exact .bind (calm_setLine _ _) fun _ => calm_write _

theorem calm_mwChannelSendEncrypted (chan : ChanRef) (msg : Payload) :
    Keeps Calm (mwChannelSendEncrypted chan msg) := by
  refine .bind .get fun s => ?_
  cases s.line? chan with
  | none => exact .pure _
  | some L =>
    refine .ite (fun _ => calm_write _) fun _ => ?_
    exact .bind (calm_modifyLine chan _) fun _ => .pure _

theorem calm_mwChannelGetServiceData (chan : ChanRef) :
    Keeps Calm (mwChannelGetServiceData chan) := by
  refine .bind .get fun s => ?_
  cases s.line? chan <;> exact .pure _

/-! ### Sending -/

theorem calm_convoSendData (a : Nat) (type subtype : UInt32) (o : MwOpaque) :
    Keeps Calm (convoSendData a type subtype o) := by
  refine .bind .get fun s => ?_
  cases (s.conv a).bind (·.channel) with
  | none => exact .pure _
  | some chan => exact calm_mwChannelSendEncrypted chan _

theorem calm_strlen (p : Nat) : Keeps Calm (strlen p) := fun s => .refl s

theorem calm_sendSegments {send : Nat → ImM Int} (hsend : ∀ p, Keeps Calm (send p))
    (p len : Nat) (ret : Int) : Keeps Calm (sendSegments send p len ret) := by
  fun_induction sendSegments send p len ret with
  | case1 => exact .pure _
  | case2 p len ret _ seg ih =>
    refine .bind (fun s => .refl s) fun tail => ?_
    refine .bind (fun s => .of_eq rfl rfl rfl) fun _ => ?_
    refine .bind (hsend p) fun ret => ?_
    exact .bind (fun s => .of_eq rfl rfl rfl) fun _ => ih _

theorem calm_convoSendLong (a : Nat) (type : UInt32) (depth : Nat) :
    ∀ p, Keeps Calm (convoSendLong a type depth p) := by
  induction depth with
  | zero => exact fun p => .pure _
  | succ depth ih =>
    intro p
    unfold convoSendLong
    refine .bind (calm_strlen p) fun len => .ite (fun _ => ?_) fun _ => ?_
    · unfold convoSendSegmented
      refine .bind (calm_strlen p) fun len => ?_
      refine .bind (calm_convoSendData _ _ _ _) fun ret => ?_
      refine .bind (calm_sendSegments ih p len ret) fun ret => ?_
      exact .ite (fun _ => calm_convoSendData _ _ _ _) fun _ => .pure _
    · exact .bind .get fun s => calm_convoSendData _ _ _ _

theorem calm_mwConversationSend (a depth : Nat) (type : MwImSendType) (typing : Bool) :
    Keeps Calm (mwConversationSend a depth type typing) := by
  refine .bind .get fun s => ?_
  cases s.conv a with
  | none => exact .pure _
  | some c =>
    refine .ite (fun _ => .pure _) fun _ => ?_
    cases type with
    | plain =>
      refine .bind .get fun s => ?_
      cases (s.conv a).bind (·.channel) with
      | none => exact .pure _
      | some chan => exact calm_mwChannelSendEncrypted chan _
    | typing => exact calm_convoSendData _ _ _ _
    | subject =>
      exact .bind (calm_strlen 0) fun len => .bind .get fun s => calm_convoSendData _ _ _ _
    | html => exact calm_convoSendLong _ _ _ _
    | mime => exact calm_convoSendLong _ _ _ _
    | timestamp => exact .pure _

/-! ### Conversations -/

theorem calm_modifyConv (a : Nat) {f : MwConversation → MwConversation}
    (hf : ∀ c, (f c).multi = c.multi ∧ (f c).multiType = c.multiType) :
    Keeps Calm (modifyConv a f) := by
  intro s
  cases hc : s.conv a with
  | none =>
    have hsame : s.setConv a none = s := by
      rw [← hc, ImSide.setConv, Function.update_eq_self]
    change Calm s (s.setConv a ((s.conv a).map f))
    rw [hc, Option.map_none, hsame]
    exact .refl s
  | some c =>
    rw [modifyConv_of_some hc]
    exact .setConv hc (hf c).1.symm (hf c).2.symm

theorem calm_record {e : ImEvent} (he : e.NotGiven) : Keeps Calm (record e) := by
  intro s
  refine ⟨⟨[e], rfl, fun e' he' => ?_⟩, le_rfl, fun a c hc => .inl ⟨c, hc, rfl, rfl⟩⟩
  rwa [List.mem_singleton.mp he']

theorem calm_within (f : ImFrame) {x : ImM Unit} (hx : Keeps Calm x) : Keeps Calm (within f x) := by
  intro s
  have h := hx (s.pushed f)
  exact ⟨h.log, h.nextConv, h.conv⟩

theorem calm_convoFree (a : Nat) : Keeps Calm (convoFree a) := by
  intro s
  refine ⟨⟨[], rfl, nofun⟩, le_rfl, fun b c hc => .inl ?_⟩
  change (s.setConv a none).conv b = some c at hc
  by_cases hb : b = a
  · subst hb
    rw [setConv_conv_self] at hc
    exact nomatch hc
  · rw [setConv_conv_of_ne _ hb] at hc
    exact ⟨c, hc, rfl, rfl⟩

/-- A new conversation has nothing. -/
theorem Calm.withConv {s : ImSide} {c : MwConversation} (hmulti : c.multi = none)
    (htype : c.multiType = .plain) : Calm s (s.withConv c) := by
  refine ⟨⟨[], rfl, nofun⟩, Nat.le_succ _, fun b d hd => ?_⟩
  change (s.setConv s.nextConv (some c)).conv b = some d at hd
  by_cases hb : b = s.nextConv
  · subst hb
    rw [setConv_conv_self] at hd
    obtain rfl := Option.some.inj hd
    exact .inr ⟨le_rfl, Nat.lt_succ_self _, hmulti, htype⟩
  · rw [setConv_conv_of_ne _ hb] at hd
    exact .inl ⟨d, hd, rfl, rfl⟩

theorem calm_mwServiceImGetConversation (target : MwIdBlock) :
    Keeps Calm (mwServiceImGetConversation target) := by
  intro s
  unfold mwServiceImGetConversation
  rw [StateM.get_bind]
  cases convoFindByUser s target with
  | some a => exact .refl s
  | none => exact .withConv rfl rfl

theorem calm_convoCreateChan (a : Nat) : Keeps Calm (convoCreateChan a) := by
  refine .bind .get fun s => ?_
  cases s.conv a with
  | none => exact .pure _
  | some c =>
    refine .ite (fun _ => .pure _) fun _ => .bind calm_mwChannelNewOutgoing fun chan => ?_
    cases chan with
    | none => exact calm_record trivial
    | some chan =>
      refine .bind (calm_mwChannelCreate _ _ _) fun ret => .bind (calm_record trivial) fun _ => ?_
      refine .ite (fun _ => ?_) fun _ => .pure _
      exact .bind (calm_modifyConv a fun c => ⟨rfl, rfl⟩) fun _ => calm_modifyLine chan _

theorem calm_mwConversationOpen (a : Nat) : Keeps Calm (mwConversationOpen a) := by
  refine .bind .get fun s => ?_
  cases s.conv a with
  | none => exact .pure _
  | some c =>
    refine .ite (fun _ => .pure _) fun _ => ?_
    exact .bind (calm_modifyConv a fun c => ⟨rfl, rfl⟩) fun _ => calm_convoCreateChan a

/-- The calls that the handler makes receive nothing. -/
def ImHooks.Calm (h : ImHooks) : Prop := ∀ cb, Keeps Im.Calm (h cb)

variable {h : ImHooks}

theorem calm_callback (hh : h.Calm) (cb : ImCallback) : Keeps Calm (callback h cb) :=
  .bind (calm_record trivial) fun _ => hh cb

theorem calm_convoOpened (hh : h.Calm) (a : Nat) : Keeps Calm (convoOpened h a) :=
  .bind (calm_modifyConv a fun _ => ⟨rfl, rfl⟩) fun _ => calm_callback hh _

theorem calm_dropChannel (a : Nat) (reason : UInt32) : Keeps Calm (dropChannel a reason) := by
  refine .bind .get fun s => ?_
  cases s.conv a with
  | none => exact .pure _
  | some c =>
    refine .bind .get fun s => .bind (calm_record trivial) fun _ => ?_
    cases c.channel with
    | none => exact .pure _
    | some chan =>
      refine .bind (calm_mwChannelDestroy chan reason).discard fun _ => ?_
      exact calm_modifyConv a fun c => ⟨rfl, rfl⟩

theorem calm_mwConversationClose (hh : h.Calm) (a : Nat) (reason : UInt32) :
    Keeps Calm (mwConversationClose h a reason) := by
  refine .bind .get fun s => ?_
  cases s.conv a with
  | none => exact .pure _
  | some c =>
    refine .bind .get fun s => .bind (calm_record trivial) fun _ => ?_
    refine .bind (calm_modifyConv a fun c => ⟨rfl, rfl⟩) fun _ => ?_
    exact .bind (calm_within _ (calm_callback hh _)) fun _ => calm_dropChannel a reason

theorem calm_mwConversationFree (hh : h.Calm) (a : Nat) : Keeps Calm (mwConversationFree h a) := by
  refine .bind .get fun s => ?_
  cases s.conv a with
  | none => exact .pure _
  | some c =>
    refine .bind (calm_within _ (.ite (fun _ => ?_) fun _ => .pure _)) fun _ => calm_convoFree a
    exact calm_mwConversationClose hh a 0

theorem calm_runCall (hh : h.Calm) (call : ImCall) : Keeps Calm (runCall h call) := by
  cases call with
  | getConversation target => exact (calm_mwServiceImGetConversation target).discard
  | setClientType type => exact fun _ => .of_eq rfl rfl rfl
  | setUserStatus stat => exact fun _ => .of_eq rfl rfl rfl
  | open_ a => exact calm_mwConversationOpen a
  | close a reason => exact calm_mwConversationClose hh a reason
  | free a => exact calm_mwConversationFree hh a
  | send a type typing text =>
    exact .bind (fun _ => .of_eq rfl rfl rfl) fun _ => (calm_mwConversationSend _ _ _ _).discard

theorem calm_hooks (client : ImClient) (n : Nat) : (hooks client n).Calm := by
  induction n with
  | zero => exact fun cb => .pure _
  | succ n ih => exact fun cb => .bind .get fun s => .forM fun call _ => calm_runCall ih call

/-! ## Code that receives -/

/-- What is done with a message that says something -/
def hear (h : ImHooks) (a : Nat) : Said → ImM Unit
  | .text text => do
      match (← get).conv a with
      | none => return
      | some c =>
          match c.multi with
          | some str => modifyConv a fun c => { c with multi := some (str ++ text.val) }
          | none => convoRecv h a .plain (.text (some text))
  | .html o => recvLong h a .html o
  | .mime o => recvLong h a .mime o
  | .multiStart => convoMultiStart a
  | .multiStop => convoMultiStop h a
  | .other => pure ()

theorem calm_convoInvite (hh : h.Calm) (a : Nat) (o : MwOpaque) :
    Keeps Calm (convoInvite h a o) := by
  refine .bind .get fun s => ?_
  cases s.conv a with
  | none => exact .pure _
  | some c =>
    refine .ite (fun _ => .pure _) fun _ => ?_
    refine .bind (calm_modifyConv a fun c => ⟨rfl, rfl⟩) fun _ => ?_
    exact .ite (fun _ => .pure _) fun _ => calm_callback hh _

/-- Data that say nothing to a conversation may still be told of. -/
theorem recvDataFor_said (hh : h.Calm) (a : Nat) (type subtype : UInt32) (o : MwOpaque) :
    recvDataFor h a type subtype o = hear h a (saidData type o) ∨
      saidData type o = .other ∧ Keeps Calm (recvDataFor h a type subtype o) := by
  unfold recvDataFor saidData
  by_cases htyping : type = mwImDataTyping
  · subst htyping
    exact .inr ⟨rfl, calm_callback hh _⟩
  by_cases hhtml : type = mwImDataHtml
  · subst hhtml
    left
    by_cases ho : o ≠ []
    · simp only [if_neg htyping, if_pos ho, if_true, hear]
    · simp only [if_neg htyping, if_neg ho, if_true, hear]
  by_cases hsubject : type = mwImDataSubject
  · subst hsubject
    exact .inr ⟨rfl, calm_callback hh _⟩
  by_cases hmime : type = mwImDataMime
  · subst hmime
    exact .inl rfl
  by_cases htimestamp : type = mwImDataTimestamp
  · subst htimestamp
    exact .inl rfl
  by_cases hinvite : type = mwImDataInvite
  · subst hinvite
    exact .inr ⟨rfl, calm_convoInvite hh a o⟩
  left
  simp only [htyping, hhtml, hsubject, hmime, htimestamp, hinvite, if_false]
  by_cases hstart : type = mwImDataMultiStart
  · simp only [hstart, if_true, hear]
  · by_cases hstop : type = mwImDataMultiStop
    · simp only [hstop, if_true, hear]
      rfl
    · simp only [hstart, hstop, if_false, hear]

theorem recvData_eq (chan : ChanRef) (b : GetBuffer) :
    recvData h chan b =
      (if (dataGet b).2.error then return
      else do
        match ← mwChannelGetServiceData chan with
        | none => return
        | some a => recvDataFor h a (dataGet b).1.1 (dataGet b).1.2.1 (dataGet b).1.2.2) := rfl

/-- A message is heard as what it says, and otherwise nothing is gathered. -/
theorem recv_said (hh : h.Calm) {chan : ChanRef} {s : ImSide} {a : Nat}
    (hdata : mwChannelGetServiceData chan s = (some a, s)) (msg : Payload) :
    (recv h chan msg s).2 = (hear h a (said msg) (s.logged (.given a msg))).2 ∨
      said msg = .other ∧ Calm (s.logged (.given a msg)) (recv h chan msg s).2 := by
  have hlogged := mwChannelGetServiceData_logged chan s (.given a msg)
  rw [hdata] at hlogged
  unfold recv said kindOf
  rw [StateM.bind_apply, hdata]
  dsimp only
  rw [StateM.bind_apply, record_apply]
  generalize guint32Get 0 (.wrapOpaque msg.2) = r
  obtain ⟨mt, b⟩ := r
  dsimp only
  by_cases hmsg : msg.1 ≠ msgMessage ∨ b.error = true
  · rw [if_pos hmsg]
    left
    by_cases htype : msg.1 ≠ msgMessage
    · rw [StateM.ite_apply, if_pos htype]
      rfl
    · rw [StateM.ite_apply, if_neg htype, StateM.ite_apply, if_pos (hmsg.resolve_left htype)]
      rfl
  rw [if_neg hmsg]
  rw [not_or] at hmsg
  rw [StateM.ite_apply, if_neg hmsg.1, StateM.ite_apply, if_neg hmsg.2]
  by_cases htext : mt = mwImText
  · rw [if_pos htext, if_pos htext]
    left
    unfold recvText
    cases (mwStringGet b).1 with
    | none => rfl
    | some text =>
      dsimp only
      rw [StateM.bind_apply, hlogged]
      rfl
  rw [if_neg htext, if_neg htext]
  by_cases hdatum : mt = mwImData
  · rw [if_pos hdatum, if_pos hdatum]
    rw [recvData_eq]
    generalize dataGet b = r
    obtain ⟨⟨type, subtype, o⟩, b'⟩ := r
    dsimp only
    by_cases herror : b'.error = true
    · left
      rw [if_pos herror, if_pos herror]
      rfl
    · rw [if_neg herror, if_neg herror, StateM.bind_apply, hlogged]
      dsimp only
      rcases recvDataFor_said hh a type subtype o with heq | ⟨hother, hcalm⟩
      · left
        rw [heq]
      · exact .inr ⟨hother, hcalm _⟩
  · left
    rw [if_neg hdatum, if_neg hdatum]
    rfl

/-- Nobody is told what comes on a channel without a conversation. -/
theorem recv_of_none {chan : ChanRef} {s : ImSide}
    (hdata : mwChannelGetServiceData chan s = (none, s)) (msg : Payload) :
    (recv h chan msg s).2 = s := by
  unfold recv
  rw [StateM.bind_apply, hdata]
  dsimp only
  generalize guint32Get 0 (.wrapOpaque msg.2) = r
  obtain ⟨mt, b⟩ := r
  dsimp only
  simp only [StateM.ite_apply]
  split
  · rfl
  · split
    · rfl
    · split
      · unfold recvText
        cases (mwStringGet b).1 with
        | none => rfl
        | some text =>
          dsimp only
          rw [StateM.bind_apply, hdata]
          rfl
      · split
        · rw [recvData_eq, StateM.ite_apply]
          split
          · rfl
          · rw [StateM.bind_apply, hdata]
            rfl
        · rfl

/-! ## What holds of what has been gathered -/

/-- A conversation has what it has gathered, with the type of the last HTML or MIME segment. -/
structure Gathers (g : Gathered) (c : MwConversation) : Prop where
  multi : c.multi.isSome = g.current.isSome
  multiType : c.multiType = g.kept

/-- Each multi-segment message has been delivered, with the type of the last HTML or MIME
segment. -/
def Told (log : List ImEvent) : Prop :=
  ∀ later a msg log' segs, log = later ++ .given a msg :: log' → Ends a msg log' segs →
    ∃ later' content,
      later = later' ++ [.callback (.recv a (typeOf (segs ++ (gathered a log').earlier)) content)]

structure Typed (s : ImSide) : Prop where
  gathers : ∀ a c, s.conv a = some c → Gathers (gathered a s.log) c
  conv : ∀ a, s.nextConv ≤ a → s.conv a = none
  nothing : ∀ a, s.nextConv ≤ a → gathered a s.log = {}
  told : Told s.log

theorem gathered_append {later : List ImEvent} (hlater : ∀ e ∈ later, e.NotGiven) (a : Nat)
    (log : List ImEvent) : gathered a (later ++ log) = gathered a log := by
  induction later with
  | nil => rfl
  | cons e later ih =>
    have hrest := ih fun e he => hlater e (List.mem_cons_of_mem _ he)
    have he := hlater e List.mem_cons_self
    cases e with
    | given => exact he.elim
    | callback => exact hrest
    | creating => exact hrest
    | fallback => exact hrest
    | closing => exact hrest
    | closed => exact hrest

/-- Nothing given is nothing to be told of. -/
theorem Told.append {later log : List ImEvent} (h : Told log) (hlater : ∀ e ∈ later, e.NotGiven) :
    Told (later ++ log) := by
  intro later' a msg log' segs heq hends
  obtain ⟨mid, rfl, hlog⟩ | ⟨mid, hlater', hrest⟩ := List.append_eq_append_iff.mp heq
  · obtain ⟨mid', content, rfl⟩ := h mid a msg log' segs hlog hends
    exact ⟨later ++ mid', content, (List.append_assoc ..).symm⟩
  · cases mid with
    | nil =>
      rw [List.nil_append] at hrest
      obtain ⟨mid', content, hnil⟩ := h [] a msg log' segs hrest.symm hends
      exact nomatch (congrArg List.length hnil).trans (List.length_append ..)
    | cons e mid =>
      obtain ⟨rfl, -⟩ := List.cons.inj hrest
      rw [hlater'] at hlater
      exact (hlater _ (List.mem_append_right _ List.mem_cons_self)).elim

theorem Typed.calm {s s' : ImSide} (h : Typed s) (hcalm : Calm s s') : Typed s' := by
  obtain ⟨later, hlog, hlater⟩ := hcalm.log
  have hgathered : ∀ a, gathered a s'.log = gathered a s.log := fun a =>
    hlog ▸ gathered_append hlater a s.log
  refine ⟨fun a c' hc' => ?_, fun a ha => ?_, fun a ha => ?_, hlog ▸ h.told.append hlater⟩
  · rw [hgathered]
    rcases hcalm.conv a c' hc' with ⟨c, hc, hmulti, htype⟩ | ⟨hge, -, hmulti, htype⟩
    · obtain ⟨hm, ht⟩ := h.gathers a c hc
      exact ⟨hmulti ▸ hm, htype ▸ ht⟩
    · rw [h.nothing a hge]
      exact ⟨by rw [hmulti]; rfl, htype⟩
  · by_contra hsome
    obtain ⟨c', hc'⟩ := Option.ne_none_iff_exists'.mp hsome
    rcases hcalm.conv a c' hc' with ⟨c, hc, -⟩ | ⟨-, hlt, -⟩
    · rw [h.conv a (hcalm.nextConv.trans ha)] at hc
      exact nomatch hc
    · exact absurd hlt (Nat.not_lt.mpr ha)
  · rw [hgathered]
    exact h.nothing a (hcalm.nextConv.trans ha)

/-! ### A message given -/

theorem gathered_given_self (a : Nat) (msg : Payload) (log : List ImEvent) :
    gathered a (.given a msg :: log) = (gathered a log).next (said msg) := if_pos rfl

theorem gathered_given_of_ne {a b : Nat} (h : b ≠ a) (msg : Payload) (log : List ImEvent) :
    gathered a (.given b msg :: log) = gathered a log := if_neg h

/-- A message has been given to a conversation that holds what it should. If it ends one in
progress, the handler has been told. -/
theorem Typed.given {s t : ImSide} (hs : Typed s) {a : Nat} {c c' : MwConversation} {msg : Payload}
    (hc : s.conv a = some c) (events : List ImEvent) (hevents : ∀ e ∈ events, e.NotGiven)
    (htold : ∀ segs, Ends a msg s.log segs → ∃ later content, events =
      later ++ [.callback (.recv a (typeOf (segs ++ (gathered a s.log).earlier)) content)])
    (hgathers : Gathers ((gathered a s.log).next (said msg)) c')
    (hlog : t.log = events ++ .given a msg :: s.log) (hnext : t.nextConv = s.nextConv)
    (hconv : t.conv = Function.update s.conv a (some c')) : Typed t := by
  have hlt : a < s.nextConv := by
    by_contra hge
    rw [hs.conv a (Nat.not_lt.mp hge)] at hc
    exact nomatch hc
  have hgathered : ∀ b, gathered b t.log = gathered b (.given a msg :: s.log) := fun b =>
    hlog ▸ gathered_append hevents b _
  refine ⟨fun b d hd => ?_, fun b hb => ?_, fun b hb => ?_, ?_⟩
  · rw [hgathered]
    rw [hconv] at hd
    by_cases hba : b = a
    · subst hba
      rw [Function.update_self] at hd
      obtain rfl := Option.some.inj hd
      rwa [gathered_given_self]
    · rw [Function.update_of_ne hba] at hd
      rw [gathered_given_of_ne (Ne.symm hba)]
      exact hs.gathers b d hd
  · rw [hnext] at hb
    rw [hconv, Function.update_of_ne (Nat.ne_of_gt (hlt.trans_le hb))]
    exact hs.conv b hb
  · rw [hnext] at hb
    rw [hgathered, gathered_given_of_ne (Nat.ne_of_lt (hlt.trans_le hb))]
    exact hs.nothing b hb
  · rw [hlog]
    intro later b msg' log' segs heq hends
    obtain ⟨mid, rfl, hrest⟩ | ⟨mid, hmid, hrest⟩ := List.append_eq_append_iff.mp heq
    · cases mid with
      | nil =>
        obtain ⟨hevent, rfl⟩ := List.cons.inj hrest
        obtain ⟨rfl, rfl⟩ := ImEvent.given.inj hevent
        rw [List.append_nil]
        exact htold segs hends
      | cons e mid =>
        obtain ⟨-, hlog'⟩ := List.cons.inj hrest
        obtain ⟨mid', content, rfl⟩ := hs.told mid b msg' log' segs hlog' hends
        exact ⟨events ++ e :: mid', content, by simp⟩
    · cases mid with
      | nil =>
        obtain ⟨hevent, rfl⟩ := List.cons.inj hrest
        obtain ⟨rfl, rfl⟩ := ImEvent.given.inj hevent
        rw [List.append_nil] at hmid
        exact hmid ▸ htold segs hends
      | cons e mid =>
        obtain ⟨rfl, -⟩ := List.cons.inj hrest
        rw [hmid] at hevents
        exact (hevents _ (List.mem_append_right _ List.mem_cons_self)).elim

/-- A message that changes nothing has been given. -/
theorem Typed.given_same {s : ImSide} (hs : Typed s) {a : Nat} {c : MwConversation} {msg : Payload}
    (hc : s.conv a = some c) (hends : ∀ segs, ¬ Ends a msg s.log segs)
    (hsame : (gathered a s.log).next (said msg) = gathered a s.log) :
    Typed (s.logged (.given a msg)) := by
  refine hs.given hc [] nofun (fun segs h => absurd h (hends segs))
    (hsame.symm ▸ hs.gathers a c hc) rfl rfl ?_
  change s.conv = Function.update s.conv a (some c)
  rw [← hc, Function.update_eq_self]

/-- A message in progress has grown, or has begun. -/
theorem Typed.given_set {s : ImSide} (hs : Typed s) {a : Nat} {c c' : MwConversation}
    {msg : Payload} (hc : s.conv a = some c) (hends : ∀ segs, ¬ Ends a msg s.log segs)
    (hgathers : Gathers ((gathered a s.log).next (said msg)) c') :
    Typed ((s.logged (.given a msg)).setConv a (some c')) :=
  hs.given hc [] nofun (fun segs h => absurd h (hends segs)) hgathers rfl rfl rfl

theorem typeOf_plain (segs : List MwImSendType) : typeOf (.plain :: segs) = typeOf segs := by
  simp [typeOf]

theorem typeOf_cons {type : MwImSendType} (h : type ≠ .plain) (segs : List MwImSendType) :
    typeOf (type :: segs) = type := by
  simp [typeOf, h]

/-- A conversation without a message in progress -/
theorem Gathers.none_iff {g : Gathered} {c : MwConversation} (h : Gathers g c) :
    c.multi = none ↔ g.current = none := by
  rw [← Option.not_isSome_iff_eq_none, ← Option.not_isSome_iff_eq_none, h.multi]

theorem Gathers.some_iff {g : Gathered} {c : MwConversation} (h : Gathers g c) {str : List UInt8}
    (hmulti : c.multi = some str) : ∃ segs, g.current = some segs := by
  rw [← Option.isSome_iff_exists, ← h.multi, hmulti]
  rfl

theorem not_ends {a : Nat} {msg : Payload} {log : List ImEvent} (h : ∀ g : Said, said msg = g →
    ¬ (g matches .multiStop)) (segs : List MwImSendType) : ¬ Ends a msg log segs :=
  fun hends => h _ rfl hends.1

/-- A segment of a message in progress, or a message of its own -/
theorem typed_segment {s : ImSide} (hs : Typed s) {a : Nat} {c : MwConversation} {msg : Payload}
    (hc : s.conv a = some c) {type : MwImSendType} (hsegment : (said msg).segment = some type)
    (c' : MwConversation) (hmulti : c'.multi.isSome)
    (htype : c'.multiType = if type = .plain then c.multiType else type) :
    (∀ str, c.multi = some str → Typed ((s.logged (.given a msg)).setConv a (some c'))) ∧
      (c.multi = none → Typed (s.logged (.given a msg))) := by
  have hg := hs.gathers a c hc
  have hends : ∀ segs, ¬ Ends a msg s.log segs := by
    refine not_ends fun g hgsaid => ?_
    rw [hgsaid] at hsegment
    cases g <;> simp_all [Said.segment]
  constructor
  · intro str hstr
    obtain ⟨segs, hsegs⟩ := hg.some_iff hstr
    have hnext : (gathered a s.log).next (said msg) =
        { gathered a s.log with current := some (type :: segs) } := by
      unfold Gathered.next
      rw [hsegs]
      cases hsaid : said msg <;> simp_all [Said.segment]
    refine hs.given_set hc hends (hnext ▸ ⟨hmulti, ?_⟩)
    rw [htype, Gathered.kept, Option.getD_some, List.cons_append]
    split
    case isTrue hplain =>
      rw [hplain, typeOf_plain, hg.multiType, Gathered.kept, hsegs, Option.getD_some]
    case isFalse hother => rw [typeOf_cons hother]
  · intro hnone
    have hcurrent := hg.none_iff.mp hnone
    refine hs.given_same hc hends ?_
    unfold Gathered.next
    rw [hcurrent]
    cases hsaid : said msg <;> simp_all [Said.segment]

theorem typed_recvLong (hh : h.Calm) {s : ImSide} (hs : Typed s) {a : Nat} {c : MwConversation}
    {msg : Payload} (hc : s.conv a = some c) {type : MwImSendType} (htype : type ≠ .plain)
    (hsegment : (said msg).segment = some type) (o : MwOpaque) :
    Typed (recvLong h a type o (s.logged (.given a msg))).2 := by
  have hconv : (s.logged (.given a msg)).conv a = some c := hc
  unfold recvLong
  rw [StateM.get_bind, hconv]
  dsimp only
  cases hmulti : c.multi with
  | none =>
    obtain ⟨-, hown⟩ := typed_segment hs hc hsegment
      { c with multi := some [], multiType := type } rfl (if_neg htype).symm
    exact (hown hmulti).calm (calm_callback hh _ _)
  | some str =>
    obtain ⟨hgrown, -⟩ := typed_segment hs hc hsegment
      { c with multi := some (str ++ o), multiType := type } rfl (if_neg htype).symm
    dsimp only
    rw [modifyConv_of_some hconv]
    exact hgrown str hmulti

theorem typed_multiStart {s : ImSide} (hs : Typed s) {a : Nat} {c : MwConversation}
    {msg : Payload} (hc : s.conv a = some c) (hsaid : said msg = .multiStart) :
    Typed (convoMultiStart a (s.logged (.given a msg))).2 := by
  have hconv : (s.logged (.given a msg)).conv a = some c := hc
  have hg := hs.gathers a c hc
  have hends : ∀ segs, ¬ Ends a msg s.log segs := not_ends fun g hg => by
    rw [hsaid] at hg
    subst hg
    simp
  unfold convoMultiStart
  rw [modifyConv_of_some hconv]
  refine hs.given_set hc hends ?_
  rw [hsaid]
  cases hmulti : c.multi with
  | none =>
    have hcurrent := hg.none_iff.mp hmulti
    rw [if_pos rfl]
    unfold Gathered.next
    rw [hcurrent]
    refine ⟨rfl, ?_⟩
    change c.multiType = typeOf ([] ++ (gathered a s.log).earlier)
    rw [hg.multiType, Gathered.kept, hcurrent, Option.getD_none]
  | some str =>
    obtain ⟨segs, hsegs⟩ := hg.some_iff hmulti
    rw [if_neg (Option.some_ne_none str)]
    unfold Gathered.next
    rw [hsegs]
    exact hg

/-- The state in which the handler is told of a message that has been gathered -/
def ImSide.told (s : ImSide) (a : Nat) (cb : ImCallback) : ImSide :=
  (s.pushed (.delivering a)).logged (.callback cb)

/-- What the handler does while a message is delivered makes no difference. -/
theorem calm_delivering (hh : h.Calm) {s : ImSide} {a : Nat} {c : MwConversation}
    (hc : s.conv a = some c) (cb : ImCallback) :
    Calm ((s.told a cb).setConv a (some { c with multi := none }))
      ((do
        within (.delivering a) (callback h cb)
        modifyConv a fun c => { c with multi := none } : ImM Unit) s).2 := by
  have hcalm : Calm (s.told a cb) (h cb (s.told a cb)).2 := hh cb _
  have hfinal : ((do
      within (.delivering a) (callback h cb)
      modifyConv a fun c => { c with multi := none } : ImM Unit) s).2 =
      (h cb (s.told a cb)).2.popped.setConv a
        (((h cb (s.told a cb)).2.conv a).map fun c => { c with multi := none }) := rfl
  rw [hfinal]
  generalize (h cb (s.told a cb)).2 = s' at hcalm ⊢
  refine ⟨hcalm.log, hcalm.nextConv, fun b d hd => ?_⟩
  by_cases hb : b = a
  · subst hb
    rw [setConv_conv_self] at hd
    obtain ⟨c', hc', rfl⟩ := Option.map_eq_some_iff.mp hd
    rcases hcalm.conv b c' hc' with ⟨c₀, hc₀, -, htype⟩ | ⟨hge, hlt, -, htype⟩
    · obtain rfl := Option.some.inj (hc.symm.trans hc₀)
      exact .inl ⟨_, setConv_conv_self .., rfl, htype⟩
    · exact .inr ⟨hge, hlt, rfl, htype⟩
  · rw [setConv_conv_of_ne _ hb] at hd
    rw [setConv_conv_of_ne _ hb]
    exact hcalm.conv b d hd

/-- A message has been ended and the handler told. -/
theorem Typed.delivered {s : ImSide} (hs : Typed s) {a : Nat} {c : MwConversation} {msg : Payload}
    (hc : s.conv a = some c) (hsaid : said msg = .multiStop) {segs : List MwImSendType}
    (hsegs : (gathered a s.log).current = some segs) (content : ImContent) :
    Typed (((s.logged (.given a msg)).told a (.recv a c.multiType content)).setConv a
      (some { c with multi := none })) := by
  have hkept : c.multiType = typeOf (segs ++ (gathered a s.log).earlier) := by
    rw [(hs.gathers a c hc).multiType, Gathered.kept, hsegs, Option.getD_some]
  refine hs.given hc [.callback (.recv a c.multiType content)] ?_ ?_ ?_ rfl rfl rfl
  · intro e he
    rw [List.mem_singleton.mp he]
    trivial
  · intro segs' hends
    obtain rfl := Option.some.inj (hsegs.symm.trans hends.2)
    exact ⟨[], content, by rw [hkept]; rfl⟩
  · rw [hsaid]
    unfold Gathered.next
    rw [hsegs]
    exact ⟨rfl, hkept⟩

theorem typed_multiStop (hh : h.Calm) {s : ImSide} (hs : Typed s) {a : Nat} {c : MwConversation}
    {msg : Payload} (hc : s.conv a = some c) (hsaid : said msg = .multiStop) :
    Typed (convoMultiStop h a (s.logged (.given a msg))).2 := by
  have hconv : (s.logged (.given a msg)).conv a = some c := hc
  have hg := hs.gathers a c hc
  unfold convoMultiStop
  rw [StateM.get_bind, hconv]
  dsimp only
  cases hmulti : c.multi with
  | none =>
    have hcurrent := hg.none_iff.mp hmulti
    refine hs.given_same hc (fun segs hends => ?_) ?_
    · exact nomatch hcurrent.symm.trans hends.2
    · rw [hsaid]
      unfold Gathered.next
      rw [hcurrent]
  | some str =>
    obtain ⟨segs, hsegs⟩ := hg.some_iff hmulti
    dsimp only
    exact (hs.delivered hc hsaid hsegs _).calm (calm_delivering hh hconv _)

theorem typed_text (hh : h.Calm) {s : ImSide} (hs : Typed s) {a : Nat} {c : MwConversation}
    {msg : Payload} (hc : s.conv a = some c) {text : CString} (hsaid : said msg = .text text) :
    Typed (hear h a (.text text) (s.logged (.given a msg))).2 := by
  have hconv : (s.logged (.given a msg)).conv a = some c := hc
  have hsegment : (said msg).segment = some .plain := by
    rw [hsaid]
    rfl
  unfold hear
  dsimp only
  rw [StateM.get_bind, hconv]
  dsimp only
  cases hmulti : c.multi with
  | none =>
    obtain ⟨-, hown⟩ := typed_segment hs hc hsegment { c with multi := some [] } rfl rfl
    exact (hown hmulti).calm (calm_callback hh _ _)
  | some str =>
    obtain ⟨hgrown, -⟩ := typed_segment hs hc hsegment
      { c with multi := some (str ++ text.val) } rfl rfl
    dsimp only
    rw [modifyConv_of_some hconv]
    exact hgrown str hmulti

/-- A message leaves conversations with what they have gathered. -/
theorem typed_recv (hh : h.Calm) {s : ImSide} (hs : Typed s) (chan : ChanRef) (msg : Payload) :
    Typed (recv h chan msg s).2 := by
  obtain ⟨hdata, -⟩ | ⟨L, a, c, -, -, hc, hdata⟩ := mwChannelGetServiceData_cases chan s
  · rw [recv_of_none hdata]
    exact hs
  have hother : said msg = .other → Typed (s.logged (.given a msg)) := by
    intro hsaid
    refine hs.given_same hc (fun segs hends => ?_) ?_
    · have hstop := hends.1
      rw [hsaid] at hstop
      exact nomatch hstop
    · rw [hsaid]
      unfold Gathered.next
      cases (gathered a s.log).current <;> rfl
  rcases recv_said hh hdata msg with heq | ⟨hsaid, hcalm⟩
  · rw [heq]
    cases hsaid : said msg with
    | text text => exact typed_text hh hs hc hsaid
    | html o =>
      have hsegment : (said msg).segment = some .html := by
        rw [hsaid]
        rfl
      exact typed_recvLong hh hs hc (by decide) hsegment o
    | mime o =>
      have hsegment : (said msg).segment = some .mime := by
        rw [hsaid]
        rfl
      exact typed_recvLong hh hs hc (by decide) hsegment o
    | multiStart => exact typed_multiStart hs hc hsaid
    | multiStop => exact typed_multiStop hh hs hc hsaid
    | other => exact hother hsaid
  · exact (hother hsaid).calm hcalm

/-! ## Runs -/

theorem typed_of_calm {α : Type} {x : ImM α} (hx : Keeps Calm x) : Keeps (Maintains Typed) x :=
  fun s hs => hs.calm (hx s)

theorem typed_flushChannel (hh : h.Calm) (chan : ChanRef) :
    Keeps (Maintains Typed) (flushChannel h chan) := by
  refine .bind .get fun s => ?_
  cases s.line? chan with
  | none => exact .pure _
  | some L =>
    refine .bind (.forM fun msg _ s hs => typed_recv hh hs chan msg) fun _ => ?_
    refine .bind (typed_of_calm (calm_modifyLine chan _)) fun _ => .bind .get fun s => ?_
    cases s.line? chan with
    | none => exact .pure _
    | some L =>
      refine .bind (.forM fun msg _ => (typed_of_calm (calm_write _)).discard) fun _ => ?_
      exact typed_of_calm (calm_modifyLine chan _)

theorem typed_sendAccept (hh : h.Calm) (c : MwConversation) (chan : ChanRef) :
    Keeps (Maintains Typed) (sendAccept h c chan) := by
  refine .bind .get fun s => .bind (typed_of_calm (calm_write _)) fun ret => ?_
  refine .ite (fun _ => ?_) fun _ => ?_
  · exact .bind (typed_of_calm (calm_modifyLine chan _)) fun _ => .pure _
  · refine .bind (typed_of_calm (calm_modifyLine chan _)) fun _ => ?_
    exact .bind (typed_flushChannel hh chan) fun _ => .pure _

theorem typed_recvChannelCreate (hh : h.Calm) (chan : ChanRef) (msg : ImCreate) :
    Keeps (Maintains Typed) (recvChannelCreate h chan msg) := by
  intro s
  unfold recvChannelCreate
  rw [StateM.get_bind]
  cases refusal s msg with
  | some reason => exact typed_of_calm (calm_mwChannelDestroy chan reason).discard s
  | none =>
    have hrest : ∀ c, Keeps (Maintains Typed) (do
        modifyLine chan fun line => { line with srvcData := some s.nextConv }
        if (← sendAccept h c chan) ≠ 0 then mwConversationFree h s.nextConv
        else convoOpened h s.nextConv : ImM Unit) := by
      intro c
      refine .bind (typed_of_calm (calm_modifyLine chan _)) fun _ => ?_
      refine .bind (typed_sendAccept hh _ chan) fun ret => .ite (fun _ => ?_) fun _ => ?_
      · exact typed_of_calm (calm_mwConversationFree hh _)
      · exact typed_of_calm (calm_convoOpened hh _)
    exact fun hs => hrest _ _ (hs.calm (.withConv rfl rfl))

theorem calm_recvChannelAccept (hh : h.Calm) (chan : ChanRef) :
    Keeps Calm (recvChannelAccept h chan) := by
  refine .bind (calm_mwChannelGetServiceData chan) fun x => ?_
  cases x with
  | none => exact (calm_mwChannelDestroy chan errFailure).discard
  | some a => exact calm_convoOpened hh a

theorem calm_recvChannelDestroy (hh : h.Calm) (chan : ChanRef) (state : MwChannelState)
    (reason : UInt32) : Keeps Calm (recvChannelDestroy h chan state reason) := by
  refine .bind (calm_mwChannelGetServiceData chan) fun x => ?_
  cases x with
  | none => exact .pure _
  | some a =>
    refine .bind .get fun s => ?_
    cases s.conv a with
    | none => exact .pure _
    | some c =>
      refine .bind (calm_modifyConv a fun _ => ⟨rfl, rfl⟩) fun _ => .ite (fun _ => ?_) fun _ => ?_
      · refine .bind (calm_record trivial) fun _ => ?_
        exact .bind (calm_modifyConv a fun _ => ⟨rfl, rfl⟩) fun _ => calm_convoCreateChan a
      · exact calm_mwConversationClose hh a reason

theorem typed_input (hh : h.Calm) (i : ImInput) : Keeps (Maintains Typed) (input h i) := by
  cases i with
  | call c => exact typed_of_calm (calm_runCall hh c)
  | create msg =>
    refine .bind (typed_of_calm (calm_mwChannelNewIncoming _)) fun chan => ?_
    have hdestroy := fun reason => typed_of_calm (calm_mwChannelDestroy chan reason).discard
    refine .ite (fun _ => hdestroy _) fun _ => .ite (fun _ => hdestroy _) fun _ => ?_
    exact typed_recvChannelCreate hh chan msg
  | accept id offered =>
    refine .bind .get fun s => ?_
    cases s.line id with
    | none => exact .pure _
    | some L =>
      refine .ite (fun _ => typed_of_calm (calm_mwChannelDestroy _ _).discard) fun _ => ?_
      refine .bind (typed_of_calm (calm_modifyLine _ _)) fun _ => ?_
      refine .bind (typed_of_calm (calm_recvChannelAccept hh _)) fun _ => .bind .get fun s => ?_
      cases s.line? ⟨id, L.addr⟩ with
      | none => exact .pure _
      | some L => exact .ite (fun _ => typed_flushChannel hh _) fun _ => .pure _
  | send id msg =>
    refine .bind .get fun s => ?_
    cases s.line id with
    | none => exact .pure _
    | some L =>
      refine .ite (fun _ s hs => typed_recv hh hs _ msg) fun _ => ?_
      exact typed_of_calm (calm_modifyLine _ _)
  | destroy id reason =>
    refine .bind .get fun s => ?_
    cases s.line id with
    | none => exact .pure _
    | some L =>
      refine .bind (typed_of_calm (calm_modifyLine _ _)) fun _ => ?_
      refine .bind (typed_of_calm (calm_within _ (calm_recvChannelDestroy hh _ _ _))) fun _ => ?_
      exact typed_of_calm (calm_setLine _ _)

theorem typed_new (placeInvite : Bool) (stat : MwUserStatus) (counter : UInt32) (ret : Nat → Int)
    (stack : UInt16) : Typed (.new placeInvite stat counter ret stack) :=
  ⟨nofun, fun _ _ => rfl, fun _ _ => rfl, fun later _ _ _ _ heq => by simp [ImSide.new] at heq⟩

theorem typed_run (client : ImClient) (n : Nat) (inputs : List ImInput) {s : ImSide}
    (hs : Typed s) : Typed (run (hooks client n) s inputs) := by
  have hkeep : Keeps (Maintains Typed) (inputs.forM (input (hooks client n))) :=
    .forM fun i _ => typed_input (calm_hooks client n) i
  exact hkeep s hs

/-! ## The type that is told -/

theorem typeOf_append (segs earlier : List MwImSendType) :
    typeOf (segs ++ earlier) =
      if ∀ type ∈ segs, type = .plain then typeOf earlier else typeOf segs := by
  induction segs with
  | nil => simp
  | cons type segs ih =>
    by_cases hplain : type = .plain
    · rw [hplain, List.cons_append, typeOf_plain, typeOf_plain, ih]
      simp
    · rw [List.cons_append, typeOf_cons hplain, typeOf_cons hplain]
      simp [hplain]

theorem typeOf_eq_plain_iff (segs : List MwImSendType) :
    typeOf segs = .plain ↔ ∀ type ∈ segs, type = .plain := by
  induction segs with
  | nil => simp [typeOf]
  | cons type segs ih =>
    by_cases hplain : type = .plain
    · rw [hplain, typeOf_plain, ih]
      simp
    · simp [typeOf_cons hplain, hplain]

/-- The type of the last segment of all is that of the message if and only if the message
has a type of its own or there was none before. -/
theorem typeOf_append_eq_iff (segs earlier : List MwImSendType) :
    typeOf (segs ++ earlier) = typeOf segs ↔
      ((∀ type ∈ segs, type = .plain) → ∀ type ∈ earlier, type = .plain) := by
  rw [typeOf_append]
  split
  case isTrue hplain =>
    rw [(typeOf_eq_plain_iff segs).mpr hplain, typeOf_eq_plain_iff]
    exact ⟨fun h _ => h, fun h => h hplain⟩
  case isFalse hother => exact iff_of_true rfl fun h => absurd h hother

theorem typesOfTheirOwn_iff {log : List ImEvent} (h : Told log) :
    TypesOfTheirOwn log ↔ TextBeforeOthers log := by
  constructor
  · intro hown later a msg log' segs heq hends
    obtain ⟨later', content, rfl⟩ := h later a msg log' segs heq hends
    rw [List.append_assoc, List.singleton_append] at heq
    exact (typeOf_append_eq_iff _ _).mp (hown later' a _ content msg log' segs heq hends)
  · intro htext later a type content msg log' segs heq hends
    have heq' : log = (later ++ [.callback (.recv a type content)]) ++ .given a msg :: log' := by
      rw [heq, List.append_assoc, List.singleton_append]
    obtain ⟨later', content', hlater⟩ := h _ a msg log' segs heq' hends
    have hevent := List.append_inj_right' hlater rfl
    simp only [List.cons.injEq, ImEvent.callback.injEq, ImCallback.recv.injEq, true_and,
      and_true] at hevent
    rw [hevent.1]
    exact (typeOf_append_eq_iff _ _).mpr (htext _ a msg log' segs heq' hends)

/-- In every run, all multi-segment messages are delivered with types of their own if and
only if no message of text alone is ended after HTML or MIME segments in earlier messages. -/
theorem run_typesOfTheirOwn_iff (client : ImClient) (n : Nat) (placeInvite : Bool)
    (stat : MwUserStatus) (counter : UInt32) (ret : Nat → Int) (stack : UInt16)
    (inputs : List ImInput) :
    TypesOfTheirOwn (run (hooks client n) (.new placeInvite stat counter ret stack) inputs).log ↔
      TextBeforeOthers
        (run (hooks client n) (.new placeInvite stat counter ret stack) inputs).log :=
  have htyped := typed_run client n inputs (typed_new placeInvite stat counter ret stack)
  typesOfTheirOwn_iff htyped.told

/-- A message in HTML, and then one of text -/
def htmlThenText : ImSide :=
  run (hooks quiet 1) (.new false {} 0 (fun _ => 0) 0)
    [.create { channel := 0x80000001, creator := {}, addtl := guint32Put 1 ++ guint32Put 1 },
     .send 0x80000001 (msgMessage, dataPayload mwImDataMultiStart 0 []),
     .send 0x80000001 (msgMessage, dataPayload mwImDataHtml 0 [120]),
     .send 0x80000001 (msgMessage, dataPayload mwImDataMultiStop 0 []),
     .send 0x80000001 (msgMessage, dataPayload mwImDataMultiStart 0 []),
     .send 0x80000001 (msgMessage, textPayload ⟨[121], by decide⟩),
     .send 0x80000001 (msgMessage, dataPayload mwImDataMultiStop 0 [])]

theorem not_typesOfTheirOwn_htmlThenText : ¬ TypesOfTheirOwn htmlThenText.log := by
  intro hown
  have hlog : htmlThenText.log =
      [] ++ .callback (.recv 0 .html (.text (some ⟨[121], by decide⟩))) ::
        .given 0 (msgMessage, dataPayload mwImDataMultiStop 0 []) :: htmlThenText.log.drop 2 := by
    decide +kernel
  have hends : Ends 0 (msgMessage, dataPayload mwImDataMultiStop 0 []) (htmlThenText.log.drop 2)
      [.plain] := ⟨by decide +kernel, by decide +kernel⟩
  exact nomatch hown [] 0 .html _ _ _ _ hlog hends

end Meanwhile.Im
