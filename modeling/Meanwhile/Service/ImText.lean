-- SUMMARY: What is sent on an open conversation reaches the peer's client as the same messages in the same order.
import Meanwhile.Service.Im

/-!
# The text of a conversation

A long HTML or MIME message goes as segments between two markers. The first half
of this file says which payloads a call writes and that the caller's string is as it
was, the second what the peer is told when it is given them.
-/

namespace Meanwhile.Im

/-! ## Segments -/

/-- A string cut into segments -/
def segments (text : List UInt8) : List (List UInt8) :=
  if text = [] then []
  else text.take breakup :: segments (text.drop breakup)
termination_by text.length
decreasing_by
  rename_i htext
  have hpos := List.length_pos_of_ne_nil htext
  have hbreakup : breakup = 2048 := rfl
  simp only [List.length_drop]
  omega

theorem segments_of_ne_nil {text : List UInt8} (h : text ≠ []) :
    segments text = text.take breakup :: segments (text.drop breakup) := by
  rw [segments, if_neg h]

@[simp] theorem segments_nil : segments [] = [] := by rw [segments, if_pos rfl]

theorem segments_flatten (text : List UInt8) : (segments text).flatten = text := by
  fun_induction segments text with
  | case1 => rfl
  | case2 text _ ih => rw [List.flatten_cons, ih, List.take_append_drop]

theorem length_of_mem_segments {text seg : List UInt8} (h : seg ∈ segments text) :
    seg.length ≤ breakup := by
  fun_induction segments text with
  | case1 => simp at h
  | case2 text _ ih =>
    rcases List.mem_cons.mp h with rfl | h
    · exact List.length_take_le _ _
    · exact ih h

theorem ne_nil_of_mem_segments {text seg : List UInt8} (h : seg ∈ segments text) : seg ≠ [] := by
  fun_induction segments text with
  | case1 => simp at h
  | case2 text htext ih =>
    rcases List.mem_cons.mp h with rfl | h
    · simpa [breakup] using htext
    · exact ih h

/-! ## Payloads -/

/-- The payload of `convo_send_data` -/
def dataPayload (type subtype : UInt32) (o : MwOpaque) : MwOpaque :=
  guint32Put mwImData ++ guint32Put type ++ guint32Put subtype ++ mwOpaquePut o

/-- The payload of `convo_sendText` -/
def textPayload (text : CString) : MwOpaque := guint32Put mwImText ++ mwStringPut (some text)

/-- A call of `mwConversation_send` -/
structure Sent where
  type : MwImSendType
  typing : Bool := false
  text : CString := ⟨[], by simp⟩

/-- What a caller may send -/
def Sent.Valid (m : Sent) : Prop :=
  match m.type with
  | .plain => 1 ≤ m.text.val.length ∧ m.text.val.length ≤ 65535
  | .typing => True
  | .subject | .html | .mime => m.text.val ≠ [] ∧ m.text.val.length < 2 ^ 32
  | .timestamp => False

/-- What a message says -/
def Sent.content (m : Sent) : ImContent :=
  match m.type with
  | .typing => .flag m.typing
  | _ => .text (some m.text)

/-- The payloads of `convo_sendHtml` and `convo_sendMime` -/
def longPayloads (type : UInt32) (text : List UInt8) : List MwOpaque :=
  if text.length > breakup then
    dataPayload mwImDataMultiStart 0 [] ::
      ((segments text).map (dataPayload type 0) ++ [dataPayload mwImDataMultiStop 0 []])
  else [dataPayload type 0 text]

def Sent.payloads (m : Sent) : List MwOpaque :=
  match m.type with
  | .plain => [textPayload m.text]
  | .typing => [dataPayload mwImDataTyping (if m.typing then 0 else 1) []]
  | .subject => [dataPayload mwImDataSubject 0 m.text.val]
  | .html => longPayloads mwImDataHtml m.text.val
  | .mime => longPayloads mwImDataMime m.text.val
  | .timestamp => []

/-! ## Sending -/

/-- A conversation is open on an open channel, and all writes succeed. -/
structure Ready (a : Nat) (chan : ChanRef) (s : ImSide) : Prop where
  conv : ∃ c, s.conv a = some c ∧ c.state = .opened ∧ c.channel = some chan
  line : ∃ line, s.line? chan = some line ∧ line.state = .opened
  ret : ∀ n ≥ s.writes, s.ret n = 0

/-- The service after payloads have been written on a channel -/
def ImSide.sent (s : ImSide) (chan : ChanRef) (payloads : List MwOpaque) : ImSide :=
  { s with
    writes := s.writes + payloads.length
    wire := s.wire ++ payloads.map fun o => .send chan (msgMessage, o) }

@[simp] theorem sent_nil (s : ImSide) (chan : ChanRef) : s.sent chan [] = s := by simp [ImSide.sent]

@[simp] theorem sent_sent (s : ImSide) (chan : ChanRef) (l l' : List MwOpaque) :
    (s.sent chan l).sent chan l' = s.sent chan (l ++ l') := by
  simp [ImSide.sent, Nat.add_assoc]

@[simp] theorem sent_mem (s : ImSide) (chan : ChanRef) (l : List MwOpaque) :
    (s.sent chan l).mem = s.mem := rfl

/-- The service with another string in memory -/
def ImSide.withMem (s : ImSide) (mem : List UInt8) : ImSide := { s with mem := mem }

@[simp] theorem withMem_mem (s : ImSide) (mem : List UInt8) : (s.withMem mem).mem = mem := rfl

@[simp] theorem withMem_self (s : ImSide) : s.withMem s.mem = s := rfl

@[simp] theorem withMem_withMem (s : ImSide) (mem mem' : List UInt8) :
    (s.withMem mem).withMem mem' = s.withMem mem' := rfl

@[simp] theorem sent_withMem (s : ImSide) (mem : List UInt8) (chan : ChanRef) (l : List MwOpaque) :
    (s.withMem mem).sent chan l = (s.sent chan l).withMem mem := rfl

section

variable {a : Nat} {chan : ChanRef} {s : ImSide}

namespace Ready

theorem sent (hs : Ready a chan s) (l : List MwOpaque) : Ready a chan (s.sent chan l) where
  conv := hs.conv
  line := hs.line
  ret := fun n hn => hs.ret n (le_trans (Nat.le_add_right _ _) hn)

theorem withMem (hs : Ready a chan s) (mem : List UInt8) : Ready a chan (s.withMem mem) where
  conv := hs.conv
  line := hs.line
  ret := hs.ret

theorem mwChannelSendEncrypted (hs : Ready a chan s) (o : MwOpaque) :
    mwChannelSendEncrypted chan (msgMessage, o) s = (0, s.sent chan [o]) := by
  obtain ⟨line, hline, hstate⟩ := hs.line
  unfold Im.mwChannelSendEncrypted
  simp only [StateM.get_bind, hline, if_pos hstate]
  simp [write_apply, ImSide.written, ImSide.sent, hs.ret s.writes le_rfl]

theorem convoSendData (hs : Ready a chan s) (type subtype : UInt32) (o : MwOpaque) :
    convoSendData a type subtype o s = (0, s.sent chan [dataPayload type subtype o]) := by
  obtain ⟨c, hc, -, hchan⟩ := hs.conv
  unfold Im.convoSendData
  simp only [StateM.get_bind, hc, Option.bind_some, hchan]
  exact hs.mwChannelSendEncrypted _

theorem convoSendText (hs : Ready a chan s) {text : CString} (hmem : s.mem = text.val ++ [0]) :
    convoSendText a 0 s = (0, s.sent chan [textPayload text]) := by
  obtain ⟨c, hc, -, hchan⟩ := hs.conv
  have htext : CString.ofBytes (text.val ++ [0]) = text := by
    apply Subtype.ext
    have hne : ∀ byte ∈ text.val, decide (byte ≠ 0) = true := by
      intro byte hbyte
      simpa using fun h : byte = 0 => text.property (h ▸ hbyte)
    change (text.val ++ [0]).takeWhile (· ≠ 0) = text.val
    rw [List.takeWhile_append_of_pos hne]
    simp
  unfold Im.convoSendText
  simp only [StateM.get_bind, hc, Option.bind_some, hchan, hmem, List.drop_zero, htext]
  exact hs.mwChannelSendEncrypted _

end Ready

/-- A string in memory ends where its first zero is. -/
theorem takeWhile_text (pre post : List UInt8) {text : List UInt8} (htext : 0 ∉ text) :
    ((pre ++ (text ++ 0 :: post)).drop pre.length).takeWhile (· ≠ 0) = text := by
  have hne : ∀ byte ∈ text, decide (byte ≠ 0) = true := by
    intro byte hbyte
    simpa using fun h : byte = 0 => htext (h ▸ hbyte)
  rw [List.drop_left, List.takeWhile_append_of_pos hne]
  simp

theorem strlen_apply (pre post : List UInt8) {text : List UInt8} (htext : 0 ∉ text)
    (hmem : s.mem = pre ++ (text ++ 0 :: post)) : strlen pre.length s = (text.length, s) := by
  have h := takeWhile_text pre post htext
  rw [← hmem] at h
  change (((s.mem.drop pre.length).takeWhile (· ≠ 0)).length, s) = _
  rw [h]

theorem readMem_apply (p : Nat) (s : ImSide) : readMem p s = (s.mem.getD p 0, s) := rfl

theorem writeMem_apply (p : Nat) (byte : UInt8) (s : ImSide) :
    writeMem p byte s = ((), s.withMem (s.mem.set p byte)) := rfl

theorem convoSendLong_succ (type : UInt32) (depth p : Nat) (s : ImSide) :
    convoSendLong a type (depth + 1) p s =
      if (strlen p s).1 > breakup then convoSendSegmented a p (convoSendLong a type depth) s
      else convoSendData a type 0 ((s.mem.drop p).take (strlen p s).1) s := by
  have hs : (strlen p s).2 = s := rfl
  rw [convoSendLong, StateM.bind_apply, StateM.ite_apply, StateM.get_bind, hs]

/-- A short string goes in one payload. -/
theorem convoSendLong_short (hs : Ready a chan s) (type : UInt32) (depth : Nat)
    (pre post : List UInt8) {text : List UInt8} (htext : 0 ∉ text)
    (hmem : s.mem = pre ++ (text ++ 0 :: post)) (hshort : text.length ≤ breakup) :
    convoSendLong a type (depth + 1) pre.length s = (0, s.sent chan [dataPayload type 0 text]) := by
  have hbytes : (s.mem.drop pre.length).take text.length = text := by
    rw [hmem, List.drop_left, List.take_left]
  rw [convoSendLong_succ, strlen_apply pre post htext hmem, if_neg (Nat.not_lt.mpr hshort), hbytes]
  exact hs.convoSendData type 0 text

/-- The loop sends the segments, and leaves the string as it found it. -/
theorem sendSegments_apply (type : UInt32) (depth : Nat) (post : List UInt8) (n : Nat) :
    ∀ (s : ImSide) (pre text : List UInt8), text.length = n → Ready a chan s → 0 ∉ text →
      s.mem = pre ++ (text ++ 0 :: post) →
      sendSegments (convoSendLong a type (depth + 1)) pre.length text.length 0 s =
        (0, s.sent chan ((segments text).map (dataPayload type 0))) := by
  -- on the length of what is left; the string before `pre.length` has been sent
  induction n using Nat.strong_induction_on with
  | _ n ih =>
    intro s pre text hn hs htext hmem
    cases hnil : text with
    | nil =>
      rw [sendSegments]
      simp
    | cons byte rest =>
      rw [← hnil]
      have hne : text ≠ [] := by simp [hnil]
      have hlen : text.length ≠ 0 := by simp [hne]
      have hbreakup : breakup = 2048 := rfl
      obtain ⟨seg, hseg⟩ : ∃ seg, seg = if text.length < breakup then text.length else breakup :=
        ⟨_, rfl⟩
      have hsegLe : seg ≤ breakup ∧ seg ≤ text.length ∧ 0 < seg := by
        rw [hseg]
        split <;> omega
      -- the segment, what follows it, and the byte that is replaced
      have htake : text.take breakup = text.take seg := by
        rw [hseg]
        split
        · rw [List.take_of_length_le (by omega), List.take_of_length_le le_rfl]
        · rfl
      have hdrop : text.drop breakup = text.drop seg := by
        rw [hseg]
        split
        · rw [List.drop_eq_nil_of_le (by omega), List.drop_eq_nil_of_le le_rfl]
        · rfl
      obtain ⟨tail, after, htail⟩ : ∃ tail after, text.drop seg ++ 0 :: post = tail :: after := by
        cases text.drop seg with
        | nil => exact ⟨_, _, rfl⟩
        | cons tail rest => exact ⟨_, _, rfl⟩
      have hsplit : s.mem = (pre ++ text.take seg) ++ tail :: after := by
        rw [hmem, ← htail, List.append_assoc, ← List.append_assoc (text.take seg),
          List.take_append_drop]
      have hpos : pre.length + seg = (pre ++ text.take seg).length := by
        rw [List.length_append, List.length_take_of_le hsegLe.2.1]
      have hread : s.mem.getD (pre.length + seg) 0 = tail := by
        rw [hsplit, hpos, List.getD_append_right _ _ _ _ le_rfl]
        simp
      have hcut : s.mem.set (pre.length + seg) 0 = pre ++ (text.take seg ++ 0 :: after) := by
        rw [hsplit, hpos, List.set_append_right _ _ le_rfl]
        simp
      have hmend : (pre ++ (text.take seg ++ 0 :: after)).set (pre.length + seg) tail = s.mem := by
        rw [← List.append_assoc, hpos, List.set_append_right _ _ le_rfl, hsplit]
        simp
      have hsend := convoSendLong_short (hs.withMem (pre ++ (text.take seg ++ 0 :: after))) type
        depth pre after
        (fun h => htext (List.mem_of_mem_take h)) rfl
        ((List.length_take_le _ _).trans hsegLe.1)
      have hrest := ih (text.length - seg) (by omega)
        (s.sent chan [dataPayload type 0 (text.take seg)]) (pre ++ text.take seg) (text.drop seg)
        (List.length_drop ..) (hs.sent _) (fun h => htext (List.mem_of_mem_drop h))
        (by rw [sent_mem, hsplit, htail])
      have hstep : sendSegments (convoSendLong a type (depth + 1)) pre.length text.length 0 s =
          sendSegments (convoSendLong a type (depth + 1)) (pre.length + seg) (text.length - seg) 0
            (s.sent chan [dataPayload type 0 (text.take seg)]) := by
        rw [sendSegments, if_neg (by simp [hne])]
        simp only [← hseg, StateM.bind_apply, readMem_apply, hread, writeMem_apply, hcut, hsend,
          sent_withMem, withMem_mem, hmend, withMem_withMem]
        rfl
      rw [hstep, hpos]
      rw [List.length_drop] at hrest
      rw [hrest, sent_sent, segments_of_ne_nil hne, htake, hdrop]
      rfl

/-- A string of any length is sent, and is as it was. -/
theorem convoSendLong_apply (hs : Ready a chan s) (type : UInt32) (depth : Nat) {text : CString}
    (hmem : s.mem = text.val ++ [0]) :
    convoSendLong a type (depth + 2) 0 s = (0, s.sent chan (longPayloads type text.val)) := by
  by_cases hlong : text.val.length > breakup
  · have hstart := hs.convoSendData mwImDataMultiStart 0 []
    have hsegs := sendSegments_apply type depth [] _ _ [] _ rfl
      (hs.sent [dataPayload mwImDataMultiStart 0 []]) text.property hmem
    have hstop := (hs.sent (dataPayload mwImDataMultiStart 0 [] ::
      (segments text.val).map (dataPayload type 0))).convoSendData mwImDataMultiStop 0 []
    rw [sent_sent, List.singleton_append] at hsegs
    have hlen : strlen 0 s = (text.val.length, s) :=
      strlen_apply [] [] text.property hmem
    unfold convoSendLong
    rw [StateM.bind_apply, hlen, StateM.ite_apply, if_pos hlong]
    unfold convoSendSegmented
    rw [StateM.bind_apply, hlen, StateM.bind_apply, convoSendMultiStart, hstart, StateM.bind_apply]
    dsimp only
    rw [show (0 : Nat) = ([] : List UInt8).length from rfl, hsegs]
    dsimp only
    rw [if_pos rfl, convoSendMultiStop, hstop, sent_sent, longPayloads, if_pos hlong]
    rfl
  · rw [longPayloads, if_neg hlong]
    exact convoSendLong_short hs type (depth + 1) [] [] text.property hmem
      (Nat.not_lt.mp hlong)

theorem Ready.mwConversationSend (hs : Ready a chan s) {m : Sent} (hm : m.Valid)
    (hmem : s.mem = m.text.val ++ [0]) :
    mwConversationSend a sendDepth m.type m.typing s = (0, s.sent chan m.payloads) := by
  obtain ⟨c, hc, hopened, hchan⟩ := hs.conv
  have hopen : ¬(c.state ≠ .opened ∨ c.channel = none) := by simp [hopened, hchan]
  unfold Im.mwConversationSend
  rw [StateM.get_bind, hc]
  dsimp only
  rw [if_neg hopen]
  obtain ⟨type, typing, text⟩ := m
  cases type with
  | plain => exact hs.convoSendText hmem
  | typing => exact hs.convoSendData _ _ _
  | subject =>
    have hlen : strlen 0 s = (text.val.length, s) :=
      strlen_apply [] [] text.property hmem
    have hbytes : (s.mem.drop 0).take text.val.length = text.val := by
      rw [hmem, List.drop_zero, List.take_left]
    dsimp only
    unfold convoSendSubject
    rw [StateM.bind_apply, hlen, StateM.get_bind, hbytes]
    exact hs.convoSendData _ _ _
  | html => exact convoSendLong_apply hs mwImDataHtml 0 hmem
  | mime => exact convoSendLong_apply hs mwImDataMime 0 hmem
  | timestamp => exact absurd hm id

theorem Ready.runCall (hs : Ready a chan s) (h : ImHooks) {m : Sent} (hm : m.Valid) :
    (runCall h (.send a m.type m.typing m.text) s).2 =
      (s.sent chan m.payloads).withMem (m.text.val ++ [0]) := by
  change (Im.mwConversationSend a sendDepth m.type m.typing
    (s.withMem (m.text.val ++ [0]))).2 = _
  rw [(hs.withMem _).mwConversationSend hm rfl]
  rfl

end

/-- The calls that send messages on a conversation -/
def sends (h : ImHooks) (a : Nat) (ms : List Sent) (s : ImSide) : ImSide :=
  (ms.forM (fun m => runCall h (.send a m.type m.typing m.text)) s).2

theorem sends_append (h : ImHooks) (a : Nat) (ms ms' : List Sent) (s : ImSide) :
    sends h a (ms ++ ms') s = sends h a ms' (sends h a ms s) := by
  induction ms generalizing s with
  | nil => rfl
  | cons m ms ih => exact ih (runCall h (.send a m.type m.typing m.text) s).2

theorem Ready.sends {a : Nat} {chan : ChanRef} (h : ImHooks) {ms : List Sent}
    (hms : ∀ m ∈ ms, m.Valid) :
    ∀ {s : ImSide}, Ready a chan s → ∃ mem,
      sends h a ms s = (s.sent chan (ms.flatMap Sent.payloads)).withMem mem := by
  induction ms with
  | nil =>
    intro s _
    exact ⟨s.mem, by simp [Im.sends]⟩
  | cons m ms ih =>
    intro s hs
    have hcall := hs.runCall h (hms m List.mem_cons_self)
    obtain ⟨mem, hmem⟩ := ih (fun m hm => hms m (List.mem_cons_of_mem _ hm))
      ((hs.sent m.payloads).withMem (m.text.val ++ [0]))
    refine ⟨mem, ?_⟩
    have hrun : Im.sends h a (m :: ms) s =
        Im.sends h a ms ((s.sent chan m.payloads).withMem (m.text.val ++ [0])) := by
      rw [← hcall]
      rfl
    rw [hrun, hmem, sent_withMem, sent_sent, withMem_withMem, List.flatMap_cons]

/-- After a call the caller's string is as it was before. -/
theorem Ready.sends_mem {a : Nat} {chan : ChanRef} {s : ImSide} (hs : Ready a chan s) (h : ImHooks)
    {ms : List Sent} {m : Sent} (hms : ∀ m' ∈ ms ++ [m], m'.Valid) :
    (Im.sends h a (ms ++ [m]) s).mem = m.text.val ++ [0] := by
  have hbefore : ∀ m' ∈ ms, m'.Valid := fun m' hm' => hms m' (List.mem_append_left _ hm')
  obtain ⟨mem, hmem⟩ := Ready.sends h hbefore hs
  have hlast := ((hs.sent (ms.flatMap Sent.payloads)).withMem mem).runCall h (hms m (by simp))
  rw [sends_append, hmem]
  exact congrArg ImSide.mem hlast

/-! ## Receiving -/

/-- What the client has been told about a conversation, in order -/
def heard (b : Nat) : List ImEvent → List (MwImSendType × ImContent)
  | [] => []
  | .callback (.recv a type msg) :: log =>
      if a = b then heard b log ++ [(type, msg)] else heard b log
  | _ :: log => heard b log

/-- The handler leaves a conversation as it is and its channel to it, and tells nothing
itself. It may send messages on it. -/
structure ImHooks.Leaves (h : ImHooks) (b : Nat) (chan : ChanRef) : Prop where
  conv : ∀ cb r, (h cb r).2.conv b = r.conv b
  line : ∀ cb r, ((h cb r).2.line? chan).map (·.srvcData) = (r.line? chan).map (·.srvcData)
  heard : ∀ cb r, heard b (h cb r).2.log = heard b r.log

/-- A conversation has a channel, and is in a given condition. -/
structure Peer (b : Nat) (chan : ChanRef) (P : MwConversation → Prop) (r : ImSide) : Prop where
  line : (r.line? chan).map (·.srvcData) = some (some b)
  conv : ∃ c, r.conv b = some c ∧ P c

/-- A conversation that has got to a condition after its client was told messages -/
def Tells (b : Nat) (chan : ChanRef) (P : MwConversation → Prop)
    (told : List (MwImSendType × ImContent)) (r r' : ImSide) : Prop :=
  Peer b chan P r' ∧ heard b r'.log = heard b r.log ++ told

section

variable {h : ImHooks} {b : Nat} {chan : ChanRef} {P Q : MwConversation → Prop} {r r' r'' : ImSide}

theorem Tells.trans {told told' : List (MwImSendType × ImContent)} (hr : Tells b chan P told r r')
    (hr' : Tells b chan Q told' r' r'') : Tells b chan Q (told ++ told') r r'' :=
  ⟨hr'.1, by rw [hr'.2, hr.2, List.append_assoc]⟩

namespace Peer

theorem mono (hr : Peer b chan P r) (hPQ : ∀ c, P c → Q c) : Peer b chan Q r := by
  obtain ⟨c, hc, hP⟩ := hr.conv
  exact ⟨hr.line, c, hc, hPQ c hP⟩

theorem logged (hr : Peer b chan P r) (e : ImEvent) : Peer b chan P (r.logged e) :=
  ⟨hr.line, hr.conv⟩

theorem pushed (hr : Peer b chan P r) (f : ImFrame) : Peer b chan P (r.pushed f) :=
  ⟨hr.line, hr.conv⟩

theorem popped (hr : Peer b chan P r) : Peer b chan P r.popped := ⟨hr.line, hr.conv⟩

theorem getServiceData (hr : Peer b chan P r) :
    mwChannelGetServiceData chan r = (some b, r) := by
  obtain ⟨line, hline, hdata⟩ := Option.map_eq_some_iff.mp hr.line
  obtain ⟨c, hc, -⟩ := hr.conv
  simp [mwChannelGetServiceData, hline, hdata, hc, Option.filter_some]

theorem modifyConv (hr : Peer b chan P r) {f : MwConversation → MwConversation}
    (hf : ∀ c, P c → Q (f c)) : Tells b chan Q [] r (modifyConv b f r).2 := by
  obtain ⟨c, hc, hP⟩ := hr.conv
  refine ⟨⟨hr.line, f c, ?_, hf c hP⟩, (List.append_nil _).symm⟩
  simp [Im.modifyConv, ImSide.setConv, hc]

theorem convoRecv (hr : Peer b chan P r) (hh : h.Leaves b chan) (type : MwImSendType)
    (msg : ImContent) : Tells b chan P [(type, msg)] r (convoRecv h b type msg r).2 := by
  unfold Im.convoRecv callback
  rw [StateM.bind_apply, record_apply]
  refine ⟨⟨?_, ?_⟩, ?_⟩
  · exact (hh.line _ _).trans hr.line
  · rw [hh.conv]
    exact hr.conv
  · rw [hh.heard, ImSide.logged, heard, if_pos rfl]

/-- Payloads of `convo_send_data` are parsed as they were composed. -/
theorem recv_data (hr : Peer b chan P r) (type subtype : UInt32) {o : MwOpaque} (ho : o.Fits) :
    recv h chan (msgMessage, dataPayload type subtype o) r =
      recvDataFor h b type subtype o
        (r.logged (.given b (msgMessage, dataPayload type subtype o))) := by
  have hlogged := hr.logged (.given b (msgMessage, dataPayload type subtype o))
  have hword : guint32Get 0 (.wrapOpaque (dataPayload type subtype o)) =
      (mwImData, .between (guint32Put mwImData)
        (guint32Put type ++ (guint32Put subtype ++ (mwOpaquePut o ++ [])))) := by
    rw [GetBuffer.wrapOpaque_eq_between, dataPayload]
    simp only [List.append_assoc, guint32Get_between, List.nil_append, List.append_nil]
  have hne : mwImData ≠ mwImText := by decide
  unfold recv
  rw [StateM.bind_apply, hr.getServiceData]
  simp only [StateM.bind_apply, record_apply]
  rw [if_neg (fun hneg => hneg rfl), hword]
  dsimp only
  rw [if_neg (by simp), if_neg hne, if_pos rfl]
  unfold recvData
  simp only [Get.bind_apply, guint32Get_between, mwOpaqueGet_between ho, Get.pure_apply]
  rw [if_neg (by simp), StateM.bind_apply, hlogged.getServiceData]

/-- A data message is told of as its case of `recv_data` does. -/
theorem tells_data (hr : Peer b chan P r) (type subtype : UInt32) {o : MwOpaque} (ho : o.Fits)
    {told : List (MwImSendType × ImContent)}
    (hcase : ∀ {r : ImSide}, Peer b chan P r →
      Tells b chan Q told r (recvDataFor h b type subtype o r).2) :
    Tells b chan Q told r (recv h chan (msgMessage, dataPayload type subtype o) r).2 := by
  rw [hr.recv_data type subtype ho]
  exact hcase (hr.logged _)

end Peer

/-- No multi-segment message is in progress. -/
def Idle (c : MwConversation) : Prop := c.multi = none

/-- A multi-segment message is in progress. -/
def Gathering (str : List UInt8) (c : MwConversation) : Prop := c.multi = some str

/-- A multi-segment message of a type is in progress. -/
def GatheringType (type : MwImSendType) (str : List UInt8) (c : MwConversation) : Prop :=
  c.multi = some str ∧ c.multiType = type

theorem Peer.recv_text (hr : Peer b chan Idle r) (hh : h.Leaves b chan) {text : CString}
    (hne : text.val ≠ []) (hfits : MwString.Fits (some text)) :
    Tells b chan Idle [(.plain, .text (some text))] r
      (recv h chan (msgMessage, textPayload text) r).2 := by
  have hlogged := hr.logged (.given b (msgMessage, textPayload text))
  obtain ⟨c, hc, hidle⟩ := hlogged.conv
  have hword : guint32Get 0 (.wrapOpaque (textPayload text)) =
      (mwImText, .between (guint32Put mwImText) (mwStringPut (some text) ++ [])) := by
    rw [GetBuffer.wrapOpaque_eq_between, textPayload, guint32Get_between, List.append_nil]
    rfl
  have hstring := mwStringGet_between hfits (guint32Put mwImText) []
  unfold recv
  rw [StateM.bind_apply, hr.getServiceData]
  simp only [StateM.bind_apply, record_apply]
  rw [if_neg (fun hneg => hneg rfl), hword]
  dsimp only
  rw [if_neg (by simp), if_pos rfl]
  unfold recvText
  rw [hstring, MwString.canon, if_neg hne]
  dsimp only
  rw [StateM.bind_apply, hlogged.getServiceData]
  dsimp only
  rw [StateM.get_bind, hc]
  dsimp only
  rw [hidle]
  exact hlogged.convoRecv hh .plain _

theorem strndup_of_text {text : CString} (hne : text.val ≠ []) : strndup text.val = some text := by
  rw [strndup, if_neg hne, CString.ofBytes_val]

theorem recvLong_idle (hr : Peer b chan Idle r) (hh : h.Leaves b chan) (type : MwImSendType)
    {text : CString} (hne : text.val ≠ []) :
    Tells b chan Idle [(type, .text (some text))] r (recvLong h b type text.val r).2 := by
  obtain ⟨c, hc, hidle⟩ := hr.conv
  unfold recvLong
  rw [StateM.get_bind, hc]
  dsimp only
  rw [hidle, strndup_of_text hne]
  exact hr.convoRecv hh type _

theorem recvLong_gathering {str : List UInt8} (hr : Peer b chan (Gathering str) r)
    (type : MwImSendType) (o : MwOpaque) :
    Tells b chan (GatheringType type (str ++ o)) [] r (recvLong h b type o r).2 := by
  obtain ⟨c, hc, hmulti⟩ := hr.conv
  unfold recvLong
  rw [StateM.get_bind, hc]
  dsimp only
  rw [show c.multi = some str from hmulti]
  exact hr.modifyConv fun c _ => ⟨rfl, rfl⟩

theorem recv_multiStart (hr : Peer b chan Idle r) :
    Tells b chan (Gathering []) [] r (recvDataFor h b mwImDataMultiStart 0 [] r).2 :=
  hr.modifyConv fun c hidle => by simp [Gathering, show c.multi = none from hidle]

theorem recv_multiStop {type : MwImSendType} {text : CString}
    (hr : Peer b chan (GatheringType type text.val) r) (hh : h.Leaves b chan) :
    Tells b chan Idle [(type, .text (some text))] r
      (recvDataFor h b mwImDataMultiStop 0 [] r).2 := by
  obtain ⟨c, hc, hmulti, htype⟩ := hr.conv
  change Tells b chan Idle _ r (convoMultiStop h b r).2
  unfold convoMultiStop
  rw [StateM.get_bind, hc]
  dsimp only
  rw [hmulti, htype]
  dsimp only
  rw [CString.ofBytes_val, StateM.bind_apply, within_apply]
  have htold := (hr.pushed (.delivering b)).convoRecv hh type (.text (some text))
  have hcleared := htold.1.popped.modifyConv (Q := Idle) (f := fun c => { c with multi := none })
    fun c _ => rfl
  exact ⟨hcleared.1, hcleared.2.trans (by rw [List.append_nil]; exact htold.2)⟩

/-- Payloads given to `recv` one after another -/
def receives (h : ImHooks) (chan : ChanRef) (payloads : List MwOpaque) (r : ImSide) : ImSide :=
  (payloads.forM (fun o => recv h chan (msgMessage, o)) r).2

theorem receives_cons (o : MwOpaque) (l : List MwOpaque) (r : ImSide) :
    receives h chan (o :: l) r = receives h chan l (recv h chan (msgMessage, o) r).2 := rfl

theorem receives_append (l l' : List MwOpaque) (r : ImSide) :
    receives h chan (l ++ l') r = receives h chan l' (receives h chan l r) := by
  induction l generalizing r with
  | nil => rfl
  | cons o l ih => exact ih _

/-- How the messages of a type are told of one by one -/
def Long (h : ImHooks) (b : Nat) (type : MwImSendType) (dataType : UInt32) : Prop :=
  ∀ (r : ImSide) (o : MwOpaque), o ≠ [] →
    recvDataFor h b dataType 0 o r = recvLong h b type o r

theorem long_html (h : ImHooks) (b : Nat) : Long h b .html mwImDataHtml := by
  intro r o ho
  change (if o ≠ [] then recvLong h b .html o else pure ()) r = _
  rw [if_pos ho]

theorem long_mime (h : ImHooks) (b : Nat) : Long h b .mime mwImDataMime := fun _ _ _ => rfl

theorem fits_of_mem_segments {text seg : List UInt8} (hseg : seg ∈ segments text) :
    MwOpaque.Fits seg := by
  have hle := length_of_mem_segments hseg
  have hbreakup : breakup = 2048 := rfl
  change seg.length < 2 ^ 32
  omega

/-- The segments of a message, the first of which may still have to set the type -/
theorem receives_segments {type : MwImSendType} {dataType : UInt32} (hlong : Long h b type dataType)
    {segs : List (List UInt8)} (hne : segs ≠ [])
    (hsegs : ∀ seg ∈ segs, seg ≠ [] ∧ MwOpaque.Fits seg) :
    ∀ {r : ImSide} {str : List UInt8}, Peer b chan (Gathering str) r →
      Tells b chan (GatheringType type (str ++ segs.flatten)) [] r
        (receives h chan (segs.map (dataPayload dataType 0)) r) := by
  induction segs with
  | nil => exact absurd rfl hne
  | cons seg segs ih =>
    intro r str hr
    obtain ⟨hseg, hfits⟩ := hsegs seg List.mem_cons_self
    have hfirst := hr.tells_data (h := h) dataType 0 hfits fun hr' => by
      rw [hlong _ _ hseg]
      exact recvLong_gathering (h := h) hr' type seg
    rw [List.map_cons, receives_cons]
    by_cases hlast : segs = []
    · subst hlast
      simpa [receives] using hfirst
    · have hrest := ih hlast (fun seg hmem => hsegs seg (List.mem_cons_of_mem _ hmem))
        (hfirst.1.mono fun c hc => (hc.1 : Gathering (str ++ seg) c))
      rw [List.append_assoc] at hrest
      exact hfirst.trans hrest

theorem receives_long {type : MwImSendType} {dataType : UInt32} (hlong : Long h b type dataType)
    (hr : Peer b chan Idle r) (hh : h.Leaves b chan) {text : CString} (hne : text.val ≠ []) :
    Tells b chan Idle [(type, .text (some text))] r
      (receives h chan (longPayloads dataType text.val) r) := by
  unfold longPayloads
  split
  · have hstart := hr.tells_data (h := h) mwImDataMultiStart 0 (o := []) (by simp)
      fun hr' => recv_multiStart (h := h) hr'
    have hsegs : segments text.val ≠ [] := by
      rw [segments_of_ne_nil hne]
      exact List.cons_ne_nil _ _
    have hgathered := receives_segments hlong hsegs
      (fun seg hseg => ⟨ne_nil_of_mem_segments hseg, fits_of_mem_segments hseg⟩) hstart.1
    rw [List.nil_append, segments_flatten] at hgathered
    have hstop := hgathered.1.tells_data (h := h) mwImDataMultiStop 0 (o := []) (by simp)
      fun hr' => recv_multiStop hr' hh
    rw [receives_cons, receives_append]
    exact (hstart.trans hgathered).trans hstop
  · rename_i hshort
    have hfits : MwOpaque.Fits text.val := by
      have hbreakup : breakup = 2048 := rfl
      change text.val.length < 2 ^ 32
      omega
    exact hr.tells_data _ _ hfits fun hr' => by
      rw [hlong _ _ hne]
      exact recvLong_idle hr' hh type hne

/-- The payloads of one call tell the client of one message. -/
theorem receives_payloads {m : Sent} (hm : m.Valid) (hr : Peer b chan Idle r)
    (hh : h.Leaves b chan) :
    Tells b chan Idle [(m.type, m.content)] r (receives h chan m.payloads r) := by
  obtain ⟨type, typing, text⟩ := m
  cases type with
  | plain =>
    have hne : text.val ≠ [] := List.ne_nil_of_length_pos hm.1
    exact hr.recv_text hh hne hm.2
  | typing =>
    refine hr.tells_data _ _ (by simp) fun hr' => ?_
    have hflag := hr'.convoRecv hh .typing (.flag typing)
    cases typing with
    | false => exact hflag
    | true => exact hflag
  | subject =>
    refine hr.tells_data _ _ hm.2 fun hr' => ?_
    have hsubject := hr'.convoRecv hh .subject (.text (strndup text.val))
    rw [strndup_of_text hm.1] at hsubject
    change Tells b chan Idle _ _ (convoRecv h b .subject (.text (strndup text.val)) _).2
    rw [strndup_of_text hm.1]
    exact hsubject
  | html => exact receives_long (long_html h b) hr hh hm.1
  | mime => exact receives_long (long_mime h b) hr hh hm.1
  | timestamp => exact absurd hm id

theorem receives_sent {ms : List Sent} (hms : ∀ m ∈ ms, m.Valid) (hh : h.Leaves b chan) :
    ∀ {r : ImSide}, Peer b chan Idle r →
      Tells b chan Idle (ms.map fun m => (m.type, m.content)) r
        (receives h chan (ms.flatMap Sent.payloads) r) := by
  induction ms with
  | nil => exact fun hr => ⟨hr, (List.append_nil _).symm⟩
  | cons m ms ih =>
    intro r hr
    have hfirst := receives_payloads (h := h) (hms m List.mem_cons_self) hr hh
    have hrest := ih (fun m hm => hms m (List.mem_cons_of_mem _ hm)) hfirst.1
    rw [List.flatMap_cons, receives_append]
    exact hfirst.trans hrest

end

/-! ## The text of a conversation -/

/-- The type and the content of a data message -/
def dataOf (payload : MwOpaque) : Option (UInt32 × MwOpaque) :=
  let parsed : Get (UInt32 × UInt32 × MwOpaque) := do
    let mt ← guint32Get 0
    let type ← guint32Get 0
    let _ ← guint32Get 0
    let o ← mwOpaqueGet
    return (mt, type, o)
  let ((mt, type, o), b) := parsed (.wrapOpaque payload)
  if b.error = false ∧ mt = mwImData then some (type, o) else none

theorem dataOf_dataPayload (type subtype : UInt32) {o : MwOpaque} (ho : o.Fits) :
    dataOf (dataPayload type subtype o) = some (type, o) := by
  have hbytes : dataPayload type subtype o =
      guint32Put mwImData ++ (guint32Put type ++ (guint32Put subtype ++ (mwOpaquePut o ++ []))) := by
    simp [dataPayload]
  unfold dataOf
  rw [hbytes, GetBuffer.wrapOpaque_eq_between]
  simp only [Get.bind_apply, guint32Get_between, mwOpaqueGet_between ho, Get.pure_apply]
  simp

theorem dataOf_textPayload (text : CString) : dataOf (textPayload text) = none := by
  have hne : mwImText ≠ mwImData := by decide
  unfold dataOf textPayload
  rw [GetBuffer.wrapOpaque_eq_between]
  simp only [Get.bind_apply, guint32Get_between, Get.pure_apply]
  rw [if_neg fun h => hne h.2]

theorem length_of_mem_longPayloads {dataType type : UInt32} {text : List UInt8}
    {payload o : MwOpaque} (hmem : payload ∈ longPayloads dataType text) (hdata : dataOf payload = some (type, o)) :
    o.length ≤ breakup := by
  have hbreakup : breakup = 2048 := rfl
  unfold longPayloads at hmem
  split at hmem
  · have hcases : payload = dataPayload mwImDataMultiStart 0 [] ∨
        (∃ seg ∈ segments text, dataPayload dataType 0 seg = payload) ∨
          payload = dataPayload mwImDataMultiStop 0 [] := by
      simpa using hmem
    rcases hcases with rfl | ⟨seg, hseg, rfl⟩ | rfl
    · rw [dataOf_dataPayload _ _ (by simp)] at hdata
      simp_all
    · rw [dataOf_dataPayload _ _ (fits_of_mem_segments hseg)] at hdata
      obtain ⟨-, rfl⟩ := Prod.mk.inj (Option.some.inj hdata)
      exact length_of_mem_segments hseg
    · rw [dataOf_dataPayload _ _ (by simp)] at hdata
      simp_all
  · rename_i hshort
    rw [List.mem_singleton] at hmem
    subst hmem
    have hfits : MwOpaque.Fits text := by
      change text.length < 2 ^ 32
      omega
    rw [dataOf_dataPayload _ _ hfits] at hdata
    obtain ⟨-, rfl⟩ := Prod.mk.inj (Option.some.inj hdata)
    omega

/-- An HTML or MIME payload of a call is short. -/
theorem length_of_mem_payloads {m : Sent} (hm : m.Valid) {type : UInt32} {payload o : MwOpaque}
    (hmem : payload ∈ m.payloads) (hdata : dataOf payload = some (type, o))
    (htype : type = mwImDataHtml ∨ type = mwImDataMime) : o.length ≤ breakup := by
  obtain ⟨sendType, typing, text⟩ := m
  cases sendType with
  | plain =>
    rw [List.mem_singleton.mp hmem, dataOf_textPayload] at hdata
    cases hdata
  | typing =>
    rw [List.mem_singleton.mp hmem, dataOf_dataPayload _ _ (by simp)] at hdata
    obtain ⟨-, rfl⟩ := Prod.mk.inj (Option.some.inj hdata)
    exact Nat.zero_le _
  | subject =>
    rw [List.mem_singleton.mp hmem, dataOf_dataPayload _ _ hm.2] at hdata
    obtain ⟨rfl, -⟩ := Prod.mk.inj (Option.some.inj hdata)
    have hother : ¬(mwImDataSubject = mwImDataHtml ∨ mwImDataSubject = mwImDataMime) := by decide
    exact absurd htype hother
  | html => exact length_of_mem_longPayloads hmem hdata
  | mime => exact length_of_mem_longPayloads hmem hdata
  | timestamp => exact absurd hm id

/-- The payloads that calls on an open conversation write tell the peer's client of the
same messages in the same order. HTML and MIME payloads are short, and the string of a
call is unchanged after it. -/
theorem sends_heard (h h' : ImHooks) (a b : Nat) (chan chan' : ChanRef) (s r : ImSide)
    (ms : List Sent) (hms : ∀ m ∈ ms, m.Valid) (hs : Ready a chan s) (hr : Peer b chan' Idle r)
    (hh : h'.Leaves b chan') :
    ∃ payloads : List MwOpaque,
      (sends h a ms s).wire = s.wire ++ payloads.map (fun o => .send chan (msgMessage, o)) ∧
      heard b (receives h' chan' payloads r).log =
        heard b r.log ++ ms.map (fun m => (m.type, m.content)) ∧
      (∀ payload ∈ payloads, ∀ type o, dataOf payload = some (type, o) →
        type = mwImDataHtml ∨ type = mwImDataMime → o.length ≤ 2048) ∧
      ∀ before m after, ms = before ++ m :: after →
        (sends h a (before ++ [m]) s).mem = m.text.val ++ [0] := by
  obtain ⟨mem, hmem⟩ := Ready.sends h hms hs
  refine ⟨ms.flatMap Sent.payloads, ?_, (receives_sent hms hh hr).2, ?_, ?_⟩
  · rw [hmem]
    rfl
  · intro payload hpayload type o hdata htype
    obtain ⟨m, hm, hpayload⟩ := List.mem_flatMap.mp hpayload
    exact length_of_mem_payloads (hms m hm) hpayload hdata htype
  · rintro before m after rfl
    apply hs.sends_mem
    intro m' hm'
    apply hms
    simp only [List.mem_append, List.mem_cons, List.not_mem_nil, or_false] at hm' ⊢
    tauto

/-- A service with one conversation on an open channel, and a user who is there -/
def talking : ImSide :=
  let c : MwConversation :=
    { channel := some ⟨1, 0⟩, target := {}, state := .opened, features := mwImClientNotesbuddy }
  { stat := {}
    conv := Function.update (fun _ => none) 0 (some c)
    line := Function.update (fun _ => none) 1
      (some { addr := 0, state := .opened, srvcData := some 0 }) }

theorem ready_talking : Ready 0 ⟨1, 0⟩ talking where
  conv := ⟨_, rfl, rfl, rfl⟩
  line := ⟨_, rfl, rfl⟩
  ret := fun _ _ => rfl

theorem peer_talking : Peer 0 ⟨1, 0⟩ Idle talking where
  line := rfl
  conv := ⟨_, rfl, rfl⟩

/-- A handler that only listens -/
theorem leaves_listening (b : Nat) (chan : ChanRef) : ImHooks.Leaves (fun _ => pure ()) b chan :=
  ⟨fun _ _ => rfl, fun _ _ => rfl, fun _ _ => rfl⟩

/-- A piece of HTML and a typing flag -/
def twoMessages : List Sent :=
  [⟨.html, false, ⟨[0x61, 0x62], by decide⟩⟩, ⟨.typing, true, ⟨[], by decide⟩⟩]

theorem valid_twoMessages : ∀ m ∈ twoMessages, m.Valid := by
  intro m hm
  rcases List.mem_pair.mp hm with rfl | rfl
  · exact ⟨List.cons_ne_nil _ _, by decide⟩
  · trivial

theorem sends_heard_twoMessages :
    ∃ payloads : List MwOpaque,
      (sends (fun _ => pure ()) 0 twoMessages talking).wire =
        talking.wire ++ payloads.map (fun o => .send ⟨1, 0⟩ (msgMessage, o)) ∧
      heard 0 (receives (fun _ => pure ()) ⟨1, 0⟩ payloads talking).log =
        heard 0 talking.log ++ twoMessages.map (fun m => (m.type, m.content)) := by
  obtain ⟨payloads, hwire, hheard, -⟩ := sends_heard (fun _ => pure ()) (fun _ => pure ()) 0 0
    ⟨1, 0⟩ ⟨1, 0⟩ talking talking twoMessages valid_twoMessages ready_talking peer_talking
    (leaves_listening 0 ⟨1, 0⟩)
  exact ⟨payloads, hwire, hheard⟩

end Meanwhile.Im
