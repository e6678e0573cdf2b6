-- SUMMARY: Announcements come back from the wire with their recipients in reverse, so only those that read the same both ways survive.
import Meanwhile.Message.RoundTrip

/-!
# Announcements

`ANNOUNCE_put` writes the recipients from the first to the last, and `ANNOUNCE_get`
puts each one it reads before those it has. All else of the message comes back.

A sender is part of the message when the flag for it is set, and the fields of a
full login block when the block is full.
-/

namespace Meanwhile

/-! ## What an announcement says -/

/-- The part of a login block that is put -/
def MwLoginInfo.sent (login : MwLoginInfo) : MwLoginInfo :=
  if login.full then login else { login with desc := none, ipAddr := 0, serverId := none }

structure MwLoginInfo.Fits (login : MwLoginInfo) : Prop where
  loginId : login.loginId.Fits
  userId : login.userId.Fits
  userName : login.userName.Fits
  community : login.community.Fits
  desc : login.desc.Fits
  serverId : login.serverId.Fits

/-- The strings of the announcement fit their length words. -/
structure MwMsgAnnounce.Fits (msg : MwMsgAnnounce) : Prop where
  sender : msg.sender.Fits
  text : msg.text.Fits
  recipients : ∀ r ∈ msg.recipients, MwString.Fits r

/-- The announcement with `""` and `NULL` identified, and without what its flags
leave out -/
def MwMsgAnnounce.canon (msg : MwMsgAnnounce) : MwMsgAnnounce :=
  { msg with
    sender := if msg.senderPresent then msg.sender.sent.canon else {}
    text := msg.text.canon
    recipients := msg.recipients.map MwString.canon }

theorem mwLoginInfoPut_sent (login : MwLoginInfo) :
    mwLoginInfoPut login.sent = mwLoginInfoPut login := by
  unfold MwLoginInfo.sent
  split
  case isTrue => rfl
  case isFalse hfull => simp [mwLoginInfoPut, hfull]

theorem MwLoginInfo.Fits.sent {login : MwLoginInfo} (h : login.Fits) : login.sent.Normal := by
  unfold MwLoginInfo.sent
  split
  case isTrue hfull =>
    refine ⟨h.loginId, h.userId, h.userName, h.community, h.desc, h.serverId, ?_⟩
    intro hnot
    exact absurd (hfull.symm.trans hnot) (by decide)
  case isFalse =>
    refine ⟨h.loginId, h.userId, h.userName, h.community, Nat.zero_le _, Nat.zero_le _, ?_⟩
    intro _
    exact ⟨rfl, rfl, rfl⟩

/-! ## Reading an announcement back -/

theorem recipientsGet_length (count : Nat) (acc : List MwString) (b : GetBuffer) :
    (recipientsGet count acc b).1.length = count + acc.length := by
  induction count generalizing acc b with
  | zero => simp [recipientsGet]
  | succ count ih =>
    rw [recipientsGet, Get.bind_apply, ih, List.length_cons]
    omega

-- The accumulator is what has been read so far, the latest first.
theorem recipientsGet_between {recipients : List MwString}
    (h : ∀ r ∈ recipients, MwString.Fits r) (acc : List MwString) (pre post : List UInt8) :
    recipientsGet recipients.length acc (.between pre (recipients.flatMap mwStringPut ++ post)) =
      ((recipients.map MwString.canon).reverse ++ acc,
        .between (pre ++ recipients.flatMap mwStringPut) post) := by
  induction recipients generalizing acc pre with
  | nil => simp [recipientsGet]
  | cons r recipients ih =>
    obtain ⟨hhead, htail⟩ := List.forall_mem_cons.mp h
    simp [recipientsGet, mwStringGet_between hhead, ih htail]

/-- What is put before the first recipient -/
def announceHead (msg : MwMsgAnnounce) : List UInt8 :=
  gbooleanPut msg.senderPresent ++
  ((if msg.senderPresent then mwLoginInfoPut msg.sender else []) ++
  (guint16Put msg.unknownA ++
  (mwOpaquePut (gbooleanPut msg.mayReply ++ mwStringPut msg.text) ++
  guint32Put (UInt32.ofNat msg.recipients.length))))

theorem announcePut_eq (msg : MwMsgAnnounce) :
    announcePut msg = announceHead msg ++ msg.recipients.flatMap mwStringPut := by
  simp [announcePut, announceHead]

/-- All but the recipients comes back as it was. -/
theorem announceGet_between {msg : MwMsgAnnounce} (h : msg.Fits) (u : Uninit)
    (pre post : List UInt8) :
    announceGet u (.between pre (announceHead msg ++ post)) =
      let r := recipientsGet (UInt32.ofNat msg.recipients.length).toNat []
        (.between (pre ++ announceHead msg) post)
      ({ msg.canon with recipients := r.1 }, r.2) := by
  obtain ⟨senderPresent, sender, unknownA, mayReply, text, recipients⟩ := msg
  have htext : text.Fits := h.text
  have hsender : sender.sent.Normal := MwLoginInfo.Fits.sent h.sender
  have hblock : MwOpaque.Fits (gbooleanPut mayReply ++ mwStringPut text) := by
    have hlen : (mwStringPut text).length = 2 + text.length := by
      cases text <;> simp [mwStringPut, MwString.length]
    have : text.length ≤ 65535 := htext
    simp only [MwOpaque.Fits, List.length_append, gbooleanPut_length, hlen]
    omega
  have hreply : ∀ old : Bool,
      gbooleanGet old (.wrapOpaque (gbooleanPut mayReply ++ mwStringPut text)) =
        (mayReply, .between (gbooleanPut mayReply) (mwStringPut text)) :=
    fun old => gbooleanGet_between old mayReply [] (mwStringPut text)
  have htextGet : mwStringGet (.between (gbooleanPut mayReply) (mwStringPut text)) =
      (text.canon, .between (gbooleanPut mayReply ++ mwStringPut text) []) := by
    simpa using mwStringGet_between htext (gbooleanPut mayReply) []
  cases senderPresent with
  | false =>
    simp [announceGet, announceHead, MwMsgAnnounce.canon, mwOpaqueGet_between hblock, hreply,
      htextGet]
  | true =>
    simp [announceGet, announceHead, MwMsgAnnounce.canon, mwOpaqueGet_between hblock, hreply,
      htextGet, ← mwLoginInfoPut_sent sender, mwLoginInfoGet_between hsender]

/-- The message that `mwMessage_get` makes of an announcement that was put -/
theorem mwMessageGet_announce {head : MwMessageHead} {msg : MwMsgAnnounce} (hhead : head.Normal)
    (h : msg.Fits) (u : Uninit) :
    ∃ recipients : List MwString,
      (mwMessageGet u (.wrapOpaque (mwMessagePut ⟨head, .announce msg⟩))).1 =
        some ⟨head, .announce { msg.canon with recipients := recipients }⟩ ∧
      recipients.length = msg.recipients.length % 2 ^ 32 ∧
      (msg.recipients.length < 2 ^ 32 → recipients = (msg.recipients.map MwString.canon).reverse) := by
  have hcount : (UInt32.ofNat msg.recipients.length).toNat = msg.recipients.length % 2 ^ 32 :=
    UInt32.toNat_ofNat'
  have hput : mwMessagePut ⟨head, .announce msg⟩ =
      mwMessageHeadPut .announce head ++
        (announceHead msg ++ msg.recipients.flatMap mwStringPut) := by
    rw [← announcePut_eq]
    rfl
  have hget := announceGet_between h u (mwMessageHeadPut .announce head)
    (msg.recipients.flatMap mwStringPut)
  rw [GetBuffer.wrapOpaque_eq_between, hput, mwMessageGet_between hhead]
  refine ⟨_, ?_, recipientsGet_length (UInt32.ofNat msg.recipients.length).toNat []
    (.between (mwMessageHeadPut .announce head ++ announceHead msg)
      (msg.recipients.flatMap mwStringPut)) |>.trans hcount, ?_⟩
  · simp only [mwMessageBodyGet, Get.bind_apply, Get.pure_apply]
    rw [hget]
  · intro hlt
    have hall := recipientsGet_between h.recipients []
      (mwMessageHeadPut .announce head ++ announceHead msg) []
    rw [hcount, Nat.mod_eq_of_lt hlt]
    simpa using congrArg Prod.fst hall

/-! ## The order of the recipients -/

/-- The announcement comes back as the same message. -/
def AnnounceReturns (u : Uninit) (head : MwMessageHead) (msg : MwMsgAnnounce) : Prop :=
  (mwMessageGet u (.wrapOpaque (mwMessagePut ⟨head, .announce msg⟩))).1 =
    some ⟨head, .announce msg.canon⟩

/-- An announcement comes back the same when its recipients read the same both ways,
and are counted by a word. -/
theorem announceReturns_iff {head : MwMessageHead} {msg : MwMsgAnnounce} (hhead : head.Normal)
    (h : msg.Fits) (u : Uninit) :
    AnnounceReturns u head msg ↔
      msg.recipients.length < 2 ^ 32 ∧
        (msg.recipients.map MwString.canon).reverse = msg.recipients.map MwString.canon := by
  obtain ⟨recipients, hget, hlength, hreverse⟩ := mwMessageGet_announce hhead h u
  have hreturns : AnnounceReturns u head msg ↔ recipients = msg.recipients.map MwString.canon := by
    unfold AnnounceReturns
    rw [hget]
    constructor
    · intro heq
      injection heq with heq
      injection heq with _ hbody
      injection hbody with hmsg
      exact congrArg MwMsgAnnounce.recipients hmsg
    · rintro rfl
      rfl
  rw [hreturns]
  constructor
  · intro heq
    have hlt : msg.recipients.length < 2 ^ 32 := by
      have := congrArg List.length heq
      rw [hlength, List.length_map] at this
      omega
    exact ⟨hlt, (hreverse hlt).symm.trans heq⟩
  · rintro ⟨hlt, hpalindrome⟩
    rw [hreverse hlt, hpalindrome]

/-- To `a` and then `b` -/
def announceToTwo : MwMsgAnnounce where
  recipients := [some (.ofBytes [0x61]), some (.ofBytes [0x62])]

theorem announceToTwo_fits : announceToTwo.Fits where
  sender := ⟨by decide, by decide, by decide, by decide, by decide, by decide⟩
  text := by decide
  recipients := by decide

/-- To `a`, `b`, nobody, the empty name, `b` and `a` -/
def announceThereAndBack : MwMsgAnnounce where
  mayReply := true
  recipients := [some (.ofBytes [0x61]), some (.ofBytes [0x62]), none, some (.ofBytes []),
    some (.ofBytes [0x62]), some (.ofBytes [0x61])]

/-- Recipients that read the same from both ends come back as they were, those without a
name as one on the wire. -/
theorem announceReturns_thereAndBack : AnnounceReturns {} {} announceThereAndBack := by
  refine (announceReturns_iff ⟨by decide, by decide⟩ ⟨?_, by decide, by decide⟩ {}).mpr
    ⟨by decide, by decide⟩
  exact ⟨by decide, by decide, by decide, by decide, by decide, by decide⟩

/-- Two recipients change places. -/
theorem not_announceReturns_two : ¬ AnnounceReturns {} {} announceToTwo := by
  obtain ⟨recipients, hget, -, hreverse⟩ :=
    mwMessageGet_announce (⟨by decide, by decide⟩ : MwMessageHead.Normal {}) announceToTwo_fits {}
  have hrecipients := hreverse (by decide)
  unfold AnnounceReturns
  rw [hget, hrecipients]
  decide

end Meanwhile
