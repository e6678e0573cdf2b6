-- SUMMARY: What members say to each other in a conference, from the message that is sent to what is told.
import Meanwhile.Service.ConferenceRuns

/-!
# Talk

What `mwConference_sendText` and `mwConference_sendTyping` write is what `MESSAGE_recv`
reads behind the id of the member that has sent it and a word that nobody looks at. In
every run a conversation that comes in on the channel of a conference is told word for
word (`run_talk`), but for texts that are too long for their length word.
-/

namespace Meanwhile.Conference

/-- What comes of a text on its way, whose length has 16 bits -/
def carried (what : MwString) : MwString :=
  what.bind fun s =>
    if s.val.length % 65536 = 0 then none else some (.ofBytes (s.val.take (s.val.length % 65536)))

/-- What a member says -/
inductive Utterance where
  | text (what : MwString)
  | typing (on : Bool)

namespace Utterance

def message : Utterance → Payload
  | .text what => textMessage what
  | .typing on => typingMessage on

/-- What is told of it. Nothing is told of an empty text. -/
def event (m : Nat) : Utterance → Option ConfEvent
  | .text what => (carried what).map (.text m)
  | .typing on => some (.typing m on)

end Utterance

/-- A message of a member as `MESSAGE_recv` reads it -/
structure Delivery where
  id : UInt16
  word : UInt32
  what : Utterance

namespace Delivery

def payload (d : Delivery) : Payload :=
  (d.what.message.1, guint16Put d.id ++ (guint32Put d.word ++ d.what.message.2))

/-- What is told of it, if the id is in the table -/
def event (b : Book) (a : Nat) (d : Delivery) : Option ConfEvent :=
  (b.memberFind a d.id).bind fun m => d.what.event m

end Delivery

/-! ## Messages -/

theorem mwStringGet_carried (what : MwString) (pre : List UInt8) :
    (mwStringGet (.between pre (mwStringPut what))).1 = carried what ∧
      (mwStringGet (.between pre (mwStringPut what))).2.error = false := by
  cases what with
  | none =>
    have hget := guint16Get_between 0 0 pre []
    rw [List.append_nil] at hget
    simp [mwStringGet, mwStringPut, MwString.length, carried, hget]
  | some s =>
    have hlen : (UInt16.ofNat s.val.length).toNat = s.val.length % 65536 := UInt16.toNat_ofNat'
    have hle : s.val.length % 65536 ≤ s.val.length := Nat.mod_le _ _
    have hzero : UInt16.ofNat s.val.length = 0 ↔ s.val.length % 65536 = 0 := by
      rw [← UInt16.toNat_inj, hlen]
      rfl
    simp only [mwStringGet, mwStringPut, MwString.length, GetBuffer.between_error,
      guint16Get_between, hlen, GetBuffer.between_check hle, hzero, carried, Option.bind_some]
    by_cases hnone : s.val.length % 65536 = 0
    · simp [hnone]
    · simp [hnone, GetBuffer.skip]

section

variable {b b' : Book} {a m : Nat} {pre : List UInt8}

theorem senderGet_between (id : UInt16) (word type : UInt32) (post : List UInt8) :
    senderGet (.wrapOpaque (guint16Put id ++ (guint32Put word ++ (guint32Put type ++ post)))) =
      ((id, type), .between (guint16Put id ++ guint32Put word ++ guint32Put type) post) := by
  simp [senderGet, GetBuffer.wrapOpaque_eq_between]

theorem textDeed_between (what : MwString) :
    textDeed a m (.between pre (mwStringPut what)) =
      (((carried what).map (ConfEvent.text m)).map (Deed.said a)).getD .nothing := by
  obtain ⟨hwhat, herror⟩ := mwStringGet_carried what pre
  unfold textDeed
  rw [hwhat, if_neg (Bool.eq_false_iff.mp herror)]
  cases carried what <;> rfl

theorem dataDeed_between (typing : Bool) :
    dataDeed a m (.between pre (guint32Put 1 ++ (guint32Put (if typing then 0 else 1) ++
      mwOpaquePut []))) = .said a (.typing m typing) := by
  cases typing <;> simp [dataDeed]

/-- A message of somebody who is in the table -/
theorem messageDeed_between (b : Book) (a : Nat) (id : UInt16) (word type : UInt32)
    (post : List UInt8) :
    messageDeed b a
        (.wrapOpaque (guint16Put id ++ (guint32Put word ++ (guint32Put type ++ post)))) =
      ((b.memberFind a id).map fun m =>
        let rest := GetBuffer.between (guint16Put id ++ guint32Put word ++ guint32Put type) post
        if type = 1 then textDeed a m rest
        else if type = 2 then dataDeed a m rest
        else .nothing).getD .nothing := by
  unfold messageDeed
  rw [senderGet_between, if_neg (by simp [GetBuffer.wrapOpaque])]
  cases b.memberFind a id <;> rfl

theorem messageDeed_payload (b : Book) (a : Nat) (d : Delivery) :
    messageDeed b a (.wrapOpaque d.payload.2) = ((d.event b a).map (.said a)).getD .nothing := by
  obtain ⟨id, word, what⟩ := d
  cases what with
  | text what =>
    refine (messageDeed_between b a id word 1 (mwStringPut what)).trans ?_
    unfold Delivery.event
    cases b.memberFind a id with
    | none => rfl
    | some m => exact textDeed_between what
  | typing typing =>
    -- `mwOpaque_put` writes an empty opaque at the end, which is not read
    have hassoc : (typingMessage typing).2 = guint32Put 2 ++ (guint32Put 1 ++
        (guint32Put (if typing then 0 else 1) ++ mwOpaquePut [])) := by
      simp [typingMessage]
    unfold Delivery.payload Utterance.message Delivery.event
    dsimp only
    rw [hassoc, messageDeed_between]
    cases b.memberFind a id with
    | none => rfl
    | some m =>
      rw [Option.map_some, if_neg (by decide), if_pos rfl, dataDeed_between]
      rfl

/-! ## Conversations -/

variable {s : ConfSide} {chan : Nat}

theorem deed_payload (hfind : s.confFind chan = some a) (d : Delivery) :
    deed s (.recv chan d.payload) = ((d.event s.toBook a).map (.said a)).getD .nothing := by
  obtain ⟨-, conf, hconf, -⟩ := confFind_eq_some hfind
  have hmessage : d.payload.1 = msgMessage := by
    unfold Delivery.payload
    cases d.what <;> rfl
  have hdeed : recvDeed s.toBook a conf d.payload =
      messageDeed s.toBook a (.wrapOpaque d.payload.2) := by
    unfold recvDeed
    rw [hmessage]
    rfl
  show s.aboutChan chan _ = _
  unfold Book.aboutChan
  rw [hfind]
  show s.about a _ = _
  unfold Book.about
  rw [hconf]
  exact hdeed.trans (messageDeed_payload s.toBook a d)

/-- What is said changes nothing but the log. -/
structure Listens (a : Nat) (b b' : Book) (e : Option ConfEvent) : Prop where
  conf : b'.conf = b.conf
  confs : b'.confs = b.confs
  history : b'.history a = e.toList ++ b.history a

theorem step_payload (hlisted : s.Listed) (hfind : s.confFind chan = some a) (d : Delivery) :
    Listens a s.toBook (step (.recv chan d.payload) s).2.toBook (d.event s.toBook a) := by
  rw [step_does _ s hlisted, deed_payload hfind d]
  cases d.event s.toBook a with
  | none => exact ⟨rfl, rfl, rfl⟩
  | some e => exact ⟨rfl, rfl, by simp [Book.does, Book.record, Book.history]⟩

theorem run_payloads (talk : List Delivery) (hlisted : s.Listed)
    (hfind : s.confFind chan = some a) :
    (run (talk.map fun d => .recv chan d.payload) s).history a =
      (talk.filterMap (Delivery.event s.toBook a)).reverse ++ s.history a := by
  induction talk generalizing s with
  | nil => rfl
  | cons d talk ih =>
    -- the tables stay, so that what comes later is told as it would have been now
    obtain ⟨hconf, hconfs, hhistory⟩ := step_payload hlisted hfind d
    set s' := (step (.recv chan d.payload) s).2
    have hevent : Delivery.event s'.toBook a = Delivery.event s.toBook a := by
      funext d'
      simp [Delivery.event, Book.memberFind, Book.members, hconf]
    have hlisted' : s'.Listed := by
      intro a' ha'
      rw [hconf]
      exact hlisted a' (hconfs ▸ ha')
    have hfind' : s'.confFind chan = some a := by
      rw [← hfind]
      simp [Book.confFind, hconf, hconfs]
    rw [List.map_cons]
    refine (ih hlisted' hfind').trans ?_
    rw [hevent, hhistory, List.filterMap_cons]
    cases d.event s.toBook a <;> simp

end

/-- In every run, when the messages that members of a conference send come in on its channel
one after the other, each is told as what its sender has said, in the same order, a text as
far as its length has 16 bits. Texts of which nothing is left and messages whose sender is not
in the table are not told. -/
theorem run_talk (inputs : List ConfInput) (ret : Nat → Int) (talk : List Delivery) {chan a : Nat}
    (hfind : (run inputs { ret := ret }).confFind chan = some a) :
    (run (inputs ++ talk.map fun d => .recv chan d.payload) { ret := ret }).history a =
      (talk.filterMap (Delivery.event (run inputs { ret := ret }).toBook a)).reverse ++
        (run inputs { ret := ret }).history a := by
  have hrun := Orderly.empty.run (s := { ret := ret }) inputs
  have happend : run (inputs ++ talk.map fun d => .recv chan d.payload) { ret := ret } =
      run (talk.map fun d => .recv chan d.payload) (run inputs { ret := ret }) :=
    List.foldl_append
  rw [happend]
  exact run_payloads talk hrun.toListed hfind

/-- The invited client is told of a text and of typing, but not of what a stranger says. -/
theorem run_talk_invited :
    (run ([.recvCreate (List.replicate 60 0), .recv 0 (msgJoin, List.replicate 13 0)] ++
      [Delivery.mk 0 9 (.text (some (.ofBytes [104]))), .mk 5 9 (.typing false),
        .mk 0 9 (.typing true)].map fun d => .recv 0 d.payload) {}).history 0 =
      [.typing 0 true, .text 0 (.ofBytes [104]), .peerJoined 0, .invited {} none] := by
  have hfind : (run [.recvCreate (List.replicate 60 0),
      .recv 0 (msgJoin, List.replicate 13 0)] {}).confFind 0 = some 0 := by decide
  exact (run_talk _ _ _ hfind).trans (by decide)

end Meanwhile.Conference
