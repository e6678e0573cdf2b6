-- SUMMARY: Which messages are decoded to something that depends on what the variables of their decoders held.
import Meanwhile.Message.Announce
import Meanwhile.Common.Alike

/-!
# What is left over in the variables of the decoders

`mwMessage_get` reads into variables without a value at six places. At four of them
what they hold does not matter: the decoder gives up, or nothing more is read after it.
The count of the recipients of an announcement matters when it is not there, and so does
the word that says whether an acceptance has a cipher.
-/

namespace Meanwhile

open Get GetBuffer

/-- Two get functions that are the same on every buffer that holds together -/
def Get.Agree {α : Type} (g g' : Get α) : Prop := ∀ b : GetBuffer, b.Sound → g b = g' b

namespace Get.Agree

variable {α β : Type}

theorem bind {x : Get α} {f f' : α → Get β} (hx : x.Forward) (hf : ∀ a, Agree (f a) (f' a)) :
    Agree (x >>= f) (x >>= f') := fun b hb => hf _ _ ((hx b).sound hb)

theorem ite {p : Prop} [Decidable p] {x x' y y' : Get α} (hx : p → Agree x x')
    (hy : ¬ p → Agree y y') : Agree (if p then x else y) (if p then x' else y') := by
  split
  · exact hx ‹_›
  · exact hy ‹_›

theorem guarded {a : α} {x x' : Get α} (hx : Agree x x') :
    Agree (do if ← mwGetBufferError then return a else x)
      (do if ← mwGetBufferError then return a else x') := by
  intro b hb
  rw [mwGetBufferError_bind, mwGetBufferError_bind]
  split
  · rfl
  · exact hx b hb

end Get.Agree

/-! ## Announcements -/

/-- The fields of an announcement before its recipients -/
def announceFieldsGet : Get MwMsgAnnounce := do
  let msg : MwMsgAnnounce := {}
  let msg := { msg with senderPresent := ← gbooleanGet msg.senderPresent }
  let sender ← if msg.senderPresent then mwLoginInfoGet msg.sender else pure msg.sender
  let msg := { msg with sender := sender }
  let msg := { msg with unknownA := ← guint16Get msg.unknownA }
  let o ← mwOpaqueGet
  let (mayReply, gb) := gbooleanGet msg.mayReply (.wrapOpaque o)
  let (text, _) := mwStringGet gb
  return { msg with mayReply := mayReply, text := text }

theorem announceFieldsGet_forward : announceFieldsGet.Forward := by
  unfold announceFieldsGet
  refine Keeps.bind (Forward.gboolean _) fun _ => Keeps.ite (fun _ => ?_) fun _ => ?_
  · refine Keeps.bind (Forward.loginInfo _) fun _ => Keeps.bind (Forward.guint16 _) fun _ => ?_
    exact Keeps.bind Forward.mwOpaque fun _ => Keeps.pure _
  · refine Keeps.bind (Keeps.pure _) fun _ => Keeps.bind (Forward.guint16 _) fun _ => ?_
    exact Keeps.bind Forward.mwOpaque fun _ => Keeps.pure _

theorem announceGet_apply (u : Uninit) (b : GetBuffer) :
    announceGet u b =
      let msg := announceFieldsGet b
      let count := guint32Get u.count msg.2
      let recipients := recipientsGet count.1.toNat [] count.2
      ({ msg.1 with recipients := recipients.1 }, recipients.2) := by
  unfold announceGet announceFieldsGet
  cases hsender : (gbooleanGet false b).1 with
  | false =>
    simp only [Get.bind_apply, hsender, Bool.false_eq_true, if_false]
    rfl
  | true =>
    simp only [Get.bind_apply, hsender, if_true]
    rfl

/-! ## Acceptances -/

/-- The fields of an acceptance before what it says of the encryption -/
def acceptFieldsGet : Get MwMsgChannelAccept := do
  let msg : MwMsgChannelAccept := {}
  if ← mwGetBufferError then return msg
  let msg := { msg with service := ← guint32Get msg.service }
  let msg := { msg with protoType := ← guint32Get msg.protoType }
  let msg := { msg with protoVer := ← guint32Get msg.protoVer }
  let msg := { msg with addtl := ← mwOpaqueGet }
  let msg := { msg with acceptorFlag := ← gbooleanGet msg.acceptorFlag }
  let acceptor ← if msg.acceptorFlag then mwLoginInfoGet msg.acceptor else pure msg.acceptor
  return { msg with acceptor := acceptor }

theorem acceptFieldsGet_forward : acceptFieldsGet.Forward := by
  unfold acceptFieldsGet
  apply Forward.guarded
  refine Keeps.bind (Forward.guint32 _) fun _ => Keeps.bind (Forward.guint32 _) fun _ => ?_
  refine Keeps.bind (Forward.guint32 _) fun _ => Keeps.bind Forward.mwOpaque fun _ => ?_
  refine Keeps.bind (Forward.gboolean _) fun _ => Keeps.ite (fun _ => ?_) fun _ => ?_
  · exact Keeps.bind (Forward.loginInfo _) fun _ => Keeps.pure _
  · exact Keeps.bind (Keeps.pure _) fun _ => Keeps.pure _

theorem encAcceptGet_of_error (u : Uninit) {b : GetBuffer} (h : b.error = true) :
    encAcceptGet u b = ({}, b) := by
  unfold encAcceptGet
  rw [mwGetBufferError_bind, if_pos h]
  rfl

theorem channelAcceptGet_apply (u : Uninit) (b : GetBuffer) :
    channelAcceptGet u b =
      let msg := acceptFieldsGet b
      let enc := encAcceptGet u msg.2
      ({ msg.1 with encrypt := enc.1 }, enc.2) := by
  unfold channelAcceptGet acceptFieldsGet
  dsimp only
  rw [mwGetBufferError_bind, mwGetBufferError_bind]
  split
  · rename_i herror
    simp only [Get.pure_apply, encAcceptGet_of_error u herror]
  · simp only [Get.bind_apply]
    split <;> rfl

/-- The end of `enc_accept_get`, for the word that says how long it is -/
def acceptItemGet (enc : MwEncryptAccept) (skip : UInt32) : Get MwEncryptAccept := do
  let item ← if 6 ≤ skip then some <$> mwEncryptItemGet {} else pure enc.item
  let enc := { enc with item := item }
  if 9 ≤ skip then
    let enc := { enc with extra := ← guint16Get enc.extra }
    return { enc with flag := ← gbooleanGet enc.flag }
  else
    return enc

theorem encAcceptGet_of_ok (u : Uninit) {b : GetBuffer} (hok : b.error = false) :
    encAcceptGet u b =
      let mode := guint16Get 0 b
      let skip := guint32Get u.skip mode.2
      acceptItemGet { mode := mode.1 } skip.1 skip.2 := by
  unfold encAcceptGet
  rw [mwGetBufferError_bind, if_neg (by simp [hok])]
  rfl

theorem acceptItemGet_item (mode : UInt16) (skip : UInt32) (b : GetBuffer) :
    (acceptItemGet { mode := mode } skip b).1.item.isSome = decide (6 ≤ skip) := by
  unfold acceptItemGet
  rw [Get.ite_apply]
  split
  · rename_i hskip
    rw [Get.bind_apply]
    dsimp only
    rw [Get.ite_apply]
    split <;> exact (decide_eq_true hskip).symm
  · rename_i hskip
    rw [Get.bind_apply]
    dsimp only
    rw [Get.ite_apply]
    split <;> exact (decide_eq_false hskip).symm

/-- Whether there is a cipher is decided by the word in front of it, unless nothing is
read at all. -/
theorem encAcceptGet_eq_iff {b : GetBuffer} (hb : b.Sound) :
    (∀ u u', (encAcceptGet u b).1 = (encAcceptGet u' b).1) ↔
      (b.error = false → (guint32Get 0 (guint16Get 0 b).2).2.error = false) := by
  constructor
  · intro h hok
    by_contra herror
    have hitem : ∀ skip : UInt32,
        (encAcceptGet { skip := skip } b).1.item.isSome = decide (6 ≤ skip) := by
      intro skip
      have hbuffer := (Alike.guint32 skip 0).buffer _ (hb.guint16 0)
      have hword := guint32Get_of_error (hbuffer ▸ Bool.eq_true_of_not_eq_false herror)
      rw [encAcceptGet_of_ok _ hok]
      dsimp only
      rw [acceptItemGet_item, hword]
    have hsame := congrArg (·.item.isSome) (h { skip := 0 } { skip := 6 })
    simp only [hitem] at hsame
    exact absurd hsame (by decide)
  · intro h u u'
    cases hok : b.error with
    | true => rw [encAcceptGet_of_error u hok, encAcceptGet_of_error u' hok]
    | false =>
      have hskip (skip : UInt32) := (hb.guint16 0).guint32Get_eq skip (h hok)
      rw [encAcceptGet_of_ok u hok, encAcceptGet_of_ok u' hok]
      dsimp only
      rw [hskip u.skip, hskip u'.skip]

/-! ## Offers -/

/-- The end of `enc_offer_get`, for a count of ciphers -/
def offerItemsGet (enc : MwEncryptOffer) (count : Nat) : Get MwEncryptOffer := do
  let enc := { enc with items := ← encryptItemsGet count enc.items }
  let enc := { enc with extra := ← guint16Get enc.extra }
  return { enc with flag := ← gbooleanGet enc.flag }

theorem offerItemsGet_of_error (enc : MwEncryptOffer) (count : Nat) {b : GetBuffer}
    (h : b.error = true) : offerItemsGet enc count b = (enc, b) := by
  have hitems : encryptItemsGet count enc.items b = (enc.items, b) := by
    cases count with
    | zero => rfl
    | succ count =>
      rw [encryptItemsGet, mwGetBufferError_bind, if_pos h]
      rfl
  unfold offerItemsGet
  simp only [Get.bind_apply, hitems, Get.pure_apply]
  simp [guint16Get, gbooleanGet, h]

/-- What follows the word that says how long an offer is -/
def offerCountGet (u : Uninit) (enc : MwEncryptOffer) (skip : UInt32) : Get MwEncryptOffer := do
  if 7 ≤ skip then
    let count ← guint32Get u.count
    offerItemsGet enc count.toNat
  else
    return enc

theorem encOfferGet_apply (u : Uninit) (b : GetBuffer) :
    encOfferGet u b =
      if b.error = true then ({}, b)
      else
        let mode := guint16Get 0 b
        let skip := guint32Get u.skip mode.2
        offerCountGet u { mode := mode.1 } skip.1 skip.2 := by
  unfold encOfferGet
  rw [mwGetBufferError_bind]
  split <;> rfl

theorem offerCountGet_of_error (u : Uninit) (enc : MwEncryptOffer) (skip : UInt32) {b : GetBuffer}
    (h : b.error = true) : offerCountGet u enc skip b = (enc, b) := by
  have hcount : guint32Get u.count b = (u.count, b) := by
    unfold guint32Get
    rw [if_pos h]
  unfold offerCountGet
  rw [Get.ite_apply]
  split
  · rw [Get.bind_apply, hcount]
    exact offerItemsGet_of_error enc _ h
  · rfl

theorem offerCountGet_eq (u u' : Uninit) (enc : MwEncryptOffer) (skip : UInt32) {b : GetBuffer}
    (hb : b.Sound) : offerCountGet u enc skip b = offerCountGet u' enc skip b := by
  have hbuffer := (Alike.guint32 u.count u'.count).buffer b hb
  unfold offerCountGet
  rw [Get.ite_apply, Get.ite_apply]
  split
  · rw [Get.bind_apply, Get.bind_apply]
    cases herror : (guint32Get u.count b).2.error with
    | true =>
      rw [offerItemsGet_of_error enc _ herror, offerItemsGet_of_error enc _ (hbuffer ▸ herror),
        hbuffer]
    | false => rw [hb.guint32Get_eq u'.count herror]
  · rfl

/-- Where a word of an offer is not there, nothing follows that could depend on it. -/
theorem encOfferGet_eq (u u' : Uninit) {b : GetBuffer} (hb : b.Sound) :
    encOfferGet u b = encOfferGet u' b := by
  have hmode := hb.guint16 0
  have hbuffer := (Alike.guint32 u.skip u'.skip).buffer _ hmode
  rw [encOfferGet_apply, encOfferGet_apply]
  split
  · rfl
  · dsimp only
    cases herror : (guint32Get u.skip (guint16Get 0 b).2).2.error with
    | true =>
      rw [offerCountGet_of_error u _ _ herror, offerCountGet_of_error u' _ _ (hbuffer ▸ herror),
        hbuffer]
    | false =>
      rw [hmode.guint32Get_eq u'.skip herror]
      exact offerCountGet_eq u u' _ _ (hmode.guint32 _)

theorem channelCreateGet_eq (u u' : Uninit) {b : GetBuffer} (hb : b.Sound) :
    channelCreateGet u b = channelCreateGet u' b := by
  have henc (msg : MwMsgChannelCreate) :
      Agree (do return { msg with encrypt := ← encOfferGet u })
        (do return { msg with encrypt := ← encOfferGet u' }) := by
    intro b hb
    simp only [Get.bind_apply, encOfferGet_eq u u' hb]
  revert b
  unfold channelCreateGet
  change Agree _ _
  refine .guarded ?_
  refine .bind (.guint32 _) fun _ => .bind (.guint32 _) fun _ => .bind (.idBlock _) fun _ => ?_
  refine .bind (.guint32 _) fun _ => .bind (.guint32 _) fun _ => .bind (.guint32 _) fun _ => ?_
  refine .bind (.guint32 _) fun _ => .bind .mwOpaque fun _ => .bind (.gboolean _) fun _ => ?_
  refine .ite (fun _ => ?_) fun _ => ?_
  · exact .bind (.loginInfo _) fun _ => henc _
  · exact .bind (Keeps.pure _) fun _ => henc _

theorem loginAckGet_eq (u u' : Uninit) (b : GetBuffer) : loginAckGet u b = loginAckGet u' b := by
  have hjunk : ∀ b, (guint16Get u.junk b).2 = (guint16Get u'.junk b).2 := by
    intro b
    unfold guint16Get
    split
    · rfl
    · dsimp only
      split <;> rfl
  unfold loginAckGet
  simp only [Get.bind_apply, Get.ite_apply, hjunk]

/-! ## Messages -/

theorem mwMessageHeadGet_alike (u u' : Uninit) :
    Alike (mwMessageHeadGet u) (mwMessageHeadGet u') := by
  unfold mwMessageHeadGet
  apply Alike.guarded
  refine .bind (.guint16 _ _) fun type => .bind (.guint16 _ _) fun options => ?_
  refine .bind (.guint32 _ _) fun channel => .ite (fun _ => ?_) fun _ => ?_
  · exact .bind (.refl .mwOpaque) fun attribs => .pure _
  · exact .pure _

/-- The words are there that say how much follows. -/
def MessageWhole (b : GetBuffer) : Prop :=
  let ((type, _), b) := mwMessageHeadGet {} b
  b.error = false →
    match MwMessageType.ofCode type with
    | some .announce => (guint32Get 0 (announceFieldsGet b).2).2.error = false
    | some .channelAccept =>
        (acceptFieldsGet b).2.error = false →
          (guint32Get 0 (guint16Get 0 (acceptFieldsGet b).2).2).2.error = false
    | _ => True

theorem announceGet_eq_iff {b : GetBuffer} (hb : b.Sound) :
    (∀ u u', (announceGet u b).1 = (announceGet u' b).1) ↔
      (guint32Get 0 (announceFieldsGet b).2).2.error = false := by
  have hfields := (announceFieldsGet_forward b).sound hb
  constructor
  · intro h
    by_contra herror
    have hlength : ∀ count : UInt32,
        (announceGet { count := count } b).1.recipients.length = count.toNat := by
      intro count
      have hbuffer := (Alike.guint32 count 0).buffer _ hfields
      have hword := guint32Get_of_error (hbuffer ▸ Bool.eq_true_of_not_eq_false herror)
      rw [announceGet_apply]
      dsimp only
      rw [recipientsGet_length, hword]
      rfl
    have hsame := congrArg (·.recipients.length) (h { count := 0 } { count := 1 })
    simp only [hlength] at hsame
    exact absurd hsame (by decide)
  · intro hok u u'
    rw [announceGet_apply, announceGet_apply]
    dsimp only
    rw [hfields.guint32Get_eq u.count hok, hfields.guint32Get_eq u'.count hok]

theorem channelAcceptGet_eq_iff {b : GetBuffer} (hb : b.Sound) :
    (∀ u u', (channelAcceptGet u b).1 = (channelAcceptGet u' b).1) ↔
      ((acceptFieldsGet b).2.error = false →
        (guint32Get 0 (guint16Get 0 (acceptFieldsGet b).2).2).2.error = false) := by
  rw [← encAcceptGet_eq_iff ((acceptFieldsGet_forward b).sound hb)]
  refine forall₂_congr fun u u' => ?_
  rw [channelAcceptGet_apply, channelAcceptGet_apply]
  dsimp only
  constructor
  · intro h
    exact congrArg MwMsgChannelAccept.encrypt h
  · intro h
    rw [h]

/-- The body of a message, once its head has been read -/
theorem mwMessageGet_of_head {u : Uninit} {b b' : GetBuffer} {type : UInt16} {head : MwMessageHead}
    (hbuffer : (mwMessageHeadGet u b).2 = b')
    (hvalue : b'.error = false → (mwMessageHeadGet u b).1 = (type, head)) :
    (mwMessageGet u b).1 =
      if b'.error = true then none
      else match MwMessageType.ofCode type with
        | some type => some (mwMessageBodyGet u head type b').1
        | none => none := by
  unfold mwMessageGet
  rw [Get.bind_apply]
  generalize mwMessageHeadGet u b = r at hbuffer hvalue ⊢
  obtain ⟨⟨type', head'⟩, b''⟩ := r
  obtain rfl : b'' = b' := hbuffer
  dsimp only at hvalue ⊢
  rw [mwGetBufferError_bind]
  by_cases hok : b''.error = true
  · rw [if_pos hok, if_pos hok]
    rfl
  · obtain ⟨rfl, rfl⟩ := Prod.mk.inj (hvalue (Bool.eq_false_of_not_eq_true hok))
    rw [if_neg hok, if_neg hok]
    cases MwMessageType.ofCode type' <;> rfl

/-- A message is decoded to the same, whatever the variables held, exactly when it is
whole in this sense. -/
theorem mwMessageGet_eq_iff {b : GetBuffer} (hb : b.Sound) :
    (∀ u u', (mwMessageGet u b).1 = (mwMessageGet u' b).1) ↔ MessageWhole b := by
  unfold MessageWhole
  have hhead : ∀ u, (mwMessageHeadGet u b).2 = (mwMessageHeadGet {} b).2 ∧
      ((mwMessageHeadGet {} b).2.error = false →
        (mwMessageHeadGet u b).1 = (mwMessageHeadGet {} b).1) := by
    intro u
    have halike := mwMessageHeadGet_alike {} u
    exact ⟨(halike.buffer b hb).symm, fun hok => (halike.value b hb hok).symm⟩
  have hsound := ((mwMessageHeadGet_alike {} {}).forward b).sound hb
  generalize hr : mwMessageHeadGet {} b = r at hhead hsound
  obtain ⟨⟨type, head⟩, b'⟩ := r
  dsimp only at hhead hsound ⊢
  have hget := fun u => mwMessageGet_of_head (hhead u).1 (hhead u).2
  simp only [hget]
  cases hok : b'.error with
  | true => simp
  | false =>
    simp only [Bool.false_eq_true, if_false, forall_const]
    cases MwMessageType.ofCode type with
    | none => simp
    | some type =>
      simp only [Option.some.injEq]
      cases type with
      | announce =>
        rw [← announceGet_eq_iff hsound]
        simp only [mwMessageBodyGet, Get.bind_apply, Get.pure_apply, MwMessage.mk.injEq, true_and,
          MwMessageBody.announce.injEq]
      | channelAccept =>
        rw [← channelAcceptGet_eq_iff hsound]
        simp only [mwMessageBodyGet, Get.bind_apply, Get.pure_apply, MwMessage.mk.injEq, true_and,
          MwMessageBody.channelAccept.injEq]
      | channelCreate =>
        refine iff_of_true (fun u u' => ?_) trivial
        simp only [mwMessageBodyGet, Get.bind_apply, Get.pure_apply, channelCreateGet_eq u u' hsound]
      | loginAck =>
        refine iff_of_true (fun u u' => ?_) trivial
        simp only [mwMessageBodyGet, Get.bind_apply, Get.pure_apply, loginAckGet_eq u u']
      | _ => exact iff_of_true (fun _ _ => rfl) trivial

end Meanwhile
