-- SUMMARY: Decoding what mwMessage_put wrote gives the message back, for every message in normal form.
import Meanwhile.Message

/-!
# Message round trip

`mwMessage_get` after `mwMessage_put`. The two are written separately for each
type, so each type has its own lemma; they all say that a decoder standing
before its own encoding consumes exactly that and restores the value.

An encryption block is the exception: `enc_offer_put` and `enc_accept_put` leave
it out when there is no item, and the decoder then takes the zeros that close
the message for its length.
-/

namespace Meanwhile

/-! ## Normal form -/

structure MwMessageHead.Normal (head : MwMessageHead) : Prop where
  attribs : head.attribs.Fits
  noAttribs : head.hasOption optionHasAttribs = false → head.attribs = []

structure MwMsgHandshake.Normal (msg : MwMsgHandshake) : Prop where
  localHost : msg.localHost.Fits
  older : ¬ (0x001e ≤ msg.major ∧ 0x001d ≤ msg.minor) →
    msg.unknownA = 0 ∧ msg.unknownB = 0 ∧ msg.localHost = none

structure MwMsgHandshakeAck.Normal (msg : MwMsgHandshakeAck) : Prop where
  data : msg.data.Fits
  older : ¬ (0x1e ≤ msg.major ∧ 0x18 < msg.minor) → msg.magic = 0 ∧ msg.data = []

structure MwMsgLogin.Normal (msg : MwMsgLogin) : Prop where
  name : msg.name.Fits
  authData : msg.authData.Fits

structure MwMsgLoginRedirect.Normal (msg : MwMsgLoginRedirect) : Prop where
  host : msg.host.Fits
  serverId : msg.serverId.Fits

structure MwEncryptOffer.Normal (enc : MwEncryptOffer) : Prop where
  block : (encOfferBlock enc).length < 2 ^ 32
  noItem : enc.items = [] → enc.extra = 0 ∧ enc.flag = false

structure MwMsgChannelCreate.Normal (msg : MwMsgChannelCreate) : Prop where
  target : msg.target.Normal
  addtl : msg.addtl.Fits
  creator : msg.creator.Normal
  noCreator : msg.creatorFlag = false → msg.creator = {}
  encrypt : msg.encrypt.Normal

structure MwEncryptAccept.Normal (enc : MwEncryptAccept) : Prop where
  block : ∀ item, enc.item = some item → (encAcceptBlock enc item).length < 2 ^ 32
  noItem : enc.item = none → enc.extra = 0 ∧ enc.flag = false

structure MwMsgChannelAccept.Normal (msg : MwMsgChannelAccept) : Prop where
  addtl : msg.addtl.Fits
  acceptor : msg.acceptor.Normal
  noAcceptor : msg.acceptorFlag = false → msg.acceptor = {}
  encrypt : msg.encrypt.Normal

/-- Normal form of the twelve types that are both put and got field by field.
Announcements are not among them, nor are the two types without a put function. -/
def MwMessageBody.Normal : MwMessageBody → Prop
  | .handshake msg => msg.Normal
  | .handshakeAck msg => msg.Normal
  | .login msg => msg.Normal
  | .loginRedirect msg => msg.Normal
  | .loginContinue => True
  | .channelCreate msg => msg.Normal
  | .channelDestroy msg => msg.data.Fits
  | .channelSend msg => msg.data.Fits
  | .channelAccept msg => msg.Normal
  | .setUserStatus status => status.desc.Fits
  | .setPrivacyList privacy => privacy.Normal
  | .senseService _ => True
  | .loginAck _ | .admin _ | .announce _ => False

structure MwMessage.Normal (msg : MwMessage) : Prop where
  head : msg.head.Normal
  body : msg.body.Normal

/-- The body with `""` and `NULL` identified and the status time forgotten. -/
def MwMessageBody.canon : MwMessageBody → MwMessageBody
  | .handshake msg => .handshake { msg with localHost := msg.localHost.canon }
  | .login msg => .login { msg with name := msg.name.canon }
  | .loginRedirect msg =>
      .loginRedirect { host := msg.host.canon, serverId := msg.serverId.canon }
  | .channelCreate msg =>
      .channelCreate { msg with target := msg.target.canon, creator := msg.creator.canon }
  | .channelAccept msg => .channelAccept { msg with acceptor := msg.acceptor.canon }
  | .setUserStatus status => .setUserStatus status.canon
  | .setPrivacyList privacy => .setPrivacyList privacy.canon
  | body => body

def MwMessage.canon (msg : MwMessage) : MwMessage := { msg with body := msg.body.canon }

/-! ## One type after the other -/

theorem mwMessageHeadGet_between {head : MwMessageHead} (h : head.Normal) (u : Uninit)
    (type : MwMessageType) (pre post : List UInt8) :
    mwMessageHeadGet u (.between pre (mwMessageHeadPut type head ++ post)) =
      ((type.code, head), .between (pre ++ mwMessageHeadPut type head) post) := by
  obtain ⟨options, channel, attribs⟩ := head
  by_cases hopt : (options &&& optionHasAttribs) = 0
  · obtain rfl : attribs = [] := h.noAttribs (by simp [MwMessageHead.hasOption, hopt])
    simp [mwMessageHeadGet, mwMessageHeadPut, MwMessageHead.hasOption, hopt]
  · have hattribs : attribs.Fits := h.attribs
    simp [mwMessageHeadGet, mwMessageHeadPut, MwMessageHead.hasOption, hopt,
      mwOpaqueGet_between hattribs]

theorem handshakeGet_between {msg : MwMsgHandshake} (h : msg.Normal) (head : MwMessageHead)
    (pre post : List UInt8) :
    handshakeGet head (.between pre (handshakePut head.channel msg ++ post)) =
      (⟨head, .handshake { msg with localHost := msg.localHost.canon }⟩,
        .between (pre ++ handshakePut head.channel msg) post) := by
  obtain ⟨major, minor, srvrcalcAddr, loginType, loclcalcAddr, unknownA, unknownB, localHost⟩ := msg
  by_cases hver : 0x001e ≤ major ∧ 0x001d ≤ minor
  · have hhost : localHost.Fits := h.localHost
    simp [handshakeGet, handshakePut, hver, mwStringGet_between hhost]
  · obtain ⟨rfl, rfl, rfl⟩ := h.older hver
    simp [handshakeGet, handshakePut, hver, MwString.canon]

theorem handshakeAckGet_between {msg : MwMsgHandshakeAck} (h : msg.Normal)
    (pre post : List UInt8) :
    handshakeAckGet (.between pre (handshakeAckPut msg ++ post)) =
      (msg, .between (pre ++ handshakeAckPut msg) post) := by
  obtain ⟨major, minor, srvrcalcAddr, magic, data⟩ := msg
  by_cases hver : 0x1e ≤ major ∧ 0x18 < minor
  · have hdata : data.Fits := h.data
    simp [handshakeAckGet, handshakeAckPut, hver, mwOpaqueGet_between hdata]
  · obtain ⟨rfl, rfl⟩ := h.older hver
    simp [handshakeAckGet, handshakeAckPut, hver]

/-- The zero word that closes a login is not read. -/
theorem loginGet_between {msg : MwMsgLogin} (h : msg.Normal) (pre post : List UInt8) :
    (loginGet (.between pre (loginPut msg ++ post))).1 = { msg with name := msg.name.canon } ∧
      (loginGet (.between pre (loginPut msg ++ post))).2.error = false := by
  simp [loginGet, loginPut, mwStringGet_between h.name, mwOpaqueGet_between h.authData]

theorem loginRedirectGet_between {msg : MwMsgLoginRedirect} (h : msg.Normal)
    (pre post : List UInt8) :
    loginRedirectGet (.between pre (loginRedirectPut msg ++ post)) =
      ({ host := msg.host.canon, serverId := msg.serverId.canon },
        .between (pre ++ loginRedirectPut msg) post) := by
  simp [loginRedirectGet, loginRedirectPut, mwStringGet_between, h.host, h.serverId]

theorem channelSendGet_between {msg : MwMsgChannelSend} (h : msg.data.Fits)
    (pre post : List UInt8) :
    channelSendGet (.between pre (channelSendPut msg ++ post)) =
      (msg, .between (pre ++ channelSendPut msg) post) := by
  simp [channelSendGet, channelSendPut, mwOpaqueGet_between h]

theorem channelDestroyGet_between {msg : MwMsgChannelDestroy} (h : msg.data.Fits)
    (pre post : List UInt8) :
    channelDestroyGet (.between pre (channelDestroyPut msg ++ post)) =
      (msg, .between (pre ++ channelDestroyPut msg) post) := by
  simp [channelDestroyGet, channelDestroyPut, mwOpaqueGet_between h]

/-! ## Encryption blocks -/

theorem encryptItemsGet_between {items : List MwEncryptItem} (h : ∀ ei ∈ items, ei.info.Fits)
    (acc : List MwEncryptItem) (pre post : List UInt8) :
    encryptItemsGet items.length acc (.between pre (items.flatMap mwEncryptItemPut ++ post)) =
      (acc ++ items, .between (pre ++ items.flatMap mwEncryptItemPut) post) := by
  induction items generalizing acc pre with
  | nil => simp [encryptItemsGet]
  | cons ei items ih =>
    have hhead : ei.info.Fits := h ei List.mem_cons_self
    have htail : ∀ e ∈ items, e.info.Fits := fun e he => h e (List.mem_cons_of_mem _ he)
    simp [encryptItemsGet, mwEncryptItemGet_between hhead, ih htail]

theorem length_mwEncryptItemPut (ei : MwEncryptItem) :
    (mwEncryptItemPut ei).length = ei.info.length + 6 := by
  simp [mwEncryptItemPut, mwOpaquePut]
  omega

/-- An item takes part in the length of the list it is rendered in. -/
theorem length_le_flatMap_mwEncryptItemPut {items : List MwEncryptItem} {ei : MwEncryptItem}
    (h : ei ∈ items) : ei.info.length + 6 ≤ (items.flatMap mwEncryptItemPut).length := by
  obtain ⟨before, after, rfl⟩ := List.append_of_mem h
  simp [length_mwEncryptItemPut]
  omega

theorem length_le_flatMap_items (items : List MwEncryptItem) :
    items.length ≤ (items.flatMap mwEncryptItemPut).length := by
  induction items with
  | nil => simp
  | cons ei items ih =>
    simp only [List.length_cons, List.flatMap_cons, List.length_append, length_mwEncryptItemPut]
    omega

theorem length_encOfferBlock (enc : MwEncryptOffer) :
    (encOfferBlock enc).length = (enc.items.flatMap mwEncryptItemPut).length + 7 := by
  simp only [encOfferBlock, List.length_append, guint32Put_length, guint16Put_length,
    gbooleanPut_length]
  omega

/-- What follows an offer begins with a zero word, which stands in for the
length of a block that was left out. -/
theorem encOfferGet_between {enc : MwEncryptOffer} (h : enc.Normal) (u : Uninit)
    (pre post : List UInt8) :
    (encOfferGet u (.between pre (encOfferPut enc ++ (guint32Put 0 ++ post)))).1 = enc ∧
      (encOfferGet u (.between pre (encOfferPut enc ++ (guint32Put 0 ++ post)))).2.error = false := by
  obtain ⟨mode, items, extra, flag⟩ := enc
  by_cases hnil : items = []
  · subst hnil
    obtain ⟨rfl, rfl⟩ := h.noItem rfl
    simp [encOfferGet, encOfferPut]
  · have hblock : (encOfferBlock ⟨mode, items, extra, flag⟩).length < 2 ^ 32 := h.block
    have hlen : (encOfferBlock ⟨mode, items, extra, flag⟩).length =
        (items.flatMap mwEncryptItemPut).length + 7 := length_encOfferBlock _
    have hskip : 7 ≤ UInt32.ofNat (encOfferBlock ⟨mode, items, extra, flag⟩).length := by
      rw [UInt32.le_iff_toNat_le, UInt32.toNat_ofNat_of_lt' hblock]
      simp [hlen]
    have hcount : (UInt32.ofNat items.length).toNat = items.length := by
      have := length_le_flatMap_items items
      exact UInt32.toNat_ofNat_of_lt' (show items.length < 2 ^ 32 by omega)
    have hitems : ∀ ei ∈ items, ei.info.Fits := by
      intro ei hei
      have := length_le_flatMap_mwEncryptItemPut hei
      simp only [MwOpaque.Fits]
      omega
    have hget := encryptItemsGet_between hitems []
    simp [encOfferGet, encOfferPut, hnil, mwOpaquePut, hskip]
    simp [encOfferBlock, hcount, hget]

theorem encAcceptGet_between {enc : MwEncryptAccept} (h : enc.Normal) (u : Uninit)
    (pre post : List UInt8) :
    (encAcceptGet u (.between pre (encAcceptPut enc ++ (guint32Put 0 ++ post)))).1 = enc ∧
      (encAcceptGet u (.between pre (encAcceptPut enc ++ (guint32Put 0 ++ post)))).2.error =
        false := by
  obtain ⟨mode, item, extra, flag⟩ := enc
  cases item with
  | none =>
    obtain ⟨rfl, rfl⟩ := h.noItem rfl
    simp [encAcceptGet, encAcceptPut]
  | some item =>
    have hblock : (encAcceptBlock ⟨mode, some item, extra, flag⟩ item).length < 2 ^ 32 :=
      h.block item rfl
    have hlen : (encAcceptBlock ⟨mode, some item, extra, flag⟩ item).length =
        item.info.length + 9 := by
      simp [encAcceptBlock, length_mwEncryptItemPut]
    have hinfo : item.info.Fits := by
      simp only [MwOpaque.Fits]
      omega
    have hskip : ∀ n : UInt32, n.toNat ≤ 9 →
        n ≤ UInt32.ofNat (encAcceptBlock ⟨mode, some item, extra, flag⟩ item).length := by
      intro n hn
      rw [UInt32.le_iff_toNat_le, UInt32.toNat_ofNat_of_lt' hblock]
      omega
    simp [encAcceptGet, encAcceptPut, mwOpaquePut, hskip 6 (by decide), hskip 9 (by decide)]
    simp [encAcceptBlock, mwEncryptItemGet_between hinfo]

theorem channelCreateGet_between {msg : MwMsgChannelCreate} (h : msg.Normal) (u : Uninit)
    (pre post : List UInt8) :
    (channelCreateGet u (.between pre (channelCreatePut msg ++ post))).1 =
        { msg with target := msg.target.canon, creator := msg.creator.canon } ∧
      (channelCreateGet u (.between pre (channelCreatePut msg ++ post))).2.error = false := by
  obtain ⟨reserved, channel, target, service, protoType, protoVer, options, addtl, creatorFlag,
    creator, encrypt⟩ := msg
  have htarget : target.Normal := h.target
  have haddtl : addtl.Fits := h.addtl
  have henc : encrypt.Normal := h.encrypt
  have hencrypt := fun pre post => encOfferGet_between henc u pre post
  cases creatorFlag with
  | false =>
    obtain rfl : creator = {} := h.noCreator rfl
    simp [channelCreateGet, channelCreatePut, channelTrailer, mwIdBlockGet_between htarget,
      mwOpaqueGet_between haddtl, hencrypt]
    decide
  | true =>
    have hcreator : creator.Normal := h.creator
    simp [channelCreateGet, channelCreatePut, channelTrailer, mwIdBlockGet_between htarget,
      mwOpaqueGet_between haddtl, mwLoginInfoGet_between hcreator, hencrypt]

theorem channelAcceptGet_between {msg : MwMsgChannelAccept} (h : msg.Normal) (u : Uninit)
    (pre post : List UInt8) :
    (channelAcceptGet u (.between pre (channelAcceptPut msg ++ post))).1 =
        { msg with acceptor := msg.acceptor.canon } ∧
      (channelAcceptGet u (.between pre (channelAcceptPut msg ++ post))).2.error = false := by
  obtain ⟨service, protoType, protoVer, addtl, acceptorFlag, acceptor, encrypt⟩ := msg
  have haddtl : addtl.Fits := h.addtl
  have henc : encrypt.Normal := h.encrypt
  have hencrypt := fun pre post => encAcceptGet_between henc u pre post
  cases acceptorFlag with
  | false =>
    obtain rfl : acceptor = {} := h.noAcceptor rfl
    simp [channelAcceptGet, channelAcceptPut, channelTrailer, mwOpaqueGet_between haddtl, hencrypt]
    decide
  | true =>
    have hacceptor : acceptor.Normal := h.acceptor
    simp [channelAcceptGet, channelAcceptPut, channelTrailer, mwOpaqueGet_between haddtl,
      mwLoginInfoGet_between hacceptor, hencrypt]

/-! ## Whole messages -/

/-- Past its own head, `mwMessage_get` is the decoder of the type put there. -/
theorem mwMessageGet_between {head : MwMessageHead} (h : head.Normal) (u : Uninit)
    (type : MwMessageType) (post : List UInt8) :
    mwMessageGet u (.between [] (mwMessageHeadPut type head ++ post)) =
      (some (mwMessageBodyGet u head type (.between (mwMessageHeadPut type head) post)).1,
        (mwMessageBodyGet u head type (.between (mwMessageHeadPut type head) post)).2) := by
  simp [mwMessageGet, mwMessageHeadGet_between h, MwMessageType.ofCode_code]

/-- `mwMessage_get` on the bytes of `mwMessage_put` gives the message back, with
the error flag clear, whatever the decoders' unassigned variables hold. -/
theorem mwMessageGet_mwMessagePut {msg : MwMessage} (h : msg.Normal) (u : Uninit) :
    (mwMessageGet u (.wrapOpaque (mwMessagePut msg))).1 = some msg.canon ∧
      (mwMessageGet u (.wrapOpaque (mwMessagePut msg))).2.error = false := by
  obtain ⟨head, body⟩ := msg
  have hbody : body.Normal := h.body
  rw [GetBuffer.wrapOpaque_eq_between, mwMessagePut, MwMessage.type, mwMessageGet_between h.head]
  generalize mwMessageHeadPut _ head = pre
  cases body with
  | handshake m =>
    have hget := handshakeGet_between hbody head pre []
    simp_all [mwMessageBodyGet, MwMessageBody.type, MwMessage.canon, MwMessageBody.canon]
  | handshakeAck m =>
    have hget := handshakeAckGet_between hbody pre []
    simp_all [mwMessageBodyGet, MwMessageBody.type, MwMessage.canon, MwMessageBody.canon]
  | login m =>
    have hget := loginGet_between hbody pre []
    simp_all [mwMessageBodyGet, MwMessageBody.type, MwMessage.canon, MwMessageBody.canon]
  | loginRedirect m =>
    have hget := loginRedirectGet_between hbody pre []
    simp_all [mwMessageBodyGet, MwMessageBody.type, MwMessage.canon, MwMessageBody.canon]
  | loginContinue =>
    simp [mwMessageBodyGet, MwMessageBody.type, MwMessage.canon, MwMessageBody.canon]
  | channelCreate m =>
    have hget := channelCreateGet_between hbody u pre []
    simp_all [mwMessageBodyGet, MwMessageBody.type, MwMessage.canon, MwMessageBody.canon]
  | channelDestroy m =>
    have hget := channelDestroyGet_between hbody pre []
    simp_all [mwMessageBodyGet, MwMessageBody.type, MwMessage.canon, MwMessageBody.canon]
  | channelSend m =>
    have hget := channelSendGet_between hbody pre []
    simp_all [mwMessageBodyGet, MwMessageBody.type, MwMessage.canon, MwMessageBody.canon]
  | channelAccept m =>
    have hget := channelAcceptGet_between hbody u pre []
    simp_all [mwMessageBodyGet, MwMessageBody.type, MwMessage.canon, MwMessageBody.canon]
  | setUserStatus status =>
    have hget := mwUserStatusGet_between hbody pre []
    simp_all [mwMessageBodyGet, MwMessageBody.type, MwMessage.canon, MwMessageBody.canon]
  | setPrivacyList privacy =>
    have hget := mwPrivacyInfoGet_between hbody pre []
    simp_all [mwMessageBodyGet, MwMessageBody.type, MwMessage.canon, MwMessageBody.canon]
  | senseService service =>
    have hget := guint32Get_between 0 service pre []
    simp_all [mwMessageBodyGet, MwMessageBody.type, MwMessage.canon, MwMessageBody.canon]
  | loginAck m => exact hbody.elim
  | admin text => exact hbody.elim
  | announce m => exact hbody.elim

theorem mwMessageGet_mwMessagePut_create :
    let msg : MwMessage :=
      { head := { options := optionHasAttribs, channel := 7, attribs := [1, 2] }
        body := .channelCreate
          { channel := 0x00000003, target := { user := some (.ofBytes [0x62, 0x6f, 0x62]) }
            service := 0x1000, addtl := [9], creatorFlag := true
            creator := { userName := some (.ofBytes []), full := true, ipAddr := 5 }
            encrypt := { mode := 0x1000, items := [{ id := 1, info := [3, 4] }], flag := true } } }
    (mwMessageGet {} (.wrapOpaque (mwMessagePut msg))).1 = some msg.canon ∧
      (mwMessageGet {} (.wrapOpaque (mwMessagePut msg))).2.error = false := by
  intro msg
  have hcreate : msg.body.Normal :=
    { target := ⟨by decide, by decide⟩
      addtl := by decide
      creator := ⟨by decide, by decide, by decide, by decide, by decide, by decide, by decide⟩
      noCreator := by decide
      encrypt := ⟨by decide, by decide⟩ }
  exact mwMessageGet_mwMessagePut ⟨⟨by decide, by decide⟩, hcreate⟩ {}

end Meanwhile
