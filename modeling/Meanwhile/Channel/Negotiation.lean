-- SUMMARY: How a channel with RC2/128 is created on one side and accepted on the other, up to where both can talk.
import Meanwhile.Channel.Talk

/-!
# Negotiation

The creator of a channel is `Prepared`, then `Waiting` and then talks. The acceptor is told
of the channel, and from then on it is `Answering`: the channel is `Announced` until it is
accepted. Each step is a law of its own, for services that do nothing but answer and send.
-/

namespace Meanwhile

/-! ## Offers and acceptances -/

/-- A message that creates a channel and offers the public key of RC2/128 -/
def IsOffer (privateKey : Nat) (srvc : UInt32) (msg : MwMsgChannelCreate) : Prop :=
  msg.service = srvc ∧ ∀ item ∈ msg.encrypt.items, item.id = MwCipherType.code .rc2_128 →
    item.info = mwDhExportKey (mwDhPublicKey privateKey)

/-- A message that accepts a channel with RC2/128 -/
def IsAcceptance (privateKey : Nat) (msg : MwMsgChannelAccept) : Prop :=
  msg.encrypt.mode ≠ 0 ∧ ∃ item, msg.encrypt.item = some item ∧
    item.id = MwCipherType.code .rc2_128 ∧ item.info = mwDhExportKey (mwDhPublicKey privateKey)

/-- An instance of RC2/128 has a key and has not been used. -/
def Keyed (key : EKey) (ci : MwCipherInstance) : Prop :=
  ∀ ci', ci = .rc2_128 ci' → ci' = ⟨key, mwIvInit, mwIvInit⟩

/-! ## The sides -/

/-- The channel of the creator, in some state -/
structure MwChannel.Offering (srvc : UInt32) (state : MwChannelState) (c : MwChannel) : Prop where
  state : c.state = state
  service : c.service = srvc
  cipher : c.cipher = none
  outgoing : c.outgoingQueue = []
  incoming : c.incomingQueue = []
  /-- RC2/128 is among the ciphers. -/
  supported : ∃ key, c.supported? (MwCipherType.code .rc2_128) =
    some (.rc2_128 ⟨key, mwIvInit, mwIvInit⟩)

/-- The creator, before it creates the channel -/
structure Prepared (privateKey : Nat) (srvc : UInt32) (chan : ChanRef) (s : MwSession) : Prop where
  equipped : s.Equipped privateKey srvc
  outgoing : mwChannelIdIsOutgoing chan.id = true
  blank : Blank chan s.trace
  channel : ∃ c, s.channel? chan = some c ∧ c.Offering srvc .init

/-- The creator, while it waits for the acceptance -/
structure Waiting (privateKey : Nat) (srvc : UInt32) (chan : ChanRef) (offer : MwMsgChannelCreate)
    (s : MwSession) : Prop where
  equipped : s.Equipped privateKey srvc
  outgoing : mwChannelIdIsOutgoing chan.id = true
  calls : callsOn chan s.trace = []
  sent : sentOn chan s.trace = [⟨{}, .channelCreate offer⟩]
  arrivals : arrivals chan s.trace = []
  handed : handed chan s.trace = []
  channel : ∃ c, s.channel? chan = some c ∧ c.Offering srvc .wait

/-- The channel of the acceptor, before it is accepted -/
structure MwChannel.Offered (srvc : UInt32) (key : EKey) (c : MwChannel) : Prop where
  state : c.state = .wait
  service : c.service = srvc
  outgoing : c.outgoingQueue = []
  incoming : c.incomingQueue = []
  keyed : ∀ ci, ci ∈ c.supported.getD [] ∨ c.cipher = some ci → Keyed key ci
  undecided : c.supported ≠ none → c.cipher = none
  policy : ∀ ci, c.cipher = some ci → c.policy = ci.type.policy

/-- The acceptor, before it accepts -/
structure Announced (privateKey : Nat) (srvc : UInt32) (key : EKey) (chan : ChanRef) (s : MwSession) :
    Prop where
  equipped : s.Equipped privateKey srvc
  incoming : mwChannelIdIsIncoming chan.id = true
  blank : Blank chan s.trace
  channel : ∃ c, s.channel? chan = some c ∧ c.Offered srvc key

/-- The acceptor, until something arrives on the channel -/
inductive Answering (privateKey : Nat) (srvc : UInt32) (key : EKey) (chan : ChanRef) (s : MwSession) :
    Prop where
  | announced (h : Announced privateKey srvc key chan s)
  | accepted {head : MwMessageHead} {msg : MwMsgChannelAccept} (hmsg : IsAcceptance privateKey msg)
      (h : Talks privateKey srvc key chan ⟨head, .channelAccept msg⟩ [] s)

/-- What is written is written well, and nothing else happens. -/
def Hooks.Writes (h : Hooks) : Prop := ∀ b s, h.ioWrite b s = (0, s)

section

variable {h : Hooks} {privateKey privateKey' : Nat} {srvc : UInt32} {key : EKey} {chan : ChanRef}
  {s : MwSession} (hio : h.Writes)

include hio

theorem Hooks.Writes.sendFor {msg : MwMessage} (hmsg : ∀ status, msg.body ≠ .setUserStatus status) :
    sendFor h chan msg s = (0, s.sent chan msg) := by
  rw [Meanwhile.sendFor, record_bind, mwSessionSend_of_ne h hmsg, hio]
  rfl

/-! ## Creating -/

omit hio in
theorem offerItems_info (hs : s.Equipped privateKey srvc) (supported : List MwCipherInstance) :
    ∀ item ∈ offerItems s supported, item.id = MwCipherType.code .rc2_128 →
      item.info = mwDhExportKey (mwDhPublicKey privateKey) := by
  intro item hitem hid
  obtain ⟨ci, -, hci⟩ := List.mem_filterMap.mp hitem
  obtain ⟨cipher, hcipher, rfl⟩ := Option.map_eq_some_iff.mp hci
  have hcode : cipher.type.code = ci.type.code := by simpa using List.find?_some hcipher
  have htype : (mwCipherInstanceOffer cipher).id = cipher.type.code := by
    cases cipher <;> rfl
  rw [← hcode, ← htype, hid, hs.cipher] at hcipher
  obtain rfl := Option.some.inj hcipher
  rfl

omit hio in
theorem createMessage_offer (s : MwSession) (id : UInt32) (c : MwChannel) :
    ∃ offer, createMessage s id c = ⟨{}, .channelCreate offer⟩ ∧ offer.service = c.service ∧
      offer.encrypt.items = offerItems s (c.supported.getD []) :=
  ⟨_, rfl, rfl, rfl⟩

theorem create_waiting (hs : Prepared privateKey srvc chan s) :
    ∃ offer, IsOffer privateKey srvc offer ∧
      Waiting privateKey srvc chan offer (mwChannelCreate h chan s).2 := by
  obtain ⟨hequipped, hid, hblank, c, hc, hoffering⟩ := hs
  have hgo : ¬ (c.state ≠ .init ∨ mwChannelIdIsIncoming chan.id = true) := by
    simp [hoffering.state, mwChannelIdIsIncoming, hid]
  set s1 := s.setChannel chan.id (some c.offering) with hs1
  set msg := createMessage s1 chan.id c.offering with hmsg
  have hlive1 : s1.channel? chan = some c.offering := channel?_setChannel_self hc _ rfl
  have hlive : (s1.sent chan msg).channel? chan = some c.offering := hlive1
  have hrun : (mwChannelCreate h chan s).2 = (s1.sent chan msg).withState chan c.offering .wait := by
    rw [mwChannelCreate, Session.bind_apply, deref_of_some hc]
    dsimp only
    rw [if_neg hgo, Session.bind_apply, updateChannel_of_some hc]
    change (Prod.snd ((do
      let ret ← Meanwhile.sendFor h chan msg
      setChannelState chan (if ret ≠ 0 then .error else .wait)
      return ret : Session Int) s1)) = _
    rw [Session.bind_apply, hio.sendFor (by simp [hmsg, createMessage]), Session.bind_apply,
      setChannelState_of_some hlive]
    rfl
  have hstate : c.offering.state ≠ .wait := by
    rw [show c.offering.state = c.state from rfl, hoffering.state]
    decide
  obtain ⟨offer, hoffer, hservice, hitems⟩ := createMessage_offer s1 chan.id c.offering
  have hinfo := offerItems_info (hequipped.setChannel chan.id (some c.offering)) (c.supported.getD [])
  have hsent : msg = ⟨{}, .channelCreate offer⟩ := hoffer
  have htrace : s1.trace = s.trace := rfl
  rw [hrun, MwSession.withState, if_neg hstate]
  refine ⟨offer, ⟨hservice.trans hoffering.service, by rwa [hitems]⟩,
    (((hequipped.setChannel _ _).sent _ _).setChannel _ _).log _, hid, ?_, ?_, ?_, ?_,
    { c.offering with state := .wait }, channel?_setChannel_self hlive _ rfl, ?_⟩
  · simpa [MwSession.log, MwSession.setChannel, MwSession.sent, htrace, Event.call?] using hblank.calls
  · simp [MwSession.log, MwSession.setChannel, MwSession.sent, htrace, Event.sent?, hblank.sent, hsent]
  · simpa [MwSession.log, MwSession.setChannel, MwSession.sent, htrace, Event.arrived?] using hblank.arrivals
  · simpa [MwSession.log, MwSession.setChannel, MwSession.sent, htrace, Event.handed?] using hblank.handed
  · exact ⟨rfl, hoffering.service, hoffering.cipher, hoffering.outgoing, hoffering.incoming,
      hoffering.supported⟩

omit hio

/-! ## Being offered -/

theorem cipher?_updateCipher {cipher c0 : MwCipher} {id : UInt16} (h0 : s.cipher? id = some c0) :
    (updateCipher cipher s).2.cipher? id = some (if c0.type = cipher.type then cipher else c0) := by
  have hcode (c : MwCipher) : (if c.type = cipher.type then cipher else c).type = c.type := by
    split
    · rename_i htype
      exact htype.symm
    · rfl
  have hcomp : ((fun c : MwCipher => decide (c.type.code = id)) ∘ fun c : MwCipher =>
      if c.type = cipher.type then cipher else c) = fun c => decide (c.type.code = id) := by
    funext c
    simp only [Function.comp_apply, hcode]
  rw [MwSession.cipher?] at h0
  rw [updateCipher, Session.modify_apply, MwSession.cipher?, List.find?_map, hcomp, h0]
  rfl

/-- What the instances gathered so far are like while the offered ciphers are gone through -/
structure Gathers (privateKey : Nat) (srvc : UInt32) (key : EKey) (chan : ChanRef) (c : MwChannel)
    (t : List Event) (s : MwSession) : Prop where
  equipped : s.Equipped privateKey srvc
  told : (s.service? srvc).any (·.hasRecvCreate) = true
  trace : s.trace = t
  channel : ∃ l, s.channel? chan = some { c with supported := some l } ∧ ∀ ci ∈ l, Keyed key ci

theorem Gathers.put {c : MwChannel} {t : List Event} (hs : Gathers privateKey srvc key chan c t s)
    {ci : MwCipherInstance} (hci : Keyed key ci) :
    Gathers privateKey srvc key chan c t (putSupported chan ci s).2 := by
  obtain ⟨hequipped, htold, htrace, l, hc, hl⟩ := hs
  rw [putSupported, updateChannel_of_some hc]
  refine ⟨hequipped.setChannel _ _, htold, htrace, _, channel?_setChannel_self hc _ rfl, ?_⟩
  intro ci' hci'
  obtain hci' | rfl := mem_putInstance hci'
  · exact hl ci' hci'
  · exact hci

theorem Gathers.updateCipher {c : MwChannel} {t : List Event} {cipher : MwCipher}
    (hs : Gathers privateKey srvc key chan c t s)
    (hcipher : cipher.type = .rc2_128 → cipher = mwCipherNewRc2_128 privateKey) :
    Gathers privateKey srvc key chan c t (updateCipher cipher s).2 := by
  obtain ⟨hequipped, htold, htrace, hchannel⟩ := hs
  refine ⟨⟨?_, hequipped.service⟩, htold, htrace, hchannel⟩
  rw [cipher?_updateCipher hequipped.cipher]
  split
  · rename_i htype
    rw [hcipher htype.symm]
  · rfl

theorem newInstance_rc2_40 {login : MwLoginInfo} {c : MwCipherRc2_40} {p : MwCipher × MwCipherInstance}
    (h : mwCipherNewInstance login (.rc2_40 c) = some p) : ∃ c' ci, p = (.rc2_40 c', .rc2_40 ci) := by
  rw [mwCipherNewInstance] at h
  split at h
  · exact ⟨_, _, (Option.some.inj h).symm⟩
  · obtain ⟨sessionKey, -, h⟩ := Option.bind_eq_some_iff.mp h
    exact ⟨_, _, (Option.some.inj h).symm⟩

theorem offeredCipher_gathers {c : MwChannel} {t : List Event} {item : MwEncryptItem}
    (hagree : AgreedKey privateKey privateKey' key)
    (hitem : item.id = MwCipherType.code .rc2_128 → item.info = mwDhExportKey (mwDhPublicKey privateKey'))
    (hs : Gathers privateKey srvc key chan c t s) :
    Gathers privateKey srvc key chan c t (offeredCipher chan item s).2 := by
  rw [offeredCipher, Session.get_bind]
  cases hcipher : s.cipher? item.id with
  | none => exact hs
  | some cipher =>
    dsimp only
    have hcode : cipher.type.code = item.id := by simpa using List.find?_some hcipher
    rw [Session.bind_apply, newInstance, Session.get_bind]
    cases cipher with
    | rc2_128 c0 =>
      have hid : item.id = MwCipherType.code .rc2_128 := hcode.symm
      rw [hid, hs.equipped.cipher] at hcipher
      obtain rfl : { privateKey := privateKey, publicKey := mwDhExportKey (mwDhPublicKey privateKey) } = c0 :=
        MwCipher.rc2_128.inj (Option.some.inj hcipher)
      have hoffered := offeredRc2_128_agree hagree
        (c := ⟨privateKey, mwDhExportKey (mwDhPublicKey privateKey)⟩) rfl {} (hitem hid)
      have hupdated : Gathers privateKey srvc key chan c t
          (updateCipher (mwCipherNewRc2_128 privateKey) s).2 := hs.updateCipher fun _ => rfl
      simp only [mwCipherNewInstance, mwCipherInstanceOffered, Session.bind_apply, Session.pure_apply,
        hoffered]
      refine hupdated.put fun ci' heq => ?_
      exact (MwCipherInstance.rc2_128.inj heq).symm
    | rc2_40 c0 =>
      cases hnew : mwCipherNewInstance s.login (.rc2_40 c0) with
      | none => exact ⟨⟨hs.equipped.cipher, hs.equipped.service⟩, hs.told, hs.trace, hs.channel⟩
      | some p =>
        obtain ⟨c1, ci, rfl⟩ := newInstance_rc2_40 hnew
        simp only [mwCipherInstanceOffered, Session.bind_apply, Session.pure_apply]
        exact (hs.updateCipher fun hne => absurd hne (by simp [MwCipher.type])).put
          fun ci' heq => by cases heq

/-- A channel is announced that offers the public key of the other side. -/
theorem createRecv_answering {msg : MwMsgChannelCreate} (head : MwMessageHead)
    (hcall : ∀ cb, Keeps (Along chan (Answering privateKey srvc key chan)) (h.call cb))
    (hagree : AgreedKey privateKey privateKey' key) (hmsg : IsOffer privateKey' srvc msg)
    (hchan : chan = ⟨msg.channel, s.nextAddr⟩) (hid : mwChannelIdIsIncoming chan.id = true)
    (hs : s.Equipped privateKey srvc) (hblank : Blank chan s.trace)
    (hsrvc : (s.service? srvc).any (·.hasRecvCreate) = true)
    (hpermitted : Permitted chan (channelCreateRecv h head msg s).2.trace) :
    Answering privateKey srvc key chan (channelCreateRecv h head msg s).2 := by
  have hin : mwChannelIdIsOutgoing chan.id = false := by simpa [mwChannelIdIsIncoming] using hid
  rw [channelCreateRecv_arrived, ← hchan] at hpermitted ⊢
  set s1 := s.arrived head msg with hs1
  have hlive1 : s1.channel? chan = some { addr := s.nextAddr, state := .wait } := by
    rw [hchan]
    exact channel?_arrived s head msg
  set c2 : MwChannel := { addr := s.nextAddr, state := .wait, offeredPolicy := msg.encrypt.mode }
    with hc2
  have hstart : Gathers privateKey srvc key chan c2 s1.trace (s1.setChannel chan.id (some c2)) := by
    refine ⟨⟨hs.cipher, hs.service⟩, hsrvc, rfl, [], channel?_setChannel_self hlive1 c2 rfl, ?_⟩
    exact fun ci hci => absurd hci (by simp)
  -- the ciphers that are offered, one after the other
  have hloop : ∀ items : List MwEncryptItem, (∀ item ∈ items, item ∈ msg.encrypt.items) → ∀ s,
      Gathers privateKey srvc key chan c2 s1.trace s →
        Gathers privateKey srvc key chan c2 s1.trace (items.forM (offeredCipher chan) s).2 := by
    intro items
    induction items with
    | nil => exact fun _ s hs => hs
    | cons item items ih =>
      intro hitems s hs
      have hitem := hmsg.2 item (hitems item List.mem_cons_self)
      exact ih (fun item hmem => hitems item (List.mem_cons_of_mem _ hmem)) _
        (offeredCipher_gathers hagree hitem hs)
  obtain ⟨hequipped3, htold3, htrace3, l, hlive3, hl⟩ := hloop msg.encrypt.items (fun _ hmem => hmem) _ hstart
  set s3 := (msg.encrypt.items.forM (offeredCipher chan) (s1.setChannel chan.id (some c2))).2 with hs3
  set c4 : MwChannel :=
    { c2 with
      supported := some l
      user := mwLoginInfoClone c2.user msg.creator
      service := msg.service
      protoType := msg.protoType
      protoVer := msg.protoVer } with hc4
  set s4 := s3.setChannel chan.id (some c4) with hs4
  obtain ⟨srvc', hsrvc', hcreate⟩ := (Option.any_eq_true _ _).mp htold3
  have hservice : s4.service? msg.service = some srvc' := by
    rw [hmsg.1]
    exact hsrvc'
  have hrun : (mwChannelRecvCreate h chan msg s1).2 =
      (callback h (.recvCreate srvc'.type chan msg) s4).2 := by
    rw [mwChannelRecvCreate, if_neg (by simp [hin]), Session.bind_apply, updateChannel_of_some hlive1]
    dsimp only
    rw [Session.bind_apply, Session.bind_apply, updateChannel_of_some hlive3, Session.get_bind, hservice]
    dsimp only
    rw [mwServiceRecvCreate, if_pos hcreate]
  have hlive4 : s4.channel? chan = some c4 := channel?_setChannel_self hlive3 c4 rfl
  have htrace4 : s4.trace = s1.trace := htrace3
  have hannounced : Announced privateKey srvc key chan
      (s4.log (.callback (.recvCreate srvc'.type chan msg))) := by
    refine ⟨(hequipped3.setChannel _ _).log _, hid, ⟨?_, ?_, ?_, ?_⟩, c4, hlive4, ?_⟩
    · simpa [MwSession.log, htrace4, hs1, MwSession.arrived, MwSession.announced, Event.call?]
        using hblank.calls
    · simpa [MwSession.log, htrace4, hs1, MwSession.arrived, MwSession.announced, Event.sent?]
        using hblank.sent
    · simpa [MwSession.log, htrace4, hs1, MwSession.arrived, MwSession.announced, Event.arrived?]
        using hblank.arrivals
    · simpa [MwSession.log, htrace4, hs1, MwSession.arrived, MwSession.announced, Event.handed?]
        using hblank.handed
    · refine ⟨rfl, hmsg.1, rfl, rfl, fun ci hci => hl ci ?_, fun _ => rfl, fun ci hci => ?_⟩
      · simpa [hc4, hc2] using hci
      · exact absurd hci (by simp [hc4, hc2])
  rw [hrun] at hpermitted ⊢
  rw [callback, record_bind] at hpermitted ⊢
  exact (hcall _ _).keeps hpermitted (.announced hannounced)

/-! ## Selecting and accepting -/

/-- Nothing more can be selected on an open channel. -/
theorem select_talks {greeting : MwMessage} {heard : List ChannelMessage} (ci : Option MwCipherInstance)
    (hs : Talks privateKey srvc key chan greeting heard s) :
    (mwChannelSelectCipherInstance chan ci s).2 = s := by
  obtain ⟨c, ci, hc, htalking, -⟩ := hs.channel
  rw [selectCipherInstance_apply hc, htalking.supported]
  rfl

/-- What is left of a choice between the instances that have been offered -/
theorem select_announced (hs : Announced privateKey srvc key chan s) {c : MwChannel}
    (hc : s.channel? chan = some c) {ci : Option MwCipherInstance}
    (hci : ∀ ci' ∈ ci, ci' ∈ c.supported.getD []) :
    Announced privateKey srvc key chan (mwChannelSelectCipherInstance chan ci s).2 ∧
      ∃ c', (mwChannelSelectCipherInstance chan ci s).2.channel? chan = some c' ∧
        c'.supported = none ∧ c'.Offered srvc key := by
  obtain ⟨hequipped, hid, hblank, c0, hc0, hoffered⟩ := hs
  obtain rfl := Option.some.inj (hc0.symm.trans hc)
  rw [selectCipherInstance_apply hc]
  cases hsupported : c0.supported with
  | none => exact ⟨⟨hequipped, hid, hblank, c0, hc, hoffered⟩, c0, hc, hsupported, hoffered⟩
  | some l =>
    simp only [Option.isNone_some, Bool.false_eq_true, if_false]
    have hlive := channel?_setChannel_self hc (c0.selected ci) rfl
    have hselected : (c0.selected ci).Offered srvc key := by
      refine ⟨hoffered.state, hoffered.service, hoffered.outgoing, hoffered.incoming, ?_, ?_, ?_⟩
      · intro ci' hci'
        have hcipher : ci = some ci' := by simpa [MwChannel.selected] using hci'
        exact hoffered.keyed ci' (.inl (hci ci' hcipher))
      · exact fun hne => absurd rfl hne
      · rintro ci' rfl
        rfl
    refine ⟨⟨(hequipped.setChannel _ _).log _, hid, ⟨?_, ?_, ?_, ?_⟩, _, hlive, hselected⟩, _, hlive,
      rfl, hselected⟩
    · simpa [MwSession.log, MwSession.setChannel] using hblank.calls
    · simpa [MwSession.log, MwSession.setChannel, Event.sent?] using hblank.sent
    · simpa [MwSession.log, MwSession.setChannel, Event.arrived?] using hblank.arrivals
    · simpa [MwSession.log, MwSession.setChannel, Event.handed?] using hblank.handed

theorem acceptCipher_rc2_128 (hs : s.Equipped privateKey srvc) {c : MwChannel}
    (hc : s.channel? chan = some c) {ci : MwCipherInstanceRc2_128} (hcipher : c.cipher = some (.rc2_128 ci)) :
    acceptCipher chan s =
      (some { id := MwCipherType.code .rc2_128, info := mwDhExportKey (mwDhPublicKey privateKey) }, s) := by
  have hsame : { c with cipher := some (.rc2_128 ci) } = c := by rw [← hcipher]
  rw [acceptCipher, Session.bind_apply, deref_of_some hc]
  dsimp only
  rw [hcipher]
  dsimp only
  rw [Session.get_bind, show s.cipher? (MwCipherInstance.rc2_128 ci).type.code = _ from hs.cipher]
  dsimp only [Option.bind_eq_bind, Option.bind_some, mwCipherInstanceAccept, mwCipherNewRc2_128]
  rw [Session.bind_apply, updateChannel_of_some hc, hsame, setChannel_self (map_of_channel? hc).1]
  rfl

/-- Without an instance of RC2/128 no item for it is sent. -/
theorem acceptCipher_other {c : MwChannel} (hc : s.channel? chan = some c)
    (hcipher : ∀ ci, c.cipher ≠ some (.rc2_128 ci)) :
    (∃ c', (acceptCipher chan s).2.channel? chan = some c') ∧
      ∀ item, (acceptCipher chan s).1 = some item → item.id ≠ MwCipherType.code .rc2_128 := by
  rw [acceptCipher, Session.bind_apply, deref_of_some hc]
  dsimp only
  cases hci : c.cipher with
  | none => exact ⟨⟨c, hc⟩, fun item hitem => by cases hitem⟩
  | some ci =>
    cases ci with
    | rc2_128 ci => exact absurd hci (hcipher ci)
    | rc2_40 ci =>
      dsimp only
      rw [Session.get_bind]
      cases haccept : s.cipher? (MwCipherInstance.rc2_40 ci).type.code >>= fun cipher =>
          mwCipherInstanceAccept c.user cipher (.rc2_40 ci) with
      | none => exact ⟨⟨c, hc⟩, fun item hitem => by cases hitem⟩
      | some p =>
        dsimp only
        rw [Session.bind_apply, updateChannel_of_some hc]
        refine ⟨⟨_, channel?_setChannel_self hc _ rfl⟩, fun item hitem => ?_⟩
        obtain rfl := Option.some.inj hitem
        obtain ⟨cipher, hfind, haccept⟩ := Option.bind_eq_some_iff.mp haccept
        have hcode : cipher.type.code = (MwCipherInstance.rc2_40 ci).type.code := by
          simpa using List.find?_some hfind
        have htype : cipher.type = .rc2_40 := code_injective hcode
        cases cipher with
        | rc2_128 c0 => exact absurd htype (by simp [MwCipher.type])
        | rc2_40 c0 =>
          obtain ⟨ci', -, haccept⟩ := Option.bind_eq_some_iff.mp haccept
          obtain rfl := Option.some.inj haccept
          show MwCipherType.code .rc2_40 ≠ MwCipherType.code .rc2_128
          decide

/-! ## Opening -/

theorem channelOpen_opened {c : MwChannel} (hc : s.channel? chan = some c) (hstate : c.state = .opened)
    (hincoming : c.incomingQueue = []) (houtgoing : c.outgoingQueue = []) :
    channelOpen h chan s = ((), s) := by
  rw [channelOpen, Session.bind_apply, setChannelState_of_some hc, MwSession.withState, if_pos hstate]
  exact flushChannel_empty hc hincoming houtgoing

theorem channelOpen_waiting {c : MwChannel} (hc : s.channel? chan = some c) (hstate : c.state = .wait)
    (hincoming : c.incomingQueue = []) (houtgoing : c.outgoingQueue = []) :
    channelOpen h chan s = ((), (s.setChannel chan.id (some { c with state := .opened })).log
      (.channel chan (.state .opened))) := by
  have hne : c.state ≠ .opened := by simp [hstate]
  rw [channelOpen, Session.bind_apply, setChannelState_of_some hc, MwSession.withState, if_neg hne]
  exact flushChannel_empty (channel?_setChannel_self hc _ rfl) hincoming houtgoing

/-- The acceptance of a channel on which a cipher has been decided -/
theorem sendAccept_talks (hh : h.Respects (Eff True)) (hio : h.Writes)
    (hs : Announced privateKey srvc key chan s) {c : MwChannel} (hc : s.channel? chan = some c)
    (hsupported : c.supported = none) (hpermitted : Permitted chan (sendAccept h chan s).2.trace) :
    ∃ head msg, IsAcceptance privateKey msg ∧
      Talks privateKey srvc key chan ⟨head, .channelAccept msg⟩ [] (sendAccept h chan s).2 := by
  obtain ⟨hequipped, hid, hblank, c0, hc0, hoffered⟩ := hs
  obtain rfl := Option.some.inj (hc0.symm.trans hc)
  by_cases hcipher : ∃ ci, c0.cipher = some (.rc2_128 ci)
  · obtain ⟨ci, hcipher⟩ := hcipher
    obtain rfl := hoffered.keyed _ (.inr hcipher) ci rfl
    set msg := acceptMessage chan.id c0
      (some { id := MwCipherType.code .rc2_128, info := mwDhExportKey (mwDhPublicKey privateKey) }) with hmsg
    have hlive : (s.sent chan msg).channel? chan = some c0 := hc
    have hrun : (sendAccept h chan s).2 =
        ((s.sent chan msg).setChannel chan.id (some { c0 with state := .opened })).log
          (.channel chan (.state .opened)) := by
      rw [sendAccept, Session.bind_apply, acceptCipher_rc2_128 hequipped hc hcipher]
      dsimp only
      rw [Session.bind_apply, deref_of_some hc]
      dsimp only
      rw [Session.bind_apply, hio.sendFor (by simp [acceptMessage])]
      dsimp only
      rw [if_neg (by simp), Session.bind_apply,
        channelOpen_waiting hlive hoffered.state hoffered.incoming hoffered.outgoing]
      rfl
    have hpolicy : c0.policy ≠ 0 := by
      rw [hoffered.policy _ hcipher]
      show encryptRc2_128 ≠ 0
      decide
    have haccepts : ∃ m, msg = ⟨{ channel := chan.id }, .channelAccept m⟩ ∧ IsAcceptance privateKey m :=
      ⟨_, rfl, hpolicy, _, rfl, rfl, rfl⟩
    obtain ⟨m, hm, hacceptance⟩ := haccepts
    refine ⟨{ channel := chan.id }, m, hacceptance, ?_⟩
    rw [hrun]
    refine ⟨((hequipped.sent _ _).setChannel _ _).log _, ⟨{ c0 with state := .opened },
      ⟨key, mwIvInit, mwIvInit⟩, channel?_setChannel_self hlive _ rfl, ?_, ⟨[], ?_, ?_⟩, [], rfl, ?_⟩, ?_⟩
    · exact ⟨rfl, hoffered.service, hsupported, hcipher, rfl, hoffered.outgoing, hoffered.incoming⟩
    · simp [MwSession.log, MwSession.setChannel, MwSession.sent, Event.call?, hblank.calls, Transducer.run]
    · simp [MwSession.log, MwSession.setChannel, MwSession.sent, Event.sent?, hblank.sent, hm]
    · simp [MwSession.log, MwSession.setChannel, MwSession.sent, Event.handed?, hblank.handed]
    · simp [MwSession.log, MwSession.setChannel, MwSession.sent, Event.arrived?, hblank.arrivals, hm]
  -- an acceptance without RC2/128 is not permitted
  · obtain ⟨⟨c2, hc2⟩, hitem⟩ := acceptCipher_other hc fun ci hci => hcipher ⟨ci, hci⟩
    set item := (acceptCipher chan s).1 with hitem'
    set s2 := (acceptCipher chan s).2 with hs2
    set msg := acceptMessage chan.id c2 item with hmsg
    have hrun : (sendAccept h chan s).2 = (channelOpen h chan (s2.sent chan msg)).2 := by
      rw [sendAccept, Session.bind_apply, ← hs2, ← hitem', Session.bind_apply, deref_of_some hc2]
      dsimp only
      rw [Session.bind_apply, hio.sendFor (by simp [acceptMessage])]
      dsimp only
      rw [if_neg (by simp), Session.bind_apply]
      rfl
    have hopen : Keeps (Eff True) (channelOpen h chan) := channelOpen_keeps hh
    rw [hrun] at hpermitted
    have hsent : msg ∈ sentOn chan (s2.sent chan msg).trace := by
      simp [MwSession.sent, MwSession.log, Event.sent?]
    obtain ⟨item0, hitem0, hid0⟩ := (hpermitted.mono (hopen _).trace).accepts _ _ hsent
    exact absurd hid0 (hitem item0 hitem0)

/-- An acceptance with RC2/128 opens the channel. -/
theorem accept_answering (hh : h.Respects (Eff True)) (hio : h.Writes) :
    Along chan (Answering privateKey srvc key chan) s (mwChannelAccept h chan s).2 := by
  refine ⟨accept_keeps hh s, fun hpermitted hs => ?_⟩
  cases hs with
  | accepted hmsg htalks =>
    obtain ⟨c, ci, hc, htalking, -⟩ := htalks.channel
    rw [mwChannelAccept, Session.bind_apply, deref_of_some hc]
    dsimp only
    rw [if_pos (.inr (by simp [htalking.state]))]
    exact .accepted hmsg htalks
  | announced hannounced =>
    obtain ⟨c, hc, hoffered⟩ := hannounced.channel
    have hin : mwChannelIdIsOutgoing chan.id = false := by
      simpa [mwChannelIdIsIncoming] using hannounced.incoming
    have hgo : ¬ (mwChannelIdIsOutgoing chan.id = true ∨ c.state ≠ .wait) := by
      simp [hin, hoffered.state]
    rw [mwChannelAccept, Session.bind_apply, deref_of_some hc] at hpermitted ⊢
    dsimp only at hpermitted ⊢
    rw [if_neg hgo] at hpermitted ⊢
    cases hcipher : c.cipher with
    | some ci =>
      have hsupported : c.supported = none := by
        by_contra hne
        exact absurd (hoffered.undecided hne) (by simp [hcipher])
      simp only [hcipher, Option.isNone_some, Bool.false_eq_true, if_false] at hpermitted ⊢
      obtain ⟨head, msg, hmsg, htalks⟩ := sendAccept_talks hh hio hannounced hc hsupported hpermitted
      exact .accepted hmsg htalks
    | none =>
      simp only [hcipher, Option.isNone_none, if_true, Session.bind_apply] at hpermitted ⊢
      obtain ⟨hselected, c', hc', hsupported, -⟩ :=
        select_announced hannounced hc fun ci (hci : ci ∈ autoSelect c) => autoSelect_mem hci
      obtain ⟨head, msg, hmsg, htalks⟩ := sendAccept_talks hh hio hselected hc' hsupported hpermitted
      exact .accepted hmsg htalks

/-- What the acceptance of RC2/128 does to the channel of the creator -/
theorem acceptedCipher_offering {c : MwChannel} {enc : MwEncryptAccept} {item : MwEncryptItem}
    (hs : s.Equipped privateKey srvc) (hc : s.channel? chan = some c) (hc' : c.Offering srvc .wait)
    (hagree : AgreedKey privateKey privateKey' key) (hmode : enc.mode ≠ 0) (hitem : enc.item = some item)
    (hid : item.id = MwCipherType.code .rc2_128)
    (hinfo : item.info = mwDhExportKey (mwDhPublicKey privateKey')) :
    acceptedCipher chan enc s =
      (true, (s.setChannel chan.id (some (c.selected (some (.rc2_128 ⟨key, mwIvInit, mwIvInit⟩))))).log
        (.select chan true)) := by
  obtain ⟨key0, hsupported⟩ := hc'.supported
  have hdecide : c.supported.isNone = false := by
    cases hnone : c.supported with
    | none => simp [MwChannel.supported?, hnone] at hsupported
    | some l => rfl
  have hoffered := offeredRc2_128_agree hagree (c := ⟨privateKey, mwDhExportKey (mwDhPublicKey privateKey)⟩)
    rfl ⟨key0, mwIvInit, mwIvInit⟩ hinfo
  rw [acceptedCipher, Session.bind_apply, deref_of_some hc]
  dsimp only
  rw [hitem]
  dsimp only
  rw [if_neg hmode, hid, hsupported]
  dsimp only
  rw [Session.get_bind,
    show s.cipher? (MwCipherInstance.rc2_128 ⟨key0, mwIvInit, mwIvInit⟩).type.code = _ from hs.cipher]
  simp only [Option.bind_eq_bind, Option.bind_some, mwCipherInstanceAccepted, mwCipherNewRc2_128, hoffered]
  rw [Session.bind_apply, selectCipherInstance_apply hc, hdecide]
  rfl

/-- The end of `mwChannel_recvAccept`, once the service has been told -/
def openAccepted (h : Hooks) (chan : ChanRef) : Session Unit := do
  match ← deref chan with
  | none => return
  | some c => if c.state = .opened then channelOpen h chan else return

/-- The acceptance arrives, and the creator can talk. -/
theorem recvAccept_talks {offer : MwMsgChannelCreate} {msg : MwMsgChannelAccept} (head : MwMessageHead)
    (hh : h.Respects (Eff True))
    (hcall : ∀ cb, Keeps (Along chan
      (Talks privateKey srvc key chan ⟨{}, .channelCreate offer⟩ [])) (h.call cb))
    (hagree : AgreedKey privateKey privateKey' key) (hmsg : IsAcceptance privateKey' msg)
    (hs : Waiting privateKey srvc chan offer s) :
    let s' := (mwChannelRecvAccept h chan msg
      (s.log (.channel chan (.arrives ⟨head, .channelAccept msg⟩)))).2
    Permitted chan s'.trace → Talks privateKey srvc key chan ⟨{}, .channelCreate offer⟩ [] s' := by
  intro s' hpermitted
  obtain ⟨hequipped, hid, hcalls, hsent, harrivals, hhanded, c, hc, hoffering⟩ := hs
  obtain ⟨hmode, item, hitem, hitemid, hinfo⟩ := hmsg
  set s0 := s.log (.channel chan (.arrives ⟨head, .channelAccept msg⟩)) with hs0
  have hc0 : s0.channel? chan = some c := hc
  have hgo : ¬ (mwChannelIdIsIncoming chan.id = true ∨ c.state ≠ .wait) := by
    simp [hoffering.state, mwChannelIdIsIncoming, hid]
  obtain ⟨srvc', hsrvc, hrecv⟩ := (Option.any_eq_true _ _).mp hequipped.service
  set c1 : MwChannel := { c with user := mwLoginInfoClone c.user msg.acceptor } with hc1
  set s1 := s0.setChannel chan.id (some c1) with hs1
  have hlive1 : s1.channel? chan = some c1 := channel?_setChannel_self hc0 c1 rfl
  set c2 : MwChannel := { c1 with policy := msg.encrypt.mode } with hc2
  set s2 := s1.setChannel chan.id (some c2) with hs2
  have hlive2 : s2.channel? chan = some c2 := channel?_setChannel_self hlive1 c2 rfl
  have hequipped2 : s2.Equipped privateKey srvc := ((hequipped.log _).setChannel _ _).setChannel _ _
  have hoffering2 : c2.Offering srvc .wait := ⟨hoffering.state, hoffering.service, hoffering.cipher,
    hoffering.outgoing, hoffering.incoming, hoffering.supported⟩
  set c3 := c2.selected (some (.rc2_128 ⟨key, mwIvInit, mwIvInit⟩)) with hc3
  set s3 := (s2.setChannel chan.id (some c3)).log (.select chan true) with hs3
  have hlive3 : s3.channel? chan = some c3 := channel?_setChannel_self hlive2 c3 rfl
  have hselect : acceptedCipher chan msg.encrypt s2 = (true, s3) :=
    acceptedCipher_offering hequipped2 hlive2 hoffering2 hagree hmode hitem hitemid hinfo
  set c4 : MwChannel := { c3 with state := .opened } with hc4
  set s4 := (s3.setChannel chan.id (some c4)).log (.channel chan (.state .opened)) with hs4
  have hlive4 : s4.channel? chan = some c4 := channel?_setChannel_self hlive3 c4 rfl
  have hwithState : s3.withState chan c3 .opened = s4 := by
    have hne : c3.state ≠ .opened := by
      rw [show c3.state = c.state from rfl, hoffering.state]
      decide
    rw [MwSession.withState, if_neg hne]
  set s5 := (mwServiceRecvAccept h srvc' chan msg s4).2 with hs5
  set rest := openAccepted h chan with hrest
  have hrun : s' = (rest s5).2 := by
    change (mwChannelRecvAccept h chan msg s0).2 = _
    rw [mwChannelRecvAccept, Session.bind_apply, deref_of_some hc0]
    dsimp only
    rw [if_neg hgo, Session.bind_apply, updateChannel_of_some hc0, Session.get_bind]
    rw [show MwSession.service? _ c.service = some srvc' by rw [hoffering.service]; exact hsrvc]
    dsimp only
    rw [Session.bind_apply, updateChannel_of_some hlive1, Session.bind_apply, hselect]
    dsimp only
    rw [if_pos rfl, Session.bind_apply, setChannelState_of_some hlive3, hwithState]
    rfl
  have htalks4 : Talks privateKey srvc key chan ⟨{}, .channelCreate offer⟩ [] s4 := by
    refine ⟨(((hequipped2.setChannel _ _).log _).setChannel _ _).log _,
      ⟨c4, ⟨key, mwIvInit, mwIvInit⟩, hlive4, ?_, ⟨[], ?_, ?_⟩, [], rfl, ?_⟩, ?_⟩
    · exact ⟨rfl, hoffering.service, rfl, rfl, rfl, hoffering.outgoing, hoffering.incoming⟩
    · simp [hs4, hs3, hs2, hs1, hs0, MwSession.log, MwSession.setChannel, hcalls, Transducer.run]
    · simp [hs4, hs3, hs2, hs1, hs0, MwSession.log, MwSession.setChannel, Event.sent?, hsent]
    · simp [hs4, hs3, hs2, hs1, hs0, MwSession.log, MwSession.setChannel, Event.handed?, hhanded]
    · simp [hs4, hs3, hs2, hs1, hs0, MwSession.log, MwSession.setChannel, Event.arrived?, harrivals]
  have htold : Along chan (Talks privateKey srvc key chan ⟨{}, .channelCreate offer⟩ []) s4 s5 := by
    rw [hs5, mwServiceRecvAccept]
    split
    · rw [callback, record_bind]
      have hlog : Along chan (Talks privateKey srvc key chan ⟨{}, .channelCreate offer⟩ []) s4
          (s4.log (.callback (.recvAccept srvc'.type chan msg))) :=
        ⟨Primitive.plain _ rfl, fun _ hs => hs.log rfl rfl rfl rfl⟩
      exact IsTrans.trans _ _ _ hlog (hcall _ _)
    · exact Std.Refl.refl s4
  have hkeeps : Keeps (Eff True) rest := by
    refine derefThen_keeps chan (Keeps.pure _) fun c => ?_
    exact Keeps.ite (fun _ => channelOpen_keeps hh) fun _ => Keeps.pure _
  rw [hrun] at hpermitted ⊢
  have htalks5 := htold.keeps (hpermitted.mono (hkeeps s5).trace) htalks4
  obtain ⟨c5, ci, hc5, htalking, -⟩ := htalks5.channel
  have hsame : (rest s5).2 = s5 := by
    rw [hrest, openAccepted, Session.bind_apply, deref_of_some hc5]
    dsimp only
    rw [if_pos htalking.state, channelOpen_opened hc5 htalking.state htalking.incoming htalking.outgoing]
  rw [hsame]
  exact htalks5

end

end Meanwhile
