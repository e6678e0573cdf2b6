-- SUMMARY: One end of an open channel with RC2/128: what is sent and received on it, in step with the other end.
import Meanwhile.Channel.Delivery
import Meanwhile.Cipher.Agreement
import Meanwhile.Cipher.Rc2Inverse
import Meanwhile.Lib.Transducer

/-!
# Talking on a channel

Both directions of an open channel have a running vector of their own. `speak` is what
becomes of a call and `hear` what the other end makes of the message, each with the vector
that it runs along. `Talks` says that what has been written and handed on so far is what
these two come to, and it is kept by whatever is sent and received.
-/

namespace Meanwhile

/-! ## Messages -/

/-- The message of a call, with the running vector afterwards. There is none for data that
are to be encrypted and are too long for that. -/
def speak (key : EKey) (iv : Block) (call : SendCall) : Option (Block × ChannelMessage) :=
  if call.encrypt then
    if paddedLength call.data.length < 2 ^ 31 then do
      let (iv, data) ← mwEncryptExpanded call.fresh key iv call.data
      return (iv, { head := { options := optionEncrypt, channel := call.chan.id }
                    msg := { type := call.type.toUInt16, data := data } })
    else none
  else
    some (iv, { head := { channel := call.chan.id }
                msg := { type := call.type.toUInt16, data := call.data } })

/-- What a service gets of a message, with the running vector afterwards -/
def hear (key : EKey) (iv : Block) (m : ChannelMessage) : Option (Block × UInt16 × MwOpaque) :=
  if m.head.hasOption optionEncrypt then do
    let d ← mwDecryptExpanded key iv m.msg.data
    let o ← d.contents
    return (d.iv, m.msg.type, o)
  else some (iv, m.msg.type, m.msg.data)

/-- A message on the channel with another id -/
def ChannelMessage.under (id : UInt32) (m : ChannelMessage) : ChannelMessage :=
  { m with head := { m.head with channel := id } }

/-- The type and the data of a call, as they are to be handed on -/
def SendCall.content (call : SendCall) : UInt16 × MwOpaque := (call.type.toUInt16, call.data)

/-- The other end gets what has been sent, and its vector stays in step. -/
theorem hear_speak {key : EKey} {iv iv' : Block} {call : SendCall} {m : ChannelMessage} (id : UInt32)
    (h : speak key iv call = some (iv', m)) : hear key iv (m.under id) = some (iv', call.content) := by
  unfold speak at h
  split at h
  · rename_i hencrypt
    obtain ⟨hlt, h⟩ := Option.ite_none_right_eq_some.mp h
    obtain ⟨⟨iv1, data⟩, henc, h⟩ := Option.bind_eq_some_iff.mp h
    obtain ⟨rfl, rfl⟩ := Prod.mk.inj (Option.some.inj h)
    obtain ⟨iv2, c, d, henc', -, hdec, hd⟩ :=
      mwDecryptExpanded_mwEncryptExpanded call.fresh key iv ((paddedLength_lt_iff _).mp hlt)
    obtain ⟨rfl, rfl⟩ := Prod.mk.inj (Option.some.inj (henc.symm.trans henc'))
    have hle : call.data.length ≤ d.length := by
      have hlength := congrArg List.length hd
      rw [List.length_take] at hlength
      omega
    have hcontents : (⟨iv1, d, call.data.length⟩ : Decrypted).contents = some call.data := by
      rw [Decrypted.contents, if_pos hle, hd]
    have hoption : optionEncrypt ≠ 0 := by decide
    simp [hear, ChannelMessage.under, MwMessageHead.hasOption, hoption, hdec, hcontents, SendCall.content]
  · obtain ⟨rfl, rfl⟩ := Prod.mk.inj (Option.some.inj h)
    simp [hear, ChannelMessage.under, MwMessageHead.hasOption, SendCall.content]

/-- The message of a call that goes through an instance of RC2/128 -/
theorem compose_speak {call : SendCall} {ci : MwCipherInstanceRc2_128} {cipher : MwCipherRc2_128}
    (hcipher : call.cipher = some (.rc2_128 ci)) (howner : call.owner = some (.rc2_128 cipher))
    (hpadded : call.encrypt = true → paddedLength call.data.length < 2 ^ 31) :
    call.compose = (speak ci.shared ci.outgoingIv call).map fun p =>
      (p.2, if call.encrypt then some (.rc2_128 { ci with outgoingIv := p.1 }) else none) := by
  cases hencrypt : call.encrypt with
  | false => simp [SendCall.compose, speak, hencrypt]
  | true =>
    simp only [SendCall.compose, speak, hencrypt, hcipher, howner, mwCipherInstanceEncrypt,
      if_pos (hpadded hencrypt)]
    cases mwEncryptExpanded call.fresh ci.shared ci.outgoingIv call.data <;> rfl

theorem receivedData_hear {c : MwChannel} {ci : MwCipherInstanceRc2_128}
    (hcipher : c.cipher = some (.rc2_128 ci)) (m : ChannelMessage) :
    receivedData c m = (hear ci.shared ci.incomingIv m).map fun p =>
      (some (.rc2_128 { ci with incomingIv := p.1 }), p.2.2) := by
  unfold receivedData hear
  split
  · rw [hcipher]
    simp only [mwCipherInstanceDecrypt]
    cases mwDecryptExpanded ci.shared ci.incomingIv m.msg.data with
    | none => rfl
    | some d =>
      simp only [Option.bind_eq_bind, Option.bind_some]
      cases d.contents <;> rfl
  · rw [hcipher]
    rfl

/-- A call with data that the other end gets as they are: they and what they are encrypted to
can be counted. -/
structure SendCall.Conveys (call : SendCall) : Prop where
  counted : call.data.length + 14 < 2 ^ 32
  padded : call.encrypt = true → call.data.length < 2 ^ 31 - 8

theorem SendCall.Conveys.fits {call : SendCall} (h : call.Conveys) : call.Fits :=
  ⟨h.counted, fun hencrypt _ => Nat.lt_of_lt_of_le (h.padded hencrypt) (by decide)⟩

theorem SendCall.Conveys.speak {call : SendCall} (h : call.Conveys) (key : EKey) (iv : Block) :
    ∃ p, speak key iv call = some p := by
  cases hencrypt : call.encrypt with
  | false => exact ⟨_, by rw [Meanwhile.speak, if_neg (by simp [hencrypt])]⟩
  | true =>
    have hpadded := (paddedLength_lt_iff _).mpr (h.padded hencrypt)
    have henc := mwEncryptExpanded_of_lt call.fresh key iv hpadded
    exact ⟨_, by rw [Meanwhile.speak, if_pos hencrypt, if_pos hpadded, henc]; rfl⟩

/-! ## What is recorded -/

def Event.sent? (chan : ChanRef) : Event → Option MwMessage
  | .channel chan' (.sends msg) => if chan' = chan then some msg else none
  | _ => none

/-- The messages of a channel that have been given to `mwSession_send`, in order -/
def sentOn (chan : ChanRef) (t : List Event) : List MwMessage := (t.filterMap (·.sent? chan)).reverse

/-- Nothing has been recorded of a channel. -/
structure Blank (chan : ChanRef) (t : List Event) : Prop where
  calls : callsOn chan t = []
  sent : sentOn chan t = []
  arrivals : arrivals chan t = []
  handed : handed chan t = []

section

variable {chan : ChanRef} {t t' : List Event}

@[simp] theorem sentOn_cons (e : Event) : sentOn chan (e :: t) = sentOn chan t ++ (e.sent? chan).toList := by
  unfold sentOn
  cases h : e.sent? chan <;> simp [h]

@[simp] theorem sent?_sends (msg : MwMessage) : (Event.channel chan (.sends msg)).sent? chan = some msg := by
  simp [Event.sent?]

@[simp] theorem call?_send {call : SendCall} (h : call.chan = chan) :
    (Event.send call).call? chan = some call := by
  simp [Event.call?, h]

theorem sentOn_mono (h : t <:+ t') : sentOn chan t <+: sentOn chan t' :=
  List.reverse_prefix.mpr (h.filterMap _)

end

/-- What is asked of a side: it sends on a channel that is open, with types of 16 bits and no more
data at a time than the code can count, and it accepts with RC2/128. -/
structure Permitted (chan : ChanRef) (t : List Event) : Prop where
  calls : ∀ call ∈ callsOn chan t, call.state = .opened ∧ call.type.toNat < 2 ^ 16 ∧ call.Conveys
  accepts : ∀ head msg, ⟨head, .channelAccept msg⟩ ∈ sentOn chan t →
    ∃ item, msg.encrypt.item = some item ∧ item.id = MwCipherType.code .rc2_128

theorem Permitted.mono {chan : ChanRef} {t t' : List Event} (h : Permitted chan t') (ht : t <:+ t') :
    Permitted chan t where
  calls := fun call hcall => h.calls call (callsOn_subset ht call hcall)
  accepts := fun head msg hmsg => h.accepts head msg ((sentOn_mono ht).mem hmsg)

/-- A property is kept from one session to the other, if what is done is permitted. -/
structure Along (chan : ChanRef) (I : MwSession → Prop) (s s' : MwSession) : Prop where
  eff : Eff True s s'
  keeps : Permitted chan s'.trace → I s → I s'

instance (chan : ChanRef) (I : MwSession → Prop) : Std.Refl (Along chan I) where
  refl := fun s => ⟨Std.Refl.refl s, fun _ hs => hs⟩

instance (chan : ChanRef) (I : MwSession → Prop) : IsTrans _ (Along chan I) where
  trans := by
    intro s s' s'' h h'
    refine ⟨IsTrans.trans _ _ _ h.eff h'.eff, fun hpermitted hs => h'.keeps hpermitted (h.keeps ?_ hs)⟩
    exact hpermitted.mono h'.eff.trace

/-! ## One side -/

/-- A session with RC2/128 and a service that takes what arrives on its channels -/
structure MwSession.Equipped (privateKey : Nat) (srvc : UInt32) (s : MwSession) : Prop where
  cipher : s.cipher? (MwCipherType.code .rc2_128) = some (mwCipherNewRc2_128 privateKey)
  service : (s.service? srvc).any (·.hasRecv) = true

namespace MwSession.Equipped

variable {privateKey : Nat} {srvc : UInt32} {s : MwSession} (h : s.Equipped privateKey srvc)

include h

theorem log (e : Event) : (s.log e).Equipped privateKey srvc := ⟨h.cipher, h.service⟩

theorem setChannel (id : UInt32) (c : Option MwChannel) : (s.setChannel id c).Equipped privateKey srvc :=
  ⟨h.cipher, h.service⟩

theorem sent (chan : ChanRef) (msg : MwMessage) : (s.sent chan msg).Equipped privateKey srvc :=
  ⟨h.cipher, h.service⟩

end MwSession.Equipped

/-- An open channel on which RC2/128 has been agreed on -/
structure MwChannel.Talking (srvc : UInt32) (key : EKey) (ci : MwCipherInstanceRc2_128) (c : MwChannel) :
    Prop where
  state : c.state = .opened
  service : c.service = srvc
  supported : c.supported = none
  cipher : c.cipher = some (.rc2_128 ci)
  shared : ci.shared = key
  outgoing : c.outgoingQueue = []
  incoming : c.incomingQueue = []

/-- A side of an open channel. It has sent one message to get there, and after it those of the
calls; some messages have arrived. -/
structure Talks (privateKey : Nat) (srvc : UInt32) (key : EKey) (chan : ChanRef) (greeting : MwMessage)
    (heard : List ChannelMessage) (s : MwSession) : Prop where
  equipped : s.Equipped privateKey srvc
  channel : ∃ c ci, s.channel? chan = some c ∧ c.Talking srvc key ci ∧
    (∃ l, Transducer.run (speak key) mwIvInit (callsOn chan s.trace) = some (ci.outgoingIv, l) ∧
      sentOn chan s.trace = greeting :: l.map (·.toMessage)) ∧
    ∃ r, Transducer.run (hear key) mwIvInit heard = some (ci.incomingIv, r) ∧
      handed chan s.trace = r.map (srvc, ·)
  arrivals : arrivals chan s.trace = heard

/-- An event that is none of what is recorded of the channel -/
theorem Talks.log {privateKey : Nat} {srvc : UInt32} {key : EKey} {chan : ChanRef} {greeting : MwMessage}
    {heard : List ChannelMessage} {s : MwSession} (hs : Talks privateKey srvc key chan greeting heard s)
    {e : Event} (hcall : e.call? chan = none) (hsent : e.sent? chan = none)
    (harrived : e.arrived? chan = none) (hhanded : e.handed? chan = none) :
    Talks privateKey srvc key chan greeting heard (s.log e) := by
  obtain ⟨hequipped, ⟨c, ci, hc, htalking, ⟨l, hl, hlsent⟩, r, hr, hrhanded⟩, harrivals⟩ := hs
  refine ⟨hequipped.log e, ⟨c, ci, hc, htalking, ⟨l, ?_, ?_⟩, r, hr, ?_⟩, ?_⟩
  · simpa [MwSession.log, hcall] using hl
  · simpa [MwSession.log, hsent] using hlsent
  · simpa [MwSession.log, hhanded] using hrhanded
  · simpa [MwSession.log, harrived] using harrivals

/-! ## Sending -/

/-- The call of `mwChannel_sendEncrypted` on a channel -/
def MwSession.callOn (s : MwSession) (h : Hooks) (chan : ChanRef) (c : MwChannel) (type : UInt32)
    (data : MwOpaque) (encrypt : Bool) : SendCall :=
  ⟨chan, type, data, encrypt, c.cipher, s.owner? c, c.state, c.outgoingQueue, h.fresh s⟩

section

variable {h : Hooks} {chan : ChanRef} {s : MwSession} {c : MwChannel}

/-- A call on a channel that is there is recorded. -/
theorem sendEncrypted_recorded (hh : h.Respects (Eff True)) (hc : s.channel? chan = some c)
    (type : UInt32) (data : MwOpaque) (encrypt : Bool) :
    s.callOn h chan c type data encrypt ∈
      callsOn chan (mwChannelSendEncrypted h chan type data encrypt s).2.trace := by
  have hsuffix : (s.log (.send (s.callOn h chan c type data encrypt))).trace <:+
      (mwChannelSendEncrypted h chan type data encrypt s).2.trace := by
    rw [mwChannelSendEncrypted, Session.bind_apply, deref_of_some hc]
    dsimp only
    rw [Session.get_bind, record_bind]
    unfold MwSession.callOn
    cases SendCall.compose
        ⟨chan, type, data, encrypt, c.cipher, s.owner? c, c.state, c.outgoingQueue, h.fresh s⟩ with
    | none => exact List.suffix_refl _
    | some p =>
      have hrest : Keeps (Eff True) (do
          updateChannel chan fun c => { c with cipher := p.2 <|> c.cipher }
          channelSend h chan p.1 : Session Int) := by
        refine Keeps.bind (replaceChannel_keeps fun _ => rfl) fun _ => ?_
        refine derefThen_keeps chan (Keeps.pure _) fun c => ?_
        refine Keeps.ite (fun _ => sendFor_keeps hh trivial) fun _ => ?_
        exact Keeps.bind (replaceChannel_keeps fun _ => rfl) fun _ => Keeps.pure _
      exact (hrest _).trace
  refine callsOn_subset hsuffix _ ?_
  simp [MwSession.log, MwSession.callOn]

variable (hwrite : ∀ b s, (h.ioWrite b s).2 = s)

include hwrite

theorem sendEncrypted_opened (hc : s.channel? chan = some c) (hopened : c.state = .opened)
    {type : UInt32} {data : MwOpaque} {encrypt : Bool} {m : ChannelMessage}
    {ci : Option MwCipherInstance}
    (hcompose : (s.callOn h chan c type data encrypt).compose = some (m, ci)) :
    (mwChannelSendEncrypted h chan type data encrypt s).2 =
      ((s.log (.send (s.callOn h chan c type data encrypt))).setChannel chan.id
        (some { c with cipher := ci <|> c.cipher })).sent chan m.toMessage := by
  have hlog : (s.log (.send (s.callOn h chan c type data encrypt))).channel? chan = some c := hc
  have hlive := channel?_setChannel_self hlog { c with cipher := ci <|> c.cipher } rfl
  unfold MwSession.callOn at hcompose hlog hlive
  rw [mwChannelSendEncrypted, Session.bind_apply, deref_of_some hc]
  dsimp only
  rw [Session.get_bind, record_bind, hcompose]
  dsimp only
  rw [Session.bind_apply, updateChannel_of_some hlog, channelSend, Session.bind_apply,
    deref_of_some hlive]
  dsimp only
  rw [if_pos hopened, sendFor_write hwrite (by simp [ChannelMessage.toMessage])]
  rfl

end

section

variable {privateKey : Nat} {srvc : UInt32} {key : EKey} {chan : ChanRef} {greeting : MwMessage}
  {heard : List ChannelMessage} {h : Hooks} {s : MwSession}

theorem MwSession.Equipped.owner? (hs : s.Equipped privateKey srvc) {c : MwChannel}
    {ci : MwCipherInstanceRc2_128} (hc : c.cipher = some (.rc2_128 ci)) :
    s.owner? c = some (mwCipherNewRc2_128 privateKey) := by
  rw [MwSession.owner?, hc]
  exact hs.cipher

/-- What a call on an open channel sends, it sends along the running vector. -/
theorem sendEncrypted_talks (hh : h.Respects (Eff True)) (hwrite : ∀ b s, (h.ioWrite b s).2 = s)
    (type : UInt32) (data : MwOpaque) (encrypt : Bool) :
    Along chan (Talks privateKey srvc key chan greeting heard) s
      (mwChannelSendEncrypted h chan type data encrypt s).2 := by
  refine ⟨sendEncrypted_keeps hh type data encrypt s, fun hpermitted hs => ?_⟩
  obtain ⟨hequipped, ⟨c, ci, hc, htalking, ⟨l, hl, hsent⟩, r, hr, hhanded⟩, harrivals⟩ := hs
  obtain rfl := htalking.shared
  set call := s.callOn h chan c type data encrypt with hcall
  have hconveys := (hpermitted.calls call (sendEncrypted_recorded hh hc type data encrypt)).2.2
  have hcipher : call.cipher = some (.rc2_128 ci) := htalking.cipher
  have howner : call.owner = some (mwCipherNewRc2_128 privateKey) := hequipped.owner? htalking.cipher
  obtain ⟨⟨iv, m⟩, hspeak⟩ := hconveys.speak ci.shared ci.outgoingIv
  have hcompose := compose_speak hcipher howner fun hencrypt =>
    (paddedLength_lt_iff _).mpr (hconveys.padded hencrypt)
  rw [hspeak, Option.map_some] at hcompose
  have hnext : ((if call.encrypt then some (.rc2_128 { ci with outgoingIv := iv }) else none) <|>
      c.cipher) = some (MwCipherInstance.rc2_128 { ci with outgoingIv := iv }) := by
    cases hencrypt : call.encrypt with
    | true => rfl
    | false =>
      rw [speak, if_neg (by simp [hencrypt])] at hspeak
      obtain ⟨rfl, -⟩ := Prod.mk.inj (Option.some.inj hspeak)
      exact htalking.cipher
  rw [sendEncrypted_opened hwrite hc htalking.state hcompose, ← hcall, hnext]
  have hlive := channel?_setChannel_self (s := s.log (.send call)) hc
    { c with cipher := some (.rc2_128 { ci with outgoingIv := iv }) } rfl
  have hchan : call.chan = chan := rfl
  refine ⟨((hequipped.log _).setChannel _ _).sent _ _, ⟨_, { ci with outgoingIv := iv }, hlive, ?_,
    ⟨l ++ [m], ?_, ?_⟩, r, hr, ?_⟩, ?_⟩
  · exact ⟨htalking.state, htalking.service, htalking.supported, rfl, htalking.shared,
      htalking.outgoing, htalking.incoming⟩
  · simpa [MwSession.sent, MwSession.log, MwSession.setChannel, Event.call?, hchan] using
      Transducer.run_concat hl hspeak
  · simp [MwSession.sent, MwSession.log, MwSession.setChannel, Event.sent?, hsent]
  · simpa [MwSession.sent, MwSession.log, MwSession.setChannel, Event.handed?] using hhanded
  · simpa [MwSession.sent, MwSession.log, MwSession.setChannel, Event.arrived?] using harrivals

/-! ## Receiving -/

theorem setChannel_self {id : UInt32} {c : MwChannel} (hc : s.channels.map id = some c) :
    s.setChannel id (some c) = s := by
  rw [MwSession.setChannel, ← hc, Function.update_eq_self]

/-- Nothing is done to a channel in which nothing waits. -/
theorem flushChannel_empty {c : MwChannel} (hc : s.channel? chan = some c)
    (hincoming : c.incomingQueue = []) (houtgoing : c.outgoingQueue = []) :
    flushChannel h chan s = ((), s) := by
  have hin : { c with incomingQueue := [] } = c := by rw [← hincoming]
  have hout : { c with outgoingQueue := [] } = c := by rw [← houtgoing]
  have hset := setChannel_self (map_of_channel? hc).1
  rw [flushChannel, Session.bind_apply, deref_of_some hc]
  dsimp only
  rw [hincoming, Session.bind_apply, flushIncoming]
  dsimp only [Session.pure_apply]
  rw [Session.bind_apply, updateChannel_of_some hc, hin, hset, Session.bind_apply, deref_of_some hc]
  dsimp only
  rw [houtgoing, Session.bind_apply, flushOutgoing]
  dsimp only [Session.pure_apply]
  rw [updateChannel_of_some hc, hout, hset]

/-- A message that fits the running vector is handed on along it. -/
theorem recv_talks {m : ChannelMessage} {p : Block × List (UInt16 × MwOpaque)}
    (hcall : ∀ cb, Keeps (Along chan (Talks privateKey srvc key chan greeting (heard ++ [m]))) (h.call cb))
    (hs : Talks privateKey srvc key chan greeting heard s)
    (hrun : Transducer.run (hear key) mwIvInit (heard ++ [m]) = some p) :
    let s0 := s.log (.channel chan (.arrives m.toMessage))
    Permitted chan (mwChannelRecv h chan m s0).2.trace →
      Talks privateKey srvc key chan greeting (heard ++ [m]) (mwChannelRecv h chan m s0).2 := by
  intro s0
  obtain ⟨iv, r'⟩ := p
  obtain ⟨hequipped, ⟨c, ci, hc, htalking, ⟨l, hl, hsent⟩, r, hr, hhanded⟩, harrivals⟩ := hs
  obtain rfl := htalking.shared
  obtain ⟨⟨type, data⟩, hstep, rfl⟩ := Transducer.run_concat_eq_some hr hrun
  have htype : type = m.msg.type := by
    unfold hear at hstep
    split at hstep
    · obtain ⟨d, -, hstep⟩ := Option.bind_eq_some_iff.mp hstep
      obtain ⟨o, -, hstep⟩ := Option.bind_eq_some_iff.mp hstep
      exact (Prod.mk.inj (Prod.mk.inj (Option.some.inj hstep)).2).1.symm
    · exact (Prod.mk.inj (Prod.mk.inj (Option.some.inj hstep)).2).1.symm
  subst htype
  have hdata := receivedData_hear htalking.cipher m
  rw [hstep, Option.map_some] at hdata
  have hc0 : s0.channel? chan = some c := hc
  obtain ⟨srvc', hsrvc, hrecv⟩ := (Option.any_eq_true _ _).mp hequipped.service
  have hsrvc0 : s0.service? c.service = some srvc' := by
    rw [htalking.service]
    exact hsrvc
  have hsrvctype : srvc'.type = srvc := by simpa using List.find?_some hsrvc
  set c1 : MwChannel :=
    { c with msgRecv := c.msgRecv + 1, cipher := some (.rc2_128 { ci with incomingIv := iv }) } with hc1
  set s1 := (s0.setChannel chan.id (some c1)).log (.callback (.recv srvc chan m.msg.type data)) with hs1
  have happly : mwChannelRecv h chan m s0 = h.call (.recv srvc chan m.msg.type data) s1 := by
    rw [mwChannelRecv, Session.bind_apply, deref_of_some hc0]
    dsimp only
    rw [if_pos htalking.state, channelRecv, Session.bind_apply, deref_of_some hc0]
    dsimp only
    rw [Session.get_bind, hdata, hsrvc0]
    dsimp only [Option.map_some]
    rw [Session.bind_apply, updateChannel_of_some hc0, mwServiceRecv]
    dsimp only
    rw [if_pos hrecv, callback, record_bind, hsrvctype]
  have hlive : s1.channel? chan = some c1 := channel?_setChannel_self hc0 c1 rfl
  have htalks : Talks privateKey srvc ci.shared chan greeting (heard ++ [m]) s1 := by
    refine ⟨((hequipped.log _).setChannel _ _).log _, ⟨c1, { ci with incomingIv := iv }, hlive, ?_,
      ⟨l, ?_, ?_⟩, _, hrun, ?_⟩, ?_⟩
    · exact ⟨htalking.state, htalking.service, htalking.supported, rfl, htalking.shared,
        htalking.outgoing, htalking.incoming⟩
    · simpa [hs1, s0, MwSession.log, MwSession.setChannel, Event.call?] using hl
    · simpa [hs1, s0, MwSession.log, MwSession.setChannel, Event.sent?] using hsent
    · simp [hs1, s0, MwSession.log, MwSession.setChannel, hhanded]
    · simp [hs1, s0, MwSession.log, MwSession.setChannel, Event.arrived?, harrivals,
        ChannelMessage.toMessage]
  rw [happly]
  exact fun hpermitted => (hcall _ s1).keeps hpermitted htalks

end

end Meanwhile
