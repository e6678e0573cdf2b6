-- SUMMARY: What becomes of the messages that are sent on a channel: in which order they are written, and how.
import Meanwhile.Channel.Ciphers
import Meanwhile.Cipher.Rc2Inverse
import Meanwhile.Message.RoundTrip

/-!
# Sending on a channel

A message is composed when it is sent, and written then if the channel is open. Else it
waits in the queue of the channel, which is written when the channel has been opened and
the service has been told. `SendEffect` is all that a step can do to the calls that have
been made, to what has been written and to what waits.
-/

namespace Meanwhile

/-! ## Calls and messages -/

def Event.call? (chan : ChanRef) : Event → Option SendCall
  | .send call => if call.chan = chan then some call else none
  | _ => none

def Event.written? (chan : ChanRef) : Event → Option ChannelMessage
  | .channel chan' (.sends ⟨head, .channelSend msg⟩) => if chan' = chan then some ⟨head, msg⟩ else none
  | _ => none

/-- The calls of `mwChannel_sendEncrypted` on a channel, in order -/
def callsOn (chan : ChanRef) (t : List Event) : List SendCall := (t.filterMap (·.call? chan)).reverse

/-- The `CHANNEL_SEND` messages written for a channel, in order -/
def written (chan : ChanRef) (t : List Event) : List ChannelMessage :=
  (t.filterMap (·.written? chan)).reverse

/-- The message of a call -/
def SendCall.message? (call : SendCall) : Option ChannelMessage := call.compose.map (·.1)

/-- The messages that wait to be written -/
def ChannelView.waiting (v : ChannelView) : List ChannelMessage :=
  match v.life with
  | .live c => c.outgoingQueue
  | _ => []

section

variable {chan : ChanRef} {t : List Event}

@[simp] theorem callsOn_cons (e : Event) :
    callsOn chan (e :: t) = callsOn chan t ++ (e.call? chan).toList := by
  unfold callsOn
  cases h : e.call? chan <;> simp [h]

@[simp] theorem written_cons (e : Event) :
    written chan (e :: t) = written chan t ++ (e.written? chan).toList := by
  unfold written
  cases h : e.written? chan <;> simp [h]

@[simp] theorem call?_channel (chan' : ChanRef) (e : ChannelEvent) :
    (Event.channel chan' e).call? chan = none := rfl

@[simp] theorem call?_callback (cb : Callback) : (Event.callback cb).call? chan = none := rfl

@[simp] theorem call?_select (cipher : Bool) : (Event.select chan cipher).call? chan = none := rfl

@[simp] theorem written?_call (call : SendCall) : (Event.send call).written? chan = none := rfl

@[simp] theorem written?_message (m : ChannelMessage) :
    (Event.channel chan (.sends m.toMessage)).written? chan = some m := by
  simp [Event.written?, ChannelMessage.toMessage]

theorem callsOn_flushed (l : List ChannelMessage) : callsOn chan (flushed chan l t) = callsOn chan t := by
  induction l generalizing t with
  | nil => rfl
  | cons m l ih =>
    have hrest := ih (t := .channel chan (.sends m.toMessage) :: t)
    simpa [flushed] using hrest

theorem written_flushed (l : List ChannelMessage) :
    written chan (flushed chan l t) = written chan t ++ l := by
  induction l generalizing t with
  | nil => simp [flushed]
  | cons m l ih =>
    have hrest := ih (t := .channel chan (.sends m.toMessage) :: t)
    simpa [flushed] using hrest

theorem callsOn_subset {t' : List Event} (h : t <:+ t') : ∀ call ∈ callsOn chan t, call ∈ callsOn chan t' := by
  intro call hcall
  unfold callsOn at hcall ⊢
  rw [List.mem_reverse, List.mem_filterMap] at hcall ⊢
  obtain ⟨e, he, hcall⟩ := hcall
  exact ⟨e, h.subset he, hcall⟩

end

/-- A call whose cipher instance, if it has one, belongs to a cipher of its type -/
def SendCall.Owned (call : SendCall) : Prop :=
  ∀ ci, call.cipher = some ci → ∃ cipher : MwCipher, call.owner = some cipher ∧ cipher.type = ci.type

/-- All that a step can do to what is sent on a channel -/
inductive SendEffect (chan : ChanRef) (v v' : ChannelView) : Prop where
  | quiet (hcalls : callsOn chan v'.history = callsOn chan v.history)
      (hwritten : written chan v'.history = written chan v.history)
      (hwaiting : v'.life = .gone ∨ v'.waiting = v.waiting)
  | send {call : SendCall} {m : ChannelMessage} (howned : call.Owned) (hstate : call.state = .opened)
      (hqueue : call.queue = v.waiting) (hm : call.message? = some m)
      (hcalls : callsOn chan v'.history = callsOn chan v.history ++ [call])
      (hwritten : written chan v'.history = written chan v.history ++ [m])
      (hwaiting : v'.waiting = v.waiting)
  | queue {call : SendCall} {m : ChannelMessage} (howned : call.Owned) (hstate : call.state ≠ .opened)
      (hm : call.message? = some m)
      (hcalls : callsOn chan v'.history = callsOn chan v.history ++ [call])
      (hwritten : written chan v'.history = written chan v.history)
      (hwaiting : v'.waiting = v.waiting ++ [m])
  | garbled {call : SendCall} (howned : call.Owned) (hm : call.message? = none)
      (hcalls : callsOn chan v'.history = callsOn chan v.history ++ [call])
      (hwritten : written chan v'.history = written chan v.history)
      (hwaiting : v'.waiting = v.waiting)
  | flush (hcalls : callsOn chan v'.history = callsOn chan v.history)
      (hwritten : written chan v'.history = written chan v.history ++ v.waiting)
      (hwaiting : v'.waiting = [])

section

variable {k : Setting} {chan : ChanRef} {v v' : ChannelView}

theorem SmallStep.ne_gone (h : SmallStep k chan v v') : v.life ≠ .gone := by
  intro hgone
  obtain ⟨life, t⟩ := v
  obtain rfl : life = .gone := hgone
  cases h with
  | call h => cases h

theorem SendCall.Suits.owned {c : MwChannel} {t : List Event} {call : SendCall}
    (h : call.Suits k chan c) (hregistered : Registered k ⟨.live c, t⟩) : call.Owned := by
  intro ci hci
  rw [h.cipher] at hci
  exact h.owner ci hci (hregistered c rfl _ (.inr (by rw [hci]; rfl)))

theorem enterState_quiet (chan : ChanRef) (c : MwChannel) (state : MwChannelState) (t : List Event) :
    callsOn chan (enterState chan c state t) = callsOn chan t ∧
      written chan (enterState chan c state t) = written chan t := by
  unfold enterState
  split
  · exact ⟨rfl, rfl⟩
  · simp [Event.written?]

theorem Selects.quiet {c c' : MwChannel} {t t' : List Event} (h : Selects chan (c, t) (c', t')) :
    callsOn chan t' = callsOn chan t ∧ written chan t' = written chan t ∧
      c'.outgoingQueue = c.outgoingQueue := by
  cases h with
  | before => exact ⟨rfl, rfl, rfl⟩
  | now => simp [Event.written?, MwChannel.selected]

theorem CallStep.sendEffect (h : CallStep k chan v v') (hregistered : Registered k v) :
    SendEffect chan v v' := by
  cases h with
  | describe hsame => exact .quiet rfl rfl (.inr hsame.outgoingQueue)
  | setService | populate => exact .quiet rfl rfl (.inr rfl)
  | select => exact .quiet (by simp) (by simp [Event.written?]) (.inr rfl)
  | create => exact .quiet (by simp) (by simp [Event.written?]) (.inr rfl)
  | @destroy c t reason info =>
    obtain ⟨hcalls, hwritten⟩ := enterState_quiet chan c (closedState reason) t
    exact .quiet (by simpa using hcalls) (by simpa [Event.written?, destroyMessage] using hwritten)
      (.inl rfl)
  | send hcall hmsg hopened =>
    exact .send (hcall.owned hregistered) (hcall.state.trans hopened) hcall.queue
      (by rw [SendCall.message?, hmsg]; rfl) (by simp [Event.call?, hcall.chan]) (by simp) rfl
  | queue hcall hmsg hopened =>
    exact .queue (hcall.owned hregistered) (by rwa [hcall.state])
      (by rw [SendCall.message?, hmsg]; rfl) (by simp [Event.call?, hcall.chan]) (by simp) rfl
  | garbled hcall hmsg =>
    exact .garbled (hcall.owned hregistered) (by rw [SendCall.message?, hmsg]; rfl)
      (by simp [Event.call?, hcall.chan]) (by simp) rfl

theorem SmallStep.sendEffect (h : SmallStep k chan v v') (hregistered : Registered k v) :
    SendEffect chan v v' := by
  cases h with
  | call h => exact h.sendEffect hregistered
  | newOutgoing => exact .quiet (by simp) (by simp [Event.written?]) (.inr rfl)
  | missed | removed => exact .quiet rfl rfl (.inl rfl)
  | refused =>
    exact .quiet (by simp) (by simp [Event.written?, destroyMessage]) (.inl rfl)
  | announced _ _ _ _ _ _ _ hqueues =>
    exact .quiet (by simp) (by simp [Event.written?]) (.inr hqueues.1)
  | @closed c reason t =>
    obtain ⟨hcalls, hwritten⟩ := enterState_quiet chan c (closedState reason) t
    exact .quiet (by simpa using hcalls) (by simpa [Event.written?, destroyMessage] using hwritten)
      (.inl rfl)
  | @accepts c c' t t' _ _ _ _ _ hselect =>
    have hquiet : callsOn chan t' = callsOn chan t ∧ written chan t' = written chan t ∧
        c'.outgoingQueue = c.outgoingQueue := by
      obtain ⟨-, hselect⟩ | ⟨-, heq⟩ := hselect
      · exact hselect.quiet
      · obtain ⟨rfl, rfl⟩ := Prod.mk.inj heq
        exact ⟨rfl, rfl, rfl⟩
    exact .quiet (by simpa using hquiet.1) (by simpa [Event.written?] using hquiet.2.1)
      (.inr hquiet.2.2)
  | accepted _ _ hsame hselect =>
    obtain ⟨hcalls, hwritten, hqueue⟩ := hselect.quiet
    exact .quiet (by simpa using hcalls) (by simpa [Event.written?] using hwritten)
      (.inr (hqueue.trans hsame.outgoingQueue))
  | @destroyed c reason t =>
    obtain ⟨hcalls, hwritten⟩ := enterState_quiet chan c (closedState reason) t
    exact .quiet hcalls hwritten (.inr rfl)
  | arrives | handed => exact .quiet (by simp) (by simp [Event.written?]) (.inr rfl)
  | queued | received => exact .quiet rfl rfl (.inr rfl)
  | flushed => exact .flush (callsOn_flushed _) (written_flushed _) rfl

/-! ## Composing -/

/-- A call that a message can be made of. With its head and its two counts the message is
fourteen bytes longer than the data, and `mwSession_send` writes its length in 32 bits; the
cipher copies the data with an `int` for a counter. -/
structure SendCall.Fits (call : SendCall) : Prop where
  counted : call.data.length + 14 < 2 ^ 32
  copied : call.encrypt = true → call.cipher ≠ none → call.data.length < 2 ^ 31

theorem paddedLength_lt_iff (n : Nat) : paddedLength n < 2 ^ 31 ↔ n < 2 ^ 31 - 8 := by
  unfold paddedLength
  omega

theorem mwEncryptExpanded_of_int (fresh : Block) (ekey : EKey) (iv : Block) {data : MwOpaque}
    (h : data.length < 2 ^ 31) : ∃ p, mwEncryptExpanded fresh ekey iv data = some p :=
  Option.ne_none_iff_exists'.mp fun hnone =>
    Nat.not_le.mpr h ((mwEncryptExpanded_eq_none_iff fresh ekey iv data).mp hnone)

/-- Whatever comes out has the padded length. -/
theorem length_mwEncryptExpanded {fresh : Block} {ekey : EKey} {iv : Block} {data : MwOpaque}
    {p : Block × MwOpaque} (h : mwEncryptExpanded fresh ekey iv data = some p) :
    p.2.length = paddedLength data.length ∧ data.length < 2 ^ 31 := by
  have hint : data.length < 2 ^ 31 := by
    refine Nat.not_le.mp fun hle => ?_
    rw [(mwEncryptExpanded_eq_none_iff fresh ekey iv data).mpr hle] at h
    exact absurd h (by simp)
  refine ⟨?_, hint⟩
  have hpad : paddedLength data.length = data.length + (8 - data.length % 8) := rfl
  obtain hlt | hle := Nat.lt_or_ge (paddedLength data.length) (2 ^ 31)
  · obtain ⟨n, hn⟩ : 8 ∣ paddedLength data.length := (paddedLength_isLeast data.length).1.1
    rw [mwEncryptExpanded_of_lt fresh ekey iv hlt] at h
    obtain rfl := Option.some.inj h
    have hpadded : (data ++ List.replicate (paddedLength data.length - data.length)
        (UInt8.ofNat (paddedLength data.length - data.length))).length = 8 * n := by
      rw [List.length_append, List.length_replicate]
      omega
    rw [(decryptLoop_encryptLoop ekey iv hpadded).2, hpadded, hn]
  · rw [mwEncryptExpanded, if_neg (Nat.not_le.mpr hint), if_pos hle] at h
    obtain rfl := Option.some.inj h
    rw [List.length_append, List.length_drop, show fresh.toList.length = 8 from rfl]
    omega

theorem mwCipherInstanceEncrypt_of_int (fresh : Block) {cipher : MwCipher} {ci : MwCipherInstance}
    {data : MwOpaque} (htype : cipher.type = ci.type) (h : data.length < 2 ^ 31) :
    ∃ p, mwCipherInstanceEncrypt fresh data cipher ci = some p := by
  cases ci with
  | rc2_40 ci =>
    cases cipher with
    | rc2_128 c => exact absurd htype (by simp [MwCipher.type, MwCipherInstance.type])
    | rc2_40 c =>
      obtain ⟨p, hp⟩ := mwEncryptExpanded_of_int fresh c.sessionKey ci.outgoingIv h
      exact ⟨_, by simp only [mwCipherInstanceEncrypt, hp]; rfl⟩
  | rc2_128 ci =>
    obtain ⟨p, hp⟩ := mwEncryptExpanded_of_int fresh ci.shared ci.outgoingIv h
    cases cipher <;> exact ⟨_, by simp only [mwCipherInstanceEncrypt, hp]; rfl⟩

theorem length_mwCipherInstanceEncrypt {fresh : Block} {cipher : MwCipher} {ci ci' : MwCipherInstance}
    {data o : MwOpaque} (h : mwCipherInstanceEncrypt fresh data cipher ci = some (ci', o)) :
    o.length ≤ data.length + 8 := by
  have hlength {ekey : EKey} {iv : Block} {q : Block × MwOpaque}
      (hq : mwEncryptExpanded fresh ekey iv data = some q) : q.2.length ≤ data.length + 8 := by
    rw [(length_mwEncryptExpanded hq).1, paddedLength]
    omega
  unfold mwCipherInstanceEncrypt at h
  split at h
  · obtain ⟨q, hq, h⟩ := Option.bind_eq_some_iff.mp h
    obtain ⟨-, rfl⟩ := Prod.mk.inj (Option.some.inj h)
    exact hlength hq
  · obtain ⟨q, hq, h⟩ := Option.bind_eq_some_iff.mp h
    obtain ⟨-, rfl⟩ := Prod.mk.inj (Option.some.inj h)
    exact hlength hq
  · obtain ⟨-, rfl⟩ := Prod.mk.inj (Option.some.inj h)
    exact Nat.le_add_right _ _

/-- The message of a call that is to be encrypted and can be: the padded data still fit an
`int`. -/
structure SendCall.Encrypted (call : SendCall) (m : ChannelMessage) : Prop where
  options : m.head.options = optionEncrypt
  channel : m.head.channel = call.chan.id
  type : m.msg.type = call.type.toUInt16
  padded : paddedLength call.data.length < 2 ^ 31
  data : ∃ cipher ci ci', call.owner = some cipher ∧ call.cipher = some ci ∧
    cipher.type = ci.type ∧
    mwCipherInstanceEncrypt call.fresh call.data cipher ci = some (ci', m.msg.data)

/-- A call with a cipher comes to a message, encrypted or not. -/
theorem SendCall.Owned.composed {call : SendCall} (howned : call.Owned)
    (hencrypt : call.encrypt = true) (hcipher : call.cipher ≠ none)
    (hlength : call.data.length < 2 ^ 31) :
    ∃ m, call.message? = some m ∧ m.head = { options := optionEncrypt, channel := call.chan.id } ∧
      m.msg.type = call.type.toUInt16 ∧
      ∃ cipher ci ci', call.owner = some cipher ∧ call.cipher = some ci ∧ cipher.type = ci.type ∧
        mwCipherInstanceEncrypt call.fresh call.data cipher ci = some (ci', m.msg.data) := by
  obtain ⟨ci, hci⟩ := Option.ne_none_iff_exists'.mp hcipher
  obtain ⟨cipher, howner, htype⟩ := howned ci hci
  obtain ⟨⟨ci', o⟩, henc⟩ := mwCipherInstanceEncrypt_of_int call.fresh htype hlength
  have hcompose : call.compose = some ({ head := { options := optionEncrypt, channel := call.chan.id }
                                         msg := { type := call.type.toUInt16, data := o } }, some ci') := by
    unfold SendCall.compose
    rw [hencrypt, hci]
    simp only [howner, Option.bind_eq_bind, Option.bind_some, henc]
    rfl
  exact ⟨_, by rw [SendCall.message?, hcompose]; rfl, rfl, rfl, cipher, ci, ci', howner, hci, htype, henc⟩

theorem SendCall.Owned.encrypted {call : SendCall} (howned : call.Owned)
    (hencrypt : call.encrypt = true) (hcipher : call.cipher ≠ none)
    (hlength : call.data.length < 2 ^ 31 - 8) :
    ∃ m, call.message? = some m ∧ call.Encrypted m := by
  obtain ⟨m, hm, hhead, htype, hdata⟩ := howned.composed hencrypt hcipher (by omega)
  exact ⟨m, hm, by rw [hhead], by rw [hhead], htype, (paddedLength_lt_iff _).mpr hlength, hdata⟩

theorem SendCall.Owned.message {call : SendCall} (howned : call.Owned) (hfits : call.Fits) :
    call.message? ≠ none := by
  unfold SendCall.message? SendCall.compose
  split
  · rename_i ci hencrypt hci
    obtain ⟨m, hm, -⟩ := howned.composed hencrypt (by simp [hci]) (hfits.copied hencrypt (by simp [hci]))
    unfold SendCall.message? SendCall.compose at hm
    rw [hencrypt, hci] at hm
    simp only at hm
    rw [hm]
    simp
  · simp

/-! ## Messages as bytes -/

/-- Its length fits the word in front of it, and decoding its bytes gives it back. -/
structure ChannelMessage.Carried (m : ChannelMessage) : Prop where
  counted : MwOpaque.Fits (mwMessagePut m.toMessage)
  decoded : ∀ u, (mwMessageGet u (.wrapOpaque (mwMessagePut m.toMessage))).1 = some m.toMessage

theorem ChannelMessage.carried {m : ChannelMessage} (hattribs : m.head.attribs = [])
    (hoption : m.head.hasOption optionHasAttribs = false) (hlength : m.msg.data.length + 14 < 2 ^ 32) :
    m.Carried := by
  obtain ⟨head, msg⟩ := m
  have hhead : head.Normal := ⟨by rw [show head.attribs = [] from hattribs]; exact (by decide), fun _ => hattribs⟩
  have hdata : msg.data.Fits := by
    unfold MwOpaque.Fits
    dsimp only at hlength
    omega
  refine ⟨?_, fun u => ?_⟩
  · have hput : (mwMessagePut (ChannelMessage.toMessage ⟨head, msg⟩)).length = msg.data.length + 14 := by
      simp only [ChannelMessage.toMessage, mwMessagePut, mwMessageHeadPut, channelSendPut, mwOpaquePut,
        show head.hasOption optionHasAttribs = false from hoption, List.length_append, guint16Put_length,
        guint32Put_length, Bool.false_eq_true, if_false, List.length_nil]
      omega
    rw [MwOpaque.Fits, hput]
    exact hlength
  · have hget (pre : List UInt8) := channelSendGet_between hdata pre []
    rw [GetBuffer.wrapOpaque_eq_between, ChannelMessage.toMessage, mwMessagePut, MwMessage.type,
      mwMessageGet_between hhead]
    simp only [List.append_nil] at hget
    simp [mwMessageBodyGet, MwMessageBody.type, hget]

/-- What a call comes to is carried. -/
theorem SendCall.Fits.carried {call : SendCall} (hfits : call.Fits) {m : ChannelMessage}
    (hm : call.message? = some m) : m.Carried := by
  have hcounted := hfits.counted
  obtain ⟨⟨m', ci⟩, hcompose, rfl⟩ := Option.map_eq_some_iff.mp hm
  unfold SendCall.compose at hcompose
  split at hcompose
  · rename_i ci0 hencrypt hci0
    obtain ⟨cipher, howner, hcompose⟩ := Option.bind_eq_some_iff.mp hcompose
    obtain ⟨⟨ci1, o⟩, henc, hcompose⟩ := Option.bind_eq_some_iff.mp hcompose
    obtain ⟨rfl, -⟩ := Prod.mk.inj (Option.some.inj hcompose)
    have hle := length_mwCipherInstanceEncrypt henc
    have hint := hfits.copied hencrypt (by simp [hci0])
    have hoption : optionEncrypt &&& optionHasAttribs = 0 := by decide
    refine ChannelMessage.carried rfl (by simp [MwMessageHead.hasOption, hoption]) ?_
    dsimp only
    omega
  · obtain ⟨rfl, -⟩ := Prod.mk.inj (Option.some.inj hcompose)
    exact ChannelMessage.carried rfl (by simp [MwMessageHead.hasOption]) hcounted

/-! ## The order of messages -/

/-- A call that overtakes no other: if the channel is open, nothing waits there. -/
def SendCall.InTurn (call : SendCall) : Prop := call.state = .opened → call.queue = []

/-- The messages of all calls, in order: some have been written, the others wait. -/
def Sending (chan : ChanRef) (v : ChannelView) : Prop :=
  ∃ l, (callsOn chan v.history).map (·.message?) = (written chan v.history ++ l).map some ∧
    (v.life ≠ .gone → l = v.waiting)

theorem SendEffect.sending (h : SendEffect chan v v') (hlive : v.life ≠ .gone)
    (hcalls : ∀ call ∈ callsOn chan v'.history, call.InTurn ∧ call.Fits) (hv : Sending chan v) :
    Sending chan v' := by
  obtain ⟨l, hl, hwaiting⟩ := hv
  obtain rfl := hwaiting hlive
  unfold Sending
  cases h with
  | quiet hcalls' hwritten hwaiting' =>
    rw [hcalls', hwritten]
    refine ⟨_, hl, fun hne => ?_⟩
    exact (hwaiting'.resolve_left hne).symm
  | send howned hstate hqueue hm hcalls' hwritten hwaiting' =>
    rename_i call m
    have hempty : v.waiting = [] := by
      rw [← hqueue]
      exact (hcalls call (by rw [hcalls']; simp)).1 hstate
    rw [hcalls', hwritten]
    refine ⟨[], ?_, fun _ => by rw [hwaiting', hempty]⟩
    rw [hempty] at hl
    rw [List.map_append, hl]
    simp [hm]
  | queue howned hstate hm hcalls' hwritten hwaiting' =>
    rw [hcalls', hwritten]
    refine ⟨_, ?_, fun _ => hwaiting'.symm⟩
    rw [List.map_append, hl]
    simp [hm]
  | garbled howned hm hcalls' hwritten hwaiting' =>
    rename_i call
    exact absurd hm (howned.message (hcalls call (by rw [hcalls']; simp)).2)
  | flush hcalls' hwritten hwaiting' =>
    rw [hcalls', hwritten]
    refine ⟨[], ?_, fun _ => hwaiting'.symm⟩
    rw [hl]
    simp

theorem Lives.sending (h : Lives k chan ⟨.unborn, []⟩ v)
    (hcalls : ∀ call ∈ callsOn chan v.history, call.InTurn ∧ call.Fits) : Sending chan v := by
  refine (h.keeps (I := fun v => Registered k v ∧
    ((∀ call ∈ callsOn chan v.history, call.InTurn ∧ call.Fits) → Sending chan v)) ?_ ⟨?_, ?_⟩).2 hcalls
  · rintro v v' hstep ⟨hregistered, hv⟩
    refine ⟨hstep.registered hregistered, fun hcalls => ?_⟩
    refine (hstep.sendEffect hregistered).sending hstep.ne_gone hcalls (hv fun call hcall => ?_)
    exact hcalls call (callsOn_subset hstep.suffix call hcall)
  · exact fun _ hc => absurd hc (by simp)
  · exact fun _ => ⟨[], rfl, fun _ => rfl⟩

/-! ## Every message is written or waits -/

/-- What has been sent on a channel that is still there has been written or waits, and what
was sent while it was open has been written. -/
structure Carried (chan : ChanRef) (v : ChannelView) : Prop where
  owned : ∀ call ∈ callsOn chan v.history, call.Owned
  opened : ∀ call ∈ callsOn chan v.history, ∀ m, call.message? = some m → call.state = .opened →
    m ∈ written chan v.history
  all : ∀ call ∈ callsOn chan v.history, ∀ m, call.message? = some m → v.life ≠ .gone →
    m ∈ written chan v.history ∨ m ∈ v.waiting

theorem SendEffect.carried (h : SendEffect chan v v') (hlive : v.life ≠ .gone)
    (hv : Carried chan v) : Carried chan v' := by
  have hcons {call0 : SendCall} {P : SendCall → Prop} (hP : ∀ call ∈ callsOn chan v.history, P call)
      (hcall0 : P call0) : ∀ call ∈ callsOn chan v.history ++ [call0], P call := by
    intro call hmem
    obtain hmem | hmem := List.mem_append.mp hmem
    · exact hP call hmem
    · rwa [List.mem_singleton.mp hmem]
  cases h with
  | quiet hcalls hwritten hwaiting =>
    refine ⟨?_, ?_, ?_⟩
    · rw [hcalls]
      exact hv.owned
    · rw [hcalls, hwritten]
      exact hv.opened
    · rw [hcalls, hwritten]
      intro call hcall m hm hne
      rw [hwaiting.resolve_left hne]
      exact hv.all call hcall m hm hlive
  | send howned hstate hqueue hm hcalls hwritten hwaiting =>
    refine ⟨?_, ?_, ?_⟩ <;> rw [hcalls]
    · exact hcons hv.owned howned
    · rw [hwritten]
      refine hcons (fun call hcall m hm hstate => ?_) fun m' hm' _ => ?_
      · exact List.mem_append_left _ (hv.opened call hcall m hm hstate)
      · simp [Option.some.inj (hm.symm.trans hm')]
    · rw [hwritten, hwaiting]
      refine hcons (fun call hcall m hm _ => ?_) fun m' hm' _ => ?_
      · exact (hv.all call hcall m hm hlive).imp_left (List.mem_append_left _)
      · simp [Option.some.inj (hm.symm.trans hm')]
  | queue howned hstate hm hcalls hwritten hwaiting =>
    refine ⟨?_, ?_, ?_⟩ <;> rw [hcalls]
    · exact hcons hv.owned howned
    · rw [hwritten]
      exact hcons hv.opened fun _ _ hopened => absurd hopened hstate
    · rw [hwritten, hwaiting]
      refine hcons (fun call hcall m hm _ => ?_) fun m' hm' _ => ?_
      · exact (hv.all call hcall m hm hlive).imp_right (List.mem_append_left _)
      · simp [Option.some.inj (hm.symm.trans hm')]
  | garbled howned hm hcalls hwritten hwaiting =>
    refine ⟨?_, ?_, ?_⟩ <;> rw [hcalls]
    · exact hcons hv.owned howned
    · rw [hwritten]
      exact hcons hv.opened fun _ hm' => absurd (hm.symm.trans hm') (by simp)
    · rw [hwritten, hwaiting]
      exact hcons (fun call hcall m hm _ => hv.all call hcall m hm hlive)
        fun _ hm' => absurd (hm.symm.trans hm') (by simp)
  | flush hcalls hwritten hwaiting =>
    refine ⟨?_, ?_, ?_⟩ <;> rw [hcalls]
    · exact hv.owned
    · rw [hwritten]
      exact fun call hcall m hm hstate => List.mem_append_left _ (hv.opened call hcall m hm hstate)
    · rw [hwritten]
      exact fun call hcall m hm _ => .inl (List.mem_append.mpr (hv.all call hcall m hm hlive))

theorem Lives.carried (h : Lives k chan ⟨.unborn, []⟩ v) : Carried chan v := by
  refine (h.keeps (I := fun v => Registered k v ∧ Carried chan v) ?_ ⟨?_, ?_⟩).2
  · rintro v v' hstep ⟨hregistered, hv⟩
    exact ⟨hstep.registered hregistered,
      (hstep.sendEffect hregistered).carried hstep.ne_gone hv⟩
  · exact fun _ hc => absurd hc (by simp)
  · exact ⟨by simp [callsOn], by simp [callsOn], by simp [callsOn]⟩

end

/-! ## Runs -/

/-- What is read off the events of a channel is read off its history. -/
theorem filterMap_isOf {α : Type} {chan : ChanRef} {f : Event → Option α}
    (hf : ∀ e, e.isOf chan = false → f e = none) (t : List Event) :
    (t.filter (·.isOf chan)).filterMap f = t.filterMap f := by
  rw [List.filterMap_filter]
  congr 1
  funext e
  split
  · rfl
  · rename_i hof
    exact (hf e (by simpa using hof)).symm

theorem callsOn_filter (chan : ChanRef) (t : List Event) :
    callsOn chan (t.filter (·.isOf chan)) = callsOn chan t := by
  unfold callsOn
  rw [filterMap_isOf fun e he => ?_]
  unfold Event.call?
  split
  · simpa [Event.isOf] using he
  · rfl

theorem written_filter (chan : ChanRef) (t : List Event) :
    written chan (t.filter (·.isOf chan)) = written chan t := by
  unfold written
  rw [filterMap_isOf fun e he => ?_]
  unfold Event.written?
  split
  · simpa [Event.isOf] using he
  · rfl

/-- The messages of all calls on a channel are written in the order of the calls, or they
still wait in that order. Nothing waits in an open channel. What is written can be read from
its bytes. -/
def MwSession.WritesInOrder (s : MwSession) (chan : ChanRef) : Prop :=
  (∃ l, (callsOn chan s.trace).map (·.message?) = (written chan s.trace ++ l).map some ∧
    ∀ c, s.channel? chan = some c → l = c.outgoingQueue ∧ (c.state = .opened → l = [])) ∧
  ∀ m ∈ written chan s.trace, m.Carried

theorem run_writesInOrder (env : Env) (n : Nat) (handler : MwSessionHandler)
    (services : List MwService) (ciphers : List MwCipher) (attributes : Attributes) (chan : ChanRef)
    (commands : List Command) (hwrites : env.OnlyWrites) :
    let s := run (env.hooks n) commands (mwSessionNew handler services ciphers attributes)
    (∀ call ∈ callsOn chan s.trace, call.InTurn ∧ call.Fits) → s.WritesInOrder chan := by
  intro s hcalls
  have hlives : Lives (Setting.ofNew services ciphers False fun _ _ => True) chan ⟨.unborn, []⟩
      (s.view chan) :=
    (runAny_lives n handler services ciphers attributes commands hwrites False.elim).2
  have hhistory : callsOn chan (s.view chan).history = callsOn chan s.trace := callsOn_filter chan _
  obtain ⟨l, hl, hwaiting⟩ := hlives.sending (by rwa [hhistory])
  rw [hhistory, show written chan (s.view chan).history = _ from written_filter chan _] at hl
  refine ⟨⟨l, hl, fun c hc => ?_⟩, fun m hm => ?_⟩
  rotate_left
  · have hmem : some m ∈ (written chan s.trace ++ l).map some := by simp [hm]
    rw [← hl] at hmem
    obtain ⟨call, hcall, hmessage⟩ := List.mem_map.mp hmem
    exact (hcalls call hcall).2.carried hmessage
  have hview := view_of_some hc
  obtain rfl : l = c.outgoingQueue := by
    have h := hwaiting (by simp [hview])
    rwa [hview] at h
  refine ⟨rfl, fun hopened => ?_⟩
  exact (hlives.rested (fun _ hc => absurd hc (by simp)) c (by rw [hview]) hopened).2

/-- A channel is announced that offers RC2/40, and a message comes for it. The client sends one,
too, and only then accepts the channel. -/
def sendsEarly : List Command :=
  [.recv (MwMessage.framed ⟨{}, .channelCreate
      { channel := 0x80000001, service := 5,
        encrypt := { mode := encryptWhatever, items := [{ id := MwCipherType.code .rc2_40 }] } }⟩),
    .recv (MwMessage.framed ⟨{ channel := 0x80000001 }, .channelSend { type := 7, data := [] }⟩),
    .call (.channel ⟨0x80000001, 0⟩ (.sendEncrypted 1 [] true)),
    .call (.channel ⟨0x80000001, 0⟩ .accept)]

/-- A service that takes what arrives on its channels -/
def listener : MwService where
  type := 5
  type_ne_zero := by decide
  hasRecvCreate := true
  hasRecv := true

theorem run_writesInOrder_early :
    let s := run (Env.idle.hooks 1) sendsEarly (mwSessionNew {} [listener] [] {})
    (written ⟨0x80000001, 0⟩ s.trace).length = 1 ∧ s.WritesInOrder ⟨0x80000001, 0⟩ := by
  intro s
  have hcalls : (callsOn ⟨0x80000001, 0⟩ s.trace).all
      (fun call => call.state ≠ .opened ∧ call.data.length < 100) = true := by decide +kernel
  refine ⟨by decide +kernel, run_writesInOrder Env.idle 1 {} _ _ {} _ _ (fun _ _ => rfl) ?_⟩
  intro call hcall
  obtain ⟨hstate, hlength⟩ := of_decide_eq_true (List.all_eq_true.mp hcalls call hcall)
  exact ⟨fun hopened => absurd hopened hstate, by omega, fun _ _ => by omega⟩

/-- A service that answers what arrives on its channels -/
def Env.eager : Env where
  write := fun _ _ => ([], 0)
  close := fun _ => []
  call := fun cb _ =>
    match cb with
    | .recv _ chan _ _ => [.channel chan (.sendEncrypted 2 [] true)]
    | _ => []

/-- Its answer is written before the message that has been waiting. -/
theorem not_writesInOrder_eager :
    ¬ (run (Env.eager.hooks 1) sendsEarly (mwSessionNew {} [listener] [] {})).WritesInOrder ⟨0x80000001, 0⟩ := by
  rintro ⟨⟨l, hl, -⟩, -⟩
  have hcall : ((callsOn ⟨0x80000001, 0⟩ (run (Env.eager.hooks 1) sendsEarly
      (mwSessionNew {} [listener] [] {})).trace).map (·.message?)).head?.map
      (·.map (·.msg.type)) = some (some 1) := by decide +kernel
  have hwritten : ((written ⟨0x80000001, 0⟩ (run (Env.eager.hooks 1) sendsEarly
      (mwSessionNew {} [listener] [] {})).trace).head?.map (·.msg.type)) = some 2 := by decide +kernel
  rw [hl, List.map_append, List.head?_append, List.head?_map] at hcall
  obtain ⟨m, hm, htype⟩ := Option.map_eq_some_iff.mp hwritten
  rw [hm] at hcall
  simp [htype] at hcall

/-- What is sent to be encrypted, on a channel for which a cipher is selected in the end, is
encrypted and marked so. It is written unless the channel does not get that far. -/
def MwSession.SendsEncrypted (s : MwSession) (chan : ChanRef) : Prop :=
  .select chan true ∈ s.trace → ∀ call ∈ callsOn chan s.trace, call.encrypt = true →
    ∃ m, call.message? = some m ∧ call.Encrypted m ∧
      (call.state = .opened → m ∈ written chan s.trace) ∧
      ∀ c, s.channel? chan = some c →
        m ∈ written chan s.trace ∨ m ∈ c.outgoingQueue ∧ c.state ≠ .opened

/-- No call that is to be encrypted comes before the cipher, and none has data that are too
long. -/
def MwSession.SendsInTime (s : MwSession) (chan : ChanRef) : Prop :=
  .select chan true ∈ s.trace → ∀ call ∈ callsOn chan s.trace, call.encrypt = true →
    call.cipher ≠ none ∧ call.data.length < 2 ^ 31 - 8

theorem run_sendsEncrypted_iff (env : Env) (n : Nat) (handler : MwSessionHandler)
    (services : List MwService) (ciphers : List MwCipher) (attributes : Attributes) (chan : ChanRef)
    (commands : List Command) (hwrites : env.OnlyWrites) :
    let s := run (env.hooks n) commands (mwSessionNew handler services ciphers attributes)
    s.SendsEncrypted chan ↔ s.SendsInTime chan := by
  intro s
  constructor
  · intro hsends hselect call hcall hencrypt
    obtain ⟨m, -, henc, -⟩ := hsends hselect call hcall hencrypt
    obtain ⟨-, ci, -, -, hci, -⟩ := henc.data
    exact ⟨by simp [hci], (paddedLength_lt_iff _).mp henc.padded⟩
  intro hcalls hselect call hcall hencrypt
  have hlives : Lives (Setting.ofNew services ciphers False fun _ _ => True) chan ⟨.unborn, []⟩
      (s.view chan) :=
    (runAny_lives n handler services ciphers attributes commands hwrites False.elim).2
  have hcalls' : callsOn chan (s.view chan).history = callsOn chan s.trace := callsOn_filter chan _
  have hwritten : written chan (s.view chan).history = written chan s.trace := written_filter chan _
  have hcarried := hlives.carried
  rw [← hcalls'] at hcall
  obtain ⟨hcipher, hlength⟩ := hcalls hselect call (by rwa [hcalls'] at hcall) hencrypt
  obtain ⟨m, hm, henc⟩ := (hcarried.owned call hcall).encrypted hencrypt hcipher hlength
  rw [← hwritten]
  refine ⟨m, hm, henc, hcarried.opened call hcall m hm, fun c hc => ?_⟩
  have hview := view_of_some hc
  obtain hmem | hmem := hcarried.all call hcall m hm (by simp [hview])
  · exact .inl hmem
  · rw [hview] at hmem
    refine .inr ⟨hmem, fun hopened => ?_⟩
    have hempty := (hlives.rested (fun _ hc => absurd hc (by simp)) c (by rw [hview]) hopened).2
    simp [ChannelView.waiting, hempty] at hmem

theorem run_sendsEncrypted_opened :
    let s := run (Env.idle.hooks 1)
      (announcedChannel ++ [.call (.channel ⟨0x80000001, 0⟩ (.sendEncrypted 1 [1, 2, 3] true))])
      (mwSessionNew {} [listener] [mwCipherNewRc2_40] {})
    (written ⟨0x80000001, 0⟩ s.trace).map (·.head.options) = [optionEncrypt] ∧
      s.SendsEncrypted ⟨0x80000001, 0⟩ := by
  intro s
  have hcalls : (callsOn ⟨0x80000001, 0⟩ s.trace).all
      (fun call => call.cipher.isSome ∧ call.data.length < 2 ^ 31 - 8) = true := by decide +kernel
  refine ⟨by decide +kernel,
    (run_sendsEncrypted_iff Env.idle 1 {} _ _ {} _ _ (fun _ _ => rfl)).mpr ?_⟩
  intro _ call hcall _
  obtain ⟨hcipher, hlength⟩ := of_decide_eq_true (List.all_eq_true.mp hcalls call hcall)
  exact ⟨Option.isSome_iff_ne_none.mp hcipher, hlength⟩

/-- A cipher is selected for a channel. -/
def Event.selectsOn (chan : ChanRef) : Event → Bool
  | .select chan' true => chan' = chan
  | _ => false

/-- What is sent before the channel has been accepted goes out in the clear. -/
theorem not_sendsEncrypted_early :
    ¬ (run (Env.idle.hooks 1) sendsEarly
      (mwSessionNew {} [listener] [mwCipherNewRc2_40] {})).SendsEncrypted ⟨0x80000001, 0⟩ := by
  intro hsends
  have hselect : (run (Env.idle.hooks 1) sendsEarly
      (mwSessionNew {} [listener] [mwCipherNewRc2_40] {})).trace.any
        (Event.selectsOn ⟨0x80000001, 0⟩) = true := by
    decide +kernel
  have hcalls : (callsOn ⟨0x80000001, 0⟩ (run (Env.idle.hooks 1) sendsEarly
      (mwSessionNew {} [listener] [mwCipherNewRc2_40] {})).trace).any
        (fun call => call.encrypt ∧ call.cipher.isNone) = true := by
    decide +kernel
  obtain ⟨e, he, hmatch⟩ := List.any_eq_true.mp hselect
  obtain ⟨call, hcall, hopts⟩ := List.any_eq_true.mp hcalls
  obtain ⟨hencrypt, hnone⟩ := of_decide_eq_true hopts
  unfold Event.selectsOn at hmatch
  split at hmatch
  · obtain rfl := of_decide_eq_true hmatch
    obtain ⟨m, -, henc, -⟩ := hsends he call hcall hencrypt
    obtain ⟨-, ci, -, -, hci, -⟩ := henc.data
    simp [hci] at hnone
  · exact absurd hmatch (by simp)

end Meanwhile
