-- SUMMARY: Services that destroy a channel while they are told about it, and when the library trips over that.
import Meanwhile.Channel.Delivery

/-!
# Channels destroyed from a callback

A service may destroy the channel that it is told about. The library goes on with the
channel after some of the calls it makes, and uses what is gone then (`dangling`).
`critical` are these calls, for a message of the server; nothing goes wrong exactly if the
service destroys nothing in them.
-/

namespace Meanwhile

/-! ## Services that may destroy -/

/-- Everything that the client and the services have been told, the latest first -/
def MwSession.told (s : MwSession) : List Callback :=
  s.trace.filterMap fun e =>
    match e with
    | .callback cb => some cb
    | _ => none

/-- What services do with a channel they are told about, by all they have been told: destroy
it with a reason, or nothing -/
abbrev Verdict := List Callback → Option (UInt32 × MwOpaque)

/-- A client whose services may destroy the channel that they are told about -/
def Env.destroying (ret : List UInt8 → MwSession → Int) (b : Verdict) : Env where
  write := fun bytes s => ([], ret bytes s)
  close := fun _ => []
  call := fun cb s =>
    match cb.chan?, b s.told with
    | some chan, some (reason, info) => [.channel chan (.destroy reason info)]
    | _, _ => []

/-- No channel is destroyed while some calls are made one after the other. -/
def Verdict.Spares (b : Verdict) : List Callback → List Callback → Prop
  | _, [] => True
  | told, cb :: l => b (cb :: told) = none ∧ Verdict.Spares b (cb :: told) l

theorem Verdict.spares_append (b : Verdict) (told l l' : List Callback) :
    b.Spares told (l ++ l') ↔ b.Spares told l ∧ b.Spares (l.reverse ++ told) l' := by
  induction l generalizing told with
  | nil => simp [Verdict.Spares]
  | cons cb l ih => simp [Verdict.Spares, ih, and_assoc]

/-! ## A channel that is there -/

/-- A channel as it is in a session in which nothing gone has been used -/
structure Intact (chan : ChanRef) (services : List MwService) (ciphers : List MwCipher)
    (told : List Callback) (c : MwChannel) (s : MwSession) : Prop where
  channel : s.channel? chan = some c
  told : s.told = told
  services : s.services = services
  ciphers : s.ciphers = ciphers
  dangling : s.dangling = false

/-- Nothing gone has been used so far, but the channel is gone. -/
structure Gone (chan : ChanRef) (s : MwSession) : Prop where
  channel : s.channel? chan = none
  dangling : s.dangling = false

section

variable {chan : ChanRef} {services : List MwService} {ciphers : List MwCipher}
  {told : List Callback} {c : MwChannel} {s : MwSession}

theorem Intact.update (h : Intact chan services ciphers told c s) {f : MwChannel → MwChannel}
    (hf : (f c).addr = c.addr) :
    Intact chan services ciphers told (f c) (updateChannel chan f s).2 := by
  rw [updateChannel_of_some h.channel]
  exact ⟨channel?_setChannel_self h.channel (f c) hf, h.told, h.services, h.ciphers, h.dangling⟩

theorem Intact.log (h : Intact chan services ciphers told c s) {e : Event}
    (he : ∀ cb, e ≠ .callback cb) : Intact chan services ciphers told c (s.log e) := by
  refine ⟨h.channel, ?_, h.services, h.ciphers, h.dangling⟩
  rw [← h.told]
  cases e with
  | callback cb => exact absurd rfl (he cb)
  | _ => rfl

theorem Intact.called (h : Intact chan services ciphers told c s) (cb : Callback) :
    Intact chan services ciphers (cb :: told) c (s.log (.callback cb)) :=
  ⟨h.channel, by rw [← h.told]; rfl, h.services, h.ciphers, h.dangling⟩

theorem Intact.sent (h : Intact chan services ciphers told c s) (msg : MwMessage) :
    Intact chan services ciphers told c (s.sent chan msg) :=
  (h.log (by simp)).log (by simp)

theorem Intact.state (h : Intact chan services ciphers told c s) (state : MwChannelState) :
    Intact chan services ciphers told { c with state := state } (setChannelState chan state s).2 := by
  rw [setChannelState_of_some h.channel]
  refine ⟨channel?_withState h.channel state, ?_, ?_, ?_, ?_⟩ <;> unfold MwSession.withState <;> split
  · exact h.told
  · exact h.told
  · exact h.services
  · exact h.services
  · exact h.ciphers
  · exact h.ciphers
  · exact h.dangling
  · exact h.dangling

theorem Intact.select (h : Intact chan services ciphers told c s) (ci : Option MwCipherInstance) :
    Intact chan services ciphers told (if c.supported.isNone then c else c.selected ci)
      (mwChannelSelectCipherInstance chan ci s).2 := by
  rw [selectCipherInstance_apply h.channel]
  split
  · exact h
  · have hupdate : Intact chan services ciphers told (c.selected ci)
        (s.setChannel chan.id (some (c.selected ci))) :=
      ⟨channel?_setChannel_self h.channel _ rfl, h.told, h.services, h.ciphers, h.dangling⟩
    exact hupdate.log (by simp)

variable (ret : List UInt8 → MwSession → Int) (b : Verdict) (n : Nat)

theorem Env.destroying_onlyWrites :
    (Env.destroying ret b).OnlyWrites :=
  fun _ _ => rfl

theorem destroying_ioWrite (bytes : List UInt8) (s : MwSession) :
    (((Env.destroying ret b).hooks n).ioWrite bytes s).2 = s :=
  Env.hooks_onlyWrites (Env.destroying_onlyWrites ret b) n bytes s

/-- The library destroys the channel, or a service does. -/
theorem Intact.destroy (h : Intact chan services ciphers told c s) (reason : UInt32)
    (info : MwOpaque) :
    Gone chan (mwChannelDestroy ((Env.destroying ret b).hooks n) chan reason info s).2 := by
  rw [mwChannelDestroy_write (destroying_ioWrite ret b n) h.channel]
  refine ⟨by simp [MwSession.sent, MwSession.log, MwSession.channel?, MwSession.setChannel], ?_⟩
  have hstate := (h.state (closedState reason)).dangling
  rw [setChannelState_of_some h.channel] at hstate
  exact hstate

/-- A service is told about the channel. -/
theorem Intact.asked (h : Intact chan services ciphers told c s) {cb : Callback}
    (hcb : cb.chan? = some chan) :
    (b (cb :: told) = none → Intact chan services ciphers (cb :: told) c
      (callback ((Env.destroying ret b).hooks (n + 1)) cb s).2) ∧
    (b (cb :: told) ≠ none → Gone chan
      (callback ((Env.destroying ret b).hooks (n + 1)) cb s).2) := by
  have hcalled := h.called cb
  set s1 := s.log (.callback cb) with hs1
  have hcall : callback ((Env.destroying ret b).hooks (n + 1)) cb s =
      ((Env.destroying ret b).call cb s1).forM (runApiCall ((Env.destroying ret b).hooks n)) s1 := rfl
  rw [hcall]
  simp only [Env.destroying, hcb, hcalled.told]
  constructor
  · intro hnone
    rw [hnone]
    exact hcalled
  · intro hsome
    obtain ⟨⟨reason, info⟩, hverdict⟩ := Option.ne_none_iff_exists'.mp hsome
    rw [hverdict]
    have hrun : runApiCall ((Env.destroying ret b).hooks n) (.channel chan (.destroy reason info)) s1 =
        ((), (mwChannelDestroy ((Env.destroying ret b).hooks n) chan reason info s1).2) := by
      rw [runApiCall, Session.get_bind, hcalled.channel]
      rfl
    have hgone : Gone chan
        (mwChannelDestroy ((Env.destroying ret b).hooks n) chan reason info s1).2 :=
      hcalled.destroy ret b n reason info
    have hforM : ([ApiCall.channel chan (.destroy reason info)].forM
        (runApiCall ((Env.destroying ret b).hooks n)) s1).2 =
          (mwChannelDestroy ((Env.destroying ret b).hooks n) chan reason info s1).2 := by
      show (runApiCall ((Env.destroying ret b).hooks n) (.channel chan (.destroy reason info)) s1).2 = _
      rw [hrun]
    rw [← hforM] at hgone
    exact hgone

end

/-! ## The calls of `recv` -/

/-- The calls of `recv` that a channel makes for messages -/
def MwChannel.recvCalls (c : MwChannel) (chan : ChanRef) (services : List MwService)
    (l : List ChannelMessage) : List Callback :=
  if (services.find? (·.type = c.service)).any (·.hasRecv) then
    (decode c.service c.cipher l).2.map fun p => .recv p.1 chan p.2.1 p.2.2
  else []

/-- One message, and then the others -/
theorem recvCalls_cons_some (c : MwChannel) (chan : ChanRef) (services : List MwService)
    {m : ChannelMessage} {ci : Option MwCipherInstance} {data : MwOpaque}
    (hdata : receivedData c m = some (ci, data)) (l : List ChannelMessage) :
    c.recvCalls chan services (m :: l) =
      (if (services.find? (·.type = c.service)).any (·.hasRecv) then
        [.recv c.service chan m.msg.type data] else []) ++
      { c with msgRecv := c.msgRecv + 1, cipher := ci }.recvCalls chan services l := by
  have hdata' : receivedData { addr := 0, cipher := c.cipher } m = some (ci, data) := hdata
  simp only [MwChannel.recvCalls, decode, hdata']
  split <;> rfl

theorem recvCalls_cons_none (c : MwChannel) (chan : ChanRef) (services : List MwService)
    {m : ChannelMessage} (hdata : receivedData c m = none) (l : List ChannelMessage) :
    c.recvCalls chan services (m :: l) = c.recvCalls chan services l := by
  have hdata' : receivedData { addr := 0, cipher := c.cipher } m = none := hdata
  simp only [MwChannel.recvCalls, decode, hdata']

section

variable {chan : ChanRef} {services : List MwService} {ciphers : List MwCipher}
  {told : List Callback} {c : MwChannel} {s : MwSession}
  (ret : List UInt8 → MwSession → Int) (b : Verdict) (n : Nat)

theorem Intact.faulted (h : Intact chan services ciphers told c s) :
    Intact chan services ciphers told c { s with fault := true } :=
  ⟨h.channel, h.told, h.services, h.ciphers, h.dangling⟩

/-- `channel_recv` of a message that cannot be decrypted -/
theorem Intact.channelRecv_none (h : Intact chan services ciphers told c s) {m : ChannelMessage}
    (hdata : receivedData c m = none) (h' : Hooks) :
    Intact chan services ciphers told c (channelRecv h' chan m s).2 := by
  rw [channelRecv, Session.bind_apply, deref_of_some h.channel]
  dsimp only
  rw [Session.get_bind, hdata]
  exact h.faulted

/-- `channel_recv` of another one -/
theorem Intact.channelRecv_some (h : Intact chan services ciphers told c s) {m : ChannelMessage}
    {ci : Option MwCipherInstance} {data : MwOpaque} (hdata : receivedData c m = some (ci, data)) :
    let s' := (channelRecv ((Env.destroying ret b).hooks (n + 1)) chan m s).2
    let calls : List Callback := if (services.find? (·.type = c.service)).any (·.hasRecv) then
        [.recv c.service chan m.msg.type data] else []
    (b.Spares told calls → Intact chan services ciphers (calls.reverse ++ told)
      { c with msgRecv := c.msgRecv + 1, cipher := ci } s') ∧
    (¬ b.Spares told calls → Gone chan s') := by
  intro s' calls
  set c1 : MwChannel := { c with msgRecv := c.msgRecv + 1, cipher := ci } with hc1
  have h1 : Intact chan services ciphers told c1
      (updateChannel chan (fun c => { c with msgRecv := c.msgRecv + 1, cipher := ci }) s).2 :=
    h.update (f := fun c => { c with msgRecv := c.msgRecv + 1, cipher := ci }) rfl
  have hs' : s' = (mwServiceRecv ((Env.destroying ret b).hooks (n + 1)) (s.service? c.service) chan
      m.msg.type data
      (updateChannel chan (fun c => { c with msgRecv := c.msgRecv + 1, cipher := ci }) s).2).2 := by
    show (channelRecv _ chan m s).2 = _
    rw [channelRecv, Session.bind_apply, deref_of_some h.channel]
    dsimp only
    rw [Session.get_bind, hdata]
    rfl
  rw [hs', MwSession.service?, h.services]
  cases hsrvc : services.find? (·.type = c.service) with
  | none =>
    have hcalls : calls = [] := by simp [calls, hsrvc]
    rw [hcalls]
    exact ⟨fun _ => h1, fun hnot => absurd trivial hnot⟩
  | some srvc =>
    have htype : srvc.type = c.service := by simpa using List.find?_some hsrvc
    cases hrecv : srvc.hasRecv with
    | false =>
      have hcalls : calls = [] := by simp [calls, hsrvc, hrecv]
      rw [hcalls, mwServiceRecv, hrecv]
      exact ⟨fun _ => h1, fun hnot => absurd trivial hnot⟩
    | true =>
      have hcalls : calls = [.recv c.service chan m.msg.type data] := by simp [calls, hsrvc, hrecv]
      rw [hcalls, mwServiceRecv, hrecv, htype]
      obtain ⟨hspares, hgone⟩ := h1.asked ret b n
        (show (Callback.recv c.service chan m.msg.type data).chan? = some chan from rfl)
      exact ⟨fun h => hspares h.1, fun hnot => hgone fun h => hnot ⟨h, trivial⟩⟩

/-- The loop goes on after the channel is gone, and brings nothing back. -/
theorem flushIncoming_none {h : Hooks} (hs : s.channel? chan = none) (l : List ChannelMessage) :
    (flushIncoming h chan l s).2.channel? chan = none := by
  induction l generalizing s with
  | nil => exact hs
  | cons m l ih =>
    rw [flushIncoming, Session.bind_apply]
    refine ih ?_
    rw [channelRecv, Session.bind_apply, deref_of_none hs]
    exact hs

/-- The first loop of `flush_channel` -/
theorem Intact.delivers (h : Intact chan services ciphers told c s) (l : List ChannelMessage) :
    let s' := (flushIncoming ((Env.destroying ret b).hooks (n + 1)) chan l s).2
    (b.Spares told (c.recvCalls chan services l) → ∃ told' c', Intact chan services ciphers told' c' s') ∧
    (¬ b.Spares told (c.recvCalls chan services l) → s'.channel? chan = none) := by
  induction l generalizing s told c with
  | nil =>
    refine ⟨fun _ => ⟨told, c, h⟩, fun hnot => absurd ?_ hnot⟩
    simp [MwChannel.recvCalls, decode, Verdict.Spares]
  | cons m l ih =>
    simp only [flushIncoming, Session.bind_apply]
    cases hdata : receivedData c m with
    | none =>
      rw [recvCalls_cons_none c chan services hdata]
      exact ih (h.channelRecv_none hdata _)
    | some p =>
      obtain ⟨ci, data⟩ := p
      rw [recvCalls_cons_some c chan services hdata, Verdict.spares_append]
      obtain ⟨hspares, hgone⟩ := h.channelRecv_some ret b n hdata
      constructor
      · rintro ⟨hfirst, hrest⟩
        exact (ih (hspares hfirst)).1 hrest
      · intro hnot
        by_cases hfirst : b.Spares told (if (services.find? (·.type = c.service)).any (·.hasRecv) then
            [.recv c.service chan m.msg.type data] else [])
        · exact (ih (hspares hfirst)).2 fun hrest => hnot ⟨hfirst, hrest⟩
        · exact flushIncoming_none (hgone hfirst).channel l

/-- The second loop of `flush_channel` -/
theorem Intact.writes (h : Intact chan services ciphers told c s) (l : List ChannelMessage) :
    Intact chan services ciphers told c
      (flushOutgoing ((Env.destroying ret b).hooks n) chan l s).2 := by
  induction l generalizing s with
  | nil => exact h
  | cons m l ih =>
    rw [flushOutgoing, Session.bind_apply, deref_of_some h.channel]
    dsimp only
    rw [Session.bind_apply, sendFor_write (destroying_ioWrite ret b n)
      (by simp [ChannelMessage.toMessage])]
    exact ih (h.sent _)

theorem Intact.flushes (h : Intact chan services ciphers told c s) :
    (flushChannel ((Env.destroying ret b).hooks (n + 1)) chan s).2.dangling = false ↔
      b.Spares told (c.recvCalls chan services c.incomingQueue) := by
  obtain ⟨hspares, hgone⟩ := h.delivers ret b n c.incomingQueue
  rw [flushChannel, Session.bind_apply, deref_of_some h.channel]
  dsimp only
  rw [Session.bind_apply]
  set s1 := (flushIncoming ((Env.destroying ret b).hooks (n + 1)) chan c.incomingQueue s).2
  by_cases hb : b.Spares told (c.recvCalls chan services c.incomingQueue)
  · refine iff_of_true ?_ hb
    obtain ⟨told', c', h1⟩ := hspares hb
    have h2 := h1.update (f := fun c => { c with incomingQueue := [] }) rfl
    rw [Session.bind_apply, Session.bind_apply, deref_of_some h2.channel]
    dsimp only
    rw [Session.bind_apply]
    have h3 := h2.writes ret b (n + 1) c'.outgoingQueue
    exact (h3.update (f := fun c => { c with outgoingQueue := [] }) rfl).dangling
  · refine iff_of_false ?_ hb
    have hnone := hgone hb
    rw [Session.bind_apply, updateChannel_of_none hnone, Session.bind_apply]
    rw [deref_of_none (by exact hnone)]
    simp

theorem Intact.opens (h : Intact chan services ciphers told c s) :
    (channelOpen ((Env.destroying ret b).hooks (n + 1)) chan s).2.dangling = false ↔
      b.Spares told (c.recvCalls chan services c.incomingQueue) := by
  rw [channelOpen, Session.bind_apply]
  exact (h.state .opened).flushes ret b n

end

/-! ## Accepting -/

/-- The cipher that an acceptance leaves a channel with; without one the library destroys the
channel. -/
def MwChannel.negotiated (c : MwChannel) (ciphers : List MwCipher) (user : MwLoginInfo)
    (enc : MwEncryptAccept) : Option (Option MwCipherInstance) :=
  let select (ci : Option MwCipherInstance) := if c.supported.isNone then c.cipher else ci
  match enc.item with
  | none => some (select none)
  | some item =>
      if enc.mode = 0 then some (select none)
      else do
        let ci ← c.supported? item.id
        let cipher ← ciphers.find? (·.type.code = ci.type.code)
        let ci ← mwCipherInstanceAccepted user item cipher ci
        return select (some ci)

section

variable {chan : ChanRef} {services : List MwService} {ciphers : List MwCipher}
  {told : List Callback} {c : MwChannel} {s : MwSession}

theorem Intact.accepted (h : Intact chan services ciphers told c s) (enc : MwEncryptAccept) :
    let r := acceptedCipher chan enc s
    match c.negotiated ciphers c.user enc with
    | none => r.1 = false ∧ Intact chan services ciphers told c r.2
    | some ci => r.1 = true ∧ ∃ policy supported, Intact chan services ciphers told
        { c with cipher := ci, policy := policy, supported := supported } r.2 := by
  have hselect (ci : Option MwCipherInstance) :
      ∃ policy supported, Intact chan services ciphers told
        { c with
          cipher := if c.supported.isNone then c.cipher else ci
          policy := policy
          supported := supported }
        (mwChannelSelectCipherInstance chan ci s).2 := by
    have hs := h.select ci
    split at hs
    · rename_i hnone
      exact ⟨c.policy, c.supported, by rw [if_pos hnone]; exact hs⟩
    · rename_i hnone
      exact ⟨_, none, by rw [if_neg hnone]; exact hs⟩
  intro r
  have hr : r = acceptedCipher chan enc s := rfl
  rw [acceptedCipher, Session.bind_apply, deref_of_some h.channel] at hr
  dsimp only at hr
  unfold MwChannel.negotiated
  cases hitem : enc.item with
  | none =>
    rw [hitem] at hr
    rw [hr]
    exact ⟨rfl, hselect none⟩
  | some item =>
    rw [hitem] at hr
    dsimp only at hr ⊢
    rw [Session.ite_apply] at hr
    by_cases hmode : enc.mode = 0
    · rw [if_pos hmode] at hr ⊢
      rw [hr]
      exact ⟨rfl, hselect none⟩
    · rw [if_neg hmode] at hr ⊢
      cases hsupported : c.supported? item.id with
      | none =>
        rw [hsupported] at hr
        rw [hr]
        exact ⟨rfl, h⟩
      | some ci =>
        rw [hsupported] at hr
        dsimp only at hr
        rw [Session.get_bind, MwSession.cipher?, h.ciphers] at hr
        simp only [Option.bind_eq_bind, Option.bind_some]
        cases hcipher : ciphers.find? (·.type.code = ci.type.code) with
        | none =>
          rw [hcipher] at hr
          rw [hr]
          exact ⟨rfl, h.faulted⟩
        | some cipher =>
          rw [hcipher] at hr
          simp only [Option.bind_eq_bind, Option.bind_some] at hr ⊢
          cases haccepted : mwCipherInstanceAccepted c.user item cipher ci with
          | none =>
            rw [haccepted] at hr
            rw [hr]
            exact ⟨rfl, h.faulted⟩
          | some ci' =>
            rw [haccepted] at hr
            rw [hr]
            exact ⟨rfl, hselect (some ci')⟩

end

/-! ## Messages of the server -/

/-- The calls after which the library goes on with the channel, in the order in which they are
made for a message if nothing is destroyed -/
def critical (s : MwSession) (msg : MwMessage) : List Callback :=
  match msg.body, s.channels.map msg.head.channel with
  | .channelAccept m, some c =>
      let chan : ChanRef := ⟨msg.head.channel, c.addr⟩
      if mwChannelIdIsIncoming chan.id ∨ c.state ≠ .wait then []
      else
        match s.service? c.service,
            c.negotiated s.ciphers (mwLoginInfoClone c.user m.acceptor) m.encrypt with
        | some srvc, some ci =>
            (if srvc.hasRecvAccept then [.recvAccept srvc.type chan m] else []) ++
              { c with cipher := ci }.recvCalls chan s.services c.incomingQueue
        | _, _ => []
  | .channelDestroy m, some c =>
      if msg.head.channel = masterChannelId then []
      else
        match s.service? c.service with
        | some srvc =>
            if srvc.hasRecvDestroy then [.recvDestroy srvc.type ⟨msg.head.channel, c.addr⟩ m] else []
        | none => []
  | _, _ => []

section

variable {chan : ChanRef} {services : List MwService} {ciphers : List MwCipher}
  {told : List Callback} {c : MwChannel} {s : MwSession}
  (ret : List UInt8 → MwSession → Int) (b : Verdict) (n : Nat)

/-- The end of `mwChannel_recvAccept`, from the service on -/
theorem Intact.toldAccept (h : Intact chan services ciphers told c s) (hopened : c.state = .opened)
    (srvc : MwService) (m : MwMsgChannelAccept) :
    (do
      mwServiceRecvAccept ((Env.destroying ret b).hooks (n + 1)) srvc chan m
      match ← deref chan with
      | none => return
      | some c =>
          if c.state = .opened then channelOpen ((Env.destroying ret b).hooks (n + 1)) chan
          else return : Session Unit) s |>.2.dangling = false ↔
      b.Spares told ((if srvc.hasRecvAccept then [.recvAccept srvc.type chan m] else []) ++
        c.recvCalls chan services c.incomingQueue) := by
  have hgoes {told : List Callback} {s : MwSession} (h : Intact chan services ciphers told c s) :
      ((do
        match ← deref chan with
        | none => return
        | some c =>
            if c.state = .opened then channelOpen ((Env.destroying ret b).hooks (n + 1)) chan
            else return : Session Unit) s).2.dangling = false ↔
        b.Spares told (c.recvCalls chan services c.incomingQueue) := by
    rw [Session.bind_apply, deref_of_some h.channel]
    dsimp only
    rw [if_pos hopened]
    exact h.opens ret b n
  rw [Session.bind_apply, Verdict.spares_append]
  cases haccept : srvc.hasRecvAccept with
  | false =>
    simp only [mwServiceRecvAccept, haccept]
    exact (hgoes h).trans ⟨fun hrest => ⟨trivial, hrest⟩, fun hrest => hrest.2⟩
  | true =>
    simp only [mwServiceRecvAccept, haccept, if_true, Verdict.Spares, and_true]
    obtain ⟨hspares, hgone⟩ := h.asked ret b n
      (show (Callback.recvAccept srvc.type chan m).chan? = some chan from rfl)
    by_cases hb : b (.recvAccept srvc.type chan m :: told) = none
    · rw [hgoes (hspares hb)]
      simp [hb]
    · refine iff_of_false ?_ fun h => hb h.1
      rw [Session.bind_apply, deref_of_none (hgone hb).channel]
      simp

/-- `mwChannel_recvAccept` -/
theorem Intact.recvAccept (h : Intact chan services ciphers told c s) (m : MwMsgChannelAccept) :
    (mwChannelRecvAccept ((Env.destroying ret b).hooks (n + 1)) chan m s).2.dangling = false ↔
      b.Spares told (if mwChannelIdIsIncoming chan.id ∨ c.state ≠ .wait then []
        else
          match services.find? (·.type = c.service),
              c.negotiated ciphers (mwLoginInfoClone c.user m.acceptor) m.encrypt with
          | some srvc, some ci =>
              (if srvc.hasRecvAccept then [.recvAccept srvc.type chan m] else []) ++
                { c with cipher := ci }.recvCalls chan services c.incomingQueue
          | _, _ => []) := by
  rw [mwChannelRecvAccept, Session.bind_apply, deref_of_some h.channel]
  dsimp only
  rw [Session.ite_apply]
  split
  · exact iff_of_true (h.destroy ret b (n + 1) errRequestInvalid []).dangling trivial
  · have h1 := h.update (f := fun c => { c with user := mwLoginInfoClone c.user m.acceptor }) rfl
    rw [Session.bind_apply, Session.get_bind, MwSession.service?, h1.services]
    cases services.find? (·.type = c.service) with
    | none => exact iff_of_true (h1.destroy ret b (n + 1) errServiceNoSupport []).dangling trivial
    | some srvc =>
      have h2 := h1.update (f := fun c => { c with policy := m.encrypt.mode }) rfl
      dsimp only
      rw [Session.bind_apply, Session.bind_apply]
      have haccepted := h2.accepted m.encrypt
      have hnegotiated : { c with
            user := mwLoginInfoClone c.user m.acceptor
            policy := m.encrypt.mode : MwChannel }.negotiated ciphers
          (mwLoginInfoClone c.user m.acceptor) m.encrypt =
          c.negotiated ciphers (mwLoginInfoClone c.user m.acceptor) m.encrypt := rfl
      dsimp only at haccepted
      rw [hnegotiated] at haccepted
      cases hci : c.negotiated ciphers (mwLoginInfoClone c.user m.acceptor) m.encrypt with
      | none =>
        rw [hci] at haccepted
        obtain ⟨hfalse, h3⟩ := haccepted
        rw [hfalse]
        exact iff_of_true (h3.destroy ret b (n + 1) errRequestInvalid []).dangling trivial
      | some ci =>
        rw [hci] at haccepted
        obtain ⟨htrue, policy, supported, h3⟩ := haccepted
        rw [htrue]
        simp only [if_true]
        rw [Session.bind_apply]
        exact (h3.state .opened).toldAccept ret b n rfl srvc m

/-- `mwChannel_recvDestroy` -/
theorem Intact.recvDestroy (h : Intact chan services ciphers told c s) (m : MwMsgChannelDestroy) :
    (mwChannelRecvDestroy ((Env.destroying ret b).hooks (n + 1)) chan m s).2.dangling = false ↔
      b.Spares told (match services.find? (·.type = c.service) with
        | some srvc => if srvc.hasRecvDestroy then [.recvDestroy srvc.type chan m] else []
        | none => []) := by
  have hgoes {told : List Callback} {c : MwChannel} {s : MwSession}
      (h : Intact chan services ciphers told c s) : ((do
        match ← deref chan with
        | none => return
        | some _ => modify (·.setChannel chan.id none) : Session Unit) s).2.dangling = false := by
    rw [Session.bind_apply, deref_of_some h.channel]
    exact h.dangling
  have h1 := h.state (if m.reason ≠ 0 then .error else .destroy)
  rw [mwChannelRecvDestroy, Session.bind_apply, deref_of_some h.channel]
  dsimp only
  rw [Session.bind_apply, Session.get_bind, MwSession.service?, h1.services]
  cases services.find? (·.type = c.service) with
  | none => exact iff_of_true (hgoes h1) trivial
  | some srvc =>
    dsimp only
    rw [Session.bind_apply, mwServiceRecvDestroy]
    cases hdestroy : srvc.hasRecvDestroy with
    | false => exact iff_of_true (hgoes h1) trivial
    | true =>
      simp only [if_true, Verdict.Spares, and_true]
      obtain ⟨hspares, hgone⟩ := h1.asked ret b n
        (show (Callback.recvDestroy srvc.type chan m).chan? = some chan from rfl)
      by_cases hb : b (.recvDestroy srvc.type chan m :: told) = none
      · exact iff_of_true (hgoes (hspares hb)) hb
      · refine iff_of_false ?_ hb
        rw [Session.bind_apply, deref_of_none (hgone hb).channel]
        simp

/-- `mwChannel_recv`. After `recv` there is nothing left to do. -/
theorem Intact.recv (h : Intact chan services ciphers told c s) (m : ChannelMessage) :
    (mwChannelRecv ((Env.destroying ret b).hooks (n + 1)) chan m s).2.dangling = false := by
  rw [mwChannelRecv, Session.bind_apply, deref_of_some h.channel]
  dsimp only
  rw [Session.ite_apply]
  split
  · cases hdata : receivedData c m with
    | none => exact (h.channelRecv_none hdata _).dangling
    | some p =>
      obtain ⟨hspares, hgone⟩ := h.channelRecv_some ret b n hdata
      by_cases hb : b.Spares told (if (services.find? (·.type = c.service)).any (·.hasRecv) then
          [.recv c.service chan m.msg.type p.2] else [])
      · exact (hspares hb).dangling
      · exact (hgone hb).dangling
  · exact (h.update (f := fun c => { c with incomingQueue := c.incomingQueue ++ [m] }) rfl).dangling

/-! ## The master channel -/

/-- Nothing that is gone has been used. -/
def SameDangling (s s' : MwSession) : Prop := s'.dangling = s.dangling

instance : Std.Refl SameDangling := ⟨fun _ => rfl⟩

instance : IsTrans _ SameDangling := ⟨fun _ _ _ h h' => h'.trans h⟩

/-- Services that are not told about a channel do nothing. -/
theorem callback_sameDangling {cb : Callback} (hcb : cb.chan? = none) :
    Keeps SameDangling (callback ((Env.destroying ret b).hooks (n + 1)) cb) := by
  intro s
  have hcall : callback ((Env.destroying ret b).hooks (n + 1)) cb s =
      ((Env.destroying ret b).call cb (s.log (.callback cb))).forM
        (runApiCall ((Env.destroying ret b).hooks n)) (s.log (.callback cb)) := rfl
  rw [hcall]
  simp only [Env.destroying, hcb]
  rfl

theorem setState_sameDangling (state : MwSessionState) (info : StateInfo) :
    Keeps SameDangling (setState ((Env.destroying ret b).hooks (n + 1)) state info) := by
  refine Keeps.bind Keeps.get fun s => Keeps.ite (fun _ => Keeps.pure _) fun _ => ?_
  refine Keeps.bind (fun _ => rfl) fun _ => Keeps.bind Keeps.get fun s => ?_
  exact Keeps.ite (fun _ => callback_sameDangling ret b n rfl) fun _ => Keeps.pure _

theorem serviceStop_sameDangling (srvc : UInt32) :
    Keeps SameDangling (mwServiceStop ((Env.destroying ret b).hooks (n + 1)) srvc) := by
  refine Keeps.bind Keeps.get fun s => ?_
  cases s.service? srvc with
  | none => exact Keeps.pure _
  | some c =>
    refine Keeps.ite (fun _ => Keeps.pure _) fun _ => Keeps.bind (fun _ => rfl) fun _ => ?_
    exact Keeps.ite (fun _ => callback_sameDangling ret b n rfl) fun _ => fun _ => rfl

theorem stop_sameDangling (reason : UInt32) :
    Keeps SameDangling (mwSessionStop ((Env.destroying ret b).hooks (n + 1)) reason) := by
  refine Keeps.bind Keeps.get fun s => Keeps.bind (fun _ => rfl) fun _ => ?_
  refine Keeps.ite (fun _ => Keeps.pure _) fun _ => ?_
  refine Keeps.bind (setState_sameDangling ret b n _ _) fun _ => ?_
  refine Keeps.bind ?_ fun _ => setState_sameDangling ret b n _ _
  refine Keeps.bind Keeps.get fun s => ?_
  refine Keeps.bind (Keeps.forM fun srvc _ => serviceStop_sameDangling ret b n srvc) fun _ => ?_
  refine Keeps.bind (fun s => ?_) fun _ => ?_
  · rw [mwSessionSend_of_ne _ (by simp), destroying_ioWrite]
    rfl
  · refine Keeps.bind (fun _ => rfl) fun _ => Keeps.bind (fun _ => rfl) fun _ => fun _ => rfl

end

/-! ## All messages -/

/-- The messages about a channel that is there -/
def MwMessageBody.isForChannel : MwMessageBody → Bool
  | .channelAccept _ | .channelDestroy _ | .channelSend _ => true
  | _ => false

/-- A message for a channel makes the library use a channel that is gone, unless the services
destroy nothing in the critical calls. -/
theorem dispatch_dangling_iff (ret : List UInt8 → MwSession → Int) (b : Verdict) (n : Nat)
    {s : MwSession} (hs : s.dangling = false) {msg : MwMessage}
    (hmsg : msg.body.isForChannel = true) :
    (dispatch ((Env.destroying ret b).hooks (n + 1)) msg s).2.dangling = false ↔
      b.Spares s.told (critical s msg) := by
  obtain ⟨head, body⟩ := msg
  have hintact {c : MwChannel} (hc : s.channels.map head.channel = some c) (e : ChannelEvent) :
      Intact ⟨head.channel, c.addr⟩ s.services s.ciphers s.told c
        (s.log (.channel ⟨head.channel, c.addr⟩ e)) :=
    ⟨channel?_of_map hc rfl, rfl, rfl, rfl, hs⟩
  cases body with
  | channelAccept m =>
    show (channelAcceptRecv _ head m s).2.dangling = false ↔ _
    simp only [critical]
    cases hc : s.channels.map head.channel with
    | none =>
      rw [channelAcceptRecv, mwChannelFind_bind, hc]
      exact iff_of_true hs trivial
    | some c =>
      rw [channelAcceptRecv_of_some hc]
      exact (hintact hc _).recvAccept ret b n m
  | channelDestroy m =>
    show (channelDestroyRecv _ head m s).2.dangling = false ↔ _
    simp only [critical]
    by_cases hid : head.channel = masterChannelId
    · rw [channelDestroyRecv, if_pos hid]
      have hstop : (mwSessionStop ((Env.destroying ret b).hooks (n + 1)) m.reason s).2.dangling = false :=
        (stop_sameDangling ret b n m.reason s).trans hs
      refine iff_of_true hstop ?_
      cases s.channels.map head.channel with
      | none => trivial
      | some c => simp [hid, Verdict.Spares]
    · cases hc : s.channels.map head.channel with
      | none =>
        rw [channelDestroyRecv, if_neg hid, mwChannelFind_bind, hc]
        exact iff_of_true hs trivial
      | some c =>
        rw [channelDestroyRecv_of_some hc hid]
        dsimp only
        rw [if_neg hid]
        exact (hintact hc _).recvDestroy ret b n m
  | channelSend m =>
    show (channelSendRecv _ head m s).2.dangling = false ↔ _
    simp only [critical]
    cases hc : s.channels.map head.channel with
    | none =>
      rw [channelSendRecv, mwChannelFind_bind, hc]
      exact iff_of_true hs trivial
    | some c =>
      rw [channelSendRecv_of_some hc]
      exact iff_of_true ((hintact hc _).recv ret b n ⟨head, m⟩) trivial
  | _ => simp [MwMessageBody.isForChannel] at hmsg

/-- A session with an open channel of a service that hears everything about it -/
def servedChannel : MwSession where
  channels :=
    { map := fun id =>
        if id = 0x80000001 then some { addr := 0, state := .opened, service := 5 } else none }
  services :=
    [{ type := 5, type_ne_zero := listener.type_ne_zero, hasRecvDestroy := true, hasRecv := true }]
  nextAddr := 1

/-- Destroying the channel when a message arrives on it is fine. -/
theorem dispatch_dangling_send :
    ((dispatch ((Env.destroying (fun _ _ => 0) fun _ => some (0, [])).hooks 1)
        ⟨{ channel := 0x80000001 }, .channelSend {}⟩ servedChannel).2.channels.map 0x80000001).isNone =
      true ∧
    (dispatch ((Env.destroying (fun _ _ => 0) fun _ => some (0, [])).hooks 1)
        ⟨{ channel := 0x80000001 }, .channelSend {}⟩ servedChannel).2.dangling = false :=
  ⟨by decide +kernel, (dispatch_dangling_iff _ _ 0 rfl rfl).mpr trivial⟩

/-- Destroying it again when it has been destroyed is not. -/
theorem dangling_destroyed :
    servedChannel.dangling = false ∧
      (dispatch ((Env.destroying (fun _ _ => 0) fun _ => some (0, [])).hooks 1)
        ⟨{ channel := 0x80000001 }, .channelDestroy {}⟩ servedChannel).2.dangling = true := by
  decide +kernel

end Meanwhile
