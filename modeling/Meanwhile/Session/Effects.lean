-- SUMMARY: What a call into the library can do to a session, stated once for every call and every nesting of callbacks.
import Meanwhile.Session.Process
import Meanwhile.Lib.Keeps

/-!
# Effects

A relation between sessions goes through every call and every callback if it goes
through the few operations that change a session. Three classes say through how much
a relation goes: `Primitive` through what concerns no channel in particular,
`Lenient` through what leaves a channel in its state, and `Through` through
everything that is done to a channel. A relation that is about one channel goes
through everything that is done to the other ones. `Env.hooks_respects` draws the
conclusion for an environment of any nesting depth.
-/

namespace Meanwhile

/-! ## Relations closed under the library -/

/-- Callbacks keep a relation. -/
structure Hooks.Respects (h : Hooks) (R : MwSession → MwSession → Prop) : Prop where
  ioWrite : ∀ b, Keeps R (h.ioWrite b)
  ioClose : Keeps R h.ioClose
  call : ∀ c, Keeps R (h.call c)

/-- Messages that belong to no channel and that any call may write -/
def MwMessage.Plain (msg : MwMessage) : Prop :=
  match msg.body with
  | .announce _ | .setPrivacyList _ | .setUserStatus _ | .senseService _ => True
  | _ => False

/-- Messages about a channel -/
def MwMessage.OnChannel (msg : MwMessage) : Prop :=
  match msg.body with
  | .channelCreate _ | .channelAccept _ | .channelDestroy _ | .channelSend _ => True
  | _ => False

/-- The data of a channel, handed to its service -/
def Callback.isRecv : Callback → Bool
  | .recv _ _ _ _ => true
  | _ => false

/-- Events that any call may cause and that concern no channel -/
def Event.Plain : Event → Prop
  | .write msg => msg.Plain
  | .keepalive => True
  | .callback c => c.isRecv = false
  | _ => False

/-- Events of a channel -/
def Event.On (chan : ChanRef) : Event → Prop
  | .write msg => msg.OnChannel
  | .send call => call.chan = chan
  | .select chan' _ | .channel chan' _ => chan' = chan
  | .callback (.recv _ chan' _ _) => chan' = chan
  | _ => False

/-- What does not change about a service -/
def MwService.fixed (srvc : MwService) : MwService := { srvc with state := .stopped }

/-- Sessions that differ at most in what the client, the services and the ciphers
keep in them. -/
structure SameCore (s s' : MwSession) : Prop where
  handler : s'.handler = s.handler
  state : s'.state = s.state
  input : s'.input = s.input
  map : s'.channels.map = s.channels.map
  nextAddr : s'.nextAddr = s.nextAddr
  trace : s'.trace = s.trace
  ciphers : s'.ciphers.map (·.type) = s.ciphers.map (·.type)
  services : s'.services.map (·.fixed) = s.services.map (·.fixed)

theorem updateCipher_core (s : MwSession) (cipher : MwCipher) :
    SameCore s (updateCipher cipher s).2 := by
  refine ⟨rfl, rfl, rfl, rfl, rfl, rfl, ?_, rfl⟩
  simp only [updateCipher, Session.modify_apply, List.map_map]
  refine List.map_congr_left fun c _ => ?_
  simp only [Function.comp_apply]
  split
  · rename_i htype
    exact htype.symm
  · rfl

/-- Channels that differ at most in what describes them -/
structure MwChannel.Same (c c' : MwChannel) : Prop where
  addr : c'.addr = c.addr
  state : c'.state = c.state
  service : c'.service = c.service
  supported : c'.supported = c.supported
  offeredPolicy : c'.offeredPolicy = c.offeredPolicy
  policy : c'.policy = c.policy
  cipher : c'.cipher = c.cipher
  outgoingQueue : c'.outgoingQueue = c.outgoingQueue
  incomingQueue : c'.incomingQueue = c.incomingQueue

/-- Calls that only describe a channel -/
def ChannelCall.describes : ChannelCall → Bool
  | .setProtoType _ | .setProtoVer _ | .setOptions _ | .setUser _ | .setAddtlCreate _
  | .setAddtlAccept _ | .setServiceData _ => true
  | _ => false

/-- A relation goes through the smallest changes to a session. -/
class Primitive (R : MwSession → MwSession → Prop) : Prop extends Std.Refl R, IsTrans _ R where
  plain : ∀ s {e : Event}, e.Plain → R s (s.log e)
  core : ∀ {s s'}, SameCore s s' → R s s'
  update : ∀ {s : MwSession} {chan c c'}, s.channel? chan = some c → MwChannel.Same c c' →
    R s (s.setChannel chan.id (some c'))

/-- A relation goes through changes that leave a channel in its state, with the same
messages to send. -/
class Lenient (R : MwSession → MwSession → Prop) (chan : ChanRef) : Prop extends Primitive R where
  change : ∀ {s : MwSession} {c c' : MwChannel}, s.channel? chan = some c → c'.addr = c.addr →
    c'.state = c.state → c'.outgoingQueue = c.outgoingQueue → R s (s.setChannel chan.id (some c'))
  select : ∀ (s : MwSession) cipher, R s (s.log (.select chan cipher))

/-- A relation goes through everything that is done to a channel. -/
class Through (R : MwSession → MwSession → Prop) (chan : ChanRef) : Prop extends Primitive R where
  replace : ∀ {s : MwSession} {c c' : MwChannel}, s.channel? chan = some c → c'.addr = c.addr →
    R s (s.setChannel chan.id (some c'))
  remove : ∀ {s : MwSession} {c : MwChannel}, s.channel? chan = some c →
    R s (s.setChannel chan.id none)
  event : ∀ (s : MwSession) {e : Event}, e.On chan → R s (s.log e)

instance {R : MwSession → MwSession → Prop} {chan : ChanRef} [Through R chan] :
    Lenient R chan where
  change := fun hc haddr _ _ => Through.replace hc haddr
  select := fun s _ => Through.event s rfl

/-! ## What concerns no channel -/

section

variable {R : MwSession → MwSession → Prop} [IsTrans _ R] {h : Hooks} (hh : h.Respects R)

include hh

theorem callback_keeps {c : Callback} (hc : ∀ s : MwSession, R s (s.log (.callback c))) :
    Keeps R (callback h c) :=
  Keeps.bind hc fun _ => hh.call c

end

section

variable {R : MwSession → MwSession → Prop} [Primitive R] {h : Hooks}

theorem fault_keeps : Keeps R fault := fun _ => Primitive.core ⟨rfl, rfl, rfl, rfl, rfl, rfl, rfl, rfl⟩

theorem deref_keeps (chan : ChanRef) : Keeps R (deref chan) := by
  intro s
  cases hc : s.channel? chan with
  | none =>
    rw [deref_of_none hc]
    exact Primitive.core ⟨rfl, rfl, rfl, rfl, rfl, rfl, rfl, rfl⟩
  | some c =>
    rw [deref_of_some hc]
    exact Std.Refl.refl s

/-- Going on with a channel if it is there -/
theorem derefThen_keeps {α : Type} (chan : ChanRef) {f : Option MwChannel → Session α}
    (hnone : Keeps R (f none)) (hsome : ∀ c, Keeps R (f (some c))) :
    Keeps R (deref chan >>= f) := by
  refine Keeps.bind (deref_keeps chan) fun c => ?_
  cases c with
  | none => exact hnone
  | some c => exact hsome c

/-- Writing through a pointer, from what that does to a channel that is there -/
theorem updateChannel_of {chan : ChanRef} {f : MwChannel → MwChannel}
    (hf : ∀ {s : MwSession} {c}, s.channel? chan = some c →
      R s (s.setChannel chan.id (some (f c)))) : Keeps R (updateChannel chan f) := by
  intro s
  cases hc : s.channel? chan with
  | none =>
    rw [updateChannel_of_none hc]
    exact Primitive.core ⟨rfl, rfl, rfl, rfl, rfl, rfl, rfl, rfl⟩
  | some c =>
    rw [updateChannel_of_some hc]
    exact hf hc

theorem updateChannel_keeps (chan : ChanRef) {f : MwChannel → MwChannel}
    (hf : ∀ c, MwChannel.Same c (f c)) : Keeps R (updateChannel chan f) :=
  updateChannel_of fun hc => Primitive.update hc (hf _)

theorem setWhileInit_of (chan : ChanRef) {f : MwChannel → MwChannel}
    (hf : Keeps R (updateChannel chan f)) : Keeps R (setWhileInit chan f) :=
  derefThen_keeps chan (Keeps.pure _) fun _ =>
    Keeps.ite (fun _ => hf) fun _ => Keeps.pure _

theorem setWhileInit_keeps (chan : ChanRef) {f : MwChannel → MwChannel}
    (hf : ∀ c, MwChannel.Same c (f c)) : Keeps R (setWhileInit chan f) :=
  setWhileInit_of chan (updateChannel_keeps chan hf)

/-- Saying more about a channel -/
theorem describe_keeps (chan : ChanRef) (c : MwChannel) {call : ChannelCall}
    (hcall : call.describes = true) : Keeps R (runChannelCall h chan c call) := by
  cases call with
  | setProtoType _ | setProtoVer _ | setOptions _ =>
    exact setWhileInit_keeps chan fun _ => ⟨rfl, rfl, rfl, rfl, rfl, rfl, rfl, rfl, rfl⟩
  | setUser _ | setAddtlCreate _ | setAddtlAccept _ | setServiceData _ =>
    exact updateChannel_keeps chan fun _ => ⟨rfl, rfl, rfl, rfl, rfl, rfl, rfl, rfl, rfl⟩
  | _ => simp [ChannelCall.describes] at hcall

theorem newInstance_keeps (cipher : MwCipher) : Keeps R (newInstance cipher) := by
  refine Keeps.bind Keeps.get fun s => ?_
  cases mwCipherNewInstance s.login cipher with
  | none => exact Keeps.bind fault_keeps fun _ => Keeps.pure _
  | some p => exact Keeps.bind (fun s => Primitive.core (updateCipher_core s p.1)) fun _ => Keeps.pure _

theorem setServiceState_keeps (srvc : UInt32) (state : MwServiceState) :
    Keeps R (setServiceState srvc state) := by
  refine fun s => Primitive.core ⟨rfl, rfl, rfl, rfl, rfl, rfl, rfl, ?_⟩
  simp only [setServiceState, Session.modify_apply, List.map_map]
  refine List.map_congr_left fun c _ => ?_
  simp only [Function.comp_apply]
  split <;> rfl

variable (hh : h.Respects R)

include hh

theorem plainCallback_keeps {c : Callback} (hc : c.isRecv = false) : Keeps R (callback h c) :=
  callback_keeps hh fun s => Primitive.plain s hc

theorem optionalCallback_keeps {c : Callback} (hc : c.isRecv = false) (p : MwSession → Bool) :
    Keeps R (do if p (← get) then callback h c) := by
  refine Keeps.bind Keeps.get fun s => ?_
  exact Keeps.ite (fun _ => plainCallback_keeps hh hc) fun _ => Keeps.pure _

theorem mwServiceStart_keeps (srvc : UInt32) : Keeps R (mwServiceStart h srvc) := by
  refine Keeps.bind Keeps.get fun s => ?_
  cases s.service? srvc with
  | none => exact Keeps.pure _
  | some c =>
    refine Keeps.ite (fun _ => Keeps.pure _) fun _ => ?_
    refine Keeps.bind (setServiceState_keeps srvc _) fun _ => ?_
    exact Keeps.ite (fun _ => plainCallback_keeps hh rfl) fun _ => setServiceState_keeps srvc _

theorem shutService_keeps (srvc : UInt32) (state : MwServiceState) :
    Keeps R (shutService h srvc state) := by
  refine Keeps.bind Keeps.get fun s => ?_
  cases s.service? srvc with
  | none => exact Keeps.pure _
  | some c =>
    refine Keeps.ite (fun _ => Keeps.pure _) fun _ => ?_
    refine Keeps.bind (setServiceState_keeps srvc _) fun _ => ?_
    exact Keeps.ite (fun _ => plainCallback_keeps hh rfl) fun _ => setServiceState_keeps srvc _

theorem setUserStatusRecv_keeps (status : MwUserStatus) : Keeps R (setUserStatusRecv h status) := by
  refine Keeps.bind (fun _ => Primitive.core ⟨rfl, rfl, rfl, rfl, rfl, rfl, rfl, rfl⟩) fun _ => ?_
  exact optionalCallback_keeps hh rfl fun s => s.handler.onSetUserStatus

/-- The end of `mwSession_send`, from the write on -/
theorem writeMessage_keeps (msg : MwMessage) : Keeps R (do
    let ret ← h.ioWrite (mwOpaquePut (mwMessagePut msg))
    if ret = 0 then
      match msg.body with
      | .setUserStatus status => setUserStatusRecv h status
      | _ => pure ()
    return ret) := by
  refine Keeps.bind (hh.ioWrite _) fun ret => ?_
  refine Keeps.ite (fun _ => ?_) fun _ => Keeps.pure _
  split
  · exact Keeps.bind (setUserStatusRecv_keeps hh _) fun _ => Keeps.pure _
  · exact Keeps.pure _

/-- What follows once a message has been recorded as written -/
theorem mwSessionSend_log (msg : MwMessage) (s : MwSession) :
    R (s.log (.write msg)) (mwSessionSend h msg s).2 := by
  rw [mwSessionSend, record_bind]
  exact writeMessage_keeps hh msg _

theorem mwSessionSend_keeps {msg : MwMessage} (hmsg : ∀ s : MwSession, R s (s.log (.write msg))) :
    Keeps R (mwSessionSend h msg) :=
  fun s => IsTrans.trans _ _ _ (hmsg s) (mwSessionSend_log hh msg s)

end

/-! ## Channels that stay in their state -/

section

variable {R : MwSession → MwSession → Prop} {chan : ChanRef} [Lenient R chan] {h : Hooks}

theorem changeChannel_keeps {f : MwChannel → MwChannel}
    (hf : ∀ c, (f c).addr = c.addr ∧ (f c).state = c.state ∧ (f c).outgoingQueue = c.outgoingQueue) :
    Keeps R (updateChannel chan f) :=
  updateChannel_of fun hc => Lenient.change hc (hf _).1 (hf _).2.1 (hf _).2.2

theorem setService_keeps (srvc : UInt32) : Keeps R (mwChannelSetService chan srvc) :=
  setWhileInit_of chan (changeChannel_keeps fun _ => ⟨rfl, rfl, rfl⟩)

theorem putSupported_keeps (ci : MwCipherInstance) : Keeps R (putSupported chan ci) :=
  changeChannel_keeps fun _ => ⟨rfl, rfl, rfl⟩

theorem populate_keeps : Keeps R (mwChannelPopulateSupportedCipherInstances chan) := by
  refine Keeps.bind Keeps.get fun s => Keeps.forM fun cipher _ => ?_
  refine Keeps.bind (newInstance_keeps cipher) fun p => ?_
  cases p with
  | none => exact Keeps.pure _
  | some p => exact putSupported_keeps p.2

theorem offeredCipher_keeps (item : MwEncryptItem) : Keeps R (offeredCipher chan item) := by
  refine Keeps.bind Keeps.get fun s => ?_
  cases s.cipher? item.id with
  | none => exact Keeps.pure _
  | some cipher =>
    refine Keeps.bind (newInstance_keeps cipher) fun p => ?_
    cases p with
    | none => exact Keeps.pure _
    | some p =>
      dsimp only
      cases mwCipherInstanceOffered item p.1 p.2 with
      | none => exact fault_keeps
      | some ci => exact putSupported_keeps ci

theorem select_keeps (ci : Option MwCipherInstance) :
    Keeps R (mwChannelSelectCipherInstance chan ci) := by
  refine derefThen_keeps chan (Keeps.pure _) fun c => ?_
  refine Keeps.ite (fun _ => Keeps.pure _) fun _ => ?_
  refine Keeps.bind (changeChannel_keeps fun _ => ⟨rfl, rfl, rfl⟩) fun _ => ?_
  exact fun s => Lenient.select s _

theorem acceptCipher_keeps : Keeps R (acceptCipher chan) := by
  refine derefThen_keeps chan (Keeps.pure _) fun c => ?_
  dsimp only
  cases c.cipher with
  | none => exact Keeps.pure _
  | some ci =>
    refine Keeps.bind Keeps.get fun s => ?_
    split
    · exact Keeps.bind (changeChannel_keeps fun _ => ⟨rfl, rfl, rfl⟩) fun _ => Keeps.pure _
    · exact Keeps.bind fault_keeps fun _ => Keeps.pure _

theorem acceptedCipher_keeps (enc : MwEncryptAccept) : Keeps R (acceptedCipher chan enc) := by
  refine derefThen_keeps chan (Keeps.pure _) fun c => ?_
  dsimp only
  cases enc.item with
  | none => exact Keeps.bind (select_keeps _) fun _ => Keeps.pure _
  | some item =>
    refine Keeps.ite (fun _ => Keeps.bind (select_keeps _) fun _ => Keeps.pure _) fun _ => ?_
    cases c.supported? item.id with
    | none => exact Keeps.pure _
    | some ci =>
      refine Keeps.bind Keeps.get fun s => ?_
      split
      · exact Keeps.bind fault_keeps fun _ => Keeps.pure _
      · exact Keeps.bind (select_keeps _) fun _ => Keeps.pure _

section

variable (hcall : ∀ srvc type data, Keeps R (callback h (.recv srvc chan type data)))

include hcall

theorem channelRecv_keeps (m : ChannelMessage) : Keeps R (channelRecv h chan m) := by
  refine derefThen_keeps chan (Keeps.pure _) fun c => ?_
  refine Keeps.bind Keeps.get fun s => ?_
  dsimp only
  cases receivedData c m with
  | none => exact fault_keeps
  | some p =>
    refine Keeps.bind (changeChannel_keeps fun _ => ⟨rfl, rfl, rfl⟩) fun _ => ?_
    cases s.service? c.service with
    | none => exact Keeps.pure _
    | some srvc => exact Keeps.ite (fun _ => hcall _ _ _) fun _ => Keeps.pure _

theorem flushIncoming_keeps (l : List ChannelMessage) : Keeps R (flushIncoming h chan l) := by
  induction l with
  | nil => exact Keeps.pure _
  | cons m l ih => exact Keeps.bind (channelRecv_keeps hcall m) fun _ => ih

theorem mwChannelRecv_keeps (m : ChannelMessage) : Keeps R (mwChannelRecv h chan m) := by
  refine derefThen_keeps chan (Keeps.pure _) fun c => ?_
  refine Keeps.ite (fun _ => channelRecv_keeps hcall m) fun _ => ?_
  exact changeChannel_keeps fun _ => ⟨rfl, rfl, rfl⟩

end

theorem flushOutgoing_keeps (hsend : ∀ m : ChannelMessage, Keeps R (sendFor h chan m.toMessage))
    (l : List ChannelMessage) : Keeps R (flushOutgoing h chan l) := by
  induction l with
  | nil => exact Keeps.pure _
  | cons m l ih =>
    exact derefThen_keeps chan (Keeps.pure _) fun c => Keeps.bind (hsend m) fun _ => ih

end

/-! ## Everything that is done to a channel -/

section

variable {R : MwSession → MwSession → Prop} {chan : ChanRef} [Through R chan] {h : Hooks}

theorem replaceChannel_keeps {f : MwChannel → MwChannel} (hf : ∀ c, (f c).addr = c.addr) :
    Keeps R (updateChannel chan f) :=
  updateChannel_of fun hc => Through.replace hc (hf _)

theorem recordOn_keeps {e : Event} (he : e.On chan) : Keeps R (record e) :=
  fun s => Through.event s he

theorem setChannelState_keeps (state : MwChannelState) : Keeps R (setChannelState chan state) := by
  refine derefThen_keeps chan (Keeps.pure _) fun c => ?_
  refine Keeps.ite (fun _ => Keeps.pure _) fun _ => ?_
  exact Keeps.bind (replaceChannel_keeps fun _ => rfl) fun _ => recordOn_keeps rfl

theorem removeChannel_keeps :
    Keeps R (do
      match ← deref chan with
      | none => return
      | some _ => modify (·.setChannel chan.id none)) := by
  intro s
  cases hc : s.channel? chan with
  | none =>
    rw [Session.bind_apply, deref_of_none hc]
    exact Primitive.core ⟨rfl, rfl, rfl, rfl, rfl, rfl, rfl, rfl⟩
  | some c =>
    rw [Session.bind_apply, deref_of_some hc]
    exact Through.remove hc

theorem arrives_keeps (msg : MwMessage) {f : Session Unit} (hf : Keeps R f) :
    Keeps R (do
      record (.channel chan (.arrives msg))
      f) :=
  Keeps.bind (recordOn_keeps rfl) fun _ => hf

variable (hh : h.Respects R)

include hh

theorem sendFor_keeps {msg : MwMessage} (hmsg : msg.OnChannel) : Keeps R (sendFor h chan msg) := by
  have hwrite : (Event.write msg).On chan := hmsg
  have hsends : (Event.channel chan (.sends msg)).On chan := rfl
  refine Keeps.bind (recordOn_keeps hsends) fun _ => ?_
  exact mwSessionSend_keeps hh fun s => Through.event s hwrite

theorem recvCallback_keeps (srvc : UInt32) (type : UInt16) (data : MwOpaque) :
    Keeps R (callback h (.recv srvc chan type data)) := by
  have hcall : (Event.callback (.recv srvc chan type data)).On chan := rfl
  exact callback_keeps hh fun s => Through.event s hcall

theorem create_keeps : Keeps R (mwChannelCreate h chan) := by
  refine derefThen_keeps chan (Keeps.pure _) fun c => ?_
  refine Keeps.ite (fun _ => Keeps.pure _) fun _ => ?_
  refine Keeps.bind (changeChannel_keeps fun _ => ⟨rfl, rfl, rfl⟩) fun _ => ?_
  refine Keeps.bind Keeps.get fun s => ?_
  refine Keeps.bind (sendFor_keeps hh trivial) fun ret => ?_
  exact Keeps.bind (setChannelState_keeps _) fun _ => Keeps.pure _

theorem destroy_keeps (reason : UInt32) (info : MwOpaque) :
    Keeps R (mwChannelDestroy h chan reason info) := by
  intro s
  cases hc : s.channel? chan with
  | none =>
    rw [mwChannelDestroy, Session.bind_apply, deref_of_none hc]
    exact Primitive.core ⟨rfl, rfl, rfl, rfl, rfl, rfl, rfl, rfl⟩
  | some c =>
    rw [mwChannelDestroy_of_some h hc]
    have hstate : R s (setChannelState chan (if reason ≠ 0 then .error else .destroy) s).2 :=
      setChannelState_keeps _ s
    rw [setChannelState_of_some hc] at hstate
    refine IsTrans.trans _ _ _ hstate ?_
    refine IsTrans.trans _ _ _ (Through.remove (channel?_withState hc _)) ?_
    have hsend : Keeps R (sendFor h chan
        ⟨{ channel := chan.id }, .channelDestroy { reason := reason, data := info }⟩) :=
      sendFor_keeps hh trivial
    exact hsend _

theorem sendEncrypted_keeps (type : UInt32) (data : MwOpaque) (encrypt : Bool) :
    Keeps R (mwChannelSendEncrypted h chan type data encrypt) := by
  refine derefThen_keeps chan (Keeps.pure _) fun c => ?_
  refine Keeps.bind Keeps.get fun s => ?_
  dsimp only
  refine Keeps.bind (recordOn_keeps rfl) fun _ => ?_
  cases SendCall.compose
      ⟨chan, type, data, encrypt, c.cipher, s.owner? c, c.state, c.outgoingQueue, h.fresh s⟩ with
  | none => exact Keeps.bind fault_keeps fun _ => Keeps.pure _
  | some p =>
    refine Keeps.bind (replaceChannel_keeps fun _ => rfl) fun _ => ?_
    refine derefThen_keeps chan (Keeps.pure _) fun c => ?_
    refine Keeps.ite (fun _ => sendFor_keeps hh trivial) fun _ => ?_
    exact Keeps.bind (replaceChannel_keeps fun _ => rfl) fun _ => Keeps.pure _

theorem flushChannel_keeps : Keeps R (flushChannel h chan) := by
  refine derefThen_keeps chan (Keeps.pure _) fun c => ?_
  refine Keeps.bind (flushIncoming_keeps (recvCallback_keeps hh) _) fun _ => ?_
  refine Keeps.bind (replaceChannel_keeps fun _ => rfl) fun _ => ?_
  refine derefThen_keeps chan (Keeps.pure _) fun c => ?_
  refine Keeps.bind (flushOutgoing_keeps (fun m => sendFor_keeps hh trivial) _) fun _ => ?_
  exact replaceChannel_keeps fun _ => rfl

theorem channelOpen_keeps : Keeps R (channelOpen h chan) :=
  Keeps.bind (setChannelState_keeps _) fun _ => flushChannel_keeps hh

theorem sendAccept_keeps : Keeps R (sendAccept h chan) := by
  refine Keeps.bind acceptCipher_keeps fun item => ?_
  refine derefThen_keeps chan (Keeps.pure _) fun c => ?_
  refine Keeps.bind (sendFor_keeps hh trivial) fun ret => ?_
  refine Keeps.ite (fun _ => ?_) fun _ => ?_
  · exact Keeps.bind (setChannelState_keeps _) fun _ => Keeps.pure _
  · exact Keeps.bind (channelOpen_keeps hh) fun _ => Keeps.pure _

theorem accept_keeps : Keeps R (mwChannelAccept h chan) := by
  refine derefThen_keeps chan (Keeps.pure _) fun c => ?_
  refine Keeps.ite (fun _ => Keeps.pure _) fun _ => ?_
  refine Keeps.ite (fun _ => ?_) fun _ => sendAccept_keeps hh
  exact Keeps.bind (select_keeps _) fun _ => sendAccept_keeps hh

theorem recvCreate_keeps (msg : MwMsgChannelCreate) : Keeps R (mwChannelRecvCreate h chan msg) := by
  have hdestroy (reason : UInt32) : Keeps R (discard (mwChannelDestroy h chan reason [])) :=
    Keeps.discard (destroy_keeps hh reason [])
  refine Keeps.ite (fun _ => hdestroy _) fun _ => ?_
  refine Keeps.bind (changeChannel_keeps fun _ => ⟨rfl, rfl, rfl⟩) fun _ => ?_
  refine Keeps.bind (Keeps.forM fun item _ => offeredCipher_keeps item) fun _ => ?_
  refine Keeps.bind (changeChannel_keeps fun _ => ⟨rfl, rfl, rfl⟩) fun _ => ?_
  refine Keeps.bind Keeps.get fun s => ?_
  cases s.service? msg.service with
  | none => exact hdestroy _
  | some srvc => exact Keeps.ite (fun _ => plainCallback_keeps hh rfl) fun _ => hdestroy _

theorem recvAccept_keeps (msg : MwMsgChannelAccept) : Keeps R (mwChannelRecvAccept h chan msg) := by
  have hdestroy (reason : UInt32) : Keeps R (discard (mwChannelDestroy h chan reason [])) :=
    Keeps.discard (destroy_keeps hh reason [])
  refine derefThen_keeps chan (Keeps.pure _) fun c => ?_
  refine Keeps.ite (fun _ => Keeps.bind (hdestroy _) fun _ => Keeps.pure _) fun _ => ?_
  refine Keeps.bind (changeChannel_keeps fun _ => ⟨rfl, rfl, rfl⟩) fun _ => ?_
  refine Keeps.bind Keeps.get fun s => ?_
  cases s.service? c.service with
  | none => exact hdestroy _
  | some srvc =>
    refine Keeps.bind (changeChannel_keeps fun _ => ⟨rfl, rfl, rfl⟩) fun _ => ?_
    refine Keeps.bind (acceptedCipher_keeps _) fun ok => ?_
    refine Keeps.ite (fun _ => ?_) fun _ => hdestroy _
    refine Keeps.bind (setChannelState_keeps _) fun _ => ?_
    refine Keeps.bind ?_ fun _ => ?_
    · exact Keeps.ite (fun _ => plainCallback_keeps hh rfl) fun _ => Keeps.pure _
    · refine derefThen_keeps chan (Keeps.pure _) fun c => ?_
      exact Keeps.ite (fun _ => channelOpen_keeps hh) fun _ => Keeps.pure _

theorem recvDestroy_keeps (msg : MwMsgChannelDestroy) :
    Keeps R (mwChannelRecvDestroy h chan msg) := by
  refine derefThen_keeps chan (Keeps.pure _) fun c => ?_
  refine Keeps.bind (setChannelState_keeps _) fun _ => ?_
  refine Keeps.bind Keeps.get fun s => ?_
  cases s.service? c.service with
  | none => exact removeChannel_keeps
  | some srvc =>
    refine Keeps.bind ?_ fun _ => removeChannel_keeps
    exact Keeps.ite (fun _ => plainCallback_keeps hh rfl) fun _ => Keeps.pure _

theorem runChannelCall_keeps (c : MwChannel) (call : ChannelCall) :
    Keeps R (runChannelCall h chan c call) := by
  cases call with
  | setService srvc => exact setService_keeps srvc
  | setProtoType _ | setProtoVer _ | setOptions _ | setUser _ | setAddtlCreate _ | setAddtlAccept _
  | setServiceData _ => exact describe_keeps chan c rfl
  | populateSupportedCipherInstances => exact populate_keeps
  | selectCipherInstance cipher =>
    cases cipher with
    | none => exact select_keeps none
    | some type => exact select_keeps _
  | create => exact (create_keeps hh).discard
  | accept => exact (accept_keeps hh).discard
  | destroy reason info => exact (destroy_keeps hh reason info).discard
  | sendEncrypted type data encrypt => exact (sendEncrypted_keeps hh type data encrypt).discard

end

/-! ## Calls and callbacks -/

section

variable {R : MwSession → MwSession → Prop} [Primitive R] {h : Hooks}

theorem plainWrite (s : MwSession) {msg : MwMessage} (hmsg : msg.Plain) : R s (s.log (.write msg)) :=
  Primitive.plain s hmsg

variable (hh : h.Respects R)

include hh

theorem sendKeepalive_keeps : Keeps R (mwSessionSendKeepalive h) :=
  Keeps.bind (fun s => Primitive.plain s trivial) fun _ => hh.ioWrite _

theorem sendAnnounce_keeps (mayReply : Bool) (text : MwString) (recipients : List MwString) :
    Keeps R (mwSessionSendAnnounce h mayReply text recipients) := by
  refine Keeps.bind Keeps.get fun s => ?_
  refine Keeps.ite (fun _ => Keeps.pure _) fun _ => ?_
  exact mwSessionSend_keeps hh fun s => plainWrite s trivial

theorem setPrivacyInfo_keeps (privacy : MwPrivacyInfo) :
    Keeps R (mwSessionSetPrivacyInfo h privacy) :=
  mwSessionSend_keeps hh fun s => plainWrite s trivial

theorem setUserStatus_keeps (status : MwUserStatus) : Keeps R (mwSessionSetUserStatus h status) :=
  mwSessionSend_keeps hh fun s => plainWrite s trivial

theorem senseService_keeps (srvc : UInt32) : Keeps R (mwSessionSenseService h srvc) := by
  refine Keeps.bind Keeps.get fun s => ?_
  refine Keeps.ite (fun _ => Keeps.pure _) fun _ => ?_
  exact Keeps.discard (mwSessionSend_keeps hh fun s => plainWrite s trivial)

/-- A call, from what the calls do that concern channels or control the session -/
theorem runApiCall_of {call : ApiCall} {s : MwSession}
    (hstop : ∀ reason, call = .stop reason → Keeps R (mwSessionStop h reason))
    (hforce : call = .forceLogin → Keeps R (mwSessionForceLogin h))
    (hnew : call = .newOutgoing → Keeps R mwChannelNewOutgoing)
    (hchan : ∀ chan c call', call = .channel chan call' → s.channel? chan = some c →
      R s (runChannelCall h chan c call' s).2) :
    R s (runApiCall h call s).2 := by
  cases call with
  | stop reason => exact hstop reason rfl s
  | forceLogin => exact (hforce rfl).discard s
  | sendKeepalive => exact (sendKeepalive_keeps hh).discard s
  | sendAnnounce mayReply text recipients => exact (sendAnnounce_keeps hh _ _ _).discard s
  | setPrivacyInfo privacy => exact (setPrivacyInfo_keeps hh privacy).discard s
  | setUserStatus status => exact (setUserStatus_keeps hh status).discard s
  | senseService srvc => exact senseService_keeps hh srvc s
  | serviceStart srvc => exact mwServiceStart_keeps hh srvc s
  | serviceStarted srvc => exact setServiceState_keeps srvc _ s
  | serviceStop srvc => exact shutService_keeps hh srvc _ s
  | serviceStopped srvc => exact setServiceState_keeps srvc _ s
  | serviceError srvc => exact shutService_keeps hh srvc _ s
  | newOutgoing => exact (hnew rfl).discard s
  | channel chan call =>
    rw [runApiCall, Session.get_bind]
    cases hc : s.channel? chan with
    | none => exact Std.Refl.refl s
    | some c => exact hchan chan c call rfl hc

end

/-- Every call of a list meets a condition in the state it is made in. -/
def CallsMeet (h : Hooks) (P : ApiCall → MwSession → Prop) : List ApiCall → MwSession → Prop
  | [], _ => True
  | call :: calls, s => P call s ∧ CallsMeet h P calls (runApiCall h call s).2

theorem callsMeet_keeps {R : MwSession → MwSession → Prop} [Std.Refl R] [IsTrans _ R] {h : Hooks}
    {P : ApiCall → MwSession → Prop} (hstep : ∀ call s, P call s → R s (runApiCall h call s).2)
    {calls : List ApiCall} {s : MwSession} (hcalls : CallsMeet h P calls s) :
    R s (calls.forM (runApiCall h) s).2 := by
  induction calls generalizing s with
  | nil => exact Std.Refl.refl s
  | cons call calls ih => exact IsTrans.trans _ _ _ (hstep call s hcalls.1) (ih hcalls.2)

/-- Every call that an environment makes, at any depth, meets a condition in the state
it is made in. -/
structure Env.Meets (env : Env) (P : ApiCall → MwSession → Prop) : Prop where
  write : ∀ n b s, CallsMeet (env.hooks n) P (env.write b s).1 s
  close : ∀ n s, CallsMeet (env.hooks n) P (env.close s) s
  call : ∀ n c s, CallsMeet (env.hooks n) P (env.call c s) s

/-- Every call that an environment makes is of some kind. -/
structure Env.Uses (env : Env) (ok : ApiCall → Prop) : Prop where
  write : ∀ b s, ∀ call ∈ (env.write b s).1, ok call
  close : ∀ s, ∀ call ∈ env.close s, ok call
  call : ∀ c s, ∀ call ∈ env.call c s, ok call

theorem callsMeet_of_forall {h : Hooks} {P : ApiCall → MwSession → Prop} {calls : List ApiCall}
    (hcalls : ∀ call ∈ calls, ∀ s, P call s) (s : MwSession) : CallsMeet h P calls s := by
  induction calls generalizing s with
  | nil => trivial
  | cons call calls ih =>
    exact ⟨hcalls call List.mem_cons_self s, ih (fun c hc => hcalls c (List.mem_cons_of_mem _ hc)) _⟩

theorem Env.Uses.meets {env : Env} {ok : ApiCall → Prop} (henv : env.Uses ok) :
    env.Meets fun call _ => ok call where
  write := fun _ b s => callsMeet_of_forall (fun call hcall _ => henv.write b s call hcall) s
  close := fun _ s => callsMeet_of_forall (fun call hcall _ => henv.close s call hcall) s
  call := fun _ c s => callsMeet_of_forall (fun call hcall _ => henv.call c s call hcall) s

/-- A condition that every call meets -/
theorem Env.meets_of_forall {P : ApiCall → MwSession → Prop} (h : ∀ call s, P call s) (env : Env) :
    env.Meets P where
  write := fun _ _ s => callsMeet_of_forall (fun call _ => h call) s
  close := fun _ s => callsMeet_of_forall (fun call _ => h call) s
  call := fun _ _ s => callsMeet_of_forall (fun call _ => h call) s

/-- A relation that goes through the calls that an environment makes goes through its
callbacks. -/
theorem Env.hooks_respects {R : MwSession → MwSession → Prop} [Std.Refl R] [IsTrans _ R] {env : Env}
    {P : ApiCall → MwSession → Prop} (henv : env.Meets P)
    (hstep : ∀ n, (env.hooks n).Respects R → ∀ call s, P call s →
      R s (runApiCall (env.hooks n) call s).2)
    (n : Nat) : (env.hooks n).Respects R := by
  induction n with
  | zero => exact ⟨fun _ => Keeps.get, Keeps.pure _, fun _ => Keeps.pure _⟩
  | succ n ih =>
    constructor
    · exact fun b s => callsMeet_keeps (hstep n ih) (henv.write n b s)
    · exact fun s => callsMeet_keeps (hstep n ih) (henv.close n s)
    · exact fun c s => callsMeet_keeps (hstep n ih) (henv.call n c s)

/-! ## Messages outside of logging in -/

/-- Whether a message is part of logging in -/
def MwMessageType.isLogin : MwMessageType → Bool
  | .handshakeAck | .loginAck | .loginRedirect => true
  | _ => false

theorem find_keeps {R : MwSession → MwSession → Prop} [Primitive R] {id : UInt32}
    {f : ChanRef → Session Unit} (hf : ∀ chan, Keeps R (f chan)) :
    Keeps R (do
      match ← mwChannelFind id with
      | some chan => f chan
      | none => return) := by
  refine Keeps.bind (Keeps.bind Keeps.get fun _ => Keeps.pure _) fun chan => ?_
  cases chan with
  | none => exact Keeps.pure _
  | some chan => exact hf chan

section

variable {R : MwSession → MwSession → Prop} [Primitive R] {h : Hooks} (hh : h.Respects R)

include hh

/-- Handling a message that is not part of logging in, from what the messages do that
concern channels -/
theorem dispatch_of {msg : MwMessage} (hmsg : msg.body.type.isLogin = false)
    (hstop : ∀ reason, Keeps R (mwSessionStop h reason))
    (hcreate : ∀ m, Keeps R (channelCreateRecv h msg.head m))
    (haccept : ∀ m, Keeps R (channelAcceptRecv h msg.head m))
    (hdestroy : ∀ m, msg.head.channel ≠ masterChannelId →
      Keeps R (channelDestroyRecv h msg.head m))
    (hsend : ∀ m, Keeps R (channelSendRecv h msg.head m)) : Keeps R (dispatch h msg) := by
  obtain ⟨head, body⟩ := msg
  cases body with
  | handshakeAck _ | loginAck _ | loginRedirect _ =>
    simp [MwMessageBody.type, MwMessageType.isLogin] at hmsg
  | channelCreate m => exact hcreate m
  | channelDestroy m =>
    by_cases hid : head.channel = masterChannelId
    · intro s
      have heq : channelDestroyRecv h head m = mwSessionStop h m.reason := if_pos hid
      show R s (channelDestroyRecv h head m s).2
      rw [heq]
      exact hstop m.reason s
    · exact hdestroy m hid
  | channelSend m => exact hsend m
  | channelAccept m => exact haccept m
  | setPrivacyList privacy =>
    refine Keeps.bind (fun _ => Primitive.core ⟨rfl, rfl, rfl, rfl, rfl, rfl, rfl, rfl⟩) fun _ => ?_
    exact optionalCallback_keeps hh rfl fun s => s.handler.onSetPrivacyInfo
  | setUserStatus status => exact setUserStatusRecv_keeps hh status
  | senseService service => exact mwServiceStart_keeps hh service
  | admin text => exact optionalCallback_keeps hh rfl fun s => s.handler.onAdmin
  | announce m => exact optionalCallback_keeps hh rfl fun s => s.handler.onAnnounce
  | handshake _ | login _ | loginContinue => exact Keeps.pure _

end

/-! ## Relations that go through everything -/

section

variable {R : MwSession → MwSession → Prop} [Primitive R] [∀ chan, Through R chan] {h : Hooks}

theorem newOutgoing_keeps (hborn : ∀ id, Keeps R (mwChannelNewIncoming id)) :
    Keeps R mwChannelNewOutgoing := by
  refine Keeps.bind Keeps.get fun s => ?_
  dsimp only
  cases nextOutgoingId s.channels.map (2 ^ 32) s.channels.counter with
  | none => exact Keeps.pure _
  | some id =>
    refine Keeps.bind (fun _ => Primitive.core ⟨rfl, rfl, rfl, rfl, rfl, rfl, rfl, rfl⟩) fun _ => ?_
    refine Keeps.bind (hborn id) fun chan => ?_
    exact Keeps.bind (setChannelState_keeps _) fun _ => Keeps.pure _

variable (hh : h.Respects R) (hborn : ∀ id, Keeps R (mwChannelNewIncoming id))

include hh hborn

theorem runApiCall_keeps {call : ApiCall}
    (hstop : ∀ reason, call = .stop reason → Keeps R (mwSessionStop h reason))
    (hforce : call = .forceLogin → Keeps R (mwSessionForceLogin h)) :
    Keeps R (runApiCall h call) :=
  fun _ => runApiCall_of hh hstop hforce (fun _ => newOutgoing_keeps hborn)
    fun _ c call' _ _ => runChannelCall_keeps hh c call' _

theorem createRecv_keeps (head : MwMessageHead) (msg : MwMsgChannelCreate) :
    Keeps R (channelCreateRecv h head msg) :=
  Keeps.bind (hborn _) fun _ => arrives_keeps _ (recvCreate_keeps hh msg)

/-- Handling a message that is not part of logging in does what calls do. -/
theorem dispatch_keeps (hstop : ∀ reason, Keeps R (mwSessionStop h reason)) {msg : MwMessage}
    (hmsg : msg.body.type.isLogin = false) : Keeps R (dispatch h msg) := by
  refine dispatch_of hh hmsg hstop (createRecv_keeps hh hborn msg.head) ?_ ?_ ?_
  · exact fun m => find_keeps fun chan => arrives_keeps _ (recvAccept_keeps hh m)
  · intro m hid
    have heq : channelDestroyRecv h msg.head m = _ := if_neg hid
    rw [heq]
    exact find_keeps fun chan => arrives_keeps _ (recvDestroy_keeps hh m)
  · intro m
    exact find_keeps fun chan => arrives_keeps _
      (mwChannelRecv_keeps (recvCallback_keeps hh) _)

end

end Meanwhile
