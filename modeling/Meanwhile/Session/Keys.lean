-- SUMMARY: Which key the RC2/40 instances of a session encrypt with, over runs that log in more than once.
import Meanwhile.Channel.Sending

/-!
# The key of an RC2/40 session

An RC2/40 cipher expands the login id of the session when it makes its first instance,
and keeps that key. Its instances encrypt with it. The other side expands the login id
that came with the channel. The two agree as long as no later login gives the session an
id with another key.

`KeysRight` is the invariant: every cipher that has a key has that of the login id, there
is no instance without one, and the messages encrypted so far used it.
-/

namespace Meanwhile

/-! ## Keys -/

/-- The key that the other side derives from the login id of a user
(`accepted_RC2_40` of a new instance) -/
def IdKey (login : MwLoginInfo) (key : EKey) : Prop :=
  acceptedRc2_40 login {} = some (.rc2_40 { incomingKey := key })

theorem idKey_iff (login : MwLoginInfo) (key : EKey) :
    IdKey login key ↔ expandLoginId (fun _ => 0) login.loginId = some key := by
  unfold IdKey acceptedRc2_40
  cases expandLoginId (fun _ => 0) login.loginId <;> simp

/-- What an RC2/40 instance encrypts in a call is encrypted with the key of the login. -/
def EncryptsWith (login : MwLoginInfo) (call : SendCall) : Prop :=
  ∀ ci msg ci', call.encrypt = true → call.cipher = some (.rc2_40 ci) →
    call.compose = some (msg, ci') →
    ∃ key iv, IdKey login key ∧
      mwEncryptExpanded call.fresh key ci.outgoingIv call.data = some (iv, msg.msg.data)

/-! ## The invariant -/

/-- A cipher that has a key has that of the login. -/
def MwCipher.Keyed (login : MwLoginInfo) : MwCipher → Prop
  | .rc2_40 c => if c.ready then IdKey login c.sessionKey else c.sessionKey = fun _ => 0
  | .rc2_128 _ => True

/-- Every RC2/40 cipher has a key. -/
def MwSession.AllReady (s : MwSession) : Prop := ∀ c, .rc2_40 c ∈ s.ciphers → c.ready = true

/-- The keys of a session with a login, and the messages it has encrypted since its trace
was `base` -/
structure KeysRight (info : MwLoginInfo) (base : List Event) (s : MwSession) : Prop where
  login : s.login = info
  ciphers : ∀ c ∈ s.ciphers, c.Keyed info
  channels : ∀ id c, s.channels.map id = some c → c.Has .rc2_40 → s.AllReady
  sends : ∃ new, s.trace = new ++ base ∧ ∀ call, .send call ∈ new → EncryptsWith info call

section

variable {info : MwLoginInfo} {base : List Event} {s s' : MwSession}

/-- Changes that neither keys nor messages depend on -/
structure SameKeys (s s' : MwSession) : Prop where
  login : s'.login = s.login
  ciphers : s'.ciphers = s.ciphers
  map : s'.channels.map = s.channels.map
  trace : s'.trace = s.trace

theorem KeysRight.same (hs : KeysRight info base s) (h : SameKeys s s') :
    KeysRight info base s' where
  login := h.login.trans hs.login
  ciphers := by
    rw [h.ciphers]
    exact hs.ciphers
  channels := by
    intro id c hc hhas c' hc'
    rw [h.map] at hc
    rw [h.ciphers] at hc'
    exact hs.channels id c hc hhas c' hc'
  sends := by
    rw [h.trace]
    exact hs.sends

theorem KeysRight.log (hs : KeysRight info base s) {e : Event}
    (he : ∀ call, e = .send call → EncryptsWith info call) : KeysRight info base (s.log e) where
  login := hs.login
  ciphers := hs.ciphers
  channels := hs.channels
  sends := by
    obtain ⟨new, hnew, hall⟩ := hs.sends
    refine ⟨e :: new, congrArg (e :: ·) hnew, fun call hcall => ?_⟩
    cases List.mem_cons.mp hcall with
    | inl heq => exact he call heq.symm
    | inr hmem => exact hall call hmem

/-- A channel may have an instance that another had, or one for a key. -/
theorem KeysRight.setChannel (hs : KeysRight info base s) {id : UInt32} {c' : MwChannel}
    (hc' : c'.Has .rc2_40 → s.AllReady) : KeysRight info base (s.setChannel id (some c')) where
  login := hs.login
  ciphers := hs.ciphers
  channels := by
    intro id' d hd
    simp only [MwSession.setChannel, Function.update_apply] at hd
    split at hd
    · obtain rfl := Option.some.inj hd
      exact hc'
    · exact hs.channels id' d hd
  sends := hs.sends

theorem KeysRight.removeChannel (hs : KeysRight info base s) (id : UInt32) :
    KeysRight info base (s.setChannel id none) where
  login := hs.login
  ciphers := hs.ciphers
  channels := by
    intro id' d hd
    simp only [MwSession.setChannel, Function.update_apply] at hd
    split at hd
    · cases hd
    · exact hs.channels id' d hd
  sends := hs.sends

end

/-- Code that keeps the keys right, and encrypts with them only -/
abbrev KeepsKeys (info : MwLoginInfo) (base : List Event) {α : Type} (m : Session α) : Prop :=
  Keeps (Maintains (KeysRight info base)) m

/-! ## Channels and their instances -/

section

variable {info : MwLoginInfo} {base : List Event}

theorem same_keys {f : MwSession → MwSession} (hf : ∀ s, SameKeys s (f s)) :
    KeepsKeys info base (modify f : Session Unit) :=
  fun s hs => hs.same (hf s)

theorem fault_keys : KeepsKeys info base fault := same_keys fun _ => ⟨rfl, rfl, rfl, rfl⟩

theorem record_keys {e : Event} (he : ∀ call, e ≠ .send call) : KeepsKeys info base (record e) :=
  fun _ hs => hs.log fun call heq => absurd heq (he call)

/-- Going on with a channel if it is there -/
theorem derefThen_keyed {α : Type} (chan : ChanRef) {f : Option MwChannel → Session α}
    (hnone : KeepsKeys info base (f none))
    (hsome : ∀ s c, s.channel? chan = some c → KeysRight info base s →
      KeysRight info base (f (some c) s).2) :
    KeepsKeys info base (deref chan >>= f) := by
  intro s hs
  rw [Session.bind_apply]
  cases hc : s.channel? chan with
  | none =>
    rw [deref_of_none hc]
    exact hnone _ (hs.same ⟨rfl, rfl, rfl, rfl⟩)
  | some c =>
    rw [deref_of_some hc]
    exact hsome s c hc hs

theorem derefThen_keys {α : Type} (chan : ChanRef) {f : Option MwChannel → Session α}
    (hnone : KeepsKeys info base (f none)) (hsome : ∀ c, KeepsKeys info base (f (some c))) :
    KeepsKeys info base (deref chan >>= f) :=
  derefThen_keyed chan hnone fun s c _ => hsome c s

/-- Writing through a pointer, when there is a key for what is written -/
theorem updateChannel_keyed {s : MwSession} {chan : ChanRef} {f : MwChannel → MwChannel}
    (hs : KeysRight info base s)
    (hf : ∀ c, s.channel? chan = some c → (f c).Has .rc2_40 → s.AllReady) :
    KeysRight info base (updateChannel chan f s).2 := by
  cases hc : s.channel? chan with
  | none =>
    rw [updateChannel_of_none hc]
    exact hs.same ⟨rfl, rfl, rfl, rfl⟩
  | some c =>
    rw [updateChannel_of_some hc]
    exact hs.setChannel (hf c hc)

theorem KeysRight.allReady {s : MwSession} {chan : ChanRef} {c : MwChannel}
    (hs : KeysRight info base s) (hc : s.channel? chan = some c) (h : c.Has .rc2_40) : s.AllReady :=
  hs.channels chan.id c (map_of_channel? hc).1 h

/-- Writing what is no instance -/
theorem updateChannel_keys (chan : ChanRef) {f : MwChannel → MwChannel}
    (hf : ∀ c, (f c).cipher = c.cipher ∧ (f c).supported = c.supported) :
    KeepsKeys info base (updateChannel chan f) := by
  intro s hs
  refine updateChannel_keyed hs fun c hc hhas => hs.allReady hc ?_
  exact hhas.same (hf c).2 (congrArg (Option.map (·.type)) (hf c).1)

theorem setChannelState_keys (chan : ChanRef) (state : MwChannelState) :
    KeepsKeys info base (setChannelState chan state) := by
  refine derefThen_keys chan (Keeps.pure _) fun c => ?_
  refine Keeps.ite (fun _ => Keeps.pure _) fun _ => ?_
  refine Keeps.bind (updateChannel_keys chan fun _ => ⟨rfl, rfl⟩) fun _ => ?_
  exact record_keys fun _ => by simp

theorem setWhileInit_keys (chan : ChanRef) {f : MwChannel → MwChannel}
    (hf : ∀ c, (f c).cipher = c.cipher ∧ (f c).supported = c.supported) :
    KeepsKeys info base (setWhileInit chan f) := by
  refine derefThen_keys chan (Keeps.pure _) fun c => ?_
  exact Keeps.ite (fun _ => updateChannel_keys chan hf) fun _ => Keeps.pure _

theorem newIncoming_keys (id : UInt32) : KeepsKeys info base (mwChannelNewIncoming id) := by
  intro s hs
  have hnone : ¬ MwChannel.Has { addr := s.nextAddr } .rc2_40 := by simp [MwChannel.Has]
  rw [mwChannelNewIncoming, Session.get_bind, Session.modify_bind, record_bind, Session.bind_apply]
  refine setChannelState_keys _ _ _ ?_
  have hset : KeysRight info base (s.setChannel id (some { addr := s.nextAddr })) :=
    hs.setChannel fun h => absurd h hnone
  have hset' : KeysRight info base
      { s.setChannel id (some { addr := s.nextAddr }) with nextAddr := s.nextAddr + 1 } :=
    hset.same ⟨rfl, rfl, rfl, rfl⟩
  exact hset'.log fun call heq => by cases heq

theorem newOutgoing_keys : KeepsKeys info base mwChannelNewOutgoing := by
  refine Keeps.bind Keeps.get fun s => ?_
  dsimp only
  cases nextOutgoingId s.channels.map (2 ^ 32) s.channels.counter with
  | none => exact Keeps.pure _
  | some id =>
    refine Keeps.bind (same_keys fun _ => ⟨rfl, rfl, rfl, rfl⟩) fun _ => ?_
    refine Keeps.bind (newIncoming_keys id) fun chan => ?_
    exact Keeps.bind (setChannelState_keys _ _) fun _ => Keeps.pure _

/-! ## Ciphers -/

/-- A later state of a cipher, with its key if it is RC2/40 -/
theorem updateCipher_keyed {s : MwSession} {cipher : MwCipher} (hs : KeysRight info base s)
    (hkeyed : cipher.Keyed info) (hready : ∀ c, cipher = .rc2_40 c → c.ready = true) :
    KeysRight info base (updateCipher cipher s).2 ∧
      (cipher.type = .rc2_40 → (updateCipher cipher s).2.AllReady) := by
  have hmem : ∀ c ∈ (updateCipher cipher s).2.ciphers,
      c = cipher ∨ c ∈ s.ciphers ∧ c.type ≠ cipher.type := by
    intro c hc
    obtain ⟨c', hc', rfl⟩ := List.mem_map.mp hc
    split
    · exact .inl rfl
    · exact .inr ⟨hc', ‹_›⟩
  have hall : cipher.type = .rc2_40 → (updateCipher cipher s).2.AllReady := by
    intro htype c hc
    obtain heq | ⟨_, hne⟩ := hmem _ hc
    · exact hready c heq.symm
    · exact absurd htype.symm hne
  refine ⟨⟨hs.login, fun c hc => ?_, fun id c hc huses => ?_, hs.sends⟩, hall⟩
  · obtain rfl | ⟨hold, _⟩ := hmem c hc
    · exact hkeyed
    · exact hs.ciphers c hold
  · intro c' hc'
    obtain heq | ⟨hold, _⟩ := hmem _ hc'
    · exact hready c' heq.symm
    · exact hs.channels id c hc huses c' hold

/-- The first instance is made with the key of the login. -/
theorem newInstance_keyed {s : MwSession} {cipher : MwCipher} (hs : KeysRight info base s)
    (hkeyed : cipher.Keyed info) :
    KeysRight info base (newInstance cipher s).2 ∧
      ∀ p, (newInstance cipher s).1 = some p → p.2.type = .rc2_40 →
        (newInstance cipher s).2.AllReady := by
  have hlogin := hs.login
  rw [newInstance, Session.get_bind]
  cases cipher with
  | rc2_128 c =>
    have hupdate := updateCipher_keyed hs hkeyed fun _ h => by cases h
    refine ⟨hupdate.1, fun p hp htype => ?_⟩
    obtain rfl := Option.some.inj hp
    cases htype
  | rc2_40 c =>
    cases hready : c.ready with
    | true =>
      have heq : mwCipherNewInstance s.login (.rc2_40 c) = some (.rc2_40 c, .rc2_40 {}) := by
        simp [mwCipherNewInstance, hready]
      rw [heq]
      have hupdate := updateCipher_keyed hs hkeyed fun c' h => by
        cases h
        exact hready
      exact ⟨hupdate.1, fun _ _ _ => hupdate.2 rfl⟩
    | false =>
      have hzero : c.sessionKey = fun _ => 0 := by simpa [MwCipher.Keyed, hready] using hkeyed
      cases hkey : expandLoginId (fun _ => 0) s.login.loginId with
      | none =>
        have heq : mwCipherNewInstance s.login (.rc2_40 c) = none := by
          simp only [mwCipherNewInstance, hready, hzero]
          rw [hkey]
          rfl
        rw [heq]
        exact ⟨fault_keys s hs, fun p hp => by cases hp⟩
      | some key =>
        have heq : mwCipherNewInstance s.login (.rc2_40 c) =
            some (.rc2_40 { sessionKey := key, ready := true }, .rc2_40 {}) := by
          simp only [mwCipherNewInstance, hready, hzero]
          rw [hkey]
          rfl
        rw [heq]
        have hkeyed' : MwCipher.Keyed info (.rc2_40 { sessionKey := key, ready := true }) := by
          rw [hlogin] at hkey
          exact (idKey_iff info key).mpr hkey
        have hupdate := updateCipher_keyed hs hkeyed' fun c' h => by
          cases h
          rfl
        exact ⟨hupdate.1, fun _ _ _ => hupdate.2 rfl⟩

/-- Instances of a kind that is there already, or of one that has a key -/
theorem putSupported_keyed {s : MwSession} (chan : ChanRef) {ci : MwCipherInstance}
    (hs : KeysRight info base s) (hready : ci.type = .rc2_40 → s.AllReady) :
    KeysRight info base (putSupported chan ci s).2 := by
  refine updateChannel_keyed hs fun c hc hhas => ?_
  obtain hhas | hhas := hhas
  · obtain ⟨ci', hci', htype⟩ := List.mem_map.mp hhas
    dsimp only at hci'
    cases hsupported : c.supported with
    | none =>
      rw [hsupported] at hci'
      exact nomatch hci'
    | some l =>
      rw [hsupported] at hci'
      obtain hold | rfl := mem_putInstance hci'
      · refine hs.allReady hc (.inl (List.mem_map.mpr ⟨ci', ?_, htype⟩))
        rw [hsupported]
        exact hold
      · exact hready htype
  · exact hs.allReady hc (.inr hhas)

/-- The end of `mwChannel_recvDestroy`: the channel leaves the set -/
theorem removeChannel_keys (chan : ChanRef) : KeepsKeys info base (do
    match ← deref chan with
    | none => return
    | some _ => modify (·.setChannel chan.id none)) :=
  derefThen_keys chan (Keeps.pure _) fun _ _ hs => hs.removeChannel chan.id

/-- One turn of the loop over the ciphers -/
theorem putNew_keys (chan : ChanRef) {cipher : MwCipher} {s : MwSession} (hs : KeysRight info base s)
    (hcipher : cipher.Keyed info) :
    KeysRight info base ((newInstance cipher >>= fun p =>
      match p with
      | some (_, ci) => putSupported chan ci
      | none => pure ()) s).2 := by
  obtain ⟨hnew, hready⟩ := newInstance_keyed hs hcipher
  rw [Session.bind_apply]
  cases hp : (newInstance cipher s).1 with
  | none => exact hnew
  | some p => exact putSupported_keyed chan hnew (hready p hp)

theorem populate_keys (chan : ChanRef) :
    KeepsKeys info base (mwChannelPopulateSupportedCipherInstances chan) := by
  intro s hs
  rw [mwChannelPopulateSupportedCipherInstances, Session.get_bind]
  -- the ciphers are those of the beginning, and their keys stay right
  have hciphers := hs.ciphers
  revert hciphers
  generalize s.ciphers = l
  induction l generalizing s with
  | nil => exact fun _ => hs
  | cons cipher l ih =>
    intro hciphers
    obtain ⟨hcipher, hl⟩ := List.forall_mem_cons.mp hciphers
    exact ih _ (putNew_keys chan hs hcipher) hl

theorem cipher?_keyed {s : MwSession} {id : UInt16} {cipher : MwCipher} (hs : KeysRight info base s)
    (h : s.cipher? id = some cipher) : cipher.Keyed info :=
  hs.ciphers cipher (List.mem_of_find?_eq_some h)

theorem MwCipherInstance.type_of_shape {ci ci' : MwCipherInstance} (h : ci'.shape = ci.shape) :
    ci'.type = ci.type := by
  rw [← ci'.shape_type, h, ci.shape_type]

theorem offeredCipher_keys (chan : ChanRef) (item : MwEncryptItem) :
    KeepsKeys info base (offeredCipher chan item) := by
  intro s hs
  rw [offeredCipher, Session.get_bind]
  cases hcipher : s.cipher? item.id with
  | none => exact hs
  | some cipher =>
    obtain ⟨hnew, hready⟩ := newInstance_keyed hs (cipher?_keyed hs hcipher)
    dsimp only
    rw [Session.bind_apply]
    cases hp : (newInstance cipher s).1 with
    | none => exact hnew
    | some p =>
      dsimp only
      cases hoffered : mwCipherInstanceOffered item p.1 p.2 with
      | none => exact fault_keys _ hnew
      | some ci =>
        refine putSupported_keyed chan hnew fun htype => hready p hp ?_
        rw [← MwCipherInstance.type_of_shape (mwCipherInstanceOffered_shape hoffered), htype]

/-- Selecting an instance of a kind that the channel has -/
theorem select_keyed {s : MwSession} {chan : ChanRef} {ci : Option MwCipherInstance}
    (hs : KeysRight info base s) (hready : ∀ ci', ci = some ci' → ci'.type = .rc2_40 → s.AllReady) :
    KeysRight info base (mwChannelSelectCipherInstance chan ci s).2 := by
  unfold mwChannelSelectCipherInstance
  rw [Session.bind_apply]
  cases hc : s.channel? chan with
  | none =>
    rw [deref_of_none hc]
    exact hs.same ⟨rfl, rfl, rfl, rfl⟩
  | some c =>
    rw [deref_of_some hc]
    dsimp only
    rw [Session.ite_apply]
    split
    · exact hs
    · rw [Session.bind_apply]
      refine record_keys (fun _ => by simp) _ ?_
      refine updateChannel_keyed hs fun c' _ hhas => ?_
      obtain hhas | hhas := hhas
      · exact nomatch hhas
      · obtain ⟨ci', hci', htype⟩ := Option.map_eq_some_iff.mp hhas
        exact hready ci' hci' htype

theorem has_of_supported? {c : MwChannel} {id : UInt16} {ci : MwCipherInstance}
    (h : c.supported? id = some ci) : c.Has ci.type :=
  .inl (List.mem_map_of_mem (List.mem_of_find?_eq_some h))

theorem has_of_cipher {c : MwChannel} {ci : MwCipherInstance} (h : c.cipher = some ci) :
    c.Has ci.type :=
  .inr (by rw [h]; rfl)

theorem select_keys_none (chan : ChanRef) :
    KeepsKeys info base (mwChannelSelectCipherInstance chan none) :=
  fun _ hs => select_keyed hs fun _ h => nomatch h

/-- Replacing the cipher of a channel by a later state of it -/
theorem setCipher_keyed {s : MwSession} {chan : ChanRef} {c : MwChannel} {f : MwChannel → MwChannel}
    (hs : KeysRight info base s) (hc : s.channel? chan = some c)
    (hsupported : (f c).supported = c.supported)
    (hcipher : (f c).cipher.map (·.type) = c.cipher.map (·.type)) :
    KeysRight info base (updateChannel chan f s).2 := by
  refine updateChannel_keyed hs fun c' hc' hhas => hs.allReady hc ?_
  obtain rfl := Option.some.inj (hc'.symm.trans hc)
  exact hhas.same hsupported hcipher

theorem acceptCipher_keys (chan : ChanRef) : KeepsKeys info base (acceptCipher chan) := by
  refine derefThen_keyed chan (Keeps.pure _) fun s c hc hs => ?_
  dsimp only
  cases hcipher : c.cipher with
  | none => exact hs
  | some ci =>
    dsimp only
    rw [Session.get_bind]
    cases haccept : s.cipher? ci.type.code >>= fun cipher =>
        mwCipherInstanceAccept c.user cipher ci with
    | none => exact fault_keys s hs
    | some r =>
      obtain ⟨cipher, _, haccept⟩ := Option.bind_eq_some_iff.mp haccept
      refine setCipher_keyed hs hc rfl ?_
      rw [hcipher]
      exact congrArg some (MwCipherInstance.type_of_shape (mwCipherInstanceAccept_shape haccept))

theorem acceptedCipher_keys (chan : ChanRef) (enc : MwEncryptAccept) :
    KeepsKeys info base (acceptedCipher chan enc) := by
  refine derefThen_keyed chan (Keeps.pure _) fun s c hc hs => ?_
  dsimp only
  cases enc.item with
  | none => exact select_keys_none chan s hs
  | some item =>
    dsimp only
    rw [Session.ite_apply]
    split
    · exact select_keys_none chan s hs
    · cases hsupported : c.supported? item.id with
      | none => exact hs
      | some ci =>
        dsimp only
        rw [Session.get_bind]
        cases haccept : s.cipher? ci.type.code >>= fun cipher =>
            mwCipherInstanceAccepted c.user item cipher ci with
        | none => exact fault_keys s hs
        | some ci' =>
          obtain ⟨cipher, _, haccept⟩ := Option.bind_eq_some_iff.mp haccept
          refine select_keyed hs fun ci'' heq htype => ?_
          obtain rfl := Option.some.inj heq
          have hshape := mwCipherInstanceAccepted_shape haccept
          rw [MwCipherInstance.type_of_shape hshape] at htype
          exact hs.allReady hc (htype ▸ has_of_supported? hsupported)

/-! ## Calls on channels -/

variable {h : Hooks} (hh : h.Respects (Maintains (KeysRight info base)))

include hh

theorem callback_keys (c : Callback) : KeepsKeys info base (callback h c) :=
  callback_keeps hh fun _ hs => hs.log fun _ heq => nomatch heq

theorem setUserStatusRecv_keys (status : MwUserStatus) :
    KeepsKeys info base (setUserStatusRecv h status) := by
  refine Keeps.bind (same_keys fun _ => ⟨rfl, rfl, rfl, rfl⟩) fun _ => ?_
  refine Keeps.bind Keeps.get fun s => ?_
  exact Keeps.ite (fun _ => callback_keys hh _) fun _ => Keeps.pure _

theorem mwSessionSend_keys (msg : MwMessage) : KeepsKeys info base (mwSessionSend h msg) := by
  refine Keeps.bind (record_keys fun _ => by simp) fun _ => ?_
  refine Keeps.bind (hh.ioWrite _) fun ret => ?_
  refine Keeps.ite (fun _ => ?_) fun _ => Keeps.pure _
  split
  · exact Keeps.bind (setUserStatusRecv_keys hh _) fun _ => Keeps.pure _
  · exact Keeps.pure _

theorem sendFor_keys (chan : ChanRef) (msg : MwMessage) :
    KeepsKeys info base (sendFor h chan msg) :=
  Keeps.bind (record_keys fun _ => by simp) fun _ => mwSessionSend_keys hh msg

theorem create_keys (chan : ChanRef) : KeepsKeys info base (mwChannelCreate h chan) := by
  refine derefThen_keys chan (Keeps.pure _) fun c => ?_
  refine Keeps.ite (fun _ => Keeps.pure _) fun _ => ?_
  refine Keeps.bind (updateChannel_keys chan fun _ => ⟨rfl, rfl⟩) fun _ => ?_
  refine Keeps.bind Keeps.get fun s => ?_
  refine Keeps.bind (sendFor_keys hh chan _) fun ret => ?_
  exact Keeps.bind (setChannelState_keys _ _) fun _ => Keeps.pure _

theorem destroy_keys (chan : ChanRef) (reason : UInt32) (data : MwOpaque) :
    KeepsKeys info base (mwChannelDestroy h chan reason data) := by
  refine derefThen_keys chan (Keeps.pure _) fun c => ?_
  refine Keeps.bind (setChannelState_keys chan _) fun _ => ?_
  refine Keeps.bind (fun _ hs => hs.removeChannel chan.id) fun _ => ?_
  exact sendFor_keys hh chan _

theorem channelSend_keys (chan : ChanRef) (msg : ChannelMessage) :
    KeepsKeys info base (channelSend h chan msg) := by
  refine derefThen_keys chan (Keeps.pure _) fun c => ?_
  refine Keeps.ite (fun _ => sendFor_keys hh chan _) fun _ => ?_
  exact Keeps.bind (updateChannel_keys chan fun _ => ⟨rfl, rfl⟩) fun _ => Keeps.pure _

omit hh in
/-- A message that is encrypted for a channel is encrypted with the key of the login. -/
theorem encryptsWith_call {s : MwSession} {chan : ChanRef} {c : MwChannel}
    (hs : KeysRight info base s) (hc : s.channel? chan = some c) (type : UInt32) (data : MwOpaque)
    (encrypt : Bool) :
    EncryptsWith info
      ⟨chan, type, data, encrypt, c.cipher, s.owner? c, c.state, c.outgoingQueue, h.fresh s⟩ := by
  intro ci msg ci' hencrypt hcipher hcompose
  dsimp only at hencrypt hcipher
  subst hencrypt
  unfold SendCall.compose at hcompose
  dsimp only at hcompose
  have howner : s.owner? c = s.cipher? (MwCipherType.code .rc2_40) := by
    unfold MwSession.owner?
    rw [hcipher]
    rfl
  rw [hcipher] at hcompose
  dsimp only at hcompose
  obtain ⟨cipher, hfind, hcompose⟩ := Option.bind_eq_some_iff.mp hcompose
  rw [howner] at hfind
  have hkeyed := cipher?_keyed hs hfind
  cases cipher with
  | rc2_128 c => exact absurd (List.find?_some hfind) (by simp [MwCipher.type, MwCipherType.code])
  | rc2_40 cipher =>
    have hready := hs.allReady hc (has_of_cipher hcipher) cipher
      (List.mem_of_find?_eq_some hfind)
    have hkey : IdKey info cipher.sessionKey := by simpa [MwCipher.Keyed, hready] using hkeyed
    obtain ⟨p, hp, hcompose⟩ := Option.bind_eq_some_iff.mp hcompose
    obtain ⟨r, hr, hp⟩ := Option.bind_eq_some_iff.mp hp
    obtain rfl := Option.some.inj hp
    obtain ⟨rfl, rfl⟩ := Prod.mk.inj (Option.some.inj hcompose)
    exact ⟨cipher.sessionKey, r.1, hkey, hr⟩

theorem sendEncrypted_keys (chan : ChanRef) (type : UInt32) (data : MwOpaque) (encrypt : Bool) :
    KeepsKeys info base (mwChannelSendEncrypted h chan type data encrypt) := by
  refine derefThen_keyed chan (Keeps.pure _) fun s c hc hs => ?_
  dsimp only
  rw [Session.get_bind, record_bind]
  have hcall := encryptsWith_call (h := h) hs hc type data encrypt
  have hlog : KeysRight info base (s.log (.send
      ⟨chan, type, data, encrypt, c.cipher, s.owner? c, c.state, c.outgoingQueue, h.fresh s⟩)) :=
    hs.log fun call heq => by
      obtain rfl := Event.send.inj heq
      exact hcall
  cases hcompose : SendCall.compose
      ⟨chan, type, data, encrypt, c.cipher, s.owner? c, c.state, c.outgoingQueue, h.fresh s⟩ with
  | none => exact fault_keys _ hlog
  | some p =>
    dsimp only
    rw [Session.bind_apply]
    refine channelSend_keys hh chan p.1 _ ?_
    exact setCipher_keyed hlog hc rfl (SendCall.compose_type hcompose)

theorem channelRecv_keys (chan : ChanRef) (m : ChannelMessage) :
    KeepsKeys info base (channelRecv h chan m) := by
  refine derefThen_keyed chan (Keeps.pure _) fun s c hc hs => ?_
  dsimp only
  rw [Session.get_bind]
  cases hdata : receivedData c m with
  | none => exact fault_keys s hs
  | some p =>
    dsimp only
    rw [Session.bind_apply]
    have hupdate : KeysRight info base (updateChannel chan (fun c =>
        { c with msgRecv := c.msgRecv + 1, cipher := p.1 }) s).2 := by
      exact setCipher_keyed hs hc rfl (receivedData_type hdata)
    unfold mwServiceRecv
    cases s.service? c.service with
    | none => exact hupdate
    | some srvc =>
      have hrecv : KeepsKeys info base (if srvc.hasRecv then
          callback h (.recv srvc.type chan m.msg.type p.2) else pure ()) :=
        Keeps.ite (fun _ => callback_keys hh _) fun _ => Keeps.pure _
      exact hrecv _ hupdate

theorem flushIncoming_keys (chan : ChanRef) (l : List ChannelMessage) :
    KeepsKeys info base (flushIncoming h chan l) := by
  induction l with
  | nil => exact Keeps.pure _
  | cons m l ih => exact Keeps.bind (channelRecv_keys hh chan m) fun _ => ih

theorem flushOutgoing_keys (chan : ChanRef) (l : List ChannelMessage) :
    KeepsKeys info base (flushOutgoing h chan l) := by
  induction l with
  | nil => exact Keeps.pure _
  | cons m l ih =>
    refine derefThen_keys chan (Keeps.pure _) fun c => ?_
    exact Keeps.bind (sendFor_keys hh chan _) fun _ => ih

theorem flushChannel_keys (chan : ChanRef) : KeepsKeys info base (flushChannel h chan) := by
  refine derefThen_keys chan (Keeps.pure _) fun c => ?_
  refine Keeps.bind (flushIncoming_keys hh chan _) fun _ => ?_
  refine Keeps.bind (updateChannel_keys chan fun _ => ⟨rfl, rfl⟩) fun _ => ?_
  refine derefThen_keys chan (Keeps.pure _) fun c => ?_
  refine Keeps.bind (flushOutgoing_keys hh chan _) fun _ => ?_
  exact updateChannel_keys chan fun _ => ⟨rfl, rfl⟩

theorem channelOpen_keys (chan : ChanRef) : KeepsKeys info base (channelOpen h chan) :=
  Keeps.bind (setChannelState_keys chan _) fun _ => flushChannel_keys hh chan

theorem mwChannelRecv_keys (chan : ChanRef) (m : ChannelMessage) :
    KeepsKeys info base (mwChannelRecv h chan m) := by
  refine derefThen_keys chan (Keeps.pure _) fun c => ?_
  refine Keeps.ite (fun _ => channelRecv_keys hh chan m) fun _ => ?_
  exact updateChannel_keys chan fun _ => ⟨rfl, rfl⟩

theorem sendAccept_keys (chan : ChanRef) : KeepsKeys info base (sendAccept h chan) := by
  refine Keeps.bind (acceptCipher_keys chan) fun item => ?_
  refine derefThen_keys chan (Keeps.pure _) fun c => ?_
  refine Keeps.bind (sendFor_keys hh chan _) fun ret => ?_
  refine Keeps.ite (fun _ => ?_) fun _ => ?_
  · exact Keeps.bind (setChannelState_keys chan _) fun _ => Keeps.pure _
  · exact Keeps.bind (channelOpen_keys hh chan) fun _ => Keeps.pure _

omit hh in
theorem has_of_autoSelect {c : MwChannel} {ci : MwCipherInstance} (h : autoSelect c = some ci) :
    c.Has ci.type := by
  unfold autoSelect at h
  split at h
  · exact nomatch h
  · split at h
    · exact has_of_supported? h
    · split at h
      · exact has_of_supported? h
      · exact .inl (List.mem_map_of_mem (List.mem_of_getLast? h))

theorem accept_keys (chan : ChanRef) : KeepsKeys info base (mwChannelAccept h chan) := by
  refine derefThen_keyed chan (Keeps.pure _) fun s c hc hs => ?_
  dsimp only
  rw [Session.ite_apply]
  split
  · exact hs
  · rw [Session.ite_apply]
    split
    · rw [Session.bind_apply]
      refine sendAccept_keys hh chan _ (select_keyed hs fun ci hci htype => ?_)
      exact hs.allReady hc (htype ▸ has_of_autoSelect hci)
    · exact sendAccept_keys hh chan _ hs

theorem destroyed_keys (chan : ChanRef) (reason : UInt32) :
    KeepsKeys info base (discard (mwChannelDestroy h chan reason [])) :=
  Keeps.discard (destroy_keys hh chan reason [])

theorem recvCreate_keys (chan : ChanRef) (msg : MwMsgChannelCreate) :
    KeepsKeys info base (mwChannelRecvCreate h chan msg) := by
  refine Keeps.ite (fun _ => destroyed_keys hh chan _) fun _ => ?_
  refine Keeps.bind (updateChannel_keys chan fun _ => ⟨rfl, rfl⟩) fun _ => ?_
  refine Keeps.bind (Keeps.forM fun item _ => offeredCipher_keys chan item) fun _ => ?_
  refine Keeps.bind (updateChannel_keys chan fun _ => ⟨rfl, rfl⟩) fun _ => ?_
  refine Keeps.bind Keeps.get fun s => ?_
  cases s.service? msg.service with
  | none => exact destroyed_keys hh chan _
  | some srvc =>
    exact Keeps.ite (fun _ => callback_keys hh _) fun _ => destroyed_keys hh chan _

theorem recvAccept_keys (chan : ChanRef) (msg : MwMsgChannelAccept) :
    KeepsKeys info base (mwChannelRecvAccept h chan msg) := by
  refine derefThen_keys chan (Keeps.pure _) fun c => ?_
  refine Keeps.ite (fun _ => ?_) fun _ => ?_
  · exact Keeps.bind (destroyed_keys hh chan _) fun _ => Keeps.pure _
  · refine Keeps.bind (updateChannel_keys chan fun _ => ⟨rfl, rfl⟩) fun _ => ?_
    refine Keeps.bind Keeps.get fun s => ?_
    cases s.service? c.service with
    | none => exact destroyed_keys hh chan _
    | some srvc =>
      refine Keeps.bind (updateChannel_keys chan fun _ => ⟨rfl, rfl⟩) fun _ => ?_
      refine Keeps.bind (acceptedCipher_keys chan _) fun ok => ?_
      refine Keeps.ite (fun _ => ?_) fun _ => destroyed_keys hh chan _
      refine Keeps.bind (setChannelState_keys chan _) fun _ => ?_
      refine Keeps.bind ?_ fun _ => ?_
      · exact Keeps.ite (fun _ => callback_keys hh _) fun _ => Keeps.pure _
      · refine derefThen_keys chan (Keeps.pure _) fun c => ?_
        exact Keeps.ite (fun _ => channelOpen_keys hh chan) fun _ => Keeps.pure _

theorem recvDestroy_keys (chan : ChanRef) (msg : MwMsgChannelDestroy) :
    KeepsKeys info base (mwChannelRecvDestroy h chan msg) := by
  have hremove : KeepsKeys info base _ := removeChannel_keys chan
  refine derefThen_keys chan (Keeps.pure _) fun c => ?_
  refine Keeps.bind (setChannelState_keys chan _) fun _ => ?_
  refine Keeps.bind Keeps.get fun s => ?_
  cases s.service? c.service with
  | none => exact hremove
  | some srvc =>
    refine Keeps.bind ?_ fun _ => hremove
    exact Keeps.ite (fun _ => callback_keys hh _) fun _ => Keeps.pure _

/-- A call on a channel that is there -/
theorem runChannelCall_keyed {s : MwSession} {chan : ChanRef} {c : MwChannel}
    (hs : KeysRight info base s) (hc : s.channel? chan = some c) (call : ChannelCall) :
    KeysRight info base (runChannelCall h chan c call s).2 := by
  cases call with
  | setService _ | setProtoType _ | setProtoVer _ | setOptions _ =>
    refine setWhileInit_keys chan ?_ s hs
    exact fun _ => ⟨rfl, rfl⟩
  | setUser _ | setAddtlCreate _ | setAddtlAccept _ | setServiceData _ =>
    refine updateChannel_keys chan ?_ s hs
    exact fun _ => ⟨rfl, rfl⟩
  | populateSupportedCipherInstances => exact populate_keys chan s hs
  | selectCipherInstance cipher =>
    cases cipher with
    | none => exact select_keys_none chan s hs
    | some type =>
      exact select_keyed hs fun ci hci htype => hs.allReady hc (htype ▸ has_of_supported? hci)
  | create => exact (create_keys hh chan).discard s hs
  | accept => exact (accept_keys hh chan).discard s hs
  | destroy reason data => exact (destroy_keys hh chan reason data).discard s hs
  | sendEncrypted type data encrypt =>
    exact (sendEncrypted_keys hh chan type data encrypt).discard s hs

/-! ## Calls on the session -/

omit hh in
theorem setServiceState_keys (srvc : UInt32) (state : MwServiceState) :
    KeepsKeys info base (setServiceState srvc state) :=
  same_keys fun _ => ⟨rfl, rfl, rfl, rfl⟩

theorem mwServiceStart_keys (srvc : UInt32) : KeepsKeys info base (mwServiceStart h srvc) := by
  refine Keeps.bind Keeps.get fun s => ?_
  cases s.service? srvc with
  | none => exact Keeps.pure _
  | some c =>
    refine Keeps.ite (fun _ => Keeps.pure _) fun _ => ?_
    refine Keeps.bind (setServiceState_keys srvc _) fun _ => ?_
    exact Keeps.ite (fun _ => callback_keys hh _) fun _ => setServiceState_keys srvc _

theorem shutService_keys (srvc : UInt32) (state : MwServiceState) :
    KeepsKeys info base (shutService h srvc state) := by
  refine Keeps.bind Keeps.get fun s => ?_
  cases s.service? srvc with
  | none => exact Keeps.pure _
  | some c =>
    refine Keeps.ite (fun _ => Keeps.pure _) fun _ => ?_
    refine Keeps.bind (setServiceState_keys srvc _) fun _ => ?_
    exact Keeps.ite (fun _ => callback_keys hh _) fun _ => setServiceState_keys srvc _

theorem setState_keys (state : MwSessionState) (arg : StateInfo) :
    KeepsKeys info base (setState h state arg) := by
  refine Keeps.bind Keeps.get fun s => ?_
  refine Keeps.ite (fun _ => Keeps.pure _) fun _ => ?_
  refine Keeps.bind (fun s hs => ?_) fun _ => ?_
  · have henter : KeysRight info base { s with state := state, stateInfo := arg } :=
      hs.same ⟨rfl, rfl, rfl, rfl⟩
    exact henter.log fun _ heq => nomatch heq
  · refine Keeps.bind Keeps.get fun s => ?_
    exact Keeps.ite (fun _ => callback_keys hh _) fun _ => Keeps.pure _

theorem shutSession_keys (reason : UInt32) : KeepsKeys info base (shutSession h reason) := by
  refine Keeps.bind Keeps.get fun s => ?_
  refine Keeps.bind (Keeps.forM fun srvc _ => shutService_keys hh srvc _) fun _ => ?_
  refine Keeps.bind (mwSessionSend_keys hh _) fun _ => ?_
  refine Keeps.bind (same_keys fun _ => ⟨rfl, rfl, rfl, rfl⟩) fun _ => ?_
  exact Keeps.bind (record_keys fun _ => by simp) fun _ => hh.ioClose

theorem stop_keys (reason : UInt32) : KeepsKeys info base (mwSessionStop h reason) := by
  refine Keeps.bind Keeps.get fun s => ?_
  refine Keeps.bind (record_keys fun _ => by simp) fun _ => ?_
  refine Keeps.ite (fun _ => Keeps.pure _) fun _ => ?_
  refine Keeps.bind (setState_keys hh _ _) fun _ => ?_
  exact Keeps.bind (shutSession_keys hh reason) fun _ => setState_keys hh _ _

theorem forceLogin_keys : KeepsKeys info base (mwSessionForceLogin h) := by
  refine Keeps.bind Keeps.get fun s => ?_
  refine Keeps.ite (fun _ => Keeps.pure _) fun _ => ?_
  exact Keeps.bind (setState_keys hh _ _) fun _ => mwSessionSend_keys hh _

theorem runApiCall_keys (call : ApiCall) : KeepsKeys info base (runApiCall h call) := by
  cases call with
  | stop reason => exact stop_keys hh reason
  | forceLogin => exact (forceLogin_keys hh).discard
  | sendKeepalive =>
    refine Keeps.discard (Keeps.bind (record_keys fun _ => ?_) fun _ => hh.ioWrite _)
    simp
  | sendAnnounce mayReply text recipients =>
    refine Keeps.discard (Keeps.bind Keeps.get fun s => ?_)
    exact Keeps.ite (fun _ => Keeps.pure _) fun _ => mwSessionSend_keys hh _
  | setPrivacyInfo privacy => exact (mwSessionSend_keys hh _).discard
  | setUserStatus status => exact (mwSessionSend_keys hh _).discard
  | senseService srvc =>
    refine Keeps.bind Keeps.get fun s => ?_
    exact Keeps.ite (fun _ => Keeps.pure _) fun _ => (mwSessionSend_keys hh _).discard
  | serviceStart srvc => exact mwServiceStart_keys hh srvc
  | serviceStarted srvc => exact setServiceState_keys srvc _
  | serviceStop srvc => exact shutService_keys hh srvc _
  | serviceStopped srvc => exact setServiceState_keys srvc _
  | serviceError srvc => exact shutService_keys hh srvc _
  | newOutgoing => exact newOutgoing_keys.discard
  | channel chan call =>
    intro s hs
    rw [runApiCall, Session.get_bind]
    cases hc : s.channel? chan with
    | none => exact hs
    | some c => exact runChannelCall_keyed hh hs hc call

/-! ## Messages -/

omit hh in
theorem find_keys {id : UInt32} {f : ChanRef → Session Unit}
    (hf : ∀ chan, KeepsKeys info base (f chan)) :
    KeepsKeys info base (do
      match ← mwChannelFind id with
      | some chan => f chan
      | none => return) := by
  refine Keeps.bind (Keeps.bind Keeps.get fun _ => Keeps.pure _) fun chan => ?_
  cases chan with
  | none => exact Keeps.pure _
  | some chan => exact hf chan

theorem start_keys : KeepsKeys info base (mwSessionStart h) := by
  refine Keeps.bind Keeps.get fun s => ?_
  refine Keeps.ite (fun _ => Keeps.pure _) fun _ => ?_
  refine Keeps.bind (record_keys fun _ => by simp) fun _ => ?_
  refine Keeps.bind (setState_keys hh _ _) fun _ => ?_
  refine Keeps.bind Keeps.get fun s => ?_
  refine Keeps.bind (mwSessionSend_keys hh _) fun ret => ?_
  exact Keeps.ite (fun _ => stop_keys hh _) fun _ => setState_keys hh _ _

theorem handshakeAckRecv_keys (msg : MwMsgHandshakeAck) :
    KeepsKeys info base (handshakeAckRecv h msg) := by
  refine Keeps.bind Keeps.get fun s => ?_
  refine Keeps.ite (fun _ => ?_) fun _ => ?_
  · exact Keeps.bind (setState_keys hh _ _) fun _ => setState_keys hh _ _
  · refine Keeps.ite (fun _ => ?_) fun _ => Keeps.pure _
    refine Keeps.bind (setState_keys hh _ _) fun _ => ?_
    refine Keeps.bind (same_keys fun _ => ⟨rfl, rfl, rfl, rfl⟩) fun _ => ?_
    refine Keeps.bind Keeps.get fun s => ?_
    cases composeAuth h s msg with
    | none => exact fault_keys
    | some auth =>
      refine Keeps.bind Keeps.get fun s => ?_
      refine Keeps.bind (mwSessionSend_keys hh _) fun ret => ?_
      exact Keeps.ite (fun _ => setState_keys hh _ _) fun _ => Keeps.pure _

/-- Logging in after the login information has been stored -/
theorem loginAckRecv_keyed {s : MwSession} {msg : MwMsgLoginAck} (hstate : s.state = .login)
    (hs : KeysRight info base (s.setLogin msg)) : KeysRight info base (loginAckRecv h msg s).2 := by
  rw [loginAckRecv_of_login h msg hstate]
  refine setState_keys hh _ _ _ ?_
  refine Keeps.forM (fun srvc _ => mwServiceStart_keys hh srvc) _ ?_
  exact setState_keys hh _ _ _ hs

/-- Every message but the one that logs in -/
theorem dispatch_keys {msg : MwMessage} (hmsg : msg.body.type ≠ .loginAck) :
    KeepsKeys info base (dispatch h msg) := by
  obtain ⟨head, body⟩ := msg
  cases body with
  | loginAck m => exact absurd rfl hmsg
  | handshakeAck m => exact handshakeAckRecv_keys hh m
  | loginRedirect m => exact setState_keys hh _ _
  | channelCreate m =>
    refine Keeps.bind (newIncoming_keys _) fun chan => ?_
    exact Keeps.bind (record_keys fun _ => by simp) fun _ => recvCreate_keys hh chan m
  | channelDestroy m =>
    refine Keeps.ite (fun _ => stop_keys hh _) fun _ => find_keys fun chan => ?_
    exact Keeps.bind (record_keys fun _ => by simp) fun _ => recvDestroy_keys hh chan m
  | channelSend m =>
    refine find_keys fun chan => ?_
    exact Keeps.bind (record_keys fun _ => by simp) fun _ => mwChannelRecv_keys hh chan _
  | channelAccept m =>
    refine find_keys fun chan => ?_
    exact Keeps.bind (record_keys fun _ => by simp) fun _ => recvAccept_keys hh chan m
  | setPrivacyList privacy =>
    refine Keeps.bind (same_keys fun _ => ⟨rfl, rfl, rfl, rfl⟩) fun _ => ?_
    refine Keeps.bind Keeps.get fun s => ?_
    exact Keeps.ite (fun _ => callback_keys hh _) fun _ => Keeps.pure _
  | setUserStatus status => exact setUserStatusRecv_keys hh status
  | senseService service => exact mwServiceStart_keys hh service
  | admin text =>
    refine Keeps.bind Keeps.get fun s => ?_
    exact Keeps.ite (fun _ => callback_keys hh _) fun _ => Keeps.pure _
  | announce m =>
    refine Keeps.bind Keeps.get fun s => ?_
    exact Keeps.ite (fun _ => callback_keys hh _) fun _ => Keeps.pure _
  | handshake _ | login _ | loginContinue => exact Keeps.pure _

end

/-- Whatever the callbacks of an environment do keeps the keys right. -/
theorem Env.hooks_keys (env : Env) (n : Nat) (info : MwLoginInfo) (base : List Event) :
    (env.hooks n).Respects (Maintains (KeysRight info base)) :=
  Env.hooks_respects (Env.meets_of_forall (P := fun _ _ => True) (fun _ _ => trivial) env)
    (fun _ hh call s _ => runApiCall_keys hh call s) n

/-! ## Runs -/

/-- What is done to a session at one time, with a condition on the messages it handles.
`mwSession_recv` is a sequence of these steps. -/
inductive SessionStep (h : Hooks) (P : List UInt8 → MwSession → Prop) :
    MwSession → MwSession → Prop where
  | start (s : MwSession) : SessionStep h P s (mwSessionStart h s).2
  | input (i : InputBuffer) (s : MwSession) : SessionStep h P s (setInput i s)
  | process (buf : List UInt8) (s : MwSession) (hP : P buf s) : SessionStep h P s (process h buf s)
  | call (call : ApiCall) (s : MwSession) : SessionStep h P s (runApiCall h call s).2

/-- A login that is acknowledged while RC2/40 has a key comes with an id of the same key. -/
def KeyStays (h : Hooks) (buf : List UInt8) (s : MwSession) : Prop :=
  ∀ head msg, (mwMessageGet h.uninit (.wrapOpaque buf)).1 = some ⟨head, .loginAck msg⟩ →
    s.state = .login → ∀ c, .rc2_40 c ∈ s.ciphers → c.ready = true →
      IdKey (mwLoginInfoClone {} msg.login) c.sessionKey

/-- What RC2/40 has encrypted in a step, it has encrypted with the key of the login that
the session has. A step that logs in does so before anything else. -/
def StepEncrypts (s s' : MwSession) : Prop :=
  ∃ new, s'.trace = new ++ s.trace ∧ ∀ call, .send call ∈ new → EncryptsWith s'.login call

/-- Another login, with the same key or none so far -/
theorem KeysRight.setLogin {info : MwLoginInfo} {base : List Event} {s : MwSession}
    {msg : MwMsgLoginAck} (hs : KeysRight info base s)
    (hstays : ∀ c, .rc2_40 c ∈ s.ciphers → c.ready = true →
      IdKey (mwLoginInfoClone {} msg.login) c.sessionKey) :
    KeysRight (mwLoginInfoClone {} msg.login) s.trace (s.setLogin msg) where
  login := rfl
  ciphers := by
    intro cipher hcipher
    have hold := hs.ciphers cipher hcipher
    cases cipher with
    | rc2_128 c => trivial
    | rc2_40 c =>
      cases hready : c.ready with
      | true => simpa [MwCipher.Keyed, hready] using hstays c hcipher hready
      | false => simpa [MwCipher.Keyed, hready] using hold
  channels := hs.channels
  sends := ⟨[], rfl, fun _ hcall => nomatch hcall⟩

theorem KeysRight.restart {info : MwLoginInfo} {base : List Event} {s : MwSession}
    (hs : KeysRight info base s) : KeysRight s.login s.trace s where
  login := rfl
  ciphers := by
    rw [hs.login]
    exact hs.ciphers
  channels := hs.channels
  sends := ⟨[], rfl, fun _ hcall => nomatch hcall⟩

theorem KeysRight.stepEncrypts {s s' : MwSession} {info : MwLoginInfo}
    (h : KeysRight info s.trace s') : StepEncrypts s s' := by
  obtain ⟨new, hnew, hall⟩ := h.sends
  refine ⟨new, hnew, ?_⟩
  rw [h.login]
  exact hall

/-- A step keeps the keys right, and encrypts with them. -/
theorem SessionStep.keys {h : Hooks}
    (hh : ∀ info base, h.Respects (Maintains (KeysRight info base))) {s s' : MwSession}
    (hstep : SessionStep h (KeyStays h) s s') (hs : KeysRight s.login s.trace s) :
    ∃ info, KeysRight info s.trace s' := by
  cases hstep with
  | start => exact ⟨_, start_keys (hh _ _) s hs⟩
  | input i => exact ⟨_, hs.same ⟨rfl, rfl, rfl, rfl⟩⟩
  | call call => exact ⟨_, runApiCall_keys (hh _ _) call s hs⟩
  | process buf _ hstays =>
    unfold Meanwhile.process sessionProcess
    split
    · exact ⟨_, hs⟩
    · cases hmsg : (mwMessageGet h.uninit (.wrapOpaque buf)).1 with
      | none => exact ⟨_, hs⟩
      | some msg =>
        simp only [Session.get_bind, record_bind]
        have hlog : KeysRight s.login s.trace (s.log (.handle msg.body.type s.state)) :=
          hs.log fun _ heq => nomatch heq
        obtain ⟨head, body⟩ := msg
        by_cases hack : body.type = .loginAck
        · cases body with
          | loginAck m =>
            by_cases hstate : s.state = .login
            · have hset := hlog.setLogin (hstays head m hmsg hstate)
              have hkeys := loginAckRecv_keyed (hh _ _)
                (s := s.log (.handle .loginAck s.state)) hstate hset
              obtain ⟨new, hnew, hall⟩ := hkeys.sends
              refine ⟨_, hkeys.login, hkeys.ciphers, hkeys.channels,
                new ++ [.handle .loginAck s.state], ?_, ?_⟩
              · rw [List.append_assoc]
                exact hnew
              · intro call hcall
                cases List.mem_append.mp hcall with
                | inl hmem => exact hall call hmem
                | inr hmem => exact nomatch List.mem_singleton.mp hmem
            · refine ⟨s.login, ?_⟩
              change KeysRight _ _ (loginAckRecv h m (s.log (.handle .loginAck s.state))).2
              rw [loginAckRecv_of_ne (s := s.log _) h m hstate]
              exact hlog
          | _ => exact nomatch hack
        · exact ⟨_, dispatch_keys (hh _ _) hack _ hlog⟩

/-- In a run whose logins keep the key, every message that RC2/40 encrypts is encrypted
with the key of the login id that the session has then. -/
theorem steps_encrypt (env : Env) (n : Nat) (handler : MwSessionHandler) (services : List MwService)
    (ciphers : List MwCipher) (attributes : Attributes)
    (hnew : ∀ c ∈ ciphers, c = mwCipherNewRc2_40 ∨ ∃ key, c = mwCipherNewRc2_128 key)
    {s s' : MwSession}
    (hrun : Relation.ReflTransGen (SessionStep (env.hooks n) (KeyStays (env.hooks n)))
      (mwSessionNew handler services ciphers attributes) s)
    (hstep : SessionStep (env.hooks n) (KeyStays (env.hooks n)) s s') : StepEncrypts s s' := by
  have hh := env.hooks_keys n
  have hs : KeysRight s.login s.trace s := by
    clear hstep
    induction hrun with
    | refl =>
      refine ⟨rfl, fun c hc => ?_, fun id c hc => (nomatch hc), [], rfl, fun _ h => nomatch h⟩
      obtain rfl | ⟨key, rfl⟩ := hnew c hc
      · exact rfl
      · trivial
    | tail _ hstep ih =>
      obtain ⟨info, hkeys⟩ := hstep.keys hh ih
      exact hkeys.restart
  obtain ⟨info, hkeys⟩ := hstep.keys hh hs
  exact hkeys.stepEncrypts

/-- A run is a sequence of steps. -/
theorem run_steps (h : Hooks) (commands : List Command) (s : MwSession) :
    Relation.ReflTransGen (SessionStep h fun _ _ => True) s (run h commands s) := by
  refine run_keeps (I := fun s' => Relation.ReflTransGen (SessionStep h fun _ _ => True) s s')
    (fun command s' hs' => ?_) commands .refl
  cases command with
  | start => exact hs'.tail (.start s')
  | call call => exact hs'.tail (.call call s')
  | recv b =>
    exact mwSessionRecv_keeps (fun i t ht => ht.tail (.input i t))
      (fun buf t ht => ht.tail (.process buf t trivial)) b hs'

/-! ## Logging in twice -/

/-- `LOGIN_ACK` with a login id, as it comes from the server -/
def loginAckFrame (id : List UInt8) : List UInt8 :=
  mwOpaquePut (mwMessageHeadPut .loginAck {} ++
    (mwLoginInfoPut { loginId := some (CString.ofBytes id) } ++
    (guint16Put 0 ++ (mwPrivacyInfoPut {} ++ mwUserStatusPut {}))))

def messageFrame (msg : MwMessage) : List UInt8 := mwOpaquePut (mwMessagePut msg)

/-- Logging in with an id -/
def loggingIn (id : List UInt8) : List Command :=
  [.start, .recv (messageFrame ⟨{}, .handshakeAck {}⟩), .recv (loginAckFrame id)]

/-- Opening a channel that the other side accepts with RC2/40 -/
def openingChannel (chan : ChanRef) : List Command :=
  [.call .newOutgoing, .call (.channel chan (.setService 5)),
    .call (.channel chan .populateSupportedCipherInstances), .call (.channel chan .create),
    .recv (messageFrame ⟨{ channel := chan.id }, .channelAccept
      { service := 5, encrypt := { mode := encryptRc2_40, item := some { id := 0 } } }⟩)]

/-- The first login is with `"aaaaa"`, the second with another id. A channel is opened
in each. -/
def twoLogins (id : List UInt8) : List Command :=
  loggingIn [0x61, 0x61, 0x61, 0x61, 0x61] ++ openingChannel ⟨1, 0⟩ ++
    [.call (.channel ⟨1, 0⟩ (.destroy 0 [])), .call (.stop 0)] ++
    loggingIn id ++ openingChannel ⟨2, 1⟩

/-- A client with a password, a service and RC2/40 -/
def rc2Client : MwSession :=
  mwSessionNew {} [{ type := 5, type_ne_zero := listener.type_ne_zero }] [mwCipherNewRc2_40]
    { authPassword := some (CString.ofBytes [0x70]) }

/-- The data of a call is not what the key of the login makes of it. -/
def SendCall.wrongKey (login : MwLoginInfo) (call : SendCall) : Bool :=
  call.encrypt &&
    match call.cipher, call.compose, expandLoginId (fun _ => 0) login.loginId with
    | some (.rc2_40 ci), some (msg, _), some key =>
        (mwEncryptExpanded call.fresh key ci.outgoingIv call.data).map (·.2) ≠ some msg.msg.data
    | _, _, _ => false

theorem not_encryptsWith {login : MwLoginInfo} {call : SendCall} (h : call.wrongKey login = true) :
    ¬ EncryptsWith login call := by
  intro hall
  unfold SendCall.wrongKey at h
  obtain ⟨hencrypt, h⟩ := Bool.and_eq_true_iff.mp h
  split at h
  case h_1 ci msg ci' key hcipher hcompose hkey =>
    obtain ⟨key', iv, hkey', hdata⟩ := hall ci msg ci' hencrypt hcipher hcompose
    obtain rfl := Option.some.inj (hkey.symm.trans ((idKey_iff login key').mp hkey'))
    rw [hdata] at h
    simp at h
  case h_2 => exact nomatch h

/-- Data is sent that is not what the key of the login makes of it. -/
def Event.wrongKey (login : MwLoginInfo) : Event → Bool
  | .send call => call.wrongKey login
  | _ => false

/-- After a second login with `"bbbbb"` the key is still that of `"aaaaa"`. -/
theorem twoLogins_wrongKey :
    let h := Env.idle.hooks 1
    let s := run h (twoLogins [0x62, 0x62, 0x62, 0x62, 0x62]) rc2Client
    let s' := (runApiCall h (.channel ⟨2, 1⟩ (.sendEncrypted 1 [0x78] true)) s).2
    Relation.ReflTransGen (SessionStep h fun _ _ => True) rc2Client s ∧
      SessionStep h (fun _ _ => True) s s' ∧ ¬ StepEncrypts s s' := by
  intro h s s'
  refine ⟨run_steps h _ _, .call _ s, ?_⟩
  rintro ⟨new, hnew, hall⟩
  have hwrong : (s'.trace.take (s'.trace.length - s.trace.length)).any (Event.wrongKey s'.login) = true := by
    decide +kernel
  have htake : s'.trace.take (s'.trace.length - s.trace.length) = new := by
    rw [hnew]
    simp
  rw [htake] at hwrong
  obtain ⟨e, he, hbad⟩ := List.any_eq_true.mp hwrong
  cases e with
  | send call => exact not_encryptsWith hbad (hall call he)
  | _ => cases hbad

theorem keyStays_of_unready {h : Hooks} {buf : List UInt8} {s : MwSession}
    (hs : (s.ciphers.all fun c => match c with
      | .rc2_40 c => !c.ready
      | .rc2_128 _ => true) = true) : KeyStays h buf s := by
  intro _ _ _ _ c hc hready
  have hfalse := List.all_eq_true.mp hs _ hc
  simp [hready] at hfalse

/-- One login, a channel, and a message on it, all with the key of the login id -/
theorem steps_encrypt_oneLogin :
    let h := Env.idle.hooks 1
    let s1 := (mwSessionStart h rc2Client).2
    let s2 := process h (mwMessagePut ⟨{}, .handshakeAck {}⟩) s1
    let s3 := process h ((loginAckFrame [0x61, 0x61, 0x61, 0x61, 0x61]).drop 4) s2
    let s4 := (runApiCall h .newOutgoing s3).2
    let s5 := (runApiCall h (.channel ⟨1, 0⟩ .populateSupportedCipherInstances) s4).2
    let s6 := (runApiCall h (.channel ⟨1, 0⟩ (.selectCipherInstance (some .rc2_40))) s5).2
    let s7 := (runApiCall h (.channel ⟨1, 0⟩ (.sendEncrypted 1 [0x78] true)) s6).2
    s7.state = .started ∧ StepEncrypts s6 s7 := by
  intro h s1 s2 s3 s4 s5 s6 s7
  have hstays2 : KeyStays h (mwMessagePut ⟨{}, .handshakeAck {}⟩) s1 :=
    keyStays_of_unready (by decide +kernel)
  have hstays3 : KeyStays h ((loginAckFrame [0x61, 0x61, 0x61, 0x61, 0x61]).drop 4) s2 :=
    keyStays_of_unready (by decide +kernel)
  have hrun : Relation.ReflTransGen (SessionStep h (KeyStays h)) rc2Client s6 :=
    (((((Relation.ReflTransGen.refl.tail (.start _)).tail (.process _ _ hstays2)).tail
      (.process _ _ hstays3)).tail (.call _ _)).tail (.call _ _)).tail (.call _ _)
  have hnew : ∀ c ∈ [mwCipherNewRc2_40],
      c = mwCipherNewRc2_40 ∨ ∃ key, c = mwCipherNewRc2_128 key :=
    fun c hc => .inl (List.mem_singleton.mp hc)
  exact ⟨by decide +kernel, steps_encrypt Env.idle 1 {} _ _ _ hnew hrun (.call _ _)⟩

end Meanwhile
