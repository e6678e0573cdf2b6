-- SUMMARY: The machine of a channel follows the messages of the server, and so it follows whole runs.
import Meanwhile.Channel.Life

/-!
# Channels and the messages of the server

Each of the four messages about a channel is a step of the machine of that channel,
and of no other. With what the calls do this makes a run of a session a run of the
machine of each channel, `run_lives`.
-/

namespace Meanwhile

/-! ## Messages of the server -/

/-- The machine of a channel gets from one session to the other in a run. -/
def Tracks (k : Setting) (chan : ChanRef) (s s' : MwSession) : Prop :=
  s.Fits k → s'.Fits k ∧ Lives k chan (s.view chan) (s'.view chan)

theorem Calls.lives {k : Setting} {chan : ChanRef} {v v' : ChannelView} (h : Calls k chan v v') :
    Lives k chan v v' :=
  Relation.ReflTransGen.mono (fun _ _ hstep => .acts hstep) _ _ h

theorem Follows.tracks {k : Setting} {chan : ChanRef} {s s' : MwSession} (h : Follows k chan s s') :
    Tracks k chan s s' :=
  fun hs => ⟨(h hs).1, (h hs).2.lives⟩

instance (k : Setting) (chan : ChanRef) : Primitive (Tracks k chan) where
  refl := fun _ hs => ⟨hs, .refl⟩
  trans := by
    intro s t u hst htu hs
    obtain ⟨ht, hst⟩ := hst hs
    obtain ⟨hu, htu⟩ := htu ht
    exact ⟨hu, hst.trans htu⟩
  plain := fun s _ he => Follows.tracks (Primitive.plain s he)
  core := fun h => Follows.tracks (Primitive.core h)
  update := fun hc hsame => Follows.tracks (Primitive.update hc hsame)

theorem keeps_tracks {k : Setting} {chan : ChanRef} {α : Type} {m : Session α}
    (h : Keeps (Follows k chan) m) : Keeps (Tracks k chan) m :=
  fun s => (h s).tracks

theorem mwCipherInstanceOffered_shape {item : MwEncryptItem} {cipher : MwCipher}
    {ci ci' : MwCipherInstance} (h : mwCipherInstanceOffered item cipher ci = some ci') :
    ci'.shape = ci.shape := by
  unfold mwCipherInstanceOffered at h
  split at h
  · exact offeredRc2_128_shape h
  · rw [Option.some.inj h]

theorem mwCipherInstanceAccepted_shape {user : MwLoginInfo} {item : MwEncryptItem}
    {cipher : MwCipher} {ci ci' : MwCipherInstance}
    (h : mwCipherInstanceAccepted user item cipher ci = some ci') : ci'.shape = ci.shape := by
  unfold mwCipherInstanceAccepted at h
  split at h
  · exact offeredRc2_128_shape h
  · exact acceptedRc2_40_shape h
  · rw [Option.some.inj h]

theorem offeredCipher_supporting {k : Setting} {chan : ChanRef} {c : MwChannel} {t : List Event}
    {items : List MwEncryptItem} {item : MwEncryptItem} (hitem : item ∈ items) :
    Keeps (Maintains (Supporting k (fun ci => (k.ciphers ci.type ∧ ci.shape = freshShape ci.type) ∧
        ci.type.code ∈ items.map (·.id)) chan c t))
      (offeredCipher chan item) := by
  intro s hs
  rw [offeredCipher, Session.get_bind]
  cases hcipher : s.cipher? item.id with
  | none => exact hs
  | some cipher =>
    dsimp only
    rw [Session.bind_apply]
    have hs' := newInstance_supporting cipher s hs
    cases hp : (newInstance cipher s).1 with
    | none => exact hs'
    | some p =>
      obtain ⟨cipher', ci⟩ := p
      dsimp only
      cases hoffered : mwCipherInstanceOffered item cipher' ci with
      | none => exact hs'.core ⟨rfl, rfl, rfl, rfl, rfl, rfl, rfl, rfl⟩
      | some ci' =>
        refine putSupported_supporting ?_ _ hs'
        obtain ⟨htype, hfresh⟩ := fresh_of_shape
          ((mwCipherInstanceOffered_shape hoffered).trans (newInstance_shape hp).2)
        have hcode : cipher.type.code = item.id := by simpa using List.find?_some hcipher
        rw [htype] at hfresh ⊢
        refine ⟨⟨(hs.fits.ciphers _).mpr (List.mem_map_of_mem (List.mem_of_find?_eq_some hcipher)),
          hfresh⟩, ?_⟩
        rw [hcode]
        exact List.mem_map_of_mem hitem

section

variable {k : Setting} {chan : ChanRef} {h : Hooks} {s : MwSession}
  (hh : h.Respects (Follows k chan)) (hspares : k.spares → h.Spares chan)
  (hwrite : ∀ b s, (h.ioWrite b s).2 = s)

omit s in
theorem Tracks.of_arrives {s s' : MwSession} (hfits : s.Fits k → s'.Fits k)
    (harrives : s.Fits k → Arrives k chan (s.view chan) (s'.view chan)) : Tracks k chan s s' :=
  fun hs => ⟨hfits hs, .single (.arrives (harrives hs))⟩

theorem history_arrived (head : MwMessageHead) (msg : MwMsgChannelCreate) :
    (s.arrived head msg).history ⟨msg.channel, s.nextAddr⟩ =
      .channel ⟨msg.channel, s.nextAddr⟩ (.arrives ⟨head, .channelCreate msg⟩) ::
        .channel ⟨msg.channel, s.nextAddr⟩ (.state .wait) ::
          .channel ⟨msg.channel, s.nextAddr⟩ .born :: s.history ⟨msg.channel, s.nextAddr⟩ := by
  simp [MwSession.history, MwSession.arrived, MwSession.log, MwSession.announced, Event.isOf,
    MwSession.setChannel]

include hwrite in
/-- A channel announced under an outgoing id -/
theorem refused_tracks (head : MwMessageHead) (msg : MwMsgChannelCreate)
    (hchan : chan = ⟨msg.channel, s.nextAddr⟩) (hid : mwChannelIdIsOutgoing msg.channel = true) :
    Tracks k chan s (channelCreateRecv h head msg s).2 := by
  subst hchan
  rw [channelCreateRecv_arrived, mwChannelRecvCreate, if_pos hid, Session.discard_apply]
  have hdestroy (hs : s.Fits k) := destroy_view (channel?_arrived s head msg) hwrite
    ((hs.announced msg.channel).log _) errRequestInvalid []
  refine Tracks.of_arrives (fun hs => (hdestroy hs).1) fun hs => ?_
  have hne : MwChannelState.wait ≠ closedState errRequestInvalid := by decide
  rw [(hdestroy hs).2, view_of_le hs.addressed (Nat.le_refl _), enterState, if_neg hne,
    history_arrived]
  exact .refused head msg _ hid

include hh hwrite in
/-- A channel announced under an incoming id -/
theorem announced_tracks (head : MwMessageHead) (msg : MwMsgChannelCreate)
    (hchan : chan = ⟨msg.channel, s.nextAddr⟩) (hid : mwChannelIdIsOutgoing msg.channel = false) :
    Tracks k chan s (channelCreateRecv h head msg s).2 := by
  intro hs
  rw [channelCreateRecv_arrived, mwChannelRecvCreate, if_neg (by simp [hid]), ← hchan]
  set s1 := s.arrived head msg with hs1
  have hlive1 : s1.channel? chan = some { addr := s.nextAddr, state := .wait } := by
    rw [hchan]
    exact channel?_arrived s head msg
  set t := s.history chan with ht
  have hhistory1 : s1.history chan = .channel chan (.arrives ⟨head, .channelCreate msg⟩) ::
      .channel chan (.state .wait) :: .channel chan .born :: t := by
    rw [ht, hchan]
    exact history_arrived head msg
  -- the offered ciphers
  rw [Session.bind_apply, updateChannel_of_some hlive1]
  set c2 : MwChannel := { addr := s.nextAddr, state := .wait, offeredPolicy := msg.encrypt.mode }
    with hc2
  have hfits1 : s1.Fits k := (hs.announced msg.channel).log _
  have hstart : Supporting k (fun ci => (k.ciphers ci.type ∧ ci.shape = freshShape ci.type) ∧
      ci.type.code ∈ msg.encrypt.items.map (·.id)) chan c2 (s1.history chan)
      (s1.setChannel chan.id (some c2)) :=
    ⟨hfits1.setChannel hlive1 (by simp [hc2]), rfl, some [], channel?_setChannel_self hlive1 c2 rfl,
      Grows.refl _ (some [])⟩
  have hloop : Keeps (Maintains (Supporting k
      (fun ci => (k.ciphers ci.type ∧ ci.shape = freshShape ci.type) ∧
        ci.type.code ∈ msg.encrypt.items.map (·.id)) chan c2 (s1.history chan)))
      (msg.encrypt.items.forM (offeredCipher chan)) :=
    Keeps.forM fun item hitem => offeredCipher_supporting hitem
  obtain ⟨hfits3, hhistory3, l, hlive3, hgrows⟩ := hloop _ hstart
  rw [Session.bind_apply]
  set s3 := (msg.encrypt.items.forM (offeredCipher chan) (s1.setChannel chan.id (some c2))).2
    with hs3
  rw [Session.bind_apply, updateChannel_of_some hlive3]
  set c4 : MwChannel :=
    { c2 with
      supported := l
      user := mwLoginInfoClone c2.user msg.creator
      service := msg.service
      protoType := msg.protoType
      protoVer := msg.protoVer } with hc4
  set s4 := s3.setChannel chan.id (some c4) with hs4
  have hfits4 : s4.Fits k := hfits3.setChannel hlive3 (by simp [hc4, hc2])
  have hlive4 : s4.channel? chan = some c4 := channel?_setChannel_self hlive3 c4 rfl
  have hview4 : s4.view chan = ⟨.live c4, .channel chan (.arrives ⟨head, .channelCreate msg⟩) ::
      .channel chan (.state .wait) :: .channel chan .born :: t⟩ := by
    rw [view_setChannel_self hlive3 c4 rfl, hhistory3, hhistory1]
  have hannounced : Arrives k chan (s.view chan) (s4.view chan) := by
    rw [view_of_le hs.addressed (by rw [hchan]), hview4]
    cases l with
    | none => exact hgrows.elim
    | some l =>
      refine .announced head msg t ?_ rfl rfl rfl ⟨rfl, rfl⟩ rfl fun ci hci => ?_
      · rw [hchan, mwChannelIdIsIncoming, hid]
        rfl
      · exact (hgrows ci hci).resolve_left (by simp)
  -- the service
  rw [Session.get_bind]
  have hunwanted (reason : UInt32) :
      (mwChannelDestroy h chan reason [] s4).2.Fits k ∧
        Lives k chan (s.view chan) ((mwChannelDestroy h chan reason [] s4).2.view chan) := by
    obtain ⟨hfits, hview⟩ := destroy_view hlive4 hwrite hfits4 reason []
    refine ⟨hfits, (Relation.ReflTransGen.single (.arrives hannounced)).tail (.arrives ?_)⟩
    rw [hview, view_of_some hlive4]
    exact .unwanted reason _
  cases s4.service? msg.service with
  | none => exact hunwanted _
  | some srvc =>
    dsimp only
    rw [mwServiceRecvCreate, Session.ite_apply]
    split
    · have hcreate : Keeps (Follows k chan) (callback h (.recvCreate srvc.type chan msg)) :=
        plainCallback_keeps hh rfl
      obtain ⟨hfits, hcalls⟩ := hcreate s4 hfits4
      exact ⟨hfits, .head (.arrives hannounced) hcalls.lives⟩
    · exact hunwanted _

include hh hspares hwrite

omit hspares in
theorem createRecv_tracks (head : MwMessageHead) (msg : MwMsgChannelCreate) :
    Keeps (Tracks k chan) (channelCreateRecv h head msg) := by
  intro s
  by_cases hchan : chan = ⟨msg.channel, s.nextAddr⟩
  · cases hid : mwChannelIdIsOutgoing msg.channel with
    | true => exact refused_tracks hwrite head msg hchan hid
    | false => exact announced_tracks hh hwrite head msg hchan hid
  · intro hs
    rw [channelCreateRecv_arrived]
    have hne : (⟨msg.channel, s.nextAddr⟩ : ChanRef) ≠ chan := fun heq => hchan heq.symm
    have := follows_through k hne
    have hrest : Keeps (Follows k chan) (mwChannelRecvCreate h ⟨msg.channel, s.nextAddr⟩ msg) :=
      recvCreate_keeps hh msg
    have hview : (s.arrived head msg).view chan = (s.announced msg.channel).view chan :=
      view_log_other _ (by simpa [Event.isOf] using hne)
    obtain ⟨hfits, hcalls⟩ := hrest _ ((hs.announced msg.channel).log _)
    refine ⟨hfits, ?_⟩
    have hbegin : Lives k chan (s.view chan) ((s.announced msg.channel).view chan) := by
      obtain hsame | ⟨hgone, hunborn | ⟨c, hc, -⟩⟩ := view_announced_other hs.addressed hchan
      · rw [hsame]
        exact .refl
      · rw [hgone, hunborn]
        exact .single (.acts (.missed _))
      · rw [hgone, view_of_some hc]
        exact .single (.arrives (.replaced _))
    rw [← hview] at hbegin
    exact hbegin.trans hcalls.lives

omit hh hspares hwrite in
/-- What an acceptance says about the cipher is taken over, or else not gone along with. -/
theorem acceptedCipher_view {c : MwChannel} (hs : s.Fits k) (hc : s.channel? chan = some c)
    (enc : MwEncryptAccept) :
    (acceptedCipher chan enc s).2.Fits k ∧
      ∃ c', (acceptedCipher chan enc s).2.channel? chan = some c' ∧ c'.state = c.state ∧
        ((acceptedCipher chan enc s).1 = true →
          Selects chan (c, s.history chan) (c', (acceptedCipher chan enc s).2.history chan)) ∧
        ((acceptedCipher chan enc s).1 = false →
          (acceptedCipher chan enc s).2.history chan = s.history chan) := by
  have hselect {ci : Option MwCipherInstance}
      (hci : ∀ ci' ∈ ci, ∃ ci0 ∈ c.supported.getD [], ci'.shape = ci0.shape) :
      let r := (do
        mwChannelSelectCipherInstance chan ci
        return true : Session Bool) s
      r.2.Fits k ∧ ∃ c', r.2.channel? chan = some c' ∧ c'.state = c.state ∧
        (r.1 = true → Selects chan (c, s.history chan) (c', r.2.history chan)) ∧
        (r.1 = false → r.2.history chan = s.history chan) := by
    obtain ⟨hfits, c', hlive, hstate, hselects⟩ := select_selects hc hs hci
    exact ⟨hfits, c', hlive, hstate, fun _ => hselects, fun hfalse => absurd hfalse (by simp)⟩
  rw [acceptedCipher, Session.bind_apply, deref_of_some hc]
  dsimp only
  cases enc.item with
  | none => exact hselect (by simp)
  | some item =>
    dsimp only
    rw [Session.ite_apply]
    split
    · exact hselect (by simp)
    · cases hsupported : c.supported? item.id with
      | none => exact ⟨hs, c, hc, rfl, fun htrue => absurd htrue (by simp), fun _ => rfl⟩
      | some ci =>
        dsimp only
        rw [Session.get_bind]
        cases haccepted : (s.cipher? ci.type.code >>= fun cipher =>
            mwCipherInstanceAccepted c.user item cipher ci) with
        | none =>
          exact ⟨hs.same rfl rfl rfl rfl, c, hc, rfl, fun htrue => absurd htrue (by simp), fun _ => rfl⟩
        | some ci' =>
          obtain ⟨cipher, -, hci'⟩ := Option.bind_eq_some_iff.mp haccepted
          refine hselect fun ci0 hci0 => ?_
          obtain rfl := Option.some.inj hci0
          exact ⟨ci, List.mem_of_find?_eq_some hsupported, mwCipherInstanceAccepted_shape hci'⟩

omit hh hspares in
/-- An acceptance that the library does not go along with -/
theorem rejected_tracks {s1 : MwSession} {c c1 : MwChannel} (hc : s.channel? chan = some c)
    (head : MwMessageHead) (msg : MwMsgChannelAccept) (hfits : s.Fits k → s1.Fits k)
    (hc1 : s1.channel? chan = some c1) (hstate : c1.state = c.state)
    (hhistory : s1.history chan =
      .channel chan (.arrives ⟨head, .channelAccept msg⟩) :: s.history chan) (reason : UInt32) :
    Tracks k chan s (mwChannelDestroy h chan reason [] s1).2 := by
  have hdestroy (hs : s.Fits k) := destroy_view hc1 hwrite (hfits hs) reason []
  refine Tracks.of_arrives (fun hs => (hdestroy hs).1) fun hs => ?_
  have henter : enterState chan c1 (closedState reason) (s1.history chan) =
      enterState chan c (closedState reason) (s1.history chan) := by
    simp only [enterState, hstate]
  rw [(hdestroy hs).2, henter, view_of_some hc, hhistory]
  exact .rejected head msg _ reason

/-- The end of `mwChannel_recvAccept`: the channel is open, the service is told, and the
channel is flushed if it is still there. -/
theorem opened_tracks {s1 : MwSession} {c1 : MwChannel} (srvc : MwService)
    (msg : MwMsgChannelAccept) (hs1 : s1.Fits k) (hc1 : s1.channel? chan = some c1)
    (hwait : c1.state = .wait) :
    let s' := ((do
      setChannelState chan .opened
      mwServiceRecvAccept h srvc chan msg
      match ← deref chan with
      | none => return
      | some c => if c.state = .opened then channelOpen h chan else return : Session Unit) s1).2
    s'.Fits k ∧ ∃ v, Serves k chan
        ⟨.live { c1 with state := .opened }, .channel chan (.state .opened) :: s1.history chan⟩ v ∧
      (v.life = .gone ∧ s'.view chan = v ∨ Flushes k chan v (s'.view chan)) := by
  have hne : c1.state ≠ .opened := by simp [hwait]
  rw [Session.bind_apply, setChannelState_of_some hc1, Session.bind_apply]
  set s2 := s1.withState chan c1 .opened with hs2
  set c2 : MwChannel := { c1 with state := .opened } with hc2
  have hfits2 : s2.Fits k := hs1.withState hc1 _
  have hlive2 : s2.channel? chan = some c2 := channel?_withState hc1 _
  have hview2 : s2.view chan = ⟨.live c2, .channel chan (.state .opened) :: s1.history chan⟩ := by
    rw [view_withState hc1, enterState, if_neg hne]
  have hsettled2 : (s2.view chan).Settled := settled_of_some hlive2 (by simp [hc2]) (by simp [hc2])
  have hserved : Reaches k chan (Serves k chan) s2 (mwServiceRecvAccept h srvc chan msg s2).2 := by
    rw [mwServiceRecvAccept, Session.ite_apply]
    split
    · have hlog : (s2.log (.callback (.recvAccept srvc.type chan msg))).view chan = s2.view chan :=
        view_log_other _ rfl
      have hcall := call_serves hh hspares (.recvAccept srvc.type chan msg) rfl (hfits2.log _)
        (s := s2.log (.callback (.recvAccept srvc.type chan msg))) hlive2 (by rwa [hlog])
      have hstep := hcall.step
      rw [hlog] at hstep
      exact ⟨hcall.fits, hstep, hcall.settled⟩
    · have hlife : (s2.view chan).life ≠ .gone := by
        rw [hview2]
        simp
      exact ⟨hfits2, ⟨.refl, fun _ => hlife⟩, hsettled2⟩
  set s3 := (mwServiceRecvAccept h srvc chan msg s2).2 with hs3
  have hserves := hserved.step
  rw [hview2] at hserves
  rw [Session.bind_apply]
  cases hc3 : s3.channel? chan with
  | none =>
    rw [deref_of_none hc3]
    refine ⟨hserved.fits.same rfl rfl rfl rfl, s3.view chan, hserves, .inl ⟨?_, rfl⟩⟩
    rw [view_of_gone hserved.settled hc3]
  | some c3 =>
    rw [deref_of_some hc3]
    have hstate : c3.state = .opened := by
      have hsteps := hserves.calls
      rw [view_of_some hc3] at hsteps
      exact callSteps_state hsteps (by simp [hc2])
    dsimp only
    rw [if_pos hstate]
    obtain ⟨hfits, hflush⟩ := channelOpen_flushes hh hspares hwrite hserved.fits hc3
    rw [enterState, if_pos hstate] at hflush
    refine ⟨hfits, s3.view chan, hserves, .inr ?_⟩
    have hsame : { c3 with state := .opened } = c3 := by rw [← hstate]
    rw [view_of_some hc3, ← hsame]
    exact hflush

theorem accept_tracks {c : MwChannel} (hc : s.channel? chan = some c) (head : MwMessageHead)
    (msg : MwMsgChannelAccept) :
    Tracks k chan s (mwChannelRecvAccept h chan msg
      (s.log (.channel chan (.arrives ⟨head, .channelAccept msg⟩)))).2 := by
  intro hs
  set s0 := s.log (.channel chan (.arrives ⟨head, .channelAccept msg⟩)) with hs0
  have hlive0 : s0.channel? chan = some c := hc
  have hfits0 : s0.Fits k := hs.log _
  have hhistory0 : s0.history chan =
      .channel chan (.arrives ⟨head, .channelAccept msg⟩) :: s.history chan := by
    rw [hs0, history_log, if_pos (by simp [Event.isOf])]
  have hreject {s1 : MwSession} {c1 : MwChannel} (hfits : s1.Fits k)
      (hc1 : s1.channel? chan = some c1) (hstate : c1.state = c.state)
      (hhistory : s1.history chan = s0.history chan) (reason : UInt32) :
      (mwChannelDestroy h chan reason [] s1).2.Fits k ∧
        Lives k chan (s.view chan) ((mwChannelDestroy h chan reason [] s1).2.view chan) :=
    rejected_tracks hwrite hc head msg (fun _ => hfits) hc1 hstate (hhistory.trans hhistory0) reason hs
  rw [mwChannelRecvAccept, Session.bind_apply, deref_of_some hlive0]
  dsimp only
  by_cases hgo : mwChannelIdIsIncoming chan.id = true ∨ c.state ≠ .wait
  · rw [if_pos hgo]
    exact hreject hfits0 hlive0 rfl rfl _
  · rw [if_neg hgo]
    simp only [not_or, not_not, mwChannelIdIsIncoming, Bool.not_eq_true', Bool.not_eq_false] at hgo
    rw [Session.bind_apply, updateChannel_of_some hlive0, Session.get_bind]
    set c1 : MwChannel := { c with user := mwLoginInfoClone c.user msg.acceptor } with hc1
    set s1 := s0.setChannel chan.id (some c1) with hs1
    have hlive1 : s1.channel? chan = some c1 := channel?_setChannel_self hlive0 c1 rfl
    have hfits1 : s1.Fits k := hfits0.setChannel hlive0 (by simp [hc1])
    cases s1.service? c.service with
    | none => exact hreject hfits1 hlive1 rfl rfl _
    | some srvc =>
      dsimp only
      rw [Session.bind_apply, updateChannel_of_some hlive1]
      set c2 : MwChannel := { c1 with policy := msg.encrypt.mode } with hc2
      set s2 := s1.setChannel chan.id (some c2) with hs2
      have hlive2 : s2.channel? chan = some c2 := channel?_setChannel_self hlive1 c2 rfl
      have hfits2 : s2.Fits k := hfits1.setChannel hlive1 (by simp [hc2])
      obtain ⟨hfits3, c3, hlive3, hstate3, htrue, hfalse⟩ :=
        acceptedCipher_view hfits2 hlive2 msg.encrypt
      rw [Session.bind_apply]
      set s3 := (acceptedCipher chan msg.encrypt s2).2 with hs3
      cases hok : (acceptedCipher chan msg.encrypt s2).1 with
      | false =>
        simp only [Bool.false_eq_true, if_false]
        exact hreject hfits3 hlive3 hstate3 (hfalse hok) _
      | true =>
        simp only [if_true]
        have hselect : Selects chan
            (c2, .channel chan (.arrives ⟨head, .channelAccept msg⟩) :: s.history chan)
            (c3, s3.history chan) := by
          rw [← hhistory0]
          exact htrue hok
        obtain ⟨hfits, v, hserves, hflush⟩ := opened_tracks hh hspares hwrite srvc msg hfits3 hlive3
          (hstate3.trans hgo.2)
        refine ⟨hfits, .single (.arrives ?_)⟩
        rw [view_of_some hc]
        have hsame : c.Same { c2 with policy := c.policy } :=
          ⟨rfl, rfl, rfl, rfl, rfl, rfl, rfl, rfl, rfl⟩
        exact .accepted head msg hgo.2 hgo.1 hsame hselect hserves hflush

omit hh hspares hwrite in
/-- A message for another channel -/
theorem other_tracks {chan' : ChanRef} (hne : chan' ≠ chan) (msg : MwMessage) {f : Session Unit}
    (hf : Keeps (Follows k chan) f) (s : MwSession) :
    Tracks k chan s (f (s.log (.channel chan' (.arrives msg)))).2 := by
  have hlog : Follows k chan s (s.log (.channel chan' (.arrives msg))) :=
    follows_log_other _ (by simpa [Event.isOf] using hne)
  exact Follows.tracks (IsTrans.trans _ _ _ hlog (hf _))

omit hh hspares hwrite in
theorem channel?_of_map {id : UInt32} {c : MwChannel} (hc : s.channels.map id = some c)
    (hchan : ⟨id, c.addr⟩ = chan) : s.channel? chan = some c := by
  subst hchan
  simp [MwSession.channel?, hc]

theorem acceptRecv_tracks (head : MwMessageHead) (msg : MwMsgChannelAccept) :
    Keeps (Tracks k chan) (channelAcceptRecv h head msg) := by
  intro s
  cases hc : s.channels.map head.channel with
  | none =>
    rw [channelAcceptRecv, mwChannelFind_bind, hc]
    exact Std.Refl.refl s
  | some c =>
    rw [channelAcceptRecv_of_some hc]
    by_cases hne : (⟨head.channel, c.addr⟩ : ChanRef) = chan
    · rw [hne]
      exact accept_tracks hh hspares hwrite (channel?_of_map hc hne) head msg
    · have := follows_through k hne
      exact other_tracks hne _ (recvAccept_keeps hh msg) s

omit hwrite in
theorem destroy_tracks {c : MwChannel} (hc : s.channel? chan = some c) (head : MwMessageHead)
    (msg : MwMsgChannelDestroy) :
    Tracks k chan s (mwChannelRecvDestroy h chan msg
      (s.log (.channel chan (.arrives ⟨head, .channelDestroy msg⟩)))).2 := by
  intro hs
  set s0 := s.log (.channel chan (.arrives ⟨head, .channelDestroy msg⟩)) with hs0
  have hlive0 : s0.channel? chan = some c := hc
  have hhistory0 : s0.history chan =
      .channel chan (.arrives ⟨head, .channelDestroy msg⟩) :: s.history chan := by
    rw [hs0, history_log, if_pos (by simp [Event.isOf])]
  rw [mwChannelRecvDestroy, Session.bind_apply, deref_of_some hlive0]
  dsimp only
  have hclosed : (if msg.reason ≠ 0 then MwChannelState.error else .destroy) =
      closedState msg.reason := rfl
  rw [Session.bind_apply, setChannelState_of_some hlive0, Session.get_bind, hclosed]
  dsimp only
  set s1 := s0.withState chan c (closedState msg.reason) with hs1
  set c1 : MwChannel := { c with state := closedState msg.reason } with hc1
  have hfits1 : s1.Fits k := (hs.log _).withState hlive0 _
  have hlive1 : s1.channel? chan = some c1 := channel?_withState hlive0 _
  have hview1 : s1.view chan = ⟨.live c1, enterState chan c (closedState msg.reason)
      (.channel chan (.arrives ⟨head, .channelDestroy msg⟩) :: s.history chan)⟩ := by
    rw [view_withState hlive0, hhistory0]
  have hsettled1 : (s1.view chan).Settled := by
    refine settled_of_some hlive1 ?_ ?_
    · simp only [hc1, closedState]
      split <;> simp
    · simp only [hc1, closedState]
      split <;> simp
  have hgone {s2 : MwSession} (hreaches : Reaches k chan (Serves k chan) s1 s2) :
      let s' := ((do
        match ← deref chan with
        | none => return
        | some _ => modify (·.setChannel chan.id none) : Session Unit) s2).2
      s'.Fits k ∧ Lives k chan (s.view chan) (s'.view chan) := by
    have hserves := hreaches.step
    rw [hview1] at hserves
    have hstep : Arrives k chan (s.view chan) ⟨.gone, s2.history chan⟩ := by
      rw [view_of_some hc]
      exact .destroyed head msg hserves
    rw [Session.bind_apply]
    cases hc2 : s2.channel? chan with
    | none =>
      rw [deref_of_none hc2]
      refine ⟨hreaches.fits.same rfl rfl rfl rfl, .single (.arrives ?_)⟩
      rw [← view_of_gone hreaches.settled hc2] at hstep
      exact hstep
    | some c2 =>
      rw [deref_of_some hc2]
      refine ⟨hreaches.fits.setChannel hc2 (by simp), .single (.arrives ?_)⟩
      rw [← view_remove (hreaches.fits.addr_lt hc2)] at hstep
      exact hstep
  have hlife : (s1.view chan).life ≠ .gone := by
    rw [hview1]
    simp
  have hidle : Reaches k chan (Serves k chan) s1 s1 :=
    ⟨hfits1, ⟨.refl, fun _ => hlife⟩, hsettled1⟩
  cases s1.service? c.service with
  | none => exact hgone hidle
  | some srvc =>
    dsimp only
    rw [Session.bind_apply, mwServiceRecvDestroy, Session.ite_apply]
    split
    · have hlog : (s1.log (.callback (.recvDestroy srvc.type chan msg))).view chan = s1.view chan :=
        view_log_other _ rfl
      have hcall := call_serves hh hspares (.recvDestroy srvc.type chan msg) rfl (hfits1.log _)
        (s := s1.log (.callback (.recvDestroy srvc.type chan msg))) hlive1 (by rwa [hlog])
      have hstep := hcall.step
      rw [hlog] at hstep
      exact hgone ⟨hcall.fits, hstep, hcall.settled⟩
    · exact hgone hidle

omit hwrite in
theorem destroyRecv_tracks (head : MwMessageHead) (msg : MwMsgChannelDestroy)
    (hid : head.channel ≠ masterChannelId) :
    Keeps (Tracks k chan) (channelDestroyRecv h head msg) := by
  intro s
  cases hc : s.channels.map head.channel with
  | none =>
    rw [channelDestroyRecv, if_neg hid, mwChannelFind_bind, hc]
    exact Std.Refl.refl s
  | some c =>
    rw [channelDestroyRecv_of_some hc hid]
    by_cases hne : (⟨head.channel, c.addr⟩ : ChanRef) = chan
    · rw [hne]
      exact destroy_tracks hh hspares (channel?_of_map hc hne) head msg
    · have := follows_through k hne
      exact other_tracks hne _ (recvDestroy_keeps hh msg) s

omit hwrite in
theorem receive_tracks {c : MwChannel} (hc : s.channel? chan = some c) (m : ChannelMessage) :
    Tracks k chan s (mwChannelRecv h chan m (s.log (.channel chan (.arrives m.toMessage)))).2 := by
  intro hs
  set s0 := s.log (.channel chan (.arrives m.toMessage)) with hs0
  have hlive0 : s0.channel? chan = some c := hc
  have hview0 : s0.view chan = ⟨.live c, .channel chan (.arrives m.toMessage) :: s.history chan⟩ := by
    rw [hs0, view_log_of _ (by simp [Event.isOf]), view_of_some hc]
    rfl
  rw [mwChannelRecv, Session.bind_apply, deref_of_some hlive0, view_of_some hc]
  dsimp only
  rw [Session.ite_apply]
  split
  · rename_i hopened
    have hsettled : (s0.view chan).Settled :=
      settled_of_some hlive0 (by simp [hopened]) (by simp [hopened])
    have hrecv := channelRecv_receives hh hspares m (hs.log _) hsettled
    have hstep := hrecv.step
    rw [hview0] at hstep
    exact ⟨hrecv.fits, .single (.arrives (.received m hopened hstep))⟩
  · rename_i hopened
    rw [updateChannel_of_some hlive0]
    refine ⟨(hs.log _).setChannel hlive0 (by simp), .single (.arrives ?_)⟩
    set c1 : MwChannel := { c with incomingQueue := c.incomingQueue ++ [m] } with hc1
    have hview : (s0.setChannel chan.id (some c1)).view chan =
        ⟨.live c1, .channel chan (.arrives m.toMessage) :: s.history chan⟩ := by
      rw [view_setChannel_self hlive0 c1 rfl]
      exact congrArg (ChannelView.mk (.live c1)) (congrArg ChannelView.history hview0)
    show Arrives k chan _ ((s0.setChannel chan.id (some c1)).view chan)
    rw [hview]
    exact .queued m hopened

omit hwrite in
theorem sendRecv_tracks (head : MwMessageHead) (msg : MwMsgChannelSend) :
    Keeps (Tracks k chan) (channelSendRecv h head msg) := by
  intro s
  cases hc : s.channels.map head.channel with
  | none =>
    rw [channelSendRecv, mwChannelFind_bind, hc]
    exact Std.Refl.refl s
  | some c =>
    rw [channelSendRecv_of_some hc]
    by_cases hne : (⟨head.channel, c.addr⟩ : ChanRef) = chan
    · rw [hne]
      exact receive_tracks hh hspares (channel?_of_map hc hne) ⟨head, msg⟩
    · have := follows_through k hne
      exact other_tracks hne _ (mwChannelRecv_keeps (recvCallback_keeps hh) _) s

end

/-! ## Runs -/

/-- A command that is a call is one of those that may be made on the channel. -/
def AllowsCommand (calls : ChannelCall → MwChannel → Prop) (chan : ChanRef) :
    Command → MwSession → Prop
  | .call call, s => Allows calls chan call s
  | _, _ => True

section

variable {env : Env} {k : Setting} {chan : ChanRef} (henv : env.Suits k chan) (n : Nat)

include henv

theorem process_tracks (buf : List UInt8) (s : MwSession) :
    Tracks k chan s (process (env.hooks n) buf s) := by
  have hh := henv.follows n
  have hspares : k.spares → (env.hooks n).Spares chan := fun hk => henv.spares hk n
  have hwrite := Env.hooks_onlyWrites henv.onlyWrites n
  have hh' : (env.hooks n).Respects (Tracks k chan) :=
    ⟨fun b => keeps_tracks (hh.ioWrite b), keeps_tracks hh.ioClose, fun c => keeps_tracks (hh.call c)⟩
  unfold process sessionProcess
  split
  · exact Std.Refl.refl s
  · cases hmsg : (mwMessageGet (env.hooks n).uninit (.wrapOpaque buf)).1 with
    | none => exact Std.Refl.refl s
    | some msg =>
      simp only [Session.get_bind, record_bind]
      have hlog : Tracks k chan s (s.log (.handle msg.body.type s.state)) :=
        Follows.tracks (follows_log_other _ rfl)
      refine IsTrans.trans _ _ _ hlog ?_
      obtain ⟨head, body⟩ := msg
      by_cases hb : body.type.isLogin = true
      · cases body with
        | handshakeAck m => exact keeps_tracks (handshakeAck_follows hh m) _
        | loginAck m => exact keeps_tracks (loginAck_follows hh m) _
        | loginRedirect m => exact keeps_tracks (setState_follows hh _ _) _
        | _ => simp [MwMessageBody.type, MwMessageType.isLogin] at hb
      · exact dispatch_of hh' (by simpa using hb) (fun reason => keeps_tracks (stop_follows hh reason))
          (createRecv_tracks hh hwrite head) (acceptRecv_tracks hh hspares hwrite head)
          (fun m hid => destroyRecv_tracks hh hspares head m hid)
          (sendRecv_tracks hh hspares head) _

theorem runCommand_tracks {command : Command} {s : MwSession}
    (hcommand : AllowsCommand k.calls chan command s) :
    Tracks k chan s (runCommand (env.hooks n) command s) := by
  have hh := henv.follows n
  cases command with
  | start => exact keeps_tracks (start_follows hh) s
  | recv b =>
    refine mwSessionRecv_keeps (I := Tracks k chan s) ?_ ?_ b (Std.Refl.refl s)
    · intro i s' hs'
      exact IsTrans.trans _ _ _ hs' (Follows.tracks (follows_same rfl rfl rfl rfl rfl))
    · exact fun p s' hs' => IsTrans.trans _ _ _ hs' (process_tracks henv n p s')
  | call call =>
    exact Follows.tracks (runApiCall_follows hh (fun hk => henv.spares hk n)
      (Env.hooks_onlyWrites henv.onlyWrites n) hcommand)

/-- A run of a session is a run of the machine of each channel. -/
theorem run_lives {commands : List Command} {s : MwSession} (hs : s.Fits k)
    (hcommands : RunMeets (env.hooks n) (AllowsCommand k.calls chan) commands s) :
    (run (env.hooks n) commands s).Fits k ∧
      Lives k chan (s.view chan) ((run (env.hooks n) commands s).view chan) := by
  have hrun := runMeets_keeps (I := Tracks k chan s)
    (fun _ _ hcommand hs' => IsTrans.trans _ _ _ hs' (runCommand_tracks henv n hcommand))
    hcommands (Std.Refl.refl s)
  exact hrun hs

end

/-- The setting of a new session -/
def Setting.ofNew (services : List MwService) (ciphers : List MwCipher) (spares : Prop)
    (calls : ChannelCall → MwChannel → Prop) : Setting where
  calls := calls
  spares := spares
  ciphers := fun type => type ∈ ciphers.map (·.type)
  receives := fun type => (services.find? (·.type = type)).any (·.hasRecv)

section

variable {env : Env} {spares : Prop} {calls : ChannelCall → MwChannel → Prop} {chan : ChanRef}
  (n : Nat) (handler : MwSessionHandler) (services : List MwService) (ciphers : List MwCipher)
  (attributes : Attributes) (commands : List Command)

/-- A run of a new session is a run of the machine of each channel. -/
theorem runNew_lives (henv : env.Suits (Setting.ofNew services ciphers spares calls) chan)
    (hcommands : RunMeets (env.hooks n) (AllowsCommand calls chan) commands
      (mwSessionNew handler services ciphers attributes)) :
    let s := run (env.hooks n) commands (mwSessionNew handler services ciphers attributes)
    let k := Setting.ofNew services ciphers spares calls
    s.Fits k ∧ Lives k chan ⟨.unborn, []⟩ (s.view chan) := by
  intro s k
  have hfits : (mwSessionNew handler services ciphers attributes).Fits k := {
    addressed := by
      intro id c hc
      simp [mwSessionNew] at hc
    ciphers := fun _ => Iff.rfl
    services := fun _ => rfl }
  have hview : (mwSessionNew handler services ciphers attributes).view chan = ⟨.unborn, []⟩ := by
    simp [mwSessionNew, MwSession.view, MwSession.life, MwSession.history, MwSession.channel?]
  have hrun := run_lives henv n hfits hcommands
  rw [hview] at hrun
  exact hrun

/-- The same where any call may be made -/
theorem runAny_lives (hwrites : env.OnlyWrites)
    (hspares : spares → ∀ m, (env.hooks m).Spares chan) :
    let s := run (env.hooks n) commands (mwSessionNew handler services ciphers attributes)
    let k := Setting.ofNew services ciphers spares fun _ _ => True
    s.Fits k ∧ Lives k chan ⟨.unborn, []⟩ (s.view chan) := by
  have hcommand (command : Command) (s : MwSession) :
      AllowsCommand (fun _ _ => True) chan command s := by
    cases command with
    | call call => exact fun _ _ _ _ => trivial
    | start | recv => trivial
  exact runNew_lives n handler services ciphers attributes commands
    ⟨hwrites, env.meets_of_forall fun _ _ _ _ _ _ => trivial, hspares⟩
    (runMeets_of_forall hcommand commands _)

end

end Meanwhile
