-- SUMMARY: Each call on a channel is a step of its machine, and so is what services do while they are told about it.
import Meanwhile.Channel.Follow

/-!
# Calls on a channel

The functions of channel.c, one by one, as steps of the machine of their channel.
Those that tell a service about the channel are steps once the hooks follow.
-/

namespace Meanwhile

theorem code_injective {type type' : MwCipherType} (h : type.code = type'.code) : type = type' := by
  cases type <;> cases type' <;> simp_all [MwCipherType.code]

/-! ## Calls that no service is told about -/

section

variable {k : Setting} {chan : ChanRef} {s : MwSession} {c : MwChannel}

theorem view_sent (msg : MwMessage) :
    (s.sent chan msg).view chan = (s.view chan).log (.channel chan (.sends msg)) := by
  rw [MwSession.sent, view_log_other _ rfl, view_log_of _ (by simp [Event.isOf])]

theorem MwSession.Fits.sent (h : s.Fits k) (msg : MwMessage) : (s.sent chan msg).Fits k :=
  (h.log _).log _

section

variable (hc : s.channel? chan = some c)

include hc

theorem view_withState (state : MwChannelState) :
    (s.withState chan c state).view chan =
      ⟨.live { c with state := state }, enterState chan c state (s.history chan)⟩ := by
  rw [view_of_some (channel?_withState hc state), MwSession.withState, enterState]
  split
  · rfl
  · rw [history_log, if_pos (by simp [Event.isOf])]
    rfl

theorem MwSession.Fits.withState (h : s.Fits k) (state : MwChannelState) :
    (s.withState chan c state).Fits k := by
  unfold MwSession.withState
  split
  · exact h
  · exact (h.setChannel hc (by simp)).log _

theorem setService_follows (srvc : UInt32) :
    Follows k chan s (mwChannelSetService chan srvc s).2 := by
  rw [mwChannelSetService, setWhileInit, Session.bind_apply, deref_of_some hc]
  dsimp only
  rw [Session.ite_apply]
  split
  · rename_i hinit
    rw [updateChannel_of_some hc]
    exact follows_update hc rfl (.setService srvc hinit)
  · exact Std.Refl.refl s

theorem populate_follows (hcall : k.calls .populateSupportedCipherInstances c) :
    Follows k chan s (mwChannelPopulateSupportedCipherInstances chan s).2 := by
  intro hs
  have hstart : Supporting k (fun ci => k.ciphers ci.type ∧ ci.shape = freshShape ci.type) chan c
      (s.history chan) s :=
    ⟨hs, rfl, c.supported, hc, Grows.refl _ _⟩
  obtain ⟨hfits, hhistory, l, hl, hgrows⟩ := populate_supporting (fun _ h => h) s hstart
  refine ⟨hfits, ?_⟩
  rw [view_of_some hc, view_of_some hl, hhistory]
  cases hsupported : c.supported with
  | none =>
    rw [hsupported] at hgrows
    cases l with
    | none =>
      rw [← hsupported]
      exact .refl
    | some l => exact hgrows.elim
  | some l0 =>
    rw [hsupported] at hgrows
    cases l with
    | none => exact hgrows.elim
    | some l => exact .single (.call (.populate hcall hsupported hgrows))

/-- What selecting comes to -/
theorem selectCipherInstance_apply (ci : Option MwCipherInstance) :
    mwChannelSelectCipherInstance chan ci s =
      ((), if c.supported.isNone then s
        else (s.setChannel chan.id (some (c.selected ci))).log (.select chan ci.isSome)) := by
  unfold mwChannelSelectCipherInstance
  rw [Session.bind_apply, deref_of_some hc]
  dsimp only
  rw [Session.ite_apply]
  split
  · rfl
  · rw [Session.bind_apply, updateChannel_of_some hc]
    rfl

/-- Selecting decides on a cipher, or finds that this has been done. -/
theorem select_selects (hs : s.Fits k) {ci : Option MwCipherInstance}
    (hci : ∀ ci' ∈ ci, ∃ ci0 ∈ c.supported.getD [], ci'.shape = ci0.shape) :
    (mwChannelSelectCipherInstance chan ci s).2.Fits k ∧
      ∃ c', (mwChannelSelectCipherInstance chan ci s).2.channel? chan = some c' ∧
        c'.state = c.state ∧ Selects chan (c, s.history chan)
          (c', (mwChannelSelectCipherInstance chan ci s).2.history chan) := by
  rw [selectCipherInstance_apply hc]
  cases hl : c.supported with
  | none => exact ⟨hs, c, hc, rfl, .before hl⟩
  | some l =>
    simp only [Option.isNone_some, Bool.false_eq_true, if_false]
    refine ⟨(hs.setChannel hc (by simp [MwChannel.selected])).log _, c.selected ci,
      channel?_setChannel_self hc _ rfl, rfl, ?_⟩
    rw [history_log, if_pos (by simp [Event.isOf])]
    rw [hl] at hci
    exact .now hl hci

theorem select_follows {ci : Option MwCipherInstance}
    (hcall : ∃ type, k.calls (.selectCipherInstance type) c)
    (hci : ∀ ci' ∈ ci, ci' ∈ c.supported.getD []) :
    Follows k chan s (mwChannelSelectCipherInstance chan ci s).2 := by
  rw [selectCipherInstance_apply hc]
  cases hl : c.supported with
  | none => exact Std.Refl.refl s
  | some l =>
    refine Follows.of_call (fun hs => (hs.setChannel hc (by simp [MwChannel.selected])).log _)
      fun _ => ?_
    simp only [Option.isNone_some, Bool.false_eq_true, if_false]
    rw [view_of_some hc, view_log_of _ (by simp [Event.isOf]), view_setChannel_self hc (c.selected ci) rfl]
    rw [hl] at hci
    exact .select hcall hl hci

omit hc in
theorem cipher?_type (hs : s.Fits k) {type : MwCipherType} (hcipher : k.ciphers type) :
    ∃ cipher : MwCipher, s.cipher? type.code = some cipher ∧ cipher.type = type := by
  obtain ⟨cipher, hmem, htype⟩ := List.mem_map.mp ((hs.ciphers _).mp hcipher)
  have hfind : (s.cipher? type.code).isSome = true := by
    rw [MwSession.cipher?, List.find?_isSome]
    exact ⟨cipher, hmem, by simp [htype]⟩
  obtain ⟨cipher', hcipher'⟩ := Option.isSome_iff_exists.mp hfind
  refine ⟨cipher', hcipher', code_injective ?_⟩
  simpa using List.find?_some hcipher'

omit hc in
theorem owner?_type (hs : s.Fits k) {ci : MwCipherInstance} (hci : c.cipher = some ci)
    (hcipher : k.ciphers ci.type) :
    ∃ cipher : MwCipher, s.owner? c = some cipher ∧ cipher.type = ci.type := by
  obtain ⟨cipher, hfind, htype⟩ := cipher?_type hs hcipher
  exact ⟨cipher, by simp [MwSession.owner?, hci, hfind], htype⟩

omit hc in
theorem offerItems_mem (hs : s.Fits k) {l : List MwCipherInstance} {ci : MwCipherInstance}
    (hci : ci ∈ l) (hcipher : k.ciphers ci.type) :
    ci.type.code ∈ (offerItems s l).map (·.id) := by
  obtain ⟨cipher, hfind, htype⟩ := cipher?_type hs hcipher
  refine List.mem_map.mpr ⟨mwCipherInstanceOffer cipher, ?_, ?_⟩
  · exact List.mem_filterMap.mpr ⟨ci, hci, by simp [hfind]⟩
  · rw [← htype]
    cases cipher <;> rfl

variable {h : Hooks} (hwrite : ∀ b s, (h.ioWrite b s).2 = s)

include hwrite

theorem create_follows (hcall : k.calls .create c) :
    Follows k chan s (mwChannelCreate h chan s).2 := by
  by_cases hgo : c.state = .init ∧ mwChannelIdIsOutgoing chan.id = true
  · obtain ⟨state, hstate, hcreate⟩ := mwChannelCreate_write hwrite hc hgo.1 hgo.2
    rw [hcreate]
    dsimp only
    set s1 := s.setChannel chan.id (some c.offering) with hs1
    have hfits (hs : s.Fits k) : s1.Fits k := hs.setChannel hc (by simp [MwChannel.offering])
    have hlive : s1.channel? chan = some c.offering := channel?_setChannel_self hc _ rfl
    have hlive' : (s1.sent chan (createMessage s1 chan.id c.offering)).channel? chan =
        some c.offering := hlive
    refine Follows.of_call (fun hs => ((hfits hs).sent _).withState hlive' state) fun hs => ?_
    have hne : c.offering.state ≠ state := by
      rw [MwChannel.offering, hgo.1]
      obtain rfl | rfl := hstate <;> decide
    have hview : (s1.sent chan (createMessage s1 chan.id c.offering)).history chan =
        .channel chan (.sends (createMessage s1 chan.id c.offering)) :: s.history chan :=
      congrArg ChannelView.history (view_sent _)
    rw [view_of_some hc, view_withState hlive', enterState, if_neg hne, hview]
    exact .create hcall hgo.1 hgo.2 (fun ci hci hcipher => offerItems_mem (hfits hs) hci hcipher) hstate
  · have hstop : c.state ≠ .init ∨ mwChannelIdIsIncoming chan.id = true := by
      simpa [mwChannelIdIsIncoming, Classical.or_iff_not_imp_left] using hgo
    rw [mwChannelCreate, Session.bind_apply, deref_of_some hc]
    dsimp only
    rw [if_pos hstop]
    exact Std.Refl.refl s

theorem destroy_view (hs : s.Fits k) (reason : UInt32) (info : MwOpaque) :
    (mwChannelDestroy h chan reason info s).2.Fits k ∧
      (mwChannelDestroy h chan reason info s).2.view chan =
        ⟨.gone, .channel chan (.sends (destroyMessage chan.id reason info)) ::
          enterState chan c (closedState reason) (s.history chan)⟩ := by
  rw [mwChannelDestroy_write hwrite hc]
  set s1 := s.withState chan c (closedState reason) with hs1
  have hlive : s1.channel? chan = some { c with state := closedState reason } :=
    channel?_withState hc _
  have hfits : s1.Fits k := hs.withState hc _
  refine ⟨(hfits.setChannel hlive (by simp)).sent _, ?_⟩
  have hhistory : s1.history chan = enterState chan c (closedState reason) (s.history chan) :=
    congrArg ChannelView.history (view_withState hc _)
  rw [view_sent, view_remove (hfits.addr_lt hlive), hhistory]
  rfl

theorem destroy_follows {reason : UInt32} {info : MwOpaque} (hcall : k.calls (.destroy reason info) c) :
    Follows k chan s (mwChannelDestroy h chan reason info s).2 := by
  refine Follows.of_call (fun hs => (destroy_view hc hwrite hs reason info).1) fun hs => ?_
  rw [(destroy_view hc hwrite hs reason info).2, view_of_some hc]
  exact .destroy reason info hcall

theorem sendEncrypted_follows {type : UInt32} {data : MwOpaque} {encrypt : Bool}
    (hcall : k.calls (.sendEncrypted type data encrypt) c) :
    Follows k chan s (mwChannelSendEncrypted h chan type data encrypt s).2 := by
  intro hs
  set call : SendCall :=
    ⟨chan, type, data, encrypt, c.cipher, s.owner? c, c.state, c.outgoingQueue, h.fresh s⟩ with hcall'
  have hsuits : call.Suits k chan c :=
    ⟨hcall, rfl, rfl, rfl, rfl, fun ci hci hcipher => owner?_type hs hci hcipher⟩
  rw [mwChannelSendEncrypted, Session.bind_apply, deref_of_some hc]
  dsimp only
  rw [Session.get_bind]
  rw [record_bind, ← hcall']
  have hlog : (s.log (.send call)).view chan = ⟨.live c, .send call :: s.history chan⟩ := by
    rw [view_log_of _ (by simp [Event.isOf, hcall']), view_of_some hc]
    rfl
  have hclog : (s.log (.send call)).channel? chan = some c := hc
  rw [view_of_some hc]
  cases hmsg : call.compose with
  | none =>
    have hfits : (fault (s.log (.send call))).2.Fits k := (hs.log (.send call)).same rfl rfl rfl rfl
    have hview : (fault (s.log (.send call))).2.view chan = (s.log (.send call)).view chan := rfl
    refine ⟨hfits, .single (.call ?_)⟩
    show CallStep k chan _ ((fault (s.log (.send call))).2.view chan)
    rw [hview, hlog]
    exact .garbled hsuits hmsg
  | some p =>
    obtain ⟨msg, ci⟩ := p
    dsimp only
    rw [Session.bind_apply, updateChannel_of_some hclog]
    dsimp only
    set c1 : MwChannel := { c with cipher := ci <|> c.cipher } with hc1
    set s1 := (s.log (.send call)).setChannel chan.id (some c1) with hs1
    have hfits : s1.Fits k := (hs.log _).setChannel hclog (by simp [hc1])
    have hlive : s1.channel? chan = some c1 := channel?_setChannel_self hclog c1 rfl
    have hhistory : s1.history chan = .send call :: s.history chan :=
      congrArg ChannelView.history hlog
    rw [channelSend, Session.bind_apply, deref_of_some hlive]
    dsimp only
    rw [Session.ite_apply]
    by_cases hopened : c1.state = .opened
    · rw [if_pos hopened, sendFor_write hwrite (by simp [ChannelMessage.toMessage])]
      refine ⟨hfits.sent _, .single (.call ?_)⟩
      rw [view_sent, view_of_some hlive, hhistory]
      exact .send hsuits hmsg hopened
    · rw [if_neg hopened, Session.bind_apply, updateChannel_of_some hlive]
      set c2 : MwChannel := { c1 with outgoingQueue := c1.outgoingQueue ++ [msg] } with hc2
      refine ⟨hfits.setChannel hlive (by simp [hc2]), .single (.call ?_)⟩
      have hview : (s1.setChannel chan.id (some c2)).view chan = ⟨.live c2, s1.history chan⟩ :=
        view_setChannel_self hlive c2 rfl
      rw [hhistory] at hview
      show CallStep k chan _ ((s1.setChannel chan.id (some c2)).view chan)
      rw [hview]
      exact .queue hsuits hmsg hopened

end

end

/-! ## Ciphers get their keys -/

theorem acceptedRc2_40_shape {user : MwLoginInfo} {ci : MwCipherInstanceRc2_40}
    {ci' : MwCipherInstance} (h : acceptedRc2_40 user ci = some ci') :
    ci'.shape = (MwCipherInstance.rc2_40 ci).shape := by
  obtain ⟨key, -, hkey⟩ := Option.bind_eq_some_iff.mp h
  obtain rfl := Option.some.inj hkey
  rfl

theorem offeredRc2_128_shape {c : MwCipherRc2_128} {ci : MwCipherInstanceRc2_128}
    {item : MwEncryptItem} {ci' : MwCipherInstance} (h : offeredRc2_128 c ci item = some ci') :
    ci'.shape = (MwCipherInstance.rc2_128 ci).shape := by
  obtain ⟨key, -, hkey⟩ := Option.bind_eq_some_iff.mp h
  obtain rfl := Option.some.inj hkey
  rfl

theorem mwCipherInstanceAccept_shape {user : MwLoginInfo} {cipher : MwCipher}
    {ci ci' : MwCipherInstance} {item : MwEncryptItem}
    (h : mwCipherInstanceAccept user cipher ci = some (ci', item)) : ci'.shape = ci.shape := by
  unfold mwCipherInstanceAccept at h
  split at h
  · obtain ⟨ci1, hci1, h⟩ := Option.bind_eq_some_iff.mp h
    obtain ⟨rfl, -⟩ := Prod.mk.inj (Option.some.inj h)
    exact acceptedRc2_40_shape hci1
  · obtain ⟨rfl, -⟩ := Prod.mk.inj (Option.some.inj h)
    rfl

/-! ## Services that are told -/

/-- The channel that a service is told about -/
def Callback.chan? : Callback → Option ChanRef
  | .recvAccept _ chan _ | .recvDestroy _ chan _ | .recv _ chan _ _ => some chan
  | _ => none

/-- Services that are told about a channel leave it where it is. -/
def Hooks.Spares (h : Hooks) (chan : ChanRef) : Prop :=
  ∀ c, c.chan? = some chan → ∀ s, (s.channel? chan).isSome → ((h.call c s).2.channel? chan).isSome

/-- Where the machine is once it has followed some code -/
structure Reaches (k : Setting) (chan : ChanRef) (T : ChannelView → ChannelView → Prop)
    (s s' : MwSession) : Prop where
  fits : s'.Fits k
  step : T (s.view chan) (s'.view chan)
  settled : (s'.view chan).Settled

section

variable {k : Setting} {chan : ChanRef} {s : MwSession}

theorem view_of_gone (hsettled : (s.view chan).Settled) (hc : s.channel? chan = none) :
    s.view chan = ⟨.gone, s.history chan⟩ := by
  have hlife : s.life chan = if s.nextAddr ≤ chan.addr then .unborn else .gone := by
    simp only [MwSession.life, hc]
  rw [MwSession.view, hlife] at hsettled ⊢
  split at hsettled
  · exact hsettled.elim
  · rename_i haddr
    rw [if_neg haddr]

theorem settled_of_some {c : MwChannel} (hc : s.channel? chan = some c) (hinit : c.state ≠ .init)
    (hwait : c.state ≠ .wait) : (s.view chan).Settled := by
  rw [view_of_some hc]
  exact ⟨hinit, hwait⟩

variable {h : Hooks} (hh : h.Respects (Follows k chan)) (hspares : k.spares → h.Spares chan)

include hh hspares

theorem call_serves (cb : Callback) (hcb : cb.chan? = some chan) (hs : s.Fits k) {c : MwChannel}
    (hc : s.channel? chan = some c) (hsettled : (s.view chan).Settled) :
    Reaches k chan (Serves k chan) s (h.call cb s).2 := by
  obtain ⟨hfits, hcalls⟩ := hh.call cb s hs
  have hsteps := hcalls.settled hsettled
  refine ⟨hfits, ⟨hsteps, fun hk hgone => ?_⟩, callSteps_settled hsteps hsettled⟩
  have hlive := hspares hk cb hcb s (by simp [hc])
  obtain ⟨c', hc'⟩ := Option.isSome_iff_exists.mp hlive
  rw [view_of_some hc'] at hgone
  exact absurd hgone (by simp)

theorem channelRecv_receives (m : ChannelMessage) (hs : s.Fits k)
    (hsettled : (s.view chan).Settled) :
    Reaches k chan (Receives k chan m) s (channelRecv h chan m s).2 := by
  rw [channelRecv, Session.bind_apply]
  cases hc : s.channel? chan with
  | none =>
    rw [deref_of_none hc]
    refine ⟨hs.same rfl rfl rfl rfl, ?_, hsettled⟩
    show Receives k chan m (s.view chan) (s.view chan)
    rw [view_of_gone hsettled hc]
    exact .gone _
  | some c =>
    rw [deref_of_some hc]
    dsimp only
    rw [Session.get_bind]
    cases hdata : receivedData c m with
    | none =>
      refine ⟨hs.same rfl rfl rfl rfl, ?_, hsettled⟩
      show Receives k chan m (s.view chan) (s.view chan)
      rw [view_of_some hc]
      exact .garbled hdata
    | some p =>
      obtain ⟨ci, data⟩ := p
      dsimp only
      rw [Session.bind_apply, updateChannel_of_some hc]
      dsimp only
      set c1 : MwChannel := { c with msgRecv := c.msgRecv + 1, cipher := ci } with hc1
      set s1 := s.setChannel chan.id (some c1) with hs1
      have hfits : s1.Fits k := hs.setChannel hc (by simp [hc1])
      have hlive : s1.channel? chan = some c1 := channel?_setChannel_self hc c1 rfl
      have hview : s1.view chan = ⟨.live c1, s.history chan⟩ := view_setChannel_self hc c1 rfl
      have hsettled1 : (s1.view chan).Settled := by
        rw [view_of_some hc] at hsettled
        exact settled_of_some hlive hsettled.1 hsettled.2
      have hservice := hs.services c.service
      have hignored (hno : k.receives c.service = false) :
          Reaches k chan (Receives k chan m) s s1 := by
        refine ⟨hfits, ?_, hsettled1⟩
        rw [view_of_some hc, hview]
        exact .ignored hdata hno
      cases hsrvc : s.service? c.service with
      | none =>
        rw [hsrvc] at hservice
        exact hignored hservice.symm
      | some srvc =>
        rw [hsrvc] at hservice
        have htype : srvc.type = c.service := by simpa using List.find?_some hsrvc
        rw [mwServiceRecv]
        rw [Session.ite_apply]
        split
        · rename_i hrecv
          rw [callback, record_bind, htype]
          set s2 := s1.log (.callback (.recv c.service chan m.msg.type data)) with hs2
          have hview2 : s2.view chan =
              ⟨.live c1, .callback (.recv c.service chan m.msg.type data) :: s.history chan⟩ := by
            rw [hs2, view_log_of _ (by simp [Event.isOf]), hview]
            rfl
          have hsettled2 : (s2.view chan).Settled := by
            rw [hview] at hsettled1
            rw [hview2]
            exact hsettled1
          have hreaches := call_serves hh hspares (.recv c.service chan m.msg.type data) rfl
            (hfits.log _) (s := s2) hlive hsettled2
          refine ⟨hreaches.fits, ?_, hreaches.settled⟩
          have hserves := hreaches.step
          rw [hview2] at hserves
          rw [view_of_some hc]
          exact .handed hdata (hservice.symm.trans hrecv) hserves
        · rename_i hrecv
          exact hignored (hservice.symm.trans (by simpa using hrecv))

theorem flushIncoming_delivers (l : List ChannelMessage) (hs : s.Fits k)
    (hsettled : (s.view chan).Settled) :
    Reaches k chan (Delivers k chan l) s (flushIncoming h chan l s).2 := by
  induction l generalizing s with
  | nil => exact ⟨hs, .nil _, hsettled⟩
  | cons m l ih =>
    have hm := channelRecv_receives hh hspares m hs hsettled
    have hl := ih hm.fits hm.settled
    exact ⟨hl.fits, .cons hm.step hl.step, hl.settled⟩

/-! ## Flushing and accepting -/

variable (hwrite : ∀ b s, (h.ioWrite b s).2 = s)

include hwrite

omit hh hspares in
theorem flushOutgoing_view {c : MwChannel} (l : List ChannelMessage) (hs : s.Fits k)
    (hc : s.channel? chan = some c) :
    (flushOutgoing h chan l s).2.Fits k ∧ (flushOutgoing h chan l s).2.channel? chan = some c ∧
      (flushOutgoing h chan l s).2.history chan = flushed chan l (s.history chan) := by
  induction l generalizing s with
  | nil => exact ⟨hs, hc, rfl⟩
  | cons m l ih =>
    rw [flushOutgoing, Session.bind_apply, deref_of_some hc]
    dsimp only
    rw [Session.bind_apply, sendFor_write hwrite (by simp [ChannelMessage.toMessage])]
    have hsent : (s.sent chan m.toMessage).Fits k := hs.sent _
    obtain ⟨hfits, hlive, hhistory⟩ := ih hsent hc
    refine ⟨hfits, hlive, hhistory.trans ?_⟩
    have hview : (s.sent chan m.toMessage).history chan =
        .channel chan (.sends m.toMessage) :: s.history chan :=
      congrArg ChannelView.history (view_sent _)
    rw [hview]
    simp [flushed]

theorem flushChannel_flushes {c : MwChannel} (hs : s.Fits k) (hc : s.channel? chan = some c)
    (hsettled : (s.view chan).Settled) :
    Reaches k chan (Flushes k chan) s (flushChannel h chan s).2 := by
  have hin := flushIncoming_delivers hh hspares c.incomingQueue hs hsettled
  rw [flushChannel, Session.bind_apply, deref_of_some hc]
  dsimp only
  rw [Session.bind_apply, Session.bind_apply]
  set s1 := (flushIncoming h chan c.incomingQueue s).2 with hs1
  have hdelivers := hin.step
  rw [view_of_some hc] at hdelivers
  rw [Session.bind_apply]
  cases hc1 : s1.channel? chan with
  | none =>
    rw [updateChannel_of_none hc1, deref_of_none (s := { s1 with fault := true, dangling := true }) hc1]
    refine ⟨hin.fits.same rfl rfl rfl rfl, ?_, hin.settled⟩
    show Flushes k chan (s.view chan) (s1.view chan)
    rw [view_of_gone hin.settled hc1] at hdelivers ⊢
    rw [view_of_some hc]
    exact .gone hdelivers
  | some c1 =>
    rw [updateChannel_of_some hc1]
    dsimp only
    set c2 : MwChannel := { c1 with incomingQueue := [] } with hc2
    set s2 := s1.setChannel chan.id (some c2) with hs2
    have hlive2 : s2.channel? chan = some c2 := channel?_setChannel_self hc1 c2 rfl
    have hfits2 : s2.Fits k := hin.fits.setChannel hc1 (by simp [hc2])
    rw [deref_of_some hlive2]
    dsimp only
    obtain ⟨hfits3, hlive3, hhistory⟩ := flushOutgoing_view hwrite c2.outgoingQueue hfits2 hlive2
    rw [Session.bind_apply, updateChannel_of_some hlive3]
    set s3 := (flushOutgoing h chan c2.outgoingQueue s2).2 with hs3
    set c3 : MwChannel := { c2 with outgoingQueue := [] } with hc3
    have hview : (s3.setChannel chan.id (some c3)).view chan =
        ⟨.live c3, flushed chan c1.outgoingQueue (s1.history chan)⟩ := by
      rw [view_setChannel_self hlive3 c3 rfl, hhistory]
      rfl
    have hsettled1 := hin.settled
    rw [view_of_some hc1] at hdelivers hsettled1
    refine ⟨hfits3.setChannel hlive3 (by simp [hc3]), ?_, ?_⟩
    · rw [view_of_some hc]
      show Flushes k chan _ ((s3.setChannel chan.id (some c3)).view chan)
      rw [hview]
      have hdone := Flushes.done hdelivers
      exact hdone
    · show ChannelView.Settled ((s3.setChannel chan.id (some c3)).view chan)
      rw [hview]
      exact hsettled1

theorem channelOpen_flushes {c : MwChannel} (hs : s.Fits k) (hc : s.channel? chan = some c) :
    (channelOpen h chan s).2.Fits k ∧
      Flushes k chan
        ⟨.live { c with state := .opened }, enterState chan c .opened (s.history chan)⟩
        ((channelOpen h chan s).2.view chan) := by
  rw [channelOpen, Session.bind_apply, setChannelState_of_some hc]
  have hlive := channel?_withState hc .opened
  have hsettled := settled_of_some hlive (by simp) (by simp)
  have hflush := flushChannel_flushes hh hspares hwrite (hs.withState hc .opened) hlive hsettled
  rw [← view_withState hc]
  exact ⟨hflush.fits, hflush.step⟩

omit hh hspares hwrite in
/-- What `mwCipherInstance_accept` leaves of a channel -/
theorem acceptCipher_view {c : MwChannel} (hs : s.Fits k) (hc : s.channel? chan = some c) :
    ∃ ci, SameCipher c.cipher ci ∧ (acceptCipher chan s).2.Fits k ∧
      (acceptCipher chan s).2.channel? chan = some { c with cipher := ci } ∧
      (acceptCipher chan s).2.history chan = s.history chan := by
  rw [acceptCipher, Session.bind_apply, deref_of_some hc]
  dsimp only
  cases hcipher : c.cipher with
  | none =>
    have hsame : s.channel? chan = some { c with cipher := none } := by
      rw [← hcipher]
      exact hc
    exact ⟨none, rfl, hs, hsame, rfl⟩
  | some ci =>
    dsimp only
    rw [Session.get_bind]
    cases haccept : (s.cipher? ci.type.code >>= fun cipher =>
        mwCipherInstanceAccept c.user cipher ci) with
    | none =>
      have hsame : s.channel? chan = some { c with cipher := some ci } := by
        rw [← hcipher]
        exact hc
      exact ⟨some ci, rfl, hs.same rfl rfl rfl rfl, hsame, rfl⟩
    | some p =>
      obtain ⟨ci', item⟩ := p
      obtain ⟨cipher, -, haccept⟩ := Option.bind_eq_some_iff.mp haccept
      refine ⟨some ci', ?_, ?_⟩
      · exact congrArg some (mwCipherInstanceAccept_shape haccept)
      · dsimp only
        rw [Session.bind_apply, updateChannel_of_some hc]
        exact ⟨hs.setChannel hc (by simp), channel?_setChannel_self hc _ rfl, rfl⟩

theorem sendAccept_accepts {c c' : MwChannel} {t : List Event} (hcall : k.calls .accept c)
    (hwait : c.state = .wait) (hid : mwChannelIdIsIncoming chan.id = true)
    (hs : s.Fits k) (hc : s.channel? chan = some c')
    (hselect : c.cipher = none ∧ Selects chan (c, t) (c', s.history chan) ∨
      c.cipher ≠ none ∧ (c', s.history chan) = (c, t)) (hstate : c'.state = .wait) :
    (sendAccept h chan s).2.Fits k ∧
      AcceptStep k chan ⟨.live c, t⟩ ((sendAccept h chan s).2.view chan) := by
  obtain ⟨ci, hci, hfits, hlive, hhistory⟩ := acceptCipher_view hs hc
  rw [sendAccept, Session.bind_apply]
  set s1 := (acceptCipher chan s).2 with hs1
  set item := (acceptCipher chan s).1 with hitem
  set c1 : MwChannel := { c' with cipher := ci } with hc1
  rw [Session.bind_apply, deref_of_some hlive]
  dsimp only
  rw [Session.bind_apply, sendFor_write hwrite (by simp [acceptMessage]), Session.ite_apply]
  set msg := acceptMessage chan.id c1 item with hmsg
  have hlive2 : (s1.sent chan msg).channel? chan = some c1 := hlive
  have hfits2 : (s1.sent chan msg).Fits k := hfits.sent _
  have hhistory2 : (s1.sent chan msg).history chan =
      .channel chan (.sends msg) :: s.history chan := by
    rw [← hhistory]
    exact congrArg ChannelView.history (view_sent _)
  have hne (state : MwChannelState) (hstate' : state ≠ .wait) : c1.state ≠ state := by
    rw [hc1]
    exact fun heq => hstate' (heq.symm.trans hstate)
  split
  · rw [Session.bind_apply, setChannelState_of_some hlive2]
    refine ⟨hfits2.withState hlive2 _, ?_⟩
    show AcceptStep k chan _ (((s1.sent chan msg).withState chan c1 .error).view chan)
    rw [view_withState hlive2, enterState, if_neg (hne _ (by decide)), hhistory2]
    have hfailed := fun msg =>
      @AcceptStep.failed k chan c c' t _ ci msg hcall hwait hid hselect hci
    exact hfailed _
  · obtain ⟨hfits3, hflush⟩ := channelOpen_flushes hh hspares hwrite hfits2 hlive2
    rw [enterState, if_neg (hne _ (by decide)), hhistory2] at hflush
    exact ⟨hfits3, @AcceptStep.opened k chan c c' t _ ci _ _ hcall hwait hid hselect hci hflush⟩

omit hh hspares hwrite in
theorem autoSelect_mem {c : MwChannel} {ci : MwCipherInstance} (h : ci ∈ autoSelect c) :
    ci ∈ c.supported.getD [] := by
  unfold autoSelect at h
  split at h
  · simp at h
  · split at h
    · exact List.mem_of_find?_eq_some h
    · split at h
      · exact List.mem_of_find?_eq_some h
      · exact List.mem_of_getLast? h

theorem accept_follows {c : MwChannel} (hc : s.channel? chan = some c) (hcall : k.calls .accept c) :
    Follows k chan s (mwChannelAccept h chan s).2 := by
  intro hs
  rw [mwChannelAccept, Session.bind_apply, deref_of_some hc]
  dsimp only
  rw [Session.ite_apply]
  split
  · exact ⟨hs, .refl⟩
  · rename_i hgo
    simp only [not_or, Bool.not_eq_true, not_not] at hgo
    have hid : mwChannelIdIsIncoming chan.id = true := by
      rw [mwChannelIdIsIncoming, hgo.1]
      rfl
    rw [view_of_some hc]
    cases hcipher : c.cipher with
    | some ci =>
      simp only [Option.isNone_some, Bool.false_eq_true, if_false]
      have haccept := sendAccept_accepts hh hspares hwrite (t := s.history chan) hcall hgo.2 hid hs hc
        (.inr ⟨by simp [hcipher], rfl⟩) hgo.2
      exact ⟨haccept.1, .single (.accept haccept.2)⟩
    | none =>
      simp only [Option.isNone_none, if_true]
      rw [Session.bind_apply]
      obtain ⟨hfits, c', hlive, hstate, hselects⟩ := select_selects hc hs
        fun ci hci => ⟨ci, autoSelect_mem hci, rfl⟩
      have haccept := sendAccept_accepts hh hspares hwrite hcall hgo.2 hid hfits hlive
        (.inl ⟨hcipher, hselects⟩) (hstate.trans hgo.2)
      exact ⟨haccept.1, .single (.accept haccept.2)⟩

end

end Meanwhile
