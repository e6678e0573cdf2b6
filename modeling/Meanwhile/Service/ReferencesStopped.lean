-- SUMMARY: When a service that has been stopped is left without an open channel and ready to start, in every run.
import Meanwhile.Service.ReferencesLinked

/-!
# Services that are stopped

A stop closes the channels that its service refers to. So it closes all of them if each
channel that is open is referred to by a holder of its service, and this is so as long as
references are good, the client does not slip, and a service that is told that a channel is
destroyed does not take another one for it.

Stops may be nested, in the functions of handlers and in those that are told that a channel is
destroyed. Each one that returns is in `stops`.
-/

namespace Meanwhile.Refs

/-- Channels that may be open are with holders of their services, and holders in service data
refer to their channels. -/
structure Kept (s : RefSide) : Prop where
  bound : ∀ chan, Bound s chan
  held : ∀ chan, Held s chan

/-- A service that does not look which of its channels is destroyed refers to no other. -/
def RefInput.Told (s : RefSide) : RefInput → Prop
  | .destroy id _ => ∀ x ∈ heedless, ∀ line, s.line id = some line → line.service = some x.kind →
      ∀ chan, s.channel x = some chan → chan.id = id
  | _ => True

/-- A run up to some state goes on to another. Unless the client slips, channels stay with their
holders, and stops leave their services shut exactly when they are timely. -/
structure Follows (s s' : RefSide) : Prop where
  sound : Sound s'
  slipped : s'.slipped = false → s.slipped = false
  kept : s'.slipped = false → Kept s → Kept s'
  stops : s'.slipped = false → Kept s → ∀ st ∈ s'.stops, st ∈ s.stops ∨ (st.Shut ↔ st.Timely)

theorem Advanced.follows {s s' : RefSide} (h : Advanced s s') : Follows s s' where
  sound := h.sound
  slipped := h.minds.slipped
  kept hs hkept := ⟨fun chan => h.minds.bound hs chan (hkept.bound chan),
    fun chan => h.minds.held hs chan (hkept.held chan)⟩
  stops hs hkept := h.minds.stops hs hkept.held

instance : IsTrans RefSide Follows where
  trans := by
    intro s t u hst htu
    refine ⟨htu.sound, fun h => hst.slipped (htu.slipped h), fun h hkept => ?_,
      fun h hkept st hmem => ?_⟩
    · exact htu.kept h (hst.kept (htu.slipped h) hkept)
    · rcases htu.stops h (hst.kept (htu.slipped h) hkept) st hmem with hmem | hiff
      · exact hst.stops (htu.slipped h) hkept st hmem
      · exact .inr hiff

section

variable {s : RefSide} {h : RefHooks} (hh : ∀ c, Keeps Evolves (h c))

/-- A channel that has ended and that nobody has to refer to is forgotten. -/
theorem kept_forget {t : RefSide} {x : Holder} {chan : ChanRef} {ended : RefLine}
    (hline : t.line? chan = some ended) (hended : ¬ ended.MayOpen chan.id)
    (hx : ∀ chan', t.channel x = some chan' → chan' = chan) :
    (∀ chan', chan' ≠ chan → Bound t chan' → Bound (t.setChannel x none) chan') ∧
      ((∀ chan', Held t chan') → ∀ chan', Held (t.setChannel x none) chan') := by
  have hstill : ∀ y chan', chan' ≠ chan → t.channel y = some chan' →
      (t.setChannel x none).channel y = some chan' := by
    intro y chan' hne hy
    change Function.update t.channel x none y = _
    rw [Function.update_of_ne, hy]
    rintro rfl
    exact hne (hx chan' hy)
  refine ⟨fun chan' hne hbound line y hline' hdata =>
      hstill y chan' hne (hbound line y hline' hdata),
    fun hheld chan' line k hline' hopen hservice => ?_⟩
  have hne : chan' ≠ chan := by
    rintro rfl
    obtain rfl := Option.some.inj (hline.symm.trans hline')
    exact hended hopen
  obtain ⟨y, hy, hchan⟩ := hheld chan' line k hline' hopen hservice
  exact ⟨y, hy, hstill y chan' hne hchan⟩

include hh

theorem follows_onDestroy (hs : Sound s) (id reason : UInt32)
    (hfair : RefInput.Fair s (.destroy id reason)) (htold : RefInput.Told s (.destroy id reason)) :
    Follows s (onDestroy h id reason s).2 := by
  have hsound := sound_onDestroy hh hs id reason hfair
  rcases onDestroy_cases hh hs id reason hfair with
    heq | ⟨line, ended, t, hat, hservice, hclosed, rfl, hline, hended, hgone⟩
  · rw [heq]
    exact Advanced.follows ⟨hs, Std.Refl.refl s⟩
  have hadvanced := (hended hs).advanced
  -- what is freed in the end
  have hremove : ∀ t : RefSide, Minds t (t.setLine id none) := fun t => minds_setLine t (by simp)
  rcases hgone with ⟨heq, -⟩ | ⟨x, rest, hx, hrest, heq, -, hknown⟩
  · rw [heq] at hsound ⊢
    exact Advanced.follows ⟨hsound, IsTrans.trans _ _ _ hadvanced.minds (hremove _)⟩
  rw [heq] at hsound ⊢
  have hminds := (hrest _ (hadvanced.sound.forget x)).minds
  -- the holder refers to no channel but the one that is destroyed
  have honly : Kept (s.setLine id (some ended)) → ∀ chan', s.channel x = some chan' →
      chan' = ⟨id, line.addr⟩ := by
    intro hkept chan' hchan'
    rcases hknown with hheedless | hbound
    · obtain ⟨line', hline', -⟩ := hadvanced.sound.serves x chan' hchan'
      exact eq_of_line? hline' hline (htold x hheedless line hat hx chan' hchan')
    · exact Option.some.inj (hchan'.symm.trans (hbound (hkept.bound _)))
  have hback : ((rest ((s.setLine id (some ended)).setChannel x none)).2.setLine id none).slipped =
      false → s.slipped = false := hminds.slipped
  refine ⟨hsound, hback, fun hslipped hkept => ?_, fun hslipped hkept => ?_⟩
  · have hkept := hadvanced.follows.kept (hback hslipped) hkept
    obtain ⟨hbound, hheld⟩ := kept_forget hline hclosed (honly hkept)
    refine ⟨fun chan' => ?_, fun chan' => ?_⟩
    · by_cases hid : chan'.id = id
      · -- it is gone
        intro line' y hline' _
        have hat' := (line?_eq_some.mp hline').1
        rw [hid, setLine_line_self] at hat'
        cases hat'
      · refine (hremove _).bound hslipped chan' (hminds.bound hslipped chan' ?_)
        exact hbound chan' (fun h => hid (congrArg ChanRef.id h)) (hkept.bound chan')
    · exact (hremove _).held hslipped chan' (hminds.held hslipped chan' (hheld hkept.held chan'))
  · have hkept' := hadvanced.follows.kept (hback hslipped) hkept
    obtain ⟨-, hheld⟩ := kept_forget hline hclosed (honly hkept')
    intro st hst
    rcases hminds.stops hslipped (hheld hkept'.held) st hst with hst | hiff
    · exact hadvanced.follows.stops (hback hslipped) hkept st hst
    · exact .inr hiff

/-- Every call, and every message that is for a channel its service knows -/
theorem follows_input (hs : Sound s) {i : RefInput} (hfair : i.Fair s) (htold : i.Told s) :
    Follows s (input h i s).2 := by
  cases i with
  | call c => exact (keeps_runCall hh c s hs).advanced.follows
  | create msg => exact (advanced_onCreate hh hs msg hfair).follows
  | accept id offered => exact (advanced_onAccept hh hs id offered hfair).follows
  | send id msg => exact (keeps_onSend hh id msg s hs).advanced.follows
  | destroy id reason => exact follows_onDestroy hh hs id reason hfair htold

end

/-! ## Stops that come back -/

section

variable {h : RefHooks} (hh : ∀ c, Keeps Evolves (h c)) {s : RefSide}

/-- An object that is freed is on the list of its service no more. -/
theorem freeObject_objects {x : Nat → Holder} {a : Nat} (hs : Listed s) :
    ((freeObject x a s).2.objects (x a).kind).Sublist (s.objects (x a).kind) ∧
      a ∉ (freeObject x a s).2.objects (x a).kind := by
  unfold freeObject
  rw [StateM.get_bind, StateM.ite_apply]
  split
  · have hobjects : (s.withoutObject x a).objects (x a).kind =
        (s.objects (x a).kind).filter (· ≠ a) := Function.update_self ..
    change ((s.withoutObject x a).objects (x a).kind).Sublist _ ∧
      a ∉ (s.withoutObject x a).objects (x a).kind
    rw [hobjects]
    exact ⟨List.filter_sublist, by simp⟩
  · rename_i hgone
    refine ⟨List.Sublist.refl _, fun ha => hgone ?_⟩
    obtain ⟨o, ho, hkind⟩ := hs.typed _ a ha
    rw [ho]
    simpa using hkind

/-- So is an object whose channel is destroyed before. -/
theorem closeFree_objects (x : Nat → Holder) (a : Nat) (hs : Sound s) :
    (((do discard (closeChannel (x a)); freeObject x a) s).2.objects (x a).kind).Sublist
        (s.objects (x a).kind) ∧
      a ∉ ((do discard (closeChannel (x a)); freeObject x a) s).2.objects (x a).kind := by
  have hfree := freeObject_objects (x := x) (a := a) (keeps_closeChannel (x a) s hs).sound.objects
  rw [(closeChannel_same ..).2] at hfree
  exact hfree

/-- A loop comes to its end if each round takes an object off the list. -/
theorem stopAll_returns {k : ServiceKind} {free : Nat → RefM Unit}
    (hkeeps : ∀ a, Keeps Evolves (free a))
    (hfree : ∀ s a, Sound s → a ∈ s.objects k →
      ((free a s).2.objects k).Sublist (s.objects k) ∧ a ∉ (free a s).2.objects k)
    {rounds : Nat} (hs : Sound s) (hrounds : (s.objects k).length < rounds) :
    (stopAll k free rounds s).1 = true := by
  induction rounds generalizing s with
  | zero => cases hrounds
  | succ rounds ih =>
    unfold stopAll
    rw [StateM.get_bind]
    cases hobjects : s.objects k with
    | nil => rfl
    | cons a as =>
      have ha : a ∈ s.objects k := by
        rw [hobjects]
        exact List.mem_cons_self
      obtain ⟨hsub, hgone⟩ := hfree s a hs ha
      refine ih (hkeeps a s hs).sound ?_
      have hne : ((free a s).2.objects k).length ≠ (s.objects k).length := by
        intro hlength
        rw [hsub.eq_of_length hlength] at hgone
        exact hgone ha
      have hle := hsub.length_le
      omega

include hh

/-- A stop comes back, however many objects there are, unless the client makes conversations while
they are closed. -/
theorem stop_returns {k : ServiceKind} (hs : Sound s)
    (hclient : k = .im → ∀ c s, ((h c s).2.objects .im).Sublist (s.objects .im))
    {rounds : Nat} (hrounds : (s.objects k).length < rounds) : (stop h rounds k s).1 = true := by
  cases k with
  | aware => rfl
  | storage => rfl
  | resolve => rfl
  | directory => rfl
  | fileTransfer =>
    refine stopAll_returns keeps_mwFileTransferFree (fun s a hs ha => ?_) hs hrounds
    obtain ⟨o, ho, hkind⟩ := hs.objects.typed _ a ha
    unfold mwFileTransferFree
    rw [StateM.get_bind, ho]
    cases o with
    | transfer state remaining => exact closeFree_objects .transfer a hs
    | _ => cases hkind
  | place =>
    refine stopAll_returns keeps_mwPlaceDestroy (fun s a hs ha => ?_) hs hrounds
    obtain ⟨o, ho, hkind⟩ := hs.objects.typed _ a ha
    unfold mwPlaceDestroy
    rw [StateM.get_bind, ho]
    cases o with
    | place => exact closeFree_objects .place a hs
    | _ => cases hkind
  | conference =>
    refine stopAll_returns keeps_mwConferenceDestroy (fun s a hs ha => ?_) hs hrounds
    obtain ⟨o, ho, hkind⟩ := hs.objects.typed _ a ha
    unfold mwConferenceDestroy
    rw [StateM.get_bind, ho]
    cases o with
    | conference state => exact closeFree_objects .conference a hs
    | _ => cases hkind
  | im =>
    refine stopAll_returns (keeps_mwConversationFree hh) (fun s a hs ha => ?_) hs hrounds
    obtain ⟨o, ho, hkind⟩ := hs.objects.typed _ a ha
    unfold mwConversationFree
    rw [StateM.get_bind, ho]
    cases o with
    | conversation target state features =>
      dsimp only
      rw [StateM.ite_apply]
      split
      · rw [StateM.bind_apply]
        have hfree := freeObject_objects (x := .conversation) (a := a)
          (keeps_mwConversationClose hh a 0 s hs).sound.objects
        refine ⟨hfree.1.trans ?_, hfree.2⟩
        unfold mwConversationClose
        rw [StateM.get_bind, ho]
        dsimp only
        rw [StateM.bind_apply, StateM.bind_apply, StateM.discard_apply]
        dsimp only
        rw [(closeChannel_same ..).2]
        exact hclient rfl _ _
      · exact freeObject_objects (x := .conversation) (hs.objects.congr (fun _ => rfl) rfl rfl)
    | _ => cases hkind

end

/-! ## Runs -/

/-- Every message of a run is fair, and a channel that it destroys is not taken for another. -/
def Orderly (h : RefHooks) : RefSide → List RefInput → Prop
  | _, [] => True
  | s, i :: inputs => (i.Fair s ∧ i.Told s) ∧ Orderly h (input h i s).2 inputs

theorem follows_run {h : RefHooks} (hh : ∀ c, Keeps Evolves (h c)) {s : RefSide} (hs : Sound s)
    {inputs : List RefInput} (horderly : Orderly h s inputs) : Follows s (run h s inputs) := by
  induction inputs generalizing s with
  | nil => exact Advanced.follows ⟨hs, Std.Refl.refl s⟩
  | cons i inputs ih =>
    have hstep := follows_input hh hs horderly.1.1 horderly.1.2
    exact IsTrans.trans _ _ _ hstep (ih hstep.sound horderly.2)

theorem kept_initial (features : UInt32) (placeInvite : Bool) (stat : MwUserStatus)
    (ret : Nat → Int) : Kept (.initial features placeInvite stat ret) where
  bound := fun _ _ _ h => by cases h
  held := fun _ _ _ h => by cases h

/-- In an orderly run in which the client does not slip, whatever it calls and when, a stop leaves
its service stopped, without an open channel and ready to start exactly when it is timely. -/
theorem run_shut_iff (client : RefClient) (depth : Nat) (features : UInt32) (placeInvite : Bool)
    (stat : MwUserStatus) (ret : Nat → Int) (inputs : List RefInput)
    (horderly : Orderly (hooks client depth) (.initial features placeInvite stat ret) inputs)
    (hslipped : (run (hooks client depth) (.initial features placeInvite stat ret) inputs).slipped =
      false) :
    ∀ st ∈ (run (hooks client depth) (.initial features placeInvite stat ret) inputs).stops,
      st.Shut ↔ st.Timely := by
  intro st hst
  have hfollows := follows_run (keeps_hooks client depth)
    (sound_initial features placeInvite stat ret) horderly
  rcases hfollows.stops hslipped (kept_initial ..) st hst with hst | hiff
  · cases hst
  · exact hiff

/-- The aware service and a conversation are up. The server destroys the channel of the one, and
the service of the other is stopped. -/
def evening : List RefInput :=
  [.call (.startService .aware), .accept 1 true, .destroy 1 0, .call (.startService .im),
    .call (.getConversation {}), .call (.openConversation 0), .accept 2 true,
    .call (.stopService .im 2)]

theorem run_shut_iff_evening :
    let s := run (hooks quiet 1) (.initial 1 false {} fun _ => 0) evening
    s.stops.map (·.kind) = [.im, .aware] ∧ ∀ st ∈ s.stops, st.Shut := by
  have horderly : Orderly (hooks quiet 1) (.initial 1 false {} fun _ => 0) evening := by
    refine ⟨⟨trivial, trivial⟩, ⟨fun x chan hx hid => ⟨by decide, ?_, rfl, rfl⟩, trivial⟩,
      ⟨fun x chan hx hid => rfl, fun x hx line hline hservice chan hchan => ?_⟩,
      ⟨trivial, trivial⟩, ⟨trivial, trivial⟩, ⟨trivial, trivial⟩,
      ⟨fun x chan hx hid => ⟨by decide, ?_, rfl, rfl⟩, trivial⟩, ⟨trivial, trivial⟩, trivial⟩
    · change ∀ line ∈ RefSide.line _ 1, line.state = .wait
      decide +kernel
    · -- of the services that do not look, it is the channel of the aware service
      obtain rfl := Option.some.inj hline
      simp only [heedless, List.mem_cons, List.not_mem_nil, or_false] at hx
      rcases hx with rfl | rfl | rfl
      · obtain rfl := Option.some.inj hchan
        rfl
      · cases hservice
      · cases hservice
    · change ∀ line ∈ RefSide.line _ 2, line.state = .wait
      decide +kernel
  refine ⟨by decide +kernel, fun st hst => ?_⟩
  have hiff := run_shut_iff quiet 1 1 false {} (fun _ => 0) evening horderly (by decide +kernel)
  refine (hiff st hst).mpr ?_
  have hfound : ∀ st ∈ (run (hooks quiet 1) (.initial 1 false {} fun _ => 0) evening).stops,
      st.found = .started ∧ st.kind ≠ .directory := by decide +kernel
  rw [Stop.Timely, (hfound st hst).1]
  exact ⟨by simp, (hfound st hst).2⟩

/-- The directory service is started, its channel is accepted, and it is stopped. -/
def directoryStopped : List RefInput :=
  [.call (.startService .directory), .accept 1 true, .call (.stopService .directory 0)]

theorem not_run_shut_directory :
    ¬ ∀ (client : RefClient) (depth : Nat) (features : UInt32) (placeInvite : Bool)
      (stat : MwUserStatus) (ret : Nat → Int) (inputs : List RefInput),
      ∀ st ∈ (run (hooks client depth) (.initial features placeInvite stat ret) inputs).stops,
        st.Shut := by
  intro hshut
  have hleft : ∃ st ∈ (run (hooks quiet 1) (.initial 1 false {} fun _ => 0) directoryStopped).stops,
      st.state = .stopping := by decide
  obtain ⟨st, hst, hstate⟩ := hleft
  have hstopped := (hshut quiet 1 1 false {} (fun _ => 0) directoryStopped st hst).state
  cases hstate.symm.trans hstopped

end Meanwhile.Refs
