-- SUMMARY: When every reference of a service to a channel is to a channel of its own that is still there, in every run.
import Meanwhile.Service.ReferencesKept

/-!
# References in runs

The messages of the server keep references good, but for those on which channel.c frees a
channel and tells no service: a `CHANNEL_CREATE` with the id of a channel in use, a
`CHANNEL_ACCEPT` that it does not expect, and what comes for a service that is not in the
session.
-/

namespace Meanwhile.Refs

open Im (ImCreate)

/-- After a message of the server references are good, and channels are with their holders. -/
structure Advanced (s s' : RefSide) : Prop where
  sound : Sound s'
  minds : Minds s s'

theorem Evolved.advanced {s s' : RefSide} (h : Evolved s s') : Advanced s s' := ⟨h.sound, h.minds⟩

theorem Advanced.evolves {s s' s'' : RefSide} (h : Advanced s s') (hrest : Evolves s' s'') :
    Advanced s s'' :=
  ⟨(hrest h.sound).sound, IsTrans.trans _ _ _ h.minds (hrest h.sound).minds⟩

theorem Advanced.trans {s s' s'' : RefSide} (h : Advanced s s') (hrest : Advanced s' s'') :
    Advanced s s'' :=
  ⟨hrest.sound, IsTrans.trans _ _ _ h.minds hrest.minds⟩

/-! ## Channels that nobody refers to -/

section

variable {s : RefSide} {chan : ChanRef} {line : RefLine} {x : Holder}

/-- A channel may change or go if no holder refers to one of its id. -/
theorem Sound.setLine (hs : Sound s) {id : UInt32} {line' : Option RefLine}
    (hunheld : ∀ x chan, s.channel x = some chan → chan.id ≠ id)
    (hfresh : ∀ line, line' = some line → line.addr < s.nextLine) : Sound (s.setLine id line') where
  fresh := by
    intro id' line hline
    by_cases hid : id' = id
    · rw [hid, setLine_line_self] at hline
      exact hfresh line hline
    · rw [setLine_line_of_ne s hid] at hline
      exact hs.fresh id' line hline
  serves := by
    intro x chan hx
    obtain ⟨line, hline, hserves⟩ := hs.serves x chan hx
    refine ⟨line, ?_, hserves.congr fun _ => .inl rfl⟩
    exact (line?_congr (setLine_line_of_ne s (hunheld x chan hx) _)).trans hline
  objects := hs.objects.congr (fun _ => rfl) rfl rfl
  found := hs.found
  live := hs.live

/-- No holder is to have a channel of an id that is new or gone, unless it may be open. -/
theorem minds_setLine (s : RefSide) {id : UInt32} {line' : Option RefLine}
    (hfree : ∀ line, line' = some line →
      line.srvcData = none ∧ (line.MayOpen id → line.service = none)) :
    Minds s (s.setLine id line') := by
  -- a channel afterwards is the new one or an old one
  have hback : ∀ chan line, (s.setLine id line').line? chan = some line →
      chan.id = id ∧ line' = some line ∨ s.line? chan = some line := by
    intro chan line hline
    by_cases hid : chan.id = id
    · refine .inl ⟨hid, ?_⟩
      rw [← (line?_eq_some.mp hline).1, hid, setLine_line_self]
    · exact .inr ((line?_congr (setLine_line_of_ne s hid _)).symm.trans hline)
  refine ⟨fun h => h, fun _ chan hbound line x hline hdata => ?_,
    fun _ chan hheld line k hline hopen hservice => ?_, fun _ _ _ hst => .inl hst⟩
  · rcases hback chan line hline with ⟨-, hnew⟩ | hline
    · rw [(hfree line hnew).1] at hdata
      cases hdata
    · exact hbound line x hline hdata
  · rcases hback chan line hline with ⟨rfl, hnew⟩ | hline
    · rw [(hfree line hnew).2 hopen] at hservice
      cases hservice
    · exact hheld line k hline hopen hservice

theorem Sound.id_ne_of_idle (hs : Sound s) (hidle : Idle s chan) (hx : s.channel x = some chan') :
    chan'.id ≠ chan.id := by
  intro hid
  obtain ⟨line, hline⟩ := Option.ne_none_iff_exists'.mp hidle.there
  obtain ⟨line', hline', -⟩ := hs.serves x chan' hx
  exact hidle.unheld x (eq_of_line? hline' hline hid ▸ hx)

theorem Sound.destroy (hs : Sound s) (hidle : Idle s chan) :
    Advanced s (mwChannelDestroy chan s).2 := by
  obtain ⟨line, hline⟩ := Option.ne_none_iff_exists'.mp hidle.there
  have hgone : Advanced s (s.setLine chan.id none) :=
    ⟨hs.setLine (fun x chan' hx => hs.id_ne_of_idle hidle hx) (by simp), minds_setLine s (by simp)⟩
  unfold mwChannelDestroy
  rw [StateM.get_bind, hline]
  exact hgone.evolves (keeps_write _)

/-- An object takes a channel of its service that nobody refers to. -/
theorem Sound.take (hs : Sound s) (hidle : Idle s chan) (hline : s.line? chan = some line)
    (hservice : line.service = some x.kind) {a : Nat} (hx : x.object? = some a)
    (hlisted : a ∈ s.objects x.kind) (hfree : s.channel x = none) :
    Advanced s (takeChannel x chan s).2 := by
  obtain ⟨hat, haddr⟩ := line?_eq_some.mp hline
  have htake : (takeChannel x chan s).2 = (s.setChannel x (some chan)).setLine chan.id
      (some { line with
        owner := some x, srvcData := if x.tagged then some x else line.srvcData }) := by
    unfold takeChannel
    rw [StateM.modify_bind, modifyLine_of_some (s := s.setChannel x (some chan)) hline]
  rw [htake]
  have hother : ∀ y chan', (s.setChannel x (some chan)).channel y = some chan' →
      y = x ∧ chan' = chan ∨ s.channel y = some chan' := by
    intro y chan' hy
    change Function.update s.channel x (some chan) y = _ at hy
    by_cases hyx : y = x
    · rw [hyx, Function.update_self] at hy
      exact .inl ⟨hyx, (Option.some.inj hy).symm⟩
    · rw [Function.update_of_ne hyx] at hy
      exact .inr hy
  have hstill : ∀ y chan', s.channel y = some chan' →
      (s.setChannel x (some chan)).channel y = some chan' := by
    intro y chan' hy
    change Function.update s.channel x (some chan) y = _
    rw [Function.update_of_ne, hy]
    rintro rfl
    rw [hfree] at hy
    cases hy
  have hgot : (s.setChannel x (some chan)).channel x = some chan := Function.update_self ..
  have hobject : x.isService = false := by
    cases x <;> simp_all [Holder.isService, Holder.object?]
  -- a channel afterwards is the one that is taken or an old one
  have hback : ∀ chan' line', RefSide.line? ((s.setChannel x (some chan)).setLine chan.id
      (some { line with owner := some x, srvcData := if x.tagged then some x else line.srvcData }))
        chan' = some line' →
      chan' = chan ∧ line' = { line with
        owner := some x, srvcData := if x.tagged then some x else line.srvcData } ∨
      s.line? chan' = some line' := by
    intro chan' line' hline'
    by_cases hid : chan'.id = chan.id
    · obtain ⟨hat', haddr'⟩ := line?_eq_some.mp hline'
      rw [hid, setLine_line_self] at hat'
      obtain rfl := Option.some.inj hat'
      refine .inl ⟨?_, rfl⟩
      obtain ⟨id, addr⟩ := chan
      obtain ⟨id', addr'⟩ := chan'
      obtain rfl : id' = id := hid
      obtain rfl : line.addr = addr := haddr
      obtain rfl : line.addr = addr' := haddr'
      rfl
    · exact .inr ((line?_congr (setLine_line_of_ne _ hid _)).symm.trans hline')
  refine ⟨⟨?_, ?_, hs.objects.congr (fun _ => rfl) rfl rfl, ?_, ?_⟩, id, ?_, ?_,
    fun _ _ _ hst => .inl hst⟩
  · intro id line' hline'
    by_cases hid : id = chan.id
    · rw [hid, setLine_line_self] at hline'
      obtain rfl := Option.some.inj hline'
      exact hs.fresh chan.id line hat
    · rw [setLine_line_of_ne _ hid] at hline'
      exact hs.fresh id line' hline'
  · intro y chan' hy
    rcases hother y chan' hy with ⟨rfl, rfl⟩ | hy'
    · refine ⟨_, line?_eq_some.mpr ⟨setLine_line_self .., haddr⟩, rfl, hservice, fun htagged => ?_,
        fun hservice => ?_⟩
      · exact if_pos htagged
      · rw [hobject] at hservice
        cases hservice
    · obtain ⟨line', hline', hserves⟩ := hs.serves y chan' hy'
      refine ⟨line', ?_, hserves.congr fun _ => .inl rfl⟩
      exact (line?_congr (setLine_line_of_ne _ (hs.id_ne_of_idle hidle hy') _)).trans hline'
  · intro y b hb hchan
    obtain ⟨chan', hchan'⟩ := Option.ne_none_iff_exists'.mp hchan
    rcases hother _ _ hchan' with ⟨rfl, -⟩ | hy'
    · exact Option.some.inj (hx.symm.trans hb) ▸ hlisted
    · exact hs.found y b hb (by rw [hy']; exact Option.some_ne_none _)
  · intro y hy hchan
    obtain ⟨chan', hchan'⟩ := Option.ne_none_iff_exists'.mp hchan
    rcases hother _ _ hchan' with ⟨rfl, -⟩ | hy'
    · rw [hobject] at hy
      cases hy
    · exact hs.live y hy (by rw [hy']; exact Option.some_ne_none _)
  · intro _ chan' hbound line' y hline' hdata
    rcases hback chan' line' hline' with ⟨rfl, rfl⟩ | hline'
    · by_cases htagged : x.tagged = true
      · obtain rfl : x = y := Option.some.inj ((if_pos htagged).symm.trans hdata)
        exact hgot
      · exact absurd (hbound line y hline ((if_neg htagged).symm.trans hdata)) (hidle.unheld y)
    · exact hstill y chan' (hbound line' y hline' hdata)
  · intro _ chan' hheld line' k hline' hopen hkind
    rcases hback chan' line' hline' with ⟨rfl, rfl⟩ | hline'
    · exact ⟨x, Option.some.inj (hservice.symm.trans hkind), hgot⟩
    · obtain ⟨y, hy, hchan⟩ := hheld line' k hline' hopen hkind
      exact ⟨y, hy, hstill y chan' hchan⟩

theorem takeChannel_channel (x : Holder) (chan : ChanRef) (s : RefSide) :
    (takeChannel x chan s).2.channel x = some chan := by
  unfold takeChannel
  rw [StateM.modify_bind]
  cases hline : (s.setChannel x (some chan)).line? chan with
  | none =>
    rw [modifyLine_of_none hline]
    exact Function.update_self ..
  | some line =>
    rw [modifyLine_of_some hline]
    exact Function.update_self ..

/-- A service is started once its channel is not waiting. -/
theorem Sound.started (hs : Sound s) (hx : x.isService = true) (hchan : s.channel x = some chan)
    (hline : s.line? chan = some line) (hstate : line.state ≠ .wait) :
    Advanced s (s.setState x.kind .started) := by
  refine ⟨⟨hs.fresh, fun y chan' hy => ?_, hs.objects.congr (fun _ => rfl) rfl rfl, hs.found,
    fun y hy hchan' => ?_⟩, id, fun _ _ hb => hb, fun _ _ hh => hh, fun _ _ _ hst => .inl hst⟩
  · obtain ⟨line', hline', hserves⟩ := hs.serves y chan' hy
    by_cases hkind : y.kind = x.kind
    · obtain rfl := Holder.eq_of_kind hx hkind
      obtain rfl := Option.some.inj (hchan.symm.trans hy)
      obtain rfl := Option.some.inj (hline.symm.trans hline')
      exact ⟨line, hline, hserves.owner, hserves.service, hserves.data, fun _ h => absurd h hstate⟩
    · exact ⟨line', hline', hserves.congr fun _ => .inl (Function.update_of_ne hkind _ _)⟩
  · by_cases hkind : y.kind = x.kind
    · rw [hkind]
      exact .inr (Function.update_self ..)
    · have hsame : (s.setState x.kind .started).state y.kind = s.state y.kind :=
        Function.update_of_ne hkind _ _
      rw [hsame]
      exact hs.live y hy hchan'

end

/-! ## Messages of the server about channels -/

/-- No channel of a holder is freed without its service being told: the id of a new channel
is not in use by one, and an acceptance is for a channel that waits for it, with a cipher
that has been offered. The service of the channel is there to be told. -/
def RefInput.Fair (s : RefSide) : RefInput → Prop
  | .call _ | .send .. => True
  | .create msg => ∀ x chan, s.channel x = some chan → chan.id ≠ msg.channel
  | .accept id offered => ∀ x chan, s.channel x = some chan → chan.id = id →
      mwChannelIdIsIncoming id = false ∧ (∀ line, s.line id = some line → line.state = .wait) ∧
        s.installed x.kind ∧ offered = true
  | .destroy id _ => ∀ x chan, s.channel x = some chan → chan.id = id → s.installed x.kind

section

variable {s : RefSide} {chan : ChanRef} {line : RefLine} {x : Holder}

theorem Sound.srvcData_eq (hs : Sound s) (hline : s.line? chan = some line)
    (hx : s.channel x = some chan) (htagged : x.tagged = true) : line.srvcData = some x := by
  obtain ⟨line', hline', hserves⟩ := hs.serves x chan hx
  obtain rfl := Option.some.inj (hline.symm.trans hline')
  exact hserves.data htagged

/-- `conf_find` finds the conference that refers to a channel. -/
theorem confFind_eq_some (hs : Sound s) {a : Nat} :
    confFind s chan = some a ↔ s.channel (.conference a) = some chan := by
  unfold confFind
  constructor
  · intro h
    simpa using List.find?_some h
  · intro ha
    cases hfind : (s.objects .conference).find? fun a => s.channel (.conference a) = some chan with
    | none =>
      have hmem := hs.found (.conference a) a rfl (by rw [ha]; exact Option.some_ne_none _)
      exact absurd ha (by simpa using List.find?_eq_none.mp hfind a hmem)
    | some b =>
      have hb : s.channel (.conference b) = some chan := by simpa using List.find?_some hfind
      exact congrArg some (Holder.conference.inj (hs.holder_unique hb ha))

theorem idle_forgetChannel (hline : s.line? chan = some line)
    (honly : ∀ y, s.channel y = some chan → y = x) : Idle (s.setChannel x none) chan where
  there := by
    change s.line? chan ≠ none
    rw [hline]
    exact Option.some_ne_none _
  unheld := by
    intro y hy
    change Function.update s.channel x none y = _ at hy
    by_cases hyx : y = x
    · rw [hyx, Function.update_self] at hy
      cases hy
    · rw [Function.update_of_ne hyx] at hy
      exact hyx (honly y hy)

section

variable {h : RefHooks} (hh : ∀ c, Keeps Evolves (h c))

include hh

omit hh in
/-- A service makes an object for a channel that it is offered. -/
theorem advanced_takeNew (hs : Sound s) (hidle : Idle s chan) (hline : s.line? chan = some line)
    (x : Nat → Holder) (o : Object) (hx : ∀ a, (x a).kind = o.kind ∧ (x a).object? = some a)
    (hservice : line.service = some o.kind) :
    Advanced s (takeChannel (x s.nextObject) chan (addObject x o s).2).2 := by
  have hadd := keeps_addObject x o hx s hs
  have hkind := (hx s.nextObject).1
  have hlisted := hadd.sound.objects.listed s.nextObject o (Function.update_self ..)
  exact hadd.advanced.trans (hadd.sound.take (hadd.idle chan hidle) hline (hkind ▸ hservice)
    (hx s.nextObject).2 (hkind ▸ hlisted) (Function.update_self ..))

theorem advanced_recvCreate (hs : Sound s) (hidle : Idle s chan) (hline : s.line? chan = some line)
    (msg : ImCreate) {k : ServiceKind} (hservice : line.service = some k) :
    Advanced s (recvCreate h chan msg k s).2 := by
  cases k with
  | im =>
    change Advanced s (imRecvChannelCreate h chan msg s).2
    unfold imRecvChannelCreate
    rw [StateM.get_bind]
    cases Im.refusal s.imSide msg with
    | some reason => exact hs.destroy hidle
    | none =>
      let o := Object.conversation msg.creator .pending (Im.createGet (.wrapOpaque msg.addtl)).1.2
      refine (advanced_takeNew hs hidle hline .conversation o (fun _ => ⟨rfl, rfl⟩)
        hservice).evolves ?_
      exact evolves_bind (evolves_mwChannelAccept hh (takeChannel_channel ..)) fun _ =>
        .ite (fun _ => keeps_mwConversationFree hh _) fun _ => keeps_convoOpened hh _
  | fileTransfer =>
    change Advanced s (ftRecvChannelCreate h chan msg s).2
    unfold ftRecvChannelCreate
    obtain ⟨size, b⟩ := transferGet (.wrapOpaque msg.addtl)
    dsimp only
    rw [StateM.ite_apply]
    split
    · exact hs.destroy hidle
    · refine (advanced_takeNew hs hidle hline .transfer (.transfer .new size) (fun _ => ⟨rfl, rfl⟩)
        hservice).evolves ?_
      exact Keeps.bind (keeps_ftState _ _) (fun _ => hh _) _
  | conference =>
    refine (advanced_takeNew hs hidle hline .conference (.conference .new) (fun _ => ⟨rfl, rfl⟩)
      hservice).evolves ?_
    refine (Keeps.ite (fun _ => keeps_mwConferenceDestroy _) fun _ => ?_ :
      Keeps Evolves (ite _ _ _)) _
    exact .bind (keeps_confState _ _) fun _ => hh _
  | aware => exact hs.destroy hidle
  | storage => exact hs.destroy hidle
  | resolve => exact hs.destroy hidle
  | directory => exact hs.destroy hidle
  | place => exact hs.destroy hidle

theorem advanced_onCreate (hs : Sound s) (msg : ImCreate)
    (hfair : ∀ x chan, s.channel x = some chan → chan.id ≠ msg.channel) :
    Advanced s (onCreate h msg s).2 := by
  -- the channel as it is when its service gets it
  let line : RefLine := { addr := s.nextLine, state := .wait, service := serviceKind? msg.service }
  let chan : ChanRef := ⟨msg.channel, s.nextLine⟩
  let made (line : RefLine) : RefSide :=
    { s.setLine msg.channel (some line) with nextLine := s.nextLine + 1 }
  have hmade : ∀ line : RefLine, line.addr = s.nextLine → line.srvcData = none →
      (line.MayOpen msg.channel → line.service = none) →
      Advanced s (made line) ∧ Idle (made line) chan := by
    intro line haddr hdata hopen
    have hgrown : Sound { s with nextLine := s.nextLine + 1 } :=
      ⟨fun id line hline => Nat.lt_succ_of_lt (hs.fresh id line hline),
        fun x chan hx => (hs.serves x chan hx).imp fun line hline =>
          ⟨hline.1, hline.2.congr fun _ => .inl rfl⟩,
        hs.objects.congr (fun _ => rfl) rfl rfl, hs.found, hs.live⟩
    refine ⟨⟨hgrown.setLine hfair fun line' hline' => ?_, ?_⟩, ?_, fun x hx => hfair x chan hx rfl⟩
    · obtain rfl := Option.some.inj hline'
      exact haddr ▸ Nat.lt_succ_self _
    · have hsame : Minds s { s with nextLine := s.nextLine + 1 } :=
        ⟨id, fun _ _ hb => hb, fun _ _ hh => hh, fun _ _ _ hst => .inl hst⟩
      refine IsTrans.trans _ _ _ hsame (minds_setLine _ fun line' hline' => ?_)
      obtain rfl := Option.some.inj hline'
      exact ⟨hdata, hopen⟩
    · exact Option.ne_none_iff_exists'.mpr
        ⟨line, line?_eq_some.mpr ⟨setLine_line_self s _ _, haddr⟩⟩
  have hincoming : (mwChannelNewIncoming msg.channel s) =
      (chan, made { addr := s.nextLine, state := .wait }) := rfl
  unfold onCreate
  rw [StateM.bind_apply, hincoming]
  dsimp only
  rw [StateM.ite_apply]
  split
  · obtain ⟨hnew, hidle⟩ := hmade { addr := s.nextLine, state := .wait } rfl rfl fun _ => rfl
    exact hnew.trans (hnew.sound.destroy hidle)
  · rename_i hincoming
    have hline : (made { addr := s.nextLine, state := .wait }).line? chan =
        some { addr := s.nextLine, state := .wait } :=
      line?_eq_some.mpr ⟨setLine_line_self s _ _, rfl⟩
    have hservice : (made { addr := s.nextLine, state := .wait }).setLine chan.id (some line) =
        made line := by
      simp [made, RefSide.setLine, chan, Function.update_idem]
    rw [StateM.bind_apply, modifyLine_of_some hline]
    have hopen : ¬ line.MayOpen msg.channel := by
      rintro (hopened | ⟨-, hout⟩)
      · cases hopened
      · exact hincoming (by simpa [mwChannelIdIsIncoming] using hout)
    obtain ⟨hnew, hidle⟩ := hmade line rfl rfl fun h => absurd h hopen
    rw [hservice, StateM.get_bind]
    refine hnew.trans ?_
    cases hkind : (serviceKind? msg.service).filter (made line).installed with
    | none => exact hnew.sound.destroy hidle
    | some k =>
      refine advanced_recvCreate hh hnew.sound hidle
        (line?_eq_some.mpr ⟨setLine_line_self s _ _, rfl⟩) msg ?_
      exact (Option.filter_eq_some_iff.mp hkind).1

theorem advanced_recvAccept (hs : Sound s) (hline : s.line? chan = some line) {k : ServiceKind}
    (hservice : line.service = some k) (hstate : line.state ≠ .wait)
    (hstarting : ∀ x : Holder, x.isService → s.channel x = some chan →
      s.state x.kind = .starting) :
    Advanced s (recvAccept h chan line.srvcData k s).2 := by
  have hsame : Advanced s s := ⟨hs, Std.Refl.refl s⟩
  -- the two ways in which a service with one channel takes the acceptance
  have hstarted : ∀ x : Holder, x.isService → s.channel x = some chan →
      Advanced s (mwServiceStarted x.kind s).2 := fun x hx hchan =>
    hs.started hx hchan hline hstate
  have hone : ∀ x : Holder, x.isService → Advanced s (recvAcceptStarting x chan s).2 := by
    intro x hx
    unfold recvAcceptStarting
    rw [StateM.get_bind, StateM.ite_apply]
    split
    · exact hsame
    · rename_i hchan
      rw [not_not] at hchan
      rw [if_pos (hstarting x hx hchan)]
      exact hstarted x hx hchan
  have halways : ∀ x : Holder, x.isService → Advanced s (recvAcceptAlways x chan s).2 := by
    intro x hx
    unfold recvAcceptAlways
    rw [StateM.get_bind, StateM.ite_apply]
    split
    · exact hsame
    · rename_i hchan
      exact hstarted x hx (not_not.mp hchan)
  cases k with
  | im =>
    cases hdata : line.srvcData with
    | some x =>
      cases x with
      | conversation a => exact (keeps_convoOpened hh a s hs).advanced
      | _ => exact hsame
    | none =>
      refine hs.destroy ⟨by rw [hline]; exact Option.some_ne_none _, fun x hx => ?_⟩
      have hkind := hs.kind_eq hline hservice hx
      rw [hs.srvcData_eq hline hx (Holder.tagged_iff.mpr (.inl hkind))] at hdata
      cases hdata
  | fileTransfer =>
    cases line.srvcData with
    | some x =>
      cases x with
      | transfer a => exact (Keeps.bind (keeps_ftState _ _) (fun _ => hh _) s hs).advanced
      | _ => exact hsame
    | none => exact hsame
  | place => exact hsame
  | conference => exact hsame
  | aware => exact hone .aware rfl
  | directory => exact hone .directory rfl
  | storage => exact halways .storage rfl
  | resolve => exact halways .resolve rfl

theorem advanced_onAccept (hs : Sound s) (id : UInt32) (offered : Bool)
    (hfair : RefInput.Fair s (.accept id offered)) : Advanced s (onAccept h id offered s).2 := by
  unfold onAccept
  rw [StateM.get_bind]
  cases hat : s.line id with
  | none => exact ⟨hs, Std.Refl.refl s⟩
  | some line =>
    dsimp only
    have hline : s.line? ⟨id, line.addr⟩ = some line := line?_eq_some.mpr ⟨hat, rfl⟩
    have hdestroy : (∀ x chan, s.channel x = some chan → chan.id ≠ id) →
        Advanced s (mwChannelDestroy ⟨id, line.addr⟩ s).2 := fun hunheld =>
      hs.destroy ⟨by rw [hline]; exact Option.some_ne_none _, fun x hx => hunheld x _ hx rfl⟩
    rw [StateM.ite_apply]
    split
    · rename_i hrefused
      refine hdestroy fun x chan hx hid => ?_
      obtain ⟨hincoming, hwait, -, -⟩ := hfair x chan hx hid
      rcases hrefused with h | h
      · rw [hincoming] at h
        cases h
      · exact h (hwait line hat)
    rename_i haccepted
    obtain ⟨hincoming, hwait⟩ := not_or.mp haccepted
    rw [not_not] at hwait
    rw [Bool.not_eq_true] at hincoming
    cases hservice : s.service line with
    | none =>
      refine hdestroy fun x chan hx hid => ?_
      obtain ⟨line', hline', hserves⟩ := hs.serves x chan hx
      obtain rfl : chan = ⟨id, line.addr⟩ := eq_of_line? hline' hline hid
      obtain rfl := Option.some.inj (hline.symm.trans hline')
      refine absurd hservice (Option.ne_none_iff_exists'.mpr ⟨x.kind, ?_⟩)
      exact Option.filter_eq_some_iff.mpr ⟨hserves.service, (hfair x _ hx rfl).2.2.1⟩
    | some k =>
      dsimp only
      rw [StateM.ite_apply]
      split
      · rename_i hoffered
        refine hdestroy fun x chan hx hid => ?_
        rw [(hfair x chan hx hid).2.2.2] at hoffered
        cases hoffered
      let opened : RefLine := { line with state := .opened }
      have hopened : Evolves s (s.setLine (⟨id, line.addr⟩ : ChanRef).id (some opened)) :=
        .of_line hline rfl rfl rfl rfl (by simp [opened]) fun _ => .inl (.inr ⟨hwait, hincoming⟩)
      have hline' : (s.setLine id (some opened)).line? ⟨id, line.addr⟩ = some opened :=
        line?_eq_some.mpr ⟨setLine_line_self .., rfl⟩
      rw [StateM.bind_apply, modifyLine_of_some hline]
      have htold : Advanced s (recvAccept h ⟨id, line.addr⟩ opened.srvcData k
          (s.setLine id (some opened))).2 := by
        refine (hopened hs).advanced.trans (advanced_recvAccept hh (hopened hs).sound hline'
          (Option.filter_eq_some_iff.mp hservice).1 (by simp [opened]) fun x hx hchan => ?_)
        obtain ⟨line'', hline'', hserves⟩ := hs.serves x _ hchan
        obtain rfl := Option.some.inj (hline.symm.trans hline'')
        exact hserves.starting hx hwait
      rw [StateM.bind_apply]
      refine htold.evolves ((Keeps.bind .get fun s' => ?_ : Keeps Evolves (_ >>= _)) _)
      split
      · exact .pure _
      · exact .ite (fun _ => keeps_flushChannel hh _) fun _ => .pure _

/-- The services that do not look which of their channels is destroyed -/
def heedless : List Holder := [.aware, .storage, .directory]

omit hh in
theorem idle_of_kind (hs : Sound s) (hline : s.line? chan = some line) {k : ServiceKind}
    (hservice : line.service = some k) (hk : ∀ x : Holder, x.kind = k → s.channel x ≠ some chan) :
    Idle s chan :=
  ⟨by rw [hline]; exact Option.some_ne_none _, fun x hx => hk x (hs.kind_eq hline hservice hx) hx⟩

/-- A service that is told that one of its channels is destroyed has nobody who refers to it, or
whoever does forgets it and the service goes on. The service need not look which channel it is. -/
theorem recvDestroy_cases (hs : Sound s) (hline : s.line? chan = some line) {k : ServiceKind}
    (hservice : line.service = some k) (state : MwChannelState) (reason : UInt32) :
    (recvDestroy h chan line.srvcData state reason k s).2 = s ∧ Idle s chan ∨
      ∃ x rest, x.kind = k ∧ Keeps Evolves rest ∧
        recvDestroy h chan line.srvcData state reason k s = (do forgetChannel x; rest) s ∧
        (∀ y, s.channel y = some chan → y = x) ∧
        (x ∈ heedless ∨ (Bound s chan → s.channel x = some chan)) := by
  have huntold : (∀ x : Holder, x.kind = k → s.channel x ≠ some chan) → Idle s chan :=
    fun hk => idle_of_kind hs hline hservice hk
  -- where the channels of a service have a pointer, it is to whoever refers to them
  have hdata : k = .im ∨ k = .fileTransfer ∨ k = .place → ∀ y, s.channel y = some chan →
      line.srvcData = some y := by
    intro hk y hchan
    have hy := hs.kind_eq hline hservice hchan
    exact hs.srvcData_eq hline hchan (Holder.tagged_iff.mpr (hy ▸ hk))
  have honly : ∀ x, line.srvcData = some x → (k = .im ∨ k = .fileTransfer ∨ k = .place) →
      ∀ y, s.channel y = some chan → y = x := fun x hx hk y hchan =>
    Option.some.inj ((hdata hk y hchan).symm.trans hx)
  have hnobody : (∀ x, line.srvcData = some x → x.kind ≠ k) →
      (k = .im ∨ k = .fileTransfer ∨ k = .place) → Idle s chan := fun hnone hk =>
    huntold fun y hy hchan => hnone y (hdata hk y hchan) hy
  have hone : ∀ x : Holder, x.isService → x.kind = k → ∀ y, s.channel y = some chan → y = x :=
    fun x hx hk y hchan => Holder.eq_of_kind hx ((hs.kind_eq hline hservice hchan).trans hk.symm)
  have hbound : ∀ x, line.srvcData = some x → Bound s chan → s.channel x = some chan :=
    fun x hx hb => hb line x hline hx
  cases k with
  | im =>
    cases hsrvc : line.srvcData with
    | none => exact .inl ⟨rfl, hnobody (by simp [hsrvc]) (by simp)⟩
    | some x =>
      cases x with
      | conversation a =>
        refine .inr ⟨.conversation a, _, rfl, .bind .get fun s' => ?_, rfl, honly _ hsrvc (by simp),
          .inr (hbound _ hsrvc)⟩
        split
        · exact .ite (fun _ => .bind (keeps_convoSetFeatures _ _) fun _ => keeps_convoCreateChan a)
            fun _ => keeps_mwConversationClose hh a reason
        · exact .pure _
      | _ => exact .inl ⟨rfl, hnobody (by simp [hsrvc, Holder.kind]) (by simp)⟩
  | fileTransfer =>
    cases hsrvc : line.srvcData with
    | none => exact .inl ⟨rfl, hnobody (by simp [hsrvc]) (by simp)⟩
    | some x =>
      cases x with
      | transfer a =>
        refine .inr ⟨.transfer a, _, rfl, .bind .get fun s' => ?_, rfl, honly _ hsrvc (by simp),
          .inr (hbound _ hsrvc)⟩
        have hclose := (keeps_mwFileTransferClose hh a reason).discard
        split
        · exact .ite (fun _ => .bind (keeps_ftState _ _) fun _ => hclose) fun _ => hclose
        · exact .pure _
      | _ => exact .inl ⟨rfl, hnobody (by simp [hsrvc, Holder.kind]) (by simp)⟩
  | place =>
    cases hsrvc : line.srvcData with
    | none => exact .inl ⟨rfl, hnobody (by simp [hsrvc]) (by simp)⟩
    | some x =>
      cases x with
      | place a =>
        refine .inr ⟨.place a, _, rfl, .bind .get fun s' => ?_, rfl, honly _ hsrvc (by simp),
          .inr (hbound _ hsrvc)⟩
        split
        · exact .bind (hh _) fun _ => keeps_mwPlaceDestroy a
        · exact .pure _
      | _ => exact .inl ⟨rfl, hnobody (by simp [hsrvc, Holder.kind]) (by simp)⟩
  | conference =>
    change (confRecvChannelDestroy h chan reason s).2 = s ∧ _ ∨
      ∃ x rest, _ ∧ _ ∧ confRecvChannelDestroy h chan reason s = _ ∧ _
    unfold confRecvChannelDestroy
    rw [StateM.get_bind]
    cases hfind : confFind s chan with
    | none =>
      refine .inl ⟨rfl, huntold fun y hy hchan => ?_⟩
      cases y with
      | conference a =>
        rw [(confFind_eq_some hs).mpr hchan] at hfind
        cases hfind
      | _ => cases hy
    | some a =>
      have ha := (confFind_eq_some hs).mp hfind
      refine .inr ⟨.conference a, _, rfl, ?_, rfl, fun y hchan => hs.holder_unique hchan ha,
        .inr fun _ => ha⟩
      exact .bind (keeps_confState _ _) fun _ => .bind (hh _) fun _ => keeps_mwConferenceDestroy a
  | aware =>
    exact .inr ⟨.aware, _, rfl, keeps_mwServiceStop hh 0 .aware, rfl, hone .aware rfl rfl,
      .inl (by simp [heedless])⟩
  | directory =>
    exact .inr ⟨.directory, _, rfl, keeps_mwServiceStop hh 0 .directory, rfl,
      hone .directory rfl rfl, .inl (by simp [heedless])⟩
  | storage =>
    exact .inr ⟨.storage, _, rfl, .bind (keeps_mwServiceStop hh 0 .storage) fun _ =>
      keeps_mwSessionSenseService, rfl, hone .storage rfl rfl, .inl (by simp [heedless])⟩
  | resolve =>
    change (resolveRecvDestroy h chan s).2 = s ∧ _ ∨
      ∃ x rest, _ ∧ _ ∧ resolveRecvDestroy h chan s = _ ∧ _
    unfold resolveRecvDestroy
    rw [StateM.get_bind, StateM.ite_apply]
    by_cases hchan : s.channel .resolve = some chan
    · rw [if_neg (not_not.mpr hchan)]
      exact .inr ⟨.resolve, _, rfl, .bind (keeps_mwServiceStop hh 0 .resolve) fun _ =>
        keeps_mwSessionSenseService, rfl, hone .resolve rfl rfl, .inr fun _ => hchan⟩
    · rw [if_pos hchan]
      refine .inl ⟨rfl, huntold fun y hy hheld => hchan ?_⟩
      rwa [← Holder.eq_of_kind (x := .resolve) rfl hy]

/-- A channel that the server destroys ends before it is freed. In between nobody refers to it, or
whoever does forgets it and goes on. -/
theorem onDestroy_cases (hs : Sound s) (id reason : UInt32)
    (hfair : ∀ x chan, s.channel x = some chan → chan.id = id → s.installed x.kind) :
    (onDestroy h id reason s).2 = s ∨
      ∃ line ended t, s.line id = some line ∧ ended.service = line.service ∧ ¬ ended.MayOpen id ∧
        t = s.setLine id (some ended) ∧ t.line? ⟨id, line.addr⟩ = some ended ∧ Evolves s t ∧
        ((onDestroy h id reason s).2 = t.setLine id none ∧ Idle t ⟨id, line.addr⟩ ∨
          ∃ (x : Holder) (rest : RefM Unit), line.service = some x.kind ∧ Keeps Evolves rest ∧
            (onDestroy h id reason s).2 = (rest (t.setChannel x none)).2.setLine id none ∧
            (∀ y, t.channel y = some ⟨id, line.addr⟩ → y = x) ∧
            (x ∈ heedless ∨
              (Bound t ⟨id, line.addr⟩ → t.channel x = some ⟨id, line.addr⟩))) := by
  unfold onDestroy
  rw [StateM.get_bind]
  cases hat : s.line id with
  | none => exact .inl rfl
  | some line =>
    right
    dsimp only
    generalize hstate : (if reason ≠ 0 then MwChannelState.error else .destroy) = state
    have hstate : state ≠ .opened ∧ state ≠ .wait := by
      rw [← hstate]
      split <;> simp
    let ended : RefLine := { line with state := state }
    have hline : s.line? ⟨id, line.addr⟩ = some line := line?_eq_some.mpr ⟨hat, rfl⟩
    have hclosed : ¬ ended.MayOpen id := by simp [RefLine.MayOpen, ended, hstate]
    have hended : Evolves s (s.setLine (⟨id, line.addr⟩ : ChanRef).id (some ended)) :=
      .of_line hline rfl rfl rfl rfl (fun h => absurd h hstate.2) fun h => absurd h hclosed
    have hline' : (s.setLine id (some ended)).line? ⟨id, line.addr⟩ = some ended :=
      line?_eq_some.mpr ⟨setLine_line_self .., rfl⟩
    rw [StateM.bind_apply, modifyLine_of_some hline]
    refine ⟨line, ended, _, rfl, rfl, hclosed, rfl, hline', hended, ?_⟩
    cases hservice : s.service line with
    | none =>
      refine .inl ⟨rfl, by rw [hline']; exact Option.some_ne_none _, fun x hx => ?_⟩
      obtain ⟨line'', hline'', hserves⟩ := hs.serves x _ hx
      obtain rfl := Option.some.inj (hline.symm.trans hline'')
      refine absurd hservice (Option.ne_none_iff_exists'.mpr ⟨x.kind, ?_⟩)
      exact Option.filter_eq_some_iff.mpr ⟨hserves.service, hfair x _ hx rfl⟩
    | some k =>
      have hk : line.service = some k := (Option.filter_eq_some_iff.mp hservice).1
      rcases recvDestroy_cases hh (hended hs).sound hline' hk state reason with
        ⟨heq, hidle⟩ | ⟨x, rest, hx, hrest, heq, honly, hknown⟩
      · exact .inl ⟨congrArg (RefSide.setLine · id none) heq, hidle⟩
      · refine .inr ⟨x, rest, hx ▸ hk, hrest, ?_, honly, hknown⟩
        exact congrArg (fun r : Unit × RefSide => r.2.setLine id none) heq

theorem sound_onDestroy (hs : Sound s) (id reason : UInt32)
    (hfair : ∀ x chan, s.channel x = some chan → chan.id = id → s.installed x.kind) :
    Sound (onDestroy h id reason s).2 := by
  -- the channel goes once nobody refers to it
  have hremove : ∀ t addr, Sound t → Idle t ⟨id, addr⟩ → Sound (t.setLine id none) :=
    fun t addr ht hidle => ht.setLine (fun x chan' hx => ht.id_ne_of_idle hidle hx) (by simp)
  rcases onDestroy_cases hh hs id reason hfair with
    heq | ⟨line, ended, t, -, -, -, -, hline, hended, hgone⟩
  · rw [heq]
    exact hs
  rcases hgone with ⟨heq, hidle⟩ | ⟨x, rest, -, hrest, heq, honly, -⟩
  · rw [heq]
    exact hremove t _ (hended hs).sound hidle
  · rw [heq]
    have hevolved := hrest _ ((hended hs).sound.forget x)
    exact hremove _ _ hevolved.sound (hevolved.idle _ (idle_forgetChannel hline honly))

theorem keeps_onSend (id : UInt32) (msg : Payload) : Keeps Evolves (onSend h id msg) := by
  refine .bind .get fun s => ?_
  split
  · exact .pure _
  · exact .ite (fun _ => keeps_channelRecv hh _ msg) fun _ =>
      keeps_modifyLine _ (fun _ => ⟨rfl, rfl, rfl, rfl⟩) fun _ => .inl rfl

/-- Every call, and every message that does not make channel.c free a channel in use, keeps
references good. -/
theorem sound_input (hs : Sound s) {i : RefInput} (hfair : i.Fair s) : Sound (input h i s).2 := by
  cases i with
  | call c => exact (keeps_runCall hh c s hs).sound
  | create msg => exact (advanced_onCreate hh hs msg hfair).sound
  | accept id offered => exact (advanced_onAccept hh hs id offered hfair).sound
  | send id msg => exact (keeps_onSend hh id msg s hs).sound
  | destroy id reason => exact sound_onDestroy hh hs id reason hfair

end

end

/-! ## Runs -/

/-- Every message of a run is fair in the state that it comes to. -/
def Fair (h : RefHooks) : RefSide → List RefInput → Prop
  | _, [] => True
  | s, i :: inputs => i.Fair s ∧ Fair h (input h i s).2 inputs

/-- Every reference of a holder is to a channel that is there, and that was made for the
holder or handed to it. -/
def Linked (s : RefSide) : Prop :=
  ∀ x chan, s.channel x = some chan → ∃ line, s.line? chan = some line ∧ line.owner = some x

theorem sound_initial (features : UInt32) (placeInvite : Bool) (stat : MwUserStatus)
    (ret : Nat → Int) : Sound (.initial features placeInvite stat ret) where
  fresh := fun _ _ h => by cases h
  serves := fun _ _ h => by cases h
  objects := ⟨nofun, nofun, fun _ _ h => absurd h List.not_mem_nil⟩
  found := fun _ _ _ h => absurd rfl h
  live := fun _ _ h => absurd rfl h

theorem sound_run {h : RefHooks} (hh : ∀ c, Keeps Evolves (h c)) {s : RefSide} (hs : Sound s)
    {inputs : List RefInput} (hfair : Fair h s inputs) (n : Nat) :
    Sound (run h s (inputs.take n)) := by
  induction inputs generalizing s n with
  | nil =>
    rw [List.take_nil]
    exact hs
  | cons i inputs ih =>
    cases n with
    | zero => exact hs
    | succ n => exact ih (sound_input hh hs hfair.1) hfair.2 n

/-- In a run whose messages are all fair, whatever the client does, references are good in
every state. -/
theorem run_linked (client : RefClient) (depth : Nat) (features : UInt32) (placeInvite : Bool)
    (stat : MwUserStatus) (ret : Nat → Int) (inputs : List RefInput)
    (hfair : Fair (hooks client depth) (.initial features placeInvite stat ret) inputs) (n : Nat) :
    Linked (run (hooks client depth) (.initial features placeInvite stat ret) (inputs.take n)) := by
  intro x chan hx
  have hsound := sound_run (keeps_hooks client depth) (sound_initial features placeInvite stat ret)
    hfair n
  obtain ⟨line, hline, hserves⟩ := hsound.serves x chan hx
  exact ⟨line, hline, hserves.owner⟩

/-- A client that never calls anything in its handlers -/
def quiet : RefClient := fun _ _ => []

/-- A conversation is opened, accepted and destroyed by the server. -/
def shortTalk : List RefInput :=
  [.call (.getConversation {}), .call (.openConversation 0), .accept 1 true, .destroy 1 0]

theorem run_linked_shortTalk :
    Fair (hooks quiet 1) (.initial 1 false {} fun _ => 0) shortTalk ∧
      Linked (run (hooks quiet 1) (.initial 1 false {} fun _ => 0) (shortTalk.take 3)) := by
  have hfair : Fair (hooks quiet 1) (.initial 1 false {} fun _ => 0) shortTalk := by
    refine ⟨trivial, trivial, fun x chan hx hid => ⟨by decide, fun line hline => ?_, rfl, rfl⟩,
      fun x chan hx hid => rfl, trivial⟩
    obtain rfl := Option.some.inj hline
    rfl
  exact ⟨hfair, run_linked quiet 1 1 false {} (fun _ => 0) shortTalk hfair 3⟩

/-- The aware service is started, and its channel accepted twice. -/
def acceptedTwice : List RefInput :=
  [.call (.startService .aware), .accept 1 true, .accept 1 true]

/-- The second acceptance destroys the channel, and the service still refers to it. -/
theorem not_run_linked_acceptedTwice :
    ¬ ∀ (client : RefClient) (depth : Nat) (features : UInt32) (placeInvite : Bool)
      (stat : MwUserStatus) (ret : Nat → Int) (inputs : List RefInput),
      Linked (run (hooks client depth) (.initial features placeInvite stat ret) inputs) := by
  intro hlinked
  have hgone : (run (hooks quiet 1) (.initial 1 false {} fun _ => 0) acceptedTwice).line 1 = none :=
    rfl
  obtain ⟨line, hline, -⟩ := hlinked quiet 1 1 false {} (fun _ => 0) acceptedTwice .aware ⟨1, 0⟩ rfl
  rw [line?_eq_some, hgone] at hline
  cases hline.1

end Meanwhile.Refs
