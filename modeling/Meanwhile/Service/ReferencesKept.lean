-- SUMMARY: What keeps the references of services to channels good: all that a client can call, and the messages on open channels.
import Meanwhile.Channel.Life
import Meanwhile.Service.References

/-!
# References that stay good

Each channel that a holder refers to is in the set of channels, was made for the holder
or handed to it, and belongs to its service. Whatever a client calls keeps this, and
leaves alone the channels that nobody refers to (`Evolves`). Both matter in the middle of
a message of the server, where the handlers of a client are called.

The other way around, a channel that is open is referred to by a holder of its service, as
long as the client does not slip (`Minds`). So a `stop`, which goes through the holders of its
service, leaves no open channel.
-/

namespace Meanwhile.Refs

open Im (MwConversationState ImCreate)
open Ft (MwFileTransferState)
open Opening (MwConferenceState)

/-! ## What holds of references -/

/-- A channel serves a holder. -/
structure RefLine.Serves (s : RefSide) (x : Holder) (line : RefLine) : Prop where
  owner : line.owner = some x
  service : line.service = some x.kind
  data : x.tagged → line.srvcData = some x
  starting : x.isService → line.state = .wait → s.state x.kind = .starting

/-- The objects that are there are those on the lists of their services. -/
structure Listed (s : RefSide) : Prop where
  young : ∀ a o, s.object a = some o → a < s.nextObject
  listed : ∀ a o, s.object a = some o → a ∈ s.objects o.kind
  typed : ∀ k a, a ∈ s.objects k → ∃ o, s.object a = some o ∧ o.kind = k

/-- The holders refer to channels that are there and serve them. An object that does is on the
list of its service, and a service with one channel that does is starting or started. -/
structure Sound (s : RefSide) : Prop where
  fresh : ∀ id line, s.line id = some line → line.addr < s.nextLine
  serves : ∀ x chan, s.channel x = some chan → ∃ line, s.line? chan = some line ∧ line.Serves s x
  objects : Listed s
  found : ∀ x a, x.object? = some a → s.channel x ≠ none → a ∈ s.objects x.kind
  live : ∀ x : Holder, x.isService → s.channel x ≠ none →
    s.state x.kind = .starting ∨ s.state x.kind = .started

/-- A channel that no holder refers to -/
structure Idle (s : RefSide) (chan : ChanRef) : Prop where
  there : s.line? chan ≠ none
  unheld : ∀ x, s.channel x ≠ some chan

/-- The channel is open, or the server can open it. -/
def RefLine.MayOpen (id : UInt32) (line : RefLine) : Prop :=
  line.state = .opened ∨ line.state = .wait ∧ mwChannelIdIsIncoming id = false

/-- If the channel may be open some time, a holder of its service refers to it. -/
def Held (s : RefSide) (chan : ChanRef) : Prop :=
  ∀ line k, s.line? chan = some line → line.MayOpen chan.id → line.service = some k →
    ∃ x : Holder, x.kind = k ∧ s.channel x = some chan

/-- The holder in the service data of the channel refers to it. -/
def Bound (s : RefSide) (chan : ChanRef) : Prop :=
  ∀ line x, s.line? chan = some line → line.srvcData = some x → s.channel x = some chan

/-! ## What a stop is for -/

/-- None of the channels of a service is open. -/
def NoneOpen (line : UInt32 → Option RefLine) (k : ServiceKind) : Prop :=
  ∀ id l, line id = some l → l.service = some k → l.state ≠ .opened

/-- The stop has left the service stopped and without an open channel, and the service can be
started again. -/
structure Stop.Shut (st : Stop) : Prop where
  state : st.state = .stopped
  closed : NoneOpen st.line st.kind
  restarts : ∀ s : RefSide, s.state st.kind = st.state →
    mwServiceStart st.kind s = start st.kind (s.setState st.kind .starting)

/-- The service was not in the middle of a stop, nor was it the directory service, or it was
stopped already and had no open channel. -/
def Stop.Timely (st : Stop) : Prop :=
  if st.found = .stopped then NoneOpen st.lineFound st.kind
  else st.found ≠ .stopping ∧ st.kind ≠ .directory

/-- Unless a client slips, channels stay with their holders, and stops leave their services shut
exactly when they are timely. -/
structure Minds (s s' : RefSide) : Prop where
  slipped : s'.slipped = false → s.slipped = false
  bound : s'.slipped = false → ∀ chan, Bound s chan → Bound s' chan
  held : s'.slipped = false → ∀ chan, Held s chan → Held s' chan
  stops : s'.slipped = false → (∀ chan, Held s chan) →
    ∀ st ∈ s'.stops, st ∈ s.stops ∨ (st.Shut ↔ st.Timely)

/-- References stay good, nothing becomes of a channel that nobody refers to, and channels stay
with their holders. -/
structure Evolved (s s' : RefSide) : Prop where
  sound : Sound s'
  idle : ∀ chan, Idle s chan → Idle s' chan
  minds : Minds s s'

def Evolves (s s' : RefSide) : Prop := Sound s → Evolved s s'

instance : Std.Refl Minds where
  refl := fun _ => ⟨id, fun _ _ hb => hb, fun _ _ hh => hh, fun _ _ _ hst => .inl hst⟩

instance : IsTrans RefSide Minds where
  trans := by
    intro s t u hst htu
    refine ⟨fun h => hst.slipped (htu.slipped h), fun h chan hb => ?_, fun h chan hh => ?_, ?_⟩
    · exact htu.bound h chan (hst.bound (htu.slipped h) chan hb)
    · exact htu.held h chan (hst.held (htu.slipped h) chan hh)
    · intro h hheld st hmem
      have ht := htu.slipped h
      obtain hmem | hiff := htu.stops h (fun chan => hst.held ht chan (hheld chan)) st hmem
      · exact hst.stops ht hheld st hmem
      · exact .inr hiff

instance : Std.Refl Evolves where
  refl := fun s hs => ⟨hs, fun _ hidle => hidle, Std.Refl.refl s⟩

instance : IsTrans RefSide Evolves where
  trans := fun _ _ _ hst htu hs =>
    let ht := hst hs
    let hu := htu ht.sound
    ⟨hu.sound, fun chan hidle => hu.idle chan (ht.idle chan hidle),
      IsTrans.trans _ _ _ ht.minds hu.minds⟩

/-! ## Channels by their pointers -/

@[simp] theorem setLine_line_self (s : RefSide) (id : UInt32) (line : Option RefLine) :
    (s.setLine id line).line id = line := Function.update_self ..

theorem setLine_line_of_ne (s : RefSide) {id id' : UInt32} (h : id' ≠ id) (line : Option RefLine) :
    (s.setLine id line).line id' = s.line id' := Function.update_of_ne h _ _

section

variable {s s' : RefSide} {chan : ChanRef} {line : RefLine} {x y : Holder}

theorem line?_eq_some :
    s.line? chan = some line ↔ s.line chan.id = some line ∧ line.addr = chan.addr := by
  simp [RefSide.line?, Option.filter_eq_some_iff]

theorem line?_congr (h : s'.line chan.id = s.line chan.id) : s'.line? chan = s.line? chan := by
  unfold RefSide.line?
  rw [h]

/-- Two pointers to the channels of one id are the same. -/
theorem eq_of_line? {chan' : ChanRef} {line' : RefLine} (h : s.line? chan = some line)
    (h' : s.line? chan' = some line') (hid : chan.id = chan'.id) : chan = chan' := by
  obtain ⟨hline, haddr⟩ := line?_eq_some.mp h
  obtain ⟨hline', haddr'⟩ := line?_eq_some.mp h'
  rw [hid, hline'] at hline
  obtain rfl := Option.some.inj hline
  cases chan
  cases chan'
  simp_all

theorem Holder.eq_of_kind (hx : x.isService = true) (h : y.kind = x.kind) : y = x := by
  cases x <;> cases y <;> simp_all [Holder.isService, Holder.kind]

theorem Holder.eq_of_object? {a : Nat} (hx : x.object? = some a) (hy : y.object? = some a)
    (h : y.kind = x.kind) : y = x := by
  cases x <;> cases y <;> simp_all [Holder.object?, Holder.kind]

theorem Holder.tagged_iff :
    x.tagged = true ↔ x.kind = .im ∨ x.kind = .fileTransfer ∨ x.kind = .place := by
  cases x <;> simp [Holder.tagged, Holder.kind]

/-- A channel serves one holder only. -/
theorem RefLine.Serves.holder_unique (hx : line.Serves s x) (hy : line.Serves s y) : x = y :=
  Option.some.inj (hx.owner.symm.trans hy.owner)

theorem RefLine.Serves.congr (h : line.Serves s x)
    (hstate : x.isService → s'.state x.kind = s.state x.kind ∨ s'.state x.kind = .starting) :
    line.Serves s' x where
  owner := h.owner
  service := h.service
  data := h.data
  starting := fun hx hwait => (hstate hx).elim (fun heq => heq.trans (h.starting hx hwait)) id

/-- Two holders never share a channel. -/
theorem Sound.holder_unique (hs : Sound s) (hx : s.channel x = some chan)
    (hy : s.channel y = some chan) : x = y := by
  obtain ⟨line, hline, hserves⟩ := hs.serves x chan hx
  obtain ⟨line', hline', hserves'⟩ := hs.serves y chan hy
  obtain rfl := Option.some.inj (hline.symm.trans hline')
  exact hserves.holder_unique hserves'

/-- Whoever refers to a channel of a service belongs to it. -/
theorem Sound.kind_eq (hs : Sound s) (hline : s.line? chan = some line) {k : ServiceKind}
    (hservice : line.service = some k) (hx : s.channel x = some chan) : x.kind = k := by
  obtain ⟨line', hline', hserves⟩ := hs.serves x chan hx
  obtain rfl := Option.some.inj (hline.symm.trans hline')
  exact Option.some.inj (hserves.service.symm.trans hservice)

/-- Nothing depends on more than the kinds of the objects. -/
theorem Listed.congr (h : Listed s)
    (hobject : ∀ a, (s'.object a).map Object.kind = (s.object a).map Object.kind)
    (hnext : s'.nextObject = s.nextObject) (hobjects : s'.objects = s.objects) : Listed s' := by
  have hback : ∀ a o, s'.object a = some o → ∃ o', s.object a = some o' ∧ o'.kind = o.kind := by
    intro a o ho
    have ha := hobject a
    rw [ho, Option.map_some] at ha
    obtain ⟨o', ho', hkind⟩ := Option.map_eq_some_iff.mp ha.symm
    exact ⟨o', ho', hkind⟩
  refine ⟨fun a o ho => ?_, fun a o ho => ?_, fun k a ha => ?_⟩
  · obtain ⟨o', ho', -⟩ := hback a o ho
    exact hnext ▸ h.young a o' ho'
  · obtain ⟨o', ho', hkind⟩ := hback a o ho
    rw [hobjects, ← hkind]
    exact h.listed a o' ho'
  · rw [hobjects] at ha
    obtain ⟨o, ho, rfl⟩ := h.typed k a ha
    have ha' := hobject a
    rw [ho, Option.map_some] at ha'
    exact Option.map_eq_some_iff.mp ha'

end

/-! ## Steps that keep references good -/

theorem ne_none_of_held {s s' : RefSide} {x : Holder}
    (hheld : ∀ chan, s'.channel x = some chan → s.channel x = some chan)
    (hx : s'.channel x ≠ none) : s.channel x ≠ none := by
  obtain ⟨chan, hchan⟩ := Option.ne_none_iff_exists'.mp hx
  rw [hheld chan hchan]
  exact Option.some_ne_none _

namespace Evolves

variable {s s' : RefSide} {chan : ChanRef} {x : Holder}

/-- The channels are as before, and each holder refers to what it did or to nothing. -/
theorem of_channels (hline : s'.line = s.line) (hnext : s'.nextLine = s.nextLine)
    (hchannel : ∀ x, s'.channel x = s.channel x ∨ s'.channel x = none)
    (hstate : ∀ x : Holder, x.isService → s'.channel x ≠ none →
      s'.state x.kind = s.state x.kind ∨ s'.state x.kind = .starting)
    (hobjects : Listed s → Listed s')
    (hfound : ∀ x a, x.object? = some a → s'.channel x ≠ none → a ∈ s.objects x.kind →
      a ∈ s'.objects x.kind)
    (hslipped : s'.slipped = false → s.slipped = false)
    (hkept : Sound s → s'.slipped = false → s'.channel = s.channel) (hstops : s'.stops = s.stops) :
    Evolves s s' := by
  intro hs
  have hheld : ∀ x chan, s'.channel x = some chan → s.channel x = some chan := by
    intro x chan hx
    rcases hchannel x with h | h
    · exact h ▸ hx
    · rw [h] at hx
      cases hx
  have hsome : ∀ x, s'.channel x ≠ none → s.channel x ≠ none := fun x =>
    ne_none_of_held (hheld x)
  have hline? : ∀ chan, s'.line? chan = s.line? chan := fun chan =>
    line?_congr (congrFun hline chan.id)
  refine ⟨⟨?_, ?_, hobjects hs.objects, ?_, ?_⟩, ?_, hslipped, ?_, ?_, ?_⟩
  · rw [hline, hnext]
    exact hs.fresh
  · intro x chan hx
    obtain ⟨line, hline, hserves⟩ := hs.serves x chan (hheld x chan hx)
    refine ⟨line, (hline? chan).trans hline, hserves.congr fun hservice => ?_⟩
    exact hstate x hservice (by rw [hx]; exact Option.some_ne_none _)
  · intro x a hx hchan
    exact hfound x a hx hchan (hs.found x a hx (hsome x hchan))
  · intro x hx hchan
    rcases hstate x hx hchan with h | h
    · rw [h]
      exact hs.live x hx (hsome x hchan)
    · exact .inl h
  · intro chan hidle
    refine ⟨by rw [hline?]; exact hidle.there, fun x hx => hidle.unheld x (hheld x chan hx)⟩
  · intro hs' chan hbound line x hline hdata
    rw [hkept hs hs']
    exact hbound line x ((hline? chan).symm.trans hline) hdata
  · intro hs' chan hheld line k hline hopen hservice
    rw [hkept hs hs']
    exact hheld line k ((hline? chan).symm.trans hline) hopen hservice
  · intro _ _ st hst
    exact .inl (hstops ▸ hst)

/-- Nothing changes that references have to do with. -/
theorem of_same (hline : s'.line = s.line) (hnext : s'.nextLine = s.nextLine)
    (hchannel : s'.channel = s.channel) (hstate : s'.state = s.state)
    (hobject : ∀ a, (s'.object a).map Object.kind = (s.object a).map Object.kind)
    (hnextObject : s'.nextObject = s.nextObject) (hobjects : s'.objects = s.objects)
    (hslipped : s'.slipped = false → s.slipped = false) (hstops : s'.stops = s.stops) :
    Evolves s s' :=
  of_channels hline hnext (fun x => .inl (congrFun hchannel x))
    (fun x _ _ => .inl (congrFun hstate x.kind)) (fun h => h.congr hobject hnextObject hobjects)
    (fun _ _ _ _ ha => hobjects ▸ ha) hslipped (fun _ _ => hchannel) hstops

/-- The channel of a holder is destroyed, and the holder forgets it. -/
theorem of_closed (hchan : s.channel x = some chan)
    (hline : s'.line = Function.update s.line chan.id none) (hnext : s'.nextLine = s.nextLine)
    (hchannel : s'.channel = Function.update s.channel x none)
    (hstate : ∀ y : Holder, y.isService → y ≠ x → s'.state y.kind = s.state y.kind)
    (hobject : s'.object = s.object) (hnextObject : s'.nextObject = s.nextObject)
    (hobjects : s'.objects = s.objects) (hslipped : s'.slipped = s.slipped)
    (hstops : s'.stops = s.stops) : Evolves s s' := by
  intro hs
  obtain ⟨line, hthere, -⟩ := hs.serves x chan hchan
  have hother : ∀ y chan', s'.channel y = some chan' → y ≠ x ∧ s.channel y = some chan' := by
    intro y chan' hy
    rw [hchannel] at hy
    by_cases hyx : y = x
    · rw [hyx, Function.update_self] at hy
      cases hy
    · exact ⟨hyx, by rwa [Function.update_of_ne hyx] at hy⟩
  have hsome : ∀ y, s'.channel y ≠ none → y ≠ x ∧ s.channel y ≠ none := by
    intro y hy
    refine ⟨?_, ne_none_of_held (fun chan' h => (hother y chan' h).2) hy⟩
    rintro rfl
    exact hy (by rw [hchannel, Function.update_self])
  have hkept : ∀ chan', chan' ≠ chan → s.line? chan' ≠ none → s'.line? chan' = s.line? chan' := by
    intro chan' hne hsome
    obtain ⟨line', hline'⟩ := Option.ne_none_iff_exists'.mp hsome
    apply line?_congr
    rw [hline, Function.update_of_ne fun hid => hne (eq_of_line? hline' hthere hid)]
  -- a channel that is left is another one, and whoever refers to it still does
  have hleft : ∀ chan' line', s'.line? chan' = some line' → s.line? chan' = some line' ∧
      ∀ y, s.channel y = some chan' → s'.channel y = some chan' := by
    intro chan' line' hline'
    have hid : chan'.id ≠ chan.id := by
      intro hid
      have hat := (line?_eq_some.mp hline').1
      rw [hline, hid, Function.update_self] at hat
      cases hat
    have hne : chan' ≠ chan := fun h => hid (congrArg ChanRef.id h)
    refine ⟨?_, fun y hy => ?_⟩
    · rwa [line?_congr (s := s) (by rw [hline, Function.update_of_ne hid])] at hline'
    · have hyx : y ≠ x := by
        rintro rfl
        exact hne (Option.some.inj (hy.symm.trans hchan))
      rwa [hchannel, Function.update_of_ne hyx]
  refine ⟨⟨?_, ?_, ?_, ?_, ?_⟩, ?_, fun h => hslipped ▸ h, ?_, ?_, ?_⟩
  · intro id line' hline'
    rw [hline] at hline'
    by_cases hid : id = chan.id
    · rw [hid, Function.update_self] at hline'
      cases hline'
    · rw [Function.update_of_ne hid] at hline'
      rw [hnext]
      exact hs.fresh id line' hline'
  · intro y chan' hy
    obtain ⟨hyx, hy'⟩ := hother y chan' hy
    obtain ⟨line', hline', hserves⟩ := hs.serves y chan' hy'
    have hne : chan' ≠ chan := fun h => hyx (hs.holder_unique hy' (h ▸ hchan))
    refine ⟨line', ?_, hserves.congr fun hservice => .inl (hstate y hservice hyx)⟩
    rw [hkept chan' hne (by rw [hline']; exact Option.some_ne_none _)]
    exact hline'
  · exact hs.objects.congr (fun a => by rw [hobject]) hnextObject hobjects
  · intro y a hy hchan'
    rw [hobjects]
    exact hs.found y a hy (hsome y hchan').2
  · intro y hy hchan'
    rw [hstate y hy (hsome y hchan').1]
    exact hs.live y hy (hsome y hchan').2
  · intro chan' hidle
    have hne : chan' ≠ chan := fun h => hidle.unheld x (h ▸ hchan)
    refine ⟨by rw [hkept chan' hne hidle.there]; exact hidle.there, fun y hy => ?_⟩
    exact hidle.unheld y (hother y chan' hy).2
  · intro _ chan' hbound line' y hline' hdata
    obtain ⟨hline', hstill⟩ := hleft chan' line' hline'
    exact hstill y (hbound line' y hline' hdata)
  · intro _ chan' hheld line' k hline' hopen hservice
    obtain ⟨hline', hstill⟩ := hleft chan' line' hline'
    obtain ⟨y, hkind, hy⟩ := hheld line' k hline' hopen hservice
    exact ⟨y, hkind, hstill y hy⟩
  · exact fun _ _ st hst => .inl (hstops ▸ hst)

/-- A channel changes in ways that do not matter to its holder. If it is opened it has one. -/
theorem of_line {line line' : RefLine} (hthere : s.line? chan = some line)
    (haddr : line'.addr = line.addr) (howner : line'.owner = line.owner)
    (hservice : line'.service = line.service) (hdata : line'.srvcData = line.srvcData)
    (hwait : line'.state = .wait → line.state = .wait)
    (hopen : line'.MayOpen chan.id → line.MayOpen chan.id ∨ ∃ x, s.channel x = some chan) :
    Evolves s (s.setLine chan.id (some line')) := by
  intro hs
  obtain ⟨hline, hat⟩ := line?_eq_some.mp hthere
  have hself : (s.setLine chan.id (some line')).line? chan = some line' :=
    line?_eq_some.mpr ⟨setLine_line_self .., haddr.trans hat⟩
  have hkept : ∀ chan' line'', s.line? chan' = some line'' →
      (chan' = chan ∧ line'' = line ∧ (s.setLine chan.id (some line')).line? chan' = some line') ∨
        (s.setLine chan.id (some line')).line? chan' = some line'' := by
    intro chan' line'' hline''
    by_cases hid : chan'.id = chan.id
    · obtain rfl := eq_of_line? hline'' hthere hid
      exact .inl ⟨rfl, Option.some.inj (hline''.symm.trans hthere), hself⟩
    · exact .inr ((line?_congr (setLine_line_of_ne s hid _)).trans hline'')
  have hback : ∀ chan' line'', (s.setLine chan.id (some line')).line? chan' = some line'' →
      chan' = chan ∧ line'' = line' ∨ s.line? chan' = some line'' := by
    intro chan' line'' hline''
    by_cases hid : chan'.id = chan.id
    · obtain rfl := eq_of_line? hline'' hself hid
      exact .inl ⟨rfl, Option.some.inj (hline''.symm.trans hself)⟩
    · exact .inr ((line?_congr (setLine_line_of_ne s hid _)).symm.trans hline'')
  refine ⟨⟨?_, ?_, hs.objects.congr (fun _ => rfl) rfl rfl, hs.found, hs.live⟩, ?_, id, ?_, ?_,
    fun _ _ _ hst => .inl hst⟩
  · intro id line'' hline''
    by_cases hid : id = chan.id
    · rw [hid, setLine_line_self] at hline''
      obtain rfl := Option.some.inj hline''
      exact haddr ▸ hs.fresh chan.id line hline
    · rw [setLine_line_of_ne s hid] at hline''
      exact hs.fresh id line'' hline''
  · intro y chan' hy
    obtain ⟨line'', hline'', hserves⟩ := hs.serves y chan' hy
    rcases hkept chan' line'' hline'' with ⟨-, rfl, hline'⟩ | hline'
    · exact ⟨line', hline', howner.trans hserves.owner, hservice.trans hserves.service,
        fun h => hdata.trans (hserves.data h), fun h hw => hserves.starting h (hwait hw)⟩
    · exact ⟨line'', hline', hserves.owner, hserves.service, hserves.data, hserves.starting⟩
  · intro chan' hidle
    obtain ⟨line'', hline''⟩ := Option.ne_none_iff_exists'.mp hidle.there
    refine ⟨?_, hidle.unheld⟩
    rcases hkept chan' line'' hline'' with ⟨-, -, hline'⟩ | hline'
    · rw [hline']
      exact Option.some_ne_none _
    · rw [hline']
      exact Option.some_ne_none _
  · intro _ chan' hbound line'' y hline'' hsrvc
    rcases hback chan' line'' hline'' with ⟨rfl, rfl⟩ | hline''
    · exact hbound line y hthere (hdata ▸ hsrvc)
    · exact hbound line'' y hline'' hsrvc
  · intro _ chan' hheld line'' k hline'' hmay hkind
    rcases hback chan' line'' hline'' with ⟨rfl, rfl⟩ | hline''
    · rw [hservice] at hkind
      rcases hopen hmay with hmay | ⟨x, hx⟩
      · exact hheld line k hthere hmay hkind
      · exact ⟨x, hs.kind_eq hthere hkind hx, hx⟩
    · exact hheld line'' k hline'' hmay hkind

end Evolves

/-! ## A new channel -/

/-- What a new channel of a holder changes, which the holder keeps if it could be created -/
structure Opens (s : RefSide) (x : Holder) (ret : Int) (s' : RefSide) : Prop where
  line : ∃ id line, s.line id = none ∧ s'.line = Function.update s.line id (some line) ∧
    line.addr = s.nextLine ∧ line.owner = some x ∧ line.service = some x.kind ∧
    (ret = 0 → x.tagged → line.srvcData = some x) ∧
    (∀ y, line.srvcData = some y → ret = 0 ∧ y = x) ∧ (line.MayOpen id → ret = 0) ∧
    s'.channel = if ret = 0 then Function.update s.channel x (some ⟨id, s.nextLine⟩) else s.channel
  nextLine : s'.nextLine = s.nextLine + 1
  object : s'.object = s.object
  nextObject : s'.nextObject = s.nextObject
  objects : s'.objects = s.objects
  state : s'.state = s.state
  slipped : s'.slipped = s.slipped
  stops : s'.stops = s.stops

/-- What a holder must be to open a channel -/
structure Ready (s : RefSide) (x : Holder) : Prop where
  starting : x.isService → s.state x.kind = .starting
  listed : ∀ a, x.object? = some a → a ∈ s.objects x.kind
  free : s.slipped = false → s.channel x = none

theorem Opens.evolves {s s' : RefSide} {x : Holder} {ret : Int} (h : Opens s x ret s')
    (hready : ret = 0 → Ready s x) : Evolves s s' := by
  intro hs
  obtain ⟨id, line, hfree, hline, haddr, howner, hservice, hdata, htied, hmay, hchannel⟩ := h.line
  have hold : ∀ chan, s.line? chan ≠ none → s'.line? chan = s.line? chan := by
    intro chan hsome
    obtain ⟨line', hline'⟩ := Option.ne_none_iff_exists'.mp hsome
    apply line?_congr
    rw [hline, Function.update_of_ne]
    rintro rfl
    rw [(line?_eq_some.mp hline').1] at hfree
    cases hfree
  have hnew : s'.line? ⟨id, s.nextLine⟩ = some line :=
    line?_eq_some.mpr ⟨(congrFun hline id).trans (Function.update_self ..), haddr⟩
  -- a channel afterwards is the new one or an old one
  have hback : ∀ chan line', s'.line? chan = some line' →
      chan = ⟨id, s.nextLine⟩ ∧ line' = line ∨ s.line? chan = some line' := by
    intro chan line' hline'
    by_cases hid : chan.id = id
    · obtain rfl := eq_of_line? hline' hnew hid
      exact .inl ⟨rfl, Option.some.inj (hline'.symm.trans hnew)⟩
    · refine .inr ((line?_congr ?_).symm.trans hline')
      rw [hline, Function.update_of_ne hid]
  -- and so is a reference
  have hheld : ∀ y chan, s'.channel y = some chan →
      s.channel y = some chan ∨ ret = 0 ∧ y = x ∧ chan = ⟨id, s.nextLine⟩ := by
    intro y chan hy
    rw [hchannel] at hy
    split at hy
    · by_cases hyx : y = x
      · rw [hyx, Function.update_self] at hy
        exact .inr ⟨‹_›, hyx, (Option.some.inj hy).symm⟩
      · rw [Function.update_of_ne hyx] at hy
        exact .inl hy
    · exact .inl hy
  have hsome : ∀ y, s'.channel y ≠ none → s.channel y ≠ none ∨ ret = 0 ∧ y = x := by
    intro y hy
    obtain ⟨chan, hchan⟩ := Option.ne_none_iff_exists'.mp hy
    rcases hheld y chan hchan with hy' | ⟨hret, hyx, -⟩
    · exact .inl (by rw [hy']; exact Option.some_ne_none _)
    · exact .inr ⟨hret, hyx⟩
  -- nobody loses a channel, since the holder had none
  have hstill : s'.slipped = false →
      ∀ y chan, s.channel y = some chan → s'.channel y = some chan := by
    intro hslipped y chan hy
    rw [hchannel]
    split
    · rename_i hret
      rw [Function.update_of_ne, hy]
      rintro rfl
      rw [(hready hret).free (h.slipped ▸ hslipped)] at hy
      cases hy
    · exact hy
  have hgot : ret = 0 → s'.channel x = some ⟨id, s.nextLine⟩ := by
    intro hret
    rw [hchannel, if_pos hret, Function.update_self]
  refine ⟨⟨?_, ?_, ?_, ?_, ?_⟩, ?_, fun hslipped => h.slipped ▸ hslipped, ?_, ?_, ?_⟩
  · intro id' line' hline'
    rw [hline] at hline'
    rw [h.nextLine]
    by_cases hid : id' = id
    · rw [hid, Function.update_self] at hline'
      obtain rfl := Option.some.inj hline'
      omega
    · rw [Function.update_of_ne hid] at hline'
      exact Nat.lt_succ_of_lt (hs.fresh id' line' hline')
  · intro y chan hy
    rcases hheld y chan hy with hy' | ⟨hret, rfl, rfl⟩
    · obtain ⟨line', hline', hserves⟩ := hs.serves y chan hy'
      refine ⟨line', ?_, hserves.congr fun _ => .inl (congrFun h.state y.kind)⟩
      rw [hold chan (by rw [hline']; exact Option.some_ne_none _)]
      exact hline'
    · refine ⟨line, hnew, howner, hservice, hdata hret, fun hx _ => ?_⟩
      exact (congrFun h.state y.kind).trans ((hready hret).starting hx)
  · exact hs.objects.congr (fun a => by rw [h.object]) h.nextObject h.objects
  · intro y a hy hchan
    rw [h.objects]
    rcases hsome y hchan with hchan | ⟨hret, rfl⟩
    · exact hs.found y a hy hchan
    · exact (hready hret).listed a hy
  · intro y hy hchan
    rw [h.state]
    rcases hsome y hchan with hchan | ⟨hret, rfl⟩
    · exact hs.live y hy hchan
    · exact .inl ((hready hret).starting hy)
  · intro chan hidle
    refine ⟨by rw [hold chan hidle.there]; exact hidle.there, fun y hy => ?_⟩
    rcases hheld y chan hy with hy' | ⟨-, -, rfl⟩
    · exact hidle.unheld y hy'
    · obtain ⟨line', hline'⟩ := Option.ne_none_iff_exists'.mp hidle.there
      rw [(line?_eq_some.mp hline').1] at hfree
      cases hfree
  · intro hslipped chan hbound line' y hline' hsrvc
    rcases hback chan line' hline' with ⟨rfl, rfl⟩ | hline'
    · obtain ⟨hret, rfl⟩ := htied y hsrvc
      exact hgot hret
    · exact hstill hslipped y chan (hbound line' y hline' hsrvc)
  · intro hslipped chan hheld' line' k hline' hopen hkind
    rcases hback chan line' hline' with ⟨rfl, rfl⟩ | hline'
    · exact ⟨x, Option.some.inj (hservice.symm.trans hkind), hgot (hmay hopen)⟩
    · obtain ⟨y, hy, hchan⟩ := hheld' line' k hline' hopen hkind
      exact ⟨y, hy, hstill hslipped y chan hchan⟩
  · exact fun _ _ st hst => .inl (h.stops ▸ hst)

theorem modifyLine_of_some {s : RefSide} {chan : ChanRef} {line : RefLine}
    (h : s.line? chan = some line) (f : RefLine → RefLine) :
    modifyLine chan f s = ((), s.setLine chan.id (some (f line))) := by
  unfold modifyLine
  rw [StateM.get_bind, h]
  rfl

theorem modifyLine_of_none {s : RefSide} {chan : ChanRef} (h : s.line? chan = none)
    (f : RefLine → RefLine) : modifyLine chan f s = ((), s) := by
  unfold modifyLine
  rw [StateM.get_bind, h]
  rfl

/-- A session with a new channel of a holder -/
def RefSide.outgoing (s : RefSide) (x : Holder) (id : UInt32) : RefSide :=
  { s.setLine id (some { addr := s.nextLine, state := .init, service := some x.kind,
                         owner := some x }) with
    counter := id, nextLine := s.nextLine + 1 }

theorem mwChannelNewOutgoing_cases (x : Holder) (s : RefSide) :
    mwChannelNewOutgoing x s = (none, s) ∨
      ∃ id, s.line id = none ∧
        mwChannelNewOutgoing x s = (some ⟨id, s.nextLine⟩, s.outgoing x id) := by
  unfold mwChannelNewOutgoing
  rw [StateM.get_bind]
  cases hid : nextOutgoingId (fun id => (s.line id).map fun line => { addr := line.addr }) (2 ^ 32)
    s.counter with
  | none => exact .inl rfl
  | some id =>
    refine .inr ⟨id, ?_, ?_⟩
    · simpa using nextOutgoingId_free hid
    · simp [mwChannelNewIncoming, modifyLine, RefSide.outgoing, RefSide.setLine, RefSide.line?,
        Option.filter_some]

/-- A new channel of a holder has one of three states. -/
theorem mwChannelCreate_cases {s : RefSide} {chan : ChanRef} {line : RefLine}
    (h : s.line? chan = some line) (hinit : line.state = .init) :
    ∃ ret state writes, mwChannelCreate chan s =
      (ret, { s.setLine chan.id (some { line with state := state }) with writes := writes }) ∧
      (ret = 0 ∨ state = .error ∨ state = .init) := by
  unfold mwChannelCreate
  split
  · refine ⟨s.ret s.writes, if s.ret s.writes ≠ 0 then .error else .wait, s.writes + 1, ?_, ?_⟩
    · rw [StateM.bind_apply]
      change ((modifyLine chan fun line =>
        { line with state := if s.ret s.writes ≠ 0 then .error else .wait }) >>=
          fun _ => pure (s.ret s.writes)) { s with writes := s.writes + 1 } = _
      rw [StateM.bind_apply, modifyLine_of_some (s := { s with writes := s.writes + 1 }) h]
      rfl
    · by_cases hret : s.ret s.writes = 0
      · exact .inl hret
      · exact .inr (.inl (if_pos hret))
  · refine ⟨-1, line.state, s.writes, ?_, .inr (.inr hinit)⟩
    have hsame : s.setLine chan.id (some line) = s := by
      unfold RefSide.setLine
      rw [← (line?_eq_some.mp h).1, Function.update_eq_self]
    exact congrArg (Prod.mk (-1 : Int)) hsame.symm

theorem openChannel_cases (x : Holder) (s : RefSide) :
    openChannel x s = (none, s) ∨
      ∃ ret s', openChannel x s = (some ret, s') ∧ Opens s x ret s' := by
  unfold openChannel
  rw [StateM.bind_apply]
  rcases mwChannelNewOutgoing_cases x s with hnone | ⟨id, hfree, hnew⟩
  · rw [hnone]
    exact .inl rfl
  right
  rw [hnew]
  dsimp only
  have hthere : (s.outgoing x id).line? ⟨id, s.nextLine⟩ =
      some { addr := s.nextLine, state := .init, service := some x.kind, owner := some x } :=
    line?_eq_some.mpr ⟨Function.update_self .., rfl⟩
  obtain ⟨ret, state, writes, hcreate, hstate⟩ := mwChannelCreate_cases hthere rfl
  rw [StateM.bind_apply, hcreate]
  dsimp only
  let line : RefLine :=
    { addr := s.nextLine, state := state, service := some x.kind, owner := some x }
  have hupdate : ∀ line : RefLine, Function.update (s.outgoing x id).line id (some line) =
      Function.update s.line id (some line) := fun line => Function.update_idem ..
  by_cases hret : ret = 0
  · subst hret
    rw [if_pos rfl, StateM.modify_bind]
    by_cases htagged : x.tagged = true
    · rw [if_pos htagged, StateM.bind_apply, modifyLine_of_some
        (show _ = some line from line?_eq_some.mpr ⟨Function.update_self .., rfl⟩)]
      refine ⟨0, _, rfl, ⟨⟨id, { line with srvcData := some x }, hfree, ?_, rfl, rfl, rfl,
        fun _ _ => rfl, fun y hy => ⟨rfl, (Option.some.inj hy).symm⟩, fun _ => rfl, rfl⟩,
        rfl, rfl, rfl, rfl, rfl, rfl, rfl⟩⟩
      exact (Function.update_idem ..).trans (hupdate _)
    · rw [if_neg htagged]
      exact ⟨0, _, rfl, ⟨⟨id, line, hfree, hupdate _, rfl, rfl, rfl, fun _ h => absurd h htagged,
        fun y hy => absurd hy.symm (Option.some_ne_none y), fun _ => rfl, rfl⟩,
        rfl, rfl, rfl, rfl, rfl, rfl, rfl⟩⟩
  · rw [if_neg hret]
    have hmay : ¬ line.MayOpen id := by
      rcases hstate.resolve_left hret with rfl | rfl <;> simp [RefLine.MayOpen, line]
    refine ⟨ret, _, rfl, ⟨⟨id, line, hfree, hupdate _, rfl, rfl, rfl, fun h => absurd h hret,
      fun y hy => absurd hy.symm (Option.some_ne_none y), fun h => absurd h hmay, ?_⟩,
      rfl, rfl, rfl, rfl, rfl, rfl, rfl⟩⟩
    rw [if_neg hret]
    rfl

/-! ## The smallest parts -/

theorem keeps_write : Keeps Evolves write :=
  fun _ => .of_same rfl rfl rfl rfl (fun _ => rfl) rfl rfl id rfl

theorem keeps_mwSessionSenseService : Keeps Evolves mwSessionSenseService := keeps_write.discard

theorem keeps_slip (b : Bool) : Keeps Evolves (slip b) := by
  refine fun s => .of_same rfl rfl rfl rfl (fun _ => rfl) rfl rfl (fun h => ?_) rfl
  exact (Bool.or_eq_false_iff.mp h).1

/-- Who has not slipped had no channel. -/
theorem channel_of_slip {s : RefSide} {x : Holder}
    (h : (slip (s.channel x).isSome s).2.slipped = false) : s.channel x = none := by
  have hnone : (s.channel x).isSome = false := (Bool.or_eq_false_iff.mp h).2
  exact Option.isNone_iff_eq_none.mp (Option.isSome_eq_false_iff.mp hnone)

theorem keeps_modifyLine (chan : ChanRef) {f : RefLine → RefLine}
    (hkept : ∀ line, (f line).addr = line.addr ∧ (f line).owner = line.owner ∧
      (f line).service = line.service ∧ (f line).srvcData = line.srvcData)
    (hstate : ∀ line, (f line).state = line.state ∨ (f line).state = .error) :
    Keeps Evolves (modifyLine chan f) := by
  intro s
  cases hline : s.line? chan with
  | none =>
    rw [modifyLine_of_none hline]
    exact Std.Refl.refl s
  | some line =>
    obtain ⟨haddr, howner, hservice, hdata⟩ := hkept line
    rw [modifyLine_of_some hline]
    refine .of_line hline haddr howner hservice hdata (fun hwait => ?_) fun hopen => .inl ?_
    · rcases hstate line with h | h
      · exact h.symm.trans hwait
      · rw [h] at hwait
        cases hwait
    · rcases hstate line with h | h
      · rwa [RefLine.MayOpen, h] at hopen
      · rw [RefLine.MayOpen, h] at hopen
        rcases hopen with hopen | ⟨hwait, -⟩
        · cases hopen
        · cases hwait

/-- What becomes of objects has nothing to do with references, if they are of the same kind
afterwards. -/
theorem keeps_modifyObject (a : Nat) {f : Object → Object} (hf : ∀ o, (f o).kind = o.kind) :
    Keeps Evolves (modifyObject a f) := by
  refine fun s => .of_same rfl rfl rfl rfl (fun b => ?_) rfl rfl id rfl
  change (Function.update s.object a ((s.object a).map f) b).map Object.kind = _
  by_cases hba : b = a
  · rw [hba, Function.update_self]
    cases s.object a with
    | none => rfl
    | some o => exact congrArg some (hf o)
  · rw [Function.update_of_ne hba]

/-- The next object has no channel. -/
theorem Sound.channel_next {s : RefSide} (hs : Sound s) {x : Holder}
    (hx : x.object? = some s.nextObject) : s.channel x = none := by
  by_contra hchan
  obtain ⟨o, ho, -⟩ := hs.objects.typed _ _ (hs.found x _ hx hchan)
  exact Nat.lt_irrefl _ (hs.objects.young _ o ho)

theorem Listed.withObject {s : RefSide} (h : Listed s) {x : Nat → Holder} {o : Object}
    (hx : (x s.nextObject).kind = o.kind) : Listed (s.withObject x o) := by
  have hobject : (s.withObject x o).object = Function.update s.object s.nextObject (some o) := rfl
  have hobjects : (s.withObject x o).objects =
      Function.update s.objects o.kind (s.nextObject :: s.objects o.kind) := by
    rw [← hx]
    rfl
  have hold : ∀ k a, a ∈ s.objects k → a ∈ (s.withObject x o).objects k := by
    intro k a ha
    rw [hobjects]
    by_cases hk : k = o.kind
    · rw [hk, Function.update_self]
      exact List.mem_cons_of_mem _ (hk ▸ ha)
    · rwa [Function.update_of_ne hk]
  refine ⟨fun a o' ho => ?_, fun a o' ho => ?_, fun k a ha => ?_⟩
  · rw [hobject] at ho
    by_cases hnew : a = s.nextObject
    · exact hnew ▸ Nat.lt_succ_self _
    · rw [Function.update_of_ne hnew] at ho
      exact Nat.lt_succ_of_lt (h.young a o' ho)
  · rw [hobject] at ho
    by_cases hnew : a = s.nextObject
    · rw [hnew, Function.update_self] at ho
      obtain rfl := Option.some.inj ho
      rw [hobjects, Function.update_self, hnew]
      exact List.mem_cons_self
    · rw [Function.update_of_ne hnew] at ho
      exact hold _ a (h.listed a o' ho)
  · have hcases : k = o.kind ∧ a = s.nextObject ∨ a ∈ s.objects k := by
      rw [hobjects] at ha
      by_cases hk : k = o.kind
      · rw [hk, Function.update_self] at ha
        rcases List.mem_cons.mp ha with rfl | ha
        · exact .inl ⟨hk, rfl⟩
        · exact .inr (hk ▸ ha)
      · rw [Function.update_of_ne hk] at ha
        exact .inr ha
    rw [hobject]
    rcases hcases with ⟨rfl, rfl⟩ | ha
    · exact ⟨o, Function.update_self .., rfl⟩
    · obtain ⟨o', ho', hkind⟩ := h.typed k a ha
      refine ⟨o', ?_, hkind⟩
      rw [Function.update_of_ne (Nat.ne_of_lt (h.young a o' ho')), ho']

theorem keeps_addObject (x : Nat → Holder) (o : Object)
    (hx : ∀ a, (x a).kind = o.kind ∧ (x a).object? = some a) : Keeps Evolves (addObject x o) := by
  intro s hs
  have hsame : (s.withObject x o).channel = s.channel := by
    change Function.update s.channel (x s.nextObject) none = s.channel
    rw [← hs.channel_next (hx s.nextObject).2, Function.update_eq_self]
  have hnew : Evolves s (s.withObject x o) := by
    refine .of_channels rfl rfl (fun y => .inl (congrFun hsame y)) (fun _ _ _ => .inl rfl)
      (fun h => h.withObject (hx s.nextObject).1) (fun y a _ _ ha => ?_) id (fun _ _ => hsame) rfl
    change a ∈ Function.update s.objects _ _ _
    by_cases hkind : y.kind = (x s.nextObject).kind
    · rw [hkind, Function.update_self, ← hkind]
      exact List.mem_cons_of_mem _ ha
    · rwa [Function.update_of_ne hkind]
  exact hnew hs

theorem keeps_mwFileTransferNew (filesize : UInt32) : Keeps Evolves (mwFileTransferNew filesize) :=
  keeps_addObject _ _ fun _ => ⟨rfl, rfl⟩

theorem keeps_mwPlaceNew : Keeps Evolves mwPlaceNew := keeps_addObject _ _ fun _ => ⟨rfl, rfl⟩

theorem keeps_mwConferenceNew : Keeps Evolves mwConferenceNew :=
  keeps_addObject _ _ fun _ => ⟨rfl, rfl⟩

/-- Whoever is on a list stays there, but for the object that is freed. -/
theorem mem_withoutObject {s : RefSide} {x : Nat → Holder} {a b : Nat} {k : ServiceKind}
    (hmem : b ∈ s.objects k) (hne : k = (x a).kind → b ≠ a) :
    b ∈ (s.withoutObject x a).objects k := by
  change b ∈ Function.update s.objects _ _ _
  by_cases hkind : k = (x a).kind
  · rw [hkind, Function.update_self, ← hkind]
    exact List.mem_filter.mpr ⟨hmem, by simpa using hne hkind⟩
  · rwa [Function.update_of_ne hkind]

theorem Listed.withoutObject {s : RefSide} (h : Listed s) {x : Nat → Holder} {a : Nat} {o : Object}
    (ho : s.object a = some o) (hx : (x a).kind = o.kind) : Listed (s.withoutObject x a) := by
  have hobject : (s.withoutObject x a).object = Function.update s.object a none := rfl
  refine ⟨fun b o' hb => ?_, fun b o' hb => ?_, fun k b hb => ?_⟩
  · rw [hobject] at hb
    by_cases hba : b = a
    · rw [hba, Function.update_self] at hb
      cases hb
    · rw [Function.update_of_ne hba] at hb
      exact h.young b o' hb
  · rw [hobject] at hb
    by_cases hba : b = a
    · rw [hba, Function.update_self] at hb
      cases hb
    · rw [Function.update_of_ne hba] at hb
      exact mem_withoutObject (h.listed b o' hb) fun _ => hba
  · have hcases : b ∈ s.objects k ∧ (k = (x a).kind → b ≠ a) := by
      change b ∈ Function.update s.objects _ _ _ at hb
      by_cases hkind : k = (x a).kind
      · rw [hkind, Function.update_self] at hb
        obtain ⟨hmem, hne⟩ := List.mem_filter.mp hb
        exact ⟨hkind ▸ hmem, fun _ => by simpa using hne⟩
      · rw [Function.update_of_ne hkind] at hb
        exact ⟨hb, fun heq => absurd heq hkind⟩
    obtain ⟨hmem, hne⟩ := hcases
    obtain ⟨o', ho', hk⟩ := h.typed k b hmem
    refine ⟨o', ?_, hk⟩
    rw [hobject, Function.update_of_ne ?_, ho']
    rintro rfl
    obtain rfl := Option.some.inj (ho.symm.trans ho')
    exact hne (hk.symm.trans hx.symm) rfl

/-- An object is freed. If nobody has slipped it has no channel. -/
theorem evolves_freeObject {s : RefSide} {x : Nat → Holder} {a : Nat}
    (hobject : (x a).object? = some a) (hfree : s.slipped = false → s.channel (x a) = none) :
    Evolves s (freeObject x a s).2 := by
  unfold freeObject
  rw [StateM.get_bind, StateM.ite_apply]
  split
  case isFalse => exact Std.Refl.refl s
  case isTrue hthere =>
  obtain ⟨o, ho, hkind⟩ := (Option.any_eq_true _ _).mp hthere
  have hx : (x a).kind = o.kind := (of_decide_eq_true hkind).symm
  change Evolves s (s.withoutObject x a)
  refine .of_channels rfl rfl (fun y => ?_) (fun _ _ _ => .inl rfl)
    (fun h => h.withoutObject ho hx) (fun y b hy hchan hmem => ?_) id (fun _ hslipped => ?_) rfl
  · by_cases hy : y = x a
    · exact .inr (hy ▸ Function.update_self ..)
    · exact .inl (Function.update_of_ne hy _ _)
  · refine mem_withoutObject hmem fun hkind hba => hchan ?_
    rw [Holder.eq_of_object? hobject (hba ▸ hy) hkind]
    exact Function.update_self ..
  · change Function.update s.channel (x a) none = s.channel
    rw [← hfree hslipped, Function.update_eq_self]

/-- A holder forgets a channel. That is not the end of its channel. -/
theorem Sound.forget {s : RefSide} (hs : Sound s) (x : Holder) : Sound (s.setChannel x none) := by
  have hother : ∀ y chan, (s.setChannel x none).channel y = some chan →
      s.channel y = some chan := by
    intro y chan hy
    change Function.update s.channel x none y = _ at hy
    by_cases hyx : y = x
    · rw [hyx, Function.update_self] at hy
      cases hy
    · rwa [Function.update_of_ne hyx] at hy
  have hsome : ∀ y, (s.setChannel x none).channel y ≠ none → s.channel y ≠ none := fun y =>
    ne_none_of_held (hother y)
  refine ⟨hs.fresh, fun y chan hy => ?_, hs.objects.congr (fun _ => rfl) rfl rfl,
    fun y a hy hchan => hs.found y a hy (hsome y hchan),
    fun y hy hchan => hs.live y hy (hsome y hchan)⟩
  obtain ⟨line, hline, hserves⟩ := hs.serves y chan (hother y chan hy)
  exact ⟨line, hline, hserves.congr fun _ => .inl rfl⟩

/-- A session with the channel of a holder destroyed and forgotten -/
def RefSide.closed (s : RefSide) (x : Holder) (chan : ChanRef) : RefSide :=
  ({ s.setLine chan.id none with writes := s.writes + 1 } : RefSide).setChannel x none

theorem closeChannel_of_none {s : RefSide} {x : Holder} (h : s.channel x = none) :
    closeChannel x s = (0, s) := by
  unfold closeChannel
  rw [StateM.get_bind, h]
  rfl

theorem closeChannel_of_some {s : RefSide} {x : Holder} {chan : ChanRef} {line : RefLine}
    (h : s.channel x = some chan) (hline : s.line? chan = some line) :
    closeChannel x s = (s.ret s.writes, s.closed x chan) := by
  unfold closeChannel mwChannelDestroy
  rw [StateM.get_bind, h]
  dsimp only
  rw [StateM.bind_apply, StateM.get_bind, hline]
  rfl

theorem closeChannel_channel_self (x : Holder) (s : RefSide) :
    (closeChannel x s).2.channel x = none := by
  unfold closeChannel
  rw [StateM.get_bind]
  cases hchan : s.channel x with
  | none => exact hchan
  | some chan => exact Function.update_self ..

theorem closeChannel_same (x : Holder) (s : RefSide) :
    (closeChannel x s).2.state = s.state ∧ (closeChannel x s).2.objects = s.objects := by
  unfold closeChannel mwChannelDestroy
  rw [StateM.get_bind]
  cases s.channel x with
  | none => exact ⟨rfl, rfl⟩
  | some chan =>
    dsimp only
    rw [StateM.bind_apply, StateM.get_bind]
    cases s.line? chan <;> exact ⟨rfl, rfl⟩

theorem keeps_closeChannel (x : Holder) : Keeps Evolves (closeChannel x) := by
  intro s hs
  cases hchan : s.channel x with
  | none =>
    rw [closeChannel_of_none hchan]
    exact Std.Refl.refl (r := Evolves) s hs
  | some chan =>
    obtain ⟨line, hline, -⟩ := hs.serves x chan hchan
    rw [closeChannel_of_some hchan hline]
    exact Evolves.of_closed hchan rfl rfl rfl (fun _ _ _ => rfl) rfl rfl rfl rfl rfl hs

/-- An object is freed once its channel has been destroyed. -/
theorem keeps_closeFree (x : Nat → Holder) (a : Nat) (hobject : (x a).object? = some a) :
    Keeps Evolves (do
      discard (closeChannel (x a))
      freeObject x a) := fun s =>
  IsTrans.trans _ _ _ (keeps_closeChannel (x a) s)
    (evolves_freeObject hobject fun _ => closeChannel_channel_self ..)

theorem evolves_openChannel {s : RefSide} {x : Holder} (hready : Sound s → Ready s x) :
    Evolves s (openChannel x s).2 := by
  intro hs
  rcases openChannel_cases x s with h | ⟨ret, s', h, hopens⟩
  · rw [h]
    exact Std.Refl.refl (r := Evolves) s hs
  · rw [h]
    exact hopens.evolves (fun _ => hready hs) hs

/-- An object that is there and has no channel gets one. -/
theorem evolves_openObject {s : RefSide} {x : Holder} {a : Nat} {o : Object}
    (ho : s.object a = some o) (hx : x.kind = o.kind) (hobject : x.object? = some a)
    (hfree : s.slipped = false → s.channel x = none) : Evolves s (openChannel x s).2 := by
  refine evolves_openChannel fun hs => ⟨fun hservice => ?_, fun b hb => ?_, hfree⟩
  · cases x <;> simp [Holder.isService, Holder.object?] at hservice hobject
  · obtain rfl := Option.some.inj (hobject.symm.trans hb)
    exact hx ▸ hs.objects.listed a o ho

/-- What goes on from the state that is there -/
theorem keeps_get {α : Type} {f : RefSide → RefM α} (hf : ∀ s, Evolves s (f s s).2) :
    Keeps Evolves (get >>= f) := hf

theorem evolves_bind {α β : Type} {s : RefSide} {m : RefM α} {f : α → RefM β}
    (hm : Evolves s (m s).2) (hf : ∀ a, Keeps Evolves (f a)) : Evolves s ((m >>= f) s).2 :=
  IsTrans.trans _ _ _ hm (hf _ _)

/-! ## Calls -/

section

variable {h : RefHooks} (hh : ∀ c, Keeps Evolves (h c))

theorem keeps_convoSetState (a : Nat) (state : MwConversationState) :
    Keeps Evolves (convoSetState a state) :=
  keeps_modifyObject a fun o => by cases o <;> rfl

theorem keeps_convoSetFeatures (a : Nat) (features : UInt32) :
    Keeps Evolves (convoSetFeatures a features) :=
  keeps_modifyObject a fun o => by cases o <;> rfl

theorem keeps_ftState (a : Nat) (state : MwFileTransferState) : Keeps Evolves (ftState a state) :=
  keeps_modifyObject a fun o => by cases o <;> rfl

theorem keeps_ftRemaining (a : Nat) (remaining : UInt32) :
    Keeps Evolves (ftRemaining a remaining) :=
  keeps_modifyObject a fun o => by cases o <;> rfl

theorem keeps_confState (a : Nat) (state : MwConferenceState) : Keeps Evolves (confState a state) :=
  keeps_modifyObject a fun o => by cases o <;> rfl

theorem keeps_mwServiceImGetConversation (target : MwIdBlock) :
    Keeps Evolves (mwServiceImGetConversation target) := by
  refine .bind .get fun s => ?_
  split
  · exact .pure _
  · exact keeps_addObject _ _ fun _ => ⟨rfl, rfl⟩

theorem keeps_convoCreateChan (a : Nat) : Keeps Evolves (convoCreateChan a) := by
  refine keeps_get fun s => ?_
  cases ho : s.object a with
  | none => exact Std.Refl.refl s
  | some o =>
    cases o with
    | conversation target state features =>
      dsimp only
      rw [StateM.ite_apply]
      split
      · exact Std.Refl.refl s
      · rename_i hgood
        have hfree := not_not.mp (not_or.mp hgood).2
        exact evolves_openObject (x := .conversation a) ho rfl rfl fun _ => hfree
    | transfer | place | conference => exact Std.Refl.refl s

theorem keeps_mwConversationOpen (a : Nat) : Keeps Evolves (mwConversationOpen a) := by
  refine .bind .get fun s => ?_
  split
  · exact .ite (fun _ => .pure _) fun _ =>
      .bind (keeps_convoSetState _ _) fun _ => keeps_convoCreateChan a
  · exact .pure _

include hh

theorem keeps_convoOpened (a : Nat) : Keeps Evolves (convoOpened h a) :=
  .bind (keeps_convoSetState _ _) fun _ => hh _

theorem keeps_mwConversationClose (a : Nat) (reason : UInt32) :
    Keeps Evolves (mwConversationClose h a reason) := by
  refine .bind .get fun s => ?_
  split
  · exact .bind (keeps_convoSetState _ _) fun _ => .bind (hh _) fun _ =>
      (keeps_closeChannel _).discard
  · exact .pure _

omit hh in
theorem mwConversationClose_channel {s : RefSide} {a : Nat} {target : MwIdBlock}
    {state : MwConversationState} {features : UInt32}
    (ho : s.object a = some (.conversation target state features)) (reason : UInt32) :
    (mwConversationClose h a reason s).2.channel (.conversation a) = none := by
  unfold mwConversationClose
  rw [StateM.get_bind, ho]
  exact closeChannel_channel_self ..

theorem keeps_mwConversationFree (a : Nat) : Keeps Evolves (mwConversationFree h a) := by
  refine keeps_get fun s => ?_
  cases ho : s.object a with
  | none => exact Std.Refl.refl s
  | some o =>
    cases o with
    | conversation target state features =>
      dsimp only
      rw [StateM.ite_apply]
      split
      · refine IsTrans.trans _ _ _ (keeps_mwConversationClose hh a 0 s) ?_
        exact evolves_freeObject rfl fun _ => mwConversationClose_channel ho 0
      · refine IsTrans.trans _ _ _ (keeps_slip (s.channel (.conversation a)).isSome s) ?_
        exact evolves_freeObject rfl channel_of_slip
    | transfer | place | conference => exact Std.Refl.refl s

theorem keeps_mwFileTransferClose (a : Nat) (code : UInt32) :
    Keeps Evolves (mwFileTransferClose h a code) := by
  have hclose : Keeps Evolves (do
      let ret ← closeChannel (.transfer a)
      h (.closed a code)
      return ret) :=
    .bind (keeps_closeChannel _) fun _ => .bind (hh _) fun _ => .pure _
  refine .bind .get fun s => ?_
  split
  · exact .ite (fun _ => .bind (keeps_ftState _ _) fun _ => hclose) fun _ => hclose
  · exact .pure _

omit hh in
theorem keeps_mwFileTransferFree (a : Nat) : Keeps Evolves (mwFileTransferFree a) := by
  refine .bind .get fun s => ?_
  split
  · exact keeps_closeFree .transfer a rfl
  · exact .pure _

theorem keeps_mwFileTransferOffer (a : Nat) : Keeps Evolves (mwFileTransferOffer h a) := by
  refine keeps_get fun s => ?_
  cases ho : s.object a with
  | none => exact Std.Refl.refl s
  | some o =>
    cases o with
    | transfer state remaining =>
      dsimp only
      rw [StateM.ite_apply]
      split
      · exact Std.Refl.refl s
      rename_i hgood
      have hfree := not_not.mp (not_or.mp hgood).1
      have hopen := evolves_openObject (x := .transfer a) ho rfl rfl fun _ => hfree
      refine evolves_bind hopen fun ret => ?_
      cases ret with
      | none => exact .pure _
      | some ret =>
        refine .ite (fun _ => ?_) fun _ => ?_
        · exact .bind (keeps_ftState _ _) fun _ => .pure _
        · exact .bind (keeps_ftState _ _) fun _ =>
            .bind (keeps_mwFileTransferClose hh a errFailure).discard fun _ => .pure _
    | conversation | place | conference => exact Std.Refl.refl s

omit hh in
theorem keeps_mwChannelSend (chan : ChanRef) : Keeps Evolves (mwChannelSend chan) := by
  refine .bind .get fun s => ?_
  split
  · exact .pure _
  · exact .ite (fun _ => keeps_write) fun _ => .pure _

omit hh in
theorem keeps_mwFileTransferSend (a : Nat) (data : MwOpaque) :
    Keeps Evolves (mwFileTransferSend a data) := by
  refine .bind .get fun s => ?_
  split
  · refine .ite (fun _ => .pure _) fun _ => .ite (fun _ => .pure _) fun _ =>
      .bind (keeps_mwChannelSend _) fun ret => .ite (fun _ => ?_) fun _ => .pure _
    exact .bind (keeps_ftRemaining _ _) fun _ => .pure _
  · exact .pure _

omit hh in
theorem keeps_mwPlaceOpen (a : Nat) : Keeps Evolves (mwPlaceOpen a) := by
  refine keeps_get fun s => ?_
  cases ho : s.object a with
  | none => exact Std.Refl.refl s
  | some o =>
    cases o with
    | place =>
      refine IsTrans.trans _ _ _ (keeps_slip (s.channel (.place a)).isSome s) ?_
      exact evolves_openObject (x := .place a) (o := .place) ho rfl rfl channel_of_slip
    | conversation | transfer | conference => exact Std.Refl.refl s

omit hh in
theorem keeps_mwPlaceDestroy (a : Nat) : Keeps Evolves (mwPlaceDestroy a) := by
  refine .bind .get fun s => ?_
  split
  · exact keeps_closeFree .place a rfl
  · exact .pure _

omit hh in
theorem keeps_mwConferenceDestroy (a : Nat) : Keeps Evolves (mwConferenceDestroy a) := by
  refine .bind .get fun s => ?_
  split
  · exact keeps_closeFree .conference a rfl
  · exact .pure _

omit hh in
theorem keeps_mwConferenceOpen (a : Nat) : Keeps Evolves (mwConferenceOpen a) := by
  refine keeps_get fun s => ?_
  cases ho : s.object a with
  | none => exact Std.Refl.refl s
  | some o =>
    cases o with
    | conference state =>
      dsimp only
      rw [StateM.ite_apply]
      split
      · exact Std.Refl.refl s
      rename_i hgood
      have hfree := not_not.mp (not_or.mp hgood).2
      have hopen := evolves_openObject (x := .conference a) ho rfl rfl fun _ => hfree
      refine evolves_bind hopen fun ret => ?_
      cases ret with
      | none => exact .pure _
      | some ret => exact keeps_confState _ _
    | conversation | transfer | place => exact Std.Refl.refl s

end

/-! ## Services -/

/-- The state of a service matters to the channel that it has. -/
theorem evolves_setState {s : RefSide} {k : ServiceKind} {state : MwServiceState}
    (hk : ∀ x : Holder, x.isService → x.kind = k → state = .starting ∨ s.channel x = none) :
    Evolves s (s.setState k state) := by
  refine .of_channels rfl rfl (fun _ => .inl rfl) (fun x hx hchan => ?_)
    (fun h => h.congr (fun _ => rfl) rfl rfl) (fun _ _ _ _ ha => ha) id (fun _ _ => rfl) rfl
  by_cases hkind : x.kind = k
  · rcases hk x hx hkind with rfl | hnone
    · exact .inr (hkind ▸ Function.update_self ..)
    · exact absurd hnone hchan
  · exact .inl (Function.update_of_ne hkind _ _)

/-- The objects of a service have channels, and not the service itself. -/
def OfObjects (k : ServiceKind) : Prop := ∀ x : Holder, x.isService → x.kind ≠ k

instance : DecidablePred OfObjects
  | .im | .fileTransfer | .place | .conference =>
    .isTrue fun x hx => by cases x <;> simp_all [Holder.isService, Holder.kind]
  | .aware => .isFalse fun h => h .aware rfl rfl
  | .storage => .isFalse fun h => h .storage rfl rfl
  | .resolve => .isFalse fun h => h .resolve rfl rfl
  | .directory => .isFalse fun h => h .directory rfl rfl

theorem keeps_setState {k : ServiceKind} (hk : OfObjects k) (state : MwServiceState) :
    Keeps Evolves (modify fun s : RefSide => s.setState k state) :=
  fun _ => evolves_setState fun x hx hkind => absurd hkind (hk x hx)

/-- A service with one channel that is started from a stop. It has no channel then. -/
theorem evolves_startChannel {s : RefSide} {x : Holder} (hx : x.isService = true)
    (hstopped : s.state x.kind = .stopped) :
    Evolves s (startChannel x (s.setState x.kind .starting)).2 := by
  intro hs
  have hfree : s.channel x = none := by
    by_contra hchan
    rcases hs.live x hx hchan with h | h <;> exact absurd (hstopped.symm.trans h) (by simp)
  revert hs
  show Evolves s (startChannel x (s.setState x.kind .starting)).2
  have hstarting : Evolves s (s.setState x.kind .starting) := evolves_setState fun _ _ _ => .inl rfl
  unfold startChannel
  rw [StateM.bind_apply]
  rcases openChannel_cases x (s.setState x.kind .starting) with hopen | ⟨ret, s', hopen, hopens⟩
  · rw [hopen]
    exact hstarting
  rw [hopen]
  dsimp only
  rw [StateM.ite_apply]
  split
  · -- the state goes back to what it was, so that nothing but a channel is new
    rename_i hret
    have hstate : (s'.setState x.kind .stopped).state = s.state := by
      change Function.update s'.state x.kind .stopped = s.state
      rw [hopens.state, ← hstopped]
      exact (Function.update_idem ..).trans (Function.update_eq_self ..)
    have hnew : Opens s x ret (s'.setState x.kind .stopped) :=
      ⟨hopens.line, hopens.nextLine, hopens.object, hopens.nextObject, hopens.objects, hstate,
        hopens.slipped, hopens.stops⟩
    exact hnew.evolves fun h => absurd h hret
  · refine IsTrans.trans _ _ _ hstarting
      (hopens.evolves fun _ => ⟨fun _ => ?_, fun a ha => ?_, fun _ => hfree⟩)
    · exact Function.update_self ..
    · cases x <;> simp [Holder.isService, Holder.object?] at hx ha

/-- A service with one channel, in whatever state, closes it. -/
theorem evolves_closeService {s : RefSide} {x : Holder} (hx : x.isService = true)
    (state : MwServiceState) : Evolves s (closeChannel x (s.setState x.kind state)).2 := by
  intro hs
  cases hchan : s.channel x with
  | none =>
    rw [closeChannel_of_none (s := s.setState x.kind state) hchan]
    refine evolves_setState (fun y _ hkind => .inr ?_) hs
    rw [Holder.eq_of_kind hx hkind]
    exact hchan
  | some chan =>
    obtain ⟨line, hline, -⟩ := hs.serves x chan hchan
    rw [closeChannel_of_some (s := s.setState x.kind state) hchan hline]
    refine Evolves.of_closed hchan rfl rfl rfl (fun y _ hne => ?_) rfl rfl rfl rfl rfl hs
    exact Function.update_of_ne (fun hkind => hne (Holder.eq_of_kind hx hkind)) _ _

theorem evolves_stopChannel {s : RefSide} {x : Holder} (hx : x.isService = true)
    (state : MwServiceState) : Evolves s (stopChannel x (s.setState x.kind state)).2 := by
  refine IsTrans.trans _ _ _ (evolves_closeService hx state)
    (evolves_setState fun y _ hkind => .inr ?_)
  rw [Holder.eq_of_kind hx hkind]
  exact closeChannel_channel_self ..

theorem keeps_mwServiceStart (k : ServiceKind) : Keeps Evolves (mwServiceStart k) := by
  intro s
  unfold mwServiceStart
  rw [StateM.get_bind, StateM.ite_apply]
  split
  · exact Std.Refl.refl s
  rename_i hstopped
  rw [not_not] at hstopped
  rw [StateM.modify_bind]
  have hobjects : ∀ k, OfObjects k →
      Evolves s (mwServiceStarted k (s.setState k .starting)).2 := fun k hk =>
    IsTrans.trans _ _ _ (keeps_setState hk .starting s) (keeps_setState hk .started _)
  cases k with
  | aware => exact evolves_startChannel (x := .aware) rfl hstopped
  | storage => exact evolves_startChannel (x := .storage) rfl hstopped
  | resolve => exact evolves_startChannel (x := .resolve) rfl hstopped
  | directory => exact evolves_startChannel (x := .directory) rfl hstopped
  | im => exact hobjects .im (by decide)
  | fileTransfer => exact hobjects .fileTransfer (by decide)
  | place => exact hobjects .place (by decide)
  | conference => exact hobjects .conference (by decide)

theorem keeps_stopAll {k : ServiceKind} (hk : OfObjects k) {free : Nat → RefM Unit}
    (hfree : ∀ a, Keeps Evolves (free a)) (rounds : Nat) :
    Keeps Evolves (stopAll k free rounds) := by
  induction rounds with
  | zero => exact .pure _
  | succ rounds ih =>
    refine .bind .get fun s => ?_
    split
    · exact .bind (keeps_setState hk .stopped) fun _ => .pure _
    · exact .bind (hfree _) fun _ => ih

/-- A loop that has come to its end leaves the service stopped, without an object. -/
theorem stopAll_true {k : ServiceKind} {free : Nat → RefM Unit} {rounds : Nat} {s : RefSide}
    (h : (stopAll k free rounds s).1 = true) :
    (stopAll k free rounds s).2.state k = .stopped ∧
      (stopAll k free rounds s).2.objects k = [] := by
  induction rounds generalizing s with
  | zero => cases h
  | succ rounds ih =>
    unfold stopAll at h ⊢
    rw [StateM.get_bind] at h ⊢
    cases hobjects : s.objects k with
    | nil => exact ⟨Function.update_self .., hobjects⟩
    | cons a as =>
      rw [hobjects] at h
      exact ih h

/-- A stop that comes back leaves the service stopped and without a reference to a channel, but
for that of the directory service. -/
theorem stop_true {h : RefHooks} {rounds : Nat} {k : ServiceKind} {s : RefSide}
    (htrue : (stop h rounds k s).1 = true) (hk : k ≠ .directory)
    (hs : Sound (stop h rounds k s).2) :
    (stop h rounds k s).2.state k = .stopped ∧
      ∀ x : Holder, x.kind = k → (stop h rounds k s).2.channel x = none := by
  have hchannel : ∀ x : Holder, x.isService → (stopChannel x s).2.state x.kind = .stopped ∧
      ∀ y : Holder, y.kind = x.kind → (stopChannel x s).2.channel y = none := by
    intro x hx
    refine ⟨Function.update_self .., fun y hy => ?_⟩
    rw [Holder.eq_of_kind hx hy]
    exact closeChannel_channel_self x s
  have hobjects : ∀ free, OfObjects k → stop h rounds k = stopAll k free rounds →
      (stop h rounds k s).2.state k = .stopped ∧
        ∀ x : Holder, x.kind = k → (stop h rounds k s).2.channel x = none := by
    intro free hof heq
    obtain ⟨hstate, hnone⟩ := stopAll_true (heq ▸ htrue)
    rw [← heq] at hstate hnone
    refine ⟨hstate, fun x hx => ?_⟩
    by_contra hchan
    cases ha : x.object? with
    | none => exact hof x (by cases x <;> simp_all [Holder.object?, Holder.isService]) hx
    | some a =>
      have hmem := hs.found x a ha hchan
      rw [hx, hnone] at hmem
      cases hmem
  cases k with
  | aware => exact hchannel .aware rfl
  | storage => exact hchannel .storage rfl
  | resolve => exact hchannel .resolve rfl
  | directory => exact absurd rfl hk
  | im => exact hobjects _ (by decide) rfl
  | fileTransfer => exact hobjects _ (by decide) rfl
  | place => exact hobjects _ (by decide) rfl
  | conference => exact hobjects _ (by decide) rfl

/-- A stopped service can be started again. -/
theorem Stop.shut_iff {st : Stop} : st.Shut ↔ st.state = .stopped ∧ NoneOpen st.line st.kind := by
  refine ⟨fun h => ⟨h.state, h.closed⟩, fun ⟨hstate, hclosed⟩ => ⟨hstate, hclosed, fun s hs => ?_⟩⟩
  unfold mwServiceStart
  rw [StateM.get_bind, StateM.ite_apply, if_neg (not_not.mpr (hs.trans hstate))]
  exact StateM.modify_bind ..

/-- A service to whose channels nobody refers has none that is open. -/
theorem noneOpen_of_held {s : RefSide} {k : ServiceKind} (hheld : ∀ chan, Held s chan)
    (hnone : ∀ x : Holder, x.kind = k → s.channel x = none) : NoneOpen s.line k := by
  intro id l hl hservice hopen
  have hline : s.line? ⟨id, l.addr⟩ = some l := line?_eq_some.mpr ⟨hl, rfl⟩
  obtain ⟨x, hx, hchan⟩ := hheld _ l k hline (.inl hopen) hservice
  rw [hnone x hx] at hchan
  cases hchan

/-- A stop that has returned is written down. -/
theorem evolves_stopReturned {s s₀ : RefSide} {k : ServiceKind}
    (hstop : Sound s → (∀ chan, Held s chan) →
      (Stop.Shut ⟨k, s₀.state k, s₀.line, s.state k, s.line⟩ ↔
        Stop.Timely ⟨k, s₀.state k, s₀.line, s.state k, s.line⟩)) :
    Evolves s (stopReturned k s₀ s).2 := by
  intro hs
  have hsound : Sound (stopReturned k s₀ s).2 :=
    ⟨hs.fresh, fun x chan hx => (hs.serves x chan hx).imp fun _ hline =>
        ⟨hline.1, hline.2.congr fun _ => .inl rfl⟩,
      hs.objects.congr (fun _ => rfl) rfl rfl, hs.found, hs.live⟩
  refine ⟨hsound, fun _ hidle => ⟨hidle.there, hidle.unheld⟩, id, fun _ _ hb => hb,
    fun _ _ hh => hh, fun _ hheld st hst => ?_⟩
  rcases List.mem_cons.mp hst with rfl | hst
  · exact .inr (hstop hs hheld)
  · exact .inl hst

section

variable {h : RefHooks} (hh : ∀ c, Keeps Evolves (h c))

include hh

theorem evolves_stop (state : MwServiceState) (rounds : Nat) (k : ServiceKind) (s : RefSide) :
    Evolves s (stop h rounds k (s.setState k state)).2 := by
  have hobjects : ∀ k free, OfObjects k → (∀ a, Keeps Evolves (free a)) →
      Evolves s (stopAll k free rounds (s.setState k state)).2 := fun k free hk hfree =>
    IsTrans.trans _ _ _ (keeps_setState hk state s) (keeps_stopAll hk hfree rounds _)
  cases k with
  | aware => exact evolves_stopChannel (x := .aware) rfl state
  | storage => exact evolves_stopChannel (x := .storage) rfl state
  | resolve => exact evolves_stopChannel (x := .resolve) rfl state
  | directory => exact evolves_closeService (x := .directory) rfl state
  | im => exact hobjects .im _ (by decide) (keeps_mwConversationFree hh)
  | fileTransfer => exact hobjects .fileTransfer _ (by decide) keeps_mwFileTransferFree
  | place => exact hobjects .place _ (by decide) keeps_mwPlaceDestroy
  | conference => exact hobjects .conference _ (by decide) keeps_mwConferenceDestroy

theorem keeps_endService {state : MwServiceState} (hstate : state ≠ .stopped) (rounds : Nat)
    (k : ServiceKind) : Keeps Evolves (endService h state rounds k) := by
  intro s
  unfold endService
  rw [StateM.get_bind, StateM.ite_apply]
  split
  · -- nothing is done, which is right for a service that is stopped already
    rename_i hdead
    refine evolves_stopReturned fun _ _ => ?_
    rw [Stop.shut_iff, Stop.Timely]
    cases hfound : s.state k <;> simp_all [MwServiceState.isDead]
  rename_i hlive
  rw [StateM.modify_bind, StateM.bind_apply]
  have hstop := evolves_stop hh state rounds k s
  obtain ⟨returned, s', hret⟩ :
      ∃ returned s', stop h rounds k (s.setState k state) = (returned, s') := ⟨_, _, rfl⟩
  rw [hret] at hstop ⊢
  dsimp only
  rw [StateM.ite_apply]
  split
  case isFalse => exact hstop
  rename_i htrue
  refine IsTrans.trans _ _ _ hstop (evolves_stopReturned fun hs hheld => ?_)
  have hfound : s.state k ≠ .stopped ∧ s.state k ≠ .stopping := by
    cases hstate : s.state k <;> simp_all [MwServiceState.isDead]
  rw [Stop.shut_iff, Stop.Timely, if_neg hfound.1]
  by_cases hk : k = .directory
  · -- the directory service stays in the state that it got
    subst hk
    have hleft : s'.state .directory = state := by
      have heq : (closeChannel .directory (s.setState .directory state)).2 = s' :=
        congrArg Prod.snd hret
      rw [← heq, (closeChannel_same ..).1]
      change Function.update s.state .directory state .directory = state
      rw [Function.update_self]
    exact ⟨fun hshut => absurd (hleft.symm.trans hshut.1) hstate,
      fun htimely => absurd rfl htimely.2⟩
  · have hend := stop_true (by rw [hret]; exact htrue) hk (by rw [hret]; exact hs)
    rw [hret] at hend
    exact ⟨fun _ => ⟨hfound.2, hk⟩, fun _ => ⟨hend.1, noneOpen_of_held hheld hend.2⟩⟩

theorem keeps_mwServiceStop (rounds : Nat) (k : ServiceKind) :
    Keeps Evolves (mwServiceStop h rounds k) := keeps_endService hh (by simp) rounds k

theorem keeps_mwServiceError (rounds : Nat) (k : ServiceKind) :
    Keeps Evolves (mwServiceError h rounds k) := keeps_endService hh (by simp) rounds k

/-! ## Messages on open channels -/

theorem keeps_recvTransfer (a : Nat) (msg : Payload) : Keeps Evolves (recvTransfer h a msg) := by
  refine .bind .get fun s => ?_
  split
  · refine .ite (fun _ => .pure _) fun _ => .ite (fun _ => .pure _) fun _ =>
      .bind (keeps_ftRemaining _ _) fun _ => .ite (fun _ => ?_) fun _ => hh _
    exact .bind (keeps_ftState _ _) fun _ => hh _
  · exact .pure _

theorem keeps_recvReceived (a : Nat) (msg : Payload) : Keeps Evolves (recvReceived h a msg) := by
  have hremains : Keeps Evolves (nothingRemains a) := by
    refine .bind .get fun s => ?_
    split <;> exact .pure _
  have hrest : Keeps Evolves (do
      h (.message (.transfer a) msg)
      if ← nothingRemains a then discard (mwFileTransferClose h a 0)) :=
    .bind (hh _) fun _ => .bind hremains fun _ =>
      .ite (fun _ => (keeps_mwFileTransferClose hh a 0).discard) fun _ => .pure _
  exact .bind hremains fun _ =>
    .ite (fun _ => .bind (keeps_ftState _ _) fun _ => hrest) fun _ => hrest

theorem keeps_recvConference (a : Nat) (msg : Payload) : Keeps Evolves (recvConference h a msg) :=
  .ite (fun _ => .ite (fun _ => keeps_mwConferenceDestroy a) fun _ =>
    .bind (keeps_confState _ _) fun _ => hh _) fun _ => hh _

theorem keeps_recvOn (x : Holder) (chan : ChanRef) (msg : Payload) :
    Keeps Evolves (recvOn h x chan msg) :=
  .bind .get fun _ => .ite (fun _ => .pure _) fun _ => hh _

theorem keeps_recv (chan : ChanRef) (data : Option Holder) (msg : Payload) (k : ServiceKind) :
    Keeps Evolves (recv h chan data msg k) := by
  cases k with
  | aware => exact keeps_recvOn hh .aware chan msg
  | storage => exact keeps_recvOn hh .storage chan msg
  | resolve => exact keeps_recvOn hh .resolve chan msg
  | directory => exact keeps_recvOn hh .directory chan msg
  | im =>
    cases data with
    | none => exact .pure _
    | some x => exact hh _
  | place =>
    cases data with
    | none => exact .pure _
    | some x => exact hh _
  | fileTransfer =>
    cases data with
    | none => exact .pure _
    | some x =>
      cases x with
      | transfer a =>
        exact .ite (fun _ => keeps_recvTransfer hh a msg) fun _ =>
          .ite (fun _ => keeps_recvReceived hh a msg) fun _ => .pure _
      | _ => exact .pure _
  | conference =>
    refine .bind .get fun s => ?_
    split
    · exact keeps_recvConference hh _ _
    · exact .pure _

theorem keeps_channelRecv (chan : ChanRef) (msg : Payload) :
    Keeps Evolves (channelRecv h chan msg) := by
  refine .bind .get fun s => ?_
  split
  · exact .pure _
  · split
    · exact .pure _
    · exact keeps_recv hh _ _ _ _

theorem keeps_flushChannel (chan : ChanRef) : Keeps Evolves (flushChannel h chan) := by
  refine .bind .get fun s => ?_
  split
  · exact .pure _
  · exact .bind (.forM fun msg _ => keeps_channelRecv hh chan msg) fun _ =>
      keeps_modifyLine chan (fun _ => ⟨rfl, rfl, rfl, rfl⟩) fun _ => .inl rfl

/-- A channel is accepted that a holder refers to. -/
theorem evolves_mwChannelAccept {s : RefSide} {x : Holder} {chan : ChanRef}
    (hchan : s.channel x = some chan) : Evolves s (mwChannelAccept h chan s).2 := by
  unfold mwChannelAccept
  rw [StateM.get_bind]
  cases hline : s.line? chan with
  | none => exact Std.Refl.refl s
  | some line =>
    dsimp only
    rw [StateM.ite_apply]
    split
    · exact Std.Refl.refl s
    rename_i haccepted
    rw [StateM.bind_apply]
    refine IsTrans.trans _ _ _ (keeps_write s) ?_
    rw [StateM.ite_apply]
    split
    · have herror : Keeps Evolves (modifyLine chan fun line => { line with state := .error }) :=
        keeps_modifyLine chan (fun _ => ⟨rfl, rfl, rfl, rfl⟩) fun _ => .inr rfl
      exact herror.bind (fun _ => .pure _) _
    · refine evolves_bind ?_ fun _ => .bind (keeps_flushChannel hh chan) fun _ => .pure _
      have hwritten : (write s).2.line? chan = some line := hline
      rw [modifyLine_of_some hwritten]
      exact .of_line hwritten rfl rfl rfl rfl nofun fun _ => .inr ⟨x, hchan⟩

theorem keeps_mwFileTransferAccept (a : Nat) : Keeps Evolves (mwFileTransferAccept h a) := by
  refine keeps_get fun s => ?_
  cases ho : s.object a with
  | none => exact Std.Refl.refl s
  | some o =>
    cases hchan : s.channel (.transfer a) with
    | none => cases o <;> exact Std.Refl.refl s
    | some chan =>
      cases o with
      | transfer state remaining =>
        dsimp only
        rw [StateM.ite_apply]
        split
        · exact Std.Refl.refl s
        refine evolves_bind (evolves_mwChannelAccept hh hchan) fun ret =>
          .ite (fun _ => ?_) fun _ => ?_
        · exact .bind (keeps_mwFileTransferClose hh a errFailure).discard fun _ => .pure _
        · exact .bind (keeps_ftState _ _) fun _ => .bind (hh _) fun _ => .pure _
      | conversation | place | conference => exact Std.Refl.refl s

theorem keeps_mwConferenceAccept (a : Nat) : Keeps Evolves (mwConferenceAccept h a) := by
  refine keeps_get fun s => ?_
  cases ho : s.object a with
  | none => exact Std.Refl.refl s
  | some o =>
    cases hchan : s.channel (.conference a) with
    | none => cases o <;> exact Std.Refl.refl s
    | some chan =>
      cases o with
      | conference state =>
        dsimp only
        rw [StateM.ite_apply]
        split
        · exact Std.Refl.refl s
        · exact evolves_mwChannelAccept hh hchan
      | conversation | transfer | place => exact Std.Refl.refl s

/-! ## Clients -/

theorem keeps_runCall (c : RefCall) : Keeps Evolves (runCall h c) := by
  cases c with
  | getConversation target => exact (keeps_mwServiceImGetConversation target).discard
  | setClientType type => exact fun _ => .of_same rfl rfl rfl rfl (fun _ => rfl) rfl rfl id rfl
  | setUserStatus stat => exact fun _ => .of_same rfl rfl rfl rfl (fun _ => rfl) rfl rfl id rfl
  | openConversation a => exact keeps_mwConversationOpen a
  | closeConversation a reason => exact keeps_mwConversationClose hh a reason
  | freeConversation a => exact keeps_mwConversationFree hh a
  | newTransfer filesize => exact (keeps_mwFileTransferNew filesize).discard
  | offerTransfer a => exact (keeps_mwFileTransferOffer hh a).discard
  | acceptTransfer a => exact (keeps_mwFileTransferAccept hh a).discard
  | sendTransfer a data => exact (keeps_mwFileTransferSend a data).discard
  | closeTransfer a code => exact (keeps_mwFileTransferClose hh a code).discard
  | freeTransfer a => exact keeps_mwFileTransferFree a
  | newPlace => exact keeps_mwPlaceNew.discard
  | openPlace a => exact keeps_mwPlaceOpen a
  | destroyPlace a => exact keeps_mwPlaceDestroy a
  | newConference => exact keeps_mwConferenceNew.discard
  | openConference a => exact keeps_mwConferenceOpen a
  | acceptConference a => exact (keeps_mwConferenceAccept hh a).discard
  | destroyConference a => exact keeps_mwConferenceDestroy a
  | startService k => exact keeps_mwServiceStart k
  | stopService k rounds => exact keeps_mwServiceStop hh rounds k
  | errorService k rounds => exact keeps_mwServiceError hh rounds k
  | addService k => exact fun _ => .of_same rfl rfl rfl rfl (fun _ => rfl) rfl rfl id rfl
  | removeService k => exact fun _ => .of_same rfl rfl rfl rfl (fun _ => rfl) rfl rfl id rfl

end

theorem keeps_hooks (client : RefClient) (n : Nat) (c : RefCallback) :
    Keeps Evolves (hooks client n c) := by
  induction n generalizing c with
  | zero => exact .pure _
  | succ n ih =>
    refine .bind .get fun s => .forM fun call _ => ?_
    exact keeps_runCall ih call

end Meanwhile.Refs
