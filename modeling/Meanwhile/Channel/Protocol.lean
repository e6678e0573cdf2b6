-- SUMMARY: The messages of a channel are written in the order that the protocol asks for.
import Meanwhile.Channel.Arrivals

/-!
# The protocol of a channel

`Proper` says when something may happen to a channel, by what has happened before:
which messages may be written, and that the channel may be opened. Everything in the
trace of a run is proper, for services that do not destroy a channel they are told
about.
-/

namespace Meanwhile

/-! ## The protocol -/

/-- A message of some type is written for a channel. -/
def Event.Sends (chan : ChanRef) (type : MwMessageType) : Event → Prop
  | .channel chan' (.sends msg) => chan' = chan ∧ msg.body.type = type
  | _ => False

/-- A message of some type has come for a channel. -/
def Event.Brings (chan : ChanRef) (type : MwMessageType) : Event → Prop
  | .channel chan' (.arrives msg) => chan' = chan ∧ msg.body.type = type
  | _ => False

def Sent (chan : ChanRef) (type : MwMessageType) (t : List Event) : Prop :=
  ∃ e ∈ t, e.Sends chan type

def Arrived (chan : ChanRef) (type : MwMessageType) (t : List Event) : Prop :=
  ∃ e ∈ t, e.Brings chan type

def Opened (chan : ChanRef) (t : List Event) : Prop := .channel chan (.state .opened) ∈ t

/-- What may happen to a channel after all of this has happened -/
structure Proper (chan : ChanRef) (e : Event) (t : List Event) : Prop where
  /-- A channel is created at most once. -/
  create : e.Sends chan .channelCreate → ¬ Sent chan .channelCreate t
  /-- A channel is accepted at most once. -/
  accept : e.Sends chan .channelAccept → ¬ Sent chan .channelAccept t
  /-- Nothing is sent on an outgoing channel until it has been created and accepted. -/
  outgoing : mwChannelIdIsOutgoing chan.id = true → e.Sends chan .channelSend →
    Sent chan .channelCreate t ∧ Arrived chan .channelAccept t
  /-- Nothing is sent on an incoming channel until it has been accepted. -/
  incoming : mwChannelIdIsIncoming chan.id = true → e.Sends chan .channelSend →
    Sent chan .channelAccept t
  /-- Nothing is written for a channel that has been destroyed on either side. -/
  destroy : ∀ type, e.Sends chan type →
    ¬ Sent chan .channelDestroy t ∧ ¬ Arrived chan .channelDestroy t
  /-- A channel is opened at most once. -/
  opened : e = .channel chan (.state .opened) → ¬ Opened chan t

/-- Events that the protocol has nothing to say about -/
structure Event.Mute (chan : ChanRef) (e : Event) : Prop where
  sends : ∀ type, ¬ e.Sends chan type
  destroy : ¬ e.Brings chan .channelDestroy
  opened : e ≠ .channel chan (.state .opened)

section

variable {chan : ChanRef} {e : Event} {t : List Event} {type : MwMessageType}

theorem Event.Mute.proper (h : e.Mute chan) (t : List Event) : Proper chan e t where
  create := fun hsends => absurd hsends (h.sends _)
  accept := fun hsends => absurd hsends (h.sends _)
  outgoing := fun _ hsends => absurd hsends (h.sends _)
  incoming := fun _ hsends => absurd hsends (h.sends _)
  destroy := fun _ hsends => absurd hsends (h.sends _)
  opened := fun heq => absurd heq h.opened

@[simp] theorem sent_cons : Sent chan type (e :: t) ↔ e.Sends chan type ∨ Sent chan type t := by
  simp [Sent]

@[simp] theorem arrived_cons :
    Arrived chan type (e :: t) ↔ e.Brings chan type ∨ Arrived chan type t := by
  simp [Arrived]

@[simp] theorem opened_cons :
    Opened chan (e :: t) ↔ e = .channel chan (.state .opened) ∨ Opened chan t := by
  simp [Opened, eq_comm]

end

/-! ## Channels in good order -/

/-- What has happened to a channel in some state -/
structure Alive (chan : ChanRef) (state : MwChannelState) (t : List Event) : Prop where
  destroyed : ¬ Sent chan .channelDestroy t ∧ ¬ Arrived chan .channelDestroy t
  init : state = .init →
    ¬ Sent chan .channelCreate t ∧ ¬ Sent chan .channelAccept t ∧ ¬ Opened chan t
  wait : state = .wait → ¬ Sent chan .channelAccept t ∧ ¬ Opened chan t ∧
    (mwChannelIdIsOutgoing chan.id = true → Sent chan .channelCreate t)
  outgoing : state = .opened → mwChannelIdIsOutgoing chan.id = true →
    Sent chan .channelCreate t ∧ Arrived chan .channelAccept t
  incoming : state = .opened → mwChannelIdIsIncoming chan.id = true → Sent chan .channelAccept t

theorem Alive.mute {chan : ChanRef} {state : MwChannelState} {t : List Event}
    (h : Alive chan state t) {e : Event} (he : e.Mute chan) : Alive chan state (e :: t) := by
  have hsends (type : MwMessageType) : Sent chan type (e :: t) ↔ Sent chan type t := by
    simp [he.sends]
  have hopened : Opened chan (e :: t) ↔ Opened chan t := by
    simp [he.opened]
  constructor
  · rw [hsends, arrived_cons, or_iff_right he.destroy]
    exact h.destroyed
  · rw [hsends, hsends, hopened]
    exact h.init
  · rw [hsends, hsends, hopened]
    exact h.wait
  · intro hstate hid
    rw [hsends]
    exact ⟨(h.outgoing hstate hid).1, arrived_cons.mpr (.inr (h.outgoing hstate hid).2)⟩
  · rw [hsends]
    exact h.incoming

/-- Everything that has happened was proper when it did. -/
def AllProper (chan : ChanRef) (t : List Event) : Prop :=
  ∀ e t', (e :: t') <:+ t → Proper chan e t'

theorem AllProper.cons {chan : ChanRef} {t : List Event} (h : AllProper chan t) {e : Event}
    (he : Proper chan e t) : AllProper chan (e :: t) := by
  intro e' t' hsuffix
  obtain heq | hsuffix := List.suffix_cons_iff.mp hsuffix
  · obtain ⟨rfl, rfl⟩ := List.cons.inj heq
    exact he
  · exact h e' t' hsuffix

/-- The history of a channel is proper, and fits the state it is in. -/
structure InOrder (chan : ChanRef) (v : ChannelView) : Prop where
  proper : AllProper chan v.history
  unborn : v.life = .unborn → v.history = []
  live : ∀ c, v.life = .live c → Alive chan c.state v.history

namespace InOrder

variable {chan : ChanRef} {c c' : MwChannel} {t : List Event}

theorem of_live (hproper : AllProper chan t) (halive : Alive chan c.state t) :
    InOrder chan ⟨.live c, t⟩ where
  proper := hproper
  unborn := fun h => absurd h (by simp)
  live := by
    intro d hd
    rw [← Life.live.inj hd]
    exact halive

theorem of_gone (hproper : AllProper chan t) : InOrder chan ⟨.gone, t⟩ where
  proper := hproper
  unborn := fun h => absurd h (by simp)
  live := fun _ h => absurd h (by simp)

theorem state (h : InOrder chan ⟨.live c, t⟩) (hstate : c'.state = c.state) :
    InOrder chan ⟨.live c', t⟩ :=
  of_live h.proper (by rw [hstate]; exact h.live c rfl)

theorem mute (h : InOrder chan ⟨.live c, t⟩) {e : Event} (he : e.Mute chan) :
    InOrder chan ⟨.live c, e :: t⟩ :=
  of_live (h.proper.cons (he.proper t)) ((h.live c rfl).mute he)

/-- The state changes to one in which the channel does nothing any more. -/
theorem close (h : InOrder chan ⟨.live c, t⟩) {state : MwChannelState}
    (hstate : state = .error ∨ state = .destroy) :
    InOrder chan ⟨.live { c with state := state }, enterState chan c state t⟩ := by
  have halive : Alive chan state t := by
    obtain rfl | rfl := hstate <;>
      exact ⟨(h.live c rfl).destroyed, by simp, by simp, by simp, by simp⟩
  unfold enterState
  split
  · exact of_live h.proper halive
  · have hmute : (Event.channel chan (.state state)).Mute chan :=
      ⟨by simp [Event.Sends], by simp [Event.Brings], by obtain rfl | rfl := hstate <;> simp⟩
    exact of_live (h.proper.cons (hmute.proper t)) (halive.mute hmute)

/-- A message on an open channel -/
theorem sends (h : InOrder chan ⟨.live c, t⟩) (hopened : c.state = .opened) (m : ChannelMessage) :
    InOrder chan ⟨.live c, .channel chan (.sends m.toMessage) :: t⟩ := by
  have halive := h.live c rfl
  have htype : m.toMessage.body.type = .channelSend := rfl
  refine of_live (h.proper.cons ?_) ?_
  · exact {
      create := by simp [Event.Sends, htype]
      accept := by simp [Event.Sends, htype]
      outgoing := fun hid _ => halive.outgoing hopened hid
      incoming := fun hid _ => halive.incoming hopened hid
      destroy := fun _ _ => halive.destroyed
      opened := by simp }
  · exact {
      destroyed := by simpa [Event.Sends, Event.Brings, htype] using halive.destroyed
      init := by simp [hopened]
      wait := by simp [hopened]
      outgoing := by simpa [Event.Sends, Event.Brings, htype] using halive.outgoing
      incoming := by simpa [Event.Sends, Event.Brings, htype] using halive.incoming }

/-- The last message of a channel -/
theorem destroy (h : InOrder chan ⟨.live c, t⟩) (reason : UInt32) (info : MwOpaque) :
    InOrder chan
      ⟨.gone, .channel chan (.sends (destroyMessage chan.id reason info)) ::
        enterState chan c (closedState reason) t⟩ := by
  have h' := h.close (closedState_cases reason)
  have htype : (destroyMessage chan.id reason info).body.type = .channelDestroy := rfl
  refine of_gone (h'.proper.cons ?_)
  exact {
    create := by simp [Event.Sends, htype]
    accept := by simp [Event.Sends, htype]
    outgoing := by simp [Event.Sends, htype]
    incoming := by simp [Event.Sends, htype]
    destroy := fun _ _ => (h'.live _ rfl).destroyed
    opened := by simp }

end InOrder

section

variable {k : Setting} {chan : ChanRef} {v v' : ChannelView}

theorem CallStep.inOrder (hstep : CallStep k chan v v') (hv : InOrder chan v) : InOrder chan v' := by
  have hsend (call : SendCall) : (Event.send call).Mute chan :=
    ⟨by simp [Event.Sends], by simp [Event.Brings], by simp⟩
  have hselect (cipher : Bool) : (Event.select chan cipher).Mute chan :=
    ⟨by simp [Event.Sends], by simp [Event.Brings], by simp⟩
  cases hstep with
  | describe hsame => exact hv.state hsame.state
  | setService => exact hv.state rfl
  | populate => exact hv.state rfl
  | select => exact (hv.mute (hselect _)).state rfl
  | @create c t msg state _ hinit hid _ hstate =>
    have halive := hv.live c rfl
    obtain ⟨hcreate, haccept, hopened⟩ := halive.init hinit
    have hproper : Proper chan (.channel chan (.sends ⟨{}, .channelCreate msg⟩)) t := {
      create := fun _ => hcreate
      accept := by simp [Event.Sends, MwMessageBody.type]
      outgoing := by simp [Event.Sends, MwMessageBody.type]
      incoming := by simp [Event.Sends, MwMessageBody.type]
      destroy := fun _ _ => halive.destroyed
      opened := by simp }
    have hmute : (Event.channel chan (.state state)).Mute chan :=
      ⟨by simp [Event.Sends], by simp [Event.Brings], by obtain rfl | rfl := hstate <;> simp⟩
    refine InOrder.of_live ((hv.proper.cons hproper).cons (hmute.proper _)) (Alive.mute ?_ hmute)
    exact {
      destroyed := by simpa [Event.Sends, Event.Brings, MwMessageBody.type] using halive.destroyed
      init := by obtain rfl | rfl := hstate <;> simp
      wait := by simpa [Event.Sends, MwMessageBody.type] using fun _ => ⟨haccept, hopened⟩
      outgoing := by obtain rfl | rfl := hstate <;> simp
      incoming := by obtain rfl | rfl := hstate <;> simp }
  | destroy reason info => exact hv.destroy reason info
  | send _ _ hopened => exact ((hv.mute (hsend _)).sends hopened _).state rfl
  | queue => exact (hv.mute (hsend _)).state rfl
  | garbled => exact hv.mute (hsend _)

theorem inOrder_recv {c : MwChannel} {t : List Event} {m : ChannelMessage}
    {ci : Option MwCipherInstance} {data : MwOpaque} (_ : receivedData c m = some (ci, data))
    (hv : InOrder chan ⟨.live c, t⟩) :
    InOrder chan ⟨.live { c with msgRecv := c.msgRecv + 1, cipher := ci }, t⟩ :=
  hv.state rfl

theorem inOrder_hand {c : MwChannel} {t : List Event} (type : UInt16) (data : MwOpaque)
    (hv : InOrder chan ⟨.live c, t⟩) :
    InOrder chan ⟨.live c, .callback (.recv c.service chan type data) :: t⟩ :=
  hv.mute ⟨by simp [Event.Sends], by simp [Event.Brings], by simp⟩

theorem flushed_inOrder {c : MwChannel} {t : List Event} (hv : InOrder chan ⟨.live c, t⟩)
    (hopened : c.state = .opened) (l : List ChannelMessage) :
    InOrder chan ⟨.live c, flushed chan l t⟩ := by
  induction l generalizing t with
  | nil => exact hv
  | cons m l ih =>
    have hrest := ih (hv.sends hopened m)
    simpa [flushed] using hrest

theorem Flushes.inOrder (h : Flushes k chan v v')
    (hopened : ∀ c, v.life = .live c → c.state = .opened) (hv : InOrder chan v) :
    InOrder chan v' := by
  cases h with
  | gone hrecv => exact hrecv.keeps CallStep.inOrder inOrder_recv inOrder_hand hv
  | @done c c' t t' hrecv =>
    have hmid := hrecv.keeps CallStep.inOrder inOrder_recv inOrder_hand hv
    have hc : c.state = .opened := hopened c rfl
    have hc' : c'.state = .opened := (hrecv.state (by simp [hc])).trans hc
    exact (flushed_inOrder hmid hc' c'.outgoingQueue).state rfl

theorem select_mute (chan : ChanRef) (cipher : Bool) : (Event.select chan cipher).Mute chan :=
  ⟨by simp [Event.Sends], by simp [Event.Brings], by simp⟩

theorem Selects.inOrder {c c' : MwChannel} {t t' : List Event} (h : Selects chan (c, t) (c', t'))
    (hv : InOrder chan ⟨.live c, t⟩) : InOrder chan ⟨.live c', t'⟩ := by
  cases h with
  | before => exact hv
  | now => exact (hv.mute (select_mute chan _)).state rfl

theorem Selects.state {c c' : MwChannel} {t t' : List Event} (h : Selects chan (c, t) (c', t')) :
    c'.state = c.state := by
  cases h <;> rfl

/-- `mwChannel_accept` has written its message; the channel opens unless that failed. -/
theorem accepting_inOrder {c : MwChannel} {t : List Event} (hv : InOrder chan ⟨.live c, t⟩)
    (hwait : c.state = .wait) (hid : mwChannelIdIsIncoming chan.id = true)
    (msg : MwMsgChannelAccept) {state : MwChannelState} (hstate : state = .error ∨ state = .opened) :
    InOrder chan
      ⟨.live { c with state := state },
        .channel chan (.state state) ::
          .channel chan (.sends ⟨{ channel := chan.id }, .channelAccept msg⟩) :: t⟩ := by
  have halive := hv.live c rfl
  obtain ⟨haccept, hopened, -⟩ := halive.wait hwait
  have hout : mwChannelIdIsOutgoing chan.id = false := by
    simpa [mwChannelIdIsIncoming] using hid
  set e : Event := .channel chan (.sends ⟨{ channel := chan.id }, .channelAccept msg⟩) with he
  have hsends : Proper chan e t := {
    create := by simp [he, Event.Sends, MwMessageBody.type]
    accept := fun _ => haccept
    outgoing := by simp [hout]
    incoming := by simp [he, Event.Sends, MwMessageBody.type]
    destroy := fun _ _ => halive.destroyed
    opened := by simp [he] }
  have hstates : Proper chan (.channel chan (.state state)) (e :: t) := {
    create := by simp [Event.Sends]
    accept := by simp [Event.Sends]
    outgoing := by simp [Event.Sends]
    incoming := by simp [Event.Sends]
    destroy := by simp [Event.Sends]
    opened := by simpa [he] using fun _ => hopened }
  refine InOrder.of_live ((hv.proper.cons hsends).cons hstates) ?_
  exact {
    destroyed := by
      simpa [he, Event.Sends, Event.Brings, MwMessageBody.type] using halive.destroyed
    init := by obtain rfl | rfl := hstate <;> simp
    wait := by obtain rfl | rfl := hstate <;> simp
    outgoing := by simp [hout]
    incoming := by simp [he, Event.Sends, MwMessageBody.type] }

theorem AcceptStep.inOrder (h : AcceptStep k chan v v') (hv : InOrder chan v) : InOrder chan v' := by
  have hselected {c c' : MwChannel} {t t' : List Event}
      (hselect : c.cipher = none ∧ Selects chan (c, t) (c', t') ∨
        c.cipher ≠ none ∧ (c', t') = (c, t)) (hv : InOrder chan ⟨.live c, t⟩) :
      InOrder chan ⟨.live c', t'⟩ ∧ c'.state = c.state := by
    obtain ⟨-, hselect⟩ | ⟨-, heq⟩ := hselect
    · exact ⟨hselect.inOrder hv, hselect.state⟩
    · obtain ⟨rfl, rfl⟩ := Prod.mk.inj heq
      exact ⟨hv, rfl⟩
  cases h with
  | failed _ hwait hid hselect =>
    obtain ⟨hv', hstate⟩ := hselected hselect hv
    exact (accepting_inOrder hv' (hstate.trans hwait) hid _ (.inl rfl)).state rfl
  | opened _ hwait hid hselect _ hflush =>
    obtain ⟨hv', hstate⟩ := hselected hselect hv
    refine hflush.inOrder ?_ ((accepting_inOrder hv' (hstate.trans hwait) hid _ (.inr rfl)).state rfl)
    intro d hd
    rw [← Life.live.inj hd]

theorem state_mute {state : MwChannelState} (hstate : state ≠ .opened) :
    (Event.channel chan (.state state)).Mute chan :=
  ⟨by simp [Event.Sends], by simp [Event.Brings], by simpa using hstate⟩

/-- The first two events of a channel -/
theorem born_proper : AllProper chan [.channel chan (.state .wait), .channel chan .born] := by
  have hnil : AllProper chan [] := by
    intro e t' hsuffix
    simp at hsuffix
  have hborn : (Event.channel chan .born).Mute chan :=
    ⟨by simp [Event.Sends], by simp [Event.Brings], by simp⟩
  exact (hnil.cons (hborn.proper [])).cons ((state_mute (by simp)).proper _)

theorem Acts.inOrder (h : Acts k chan v v') (hv : InOrder chan v) : InOrder chan v' := by
  cases h with
  | call h => exact h.inOrder hv
  | accept h => exact h.inOrder hv
  | newOutgoing t =>
    obtain rfl : t = [] := hv.unborn rfl
    refine InOrder.of_live (born_proper.cons ((state_mute (by simp)).proper _)) ?_
    exact {
      destroyed := by simp [Sent, Arrived, Event.Sends, Event.Brings]
      init := by simp [Sent, Opened, Event.Sends]
      wait := by simp
      outgoing := by simp
      incoming := by simp }
  | missed t => exact InOrder.of_gone hv.proper

/-- Nothing is written for a channel while the service hears that it has been destroyed, as
long as the service leaves it at that. -/
theorem closed_calls {c : MwChannel} {t : List Event} {v : ChannelView}
    (h : Relation.ReflTransGen (CallStep k chan) ⟨.live c, t⟩ v) (hlife : v.life ≠ .gone)
    (hclosed : c.state = .error ∨ c.state = .destroy) (ht : AllProper chan t) :
    AllProper chan v.history := by
  suffices hall : (∃ d, v.life = .live d ∧ (d.state = .error ∨ d.state = .destroy)) ∧
      AllProper chan v.history from hall.2
  induction h with
  | refl => exact ⟨⟨c, rfl, hclosed⟩, ht⟩
  | @tail v v' hsteps hstep ih =>
    have hmute (call : SendCall) : (Event.send call).Mute chan :=
      ⟨by simp [Event.Sends], by simp [Event.Brings], by simp⟩
    have hmid : v.life ≠ .gone := by
      intro hgone
      obtain ⟨life, t'⟩ := v
      obtain rfl : life = .gone := hgone
      cases hstep
    obtain ⟨⟨d, hd, hstate⟩, hproper⟩ := ih hmid
    cases hstep with
    | describe hsame =>
      obtain rfl := Life.live.inj hd
      exact ⟨⟨_, rfl, by rwa [hsame.state]⟩, hproper⟩
    | setService | populate =>
      obtain rfl := Life.live.inj hd
      exact ⟨⟨_, rfl, hstate⟩, hproper⟩
    | select =>
      obtain rfl := Life.live.inj hd
      exact ⟨⟨_, rfl, hstate⟩, hproper.cons ((select_mute chan _).proper _)⟩
    | create _ hinit =>
      obtain rfl := Life.live.inj hd
      simp [hinit] at hstate
    | destroy => exact absurd rfl hlife
    | send _ _ hopened =>
      obtain rfl := Life.live.inj hd
      simp [hopened] at hstate
    | queue | garbled =>
      obtain rfl := Life.live.inj hd
      exact ⟨⟨_, rfl, hstate⟩, hproper.cons ((hmute _).proper _)⟩

theorem enterState_proper {c : MwChannel} {t : List Event} {state : MwChannelState}
    (hstate : state ≠ .opened) (ht : AllProper chan t) :
    AllProper chan (enterState chan c state t) := by
  unfold enterState
  split
  · exact ht
  · exact ht.cons ((state_mute hstate).proper t)

theorem Arrives.inOrder (hk : k.spares) (h : Arrives k chan v v') (hv : InOrder chan v) :
    InOrder chan v' := by
  have harrives (msg : MwMessage) (hmsg : msg.body.type ≠ .channelDestroy) :
      (Event.channel chan (.arrives msg)).Mute chan :=
    ⟨by simp [Event.Sends], by simpa [Event.Brings] using hmsg, by simp⟩
  cases h with
  | replaced t => exact InOrder.of_gone hv.proper
  | refused head msg t =>
    obtain rfl : t = [] := hv.unborn rfl
    have hcreate := born_proper.cons ((harrives ⟨head, .channelCreate msg⟩ (by simp
      [MwMessageBody.type])).proper _)
    have herror : (Event.channel chan (.state .error)).Mute chan := state_mute (by simp)
    refine InOrder.of_gone ((hcreate.cons (herror.proper _)).cons ?_)
    exact {
      create := by simp [Sent, Event.Sends]
      accept := by simp [Sent, Event.Sends]
      outgoing := by simp [Event.Sends, destroyMessage, MwMessageBody.type]
      incoming := by simp [Event.Sends, destroyMessage, MwMessageBody.type]
      destroy := by simp [Sent, Arrived, Event.Sends, Event.Brings, MwMessageBody.type]
      opened := by simp }
  | announced head msg t hid hwait =>
    obtain rfl : t = [] := hv.unborn rfl
    have hcreate := born_proper.cons ((harrives ⟨head, .channelCreate msg⟩ (by simp
      [MwMessageBody.type])).proper _)
    refine InOrder.of_live hcreate ?_
    have hout : mwChannelIdIsOutgoing chan.id = false := by
      simpa [mwChannelIdIsIncoming] using hid
    exact {
      destroyed := by simp [Sent, Arrived, Event.Sends, Event.Brings, MwMessageBody.type]
      init := by simp [hwait]
      wait := by simp [Sent, Opened, Event.Sends, hout]
      outgoing := by simp [hwait]
      incoming := by simp [hwait] }
  | unwanted reason t => exact hv.destroy reason []
  | rejected head msg t reason =>
    exact (hv.mute (harrives _ (by simp [MwMessageBody.type]))).destroy reason []
  | @accepted head msg c c' c1 t t' v v' hwait hid hsame hselect hcalls hflush =>
    have harrived := hv.mute (harrives ⟨head, .channelAccept msg⟩ (by simp [MwMessageBody.type]))
    have hselected := hselect.inOrder (harrived.state hsame.state)
    have hstate : c1.state = .wait := hselect.state.trans (hsame.state.trans hwait)
    have halive := hselected.live c1 rfl
    obtain ⟨-, hopened, hcreate⟩ := halive.wait hstate
    have hin : mwChannelIdIsIncoming chan.id = false := by
      simp [mwChannelIdIsIncoming, hid]
    have haccept : Arrived chan .channelAccept t' := by
      cases hselect <;> simp [Event.Brings, MwMessageBody.type]
    have hopen : InOrder chan
        ⟨.live { c1 with state := .opened }, .channel chan (.state .opened) :: t'⟩ := by
      refine InOrder.of_live (hselected.proper.cons ?_) ?_
      · exact {
          create := by simp [Event.Sends]
          accept := by simp [Event.Sends]
          outgoing := by simp [Event.Sends]
          incoming := by simp [Event.Sends]
          destroy := by simp [Event.Sends]
          opened := fun _ => hopened }
      · exact {
          destroyed := by simpa [Event.Sends, Event.Brings] using halive.destroyed
          init := by simp
          wait := by simp
          outgoing := by
            simpa [Event.Sends, Event.Brings] using fun _ => ⟨hcreate hid, haccept⟩
          incoming := by simp [hin] }
    have hserved := callSteps_keeps CallStep.inOrder hcalls.calls hopen
    obtain ⟨-, rfl⟩ | hflush := hflush
    · exact hserved
    · refine hflush.inOrder ?_ hserved
      intro d hd
      obtain ⟨life, t1⟩ := v
      obtain rfl : life = .live d := hd
      exact callSteps_state hcalls.calls (by simp)
  | @destroyed head msg c t t' life hcalls =>
    have hbring : Proper chan (.channel chan (.arrives ⟨head, .channelDestroy msg⟩)) t := {
      create := by simp [Event.Sends]
      accept := by simp [Event.Sends]
      outgoing := by simp [Event.Sends]
      incoming := by simp [Event.Sends]
      destroy := by simp [Event.Sends]
      opened := by simp }
    have hne : closedState msg.reason ≠ .opened := by
      obtain h | h := closedState_cases msg.reason <;> simp [h]
    exact InOrder.of_gone (closed_calls hcalls.calls (hcalls.spares hk)
      (closedState_cases msg.reason) (enterState_proper hne (hv.proper.cons hbring)))
  | received m _ hrecv =>
    refine hrecv.keeps CallStep.inOrder inOrder_recv inOrder_hand (hv.mute (harrives _ ?_))
    simp [ChannelMessage.toMessage, MwMessageBody.type]
  | queued m =>
    refine (hv.mute (harrives _ ?_)).state rfl
    simp [ChannelMessage.toMessage, MwMessageBody.type]

theorem Lives.inOrder (hk : k.spares) (h : Lives k chan v v') (hv : InOrder chan v) :
    InOrder chan v' := by
  induction h with
  | refl => exact hv
  | tail _ hstep ih =>
    cases hstep with
    | acts h => exact h.inOrder ih
    | arrives h => exact h.inOrder hk ih

end

/-! ## Runs -/

/-- What belongs to a channel says all that the protocol asks about. -/
theorem Event.mute_of_other {chan : ChanRef} {e : Event} (he : e.isOf chan = false) :
    e.Mute chan := by
  refine ⟨?_, ?_, ?_⟩
  · intro type hsends
    cases e with
    | channel chan' e' => cases e' <;> simp_all [Event.Sends, Event.isOf]
    | _ => exact hsends
  · intro hbrings
    cases e with
    | channel chan' e' => cases e' <;> simp_all [Event.Brings, Event.isOf]
    | _ => exact hbrings
  · rintro rfl
    simp [Event.isOf] at he

section

variable {chan : ChanRef} {t : List Event}

theorem sent_filter (type : MwMessageType) :
    Sent chan type (t.filter (·.isOf chan)) ↔ Sent chan type t := by
  constructor
  · rintro ⟨e, he, hsends⟩
    exact ⟨e, (List.mem_filter.mp he).1, hsends⟩
  · rintro ⟨e, he, hsends⟩
    refine ⟨e, List.mem_filter.mpr ⟨he, ?_⟩, hsends⟩
    by_contra hof
    exact (Event.mute_of_other (by simpa using hof)).sends type hsends

theorem arrived_of_filter {type : MwMessageType} (h : Arrived chan type (t.filter (·.isOf chan))) :
    Arrived chan type t := by
  obtain ⟨e, he, hbrings⟩ := h
  exact ⟨e, (List.mem_filter.mp he).1, hbrings⟩

theorem arrived_filter_destroy :
    Arrived chan .channelDestroy (t.filter (·.isOf chan)) ↔ Arrived chan .channelDestroy t := by
  refine ⟨arrived_of_filter, ?_⟩
  rintro ⟨e, he, hbrings⟩
  refine ⟨e, List.mem_filter.mpr ⟨he, ?_⟩, hbrings⟩
  by_contra hof
  exact (Event.mute_of_other (by simpa using hof)).destroy hbrings

theorem opened_filter : Opened chan (t.filter (·.isOf chan)) ↔ Opened chan t := by
  simp [Opened, Event.isOf]

theorem Proper.of_filter {e : Event} (h : Proper chan e (t.filter (·.isOf chan))) :
    Proper chan e t where
  create := fun hsends => (sent_filter _).not.mp (h.create hsends)
  accept := fun hsends => (sent_filter _).not.mp (h.accept hsends)
  outgoing := fun hid hsends =>
    ⟨(sent_filter _).mp (h.outgoing hid hsends).1, arrived_of_filter (h.outgoing hid hsends).2⟩
  incoming := fun hid hsends => (sent_filter _).mp (h.incoming hid hsends)
  destroy := fun type hsends =>
    ⟨(sent_filter _).not.mp (h.destroy type hsends).1,
      arrived_filter_destroy.not.mp (h.destroy type hsends).2⟩
  opened := fun heq => opened_filter.not.mp (h.opened heq)

theorem AllProper.of_filter (h : AllProper chan (t.filter (·.isOf chan))) : AllProper chan t := by
  intro e t' hsuffix
  cases he : e.isOf chan with
  | false => exact (Event.mute_of_other he).proper t'
  | true =>
    have hfilter := List.IsSuffix.filter (·.isOf chan) hsuffix
    rw [List.filter_cons_of_pos he] at hfilter
    exact (h e _ hfilter).of_filter

end

/-- Services that leave their channels alone: everything that is written for a channel is
written when the protocol allows it, and a channel is opened once. -/
theorem run_proper (env : Env) (n : Nat) (handler : MwSessionHandler) (services : List MwService)
    (ciphers : List MwCipher) (attributes : Attributes) (chan : ChanRef)
    (hwrite : ∀ b s, env.write b s = ([], 0)) (hspares : ∀ m, (env.hooks m).Spares chan)
    (commands : List Command) :
    AllProper chan
      (run (env.hooks n) commands (mwSessionNew handler services ciphers attributes)).trace := by
  have hrun := (runAny_lives n handler services ciphers attributes commands
    (fun b s => by rw [hwrite]) (fun _ : True => hspares)).2
  have hnew : InOrder chan ⟨.unborn, []⟩ := {
    proper := by
      intro e t' hsuffix
      simp at hsuffix
    unborn := fun _ => rfl
    live := fun _ h => absurd h (by simp) }
  exact (hrun.inOrder trivial hnew).proper.of_filter

/-- A client that lets its services do nothing spares every channel. -/
theorem idle_spares (n : Nat) (chan : ChanRef) : (Env.idle.hooks n).Spares chan := by
  intro cb _ s hs
  cases n with
  | zero => exact hs
  | succ n => exact hs

theorem run_proper_idle :
    AllProper ⟨1, 0⟩
      (run (Env.idle.hooks 1)
        [.start, .call .newOutgoing, .call (.channel ⟨1, 0⟩ .create),
          .call (.channel ⟨1, 0⟩ (.sendEncrypted 1 [] true)), .call (.channel ⟨1, 0⟩ (.destroy 0 []))]
        (mwSessionNew {} [] [] {})).trace :=
  run_proper Env.idle 1 {} [] [] {} ⟨1, 0⟩ (fun _ _ => rfl) (fun m => idle_spares m _) _

end Meanwhile
