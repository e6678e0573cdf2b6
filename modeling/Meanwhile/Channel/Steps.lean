-- SUMMARY: The life of a channel taken apart into small steps, for invariants that every one of them keeps.
import Meanwhile.Channel.Arrivals

/-!
# Small steps

A step of the machine that involves a service has the calls of the service in the
middle. `SmallStep` is what happens between two such calls. A property that every small
step keeps holds in a whole run, and inside of it; what holds between the steps of a run
only is at the end.
-/

namespace Meanwhile

/-- What happens to a channel between two calls of a service -/
inductive SmallStep (k : Setting) (chan : ChanRef) : ChannelView → ChannelView → Prop where
  | call {v v' : ChannelView} (h : CallStep k chan v v') : SmallStep k chan v v'
  | newOutgoing (t : List Event) :
      SmallStep k chan ⟨.unborn, t⟩
        ⟨.live { addr := chan.addr, state := .init },
          .channel chan (.state .init) :: .channel chan (.state .wait) :: .channel chan .born :: t⟩
  | missed (t : List Event) : SmallStep k chan ⟨.unborn, t⟩ ⟨.gone, t⟩
  /-- The channel is out of its set. -/
  | removed {c : MwChannel} (t : List Event) : SmallStep k chan ⟨.live c, t⟩ ⟨.gone, t⟩
  | refused (head : MwMessageHead) (msg : MwMsgChannelCreate) (t : List Event)
      (hid : mwChannelIdIsOutgoing chan.id = true) :
      SmallStep k chan ⟨.unborn, t⟩
        ⟨.gone, .channel chan (.sends (destroyMessage chan.id errRequestInvalid [])) ::
          .channel chan (.state .error) :: .channel chan (.arrives ⟨head, .channelCreate msg⟩) ::
            .channel chan (.state .wait) :: .channel chan .born :: t⟩
  | announced (head : MwMessageHead) (msg : MwMsgChannelCreate) (t : List Event) {c : MwChannel}
      {l : List MwCipherInstance} (hid : mwChannelIdIsIncoming chan.id = true)
      (hstate : c.state = .wait) (hcipher : c.cipher = none) (hpolicy : c.policy = 0)
      (hqueues : c.outgoingQueue = [] ∧ c.incomingQueue = []) (hl : c.supported = some l)
      (hitems : ∀ ci ∈ l, (k.ciphers ci.type ∧ ci.shape = freshShape ci.type) ∧
        ci.type.code ∈ msg.encrypt.items.map (·.id)) :
      SmallStep k chan ⟨.unborn, t⟩
        ⟨.live c, .channel chan (.arrives ⟨head, .channelCreate msg⟩) ::
          .channel chan (.state .wait) :: .channel chan .born :: t⟩
  /-- The library destroys the channel. -/
  | closed {c : MwChannel} (reason : UInt32) (t : List Event) :
      SmallStep k chan ⟨.live c, t⟩
        ⟨.gone, .channel chan (.sends (destroyMessage chan.id reason [])) ::
          enterState chan c (closedState reason) t⟩
  /-- The channel is accepted here. -/
  | accepts {c c' : MwChannel} {t t' : List Event} {ci : Option MwCipherInstance}
      {msg : MwMsgChannelAccept} {state : MwChannelState} (hwait : c.state = .wait)
      (hid : mwChannelIdIsIncoming chan.id = true)
      (hselect : c.cipher = none ∧ Selects chan (c, t) (c', t') ∨ c.cipher ≠ none ∧ (c', t') = (c, t))
      (hci : SameCipher c'.cipher ci) (hstate : state = .error ∨ state = .opened) :
      SmallStep k chan ⟨.live c, t⟩
        ⟨.live { c' with cipher := ci, state := state },
          .channel chan (.state state) ::
            .channel chan (.sends ⟨{ channel := chan.id }, .channelAccept msg⟩) :: t'⟩
  /-- The channel has been accepted there. -/
  | accepted {c c' c1 : MwChannel} {t t' : List Event} (hwait : c.state = .wait)
      (hid : mwChannelIdIsOutgoing chan.id = true) (hsame : c.Same { c' with policy := c.policy })
      (hselect : Selects chan (c', t) (c1, t')) :
      SmallStep k chan ⟨.live c, t⟩
        ⟨.live { c1 with state := .opened }, .channel chan (.state .opened) :: t'⟩
  /-- The channel has been destroyed there. -/
  | destroyed {c : MwChannel} (reason : UInt32) (t : List Event) :
      SmallStep k chan ⟨.live c, t⟩
        ⟨.live { c with state := closedState reason }, enterState chan c (closedState reason) t⟩
  /-- A message of the server is for the channel. -/
  | arrives {c : MwChannel} (msg : MwMessage) (t : List Event) :
      SmallStep k chan ⟨.live c, t⟩ ⟨.live c, .channel chan (.arrives msg) :: t⟩
  | queued {c : MwChannel} (m : ChannelMessage) (t : List Event) (hopened : c.state ≠ .opened) :
      SmallStep k chan ⟨.live c, t⟩
        ⟨.live { c with incomingQueue := c.incomingQueue ++ [m] }, t⟩
  | received {c : MwChannel} {m : ChannelMessage} {t : List Event} {ci : Option MwCipherInstance}
      {data : MwOpaque} (hdata : receivedData c m = some (ci, data)) :
      SmallStep k chan ⟨.live c, t⟩ ⟨.live { c with msgRecv := c.msgRecv + 1, cipher := ci }, t⟩
  | handed {c : MwChannel} (type : UInt16) (data : MwOpaque) (t : List Event) :
      SmallStep k chan ⟨.live c, t⟩ ⟨.live c, .callback (.recv c.service chan type data) :: t⟩
  /-- All that waits is written. -/
  | flushed {c : MwChannel} (t : List Event) :
      SmallStep k chan ⟨.live c, t⟩
        ⟨.live { c with incomingQueue := [], outgoingQueue := [] },
          flushed chan c.outgoingQueue t⟩

def SmallSteps (k : Setting) (chan : ChanRef) : ChannelView → ChannelView → Prop :=
  Relation.ReflTransGen (SmallStep k chan)

section

variable {k : Setting} {chan : ChanRef} {v v' : ChannelView}

/-! ## Histories grow -/

theorem enterState_suffix {c : MwChannel} (state : MwChannelState) (t : List Event) :
    t <:+ enterState chan c state t := by
  unfold enterState
  split
  · exact List.suffix_refl t
  · exact List.suffix_cons _ t

theorem Selects.suffix {c c' : MwChannel} {t t' : List Event} (h : Selects chan (c, t) (c', t')) :
    t <:+ t' := by
  cases h with
  | before => exact List.suffix_refl t
  | now => exact List.suffix_cons _ t

theorem CallStep.suffix (h : CallStep k chan v v') : v.history <:+ v'.history := by
  cases h with
  | describe | setService | populate => exact List.suffix_refl _
  | select | queue | garbled => exact List.suffix_cons _ _
  | create | send => exact ⟨[_, _], rfl⟩
  | destroy => exact (enterState_suffix _ _).trans (List.suffix_cons _ _)

theorem SmallStep.suffix (h : SmallStep k chan v v') : v.history <:+ v'.history := by
  cases h with
  | call h => exact h.suffix
  | newOutgoing | announced => exact ⟨[_, _, _], rfl⟩
  | refused => exact ⟨[_, _, _, _, _], rfl⟩
  | missed | removed | queued | received => exact List.suffix_refl _
  | arrives | handed => exact List.suffix_cons _ _
  | closed => exact (enterState_suffix _ _).trans (List.suffix_cons _ _)
  | destroyed => exact enterState_suffix _ _
  | @accepts c c' t t' _ _ _ _ _ hselect =>
    have ht : t <:+ t' := by
      obtain ⟨-, hselect⟩ | ⟨-, heq⟩ := hselect
      · exact hselect.suffix
      · rw [(Prod.mk.inj heq).2]
    exact ht.trans ⟨[_, _], rfl⟩
  | accepted _ _ _ hselect => exact hselect.suffix.trans (List.suffix_cons _ _)
  | flushed => exact ⟨_, rfl⟩

/-! ## Taking steps apart -/

theorem CallSteps.small (h : Relation.ReflTransGen (CallStep k chan) v v') : SmallSteps k chan v v' :=
  Relation.ReflTransGen.mono (fun _ _ hstep => .call hstep) _ _ h

theorem Receives.small {m : ChannelMessage} (h : Receives k chan m v v') : SmallSteps k chan v v' := by
  cases h with
  | gone => exact .refl
  | garbled => exact .refl
  | ignored hdata => exact .single (.received hdata)
  | handed hdata _ hcalls =>
    exact .head (.received hdata) (.head (.handed _ _ _) (CallSteps.small hcalls.calls))

theorem Delivers.small {l : List ChannelMessage} (h : Delivers k chan l v v') :
    SmallSteps k chan v v' := by
  induction h with
  | nil => exact .refl
  | cons hm _ ih => exact hm.small.trans ih

theorem Flushes.small (h : Flushes k chan v v') : SmallSteps k chan v v' := by
  cases h with
  | gone hrecv => exact hrecv.small
  | done hrecv => exact hrecv.small.tail (.flushed _)

theorem Acts.small (h : Acts k chan v v') : SmallSteps k chan v v' := by
  cases h with
  | call h => exact .single (.call h)
  | accept h =>
    cases h with
    | failed _ hwait hid hselect hci => exact .single (.accepts hwait hid hselect hci (.inl rfl))
    | opened _ hwait hid hselect hci hflush =>
      exact .head (.accepts hwait hid hselect hci (.inr rfl)) hflush.small
  | newOutgoing t => exact .single (.newOutgoing t)
  | missed t => exact .single (.missed t)

theorem Arrives.small (h : Arrives k chan v v') : SmallSteps k chan v v' := by
  cases h with
  | replaced t => exact .single (.removed t)
  | refused head msg t hid => exact .single (.refused head msg t hid)
  | announced head msg t hid hstate hcipher hpolicy hqueues hl hitems =>
    exact .single (.announced head msg t hid hstate hcipher hpolicy hqueues hl hitems)
  | unwanted reason t => exact .single (.closed reason t)
  | rejected head msg t reason => exact .head (.arrives ⟨head, .channelAccept msg⟩ t) (.single (.closed reason _))
  | accepted head msg hwait hid hsame hselect hcalls hflush =>
    refine .head (.arrives ⟨head, .channelAccept msg⟩ _) ?_
    refine .head (.accepted hwait hid hsame hselect) ?_
    refine (CallSteps.small hcalls.calls).trans ?_
    obtain ⟨-, rfl⟩ | hflush := hflush
    · exact .refl
    · exact hflush.small
  | @destroyed head msg c t t' life hcalls =>
    refine .head (.arrives ⟨head, .channelDestroy msg⟩ _) (.head (.destroyed msg.reason _) ?_)
    refine (CallSteps.small hcalls.calls).trans ?_
    cases life with
    | live c => exact .single (.removed t')
    | gone => exact .refl
    | unborn =>
      have hsettled := callSteps_settled hcalls.calls
        (by obtain h | h := closedState_cases msg.reason <;> simp [ChannelView.Settled, h])
      exact hsettled.elim
  | received m _ hrecv => exact .head (.arrives m.toMessage _) hrecv.small
  | queued m hopened => exact .head (.arrives m.toMessage _) (.single (.queued m _ hopened))

theorem Lives.small (h : Lives k chan v v') : SmallSteps k chan v v' := by
  induction h with
  | refl => exact .refl
  | tail _ hstep ih =>
    cases hstep with
    | acts h => exact ih.trans h.small
    | arrives h => exact ih.trans h.small

/-- What every small step keeps holds after a run. -/
theorem Lives.keeps {I : ChannelView → Prop} (hI : ∀ {v v'}, SmallStep k chan v v' → I v → I v')
    (h : Lives k chan v v') (hv : I v) : I v' := by
  have hsmall := h.small
  clear h
  induction hsmall with
  | refl => exact hv
  | tail _ hstep ih => exact hI hstep ih

/-! ## Between the steps of a run -/

/-- Nothing waits in a channel that is open. -/
def Rested (v : ChannelView) : Prop :=
  ∀ c, v.life = .live c → c.state = .opened → c.incomingQueue = [] ∧ c.outgoingQueue = []

theorem rested_live {c c' : MwChannel} {t t' : List Event} (hv : Rested ⟨.live c, t⟩)
    (hstate : c'.state = c.state) (hin : c'.incomingQueue = c.incomingQueue)
    (hout : c'.outgoingQueue = c.outgoingQueue) : Rested ⟨.live c', t'⟩ := by
  intro d hd hopened
  rw [← Life.live.inj hd] at hopened ⊢
  rw [hin, hout]
  exact hv c rfl (hstate ▸ hopened)

theorem rested_closed {c : MwChannel} {t : List Event} (hstate : c.state ≠ .opened) :
    Rested ⟨.live c, t⟩ := by
  intro d hd hopened
  rw [← Life.live.inj hd] at hopened
  exact absurd hopened hstate

theorem rested_gone (t : List Event) : Rested ⟨.gone, t⟩ := by
  intro c hc
  exact absurd hc (by simp)

theorem CallStep.rested (h : CallStep k chan v v') (hv : Rested v) : Rested v' := by
  cases h with
  | describe hsame => exact rested_live hv hsame.state hsame.incomingQueue hsame.outgoingQueue
  | create _ _ _ _ hstate =>
    exact rested_closed (by obtain rfl | rfl := hstate <;> simp)
  | destroy => exact rested_gone _
  | queue _ _ hopened => exact rested_closed hopened
  | setService | populate | select | send | garbled => exact rested_live hv rfl rfl rfl

theorem Receives.rested {m : ChannelMessage} (h : Receives k chan m v v') (hv : Rested v) :
    Rested v' :=
  h.keeps CallStep.rested (fun _ hv => rested_live hv rfl rfl rfl)
    (fun _ _ hv => rested_live hv rfl rfl rfl) hv

/-- Flushing leaves nothing behind. -/
theorem Flushes.rested (h : Flushes k chan v v') : Rested v' := by
  cases h with
  | gone => exact rested_gone _
  | done =>
    intro d hd _
    rw [← Life.live.inj hd]
    exact ⟨rfl, rfl⟩

theorem LifeStep.rested (h : LifeStep k chan v v') (hv : Rested v) : Rested v' := by
  cases h with
  | acts h =>
    cases h with
    | call h => exact h.rested hv
    | accept h =>
      cases h with
      | failed => exact rested_closed (by simp)
      | opened _ _ _ _ _ hflush => exact hflush.rested
    | newOutgoing => exact rested_closed (by simp)
    | missed => exact rested_gone _
  | arrives h =>
    cases h with
    | announced _ _ _ _ hstate => exact rested_closed (by simp [hstate])
    | @accepted _ _ _ _ _ _ _ v _ _ _ _ _ _ hflush =>
      obtain ⟨hgone, rfl⟩ | hflush := hflush
      · intro c hc
        rw [hgone] at hc
        exact absurd hc (by simp)
      · exact hflush.rested
    | received m _ hrecv => exact hrecv.rested (rested_live hv rfl rfl rfl)
    | queued m hopened => exact rested_closed hopened
    | replaced | refused | unwanted | rejected | destroyed => exact rested_gone _

theorem Lives.rested (h : Lives k chan v v') (hv : Rested v) : Rested v' := by
  induction h with
  | refl => exact hv
  | tail _ hstep ih => exact hstep.rested ih

end

end Meanwhile
