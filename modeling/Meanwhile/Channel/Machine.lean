-- SUMMARY: A channel on its own: what can happen to it while a session runs, as a state machine.
import Meanwhile.Channel.Direct

/-!
# The life of a channel

A session seen from one of its channels: whether the channel is there, what it is
like, and what has happened to it. `Calls` is what calls into the library can make
of that, `Lives` is what a whole run can. Calls are made by services too, while they
are told about the channel, so a step that involves a service has the calls of the
service inside it.

That `io_write` makes no calls is built in: what the library does between two
callbacks is one step.
-/

namespace Meanwhile

/-! ## Views -/

/-- Events that belong to a channel -/
def Event.isOf (chan : ChanRef) : Event → Bool
  | .send call => call.chan = chan
  | .select chan' _ | .channel chan' _ => chan' = chan
  | .callback (.recv _ chan' _ _) => chan' = chan
  | _ => false

inductive Life where
  | unborn
  | live (c : MwChannel)
  | gone

/-- A channel, and what has happened to it, the latest event first -/
structure ChannelView where
  life : Life
  history : List Event

/-- One more event -/
def ChannelView.log (v : ChannelView) (e : Event) : ChannelView := ⟨v.life, e :: v.history⟩

def MwSession.life (s : MwSession) (chan : ChanRef) : Life :=
  match s.channel? chan with
  | some c => .live c
  | none => if s.nextAddr ≤ chan.addr then .unborn else .gone

def MwSession.history (s : MwSession) (chan : ChanRef) : List Event :=
  s.trace.filter (·.isOf chan)

def MwSession.view (s : MwSession) (chan : ChanRef) : ChannelView := ⟨s.life chan, s.history chan⟩

/-- What a cipher instance is apart from its key: its type and its running vectors, the
outgoing one first -/
def MwCipherInstance.shape : MwCipherInstance → MwCipherType × Block × Block
  | .rc2_40 ci => (.rc2_40, ci.outgoingIv, ci.incomingIv)
  | .rc2_128 ci => (.rc2_128, ci.outgoingIv, ci.incomingIv)

theorem MwCipherInstance.shape_type (ci : MwCipherInstance) : ci.shape.1 = ci.type := by
  cases ci <;> rfl

/-- An instance of a type that has not been used -/
def freshShape (type : MwCipherType) : MwCipherType × Block × Block := (type, mwIvInit, mwIvInit)

/-- What surrounds a channel -/
structure Setting where
  /-- The calls that are made on the channel, by what it is like then -/
  calls : ChannelCall → MwChannel → Prop
  /-- Services leave a channel alone while they are told about it. -/
  spares : Prop
  /-- The types of the ciphers there are -/
  ciphers : MwCipherType → Prop
  /-- The services that take what arrives on their channels -/
  receives : UInt32 → Bool

/-! ## Calls -/

/-- The history with a change of state, if it is one -/
def enterState (chan : ChanRef) (c : MwChannel) (state : MwChannelState) (t : List Event) :
    List Event :=
  if c.state = state then t else .channel chan (.state state) :: t

/-- The channel once a cipher has been selected -/
def MwChannel.selected (c : MwChannel) (ci : Option MwCipherInstance) : MwChannel :=
  { c with
    cipher := ci
    policy := match ci with
      | some ci => ci.type.policy
      | none => encryptNone
    supported := none }

/-- What a channel has when a message is sent on it -/
structure SendCall.Suits (k : Setting) (chan : ChanRef) (c : MwChannel) (call : SendCall) : Prop where
  calls : k.calls (.sendEncrypted call.type call.data call.encrypt) c
  chan : call.chan = chan
  cipher : call.cipher = c.cipher
  state : call.state = c.state
  queue : call.queue = c.outgoingQueue
  owner : ∀ ci, c.cipher = some ci → k.ciphers ci.type →
    ∃ cipher : MwCipher, call.owner = some cipher ∧ cipher.type = ci.type

/-- A call that no service is told about -/
inductive CallStep (k : Setting) (chan : ChanRef) : ChannelView → ChannelView → Prop where
  | describe {c c' : MwChannel} {t : List Event} (hsame : c.Same c') :
      CallStep k chan ⟨.live c, t⟩ ⟨.live c', t⟩
  | setService {c : MwChannel} {t : List Event} (srvc : UInt32) (hinit : c.state = .init) :
      CallStep k chan ⟨.live c, t⟩ ⟨.live { c with service := srvc }, t⟩
  | populate {c : MwChannel} {t : List Event} {l l' : List MwCipherInstance}
      (hcall : k.calls .populateSupportedCipherInstances c) (hl : c.supported = some l)
      (hl' : ∀ ci ∈ l', ci ∈ l ∨ k.ciphers ci.type ∧ ci.shape = freshShape ci.type) :
      CallStep k chan ⟨.live c, t⟩ ⟨.live { c with supported := some l' }, t⟩
  | select {c : MwChannel} {t : List Event} {l : List MwCipherInstance} {ci : Option MwCipherInstance}
      (hcall : ∃ type, k.calls (.selectCipherInstance type) c) (hl : c.supported = some l)
      (hci : ∀ ci' ∈ ci, ci' ∈ l) :
      CallStep k chan ⟨.live c, t⟩ ⟨.live (c.selected ci), .select chan ci.isSome :: t⟩
  | create {c : MwChannel} {t : List Event} {msg : MwMsgChannelCreate} {state : MwChannelState}
      (hcall : k.calls .create c) (hinit : c.state = .init)
      (hid : mwChannelIdIsOutgoing chan.id = true)
      (hitems : ∀ ci ∈ c.supported.getD [], k.ciphers ci.type →
        ci.type.code ∈ msg.encrypt.items.map (·.id))
      (hstate : state = .wait ∨ state = .error) :
      CallStep k chan ⟨.live c, t⟩
        ⟨.live { c.offering with state := state },
          .channel chan (.state state) :: .channel chan (.sends ⟨{}, .channelCreate msg⟩) :: t⟩
  | destroy {c : MwChannel} {t : List Event} (reason : UInt32) (info : MwOpaque)
      (hcall : k.calls (.destroy reason info) c) :
      CallStep k chan ⟨.live c, t⟩
        ⟨.gone, .channel chan (.sends (destroyMessage chan.id reason info)) ::
          enterState chan c (closedState reason) t⟩
  | send {c : MwChannel} {t : List Event} {call : SendCall} {msg : ChannelMessage}
      {ci : Option MwCipherInstance} (hcall : call.Suits k chan c)
      (hmsg : call.compose = some (msg, ci)) (hopened : c.state = .opened) :
      CallStep k chan ⟨.live c, t⟩
        ⟨.live { c with cipher := ci <|> c.cipher },
          .channel chan (.sends msg.toMessage) :: .send call :: t⟩
  | queue {c : MwChannel} {t : List Event} {call : SendCall} {msg : ChannelMessage}
      {ci : Option MwCipherInstance} (hcall : call.Suits k chan c)
      (hmsg : call.compose = some (msg, ci)) (hopened : c.state ≠ .opened) :
      CallStep k chan ⟨.live c, t⟩
        ⟨.live { c with cipher := ci <|> c.cipher, outgoingQueue := c.outgoingQueue ++ [msg] },
          .send call :: t⟩
  | garbled {c : MwChannel} {t : List Event} {call : SendCall} (hcall : call.Suits k chan c)
      (hmsg : call.compose = none) : CallStep k chan ⟨.live c, t⟩ ⟨.live c, .send call :: t⟩

/-- What a service does that is told about the channel while it cannot be opened: any
number of such calls, and it leaves the channel alone if services do that. -/
structure Serves (k : Setting) (chan : ChanRef) (v v' : ChannelView) : Prop where
  calls : Relation.ReflTransGen (CallStep k chan) v v'
  spares : k.spares → v'.life ≠ .gone

/-! ## Receiving -/

/-- What becomes of a message that the channel hands on -/
inductive Receives (k : Setting) (chan : ChanRef) (m : ChannelMessage) :
    ChannelView → ChannelView → Prop where
  | gone (t : List Event) : Receives k chan m ⟨.gone, t⟩ ⟨.gone, t⟩
  | garbled {c : MwChannel} {t : List Event} (hdata : receivedData c m = none) :
      Receives k chan m ⟨.live c, t⟩ ⟨.live c, t⟩
  | ignored {c : MwChannel} {t : List Event} {ci : Option MwCipherInstance} {data : MwOpaque}
      (hdata : receivedData c m = some (ci, data)) (hsrvc : k.receives c.service = false) :
      Receives k chan m ⟨.live c, t⟩
        ⟨.live { c with msgRecv := c.msgRecv + 1, cipher := ci }, t⟩
  | handed {c : MwChannel} {t : List Event} {ci : Option MwCipherInstance} {data : MwOpaque}
      {v : ChannelView} (hdata : receivedData c m = some (ci, data))
      (hsrvc : k.receives c.service = true)
      (hcalls : Serves k chan
        ⟨.live { c with msgRecv := c.msgRecv + 1, cipher := ci },
          .callback (.recv c.service chan m.msg.type data) :: t⟩ v) :
      Receives k chan m ⟨.live c, t⟩ v

/-- The messages that have been waiting, one after the other -/
inductive Delivers (k : Setting) (chan : ChanRef) :
    List ChannelMessage → ChannelView → ChannelView → Prop where
  | nil (v : ChannelView) : Delivers k chan [] v v
  | cons {m : ChannelMessage} {l : List ChannelMessage} {v v' v'' : ChannelView}
      (hm : Receives k chan m v v') (hl : Delivers k chan l v' v'') :
      Delivers k chan (m :: l) v v''

/-- The history with all messages of a queue written -/
def flushed (chan : ChanRef) (l : List ChannelMessage) (t : List Event) : List Event :=
  (l.map fun m => .channel chan (.sends m.toMessage)).reverse ++ t

/-- `flush_channel` -/
inductive Flushes (k : Setting) (chan : ChanRef) : ChannelView → ChannelView → Prop where
  | gone {c : MwChannel} {t t' : List Event}
      (hrecv : Delivers k chan c.incomingQueue ⟨.live c, t⟩ ⟨.gone, t'⟩) :
      Flushes k chan ⟨.live c, t⟩ ⟨.gone, t'⟩
  | done {c c' : MwChannel} {t t' : List Event}
      (hrecv : Delivers k chan c.incomingQueue ⟨.live c, t⟩ ⟨.live c', t'⟩) :
      Flushes k chan ⟨.live c, t⟩
        ⟨.live { c' with incomingQueue := [], outgoingQueue := [] },
          flushed chan c'.outgoingQueue t'⟩

/-! ## Accepting -/

/-- A cipher is decided on, unless that has been done. -/
inductive Selects (chan : ChanRef) : MwChannel × List Event → MwChannel × List Event → Prop where
  | before {c : MwChannel} {t : List Event} (hc : c.supported = none) : Selects chan (c, t) (c, t)
  | now {c : MwChannel} {t : List Event} {l : List MwCipherInstance} {ci : Option MwCipherInstance}
      (hl : c.supported = some l) (hci : ∀ ci' ∈ ci, ∃ ci0 ∈ l, ci'.shape = ci0.shape) :
      Selects chan (c, t) (c.selected ci, .select chan ci.isSome :: t)

/-- The instance of a channel may have got its key. -/
def SameCipher (ci ci' : Option MwCipherInstance) : Prop :=
  ci'.map (·.shape) = ci.map (·.shape)

/-- `mwChannel_accept` on a channel that waits -/
inductive AcceptStep (k : Setting) (chan : ChanRef) : ChannelView → ChannelView → Prop where
  | failed {c c' : MwChannel} {t t' : List Event} {ci : Option MwCipherInstance}
      {msg : MwMsgChannelAccept} (hcall : k.calls .accept c) (hwait : c.state = .wait)
      (hid : mwChannelIdIsIncoming chan.id = true)
      (hselect : c.cipher = none ∧ Selects chan (c, t) (c', t') ∨ c.cipher ≠ none ∧ (c', t') = (c, t))
      (hci : SameCipher c'.cipher ci) :
      AcceptStep k chan ⟨.live c, t⟩
        ⟨.live { c' with cipher := ci, state := .error },
          .channel chan (.state .error) ::
            .channel chan (.sends ⟨{ channel := chan.id }, .channelAccept msg⟩) :: t'⟩
  | opened {c c' : MwChannel} {t t' : List Event} {ci : Option MwCipherInstance}
      {msg : MwMsgChannelAccept} {v : ChannelView} (hcall : k.calls .accept c)
      (hwait : c.state = .wait) (hid : mwChannelIdIsIncoming chan.id = true)
      (hselect : c.cipher = none ∧ Selects chan (c, t) (c', t') ∨ c.cipher ≠ none ∧ (c', t') = (c, t))
      (hci : SameCipher c'.cipher ci)
      (hflush : Flushes k chan
        ⟨.live { c' with cipher := ci, state := .opened },
          .channel chan (.state .opened) ::
            .channel chan (.sends ⟨{ channel := chan.id }, .channelAccept msg⟩) :: t'⟩ v) :
      AcceptStep k chan ⟨.live c, t⟩ v

/-- What a call can do: something to the channel, make it, or make another one. -/
inductive Acts (k : Setting) (chan : ChanRef) : ChannelView → ChannelView → Prop where
  | call {v v' : ChannelView} (h : CallStep k chan v v') : Acts k chan v v'
  | accept {v v' : ChannelView} (h : AcceptStep k chan v v') : Acts k chan v v'
  | newOutgoing (t : List Event) :
      Acts k chan ⟨.unborn, t⟩
        ⟨.live { addr := chan.addr, state := .init },
          .channel chan (.state .init) :: .channel chan (.state .wait) :: .channel chan .born :: t⟩
  | missed (t : List Event) : Acts k chan ⟨.unborn, t⟩ ⟨.gone, t⟩

def Calls (k : Setting) (chan : ChanRef) : ChannelView → ChannelView → Prop :=
  Relation.ReflTransGen (Acts k chan)

/-! ## Messages of the server -/

/-- What a message of the server can do -/
inductive Arrives (k : Setting) (chan : ChanRef) : ChannelView → ChannelView → Prop where
  /-- The id has been given to another channel. -/
  | replaced {c : MwChannel} (t : List Event) : Arrives k chan ⟨.live c, t⟩ ⟨.gone, t⟩
  /-- A channel that is announced under an outgoing id is refused. -/
  | refused (head : MwMessageHead) (msg : MwMsgChannelCreate) (t : List Event)
      (hid : mwChannelIdIsOutgoing chan.id = true) :
      Arrives k chan ⟨.unborn, t⟩
        ⟨.gone, .channel chan (.sends (destroyMessage chan.id errRequestInvalid [])) ::
          .channel chan (.state .error) :: .channel chan (.arrives ⟨head, .channelCreate msg⟩) ::
            .channel chan (.state .wait) :: .channel chan .born :: t⟩
  | announced (head : MwMessageHead) (msg : MwMsgChannelCreate) (t : List Event) {c : MwChannel}
      {l : List MwCipherInstance} (hid : mwChannelIdIsIncoming chan.id = true)
      (hstate : c.state = .wait) (hcipher : c.cipher = none) (hpolicy : c.policy = 0)
      (hqueues : c.outgoingQueue = [] ∧ c.incomingQueue = []) (hl : c.supported = some l)
      (hitems : ∀ ci ∈ l, (k.ciphers ci.type ∧ ci.shape = freshShape ci.type) ∧
        ci.type.code ∈ msg.encrypt.items.map (·.id)) :
      Arrives k chan ⟨.unborn, t⟩
        ⟨.live c, .channel chan (.arrives ⟨head, .channelCreate msg⟩) ::
          .channel chan (.state .wait) :: .channel chan .born :: t⟩
  /-- The service does not want a channel that has been announced. -/
  | unwanted {c : MwChannel} (reason : UInt32) (t : List Event) :
      Arrives k chan ⟨.live c, t⟩
        ⟨.gone, .channel chan (.sends (destroyMessage chan.id reason [])) ::
          enterState chan c (closedState reason) t⟩
  | rejected (head : MwMessageHead) (msg : MwMsgChannelAccept) {c : MwChannel} (t : List Event)
      (reason : UInt32) :
      Arrives k chan ⟨.live c, t⟩
        ⟨.gone, .channel chan (.sends (destroyMessage chan.id reason [])) ::
          enterState chan c (closedState reason)
            (.channel chan (.arrives ⟨head, .channelAccept msg⟩) :: t)⟩
  | accepted (head : MwMessageHead) (msg : MwMsgChannelAccept) {c c' c1 : MwChannel}
      {t t' : List Event} {v v' : ChannelView} (hwait : c.state = .wait)
      (hid : mwChannelIdIsOutgoing chan.id = true)
      (hsame : c.Same { c' with policy := c.policy })
      (hselect : Selects chan (c', .channel chan (.arrives ⟨head, .channelAccept msg⟩) :: t) (c1, t'))
      (hcalls : Serves k chan
        ⟨.live { c1 with state := .opened }, .channel chan (.state .opened) :: t'⟩ v)
      (hflush : v.life = .gone ∧ v' = v ∨ Flushes k chan v v') :
      Arrives k chan ⟨.live c, t⟩ v'
  | destroyed (head : MwMessageHead) (msg : MwMsgChannelDestroy) {c : MwChannel} {t t' : List Event}
      {life : Life}
      (hcalls : Serves k chan
        ⟨.live { c with state := closedState msg.reason },
          enterState chan c (closedState msg.reason)
            (.channel chan (.arrives ⟨head, .channelDestroy msg⟩) :: t)⟩ ⟨life, t'⟩) :
      Arrives k chan ⟨.live c, t⟩ ⟨.gone, t'⟩
  | received (m : ChannelMessage) {c : MwChannel} {t : List Event} {v : ChannelView}
      (hopened : c.state = .opened)
      (hrecv : Receives k chan m
        ⟨.live c, .channel chan (.arrives m.toMessage) :: t⟩ v) :
      Arrives k chan ⟨.live c, t⟩ v
  | queued (m : ChannelMessage) {c : MwChannel} {t : List Event} (hopened : c.state ≠ .opened) :
      Arrives k chan ⟨.live c, t⟩
        ⟨.live { c with incomingQueue := c.incomingQueue ++ [m] },
          .channel chan (.arrives m.toMessage) :: t⟩

/-- One step of a run -/
inductive LifeStep (k : Setting) (chan : ChanRef) : ChannelView → ChannelView → Prop where
  | acts {v v' : ChannelView} (h : Acts k chan v v') : LifeStep k chan v v'
  | arrives {v v' : ChannelView} (h : Arrives k chan v v') : LifeStep k chan v v'

def Lives (k : Setting) (chan : ChanRef) : ChannelView → ChannelView → Prop :=
  Relation.ReflTransGen (LifeStep k chan)

/-! ## Channels that cannot be opened any more -/

/-- The channel is open or closed or gone. -/
def ChannelView.Settled (v : ChannelView) : Prop :=
  match v.life with
  | .unborn => False
  | .live c => c.state ≠ .init ∧ c.state ≠ .wait
  | .gone => True

section

variable {k : Setting} {chan : ChanRef} {v v' : ChannelView}

theorem CallStep.settled (h : CallStep k chan v v') (hv : v.Settled) : v'.Settled := by
  cases h with
  | describe hsame =>
    have hstate := hsame.state
    simp only [ChannelView.Settled, hstate] at hv ⊢
    exact hv
  | create _ hinit => exact absurd hinit hv.1
  | destroy => trivial
  | _ => exact hv

theorem callSteps_settled (h : Relation.ReflTransGen (CallStep k chan) v v') (hv : v.Settled) :
    v'.Settled := by
  induction h with
  | refl => exact hv
  | tail _ hstep ih => exact hstep.settled ih

/-- On such a channel no call does anything that a service would be told. -/
theorem Calls.settled (h : Calls k chan v v') (hv : v.Settled) :
    Relation.ReflTransGen (CallStep k chan) v v' := by
  induction h with
  | refl => exact .refl
  | tail _ hstep ih =>
    have hmid := callSteps_settled ih hv
    cases hstep with
    | call hcall => exact ih.tail hcall
    | accept haccept =>
      cases haccept with
      | failed _ hwait => exact absurd hwait hmid.2
      | opened _ hwait => exact absurd hwait hmid.2
    | newOutgoing => exact hmid.elim
    | missed => exact hmid.elim

theorem CallStep.state {c c' : MwChannel} {t t' : List Event}
    (h : CallStep k chan ⟨.live c, t⟩ ⟨.live c', t'⟩) (hinit : c.state ≠ .init) :
    c'.state = c.state := by
  cases h with
  | describe hsame => exact hsame.state
  | create _ hstate => exact absurd hstate hinit
  | _ => rfl

/-- The calls of a service do not change the state of a channel that is settled. -/
theorem callSteps_state {c c' : MwChannel} {t t' : List Event}
    (h : Relation.ReflTransGen (CallStep k chan) ⟨.live c, t⟩ ⟨.live c', t'⟩)
    (hinit : c.state ≠ .init) : c'.state = c.state := by
  suffices hall : ∀ {v}, Relation.ReflTransGen (CallStep k chan) ⟨.live c, t⟩ v →
      ∀ d t, v = ⟨.live d, t⟩ → d.state = c.state from hall h c' t' rfl
  intro v hv
  induction hv with
  | refl =>
    intro d t hd
    rw [Life.live.inj (congrArg ChannelView.life hd)]
  | @tail v v' _ hstep ih =>
    intro d t hd
    subst hd
    obtain ⟨life, t0⟩ := v
    cases life with
    | live d0 =>
      have hd0 := ih d0 t0 rfl
      exact (hstep.state (by rwa [hd0])).trans hd0
    | _ => cases hstep

end

/-! ## Invariants of the machine -/

section

variable {k : Setting} {chan : ChanRef} {v v' : ChannelView} {I : ChannelView → Prop}
  (hcall : ∀ {v v'}, CallStep k chan v v' → I v → I v')

include hcall

theorem callSteps_keeps (h : Relation.ReflTransGen (CallStep k chan) v v') (hv : I v) : I v' := by
  induction h with
  | refl => exact hv
  | tail _ hstep ih => exact hcall hstep ih

variable (hrecv : ∀ {c : MwChannel} {t m ci data}, receivedData c m = some (ci, data) →
    I ⟨.live c, t⟩ → I ⟨.live { c with msgRecv := c.msgRecv + 1, cipher := ci }, t⟩)
  (hhand : ∀ {c : MwChannel} {t} (type : UInt16) (data : MwOpaque), I ⟨.live c, t⟩ →
    I ⟨.live c, .callback (.recv c.service chan type data) :: t⟩)

include hrecv hhand

theorem Receives.keeps {m : ChannelMessage} (h : Receives k chan m v v') (hv : I v) : I v' := by
  cases h with
  | gone => exact hv
  | garbled => exact hv
  | ignored hdata => exact hrecv hdata hv
  | handed hdata _ hcalls => exact callSteps_keeps hcall hcalls.calls (hhand _ _ (hrecv hdata hv))

theorem Delivers.keeps {l : List ChannelMessage} (h : Delivers k chan l v v') (hv : I v) : I v' := by
  induction h with
  | nil => exact hv
  | cons hm _ ih => exact ih (hm.keeps hcall hrecv hhand hv)

end

/-- A channel stays in its state while messages are handed on. -/
theorem Delivers.state {k : Setting} {chan : ChanRef} {l : List ChannelMessage} {c c' : MwChannel}
    {t t' : List Event} (h : Delivers k chan l ⟨.live c, t⟩ ⟨.live c', t'⟩) (hinit : c.state ≠ .init) :
    c'.state = c.state := by
  let I : ChannelView → Prop := fun v => ∀ d, v.life = .live d → d.state = c.state
  have hcall {v v' : ChannelView} (hstep : CallStep k chan v v') (hv : I v) : I v' := by
    intro d hd
    obtain ⟨life, t1⟩ := v
    obtain ⟨life', t2⟩ := v'
    obtain rfl : life' = .live d := hd
    cases life with
    | live d0 => exact (hstep.state (by rwa [hv d0 rfl])).trans (hv d0 rfl)
    | _ => cases hstep
  have hrecv {c : MwChannel} {t : List Event} {m : ChannelMessage} {ci : Option MwCipherInstance}
      {data : MwOpaque} (_ : receivedData c m = some (ci, data)) (hv : I ⟨.live c, t⟩) :
      I ⟨.live { c with msgRecv := c.msgRecv + 1, cipher := ci }, t⟩ := by
    intro d hd
    rw [← Life.live.inj hd]
    exact hv c rfl
  have hstart : I ⟨.live c, t⟩ := fun d hd => by rw [← Life.live.inj hd]
  exact h.keeps hcall hrecv (fun _ _ hv => hv) hstart c' rfl

end Meanwhile
