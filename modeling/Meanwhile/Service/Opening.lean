-- SUMMARY: The eight operations that open a channel to the server, and what they leave in the session when the write of the create fails.
import Meanwhile.Channel.Ids
import Meanwhile.Session.Effects
import Meanwhile.Service.Im
import Meanwhile.Service.FileTransfer
import Meanwhile.Service.Place

/-!
# Opening channels

Four services open a channel when they start, and four kinds of objects open one when
the client asks for it. All of them take a channel from `mwChannel_newOutgoing`, say
what it is for and create it. `mwChannel_newOutgoing` puts the channel into the set of
the session, and none of the eight takes it out again when `mwChannel_create` fails:
they forget the only pointer to it.

Each operation returns what its object keeps and what `mwChannel_create` returned, if
it came to that.
-/

namespace Meanwhile.Opening

open Im (MwConversation)
open Ft (MwFileTransferState)
open Place (MwPlaceState)

/-! ## What the client does meanwhile -/

/-- The same channels, by their ids and by where they are, whatever has become of them -/
def SameChannels (s s' : MwSession) : Prop :=
  ∀ id, (s'.channels.map id).map (·.addr) = (s.channels.map id).map (·.addr)

/-- `struct mwFileTransfer`, of an offer -/
structure MwFileTransfer where
  state : MwFileTransferState := .new
  who : MwIdBlock := {}
  filename : MwString := none
  message : MwString := none
  size : UInt32 := 0
  channel : Option ChanRef := none

/-- What the operations call outside of the library. None of it opens or closes a
channel itself. -/
structure Client where
  hooks : Hooks
  /-- `ft_closed` -/
  ftClosed : MwFileTransfer → UInt32 → Session Unit
  /-- The time and the random number in a generated name, as `"(%08x,%04x)"` has them -/
  stamp : MwSession → List UInt8
  write_same : ∀ b, Keeps SameChannels (hooks.ioWrite b)
  closed_same : ∀ ft code, Keeps SameChannels (ftClosed ft code)

/-! ## The operations -/

/-- What an operation says of its channel -/
structure Plan where
  service : UInt32
  protoType : UInt32
  protoVer : UInt32
  /-- Offer all known ciphers. -/
  ciphers : Bool := false
  target : Option MwIdBlock := none
  addtl : Option MwOpaque := none

/-- Everything that is said of a channel before it is created -/
def Plan.tell (p : Plan) (chan : ChanRef) : Session Unit := do
  mwChannelSetService chan p.service
  mwChannelSetProtoType chan p.protoType
  mwChannelSetProtoVer chan p.protoVer
  if p.ciphers then mwChannelPopulateSupportedCipherInstances chan
  p.target.forM fun target =>
    mwChannelSetUser chan { userId := target.user, community := target.community }
  p.addtl.forM (mwChannelSetAddtlCreate chan)

/-- What the operations have in common: a new channel, told what it is for and created,
with what `mwChannel_create` returned -/
def Plan.open (h : Hooks) (p : Plan) : Session (Option (ChanRef × Int)) := do
  match ← mwChannelNewOutgoing with
  | none => return none
  | some chan =>
      p.tell chan
      let ret ← mwChannelCreate h chan
      return some (chan, ret)

/-- What an operation leaves: its object, and what `mwChannel_create` returned -/
structure Opened (α : Type) where
  object : α
  created : Option Int := none

section

variable (c : Client)

/-- The start of a service that keeps one channel -/
def start (p : Plan) (channel : Option ChanRef) : Session (Opened (Option ChanRef)) := do
  match ← p.open c.hooks with
  | none => return { object := channel }
  | some (chan, ret) =>
      if ret ≠ 0 then
        mwServiceStopped p.service
        return { object := channel, created := some ret }
      return { object := some chan, created := some ret }

/-- `make_blist` of srvc_aware.c -/
def makeBlist : Plan := { service := 0x11, protoType := 0x11, protoVer := 0x00030005 }

/-- `make_channel` of srvc_store.c -/
def storeMakeChannel : Plan := { service := 0x18, protoType := 0x25, protoVer := 1 }

/-- `make_channel` of srvc_resolve.c -/
def resolveMakeChannel : Plan := { service := 0x15, protoType := 0x15, protoVer := 0 }

/-- `make_channel` of srvc_dir.c -/
def dirMakeChannel : Plan := { service := 0x1a, protoType := 0x1c, protoVer := 5 }

def awareStart : Option ChanRef → Session (Opened (Option ChanRef)) := start c makeBlist
def storageStart : Option ChanRef → Session (Opened (Option ChanRef)) := start c storeMakeChannel
def resolveStart : Option ChanRef → Session (Opened (Option ChanRef)) := start c resolveMakeChannel
def directoryStart : Option ChanRef → Session (Opened (Option ChanRef)) := start c dirMakeChannel

/-- What `convo_create_chan` says of its channel -/
def convoPlan (conv : MwConversation) : Plan where
  service := Im.mwServiceIm
  protoType := Im.protocolType
  protoVer := Im.protocolVer
  ciphers := true
  target := some conv.target
  addtl := some (guint32Put Im.mwImAddtlANormal ++ guint32Put conv.features)

/-- `convo_create_chan`, of the conversation at an address -/
def convoCreateChan (self : Nat) (conv : MwConversation) : Session (Opened MwConversation) := do
  if conv.state ≠ .pending ∨ conv.channel.isSome then return { object := conv }
  match ← (convoPlan conv).open c.hooks with
  | none => return { object := conv }
  | some (chan, ret) =>
      if ret ≠ 0 then return { object := conv, created := some ret }
      mwChannelSetServiceData chan self
      return { object := { conv with channel := some chan }, created := some ret }

/-- `mwConversation_open` -/
def mwConversationOpen (self : Nat) (conv : MwConversation) : Session (Opened MwConversation) :=
  if conv.state ≠ .closed then return { object := conv }
  else convoCreateChan c self { conv with state := .pending }

/-- What `ft_create_chan` says of its channel -/
def ftPlan (ft : MwFileTransfer) : Plan where
  service := 0x38
  protoType := 0
  protoVer := 1
  ciphers := true
  target := some ft.who
  addtl := some (guint32Put 0 ++ mwStringPut ft.filename ++ mwStringPut ft.message ++
    guint32Put ft.size ++ guint32Put 0 ++ guint16Put 0)

/-- `ft_create_chan` -/
def ftCreateChan (self : Nat) (ft : MwFileTransfer) : Session (Opened MwFileTransfer) := do
  if ft.state ≠ .new ∨ ft.channel.isSome then return { object := ft }
  match ← (ftPlan ft).open c.hooks with
  | none => return { object := ft }
  | some (chan, ret) =>
      if ret ≠ 0 then return { object := ft, created := some ret }
      mwChannelSetServiceData chan self
      return { object := { ft with channel := some chan }, created := some ret }

/-- `mwFileTransfer_close` -/
def mwFileTransferClose (ft : MwFileTransfer) (code : UInt32) : Session MwFileTransfer := do
  let ft := if ft.state = .opened then { ft with state := .cancelLocal } else ft
  match ft.channel with
  | some chan => discard (mwChannelDestroy c.hooks chan code [])
  | none => pure ()
  let ft := { ft with channel := none }
  c.ftClosed ft code
  return ft

/-- `mwFileTransfer_offer` -/
def mwFileTransferOffer (self : Nat) (ft : MwFileTransfer) : Session (Opened MwFileTransfer) := do
  if ft.channel.isSome ∨ ft.state ≠ .new then return { object := ft }
  let done ← ftCreateChan c self ft
  match done.object.channel with
  | some _ => return { done with object := { done.object with state := .pending } }
  | none =>
      let ft ← mwFileTransferClose c { done.object with state := .error } errFailure
      return { done with object := ft }

/-- `struct mwPlace`, as far as opening it goes -/
structure MwPlace where
  state : MwPlaceState := .new
  name : MwString := none
  title : MwString := none
  channel : Option ChanRef := none

/-- The bytes of a string literal -/
def bytes (s : String) : List UInt8 := s.toList.map fun ch => UInt8.ofNat ch.toNat

/-- `place_generate_name` -/
def placeGenerateName (s : MwSession) : MwString :=
  let user := match s.login.userId with
    | some user => user.val
    | none => bytes "meanwhile"
  some (.ofBytes (user ++ c.stamp s))

/-- `place_generate_title` -/
def placeGenerateTitle (s : MwSession) : MwString :=
  let user := match s.login.userName with
    | some user => user.val
    | none => bytes "Meanwhile"
  some (.ofBytes (user ++ bytes "'s Conference"))

/-- `mwPlace_getName` and `mwPlace_getTitle`, which make up what has not been given -/
def MwPlace.named (s : MwSession) (p : MwPlace) : MwPlace :=
  { p with
    name := p.name.or (placeGenerateName c s)
    title := p.title.or (placeGenerateTitle s) }

/-- What `mwPlace_open` says of its channel -/
def placePlan (p : MwPlace) : Plan where
  service := 0x80000022
  protoType := 0
  protoVer := 5
  ciphers := true
  addtl := some (mwStringPut p.name ++ mwStringPut p.title ++ guint32Put 0)

/-- `mwPlace_open` -/
def mwPlaceOpen (self : Nat) (p : MwPlace) : Session (Opened MwPlace) := do
  let p := p.named c (← get)
  match ← (placePlan p).open c.hooks with
  | none => return { object := p }
  | some (chan, ret) =>
      if ret ≠ 0 then return { object := { p with state := .error }, created := some ret }
      mwChannelSetServiceData chan self
      return { object := { p with state := .pending, channel := some chan }, created := some ret }

/-- `enum mwConferenceState` -/
inductive MwConferenceState where
  | new | pending | invited | opened | closing | error | unknown
deriving DecidableEq, Repr

/-- `struct mwConference`, as far as opening it goes -/
structure MwConference where
  state : MwConferenceState := .new
  name : MwString := none
  title : MwString := none
  channel : Option ChanRef := none

/-- `conf_generate_name`, for the user that `mwConference_open` gives it -/
def confGenerateName (s : MwSession) : MwString :=
  let user := match s.attributes.authUserId with
    | some user => user.val
    | none => bytes "meanwhile"
  some (.ofBytes (user ++ c.stamp s))

/-- What `mwConference_open` says of its channel -/
def conferencePlan (conf : MwConference) : Plan where
  service := 0x80000010
  protoType := 0x10
  protoVer := 2
  addtl := some (mwStringPut conf.name ++ mwStringPut conf.title ++ guint32Put 0)

/-- `mwConference_open` -/
def mwConferenceOpen (conf : MwConference) : Session (Opened MwConference) := do
  if conf.state ≠ .new ∨ conf.channel.isSome then return { object := conf }
  let conf := { conf with name := conf.name.or (confGenerateName c (← get)) }
  match ← (conferencePlan conf).open c.hooks with
  | none => return { object := conf }
  | some (chan, ret) =>
      if ret ≠ 0 then return { object := { conf with state := .error }, created := some ret }
      return { object := { conf with state := .pending, channel := some chan }, created := some ret }

/-- The operations that open a channel -/
inductive Operation where
  | awareStart (channel : Option ChanRef)
  | storageStart (channel : Option ChanRef)
  | resolveStart (channel : Option ChanRef)
  | directoryStart (channel : Option ChanRef)
  | conversationOpen (self : Nat) (conv : MwConversation)
  | fileTransferOffer (self : Nat) (ft : MwFileTransfer)
  | placeOpen (self : Nat) (p : MwPlace)
  | conferenceOpen (conf : MwConference)

/-- Run an operation for what `mwChannel_create` returned. -/
def Operation.run : Operation → Session (Option Int)
  | awareStart channel => Opened.created <$> Opening.awareStart c channel
  | storageStart channel => Opened.created <$> Opening.storageStart c channel
  | resolveStart channel => Opened.created <$> Opening.resolveStart c channel
  | directoryStart channel => Opened.created <$> Opening.directoryStart c channel
  | conversationOpen self conv => Opened.created <$> mwConversationOpen c self conv
  | fileTransferOffer self ft => Opened.created <$> mwFileTransferOffer c self ft
  | placeOpen self p => Opened.created <$> mwPlaceOpen c self p
  | conferenceOpen conf => Opened.created <$> mwConferenceOpen c conf

end

/-! ## What goes on after the channel is in the set -/

instance : Std.Refl SameChannels where
  refl := fun _ _ => rfl

instance : IsTrans _ SameChannels where
  trans := fun _ _ _ hst htu id => (htu id).trans (hst id)

theorem sameChannels_of_map {s s' : MwSession} (hmap : s'.channels.map = s.channels.map) :
    SameChannels s s' := fun id => by rw [hmap]

/-- A channel that is there may be replaced by a later state of it. -/
theorem sameChannels_setChannel {s : MwSession} {chan : ChanRef} {c c' : MwChannel}
    (hc : s.channel? chan = some c) (haddr : c'.addr = c.addr) :
    SameChannels s (s.setChannel chan.id (some c')) := by
  intro id
  by_cases hid : id = chan.id
  · subst hid
    obtain ⟨hmap, -⟩ := map_of_channel? hc
    simp [MwSession.setChannel, hmap, haddr]
  · simp [MwSession.setChannel, Function.update_of_ne hid]

instance : Primitive SameChannels where
  plain := fun _ _ _ => sameChannels_of_map rfl
  core := fun h => sameChannels_of_map h.map
  update := fun hc h => sameChannels_setChannel hc h.addr

instance (chan : ChanRef) : Lenient SameChannels chan where
  change := fun hc haddr _ _ => sameChannels_setChannel hc haddr
  select := fun _ _ => sameChannels_of_map rfl

theorem setChannelState_same (chan : ChanRef) (state : MwChannelState) :
    Keeps SameChannels (setChannelState chan state) := by
  refine derefThen_keeps chan (Keeps.pure _) fun c => ?_
  refine Keeps.ite (fun _ => Keeps.pure _) fun _ => ?_
  refine Keeps.bind (updateChannel_of fun hc => sameChannels_setChannel hc rfl) fun _ => ?_
  exact fun _ => sameChannels_of_map rfl

theorem setServiceData_same (chan : ChanRef) (data : Nat) :
    Keeps SameChannels (mwChannelSetServiceData chan data) :=
  updateChannel_keeps chan fun _ => ⟨rfl, rfl, rfl, rfl, rfl, rfl, rfl, rfl, rfl⟩

theorem optionForM_same {β : Type} (o : Option β) {f : β → Session Unit}
    (hf : ∀ b, Keeps SameChannels (f b)) : Keeps SameChannels (o.forM f) := by
  cases o with
  | none => exact Keeps.pure _
  | some b => exact hf b

theorem Plan.tell_same (p : Plan) (chan : ChanRef) : Keeps SameChannels (p.tell chan) := by
  refine Keeps.bind (setService_keeps p.service) fun _ => ?_
  refine Keeps.bind (setWhileInit_keeps chan fun _ => ⟨rfl, rfl, rfl, rfl, rfl, rfl, rfl, rfl, rfl⟩)
    fun _ => ?_
  refine Keeps.bind (setWhileInit_keeps chan fun _ => ⟨rfl, rfl, rfl, rfl, rfl, rfl, rfl, rfl, rfl⟩)
    fun _ => ?_
  have hrest : Keeps SameChannels (do
      p.target.forM fun target =>
        mwChannelSetUser chan { userId := target.user, community := target.community }
      p.addtl.forM (mwChannelSetAddtlCreate chan)) := by
    refine Keeps.bind (optionForM_same _ fun target => ?_) fun _ =>
      optionForM_same _ fun addtl => ?_
    · exact updateChannel_keeps chan fun _ => ⟨rfl, rfl, rfl, rfl, rfl, rfl, rfl, rfl, rfl⟩
    · exact updateChannel_keeps chan fun _ => ⟨rfl, rfl, rfl, rfl, rfl, rfl, rfl, rfl, rfl⟩
  exact Keeps.ite (fun _ => Keeps.bind populate_keeps fun _ => hrest) fun _ => hrest

section

variable (c : Client)

theorem create_same (chan : ChanRef) : Keeps SameChannels (mwChannelCreate c.hooks chan) := by
  refine derefThen_keeps chan (Keeps.pure _) fun ch => ?_
  refine Keeps.ite (fun _ => Keeps.pure _) fun _ => ?_
  refine Keeps.bind (changeChannel_keeps fun _ => ⟨rfl, rfl, rfl⟩) fun _ => ?_
  refine Keeps.bind Keeps.get fun s => ?_
  refine Keeps.bind ?_ fun ret => Keeps.bind (setChannelState_same chan _) fun _ => Keeps.pure _
  unfold sendFor
  refine Keeps.bind (fun _ => sameChannels_of_map rfl) fun _ t => ?_
  rw [mwSessionSend_of_ne _ fun _ h => MwMessageBody.noConfusion h]
  exact c.write_same _ _

/-- A new channel is one more in the set. -/
theorem newOutgoing_more {s : MwSession} {chan : ChanRef}
    (hchan : (mwChannelNewOutgoing s).1 = some chan) :
    ¬ SameChannels s (mwChannelNewOutgoing s).2 := by
  intro hsame
  rw [newOutgoing_fst] at hchan
  obtain ⟨id, hid, -⟩ := Option.map_eq_some_iff.mp hchan
  have hnone := nextOutgoingId_free hid
  have hsame := hsame id
  rw [newOutgoing_of_some hid, hnone] at hsame
  have hlive := channel?_withState (channel?_announced
    { s with channels := { s.channels with counter := id } } id) .init
  change MwSession.channel? (MwSession.outgoing _ id) ⟨id, s.nextAddr⟩ = some _ at hlive
  rw [(map_of_channel? hlive).1] at hsame
  exact absurd hsame (by simp)

/-- It stays there, whatever becomes of it. -/
theorem Plan.open_more {p : Plan} {s : MwSession} {r : ChanRef × Int}
    (hr : (p.open c.hooks s).1 = some r) : ¬ SameChannels s (p.open c.hooks s).2 := by
  rw [Plan.open, Session.bind_apply] at hr ⊢
  cases hchan : (mwChannelNewOutgoing s).1 with
  | none => simp [hchan] at hr
  | some chan =>
    have hrest : Keeps SameChannels (do
        p.tell chan
        let ret ← mwChannelCreate c.hooks chan
        return some (chan, ret)) :=
      Keeps.bind (p.tell_same chan) fun _ => Keeps.bind (create_same c chan) fun _ => Keeps.pure _
    intro hsame
    refine newOutgoing_more hchan fun id => ?_
    exact (hrest _ id).symm.trans (hsame id)

/-! ## What the operations leave -/

variable {α : Type}

/-- If it comes to `mwChannel_create`, there is a channel more afterwards. -/
def Leaves (x : Session (Opened α)) : Prop :=
  ∀ s ret, (x s).1.created = some ret → ¬ SameChannels s (x s).2

theorem leaves_pure (a : α) : Leaves (return { object := a }) := fun _ _ h => nomatch h

theorem leaves_ite {p : Prop} [Decidable p] {x y : Session (Opened α)} (hx : Leaves x)
    (hy : Leaves y) : Leaves (if p then x else y) := by
  split
  · exact hx
  · exact hy

/-- Going on after the channel has been created, without touching the set -/
theorem Plan.open_leaves {p : Plan} {f : Option (ChanRef × Int) → Session (Opened α)}
    (hnone : ∀ s, (f none s).1.created = none) (hsome : ∀ r, Keeps SameChannels (f (some r))) :
    Leaves (p.open c.hooks >>= f) := by
  intro s ret hret hsame
  rw [Session.bind_apply] at hret hsame
  cases hr : (p.open c.hooks s).1 with
  | none =>
    rw [hr, hnone] at hret
    exact nomatch hret
  | some r =>
    rw [hr] at hsame
    exact p.open_more c hr fun id => (hsome r _ id).symm.trans (hsame id)

theorem start_leaves (p : Plan) (channel : Option ChanRef) : Leaves (start c p channel) := by
  refine Plan.open_leaves c (fun _ => rfl) fun (chan, ret) => ?_
  refine Keeps.ite (fun _ => ?_) fun _ => Keeps.pure _
  exact Keeps.bind (setServiceState_keeps p.service .stopped) fun _ => Keeps.pure _

theorem convoCreateChan_leaves (self : Nat) (conv : MwConversation) :
    Leaves (convoCreateChan c self conv) := by
  refine leaves_ite (leaves_pure conv) ?_
  refine Plan.open_leaves c (fun _ => rfl) fun (chan, ret) => ?_
  refine Keeps.ite (fun _ => Keeps.pure _) fun _ => ?_
  exact Keeps.bind (setServiceData_same chan self) fun _ => Keeps.pure _

theorem conversationOpen_leaves (self : Nat) (conv : MwConversation) :
    Leaves (mwConversationOpen c self conv) :=
  leaves_ite (leaves_pure conv) (convoCreateChan_leaves c self _)

theorem ftCreateChan_leaves (self : Nat) (ft : MwFileTransfer) :
    Leaves (ftCreateChan c self ft) := by
  refine leaves_ite (leaves_pure ft) ?_
  refine Plan.open_leaves c (fun _ => rfl) fun (chan, ret) => ?_
  refine Keeps.ite (fun _ => Keeps.pure _) fun _ => ?_
  exact Keeps.bind (setServiceData_same chan self) fun _ => Keeps.pure _

/-- Closing a transfer that has no channel only tells the client. -/
theorem fileTransferClose_same (ft : MwFileTransfer) (hft : ft.channel = none) (code : UInt32) :
    Keeps SameChannels (mwFileTransferClose c ft code) := by
  have hchannel : (if ft.state = .opened then { ft with state := .cancelLocal } else ft).channel =
      none := by
    split <;> exact hft
  unfold mwFileTransferClose
  dsimp only
  rw [hchannel]
  exact Keeps.bind (c.closed_same _ code) fun _ => Keeps.pure _

theorem fileTransferOffer_leaves (self : Nat) (ft : MwFileTransfer) :
    Leaves (mwFileTransferOffer c self ft) := by
  refine leaves_ite (leaves_pure ft) fun s ret hret hsame => ?_
  rw [Session.bind_apply] at hret hsame
  have hleaves := ftCreateChan_leaves c self ft s
  generalize ftCreateChan c self ft s = r at hret hsame hleaves
  obtain ⟨done, t⟩ := r
  dsimp only at hret hsame hleaves
  cases hchannel : done.object.channel with
  | some chan =>
    rw [hchannel] at hret hsame
    exact hleaves ret hret hsame
  | none =>
    rw [hchannel] at hret hsame
    have hclose := fileTransferClose_same c { done.object with state := .error, channel := none } rfl
      errFailure t
    exact hleaves ret hret fun id => (hclose id).symm.trans (hsame id)

theorem placeOpen_leaves (self : Nat) (p : MwPlace) : Leaves (mwPlaceOpen c self p) := by
  intro s
  rw [mwPlaceOpen, Session.get_bind]
  refine Plan.open_leaves c (fun _ => rfl) (fun (chan, ret) => ?_) s
  refine Keeps.ite (fun _ => Keeps.pure _) fun _ => ?_
  exact Keeps.bind (setServiceData_same chan self) fun _ => Keeps.pure _

theorem conferenceOpen_leaves (conf : MwConference) : Leaves (mwConferenceOpen c conf) := by
  refine leaves_ite (leaves_pure conf) fun s => ?_
  rw [Session.get_bind]
  refine Plan.open_leaves c (fun _ => rfl) (fun (chan, ret) => ?_) s
  exact Keeps.ite (fun _ => Keeps.pure _) fun _ => Keeps.pure _

/-- However the create fails, the channel that it was for stays in the session. -/
theorem Operation.run_leaves (op : Operation) (s : MwSession) (ret : Int) :
    (op.run c s).1 = some ret → ret ≠ 0 → ¬ SameChannels s (op.run c s).2 := by
  intro hret _
  cases op with
  | awareStart channel => exact start_leaves c makeBlist channel s ret hret
  | storageStart channel => exact start_leaves c storeMakeChannel channel s ret hret
  | resolveStart channel => exact start_leaves c resolveMakeChannel channel s ret hret
  | directoryStart channel => exact start_leaves c dirMakeChannel channel s ret hret
  | conversationOpen self conv => exact conversationOpen_leaves c self conv s ret hret
  | fileTransferOffer self ft => exact fileTransferOffer_leaves c self ft s ret hret
  | placeOpen self p => exact placeOpen_leaves c self p s ret hret
  | conferenceOpen conf => exact conferenceOpen_leaves c conf s ret hret

end

/-- A client whose connection is gone -/
def disconnected : Client where
  hooks :=
    { ioWrite := fun _ => return -1
      ioClose := pure ()
      call := fun _ => pure ()
      uninit := {}
      fresh := fun _ => .zero
      keyRandom := fun _ => [0, 0, 0, 0, 0]
      randPrivateKey := fun _ => 0 }
  ftClosed := fun _ _ => pure ()
  stamp := fun _ => bytes "(00000000,0000)"
  write_same := fun _ => Keeps.pure _
  closed_same := fun _ _ => Keeps.pure _

theorem disconnected_awareStart :
    ((Operation.awareStart none).run disconnected {}).1 = some (-1) := by
  decide +kernel

theorem Operation.run_leaves_awareStart :
    ∃ (op : Operation) (ret : Int), (op.run disconnected {}).1 = some ret ∧ ret ≠ 0 ∧
      ¬ SameChannels {} (op.run disconnected {}).2 :=
  ⟨.awareStart none, -1, disconnected_awareStart, by decide,
    Operation.run_leaves disconnected (.awareStart none) {} (-1) disconnected_awareStart (by decide)⟩

/-- A start of the awareness service that cannot write leaves its channel in the set. -/
theorem not_run_undone :
    ¬ ∀ (c : Client) (op : Operation) (s : MwSession) (ret : Int),
      (op.run c s).1 = some ret → ret ≠ 0 → SameChannels s (op.run c s).2 := fun h =>
  start_leaves disconnected makeBlist none {} (-1) disconnected_awareStart
    (h disconnected (.awareStart none) {} (-1) disconnected_awareStart (by decide))

end Meanwhile.Opening
