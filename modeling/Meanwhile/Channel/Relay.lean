-- SUMMARY: Two sessions with a relay between them: a channel with RC2/128 from its creation on, and all that is said on it.
import Meanwhile.Channel.Negotiation

/-!
# A channel between two sessions

The two ends of a channel belong to sessions of different clients, and the server relays the
messages of one to the other. Its two queues are in the traces of the sessions: a message
waits in one if it has been sent and not been relayed yet.
-/

namespace Meanwhile

/-! ## The relay -/

/-- What becomes of a message that is relayed: it is for the channel with another id then.
Nothing but create, accept and send messages is relayed. It is the message that is relayed and not
its bytes, so that a run says something of the code only as long as one can be read from the
other (`ChannelMessage.Carried`). -/
def MwMessage.relayed (id : UInt32) (msg : MwMessage) : Option MwMessage :=
  match msg.body with
  | .channelCreate m => some { msg with body := .channelCreate { m with channel := id } }
  | .channelAccept _ | .channelSend _ => some { msg with head := { msg.head with channel := id } }
  | _ => none

/-- Sending on a channel -/
inductive ApiCall.Sends (chan : ChanRef) : ApiCall → Prop where
  | sendEncrypted (type : UInt32) (data : MwOpaque) (encrypt : Bool) :
      Sends chan (.channel chan (.sendEncrypted type data encrypt))

/-- Answering on a channel: choosing a cipher, accepting and sending -/
inductive ApiCall.Answers (chan : ChanRef) : ApiCall → Prop where
  | selectCipherInstance (cipher : Option MwCipherType) :
      Answers chan (.channel chan (.selectCipherInstance cipher))
  | accept : Answers chan (.channel chan .accept)
  | sendEncrypted (type : UInt32) (data : MwOpaque) (encrypt : Bool) :
      Answers chan (.channel chan (.sendEncrypted type data encrypt))

/-- A client whose `io_write` succeeds and whose services make calls of one kind -/
structure Env.Serves (env : Env) (ok : ApiCall → Prop) : Prop where
  write : ∀ b s, env.write b s = ([], 0)
  uses : env.Uses ok

/-- Two sessions, and how many messages of each have been relayed to the other -/
structure Relayed where
  creator : MwSession
  acceptor : MwSession
  forth : Nat := 0
  back : Nat := 0

/-- What happens next: the creator creates the channel or sends on it, the acceptor chooses a
cipher, accepts or sends, or a message is relayed. -/
inductive RelayCommand where
  | create
  | send (type : UInt32) (data : MwOpaque) (encrypt : Bool)
  | selectCipherInstance (cipher : Option MwCipherType)
  | accept
  | reply (type : UInt32) (data : MwOpaque) (encrypt : Bool)
  | forth
  | back

section

variable (h h' : Hooks) (chan chan' : ChanRef)

def runRelayCommand : RelayCommand → Relayed → Relayed
  | .create, r => { r with creator := (mwChannelCreate h chan r.creator).2 }
  | .send type data encrypt, r =>
      { r with creator := (runApiCall h (.channel chan (.sendEncrypted type data encrypt)) r.creator).2 }
  | .selectCipherInstance cipher, r =>
      { r with acceptor := (runApiCall h' (.channel chan' (.selectCipherInstance cipher)) r.acceptor).2 }
  | .accept, r => { r with acceptor := (runApiCall h' (.channel chan' .accept) r.acceptor).2 }
  | .reply type data encrypt, r =>
      { r with acceptor := (runApiCall h' (.channel chan' (.sendEncrypted type data encrypt)) r.acceptor).2 }
  | .forth, r =>
      match (sentOn chan r.creator.trace)[r.forth]? >>= (·.relayed chan'.id) with
      | some msg => { r with acceptor := (dispatch h' msg r.acceptor).2, forth := r.forth + 1 }
      | none => r
  | .back, r =>
      match (sentOn chan' r.acceptor.trace)[r.back]? >>= (·.relayed chan.id) with
      | some msg => { r with creator := (dispatch h msg r.creator).2, back := r.back + 1 }
      | none => r

/-- A run, as the commands in order. Whatever the services do in their callbacks comes on top. -/
def runRelay (commands : List RelayCommand) (r : Relayed) : Relayed :=
  commands.foldl (fun r command => runRelayCommand h h' chan chan' command r) r

end

/-- An acceptor that has not heard of the channel -/
structure Fresh (privateKey : Nat) (srvc : UInt32) (chan : ChanRef) (s : MwSession) : Prop where
  equipped : s.Equipped privateKey srvc
  blank : Blank chan s.trace
  addr : chan.addr = s.nextAddr
  channel : s.channel? chan = none
  told : (s.service? srvc).any (·.hasRecvCreate) = true

/-- The channel is open, and RC2/128 with a key is what has been agreed on. -/
def MwSession.Shares (s : MwSession) (chan : ChanRef) (key : EKey) : Prop :=
  ∃ c ci, s.channel? chan = some c ∧ c.state = .opened ∧ c.cipher = some (.rc2_128 ci) ∧ ci.shared = key

/-- What a service has been handed of a channel, and what a call asks to be handed on -/
def MwSession.received (s : MwSession) (chan : ChanRef) : List (UInt32 × UInt32 × MwOpaque) :=
  (handed chan s.trace).map fun p => (p.1, p.2.1.toUInt32, p.2.2)

def MwSession.said (s : MwSession) (chan : ChanRef) (srvc : UInt32) : List (UInt32 × UInt32 × MwOpaque) :=
  (callsOn chan s.trace).map fun call => (srvc, call.type, call.data)

/-- Once the acceptance is there both sides have the same key, every call has come to one
message, one that can be read from its bytes, and at either end the service has got what has been
relayed of what the other side has said. -/
structure Relayed.Delivers (srvc : UInt32) (key : EKey) (chan chan' : ChanRef) (r : Relayed) : Prop where
  shares : 0 < r.back → r.creator.Shares chan key ∧ r.acceptor.Shares chan' key
  sent : 0 < r.back →
    (sentOn chan r.creator.trace).length = (callsOn chan r.creator.trace).length + 1 ∧
    (sentOn chan' r.acceptor.trace).length = (callsOn chan' r.acceptor.trace).length + 1
  carried : ∀ call, call ∈ callsOn chan r.creator.trace ∨ call ∈ callsOn chan' r.acceptor.trace →
    ∀ m, call.message? = some m → m.Carried
  forth : r.acceptor.received chan' = (r.creator.said chan srvc).take (r.forth - 1)
  back : r.creator.received chan = (r.acceptor.said chan' srvc).take (r.back - 1)

/-! ## Calls -/

section

variable {env : Env} {chan : ChanRef} {ok : ApiCall → Prop}

theorem Env.Serves.writes (henv : env.Serves ok) (n : Nat) : (env.hooks n).Writes := by
  intro b s
  cases n with
  | zero => simp [Env.hooks, henv.write]
  | succ n => simp [Env.hooks, henv.write]

/-- A property that the calls of a client keep is kept by its callbacks. -/
theorem Env.Serves.along {I : MwSession → Prop} (henv : env.Serves ok)
    (hstep : ∀ n call, ok call → Keeps (Along chan I) (runApiCall (env.hooks n) call)) (n : Nat) (cb : Callback) :
    Keeps (Along chan I) ((env.hooks n).call cb) :=
  (Env.hooks_respects henv.uses.meets (fun n _ call s hcall => hstep n call hcall s) n).call cb

variable {privateKey : Nat} {srvc : UInt32} {key : EKey} {greeting : MwMessage} {heard : List ChannelMessage}
  {h : Hooks} {s : MwSession}

theorem runApiCall_channel {c : MwChannel} (hc : s.channel? chan = some c) (call : ChannelCall) :
    runApiCall h (.channel chan call) s = runChannelCall h chan c call s := by
  rw [runApiCall, Session.get_bind, hc]

theorem runApiCall_gone (hc : s.channel? chan = none) (call : ChannelCall) :
    runApiCall h (.channel chan call) s = ((), s) := by
  rw [runApiCall, Session.get_bind, hc]
  rfl

variable (hh : h.Respects (Eff True)) (hio : h.Writes)

include hh hio

/-- Answering on an open channel is sending. -/
theorem answers_talks {call : ApiCall} (hcall : call.Answers chan) :
    Keeps (Along chan (Talks privateKey srvc key chan greeting heard)) (runApiCall h call) := by
  refine fun s => ⟨runApiCall_eff hh (fun _ => trivial) s, fun hpermitted hs => ?_⟩
  obtain ⟨c, ci, hc, htalking, -⟩ := hs.channel
  cases hcall with
  | selectCipherInstance cipher =>
    rw [runApiCall_channel hc]
    cases cipher with
    | none => rwa [runChannelCall, select_talks _ hs]
    | some type => rwa [runChannelCall, select_talks _ hs]
  | accept =>
    rw [runApiCall_channel hc, runChannelCall, Session.discard_apply, mwChannelAccept, Session.bind_apply,
      deref_of_some hc]
    dsimp only
    rwa [if_pos (.inr (by simp [htalking.state]))]
  | sendEncrypted type data encrypt =>
    rw [runApiCall_channel hc] at hpermitted ⊢
    exact (sendEncrypted_talks hh (fun b s => by rw [hio]) type data encrypt).keeps hpermitted hs

theorem sends_talks {call : ApiCall} (hcall : call.Sends chan) :
    Keeps (Along chan (Talks privateKey srvc key chan greeting heard)) (runApiCall h call) := by
  cases hcall with
  | sendEncrypted type data encrypt => exact answers_talks hh hio (.sendEncrypted type data encrypt)

omit hio in
/-- Nothing may be sent on a channel that is not open. -/
theorem sendEncrypted_forbidden {c : MwChannel} (hc : s.channel? chan = some c) (hstate : c.state ≠ .opened)
    (type : UInt32) (data : MwOpaque) (encrypt : Bool) :
    ¬ Permitted chan (runApiCall h (.channel chan (.sendEncrypted type data encrypt)) s).2.trace := by
  intro hpermitted
  rw [runApiCall_channel hc] at hpermitted
  exact hstate (hpermitted.calls _ (sendEncrypted_recorded hh hc type data encrypt)).1

theorem answers_answering {call : ApiCall} (hcall : call.Answers chan) :
    Keeps (Along chan (Answering privateKey srvc key chan)) (runApiCall h call) := by
  refine fun s => ⟨runApiCall_eff hh (fun _ => trivial) s, fun hpermitted hs => ?_⟩
  cases hs with
  | accepted hmsg htalks => exact .accepted hmsg ((answers_talks hh hio hcall s).keeps hpermitted htalks)
  | announced hannounced =>
    obtain ⟨c, hc, hoffered⟩ := hannounced.channel
    cases hcall with
    | selectCipherInstance cipher =>
      rw [runApiCall_channel hc]
      cases cipher with
      | none => exact .announced (select_announced hannounced hc fun _ hci => absurd hci (by simp)).1
      | some type =>
        refine .announced (select_announced hannounced hc fun ci hci => ?_).1
        exact List.mem_of_find?_eq_some hci
    | accept =>
      rw [runApiCall_channel hc] at hpermitted ⊢
      exact (accept_answering hh hio).keeps hpermitted (.announced hannounced)
    | sendEncrypted type data encrypt =>
      exact absurd hpermitted (sendEncrypted_forbidden hh hc (by simp [hoffered.state]) type data encrypt)

end

/-! ## What has been relayed -/

/-- What has been relayed of what a side has sent: the message that got it where it can talk, and
some of those after it -/
structure Relays (chan : ChanRef) (greeting : MwMessage) (l : List ChannelMessage) (n : Nat) (s : MwSession) :
    Prop where
  sent : greeting :: l.map (·.toMessage) <+: sentOn chan s.trace
  count : n = l.length + 1

theorem toMessage_injective : Function.Injective ChannelMessage.toMessage := by
  intro m m' heq
  obtain ⟨head, msg⟩ := m
  obtain ⟨head', msg'⟩ := m'
  simpa [ChannelMessage.toMessage] using heq

section

variable {privateKey : Nat} {srvc : UInt32} {key : EKey} {chan : ChanRef} {greeting : MwMessage}
  {heard l : List ChannelMessage} {n : Nat} {h : Hooks} {s s' : MwSession}

theorem Relays.mono (hl : Relays chan greeting l n s) (ht : s.trace <:+ s'.trace) :
    Relays chan greeting l n s' := ⟨hl.sent.trans (sentOn_mono ht), hl.count⟩

/-- What has been relayed is what becomes of the first calls. -/
theorem Relays.spoken (hl : Relays chan greeting l n s)
    (hs : Talks privateKey srvc key chan greeting heard s) :
    ∃ iv, Transducer.run (speak key) mwIvInit ((callsOn chan s.trace).take (n - 1)) = some (iv, l) := by
  obtain ⟨c, ci, -, -, ⟨l', hl', hsent⟩, -⟩ := hs.channel
  have hprefix := hl.sent
  rw [hsent, List.cons_prefix_cons, List.prefix_iff_eq_take, List.length_map, ← List.map_take] at hprefix
  have htake : l = l'.take (n - 1) := by
    rw [hl.count, Nat.add_sub_cancel]
    exact List.map_injective_iff.mpr toMessage_injective hprefix.2
  obtain ⟨iv, hrun⟩ := Transducer.run_take hl' (n - 1)
  exact ⟨iv, by rw [htake, hrun]⟩

/-- It can be heard under any id. -/
theorem Relays.hear (hl : Relays chan greeting l n s)
    (hs : Talks privateKey srvc key chan greeting heard s) (id : UInt32) :
    ∃ iv, Transducer.run (Meanwhile.hear key) mwIvInit (l.map (·.under id)) =
      some (iv, ((callsOn chan s.trace).take (n - 1)).map (·.content)) := by
  obtain ⟨iv, hrun⟩ := hl.spoken hs
  exact ⟨iv, Transducer.run_undoes (g := Meanwhile.hear key) (fun _ _ _ _ hstep => hear_speak id hstep) hrun⟩

/-- The next message to be relayed is that of a call. -/
theorem Relays.next (hl : Relays chan greeting l n s)
    (hs : Talks privateKey srvc key chan greeting heard s) {id : UInt32} {msg msg' : MwMessage}
    (hmsg : (sentOn chan s.trace)[n]? = some msg) (hrelayed : msg.relayed id = some msg') :
    ∃ m : ChannelMessage, msg' = (m.under id).toMessage ∧ Relays chan greeting (l ++ [m]) (n + 1) s := by
  obtain ⟨c, ci, -, -, ⟨l', -, hsent⟩, -⟩ := hs.channel
  rw [hsent, hl.count, List.getElem?_cons_succ, List.getElem?_map, Option.map_eq_some_iff] at hmsg
  obtain ⟨m, hm, rfl⟩ := hmsg
  refine ⟨m, (Option.some.inj hrelayed).symm, ?_, by simp [hl.count]⟩
  have hprefix := hl.sent
  rw [hsent, List.cons_prefix_cons] at hprefix ⊢
  refine ⟨rfl, ?_⟩
  have hnext : (l'.map (·.toMessage))[l.length]? = some m.toMessage := by
    rw [List.getElem?_map, hm]
    rfl
  have htake := List.prefix_iff_eq_take.mp hprefix.2
  rw [List.length_map] at htake
  rw [List.map_append, List.map_singleton, List.prefix_iff_eq_take, List.length_append, List.length_map,
    List.length_singleton, List.take_add_one, hnext, ← htake]
  rfl

/-- A message is relayed to an open channel. -/
theorem dispatch_talks {m : ChannelMessage} {p : Block × List (UInt16 × MwOpaque)}
    (hcall : ∀ cb, Keeps (Along chan (Talks privateKey srvc key chan greeting (heard ++ [m]))) (h.call cb))
    (hs : Talks privateKey srvc key chan greeting heard s) (hm : m.head.channel = chan.id)
    (hrun : Transducer.run (Meanwhile.hear key) mwIvInit (heard ++ [m]) = some p)
    (hpermitted : Permitted chan (dispatch h m.toMessage s).2.trace) :
    Talks privateKey srvc key chan greeting (heard ++ [m]) (dispatch h m.toMessage s).2 := by
  obtain ⟨c, ci, hc, -⟩ := hs.channel
  obtain ⟨hmap, haddr⟩ := map_of_channel? hc
  have hdispatch : dispatch h m.toMessage s =
      mwChannelRecv h chan m (s.log (.channel chan (.arrives m.toMessage))) := by
    rw [← hm] at hmap
    show channelSendRecv h m.head m.msg s = _
    rw [channelSendRecv_of_some hmap, haddr, hm]
    rfl
  rw [hdispatch] at hpermitted ⊢
  exact recv_talks hcall hs hrun hpermitted

end

/-! ## Stages -/

/-- An acceptor that has been offered a channel under an id that is not for that. It has said so,
and there is no channel. -/
structure Refused (chan : ChanRef) (s : MwSession) : Prop where
  calls : callsOn chan s.trace = []
  handed : handed chan s.trace = []
  channel : s.channel? chan = none
  silent : ∀ msg ∈ sentOn chan s.trace, ∀ id, msg.relayed id = none

theorem createRecv_refused {h : Hooks} (hio : h.Writes) {chan : ChanRef} {s : MwSession}
    (head : MwMessageHead) {msg : MwMsgChannelCreate} (hchan : chan = ⟨msg.channel, s.nextAddr⟩)
    (hid : mwChannelIdIsOutgoing chan.id = true) (hblank : Blank chan s.trace) :
    Refused chan (channelCreateRecv h head msg s).2 := by
  have hlive : (s.arrived head msg).channel? chan = some { addr := s.nextAddr, state := .wait } := by
    rw [hchan]
    exact channel?_arrived s head msg
  rw [channelCreateRecv_arrived, ← hchan, mwChannelRecvCreate, if_pos hid, Session.discard_apply,
    mwChannelDestroy_write (fun b s => by rw [hio]) hlive]
  have hstate : MwChannelState.wait ≠ closedState errRequestInvalid := by decide
  simp only [MwSession.withState, hstate, if_false]
  refine ⟨?_, ?_, ?_, ?_⟩
  · simpa [MwSession.sent, MwSession.log, MwSession.setChannel, MwSession.arrived, MwSession.announced,
      Event.call?] using hblank.calls
  · simpa [MwSession.sent, MwSession.log, MwSession.setChannel, MwSession.arrived, MwSession.announced,
      Event.handed?] using hblank.handed
  · simp [MwSession.sent, MwSession.log, MwSession.setChannel, MwSession.channel?]
  · intro msg' hmsg' id
    have hdestroy : msg' = destroyMessage chan.id errRequestInvalid [] := by
      simpa [MwSession.sent, MwSession.log, MwSession.setChannel, MwSession.arrived, MwSession.announced,
        Event.sent?, hblank.sent] using hmsg'
    rw [hdestroy]
    rfl

/-- How far a channel has got -/
inductive Stage (privateKey privateKey' : Nat) (srvc : UInt32) (key : EKey) (chan chan' : ChanRef)
    (r : Relayed) : Prop where
  | prepared (hcreator : Prepared privateKey srvc chan r.creator)
      (hacceptor : Fresh privateKey' srvc chan' r.acceptor) (hforth : r.forth = 0) (hback : r.back = 0)
  | created {offer : MwMsgChannelCreate} (hoffer : IsOffer privateKey srvc offer)
      (hcreator : Waiting privateKey srvc chan offer r.creator)
      (hacceptor : Fresh privateKey' srvc chan' r.acceptor) (hforth : r.forth = 0) (hback : r.back = 0)
  | refused {offer : MwMsgChannelCreate} (hcreator : Waiting privateKey srvc chan offer r.creator)
      (hacceptor : Refused chan' r.acceptor) (hforth : r.forth = 1) (hback : r.back = 0)
  | offered {offer : MwMsgChannelCreate} (hcreator : Waiting privateKey srvc chan offer r.creator)
      (hacceptor : Answering privateKey' srvc key chan' r.acceptor) (hforth : r.forth = 1) (hback : r.back = 0)
  | opened {greeting greeting' : MwMessage} {l l' : List ChannelMessage}
      (hcreator : Talks privateKey srvc key chan greeting (l'.map (·.under chan.id)) r.creator)
      (hacceptor : Talks privateKey' srvc key chan' greeting' (l.map (·.under chan'.id)) r.acceptor)
      (hforth : Relays chan greeting l r.forth r.creator) (hback : Relays chan' greeting' l' r.back r.acceptor)

/-- A channel that is there already is not created once more. -/
theorem create_idle {h : Hooks} {chan : ChanRef} {s : MwSession} {c : MwChannel} (hc : s.channel? chan = some c)
    (hstate : c.state ≠ .init) : (mwChannelCreate h chan s).2 = s := by
  rw [mwChannelCreate, Session.bind_apply, deref_of_some hc]
  dsimp only
  rw [if_pos (.inl hstate)]
  rfl

theorem relayed_isLogin {id : UInt32} {msg msg' : MwMessage} (h : msg.relayed id = some msg') :
    msg'.body.type.isLogin = false := by
  obtain ⟨head, body⟩ := msg
  cases body with
  | channelCreate m | channelAccept m | channelSend m =>
    obtain rfl := Option.some.inj h
    rfl
  | _ => exact absurd h (by simp [MwMessage.relayed])

section

variable {env env' : Env} {n n' : Nat} {privateKey privateKey' : Nat} {srvc : UInt32} {key : EKey}
  {chan chan' : ChanRef} {r r' : Relayed}

/-- Both sessions go on from where they are. -/
theorem runRelayCommand_eff (h h' : Hooks) (chan chan' : ChanRef) (hh : h.Respects (Eff True)) (hh' : h'.Respects (Eff True))
    (command : RelayCommand) (r : Relayed) :
    Eff True r.creator (runRelayCommand h h' chan chan' command r).creator ∧
      Eff True r.acceptor (runRelayCommand h h' chan chan' command r).acceptor := by
  cases command with
  | create => exact ⟨create_keeps hh _, Std.Refl.refl _⟩
  | send => exact ⟨runApiCall_eff hh (fun _ => trivial) _, Std.Refl.refl _⟩
  | selectCipherInstance | accept | reply => exact ⟨Std.Refl.refl _, runApiCall_eff hh' (fun _ => trivial) _⟩
  | forth =>
    rw [runRelayCommand]
    split
    · rename_i msg' hnext
      obtain ⟨msg, -, hrelayed⟩ := Option.bind_eq_some_iff.mp hnext
      exact ⟨Std.Refl.refl _, dispatch_eff hh' (relayed_isLogin hrelayed) _⟩
    · exact ⟨Std.Refl.refl _, Std.Refl.refl _⟩
  | back =>
    rw [runRelayCommand]
    split
    · rename_i msg' hnext
      obtain ⟨msg, -, hrelayed⟩ := Option.bind_eq_some_iff.mp hnext
      exact ⟨dispatch_eff hh (relayed_isLogin hrelayed) _, Std.Refl.refl _⟩
    · exact ⟨Std.Refl.refl _, Std.Refl.refl _⟩

theorem runRelay_eff (h h' : Hooks) (chan chan' : ChanRef) (hh : h.Respects (Eff True)) (hh' : h'.Respects (Eff True))
    (commands : List RelayCommand) (r : Relayed) :
    Eff True r.creator (runRelay h h' chan chan' commands r).creator ∧
      Eff True r.acceptor (runRelay h h' chan chan' commands r).acceptor := by
  induction commands generalizing r with
  | nil => exact ⟨Std.Refl.refl _, Std.Refl.refl _⟩
  | cons command commands ih =>
    obtain ⟨hfirst, hfirst'⟩ := runRelayCommand_eff h h' chan chan' hh hh' command r
    obtain ⟨hrest, hrest'⟩ := ih (runRelayCommand h h' chan chan' command r)
    exact ⟨IsTrans.trans _ _ _ hfirst hrest, IsTrans.trans _ _ _ hfirst' hrest'⟩

variable (henv : env.Serves (ApiCall.Sends chan)) (henv' : env'.Serves (ApiCall.Answers chan'))
  (hagree : AgreedKey privateKey privateKey' key)

include henv in
theorem callback_sends {greeting : MwMessage} {heard : List ChannelMessage} (cb : Callback) :
    Keeps (Along chan (Talks privateKey srvc key chan greeting heard)) ((env.hooks n).call cb) :=
  henv.along (fun n _ hcall => sends_talks (env.hooks_force n) (henv.writes n) hcall) n cb

include henv' in
theorem callback_answers {greeting : MwMessage} {heard : List ChannelMessage} (cb : Callback) :
    Keeps (Along chan' (Talks privateKey' srvc key chan' greeting heard)) ((env'.hooks n').call cb) :=
  henv'.along (fun n _ hcall => answers_talks (env'.hooks_force n) (henv'.writes n) hcall) n' cb

include henv in
theorem Stage.create (hs : Stage privateKey privateKey' srvc key chan chan' r) :
    Stage privateKey privateKey' srvc key chan chan'
      { r with creator := (mwChannelCreate (env.hooks n) chan r.creator).2 } := by
  have hidle : ∀ c, r.creator.channel? chan = some c → c.state ≠ .init →
      { r with creator := (mwChannelCreate (env.hooks n) chan r.creator).2 } = r := by
    intro c hc hstate
    rw [create_idle hc hstate]
  cases hs with
  | prepared hcreator hacceptor hforth hback =>
    obtain ⟨offer, hoffer, hwaiting⟩ := create_waiting (henv.writes n) hcreator
    exact .created hoffer hwaiting hacceptor hforth hback
  | created hoffer hcreator hacceptor hforth hback =>
    obtain ⟨c, hc, hoffering⟩ := hcreator.channel
    rw [hidle c hc (by simp [hoffering.state])]
    exact .created hoffer hcreator hacceptor hforth hback
  | refused hcreator hacceptor hforth hback =>
    obtain ⟨c, hc, hoffering⟩ := hcreator.channel
    rw [hidle c hc (by simp [hoffering.state])]
    exact .refused hcreator hacceptor hforth hback
  | offered hcreator hacceptor hforth hback =>
    obtain ⟨c, hc, hoffering⟩ := hcreator.channel
    rw [hidle c hc (by simp [hoffering.state])]
    exact .offered hcreator hacceptor hforth hback
  | opened hcreator hacceptor hforth hback =>
    obtain ⟨c, ci, hc, htalking, -⟩ := hcreator.channel
    rw [hidle c hc (by simp [htalking.state])]
    exact .opened hcreator hacceptor hforth hback

include henv in
theorem Stage.send {call : ApiCall} (hcall : call.Sends chan)
    (hs : Stage privateKey privateKey' srvc key chan chan' r)
    (hpermitted : Permitted chan (runApiCall (env.hooks n) call r.creator).2.trace) :
    Stage privateKey privateKey' srvc key chan chan'
      { r with creator := (runApiCall (env.hooks n) call r.creator).2 } := by
  have hh := env.hooks_force n
  have hclosed : ∀ c, r.creator.channel? chan = some c → c.state = .opened := by
    intro c hc
    by_contra hne
    cases hcall with
    | sendEncrypted type data encrypt => exact sendEncrypted_forbidden hh hc hne type data encrypt hpermitted
  cases hs with
  | prepared hcreator hacceptor hforth hback =>
    obtain ⟨c, hc, hoffering⟩ := hcreator.channel
    exact absurd (hclosed c hc) (by simp [hoffering.state])
  | created hoffer hcreator hacceptor hforth hback =>
    obtain ⟨c, hc, hoffering⟩ := hcreator.channel
    exact absurd (hclosed c hc) (by simp [hoffering.state])
  | refused hcreator hacceptor hforth hback =>
    obtain ⟨c, hc, hoffering⟩ := hcreator.channel
    exact absurd (hclosed c hc) (by simp [hoffering.state])
  | offered hcreator hacceptor hforth hback =>
    obtain ⟨c, hc, hoffering⟩ := hcreator.channel
    exact absurd (hclosed c hc) (by simp [hoffering.state])
  | opened hcreator hacceptor hforth hback =>
    have htalks := (sends_talks hh (henv.writes n) hcall r.creator).keeps hpermitted hcreator
    exact .opened htalks hacceptor (hforth.mono (runApiCall_eff hh (fun _ => trivial) _).trace) hback

include henv' in
theorem Stage.answer {call : ApiCall} (hcall : call.Answers chan')
    (hs : Stage privateKey privateKey' srvc key chan chan' r)
    (hpermitted : Permitted chan' (runApiCall (env'.hooks n') call r.acceptor).2.trace) :
    Stage privateKey privateKey' srvc key chan chan'
      { r with acceptor := (runApiCall (env'.hooks n') call r.acceptor).2 } := by
  have hh := env'.hooks_force n'
  have hidle : r.acceptor.channel? chan' = none →
      { r with acceptor := (runApiCall (env'.hooks n') call r.acceptor).2 } = r := by
    intro hnone
    cases hcall <;> rw [runApiCall_gone hnone]
  cases hs with
  | prepared hcreator hacceptor hforth hback =>
    rw [hidle hacceptor.channel]
    exact .prepared hcreator hacceptor hforth hback
  | created hoffer hcreator hacceptor hforth hback =>
    rw [hidle hacceptor.channel]
    exact .created hoffer hcreator hacceptor hforth hback
  | refused hcreator hacceptor hforth hback =>
    rw [hidle hacceptor.channel]
    exact .refused hcreator hacceptor hforth hback
  | offered hcreator hacceptor hforth hback =>
    have hanswering := (answers_answering hh (henv'.writes n') hcall r.acceptor).keeps hpermitted hacceptor
    exact .offered hcreator hanswering hforth hback
  | opened hcreator hacceptor hforth hback =>
    have htalks := (answers_talks hh (henv'.writes n') hcall r.acceptor).keeps hpermitted hacceptor
    exact .opened hcreator htalks hforth (hback.mono (runApiCall_eff hh (fun _ => trivial) _).trace)

include henv' hagree in
theorem Stage.forth {msg msg' : MwMessage} (hmsg : (sentOn chan r.creator.trace)[r.forth]? = some msg)
    (hrelayed : msg.relayed chan'.id = some msg')
    (hs : Stage privateKey privateKey' srvc key chan chan' r)
    (hpermitted : Permitted chan' (dispatch (env'.hooks n') msg' r.acceptor).2.trace) :
    Stage privateKey privateKey' srvc key chan chan'
      { r with acceptor := (dispatch (env'.hooks n') msg' r.acceptor).2, forth := r.forth + 1 } := by
  cases hs with
  | prepared hcreator hacceptor hforth hback =>
    rw [hforth, hcreator.blank.sent] at hmsg
    exact absurd hmsg (by simp)
  | @created offer hoffer hcreator hacceptor hforth hback =>
    rw [hforth, hcreator.sent] at hmsg
    obtain rfl := Option.some.inj hmsg
    obtain rfl := Option.some.inj hrelayed
    set offer' : MwMsgChannelCreate := { offer with channel := chan'.id } with hoffer'
    have hchan : chan' = ⟨offer'.channel, r.acceptor.nextAddr⟩ := by rw [hoffer', ← hacceptor.addr]
    by_cases hid : mwChannelIdIsOutgoing chan'.id = true
    · have hrefused := createRecv_refused (henv'.writes n') {} hchan hid hacceptor.blank
      exact .refused hcreator hrefused (by simp [hforth]) hback
    · have hcall : ∀ cb, Keeps (Along chan' (Answering privateKey' srvc key chan')) ((env'.hooks n').call cb) :=
        henv'.along (fun n _ hcall => answers_answering (env'.hooks_force n) (henv'.writes n) hcall) n'
      have hkeyed : IsOffer privateKey srvc offer' := hoffer
      have hanswering := createRecv_answering {} hcall hagree.symm hkeyed hchan
        (by simpa [mwChannelIdIsIncoming] using hid) hacceptor.equipped hacceptor.blank hacceptor.told hpermitted
      exact .offered hcreator hanswering (by simp [hforth]) hback
  | refused hcreator hacceptor hforth hback =>
    rw [hforth, hcreator.sent] at hmsg
    exact absurd hmsg (by simp)
  | offered hcreator hacceptor hforth hback =>
    rw [hforth, hcreator.sent] at hmsg
    exact absurd hmsg (by simp)
  | opened hcreator hacceptor hforth hback =>
    obtain ⟨m, rfl, hnext⟩ := hforth.next hcreator hmsg hrelayed
    obtain ⟨iv, hrun⟩ := hnext.hear hcreator chan'.id
    rw [List.map_append, List.map_singleton] at hrun
    have htalks := dispatch_talks (callback_answers henv') hacceptor rfl hrun hpermitted
    have heff : Eff True _ _ := dispatch_eff (env'.hooks_force n') (relayed_isLogin hrelayed) r.acceptor
    exact .opened hcreator (by simpa using htalks) hnext (hback.mono heff.trace)

include henv hagree in
theorem Stage.back {msg msg' : MwMessage} (hmsg : (sentOn chan' r.acceptor.trace)[r.back]? = some msg)
    (hrelayed : msg.relayed chan.id = some msg')
    (hs : Stage privateKey privateKey' srvc key chan chan' r)
    (hpermitted : Permitted chan (dispatch (env.hooks n) msg' r.creator).2.trace) :
    Stage privateKey privateKey' srvc key chan chan'
      { r with creator := (dispatch (env.hooks n) msg' r.creator).2, back := r.back + 1 } := by
  cases hs with
  | prepared hcreator hacceptor hforth hback =>
    rw [hback, hacceptor.blank.sent] at hmsg
    exact absurd hmsg (by simp)
  | created hoffer hcreator hacceptor hforth hback =>
    rw [hback, hacceptor.blank.sent] at hmsg
    exact absurd hmsg (by simp)
  | refused hcreator hacceptor hforth hback =>
    have hnone := hacceptor.silent msg (List.mem_of_getElem? hmsg) chan.id
    exact absurd (hnone.symm.trans hrelayed) (by simp)
  | @offered offer hcreator hacceptor hforth hback =>
    cases hacceptor with
    | announced hannounced =>
      rw [hback, hannounced.blank.sent] at hmsg
      exact absurd hmsg (by simp)
    | @accepted head accept hacceptance htalks =>
      obtain ⟨c', ci', -, -, ⟨l', hl', hsent⟩, -⟩ := htalks.channel
      rw [hback, hsent] at hmsg
      obtain rfl := Option.some.inj hmsg
      obtain rfl := Option.some.inj hrelayed
      obtain ⟨c, hc, hoffering⟩ := hcreator.channel
      obtain ⟨hmap, haddr⟩ := map_of_channel? hc
      set accept' : MwMessage := ⟨{ head with channel := chan.id }, .channelAccept accept⟩ with haccept'
      have heff : Eff True r.creator (dispatch (env.hooks n) accept' r.creator).2 :=
        dispatch_eff (env.hooks_force n) rfl r.creator
      have hdispatch : dispatch (env.hooks n) accept' r.creator =
          mwChannelRecvAccept (env.hooks n) chan accept (r.creator.log (.channel chan (.arrives accept'))) := by
        show channelAcceptRecv _ { head with channel := chan.id } accept r.creator = _
        rw [channelAcceptRecv_of_some hmap, haddr]
      have hcreated : Relays chan ⟨{}, .channelCreate offer⟩ [] r.forth
          (dispatch (env.hooks n) accept' r.creator).2 := by
        have hsent' : sentOn chan _ <+: sentOn chan _ := sentOn_mono heff.trace
        rw [hcreator.sent] at hsent'
        exact ⟨hsent', hforth⟩
      have haccepted : Relays chan' ⟨head, .channelAccept accept⟩ [] (r.back + 1) r.acceptor :=
        ⟨by simp [hsent], by simp [hback]⟩
      rw [hdispatch] at hpermitted hcreated ⊢
      have hopened := recvAccept_talks { head with channel := chan.id } (env.hooks_force n) (callback_sends henv)
        hagree hacceptance hcreator hpermitted
      exact .opened hopened htalks hcreated haccepted
  | opened hcreator hacceptor hforth hback =>
    obtain ⟨m, rfl, hnext⟩ := hback.next hacceptor hmsg hrelayed
    obtain ⟨iv, hrun⟩ := hnext.hear hacceptor chan.id
    rw [List.map_append, List.map_singleton] at hrun
    have htalks := dispatch_talks (callback_sends henv) hcreator rfl hrun hpermitted
    have heff : Eff True _ _ := dispatch_eff (env.hooks_force n) (relayed_isLogin hrelayed) r.creator
    exact .opened (by simpa using htalks) hacceptor (hforth.mono heff.trace) hnext

include henv henv' hagree in
/-- Whatever happens next, the channel is at one of the stages. -/
theorem Stage.command (command : RelayCommand)
    (hs : Stage privateKey privateKey' srvc key chan chan' r)
    (hcreator : Permitted chan
      (runRelayCommand (env.hooks n) (env'.hooks n') chan chan' command r).creator.trace)
    (hacceptor : Permitted chan'
      (runRelayCommand (env.hooks n) (env'.hooks n') chan chan' command r).acceptor.trace) :
    Stage privateKey privateKey' srvc key chan chan'
      (runRelayCommand (env.hooks n) (env'.hooks n') chan chan' command r) := by
  cases command with
  | create => exact hs.create henv
  | send type data encrypt => exact hs.send henv (.sendEncrypted type data encrypt) hcreator
  | selectCipherInstance cipher => exact hs.answer henv' (.selectCipherInstance cipher) hacceptor
  | accept => exact hs.answer henv' .accept hacceptor
  | reply type data encrypt => exact hs.answer henv' (.sendEncrypted type data encrypt) hacceptor
  | forth =>
    rw [runRelayCommand] at hacceptor ⊢
    cases hnext : (sentOn chan r.creator.trace)[r.forth]? >>= (·.relayed chan'.id) with
    | none => exact hs
    | some msg' =>
      obtain ⟨msg, hmsg, hrelayed⟩ := Option.bind_eq_some_iff.mp hnext
      rw [hnext] at hacceptor
      exact hs.forth henv' hagree hmsg hrelayed hacceptor
  | back =>
    rw [runRelayCommand] at hcreator ⊢
    cases hnext : (sentOn chan' r.acceptor.trace)[r.back]? >>= (·.relayed chan.id) with
    | none => exact hs
    | some msg' =>
      obtain ⟨msg, hmsg, hrelayed⟩ := Option.bind_eq_some_iff.mp hnext
      rw [hnext] at hcreator
      exact hs.back henv hagree hmsg hrelayed hcreator

variable (n n') in
include henv henv' hagree in
theorem Stage.run (commands : List RelayCommand)
    (hs : Stage privateKey privateKey' srvc key chan chan' r)
    (hcreator : Permitted chan (runRelay (env.hooks n) (env'.hooks n') chan chan' commands r).creator.trace)
    (hacceptor : Permitted chan' (runRelay (env.hooks n) (env'.hooks n') chan chan' commands r).acceptor.trace) :
    Stage privateKey privateKey' srvc key chan chan'
      (runRelay (env.hooks n) (env'.hooks n') chan chan' commands r) := by
  induction commands generalizing r with
  | nil => exact hs
  | cons command commands ih =>
    obtain ⟨heff, heff'⟩ := runRelay_eff (env.hooks n) (env'.hooks n') chan chan' (env.hooks_force n) (env'.hooks_force n')
      commands (runRelayCommand (env.hooks n) (env'.hooks n') chan chan' command r)
    have hfirst := hs.command henv henv' hagree command (hcreator.mono heff.trace) (hacceptor.mono heff'.trace)
    exact ih hfirst hcreator hacceptor

end

/-! ## What is delivered -/

section

variable {privateKey privateKey' : Nat} {srvc : UInt32} {key : EKey} {chan chan' : ChanRef}
  {greeting greeting' : MwMessage} {heard l : List ChannelMessage} {n : Nat} {s s' : MwSession}

theorem toUInt32_toUInt16 {type : UInt32} (h : type.toNat < 2 ^ 16) : type.toUInt16.toUInt32 = type := by
  apply UInt32.toNat_inj.mp
  simpa using h

theorem Talks.shares (hs : Talks privateKey srvc key chan greeting heard s) : s.Shares chan key := by
  obtain ⟨c, ci, hc, htalking, -⟩ := hs.channel
  exact ⟨c, ci, hc, htalking.state, htalking.cipher, htalking.shared⟩

theorem Talks.length_sentOn (hs : Talks privateKey srvc key chan greeting heard s) :
    (sentOn chan s.trace).length = (callsOn chan s.trace).length + 1 := by
  obtain ⟨c, ci, -, -, ⟨l, hl, hsent⟩, -⟩ := hs.channel
  rw [hsent, List.length_cons, List.length_map, Transducer.length_run hl]

/-- What is relayed of the calls of one side is what the other side is handed. -/
theorem Relays.received (hl : Relays chan greeting l n s)
    (hs : Talks privateKey srvc key chan greeting heard s)
    (hs' : Talks privateKey' srvc key chan' greeting' (l.map (·.under chan'.id)) s')
    (hpermitted : Permitted chan s.trace) : s'.received chan' = (s.said chan srvc).take (n - 1) := by
  obtain ⟨c, ci, -, -, -, r, hr, hhanded⟩ := hs'.channel
  obtain ⟨iv, hrun⟩ := hl.hear hs chan'.id
  obtain ⟨-, rfl⟩ := Prod.mk.inj (Option.some.inj (hr.symm.trans hrun))
  rw [MwSession.received, MwSession.said, hhanded, ← List.map_take, List.map_map, List.map_map]
  refine List.map_congr_left fun call hcall => ?_
  have htype := (hpermitted.calls call (List.mem_of_mem_take hcall)).2.1
  simp only [Function.comp_apply, SendCall.content, toUInt32_toUInt16 htype]

/-- Before the channel is open nothing has been said. -/
theorem received_nothing (hcalls : callsOn chan s.trace = []) (hhanded : handed chan' s'.trace = []) :
    s'.received chan' = (s.said chan srvc).take n := by
  simp [MwSession.received, MwSession.said, hcalls, hhanded]

theorem Stage.delivers {r : Relayed} (hs : Stage privateKey privateKey' srvc key chan chan' r)
    (hcreator : Permitted chan r.creator.trace) (hacceptor : Permitted chan' r.acceptor.trace) :
    r.Delivers srvc key chan chan' := by
  have hcarried : ∀ call, call ∈ callsOn chan r.creator.trace ∨ call ∈ callsOn chan' r.acceptor.trace →
      ∀ m, call.message? = some m → m.Carried := by
    rintro call (hcall | hcall) m hm
    · exact (hcreator.calls call hcall).2.2.fits.carried hm
    · exact (hacceptor.calls call hcall).2.2.fits.carried hm
  cases hs with
  | prepared hprepared hfresh _ hback =>
    exact ⟨fun hpos => absurd hback hpos.ne', fun hpos => absurd hback hpos.ne', hcarried,
      received_nothing hprepared.blank.calls hfresh.blank.handed,
      received_nothing hfresh.blank.calls hprepared.blank.handed⟩
  | created _ hwaiting hfresh _ hback =>
    exact ⟨fun hpos => absurd hback hpos.ne', fun hpos => absurd hback hpos.ne', hcarried,
      received_nothing hwaiting.calls hfresh.blank.handed,
      received_nothing hfresh.blank.calls hwaiting.handed⟩
  | refused hwaiting hrefused _ hback =>
    exact ⟨fun hpos => absurd hback hpos.ne', fun hpos => absurd hback hpos.ne', hcarried,
      received_nothing hwaiting.calls hrefused.handed, received_nothing hrefused.calls hwaiting.handed⟩
  | offered hwaiting hanswering hforth hback =>
    refine ⟨fun hpos => absurd hback hpos.ne', fun hpos => absurd hback hpos.ne', hcarried, ?_, ?_⟩
    · cases hanswering with
      | announced h => exact received_nothing hwaiting.calls h.blank.handed
      | accepted _ h =>
        obtain ⟨c, ci, -, -, -, r, hr, hhanded⟩ := h.channel
        obtain ⟨-, rfl⟩ := Prod.mk.inj (Option.some.inj hr)
        exact received_nothing hwaiting.calls hhanded
    · rw [hback]
      simp [MwSession.received, hwaiting.handed]
  | opened htalks htalks' hforth hback =>
    exact ⟨fun _ => ⟨htalks.shares, htalks'.shares⟩, fun _ => ⟨htalks.length_sentOn, htalks'.length_sentOn⟩,
      hcarried, hforth.received htalks htalks' hcreator, hback.received htalks' htalks hacceptor⟩

end

/-- Data whose length does not fit an `int` are not copied for the cipher, and do not come to a
message. -/
theorem sendEncrypted_oversized {privateKey : Nat} {srvc : UInt32} {key : EKey} {chan : ChanRef}
    {greeting : MwMessage} {heard : List ChannelMessage} {h : Hooks} {s : MwSession}
    (hs : Talks privateKey srvc key chan greeting heard s) (type : UInt32) {data : MwOpaque}
    (hlength : 2 ^ 31 ≤ data.length) :
    ∃ call : SendCall, call.chan = chan ∧ call.state = .opened ∧ call.type = type ∧
      (runApiCall h (.channel chan (.sendEncrypted type data true)) s).2.trace = .send call :: s.trace := by
  obtain ⟨c, ci, hc, htalking, -⟩ := hs.channel
  set call := s.callOn h chan c type data true with hcall
  have hcipher : call.cipher = some (.rc2_128 ci) := htalking.cipher
  have howner : call.owner = some (mwCipherNewRc2_128 privateKey) := hs.equipped.owner? htalking.cipher
  have hencrypt : mwEncryptExpanded call.fresh ci.shared ci.outgoingIv call.data = none :=
    (mwEncryptExpanded_eq_none_iff _ _ _ _).mpr hlength
  have hcompose : call.compose = none := by
    rw [SendCall.compose, hcipher, show call.encrypt = true from rfl]
    simp only [howner, mwCipherNewRc2_128, mwCipherInstanceEncrypt, hencrypt]
    rfl
  refine ⟨call, rfl, htalking.state, rfl, ?_⟩
  rw [runApiCall_channel hc, runChannelCall, Session.discard_apply, mwChannelSendEncrypted,
    Session.bind_apply, deref_of_some hc]
  dsimp only
  rw [Session.get_bind, record_bind]
  rw [hcall, MwSession.callOn] at hcompose
  rw [hcompose]
  rfl

/-! ## An example -/

/-- A client with RC2/128 and a private key -/
def talkerSession (privateKey : Nat) : MwSession :=
  mwSessionNew {} [listener] [mwCipherNewRc2_128 privateKey] {}

/-- A client that is about to create a channel -/
def talkerCreator : MwSession :=
  run (Env.idle.hooks 0)
    [.call .newOutgoing, .call (.channel ⟨1, 0⟩ (.setService 5)),
      .call (.channel ⟨1, 0⟩ .populateSupportedCipherInstances)]
    (talkerSession 80)

/-- The channel from its creation until both sides can talk -/
def negotiation : List RelayCommand := [.create, .forth, .selectCipherInstance (some .rc2_128), .accept, .back]

def runTalkers (commands : List RelayCommand) : Relayed :=
  runRelay (Env.idle.hooks 0) (Env.idle.hooks 0) ⟨1, 0⟩ ⟨0x80000001, 0⟩ commands
    { creator := talkerCreator, acceptor := talkerSession 81 }

theorem idle_serves (ok : ApiCall → Prop) : Env.idle.Serves ok where
  write := fun _ _ => rfl
  uses := ⟨fun _ _ _ => nofun, fun _ _ => nofun, fun _ _ _ => nofun⟩

/-- What is asked of a side, as a test -/
def permits (chan : ChanRef) (t : List Event) : Bool :=
  (callsOn chan t).all (fun call =>
    call.state = .opened ∧ call.type.toNat < 2 ^ 16 ∧ call.data.length < 2 ^ 31 - 8) &&
  (sentOn chan t).all fun msg =>
    match msg.body with
    | .channelAccept m => m.encrypt.item.any (·.id = MwCipherType.code .rc2_128)
    | _ => true

theorem permitted_of_permits {chan : ChanRef} {t : List Event} (h : permits chan t = true) :
    Permitted chan t := by
  obtain ⟨hcalls, haccepts⟩ := Bool.and_eq_true_iff.mp h
  refine ⟨fun call hcall => ?_, fun head msg hmsg => ?_⟩
  · obtain ⟨hstate, htype, hlength⟩ := of_decide_eq_true (List.all_eq_true.mp hcalls call hcall)
    exact ⟨hstate, htype, by omega, fun _ => hlength⟩
  · obtain ⟨item, hitem, hid⟩ := (Option.any_eq_true _ _).mp (List.all_eq_true.mp haccepts _ hmsg)
    exact ⟨item, hitem, of_decide_eq_true hid⟩

/-- The initial vectors of an instance are those that it starts with. -/
def MwCipherInstance.isFresh : MwCipherInstance → Bool
  | .rc2_128 ci => ci.outgoingIv = mwIvInit ∧ ci.incomingIv = mwIvInit
  | .rc2_40 _ => false

theorem talkerCreator_prepared : Prepared 80 5 ⟨1, 0⟩ talkerCreator := by
  have hchannel : (talkerCreator.channel? ⟨1, 0⟩).any (fun c =>
      c.state = .init ∧ c.service = 5 ∧ c.cipher = none ∧ c.outgoingQueue = [] ∧ c.incomingQueue = [] ∧
        (c.supported? (MwCipherType.code .rc2_128)).any MwCipherInstance.isFresh) = true := by
    decide +kernel
  obtain ⟨c, hc, hoffering⟩ := (Option.any_eq_true _ _).mp hchannel
  obtain ⟨hstate, hservice, hcipher, hout, hin, hsupported⟩ := of_decide_eq_true hoffering
  obtain ⟨ci, hci, hfresh⟩ := (Option.any_eq_true _ _).mp hsupported
  refine ⟨⟨rfl, by decide +kernel⟩, by decide, ⟨rfl, rfl, rfl, rfl⟩, c, hc, hstate, hservice, hcipher, hout, hin, ?_⟩
  cases ci with
  | rc2_40 ci => exact absurd hfresh (by simp [MwCipherInstance.isFresh])
  | rc2_128 ci =>
    obtain ⟨hout, hin⟩ := of_decide_eq_true hfresh
    obtain ⟨key, out, incoming⟩ := ci
    obtain rfl : out = mwIvInit := hout
    obtain rfl : incoming = mwIvInit := hin
    exact ⟨key, hci⟩

theorem talkerSession_fresh (privateKey : Nat) : Fresh privateKey 5 ⟨0x80000001, 0⟩ (talkerSession privateKey) where
  equipped := ⟨rfl, rfl⟩
  blank := ⟨rfl, rfl, rfl, rfl⟩
  addr := rfl
  channel := rfl
  told := rfl

/-- Both say something, one of them encrypted. -/
def conversation : List RelayCommand :=
  negotiation ++ [.reply 3 [1] false, .back, .send 7 [7, 8, 9] true, .forth]

end Meanwhile
