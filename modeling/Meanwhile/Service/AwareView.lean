-- SUMMARY: The server has exactly the entries of a started aware service, unless a group member comes early after its removal.
import Meanwhile.Service.AwareTells

/-!
# What the server has

While the service is starting, what it sends waits in the queue of its channel. All its
entries are sent again when the channel is accepted, and then the queue follows. The
queue does no harm as long as its last message about each id tells what the table of the
service says of it. That fails for an id that was removed while the service was starting
and comes back as a member of a group, in a message that came before the acceptance of
the channel.
-/

namespace Meanwhile.Aware

open HashTable LastWriter

/-! ## The view of the server -/

/-- The ids that a server has after some messages, of none at first -/
def seen (msgs : List AwareMsg) (id : MwAwareIdBlock) : Bool := value AwareMsg.effect msgs id false

/-- What waits in the queue of a channel agrees with the service. -/
structure Harmless (queue : List AwareMsg) (s : MwServiceAware) : Prop where
  known : ∀ id b, last AwareMsg.effect queue id = some b → b = known s id
  keys : ∀ keys, last AwareMsg.watches queue () = some keys → keys = watchedKeys s

/-- What has been written agrees with the service. -/
structure Shown (sent : List AwareMsg) (s : MwServiceAware) : Prop where
  known : ∀ id, seen sent id = Aware.known s id
  keys : last AwareMsg.watches sent () = some (watchedKeys s)

/-- The invariant of the service and its channel -/
structure Mirrors (w : AwareWorld) : Prop where
  agree : Agree w.srvc
  ret : ∀ n, w.ret n = 0
  live_iff : w.isLive = true ↔ w.srvc.channel.isSome = true
  fresh : ∀ chan, w.nextChan ≤ chan → w.lines chan = none ∧ sentOn chan w.wire = []
  current : ∀ chan, w.srvc.channel = some chan → chan < w.nextChan
  starting : w.state = .starting → ∀ chan, w.srvc.channel = some chan → ∃ line,
    w.lines chan = some line ∧ line.inbound = false ∧ line.state = .wait ∧
      sentOn chan w.wire = [] ∧ Harmless line.outgoing w.srvc
  started : w.state = .started → ∀ chan, w.srvc.channel = some chan → ∀ line,
    w.lines chan = some line → line.state = .opened ∧ line.outgoing = [] ∧
      Shown (sentOn chan w.wire) w.srvc

variable {w w' : AwareWorld} {msgs : List AwareMsg}

theorem Harmless.tells {queue : List AwareMsg} (h : Harmless queue w.srvc) (htells : Tells msgs w w')
    (hlive : w.isLive = true) : Harmless (queue ++ msgs) w'.srvc := by
  refine ⟨fun id b hlast => ?_, fun keys hlast => ?_⟩
  · rw [last_append] at hlast
    rw [htells.known hlive]
    cases hmsgs : last AwareMsg.effect msgs id with
    | none =>
      rw [hmsgs, Option.none_or] at hlast
      rw [value_of_last_none hmsgs]
      exact h.known id b hlast
    | some b' =>
      rw [hmsgs, Option.some_or] at hlast
      rw [value_of_last_some hmsgs]
      exact (Option.some.inj hlast).symm
  · rw [last_append] at hlast
    rw [htells.keys hlive]
    cases hmsgs : last AwareMsg.watches msgs () with
    | none =>
      rw [hmsgs, Option.none_or] at hlast
      rw [value_of_last_none hmsgs]
      exact h.keys keys hlast
    | some keys' =>
      rw [hmsgs, Option.some_or] at hlast
      rw [value_of_last_some hmsgs]
      exact (Option.some.inj hlast).symm

theorem Shown.tells {sent : List AwareMsg} (h : Shown sent w.srvc) (htells : Tells msgs w w')
    (hlive : w.isLive = true) : Shown (sent ++ msgs) w'.srvc := by
  refine ⟨fun id => ?_, ?_⟩
  · rw [htells.known hlive, seen, value_append]
    exact congrArg _ (h.known id)
  · rw [htells.keys hlive, last_append, h.keys, value_eq]
    cases last AwareMsg.watches msgs () <;> rfl

/-- A queue that does no harm shows nothing new. -/
theorem Shown.flush {sent queue : List AwareMsg} {s : MwServiceAware} (h : Shown sent s)
    (hqueue : Harmless queue s) : Shown (sent ++ queue) s := by
  refine ⟨fun id => ?_, ?_⟩
  · rw [seen, value_append]
    change value AwareMsg.effect queue id (seen sent id) = _
    rw [h.known]
    exact value_of_agrees fun b hb => hqueue.known id b hb
  · rw [last_append, h.keys]
    cases hlast : last AwareMsg.watches queue () with
    | none => rfl
    | some keys => rw [hqueue.keys keys hlast]; rfl

/-- What is told keeps the invariant. -/
theorem Mirrors.tells (h : Mirrors w) (htells : Tells msgs w w') (hagree : Agree w'.srvc) :
    Mirrors w' := by
  have hsent := htells.sending h.ret
  have hstate := htells.state
  have hchan := htells.channel
  refine ⟨hagree, fun n => (congrFun hsent.ret n).trans (h.ret n), ?_, fun c hc => ?_, fun c hc => ?_,
    fun hst c hc => ?_, fun hst c hc line hl => ?_⟩
  · rw [htells.isLive, hchan]
    exact h.live_iff
  · rw [hsent.nextChan] at hc
    obtain ⟨hnone, hnil⟩ := h.fresh c hc
    obtain ⟨hnone', hsame⟩ := hsent.gone c hnone
    exact ⟨hnone', hsame.trans hnil⟩
  · rw [hsent.nextChan]
    exact h.current c (hchan ▸ hc)
  · rw [hchan] at hc
    have hlive : w.isLive = true := h.live_iff.mpr (by rw [hc]; rfl)
    obtain ⟨line, hl, hin, hwait, hnil, hharmless⟩ := h.starting (hstate ▸ hst) c hc
    obtain ⟨hl', hsame⟩ := hsent.queued c line hc hl (by rw [hwait]; decide)
    exact ⟨_, hl', hin, hwait, hsame.trans hnil, hharmless.tells htells hlive⟩
  · rw [hchan] at hc
    have hlive : w.isLive = true := h.live_iff.mpr (by rw [hc]; rfl)
    cases hline : w.lines c with
    | none => cases (hsent.gone c hline).1.symm.trans hl
    | some line' =>
      obtain ⟨hopened, hout, hshown⟩ := h.started (hstate ▸ hst) c hc line' hline
      obtain ⟨hl', happend⟩ := hsent.opened c line' hc hline hopened
      cases hl'.symm.trans hl
      rw [happend]
      exact ⟨hopened, hout, hshown.tells htells hlive⟩

/-! ## Starting and stopping -/

/-- Writes succeed, and a channel that is still to come has nothing yet. -/
structure Sane (w : AwareWorld) : Prop where
  ret : ∀ n, w.ret n = 0
  fresh : ∀ chan, w.nextChan ≤ chan → w.lines chan = none ∧ sentOn chan w.wire = []

theorem Mirrors.sane (h : Mirrors w) : Sane w := ⟨h.ret, h.fresh⟩

theorem Sane.destroy (h : Sane w) (chan : Nat) (reason : UInt32) :
    Sane (w.mwChannelDestroy chan reason) := by
  cases hline : w.lines chan with
  | none =>
    rw [World.mwChannelDestroy_of_none hline]
    exact ⟨h.ret, h.fresh⟩
  | some line =>
    rw [World.mwChannelDestroy_of_some (h.ret _) hline]
    refine ⟨h.ret, fun c hc => ?_⟩
    obtain ⟨hnone, hnil⟩ := h.fresh c hc
    refine ⟨?_, ?_⟩
    · by_cases heq : c = chan
      · subst heq
        exact Function.update_self ..
      · exact (Function.update_of_ne heq ..).trans hnone
    · rw [sentOn_append, hnil]
      rfl

/-- A service without a channel -/
theorem Sane.mirrors (h : Sane w) (hagree : Agree w.srvc) (hdead : w.isLive = false)
    (hchan : w.srvc.channel = none) : Mirrors w := by
  refine ⟨hagree, h.ret, ?_, h.fresh, fun c hc => ?_, fun _ c hc => ?_, fun _ c hc => ?_⟩
  · rw [hdead, hchan]
    exact ⟨nofun, nofun⟩
  all_goals cases hchan.symm.trans hc

theorem Mirrors.channel_of_not_live (h : Mirrors w) (hlive : w.isLive = false) :
    w.srvc.channel = none := by
  cases hchan : w.srvc.channel with
  | none => rfl
  | some chan =>
    have hlive' := h.live_iff.mpr (by rw [hchan]; rfl)
    rw [hlive] at hlive'
    cases hlive'

theorem mirrors_stop (h : Sane w) (hagree : Agree w.srvc) : Mirrors (stop w) := by
  unfold stop
  cases hchan : w.srvc.channel with
  | none => exact Sane.mirrors ⟨h.ret, h.fresh⟩ hagree rfl hchan
  | some chan =>
    have hs := h.destroy chan 0
    refine Sane.mirrors ⟨hs.ret, hs.fresh⟩ ?_ rfl rfl
    exact hagree.stopped chan

theorem Mirrors.mwServiceStop (h : Mirrors w) : Mirrors (w.mwServiceStop stop) := by
  unfold World.mwServiceStop
  split
  · exact h
  · exact mirrors_stop ⟨h.ret, h.fresh⟩ h.agree

theorem Mirrors.mwServiceError (h : Mirrors w) : Mirrors (w.mwServiceError stop) := by
  unfold World.mwServiceError
  split
  · exact h
  · exact mirrors_stop ⟨h.ret, h.fresh⟩ h.agree

theorem Mirrors.mwServiceStart (h : Mirrors w) : Mirrors (w.mwServiceStart start) := by
  unfold World.mwServiceStart
  split
  · unfold start
    rw [World.createChannel_of_ret (w := { w with state := .starting }) (h.ret _)]
    dsimp only
    have hnew := h.fresh w.nextChan (Nat.le_refl _)
    refine ⟨h.agree.congr rfl rfl rfl rfl rfl rfl, h.ret, ⟨fun _ => rfl, fun _ => rfl⟩, fun c hc => ?_,
      fun c hc => ?_, fun _ c hc => ?_, nofun⟩
    · have hlt : w.nextChan < c := hc
      obtain ⟨hnone, hnil⟩ := h.fresh c hlt.le
      refine ⟨(Function.update_of_ne hlt.ne' ..).trans hnone, ?_⟩
      rw [sentOn_append, hnil]
      rfl
    · cases hc
      exact Nat.lt_succ_self _
    · cases hc
      refine ⟨{ state := .wait }, Function.update_self .., rfl, rfl, ?_, ⟨nofun, nofun⟩⟩
      rw [sentOn_append, hnew.2]
      rfl
  · exact h

theorem stop_isLive (w : AwareWorld) : (w.mwServiceStop stop).isLive = false := by
  unfold World.mwServiceStop
  split
  · rename_i hdead
    simp only [World.isDead, decide_eq_true_eq] at hdead
    rcases hdead with hdead | hdead <;> rw [World.isLive, hdead] <;> rfl
  · rw [World.isLive]
    unfold stop
    cases w.srvc.channel <;> rfl

theorem Mirrors.clear (h : Mirrors w) (hlive : w.isLive = false) :
    Mirrors { clear w with freed := true } := by
  have hloop : ∀ (lists : List Nat) (w : AwareWorld), Mirrors w → w.isLive = false →
      Mirrors (lists.foldl (fun w l => mwAwareListFree l w) w) ∧
        (lists.foldl (fun w l => mwAwareListFree l w) w).isLive = false := by
    intro lists
    induction lists with
    | nil => exact fun _ h hlive => ⟨h, hlive⟩
    | cons l lists ih =>
      intro w h hlive
      obtain ⟨msgs, htells⟩ := tells_listFree h.agree l
      exact ih _ (h.tells htells (h.agree.listFree l).1) (htells.isLive.trans hlive)
  obtain ⟨hfreed, hlive'⟩ := hloop w.srvc.lists w h hlive
  exact Sane.mirrors ⟨hfreed.ret, hfreed.fresh⟩ h.agree.clear hlive'
    (hfreed.channel_of_not_live hlive')

/-! ## Messages of the server -/

/-- A change of a line that the service does not use -/
theorem Mirrors.setLine (h : Mirrors w) {chan : Nat} (hchan : w.srvc.channel ≠ some chan)
    (hlt : chan < w.nextChan) (line : Option (Line AwareMsg Payload)) :
    Mirrors (w.setLine chan line) := by
  have hne : ∀ c, w.srvc.channel = some c → (w.setLine chan line).lines c = w.lines c := by
    intro c hc
    refine World.setLine_of_ne ?_ _
    rintro rfl
    exact hchan hc
  refine ⟨h.agree, h.ret, h.live_iff, fun c hc => ?_, h.current, fun hst c hc => ?_,
    fun hst c hc line hl => ?_⟩
  · obtain ⟨hnone, hnil⟩ := h.fresh c hc
    refine ⟨(World.setLine_of_ne ?_ _).trans hnone, hnil⟩
    rintro rfl
    exact absurd hlt (Nat.not_lt.mpr hc)
  · rw [hne c hc]
    exact h.starting hst c hc
  · rw [hne c hc] at hl
    exact h.started hst c hc line hl

/-- The channel of the service is gone, or another one. -/
theorem Mirrors.destroyLine (h : Mirrors w) {chan : Nat} {line : Line AwareMsg Payload}
    (hline : w.lines chan = some line) (hleft : line.inbound = true ∨ line.state ≠ .wait)
    (reason : UInt32) : Mirrors (w.mwChannelDestroy chan reason) := by
  have hsane := h.sane.destroy chan reason
  rw [World.mwChannelDestroy_of_some (h.ret _) hline] at hsane ⊢
  have hwire : ∀ c, sentOn c (w.wire ++ [.destroy chan reason]) = sentOn c w.wire := by
    intro c
    rw [sentOn_append]
    exact List.append_nil _
  refine ⟨h.agree, h.ret, h.live_iff, hsane.fresh, h.current, fun hst c hc => ?_,
    fun hst c hc line' hl => ?_⟩
  · obtain ⟨line', hl', hin, hwait, hnil, hharmless⟩ := h.starting hst c hc
    by_cases heq : c = chan
    · subst heq
      cases hline.symm.trans hl'
      rcases hleft with hleft | hleft
      · rw [hin] at hleft
        cases hleft
      · exact absurd hwait hleft
    · refine ⟨line', (Function.update_of_ne heq ..).trans hl', hin, hwait, ?_, hharmless⟩
      rw [hwire]
      exact hnil
  · by_cases heq : c = chan
    · subst heq
      cases (Function.update_self ..).symm.trans hl
    · have hl' := (Function.update_of_ne heq ..).symm.trans hl
      rw [hwire]
      exact h.started hst c hc line' hl'

theorem Mirrors.recvCreate (h : Mirrors w) (frames : Nat → AwareStack) (offer : Offer) :
    Mirrors (w.recvCreate (fns frames) offer) := by
  have hnew := h.fresh w.nextChan (Nat.le_refl _)
  have hchan : w.srvc.channel ≠ some w.nextChan := fun hc =>
    absurd (h.current _ hc) (Nat.lt_irrefl _)
  have hsucc : Mirrors { w with nextChan := w.nextChan + 1 } :=
    ⟨h.agree, h.ret, h.live_iff, fun c hc => h.fresh c ((Nat.le_succ _).trans hc),
      fun c hc => (h.current c hc).trans (Nat.lt_succ_self _), h.starting, h.started⟩
  have hline := hsucc.setLine hchan (Nat.lt_succ_self _) (some { inbound := true, state := .wait })
  exact hline.destroyLine (World.setLine_self _ _) (.inl rfl) errFailure

theorem Mirrors.lt_of_line (h : Mirrors w) {chan : Nat} {line : Line AwareMsg Payload}
    (hline : w.lines chan = some line) : chan < w.nextChan := by
  by_contra hge
  cases hline.symm.trans (h.fresh chan (Nat.not_lt.mp hge)).1

theorem Sane.setLine (h : Sane w) {chan : Nat} (hlt : chan < w.nextChan)
    (line : Option (Line AwareMsg Payload)) : Sane (w.setLine chan line) := by
  refine ⟨h.ret, fun c hc => ?_⟩
  obtain ⟨hnone, hnil⟩ := h.fresh c hc
  refine ⟨(World.setLine_of_ne ?_ _).trans hnone, hnil⟩
  rintro rfl
  exact absurd hlt (Nat.not_lt.mpr hc)

/-- A service without a channel is only told that it has stopped. -/
theorem recvDestroy_eq (w : AwareWorld) :
    ∃ state, recvDestroy w = { w with srvc := { w.srvc with channel := none }, state := state } ∧
      (recvDestroy w).isLive = false := by
  refine ⟨(recvDestroy w).state, ?_, stop_isLive _⟩
  unfold recvDestroy World.mwServiceStop
  split <;> rfl

theorem Mirrors.recvDestroy (h : Mirrors w) (frames : Nat → AwareStack) (chan : Nat)
    (reason : UInt32) : Mirrors (w.recvDestroy (fns frames) chan reason) := by
  unfold World.recvDestroy
  split
  · exact h
  · rename_i line hline
    have hlt := h.lt_of_line hline
    dsimp only
    generalize hw : w.setLine chan (some { line with
      state := if reason ≠ 0 then .error else .destroy }) = w₁
    have hsane : Sane w₁ := hw ▸ h.sane.setLine hlt _
    have hagree : Agree w₁.srvc := by
      rw [← hw]
      exact h.agree
    have hlt₁ : chan < w₁.nextChan := by
      rw [← hw]
      exact hlt
    change Mirrors ((Aware.recvDestroy w₁).setLine chan none)
    obtain ⟨state, heq, hlive⟩ := recvDestroy_eq w₁
    rw [heq] at hlive ⊢
    have hsane' : Sane { w₁ with srvc := { w₁.srvc with channel := none }, state := state } :=
      ⟨hsane.ret, hsane.fresh⟩
    exact (hsane'.setLine hlt₁ none).mirrors (hagree.congr rfl rfl rfl rfl rfl rfl) hlive rfl

theorem Mirrors.handle (h : Mirrors w) (stack : AwareStack) (msg : Payload) :
    Mirrors (handle stack msg w) := by
  obtain ⟨msgs, htells, -⟩ := tells_handle stack msg h.agree
  exact h.tells htells (h.agree.handle stack msg)

theorem Mirrors.handled (h : Mirrors w) (n : Nat) :
    Mirrors { w with srvc := { w.srvc with handled := n } } :=
  ⟨h.agree.congr rfl rfl rfl rfl rfl rfl, h.ret, h.live_iff, h.fresh, h.current, fun hst c hc =>
    (h.starting hst c hc).imp fun _ hl => ⟨hl.1, hl.2.1, hl.2.2.1, hl.2.2.2.1, hl.2.2.2.2.known, hl.2.2.2.2.keys⟩,
    fun hst c hc line hl => ⟨(h.started hst c hc line hl).1, (h.started hst c hc line hl).2.1,
      (h.started hst c hc line hl).2.2.known, (h.started hst c hc line hl).2.2.keys⟩⟩

theorem Mirrors.recv (h : Mirrors w) (frames : Nat → AwareStack) (chan : Nat) (msg : Payload) :
    Mirrors (w.recv (fns frames) chan msg) := by
  unfold World.recv
  split
  · exact h
  · rename_i line hline
    split
    · unfold World.channelRecv
      rw [hline]
      change Mirrors (Aware.recv frames chan msg w)
      unfold Aware.recv
      split
      · exact (h.handled _).handle _ msg
      · exact h
    · rename_i hnot
      by_cases hchan : w.srvc.channel = some chan
      · -- the channel waits for its acceptance
        have hother : ∀ c, w.srvc.channel = some c → c = chan := fun c hc =>
          Option.some.inj (hc.symm.trans hchan)
        refine ⟨h.agree, h.ret, h.live_iff, (h.sane.setLine (h.lt_of_line hline) _).fresh, h.current,
          fun hst c hc => ?_, fun hst c hc line' hl => ?_⟩
        · obtain rfl := hother c hc
          obtain ⟨line', hl, hin, hwait, hnil, hharmless⟩ := h.starting hst c hc
          cases hline.symm.trans hl
          exact ⟨_, World.setLine_self _ _, hin, hwait, hnil, hharmless⟩
        · obtain rfl := hother c hc
          exact absurd (h.started hst c hc line hline).1 hnot
      · exact h.setLine hchan (h.lt_of_line hline) _

/-! ## The acceptance of the channel -/

/-- The channel has been accepted, and its queue is still to come. -/
structure Opening (queue : List AwareMsg) (chan : Nat) (w : AwareWorld) : Prop extends Sane w where
  agree : Agree w.srvc
  state : w.state = .started
  channel : w.srvc.channel = some chan
  lt : chan < w.nextChan
  line : ∃ line, w.lines chan = some line ∧ line.state = .opened ∧ line.outgoing = queue
  shown : Shown (sentOn chan w.wire) w.srvc
  harmless : Harmless queue w.srvc

/-- No member of a group that a message announces is removed by the queue. -/
def Undisturbed (queue : List AwareMsg) (msg : Payload) : Prop :=
  ∀ stack, ∀ id ∈ announced stack msg, last AwareMsg.effect queue id ≠ some false

theorem OnlyAdd.last {ids : List MwAwareIdBlock} (h : OnlyAdd ids msgs) (id : MwAwareIdBlock) {b : Bool}
    (hlast : last AwareMsg.effect msgs id = some b) : b = true ∧ id ∈ ids := by
  induction msgs using List.reverseRecOn with
  | nil => cases hlast
  | append_singleton msgs msg ih =>
    obtain ⟨new, rfl, hsub⟩ := h msg (List.mem_append_right _ (List.mem_singleton_self _))
    rw [last_append] at hlast
    have heffect : LastWriter.last AwareMsg.effect [.add new] id =
        if id ∈ new then some true else none := Option.or_none
    rw [heffect] at hlast
    split at hlast
    · rename_i hmem
      exact ⟨(Option.some.inj hlast).symm, hsub hmem⟩
    · exact ih (fun m hm => h m (List.mem_append_left _ hm)) hlast

theorem OnlyAdd.last_watches {ids : List MwAwareIdBlock} (h : OnlyAdd ids msgs) :
    LastWriter.last AwareMsg.watches msgs () = none := by
  induction msgs using List.reverseRecOn with
  | nil => rfl
  | append_singleton msgs msg ih =>
    obtain ⟨new, rfl, -⟩ := h msg (List.mem_append_right _ (List.mem_singleton_self _))
    rw [last_append, ih fun m hm => h m (List.mem_append_left _ hm)]
    rfl

/-- A message that came early is handed over. -/
theorem Opening.channelRecv {queue : List AwareMsg} {chan : Nat} (h : Opening queue chan w)
    (frames : Nat → AwareStack) {msg : Payload} (hmsg : Undisturbed queue msg) :
    Opening queue chan (World.channelRecv (fns frames) chan w msg) := by
  obtain ⟨line, hline, hopened, hout⟩ := h.line
  unfold World.channelRecv
  rw [hline]
  change Opening queue chan (Aware.recv frames chan msg w)
  unfold Aware.recv
  rw [if_pos h.channel]
  generalize frames w.srvc.handled = stack
  have hcount : Tells [] w { w with srvc := { w.srvc with handled := w.srvc.handled + 1 } } :=
    .quiet rfl (fun _ _ => rfl) fun _ => rfl
  have hagree : Agree { w.srvc with handled := w.srvc.handled + 1 } :=
    h.agree.congr rfl rfl rfl rfl rfl rfl
  obtain ⟨msgs, htells, honly⟩ := tells_handle
    (w := { w with srvc := { w.srvc with handled := w.srvc.handled + 1 } }) stack msg hagree
  have hall := hcount.trans htells
  rw [List.nil_append] at hall
  have hagree' := Agree.handle
    (w := { w with srvc := { w.srvc with handled := w.srvc.handled + 1 } }) stack msg hagree
  generalize handle stack msg { w with srvc := { w.srvc with handled := w.srvc.handled + 1 } } = w'
    at hall hagree' ⊢
  have hsent := hall.sending h.ret
  have hlive : w.isLive = true := by rw [World.isLive, h.state]; rfl
  obtain ⟨hline', happend⟩ := hsent.opened chan line h.channel hline hopened
  exact
    { ret := fun n => (congrFun hsent.ret n).trans (h.ret n)
      fresh := fun c hc => by
        rw [hsent.nextChan] at hc
        obtain ⟨hnone, hnil⟩ := h.fresh c hc
        obtain ⟨hnone', hsame⟩ := hsent.gone c hnone
        exact ⟨hnone', hsame.trans hnil⟩
      agree := hagree'
      state := hall.state.trans h.state
      channel := hall.channel.trans h.channel
      lt := hsent.nextChan.symm ▸ h.lt
      line := ⟨line, hline', hopened, hout⟩
      shown := happend.symm ▸ h.shown.tells hall hlive
      harmless := by
        refine ⟨fun id b hlast => ?_, fun keys hlast => ?_⟩
        · rw [hall.known hlive]
          cases hmsgs : last AwareMsg.effect msgs id with
          | none =>
            rw [value_of_last_none hmsgs]
            exact h.harmless.known id b hlast
          | some b' =>
            obtain ⟨rfl, hmem⟩ := honly.last id hmsgs
            rw [value_of_last_some hmsgs]
            cases b with
            | true => rfl
            | false => exact absurd hlast (hmsg stack id hmem)
        · rw [hall.keys hlive, value_of_last_none honly.last_watches]
          exact h.harmless.keys keys hlast }

theorem Opening.setIncoming {queue : List AwareMsg} {chan : Nat} (h : Opening queue chan w)
    {line : Line AwareMsg Payload} (hline : w.lines chan = some line) :
    Opening queue chan (w.setLine chan (some { line with incoming := [] })) := by
  obtain ⟨line', hline', hopened, hout⟩ := h.line
  cases hline.symm.trans hline'
  have hsane := h.toSane.setLine h.lt (some { line with incoming := [] })
  exact
    { hsane with
      agree := h.agree, state := h.state, channel := h.channel, lt := h.lt
      line := ⟨_, World.setLine_self _ _, hopened, hout⟩
      shown := h.shown, harmless := h.harmless }

theorem Opening.flushIncoming {queue : List AwareMsg} {chan : Nat} (h : Opening queue chan w)
    (frames : Nat → AwareStack)
    (hincoming : ∀ line, w.lines chan = some line → ∀ msg ∈ line.incoming, Undisturbed queue msg) :
    Opening queue chan (w.flushIncoming (fns frames) chan) := by
  have hloop : ∀ (msgs : List Payload) (w : AwareWorld), Opening queue chan w →
      (∀ msg ∈ msgs, Undisturbed queue msg) →
      Opening queue chan (msgs.foldl (World.channelRecv (fns frames) chan) w) := by
    intro msgs
    induction msgs with
    | nil => exact fun _ h _ => h
    | cons msg msgs ih =>
      intro w h hmsgs
      exact ih _ (h.channelRecv frames (hmsgs msg List.mem_cons_self))
        fun m hm => hmsgs m (List.mem_cons_of_mem _ hm)
  obtain ⟨line, hline, -, -⟩ := h.line
  have hflushed := hloop line.incoming w h (hincoming line hline)
  obtain ⟨line', hline', -, -⟩ := hflushed.line
  unfold World.flushIncoming
  rw [hline]
  dsimp only
  rw [hline']
  exact hflushed.setIncoming hline'

/-- What waits in a queue is written. -/
theorem foldl_write (hret : ∀ n, w.ret n = 0) (chan : Nat) (queue : List AwareMsg) :
    queue.foldl (fun w msg => (w.write (.send chan msg)).2) w =
      { w with
        writes := w.writes + queue.length
        wire := w.wire ++ queue.map (.send chan) } := by
  induction queue generalizing w with
  | nil => simp
  | cons msg queue ih =>
    rw [List.foldl_cons, World.write_of_ret (hret _), ih (by exact hret)]
    simp only [List.length_cons, List.map_cons, List.append_assoc, List.singleton_append,
      Nat.add_assoc, Nat.add_comm 1]

theorem sentOn_map_self (chan : Nat) (queue : List AwareMsg) :
    sentOn chan (queue.map (.send chan)) = queue := by
  simp [sentOn, List.filterMap_map]

theorem sentOn_map_of_ne {chan chan' : Nat} (h : chan' ≠ chan) (queue : List AwareMsg) :
    sentOn chan (queue.map (.send chan')) = [] := by
  simp [sentOn, List.filterMap_map, h]

theorem Opening.flushOutgoing {queue : List AwareMsg} {chan : Nat} (h : Opening queue chan w) :
    Mirrors (World.flushOutgoing chan w) := by
  obtain ⟨line, hline, hopened, rfl⟩ := h.line
  unfold World.flushOutgoing
  rw [hline]
  dsimp only
  rw [foldl_write h.ret]
  have hsane : Sane { w with
      writes := w.writes + line.outgoing.length
      wire := w.wire ++ line.outgoing.map (.send chan) } := by
    refine ⟨h.ret, fun c hc => ?_⟩
    obtain ⟨hnone, hnil⟩ := h.fresh c hc
    refine ⟨hnone, ?_⟩
    rw [sentOn_append, hnil, sentOn_map_of_ne (h.lt.trans_le hc).ne]
    rfl
  have hsane' := hsane.setLine h.lt (some { line with outgoing := [] })
  refine ⟨h.agree, h.ret, ?_, hsane'.fresh, fun c hc => ?_, fun hst => ?_, fun _ c hc line' hl => ?_⟩
  · rw [World.isLive]
    change decide (w.state = .starting ∨ w.state = .started) = true ↔ w.srvc.channel.isSome = true
    rw [h.state, h.channel]
    exact ⟨fun _ => rfl, fun _ => rfl⟩
  · cases h.channel.symm.trans hc
    exact h.lt
  · cases h.state.symm.trans hst
  · cases h.channel.symm.trans hc
    cases (World.setLine_self _ _).symm.trans hl
    refine ⟨hopened, rfl, ?_⟩
    change Shown (sentOn chan (w.wire ++ line.outgoing.map (.send chan))) w.srvc
    rw [sentOn_append, sentOn_map_self]
    exact h.shown.flush h.harmless

/-- What `recv_accept` sends shows all there is. -/
theorem shown_accept (w : AwareWorld) :
    Shown [.add (w.srvc.entries.filterMap fun n => entryKey w.srvc n.addr),
      .watch (watchedKeys w.srvc)] w.srvc := by
  refine ⟨fun id => ?_, rfl⟩
  change (AwareMsg.effect (.add _) id).getD false = _
  rw [AwareMsg.effect, Bool.eq_iff_iff, known_eq_true_iff]
  constructor
  · split
    · rename_i hmem
      obtain ⟨n, hn, hid⟩ := List.mem_filterMap.mp hmem
      exact fun _ => ⟨n.addr, List.mem_map_of_mem hn, hid⟩
    · exact fun h => by cases h
  · rintro ⟨addr, haddr, hid⟩
    obtain ⟨n, hn, rfl⟩ := List.mem_map.mp haddr
    rw [if_pos (List.mem_filterMap.mpr ⟨n, hn, hid⟩)]
    rfl

/-- The channel of the service is accepted. -/
theorem Mirrors.opening (h : Mirrors w) {chan : Nat} {line : Line AwareMsg Payload}
    (hchan : w.srvc.channel = some chan) (hline : w.lines chan = some line)
    (hwait : line.state = .wait) :
    Opening line.outgoing chan (recvAccept chan (w.setLine chan (some { line with state := .opened }))) ∧
      ∃ line', (recvAccept chan (w.setLine chan (some { line with state := .opened }))).lines chan =
        some line' ∧ line'.incoming = line.incoming := by
  have hstarting : w.state = .starting := by
    have hlive := h.live_iff.mpr (by rw [hchan]; rfl)
    simp only [World.isLive, decide_eq_true_eq] at hlive
    rcases hlive with hst | hst
    · exact hst
    · cases hwait.symm.trans (h.started hst chan hchan line hline).1
  obtain ⟨line', hl, hin, -, hnil, hharmless⟩ := h.starting hstarting chan hchan
  cases hline.symm.trans hl
  have hlt := h.current chan hchan
  generalize hw : w.setLine chan (some { line with state := .opened }) = w₁
  have hsrvc : w₁.srvc = w.srvc := by rw [← hw]; rfl
  have hchan₁ : w₁.srvc.channel = some chan := by rw [hsrvc, hchan]
  have hstate₁ : w₁.state = .starting := by rw [← hw]; exact hstarting
  have hline₁ : w₁.lines chan = some { line with state := .opened } := by
    rw [← hw, World.setLine_self]
  have hwire₁ : w₁.wire = w.wire := by rw [← hw]; rfl
  have hsane₁ : Sane w₁ := hw ▸ h.sane.setLine hlt _
  have hlt₁ : chan < w₁.nextChan := by rw [← hw]; exact hlt
  -- both messages are written at once
  have hsends : sendAttribList (sendAdd w₁ (w₁.srvc.entries.filterMap fun n => entryKey w₁.srvc n.addr)) =
      sends [.add (w₁.srvc.entries.filterMap fun n => entryKey w₁.srvc n.addr),
        .watch (watchedKeys w₁.srvc)] w₁ := by
    rw [sendAttribList, sendAdd, send_srvc]
    rfl
  have hsent := sent_sends hsane₁.ret [.add (w₁.srvc.entries.filterMap fun n => entryKey w₁.srvc n.addr),
    .watch (watchedKeys w₁.srvc)]
  have hsrvc₂ := sends_srvc [.add (w₁.srvc.entries.filterMap fun n => entryKey w₁.srvc n.addr),
    .watch (watchedKeys w₁.srvc)] w₁
  unfold recvAccept
  rw [if_pos hchan₁, if_pos hstate₁]
  dsimp only
  rw [hsends]
  generalize sends [.add (w₁.srvc.entries.filterMap fun n => entryKey w₁.srvc n.addr),
    .watch (watchedKeys w₁.srvc)] w₁ = w₂ at hsent hsrvc₂
  obtain ⟨hline₂, hwire₂⟩ := hsent.opened chan _ hchan₁ hline₁ rfl
  rw [hwire₁, hnil, List.nil_append] at hwire₂
  have hshown := shown_accept w₁
  refine ⟨?_, _, hline₂, rfl⟩
  exact
    { ret := fun n => (congrFun hsent.ret n).trans (hsane₁.ret n)
      fresh := fun c hc => by
        change w₂.nextChan ≤ c at hc
        rw [hsent.nextChan] at hc
        obtain ⟨hnone, hnil⟩ := hsane₁.fresh c hc
        obtain ⟨hnone', hsame⟩ := hsent.gone c hnone
        exact ⟨hnone', hsame.trans hnil⟩
      agree := by
        change Agree w₂.srvc
        rw [hsrvc₂, hsrvc]
        exact h.agree
      state := rfl
      channel := by
        change w₂.srvc.channel = _
        rw [hsrvc₂, hchan₁]
      lt := by
        change chan < w₂.nextChan
        rw [hsent.nextChan]
        exact hlt₁
      line := ⟨_, hline₂, rfl, rfl⟩
      shown := by
        change Shown (sentOn chan w₂.wire) w₂.srvc
        rw [hwire₂, hsrvc₂]
        exact hshown
      harmless := by
        change Harmless _ w₂.srvc
        rw [hsrvc₂, hsrvc]
        exact hharmless }

/-- A channel that the service has given up is accepted. -/
theorem Mirrors.acceptOther (h : Mirrors w) (frames : Nat → AwareStack) {chan : Nat}
    {line : Line AwareMsg Payload} (hchan : w.srvc.channel ≠ some chan)
    (hline : w.lines chan = some line) : Mirrors (w.flushChannel (fns frames) chan) := by
  have hlt := h.lt_of_line hline
  have hloop : ∀ msgs : List Payload, msgs.foldl (World.channelRecv (fns frames) chan) w = w := by
    intro msgs
    induction msgs with
    | nil => rfl
    | cons msg msgs ih =>
      have hrecv : World.channelRecv (fns frames) chan w msg = w := by
        unfold World.channelRecv
        rw [hline]
        exact if_neg hchan
      rw [List.foldl_cons, hrecv, ih]
  have hincoming : w.flushIncoming (fns frames) chan =
      w.setLine chan (some { line with incoming := [] }) := by
    rw [World.flushIncoming_of_lines hline (by rw [hloop]; exact hline), hloop]
  have h₁ : Mirrors (w.setLine chan (some { line with incoming := [] })) := h.setLine hchan hlt _
  unfold World.flushChannel
  rw [hincoming]
  unfold World.flushOutgoing
  rw [World.setLine_self]
  dsimp only
  rw [foldl_write h₁.ret]
  have hwire : ∀ c, c ≠ chan → sentOn c (w.wire ++ line.outgoing.map (.send chan)) =
      sentOn c w.wire := by
    intro c hc
    rw [sentOn_append, sentOn_map_of_ne hc.symm, List.append_nil]
  have hne : ∀ c, w.srvc.channel = some c → c ≠ chan := by
    rintro c hc rfl
    exact hchan hc
  have h₂ : Mirrors { w.setLine chan (some { line with incoming := [] }) with
      writes := w.writes + line.outgoing.length
      wire := w.wire ++ line.outgoing.map (.send chan) } := by
    refine ⟨h₁.agree, h₁.ret, h₁.live_iff, fun c hc => ?_, h₁.current, fun hst c hc => ?_,
      fun hst c hc line' hl => ?_⟩
    · obtain ⟨hnone, hnil⟩ := h₁.fresh c hc
      exact ⟨hnone, (hwire c (hlt.trans_le hc).ne').trans hnil⟩
    · obtain ⟨line', hl, hin, hwait, hnil, hharmless⟩ := h₁.starting hst c hc
      exact ⟨line', hl, hin, hwait, (hwire c (hne c hc)).trans hnil, hharmless⟩
    · rw [hwire c (hne c hc)]
      exact h₁.started hst c hc line' hl
  exact h₂.setLine hchan hlt _

theorem Mirrors.recvAccept (h : Mirrors w) (frames : Nat → AwareStack) (chan : Nat)
    (hincoming : w.srvc.channel = some chan → ∀ line, w.lines chan = some line →
      ∀ msg ∈ line.incoming, Undisturbed line.outgoing msg) :
    Mirrors (w.recvAccept (fns frames) chan) := by
  cases hline : w.lines chan with
  | none =>
    unfold World.recvAccept
    rw [hline]
    exact h
  | some line =>
    by_cases hleft : line.inbound = true ∨ line.state ≠ .wait
    · unfold World.recvAccept
      rw [hline]
      dsimp only
      rw [if_pos hleft]
      exact h.destroyLine hline hleft _
    · have hin : line.inbound = false := by
        cases hin : line.inbound with
        | false => rfl
        | true => exact absurd (.inl hin) hleft
      have hwait : line.state = .wait := by
        by_contra hne
        exact hleft (.inr hne)
      by_cases hchan : w.srvc.channel = some chan
      · obtain ⟨hopening, line', hline', hsame⟩ := h.opening hchan hline hwait
        obtain ⟨line'', hline'', hopened, -⟩ := hopening.line
        cases hline'.symm.trans hline''
        rw [World.recvAccept_of_wait (f := fns frames) hline hin hwait hline' hopened]
        refine (hopening.flushIncoming frames fun l hl msg hmsg => ?_).flushOutgoing
        cases hline'.symm.trans hl
        rw [hsame] at hmsg
        exact hincoming hchan line hline msg hmsg
      · have hset := h.setLine hchan (h.lt_of_line hline) (some { line with state := .opened })
        have hignored : (fns frames).recvAccept chan (w.setLine chan (some { line with
            state := .opened })) = w.setLine chan (some { line with state := .opened }) :=
          if_neg hchan
        rw [World.recvAccept_of_wait (f := fns frames) hline hin hwait
          (by rw [hignored, World.setLine_self]) rfl, hignored]
        exact hset.acceptOther frames hchan (World.setLine_self _ _)

/-! ## Whole runs -/

/-- When a channel is accepted, no message that came on it early announces a group member that
a message in its queue removes last. -/
def Timely (w : AwareWorld) : Step → Prop
  | .input (.accept chan) => w.srvc.channel = some chan → ∀ line, w.lines chan = some line →
      ∀ msg ∈ line.incoming, Undisturbed line.outgoing msg
  | _ => True

def AllTimely (frames : Nat → AwareStack) : List Step → AwareWorld → Prop
  | [], _ => True
  | st :: steps, w => Timely w st ∧ AllTimely frames steps (step frames w st)

theorem Mirrors.step (h : Mirrors w) (frames : Nat → AwareStack) (st : Step) (hst : Timely w st) :
    Mirrors (step frames w st) := by
  cases st with
  | call call =>
    change Mirrors (if w.freed then w else runCall w call)
    split
    · exact h
    · obtain ⟨msgs, htells⟩ := tells_runCall h.agree call
      exact h.tells htells (h.agree.runCall call)
  | input input =>
    change Mirrors (if w.freed then w else _)
    split
    · exact h
    · cases input with
      | start => exact h.mwServiceStart
      | stop => exact h.mwServiceStop
      | error => exact h.mwServiceError
      | free => exact h.mwServiceStop.clear (stop_isLive w)
      | create offer => exact h.recvCreate frames offer
      | accept chan => exact h.recvAccept frames chan hst
      | destroy chan reason => exact h.recvDestroy frames chan reason
      | recv chan msg => exact h.recv frames chan msg

theorem Mirrors.run (frames : Nat → AwareStack) (steps : List Step) (h : Mirrors w)
    (hsteps : AllTimely frames steps w) : Mirrors (run frames steps w) := by
  induction steps generalizing w with
  | nil => exact h
  | cons st steps ih => exact ih (h.step frames st hsteps.1) hsteps.2

/-- A service that has started, with nothing left in the queues of its channel, and the server
have the same ids and the same attributes. -/
def InStep (w : AwareWorld) : Prop :=
  ∀ chan line, w.state = .started → w.srvc.channel = some chan → w.lines chan = some line →
    line.outgoing = [] → line.incoming = [] →
    (∀ id, seen (sentOn chan w.wire) id = known w.srvc id) ∧
      last AwareMsg.watches (sentOn chan w.wire) () = some (watchedKeys w.srvc)

/-- Where every write succeeds, the service and the server are in step. -/
theorem run_inStep (frames : Nat → AwareStack) (steps : List Step)
    (hsteps : AllTimely frames steps (mwServiceAwareNew fun _ => 0)) :
    InStep (run frames steps (mwServiceAwareNew fun _ => 0)) := by
  have hnew : Mirrors (mwServiceAwareNew fun _ => 0) :=
    Sane.mirrors ⟨fun _ => rfl, fun _ _ => ⟨rfl, rfl⟩⟩ (agree_new _) rfl rfl
  intro chan line hstate hchan hline _ _
  obtain ⟨-, -, hshown⟩ := (hnew.run frames steps hsteps).started hstate chan hchan line hline
  exact ⟨hshown.known, hshown.keys⟩

/-- A group, and a user who is in it -/
def team : MwAwareIdBlock := { type := mwAwareGroup, user := some (.ofBytes [0x67]) }

def bob : MwAwareIdBlock := { type := 2, user := some (.ofBytes [0x62, 0x6f, 0x62]) }

/-- An update that tells of the user as a member of the group, offline -/
def bobInTeam : Payload :=
  (msgAwareUpdate, guint32Put 0 ++ guint16Put bob.type ++ mwStringPut bob.user ++
    mwStringPut bob.community ++ mwStringPut team.user ++ gbooleanPut false)

theorem run_inStep_member :
    let w := run (fun _ => {}) [.call .listNew, .call (.addAware 0 [team]), .input .start,
      .input (.accept 0), .input (.recv 0 bobInTeam)] (mwServiceAwareNew fun _ => 0)
    w.state = .started ∧ known w.srvc bob = true ∧ InStep w := by
  refine ⟨by decide +kernel, by decide +kernel, run_inStep _ _ ?_⟩
  refine ⟨trivial, trivial, trivial, fun _ line hline msg hmsg => ?_, trivial, trivial⟩
  cases hline
  cases hmsg

/-- A user who is removed while the service is starting, and comes back with a group before the
channel is accepted, is an entry that the server does not know of. -/
theorem not_inStep_early :
    ¬ ∀ (frames : Nat → AwareStack) steps, InStep (run frames steps (mwServiceAwareNew fun _ => 0)) := by
  intro h
  have hstep := (h (fun _ => {}) [.call .listNew, .call (.addAware 0 [team, bob]), .input .start,
    .call (.removeAware 0 [bob]), .input (.recv 0 bobInTeam), .input (.accept 0)] 0
    { state := .opened } (by decide +kernel) (by decide +kernel) (by rfl) rfl rfl).1 bob
  revert hstep
  decide +kernel

end Meanwhile.Aware
