-- SUMMARY: Every storage request is written at most once and in order, answered at most once, and freed exactly once.
import Meanwhile.Service.Ledger
import Mathlib.Data.List.Sort

/-!
# Storage requests over whole runs

`Wired` says where the channel of the service stands, and that nothing is left to
be sent once it is open. With the ledger it is kept by every step, callbacks that
call the service again included.
-/

namespace Meanwhile.Storage

/-! ## The channel of the service -/

/-- Where the channel of the service stands. A channel that the server has let go of
is not in the set any more; otherwise it waits while the service is starting, and
is open while it is up. Then there is nothing left to be sent. -/
structure Wired (w : StorageWorld) : Prop where
  ret : ∀ n, w.ret n = 0
  line : ∀ chan line, w.lines chan = some line →
    w.srvc.channel = some chan ∧ chan < w.nextChan ∧ line.outgoing = [] ∧
      (line.state = .wait ∧ w.state = .starting ∨
        line.state = .opened ∧ w.state = .started ∧ ∀ req ∈ w.srvc.pending, ¬ Unsent req)

/-- Both invariants -/
structure Sound (busy : Option Nat) (w : StorageWorld) : Prop extends Wired w where
  ledger : Ledger busy w.srvc w.wire

variable {w : StorageWorld} {busy : Option Nat}

theorem requestSend_of_opened (hret : w.ret w.writes = 0) {chan : Nat}
    {line : Line StorageMessage (UInt16 × MwOpaque)} (hline : w.lines chan = some line)
    (hopened : line.state = .opened) (req : MwStorageReq) :
    requestSend w (some chan) req =
      (0, { w with
        writes := w.writes + 1
        wire := w.wire ++ [.send chan (requestMessage req)]
        srvc := update w.srvc req.addr fun req => { req with action := req.action.sent } }) := by
  simp [requestSend, World.mwChannelSend_of_opened hline hopened, World.write_of_ret hret]

/-- What the calls of a callback leave as it was -/
structure Goes (w w' : StorageWorld) : Prop where
  lines : w'.lines = w.lines
  log : w.srvc.log <:+ w'.srvc.log
  pending : ∀ req ∈ w.srvc.pending, ∃ req' ∈ w'.srvc.pending, SameRequest req req'

theorem Goes.refl (w : StorageWorld) : Goes w w where
  lines := rfl
  log := List.suffix_rfl
  pending := fun req hreq => ⟨req, hreq, rfl, rfl, rfl, rfl, rfl⟩

theorem Goes.trans {w w' w'' : StorageWorld} (h : Goes w w') (h' : Goes w' w'') : Goes w w'' where
  lines := h'.lines.trans h.lines
  log := h.log.trans h'.log
  pending := fun req hreq => by
    obtain ⟨req', hreq', hsame⟩ := h.pending req hreq
    obtain ⟨req'', hreq'', hsame'⟩ := h'.pending req' hreq'
    exact ⟨req'', hreq'', hsame.trans hsame'⟩

theorem Few.of_suffix {log log' : List StorageEvent} (h : Few log') (hlog : log <:+ log') :
    Few log :=
  fun l hl => h l (hl.trans hlog)

/-! ## Calls -/

@[simp] theorem requestSend_log (chan : Option Nat) (req : MwStorageReq) :
    (requestSend w chan req).2.srvc.log = w.srvc.log := by
  unfold requestSend World.mwChannelSend World.write World.setLine update
  grind

theorem issue_log (w : StorageWorld) (action : StorageAction) (item : MwStorageUnit)
    (cb : Option Nat) (data : Nat) (dataFree : Option Nat) :
    (issue w action item cb data dataFree).srvc.log =
      .issue (enlist w action item cb data dataFree).1 :: w.srvc.log := by
  unfold issue
  dsimp only
  split
  · rw [requestSend_log]
    rfl
  · rfl

/-- The world with a new request that has not been sent -/
structure Enlisted (busy : Option Nat) (w : StorageWorld) (req : MwStorageReq)
    (w' : StorageWorld) : Prop where
  ledger : Ledger busy w'.srvc w'.wire
  pending : w'.srvc.pending = w.srvc.pending ++ [req]
  unsent : Unsent req
  log : w.srvc.log <:+ w'.srvc.log
  channel : w'.srvc.channel = w.srvc.channel
  lines : w'.lines = w.lines
  state : w'.state = w.state
  nextChan : w'.nextChan = w.nextChan
  ret : w'.ret = w.ret

theorem Sound.enlist (hs : Sound busy w) {action : StorageAction}
    (haction : action = .save ∨ action = .load) (item : MwStorageUnit) (cb : Option Nat)
    (data : Nat) (dataFree : Option Nat)
    (hfew : Few (.issue (enlist w action item cb data dataFree).1 :: w.srvc.log)) :
    Enlisted busy w (enlist w action item cb data dataFree).1
      (enlist w action item cb data dataFree).2 where
  ledger := hs.ledger.requestNew haction item cb data dataFree (hfew _ List.suffix_rfl)
  pending := rfl
  unsent := haction
  log := List.suffix_cons _ _
  channel := rfl
  lines := rfl
  state := rfl
  nextChan := rfl
  ret := rfl

namespace Enlisted

variable {w' : StorageWorld} {req : MwStorageReq}

theorem goes (he : Enlisted busy w req w') : Goes w w' where
  lines := he.lines
  log := he.log
  pending := fun r hr =>
    ⟨r, by rw [he.pending]; exact List.mem_append_left _ hr, rfl, rfl, rfl, rfl, rfl⟩

/-- A request that is not sent because the channel is not open -/
theorem sound (he : Enlisted busy w req w') (hs : Sound busy w)
    (hclosed : ∀ chan line, w.lines chan = some line → line.state ≠ .opened) : Sound busy w' where
  ret := by
    rw [he.ret]
    exact hs.ret
  line := by
    intro chan line hline
    rw [he.lines] at hline
    rw [he.channel, he.nextChan, he.state]
    obtain ⟨hchan, hlt, hout, hwait | ⟨hopened, -⟩⟩ := hs.line chan line hline
    · exact ⟨hchan, hlt, hout, .inl hwait⟩
    · exact absurd hopened (hclosed chan line hline)
  ledger := he.ledger

/-- A request that is sent at once -/
theorem requestSend (he : Enlisted busy w req w') (hs : Sound busy w) {chan : Nat}
    {line : Line StorageMessage (UInt16 × MwOpaque)} (hline : w.lines chan = some line)
    (hopened : line.state = .opened) :
    Sound busy (requestSend w' (some chan) req).2 ∧ Goes w (requestSend w' (some chan) req).2 := by
  obtain ⟨hchan, -, -, ⟨hwait, -⟩ | ⟨-, hstarted, hsent⟩⟩ := hs.line chan line hline
  · exact absurd (hwait.symm.trans hopened) (by decide)
  · have hret : ∀ n, w'.ret n = 0 := by
      rw [he.ret]
      exact hs.ret
    rw [requestSend_of_opened (hret _) (he.lines ▸ hline) hopened]
    refine ⟨{ ret := hret, line := ?_, ledger := ?_ }, he.goes.trans ⟨rfl, List.suffix_rfl, ?_⟩⟩
    · intro chan' line' hline'
      obtain ⟨hchan', hlt, hout, ⟨-, hstarting⟩ | ⟨hopened', -, -⟩⟩ :=
        hs.line chan' line' (he.lines ▸ hline')
      · exact absurd (hstarting.symm.trans hstarted) (by decide)
      · refine ⟨he.channel.trans hchan', he.nextChan ▸ hlt, hout,
          .inr ⟨hopened', he.state.trans hstarted, ?_⟩⟩
        intro r' hr' hunsent
        obtain ⟨r, hr, heq⟩ := List.mem_map.mp hr'
        subst heq
        split at hunsent
        · exact Unsent.not_sent _ hunsent
        · rename_i haddr
          rw [he.pending] at hr
          rcases List.mem_append.mp hr with hr | hr
          · exact hsent r hr hunsent
          · exact haddr (congrArg _ (List.mem_singleton.mp hr))
    · exact he.ledger.sent he.pending hsent he.unsent chan
    · intro r hr
      refine ⟨_, List.mem_map_of_mem hr, ?_⟩
      split <;> exact ⟨rfl, rfl, rfl, rfl, rfl⟩

end Enlisted

theorem Sound.issue (hs : Sound busy w) {action : StorageAction}
    (haction : action = .save ∨ action = .load) (item : MwStorageUnit) (cb : Option Nat)
    (data : Nat) (dataFree : Option Nat)
    (hfew : Few (issue w action item cb data dataFree).srvc.log) :
    Sound busy (issue w action item cb data dataFree) ∧
      Goes w (issue w action item cb data dataFree) := by
  rw [issue_log] at hfew
  have he := hs.enlist haction item cb data dataFree hfew
  unfold Storage.issue
  revert he
  generalize Storage.enlist w action item cb data dataFree = p
  obtain ⟨req, w'⟩ := p
  intro he
  dsimp only
  by_cases hline : ∃ chan line, w.lines chan = some line ∧ line.state = .opened
  · obtain ⟨chan, line, hline, hopened⟩ := hline
    obtain ⟨hchan, -, -, ⟨hwait, -⟩ | ⟨-, hstarted, -⟩⟩ := hs.line chan line hline
    · exact absurd (hwait.symm.trans hopened) (by decide)
    · rw [if_pos (he.state.trans hstarted), he.channel, hchan]
      exact he.requestSend hs hline hopened
  · have hclosed : ∀ chan line, w.lines chan = some line → line.state ≠ .opened :=
      fun chan line hline' hopened => hline ⟨chan, line, hline', hopened⟩
    have hs' := he.sound hs hclosed
    split
    · rename_i hstarted
      -- the service is up, but its channel is gone
      have hnone : ∀ chan, w'.lines chan = none := by
        intro chan
        rw [he.lines]
        refine Option.eq_none_iff_forall_ne_some.mpr fun line hline => ?_
        obtain ⟨-, -, -, ⟨-, hstarting⟩ | ⟨hopened, -⟩⟩ := hs.line chan line hline
        · exact absurd (hstarting.symm.trans (he.state.symm.trans hstarted)) (by decide)
        · exact hclosed chan line hline hopened
      cases hchan : w'.srvc.channel with
      | none => exact ⟨hs', he.goes⟩
      | some chan =>
        simp only [Storage.requestSend, World.mwChannelSend_of_none (hnone chan)]
        exact ⟨{ ret := hs'.ret, line := hs'.line, ledger := hs'.ledger }, he.goes.lines,
          he.goes.log, he.goes.pending⟩
    · exact ⟨hs', he.goes⟩

theorem Sound.runCall (hs : Sound busy w) (call : Call) (hfew : Few (runCall w call).srvc.log) :
    Sound busy (runCall w call) ∧ Goes w (runCall w call) := by
  cases call with
  | load item cb data dataFree => exact hs.issue (.inr rfl) item cb data dataFree hfew
  | save item cb data dataFree => exact hs.issue (.inl rfl) item cb data dataFree hfew

theorem runCall_log (w : StorageWorld) (call : Call) :
    w.srvc.log <:+ (runCall w call).srvc.log := by
  cases call <;>
    simp only [Storage.runCall, mwServiceStorageLoad, mwServiceStorageSave, issue_log] <;>
    exact List.suffix_cons _ _

theorem foldl_runCall_log (calls : List Call) (w : StorageWorld) :
    w.srvc.log <:+ (calls.foldl Storage.runCall w).srvc.log := by
  induction calls generalizing w with
  | nil => exact List.suffix_rfl
  | cons call calls ih => exact (runCall_log w call).trans (ih _)

/-- The calls of a callback, one after the other -/
theorem Sound.runCalls (hs : Sound busy w) (calls : List Call)
    (hfew : Few (calls.foldl Storage.runCall w).srvc.log) :
    Sound busy (calls.foldl Storage.runCall w) ∧ Goes w (calls.foldl Storage.runCall w) := by
  induction calls generalizing w with
  | nil => exact ⟨hs, .refl w⟩
  | cons call calls ih =>
    obtain ⟨hs', hgoes⟩ := hs.runCall call (hfew.of_suffix (foldl_runCall_log calls _))
    obtain ⟨hs'', hgoes'⟩ := ih hs' hfew
    exact ⟨hs'', hgoes.trans hgoes'⟩

/-! ## Receiving -/

/-- A change of the requests that leaves none to be sent which had been -/
theorem Sound.change (hs : Sound busy w) {busy' : Option Nat} {s : MwServiceStorage}
    (hledger : Ledger busy' s w.wire) (hchannel : s.channel = w.srvc.channel)
    (hsent : (∀ req ∈ w.srvc.pending, ¬ Unsent req) → ∀ req ∈ s.pending, ¬ Unsent req) :
    Sound busy' { w with srvc := s } where
  ret := hs.ret
  line := by
    intro chan line hline
    obtain ⟨hchan, hlt, hout, hwait | ⟨hopened, hstarted, hall⟩⟩ := hs.line chan line hline
    · exact ⟨hchannel.trans hchan, hlt, hout, .inl hwait⟩
    · exact ⟨hchannel.trans hchan, hlt, hout, .inr ⟨hopened, hstarted, hsent hall⟩⟩
  ledger := hledger

theorem requestRemove_log (s : MwServiceStorage) (req : MwStorageReq) :
    s.log <:+ (requestRemove s req).log := by
  rw [requestRemove, requestFree_eq]
  exact List.suffix_append _ _

theorem requestTrigger_log (client : Client) (w : StorageWorld) (req : MwStorageReq) :
    w.srvc.log <:+ (requestTrigger client w req).srvc.log := by
  unfold requestTrigger
  split
  · exact (List.suffix_cons _ _).trans
      (foldl_runCall_log _ { w with srvc := record w.srvc (.callback req) })
  · exact List.suffix_rfl

/-- The callback of a request that has been answered, with the calls it makes -/
theorem Sound.requestTrigger (hs : Sound none w) {client : Client} {req : MwStorageReq}
    (hreq : req ∈ w.srvc.pending) (hanswers : Answers req w.srvc.log)
    (hfew : Few (requestTrigger client w req).srvc.log) :
    ∃ busy, (busy = none ∨ busy = some req.addr) ∧ Sound busy (requestTrigger client w req) ∧
      Goes w (requestTrigger client w req) := by
  unfold Storage.requestTrigger at hfew ⊢
  by_cases hcb : req.cb.isSome = true
  · rw [if_pos hcb] at hfew ⊢
    have hs' : Sound (some req.addr) { w with srvc := record w.srvc (.callback req) } :=
      hs.change (hs.ledger.callback hreq hanswers) rfl id
    obtain ⟨hs'', hgoes⟩ := hs'.runCalls _ hfew
    refine ⟨some req.addr, .inr rfl, hs'', Goes.trans ?_ hgoes⟩
    exact ⟨rfl, List.suffix_cons _ _, fun r hr => ⟨r, hr, rfl, rfl, rfl, rfl, rfl⟩⟩
  · rw [if_neg hcb]
    exact ⟨none, .inl rfl, hs, .refl w⟩

/-- A request that has been answered is done with. -/
theorem Sound.requestRemove {w' : StorageWorld} {req : MwStorageReq} (hs : Sound busy w')
    (hbusy : busy = none ∨ busy = some req.addr) (hgoes : Goes w w') (hreq : req ∈ w.srvc.pending) :
    Sound none { w' with srvc := requestRemove w'.srvc req } := by
  obtain ⟨r, hr, hsame⟩ := hgoes.pending req hreq
  refine hs.change (hs.ledger.requestRemove hr hsame.symm hbusy) ?_ ?_
  · rw [Storage.requestRemove, requestFree_eq]
  · intro hall r' hr'
    rw [Storage.requestRemove, requestFree_eq] at hr'
    exact hall r' (List.mem_of_mem_filter hr')

/-- The response that a request has been read from -/
theorem Ledger.answers {s : MwServiceStorage} {wire : List (Packet StorageMessage)}
    (hl : Ledger none s wire) (count : UInt32) {req : MwStorageReq} (chan : Nat) {type : UInt16}
    {data : MwOpaque} (hreq : req ∈ s.pending) (hsent : ¬ Unsent req)
    {beyond : Nat → UInt8} (hid : req.id = guint32Peek (.wrapOpaque data) beyond)
    (hcode : req.action.code = type)
    (hok : (requestGet count req (.wrapOpaque data)).2.error = false) :
    Answers (requestGet count req (.wrapOpaque data)).1
      (.recv (some chan) chan type data :: s.log) := by
  obtain ⟨made, hmade, hsame, hunsent, haction⟩ := hl.stands req hreq
  obtain ⟨hlen, hpeek, hresult⟩ := requestGet_of_ok hok
  have hmatch : made.action.sent.code = type := by
    rcases haction with haction | haction
    · exact absurd (by simpa [Unsent, haction] using hunsent) hsent
    · rw [← haction, hcode]
  exact ⟨chan, type, data, s.log, made, rfl, hmade, hsame.trans (requestGet_same _ _ _).1,
    hmatch.symm, hlen, by rw [← hpeek beyond, ← hid, hsame.2.1], hresult⟩

theorem Sound.answer (hs : Sound none w) {client : Client} {req : MwStorageReq} {data : MwOpaque}
    (hreq : req ∈ w.srvc.pending)
    (hanswers : (requestGet client.stack req (.wrapOpaque data)).2.error = false →
      Answers (requestGet client.stack req (.wrapOpaque data)).1 w.srvc.log)
    (hfew : Few (answer client w req data).srvc.log) :
    Sound none (answer client w req data) ∧ (answer client w req data).lines = w.lines := by
  obtain ⟨hsame, haction⟩ := requestGet_same client.stack req (.wrapOpaque data)
  revert hfew hanswers
  unfold Storage.answer
  generalize requestGet client.stack req (.wrapOpaque data) = p at hsame haction ⊢
  obtain ⟨req', b⟩ := p
  intro hanswers hfew
  dsimp only at *
  -- the request is changed in place
  have hs' : Sound none { w with srvc := update w.srvc req'.addr fun _ => req' } := by
    refine hs.change (hs.ledger.update _ fun r hr haddr => ?_) rfl ?_
    · obtain rfl := hs.ledger.eq_of_addr hr hreq (haddr.trans hsame.1.symm)
      exact ⟨hsame, .inl haction⟩
    · intro hall r' hr'
      obtain ⟨r, hr, rfl⟩ := List.mem_map.mp hr'
      split
      · exact fun hunsent => hall req hreq (hunsent.of_sent (.inl haction))
      · exact hall r hr
  have hreq' : req' ∈ (update w.srvc req'.addr fun _ => req').pending := by
    refine List.mem_map.mpr ⟨req, hreq, if_pos hsame.1⟩
  split at hfew
  · rename_i herror
    rw [if_pos herror]
    exact ⟨hs'.requestRemove (.inl rfl) (.refl _) hreq', rfl⟩
  · rename_i herror
    rw [if_neg herror]
    obtain ⟨busy, hbusy, hs'', hgoes⟩ := hs'.requestTrigger hreq' (hanswers (by simpa using herror))
      (hfew.of_suffix (requestRemove_log _ _))
    exact ⟨hs''.requestRemove hbusy hgoes hreq', hgoes.lines⟩

theorem answer_log (client : Client) (w : StorageWorld) (req : MwStorageReq) (data : MwOpaque) :
    w.srvc.log <:+ (answer client w req data).srvc.log := by
  unfold answer
  dsimp only
  refine List.IsSuffix.trans ?_ (requestRemove_log _ _)
  split
  · exact List.suffix_rfl
  · exact requestTrigger_log client { w with srvc := update w.srvc _ _ } _

theorem recv_log (client : Client) (chan : Nat) (msg : UInt16 × MwOpaque) (w : StorageWorld) :
    w.srvc.log <:+ (recv client chan msg w).srvc.log := by
  unfold recv
  dsimp only
  refine (List.suffix_cons (.recv w.srvc.channel chan msg.1 msg.2) w.srvc.log).trans ?_
  split
  · split
    · exact List.suffix_rfl
    · split
      · exact answer_log client
          { w with srvc := record w.srvc (.recv w.srvc.channel chan msg.1 msg.2) } _ _
      · exact List.suffix_rfl
  · exact List.suffix_rfl

theorem Sound.recv (hs : Sound none w) {client : Client} {chan : Nat}
    {line : Line StorageMessage (UInt16 × MwOpaque)} (hline : w.lines chan = some line)
    (hopened : line.state = .opened) {msg : UInt16 × MwOpaque}
    (hfew : Few (recv client chan msg w).srvc.log) :
    Sound none (recv client chan msg w) ∧ (recv client chan msg w).lines = w.lines := by
  obtain ⟨hchan, -, -, ⟨hwait, -⟩ | ⟨-, -, hsent⟩⟩ := hs.line chan line hline
  · exact absurd (hwait.symm.trans hopened) (by decide)
  · have hs₁ : Sound none
        { w with srvc := record w.srvc (.recv w.srvc.channel chan msg.1 msg.2) } :=
      hs.change (hs.ledger.received _ _ _ _) rfl id
    unfold Storage.recv at hfew ⊢
    dsimp only at hfew ⊢
    rw [if_pos (by exact hchan)] at hfew ⊢
    generalize client.beyond { w with srvc := record w.srvc (.recv w.srvc.channel chan msg.1 msg.2) } =
      beyond at hfew ⊢
    cases hfind : requestFind (record w.srvc (.recv w.srvc.channel chan msg.1 msg.2))
        (guint32Peek (.wrapOpaque msg.2) beyond) with
    | none =>
      rw [hfind] at hfew
      exact ⟨hs₁, rfl⟩
    | some req =>
      rw [hfind] at hfew
      dsimp only at hfew ⊢
      have hreq : req ∈ w.srvc.pending := List.mem_of_find?_eq_some hfind
      have hid : req.id = guint32Peek (.wrapOpaque msg.2) beyond := by
        simpa using List.find?_some hfind
      split at hfew
      · rename_i hcode
        rw [if_pos hcode]
        have hanswers := fun hok => hs.ledger.answers client.stack chan hreq
          (hsent req hreq) hid hcode hok
        rw [← hchan] at hanswers
        exact hs₁.answer hreq hanswers hfew
      · rename_i hcode
        rw [if_neg hcode]
        exact ⟨hs₁, rfl⟩

/-! ## Starting and stopping -/

/-- The ledger with another channel, when nothing is written that is a request -/
theorem Ledger.rewire {s : MwServiceStorage} {wire wire' : List (Packet StorageMessage)}
    (hl : Ledger busy s wire) (hwritten : written wire' = written wire) (channel : Option Nat) :
    Ledger busy { s with channel := channel } wire' :=
  { hl with
    sorted := hwritten ▸ hl.sorted
    written_lt := hwritten ▸ hl.written_lt
    unsent := fun req hreq hunsent => hwritten ▸ hl.unsent req hreq hunsent }

theorem start_of_ret (hret : w.ret w.writes = 0) :
    start w =
      { w with
        srvc := { w.srvc with channel := some w.nextChan }
        nextChan := w.nextChan + 1
        writes := w.writes + 1
        wire := w.wire ++ [.create w.nextChan]
        lines := Function.update w.lines w.nextChan (some { state := .wait }) } := by
  simp [start, World.createChannel_of_ret hret]

theorem sound_start (hret : ∀ n, w.ret n = 0) (hledger : Ledger none w.srvc w.wire)
    (hlines : ∀ chan, w.lines chan = none) (hstate : w.state = .starting) :
    Sound none (start w) := by
  rw [start_of_ret (hret _)]
  refine { ret := hret, line := ?_, ledger := hledger.rewire (by simp) _ }
  intro chan line hline
  dsimp only at hline
  by_cases hchan : chan = w.nextChan
  · subst hchan
    rw [Function.update_self] at hline
    cases hline
    exact ⟨rfl, Nat.lt_succ_self _, rfl, .inl ⟨rfl, hstate⟩⟩
  · rw [Function.update_of_ne hchan, hlines] at hline
    cases hline

theorem closeChannel_spec (hret : ∀ n, w.ret n = 0) :
    (closeChannel w).srvc = { w.srvc with channel := none } ∧
      written (closeChannel w).wire = written w.wire ∧ (closeChannel w).ret = w.ret ∧
      ∀ chan, w.srvc.channel = some chan ∨ w.lines chan = none →
        (closeChannel w).lines chan = none := by
  unfold closeChannel
  split
  · rename_i chan hchannel
    cases hline : w.lines chan with
    | none =>
      rw [World.mwChannelDestroy_of_none hline]
      refine ⟨rfl, rfl, rfl, fun chan' hchan' => ?_⟩
      rcases hchan' with hchan' | hchan'
      · rwa [← Option.some.inj (hchannel.symm.trans hchan')]
      · exact hchan'
    | some line =>
      rw [World.mwChannelDestroy_of_some (hret _) hline]
      refine ⟨rfl, by simp, rfl, fun chan' hchan' => ?_⟩
      dsimp only
      by_cases heq : chan' = chan
      · rw [heq, Function.update_self]
      · rw [Function.update_of_ne heq]
        exact hchan'.resolve_left fun h => heq (Option.some.inj (h.symm.trans hchannel))
  · rename_i hchannel
    refine ⟨by rw [← hchannel], rfl, rfl, fun chan hchan => ?_⟩
    exact hchan.resolve_left fun h => by rw [hchannel] at h; cases h

/-- A service that is stopped has no requests; it has no channel either, if it knows
of all its channels. -/
theorem stop_spec (hret : ∀ n, w.ret n = 0) (hledger : Ledger none w.srvc w.wire) :
    Ledger none (stop w).srvc (stop w).wire ∧ (stop w).ret = w.ret ∧
      ∀ chan, w.srvc.channel = some chan ∨ w.lines chan = none → (stop w).lines chan = none := by
  obtain ⟨hsrvc, hwritten, hret', hlines⟩ := closeChannel_spec hret
  have hledger' : Ledger none (closeChannel w).srvc (closeChannel w).wire :=
    hsrvc ▸ hledger.rewire hwritten none
  exact ⟨hledger'.freePending (.inl rfl), hret', hlines⟩

/-- A world in which the service knows of all its channels -/
theorem sound_stop (hret : ∀ n, w.ret n = 0) (hledger : Ledger none w.srvc w.wire)
    (hlines : ∀ chan line, w.lines chan = some line → w.srvc.channel = some chan) :
    Sound none (stop w) ∧ ∀ chan, (stop w).lines chan = none := by
  obtain ⟨hledger', hret', hnone⟩ := stop_spec hret hledger
  have hnone' : ∀ chan, (stop w).lines chan = none := by
    intro chan
    cases hline : w.lines chan with
    | none => exact hnone chan (.inr hline)
    | some line => exact hnone chan (.inl (hlines chan line hline))
  refine ⟨{ ret := hret' ▸ hret, line := ?_, ledger := hledger' }, hnone'⟩
  intro chan line hline
  rw [hnone'] at hline
  cases hline

theorem Sound.mwServiceStop (hs : Sound none w) : Sound none (w.mwServiceStop stop) := by
  unfold World.mwServiceStop
  split
  · exact hs
  · exact (sound_stop (w := { w with state := .stopping }) hs.ret hs.ledger
      fun chan line hline => (hs.line chan line hline).1).1

theorem Sound.mwServiceError (hs : Sound none w) : Sound none (w.mwServiceError stop) := by
  unfold World.mwServiceError
  split
  · exact hs
  · exact (sound_stop (w := { w with state := .error }) hs.ret hs.ledger
      fun chan line hline => (hs.line chan line hline).1).1

theorem Sound.mwServiceStart (hs : Sound none w) : Sound none (w.mwServiceStart start) := by
  unfold World.mwServiceStart
  split
  · rename_i hstopped
    refine sound_start (w := { w with state := .starting }) hs.ret hs.ledger (fun chan => ?_) rfl
    -- a service that is stopped has no channel
    refine Option.eq_none_iff_forall_ne_some.mpr fun line hline => ?_
    obtain ⟨-, -, -, ⟨-, h⟩ | ⟨-, h, -⟩⟩ := hs.line chan line hline <;>
      exact absurd (h.symm.trans hstopped) (by decide)
  · exact hs

theorem Sound.clear (hs : Sound none w) : Sound none (clear w) :=
  hs.change (hs.ledger.freePending (.inr rfl)) (by rw [freePending, foldl_requestFree]; rfl)
    fun _ req hreq => by cases hreq

/-! ## The channel accepted and destroyed -/

theorem update_split {s : MwServiceStorage} {pre post : List MwStorageReq} {req : MwStorageReq}
    (hsorted : (s.pending.map (·.addr)).Pairwise (· < ·)) (hsplit : s.pending = pre ++ req :: post)
    (f : MwStorageReq → MwStorageReq) :
    (update s req.addr f).pending = pre ++ f req :: post := by
  rw [hsplit, List.map_append, List.map_cons, List.pairwise_append, List.pairwise_cons] at hsorted
  obtain ⟨-, ⟨hpost, -⟩, hpre⟩ := hsorted
  have hmap : ∀ l : List MwStorageReq, (∀ r ∈ l, r.addr ≠ req.addr) →
      l.map (fun r => if r.addr = req.addr then f r else r) = l := by
    intro l hl
    conv_rhs => rw [← List.map_id l]
    exact List.map_congr_left fun r hr => if_neg (hl r hr)
  rw [update, hsplit, List.map_append, List.map_cons, if_pos rfl,
    hmap pre fun r hr => (hpre _ (List.mem_map_of_mem hr) _ List.mem_cons_self).ne,
    hmap post fun r hr => (hpost _ (List.mem_map_of_mem hr)).ne']

/-- The requests of the list sent one after the other on an open channel -/
theorem sendPending_spec {chan : Nat} {line : Line StorageMessage (UInt16 × MwOpaque)}
    (hopened : line.state = .opened) (reqs pre : List MwStorageReq)
    (hret : ∀ n, w.ret n = 0) (hline : w.lines chan = some line)
    (hledger : Ledger none w.srvc w.wire) (hpending : w.srvc.pending = pre ++ reqs)
    (hpre : ∀ req ∈ pre, ¬ Unsent req) :
    Ledger none (sendPending chan reqs w).srvc (sendPending chan reqs w).wire ∧
      (∀ req ∈ (sendPending chan reqs w).srvc.pending, ¬ Unsent req) ∧
      (sendPending chan reqs w).srvc.channel = w.srvc.channel ∧
      (sendPending chan reqs w).srvc.log = w.srvc.log ∧
      (sendPending chan reqs w).lines = w.lines ∧
      (sendPending chan reqs w).nextChan = w.nextChan ∧
      (sendPending chan reqs w).ret = w.ret := by
  induction reqs generalizing w pre with
  | nil =>
    refine ⟨hledger, ?_, rfl, rfl, rfl, rfl, rfl⟩
    change ∀ req ∈ w.srvc.pending, ¬ Unsent req
    rw [hpending, List.append_nil]
    exact hpre
  | cons req reqs ih =>
    by_cases hunsent : Unsent req
    · have hstep : sendPending chan (req :: reqs) w =
          sendPending chan reqs (requestSend w (some chan) req).2 := by
        rw [sendPending, List.foldl_cons, if_pos (by exact hunsent), sendPending]
      rw [hstep, requestSend_of_opened (hret _) hline hopened]
      refine ih (pre ++ [{ req with action := req.action.sent }])
        (w := { w with srvc := _, wire := _, writes := _ }) hret hline
        (hledger.sent hpending hpre hunsent chan) ?_ ?_
      · rw [update_split hledger.addrs hpending]
        simp
      · intro r hr
        rcases List.mem_append.mp hr with hr | hr
        · exact hpre r hr
        · rw [List.mem_singleton.mp hr]
          exact Unsent.not_sent req
    · have hstep : sendPending chan (req :: reqs) w = sendPending chan reqs w := by
        rw [sendPending, List.foldl_cons, if_neg (by exact hunsent), sendPending]
      rw [hstep]
      refine ih (pre ++ [req]) hret hline hledger (by simp [hpending]) ?_
      intro r hr
      rcases List.mem_append.mp hr with hr | hr
      · exact hpre r hr
      · rw [List.mem_singleton.mp hr]
        exact hunsent

theorem Sound.recvChannelAccept (hs : Sound none w) {chan : Nat}
    {line : Line StorageMessage (UInt16 × MwOpaque)} (hline : w.lines chan = some line) :
    let w' := recvChannelAccept chan (w.setLine chan (some { line with state := .opened }))
    Sound none w' ∧ w'.lines chan = some { line with state := .opened } ∧
      w'.srvc.log = w.srvc.log := by
  obtain ⟨hchan, hlt, hout, -⟩ := hs.line chan line hline
  have hline' : (w.setLine chan (some { line with state := .opened })).lines chan =
      some { line with state := .opened } := World.setLine_self ..
  obtain ⟨hledger, hsent, hchannel, hlog, hlines, hnext, hret⟩ :=
    sendPending_spec rfl w.srvc.pending []
      (w := w.setLine chan (some { line with state := .opened })) hs.ret hline' hs.ledger rfl nofun
  intro w'
  have hw' : w' = (sendPending chan w.srvc.pending
      (w.setLine chan (some { line with state := .opened }))).mwServiceStarted :=
    if_pos hchan
  refine ⟨{ ret := ?_, line := ?_, ledger := hw' ▸ hledger }, ?_, hw' ▸ hlog⟩
  · rw [hw']
    exact hret ▸ hs.ret
  · intro chan' line' hline''
    rw [hw'] at hline'' ⊢
    change (sendPending chan w.srvc.pending _).lines chan' = some line' at hline''
    rw [hlines] at hline''
    -- no other channel is known
    by_cases heq : chan' = chan
    · subst heq
      cases hline'.symm.trans hline''
      exact ⟨hchannel.trans hchan, hnext ▸ hlt, hout, .inr ⟨rfl, rfl, hsent⟩⟩
    · have hold : w.lines chan' = some line' := by
        rwa [World.setLine_of_ne heq] at hline''
      exact absurd (Option.some.inj ((hs.line chan' line' hold).1.symm.trans hchan)) heq
  · rw [hw']
    change (sendPending chan w.srvc.pending _).lines chan = _
    rw [hlines, hline']

theorem Sound.setIncoming (hs : Sound none w) {chan : Nat}
    {line : Line StorageMessage (UInt16 × MwOpaque)} (hline : w.lines chan = some line)
    (incoming : List (UInt16 × MwOpaque)) :
    Sound none (w.setLine chan (some { line with incoming := incoming })) where
  ret := hs.ret
  line := by
    intro chan' line' hline'
    by_cases heq : chan' = chan
    · subst heq
      rw [World.setLine_self] at hline'
      cases hline'
      exact hs.line chan' line hline
    · rw [World.setLine_of_ne heq] at hline'
      exact hs.line chan' line' hline'
  ledger := hs.ledger

theorem channelRecv_log (client : Client) (chan : Nat) (msg : UInt16 × MwOpaque)
    (w : StorageWorld) : w.srvc.log <:+ (World.channelRecv (fns client) chan w msg).srvc.log := by
  unfold World.channelRecv
  split
  · exact List.suffix_rfl
  · exact recv_log client chan msg w

theorem foldl_channelRecv_log (client : Client) (chan : Nat) (msgs : List (UInt16 × MwOpaque))
    (w : StorageWorld) :
    w.srvc.log <:+ (msgs.foldl (World.channelRecv (fns client) chan) w).srvc.log := by
  induction msgs generalizing w with
  | nil => exact List.suffix_rfl
  | cons msg msgs ih => exact (channelRecv_log client chan msg w).trans (ih _)

theorem Sound.channelRecv (hs : Sound none w) {client : Client} {chan : Nat}
    {line : Line StorageMessage (UInt16 × MwOpaque)} (hline : w.lines chan = some line)
    (hopened : line.state = .opened) {msg : UInt16 × MwOpaque}
    (hfew : Few (World.channelRecv (fns client) chan w msg).srvc.log) :
    Sound none (World.channelRecv (fns client) chan w msg) ∧
      (World.channelRecv (fns client) chan w msg).lines = w.lines := by
  unfold World.channelRecv at hfew ⊢
  rw [hline] at hfew ⊢
  exact hs.recv hline hopened hfew

/-- What has come too early is handed over, one message after the other. -/
theorem Sound.channelRecvs {client : Client} {chan : Nat}
    {line : Line StorageMessage (UInt16 × MwOpaque)} (hopened : line.state = .opened)
    (msgs : List (UInt16 × MwOpaque)) (hs : Sound none w) (hline : w.lines chan = some line)
    (hfew : Few (msgs.foldl (World.channelRecv (fns client) chan) w).srvc.log) :
    Sound none (msgs.foldl (World.channelRecv (fns client) chan) w) ∧
      (msgs.foldl (World.channelRecv (fns client) chan) w).lines = w.lines := by
  induction msgs generalizing w with
  | nil => exact ⟨hs, rfl⟩
  | cons msg msgs ih =>
    obtain ⟨hs', hlines⟩ := hs.channelRecv hline hopened
      (hfew.of_suffix (foldl_channelRecv_log client chan msgs _))
    obtain ⟨hs'', hlines'⟩ := ih hs' (by rw [hlines, hline]) hfew
    exact ⟨hs'', hlines'.trans hlines⟩

theorem Sound.flushChannel (hs : Sound none w) {client : Client} {chan : Nat}
    {line : Line StorageMessage (UInt16 × MwOpaque)} (hline : w.lines chan = some line)
    (hopened : line.state = .opened)
    (hfew : Few (w.flushChannel (fns client) chan).srvc.log) :
    Sound none (w.flushChannel (fns client) chan) := by
  rw [World.flushChannel_srvc hline] at hfew
  obtain ⟨hs', hlines⟩ := hs.channelRecvs hopened line.incoming hline hfew
  have hline' := (congrFun hlines chan).trans hline
  have hs'' := hs'.setIncoming hline' []
  have hout := World.flushOutgoing_of_nil (World.setLine_self (w := line.incoming.foldl
    (World.channelRecv (fns client) chan) w) chan (some { line with incoming := [] }))
    (hs.line chan line hline).2.2.1
  unfold World.flushChannel
  rw [World.flushIncoming_of_lines hline hline', hout]
  exact hs''.setIncoming (World.setLine_self ..) []

/-- A world without one of its channels -/
theorem Sound.dropLine (hs : Sound none w) {chan : Nat} {wire : List (Packet StorageMessage)}
    (hwritten : written wire = written w.wire) (writes : Nat) :
    Sound none
      { w with lines := Function.update w.lines chan none, writes := writes, wire := wire } where
  ret := hs.ret
  line := by
    intro chan' line' hline'
    dsimp only at hline'
    by_cases heq : chan' = chan
    · rw [heq, Function.update_self] at hline'
      cases hline'
    · rw [Function.update_of_ne heq] at hline'
      exact hs.line chan' line' hline'
  ledger := hs.ledger.rewire hwritten w.srvc.channel

theorem Sound.recvAccept (hs : Sound none w) {client : Client} {chan : Nat}
    (hfew : Few (w.recvAccept (fns client) chan).srvc.log) :
    Sound none (w.recvAccept (fns client) chan) := by
  cases hline : w.lines chan with
  | none =>
    rw [World.recvAccept, hline]
    exact hs
  | some line =>
    by_cases hwait : line.inbound = false ∧ line.state = .wait
    · obtain ⟨hs', hline', -⟩ := hs.recvChannelAccept hline
      have heq := World.recvAccept_of_wait (f := fns client) hline hwait.1 hwait.2 hline' rfl
      rw [heq] at hfew ⊢
      exact hs'.flushChannel hline' rfl hfew
    · rw [World.recvAccept, hline]
      dsimp only
      rw [if_pos (by simpa [imp_iff_not_or] using hwait),
        World.mwChannelDestroy_of_some (hs.ret _) hline]
      exact hs.dropLine (by simp) _

/-- A world without channels -/
theorem sound_of_lines (hret : ∀ n, w.ret n = 0) (hledger : Ledger none w.srvc w.wire)
    (hlines : ∀ chan, w.lines chan = none) : Sound none w where
  ret := hret
  line := by
    intro chan line hline
    rw [hlines] at hline
    cases hline
  ledger := hledger

/-- `recv_channelDestroy` of a service that is not stopped yet -/
theorem recvChannelDestroy_spec (hret : ∀ n, w.ret n = 0) (hledger : Ledger none w.srvc w.wire)
    (hlive : w.isDead = false) (chan : Nat) :
    Ledger none (recvChannelDestroy chan w).srvc (recvChannelDestroy chan w).wire ∧
      (∀ n, (recvChannelDestroy chan w).ret n = 0) ∧
      ∀ chan', w.lines chan' = none → (recvChannelDestroy chan w).lines chan' = none := by
  obtain ⟨hledger', hret', hlines⟩ := stop_spec
    (w := { w with srvc := { w.srvc with channel := none }, state := .stopping }) hret
    (hledger.rewire rfl none)
  have hstop : recvChannelDestroy chan w =
      (stop { w with srvc := { w.srvc with channel := none },
                     state := .stopping }).mwSessionSenseService := by
    have hdead : ({ w with srvc := { w.srvc with channel := none } } : StorageWorld).isDead =
        false := hlive
    simp [recvChannelDestroy, World.mwServiceStop, hdead]
  have hret'' : ∀ n, (stop { w with srvc := { w.srvc with channel := none },
                                    state := .stopping }).ret n = 0 := by
    rw [hret']
    exact hret
  rw [hstop, World.mwSessionSenseService, World.write_of_ret (hret'' _)]
  exact ⟨hledger'.rewire (by simp) _, hret'', fun chan' h => hlines chan' (.inr h)⟩

theorem Sound.recvDestroy (hs : Sound none w) {client : Client} {chan : Nat} {reason : UInt32} :
    Sound none (w.recvDestroy (fns client) chan reason) := by
  cases hline : w.lines chan with
  | none =>
    rw [World.recvDestroy, hline]
    exact hs
  | some line =>
    obtain ⟨hchan, -, -, hstate⟩ := hs.line chan line hline
    rw [World.recvDestroy, hline]
    dsimp only
    generalize (if reason ≠ 0 then MwChannelState.error else .destroy) = state
    have hlive : w.isDead = false := by
      rcases hstate with ⟨-, h⟩ | ⟨-, h, -⟩ <;> simp [World.isDead, h]
    obtain ⟨hledger, hret, hlines⟩ := recvChannelDestroy_spec
      (w := w.setLine chan (some { line with state := state })) hs.ret hs.ledger hlive chan
    refine sound_of_lines hret hledger fun chan' => ?_
    by_cases heq : chan' = chan
    · rw [heq, World.setLine_self]
    · rw [World.setLine_of_ne heq]
      refine hlines chan' ?_
      rw [World.setLine_of_ne heq]
      refine Option.eq_none_iff_forall_ne_some.mpr fun line' hline' => heq ?_
      exact Option.some.inj ((hs.line chan' line' hline').1.symm.trans hchan)

/-- A channel that the server offers is not taken. -/
theorem Sound.recvCreate (hs : Sound none w) (client : Client) (offer : Offer) :
    Sound none (w.recvCreate (fns client) offer) := by
  unfold World.recvCreate
  dsimp only [fns]
  rw [World.mwChannelDestroy_of_some
    (w := World.setLine { w with nextChan := w.nextChan + 1 } w.nextChan _) (hs.ret _)
    (World.setLine_self ..)]
  simp only [World.setLine, Function.update_idem]
  have hdropped : Sound none
      { w with
        lines := Function.update w.lines w.nextChan none
        writes := w.writes + 1
        wire := w.wire ++ [.destroy w.nextChan errFailure] } := hs.dropLine (by simp) _
  refine ⟨⟨hs.ret, fun chan line hline => ?_⟩, hdropped.ledger⟩
  obtain ⟨hchan, hlt, hline⟩ := hdropped.line chan line hline
  exact ⟨hchan, Nat.lt_succ_of_lt hlt, hline⟩

/-! ## Whole runs -/

theorem Sound.input (hs : Sound none w) {client : Client} {input : Input (UInt16 × MwOpaque)}
    (hfew : Few (w.input (fns client) input).srvc.log) :
    Sound none (w.input (fns client) input) := by
  unfold World.input at hfew ⊢
  split at hfew
  · rename_i hfreed
    rw [if_pos hfreed]
    exact hs
  · rename_i hfreed
    rw [if_neg hfreed]
    cases input with
    | start => exact hs.mwServiceStart
    | stop => exact hs.mwServiceStop
    | error => exact hs.mwServiceError
    | create offer => exact hs.recvCreate client offer
    | free =>
      have hs' := hs.mwServiceStop.clear
      exact { ret := hs'.ret, line := hs'.line, ledger := hs'.ledger }
    | accept chan => exact hs.recvAccept hfew
    | destroy chan reason => exact hs.recvDestroy
    | recv chan msg =>
      dsimp only at hfew ⊢
      unfold World.recv at hfew ⊢
      cases hline : w.lines chan with
      | none => exact hs
      | some line =>
        rw [hline] at hfew
        dsimp only at hfew ⊢
        split at hfew
        · rename_i hopened
          rw [if_pos hopened]
          exact (hs.channelRecv hline hopened hfew).1
        · rename_i hopened
          rw [if_neg hopened]
          exact hs.setIncoming hline _

theorem Sound.step (hs : Sound none w) {client : Client} {step : Step}
    (hfew : Few (Storage.step client w step).srvc.log) :
    Sound none (Storage.step client w step) := by
  cases step with
  | call call =>
    unfold Storage.step at hfew ⊢
    dsimp only at hfew ⊢
    split at hfew
    · rename_i hfreed
      rw [if_pos hfreed]
      exact hs
    · rename_i hfreed
      rw [if_neg hfreed]
      exact (hs.runCall call hfew).1
  | input input => exact hs.input hfew

/-! ## The log -/

theorem stop_log (w : StorageWorld) : w.srvc.log <:+ (stop w).srvc.log := by
  have hclose : (closeChannel w).srvc.log = w.srvc.log := by
    unfold closeChannel
    split
    · simp
    · rfl
  change _ <:+ .stop :: (freePending (closeChannel w).srvc).log
  rw [freePending, foldl_requestFree, ← hclose]
  exact (List.suffix_append _ _).trans (List.suffix_cons _ _)

theorem mwServiceStop_log (w : StorageWorld) :
    w.srvc.log <:+ (w.mwServiceStop stop).srvc.log := by
  unfold World.mwServiceStop
  split
  · exact List.suffix_rfl
  · exact stop_log { w with state := .stopping }

theorem mwServiceError_log (w : StorageWorld) :
    w.srvc.log <:+ (w.mwServiceError stop).srvc.log := by
  unfold World.mwServiceError
  split
  · exact List.suffix_rfl
  · exact stop_log { w with state := .error }

theorem mwServiceStart_log (w : StorageWorld) :
    (w.mwServiceStart start).srvc.log = w.srvc.log := by
  unfold World.mwServiceStart
  split
  · unfold start
    split <;> rename_i hcreate <;>
      exact (congrArg (fun p => p.2.srvc.log) hcreate).symm
  · rfl

theorem clear_log (w : StorageWorld) : w.srvc.log <:+ (clear w).srvc.log := by
  change _ <:+ .clear :: (freePending w.srvc).log
  rw [freePending, foldl_requestFree]
  exact (List.suffix_append _ _).trans (List.suffix_cons _ _)

theorem recvChannelAccept_log (chan : Nat) (w : StorageWorld) :
    (recvChannelAccept chan w).srvc.log = w.srvc.log := by
  have hsend : ∀ (reqs : List MwStorageReq) (w : StorageWorld),
      (sendPending chan reqs w).srvc.log = w.srvc.log := by
    intro reqs
    induction reqs with
    | nil => exact fun _ => rfl
    | cons req reqs ih =>
      intro w
      refine (ih _).trans ?_
      dsimp only
      split
      · exact requestSend_log ..
      · rfl
  unfold recvChannelAccept
  split
  · exact hsend _ w
  · rfl

theorem recvAccept_log (client : Client) (chan : Nat) (w : StorageWorld) :
    w.srvc.log <:+ (w.recvAccept (fns client) chan).srvc.log := by
  unfold World.recvAccept
  split
  · exact List.suffix_rfl
  · rename_i line _
    split
    · rw [World.mwChannelDestroy_srvc]
    · have haccept : ((fns client).recvAccept chan
          (w.setLine chan (some { line with state := .opened }))).srvc.log = w.srvc.log :=
        recvChannelAccept_log ..
      dsimp only
      rw [← haccept]
      split
      · exact List.suffix_rfl
      · rename_i hline
        split
        · rw [World.flushChannel_srvc hline]
          exact foldl_channelRecv_log client chan _ _
        · exact List.suffix_rfl

theorem recvDestroy_log (client : Client) (chan : Nat) (reason : UInt32) (w : StorageWorld) :
    w.srvc.log <:+ (w.recvDestroy (fns client) chan reason).srvc.log := by
  unfold World.recvDestroy
  split
  · exact List.suffix_rfl
  · exact mwServiceStop_log { w.setLine chan _ with srvc := { w.srvc with channel := none } }

theorem step_log (client : Client) (w : StorageWorld) (step : Step) :
    w.srvc.log <:+ (Storage.step client w step).srvc.log := by
  cases step with
  | call call =>
    unfold Storage.step
    dsimp only
    split
    · exact List.suffix_rfl
    · exact runCall_log w call
  | input input =>
    unfold Storage.step World.input
    dsimp only
    split
    · exact List.suffix_rfl
    · cases input with
      | start => exact (mwServiceStart_log w) ▸ List.suffix_rfl
      | stop => exact mwServiceStop_log w
      | error => exact mwServiceError_log w
      | create offer =>
        have hsrvc : (w.recvCreate (fns client) offer).srvc = w.srvc :=
          World.mwChannelDestroy_srvc ..
        rw [hsrvc]
      | free => exact (mwServiceStop_log w).trans (clear_log _)
      | accept chan => exact recvAccept_log client chan w
      | destroy chan reason => exact recvDestroy_log client chan reason w
      | recv chan msg =>
        dsimp only
        unfold World.recv
        split
        · exact List.suffix_rfl
        · split
          · exact channelRecv_log client chan msg w
          · exact List.suffix_rfl

theorem run_log (client : Client) (steps : List Step) (w : StorageWorld) :
    w.srvc.log <:+ (run client steps w).srvc.log := by
  induction steps generalizing w with
  | nil => exact List.suffix_rfl
  | cons step steps ih => exact (step_log client w step).trans (ih _)

/-! ## Whole runs -/

theorem Sound.run {client : Client} {steps : List Step} (hs : Sound none w)
    (hfew : Few (run client steps w).srvc.log) : Sound none (run client steps w) := by
  induction steps generalizing w with
  | nil => exact hs
  | cons step steps ih => exact ih (hs.step (hfew.of_suffix (run_log client steps _))) hfew

theorem sound_new {ret : Nat → Int} (hret : ∀ n, ret n = 0) :
    Sound none (mwServiceStorageNew ret) :=
  sound_of_lines hret .new fun _ => rfl

theorem Sound.accounted (hs : Sound none w) : Accounted w where
  ids_nodup := by
    have hnodup : ((w.srvc.pending.map (·.id)).map UInt32.toNat).Nodup := by
      rw [List.map_map]
      exact hs.ledger.ids.imp fun h => h.ne
    exact hnodup.of_map
  ids_ne_zero := by
    intro req hreq hzero
    have := (hs.ledger.ids_range req hreq).1
    simp [hzero] at this
  issued_nodup := hs.ledger.issued ▸ List.nodup_range
  written_in_order := by
    rw [hs.ledger.issued]
    have hsubperm : (written w.wire).Subperm (List.range w.srvc.nextReq) := by
      refine List.subperm_of_subset (hs.ledger.sorted.imp fun h => h.ne) fun addr haddr => ?_
      exact List.mem_range.mpr (hs.ledger.written_lt addr haddr)
    exact List.sublist_of_subperm_of_pairwise hsubperm hs.ledger.sorted List.pairwise_lt_range
  called_nodup := called_nodup hs.ledger.due
  freed_nodup := freed_nodup hs.ledger.due
  due := hs.ledger.due

/-- In every run of the storage service in which all writes succeed, with fewer than
2^32 requests between two stops: the ids of pending requests differ and are not zero;
requests are written at most once and in the order in which they were made; and every
callback, every call of `data_free` and every stop is due when it happens. -/
theorem run_accounted (client : Client) (steps : List Step) {ret : Nat → Int}
    (hret : ∀ n, ret n = 0) (hfew : Few (run client steps (mwServiceStorageNew ret)).srvc.log) :
    Accounted (run client steps (mwServiceStorageNew ret)) :=
  ((sound_new hret).run hfew).accounted

theorem sinceStop_le_length (log : List StorageEvent) : sinceStop log ≤ log.length := by
  induction log with
  | nil => exact Nat.le_refl 0
  | cons e log ih => cases e <;> simp only [sinceStop, List.length_cons] <;> omega

theorem few_of_length {log : List StorageEvent} (h : log.length < 2 ^ 32) : Few log :=
  fun l hl => (sinceStop_le_length l).trans_lt (hl.length_le.trans_lt h)

/-- A client that saves once it has loaded -/
def Client.saving : Client where
  call := fun req _ =>
    if req.action = .loaded then [.save { key := 5, data := [1] } none 8 (some 2)] else []

/-- A load before the service is up, its response, and a stop -/
def loading : List Step :=
  [.call (.load { key := 5 } (some 0) 7 (some 1)), .input .start, .input (.accept 0),
    .input (.recv 0 (0x0005, [0, 0, 0, 1, 0, 0, 0, 0, 0, 0, 0, 0])), .input .stop]

theorem run_accounted_loading :
    called (run .saving loading (mwServiceStorageNew fun _ => 0)).srvc.log = [0] ∧
      freed (run .saving loading (mwServiceStorageNew fun _ => 0)).srvc.log = [1, 0] ∧
      written (run .saving loading (mwServiceStorageNew fun _ => 0)).wire = [0, 1] ∧
      Accounted (run .saving loading (mwServiceStorageNew fun _ => 0)) :=
  ⟨by decide +kernel, by decide +kernel, by decide +kernel,
    run_accounted .saving loading (fun _ => rfl) (few_of_length (by decide +kernel))⟩

end Meanwhile.Storage
