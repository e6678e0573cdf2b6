-- SUMMARY: Which announcements of a channel under an id that is not free do harm to the channels there are.
import Meanwhile.Channel.Direct

/-!
# Channels announced under an id that is not fresh

The set of channels takes a channel that the server announces before anything about
its id is checked. An id of the outgoing kind is refused later on, by destroying what
has been put in the set under it. So the channels are safe from an id that nobody
has, unless it is that of the master channel, and from no other.
-/

namespace Meanwhile

/-- An id that the server may give to a new channel -/
def MwSession.FreshIncoming (s : MwSession) (id : UInt32) : Prop :=
  mwChannelIdIsIncoming id = true ∧ s.channels.map id = none

/-- Channels that are the same as far as their owners can tell -/
structure MwChannel.Kept (c c' : MwChannel) : Prop where
  addr : c'.addr = c.addr
  state : c'.state = c.state
  outgoingQueue : c'.outgoingQueue = c.outgoingQueue
  incomingQueue : c'.incomingQueue = c.incomingQueue
  cipher : c'.cipher = c.cipher
  srvcData : c'.srvcData = c.srvcData

/-- Every channel is still there, and none of them nor the master channel has been
destroyed at the server. -/
structure KeepsChannels (s s' : MwSession) : Prop where
  kept : ∀ id c, s.channels.map id = some c → ∃ c', s'.channels.map id = some c' ∧ c.Kept c'
  destroyed : ∃ l, s'.trace = l ++ s.trace ∧
    ∀ head msg, .write ⟨head, .channelDestroy msg⟩ ∈ l →
      head.channel ≠ masterChannelId ∧ s.channels.map head.channel = none

section

variable {h : Hooks} {s : MwSession} {head : MwMessageHead} {msg : MwMsgChannelCreate}

/-- A channel whose id is announced again is gone, whatever else happens. -/
theorem not_keepsChannels_of_used {force : Prop} (hh : h.Respects (Eff force))
    (hs : s.Addressed) {c : MwChannel} (hc : s.channels.map msg.channel = some c) :
    ¬ KeepsChannels s (channelCreateRecv h head msg s).2 := by
  intro hkeeps
  obtain ⟨c', hc', hkept⟩ := hkeeps.kept _ c hc
  rw [channelCreateRecv_arrived] at hc'
  have hcreate : Keeps (Eff force) (mwChannelRecvCreate h ⟨msg.channel, s.nextAddr⟩ msg) :=
    recvCreate_keeps hh msg
  have heff := hcreate (s.arrived head msg)
  have hold := hs _ c hc
  have haddr := hkept.addr
  obtain ⟨c1, hc1, heq⟩ | ⟨hle, -⟩ := heff.channels hc'
  · have hnew : c1.addr = s.nextAddr := by
      simp only [MwSession.arrived, MwSession.log, MwSession.announced, MwSession.setChannel,
        Function.update_self, Option.some.injEq] at hc1
      rw [← hc1]
    omega
  · have hnext : (s.arrived head msg).nextAddr = s.nextAddr + 1 := rfl
    omega

section

variable (hwrite : ∀ b s, (h.ioWrite b s).2 = s)

include hwrite

/-- Refusing an outgoing id: the channels are what they were, but for the one under the
id, and the refusal is what has been written. -/
theorem channelCreateRecv_outgoing (s : MwSession) (head : MwMessageHead)
    (hid : mwChannelIdIsOutgoing msg.channel = true) :
    (channelCreateRecv h head msg s).2.channels.map =
        Function.update s.channels.map msg.channel none ∧
      ∃ l, (channelCreateRecv h head msg s).2.trace =
          .write (destroyMessage msg.channel errRequestInvalid []) :: l ++ s.trace ∧
        ∀ msg', .write msg' ∉ l := by
  rw [channelCreateRecv_arrived, mwChannelRecvCreate, if_pos hid]
  have hdestroy := mwChannelDestroy_write hwrite (channel?_arrived s head msg) errRequestInvalid []
  rw [Session.discard_apply, hdestroy]
  have hstate : MwChannelState.wait ≠ closedState errRequestInvalid := by decide
  simp only [MwSession.withState, hstate, if_false, MwSession.sent, MwSession.log,
    MwSession.setChannel, MwSession.arrived, MwSession.announced, Function.update_idem]
  refine ⟨trivial, [_, _, _, _, _], rfl, ?_⟩
  simp

theorem keepsChannels_of_unused (hid : mwChannelIdIsOutgoing msg.channel = true)
    (hne : msg.channel ≠ masterChannelId) (hnone : s.channels.map msg.channel = none) :
    KeepsChannels s (channelCreateRecv h head msg s).2 := by
  obtain ⟨hmap, l, hl, hsilent⟩ := channelCreateRecv_outgoing hwrite s head hid
  refine ⟨?_, ⟨_, hl, ?_⟩⟩
  · intro id c hc
    have hother : id ≠ msg.channel := by
      rintro rfl
      rw [hnone] at hc
      simp at hc
    refine ⟨c, ?_, ⟨rfl, rfl, rfl, rfl, rfl, rfl⟩⟩
    rw [hmap, Function.update_of_ne hother, hc]
  · intro head' m hmem
    obtain heq | hmem := List.mem_cons.mp hmem
    · simp only [destroyMessage, Event.write.injEq, MwMessage.mk.injEq] at heq
      rw [heq.1]
      exact ⟨hne, hnone⟩
    · exact absurd hmem (hsilent _)

/-- The refusal of the id of the master channel names it. -/
theorem not_keepsChannels_of_master (hid : msg.channel = masterChannelId) :
    ¬ KeepsChannels s (channelCreateRecv h head msg s).2 := by
  intro hkeeps
  have hout : mwChannelIdIsOutgoing msg.channel = true := by
    rw [hid]
    decide
  obtain ⟨-, l, hl, -⟩ := channelCreateRecv_outgoing hwrite s head hout
  obtain ⟨l', hl', hdestroyed⟩ := hkeeps.destroyed
  have heq : l' = _ := List.append_cancel_right (hl'.symm.trans hl)
  rw [heq] at hdestroyed
  exact (hdestroyed _ _ List.mem_cons_self).1 hid

end

end

/-- A channel announced under an id that is not a fresh incoming one leaves the others
alone exactly if nobody has the id and it is not that of the master channel. -/
theorem channelCreate_keepsChannels_iff {env : Env} (henv : env.OnlyWrites) (n : Nat)
    {s : MwSession} (hs : s.Addressed) (head : MwMessageHead) {msg : MwMsgChannelCreate}
    (hid : ¬ s.FreshIncoming msg.channel) :
    KeepsChannels s (dispatch (env.hooks n) ⟨head, .channelCreate msg⟩ s).2 ↔
      msg.channel ≠ masterChannelId ∧ s.channels.map msg.channel = none := by
  have hwrite := Env.hooks_onlyWrites henv n
  constructor
  · intro hkeeps
    refine ⟨fun hmaster => not_keepsChannels_of_master hwrite hmaster hkeeps, ?_⟩
    by_contra hused
    obtain ⟨c, hc⟩ := Option.ne_none_iff_exists'.mp hused
    exact not_keepsChannels_of_used (env.hooks_force n) hs hc hkeeps
  · intro ⟨hne, hnone⟩
    refine keepsChannels_of_unused hwrite ?_ hne hnone
    by_contra hincoming
    exact hid ⟨by simpa [mwChannelIdIsIncoming] using hincoming, hnone⟩

/-- A session with an open incoming channel -/
def oneChannel : MwSession where
  channels := { map := fun id => if id = 0x80000001 then some { addr := 0, state := .opened } else none }
  nextAddr := 1

theorem oneChannel_addressed : oneChannel.Addressed := by
  intro id c hc
  simp only [oneChannel] at hc
  split at hc
  · cases hc
    exact Nat.zero_lt_one
  · cases hc

/-- A channel with an id of an outgoing one is refused, and the one that is open stays. -/
theorem channelCreate_keepsChannels_oneChannel :
    ¬ oneChannel.FreshIncoming 5 ∧
      KeepsChannels oneChannel
        (dispatch (Env.idle.hooks 0) ⟨{}, .channelCreate { channel := 5 }⟩ oneChannel).2 := by
  have hid : ¬ oneChannel.FreshIncoming 5 := fun hfresh => absurd hfresh.1 (by decide)
  exact ⟨hid, (channelCreate_keepsChannels_iff (fun _ _ => rfl) 0 oneChannel_addressed {} hid).mpr
    ⟨by decide, rfl⟩⟩

/-- Another channel under the same id takes its place, and is then refused. -/
theorem not_keepsChannels_oneChannel :
    ¬ oneChannel.FreshIncoming 0x80000001 ∧
      ¬ KeepsChannels oneChannel
        (dispatch (Env.idle.hooks 0) ⟨{}, .channelCreate { channel := 0x80000001 }⟩ oneChannel).2 := by
  refine ⟨fun hfresh => absurd hfresh.2 (by simp [oneChannel]), fun hkeeps => ?_⟩
  obtain ⟨c', hc', -⟩ := hkeeps.kept 0x80000001 { addr := 0, state := .opened } rfl
  have hgone : ((dispatch (Env.idle.hooks 0) ⟨{}, .channelCreate { channel := 0x80000001 }⟩
      oneChannel).2.channels.map 0x80000001).isNone = true := by
    decide +kernel
  rw [hc'] at hgone
  simp at hgone

end Meanwhile
