-- SUMMARY: The ids of outgoing channels, over the whole life of the counter that they are taken from.
import Meanwhile.Channel.Life

/-!
# Ids of outgoing channels

`mwChannel_newOutgoing` takes the next number that is not in use. The upper half of the
numbers belongs to the server, and zero is the master channel, but the search asks for
neither, so the id is right as long as the numbers that are left are.
-/

namespace Meanwhile

/-! ## The search -/

section Search

variable {map : UInt32 → Option MwChannel} {fuel k : Nat} {counter id : UInt32}

/-- The search stops at the first number after the counter that is free. -/
theorem nextOutgoingId_of_first (hfree : map (counter + UInt32.ofNat (k + 1)) = none)
    (hused : ∀ j < k, map (counter + UInt32.ofNat (j + 1)) ≠ none) (hfuel : k < fuel) :
    nextOutgoingId map fuel counter = some (counter + UInt32.ofNat (k + 1)) := by
  induction k generalizing fuel counter with
  | zero =>
    obtain ⟨fuel, rfl⟩ := Nat.exists_eq_succ_of_ne_zero (by omega : fuel ≠ 0)
    have hone : UInt32.ofNat (0 + 1) = 1 := rfl
    rw [hone] at hfree ⊢
    simp [nextOutgoingId, hfree]
  | succ k ih =>
    obtain ⟨fuel, rfl⟩ := Nat.exists_eq_succ_of_ne_zero (by omega : fuel ≠ 0)
    have hnext : ∀ j, counter + 1 + UInt32.ofNat (j + 1) = counter + UInt32.ofNat (j + 1 + 1) := by
      intro j
      rw [UInt32.add_assoc, UInt32.add_comm 1, UInt32.ofNat_add (j + 1) 1]
      rfl
    have hstart : map (counter + 1) ≠ none := hused 0 (Nat.succ_pos k)
    rw [nextOutgoingId, if_pos (Option.isSome_iff_ne_none.mpr hstart), ← hnext]
    apply ih
    · rw [hnext]
      exact hfree
    · intro j hj
      rw [hnext]
      exact hused (j + 1) (by omega)
    · omega

end Search

/-- An id for an outgoing channel: `mwChannel_idIsOutgoing`, and not that of the master channel -/
def IsOwn (id : UInt32) : Prop := id ≠ masterChannelId ∧ mwChannelIdIsOutgoing id = true

theorem isOwn_iff (id : UInt32) : IsOwn id ↔ 0 < id.toNat ∧ id.toNat < 2 ^ 31 := by
  have hlt := UInt32.toNat_lt id
  have hzero : id ≠ 0 ↔ 0 < id.toNat := by
    rw [ne_eq, ← UInt32.toNat_inj, UInt32.toNat_zero]
    omega
  have hbit : (id &&& 0x80000000 = 0) ↔ id.toNat < 2 ^ 31 := by
    have hpow : id.toNat &&& 2 ^ 31 = (id.toNat.testBit 31).toNat * 2 ^ 31 := Nat.and_two_pow _ _
    rw [← UInt32.toNat_inj, UInt32.toNat_and, UInt32.toNat_zero]
    change id.toNat &&& 2 ^ 31 = 0 ↔ _
    rw [hpow, Nat.testBit_eq_decide_div_mod_eq]
    by_cases hhigh : id.toNat < 2 ^ 31
    · rw [Nat.div_eq_of_lt hhigh]
      exact iff_of_true (by decide) hhigh
    · rw [show id.toNat / 2 ^ 31 = 1 by omega]
      exact iff_of_false (by decide) hhigh
  unfold IsOwn mwChannelIdIsOutgoing masterChannelId
  rw [decide_eq_true_eq, hzero, hbit]

section NewOutgoing

variable {map : UInt32 → Option MwChannel} {counter : UInt32}

/-- The number that is reached in the turn after `k` others -/
theorem toNat_turn (counter : UInt32) (k : Nat) :
    (counter + UInt32.ofNat (k + 1)).toNat = (counter.toNat + k + 1) % 2 ^ 32 := by
  rw [UInt32.toNat_add, UInt32.toNat_ofNat']
  omega

/-- Every number is reached in some turn. -/
theorem exists_turn (counter id : UInt32) :
    ∃ k < 2 ^ 32, counter + UInt32.ofNat (k + 1) = id ∧
      (counter.toNat + k + 1) % 2 ^ 32 = id.toNat := by
  have hc := UInt32.toNat_lt counter
  have hid := UInt32.toNat_lt id
  refine ⟨(id.toNat + 2 ^ 32 - counter.toNat - 1) % 2 ^ 32, Nat.mod_lt _ (by decide), ?_, by omega⟩
  rw [← UInt32.toNat_inj, toNat_turn]
  omega

/-- If a number is free, the search ends with one, and has found those before it in use. -/
theorem exists_first {id : UInt32} (hfree : map id = none) :
    ∃ k < 2 ^ 32, nextOutgoingId map (2 ^ 32) counter = some (counter + UInt32.ofNat (k + 1)) ∧
      map (counter + UInt32.ofNat (k + 1)) = none ∧
      ∀ j < k, map (counter + UInt32.ofNat (j + 1)) ≠ none := by
  classical
  obtain ⟨k, hk, rfl, -⟩ := exists_turn counter id
  have hsome : ∃ k, map (counter + UInt32.ofNat (k + 1)) = none := ⟨k, hfree⟩
  have hle : Nat.find hsome ≤ k := Nat.find_min' hsome hfree
  refine ⟨Nat.find hsome, by omega, ?_, Nat.find_spec hsome, fun j hj => Nat.find_min hsome hj⟩
  exact nextOutgoingId_of_first (Nat.find_spec hsome) (fun j hj => Nat.find_min hsome hj) (by omega)

/-- Some number above the counter is free in the lower half, or the counter has gone round over
numbers that are all in use, zero included. -/
def InReach (cs : MwChannelSet) : Prop :=
  (∃ id, cs.counter < id ∧ id < 0x80000000 ∧ cs.map id = none) ∨
    ((∀ id, cs.counter < id → cs.map id ≠ none) ∧ cs.map masterChannelId ≠ none)

/-- If an id of its own is free, the search ends with one just where it is in reach. -/
theorem nextOutgoingId_isOwn_iff (cs : MwChannelSet) {own : UInt32} (hown : IsOwn own)
    (hfree : cs.map own = none) :
    (∃ id, nextOutgoingId cs.map (2 ^ 32) cs.counter = some id ∧ IsOwn id ∧ cs.map id = none) ↔
      InReach cs := by
  obtain ⟨k, hk, hnext, hat, hused⟩ := @exists_first _ cs.counter _ hfree
  have hfirst : (∃ id, nextOutgoingId cs.map (2 ^ 32) cs.counter = some id ∧ IsOwn id ∧
      cs.map id = none) ↔ IsOwn (cs.counter + UInt32.ofNat (k + 1)) := by
    rw [hnext]
    exact ⟨fun ⟨_, heq, hown, _⟩ => Option.some.inj heq ▸ hown, fun hown => ⟨_, rfl, hown, hat⟩⟩
  have hturn := toNat_turn cs.counter k
  have hc := UInt32.toNat_lt cs.counter
  -- what is reached in an earlier turn is in use
  have hearlier : ∀ id, cs.map id = none → ∃ j, k ≤ j ∧ j < 2 ^ 32 ∧
      (cs.counter.toNat + j + 1) % 2 ^ 32 = id.toNat := by
    intro id hid
    obtain ⟨j, hj, hat', hturn'⟩ := exists_turn cs.counter id
    refine ⟨j, Nat.le_of_not_lt fun hlt => hused j hlt (hat' ▸ hid), hj, hturn'⟩
  rw [hfirst, isOwn_iff]
  constructor
  · rintro ⟨hpos, hlow⟩
    by_cases habove : cs.counter.toNat < (cs.counter + UInt32.ofNat (k + 1)).toNat
    · exact .inl ⟨_, UInt32.lt_iff_toNat_lt.mpr habove, UInt32.lt_iff_toNat_lt.mpr hlow, hat⟩
    · refine .inr ⟨fun id hid hnone => ?_, fun hnone => ?_⟩
      · obtain ⟨j, hkj, hj, hturn'⟩ := hearlier id hnone
        have hid := UInt32.lt_iff_toNat_lt.mp hid
        have hlt := UInt32.toNat_lt id
        omega
      · obtain ⟨j, hkj, hj, hturn'⟩ := hearlier masterChannelId hnone
        rw [show masterChannelId.toNat = 0 from rfl] at hturn'
        omega
  · rintro (⟨id, habove, hlow, hnone⟩ | ⟨hround, hzero⟩)
    · obtain ⟨j, hkj, hj, hturn'⟩ := hearlier id hnone
      have habove := UInt32.lt_iff_toNat_lt.mp habove
      have hlow : id.toNat < 2 ^ 31 := UInt32.lt_iff_toNat_lt.mp hlow
      omega
    · obtain ⟨hpos, hlow⟩ := (isOwn_iff own).mp hown
      obtain ⟨j, hkj, hj, hturn'⟩ := hearlier own hfree
      have hbelow : ∀ id, cs.map id = none → id.toNat ≤ cs.counter.toNat := fun id hid =>
        Nat.le_of_not_lt fun hlt => hround id (UInt32.lt_iff_toNat_lt.mpr hlt) hid
      have hown' := hbelow own hfree
      have hat' := hbelow _ hat
      have hne : (cs.counter + UInt32.ofNat (k + 1)).toNat ≠ 0 := by
        intro h
        have hmaster : cs.counter + UInt32.ofNat (k + 1) = masterChannelId :=
          UInt32.toNat_inj.mp h
        exact hzero (hmaster ▸ hat)
      omega

end NewOutgoing

/-! ## Runs -/

/-- What is done to the channels of a session -/
inductive SetCall where
  /-- `mwChannel_newOutgoing` -/
  | outgoing
  /-- `mwChannel_newIncoming`, for a channel of the server -/
  | incoming (id : UInt32)
  /-- A channel taken out of the set -/
  | remove (id : UInt32)

def SetCall.apply (s : MwSession) : SetCall → MwSession
  | outgoing => (mwChannelNewOutgoing s).2
  | incoming id => (mwChannelNewIncoming id s).2
  | remove id => s.setChannel id none

/-- The session after some calls, from an empty set of channels on -/
def afterCalls (s : MwSession) (calls : List SetCall) : MwSession :=
  calls.foldl SetCall.apply { s with channels := {} }

theorem newOutgoing_fst (s : MwSession) :
    (mwChannelNewOutgoing s).1 =
      (nextOutgoingId s.channels.map (2 ^ 32) s.channels.counter).map (⟨·, s.nextAddr⟩) := by
  rw [mwChannelNewOutgoing, Session.get_bind]
  dsimp only
  cases nextOutgoingId s.channels.map (2 ^ 32) s.channels.counter with
  | none => rfl
  | some id =>
    dsimp only
    rw [Session.modify_bind, Session.bind_apply, mwChannelNewIncoming_apply]
    rfl

/-- The new channel has an id of its own that nobody uses. -/
def OpensOwn (s : MwSession) : Prop :=
  ∃ chan, (mwChannelNewOutgoing s).1 = some chan ∧ IsOwn chan.id ∧ s.channels.map chan.id = none

/-- However often the counter has been used, and whatever is in use, the next id is right just
where it is in reach. -/
theorem afterCalls_opensOwn_iff (s : MwSession) (calls : List SetCall) {own : UInt32}
    (hown : IsOwn own) (hfree : (afterCalls s calls).channels.map own = none) :
    OpensOwn (afterCalls s calls) ↔ InReach (afterCalls s calls).channels := by
  rw [← nextOutgoingId_isOwn_iff _ hown hfree, OpensOwn, newOutgoing_fst]
  constructor
  · rintro ⟨chan, hchan, hid⟩
    obtain ⟨id, hnext, rfl⟩ := Option.map_eq_some_iff.mp hchan
    exact ⟨id, hnext, hid⟩
  · rintro ⟨id, hnext, hid⟩
    exact ⟨⟨id, _⟩, by rw [hnext, Option.map_some], hid⟩

/-- Channels that are opened and closed one after another -/
def openedAndClosed (n : Nat) : List SetCall :=
  (List.range n).flatMap fun i => [.outgoing, .remove (UInt32.ofNat (i + 1))]

theorem openedAndClosed_channels (s : MwSession) (n : Nat) :
    (afterCalls s (openedAndClosed n)).channels = { counter := UInt32.ofNat n } := by
  induction n with
  | zero => rfl
  | succ n ih =>
    have hone : UInt32.ofNat n + UInt32.ofNat (0 + 1) = UInt32.ofNat (n + 1) :=
      (UInt32.ofNat_add n 1).symm
    have hsplit : afterCalls s (openedAndClosed (n + 1)) =
        ((mwChannelNewOutgoing (afterCalls s (openedAndClosed n))).2).setChannel
          (UInt32.ofNat (n + 1)) none := by
      simp [afterCalls, openedAndClosed, List.range_succ, SetCall.apply]
    generalize afterCalls s (openedAndClosed n) = t at ih hsplit
    have hnext : nextOutgoingId t.channels.map (2 ^ 32) t.channels.counter =
        some (UInt32.ofNat (n + 1)) := by
      rw [ih, ← hone]
      exact nextOutgoingId_of_first rfl nofun (by decide)
    rw [hsplit, newOutgoing_of_some hnext]
    simp [MwSession.outgoing, MwSession.withState, MwSession.announced, MwSession.setChannel,
      MwSession.log, ih]

/-- The channels after one more of its own -/
theorem newOutgoing_channels {s : MwSession} {id : UInt32}
    (hnext : nextOutgoingId s.channels.map (2 ^ 32) s.channels.counter = some id) :
    (mwChannelNewOutgoing s).2.channels =
      ⟨Function.update s.channels.map id (some { addr := s.nextAddr, state := .init }), id⟩ := by
  rw [newOutgoing_of_some hnext]
  simp [MwSession.outgoing, MwSession.withState, MwSession.announced, MwSession.setChannel,
    MwSession.log]

/-- The channels after many have come and gone, and one has come and stays -/
theorem openedClosedOpened_channels (s : MwSession) (n : Nat) :
    ∃ c, (afterCalls s (openedAndClosed n ++ [.outgoing])).channels =
      ⟨Function.update (fun _ => none) (UInt32.ofNat (n + 1)) (some c), UInt32.ofNat (n + 1)⟩ := by
  have hchannels := openedAndClosed_channels s n
  have happend : afterCalls s (openedAndClosed n ++ [.outgoing]) =
      (mwChannelNewOutgoing (afterCalls s (openedAndClosed n))).2 := by
    simp [afterCalls, SetCall.apply]
  have hnext : nextOutgoingId (afterCalls s (openedAndClosed n)).channels.map (2 ^ 32)
      (afterCalls s (openedAndClosed n)).channels.counter = some (UInt32.ofNat (n + 1)) := by
    rw [hchannels, UInt32.ofNat_add]
    exact nextOutgoingId_of_first rfl nofun (by decide)
  rw [happend, newOutgoing_channels hnext, hchannels]
  exact ⟨_, rfl⟩

/-- A channel below the last number of its own is followed by one with that number, and a
channel with the last one by none. -/
theorem afterCalls_opensOwn_iff_last :
    OpensOwn (afterCalls {} (openedAndClosed (2 ^ 31 - 3) ++ [.outgoing])) ∧
      ¬ OpensOwn (afterCalls {} (openedAndClosed (2 ^ 31 - 2) ++ [.outgoing])) := by
  have hown : IsOwn 1 := ⟨by decide, by decide⟩
  constructor
  · obtain ⟨c, hchannels⟩ := openedClosedOpened_channels {} (2 ^ 31 - 3)
    have hmap : ∀ id ≠ UInt32.ofNat (2 ^ 31 - 3 + 1), Function.update (fun _ => none)
        (UInt32.ofNat (2 ^ 31 - 3 + 1)) (some c) id = none := fun id hne =>
      Function.update_of_ne hne ..
    refine (afterCalls_opensOwn_iff {} _ hown ?_).mpr (.inl ⟨0x7fffffff, ?_⟩)
    · rw [hchannels]
      exact hmap 1 (by decide)
    · rw [hchannels]
      exact ⟨(by decide : UInt32.ofNat (2 ^ 31 - 3 + 1) < 0x7fffffff), by decide,
        hmap 0x7fffffff (by decide)⟩
  · obtain ⟨c, hchannels⟩ := openedClosedOpened_channels {} (2 ^ 31 - 2)
    have hmap : ∀ id ≠ UInt32.ofNat (2 ^ 31 - 2 + 1), Function.update (fun _ => none)
        (UInt32.ofNat (2 ^ 31 - 2 + 1)) (some c) id = none := fun id hne =>
      Function.update_of_ne hne ..
    have hfree : (afterCalls {} (openedAndClosed (2 ^ 31 - 2) ++ [.outgoing])).channels.map 1 =
        none := by
      rw [hchannels]
      exact hmap 1 (by decide)
    intro hopens
    have hreach := (afterCalls_opensOwn_iff {} _ hown hfree).mp hopens
    rw [hchannels] at hreach
    obtain ⟨id, habove, hbelow, -⟩ | ⟨-, hmaster⟩ := hreach
    · have habove : 2 ^ 31 - 1 < id.toNat := UInt32.lt_iff_toNat_lt.mp habove
      have hbelow : id.toNat < 2 ^ 31 := UInt32.lt_iff_toNat_lt.mp hbelow
      omega
    · exact hmaster (hmap masterChannelId (by decide))

/-- After channels enough have come and gone, the next one gets a number of the server. -/
theorem not_opensOwn_half :
    ¬ ∀ (s : MwSession) (calls : List SetCall) (own : UInt32), IsOwn own →
      (afterCalls s calls).channels.map own = none → OpensOwn (afterCalls s calls) := by
  intro h
  have hchannels := openedAndClosed_channels {} (2 ^ 31 - 1)
  have hfree : (afterCalls {} (openedAndClosed (2 ^ 31 - 1))).channels.map 1 = none := by
    rw [hchannels]
  obtain ⟨chan, hchan, ⟨-, hout⟩, -⟩ := h {} _ 1 ⟨by decide, by decide⟩ hfree
  rw [newOutgoing_fst, hchannels,
    nextOutgoingId_of_first (k := 0) rfl nofun (by decide)] at hchan
  obtain ⟨_, hnext, rfl⟩ := Option.map_eq_some_iff.mp hchan
  obtain rfl := Option.some.inj hnext
  exact absurd hout (by decide)

end Meanwhile
