-- SUMMARY: Payloads that do not parse to their end, and when their handlers do nothing.
import Meanwhile.Service.PlaceMembers
import Meanwhile.Service.AwareLookups

/-!
# Truncated payloads

A payload is truncated for its handler when the get buffer ends in an error. A handler
should then do nothing. Most handlers do not look, and go on with what they have: the
words that were there, and for the others what the variables held before. So they do
nothing when that happens to be about nobody, or to be what the service has already.
-/

namespace Meanwhile

namespace Place

/-! ## Places -/

/-- A function of the handler of the client is called. -/
def PlaceEvent.told : PlaceEvent → Bool
  | .moved _ _ => false
  | _ => true

/-- The place is what it was, and the client has been told nothing. -/
structure Untouched (place : MwPlace) (s : Scene) : Prop where
  state : s.place.state = place.state
  title : s.place.title = place.title
  members : s.place.members = place.members
  ourId : s.place.ourId = place.ourId
  section_ : s.place.section_ = place.section_
  silent : ∀ e ∈ s.log, e.told = false

/-! ### When a message changes nothing

Each says so of a message whose handler ends in an error, from where that starts to read. -/

variable (stack : PlaceStack) (place : MwPlace)

/-- The words are the ids that the place has. -/
def JoinResponseIdle (b : GetBuffer) : Prop :=
  let (ourId, b) := guint32Get (stack .joinOurId) b
  let (section_, _) := guint32Get (stack .joinSection) b
  ourId = place.ourId ∧ section_ = place.section_

/-- The section is not `0`, or the place has just been told the same. -/
def InfoIdle (b : GetBuffer) : Prop :=
  let (_, b) := guint32Get 0 b
  let (section_, _) := guint32Get 0 b
  section_ = 0 → place.title = none ∧ place.state = .joined

/-- The sender is nobody here, or the message is said to have no length. -/
def MessageIdle (b : GetBuffer) : Prop :=
  let (pmId, b) := guint32Get (stack .messageId) b
  let (_, b) := guint32Get 0 b
  let (ign, _) := guint32Get (stack .messageLength) b
  place.members pmId = none ∨ ign = 0

/-- The list is of another section, or of members that are all here already, in a place
that is open. -/
def ListIdle (b : GetBuffer) : Prop :=
  (guint32Get (stack .listSection) (mwGetBufferAdvance 4 b).2).1 = place.section_ →
    place.state = .opened ∧
      ∀ id pm, (Said.inserts (membersLoop stack place.section_ b).built).effect id = some pm →
        place.members id = pm

/-- The section is `0`. -/
def PeerJoinIdle (b : GetBuffer) : Prop := (guint32Get (stack .peerJoinSection) b).1 = 0

/-- The section is another, or nobody here parts. -/
def PeerPartIdle (b : GetBuffer) : Prop :=
  let (section_, b) := guint32Get (stack .peerPartSection) b
  let (id, _) := guint32Get (stack .peerPartId) b
  section_ = place.section_ → place.members id = none

/-- The member is nobody here. -/
def MemberIdle (local_ : PlaceLocal) (b : GetBuffer) : Prop :=
  place.members (guint32Get (stack local_) b).1 = none

def PeerIdle (b : GetBuffer) : Prop :=
  let (subtype, b) := guint16Get 0 b
  b.error = false →
    if subtype = msgInSectionPeerJoin then PeerJoinIdle stack b
    else if subtype = msgInSectionPeerPart then PeerPartIdle stack place b
    else if subtype = msgInSectionPeerClearAttr then MemberIdle stack place .clearAttrId b
    else if subtype = msgInSectionPeerSetAttr then MemberIdle stack place .setAttrId b
    else True

def SectionIdle (b : GetBuffer) : Prop :=
  let (subtype, b) := guint16Get 0 b
  b.error = false →
    if subtype = msgInSectionList then ListIdle stack place b
    else if subtype = msgInSectionPeer then PeerIdle stack place b
    else if subtype = msgInSectionPart then MemberIdle stack place .partId b
    else True

/-- A truncated message that changes nothing -/
def Idle (msg : Payload) : Prop :=
  let b := GetBuffer.wrapOpaque msg.2
  if msg.1 = msgInJoinResponse then JoinResponseIdle stack place b
  else if msg.1 = msgInInfo then InfoIdle place b
  else if msg.1 = msgInMessage then MessageIdle stack place b
  else if msg.1 = msgInSection then SectionIdle stack place b
  else True

/-! ### The handlers -/

section

variable {stack place} {b : GetBuffer}

theorem Untouched.refl (place : MwPlace) (b : GetBuffer) :
    Untouched place { place := place, b := b } :=
  ⟨rfl, rfl, rfl, rfl, rfl, by simp⟩

/-- The client has been told something. -/
theorem not_untouched {s : Scene} {e : PlaceEvent} (he : e ∈ s.log) (htold : e.told = true) :
    ¬ Untouched place s :=
  fun h => by simp [h.silent e he] at htold

theorem read_apply {α : Type} (g : Get α) (s : Scene) :
    read g s = ((g s.b).1, { s with b := (g s.b).2 }) := rfl

theorem getMember_apply (id : UInt32) (s : Scene) : getMember id s = (s.place.members id, s) := rfl

theorem recvJoinResponse_untouched_iff :
    Untouched place (recvJoinResponse stack { place := place, b := b }).2 ↔
      JoinResponseIdle stack place b := by
  constructor
  · intro h
    exact ⟨h.ourId, h.section_⟩
  · rintro ⟨hid, hsection⟩
    refine ⟨rfl, rfl, rfl, hid, hsection, ?_⟩
    simp [recvJoinResponse, read, modifyPlace]

/-- A string that cannot be read is none. -/
theorem mwStringGet_of_truncated (h : (mwStringGet b).2.error = true) :
    (mwStringGet b).1 = none := by
  unfold mwStringGet at h ⊢
  split
  · rfl
  · rename_i hok
    rw [if_neg hok] at h
    generalize guint16Get 0 b = word at h ⊢
    obtain ⟨len, b'⟩ := word
    dsimp only at h ⊢
    split
    · rfl
    · rename_i hcheck
      rw [if_neg hcheck] at h
      split
      · rfl
      · rename_i hlen
        rw [if_neg hlen] at h
        exact absurd h hcheck

theorem placeState_apply (state : MwPlaceState) (s : Scene) :
    (placeState state s).2 =
      if s.place.state = state then s
      else { s with
        place := { s.place with state := state }
        log := .moved s.place.state state :: s.log } := by
  unfold placeState
  rw [StateM.get_bind]
  dsimp only
  rw [StateM.ite_apply]
  split <;> rfl

/-- The end of `recv_INFO` -/
theorem joined_apply (s : Scene) :
    ∃ s', ((do
        placeState .joined
        sendSectionList (← get).place.section_ : PlaceM Unit) s).2 = s' ∧
      s'.b = s.b ∧ s'.place.state = .joined ∧ s'.place.title = s.place.title ∧
      s'.place.members = s.place.members ∧ s'.place.ourId = s.place.ourId ∧
      s'.place.section_ = s.place.section_ ∧
      ∀ e ∈ s'.log, e ∈ s.log ∨ e.told = false := by
  refine ⟨_, rfl, ?_⟩
  rw [StateM.bind_apply, StateM.get_bind, placeState_apply]
  split
  · rename_i hstate
    exact ⟨rfl, hstate, rfl, rfl, rfl, rfl, fun e he => .inl he⟩
  · refine ⟨rfl, rfl, rfl, rfl, rfl, rfl, fun e he => ?_⟩
    rcases List.mem_cons.mp he with rfl | he
    · exact .inr rfl
    · exact .inl he

theorem recvInfo_untouched_iff (herror : (recvInfo { place := place, b := b }).2.b.error = true) :
    Untouched place (recvInfo { place := place, b := b }).2 ↔ InfoIdle place b := by
  unfold recvInfo at herror ⊢
  unfold InfoIdle
  rw [StateM.bind_apply, StateM.bind_apply, StateM.bind_apply, StateM.ite_apply] at herror ⊢
  by_cases hzero : (read (guint32Get 0) (read (guint32Get 0) { place := place, b := b }).2).1 = 0
  · rw [if_pos hzero] at herror ⊢
    rw [StateM.bind_apply, StateM.bind_apply] at herror ⊢
    simp only [read_apply, modifyPlace, StateM.modify_bind] at herror ⊢
    obtain ⟨s', hrun, hb, hstate, htitle, hmembers, hid, hsection, hlog⟩ := joined_apply
      { place := { place with title := (mwStringGet (mwGetBufferAdvance 2 (mwGetBufferAdvance
          (guint32Get 0 b).1.toNat (guint32Get 0 (guint32Get 0 b).2).2).2).2).1 }
        b := (mwStringGet (mwGetBufferAdvance 2 (mwGetBufferAdvance
          (guint32Get 0 b).1.toNat (guint32Get 0 (guint32Get 0 b).2).2).2).2).2 }
    rw [hrun] at herror ⊢
    rw [hb] at herror
    rw [mwStringGet_of_truncated herror] at htitle
    constructor
    · intro h _
      exact ⟨h.title.symm.trans htitle, h.state.symm.trans hstate⟩
    · intro h
      obtain ⟨hnone, hjoined⟩ := h hzero
      refine ⟨hstate.trans hjoined.symm, htitle.trans hnone.symm, hmembers, hid, hsection,
        fun e he => ?_⟩
      exact (hlog e he).resolve_left (by simp)
  · rw [if_neg hzero]
    exact iff_of_true (.refl _ _) fun h => absurd h hzero

theorem recvMessage_untouched_iff (hok : b.error = false)
    (herror : (recvMessage stack { place := place, b := b }).2.b.error = true) :
    Untouched place (recvMessage stack { place := place, b := b }).2 ↔
      MessageIdle stack place b := by
  unfold recvMessage at herror ⊢
  rw [StateM.get_bind, StateM.ite_apply] at herror ⊢
  by_cases hopened : place.state ≠ .opened
  · rw [if_pos hopened] at herror
    exact absurd (hok.symm.trans herror) (by decide)
  · rw [if_neg hopened]
    rw [StateM.bind_apply, StateM.bind_apply, getMember_apply, read_apply]
    unfold MessageIdle
    dsimp only
    cases hmember : place.members (guint32Get (stack .messageId) b).1 with
    | none => exact iff_of_true (.refl _ _) (.inl hmember)
    | some pm =>
      dsimp only
      rw [StateM.bind_apply, StateM.bind_apply, StateM.ite_apply]
      split
      · rename_i hlength
        exact iff_of_true (.refl _ _) (.inr hlength)
      · rename_i hlength
        refine iff_of_false (not_untouched List.mem_cons_self rfl) fun h => ?_
        exact h.elim (fun hnone => nomatch hmember.symm.trans hnone) hlength

theorem memberParted_untouched_iff (id : UInt32) :
    Untouched place (memberParted id { place := place, b := b }).2 ↔ place.members id = none := by
  unfold memberParted
  rw [StateM.bind_apply, getMember_apply]
  dsimp only
  cases hmember : place.members id with
  | none => exact iff_of_true (.refl place b) rfl
  | some pm =>
    refine iff_of_false (not_untouched (e := .peerParted pm.idb) ?_ rfl) nofun
    simp [record, removeMemberId, modifyPlace]

theorem placeOpened_log (s : Scene) {e : PlaceEvent} (he : e ∈ s.log) :
    e ∈ (placeOpened s).2.log := by
  change e ∈ .opened :: (placeState .opened s).2.log
  rw [placeState_apply]
  split
  · exact List.mem_cons_of_mem _ he
  · exact List.mem_cons_of_mem _ (List.mem_cons_of_mem _ he)

/-- The loop changes the table and nothing else. -/
theorem listMembers_apply (count : Nat) (s : Scene) :
    ∃ members b', (listMembers count s).2 =
      { s with place := { s.place with members := members }, b := b' } := by
  induction count generalizing s with
  | zero => exact ⟨s.place.members, s.b, rfl⟩
  | succ count ih =>
    obtain ⟨members, b', h⟩ := ih (putMember (memberGet (mwGetBufferAdvance 4 s.b).2).1
      { s with b := (memberGet (mwGetBufferAdvance 4 s.b).2).2 }).2
    exact ⟨members, b', h⟩

/-- Members put into a table leave it as it is when those that come last are there. -/
theorem putMembers_eq_self_iff (members : UInt32 → Option PlaceMember) (pms : List PlaceMember) :
    putMembers members pms = members ↔
      ∀ id pm, (Said.inserts pms).effect id = some pm → members id = pm := by
  constructor
  · intro h id pm hpm
    rw [← h, putMembers_eq, hpm, Option.getD_some]
  · intro h
    funext id
    rw [putMembers_eq]
    cases hpm : (Said.inserts pms).effect id with
    | none => rfl
    | some pm => exact (h id pm hpm).symm

theorem recvSectionList_untouched_iff :
    Untouched place (recvSectionList stack { place := place, b := b }).2 ↔
      ListIdle stack place b := by
  have hmembers := recvSectionList_members stack { place := place, b := b }
  generalize hs : (recvSectionList stack { place := place, b := b }).2 = s at hmembers ⊢
  unfold recvSectionList at hs
  rw [StateM.bind_apply, StateM.bind_apply, StateM.get_bind, StateM.ite_apply] at hs
  unfold ListIdle
  split at hs
  · rename_i hsection
    rw [← hs]
    exact iff_of_true (.refl _ _) fun hsame => absurd hsame hsection
  · rename_i hsection
    rw [StateM.bind_apply, StateM.bind_apply, StateM.bind_apply, StateM.bind_apply] at hs
    obtain ⟨members, b', hlisted⟩ :=
      listMembers_apply (read (guint32Get (stack .listCount)) _).1.toNat _
    rw [hlisted, StateM.get_bind, StateM.ite_apply] at hs
    split at hs
    · rename_i hstate
      refine iff_of_false ?_ fun h => hstate (h (not_not.mp hsection)).1
      rw [← hs]
      exact not_untouched (e := .opened) List.mem_cons_self rfl
    · rename_i hstate
      have hput : Untouched place s ↔ members = place.members := by
        rw [← hs]
        exact ⟨Untouched.members, fun h => ⟨rfl, rfl, h, rfl, rfl, by simp [read]⟩⟩
      have hsame : members =
          putMembers place.members (membersLoop stack place.section_ b).built := by
        rw [← hmembers, ← hs]
        rfl
      rw [hput, hsame, putMembers_eq_self_iff]
      exact ⟨fun h _ => ⟨not_not.mp hstate, h⟩, fun h => (h (not_not.mp hsection)).2⟩

theorem recvSectionPeerJoin_untouched_iff :
    Untouched place (recvSectionPeerJoin stack { place := place, b := b }).2 ↔
      PeerJoinIdle stack b := by
  unfold recvSectionPeerJoin PeerJoinIdle
  rw [StateM.bind_apply, StateM.ite_apply, read_apply]
  dsimp only
  split
  · exact iff_of_true (.refl _ _) ‹_›
  · rename_i hne
    refine iff_of_false ?_ hne
    rw [StateM.bind_apply, StateM.bind_apply, StateM.bind_apply, StateM.bind_apply, StateM.get_bind,
      StateM.ite_apply]
    split
    · exact not_untouched (placeOpened_log _ List.mem_cons_self) rfl
    · exact not_untouched List.mem_cons_self rfl

theorem recvSectionPeerPart_untouched_iff :
    Untouched place (recvSectionPeerPart stack { place := place, b := b }).2 ↔
      PeerPartIdle stack place b := by
  unfold recvSectionPeerPart PeerPartIdle
  rw [StateM.bind_apply, StateM.get_bind, StateM.ite_apply, read_apply]
  dsimp only
  split
  · exact iff_of_true (.refl _ _) fun hsection => absurd hsection ‹_›
  · rename_i hsection
    rw [StateM.bind_apply, read_apply, memberParted_untouched_iff]
    exact ⟨fun h _ => h, fun h => h (not_not.mp hsection)⟩

theorem recvSectionPeerClearAttr_untouched_iff :
    Untouched place (recvSectionPeerClearAttr stack { place := place, b := b }).2 ↔
      MemberIdle stack place .clearAttrId b := by
  unfold recvSectionPeerClearAttr MemberIdle
  rw [StateM.bind_apply, StateM.bind_apply, StateM.bind_apply, getMember_apply, read_apply,
    read_apply]
  dsimp only
  cases hmember : place.members (guint32Get (stack .clearAttrId) b).1 with
  | none => exact iff_of_true (.refl _ _) rfl
  | some pm => exact iff_of_false (not_untouched List.mem_cons_self rfl) nofun

theorem recvSectionPeerSetAttr_untouched_iff :
    Untouched place (recvSectionPeerSetAttr stack { place := place, b := b }).2 ↔
      MemberIdle stack place .setAttrId b := by
  unfold recvSectionPeerSetAttr MemberIdle
  simp only [StateM.bind_apply, getMember_apply, read_apply]
  cases hmember : place.members (guint32Get (stack .setAttrId) b).1 with
  | none => exact iff_of_true (.refl _ _) rfl
  | some pm => exact iff_of_false (not_untouched List.mem_cons_self rfl) nofun

theorem recvSectionPeer_untouched_iff :
    Untouched place (recvSectionPeer stack { place := place, b := b }).2 ↔
      PeerIdle stack place b := by
  unfold recvSectionPeer PeerIdle
  rw [StateM.bind_apply, StateM.get_bind, StateM.ite_apply, read_apply]
  generalize guint16Get 0 b = word
  obtain ⟨subtype, b'⟩ := word
  dsimp only
  split
  · rename_i herror
    exact iff_of_true (.refl _ _) fun hok => absurd herror (by simp [hok])
  · rename_i hok
    have hok := Bool.eq_false_of_not_eq_true hok
    simp only [hok, true_imp_iff, StateM.ite_apply]
    split
    · exact recvSectionPeerJoin_untouched_iff
    · split
      · exact recvSectionPeerPart_untouched_iff
      · split
        · exact recvSectionPeerClearAttr_untouched_iff
        · split
          · exact recvSectionPeerSetAttr_untouched_iff
          · exact iff_of_true (.refl _ _) trivial

theorem recvSection_untouched_iff :
    Untouched place (recvSection stack { place := place, b := b }).2 ↔
      SectionIdle stack place b := by
  unfold recvSection SectionIdle
  rw [StateM.bind_apply, StateM.get_bind, StateM.ite_apply, read_apply]
  generalize guint16Get 0 b = word
  obtain ⟨subtype, b'⟩ := word
  dsimp only
  split
  · rename_i herror
    exact iff_of_true (.refl _ _) fun hok => absurd herror (by simp [hok])
  · rename_i hok
    have hok := Bool.eq_false_of_not_eq_true hok
    simp only [hok, true_imp_iff, StateM.ite_apply]
    split
    · exact recvSectionList_untouched_iff
    · split
      · exact recvSectionPeer_untouched_iff
      · split
        · rw [recvSectionPart, StateM.bind_apply, read_apply]
          exact memberParted_untouched_iff _
        · exact iff_of_true (.refl _ _) trivial

/-- A truncated message leaves a place alone exactly when it is idle. -/
theorem receive_untouched_iff (stack : PlaceStack) (place : MwPlace) (msg : Payload)
    (herror : (receive stack place msg).b.error = true) :
    Untouched place (receive stack place msg) ↔ Idle stack place msg := by
  unfold receive recv at herror ⊢
  unfold Idle
  have hok : (GetBuffer.wrapOpaque msg.2).error = false := rfl
  generalize GetBuffer.wrapOpaque msg.2 = b at herror hok ⊢
  dsimp only
  split
  · exact recvJoinResponse_untouched_iff
  · rename_i hjoin
    rw [if_neg hjoin] at herror
    split
    · rename_i hinfo
      rw [if_pos hinfo] at herror
      exact recvInfo_untouched_iff herror
    · rename_i hinfo
      rw [if_neg hinfo] at herror
      split
      · rename_i hmessage
        rw [if_pos hmessage] at herror
        exact recvMessage_untouched_iff hok herror
      · split
        · exact recvSection_untouched_iff
        · exact iff_of_true (.refl _ _) trivial

end

end Place

namespace Aware

open HashTable

/-! ## The aware service -/

/-- The get buffer of the handler ends in an error. -/
def Truncated (stack : AwareStack) (msg : Payload) : Prop :=
  let b := GetBuffer.wrapOpaque msg.2
  msg.1 = msgAwareUpdate ∧ (mwAwareSnapshotGet stack.endOfBlock b).2.error = true ∨
    msg.1 = msgOptGotSet ∧ (gotSetGet stack b).2.error = true ∨
    msg.1 = msgOptGotUnset ∧ (gotUnsetGet stack b).2.error = true

/-! ### When a message changes nothing -/

/-- A list that has an id, or does not take it. -/
def HasId (s : MwServiceAware) (id : MwAwareIdBlock) (l : Nat) : Prop :=
  ∃ list, s.list l = some list ∧ (id.user.length = 0 ∨ (listAwareFind s list id).isSome)

/-- The snapshot is of no group that is known, or of one whose lists have the member. -/
def MemberKnown (s : MwServiceAware) (snap : MwAwareSnapshot) : Prop :=
  snap.group.isSome → ∀ addr entry,
    find s s.entries { type := mwAwareGroup, user := snap.group } = some addr →
      s.entry addr = some entry → ∀ l ∈ entry.membership, HasId s snap.id l

/-- The id has a user, and is of nobody who is known, or of somebody who has the attribute
already and whose lists do not watch it. -/
def AttribKnown (s : MwServiceAware) (idb : MwAwareIdBlock) (key : UInt32)
    (data : MwOpaque) : Prop :=
  idb.user.isSome ∧ ∀ addr entry, find s s.entries idb = some addr → s.entry addr = some entry →
    entry.attribs key = some data ∧
      ∀ l ∈ entry.membership, ∃ list, s.list l = some list ∧ key ∉ list.attribs.getD []

/-- A truncated message that changes nothing -/
def Idle (stack : AwareStack) (s : MwServiceAware) (msg : Payload) : Prop :=
  let b := GetBuffer.wrapOpaque msg.2
  if msg.1 = msgAwareUpdate then MemberKnown s (mwAwareSnapshotGet stack.endOfBlock b).1
  else if msg.1 = msgOptGotSet then
    let (idb, key, data) := (gotSetGet stack b).1
    AttribKnown s idb key data
  else
    let (idb, key) := (gotUnsetGet stack b).1
    AttribKnown s idb key []

/-! ### The handlers -/

section

variable {s : MwServiceAware}

/-- What is found in a table is there. -/
theorem entry_of_find {t : Table} {id : MwAwareIdBlock} {addr : Nat} (h : find s t id = some addr) :
    ∃ entry, s.entry addr = some entry := by
  obtain ⟨n, hn, rfl⟩ := Option.map_eq_some_iff.mp h
  have hkey := List.find?_some hn
  simp only [Node.hasKey, decide_eq_true_eq] at hkey
  obtain ⟨entry, hentry, -⟩ := Option.map_eq_some_iff.mp hkey.2
  exact ⟨entry, hentry⟩

theorem setList_self {l : Nat} {list : MwAwareList} (h : s.list l = some list) :
    setList s l (some list) = s := by
  unfold setList
  rw [← h, Function.update_eq_self]

/-- A list that has an id stays as it is when that is added. -/
theorem listAddId_of_hasId {id : MwAwareIdBlock} {l : Nat} (h : HasId s id l) :
    listAddId l id s = (false, s) := by
  obtain ⟨list, hlist, hid⟩ := h
  unfold listAddId
  rw [hlist]
  dsimp only
  split
  · rfl
  · rename_i hlength
    obtain ⟨entries, attribs⟩ := list
    have hfound := hid.resolve_left hlength
    unfold listAwareFind at hfound
    cases entries with
    | none => cases hfound
    | some entries =>
      obtain ⟨addr, hfind⟩ := Option.isSome_iff_exists.mp hfound
      have hfind : find s entries id = some addr := hfind
      unfold listAdd
      simp only [Option.getD_some, setList_self hlist, hfind]

/-- How many nodes the table of a list has -/
def listSize (s : MwServiceAware) (l : Nat) : Nat :=
  match s.list l with
  | none => 0
  | some list => (list.entries.getD []).length

/-- The service has not got rid of anything, nor recovered from a crash. -/
structure Grows (s s' : MwServiceAware) : Prop where
  size : ∀ l, listSize s l ≤ listSize s' l
  crashed : s.crashed = true → s'.crashed = true

/-- The service has more than it had, or has crashed. -/
def Grown (s s' : MwServiceAware) : Prop :=
  s'.crashed = true ∨ ∃ l, listSize s l < listSize s' l

theorem Grows.refl (s : MwServiceAware) : Grows s s := ⟨fun _ => le_refl _, id⟩

theorem Grows.trans {s' s'' : MwServiceAware} (h : Grows s s') (h' : Grows s' s'') : Grows s s'' :=
  ⟨fun l => (h.size l).trans (h'.size l), fun hc => h'.crashed (h.crashed hc)⟩

theorem Grown.trans {s' s'' : MwServiceAware} (h : Grown s s') (h' : Grows s' s'') : Grown s s'' :=
  h.imp h'.crashed fun ⟨l, hl⟩ => ⟨l, hl.trans_le (h'.size l)⟩

theorem listSize_setList (l l' : Nat) (list : MwAwareList) :
    listSize (setList s l (some list)) l' =
      if l' = l then (list.entries.getD []).length else listSize s l' := by
  unfold listSize setList
  dsimp only
  by_cases hl : l' = l
  · rw [if_pos hl, hl, Function.update_self]
  · rw [if_neg hl, Function.update_of_ne hl]

/-- An entry for an id, which is there afterwards -/
theorem entryFor_spec (id : MwAwareIdBlock) (s : MwServiceAware) :
    (entryFor id s).2.list = s.list ∧ (entryFor id s).2.crashed = s.crashed ∧
      ∃ entry, (entryFor id s).2.entry (entryFor id s).1 = some entry := by
  unfold entryFor
  cases hfind : find s s.entries id with
  | some addr => exact ⟨rfl, rfl, entry_of_find hfind⟩
  | none => exact ⟨rfl, rfl, _, Function.update_self ..⟩

/-- A list that lacks an id grows by one when that is added. -/
theorem listAdd_of_none {id : MwAwareIdBlock} {l : Nat} {list : MwAwareList}
    (hlist : s.list l = some list)
    (hfind : find s (list.entries.getD []) id = none) :
    (listAdd l list id s).2.crashed = s.crashed ∧
      ∀ l', listSize (listAdd l list id s).2 l' =
        if l' = l then listSize s l + 1 else listSize s l' := by
  unfold listAdd
  have hfind' : find (setList s l (some { list with entries := some (list.entries.getD []) }))
      (list.entries.getD []) id = none := hfind
  simp only [hfind']
  obtain ⟨hlists, hcrashed, entry, hentry⟩ :=
    entryFor_spec id (setList s l (some { list with entries := some (list.entries.getD []) }))
  generalize entryFor id _ = r at hlists hcrashed hentry
  obtain ⟨addr, s'⟩ := r
  dsimp only at hlists hcrashed hentry
  unfold join
  simp only [hentry]
  refine ⟨hcrashed, fun l' => ?_⟩
  rw [listSize_setList]
  split
  · simp [listSize, hlist, HashTable.insert]
  · rename_i hne
    have hsame : listSize s' l' = listSize s l' := by
      simp only [listSize, hlists, setList, Function.update_of_ne hne]
    exact hsame

theorem listAddId_grows (l : Nat) (id : MwAwareIdBlock) (s : MwServiceAware) :
    Grows s (listAddId l id s).2 ∧ (¬ HasId s id l → Grown s (listAddId l id s).2) := by
  by_cases hid : HasId s id l
  · rw [listAddId_of_hasId hid]
    exact ⟨.refl s, fun h => absurd hid h⟩
  · unfold listAddId
    cases hlist : s.list l with
    | none => exact ⟨⟨fun _ => le_refl _, fun _ => rfl⟩, fun _ => .inl rfl⟩
    | some list =>
      dsimp only
      have hlength : id.user.length ≠ 0 := fun h => hid ⟨list, hlist, .inl h⟩
      have hfind : find s (list.entries.getD []) id = none := by
        have hnone : listAwareFind s list id = none := by
          by_contra hsome
          exact hid ⟨list, hlist, .inr (Option.isSome_iff_ne_none.mpr hsome)⟩
        unfold listAwareFind at hnone
        cases hentries : list.entries with
        | none => rfl
        | some entries =>
          rw [hentries] at hnone
          exact hnone
      rw [if_neg hlength]
      obtain ⟨hcrashed, hsize⟩ := listAdd_of_none hlist hfind
      refine ⟨⟨fun l' => ?_, fun hc => hcrashed.trans hc⟩, fun _ => .inr ⟨l, ?_⟩⟩
      · rw [hsize]
        split
        · rename_i hl
          exact hl ▸ Nat.le_succ _
        · exact le_refl _
      · rw [hsize, if_pos rfl]
        exact Nat.lt_succ_self _

/-- A member that is given to a list of its group, as the world sees it -/
theorem mwAwareListAddAware_srvc (l : Nat) (id : MwAwareIdBlock) (w : AwareWorld) :
    (mwAwareListAddAware l [id] w).srvc = (listAddId l id w.srvc).2 := by
  unfold mwAwareListAddAware
  dsimp only [addAll]
  generalize (if (listAddId l id w.srvc).1 = true then [id] else []) = additions
  split
  · rw [sendAdd, send_srvc]
  · rfl

/-- The lists of a group are given a member. -/
theorem addAll_grows (id : MwAwareIdBlock) (membership : List Nat) (w : AwareWorld) :
    Grows w.srvc (membership.foldl (fun w l => mwAwareListAddAware l [id] w) w).srvc ∧
      ((∃ l ∈ membership, ¬ HasId w.srvc id l) →
        Grown w.srvc (membership.foldl (fun w l => mwAwareListAddAware l [id] w) w).srvc) := by
  induction membership generalizing w with
  | nil => exact ⟨.refl _, by simp⟩
  | cons l membership ih =>
    have hsrvc := mwAwareListAddAware_srvc l id w
    obtain ⟨hgrows, hgrown⟩ := listAddId_grows l id w.srvc
    rw [← hsrvc] at hgrows hgrown
    obtain ⟨hgrows', hgrown'⟩ := ih (mwAwareListAddAware l [id] w)
    rw [List.foldl_cons]
    refine ⟨hgrows.trans hgrows', fun hlacks => ?_⟩
    by_cases hid : HasId w.srvc id l
    · have hsame : (mwAwareListAddAware l [id] w).srvc = w.srvc := by
        rw [hsrvc, listAddId_of_hasId hid]
      rw [hsame] at hgrown'
      refine hgrown' ?_
      obtain ⟨l', hl', hlacks⟩ := hlacks
      rcases List.mem_cons.mp hl' with rfl | hl'
      · exact absurd hid hlacks
      · exact ⟨l', hl', hlacks⟩
    · exact (hgrown hid).trans hgrows'

theorem addAll_of_hasId {id : MwAwareIdBlock} {membership : List Nat} {w : AwareWorld}
    (h : ∀ l ∈ membership, HasId w.srvc id l) :
    (membership.foldl (fun w l => mwAwareListAddAware l [id] w) w).srvc = w.srvc := by
  induction membership generalizing w with
  | nil => rfl
  | cons l membership ih =>
    have hsame : (mwAwareListAddAware l [id] w).srvc = w.srvc := by
      rw [mwAwareListAddAware_srvc, listAddId_of_hasId (h l List.mem_cons_self)]
    rw [List.foldl_cons, ih, hsame]
    intro l' hl'
    rw [hsame]
    exact h l' (List.mem_cons_of_mem l hl')

theorem Grown.ne {s' : MwServiceAware} (h : Grown s s') (hok : s.crashed = false) : s' ≠ s := by
  rintro rfl
  rcases h with hcrashed | ⟨l, hl⟩
  · rw [hok] at hcrashed
    cases hcrashed
  · exact lt_irrefl _ hl

theorem groupMemberRecv_eq_iff {w : AwareWorld} (hok : w.srvc.crashed = false)
    {snap : MwAwareSnapshot}
    (hgroup : snap.group.isSome) :
    (groupMemberRecv snap w).srvc = w.srvc ↔ MemberKnown w.srvc snap := by
  obtain ⟨group, hgroup'⟩ := Option.isSome_iff_exists.mp hgroup
  unfold groupMemberRecv MemberKnown
  simp only [hgroup', awareFind, Option.isSome_some, true_imp_iff]
  cases hfind : find w.srvc w.srvc.entries { type := mwAwareGroup, user := some group } with
  | none => exact iff_of_true rfl nofun
  | some addr =>
    obtain ⟨entry, hentry⟩ := entry_of_find hfind
    simp only [hentry]
    constructor
    · rintro hsame _ _ ⟨⟩ hentry' l hl
      cases hentry.symm.trans hentry'
      by_contra hlacks
      exact ((addAll_grows snap.id entry.membership w).2 ⟨l, hl, hlacks⟩).ne hok hsame
    · intro h
      exact addAll_of_hasId (h addr entry rfl hentry)

theorem tellLists_grows (e : Nat → MwAwareList → Option AwareEvent) (s : MwServiceAware)
    (membership : List Nat) :
    s.log.length ≤ (tellLists e s membership).log.length ∧
      (s.crashed = true → (tellLists e s membership).crashed = true) := by
  unfold tellLists
  induction membership generalizing s with
  | nil => exact ⟨le_refl _, id⟩
  | cons l membership ih =>
    rw [List.foldl_cons]
    split
    · obtain ⟨hlog, hcrashed⟩ := ih (crash s)
      exact ⟨hlog, fun _ => hcrashed rfl⟩
    · split
      · exact ih s
      · rename_i event _
        obtain ⟨hlog, hcrashed⟩ := ih (record s event)
        exact ⟨(Nat.le_succ _).trans hlog, hcrashed⟩

/-- Nobody is told when all of the lists are there and none of them asks. -/
theorem tellLists_eq_iff (hok : s.crashed = false) (e : Nat → MwAwareList → Option AwareEvent)
    (membership : List Nat) :
    tellLists e s membership = s ↔
      ∀ l ∈ membership, ∃ list, s.list l = some list ∧ e l list = none := by
  induction membership with
  | nil => exact iff_of_true rfl (by simp)
  | cons l membership ih =>
    have hcons : tellLists e s (l :: membership) = tellLists e (tellLists e s [l]) membership := rfl
    rw [hcons, List.forall_mem_cons]
    cases hlist : s.list l with
    | none =>
      have hcrash : tellLists e s [l] = crash s := by simp [tellLists, hlist]
      refine iff_of_false (fun hsame => ?_) fun h => ?_
      · have hcrashed := (tellLists_grows e (crash s) membership).2 rfl
        rw [← hcrash, hsame, hok] at hcrashed
        cases hcrashed
      · obtain ⟨⟨list, hlist', -⟩, -⟩ := h
        cases hlist'
    | some list =>
      cases hevent : e l list with
      | none =>
        have hsame : tellLists e s [l] = s := by simp [tellLists, hlist, hevent]
        rw [hsame, ih]
        exact ⟨fun h => ⟨⟨list, rfl, hevent⟩, h⟩, And.right⟩
      | some event =>
        have hrecord : tellLists e s [l] = record s event := by simp [tellLists, hlist, hevent]
        refine iff_of_false (fun hsame => ?_) fun h => ?_
        · have hlog := (tellLists_grows e (record s event) membership).1
          rw [← hrecord, hsame, hrecord] at hlog
          exact absurd hlog (Nat.not_succ_le_self _)
        · obtain ⟨⟨list', hlist', hnone⟩, -⟩ := h
          cases hlist'
          cases hevent.symm.trans hnone

/-- A message of an attribute changes nothing exactly when all of it is known. -/
theorem attribRecv_eq_iff (hok : s.crashed = false) (idb : MwAwareIdBlock) (key : UInt32)
    (data : MwOpaque) : attribRecv idb key data s = s ↔ AttribKnown s idb key data := by
  unfold attribRecv awareFind AttribKnown
  cases idb.user with
  | none =>
    refine iff_of_false (fun hsame => ?_) fun h => nomatch h.1
    have hcrashed : (crash s).crashed = s.crashed := congrArg MwServiceAware.crashed hsame
    rw [hok] at hcrashed
    cases hcrashed
  | some user =>
    simp only [Option.isSome_some, true_and]
    cases hfind : find s s.entries idb with
    | none => exact iff_of_true rfl nofun
    | some addr =>
      obtain ⟨entry, hentry⟩ := entry_of_find hfind
      simp only [hentry]
      -- the entry is the same when it has the attribute already
      have hkept : entry.attribs key = some data →
          setEntry s addr (some { entry with
            attribs := Function.update entry.attribs key (some data) }) = s := by
        intro hdata
        unfold setEntry
        rw [← hdata, Function.update_eq_self, ← hentry, Function.update_eq_self]
      constructor
      · rintro hsame _ _ ⟨⟩ hentry'
        cases hentry.symm.trans hentry'
        have hdata : entry.attribs key = some data := by
          obtain ⟨crashed, log, htold⟩ := tellLists_eq
            (fun l list =>
              if key ∈ list.attribs.getD [] then some (.onAttrib l idb key data) else none)
            (setEntry s addr (some { entry with
              attribs := Function.update entry.attribs key (some data) })) entry.membership
          rw [htold] at hsame
          have hentries := congrFun (congrArg MwServiceAware.entry hsame) addr
          simp only [setEntry, Function.update_self, hentry, Option.some.injEq] at hentries
          rw [← hentries]
          exact Function.update_self ..
        rw [hkept hdata, tellLists_eq_iff hok] at hsame
        refine ⟨hdata, fun l hl => ?_⟩
        obtain ⟨list, hlist, hnone⟩ := hsame l hl
        exact ⟨list, hlist, by simpa using hnone⟩
      · intro h
        obtain ⟨hdata, hlists⟩ := h addr entry rfl hentry
        rw [hkept hdata, tellLists_eq_iff hok]
        intro l hl
        obtain ⟨list, hlist, hkey⟩ := hlists l hl
        exact ⟨list, hlist, if_neg hkey⟩

theorem handle_eq_iff (stack : AwareStack) (w : AwareWorld) (msg : Payload)
    (hok : w.srvc.crashed = false) (htruncated : Truncated stack msg) :
    (handle stack msg w).srvc = w.srvc ↔ Idle stack w.srvc msg := by
  unfold handle Idle
  dsimp only
  rcases htruncated with ⟨htype, herror⟩ | ⟨htype, -⟩ | ⟨htype, -⟩
  · have hupdate : msg.1 ≠ msgAwareSnapshot := htype ▸ by decide
    rw [if_neg hupdate, if_pos htype, if_pos htype]
    unfold recvUpdate
    generalize mwAwareSnapshotGet stack.endOfBlock (.wrapOpaque msg.2) = r at herror ⊢
    obtain ⟨snap, b⟩ := r
    dsimp only at herror ⊢
    rw [if_pos herror]
    split
    · exact groupMemberRecv_eq_iff hok ‹_›
    · exact iff_of_true rfl fun hgroup => absurd hgroup ‹_›
  · have hset : msg.1 ≠ msgAwareSnapshot ∧ msg.1 ≠ msgAwareUpdate := by
      rw [htype]
      decide
    rw [if_neg hset.1, if_neg hset.2, if_neg hset.2, if_pos htype, if_pos htype]
    exact attribRecv_eq_iff hok _ _ _
  · have hunset : msg.1 ≠ msgAwareSnapshot ∧ msg.1 ≠ msgAwareUpdate ∧ msg.1 ≠ msgOptGotSet := by
      rw [htype]
      decide
    rw [if_neg hunset.1, if_neg hunset.2.1, if_neg hunset.2.1, if_neg hunset.2.2,
      if_neg hunset.2.2, if_pos htype]
    exact attribRecv_eq_iff hok _ _ _

end

end Aware

/-! ## Both services -/

/-- A message given to a handler of one of the services -/
inductive Given where
  | place (stack : Place.PlaceStack) (p : Place.MwPlace) (msg : Place.Payload)
  | aware (stack : Aware.AwareStack) (w : Aware.AwareWorld) (msg : Aware.Payload)

/-- The get buffer of the handler ends in an error, in a service that has not crashed. -/
def Given.Truncated : Given → Prop
  | .place stack p msg => (Place.receive stack p msg).b.error = true
  | .aware stack w msg => w.srvc.crashed = false ∧ Aware.Truncated stack msg

/-- The service is left as it was, and the client alone. -/
def Given.Ignored : Given → Prop
  | .place stack p msg => Place.Untouched p (Place.receive stack p msg)
  | .aware stack w msg => (Aware.handle stack msg w).srvc = w.srvc

/-- The handler finds nothing to do in what it takes the message for. -/
def Given.Idle : Given → Prop
  | .place stack p msg => Place.Idle stack p msg
  | .aware stack w msg => Aware.Idle stack w.srvc msg

/-- A truncated payload leaves its service as it was, and the client alone, exactly when the
handler happens to find nothing to do. -/
theorem truncated_iff (g : Given) (h : g.Truncated) : g.Ignored ↔ g.Idle := by
  cases g with
  | place stack p msg => exact Place.receive_untouched_iff stack p msg h
  | aware stack w msg => exact Aware.handle_eq_iff stack w msg h.1 h.2

/-- An open place with a member -/
def oneMember : Place.MwPlace where
  state := .opened
  channel := true
  members := fun id => if id = 7 then some { placeId := 7 } else none
  ourId := 2
  section_ := 1

/-- Somebody parts, but the id is half there. -/
def cutPart : Place.Payload :=
  (Place.msgInSection, guint16Put Place.msgInSectionPart ++ [0, 0])

/-- A text of the member that ends after its second letter -/
def cutText : Place.Payload :=
  (Place.msgInMessage, guint32Put 7 ++ guint32Put 0 ++ guint32Put 9 ++ guint32Put 0 ++
    [0, 5, 0x68, 0x65])

/-- Nobody parts whose id is what the variable held, but the text is handed over as none. -/
theorem truncated_iff_cut :
    (Given.place (fun _ => 0) oneMember cutPart).Ignored ∧
      ¬ (Given.place (fun _ => 0) oneMember cutText).Ignored := by
  have hpart : (Given.place (fun _ => 0) oneMember cutPart).Truncated := by
    unfold Given.Truncated
    decide
  have htext : (Given.place (fun _ => 0) oneMember cutText).Truncated := by
    unfold Given.Truncated
    decide
  constructor
  · refine (truncated_iff _ hpart).mpr ?_
    exact fun _ => (by decide : oneMember.members 0 = none)
  · intro hignored
    have hidle : Place.MessageIdle (fun _ => 0) oneMember (.wrapOpaque cutText.2) :=
      (truncated_iff _ htext).mp hignored
    obtain hnobody | hempty := hidle
    · exact absurd hnobody (by decide)
    · exact absurd hempty (by decide)

/-- A response to a join that ends after the first of its words gives the place an id. -/
theorem not_untouched_half : ¬ ∀ g : Given, g.Truncated → g.Ignored := by
  intro h
  have htruncated :
      (Given.place (fun _ => 0) {} (Place.msgInJoinResponse, [0, 0, 0, 7])).Truncated := by
    unfold Given.Truncated
    decide
  have hid := (h _ htruncated).ourId
  exact absurd hid (by decide)

end Meanwhile
