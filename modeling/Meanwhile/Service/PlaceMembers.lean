-- SUMMARY: The member table of a place is what was inserted and has not parted since, and each departure is reported once.
import Meanwhile.Lib.Keeps
import Meanwhile.Service.Counted

/-!
# The members of a place

Members are put into the table by a list of the section and by joining, and taken out
by two messages that each tell of a departure, usually both. `Said` is what such a
message says when it is accepted. A message that is turned down, for its section, says
nothing, which is to insert nobody.

A message is well-formed when all that is read of it is there.
-/

namespace Meanwhile.Place

/-! ## What messages say -/

inductive Said where
  | inserts (pms : List PlaceMember)
  | parts (id : UInt32)
deriving DecidableEq

/-- A list of the section -/
def listTells (section_ : UInt32) : Get Said := fun b =>
  let loop := membersLoop (fun _ => 0) section_ b
  (.inserts loop.built, loop.endFrom loop.count loop.start)

/-- A member that joins -/
def peerJoinTells : Get Said := do
  let section_ ← guint32Get 0
  if section_ = 0 then return .inserts []
  mwGetBufferAdvance 4
  let pm ← memberGet
  return .inserts [pm]

/-- A member that parts -/
def partTells : Get Said := do
  let id ← guint32Get 0
  return .parts id

/-- A member that parts from a section -/
def peerPartTells (section_ : UInt32) : Get Said := do
  let sec ← guint32Get 0
  if sec ≠ section_ then return .inserts []
  partTells

/-- A message about one member, if it is about joining or parting -/
def peerTells (section_ : UInt32) : Get (Option Said) := do
  let subtype ← guint16Get 0
  if ← mwGetBufferError then return none
  if subtype = msgInSectionPeerJoin then some <$> peerJoinTells
  else if subtype = msgInSectionPeerPart then some <$> peerPartTells section_
  else return none

/-- What a message of a section says, if it is of the kinds that are about members -/
def tellsGet (section_ : UInt32) : Get (Option Said) := do
  let subtype ← guint16Get 0
  if ← mwGetBufferError then return none
  if subtype = msgInSectionList then some <$> listTells section_
  else if subtype = msgInSectionPeer then peerTells section_
  else if subtype = msgInSectionPart then some <$> partTells
  else return none

/-- What a well-formed message says to a place of the given section -/
def tells (section_ : UInt32) (msg : Payload) : Option Said :=
  if msg.1 = msgInSection ∧ (tellsGet section_ (.wrapOpaque msg.2)).2.error = false then
    (tellsGet section_ (.wrapOpaque msg.2)).1
  else none

/-- What becomes of an id in the table, unless it stays as it is -/
def Said.effect (id : UInt32) : Said → Option (Option PlaceMember)
  | .inserts pms => (pms.reverse.find? (·.placeId = id)).map some
  | .parts id' => if id' = id then some none else none

def Said.insertsId (id : UInt32) : Said → Bool
  | .inserts pms => pms.any (·.placeId = id)
  | .parts _ => false

def Said.partsId (id : UInt32) : Said → Bool
  | .inserts _ => false
  | .parts id' => id' = id

/-- The calls of `peerParted` that a message leads to -/
def Said.calls (place : MwPlace) : Said → List MwIdBlock
  | .inserts _ => []
  | .parts id => ((place.members id).map (·.idb)).toList

/-- The calls of `peerParted` in a scene -/
def partedCalls (s : Scene) : List MwIdBlock :=
  s.log.filterMap fun e => match e with
    | .peerParted idb => some idb
    | _ => none

/-! ## What a message does -/

/-- Every member stands under its own id. -/
def Keyed (members : UInt32 → Option PlaceMember) : Prop :=
  ∀ id pm, members id = some pm → pm.placeId = id

/-- The place has done what it was told. -/
structure Follows (place : MwPlace) (said : Said) (s : Scene) : Prop where
  section_ : s.place.section_ = place.section_
  members : ∀ id, s.place.members id = (said.effect id).getD (place.members id)
  parted : partedCalls s = said.calls place

theorem putMembers_eq (members : UInt32 → Option PlaceMember) (pms : List PlaceMember)
    (id : UInt32) :
    putMembers members pms id = ((Said.inserts pms).effect id).getD (members id) := by
  induction pms generalizing members with
  | nil => rfl
  | cons pm pms ih =>
    have hput : putMembers members (pm :: pms) =
        putMembers (Function.update members pm.placeId (some pm)) pms := rfl
    rw [hput, ih]
    simp only [Said.effect, List.reverse_cons, List.find?_append]
    cases pms.reverse.find? (·.placeId = id) with
    | some later => rfl
    | none =>
      by_cases hid : pm.placeId = id
      · simp [hid]
      · simp [hid, Function.update_of_ne (Ne.symm hid)]

theorem Follows.keyed {place : MwPlace} {said : Said} {s : Scene} (h : Follows place said s)
    (hkeyed : Keyed place.members) : Keyed s.place.members := by
  intro id pm hpm
  rw [h.members] at hpm
  cases said with
  | parts id' =>
    simp only [Said.effect] at hpm
    split at hpm
    · exact nomatch hpm
    · exact hkeyed id pm hpm
  | inserts pms =>
    simp only [Said.effect] at hpm
    cases hfind : pms.reverse.find? (·.placeId = id) with
    | none =>
      rw [hfind] at hpm
      exact hkeyed id pm hpm
    | some found =>
      rw [hfind] at hpm
      obtain rfl : found = pm := Option.some.inj hpm
      simpa using List.find?_some hfind

theorem memberParted_apply (place : MwPlace) (id : UInt32) (b : GetBuffer) :
    memberParted id { place := place, b := b } =
      match place.members id with
      | none => ((), { place := place, b := b })
      | some pm =>
          ((), { place := { place with members := Function.update place.members pm.placeId none }
                 b := b, log := [.peerParted pm.idb] }) := by
  unfold memberParted
  rw [StateM.bind_apply]
  cases hmember : place.members id <;> simp [getMember, hmember, removeMemberId, modifyPlace, record]

theorem follows_memberParted {place : MwPlace} (hkeyed : Keyed place.members) (id : UInt32)
    (b : GetBuffer) : Follows place (.parts id) (memberParted id { place := place, b := b }).2 := by
  rw [memberParted_apply]
  cases hmember : place.members id with
  | none =>
    refine ⟨rfl, ?_, ?_⟩
    · intro id'
      by_cases hid : id = id'
      · simp [Said.effect, hid, ← hmember]
      · simp [Said.effect, hid]
    · simp [Said.calls, hmember, partedCalls]
  | some pm =>
    obtain rfl := hkeyed id pm hmember
    refine ⟨rfl, ?_, ?_⟩
    · intro id'
      by_cases hid : pm.placeId = id'
      · simp [Said.effect, hid]
      · simp [Said.effect, hid, Function.update_of_ne (Ne.symm hid)]
    · simp [Said.calls, hmember, partedCalls]

/-- The section and the departures stay as they are. -/
def Steady (s s' : Scene) : Prop :=
  s'.place.section_ = s.place.section_ ∧ partedCalls s' = partedCalls s

instance : Std.Refl Steady where
  refl := fun _ => ⟨rfl, rfl⟩

instance : IsTrans Scene Steady where
  trans := fun _ _ _ h h' => ⟨h'.1.trans h.1, h'.2.trans h.2⟩

theorem steady_read {α : Type} (g : Get α) : Keeps Steady (read g) := fun _ => ⟨rfl, rfl⟩

theorem steady_putMember (pm : PlaceMember) : Keeps Steady (putMember pm) := fun _ => ⟨rfl, rfl⟩

theorem steady_placeOpened : Keeps Steady placeOpened := by
  refine .bind ?_ fun _ _ => ⟨rfl, rfl⟩
  refine .bind .get fun s => .ite (fun _ => .pure _) fun _ => ?_
  exact .bind (fun _ => ⟨rfl, rfl⟩) fun _ _ => ⟨rfl, rfl⟩

theorem steady_listMembers (count : Nat) : Keeps Steady (listMembers count) := by
  induction count with
  | zero => exact .pure _
  | succ count ih =>
    refine .bind (steady_read _) fun _ => .bind (steady_read _) fun m => ?_
    exact .bind (steady_putMember m) fun _ => ih

section

variable (stack : PlaceStack)

theorem steady_recvSectionList : Keeps Steady (recvSectionList stack) := by
  refine .bind (steady_read _) fun _ => .bind (steady_read _) fun sec => ?_
  refine .bind .get fun s => .ite (fun _ => .pure _) fun _ => ?_
  refine .bind (steady_read _) fun _ => .bind (steady_read _) fun count => ?_
  refine .bind (steady_read _) fun _ => .bind (steady_listMembers _) fun _ => ?_
  exact .bind .get fun s => .ite (fun _ => steady_placeOpened) fun _ => .pure _

variable {place : MwPlace} {b : GetBuffer}

/-- A message that is turned down -/
theorem follows_nothing (place : MwPlace) (b : GetBuffer) :
    Follows place (.inserts []) { place := place, b := b } := ⟨rfl, fun _ => rfl, rfl⟩

theorem follows_recvSectionPart (hkeyed : Keyed place.members) (hb : b.Sound)
    (hok : (partTells b).2.error = false) :
    Follows place (partTells b).1 (recvSectionPart stack { place := place, b := b }).2 := by
  have heq := hb.guint32Get_eq (stack .partId) hok
  unfold recvSectionPart
  rw [StateM.bind_apply]
  show Follows place (.parts (guint32Get 0 b).1)
    (memberParted (guint32Get (stack .partId) b).1 { place := place, b := _ }).2
  rw [heq]
  exact follows_memberParted hkeyed _ _

theorem follows_recvSectionPeerPart (hkeyed : Keyed place.members) (hb : b.Sound)
    (hok : (peerPartTells place.section_ b).2.error = false) :
    Follows place (peerPartTells place.section_ b).1
      (recvSectionPeerPart stack { place := place, b := b }).2 := by
  unfold peerPartTells at hok ⊢
  unfold recvSectionPeerPart
  rw [Get.bind_apply, Get.ite_apply] at hok ⊢
  rw [StateM.bind_apply, StateM.get_bind, StateM.ite_apply]
  have hword : (guint32Get 0 b).2.error = false := by
    split at hok
    · exact hok
    · exact (Get.Uses.guint32 0 _ hok).1
  have heq := hb.guint32Get_eq (stack .peerPartSection) hword
  have hread : read (guint32Get (stack .peerPartSection)) { place := place, b := b } =
      ((guint32Get 0 b).1, { place := place, b := (guint32Get 0 b).2 }) := by
    rw [← heq]
    rfl
  rw [hread]
  dsimp only
  split
  · exact follows_nothing place _
  · rename_i hsec
    rw [if_neg hsec] at hok
    have hid := (hb.guint32 0).guint32Get_eq (stack .peerPartId) hok
    rw [StateM.bind_apply]
    show Follows place (.parts (guint32Get 0 (guint32Get 0 b).2).1)
      (memberParted (guint32Get (stack .peerPartId) (guint32Get 0 b).2).1 { place := place, b := _ }).2
    rw [hid]
    exact follows_memberParted hkeyed _ _

/-- Opening the place is no matter of its members. -/
theorem placeOpened_members (s : Scene) : (placeOpened s).2.place.members = s.place.members := by
  simp only [placeOpened, placeState, StateM.bind_apply, StateM.ite_apply]
  split <;> rfl

/-- What `recv_SECTION_PEER_JOIN` does with the member it has read -/
theorem follows_joined (pm : PlaceMember) (b : GetBuffer) :
    Follows place (.inserts [pm])
      ((do
        putMember pm
        record (.peerJoined pm.idb)
        if pm.placeId = (← get).place.ourId then placeOpened : PlaceM Unit)
          { place := place, b := b }).2 := by
  have hput : ∀ id, Function.update place.members pm.placeId (some pm) id =
      ((Said.inserts [pm]).effect id).getD (place.members id) := putMembers_eq place.members [pm]
  rw [StateM.bind_apply, StateM.bind_apply, StateM.get_bind, StateM.ite_apply]
  split
  · have hsteady := steady_placeOpened
      (record (.peerJoined pm.idb) (putMember pm { place := place, b := b }).2).2
    exact ⟨hsteady.1, fun id => (congrFun (placeOpened_members _) id).trans (hput id), hsteady.2⟩
  · exact ⟨rfl, hput, rfl⟩

theorem follows_recvSectionPeerJoin (hb : b.Sound) (hok : (peerJoinTells b).2.error = false) :
    Follows place (peerJoinTells b).1 (recvSectionPeerJoin stack { place := place, b := b }).2 := by
  have hword : (guint32Get 0 b).2.error = false := by
    unfold peerJoinTells at hok
    rw [Get.bind_apply, Get.ite_apply] at hok
    split at hok
    · exact hok
    · have huses := (Get.Uses.advance 4).bind fun _ => memberGet_uses.bind_left fun pm =>
        Get.Uses.pure (Said.inserts [pm])
      exact (huses _ hok).1
  have heq := hb.guint32Get_eq (stack .peerJoinSection) hword
  have hread : read (guint32Get (stack .peerJoinSection)) { place := place, b := b } =
      ((guint32Get 0 b).1, { place := place, b := (guint32Get 0 b).2 }) := by
    rw [← heq]
    rfl
  unfold recvSectionPeerJoin
  rw [StateM.bind_apply, hread]
  dsimp only
  by_cases hzero : (guint32Get 0 b).1 = 0
  · have htells : (peerJoinTells b).1 = .inserts [] := by simp [peerJoinTells, hzero]
    rw [htells, if_pos hzero]
    exact follows_nothing place _
  · have htells : (peerJoinTells b).1 =
        .inserts [(memberGet (mwGetBufferAdvance 4 (guint32Get 0 b).2).2).1] := by
      simp [peerJoinTells, hzero]
    rw [htells, if_neg hzero]
    exact follows_joined _ _

theorem endFrom_error {α : Type} (loop : CountedLoop α) {count : Nat} {b : GetBuffer}
    (hok : (loop.endFrom count b).error = false) : b.error = false := by
  induction count generalizing b with
  | zero => exact hok
  | succ count ih => exact (loop.uses count b (ih hok)).1

/-- The count of a list that can be read does not depend on the variables. -/
theorem listCountGet_eq (hb : b.Sound) {section_ : UInt32}
    (hok : (listCountGet (fun _ => 0) section_ b).2.error = false) :
    listCountGet stack section_ b = listCountGet (fun _ => 0) section_ b := by
  unfold listCountGet at hok ⊢
  rw [Get.bind_apply, Get.bind_apply, Get.ite_apply] at hok
  rw [Get.bind_apply, Get.bind_apply, Get.bind_apply, Get.bind_apply]
  have hadvance := hb.advance 4
  have hsection : (guint32Get 0 (mwGetBufferAdvance 4 b).2).2.error = false := by
    split at hok
    · exact hok
    · have huses := (Get.Uses.advance 8).bind fun _ => (Get.Uses.guint32 0).bind fun count =>
        (Get.Uses.advance 8).bind fun _ => Get.Uses.pure count
      exact (huses _ hok).1
  rw [hadvance.guint32Get_eq (stack .listSection) hsection, Get.ite_apply, Get.ite_apply]
  split
  · rfl
  · rename_i hsec
    rw [if_neg hsec, Get.bind_apply, Get.bind_apply] at hok
    have hcount : (guint32Get 0 (mwGetBufferAdvance 8
        (guint32Get 0 (mwGetBufferAdvance 4 b).2).2).2).2.error = false := by
      have huses := (Get.Uses.advance 8).bind fun _ =>
        Get.Uses.pure (guint32Get 0 (mwGetBufferAdvance 8
          (guint32Get 0 (mwGetBufferAdvance 4 b).2).2).2).1
      exact (huses _ hok).1
    rw [Get.bind_apply, Get.bind_apply, Get.bind_apply, Get.bind_apply,
      ((hadvance.guint32 0).advance 8).guint32Get_eq (stack .listCount) hcount]
    rfl

theorem follows_recvSectionList (hb : b.Sound)
    (hok : (listTells place.section_ b).2.error = false) :
    Follows place (listTells place.section_ b).1
      (recvSectionList stack { place := place, b := b }).2 := by
  have hstart := endFrom_error _ hok
  have hloop : membersLoop stack place.section_ b = membersLoop (fun _ => 0) place.section_ b := by
    unfold membersLoop
    rw [listCountGet_eq stack hb hstart]
  have hsteady := steady_recvSectionList stack { place := place, b := b }
  refine ⟨hsteady.1, ?_, hsteady.2⟩
  intro id
  rw [recvSectionList_members, hloop]
  exact putMembers_eq place.members _ id

theorem follows_recvSectionPeer {said : Said} (hkeyed : Keyed place.members) (hb : b.Sound)
    (htells : (peerTells place.section_ b).1 = some said)
    (hok : (peerTells place.section_ b).2.error = false) :
    Follows place said (recvSectionPeer stack { place := place, b := b }).2 := by
  have hread : read (guint16Get 0) { place := place, b := b } =
      ((guint16Get 0 b).1, { place := place, b := (guint16Get 0 b).2 }) := rfl
  unfold peerTells at htells hok
  rw [Get.bind_apply, mwGetBufferError_bind, Get.ite_apply] at htells hok
  unfold recvSectionPeer
  rw [StateM.bind_apply, hread, StateM.get_bind, StateM.ite_apply]
  dsimp only
  split at hok
  case isTrue herror => exact absurd hok (by simp [herror])
  case isFalse herror =>
    rw [if_neg herror] at htells ⊢
    have hb' := hb.guint16 0
    by_cases hjoin : (guint16Get 0 b).1 = msgInSectionPeerJoin
    · rw [if_pos hjoin] at htells hok ⊢
      obtain rfl : (peerJoinTells (guint16Get 0 b).2).1 = said := Option.some.inj htells
      exact follows_recvSectionPeerJoin stack hb' hok
    · rw [if_neg hjoin] at htells hok ⊢
      by_cases hpart : (guint16Get 0 b).1 = msgInSectionPeerPart
      · rw [if_pos hpart] at htells hok ⊢
        obtain rfl : (peerPartTells place.section_ (guint16Get 0 b).2).1 = said :=
          Option.some.inj htells
        exact follows_recvSectionPeerPart stack hkeyed hb' hok
      · rw [if_neg hpart] at htells
        exact nomatch htells

/-- A place does what a well-formed message tells it. -/
theorem follows_receive {said : Said} {msg : Payload} (hkeyed : Keyed place.members)
    (htells : tells place.section_ msg = some said) :
    Follows place said (receive stack place msg) := by
  obtain ⟨type, data⟩ := msg
  unfold tells at htells
  split at htells
  case isFalse => exact nomatch htells
  case isTrue hformed =>
    obtain ⟨rfl, hok⟩ := hformed
    have hb := GetBuffer.Sound.wrapOpaque data
    have hrecv : recv stack msgInSection = recvSection stack := rfl
    unfold receive
    dsimp only at htells hok ⊢
    rw [hrecv]
    generalize GetBuffer.wrapOpaque data = b at htells hok hb ⊢
    have hread : read (guint16Get 0) { place := place, b := b } =
        ((guint16Get 0 b).1, { place := place, b := (guint16Get 0 b).2 }) := rfl
    unfold tellsGet at htells hok
    rw [Get.bind_apply, mwGetBufferError_bind, Get.ite_apply] at htells hok
    unfold recvSection
    rw [StateM.bind_apply, hread, StateM.get_bind, StateM.ite_apply]
    dsimp only
    split at hok
    case isTrue herror => exact absurd hok (by simp [herror])
    case isFalse herror =>
      rw [if_neg herror] at htells ⊢
      have hb' := hb.guint16 0
      by_cases hlist : (guint16Get 0 b).1 = msgInSectionList
      · rw [if_pos hlist] at htells hok ⊢
        obtain rfl : (listTells place.section_ (guint16Get 0 b).2).1 = said :=
          Option.some.inj htells
        exact follows_recvSectionList stack hb' hok
      · rw [if_neg hlist] at htells hok ⊢
        by_cases hpeer : (guint16Get 0 b).1 = msgInSectionPeer
        · rw [if_pos hpeer] at htells hok ⊢
          exact follows_recvSectionPeer stack hkeyed hb' htells hok
        · rw [if_neg hpeer] at htells hok ⊢
          by_cases hpart : (guint16Get 0 b).1 = msgInSectionPart
          · rw [if_pos hpart] at htells hok ⊢
            obtain rfl : (partTells (guint16Get 0 b).2).1 = said := Option.some.inj htells
            exact follows_recvSectionPart stack hkeyed hb' hok
          · rw [if_neg hpart] at htells
            exact nomatch htells

end

/-! ## Messages in any order -/

/-- A message, with what the variables of its handlers hold -/
abbrev Delivery := PlaceStack × Payload

/-- The place after some messages -/
def receiveAll (place : MwPlace) (msgs : List Delivery) : MwPlace :=
  msgs.foldl (fun place m => (receive m.1 place m.2).place) place

/-- The messages are of the four kinds, and all there. -/
def WellFormed (section_ : UInt32) (msgs : List Delivery) : Prop :=
  ∀ m ∈ msgs, (tells section_ m.2).isSome

/-- The message is accepted and inserts the id. -/
def Inserts (section_ id : UInt32) (m : Delivery) : Bool := (tells section_ m.2).any (·.insertsId id)

/-- The message is accepted and tells that the id parts. -/
def Parts (section_ id : UInt32) (m : Delivery) : Bool := (tells section_ m.2).any (·.partsId id)

/-- The calls of `peerParted` for an id while some messages are received -/
def reports (id : UInt32) : MwPlace → List Delivery → Nat
  | _, [] => 0
  | place, m :: msgs =>
      (if Parts place.section_ id m then (partedCalls (receive m.1 place m.2)).length else 0) +
        reports id (receive m.1 place m.2).place msgs

theorem receiveAll_append (place : MwPlace) (msgs msgs' : List Delivery) :
    receiveAll place (msgs ++ msgs') = receiveAll (receiveAll place msgs) msgs' :=
  List.foldl_append

/-- A message inserts an id, parts it, or leaves it alone. -/
theorem Said.effect_cases (said : Said) (id : UInt32) :
    (said.insertsId id = true ∧ said.partsId id = false ∧ ∃ pm, said.effect id = some (some pm)) ∨
    (said.insertsId id = false ∧ said.partsId id = true ∧ said.effect id = some none) ∨
    (said.insertsId id = false ∧ said.partsId id = false ∧ said.effect id = none) := by
  cases said with
  | parts id' =>
    by_cases hid : id' = id
    · exact .inr (.inl (by simp [insertsId, partsId, effect, hid]))
    · exact .inr (.inr (by simp [insertsId, partsId, effect, hid]))
  | inserts pms =>
    cases hfind : pms.reverse.find? (·.placeId = id) with
    | some pm =>
      refine .inl ⟨?_, rfl, pm, by simp [effect, hfind]⟩
      have hid := List.find?_some hfind
      exact List.any_eq_true.mpr ⟨pm, List.mem_reverse.mp (List.mem_of_find?_eq_some hfind), hid⟩
    | none =>
      refine .inr (.inr ⟨?_, rfl, by simp [effect, hfind]⟩)
      have hnone := List.find?_eq_none.mp hfind
      exact List.any_eq_false.mpr fun pm hpm => hnone pm (List.mem_reverse.mpr hpm)

section

variable {place : MwPlace} {m : Delivery} {msgs : List Delivery} {id : UInt32}

/-- One message: what it tells, and that the place follows. -/
theorem follows_delivery (id : UInt32) (hkeyed : Keyed place.members) (hm : (tells place.section_ m.2).isSome) :
    ∃ said, tells place.section_ m.2 = some said ∧ Inserts place.section_ id m = said.insertsId id ∧
      Parts place.section_ id m = said.partsId id ∧
      Follows place said (receive m.1 place m.2) := by
  obtain ⟨said, hsaid⟩ := Option.isSome_iff_exists.mp hm
  refine ⟨said, hsaid, ?_, ?_, follows_receive m.1 hkeyed hsaid⟩
  · rw [Inserts, hsaid, Option.any_some]
  · rw [Parts, hsaid, Option.any_some]

/-- The section stays, and members stay under their own ids. -/
theorem receiveAll_keyed (hkeyed : Keyed place.members) (hformed : WellFormed place.section_ msgs) :
    (receiveAll place msgs).section_ = place.section_ ∧ Keyed (receiveAll place msgs).members := by
  induction msgs generalizing place with
  | nil => exact ⟨rfl, hkeyed⟩
  | cons m msgs ih =>
    obtain ⟨hm, hmsgs⟩ := List.forall_mem_cons.mp hformed
    obtain ⟨said, -, -, -, hfollows⟩ := follows_delivery 0 hkeyed hm
    have hrest := ih (hfollows.keyed hkeyed) (by rw [hfollows.section_]; exact hmsgs)
    exact ⟨hrest.1.trans hfollows.section_, hrest.2⟩

theorem reports_of_absent (hkeyed : Keyed place.members) (hformed : WellFormed place.section_ msgs)
    (hinserts : ∀ m ∈ msgs, Inserts place.section_ id m = false)
    (habsent : place.members id = none) : reports id place msgs = 0 := by
  induction msgs generalizing place with
  | nil => rfl
  | cons m msgs ih =>
    obtain ⟨hm, hmsgs⟩ := List.forall_mem_cons.mp hformed
    obtain ⟨hno, hnone⟩ := List.forall_mem_cons.mp hinserts
    obtain ⟨said, hsaid, hins, hparts, hfollows⟩ := follows_delivery id hkeyed hm
    have hcalls : Parts place.section_ id m = true → partedCalls (receive m.1 place m.2) = [] := by
      intro hpart
      rw [hfollows.parted]
      rw [hparts] at hpart
      cases said with
      | inserts pms => rfl
      | parts id' =>
        obtain rfl : id' = id := by simpa [Said.partsId] using hpart
        simp [Said.calls, habsent]
    have hstill : (receive m.1 place m.2).place.members id = none := by
      rw [hfollows.members, habsent]
      rcases said.effect_cases id with ⟨h, -, -⟩ | ⟨-, -, h⟩ | ⟨-, -, h⟩
      · exact absurd (hins.symm.trans hno) (by simp [h])
      · rw [h]; rfl
      · rw [h]; rfl
    have hrest := ih (hfollows.keyed hkeyed) (by rw [hfollows.section_]; exact hmsgs)
      (by rw [hfollows.section_]; exact hnone) hstill
    rw [reports, hrest]
    split
    case isTrue hpart => rw [hcalls hpart]; rfl
    case isFalse => rfl

theorem reports_of_present (hkeyed : Keyed place.members)
    (hformed : WellFormed place.section_ msgs)
    (hinserts : ∀ m ∈ msgs, Inserts place.section_ id m = false)
    (hpresent : (place.members id).isSome) :
    reports id place msgs = if msgs.any (Parts place.section_ id) then 1 else 0 := by
  induction msgs generalizing place with
  | nil => rfl
  | cons m msgs ih =>
    obtain ⟨hm, hmsgs⟩ := List.forall_mem_cons.mp hformed
    obtain ⟨hno, hnone⟩ := List.forall_mem_cons.mp hinserts
    obtain ⟨said, hsaid, hins, hparts, hfollows⟩ := follows_delivery id hkeyed hm
    have hkeyed' := hfollows.keyed hkeyed
    have hmsgs' : WellFormed (receive m.1 place m.2).place.section_ msgs := by
      rw [hfollows.section_]
      exact hmsgs
    have hnone' : ∀ x ∈ msgs, Inserts (receive m.1 place m.2).place.section_ id x = false := by
      rw [hfollows.section_]
      exact hnone
    rw [reports, List.any_cons]
    rcases said.effect_cases id with ⟨h, -, -⟩ | ⟨-, hpart, heffect⟩ | ⟨-, hpart, heffect⟩
    · exact absurd (hins.symm.trans hno) (by simp [h])
    · -- the member parts: it is reported now, and not again
      have hgone : (receive m.1 place m.2).place.members id = none := by
        rw [hfollows.members, heffect]
        rfl
      have hcalls : (partedCalls (receive m.1 place m.2)).length = 1 := by
        rw [hfollows.parted]
        cases said with
        | inserts pms => exact nomatch hpart
        | parts id' =>
          obtain rfl : id' = id := by simpa [Said.partsId] using hpart
          obtain ⟨pm, hpm⟩ := Option.isSome_iff_exists.mp hpresent
          simp [Said.calls, hpm]
      rw [reports_of_absent hkeyed' hmsgs' hnone' hgone, hparts, hpart, hcalls]
      rfl
    · have hstill : ((receive m.1 place m.2).place.members id).isSome := by
        rw [hfollows.members, heffect]
        exact hpresent
      rw [ih hkeyed' hmsgs' hnone' hstill, hparts, hpart, hfollows.section_, Bool.false_or]
      exact Nat.zero_add _

omit place in
/-- The message at a split of a list with one more at its end is that one, or stands
before it. -/
theorem snoc_split {last : Delivery} {before after : List Delivery}
    (h : msgs ++ [last] = before ++ m :: after) :
    (last = m ∧ after = []) ∨ ∃ after', after = after' ++ [last] ∧ msgs = before ++ m :: after' := by
  rcases List.eq_nil_or_concat after with rfl | ⟨after', x, rfl⟩
  · obtain ⟨-, rfl⟩ : msgs = before ∧ last = m := by simpa using List.append_inj' h rfl
    exact .inl ⟨rfl, rfl⟩
  · have hassoc : msgs ++ [last] = (before ++ m :: after') ++ [x] := by simpa using h
    obtain ⟨rfl, rfl⟩ : msgs = before ++ m :: after' ∧ last = x := by
      simpa using List.append_inj' hassoc rfl
    exact .inr ⟨after', by simp, rfl⟩

/-- An id is in the table if it was inserted and has not parted since. -/
theorem members_isSome_iff (hempty : ∀ id, place.members id = none)
    (hformed : WellFormed place.section_ msgs) :
    ((receiveAll place msgs).members id).isSome ↔
      ∃ before m after, msgs = before ++ m :: after ∧ Inserts place.section_ id m ∧
        ∀ x ∈ after, Parts place.section_ id x = false := by
  have hkeyed : Keyed place.members := fun id pm h => nomatch (hempty id).symm.trans h
  induction msgs using List.reverseRecOn with
  | nil =>
    refine iff_of_false (by simp [receiveAll, hempty]) ?_
    rintro ⟨before, m, after, h, -⟩
    exact absurd h (by simp)
  | append_singleton msgs last ih =>
    have hmsgs : WellFormed place.section_ msgs := fun m hm => hformed m (by simp [hm])
    obtain ⟨hsection, hkeyed'⟩ := receiveAll_keyed hkeyed hmsgs
    have hlast : (tells (receiveAll place msgs).section_ last.2).isSome := by
      rw [hsection]
      exact hformed last (by simp)
    obtain ⟨said, -, hins, hparts, hfollows⟩ := follows_delivery id hkeyed' hlast
    rw [hsection] at hins hparts
    have hstep : (receiveAll place (msgs ++ [last])).members id =
        (said.effect id).getD ((receiveAll place msgs).members id) := by
      rw [receiveAll_append]
      exact hfollows.members id
    rw [hstep]
    rcases said.effect_cases id with ⟨hi, -, pm, he⟩ | ⟨hi, hp, he⟩ | ⟨hi, hp, he⟩
    · refine iff_of_true (by rw [he]; rfl) ⟨msgs, last, [], rfl, hins.trans hi, ?_⟩
      exact fun x hx => nomatch hx
    · refine iff_of_false (by rw [he]; exact Bool.false_ne_true) ?_
      rintro ⟨before, m, after, hsplit, hm, hafter⟩
      obtain ⟨rfl, -⟩ | ⟨after', rfl, -⟩ := snoc_split hsplit
      · exact absurd (hm.symm.trans (hins.trans hi)) (by decide)
      · exact absurd ((hafter last (by simp)).symm.trans (hparts.trans hp)) (by decide)
    · rw [he, Option.getD_none]
      refine Iff.trans (ih hmsgs) ?_
      constructor
      · rintro ⟨before, m, after, rfl, hm, hafter⟩
        refine ⟨before, m, after ++ [last], by simp, hm, ?_⟩
        intro x hx
        rcases List.mem_append.mp hx with hx | hx
        · exact hafter x hx
        · obtain rfl := List.mem_singleton.mp hx
          exact hparts.trans hp
      · rintro ⟨before, m, after, hsplit, hm, hafter⟩
        obtain ⟨rfl, -⟩ | ⟨after', rfl, rfl⟩ := snoc_split hsplit
        · exact absurd (hm.symm.trans (hins.trans hi)) (by decide)
        · exact ⟨before, m, after', rfl, hm, fun y hy => hafter y (by simp [hy])⟩

/-- Whatever order well-formed messages come in, the table holds those that were
inserted and have not parted since; a departure is reported for the member in the table
that it is about, and once from one insertion to the next. -/
theorem receiveAll_follows (hempty : ∀ id, place.members id = none)
    (hformed : WellFormed place.section_ msgs) :
    (∀ id, ((receiveAll place msgs).members id).isSome ↔
      ∃ before m after, msgs = before ++ m :: after ∧ Inserts place.section_ id m ∧
        ∀ x ∈ after, Parts place.section_ id x = false) ∧
    (∀ before m after, msgs = before ++ m :: after →
      ∃ said, tells place.section_ m.2 = some said ∧
        partedCalls (receive m.1 (receiveAll place before) m.2) =
          said.calls (receiveAll place before)) ∧
    (∀ id before m between after, msgs = before ++ m :: (between ++ after) →
      Inserts place.section_ id m → (∀ x ∈ between, Inserts place.section_ id x = false) →
      reports id (receiveAll place (before ++ [m])) between =
        if between.any (Parts place.section_ id) then 1 else 0) := by
  have hkeyed : Keyed place.members := fun id pm h => nomatch (hempty id).symm.trans h
  refine ⟨fun id => members_isSome_iff hempty hformed, ?_, ?_⟩
  · rintro before m after rfl
    obtain ⟨hsection, hkeyed'⟩ := receiveAll_keyed hkeyed
      (fun x hx => hformed x (List.mem_append_left _ hx))
    have hm := hformed m (by simp)
    obtain ⟨said, hsaid, -, -, hfollows⟩ := follows_delivery 0 hkeyed' (by rw [hsection]; exact hm)
    rw [hsection] at hsaid
    exact ⟨said, hsaid, hfollows.parted⟩
  · rintro id before m between after rfl hinserts hbetween
    have hbefore : WellFormed place.section_ (before ++ [m]) := by
      intro x hx
      refine hformed x ?_
      rcases List.mem_append.mp hx with hx | hx
      · exact List.mem_append_left _ hx
      · exact List.mem_append_right _ (List.mem_singleton.mp hx ▸ List.mem_cons_self)
    have hmiddle : WellFormed place.section_ between := fun x hx => hformed x (by simp [hx])
    obtain ⟨hsection, hkeyed'⟩ := receiveAll_keyed hkeyed hbefore
    have hpresent : ((receiveAll place (before ++ [m])).members id).isSome :=
      (members_isSome_iff hempty hbefore).mpr
        ⟨before, m, [], rfl, hinserts, fun x hx => nomatch hx⟩
    rw [reports_of_present hkeyed' (by rw [hsection]; exact hmiddle)
      (by rw [hsection]; exact hbetween) hpresent, hsection]

end

/-- Member 5 joins section 1 and parts, which both kinds of message tell. -/
def joinAndPart : List Delivery :=
  [(fun _ => 0, (msgInSection,
      [0, 1, 0, 0, 0, 0, 0, 1, 0, 0, 0, 0, 0, 0, 0, 5, 0, 0, 0, 0, 0, 0, 0, 0, 0, 0, 0, 0,
        0, 0, 0, 0, 0, 0, 0, 0])),
    (fun _ => 7, (msgInSection, [0, 1, 0, 1, 0, 0, 0, 1, 0, 0, 0, 5])),
    (fun _ => 9, (msgInSection, [0, 3, 0, 0, 0, 5]))]

theorem joinAndPart_wellFormed : WellFormed 1 joinAndPart := by
  unfold WellFormed joinAndPart
  decide

theorem receiveAll_follows_joinAndPart :
    reports 5 (receiveAll { section_ := 1 } (joinAndPart.take 1)) (joinAndPart.drop 1) = 1 := by
  have hempty : ∀ id, MwPlace.members { section_ := 1 } id = none := fun _ => rfl
  have h := (receiveAll_follows hempty joinAndPart_wellFormed).2.2
  exact h 5 [] (joinAndPart.headI) (joinAndPart.drop 1) [] rfl (by decide) (by decide)

end Meanwhile.Place
