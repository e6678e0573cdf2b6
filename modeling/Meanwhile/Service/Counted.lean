-- SUMMARY: The five decoders of counted lists build as many elements as are announced, data or no data.
import Meanwhile.Common.Reading
import Meanwhile.Message.Announce
import Meanwhile.Service.Place
import Meanwhile.Service.Resolve

/-!
# Counted lists

`enc_offer_get` looks at the error flag of its buffer before each item it reads. The
other decoders of counted lists do not. For each of them there is its loop, with the
count that it goes by and the buffer that it starts with, and the lemma that what it
builds is what the decoder returns.
-/

namespace Meanwhile

open Resolve Place

/-! ## Announcements -/

/-- The count of recipients, after all that `ANNOUNCE_get` reads before it -/
def announceCountGet (u : Uninit) : Get UInt32 := do
  let senderPresent ← gbooleanGet false
  let _ ← if senderPresent then mwLoginInfoGet {} else pure {}
  let _ ← guint16Get 0
  let _ ← mwOpaqueGet
  guint32Get u.count

/-- The loop of `ANNOUNCE_get` -/
def announceLoop (u : Uninit) (b : GetBuffer) : CountedLoop MwString where
  get := fun _ => mwStringGet
  uses := fun _ => Get.Uses.string
  count := (announceCountGet u b).1.toNat
  start := (announceCountGet u b).2

theorem recipientsGet_eq (loop : CountedLoop MwString) (hget : ∀ i, loop.get i = mwStringGet)
    (count : Nat) (acc : List MwString) (b : GetBuffer) :
    recipientsGet count acc b = ((loop.builtFrom count b).reverse ++ acc, loop.endFrom count b) := by
  induction count generalizing acc b with
  | zero => rfl
  | succ count ih =>
    rw [recipientsGet, Get.bind_apply, ih, CountedLoop.builtFrom, CountedLoop.endFrom, hget]
    simp

theorem announceGet_recipients (u : Uninit) (b : GetBuffer) :
    (announceGet u b).1.recipients =
      (recipientsGet (announceCountGet u b).1.toNat [] (announceCountGet u b).2).1 := by
  unfold announceGet announceCountGet
  cases hsender : (gbooleanGet false b).1 with
  | false =>
    simp only [Get.bind_apply, hsender, Bool.false_eq_true, if_false]
    rfl
  | true =>
    simp only [Get.bind_apply, hsender, if_true]
    rfl

theorem announceGet_built (u : Uninit) (b : GetBuffer) :
    (announceGet u b).1.recipients = (announceLoop u b).built.reverse := by
  rw [announceGet_recipients, recipientsGet_eq (announceLoop u b) fun _ => rfl, List.append_nil]
  rfl

/-! ## Privacy lists -/

/-- The count of users, after all that `mwPrivacyInfo_get` reads before it. With an
error before, the loop is not reached. -/
def privacyCountGet (info : MwPrivacyInfo) : Get UInt32 := do
  if ← mwGetBufferError then return 0
  let _ ← gbooleanGet info.deny
  guint32Get info.count

/-- The loop of `mwPrivacyInfo_get` -/
def privacyLoop (info : MwPrivacyInfo) (b : GetBuffer) : CountedLoop MwUserItem where
  get := fun _ => mwUserItemGet {}
  uses := fun _ => (Get.Uses.userItem {}).of_le (by decide)
  count := (privacyCountGet info b).1.toNat
  start := (privacyCountGet info b).2

theorem mwUserItemsGet_eq (loop : CountedLoop MwUserItem)
    (hget : ∀ i, loop.get i = mwUserItemGet {}) (count : Nat) (acc : List MwUserItem)
    (b : GetBuffer) :
    mwUserItemsGet count acc b =
      ((loop.builtFrom count b).reverse ++ acc, loop.endFrom count b) := by
  induction count generalizing acc b with
  | zero => rfl
  | succ count ih =>
    rw [mwUserItemsGet, Get.bind_apply, ih, CountedLoop.builtFrom, CountedLoop.endFrom, hget]
    simp

theorem mwPrivacyInfoGet_users (info : MwPrivacyInfo) (b : GetBuffer) :
    (mwPrivacyInfoGet info b).1.users =
      if (privacyCountGet info b).1 = 0 then info.users
      else (mwUserItemsGet (privacyCountGet info b).1.toNat [] (privacyCountGet info b).2).1 := by
  unfold mwPrivacyInfoGet privacyCountGet
  rw [mwGetBufferError_bind, Get.ite_apply, mwGetBufferError_bind, Get.ite_apply]
  cases b.error with
  | true => rfl
  | false =>
    simp only [Bool.false_eq_true, if_false, Get.bind_apply]
    by_cases hzero : (guint32Get info.count (gbooleanGet info.deny b).2).1 = 0
    · simp [hzero]
    · simp [hzero]

/-- The array of users is replaced if there is to be one at all. -/
theorem mwPrivacyInfoGet_built (info : MwPrivacyInfo) (b : GetBuffer) :
    (mwPrivacyInfoGet info b).1.users =
      if (privacyCountGet info b).1 = 0 then info.users
      else (privacyLoop info b).built.reverse := by
  rw [mwPrivacyInfoGet_users, mwUserItemsGet_eq (privacyLoop info b) fun _ => rfl, List.append_nil]
  rfl

/-! ## Results of a search -/

/-- One turn of `load_matches` -/
def matchGet : Get MwResolveMatch := do
  let id ← mwStringGet
  let name ← mwStringGet
  let desc ← mwStringGet
  let type ← guint32Get 0
  return { id := id, name := name, desc := desc, type := type }

theorem matchGet_uses : matchGet.Uses 2 := by
  refine Get.Uses.string.bind_left fun _ => ?_
  refine (Get.Uses.string.bind_left fun _ => ?_).of_le (Nat.zero_le _)
  refine (Get.Uses.string.bind_left fun _ => ?_).of_le (Nat.zero_le _)
  exact ((Get.Uses.guint32 0).bind_left fun _ => Get.Uses.pure _).of_le (Nat.zero_le _)

/-- The loop of `load_matches` -/
def matchesLoop (count : Nat) (b : GetBuffer) : CountedLoop MwResolveMatch where
  get := fun _ => matchGet
  uses := fun _ => matchGet_uses
  count := count
  start := b

theorem loadMatches_eq (loop : CountedLoop MwResolveMatch) (hget : ∀ i, loop.get i = matchGet)
    (count : Nat) (b : GetBuffer) :
    loadMatches count b = (loop.builtFrom count b, loop.endFrom count b) := by
  induction count generalizing b with
  | zero => rfl
  | succ count ih =>
    simp only [loadMatches, CountedLoop.builtFrom, CountedLoop.endFrom, hget, Get.bind_apply, ih,
      Get.pure_apply, matchGet]

theorem loadMatches_built (count : Nat) (b : GetBuffer) :
    (loadMatches count b).1 = (matchesLoop count b).built := by
  rw [loadMatches_eq (matchesLoop count b) fun _ => rfl]
  rfl

/-- What `load_results` reads of a result before its matches -/
def resultHeadGet (stack : UInt32) : Get (UInt32 × MwString × UInt32) := do
  let _ ← guint32Get 0
  let code ← guint32Get 0
  let name ← mwStringGet
  let matches_ ← guint32Get stack
  return (code, name, matches_)

/-- One turn of `load_results` -/
def resultGet (stack : UInt32) : Get MwResolveResult := do
  let (code, name, matches_) ← resultHeadGet stack
  let found ← loadMatches matches_.toNat
  return { code := code, name := name, matches_ := found }

theorem loadMatches_uses (count : Nat) : (loadMatches count).Uses 0 := by
  induction count with
  | zero => exact Get.Uses.pure _
  | succ count ih =>
    unfold loadMatches
    refine (Get.Uses.string.bind_left fun _ => ?_).of_le (Nat.zero_le _)
    refine (Get.Uses.string.bind_left fun _ => ?_).of_le (Nat.zero_le _)
    refine (Get.Uses.string.bind_left fun _ => ?_).of_le (Nat.zero_le _)
    refine ((Get.Uses.guint32 0).bind_left fun _ => ?_).of_le (Nat.zero_le _)
    exact ih.bind_left fun _ => Get.Uses.pure _

theorem resultHeadGet_uses (stack : UInt32) : (resultHeadGet stack).Uses 4 := by
  unfold resultHeadGet
  refine (Get.Uses.guint32 0).bind_left fun _ => ?_
  refine ((Get.Uses.guint32 0).bind_left fun _ => ?_).of_le (Nat.zero_le _)
  refine (Get.Uses.string.bind_left fun _ => ?_).of_le (Nat.zero_le _)
  exact ((Get.Uses.guint32 stack).bind_left fun _ => Get.Uses.pure _).of_le (Nat.zero_le _)

theorem resultGet_uses (stack : UInt32) : (resultGet stack).Uses 2 := by
  refine ((resultHeadGet_uses stack).bind_left fun _ => ?_).of_le (by decide)
  exact (loadMatches_uses _).bind_left fun _ => Get.Uses.pure _

/-- The outer loop of `load_results` -/
def resultsLoop (stack : Nat → UInt32) (count : Nat) (b : GetBuffer) :
    CountedLoop MwResolveResult where
  get := fun i => resultGet (stack i)
  uses := fun i => resultGet_uses (stack i)
  count := count
  start := b

theorem loadResults_eq (stack : Nat → UInt32) (loop : CountedLoop MwResolveResult)
    (hget : ∀ i, loop.get i = resultGet (stack i)) (count : Nat) (b : GetBuffer) :
    loadResults stack count b = (loop.builtFrom count b, loop.endFrom count b) := by
  induction count generalizing b with
  | zero => rfl
  | succ count ih =>
    simp only [loadResults, CountedLoop.builtFrom, CountedLoop.endFrom, hget, Get.bind_apply, ih,
      Get.pure_apply, resultGet, resultHeadGet]

theorem loadResults_built (stack : Nat → UInt32) (count : Nat) (b : GetBuffer) :
    (loadResults stack count b).1 = (resultsLoop stack count b).built := by
  rw [loadResults_eq stack (resultsLoop stack count b) fun _ => rfl]
  rfl

/-- The inner loops, one for each turn of the outer one -/
def innerLoops (stack : Nat → UInt32) : Nat → GetBuffer → List (CountedLoop MwResolveMatch)
  | 0, _ => []
  | count + 1, b =>
      let r := resultHeadGet (stack count) b
      matchesLoop r.1.2.2.toNat r.2 :: innerLoops stack count (resultGet (stack count) b).2

theorem loadResults_innerBuilt (stack : Nat → UInt32) (count : Nat) (b : GetBuffer) :
    (loadResults stack count b).1.map (·.matches_) =
      (innerLoops stack count b).map (·.built) := by
  induction count generalizing b with
  | zero => rfl
  | succ count ih =>
    have hhead : (resultGet (stack count) b).1.matches_ =
        (matchesLoop (resultHeadGet (stack count) b).1.2.2.toNat
          (resultHeadGet (stack count) b).2).built := loadMatches_built _ _
    rw [innerLoops, List.map_cons, ← hhead, ← ih]
    rfl

/-! ## Members of a place -/

/-- What `recv_SECTION_LIST` reads in one turn -/
def listedGet : Get PlaceMember := do
  mwGetBufferAdvance 4
  memberGet

theorem memberGet_uses : memberGet.Uses 4 := by
  unfold memberGet
  refine (Get.Uses.guint32 0).bind_left fun _ => ?_
  refine ((Get.Uses.guint16 0).bind_left fun _ => ?_).of_le (Nat.zero_le _)
  refine ((Get.Uses.idBlock {}).bind_left fun _ => ?_).of_le (Nat.zero_le _)
  refine (Get.Uses.string.bind_left fun _ => ?_).of_le (Nat.zero_le _)
  refine (Get.Uses.string.bind_left fun _ => ?_).of_le (Nat.zero_le _)
  refine ((Get.Uses.guint16 0).bind_left fun _ => ?_).of_le (Nat.zero_le _)
  refine ((Get.Uses.guint32 0).bind_left fun _ => ?_).of_le (Nat.zero_le _)
  exact ((Get.Uses.guint32 0).bind_left fun _ => Get.Uses.pure _).of_le (Nat.zero_le _)

theorem listedGet_uses : listedGet.Uses 2 := by
  have h := (Get.Uses.advance 4).bind fun _ => memberGet_uses
  exact h.of_le (by decide)

/-- The count of members, after all that `recv_SECTION_LIST` reads before its loop. It
returns before when the list is of another section. -/
def listCountGet (stack : PlaceStack) (section_ : UInt32) : Get UInt32 := do
  mwGetBufferAdvance 4
  let sec ← guint32Get (stack .listSection)
  if sec ≠ section_ then return 0
  mwGetBufferAdvance 8
  let count ← guint32Get (stack .listCount)
  mwGetBufferAdvance 8
  return count

/-- The loop of `recv_SECTION_LIST` -/
def membersLoop (stack : PlaceStack) (section_ : UInt32) (b : GetBuffer) :
    CountedLoop PlaceMember where
  get := fun _ => listedGet
  uses := fun _ => listedGet_uses
  count := (listCountGet stack section_ b).1.toNat
  start := (listCountGet stack section_ b).2

/-- The members that are put into the table, in order -/
def putMembers (members : UInt32 → Option PlaceMember) (pms : List PlaceMember) :
    UInt32 → Option PlaceMember :=
  pms.foldl (fun members pm => Function.update members pm.placeId (some pm)) members

theorem listMembers_members (loop : CountedLoop PlaceMember) (hget : ∀ i, loop.get i = listedGet)
    (count : Nat) (s : Scene) :
    (listMembers count s).2.place.members =
      putMembers s.place.members (loop.builtFrom count s.b) := by
  induction count generalizing s with
  | zero => rfl
  | succ count ih =>
    rw [CountedLoop.builtFrom, hget]
    exact ih _

/-- The end of `recv_SECTION_LIST` leaves the table alone. -/
theorem openedAfter_members (s : Scene) :
    ((do if (← get).place.state ≠ .opened then placeOpened : PlaceM Unit) s).2.place.members =
      s.place.members := by
  rw [StateM.get_bind, StateM.ite_apply]
  split
  · simp only [placeOpened, placeState, StateM.bind_apply, StateM.ite_apply]
    split <;> rfl
  · rfl

theorem recvSectionList_members (stack : PlaceStack) (s : Scene) :
    (recvSectionList stack s).2.place.members =
      putMembers s.place.members (membersLoop stack s.place.section_ s.b).built := by
  unfold recvSectionList CountedLoop.built
  rw [StateM.bind_apply, StateM.bind_apply, StateM.get_bind, StateM.ite_apply]
  split
  · rename_i hsec
    have hother : (guint32Get (stack .listSection) (mwGetBufferAdvance 4 s.b).2).1 ≠
        s.place.section_ := hsec
    have hcount : (listCountGet stack s.place.section_ s.b).1 = 0 := by
      simp [listCountGet, hother]
    simp only [membersLoop, hcount]
    rfl
  · rename_i hsec
    have hsame : (guint32Get (stack .listSection) (mwGetBufferAdvance 4 s.b).2).1 =
        s.place.section_ := not_not.mp hsec
    have hcount : listCountGet stack s.place.section_ s.b =
        let r := guint32Get (stack .listCount) (mwGetBufferAdvance 8
          (guint32Get (stack .listSection) (mwGetBufferAdvance 4 s.b).2).2).2
        (r.1, (mwGetBufferAdvance 8 r.2).2) := by
      simp [listCountGet, hsame]
    rw [StateM.bind_apply, StateM.bind_apply, StateM.bind_apply, StateM.bind_apply]
    refine (openedAfter_members _).trans ?_
    refine (listMembers_members (membersLoop stack s.place.section_ s.b) (fun _ => rfl) _ _).trans ?_
    simp only [membersLoop, hcount]
    rfl

/-! ## All of the decoders -/

/-- A decoder of a counted list with what it is given -/
inductive Decoder where
  /-- `ANNOUNCE_get` -/
  | announce (u : Uninit) (b : GetBuffer)
  /-- `mwPrivacyInfo_get` -/
  | privacy (info : MwPrivacyInfo) (b : GetBuffer)
  /-- `load_matches` -/
  | matches_ (count : UInt32) (b : GetBuffer)
  /-- `load_results` -/
  | results (stack : Nat → UInt32) (count : UInt32) (b : GetBuffer)
  /-- `recv_SECTION_LIST` -/
  | sectionList (stack : PlaceStack) (place : MwPlace) (b : GetBuffer)

/-- Each loop of the decoder builds no more than its data allows. -/
def Decoder.Bounded : Decoder → Prop
  | .announce u b => (announceLoop u b).Bounded
  | .privacy info b => (privacyLoop info b).Bounded
  | .matches_ count b => (matchesLoop count.toNat b).Bounded
  | .results stack count b =>
      (resultsLoop stack count.toNat b).Bounded ∧
        ∀ loop ∈ innerLoops stack count.toNat b, loop.Bounded
  | .sectionList stack place b => (membersLoop stack place.section_ b).Bounded

/-- The data holds what is announced to each loop, but for the last element. -/
def Decoder.AllButLast : Decoder → Prop
  | .announce u b => (announceLoop u b).AllButLast
  | .privacy info b => (privacyLoop info b).AllButLast
  | .matches_ count b => (matchesLoop count.toNat b).AllButLast
  | .results stack count b =>
      (resultsLoop stack count.toNat b).AllButLast ∧
        ∀ loop ∈ innerLoops stack count.toNat b, loop.AllButLast
  | .sectionList stack place b => (membersLoop stack place.section_ b).AllButLast

/-- What the decoder returns, or puts into its table, is what its loops build. -/
def Decoder.Builds : Decoder → Prop
  | .announce u b => (announceGet u b).1.recipients = (announceLoop u b).built.reverse
  | .privacy info b =>
      (mwPrivacyInfoGet info b).1.users =
        if (privacyCountGet info b).1 = 0 then info.users else (privacyLoop info b).built.reverse
  | .matches_ count b => (loadMatches count.toNat b).1 = (matchesLoop count.toNat b).built
  | .results stack count b =>
      (loadResults stack count.toNat b).1 = (resultsLoop stack count.toNat b).built ∧
        (loadResults stack count.toNat b).1.map (·.matches_) =
          (innerLoops stack count.toNat b).map (·.built)
  | .sectionList stack place b =>
      (recvSectionList stack { place := place, b := b }).2.place.members =
        putMembers place.members (membersLoop stack place.section_ b).built

/-- The decoders stay within their data exactly when the data is what it announces. -/
theorem Decoder.bounded_iff_allButLast (d : Decoder) :
    d.Builds ∧ (d.Bounded ↔ d.AllButLast) := by
  cases d with
  | announce u b => exact ⟨announceGet_built u b, (announceLoop u b).bounded_iff⟩
  | privacy info b => exact ⟨mwPrivacyInfoGet_built info b, (privacyLoop info b).bounded_iff⟩
  | matches_ count b =>
    exact ⟨loadMatches_built count.toNat b, (matchesLoop count.toNat b).bounded_iff⟩
  | results stack count b =>
    refine ⟨⟨loadResults_built stack count.toNat b, loadResults_innerBuilt stack count.toNat b⟩, ?_⟩
    refine and_congr (resultsLoop stack count.toNat b).bounded_iff ?_
    exact forall₂_congr fun loop _ => loop.bounded_iff
  | sectionList stack place b =>
    exact ⟨recvSectionList_members stack { place := place, b := b },
      (membersLoop stack place.section_ b).bounded_iff⟩

/-- Eleven bytes announce 2 ^ 32 - 1 recipients, and as many are built. -/
theorem Decoder.not_bounded_announce :
    ¬ (Decoder.announce {} (.wrapOpaque
      [0x00, 0x00, 0x00, 0x00, 0x00, 0x00, 0x00, 0xff, 0xff, 0xff, 0xff])).Bounded := by
  rintro ⟨hlength, -⟩
  rw [CountedLoop.built_length] at hlength
  exact absurd hlength (by decide)

end Meanwhile
