-- SUMMARY: Ids that the handlers of the aware service look up without a user, and the payloads that make them do so.
import Meanwhile.Service.AwareTables
import Meanwhile.Service.AwareSnapshots

/-!
# Lookups of ids without a user

`mwString_get` has `NULL` for an empty string as well as for one that cannot be read, and
`NULL` has no hash. Groups are looked up only where there is one, and `list_add` asks for a
user that is not empty. `status_recv` and `attrib_recv` ask for nothing, so that it is the
payload that decides. Nothing else can go wrong, since every pointer that the handlers
follow is in the tables.
-/

namespace Meanwhile.Aware

open GetBuffer Get

variable {s s' : MwServiceAware}

/-! ## Pointers that are there -/

/-- Nothing was followed that is not there, and the lists are still there. -/
structure Unhurt (s s' : MwServiceAware) : Prop where
  crashed : s'.crashed = s.crashed
  list : ∀ l, (s.list l).isSome → (s'.list l).isSome

theorem Unhurt.refl (s : MwServiceAware) : Unhurt s s := ⟨rfl, fun _ => id⟩

theorem Unhurt.trans {s'' : MwServiceAware} (h : Unhurt s s') (h' : Unhurt s' s'') : Unhurt s s'' :=
  ⟨h'.crashed.trans h.crashed, fun l hl => h'.list l (h.list l hl)⟩

/-- The lists that an entry has as members are there. -/
theorem Agree.member_isSome (h : Agree s) {addr : Nat} (hmem : addr ∈ HashTable.addrs s.entries)
    {entry : AwareEntry} (hentry : s.entry addr = some entry) :
    ∀ l ∈ entry.membership, (s.list l).isSome := by
  intro l hl
  have hin := (h.linked.member_iff addr entry hentry hmem l).mp hl
  cases hlist : s.list l with
  | none =>
    rw [tableOf, hlist] at hin
    cases hin
  | some list => rfl

theorem tellLists_unhurt (e : Nat → MwAwareList → Option AwareEvent) {membership : List Nat}
    (h : ∀ l ∈ membership, (s.list l).isSome) : Unhurt s (tellLists e s membership) := by
  unfold tellLists
  induction membership generalizing s with
  | nil => exact Unhurt.refl s
  | cons l membership ih =>
    obtain ⟨hl, hrest⟩ := List.forall_mem_cons.mp h
    obtain ⟨list, hlist⟩ := Option.isSome_iff_exists.mp hl
    rw [List.foldl_cons, hlist]
    dsimp only
    split
    case h_1 => exact ih hrest
    case h_2 event _ =>
      have hrecord : Unhurt s (record s event) := ⟨rfl, fun _ => id⟩
      exact hrecord.trans (ih hrest)

theorem unhurt_setEntry (s : MwServiceAware) (addr : Nat) (entry : Option AwareEntry) :
    Unhurt s (setEntry s addr entry) := ⟨rfl, fun _ hl => hl⟩

theorem unhurt_setList (s : MwServiceAware) (l : Nat) (list : MwAwareList) :
    Unhurt s (setList s l (some list)) := by
  refine ⟨rfl, fun l' hl' => ?_⟩
  by_cases heq : l' = l
  · rw [heq, setList_list_self]
    rfl
  · rwa [setList_list_of_ne heq]

/-- A list that is there gets an id. -/
theorem Agree.listAddId_unhurt (h : Agree s) {l : Nat} (hl : (s.list l).isSome)
    (id : MwAwareIdBlock) : Unhurt s (Aware.listAddId l id s).2 := by
  obtain ⟨list, hlist⟩ := Option.isSome_iff_exists.mp hl
  unfold Aware.listAddId
  rw [hlist]
  dsimp only
  split
  case isTrue => exact Unhurt.refl s
  case isFalse =>
    unfold Aware.listAdd
    dsimp only
    have hempty := unhurt_setList s l { list with entries := some (list.entries.getD []) }
    have hlinked : Linked (tableOf s)
        (setList s l (some { list with entries := some (list.entries.getD []) })) :=
      h.linked.congr rfl rfl rfl
    generalize setList s l (some { list with entries := some (list.entries.getD []) }) = s₀
      at hempty hlinked ⊢
    split
    case h_1 => exact hempty
    case h_2 =>
      obtain ⟨addr, s₁, heq, hlinked₁, hmem, -, hcases⟩ := hlinked.entryFor id
      obtain ⟨entry, hentry⟩ := hlinked₁.entry_isSome hmem
      have hentryFor : Unhurt s₀ s₁ := by
        rcases hcases with rfl | ⟨-, -, rfl⟩
        · exact Unhurt.refl _
        · exact ⟨rfl, fun _ hl => hl⟩
      rw [heq]
      dsimp only
      unfold join
      rw [hentry]
      dsimp only
      refine (hempty.trans hentryFor).trans ?_
      exact (unhurt_setEntry s₁ addr _).trans (unhurt_setList _ l _)

theorem Agree.addAware_unhurt {w : AwareWorld} (h : Agree w.srvc) {l : Nat}
    (hl : (w.srvc.list l).isSome) (id : MwAwareIdBlock) :
    Unhurt w.srvc (mwAwareListAddAware l [id] w).srvc := by
  have hadd := h.listAddId_unhurt hl id
  unfold mwAwareListAddAware
  dsimp only
  split
  case isTrue =>
    rw [sendAdd, send_srvc]
    exact hadd
  case isFalse => exact hadd

/-! ## Lookups -/

/-- A lookup crashes if and only if there is no user. -/
theorem awareFind_crashed (s : MwServiceAware) (id : MwAwareIdBlock) :
    (awareFind s id).2.crashed = (s.crashed || id.user.isNone) := by
  unfold awareFind
  split
  case h_1 huser => simp [crash, huser]
  case h_2 user huser => simp [huser]

theorem Agree.statusRecv_crashed (h : Agree s) (idb : MwAwareSnapshot) :
    (Aware.statusRecv idb s).crashed = (s.crashed || idb.id.user.isNone) := by
  have hcrashed := awareFind_crashed s idb.id
  unfold Aware.statusRecv
  obtain ⟨crashed, heq⟩ | ⟨addr, heq, hmem, -⟩ := h.linked.awareFind idb.id
  · rw [heq] at hcrashed ⊢
    exact hcrashed
  · rw [heq] at hcrashed ⊢
    obtain ⟨entry, hentry⟩ := h.linked.entry_isSome hmem
    dsimp only
    rw [hentry]
    have hlists := h.member_isSome hmem hentry
    exact (tellLists_unhurt (s := setEntry s addr _) _ hlists).crashed.trans hcrashed

theorem Agree.attribRecv_crashed (h : Agree s) (idb : MwAwareIdBlock) (key : UInt32)
    (data : MwOpaque) :
    (Aware.attribRecv idb key data s).crashed = (s.crashed || idb.user.isNone) := by
  have hcrashed := awareFind_crashed s idb
  unfold Aware.attribRecv
  obtain ⟨crashed, heq⟩ | ⟨addr, heq, hmem, -⟩ := h.linked.awareFind idb
  · rw [heq] at hcrashed ⊢
    exact hcrashed
  · rw [heq] at hcrashed ⊢
    obtain ⟨entry, hentry⟩ := h.linked.entry_isSome hmem
    dsimp only
    rw [hentry]
    have hlists := h.member_isSome hmem hentry
    exact (tellLists_unhurt (s := setEntry s addr _) _ hlists).crashed.trans hcrashed

/-- A group that is not `NULL` is looked up safely, and so are its members. -/
theorem Agree.groupMemberRecv_unhurt {w : AwareWorld} (h : Agree w.srvc) {idb : MwAwareSnapshot}
    (hgroup : idb.group.isSome) : Unhurt w.srvc (Aware.groupMemberRecv idb w).srvc := by
  have hloop : ∀ (membership : List Nat) (w : AwareWorld), Agree w.srvc →
      (∀ l ∈ membership, (w.srvc.list l).isSome) →
      Unhurt w.srvc (membership.foldl (fun w l => mwAwareListAddAware l [idb.id] w) w).srvc := by
    intro membership
    induction membership with
    | nil => exact fun w _ _ => Unhurt.refl w.srvc
    | cons l membership ih =>
      intro w hw hlists
      obtain ⟨hl, hrest⟩ := List.forall_mem_cons.mp hlists
      have hfirst := hw.addAware_unhurt hl idb.id
      exact hfirst.trans (ih _ (hw.addAware l [idb.id]) fun l hl => hfirst.list l (hrest l hl))
  obtain ⟨group, hgroup⟩ := Option.isSome_iff_exists.mp hgroup
  unfold Aware.groupMemberRecv Aware.awareFind
  rw [hgroup]
  dsimp only
  split
  case h_1 => exact Unhurt.refl w.srvc
  case h_2 addr hfind =>
    obtain ⟨hmem, -⟩ := (h.linked.find_eq_some_iff _ addr).mp hfind
    obtain ⟨entry, hentry⟩ := h.linked.entry_isSome hmem
    rw [hentry]
    exact hloop entry.membership w h (h.member_isSome hmem hentry)

theorem Agree.member_crashed {w : AwareWorld} (h : Agree w.srvc) (snap : MwAwareSnapshot) :
    (if snap.group.isSome then Aware.groupMemberRecv snap w else w).srvc.crashed =
      w.srvc.crashed := by
  split
  case isTrue hgroup => exact (h.groupMemberRecv_unhurt hgroup).crashed
  case isFalse => rfl

/-! ## Ids that are read -/

/-- The bytes have a user behind a word of 32 bits and a type of 16. -/
def HasUser (bytes : MwOpaque) : Prop := BeginsWithString (bytes.drop 6)

instance : DecidablePred HasUser := fun bytes =>
  inferInstanceAs (Decidable (BeginsWithString (bytes.drop 6)))

/-- An id behind a word has a user if it is there. If the word is not, the id stays what
it was. -/
theorem mwAwareIdBlockGet_user_iff {b : GetBuffer} (hb : b.Sound) (hok : b.error = false)
    (val : UInt32) (idb : MwAwareIdBlock) :
    (mwAwareIdBlockGet idb (guint32Get val b).2).1.user.isSome ↔
      HasUser b.rest ∨ b.rest.length < 4 ∧ idb.user.isSome := by
  have hlen := hb.rest_length
  unfold HasUser
  by_cases hword : b.rem < 4
  · -- The id is not read at all.
    have herror := guint32Get_of_lt hword val
    have hnone : b.rest.drop 6 = [] := List.drop_eq_nil_of_le (by omega)
    unfold mwAwareIdBlockGet
    rw [mwGetBufferError_bind, if_pos herror, hnone]
    simp [BeginsWithString, hlen, hword]
  · have hlong : ¬ b.rest.length < 4 := hlen ▸ hword
    rw [guint32Get_of_le hok (by omega)]
    simp only [hlong, false_and, or_false]
    have hok' : (b.skip 4).error = false := hok
    have hrem : (b.skip 4).rem = b.rem - 4 := rfl
    unfold mwAwareIdBlockGet
    rw [mwGetBufferError_bind, if_neg (by simp [hok'])]
    change (mwStringGet (guint16Get idb.type (b.skip 4)).2).1.isSome ↔ _
    by_cases htype : (b.skip 4).rem < 2
    · have hnone : b.rest.drop 6 = [] := List.drop_eq_nil_of_le (by omega)
      rw [mwStringGet_of_error (guint16Get_of_lt htype _), hnone]
      simp [BeginsWithString]
    · rw [guint16Get_of_le hok' (by omega)]
      have hsound : ((b.skip 4).skip 2).Sound := (hb.skip (by omega)).skip (by omega)
      rw [mwStringGet_isSome_iff hsound hok', skip_rest, skip_rest, List.drop_drop]

/-- The blocks of a snapshot that are read to their end, as the bytes from there on -/
def wholeBlocks (stack : AwareStack) : Nat → GetBuffer → List MwOpaque
  | 0, _ => []
  | count + 1, b =>
      let r := mwAwareSnapshotGet stack.endOfBlock b
      if r.2.error then [] else b.rest :: wholeBlocks stack count r.2

theorem mwAwareSnapshotGet_user_iff {b : GetBuffer} (hb : b.Sound) (endOfBlock : UInt32)
    (hwhole : (mwAwareSnapshotGet endOfBlock b).2.error = false) :
    (mwAwareSnapshotGet endOfBlock b).1.id.user.isSome ↔ HasUser b.rest := by
  have hok := (mwAwareSnapshotGet_forward endOfBlock b).ok_of_ok hwhole
  have hid : (mwAwareSnapshotGet endOfBlock b).1.id =
      (mwAwareIdBlockGet {} (guint32Get endOfBlock b).2).1 := by
    unfold mwAwareSnapshotGet
    simp only [Get.bind_apply]
    generalize gbooleanGet false _ = r
    obtain ⟨online, b'⟩ := r
    cases online with
    | false =>
      simp only [Bool.false_eq_true, if_false, Get.bind_apply, Get.ite_apply]
      split <;> rfl
    | true =>
      simp only [if_true, Get.bind_apply, Get.ite_apply]
      split <;> rfl
  rw [hid, mwAwareIdBlockGet_user_iff hb hok]
  simp

/-! ## Payloads -/

/-- The ids that the handler of a message looks up have users. -/
def UsersGiven (stack : AwareStack) (msg : Payload) : Prop :=
  let b := GetBuffer.wrapOpaque msg.2
  if msg.1 = msgAwareSnapshot then
    let (count, b) := guint32Get stack.count b
    ∀ block ∈ wholeBlocks stack count.toNat b, HasUser block
  else if msg.1 = msgAwareUpdate then
    ∀ block ∈ wholeBlocks stack 1 b, HasUser block
  else if msg.1 = msgOptGotSet then
    HasUser msg.2 ∨ msg.2.length < 4 ∧ stack.setIdb.user.isSome
  else if msg.1 = msgOptGotUnset then
    HasUser msg.2 ∨ msg.2.length < 4 ∧ stack.unsetIdb.user.isSome
  else True

theorem statusRecv_crashed_iff (h : Agree s) (hok : s.crashed = false) (idb : MwAwareSnapshot) :
    (statusRecv idb s).crashed = false ↔ idb.id.user.isSome := by
  rw [h.statusRecv_crashed, hok, Bool.false_or]
  cases idb.id.user <;> simp

theorem attribRecv_crashed_iff (h : Agree s) (hok : s.crashed = false) (idb : MwAwareIdBlock)
    (key : UInt32) (data : MwOpaque) :
    (attribRecv idb key data s).crashed = false ↔ idb.user.isSome := by
  rw [h.attribRecv_crashed, hok, Bool.false_or]
  cases idb.user <;> simp

/-- What has crashed stays so. -/
theorem snapshots_crashed (stack : AwareStack) (count : Nat) (b : GetBuffer) {w : AwareWorld}
    (h : Agree w.srvc) (hcrashed : w.srvc.crashed = true) :
    (snapshots stack count b w).srvc.crashed = true := by
  induction count generalizing b w with
  | zero => exact hcrashed
  | succ count ih =>
    unfold snapshots
    generalize mwAwareSnapshotGet stack.endOfBlock b = r
    obtain ⟨snap, b⟩ := r
    dsimp only
    split
    case isTrue => exact hcrashed
    case isFalse =>
      refine ih _ ((h.member snap).statusRecv snap) ?_
      rw [(h.member snap).statusRecv_crashed, h.member_crashed, hcrashed, Bool.true_or]

theorem snapshots_crashed_iff (stack : AwareStack) (count : Nat) {b : GetBuffer} (hb : b.Sound)
    {w : AwareWorld} (h : Agree w.srvc) (hok : w.srvc.crashed = false) :
    (snapshots stack count b w).srvc.crashed = false ↔
      ∀ block ∈ wholeBlocks stack count b, HasUser block := by
  induction count generalizing b w with
  | zero => exact iff_of_true hok fun _ h => by cases h
  | succ count ih =>
    have huser := mwAwareSnapshotGet_user_iff hb stack.endOfBlock
    have hsound := (mwAwareSnapshotGet_forward stack.endOfBlock b).sound hb
    unfold snapshots wholeBlocks
    dsimp only
    generalize mwAwareSnapshotGet stack.endOfBlock b = r at huser hsound ⊢
    obtain ⟨snap, b'⟩ := r
    dsimp only at huser hsound ⊢
    split
    case isTrue => exact iff_of_true hok fun _ h => by cases h
    case isFalse hwhole =>
      have huser := huser (Bool.eq_false_of_not_eq_true hwhole)
      have hmember := h.member snap
      have hstatus := statusRecv_crashed_iff hmember ((h.member_crashed snap).trans hok) snap
      rw [List.forall_mem_cons, ← huser]
      cases hafter : (statusRecv snap
          (if snap.group.isSome then groupMemberRecv snap w else w).srvc).crashed with
      | false =>
        rw [ih hsound (hmember.statusRecv snap) hafter]
        exact ⟨fun hrest => ⟨hstatus.mp hafter, hrest⟩, And.right⟩
      | true =>
        rw [snapshots_crashed stack count b' (hmember.statusRecv snap) hafter]
        refine iff_of_false (by simp) fun hall => ?_
        rw [hstatus.mpr hall.1] at hafter
        exact Bool.false_ne_true hafter

theorem recvUpdate_crashed_iff (stack : AwareStack) {b : GetBuffer} (hb : b.Sound)
    {w : AwareWorld} (h : Agree w.srvc) (hok : w.srvc.crashed = false) :
    (recvUpdate stack b w).srvc.crashed = false ↔
      ∀ block ∈ wholeBlocks stack 1 b, HasUser block := by
  have huser := mwAwareSnapshotGet_user_iff hb stack.endOfBlock
  unfold recvUpdate wholeBlocks
  dsimp only
  generalize mwAwareSnapshotGet stack.endOfBlock b = r at huser ⊢
  obtain ⟨snap, b'⟩ := r
  dsimp only at huser ⊢
  have hmember := (h.member_crashed snap).trans hok
  split
  case isTrue => exact iff_of_true hmember nofun
  case isFalse hwhole =>
    have huser := huser (Bool.eq_false_of_not_eq_true hwhole)
    rw [wholeBlocks, List.forall_mem_singleton, ← huser]
    exact statusRecv_crashed_iff (h.member snap) hmember snap

/-- What is read behind the id does not change it. -/
theorem gotSetGet_id (stack : AwareStack) (b : GetBuffer) :
    (gotSetGet stack b).1.1 = (mwAwareIdBlockGet stack.setIdb (guint32Get 0 b).2).1 := by
  unfold gotSetGet
  simp only [Get.bind_apply]
  split <;> rfl

theorem gotUnsetGet_id (stack : AwareStack) (b : GetBuffer) :
    (gotUnsetGet stack b).1.1 = (mwAwareIdBlockGet stack.unsetIdb (guint32Get 0 b).2).1 := rfl

theorem recvOptGotSet_crashed_iff (stack : AwareStack) (o : MwOpaque) {w : AwareWorld}
    (h : Agree w.srvc) (hok : w.srvc.crashed = false) :
    (recvOptGotSet stack (.wrapOpaque o) w).srvc.crashed = false ↔
      HasUser o ∨ o.length < 4 ∧ stack.setIdb.user.isSome := by
  have hid := gotSetGet_id stack (.wrapOpaque o)
  unfold recvOptGotSet
  generalize (gotSetGet stack (.wrapOpaque o)).1 = r at hid ⊢
  obtain ⟨idb, key, data⟩ := r
  dsimp only at hid ⊢
  rw [attribRecv_crashed_iff h hok, hid]
  exact mwAwareIdBlockGet_user_iff (.wrapOpaque o) rfl 0 stack.setIdb

theorem recvOptGotUnset_crashed_iff (stack : AwareStack) (o : MwOpaque) {w : AwareWorld}
    (h : Agree w.srvc) (hok : w.srvc.crashed = false) :
    (recvOptGotUnset stack (.wrapOpaque o) w).srvc.crashed = false ↔
      HasUser o ∨ o.length < 4 ∧ stack.unsetIdb.user.isSome := by
  have hid := gotUnsetGet_id stack (.wrapOpaque o)
  unfold recvOptGotUnset
  generalize (gotUnsetGet stack (.wrapOpaque o)).1 = r at hid ⊢
  obtain ⟨idb, key⟩ := r
  dsimp only at hid ⊢
  rw [attribRecv_crashed_iff h hok, hid]
  exact mwAwareIdBlockGet_user_iff (.wrapOpaque o) rfl 0 stack.unsetIdb

theorem handle_of_agree (stack : AwareStack) (msg : Payload) {w : AwareWorld} (h : Agree w.srvc)
    (hok : w.srvc.crashed = false) :
    (handle stack msg w).srvc.crashed = false ↔ UsersGiven stack msg := by
  unfold handle UsersGiven
  dsimp only
  split
  · have hsound := (Forward.guint32 stack.count (.wrapOpaque msg.2)).sound (.wrapOpaque msg.2)
    exact snapshots_crashed_iff stack _ hsound h hok
  · split
    · exact recvUpdate_crashed_iff stack (.wrapOpaque msg.2) h hok
    · split
      · exact recvOptGotSet_crashed_iff stack msg.2 h hok
      · split
        · exact recvOptGotUnset_crashed_iff stack msg.2 h hok
        · exact iff_of_true hok trivial

/-- In every state that the service comes to, a payload makes the handlers look up an id
without a user if and only if an id that they take from it has none. -/
theorem handle_crashed_iff (frames : Nat → AwareStack) (steps : List Step) (ret : Nat → Int)
    (hok : (run frames steps (mwServiceAwareNew ret)).srvc.crashed = false) (stack : AwareStack)
    (msg : Payload) :
    (handle stack msg (run frames steps (mwServiceAwareNew ret))).srvc.crashed = false ↔
      UsersGiven stack msg :=
  handle_of_agree stack msg (agree_run frames steps (agree_new ret)) hok

/-- An update for somebody without a name, who is offline -/
def namelessUpdate : Payload := (msgAwareUpdate, List.replicate 13 0)

/-- A user, and an update that tells of them as offline -/
def alice : MwAwareIdBlock := { type := 2, user := some (.ofBytes [0x61]) }

def aliceUpdate : Payload :=
  (msgAwareUpdate, guint32Put 0 ++ guint16Put alice.type ++ mwStringPut alice.user ++
    mwStringPut alice.community ++ mwStringPut none ++ gbooleanPut false)

/-- A list with the user is made, and the server has told of them. -/
def aliceIsTold : List Step :=
  [.call .listNew, .call (.addAware 0 [alice]), .input .start, .input (.accept 0),
    .input (.recv 0 aliceUpdate)]

theorem handle_crashed_iff_alice :
    let w := run (fun _ => {}) aliceIsTold (mwServiceAwareNew fun _ => 0)
    (handle {} aliceUpdate w).srvc.crashed = false ∧
      ¬ (handle {} namelessUpdate w).srvc.crashed = false := by
  intro w
  have hcrashed := handle_crashed_iff (fun _ => {}) aliceIsTold (fun _ => 0) (by decide +kernel) {}
  refine ⟨(hcrashed aliceUpdate).mpr ?_, fun hok => ?_⟩
  · change ∀ block ∈ wholeBlocks {} 1 (.wrapOpaque aliceUpdate.2), HasUser block
    decide +kernel
  · have husers : ∀ block ∈ wholeBlocks {} 1 (.wrapOpaque namelessUpdate.2), HasUser block :=
      (hcrashed namelessUpdate).mp hok
    exact absurd husers (by decide +kernel)

theorem crashed_nameless :
    (handle {} namelessUpdate (mwServiceAwareNew fun _ => 0)).srvc.crashed = true := by
  decide

end Meanwhile.Aware
