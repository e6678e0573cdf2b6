-- SUMMARY: Payloads that the aware service and the resolve service read to something that depends on what their variables held.
import Meanwhile.Message.Leftovers
import Meanwhile.Service.AwareTables
import Meanwhile.Service.AwareSnapshots
import Meanwhile.Service.Resolve

/-!
# What is left over in the variables of the services

The resolve service reads its counts into variables without a value, and so does the
aware service for snapshots, but neither goes on with them after a read that has failed.
For attributes the aware service looks at no error at all. It goes on with the id and
the key that it has, so that a payload that ends before them is about whatever was on
the stack.
-/

namespace Meanwhile

open Get GetBuffer

/-! ## The resolve service -/

namespace Resolve

theorem loadMatches_forward (count : Nat) : (loadMatches count).Forward := by
  induction count with
  | zero => exact Keeps.pure _
  | succ count ih =>
    unfold loadMatches
    refine Keeps.bind Forward.string fun _ => Keeps.bind Forward.string fun _ => ?_
    refine Keeps.bind Forward.string fun _ => Keeps.bind (Forward.guint32 _) fun _ => ?_
    exact Keeps.bind ih fun _ => Keeps.pure _

theorem loadResults_alike (stack stack' : Nat → UInt32) (count : Nat) :
    Alike (loadResults stack count) (loadResults stack' count) := by
  induction count with
  | zero => exact .pure _
  | succ count ih =>
    unfold loadResults
    refine .bind (.guint32 0 0) fun _ => .bind (.guint32 0 0) fun _ => ?_
    refine .bind (.refl .string) fun _ => .bind (.guint32 _ _) fun matches_ => ?_
    refine .bind (.refl (loadMatches_forward _)) fun _ => ?_
    exact .bind ih fun _ => .pure _

theorem headGet_forward : headGet.Forward := by
  unfold headGet
  refine Keeps.bind (Forward.guint32 _) fun _ => Keeps.bind (Forward.guint32 _) fun _ => ?_
  refine Keeps.bind (Forward.guint32 _) fun _ => Keeps.bind (Forward.guint32 _) fun _ => ?_
  exact Keeps.pure _

/-- Results that could not be read are not handed on. -/
theorem recv_stack (client : Client) (stack : Nat → UInt32) (chan : Nat)
    (msg : UInt16 × MwOpaque) (w : ResolveWorld) :
    recv { client with stack := stack } chan msg w = recv client chan msg w := by
  have hresponse : ∀ w, recvResponse { client with stack := stack } msg.2 w =
      recvResponse client msg.2 w := by
    intro w
    have hsound := (headGet_forward _).sound (Sound.wrapOpaque msg.2)
    unfold recvResponse
    generalize headGet (.wrapOpaque msg.2) = head at hsound ⊢
    obtain ⟨⟨id, code, count⟩, b⟩ := head
    dsimp only at hsound ⊢
    split
    · rfl
    · split
      · rfl
      · rename_i search _
        have halike := loadResults_alike stack client.stack count.toNat
        have hbuffer := halike.buffer b hsound
        have hvalue := halike.value b hsound
        generalize loadResults stack count.toNat b = r at hbuffer hvalue ⊢
        generalize loadResults client.stack count.toNat b = r' at hbuffer hvalue ⊢
        obtain ⟨results, b'⟩ := r
        obtain ⟨results', b''⟩ := r'
        obtain rfl : b' = b'' := hbuffer
        dsimp only at hvalue ⊢
        cases herror : b'.error with
        | true => rfl
        | false =>
          rw [hvalue herror]
          rfl
  unfold recv
  dsimp only
  split
  · exact hresponse _
  · rfl

end Resolve

/-! ## The aware service -/

namespace Aware

open HashTable

variable {s : MwServiceAware}

/-! ### Snapshots -/

/-- What follows the word that says where a snapshot ends -/
def snapshotRestGet (endOfBlock : UInt32) : Get MwAwareSnapshot := do
  let id ← mwAwareIdBlockGet {}
  let group ← mwStringGet
  let online ← gbooleanGet false
  let altId ← if online then mwStringGet else pure none
  let status ← if online then mwUserStatusGet {} else pure {}
  let name ← if online then mwStringGet else pure none
  let b ← get
  if b.ptr < endOfBlock.toNat then mwGetBufferAdvance (endOfBlock.toNat - b.ptr)
  return {
    id := id, group := group, online := online, altId := altId, status := status, name := name }

theorem snapshotRestGet_of_error (endOfBlock : UInt32) {b : GetBuffer} (h : b.error = true) :
    snapshotRestGet endOfBlock b = ({}, b) := by
  have hid : mwAwareIdBlockGet {} b = ({}, b) := by
    unfold mwAwareIdBlockGet
    rw [mwGetBufferError_bind, if_pos h]
    rfl
  have hstring : mwStringGet b = (none, b) := by
    unfold mwStringGet
    rw [if_pos h]
  have honline : gbooleanGet false b = (false, b) := by
    unfold gbooleanGet
    rw [if_pos h]
  unfold snapshotRestGet
  simp only [Get.bind_apply, hid, hstring, honline, Bool.false_eq_true, if_false, Get.pure_apply]
  have hget : (get : Get GetBuffer) b = (b, b) := rfl
  have hadvance : ∀ len, mwGetBufferAdvance len b = ((), b) := by
    intro len
    unfold mwGetBufferAdvance
    rw [if_pos h]
  rw [hget, Get.ite_apply]
  split
  · rw [Get.bind_apply, hadvance]
    rfl
  · rfl

theorem mwAwareSnapshotGet_agree (endOfBlock endOfBlock' : UInt32) :
    Get.Agree (mwAwareSnapshotGet endOfBlock) (mwAwareSnapshotGet endOfBlock') := by
  intro b hb
  have hbuffer := (Alike.guint32 endOfBlock endOfBlock').buffer b hb
  change snapshotRestGet (guint32Get endOfBlock b).1 (guint32Get endOfBlock b).2 =
    snapshotRestGet (guint32Get endOfBlock' b).1 (guint32Get endOfBlock' b).2
  cases herror : (guint32Get endOfBlock b).2.error with
  | true =>
    rw [snapshotRestGet_of_error _ herror, snapshotRestGet_of_error _ (hbuffer ▸ herror), hbuffer]
  | false => rw [hb.guint32Get_eq endOfBlock' herror]

theorem snapshots_stack (stack stack' : AwareStack) (count : Nat) {b : GetBuffer} (hb : b.Sound)
    (w : AwareWorld) : snapshots stack count b w = snapshots stack' count b w := by
  induction count generalizing b w with
  | zero => rfl
  | succ count ih =>
    have hsound := (mwAwareSnapshotGet_forward stack'.endOfBlock b).sound hb
    unfold snapshots
    rw [mwAwareSnapshotGet_agree stack.endOfBlock stack'.endOfBlock b hb]
    generalize mwAwareSnapshotGet stack'.endOfBlock b = r at hsound ⊢
    obtain ⟨snap, b'⟩ := r
    dsimp only at hsound ⊢
    split
    · rfl
    · exact ih hsound _

/-- A buffer with an error has no snapshots, however many there are said to be. -/
theorem snapshots_of_error (stack : AwareStack) (count : Nat) {b : GetBuffer} (h : b.error = true)
    (w : AwareWorld) : snapshots stack count b w = w := by
  cases count with
  | zero => rfl
  | succ count =>
    have herror := (mwAwareSnapshotGet_forward stack.endOfBlock b).error h
    unfold snapshots
    generalize mwAwareSnapshotGet stack.endOfBlock b = r at herror ⊢
    obtain ⟨snap, b'⟩ := r
    obtain rfl : b' = b := herror
    exact if_pos h

theorem recvSnapshot_stack (stack stack' : AwareStack) {b : GetBuffer} (hb : b.Sound)
    (w : AwareWorld) : recvSnapshot stack b w = recvSnapshot stack' b w := by
  have hbuffer := (Alike.guint32 stack.count stack'.count).buffer b hb
  have hvalue := (Alike.guint32 stack.count stack'.count).value b hb
  have hsound := (Forward.guint32 stack'.count b).sound hb
  unfold recvSnapshot
  generalize guint32Get stack.count b = r at hbuffer hvalue ⊢
  generalize guint32Get stack'.count b = r' at hbuffer hvalue hsound ⊢
  obtain ⟨count, b'⟩ := r
  obtain ⟨count', b''⟩ := r'
  obtain rfl : b' = b'' := hbuffer
  dsimp only at hvalue hsound ⊢
  cases herror : b'.error with
  | true => rw [snapshots_of_error stack _ herror, snapshots_of_error stack' _ herror]
  | false =>
    rw [hvalue herror]
    exact snapshots_stack stack stack' _ hsound w

theorem recvUpdate_stack (stack stack' : AwareStack) {b : GetBuffer} (hb : b.Sound)
    (w : AwareWorld) : recvUpdate stack b w = recvUpdate stack' b w := by
  unfold recvUpdate
  rw [mwAwareSnapshotGet_agree stack.endOfBlock stack'.endOfBlock b hb]

/-! ### Attributes -/

/-- What the handlers of some lists are told, in order -/
theorem tellLists_log (e : Nat → MwAwareList → Option AwareEvent) (s : MwServiceAware)
    (membership : List Nat) :
    (tellLists e s membership).log =
      (membership.filterMap fun l => (s.list l).bind (e l)).reverse ++ s.log := by
  unfold tellLists
  induction membership generalizing s with
  | nil => rfl
  | cons l membership ih =>
    rw [List.foldl_cons, List.filterMap_cons]
    cases hlist : s.list l with
    | none => exact ih (crash s)
    | some list =>
      dsimp only [Option.bind_some]
      cases he : e l list with
      | none => exact ih s
      | some event =>
        refine (ih (record s event)).trans ?_
        simp [record]

theorem tellLists_congr {e e' : Nat → MwAwareList → Option AwareEvent} {membership : List Nat}
    (h : ∀ l ∈ membership, ∀ list, s.list l = some list → e l list = e' l list) :
    tellLists e s membership = tellLists e' s membership := by
  unfold tellLists
  induction membership generalizing s with
  | nil => rfl
  | cons l membership ih =>
    obtain ⟨hl, hrest⟩ := List.forall_mem_cons.mp h
    rw [List.foldl_cons, List.foldl_cons]
    cases hlist : s.list l with
    | none => exact ih hrest
    | some list =>
      dsimp only
      rw [hl list hlist]
      split
      · exact ih hrest
      · exact ih hrest

/-- Every attribute of the entry is there and is empty, and no list that has the entry
watches any. -/
structure Unmarked (s : MwServiceAware) (entry : AwareEntry) : Prop where
  attribs : ∀ key, entry.attribs key = some []
  unwatched : ∀ l ∈ entry.membership, ∀ list, s.list l = some list → list.attribs.getD [] = []

/-- The event that a list with an entry is told of -/
def onAttribOf (idb : MwAwareIdBlock) (key : UInt32) (data : MwOpaque) (l : Nat)
    (list : MwAwareList) : Option AwareEvent :=
  if key ∈ list.attribs.getD [] then some (.onAttrib l idb key data) else none

theorem attribRecv_of_some {idb : MwAwareIdBlock} {addr : Nat} {entry : AwareEntry}
    (hfind : awareFind s idb = (some addr, s)) (hentry : s.entry addr = some entry) (key : UInt32)
    (data : MwOpaque) :
    attribRecv idb key data s =
      tellLists (onAttribOf idb key data)
        (setEntry s addr
          (some { entry with attribs := Function.update entry.attribs key (some data) }))
        entry.membership := by
  unfold attribRecv
  rw [hfind]
  dsimp only
  rw [hentry]
  rfl

theorem exists_key_ne (key : UInt32) : ∃ key', key' ≠ key := by
  refine ⟨key + 1, fun h => ?_⟩
  have hone : key + 1 = key + 0 := h.trans (UInt32.add_zero key).symm
  exact absurd (UInt32.add_right_inj key |>.mp hone) (by decide)

/-- Which attribute has been emptied does not matter only if all of them are empty. -/
theorem attribRecv_key_iff {idb : MwAwareIdBlock} {addr : Nat} {entry : AwareEntry}
    (hfind : awareFind s idb = (some addr, s)) (hentry : s.entry addr = some entry) :
    (∀ key key', attribRecv idb key [] s = attribRecv idb key' [] s) ↔ Unmarked s entry := by
  simp only [attribRecv_of_some hfind hentry]
  constructor
  · intro h
    refine ⟨fun key => ?_, fun l hl list hlist => ?_⟩
    · obtain ⟨key', hne⟩ := exists_key_ne key
      have hsame := congrArg (·.entry addr) (h key key')
      obtain ⟨_, _, htell⟩ := tellLists_eq (onAttribOf idb key []) (setEntry s addr
        (some { entry with attribs := Function.update entry.attribs key (some []) }))
        entry.membership
      obtain ⟨_, _, htell'⟩ := tellLists_eq (onAttribOf idb key' []) (setEntry s addr
        (some { entry with attribs := Function.update entry.attribs key' (some []) }))
        entry.membership
      simp only [htell, htell', setEntry_entry_self, Option.some.injEq, AwareEntry.mk.injEq,
        true_and] at hsame
      have hat := congrFun hsame key
      rw [Function.update_self, Function.update_of_ne hne.symm] at hat
      exact hat.symm
    · refine List.eq_nil_iff_forall_not_mem.mpr fun key hkey => ?_
      obtain ⟨key', hne⟩ := exists_key_ne key
      have hlog := congrArg (·.log) (h key key')
      simp only [tellLists_log] at hlog
      have hevents := List.reverse_injective (List.append_cancel_right hlog)
      have hmem : AwareEvent.onAttrib l idb key [] ∈
          entry.membership.filterMap fun l => (s.list l).bind (onAttribOf idb key [] l) :=
        List.mem_filterMap.mpr ⟨l, hl, by simp [hlist, onAttribOf, hkey]⟩
      change entry.membership.filterMap (fun l => (s.list l).bind (onAttribOf idb key [] l)) =
        entry.membership.filterMap (fun l => (s.list l).bind (onAttribOf idb key' [] l)) at hevents
      rw [hevents] at hmem
      obtain ⟨l', -, hl'⟩ := List.mem_filterMap.mp hmem
      obtain ⟨list', -, he⟩ := Option.bind_eq_some_iff.mp hl'
      unfold onAttribOf at he
      split at he
      · simp only [Option.some.injEq, AwareEvent.onAttrib.injEq] at he
        exact hne he.2.2.1
      · exact nomatch he
  · intro h key key'
    have hset : ∀ key, Function.update entry.attribs key (some []) = entry.attribs := fun key =>
      Function.update_eq_self_iff.mpr (h.attribs key).symm
    rw [hset key, hset key']
    refine tellLists_congr fun l hl list hlist => ?_
    have hnone := h.unwatched l hl list hlist
    simp [onAttribOf, hnone]

theorem awareFind_of_fst {idb : MwAwareIdBlock} {addr : Nat}
    (h : (awareFind s idb).1 = some addr) : awareFind s idb = (some addr, s) := by
  unfold awareFind at h ⊢
  split at h
  case h_1 => exact nomatch h
  case h_2 => exact Prod.ext h rfl

theorem attribRecv_key_eq {idb : MwAwareIdBlock}
    (h : ∀ addr entry, (awareFind s idb).1 = some addr → s.entry addr = some entry →
      Unmarked s entry) (key key' : UInt32) :
    attribRecv idb key [] s = attribRecv idb key' [] s := by
  cases hfind : (awareFind s idb).1 with
  | none =>
    have hlost : ∀ key, attribRecv idb key [] s = (awareFind s idb).2 := by
      intro key
      unfold attribRecv
      generalize awareFind s idb = r at hfind ⊢
      obtain ⟨aware, s'⟩ := r
      obtain rfl : aware = none := hfind
      rfl
    rw [hlost, hlost]
  | some addr =>
    cases hentry : s.entry addr with
    | none =>
      have hlost : ∀ key, attribRecv idb key [] s = crash s := by
        intro key
        unfold attribRecv
        rw [awareFind_of_fst hfind]
        dsimp only
        rw [hentry]
      rw [hlost, hlost]
    | some entry =>
      have hkey := attribRecv_key_iff (awareFind_of_fst hfind) hentry
      exact hkey.mpr (h addr entry hfind hentry) key key'

/-! ### What is read of an attribute -/

theorem attribRecv_of_none {idb : MwAwareIdBlock} (huser : idb.user = none) (key : UInt32)
    (data : MwOpaque) (s : MwServiceAware) : attribRecv idb key data s = crash s := by
  unfold attribRecv awareFind
  rw [huser]

/-- There is always a user that nobody watches. -/
theorem exists_unlisted (s : MwServiceAware) :
    ∃ idb : MwAwareIdBlock, awareFind s idb = (none, s) := by
  let idb (n : Nat) : MwAwareIdBlock := { user := some ⟨List.replicate n 1, by simp⟩ }
  by_contra hlisted
  have hmem : ∀ n, some (idb n) ∈ s.entries.map fun n => entryKey s n.addr := by
    intro n
    by_contra hnone
    refine hlisted ⟨idb n, ?_⟩
    change (find s s.entries (idb n), s) = (none, s)
    rw [find, lookup, List.find?_eq_none.mpr, Option.map_none]
    intro node hnode hkey
    simp only [Node.hasKey, decide_eq_true_eq] at hkey
    exact hnone (List.mem_map.mpr ⟨node, hnode, hkey.2⟩)
  have hinj : Function.Injective fun n => some (idb n) := by
    intro m n h
    have huser := congrArg MwAwareIdBlock.user (Option.some.inj h)
    have hbytes := congrArg Subtype.val (Option.some.inj huser)
    simpa using congrArg List.length hbytes
  exact Set.infinite_range_of_injective hinj
    ((List.finite_toSet _).subset (Set.range_subset_iff.mpr hmem))

/-- What the handlers read of the id -/
def gotIdb (b : GetBuffer) : MwAwareIdBlock := (mwAwareIdBlockGet {} (guint32Get 0 b).2).1

/-- An id that has a user is one that has been read. -/
theorem mwAwareIdBlockGet_of_ok {b : GetBuffer} (hb : b.Sound) (hok : b.error = false)
    (idb : MwAwareIdBlock) :
    (mwAwareIdBlockGet idb b).1 = (mwAwareIdBlockGet {} b).1 ∨
      (mwAwareIdBlockGet idb b).1.user = none ∧ (mwAwareIdBlockGet {} b).1.user = none := by
  have hbuffer := (Alike.guint16 idb.type 0).buffer b hb
  have hvalue := (Alike.guint16 idb.type 0).value b hb
  unfold mwAwareIdBlockGet
  rw [mwGetBufferError_bind, mwGetBufferError_bind, if_neg (by simp [hok]), if_neg (by simp [hok])]
  simp only [Get.bind_apply, Get.pure_apply]
  rw [← hbuffer]
  cases herror : (guint16Get idb.type b).2.error with
  | true => exact .inr ⟨mwStringGet_of_error herror, mwStringGet_of_error herror⟩
  | false =>
    rw [hvalue herror]
    exact .inl rfl

/-- What comes before the data of an attribute -/
def gotSetKeyGet (stack : AwareStack) : Get (MwAwareIdBlock × UInt32 × UInt32) := do
  let _ ← guint32Get 0
  let idb ← mwAwareIdBlockGet stack.setIdb
  let _ ← guint32Get 0
  let check ← guint32Get stack.setCheck
  let _ ← guint32Get 0
  let key ← guint32Get stack.setKey
  return (idb, check, key)

theorem mwAwareIdBlockGet_alike (idb idb' : MwAwareIdBlock) :
    Alike (mwAwareIdBlockGet idb) (mwAwareIdBlockGet idb') := by
  unfold mwAwareIdBlockGet
  apply Alike.guarded
  refine .bind (.guint16 _ _) fun _ => .bind (.refl .string) fun _ => ?_
  exact .bind (.refl .string) fun _ => .pure _

theorem gotSetKeyGet_alike (stack stack' : AwareStack) :
    Alike (gotSetKeyGet stack) (gotSetKeyGet stack') := by
  unfold gotSetKeyGet
  refine .bind (.guint32 _ _) fun _ => .bind (mwAwareIdBlockGet_alike _ _) fun _ => ?_
  refine .bind (.guint32 _ _) fun _ => .bind (.guint32 _ _) fun _ => ?_
  exact .bind (.guint32 _ _) fun _ => .bind (.guint32 _ _) fun _ => .pure _

/-- The data of an attribute -/
def attribDataGet (check : UInt32) : Get MwOpaque := if check ≠ 0 then mwOpaqueGet else pure []

theorem gotSetGet_apply (stack : AwareStack) (b : GetBuffer) :
    (gotSetGet stack b).1 =
      let r := gotSetKeyGet stack b
      (r.1.1, r.1.2.2, (attribDataGet r.1.2.1 r.2).1) := by
  unfold gotSetGet gotSetKeyGet attribDataGet
  simp only [Get.bind_apply, Get.pure_apply]
  split
  case isTrue hcheck => simp [hcheck]
  case isFalse hcheck => simp [hcheck]

theorem attribDataGet_of_error (check : UInt32) {b : GetBuffer} (h : b.error = true) :
    (attribDataGet check b).1 = [] := by
  unfold attribDataGet
  split
  · unfold mwOpaqueGet
    rw [if_pos h]
  · rfl

/-- Where the key is not there, it is what it was. -/
theorem gotSetGet_of_error {stack : AwareStack} {b : GetBuffer}
    (herror : (gotSetKeyGet stack b).2.error = true) :
    (gotSetGet stack b).1 =
      ((mwAwareIdBlockGet stack.setIdb (guint32Get 0 b).2).1, stack.setKey, []) := by
  rw [gotSetGet_apply]
  have hkey : (gotSetKeyGet stack b).1.2.2 = stack.setKey := guint32Get_of_error herror
  dsimp only
  rw [hkey, attribDataGet_of_error _ herror]
  rfl

/-- The id is there, and the key is, or the attributes of who is meant do not change. -/
structure SetWhole (s : MwServiceAware) (b : GetBuffer) : Prop where
  started : (guint32Get 0 b).2.error = false
  key : (gotSetKeyGet {} b).2.error = true → ∀ addr entry,
    (awareFind s (gotIdb b)).1 = some addr → s.entry addr = some entry → Unmarked s entry

variable {b : GetBuffer} {w : AwareWorld}

theorem recvOptGotSet_of_key (hb : b.Sound) (hok : (gotSetKeyGet {} b).2.error = false)
    (stack : AwareStack) : recvOptGotSet stack b w = recvOptGotSet {} b w := by
  have hsame := (gotSetKeyGet_alike {} stack).eq hb hok
  unfold recvOptGotSet
  rw [gotSetGet_apply, gotSetGet_apply, ← hsame]

/-- An attribute of someone that cannot be read is set for whoever was on the stack. -/
theorem gotSetGet_of_short (h : (guint32Get 0 b).2.error = true) (stack : AwareStack) :
    (gotSetGet stack b).1.1 = stack.setIdb := by
  have hid : mwAwareIdBlockGet stack.setIdb (guint32Get 0 b).2 =
      (stack.setIdb, (guint32Get 0 b).2) := by
    unfold mwAwareIdBlockGet
    rw [mwGetBufferError_bind, if_pos h]
    rfl
  rw [gotSetGet_apply]
  exact congrArg Prod.fst hid

theorem gotUnsetGet_of_short (h : (guint32Get 0 b).2.error = true) (stack : AwareStack) :
    (gotUnsetGet stack b).1.1 = stack.unsetIdb := by
  have hid : mwAwareIdBlockGet stack.unsetIdb (guint32Get 0 b).2 =
      (stack.unsetIdb, (guint32Get 0 b).2) := by
    unfold mwAwareIdBlockGet
    rw [mwGetBufferError_bind, if_pos h]
    rfl
  exact congrArg Prod.fst hid

/-- Someone without a name and someone whom nobody watches make a difference. -/
theorem exists_attribRecv_ne (hok : s.crashed = false) :
    ∃ idb : MwAwareIdBlock, ∀ key key' data data',
      attribRecv {} key data s ≠ attribRecv idb key' data' s := by
  obtain ⟨idb, hidb⟩ := exists_unlisted s
  refine ⟨idb, fun key key' data data' h => ?_⟩
  have hsame : attribRecv idb key' data' s = s := by
    unfold attribRecv
    rw [hidb]
  rw [attribRecv_of_none rfl, hsame] at h
  have hcrashed := congrArg (·.crashed) h
  exact absurd (hcrashed.trans hok) (by simp [crash])

theorem recvOptGotSet_iff (hb : b.Sound) (hok : w.srvc.crashed = false) :
    (∀ stack stack', recvOptGotSet stack b w = recvOptGotSet stack' b w) ↔
      SetWhole w.srvc b := by
  constructor
  · intro h
    have hstarted : (guint32Get 0 b).2.error = false := by
      by_contra herror
      have hid := gotSetGet_of_short (Bool.eq_true_of_not_eq_false herror)
      obtain ⟨idb, hne⟩ := exists_attribRecv_ne hok
      have hsame := congrArg World.srvc (h {} { setIdb := idb })
      change attribRecv (gotSetGet {} b).1.1 _ _ _ = attribRecv (gotSetGet _ b).1.1 _ _ _ at hsame
      rw [hid, hid] at hsame
      exact hne _ _ _ _ hsame
    refine ⟨hstarted, fun hkey addr entry hfind hentry => ?_⟩
    rw [← attribRecv_key_iff (awareFind_of_fst hfind) hentry]
    have hset : ∀ key, attribRecv (gotIdb b) key [] w.srvc =
        (recvOptGotSet { setKey := key } b w).srvc := by
      intro key
      have herror := (gotSetKeyGet_alike {} { setKey := key }).buffer b hb ▸ hkey
      change _ = attribRecv (gotSetGet _ b).1.1 (gotSetGet _ b).1.2.1 (gotSetGet _ b).1.2.2 w.srvc
      rw [gotSetGet_of_error herror]
      rfl
    intro key key'
    rw [hset, hset, h]
  · intro h
    suffices hzero : ∀ stack, recvOptGotSet stack b w = recvOptGotSet {} b w from
      fun stack stack' => (hzero stack).trans (hzero stack').symm
    intro stack
    cases hkey : (gotSetKeyGet {} b).2.error with
    | false => exact recvOptGotSet_of_key hb hkey stack
    | true =>
      have herror := (gotSetKeyGet_alike {} stack).buffer b hb ▸ hkey
      have hsound := (Forward.guint32 0 b).sound hb
      have hset : attribRecv (mwAwareIdBlockGet stack.setIdb (guint32Get 0 b).2).1 stack.setKey []
          w.srvc = attribRecv (gotIdb b) 0 [] w.srvc := by
        obtain hsame | ⟨huser, huser'⟩ := mwAwareIdBlockGet_of_ok hsound h.started stack.setIdb
        · rw [hsame]
          exact attribRecv_key_eq (h.key hkey) _ _
        · rw [attribRecv_of_none huser]
          exact (attribRecv_of_none huser' _ _ _).symm
      unfold recvOptGotSet
      rw [gotSetGet_of_error herror, gotSetGet_of_error hkey]
      exact congrArg (fun srvc => { w with srvc := srvc }) hset

theorem recvOptGotUnset_iff (hb : b.Sound) (hok : w.srvc.crashed = false) :
    (∀ stack stack', recvOptGotUnset stack b w = recvOptGotUnset stack' b w) ↔
      (guint32Get 0 b).2.error = false := by
  constructor
  · intro h
    by_contra herror
    have hid := gotUnsetGet_of_short (Bool.eq_true_of_not_eq_false herror)
    obtain ⟨idb, hne⟩ := exists_attribRecv_ne hok
    have hsame := congrArg World.srvc (h {} { unsetIdb := idb })
    change attribRecv (gotUnsetGet {} b).1.1 _ _ _ = attribRecv (gotUnsetGet _ b).1.1 _ _ _ at hsame
    rw [hid, hid] at hsame
    exact hne _ _ _ _ hsame
  · intro hstarted
    suffices hzero : ∀ stack, recvOptGotUnset stack b w = recvOptGotUnset {} b w from
      fun stack stack' => (hzero stack).trans (hzero stack').symm
    intro stack
    have hsound := (Forward.guint32 0 b).sound hb
    have hbuffer := (mwAwareIdBlockGet_alike stack.unsetIdb {}).buffer _ hsound
    have hget : ∀ stack, (gotUnsetGet stack b).1 =
        ((mwAwareIdBlockGet stack.unsetIdb (guint32Get 0 b).2).1,
          (guint32Get 0 (mwAwareIdBlockGet stack.unsetIdb (guint32Get 0 b).2).2).1) := fun _ => rfl
    have hset : ∀ key, attribRecv (mwAwareIdBlockGet stack.unsetIdb (guint32Get 0 b).2).1 key []
        w.srvc = attribRecv (gotIdb b) key [] w.srvc := by
      intro key
      obtain hsame | ⟨huser, huser'⟩ := mwAwareIdBlockGet_of_ok hsound hstarted stack.unsetIdb
      · rw [hsame]
        rfl
      · rw [attribRecv_of_none huser]
        exact (attribRecv_of_none huser' _ _ _).symm
    unfold recvOptGotUnset
    rw [hget, hget, hbuffer]
    exact congrArg (fun srvc => { w with srvc := srvc }) (hset _)

/-! ### Messages -/

/-- What the outcome of a message depends on is in the message. -/
def Whole (w : AwareWorld) (chan : Nat) (msg : Payload) : Prop :=
  w.srvc.channel = some chan →
    if msg.1 = msgOptGotSet then SetWhole w.srvc (.wrapOpaque msg.2)
    else if msg.1 = msgOptGotUnset then (guint32Get 0 (.wrapOpaque msg.2)).2.error = false
    else True

theorem awareFind_handled (s : MwServiceAware) (n : Nat) (idb : MwAwareIdBlock) :
    (awareFind { s with handled := n } idb).1 = (awareFind s idb).1 := by
  unfold awareFind
  split <;> rfl

theorem setWhole_handled (s : MwServiceAware) (n : Nat) (b : GetBuffer) :
    SetWhole { s with handled := n } b ↔ SetWhole s b := by
  constructor
  · intro h
    refine ⟨h.started, fun hkey addr entry hfind hentry => ?_⟩
    obtain ⟨hattribs, hunwatched⟩ := h.key hkey addr entry (awareFind_handled s n _ ▸ hfind) hentry
    exact ⟨hattribs, hunwatched⟩
  · intro h
    refine ⟨h.started, fun hkey addr entry hfind hentry => ?_⟩
    obtain ⟨hattribs, hunwatched⟩ := h.key hkey addr entry (awareFind_handled s n _ ▸ hfind) hentry
    exact ⟨hattribs, hunwatched⟩

theorem handle_iff (msg : Payload) (hok : w.srvc.crashed = false) :
    (∀ stack stack', handle stack msg w = handle stack' msg w) ↔
      if msg.1 = msgOptGotSet then SetWhole w.srvc (.wrapOpaque msg.2)
      else if msg.1 = msgOptGotUnset then (guint32Get 0 (.wrapOpaque msg.2)).2.error = false
      else True := by
  have hb := Sound.wrapOpaque msg.2
  unfold handle
  dsimp only
  by_cases hsnapshot : msg.1 = msgAwareSnapshot
  · rw [hsnapshot, if_neg (by decide), if_neg (by decide)]
    simp only [if_true]
    exact iff_of_true (fun stack stack' => recvSnapshot_stack stack stack' hb w) trivial
  by_cases hupdate : msg.1 = msgAwareUpdate
  · rw [hupdate, if_neg (by decide), if_neg (by decide)]
    simp only [if_neg (show msgAwareUpdate ≠ msgAwareSnapshot by decide), if_true]
    exact iff_of_true (fun stack stack' => recvUpdate_stack stack stack' hb w) trivial
  simp only [if_neg hsnapshot, if_neg hupdate]
  split
  · exact recvOptGotSet_iff hb hok
  · split
    · exact recvOptGotUnset_iff hb hok
    · exact iff_of_true (fun _ _ => rfl) trivial

theorem recv_iff (chan : Nat) (msg : Payload) (hok : w.srvc.crashed = false) :
    (∀ frames frames', recv frames chan msg w = recv frames' chan msg w) ↔ Whole w chan msg := by
  by_cases hchan : w.srvc.channel = some chan
  · let w' : AwareWorld := { w with srvc := { w.srvc with handled := w.srvc.handled + 1 } }
    have hrecv : ∀ frames, recv frames chan msg w = handle (frames w.srvc.handled) msg w' :=
      fun _ => if_pos hchan
    have hhandle : (∀ stack stack', handle stack msg w' = handle stack' msg w') ↔ _ :=
      handle_iff msg hok
    simp only [hrecv]
    rw [Whole, forall_prop_of_true hchan, ← setWhole_handled w.srvc (w.srvc.handled + 1), ← hhandle]
    exact ⟨fun h stack stack' => h (fun _ => stack) fun _ => stack', fun h frames frames' => h _ _⟩
  · have hrecv : ∀ frames, recv frames chan msg w = w := fun _ => if_neg hchan
    simp only [hrecv]
    exact iff_of_true (fun _ _ => trivial) fun h => absurd h hchan

end Aware

/-! ## All decoders -/

/-- A payload, with the state of the program that its decoder starts from -/
inductive Received where
  /-- For `mwMessage_get` -/
  | message (o : MwOpaque)
  /-- For the `recv` of the aware service -/
  | aware (w : Aware.AwareWorld) (hok : w.srvc.crashed = false) (chan : Nat) (msg : Aware.Payload)
  /-- For the `recv` of the resolve service -/
  | resolve (client : Resolve.Client) (w : ResolveWorld) (chan : Nat) (msg : UInt16 × MwOpaque)

/-- The outcome is the same, whatever the variables of the decoder held. -/
def Received.Steady : Received → Prop
  | message o =>
      ∀ u u', (mwMessageGet u (.wrapOpaque o)).1 = (mwMessageGet u' (.wrapOpaque o)).1
  | aware w _ chan msg =>
      ∀ frames frames', Aware.recv frames chan msg w = Aware.recv frames' chan msg w
  | resolve client w chan msg =>
      ∀ stack stack', Resolve.recv { client with stack := stack } chan msg w =
        Resolve.recv { client with stack := stack' } chan msg w

/-- The payload has what its decoder goes on with. -/
def Received.Whole : Received → Prop
  | message o => MessageWhole (.wrapOpaque o)
  | aware w _ chan msg => Aware.Whole w chan msg
  | resolve _ _ _ _ => True

/-- What the variables held before matters exactly where a payload ends before something
that its decoder goes on with all the same. -/
theorem Received.steady_iff (r : Received) : r.Steady ↔ r.Whole := by
  cases r with
  | message o => exact mwMessageGet_eq_iff (Sound.wrapOpaque o)
  | aware w hok chan msg => exact Aware.recv_iff chan msg hok
  | resolve client w chan msg =>
    refine iff_of_true (fun stack stack' => ?_) trivial
    rw [Resolve.recv_stack client stack, Resolve.recv_stack client stack']

/-- An announcement that ends with its head -/
def bareAnnounce : MwOpaque :=
  guint16Put MwMessageType.announce.code ++ guint16Put 0 ++ guint32Put 0

/-- It has as many recipients as there happened to be on the stack. -/
theorem not_steady_bareAnnounce : ¬ ∀ r : Received, r.Steady := by
  intro h
  have hsame := h (.message bareAnnounce) { count := 0 } { count := 1 }
  revert hsame
  decide

end Meanwhile
