-- SUMMARY: Lists of the aware service after all of their ids or attributes have been removed: which later calls use a table that has been destroyed.
import Meanwhile.Service.AwareTells

/-!
# Lists that have been emptied

`mwAwareList_removeAllAware` and `mwAwareList_unwatchAllAttributes` destroy the table of a
list, but leave the pointer to it in the list. Tables are made where the pointer is `NULL`
only, so that the next use of the table is a use of memory that has been freed.

`runOps` are the operations as they are, which end where a destroyed table would be used.
`runFresh` are those of a list whose pointer is reset.
-/

namespace Meanwhile.Aware

/-! ## Operations -/

/-- What a client does with one of its lists before it is freed -/
inductive ListOp where
  | add (ids : List MwAwareIdBlock)
  | remove (ids : List MwAwareIdBlock)
  | watch (keys : List UInt32)
  | unwatch (keys : List UInt32)
  | removeAll
  | unwatchAll

/-- A service, and whether the tables that a list points to have been destroyed -/
structure Held where
  w : AwareWorld
  entriesGone : Bool := false
  attribsGone : Bool := false

/-- `list_add` gets past its checks for one of the ids. -/
def someUser (ids : List MwAwareIdBlock) : Bool := ids.any (·.user.length ≠ 0)

/-- There is a key before the zero that ends them. -/
def someKey (keys : List UInt32) : Bool := !(keys.takeWhile (· ≠ 0)).isEmpty

/-- An operation on a list, if it uses no table that has been destroyed -/
def runOp (l : Nat) (list : MwAwareList) (h : Held) : ListOp → Option Held
  | .add ids =>
      if h.entriesGone && someUser ids then none
      else some { h with w := mwAwareListAddAware l ids h.w }
  | .remove ids =>
      if h.entriesGone && !ids.isEmpty then none
      else some { h with w := mwAwareListRemoveAware l ids h.w }
  | .watch keys =>
      if h.attribsGone && someKey keys then none
      else some { h with w := mwAwareListWatchAttributes l keys h.w }
  | .unwatch keys =>
      if h.attribsGone && someKey keys then none
      else some { h with w := mwAwareListUnwatchAttributes l keys h.w }
  | .removeAll =>
      match list.entries with
      | none => some { h with w := removeUnused h.w }
      | some _ =>
          if h.entriesGone then none
          -- The pointer stays.
          else some { h with w := mwAwareListRemoveAllAware l list h.w, entriesGone := true }
  | .unwatchAll =>
      match list.attribs with
      | none => some { h with w := removeUnusedAttrib h.w }
      | some _ =>
          if h.attribsGone then none
          else some { h with w := mwAwareListUnwatchAllAttributes l list h.w, attribsGone := true }

/-- Operations on a list that is there -/
def runOps (l : Nat) : List ListOp → Held → Option Held
  | [], h => some h
  | op :: ops, h => do
      let list ← h.w.srvc.list l
      let h ← runOp l list h op
      runOps l ops h

/-- `mwAwareList_free` uses the tables that there are. -/
def runFree (l : Nat) (h : Held) : Option AwareWorld :=
  if h.entriesGone || h.attribsGone then none else some (mwAwareListFree l h.w)

/-- Operations on a list, which is freed in the end or not -/
def runList (l : Nat) (ops : List ListOp) (free : Bool) (h : Held) : Option Held := do
  let h ← runOps l ops h
  if free then return { h with w := ← runFree l h } else return h

/-! ## Operations on a list whose pointers are reset -/

def resetEntries (l : Nat) (s : MwServiceAware) : MwServiceAware :=
  { s with list := Function.update s.list l ((s.list l).map ({ · with entries := none })) }

def resetAttribs (l : Nat) (s : MwServiceAware) : MwServiceAware :=
  { s with list := Function.update s.list l ((s.list l).map ({ · with attribs := none })) }

def freshOp (l : Nat) (list : MwAwareList) (w : AwareWorld) : ListOp → AwareWorld
  | .add ids => mwAwareListAddAware l ids w
  | .remove ids => mwAwareListRemoveAware l ids w
  | .watch keys => mwAwareListWatchAttributes l keys w
  | .unwatch keys => mwAwareListUnwatchAttributes l keys w
  | .removeAll =>
      let w := mwAwareListRemoveAllAware l list w
      { w with srvc := resetEntries l w.srvc }
  | .unwatchAll =>
      let w := mwAwareListUnwatchAllAttributes l list w
      { w with srvc := resetAttribs l w.srvc }

def freshOps (l : Nat) : List ListOp → AwareWorld → Option AwareWorld
  | [], w => some w
  | op :: ops, w => do
      let list ← w.srvc.list l
      freshOps l ops (freshOp l list w op)

def freshList (l : Nat) (ops : List ListOp) (free : Bool) (w : AwareWorld) : Option AwareWorld := do
  let w ← freshOps l ops w
  return if free then mwAwareListFree l w else w

/-- A list without its pointers to tables that have been destroyed -/
def MwAwareList.settled (entriesGone attribsGone : Bool) (list : MwAwareList) : MwAwareList where
  entries := if entriesGone then none else list.entries
  attribs := if attribsGone then none else list.attribs

def settle (l : Nat) (entriesGone attribsGone : Bool) (s : MwServiceAware) : MwServiceAware :=
  { s with list :=
      Function.update s.list l ((s.list l).map (·.settled entriesGone attribsGone)) }

/-- The service as the client would have it without those pointers -/
def Held.settled (l : Nat) (h : Held) : AwareWorld :=
  { h.w with srvc := settle l h.entriesGone h.attribsGone h.w.srvc }

/-- No table is used that has been destroyed, and the service comes to the same. -/
def StaysUsable (l : Nat) (ops : List ListOp) (free : Bool) (w : AwareWorld) : Prop :=
  ∃ h, runList l ops free { w := w } = some h ∧ freshList l ops free w = some (h.settled l)

/-! ## Pointers make no difference to what does not follow them -/

variable {s : MwServiceAware} {l : Nat} {e a : Bool}

theorem settle_list (s : MwServiceAware) (l : Nat) (e a : Bool) :
    (settle l e a s).list l = (s.list l).map (·.settled e a) := Function.update_self ..

@[simp]
theorem settle_entry (s : MwServiceAware) (l : Nat) (e a : Bool) : (settle l e a s).entry = s.entry :=
  rfl

theorem find_settle_table (s : MwServiceAware) (l : Nat) (e a : Bool) (table : HashTable.Table)
    (id : MwAwareIdBlock) : find (settle l e a s) table id = find s table id := rfl

theorem find_settle (s : MwServiceAware) (l : Nat) (e a : Bool) (id : MwAwareIdBlock) :
    find (settle l e a s) (settle l e a s).entries id = find s s.entries id := rfl

theorem settle_setList (s : MwServiceAware) (l : Nat) (e a : Bool) (list : MwAwareList) :
    settle l e a (setList s l (some list)) =
      setList (settle l e a s) l (some (list.settled e a)) := by
  simp [settle, setList, Function.update_idem]

theorem settle_false (s : MwServiceAware) (l : Nat) : settle l false false s = s := by
  have hid : (s.list l).map (·.settled false false) = s.list l := by
    cases s.list l <;> rfl
  rw [settle, hid, Function.update_eq_self]

theorem join_settle (list : MwAwareList) (entries : HashTable.Table) (id : MwAwareIdBlock)
    (addr : Nat) (s : MwServiceAware) (l : Nat) (a : Bool) :
    join l (list.settled false a) entries id addr (settle l false a s) =
      settle l false a (join l list entries id addr s) := by
  unfold join
  rw [settle_entry]
  cases s.entry addr with
  | none => rfl
  | some entry =>
    dsimp only
    rw [settle_setList]
    rfl

theorem entryFor_settle (id : MwAwareIdBlock) (s : MwServiceAware) :
    entryFor id (settle l e a s) = ((entryFor id s).1, settle l e a (entryFor id s).2) := by
  unfold entryFor
  rw [find_settle]
  cases find s s.entries id <;> rfl

theorem listAdd_settle (list : MwAwareList) (id : MwAwareIdBlock) (s : MwServiceAware) :
    listAdd l (list.settled false a) id (settle l false a s) =
      ((listAdd l list id s).1, settle l false a (listAdd l list id s).2) := by
  have hset : setList (settle l false a s) l
        (some { list.settled false a with
          entries := some ((list.settled false a).entries.getD []) }) =
      settle l false a (setList s l (some { list with entries := some (list.entries.getD []) })) :=
    (settle_setList s l false a { list with entries := some (list.entries.getD []) }).symm
  have hentries : (list.settled false a).entries.getD [] = list.entries.getD [] := rfl
  unfold listAdd
  dsimp only
  rw [hset, hentries]
  generalize setList s l (some { list with entries := some (list.entries.getD []) }) = s₀
  have hfind : find (settle l false a s₀) (list.entries.getD []) id =
    find s₀ (list.entries.getD []) id := rfl
  rw [hfind]
  cases find s₀ (list.entries.getD []) id with
  | some _ => rfl
  | none =>
    dsimp only
    rw [entryFor_settle]
    exact Prod.ext rfl (join_settle ..)

/-- Without a user the entries are not looked at, and with one the attributes are not. -/
theorem listAddId_settle (id : MwAwareIdBlock) (h : e = true → id.user.length = 0)
    (s : MwServiceAware) :
    listAddId l id (settle l e a s) =
      ((listAddId l id s).1, settle l e a (listAddId l id s).2) := by
  unfold listAddId
  rw [settle_list]
  cases s.list l with
  | none => rfl
  | some list =>
    dsimp only [Option.map_some]
    split
    case isTrue => rfl
    case isFalse huser =>
      obtain rfl : e = false := Bool.eq_false_of_not_eq_true (mt h huser)
      exact listAdd_settle list id s

theorem addAll_settle (ids additions : List MwAwareIdBlock)
    (h : e = true → ∀ id ∈ ids, id.user.length = 0) (s : MwServiceAware) :
    addAll l ids additions (settle l e a s) =
      ((addAll l ids additions s).1, settle l e a (addAll l ids additions s).2) := by
  induction ids generalizing additions s with
  | nil => rfl
  | cons id ids ih =>
    unfold addAll
    rw [listAddId_settle id fun hgone => h hgone id List.mem_cons_self]
    exact ih _ (fun hgone id hid => h hgone id (List.mem_cons_of_mem _ hid)) _

theorem dismember_settle (s : MwServiceAware) (addr : Nat) :
    dismember l (settle l e a s) addr = settle l e a (dismember l s addr) := by
  unfold dismember
  rw [settle_entry]
  cases s.entry addr <;> rfl

theorem removeId_settle (s : MwServiceAware) (id : MwAwareIdBlock) :
    removeId l (settle l false a s) id = settle l false a (removeId l s id) := by
  unfold removeId
  rw [settle_list]
  cases s.list l with
  | none => rfl
  | some list =>
    obtain ⟨entries, attribs⟩ := list
    cases entries with
    | none => rfl
    | some entries =>
      by_cases huser : id.user = none
      case pos =>
        simp only [Option.map_some, MwAwareList.settled, huser, if_true, Bool.false_eq_true, if_false]
        rfl
      case neg =>
        simp only [Option.map_some, MwAwareList.settled, huser, if_false, find_settle_table,
          Bool.false_eq_true]
        cases find s entries id with
        | none => rfl
        | some addr =>
          dsimp only
          rw [dismember_settle, settle_setList]
          rfl

theorem watchAdd_settle (s : MwServiceAware) (key : UInt32) :
    watchAdd l (settle l e false s) key = settle l e false (watchAdd l s key) := by
  unfold watchAdd
  rw [settle_list]
  cases s.list l with
  | none => rfl
  | some list =>
    have hset : ∀ keys, setList (settle l e false s) l
          (some { list.settled e false with attribs := some keys }) =
        settle l e false (setList s l (some { list with attribs := some keys })) :=
      fun keys => (settle_setList s l e false { list with attribs := some keys }).symm
    have hattribs : (list.settled e false).attribs = list.attribs := rfl
    dsimp only [Option.map_some]
    rw [hattribs, hset, hset]
    split <;> rfl

theorem watchRemove_settle (s : MwServiceAware) (key : UInt32) :
    watchRemove l (settle l e false s) key = settle l e false (watchRemove l s key) := by
  unfold watchRemove
  rw [settle_list]
  cases s.list l with
  | none => rfl
  | some list =>
    have hset : ∀ keys, setList (settle l e false s) l
          (some { list.settled e false with attribs := some keys }) =
        settle l e false (setList s l (some { list with attribs := some keys })) :=
      fun keys => (settle_setList s l e false { list with attribs := some keys }).symm
    have hattribs : (list.settled e false).attribs = list.attribs := rfl
    dsimp only [Option.map_some]
    rw [hattribs, hset]
    split <;> rfl

/-! ### Messages -/

/-- `w` with other lists -/
def withList (list : Nat → Option MwAwareList) (w : AwareWorld) : AwareWorld :=
  { w with srvc := { w.srvc with list := list } }

theorem send_withList (list : Nat → Option MwAwareList) (w : AwareWorld) (msg : AwareMsg) :
    send (withList list w) msg = withList list (send w msg) := by
  have h := send_withSrvc w (s := { w.srvc with list := list }) rfl msg
  rw [withList, withList, h, send_srvc]

/-- The entries of some nodes are freed. -/
def freeNodes (gone : List HashTable.Node) (w : AwareWorld) : AwareWorld :=
  { w with srvc := gone.foldl (fun s n => setEntry s n.addr none) w.srvc }

/-- `remove_unused` after the table has lost the entries that nobody has -/
def buried (gone : List HashTable.Node) (w : AwareWorld) : AwareWorld :=
  if gone.isEmpty then w
  else
    freeNodes gone
      (if w.isLive then sendRem w (gone.filterMap fun n => entryKey w.srvc n.addr) else w)

theorem freeNodes_withList (gone : List HashTable.Node) (list : Nat → Option MwAwareList)
    (w : AwareWorld) : freeNodes gone (withList list w) = withList list (freeNodes gone w) := by
  unfold freeNodes
  rw [foldl_setEntry, foldl_setEntry]
  rfl

theorem buried_withList (gone : List HashTable.Node) (list : Nat → Option MwAwareList)
    (w : AwareWorld) : buried gone (withList list w) = withList list (buried gone w) := by
  have hlive : (withList list w).isLive = w.isLive := rfl
  unfold buried
  rw [hlive]
  split
  case isTrue => rfl
  case isFalse =>
    rw [← freeNodes_withList]
    split
    case isTrue => exact congrArg (freeNodes gone) (send_withList list w _)
    case isFalse => rfl

theorem removeUnused_withList (list : Nat → Option MwAwareList) (w : AwareWorld) :
    removeUnused (withList list w) = withList list (removeUnused w) :=
  buried_withList (w.srvc.entries.filter (dead w.srvc)) list
    { w with srvc := { w.srvc with entries := w.srvc.entries.filter (! dead w.srvc ·) } }

theorem removeUnusedAttrib_withList (list : Nat → Option MwAwareList) (w : AwareWorld) :
    removeUnusedAttrib (withList list w) = withList list (removeUnusedAttrib w) := by
  have hsend := fun msg => send_withList list
    { w with srvc := { w.srvc with attribs := w.srvc.attribs.filter (! ·.membership.isEmpty) } } msg
  have hlive : (withList list w).isLive = w.isLive := rfl
  unfold removeUnusedAttrib
  dsimp only
  change (if (withList list w).isLive then _ else _) = withList list (if w.isLive then _ else _)
  rw [hlive]
  split
  case isTrue => exact hsend _
  case isFalse => rfl

/-- The world with a list settled -/
def settleW (l : Nat) (e a : Bool) (w : AwareWorld) : AwareWorld :=
  { w with srvc := settle l e a w.srvc }

theorem settleW_eq (w : AwareWorld) : settleW l e a w =
    withList (Function.update w.srvc.list l ((w.srvc.list l).map (·.settled e a))) w := rfl

theorem removeUnused_list (w : AwareWorld) : (removeUnused w).srvc.list = w.srvc.list := by
  rw [removeUnused_srvc]
  exact (sweep_frame w.srvc).1

theorem removeUnusedAttrib_list (w : AwareWorld) :
    (removeUnusedAttrib w).srvc.list = w.srvc.list := by
  obtain ⟨attribs, hattribs⟩ := removeUnusedAttrib_srvc w
  rw [hattribs]

theorem removeUnused_settle (w : AwareWorld) :
    removeUnused (settleW l e a w) = settleW l e a (removeUnused w) := by
  rw [settleW_eq, settleW_eq, removeUnused_withList, removeUnused_list]

theorem removeUnusedAttrib_settle (w : AwareWorld) :
    removeUnusedAttrib (settleW l e a w) = settleW l e a (removeUnusedAttrib w) := by
  rw [settleW_eq, settleW_eq, removeUnusedAttrib_withList, removeUnusedAttrib_list]

theorem send_settle (w : AwareWorld) (msg : AwareMsg) :
    send (settleW l e a w) msg = settleW l e a (send w msg) := by
  rw [settleW_eq, settleW_eq, send_withList, send_srvc]

/-! ### Calls -/

theorem addAware_settle {ids : List MwAwareIdBlock} (h : (e && someUser ids) = false)
    (w : AwareWorld) :
    mwAwareListAddAware l ids (settleW l e a w) = settleW l e a (mwAwareListAddAware l ids w) := by
  have hids : e = true → ∀ id ∈ ids, id.user.length = 0 := by
    rintro rfl id hid
    rw [Bool.true_and, someUser, List.any_eq_false] at h
    simpa using h id hid
  have hadd : addAll l ids [] (settleW l e a w).srvc =
      ((addAll l ids [] w.srvc).1, settle l e a (addAll l ids [] w.srvc).2) :=
    addAll_settle ids [] hids w.srvc
  unfold mwAwareListAddAware
  rw [hadd]
  generalize addAll l ids [] w.srvc = r
  obtain ⟨additions, s⟩ := r
  dsimp only
  change (if w.isLive ∧ additions ≠ [] then _ else _) =
    settleW l e a (if w.isLive ∧ additions ≠ [] then _ else _)
  split
  case isTrue => exact send_settle { w with srvc := s } (.add additions)
  case isFalse => rfl

theorem foldl_settle {α : Type} {f : MwServiceAware → α → MwServiceAware}
    (hf : ∀ s x, f (settle l e a s) x = settle l e a (f s x)) (xs : List α)
    (s : MwServiceAware) : xs.foldl f (settle l e a s) = settle l e a (xs.foldl f s) := by
  induction xs generalizing s with
  | nil => rfl
  | cons x xs ih => rw [List.foldl_cons, hf, ih, List.foldl_cons]

theorem removeAware_settle {ids : List MwAwareIdBlock} (h : (e && !ids.isEmpty) = false)
    (w : AwareWorld) :
    mwAwareListRemoveAware l ids (settleW l e a w) =
      settleW l e a (mwAwareListRemoveAware l ids w) := by
  have hremove : ids.foldl (removeId l) (settle l e a w.srvc) =
      settle l e a (ids.foldl (removeId l) w.srvc) := by
    cases e with
    | false => exact foldl_settle removeId_settle ids w.srvc
    | true =>
      obtain rfl : ids = [] := by simpa using h
      rfl
  have hunused := removeUnused_settle (l := l) (e := e) (a := a)
    { w with srvc := ids.foldl (removeId l) w.srvc }
  unfold mwAwareListRemoveAware
  rw [← hunused]
  unfold settleW
  rw [hremove]

theorem watchAttributes_settle {keys : List UInt32} (h : (a && someKey keys) = false)
    (w : AwareWorld) :
    mwAwareListWatchAttributes l keys (settleW l e a w) =
      settleW l e a (mwAwareListWatchAttributes l keys w) := by
  have hwatch : (keys.takeWhile (· ≠ 0)).foldl (watchAdd l) (settle l e a w.srvc) =
      settle l e a ((keys.takeWhile (· ≠ 0)).foldl (watchAdd l) w.srvc) := by
    cases a with
    | false => exact foldl_settle watchAdd_settle _ w.srvc
    | true =>
      have hnil : keys.takeWhile (· ≠ 0) = [] := by simpa [someKey] using h
      rw [hnil]
      rfl
  have hsend := fun msg => send_settle (l := l) (e := e) (a := a)
    { w with srvc := (keys.takeWhile (· ≠ 0)).foldl (watchAdd l) w.srvc } msg
  unfold mwAwareListWatchAttributes sendAttribList
  refine Eq.trans ?_ (hsend _)
  unfold settleW
  rw [hwatch]
  rfl

theorem unwatchAttributes_settle {keys : List UInt32} (h : (a && someKey keys) = false)
    (w : AwareWorld) :
    mwAwareListUnwatchAttributes l keys (settleW l e a w) =
      settleW l e a (mwAwareListUnwatchAttributes l keys w) := by
  have hunwatch : (keys.takeWhile (· ≠ 0)).foldl (watchRemove l) (settle l e a w.srvc) =
      settle l e a ((keys.takeWhile (· ≠ 0)).foldl (watchRemove l) w.srvc) := by
    cases a with
    | false => exact foldl_settle watchRemove_settle _ w.srvc
    | true =>
      have hnil : keys.takeWhile (· ≠ 0) = [] := by simpa [someKey] using h
      rw [hnil]
      rfl
  have hunused := removeUnusedAttrib_settle (l := l) (e := e) (a := a)
    { w with srvc := (keys.takeWhile (· ≠ 0)).foldl (watchRemove l) w.srvc }
  unfold mwAwareListUnwatchAttributes
  rw [← hunused]
  unfold settleW
  rw [hunwatch]

theorem resetEntries_settle (s : MwServiceAware) :
    resetEntries l (settle l e a s) = settle l true a s := by
  unfold resetEntries settle
  dsimp only
  rw [Function.update_self, Function.update_idem, Option.map_map]
  rfl

theorem resetAttribs_settle (s : MwServiceAware) :
    resetAttribs l (settle l e a s) = settle l e true s := by
  unfold resetAttribs settle
  dsimp only
  rw [Function.update_self, Function.update_idem, Option.map_map]
  rfl

/-- A pointer that is `NULL` may as well be taken for one that is reset. -/
theorem settle_congr {list : MwAwareList} (hlist : s.list l = some list) {e' a' : Bool}
    (h : list.settled e a = list.settled e' a') : settle l e a s = settle l e' a' s := by
  unfold settle
  rw [hlist, Option.map_some, Option.map_some, h]

theorem removeAllAware_settle (list : MwAwareList) (w : AwareWorld) :
    mwAwareListRemoveAllAware l (list.settled false a) (settleW l e a w) =
      settleW l e a (mwAwareListRemoveAllAware l list w) := by
  have hdismember := foldl_settle (l := l) (e := e) (a := a) dismember_settle
    (HashTable.addrs (list.entries.getD [])) w.srvc
  have hunused := removeUnused_settle (l := l) (e := e) (a := a)
    { w with srvc := (HashTable.addrs (list.entries.getD [])).foldl (dismember l) w.srvc }
  unfold mwAwareListRemoveAllAware
  rw [← hunused]
  unfold settleW
  rw [← hdismember]
  rfl

theorem unwatchAllAttributes_settle (list : MwAwareList) (w : AwareWorld) :
    mwAwareListUnwatchAllAttributes l (list.settled e false) (settleW l e a w) =
      settleW l e a (mwAwareListUnwatchAllAttributes l list w) :=
  removeUnusedAttrib_settle (l := l) (e := e) (a := a)
    { w with srvc :=
        { w.srvc with attribs := (list.attribs.getD []).foldl (unwatch l) w.srvc.attribs } }

/-! ## Pointers after a call -/

/-- The list gets the tables that it did not have. -/
def Becomes (l : Nat) (entries attribs : Bool) (s s' : MwServiceAware) : Prop :=
  ∀ list, s.list l = some list → ∃ list', s'.list l = some list' ∧
    list'.entries.isSome = (list.entries.isSome || entries) ∧
    list'.attribs.isSome = (list.attribs.isSome || attribs)

theorem Becomes.of_list {s' : MwServiceAware} (h : s'.list = s.list) :
    Becomes l false false s s' := by
  intro list hlist
  exact ⟨list, h ▸ hlist, (Bool.or_false _).symm, (Bool.or_false _).symm⟩

theorem Becomes.trans {s' s'' : MwServiceAware} {e a e' a' : Bool} (h : Becomes l e a s s')
    (h' : Becomes l e' a' s' s'') : Becomes l (e || e') (a || a') s s'' := by
  intro list hlist
  obtain ⟨list', hlist', hentries, hattribs⟩ := h list hlist
  obtain ⟨list'', hlist'', hentries', hattribs'⟩ := h' list' hlist'
  exact ⟨list'', hlist'', by rw [hentries', hentries, Bool.or_assoc],
    by rw [hattribs', hattribs, Bool.or_assoc]⟩

theorem becomes_listAddId (id : MwAwareIdBlock) (s : MwServiceAware) :
    Becomes l (decide (id.user.length ≠ 0)) false s (listAddId l id s).2 := by
  intro list hlist
  unfold listAddId
  rw [hlist]
  dsimp only
  split
  case isTrue hempty => exact ⟨list, hlist, by simp [hempty], (Bool.or_false _).symm⟩
  case isFalse huser =>
    unfold listAdd
    dsimp only
    have hset := setList_list_self (s := s) l
      (some { list with entries := some (list.entries.getD []) })
    generalize setList s l (some { list with entries := some (list.entries.getD []) }) = s₀
      at hset ⊢
    split
    case h_1 => exact ⟨_, hset, by simp [huser], by simp⟩
    case h_2 =>
      have hfor : (entryFor id s₀).2.list = s₀.list := by
        unfold entryFor
        split <;> rfl
      generalize entryFor id s₀ = r at hfor ⊢
      obtain ⟨addr, s₁⟩ := r
      dsimp only at hfor ⊢
      unfold join
      split
      case h_1 => exact ⟨_, (congrFun hfor l).trans hset, by simp [huser], by simp⟩
      case h_2 => exact ⟨_, setList_list_self .., by simp [huser], by simp⟩

theorem becomes_addAll (ids additions : List MwAwareIdBlock) (s : MwServiceAware) :
    Becomes l (someUser ids) false s (addAll l ids additions s).2 := by
  induction ids generalizing additions s with
  | nil => exact Becomes.of_list rfl
  | cons id ids ih => exact (becomes_listAddId id s).trans (ih _ _)

theorem becomes_removeId (s : MwServiceAware) (id : MwAwareIdBlock) :
    Becomes l false false s (removeId l s id) := by
  intro list hlist
  unfold removeId
  rw [hlist]
  dsimp only
  cases hentries : list.entries with
  | none => exact ⟨list, hlist, by simp [hentries], by simp⟩
  | some entries =>
    dsimp only
    split
    case isTrue => exact ⟨list, hlist, by simp [hentries], by simp⟩
    case isFalse =>
      split
      case h_1 => exact ⟨list, hlist, by simp [hentries], by simp⟩
      case h_2 => exact ⟨_, setList_list_self .., by simp, by simp⟩

theorem becomes_watchAdd (s : MwServiceAware) (key : UInt32) :
    Becomes l false true s (watchAdd l s key) := by
  intro list hlist
  unfold watchAdd
  rw [hlist]
  dsimp only
  split
  case isTrue => exact ⟨_, setList_list_self .., by simp, by simp⟩
  case isFalse => exact ⟨_, setList_list_self .., by simp, by simp⟩

theorem becomes_watchRemove (s : MwServiceAware) (key : UInt32) :
    Becomes l false false s (watchRemove l s key) := by
  intro list hlist
  unfold watchRemove
  rw [hlist]
  dsimp only
  split
  case isTrue hin =>
    have hattribs : list.attribs.isSome = true := by
      cases hattribs : list.attribs with
      | none => rw [hattribs] at hin; exact nomatch hin
      | some _ => rfl
    exact ⟨_, setList_list_self .., by simp, by simp [hattribs]⟩
  case isFalse => exact ⟨list, hlist, by simp, by simp⟩

theorem becomes_foldl {α : Type} {f : MwServiceAware → α → MwServiceAware} {e a : Bool}
    (hf : ∀ s x, Becomes l e a s (f s x)) (xs : List α) (s : MwServiceAware) :
    Becomes l (e && !xs.isEmpty) (a && !xs.isEmpty) s (xs.foldl f s) := by
  induction xs generalizing s with
  | nil =>
    simp only [List.isEmpty_nil, Bool.not_true, Bool.and_false]
    exact Becomes.of_list rfl
  | cons x xs ih =>
    have hboth := (hf s x).trans (ih (f s x))
    cases e <;> cases a <;> simpa using hboth

/-! ## What uses a table -/

namespace ListOp

/-- The table of entries is made if there is none. -/
def fills : ListOp → Bool
  | .add ids => someUser ids
  | _ => false

/-- The table of entries is used if there is one. -/
def usesEntries : ListOp → Bool
  | .add ids => someUser ids
  | .remove ids => !ids.isEmpty
  | .removeAll => true
  | _ => false

def dropsEntries : ListOp → Bool
  | .removeAll => true
  | _ => false

/-- The table of attributes is made if there is none. -/
def watches : ListOp → Bool
  | .watch keys => someKey keys
  | _ => false

/-- The table of attributes is used if there is one. -/
def usesAttribs : ListOp → Bool
  | .watch keys => someKey keys
  | .unwatch keys => someKey keys
  | .unwatchAll => true
  | _ => false

def dropsAttribs : ListOp → Bool
  | .unwatchAll => true
  | _ => false

end ListOp

/-- An operation uses a table that has been destroyed. -/
def Held.misusedBy (h : Held) (op : ListOp) : Bool :=
  h.entriesGone && op.usesEntries || h.attribsGone && op.usesAttribs

/-- What is destroyed has been there. -/
structure Held.Sound (h : Held) (list : MwAwareList) : Prop where
  entries : h.entriesGone = true → list.entries.isSome
  attribs : h.attribsGone = true → list.attribs.isSome

/-- An operation that uses what is there -/
structure Runs (l : Nat) (list : MwAwareList) (op : ListOp) (h h' : Held) : Prop where
  fresh : h'.settled l = freshOp l (list.settled h.entriesGone h.attribsGone) (h.settled l) op
  becomes : Becomes l op.fills op.watches h.w.srvc h'.w.srvc
  entriesGone : h'.entriesGone = (h.entriesGone || (list.entries.isSome && op.dropsEntries))
  attribsGone : h'.attribsGone = (h.attribsGone || (list.attribs.isSome && op.dropsAttribs))

theorem runOp_of_misused {h : Held} {list : MwAwareList} (hsound : h.Sound list) {op : ListOp}
    (hop : h.misusedBy op = true) : runOp l list h op = none := by
  obtain ⟨w, e, a⟩ := h
  obtain ⟨hentries, hattribs⟩ := hsound
  cases op with
  | add ids => simpa [Held.misusedBy, ListOp.usesEntries, ListOp.usesAttribs, runOp] using hop
  | remove ids => simpa [Held.misusedBy, ListOp.usesEntries, ListOp.usesAttribs, runOp] using hop
  | watch keys => simpa [Held.misusedBy, ListOp.usesEntries, ListOp.usesAttribs, runOp] using hop
  | unwatch keys => simpa [Held.misusedBy, ListOp.usesEntries, ListOp.usesAttribs, runOp] using hop
  | removeAll =>
    have hgone : e = true := by
      simpa [Held.misusedBy, ListOp.usesEntries, ListOp.usesAttribs] using hop
    obtain ⟨entries, hsome⟩ := Option.isSome_iff_exists.mp (hentries hgone)
    rw [runOp, hsome]
    exact if_pos hgone
  | unwatchAll =>
    have hgone : a = true := by
      simpa [Held.misusedBy, ListOp.usesEntries, ListOp.usesAttribs] using hop
    obtain ⟨keys, hsome⟩ := Option.isSome_iff_exists.mp (hattribs hgone)
    rw [runOp, hsome]
    exact if_pos hgone

theorem addAware_srvc (l : Nat) (ids : List MwAwareIdBlock) (w : AwareWorld) :
    (mwAwareListAddAware l ids w).srvc = (addAll l ids [] w.srvc).2 := by
  unfold mwAwareListAddAware
  dsimp only
  split
  case isTrue => rw [sendAdd, send_srvc]
  case isFalse => rfl

theorem becomes_removeAware (ids : List MwAwareIdBlock) (w : AwareWorld) :
    Becomes l false false w.srvc (mwAwareListRemoveAware l ids w).srvc := by
  have hremove := becomes_foldl (l := l) becomes_removeId ids w.srvc
  exact hremove.trans (Becomes.of_list (removeUnused_list _))

theorem becomes_watchAttributes (keys : List UInt32) (w : AwareWorld) :
    Becomes l false (someKey keys) w.srvc (mwAwareListWatchAttributes l keys w).srvc := by
  have hwatch := becomes_foldl (l := l) becomes_watchAdd (keys.takeWhile (· ≠ 0)) w.srvc
  unfold mwAwareListWatchAttributes
  rw [sendAttribList, send_srvc]
  exact hwatch

theorem becomes_unwatchAttributes (keys : List UInt32) (w : AwareWorld) :
    Becomes l false false w.srvc (mwAwareListUnwatchAttributes l keys w).srvc := by
  have hunwatch := becomes_foldl (l := l) becomes_watchRemove (keys.takeWhile (· ≠ 0)) w.srvc
  exact hunwatch.trans (Becomes.of_list (removeUnusedAttrib_list _))

theorem dismember_list (s : MwServiceAware) (addr : Nat) : (dismember l s addr).list = s.list := by
  unfold dismember
  split <;> rfl

theorem removeAllAware_list (list : MwAwareList) (w : AwareWorld) :
    (mwAwareListRemoveAllAware l list w).srvc.list = w.srvc.list := by
  have hfold : ∀ (ns : List Nat) (s : MwServiceAware),
      (ns.foldl (dismember l) s).list = s.list := by
    intro ns
    induction ns with
    | nil => exact fun _ => rfl
    | cons n ns ih => exact fun s => (ih _).trans (dismember_list s n)
  exact (removeUnused_list _).trans (hfold _ _)

theorem unwatchAllAttributes_list (list : MwAwareList) (w : AwareWorld) :
    (mwAwareListUnwatchAllAttributes l list w).srvc.list = w.srvc.list :=
  removeUnusedAttrib_list _

theorem runs_removeAll {w : AwareWorld} {list : MwAwareList} (hlist : w.srvc.list l = some list)
    (hop : Held.misusedBy ⟨w, e, a⟩ .removeAll = false) :
    ∃ h', runOp l list ⟨w, e, a⟩ .removeAll = some h' ∧ Runs l list .removeAll ⟨w, e, a⟩ h' := by
  obtain rfl : e = false := by
    simpa [Held.misusedBy, ListOp.usesEntries, ListOp.usesAttribs] using hop
  have hsettle := removeAllAware_settle (l := l) (e := false) (a := a) list w
  have hreset := resetEntries_settle (l := l) (e := false) (a := a)
    (mwAwareListRemoveAllAware l list w).srvc
  have hfresh : freshOp l (list.settled false a) (settleW l false a w) .removeAll =
      settleW l true a (mwAwareListRemoveAllAware l list w) := by
    unfold freshOp
    dsimp only
    rw [hsettle]
    unfold settleW
    rw [hreset]
  have hafter : (mwAwareListRemoveAllAware l list w).srvc.list l = some list :=
    (congrFun (removeAllAware_list list w) l).trans hlist
  cases hentries : list.entries with
  | none =>
    have hnone : mwAwareListRemoveAllAware l list w = removeUnused w := by
      unfold mwAwareListRemoveAllAware
      rw [hentries]
      rfl
    refine ⟨⟨removeUnused w, false, a⟩, by rw [runOp, hentries], ⟨?_, ?_, ?_, ?_⟩⟩
    · refine Eq.trans ?_ hfresh.symm
      rw [← hnone]
      have hsame : list.settled false a = list.settled true a := by
        simp [MwAwareList.settled, hentries]
      exact congrArg (fun s => { mwAwareListRemoveAllAware l list w with srvc := s })
        (settle_congr hafter hsame)
    · exact Becomes.of_list (removeUnused_list w)
    · simp [hentries]
    · simp [ListOp.dropsAttribs]
  | some entries =>
    refine ⟨⟨mwAwareListRemoveAllAware l list w, true, a⟩, ?_, ⟨hfresh.symm, ?_, ?_, ?_⟩⟩
    · rw [runOp, hentries]
      rfl
    · exact Becomes.of_list (removeAllAware_list list w)
    · simp [ListOp.dropsEntries, hentries]
    · simp [ListOp.dropsAttribs]

theorem runs_unwatchAll {w : AwareWorld} {list : MwAwareList} (hlist : w.srvc.list l = some list)
    (hop : Held.misusedBy ⟨w, e, a⟩ .unwatchAll = false) :
    ∃ h', runOp l list ⟨w, e, a⟩ .unwatchAll = some h' ∧ Runs l list .unwatchAll ⟨w, e, a⟩ h' := by
  obtain rfl : a = false := by
    simpa [Held.misusedBy, ListOp.usesEntries, ListOp.usesAttribs] using hop
  have hsettle := unwatchAllAttributes_settle (l := l) (e := e) (a := false) list w
  have hreset := resetAttribs_settle (l := l) (e := e) (a := false)
    (mwAwareListUnwatchAllAttributes l list w).srvc
  have hfresh : freshOp l (list.settled e false) (settleW l e false w) .unwatchAll =
      settleW l e true (mwAwareListUnwatchAllAttributes l list w) := by
    unfold freshOp
    dsimp only
    rw [hsettle]
    unfold settleW
    rw [hreset]
  have hafter : (mwAwareListUnwatchAllAttributes l list w).srvc.list l = some list :=
    (congrFun (unwatchAllAttributes_list list w) l).trans hlist
  cases hattribs : list.attribs with
  | none =>
    have hnone : mwAwareListUnwatchAllAttributes l list w = removeUnusedAttrib w := by
      unfold mwAwareListUnwatchAllAttributes
      rw [hattribs]
      rfl
    refine ⟨⟨removeUnusedAttrib w, e, false⟩, by rw [runOp, hattribs], ⟨?_, ?_, ?_, ?_⟩⟩
    · refine Eq.trans ?_ hfresh.symm
      rw [← hnone]
      have hsame : list.settled e false = list.settled e true := by
        simp [MwAwareList.settled, hattribs]
      exact congrArg (fun s => { mwAwareListUnwatchAllAttributes l list w with srvc := s })
        (settle_congr hafter hsame)
    · exact Becomes.of_list (removeUnusedAttrib_list w)
    · simp [ListOp.dropsEntries]
    · simp [hattribs]
  | some keys =>
    refine ⟨⟨mwAwareListUnwatchAllAttributes l list w, e, true⟩, ?_, ⟨hfresh.symm, ?_, ?_, ?_⟩⟩
    · rw [runOp, hattribs]
      rfl
    · exact Becomes.of_list (unwatchAllAttributes_list list w)
    · simp [ListOp.dropsEntries]
    · simp [ListOp.dropsAttribs, hattribs]

theorem runOp_of_not_misused {h : Held} {list : MwAwareList} (hlist : h.w.srvc.list l = some list)
    {op : ListOp} (hop : h.misusedBy op = false) :
    ∃ h', runOp l list h op = some h' ∧ Runs l list op h h' := by
  obtain ⟨w, e, a⟩ := h
  cases op with
  | add ids =>
    have huse : (e && someUser ids) = false := by
      simpa [Held.misusedBy, ListOp.usesEntries, ListOp.usesAttribs] using hop
    refine ⟨_, if_neg (by simp [huse]), ⟨(addAware_settle huse w).symm, ?_, ?_, ?_⟩⟩
    · exact addAware_srvc l ids w ▸ becomes_addAll ids [] w.srvc
    · simp [ListOp.dropsEntries]
    · simp [ListOp.dropsAttribs]
  | remove ids =>
    have huse : (e && !ids.isEmpty) = false := by
      simpa [Held.misusedBy, ListOp.usesEntries, ListOp.usesAttribs] using hop
    refine ⟨_, if_neg (by simp [huse]), ⟨(removeAware_settle huse w).symm, ?_, ?_, ?_⟩⟩
    · exact becomes_removeAware ids w
    · simp [ListOp.dropsEntries]
    · simp [ListOp.dropsAttribs]
  | watch keys =>
    have huse : (a && someKey keys) = false := by
      simpa [Held.misusedBy, ListOp.usesEntries, ListOp.usesAttribs] using hop
    refine ⟨_, if_neg (by simp [huse]), ⟨(watchAttributes_settle huse w).symm, ?_, ?_, ?_⟩⟩
    · exact becomes_watchAttributes keys w
    · simp [ListOp.dropsEntries]
    · simp [ListOp.dropsAttribs]
  | unwatch keys =>
    have huse : (a && someKey keys) = false := by
      simpa [Held.misusedBy, ListOp.usesEntries, ListOp.usesAttribs] using hop
    refine ⟨_, if_neg (by simp [huse]), ⟨(unwatchAttributes_settle huse w).symm, ?_, ?_, ?_⟩⟩
    · exact becomes_unwatchAttributes keys w
    · simp [ListOp.dropsEntries]
    · simp [ListOp.dropsAttribs]
  | removeAll => exact runs_removeAll hlist hop
  | unwatchAll => exact runs_unwatchAll hlist hop

/-! ## Sequences -/

/-- Along a sequence nothing uses a table after it has been destroyed. `fills`, `uses` and
`drops` say what operations do with the table, and `made` whether there is one at first. -/
structure Spares (fills uses drops : ListOp → Bool) (made : Bool) (ops : List ListOp)
    (free : Bool) : Prop where
  spares : ∀ pre op post, ops = pre ++ op :: post → drops op = true →
    (made = true ∨ ∃ op ∈ pre, fills op = true) →
    (∀ op ∈ post, uses op = false) ∧ free = false

/-- The same, with a table that may have been destroyed already, as the calls go -/
def spared (fills uses drops : ListOp → Bool) (free : Bool) : Bool → Bool → List ListOp → Bool
  | _, gone, [] => !(gone && free)
  | made, gone, op :: ops =>
      !(gone && uses op) && spared fills uses drops free (made || fills op)
        (gone || (made && drops op)) ops

section Spared

variable {fills uses drops : ListOp → Bool} {made free : Bool}

theorem spares_cons (op : ListOp) (ops : List ListOp) :
    Spares fills uses drops made (op :: ops) free ↔
      ((made && drops op) = true → (∀ op ∈ ops, uses op = false) ∧ free = false) ∧
        Spares fills uses drops (made || fills op) ops free := by
  constructor
  · rintro ⟨h⟩
    refine ⟨fun hdrop => ?_, ⟨fun pre op' post heq hdrop hmade => ?_⟩⟩
    · rw [Bool.and_eq_true] at hdrop
      exact h [] op ops rfl hdrop.2 (Or.inl hdrop.1)
    · refine h (op :: pre) op' post (by rw [heq, List.cons_append]) hdrop ?_
      rw [Bool.or_eq_true, or_assoc] at hmade
      refine hmade.imp_right fun hfills => ?_
      obtain hop | ⟨op'', hmem, hop⟩ := hfills
      · exact ⟨op, List.mem_cons_self, hop⟩
      · exact ⟨op'', List.mem_cons_of_mem _ hmem, hop⟩
  · rintro ⟨hfirst, ⟨hrest⟩⟩
    refine ⟨fun pre op' post heq hdrop hmade => ?_⟩
    cases pre with
    | nil =>
      rw [List.nil_append, List.cons.injEq] at heq
      obtain ⟨rfl, rfl⟩ := heq
      have hthere : made = true := hmade.resolve_right fun ⟨_, hmem, _⟩ => nomatch hmem
      exact hfirst (by rw [hthere, hdrop, Bool.and_true])
    | cons op'' pre =>
      rw [List.cons_append, List.cons.injEq] at heq
      obtain ⟨rfl, heq⟩ := heq
      refine hrest pre op' post heq hdrop ?_
      rw [Bool.or_eq_true, or_assoc]
      refine hmade.imp_right ?_
      rintro ⟨op₁, hmem, hfills⟩
      obtain rfl | hmem := List.mem_cons.mp hmem
      · exact Or.inl hfills
      · exact Or.inr ⟨op₁, hmem, hfills⟩

theorem spared_iff (gone : Bool) (ops : List ListOp) :
    spared fills uses drops free made gone ops = true ↔
      (gone = true → (∀ op ∈ ops, uses op = false) ∧ free = false) ∧
        Spares fills uses drops made ops free := by
  induction ops generalizing made gone with
  | nil =>
    have hnil : Spares fills uses drops made [] free :=
      ⟨fun pre op post heq => by simp at heq⟩
    cases gone <;> cases free <;> simp [spared, hnil]
  | cons op ops ih =>
    rw [spared, Bool.and_eq_true, ih, spares_cons, List.forall_mem_cons]
    cases gone <;> cases uses op <;> simp
    tauto

end Spared

/-- Along the operations nothing uses a table of the list that they have destroyed. -/
def Spared (list : MwAwareList) (ops : List ListOp) (free : Bool) : Prop :=
  Spares ListOp.fills ListOp.usesEntries ListOp.dropsEntries list.entries.isSome ops free ∧
    Spares ListOp.watches ListOp.usesAttribs ListOp.dropsAttribs list.attribs.isSome ops free

/-- The same from a state in which some tables have been destroyed -/
def Held.spared (h : Held) (list : MwAwareList) (ops : List ListOp) (free : Bool) : Bool :=
  Aware.spared ListOp.fills ListOp.usesEntries ListOp.dropsEntries free list.entries.isSome
      h.entriesGone ops &&
    Aware.spared ListOp.watches ListOp.usesAttribs ListOp.dropsAttribs free list.attribs.isSome
      h.attribsGone ops

theorem spared_nil (h : Held) (list : MwAwareList) (free : Bool) :
    h.spared list [] free = !(free && (h.entriesGone || h.attribsGone)) := by
  obtain ⟨w, e, a⟩ := h
  cases e <;> cases a <;> cases free <;> rfl

theorem spared_cons {h h' : Held} {list list' : MwAwareList} {op : ListOp}
    (hruns : Runs l list op h h')
    (hentries : list'.entries.isSome = (list.entries.isSome || op.fills))
    (hattribs : list'.attribs.isSome = (list.attribs.isSome || op.watches)) (ops : List ListOp)
    (free : Bool) :
    h.spared list (op :: ops) free = (!h.misusedBy op && h'.spared list' ops free) := by
  unfold Held.spared
  rw [Aware.spared, Aware.spared, ← hentries, ← hattribs, ← hruns.entriesGone, ← hruns.attribsGone,
    Held.misusedBy, Bool.not_or]
  ac_rfl

theorem spared_of_misused {h : Held} {op : ListOp} (hop : h.misusedBy op = true)
    (list : MwAwareList) (ops : List ListOp) (free : Bool) :
    h.spared list (op :: ops) free = false := by
  unfold Held.spared
  rw [Aware.spared, Aware.spared]
  obtain hgone | hgone := Bool.or_eq_true_iff.mp hop
  · rw [hgone, Bool.not_true, Bool.false_and, Bool.false_and]
  · rw [hgone, Bool.not_true, Bool.false_and, Bool.and_false]

/-- If nothing destroyed is used the fresh list does the same, and otherwise there is no
telling what happens. -/
theorem runList_of_spared (ops : List ListOp) (free : Bool) {h : Held} {list : MwAwareList}
    (hlist : h.w.srvc.list l = some list) (hsound : h.Sound list) :
    (h.spared list ops free = true → ∃ h', runList l ops free h = some h' ∧
        freshList l ops free (h.settled l) = some (h'.settled l)) ∧
      (h.spared list ops free = false → runList l ops free h = none) := by
  induction ops generalizing h list with
  | nil =>
    rw [spared_nil]
    obtain ⟨w, e, a⟩ := h
    cases free with
    | false => exact ⟨fun _ => ⟨⟨w, e, a⟩, rfl, rfl⟩, fun hfalse => (nomatch hfalse)⟩
    | true =>
      have hsame : ∀ w : AwareWorld, Held.settled l ⟨w, false, false⟩ = w := by
        intro w
        unfold Held.settled
        rw [settle_false]
      cases e <;> cases a
      case false.false =>
        refine ⟨fun _ => ⟨⟨mwAwareListFree l w, false, false⟩, rfl, ?_⟩,
          fun hfalse => (nomatch hfalse)⟩
        rw [hsame, hsame]
        rfl
      all_goals exact ⟨fun hfalse => (nomatch hfalse), fun _ => rfl⟩
  | cons op ops ih =>
    have hrun : ∀ h : Held, h.w.srvc.list l = some list → runList l (op :: ops) free h =
        (runOp l list h op >>= fun h => runList l ops free h) := by
      intro h hlist
      unfold runList
      rw [runOps, hlist]
      simp only [Option.bind_eq_bind, Option.bind_some, Option.bind_assoc]
    rw [hrun h hlist]
    cases hop : h.misusedBy op with
    | true =>
      rw [spared_of_misused hop, runOp_of_misused hsound hop]
      exact ⟨fun hfalse => (nomatch hfalse), fun _ => rfl⟩
    | false =>
      obtain ⟨h', heq, hruns⟩ := runOp_of_not_misused hlist hop
      obtain ⟨list', hlist', hentries, hattribs⟩ := hruns.becomes list hlist
      have hsound' : h'.Sound list' := by
        refine ⟨fun hgone => ?_, fun hgone => ?_⟩
        · rw [hruns.entriesGone, Bool.or_eq_true, Bool.and_eq_true] at hgone
          rw [hentries, hgone.elim hsound.entries And.left, Bool.true_or]
        · rw [hruns.attribsGone, Bool.or_eq_true, Bool.and_eq_true] at hgone
          rw [hattribs, hgone.elim hsound.attribs And.left, Bool.true_or]
      have hfresh : freshList l (op :: ops) free (h.settled l) =
          freshList l ops free (h'.settled l) := by
        have hsettled : (h.settled l).srvc.list l =
            some (list.settled h.entriesGone h.attribsGone) := by
          rw [Held.settled, settle_list, hlist, Option.map_some]
        unfold freshList
        rw [freshOps, hsettled, hruns.fresh]
        rfl
      rw [spared_cons hruns hentries hattribs, hop, Bool.not_false, Bool.true_and, heq, hfresh]
      exact ih hlist' hsound'

/-- A list stays usable if and only if nothing uses a table of it that has been destroyed
by removing all. -/
theorem staysUsable_iff (w : AwareWorld) (l : Nat) (list : MwAwareList)
    (hlist : w.srvc.list l = some list) (ops : List ListOp) (free : Bool) :
    StaysUsable l ops free w ↔ Spared list ops free := by
  have hsound : Held.Sound { w := w } list := ⟨nofun, nofun⟩
  obtain ⟨hspared, hmisused⟩ := runList_of_spared ops free (h := { w := w }) hlist hsound
  have hiff : Held.spared { w := w } list ops free = true ↔ Spared list ops free := by
    rw [Held.spared, Bool.and_eq_true, spared_iff, spared_iff]
    simp [Spared]
  have hsame : Held.settled l { w := w } = w := by
    unfold Held.settled
    rw [settle_false]
  rw [hsame] at hspared
  rw [← hiff]
  refine ⟨?_, hspared⟩
  rintro ⟨h', hrun, -⟩
  cases heq : Held.spared { w := w } list ops free with
  | true => rfl
  | false =>
    rw [hmisused heq] at hrun
    exact nomatch hrun

/-- A service with one new list, and somebody for it -/
def newList : AwareWorld := { mwServiceAwareNew (fun _ => 0) with srvc := mwAwareListNew {} }

def somebody : MwAwareIdBlock := { type := 2, user := some ⟨[97], by decide⟩ }

theorem staysUsable_iff_emptied :
    StaysUsable 0 [.add [somebody], .removeAll, .watch [1]] false newList ↔
      Spared {} [.add [somebody], .removeAll, .watch [1]] false :=
  staysUsable_iff newList 0 {} rfl _ false

/-- A list that has been emptied cannot be filled again. -/
theorem not_staysUsable_refilled :
    ¬ StaysUsable 0 [.add [somebody], .removeAll, .add [somebody]] false newList := by
  have hnone : (runList 0 [.add [somebody], .removeAll, .add [somebody]] false
      { w := newList }).isNone = true := by decide
  rintro ⟨h, hrun, -⟩
  rw [hrun] at hnone
  exact nomatch hnone

end Meanwhile.Aware
