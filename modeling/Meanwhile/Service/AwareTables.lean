-- SUMMARY: The tables of the aware service and of its lists agree with the memberships of the entries, whatever happens.
import Meanwhile.Service.Aware

/-!
# The tables of the aware service

An entry knows the lists that have it, and each list has a table of its entries.
`Linked` relates the two while a list is being changed: the tables of the lists are
given apart, so that a list that is about to be freed can be taken for empty.
Between the steps of a run `Agree` holds.
-/

namespace Meanwhile.Aware

open HashTable

/-! ## The invariant -/

/-- The table of a list, which is empty where there is none -/
def tableOf (s : MwServiceAware) (l : Nat) : Table := ((s.list l).bind (·.entries)).getD []

/-- The entries of the service and the tables of its lists -/
structure Linked (tables : Nat → Table) (s : MwServiceAware) : Prop where
  fresh : ∀ addr, (s.entry addr).isSome → addr < s.nextEntry
  placed : Placed (entryKey s) mwAwareIdBlockHash s.entries
  nodup : (addrs s.entries).Nodup
  inj : ∀ a ∈ addrs s.entries, ∀ b ∈ addrs s.entries, entryKey s a = entryKey s b → a = b
  listPlaced : ∀ l, Placed (entryKey s) mwAwareIdBlockHash (tables l)
  listNodup : ∀ l, (addrs (tables l)).Nodup
  listed : ∀ l, ∀ addr ∈ addrs (tables l), addr ∈ addrs s.entries
  memberNodup : ∀ addr entry, s.entry addr = some entry → entry.membership.Nodup
  member_iff : ∀ addr entry, s.entry addr = some entry → addr ∈ addrs s.entries →
    ∀ l, l ∈ entry.membership ↔ addr ∈ addrs (tables l)

/-- The lists that there are, with their entries -/
structure Coupled (s : MwServiceAware) : Prop where
  linked : Linked (tableOf s) s
  lists : ∀ l, l ∈ s.lists ↔ (s.list l).isSome
  nextList : ∀ l, (s.list l).isSome → l < s.nextList

/-- The state between two steps -/
structure Agree (s : MwServiceAware) : Prop extends Coupled s where
  used : ∀ addr ∈ addrs s.entries, ∀ entry, s.entry addr = some entry → entry.membership ≠ []

variable {s s' : MwServiceAware} {tables : Nat → Table}

/-! ## Single entries -/

@[simp] theorem setEntry_entry_self (addr : Nat) (entry : Option AwareEntry) :
    (setEntry s addr entry).entry addr = entry := Function.update_self ..

theorem setEntry_entry_of_ne {addr addr' : Nat} (h : addr' ≠ addr) (entry : Option AwareEntry) :
    (setEntry s addr entry).entry addr' = s.entry addr' := Function.update_of_ne h ..

theorem entryKey_of_some {addr : Nat} {entry : AwareEntry} (h : s.entry addr = some entry) :
    entryKey s addr = some entry.aware.id := by
  rw [entryKey, h, Option.map_some]

/-- The key of an entry does not change with the rest of it. -/
theorem entryKey_setEntry {addr : Nat} {entry entry' : AwareEntry} (h : s.entry addr = some entry)
    (hid : entry'.aware.id = entry.aware.id) :
    entryKey (setEntry s addr (some entry')) = entryKey s := by
  funext a
  by_cases ha : a = addr
  · subst ha
    rw [entryKey_of_some h, entryKey_of_some (setEntry_entry_self _ _), hid]
  · rw [entryKey, entryKey, setEntry_entry_of_ne ha]

theorem Linked.find_eq_some_iff (h : Linked tables s) (id : MwAwareIdBlock) (addr : Nat) :
    find s s.entries id = some addr ↔ addr ∈ addrs s.entries ∧ entryKey s addr = some id :=
  h.placed.lookup_eq_some_iff h.inj addr

theorem Linked.listFind_eq_some_iff (h : Linked tables s) (l : Nat) (id : MwAwareIdBlock)
    (addr : Nat) :
    find s (tables l) id = some addr ↔ addr ∈ addrs (tables l) ∧ entryKey s addr = some id :=
  (h.listPlaced l).lookup_eq_some_iff
    (fun a ha b hb => h.inj a (h.listed l a ha) b (h.listed l b hb)) addr

/-- An entry gets another membership, and the tables with it. -/
theorem Linked.changed (h : Linked tables s) {addr : Nat} {entry entry' : AwareEntry}
    (hentry : s.entry addr = some entry) (hid : entry'.aware.id = entry.aware.id)
    {tables' : Nat → Table} (hplaced : ∀ l, Placed (entryKey s) mwAwareIdBlockHash (tables' l))
    (hnodup : ∀ l, (addrs (tables' l)).Nodup)
    (hlisted : ∀ l, ∀ a ∈ addrs (tables' l), a ∈ addrs s.entries)
    (hothers : ∀ l a, a ≠ addr → (a ∈ addrs (tables' l) ↔ a ∈ addrs (tables l)))
    (hmemberNodup : entry'.membership.Nodup)
    (hmember : ∀ l, l ∈ entry'.membership ↔ addr ∈ addrs (tables' l)) :
    Linked tables' (setEntry s addr (some entry')) := by
  have hkey := entryKey_setEntry hentry hid
  refine
    { fresh := fun a ha => ?_
      placed := hkey ▸ h.placed
      nodup := h.nodup
      inj := hkey ▸ h.inj
      listPlaced := hkey ▸ hplaced
      listNodup := hnodup
      listed := hlisted
      memberNodup := fun a e ha => ?_
      member_iff := fun a e ha hmem l => ?_ }
  · by_cases hne : a = addr
    · subst hne
      exact h.fresh a (by rw [hentry]; rfl)
    · rw [setEntry_entry_of_ne hne] at ha
      exact h.fresh a ha
  · by_cases hne : a = addr
    · subst hne
      rw [setEntry_entry_self] at ha
      cases ha
      exact hmemberNodup
    · rw [setEntry_entry_of_ne hne] at ha
      exact h.memberNodup a e ha
  · by_cases hne : a = addr
    · subst hne
      rw [setEntry_entry_self] at ha
      cases ha
      exact hmember l
    · rw [setEntry_entry_of_ne hne] at ha
      rw [hothers l a hne]
      exact h.member_iff a e ha hmem l

/-- An entry changes in what the tables do not look at. -/
theorem Linked.kept (h : Linked tables s) {addr : Nat} {entry entry' : AwareEntry}
    (hmem : addr ∈ addrs s.entries) (hentry : s.entry addr = some entry)
    (hid : entry'.aware.id = entry.aware.id) (hmembership : entry'.membership = entry.membership) :
    Linked tables (setEntry s addr (some entry')) :=
  h.changed hentry hid h.listPlaced h.listNodup h.listed (fun _ _ _ => Iff.rfl)
    (hmembership ▸ h.memberNodup addr entry hentry)
    (hmembership ▸ h.member_iff addr entry hentry hmem)

/-- What `Linked` looks at -/
theorem Linked.congr (h : Linked tables s) (hentry : s'.entry = s.entry)
    (hentries : s'.entries = s.entries) (hnext : s'.nextEntry = s.nextEntry) :
    Linked tables s' := by
  have hkey : entryKey s' = entryKey s := by
    funext a
    rw [entryKey, entryKey, hentry]
  refine ⟨?_, ?_, ?_, ?_, ?_, h.listNodup, ?_, ?_, ?_⟩
  · rw [hentry, hnext]
    exact h.fresh
  · rw [hkey, hentries]
    exact h.placed
  · rw [hentries]
    exact h.nodup
  · rw [hkey, hentries]
    exact h.inj
  · rw [hkey]
    exact h.listPlaced
  · rw [hentries]
    exact h.listed
  · rw [hentry]
    exact h.memberNodup
  · rw [hentry, hentries]
    exact h.member_iff

/-! ## What the server says of an entry -/

/-- Handlers of lists change nothing in the tables. -/
theorem tellLists_eq (e : Nat → MwAwareList → Option AwareEvent) (s : MwServiceAware)
    (membership : List Nat) :
    ∃ crashed log, tellLists e s membership = { s with crashed := crashed, log := log } := by
  unfold tellLists
  induction membership generalizing s with
  | nil => exact ⟨s.crashed, s.log, rfl⟩
  | cons l membership ih =>
    rw [List.foldl_cons]
    split
    · exact ih (crash s)
    · split
      · exact ih s
      · exact ih (record s _)

theorem tableOf_congr (hlist : s'.list = s.list) : tableOf s' = tableOf s := by
  funext l
  rw [tableOf, tableOf, hlist]

theorem Coupled.congr (h : Coupled s) (hentry : s'.entry = s.entry)
    (hentries : s'.entries = s.entries) (hnext : s'.nextEntry = s.nextEntry)
    (hlist : s'.list = s.list) (hlists : s'.lists = s.lists)
    (hnextList : s'.nextList = s.nextList) : Coupled s' := by
  refine ⟨?_, ?_, ?_⟩
  · rw [tableOf_congr hlist]
    exact h.linked.congr hentry hentries hnext
  · rw [hlist, hlists]
    exact h.lists
  · rw [hlist, hnextList]
    exact h.nextList

theorem Agree.congr (h : Agree s) (hentry : s'.entry = s.entry) (hentries : s'.entries = s.entries)
    (hnext : s'.nextEntry = s.nextEntry) (hlist : s'.list = s.list) (hlists : s'.lists = s.lists)
    (hnextList : s'.nextList = s.nextList) : Agree s' := by
  refine ⟨h.toCoupled.congr hentry hentries hnext hlist hlists hnextList, ?_⟩
  rw [hentries, hentry]
  exact h.used

/-- An entry that is told about keeps its id and its lists. -/
theorem Agree.tell (h : Agree s) {addr : Nat} {entry : AwareEntry}
    (hmem : addr ∈ addrs s.entries) (hentry : s.entry addr = some entry) (entry' : AwareEntry)
    (hid : entry'.aware.id = entry.aware.id) (hmembership : entry'.membership = entry.membership)
    (e : Nat → MwAwareList → Option AwareEvent) (membership : List Nat) :
    Agree (tellLists e (setEntry s addr (some entry')) membership) := by
  obtain ⟨crashed, log, htell⟩ := tellLists_eq e (setEntry s addr (some entry')) membership
  have hset : Agree (setEntry s addr (some entry')) := by
    refine ⟨⟨h.linked.kept hmem hentry hid hmembership, h.lists, h.nextList⟩, ?_⟩
    intro a ha e' he'
    by_cases hne : a = addr
    · subst hne
      rw [setEntry_entry_self] at he'
      cases he'
      rw [hmembership]
      exact h.used a ha entry hentry
    · rw [setEntry_entry_of_ne hne] at he'
      exact h.used a ha e' he'
  rw [htell]
  exact hset.congr rfl rfl rfl rfl rfl rfl

theorem Linked.awareFind (h : Linked tables s) (id : MwAwareIdBlock) :
    (∃ crashed, awareFind s id = (none, { s with crashed := crashed })) ∨
      ∃ addr, awareFind s id = (some addr, s) ∧ addr ∈ addrs s.entries ∧
        entryKey s addr = some id := by
  unfold Aware.awareFind
  split
  · exact .inl ⟨true, rfl⟩
  · cases hfind : find s s.entries id with
    | none => exact .inl ⟨s.crashed, rfl⟩
    | some addr => exact .inr ⟨addr, rfl, (h.find_eq_some_iff id addr).mp hfind⟩

theorem Agree.crash (h : Agree s) : Agree (crash s) := h.congr rfl rfl rfl rfl rfl rfl

theorem mwAwareSnapshotClone_id (idb : MwAwareSnapshot) : (mwAwareSnapshotClone idb).id = idb.id := by
  unfold mwAwareSnapshotClone
  split <;> rfl

theorem Agree.statusRecv (h : Agree s) (idb : MwAwareSnapshot) : Agree (statusRecv idb s) := by
  unfold Aware.statusRecv
  obtain ⟨crashed, heq⟩ | ⟨addr, heq, hmem, hkey⟩ := h.linked.awareFind idb.id
  · rw [heq]
    exact h.congr rfl rfl rfl rfl rfl rfl
  · rw [heq]
    dsimp only
    split
    · exact h.crash
    · rename_i entry hentry
      have hid : idb.id = entry.aware.id :=
        Option.some.inj (hkey.symm.trans (entryKey_of_some hentry))
      refine h.tell hmem hentry _ ?_ ?_ _ _
      · exact (mwAwareSnapshotClone_id idb).trans hid
      · rfl

theorem Agree.attribRecv (h : Agree s) (idb : MwAwareIdBlock) (key : UInt32) (data : MwOpaque) :
    Agree (attribRecv idb key data s) := by
  unfold Aware.attribRecv
  obtain ⟨crashed, heq⟩ | ⟨addr, heq, hmem, -⟩ := h.linked.awareFind idb
  · rw [heq]
    exact h.congr rfl rfl rfl rfl rfl rfl
  · rw [heq]
    dsimp only
    split
    · exact h.crash
    · rename_i entry hentry
      refine h.tell hmem hentry _ ?_ ?_ _ _
      · rfl
      · rfl

/-! ## Adding to a list -/

@[simp] theorem setList_list_self (l : Nat) (list : Option MwAwareList) :
    (setList s l list).list l = list := Function.update_self ..

theorem setList_list_of_ne {l l' : Nat} (h : l' ≠ l) (list : Option MwAwareList) :
    (setList s l list).list l' = s.list l' := Function.update_of_ne h ..

theorem tableOf_of_some {l : Nat} {list : MwAwareList} (h : s.list l = some list) :
    tableOf s l = list.entries.getD [] := by
  rw [tableOf, h, Option.bind_some]

/-- The tables after one of them has been set -/
theorem tableOf_setList (l : Nat) (list : MwAwareList) :
    tableOf (setList s l (some list)) = Function.update (tableOf s) l (list.entries.getD []) := by
  funext l'
  by_cases hl : l' = l
  · subst hl
    rw [Function.update_self]
    exact tableOf_of_some (setList_list_self _ _)
  · rw [Function.update_of_ne hl, tableOf, tableOf, setList_list_of_ne hl]

/-- A list that is there gets another table. -/
theorem Coupled.setList (h : Coupled s) {l : Nat} {list list' : MwAwareList}
    (hlist : s.list l = some list)
    (hlinked : Linked (Function.update (tableOf s) l (list'.entries.getD [])) s')
    (hlist' : s'.list = s.list) (hlists : s'.lists = s.lists) (hnext : s'.nextList = s.nextList) :
    Coupled (setList s' l (some list')) := by
  have hsome : ∀ l', ((Aware.setList s' l (some list')).list l').isSome = (s.list l').isSome := by
    intro l'
    by_cases hl : l' = l
    · subst hl
      rw [setList_list_self, hlist]
      rfl
    · rw [setList_list_of_ne hl, hlist']
  refine ⟨?_, fun l' => ?_, fun l' hl' => ?_⟩
  · rw [tableOf_setList, tableOf_congr hlist']
    exact hlinked.congr rfl rfl rfl
  · rw [hsome]
    exact hlists ▸ h.lists l'
  · rw [hsome] at hl'
    exact hnext ▸ h.nextList l' hl'

@[simp] theorem addrs_newEntry (id : MwAwareIdBlock) (s : MwServiceAware) :
    addrs (newEntry id s).entries = addrs s.entries ++ [s.nextEntry] := addrs_insert ..

/-- A new entry, which no list has yet -/
theorem Linked.newEntry (h : Linked tables s) {id : MwAwareIdBlock}
    (hnew : find s s.entries id = none) :
    Linked tables (newEntry id s) := by
  have hold : ∀ a, (s.entry a).isSome → a ≠ s.nextEntry := fun a ha => (h.fresh a ha).ne
  have hin : ∀ a ∈ addrs s.entries, (s.entry a).isSome := by
    intro a ha
    obtain ⟨n, hn, rfl⟩ := List.mem_map.mp ha
    obtain ⟨k, hk, -⟩ := h.placed n hn
    obtain ⟨e, he, -⟩ := Option.map_eq_some_iff.mp hk
    rw [he]
    rfl
  have hne : ∀ a ∈ addrs s.entries, a ≠ s.nextEntry := fun a ha => hold a (hin a ha)
  have hkey : ∀ a ∈ addrs s.entries,
      entryKey (Aware.setEntry s s.nextEntry (some { aware := { id := id } })) a = entryKey s a := by
    intro a ha
    rw [entryKey, entryKey, setEntry_entry_of_ne (hne a ha)]
  have hself : entryKey (Aware.setEntry s s.nextEntry (some { aware := { id := id } })) s.nextEntry =
      some id := entryKey_of_some (setEntry_entry_self _ _)
  have hnot := h.placed.lookup_eq_none_iff.mp hnew
  refine
    { fresh := fun a ha => ?_
      placed := (h.placed.congr hkey).insert hself
      nodup := ?_
      inj := fun a ha b hb heq => ?_
      listPlaced := fun l => (h.listPlaced l).congr fun a ha => hkey a (h.listed l a ha)
      listNodup := h.listNodup
      listed := fun l a ha => ?_
      memberNodup := fun a e ha => ?_
      member_iff := fun a e ha hmem l => ?_ }
  · by_cases hne : a = s.nextEntry
    · exact hne ▸ Nat.lt_succ_self _
    · have ha' : (s.entry a).isSome := by
        rw [← setEntry_entry_of_ne hne]
        exact ha
      exact (h.fresh a ha').trans (Nat.lt_succ_self _)
  · rw [addrs_newEntry]
    exact List.nodup_append.mpr ⟨h.nodup, List.nodup_singleton _, fun a ha b hb => by
      cases List.mem_singleton.mp hb
      exact hne a ha⟩
  · rw [addrs_newEntry] at ha hb
    change entryKey (Aware.setEntry s s.nextEntry _) a = entryKey (Aware.setEntry s s.nextEntry _) b at heq
    rcases List.mem_append.mp ha with ha | ha <;> rcases List.mem_append.mp hb with hb | hb
    · rw [hkey a ha, hkey b hb] at heq
      exact h.inj a ha b hb heq
    · cases List.mem_singleton.mp hb
      rw [hkey a ha, hself] at heq
      exact absurd heq (hnot a ha)
    · cases List.mem_singleton.mp ha
      rw [hkey b hb, hself] at heq
      exact absurd heq.symm (hnot b hb)
    · cases List.mem_singleton.mp ha
      cases List.mem_singleton.mp hb
      rfl
  · rw [addrs_newEntry]
    exact List.mem_append_left _ (h.listed l a ha)
  · by_cases hne : a = s.nextEntry
    · subst hne
      cases (setEntry_entry_self _ _).symm.trans ha
      exact List.nodup_nil
    · exact h.memberNodup a e ((setEntry_entry_of_ne hne _).symm.trans ha)
  · by_cases hne : a = s.nextEntry
    · subst hne
      cases (setEntry_entry_self _ _).symm.trans ha
      refine ⟨nofun, fun hl => absurd rfl (hne _ (h.listed l _ hl))⟩
    · rw [addrs_newEntry] at hmem
      have hmem : a ∈ addrs s.entries := by
        rcases List.mem_append.mp hmem with hmem | hmem
        · exact hmem
        · exact absurd (List.mem_singleton.mp hmem) hne
      exact h.member_iff a e ((setEntry_entry_of_ne hne _).symm.trans ha) hmem l

/-- An entry is put in a list that does not have it. -/
theorem Linked.enlist (h : Linked tables s) {l addr : Nat} {entry : AwareEntry}
    (hmem : addr ∈ addrs s.entries) (hentry : s.entry addr = some entry)
    (hnot : addr ∉ addrs (tables l)) :
    Linked
      (Function.update tables l (insert (mwAwareIdBlockHash entry.aware.id) addr (tables l)))
      (Aware.setEntry s addr (some { entry with membership := entry.membership ++ [l] })) := by
  have hkey := entryKey_of_some hentry
  have hl : l ∉ entry.membership := fun hl => hnot ((h.member_iff addr entry hentry hmem l).mp hl)
  have htables : ∀ l' a, a ∈ addrs
      (Function.update tables l (insert (mwAwareIdBlockHash entry.aware.id) addr (tables l)) l') ↔
        a ∈ addrs (tables l') ∨ l' = l ∧ a = addr := by
    intro l' a
    by_cases hl' : l' = l
    · subst hl'
      rw [Function.update_self, addrs_insert, List.mem_append, List.mem_singleton]
      simp
    · rw [Function.update_of_ne hl']
      simp [hl']
  refine h.changed hentry ?_ (fun l' => ?_) (fun l' => ?_) (fun l' a ha => ?_)
    (fun l' a hne => ?_) ?_ (fun l' => ?_)
  · rfl
  · by_cases hl' : l' = l
    · subst hl'
      rw [Function.update_self]
      exact (h.listPlaced l').insert hkey
    · rw [Function.update_of_ne hl']
      exact h.listPlaced l'
  · by_cases hl' : l' = l
    · subst hl'
      rw [Function.update_self, addrs_insert]
      exact List.nodup_append.mpr ⟨h.listNodup l', List.nodup_singleton _, fun a ha b hb => by
        cases List.mem_singleton.mp hb
        exact fun heq => hnot (heq ▸ ha)⟩
    · rw [Function.update_of_ne hl']
      exact h.listNodup l'
  · rcases (htables l' a).mp ha with ha | ⟨-, rfl⟩
    · exact h.listed l' a ha
    · exact hmem
  · rw [htables]
    simp [hne]
  · exact List.nodup_append.mpr ⟨h.memberNodup addr entry hentry, List.nodup_singleton _,
      fun a ha b hb => by
        cases List.mem_singleton.mp hb
        exact fun heq => hl (heq ▸ ha)⟩
  · rw [htables, List.mem_append, List.mem_singleton, h.member_iff addr entry hentry hmem l']
    simp

theorem Linked.entry_isSome (h : Linked tables s) {addr : Nat} (hmem : addr ∈ addrs s.entries) :
    ∃ entry, s.entry addr = some entry := by
  obtain ⟨n, hn, rfl⟩ := List.mem_map.mp hmem
  obtain ⟨k, hk, -⟩ := h.placed n hn
  obtain ⟨entry, hentry, -⟩ := Option.map_eq_some_iff.mp hk
  exact ⟨entry, hentry⟩

/-- The entry for an id, which is new or not -/
theorem Linked.entryFor (h : Linked tables s) (id : MwAwareIdBlock) :
    ∃ addr s', entryFor id s = (addr, s') ∧ Linked tables s' ∧ addr ∈ addrs s'.entries ∧
      entryKey s' addr = some id ∧
      (s' = s ∨ find s s.entries id = none ∧ addr = s.nextEntry ∧ s' = Aware.newEntry id s) := by
  unfold Aware.entryFor
  cases hfind : find s s.entries id with
  | some addr =>
    obtain ⟨hmem, hkey⟩ := (h.find_eq_some_iff id addr).mp hfind
    exact ⟨addr, s, rfl, h, hmem, hkey, .inl rfl⟩
  | none =>
    refine ⟨s.nextEntry, Aware.newEntry id s, rfl, h.newEntry hfind, ?_, ?_, .inr ⟨rfl, rfl, rfl⟩⟩
    · rw [addrs_newEntry]
      exact List.mem_append_right _ (List.mem_singleton_self _)
    · exact entryKey_of_some (setEntry_entry_self _ _)

theorem Agree.listAdd (h : Agree s) {l : Nat} {list : MwAwareList} (hlist : s.list l = some list)
    (id : MwAwareIdBlock) : Agree (listAdd l list id s).2 := by
  have htable := tableOf_of_some hlist
  have hs : Agree (Aware.setList s l (some { list with entries := some (list.entries.getD []) })) := by
    refine ⟨h.toCoupled.setList hlist ?_ rfl rfl rfl, h.used⟩
    rw [Option.getD_some, ← htable, Function.update_eq_self]
    exact h.linked
  unfold Aware.listAdd
  dsimp only
  generalize hs' : Aware.setList s l (some { list with entries := some (list.entries.getD []) }) = s₀
    at hs ⊢
  have hlist₀ : s₀.list l = some { list with entries := some (list.entries.getD []) } := by
    rw [← hs', setList_list_self]
  have htable₀ : tableOf s₀ l = list.entries.getD [] := by
    rw [tableOf_of_some hlist₀, Option.getD_some]
  split
  · exact hs
  · rename_i hnew
    rw [← htable₀] at hnew ⊢
    obtain ⟨addr, s₁, heq, hlinked, hmem, hkey, hcases⟩ := hs.linked.entryFor id
    obtain ⟨entry, hentry⟩ := hlinked.entry_isSome hmem
    obtain rfl : entry.aware.id = id := Option.some.inj ((entryKey_of_some hentry).symm.trans hkey)
    have hframe : s₁.list = s₀.list ∧ s₁.lists = s₀.lists ∧ s₁.nextList = s₀.nextList := by
      rcases hcases with rfl | ⟨-, -, rfl⟩ <;> exact ⟨rfl, rfl, rfl⟩
    have hnot : addr ∉ addrs (tableOf s₀ l) := by
      intro hmem'
      rcases hcases with rfl | ⟨-, rfl, -⟩
      · exact (hlinked.listPlaced l).lookup_eq_none_iff.mp hnew addr hmem' hkey
      · obtain ⟨e, he⟩ := hs.linked.entry_isSome (hs.linked.listed l _ hmem')
        exact (hs.linked.fresh _ (by rw [he]; rfl)).ne rfl
    rw [heq]
    dsimp only
    unfold join
    rw [hentry]
    dsimp only
    refine ⟨hs.toCoupled.setList hlist₀ (hlinked.enlist hmem hentry hnot) hframe.1 hframe.2.1
      hframe.2.2, fun a ha e he => ?_⟩
    by_cases hne : a = addr
    · subst hne
      cases (setEntry_entry_self _ _).symm.trans he
      simp
    · have he' : s₁.entry a = some e := (setEntry_entry_of_ne hne _).symm.trans he
      rcases hcases with rfl | ⟨-, rfl, rfl⟩
      · exact hs.used a ha e he'
      · change a ∈ addrs (newEntry entry.aware.id s₀).entries at ha
        rw [addrs_newEntry] at ha
        rcases List.mem_append.mp ha with ha | ha
        · exact hs.used a ha e ((setEntry_entry_of_ne hne _).symm.trans he')
        · exact absurd (List.mem_singleton.mp ha) hne

theorem Agree.listAddId (h : Agree s) (l : Nat) (id : MwAwareIdBlock) :
    Agree (listAddId l id s).2 := by
  unfold Aware.listAddId
  split
  · exact h.crash
  · rename_i list hlist
    split
    · exact h
    · exact h.listAdd hlist id

theorem Agree.addAll (l : Nat) (ids additions : List MwAwareIdBlock) (h : Agree s) :
    Agree (addAll l ids additions s).2 := by
  induction ids generalizing additions s with
  | nil => exact h
  | cons id ids ih => exact ih _ (h.listAddId l id)

@[simp] theorem send_srvc (w : AwareWorld) (msg : AwareMsg) : (send w msg).srvc = w.srvc := by
  unfold send World.mwChannelSend
  split
  · rfl
  · split
    · rfl
    · split <;> rfl

theorem Agree.addAware {w : AwareWorld} (h : Agree w.srvc) (l : Nat) (ids : List MwAwareIdBlock) :
    Agree (mwAwareListAddAware l ids w).srvc := by
  unfold mwAwareListAddAware
  have hs := h.addAll l ids []
  dsimp only
  split
  · rw [sendAdd, send_srvc]
    exact hs
  · exact hs

theorem Agree.groupMemberRecv {w : AwareWorld} (h : Agree w.srvc) (idb : MwAwareSnapshot) :
    Agree (groupMemberRecv idb w).srvc := by
  have hloop : ∀ (membership : List Nat) (w : AwareWorld), Agree w.srvc →
      Agree (membership.foldl (fun w l => mwAwareListAddAware l [idb.id] w) w).srvc := by
    intro membership
    induction membership with
    | nil => exact fun _ h => h
    | cons l membership ih => exact fun w h => ih _ (h.addAware l [idb.id])
  unfold Aware.groupMemberRecv
  obtain ⟨crashed, heq⟩ | ⟨addr, heq, -, -⟩ :=
    h.linked.awareFind { type := mwAwareGroup, user := idb.group }
  · rw [heq]
    exact h.congr rfl rfl rfl rfl rfl rfl
  · rw [heq]
    dsimp only
    split
    · exact h.crash
    · exact hloop _ _ h

/-! ## Entries that nobody has -/

/-- The service without the entries that no list has -/
def sweep (s : MwServiceAware) : MwServiceAware :=
  (s.entries.filter (dead s)).foldl (fun s n => setEntry s n.addr none)
    { s with entries := s.entries.filter (! dead s ·) }

theorem removeUnused_srvc (w : AwareWorld) : (removeUnused w).srvc = sweep w.srvc := by
  unfold removeUnused sweep
  dsimp only
  split
  · rename_i hempty
    rw [List.isEmpty_iff.mp hempty]
    rfl
  · split
    · rw [sendRem, send_srvc]
    · rfl

theorem foldl_setEntry (gone : List Node) (s : MwServiceAware) :
    gone.foldl (fun s n => setEntry s n.addr none) s =
      { s with entry := fun a => if a ∈ addrs gone then none else s.entry a } := by
  induction gone generalizing s with
  | nil => simp [addrs]
  | cons n gone ih =>
    rw [List.foldl_cons, ih]
    unfold setEntry
    congr 1
    funext a
    by_cases ha : a = n.addr
    · subst ha
      simp [addrs]
    · simp [addrs, ha]

/-- An entry is swept if no list has it. -/
theorem sweep_entry {addr : Nat} {entry : AwareEntry}
    (hmem : addr ∈ addrs s.entries) (hentry : s.entry addr = some entry) :
    (addr ∈ addrs (s.entries.filter (dead s)) ↔ entry.membership = []) ∧
      (addr ∈ addrs (s.entries.filter (! dead s ·)) ↔ entry.membership ≠ []) := by
  have hdead : ∀ n : Node, n.addr = addr → (dead s n = true ↔ entry.membership = []) := by
    rintro n rfl
    simp [dead, hentry]
  obtain ⟨n, hn, hnaddr⟩ := List.mem_map.mp hmem
  constructor
  · constructor
    · intro ha
      obtain ⟨n', hn', hn'addr⟩ := List.mem_map.mp ha
      exact (hdead n' hn'addr).mp (List.mem_filter.mp hn').2
    · intro hempty
      exact List.mem_map.mpr ⟨n, List.mem_filter.mpr ⟨hn, (hdead n hnaddr).mpr hempty⟩, hnaddr⟩
  · constructor
    · intro ha
      obtain ⟨n', hn', hn'addr⟩ := List.mem_map.mp ha
      have hnot := (List.mem_filter.mp hn').2
      intro hempty
      rw [(hdead n' hn'addr).mpr hempty] at hnot
      cases hnot
    · intro hne
      refine List.mem_map.mpr ⟨n, List.mem_filter.mpr ⟨hn, ?_⟩, hnaddr⟩
      simpa using fun hd => hne ((hdead n hnaddr).mp hd)

theorem Linked.sweep (h : Linked tables s) :
    Linked tables (sweep s) ∧ ∀ addr ∈ addrs (Aware.sweep s).entries, ∀ entry,
      (Aware.sweep s).entry addr = some entry → entry.membership ≠ [] := by
  have hsweep : Aware.sweep s =
      { s with
        entries := s.entries.filter (! dead s ·)
        entry := fun a => if a ∈ addrs (s.entries.filter (dead s)) then none else s.entry a } :=
    foldl_setEntry _ _
  have hsub : ∀ a ∈ addrs (s.entries.filter (! dead s ·)), a ∈ addrs s.entries := by
    intro a ha
    obtain ⟨n, hn, rfl⟩ := List.mem_map.mp ha
    exact List.mem_map_of_mem (List.mem_filter.mp hn).1
  -- what is left in the table is left in memory
  have hleft : ∀ a ∈ addrs (s.entries.filter (! dead s ·)), (Aware.sweep s).entry a = s.entry a := by
    intro a ha
    obtain ⟨entry, hentry⟩ := h.entry_isSome (hsub a ha)
    have hspec := sweep_entry (hsub a ha) hentry
    rw [hsweep]
    exact if_neg fun hgone => hspec.2.mp ha (hspec.1.mp hgone)
  have hsome : ∀ a e, (Aware.sweep s).entry a = some e → s.entry a = some e := by
    intro a e he
    rw [hsweep] at he
    dsimp only at he
    split at he
    · cases he
    · exact he
  have hkey : ∀ a ∈ addrs (s.entries.filter (! dead s ·)), entryKey (Aware.sweep s) a = entryKey s a := by
    intro a ha
    rw [entryKey, entryKey, hleft a ha]
  have hlisted : ∀ l, ∀ a ∈ addrs (tables l), a ∈ addrs (s.entries.filter (! dead s ·)) := by
    intro l a ha
    obtain ⟨entry, hentry⟩ := h.entry_isSome (h.listed l a ha)
    refine (sweep_entry (h.listed l a ha) hentry).2.mpr fun hempty => ?_
    have hl := (h.member_iff a entry hentry (h.listed l a ha) l).mpr ha
    rw [hempty] at hl
    cases hl
  have hentries : (Aware.sweep s).entries = s.entries.filter (! dead s ·) := by rw [hsweep]
  have hnext : (Aware.sweep s).nextEntry = s.nextEntry := by rw [hsweep]
  refine ⟨⟨fun a ha => ?_, ?_, ?_, ?_, fun l => ?_, h.listNodup, ?_, fun a e he => ?_,
    fun a e he hmem l => ?_⟩, fun a ha entry hentry => ?_⟩
  · obtain ⟨e, he⟩ := Option.isSome_iff_exists.mp ha
    exact hnext ▸ h.fresh a (by rw [hsome a e he]; rfl)
  · rw [hentries]
    exact (h.placed.subset List.filter_sublist.subset).congr hkey
  · rw [hentries]
    exact h.nodup.sublist (List.filter_sublist.map _)
  · rw [hentries]
    intro a ha b hb heq
    rw [hkey a ha, hkey b hb] at heq
    exact h.inj a (hsub a ha) b (hsub b hb) heq
  · exact (h.listPlaced l).congr fun a ha => hkey a (hlisted l a ha)
  · rw [hentries]
    exact hlisted
  · exact h.memberNodup a e (hsome a e he)
  · rw [hentries] at hmem
    exact h.member_iff a e (hsome a e he) (hsub a hmem) l
  · rw [hentries] at ha
    exact (sweep_entry (hsub a ha) (hsome a entry hentry)).2.mp ha

/-! ## Removing from a list -/

/-- An entry is taken out of a list that has it. -/
theorem Linked.delist (h : Linked tables s) {l addr : Nat} {entry : AwareEntry} {table : Table}
    (hmem : addr ∈ addrs (tables l)) (hentry : s.entry addr = some entry)
    (hplaced : Placed (entryKey s) mwAwareIdBlockHash table) (hnodup : (addrs table).Nodup)
    (htable : ∀ a, a ∈ addrs table ↔ a ∈ addrs (tables l) ∧ a ≠ addr) :
    Linked (Function.update tables l table)
      (setEntry s addr (some { entry with membership := entry.membership.erase l })) := by
  have hin := h.listed l addr hmem
  have htables : ∀ l' a, a ∈ addrs (Function.update tables l table l') ↔
      a ∈ addrs (tables l') ∧ (l' = l → a ≠ addr) := by
    intro l' a
    by_cases hl' : l' = l
    · subst hl'
      rw [Function.update_self, htable]
      simp
    · rw [Function.update_of_ne hl']
      simp [hl']
  have hmemberNodup := h.memberNodup addr entry hentry
  refine h.changed hentry ?_ (fun l' => ?_) (fun l' => ?_) (fun l' a ha => ?_)
    (fun l' a hne => ?_) ?_ (fun l' => ?_)
  · rfl
  · by_cases hl' : l' = l
    · subst hl'
      rw [Function.update_self]
      exact hplaced
    · rw [Function.update_of_ne hl']
      exact h.listPlaced l'
  · by_cases hl' : l' = l
    · subst hl'
      rw [Function.update_self]
      exact hnodup
    · rw [Function.update_of_ne hl']
      exact h.listNodup l'
  · exact h.listed l' a ((htables l' a).mp ha).1
  · rw [htables]
    simp [hne]
  · exact hmemberNodup.erase l
  · rw [htables, hmemberNodup.mem_erase_iff, h.member_iff addr entry hentry hin l']
    simp [and_comm]

theorem dismember_of_some {l addr : Nat} {entry : AwareEntry} (hentry : s.entry addr = some entry) :
    dismember l s addr =
      setEntry s addr (some { entry with membership := entry.membership.erase l }) := by
  simp [dismember, hentry]

theorem Coupled.removeId (h : Coupled s) (l : Nat) (id : MwAwareIdBlock) :
    Coupled (removeId l s id) := by
  have hcrash : Coupled (crash s) := h.congr rfl rfl rfl rfl rfl rfl
  unfold Aware.removeId
  split
  · exact hcrash
  · rename_i list hlist
    split
    · exact h
    · rename_i entries hentries
      split
      · exact hcrash
      · split
        · exact h
        · rename_i addr hfind
          have htable : tableOf s l = entries := by
            rw [tableOf_of_some hlist, hentries, Option.getD_some]
          rw [← htable] at hfind ⊢
          obtain ⟨hmem, hkey⟩ := (h.linked.listFind_eq_some_iff l id addr).mp hfind
          obtain ⟨entry, hentry⟩ := h.linked.entry_isSome (h.linked.listed l addr hmem)
          dsimp only
          rw [dismember_of_some hentry, entryKey_setEntry hentry (by rfl)]
          have hplaced := h.linked.listPlaced l
          have hinj : ∀ a ∈ addrs (tableOf s l), ∀ b ∈ addrs (tableOf s l),
              entryKey s a = entryKey s b → a = b :=
            fun a ha b hb => h.linked.inj a (h.linked.listed l a ha) b (h.linked.listed l b hb)
          refine h.setList hlist (h.linked.delist hmem hentry ?_ ?_ fun a => ?_) rfl rfl rfl
          · exact hplaced.subset List.eraseP_sublist.subset
          · exact (h.linked.listNodup l).sublist (addrs_remove_sublist _ _ _ _)
          · rw [Option.getD_some, hplaced.mem_addrs_remove (h.linked.listNodup l) hinj]
            refine and_congr_right fun ha => not_congr ⟨fun hka => ?_, ?_⟩
            · exact hinj a ha addr hmem (hka.trans hkey.symm)
            · rintro rfl
              exact hkey

theorem Coupled.removeIds (h : Coupled s) (l : Nat) (ids : List MwAwareIdBlock) :
    Coupled (ids.foldl (Aware.removeId l) s) := by
  induction ids generalizing s with
  | nil => exact h
  | cons id ids ih => exact ih (h.removeId l id)

theorem sweep_frame (s : MwServiceAware) :
    (sweep s).list = s.list ∧ (sweep s).lists = s.lists ∧ (sweep s).nextList = s.nextList := by
  unfold sweep
  rw [foldl_setEntry]
  exact ⟨rfl, rfl, rfl⟩

/-- What is left of the entries after a sweep is used. -/
theorem Coupled.sweep (h : Coupled s) : Agree (sweep s) := by
  obtain ⟨hlist, hlists, hnext⟩ := sweep_frame s
  obtain ⟨hlinked, hused⟩ := h.linked.sweep
  refine ⟨⟨?_, ?_, ?_⟩, hused⟩
  · rw [tableOf_congr hlist]
    exact hlinked
  · rw [hlist, hlists]
    exact h.lists
  · rw [hlist, hnext]
    exact h.nextList

theorem Agree.removeAware {w : AwareWorld} (h : Agree w.srvc) (l : Nat)
    (ids : List MwAwareIdBlock) : Agree (mwAwareListRemoveAware l ids w).srvc := by
  unfold mwAwareListRemoveAware
  rw [removeUnused_srvc]
  exact (h.toCoupled.removeIds l ids).sweep

/-! ## Freeing a list -/

/-- Every entry of a list is taken out of it. -/
theorem Linked.dismemberAll {l : Nat} (table : Table) (h : Linked (Function.update tables l table) s) :
    Linked (Function.update tables l []) ((addrs table).foldl (dismember l) s) ∧
      ∃ entry, (addrs table).foldl (dismember l) s = { s with entry := entry } := by
  induction table generalizing s with
  | nil => exact ⟨h, s.entry, rfl⟩
  | cons n table ih =>
    have hmem : n.addr ∈ addrs (Function.update tables l (n :: table) l) := by
      rw [Function.update_self]
      exact List.mem_cons_self
    obtain ⟨entry, hentry⟩ := h.entry_isSome (h.listed l n.addr hmem)
    have hnodup := h.listNodup l
    have hplaced := h.listPlaced l
    rw [Function.update_self] at hnodup hplaced
    obtain ⟨hnot, hnodup⟩ := List.nodup_cons.mp hnodup
    have hdelist := h.delist hmem hentry (hplaced.subset (List.subset_cons_self n table)) hnodup
      (fun a => by
        rw [Function.update_self]
        change _ ↔ a ∈ n.addr :: addrs table ∧ _
        rw [List.mem_cons]
        constructor
        · intro ha
          exact ⟨.inr ha, fun heq => hnot (heq ▸ ha)⟩
        · rintro ⟨rfl | ha, hne⟩
          · exact absurd rfl hne
          · exact ha)
    rw [Function.update_idem] at hdelist
    change Linked _ ((addrs table).foldl (dismember l) (dismember l s n.addr)) ∧
      ∃ entry, (addrs table).foldl (dismember l) (dismember l s n.addr) = _
    rw [dismember_of_some hentry]
    obtain ⟨hlinked, entry', heq⟩ := ih hdelist
    exact ⟨hlinked, entry', heq⟩

theorem removeUnusedAttrib_srvc (w : AwareWorld) :
    ∃ attribs, (removeUnusedAttrib w).srvc = { w.srvc with attribs := attribs } := by
  unfold removeUnusedAttrib
  dsimp only
  split
  · rw [sendAttribList, send_srvc]
    exact ⟨_, rfl⟩
  · exact ⟨_, rfl⟩

theorem unwatchAllAttributes_srvc (l : Nat) (list : MwAwareList) (w : AwareWorld) :
    ∃ attribs, (mwAwareListUnwatchAllAttributes l list w).srvc = { w.srvc with attribs := attribs } :=
  removeUnusedAttrib_srvc _

/-- A list is taken from the lists of the service, emptied and freed. -/
theorem Agree.freeList (h : Agree s) {l : Nat} {list : MwAwareList} (hlist : s.list l = some list)
    (hentry : s'.entry = s.entry) (hentries : s'.entries = s.entries)
    (hnext : s'.nextEntry = s.nextEntry) (hlist' : s'.list = s.list)
    (hlists : s'.lists = s.lists.filter (· ≠ l)) (hnextList : s'.nextList = s.nextList) :
    Agree (setList (sweep ((addrs (list.entries.getD [])).foldl (dismember l) s')) l none) ∧
      (setList (sweep ((addrs (list.entries.getD [])).foldl (dismember l) s')) l none).list =
        Function.update s.list l none := by
  have hlinked : Linked (Function.update (tableOf s) l (list.entries.getD [])) s' := by
    rw [← tableOf_of_some hlist, Function.update_eq_self]
    exact h.linked.congr hentry hentries hnext
  obtain ⟨hempty, entry, heq⟩ := hlinked.dismemberAll (list.entries.getD [])
  obtain ⟨hswept, hused⟩ := hempty.sweep
  obtain ⟨hlist₁, hlists₁, hnext₁⟩ :=
    sweep_frame ((addrs (list.entries.getD [])).foldl (dismember l) s')
  rw [heq] at hlist₁ hlists₁ hnext₁ hswept hused ⊢
  generalize sweep { s' with entry := entry } = s₁ at hlist₁ hlists₁ hnext₁ hswept hused ⊢
  have hfreed : (setList s₁ l none).list = Function.update s.list l none := by
    change Function.update s₁.list l none = _
    rw [hlist₁, hlist']
  refine ⟨⟨⟨?_, fun l' => ?_, fun l' hl' => ?_⟩, hused⟩, hfreed⟩
  · have htables : tableOf (setList s₁ l none) = Function.update (tableOf s) l [] := by
      funext l'
      rw [tableOf, hfreed]
      by_cases hl : l' = l
      · subst hl
        rw [Function.update_self, Function.update_self]
        rfl
      · rw [Function.update_of_ne hl, Function.update_of_ne hl, tableOf]
    rw [htables]
    exact hswept.congr rfl rfl rfl
  · rw [hfreed]
    change l' ∈ s₁.lists ↔ _
    rw [hlists₁, hlists, List.mem_filter, h.lists]
    by_cases hl : l' = l
    · subst hl
      simp
    · simp [hl]
  · rw [hfreed] at hl'
    change l' < s₁.nextList
    rw [hnext₁, hnextList]
    by_cases hl : l' = l
    · subst hl
      rw [Function.update_self] at hl'
      cases hl'
    · rw [Function.update_of_ne hl] at hl'
      exact h.nextList l' hl'

theorem Agree.listFree {w : AwareWorld} (h : Agree w.srvc) (l : Nat) :
    Agree (mwAwareListFree l w).srvc ∧
      (mwAwareListFree l w).srvc.list = Function.update w.srvc.list l none := by
  unfold mwAwareListFree
  split
  · rename_i hnone
    exact ⟨h, by rw [← hnone, Function.update_eq_self]⟩
  · rename_i list hlist
    dsimp only
    generalize hw : ({ w with srvc := record { w.srvc with
      lists := w.srvc.lists.filter (· ≠ l) } (.clear l) } : AwareWorld) = w₀
    obtain ⟨attribs, hattribs⟩ := unwatchAllAttributes_srvc l list w₀
    rw [mwAwareListRemoveAllAware, removeUnused_srvc, hattribs]
    subst hw
    exact h.freeList hlist rfl rfl rfl rfl rfl rfl

/-! ## Whole runs -/

theorem Agree.listNew (h : Agree s) : Agree (mwAwareListNew s) := by
  have hnew : s.list s.nextList = none := by
    cases hlist : s.list s.nextList with
    | none => rfl
    | some list => exact absurd (h.nextList _ (by rw [hlist]; rfl)) (Nat.lt_irrefl _)
  have htables : tableOf (mwAwareListNew s) = tableOf s := by
    change tableOf (setList s s.nextList (some {})) = _
    rw [tableOf_setList]
    have hempty : tableOf s s.nextList = [] := by
      rw [tableOf, hnew]
      rfl
    change Function.update (tableOf s) s.nextList [] = _
    rw [← hempty, Function.update_eq_self]
  refine ⟨⟨?_, fun l => ?_, fun l hl => ?_⟩, h.used⟩
  · rw [htables]
    exact h.linked.congr rfl rfl rfl
  · change l ∈ s.nextList :: s.lists ↔ ((setList s s.nextList (some {})).list l).isSome
    rw [List.mem_cons, h.lists]
    by_cases hl : l = s.nextList
    · subst hl
      simp
    · rw [setList_list_of_ne hl]
      simp [hl]
  · change l < s.nextList + 1
    by_cases heq : l = s.nextList
    · exact heq ▸ Nat.lt_succ_self _
    · have hold : ((setList s s.nextList (some {})).list l).isSome := hl
      rw [setList_list_of_ne heq] at hold
      exact (h.nextList l hold).trans (Nat.lt_succ_self _)

/-- Changes of what is watched -/
theorem Agree.watch {f : MwServiceAware → UInt32 → MwServiceAware}
    (hf : ∀ s key, Agree s → Agree (f s key)) (keys : List UInt32) (h : Agree s) :
    Agree (keys.foldl f s) := by
  induction keys generalizing s with
  | nil => exact h
  | cons key keys ih => exact ih (hf s key h)

theorem Agree.setAttribs (h : Agree s) {l : Nat} {list : MwAwareList} (hlist : s.list l = some list)
    (keys : Option (List UInt32)) (attribs : List AttribEntry) :
    Agree { setList s l (some { list with attribs := keys }) with attribs := attribs } := by
  have hs : Agree (setList s l (some { list with attribs := keys })) := by
    refine ⟨h.toCoupled.setList hlist ?_ rfl rfl rfl, h.used⟩
    change Linked (Function.update (tableOf s) l (list.entries.getD [])) s
    rw [← tableOf_of_some hlist, Function.update_eq_self]
    exact h.linked
  exact hs.congr rfl rfl rfl rfl rfl rfl

theorem Agree.watchAdd (h : Agree s) (l : Nat) (key : UInt32) : Agree (watchAdd l s key) := by
  unfold Aware.watchAdd
  split
  · exact h.crash
  · rename_i list hlist
    dsimp only
    split
    · exact h.setAttribs hlist _ s.attribs
    · exact h.setAttribs hlist _ _

theorem Agree.watchRemove (h : Agree s) (l : Nat) (key : UInt32) :
    Agree (watchRemove l s key) := by
  unfold Aware.watchRemove
  split
  · exact h.crash
  · rename_i list hlist
    dsimp only
    split
    · exact h.setAttribs hlist _ _
    · exact h

theorem Agree.member {w : AwareWorld} (h : Agree w.srvc) (snap : MwAwareSnapshot) :
    Agree (if snap.group.isSome then Aware.groupMemberRecv snap w else w).srvc := by
  split
  · exact h.groupMemberRecv snap
  · exact h

theorem Agree.snapshots (stack : AwareStack) (count : Nat) (b : GetBuffer) {w : AwareWorld}
    (h : Agree w.srvc) : Agree (snapshots stack count b w).srvc := by
  induction count generalizing b w with
  | zero => exact h
  | succ count ih =>
    unfold Aware.snapshots
    generalize mwAwareSnapshotGet stack.endOfBlock b = r
    obtain ⟨snap, b⟩ := r
    dsimp only
    split
    · exact h
    · exact ih _ ((h.member snap).statusRecv snap)

theorem Agree.handle (stack : AwareStack) (msg : Payload) {w : AwareWorld} (h : Agree w.srvc) :
    Agree (handle stack msg w).srvc := by
  unfold Aware.handle
  dsimp only
  split
  · exact h.snapshots _ _ _
  · split
    · unfold recvUpdate
      generalize mwAwareSnapshotGet stack.endOfBlock _ = r
      obtain ⟨snap, b⟩ := r
      dsimp only
      split
      · exact h.member snap
      · exact (h.member snap).statusRecv snap
    · split
      · exact h.attribRecv _ _ _
      · split
        · exact h.attribRecv _ _ _
        · exact h

theorem Agree.runCall {w : AwareWorld} (h : Agree w.srvc) (call : Call) :
    Agree (runCall w call).srvc := by
  have hlist : ∀ l (f : AwareWorld → AwareWorld), Agree (f w).srvc → Agree (onList l f w).srvc := by
    intro l f hf
    unfold onList
    split
    · exact hf
    · exact h
  cases call with
  | listNew => exact h.listNew
  | listFree l => exact hlist l _ (h.listFree l).1
  | addAware l ids => exact hlist l _ (h.addAware l ids)
  | removeAware l ids => exact hlist l _ (h.removeAware l ids)
  | watchAttributes l keys =>
    refine hlist l _ ?_
    rw [mwAwareListWatchAttributes, sendAttribList, send_srvc]
    exact Agree.watch (fun s key h => h.watchAdd l key) _ h
  | unwatchAttributes l keys =>
    refine hlist l _ ?_
    unfold mwAwareListUnwatchAttributes
    obtain ⟨attribs, hattribs⟩ := removeUnusedAttrib_srvc
      { w with srvc := (keys.takeWhile (· ≠ 0)).foldl (Aware.watchRemove l) w.srvc }
    rw [hattribs]
    have hs := Agree.watch (fun s key h => h.watchRemove l key) (keys.takeWhile (· ≠ 0)) h
    exact hs.congr rfl rfl rfl rfl rfl rfl
  | setStatus user stat => exact h.statusRecv _

/-- A service that has given up its channel -/
theorem Agree.stopped {w : AwareWorld} (h : Agree w.srvc) (chan : Nat) :
    Agree { (w.mwChannelDestroy chan 0).srvc with channel := none } := by
  rw [World.mwChannelDestroy_srvc]
  exact h.congr rfl rfl rfl rfl rfl rfl

theorem Agree.stop {w : AwareWorld} (h : Agree w.srvc) : Agree (stop w).srvc := by
  unfold Aware.stop
  cases w.srvc.channel with
  | none => exact h
  | some chan => exact h.stopped chan

theorem Agree.clear {w : AwareWorld} (h : Agree w.srvc) : Agree (clear w).srvc := by
  have hloop : ∀ (lists : List Nat) (w : AwareWorld), Agree w.srvc →
      Agree (lists.foldl (fun w l => mwAwareListFree l w) w).srvc ∧
        ∀ l, (lists.foldl (fun w l => mwAwareListFree l w) w).srvc.list l =
          if l ∈ lists then none else w.srvc.list l := by
    intro lists
    induction lists with
    | nil => exact fun w h => ⟨h, fun l => by simp⟩
    | cons l lists ih =>
      intro w h
      obtain ⟨hfree, hlist⟩ := h.listFree l
      obtain ⟨hs, hlists⟩ := ih _ hfree
      refine ⟨hs, fun l' => ?_⟩
      rw [List.foldl_cons, hlists, hlist]
      by_cases hl : l' = l
      · subst hl
        simp
      · simp [hl]
  obtain ⟨hs, hlist⟩ := hloop w.srvc.lists w h
  unfold Aware.clear
  dsimp only
  generalize w.srvc.lists.foldl (fun w l => mwAwareListFree l w) w = w₁ at hs hlist ⊢
  have hnone : ∀ l, w₁.srvc.list l = none := by
    intro l
    rw [hlist]
    split
    · rfl
    · rename_i hl
      cases hsome : w.srvc.list l with
      | none => rfl
      | some list => exact absurd ((h.lists l).mpr (by rw [hsome]; rfl)) hl
  have htables : ∀ l, tableOf w₁.srvc l = [] := fun l => by rw [tableOf, hnone]; rfl
  refine ⟨⟨?_, hs.lists, hs.nextList⟩, nofun⟩
  have htables' : tableOf { w₁.srvc with entries := [], attribs := [], entry := fun _ => none } =
      fun _ => [] := funext htables
  rw [htables']
  exact ⟨nofun, nofun, List.nodup_nil, nofun, fun _ => nofun, fun _ => List.nodup_nil,
    fun _ => nofun, nofun, nofun⟩

theorem agree_keep (frames : Nat → AwareStack) : (fns frames).Keep fun s _ => Agree s where
  start := by
    intro w _ h
    change Agree (start { w with state := .starting }).srvc
    unfold start
    split
    · rename_i chan w' heq
      have hw' : w'.srvc = w.srvc := congrArg (fun r => r.2.srvc) heq.symm
      refine Agree.congr (s := w.srvc) h ?_ ?_ ?_ ?_ ?_ ?_ <;> simp [hw']
    · rename_i w' heq
      have hw' : w'.srvc = w.srvc := congrArg (fun r => r.2.srvc) heq.symm
      exact hw'.symm ▸ h
  stop := fun w _ _ h => Agree.stop h
  recvCreate := by
    intro chan offer w h
    change Agree (w.mwChannelDestroy chan errFailure).srvc
    rw [World.mwChannelDestroy_srvc]
    exact h
  recvAccept := by
    intro chan w h
    change Agree (recvAccept chan w).srvc
    unfold recvAccept
    split
    · split
      · change Agree (sendAttribList (sendAdd w _)).srvc
        rw [sendAttribList, send_srvc, sendAdd, send_srvc]
        exact h
      · rw [World.mwChannelDestroy_srvc]
        exact h
    · exact h
  recvDestroy := by
    intro chan reason w h
    have hs : Agree { w.srvc with channel := none } := h.congr rfl rfl rfl rfl rfl rfl
    change Agree (recvDestroy w).srvc
    unfold recvDestroy World.mwServiceStop
    split
    · exact hs
    · exact Agree.stop hs
  recv := by
    intro chan msg w h
    change Agree (recv frames chan msg w).srvc
    unfold recv
    split
    · exact Agree.handle _ _ (h.congr rfl rfl rfl rfl rfl rfl)
    · exact h
  clear := fun w h => Agree.clear h

theorem agree_run (frames : Nat → AwareStack) (steps : List Step) {w : AwareWorld}
    (h : Agree w.srvc) : Agree (run frames steps w).srvc := by
  induction steps generalizing w with
  | nil => exact h
  | cons st steps ih =>
    refine ih ?_
    cases st with
    | call call =>
      change Agree (if w.freed then w else Aware.runCall w call).srvc
      split
      · exact h
      · exact h.runCall call
    | input input => exact World.input_keeps (agree_keep frames) input h

theorem agree_new (ret : Nat → Int) : Agree (mwServiceAwareNew ret).srvc :=
  ⟨⟨⟨nofun, nofun, List.nodup_nil, nofun, fun _ => nofun, fun _ => List.nodup_nil, fun _ => nofun,
    nofun, nofun⟩, fun _ => ⟨nofun, nofun⟩, nofun⟩, nofun⟩

/-! ## What the tables say -/

/-- A list that the client has and that has an entry under its id -/
def Lists (s : MwServiceAware) (l addr : Nat) (entry : AwareEntry) : Prop :=
  l ∈ s.lists ∧ ∃ list, s.list l = some list ∧ listAwareFind s list entry.aware.id = some addr

/-- The tables of the service and of its lists agree. -/
structure TablesAgree (s : MwServiceAware) : Prop where
  /-- What a table refers to is there. -/
  present : ∀ addr ∈ addrs s.entries, (s.entry addr).isSome
  membership_iff : ∀ addr ∈ addrs s.entries, ∀ entry, s.entry addr = some entry →
    ∀ l, l ∈ entry.membership ↔ Lists s l addr entry
  membership_once : ∀ addr ∈ addrs s.entries, ∀ entry, s.entry addr = some entry →
    ∀ l, entry.membership.count l ≤ 1
  listed : ∀ l ∈ s.lists, ∀ list, s.list l = some list → ∀ table, list.entries = some table →
    ∀ addr ∈ addrs table, ∃ entry, s.entry addr = some entry ∧
      find s s.entries entry.aware.id = some addr
  used : ∀ addr ∈ addrs s.entries, ∀ entry, s.entry addr = some entry → entry.membership ≠ []
  distinct : (addrs s.entries).Nodup ∧
    ∀ a ∈ addrs s.entries, ∀ b ∈ addrs s.entries, entryKey s a = entryKey s b → a = b

theorem Agree.tablesAgree (h : Agree s) : TablesAgree s where
  present := by
    intro addr hmem
    obtain ⟨entry, hentry⟩ := h.linked.entry_isSome hmem
    rw [hentry]
    rfl
  membership_iff := by
    intro addr hmem entry hentry l
    have hkey := entryKey_of_some hentry
    rw [h.linked.member_iff addr entry hentry hmem l]
    constructor
    · intro ha
      cases hlist : s.list l with
      | none =>
        rw [tableOf, hlist] at ha
        cases ha
      | some list =>
        refine ⟨(h.lists l).mpr (by rw [hlist]; rfl), list, hlist, ?_⟩
        have htable := tableOf_of_some hlist
        cases hentries : list.entries with
        | none =>
          rw [htable, hentries] at ha
          cases ha
        | some table =>
          rw [hentries, Option.getD_some] at htable
          rw [listAwareFind, hentries, Option.bind_some, ← htable]
          exact (h.linked.listFind_eq_some_iff l _ addr).mpr ⟨ha, hkey⟩
    · rintro ⟨-, list, hlist, hfind⟩
      have htable := tableOf_of_some hlist
      rw [listAwareFind] at hfind
      cases hentries : list.entries with
      | none =>
        rw [hentries] at hfind
        cases hfind
      | some table =>
        rw [hentries, Option.getD_some] at htable
        rw [hentries, Option.bind_some, ← htable] at hfind
        exact ((h.linked.listFind_eq_some_iff l _ addr).mp hfind).1
  membership_once := fun addr _ entry hentry l =>
    List.nodup_iff_count_le_one.mp (h.linked.memberNodup addr entry hentry) l
  listed := by
    intro l _ list hlist table htable addr hmem
    have heq : tableOf s l = table := by rw [tableOf_of_some hlist, htable, Option.getD_some]
    have hin := h.linked.listed l addr (heq.symm ▸ hmem)
    obtain ⟨entry, hentry⟩ := h.linked.entry_isSome hin
    exact ⟨entry, hentry, (h.linked.find_eq_some_iff _ addr).mpr ⟨hin, entryKey_of_some hentry⟩⟩
  used := h.used
  distinct := ⟨h.linked.nodup, h.linked.inj⟩

/-- The tables agree in every state that the service comes to. -/
theorem run_tablesAgree (frames : Nat → AwareStack) (steps : List Step) (ret : Nat → Int) :
    TablesAgree (run frames steps (mwServiceAwareNew ret)).srvc :=
  (agree_run frames steps (agree_new ret)).tablesAgree

end Meanwhile.Aware
