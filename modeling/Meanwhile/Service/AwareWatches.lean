-- SUMMARY: Watched attributes given and returned as arrays: a loop that never reads its second key, and a pointer that is returned behind the keys.
import Meanwhile.Service.AwareTables

/-!
# Arrays of watched attributes

An array of keys ends with a zero. `mwAwareList_watchAttributeArray` and
`mwAwareList_unwatchAttributeArray` move the pointer to the array, but not the key they
have read through it, so their loop ends only if it never began.

`mwAwareList_getWatchedAttributes` fills its array through a pointer to the very variable
that it returns.
-/

namespace Meanwhile.Aware

/-! ## Arrays given -/

/-- The keys of an array, which are followed by a zero -/
structure KeyArray where
  keys : List UInt32
  nonzero : 0 ∉ keys

/-- The array in memory -/
def KeyArray.words (array : KeyArray) : List UInt32 := array.keys ++ [0]

/-- The loop of `mwAwareList_watchAttributeArray`, which is that of
`mwAwareList_unwatchAttributeArray` as well. `none` if it is not done after so many
rounds. -/
def watchArrayLoop (l : Nat) : Nat → UInt32 → Nat → MwServiceAware → Option MwServiceAware
  | 0, _, _, _ => none
  | rounds + 1, k, keys, s =>
      if k = 0 then some s
      -- `keys++`, while `k` stays as it is
      else watchArrayLoop l rounds k (keys + 1) (watchAdd l s k)

/-- `mwAwareList_watchAttributeArray` -/
def mwAwareListWatchAttributeArray (rounds l : Nat) (keys : List UInt32) (w : AwareWorld) :
    Option AwareWorld := do
  let k ← keys.head?
  let s ← watchArrayLoop l rounds k 0 w.srvc
  return sendAttribList { w with srvc := s }

/-- `mwAwareList_unwatchAttributeArray` -/
def mwAwareListUnwatchAttributeArray (rounds l : Nat) (keys : List UInt32) (w : AwareWorld) :
    Option AwareWorld := do
  let k ← keys.head?
  let s ← watchArrayLoop l rounds k 0 w.srvc
  return removeUnusedAttrib { w with srvc := s }

/-- The functions with an array come to an end and do what those with arguments do. -/
structure ArraysLikeArguments (l : Nat) (array : KeyArray) (w : AwareWorld) : Prop where
  watch : ∃ rounds, mwAwareListWatchAttributeArray rounds l array.words w =
    some (mwAwareListWatchAttributes l array.keys w)
  unwatch : ∃ rounds, mwAwareListUnwatchAttributeArray rounds l array.words w =
    some (mwAwareListUnwatchAttributes l array.keys w)

/-- A loop that begins goes on for ever. -/
theorem watchArrayLoop_of_ne {k : UInt32} (hk : k ≠ 0) (l rounds keys : Nat)
    (s : MwServiceAware) : watchArrayLoop l rounds k keys s = none := by
  induction rounds generalizing keys s with
  | zero => rfl
  | succ rounds ih =>
    rw [watchArrayLoop, if_neg hk]
    exact ih _ _

theorem watchAttributeArray_of_cons {k : UInt32} (hk : k ≠ 0) (ks : List UInt32)
    (rounds l : Nat) (w : AwareWorld) :
    mwAwareListWatchAttributeArray rounds l (k :: ks) w = none ∧
      mwAwareListUnwatchAttributeArray rounds l (k :: ks) w = none := by
  have hloop := watchArrayLoop_of_ne hk l rounds 0 w.srvc
  constructor
  · simp [mwAwareListWatchAttributeArray, hloop]
  · simp [mwAwareListUnwatchAttributeArray, hloop]

/-- The functions with an array work for the empty array. For any other neither of them
ever returns. -/
theorem arraysLikeArguments_iff (l : Nat) (array : KeyArray) (w : AwareWorld) :
    (ArraysLikeArguments l array w ↔ array.keys = []) ∧
      (array.keys ≠ [] → ∀ rounds,
        mwAwareListWatchAttributeArray rounds l array.words w = none ∧
          mwAwareListUnwatchAttributeArray rounds l array.words w = none) := by
  obtain ⟨keys, nonzero⟩ := array
  cases keys with
  | nil =>
    refine ⟨⟨fun _ => rfl, fun _ => ⟨⟨1, rfl⟩, ⟨1, rfl⟩⟩⟩, fun h => absurd rfl h⟩
  | cons k ks =>
    have hk : k ≠ 0 := fun h => nonzero (h ▸ List.mem_cons_self)
    have hnone := fun rounds => watchAttributeArray_of_cons hk (ks ++ [0]) rounds l w
    refine ⟨⟨fun h => ?_, fun h => nomatch h⟩, fun _ => hnone⟩
    obtain ⟨rounds, hwatch⟩ := h.watch
    exact nomatch (hnone rounds).1.symm.trans hwatch

/-- A service with one new list -/
def oneList : AwareWorld :=
  { mwServiceAwareNew (fun _ => 0) with srvc := mwAwareListNew {} }

/-- A client that watches one attribute by an array waits for ever. -/
theorem not_arraysLikeArguments_one :
    ¬ ArraysLikeArguments 0 ⟨[1], by decide⟩ oneList := by
  intro h
  obtain ⟨rounds, hwatch⟩ := h.watch
  exact nomatch (watchAttributeArray_of_cons (by decide) [0] rounds 0 _).1.symm.trans hwatch

/-! ## Arrays returned -/

/-- A pointer into a block of words -/
structure WordPtr where
  block : List UInt32
  offset : Nat

/-- What a reader finds at the pointer -/
def WordPtr.words (p : WordPtr) : List UInt32 := p.block.drop p.offset

/-- `collect_attrib_keys`, with the pointer that `ck` points to before and after it -/
def collectAttribKeys (ck : WordPtr) (key : UInt32) : WordPtr :=
  { block := ck.block.set ck.offset key, offset := ck.offset + 1 }

/-- `mwAwareList_getWatchedAttributes`. `ck` points to `keys`, which is returned. -/
def mwAwareListGetWatchedAttributes (list : MwAwareList) : Option WordPtr :=
  list.attribs.map fun attribs =>
    attribs.foldl collectAttribKeys
      { block := List.replicate (attribs.length + 1) 0, offset := 0 }

/-- Calls that change what a list watches -/
inductive WatchCall where
  | watch (keys : List UInt32)
  | unwatch (keys : List UInt32)

/-- The keys that a call is given, up to the zero that ends them -/
def WatchCall.given : WatchCall → List UInt32
  | .watch keys => keys.takeWhile (· ≠ 0)
  | .unwatch keys => keys.takeWhile (· ≠ 0)

def WatchCall.run (l : Nat) (w : AwareWorld) : WatchCall → AwareWorld
  | .watch keys => mwAwareListWatchAttributes l keys w
  | .unwatch keys => mwAwareListUnwatchAttributes l keys w

/-- What is watched after a call -/
def WatchCall.after (watched : UInt32 → Prop) (call : WatchCall) (key : UInt32) : Prop :=
  match call with
  | .watch _ => watched key ∨ key ∈ call.given
  | .unwatch _ => watched key ∧ key ∉ call.given

/-- The keys watched and not since unwatched -/
def watchedAfter (watched : UInt32 → Prop) (calls : List WatchCall) : UInt32 → Prop :=
  calls.foldl WatchCall.after watched

/-- The calls watch a key. -/
def WatchSome (calls : List WatchCall) : Prop :=
  ∃ keys, .watch keys ∈ calls ∧ (WatchCall.watch keys).given ≠ []

/-- An array of some keys, each of them once, and a zero behind them -/
def HoldsExactly (p : WordPtr) (watched : UInt32 → Prop) : Prop :=
  ∃ keys, keys ++ [0] <+: p.words ∧ keys.Nodup ∧ ∀ key, key ∈ keys ↔ watched key

/-- `mwAwareList_getWatchedAttributes` of a list that is there returns the keys watched. -/
def ReturnsWatched (s : MwServiceAware) (l : Nat) (watched : UInt32 → Prop) : Prop :=
  ∃ p, (s.list l).bind mwAwareListGetWatchedAttributes = some p ∧ HoldsExactly p watched

/-- The keys in the table of a list -/
def keysOf (s : MwServiceAware) (l : Nat) : List UInt32 :=
  ((s.list l).bind (·.attribs)).getD []

/-! ### The table of a list -/

variable {s : MwServiceAware} {l : Nat} {watched : UInt32 → Prop}

theorem WatchCall.run_list (call : WatchCall) (l : Nat) (w : AwareWorld) :
    (call.run l w).srvc.list = (match call with
      | .watch _ => call.given.foldl (Aware.watchAdd l) w.srvc
      | .unwatch _ => call.given.foldl (Aware.watchRemove l) w.srvc).list := by
  cases call with
  | watch keys =>
    change (sendAttribList _).srvc.list = _
    rw [sendAttribList, send_srvc]
    rfl
  | unwatch keys =>
    obtain ⟨attribs, hsrvc⟩ := removeUnusedAttrib_srvc
      { w with srvc := (keys.takeWhile (· ≠ 0)).foldl (Aware.watchRemove l) w.srvc }
    change (removeUnusedAttrib _).srvc.list = _
    rw [hsrvc]
    rfl

/-! ### The table is there -/

/-- The list has a table. -/
def HasTable (l : Nat) (s : MwServiceAware) : Prop := ((s.list l).bind (·.attribs)).isSome

/-- A list and its table stay. -/
structure Stays (l : Nat) (s s' : MwServiceAware) : Prop where
  list : (s.list l).isSome → (s'.list l).isSome
  table : HasTable l s → HasTable l s'

theorem Stays.refl (s : MwServiceAware) : Stays l s s := ⟨id, id⟩

theorem Stays.trans {s' s'' : MwServiceAware} (h : Stays l s s') (h' : Stays l s' s'') :
    Stays l s s'' := ⟨h'.list ∘ h.list, h'.table ∘ h.table⟩

theorem Stays.foldl {f : MwServiceAware → UInt32 → MwServiceAware}
    (hf : ∀ s key, Stays l s (f s key)) (keys : List UInt32) (s : MwServiceAware) : Stays l s (keys.foldl f s) := by
  induction keys generalizing s with
  | nil => exact Stays.refl s
  | cons key keys ih => exact (hf s key).trans (ih _)

theorem hasTable_watchAdd (h : (s.list l).isSome) (key : UInt32) :
    (((watchAdd l s key).list l).isSome) ∧ HasTable l (watchAdd l s key) := by
  obtain ⟨list, hlist⟩ := Option.isSome_iff_exists.mp h
  unfold watchAdd
  rw [hlist]
  dsimp only
  split
  case isTrue => exact ⟨by simp [setList], by simp [HasTable, setList]⟩
  case isFalse => exact ⟨by simp [setList], by simp [HasTable, setList]⟩

theorem HasTable.present (h : HasTable l s) : (s.list l).isSome := by
  unfold HasTable at h
  cases hlist : s.list l with
  | none => rw [hlist] at h; exact h
  | some list => rfl

theorem stays_watchAdd (s : MwServiceAware) (key : UInt32) : Stays l s (watchAdd l s key) :=
  ⟨fun h => (hasTable_watchAdd h key).1, fun h => (hasTable_watchAdd h.present key).2⟩

theorem stays_watchRemove (s : MwServiceAware) (key : UInt32) :
    Stays l s (watchRemove l s key) := by
  unfold watchRemove
  cases hlist : s.list l with
  | none => exact ⟨id, id⟩
  | some list =>
    dsimp only
    split
    case isTrue => exact ⟨fun _ => by simp [setList], fun _ => by simp [HasTable, setList]⟩
    case isFalse => exact Stays.refl s

theorem WatchCall.run_stays (call : WatchCall) (w : AwareWorld) :
    Stays l w.srvc (call.run l w).srvc := by
  have hlist := call.run_list l w
  cases call with
  | watch keys =>
    have hstays := Stays.foldl (l := l) stays_watchAdd (WatchCall.watch keys).given w.srvc
    refine ⟨fun h => hlist ▸ hstays.list h, fun h => ?_⟩
    rw [HasTable, hlist]
    exact hstays.table h
  | unwatch keys =>
    have hstays := Stays.foldl (l := l) stays_watchRemove (WatchCall.unwatch keys).given w.srvc
    refine ⟨fun h => hlist ▸ hstays.list h, fun h => ?_⟩
    rw [HasTable, hlist]
    exact hstays.table h

theorem WatchCall.runs_stays (calls : List WatchCall) (w : AwareWorld) :
    Stays l w.srvc (calls.foldl (WatchCall.run l) w).srvc := by
  induction calls generalizing w with
  | nil => exact Stays.refl _
  | cons call calls ih => exact (call.run_stays w).trans (ih _)

/-- Once a key is watched there is a table. -/
theorem hasTable_runs {calls : List WatchCall} (hsome : WatchSome calls) {w : AwareWorld}
    (hlist : (w.srvc.list l).isSome) : HasTable l (calls.foldl (WatchCall.run l) w).srvc := by
  obtain ⟨keys, hmem, hgiven⟩ := hsome
  obtain ⟨before, rest, rfl⟩ := List.append_of_mem hmem
  rw [List.foldl_append, List.foldl_cons]
  apply (WatchCall.runs_stays rest _).table
  have hthere := (WatchCall.runs_stays (l := l) before w).list hlist
  rw [HasTable, WatchCall.run_list]
  obtain ⟨key, given, hcons⟩ := List.exists_cons_of_ne_nil hgiven
  dsimp only
  rw [hcons, List.foldl_cons]
  exact (Stays.foldl stays_watchAdd given _).table (hasTable_watchAdd hthere key).2

/-! ### The pointer that is returned -/

theorem collectAttribKeys_words (keys : List UInt32) (p : WordPtr) :
    (keys.foldl collectAttribKeys p).words = p.words.drop keys.length := by
  induction keys generalizing p with
  | nil => rw [List.foldl_nil, List.length_nil, List.drop_zero]
  | cons key keys ih =>
    rw [List.foldl_cons, ih, List.length_cons]
    -- The word that was written lies before the pointer.
    have hset : (collectAttribKeys p key).words = p.block.drop (p.offset + 1) :=
      List.drop_set_of_lt (Nat.lt_succ_self _)
    rw [hset, WordPtr.words, List.drop_drop, List.drop_drop, Nat.add_assoc, Nat.add_comm 1]

/-- Whatever is in the table, the pointer is at the zero behind the keys. -/
theorem getWatchedAttributes_words (list : MwAwareList) :
    ∀ p ∈ mwAwareListGetWatchedAttributes list, p.words = [0] := by
  intro p hp
  obtain ⟨attribs, -, rfl⟩ := Option.map_eq_some_iff.mp hp
  rw [collectAttribKeys_words]
  simp [WordPtr.words]

theorem holdsExactly_iff {p : WordPtr} (hp : p.words = [0]) :
    HoldsExactly p watched ↔ ∀ key, ¬ watched key := by
  constructor
  · rintro ⟨keys, hprefix, -, hmem⟩ key hkey
    rw [hp] at hprefix
    have hlen := hprefix.length_le
    simp only [List.length_append, List.length_singleton] at hlen
    have hnil := List.length_eq_zero_iff.mp (show keys.length = 0 by omega)
    rw [← hmem, hnil] at hkey
    exact nomatch hkey
  · intro hnone
    refine ⟨[], ?_, List.nodup_nil, fun key => ⟨nofun, fun h => absurd h (hnone key)⟩⟩
    rw [hp, List.nil_append]

/-- After calls that watch a key the array is right if and only if all keys have been
unwatched since. -/
theorem getWatchedAttributes_iff (w : AwareWorld) (l : Nat) (hlist : (w.srvc.list l).isSome)
    (calls : List WatchCall) (hsome : WatchSome calls) :
    let watched := watchedAfter (· ∈ keysOf w.srvc l) calls
    ReturnsWatched (calls.foldl (WatchCall.run l) w).srvc l watched ↔ ∀ key, ¬ watched key := by
  intro watched
  have htable := hasTable_runs hsome hlist
  unfold ReturnsWatched
  rw [HasTable, Option.isSome_iff_exists] at htable
  obtain ⟨attribs, hattribs⟩ := htable
  obtain ⟨list, hfound, hattribs⟩ := Option.bind_eq_some_iff.mp hattribs
  obtain ⟨p, hp⟩ : ∃ p, mwAwareListGetWatchedAttributes list = some p := by
    rw [mwAwareListGetWatchedAttributes, hattribs]
    exact ⟨_, rfl⟩
  rw [hfound, Option.bind_some, hp, ← holdsExactly_iff (getWatchedAttributes_words list p hp)]
  constructor
  · rintro ⟨p', hp', hholds⟩
    exact Option.some.inj hp' ▸ hholds
  · intro hholds
    exact ⟨p, rfl, hholds⟩

theorem getWatchedAttributes_iff_unwatched :
    let calls : List WatchCall := [.watch [1, 2], .unwatch [2, 1]]
    let watched := watchedAfter (· ∈ keysOf oneList.srvc 0) calls
    ReturnsWatched (calls.foldl (WatchCall.run 0) oneList).srvc 0 watched ↔
      ∀ key, ¬ watched key :=
  getWatchedAttributes_iff oneList 0 rfl _ ⟨[1, 2], List.mem_cons_self, by decide⟩

/-- A list that watches one attribute returns an empty array. -/
theorem not_returnsWatched_one :
    let calls : List WatchCall := [.watch [1]]
    ¬ ReturnsWatched (calls.foldl (WatchCall.run 0) oneList).srvc 0
      (watchedAfter (· ∈ keysOf oneList.srvc 0) calls) := by
  rintro calls ⟨p, hp, hholds⟩
  obtain ⟨list, -, hlist⟩ := Option.bind_eq_some_iff.mp hp
  have hnone := (holdsExactly_iff (getWatchedAttributes_words list p hlist)).mp hholds
  exact hnone 1 (Or.inr (by decide))

end Meanwhile.Aware
