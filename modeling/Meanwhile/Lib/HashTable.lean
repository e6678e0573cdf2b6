-- SUMMARY: Hash tables over objects in memory: a node keeps the hash of its key, and the key itself lies in the object.
import Mathlib.Data.List.Basic

/-!
# Hash tables over objects

The key of a node is read in its object each time it is compared, so that it changes
when the object is written to. The hash of the key is only taken when the node is put
in. As long as the two agree (`Placed`), a table is as good as the list of its objects.
-/

namespace HashTable

variable {κ : Type} [DecidableEq κ]

structure Node where
  hash : UInt32
  addr : Nat
deriving DecidableEq

abbrev Table := List Node

/-- The objects of a table -/
def addrs (t : Table) : List Nat := t.map Node.addr

/-- A node with a given key. `key` reads the key of an object, if there is one. -/
def Node.hasKey (key : Nat → Option κ) (hash : UInt32) (k : κ) (n : Node) : Bool :=
  n.hash = hash ∧ key n.addr = some k

def lookup (key : Nat → Option κ) (hash : UInt32) (k : κ) (t : Table) : Option Nat :=
  (t.find? (Node.hasKey key hash k)).map Node.addr

/-- A new node, for a key that is not in the table -/
def insert (hash : UInt32) (addr : Nat) (t : Table) : Table := t ++ [⟨hash, addr⟩]

def remove (key : Nat → Option κ) (hash : UInt32) (k : κ) (t : Table) : Table :=
  t.eraseP (Node.hasKey key hash k)

/-- Every node has the hash of the key that its object has now. -/
def Placed (key : Nat → Option κ) (hash : κ → UInt32) (t : Table) : Prop :=
  ∀ n ∈ t, ∃ k, key n.addr = some k ∧ n.hash = hash k

@[simp] theorem addrs_insert (hash : UInt32) (addr : Nat) (t : Table) :
    addrs (insert hash addr t) = addrs t ++ [addr] := by
  simp [addrs, insert]

variable {key key' : Nat → Option κ} {hash : κ → UInt32} {t : Table} {k : κ}

omit [DecidableEq κ] in
theorem Placed.congr (h : Placed key hash t) (hkey : ∀ a ∈ addrs t, key' a = key a) :
    Placed key' hash t := by
  intro n hn
  obtain ⟨k, hk, hhash⟩ := h n hn
  exact ⟨k, (hkey n.addr (List.mem_map_of_mem hn)).trans hk, hhash⟩

omit [DecidableEq κ] in
theorem Placed.subset {t' : Table} (h : Placed key hash t) (ht : t' ⊆ t) : Placed key hash t' :=
  fun n hn => h n (ht hn)

omit [DecidableEq κ] in
theorem Placed.insert {addr : Nat} (h : Placed key hash t) (hkey : key addr = some k) :
    Placed key hash (insert (hash k) addr t) := by
  intro n hn
  rcases List.mem_append.mp hn with hn | hn
  · exact h n hn
  · cases List.mem_singleton.mp hn
    exact ⟨k, hkey, rfl⟩

theorem Placed.hasKey_iff {n : Node} (h : Placed key hash t) (hn : n ∈ t) :
    Node.hasKey key (hash k) k n = true ↔ key n.addr = some k := by
  obtain ⟨k', hk', hhash⟩ := h n hn
  simp only [Node.hasKey, decide_eq_true_eq, hk', hhash, Option.some.injEq]
  constructor
  · exact And.right
  · rintro rfl
    exact ⟨rfl, rfl⟩

/-- What a lookup finds in a table in which no key comes twice -/
theorem Placed.lookup_eq_some_iff (h : Placed key hash t)
    (hinj : ∀ a ∈ addrs t, ∀ b ∈ addrs t, key a = key b → a = b) (addr : Nat) :
    lookup key (hash k) k t = some addr ↔ addr ∈ addrs t ∧ key addr = some k := by
  unfold lookup
  constructor
  · intro hfind
    obtain ⟨n, hn, rfl⟩ := Option.map_eq_some_iff.mp hfind
    have hmem := List.mem_of_find?_eq_some hn
    exact ⟨List.mem_map_of_mem hmem, (h.hasKey_iff hmem).mp (List.find?_some hn)⟩
  · rintro ⟨hmem, hkey⟩
    obtain ⟨n, hn, rfl⟩ := List.mem_map.mp hmem
    cases hfind : t.find? (Node.hasKey key (hash k) k) with
    | none =>
      have hnot := List.find?_eq_none.mp hfind n hn
      exact absurd ((h.hasKey_iff hn).mpr hkey) hnot
    | some n' =>
      have hn' := List.mem_of_find?_eq_some hfind
      have hkey' := (h.hasKey_iff hn').mp (List.find?_some hfind)
      rw [Option.map_some, hinj n'.addr (List.mem_map_of_mem hn') n.addr hmem (hkey'.trans hkey.symm)]

theorem Placed.lookup_eq_none_iff (h : Placed key hash t) :
    lookup key (hash k) k t = none ↔ ∀ a ∈ addrs t, key a ≠ some k := by
  unfold lookup
  rw [Option.map_eq_none_iff, List.find?_eq_none]
  constructor
  · intro hfind a ha
    obtain ⟨n, hn, rfl⟩ := List.mem_map.mp ha
    exact fun hkey => hfind n hn ((h.hasKey_iff hn).mpr hkey)
  · intro hnot n hn hkey
    exact hnot n.addr (List.mem_map_of_mem hn) ((h.hasKey_iff hn).mp hkey)

/-- What is left of a table in which no object comes twice -/
theorem Placed.mem_addrs_remove (h : Placed key hash t) (hnodup : (addrs t).Nodup)
    (hinj : ∀ a ∈ addrs t, ∀ b ∈ addrs t, key a = key b → a = b) (addr : Nat) :
    addr ∈ addrs (remove key (hash k) k t) ↔ addr ∈ addrs t ∧ key addr ≠ some k := by
  induction t with
  | nil => simp [addrs, remove]
  | cons n t ih =>
    have htail : Placed key hash t := h.subset (List.subset_cons_self n t)
    obtain ⟨hnot, hnodup⟩ := List.nodup_cons.mp hnodup
    have hhead := h.hasKey_iff (k := k) (List.mem_cons_self (a := n) (l := t))
    unfold remove
    by_cases hkey : key n.addr = some k
    · rw [List.eraseP_cons_of_pos (hhead.mpr hkey)]
      constructor
      · intro hmem
        refine ⟨List.mem_cons_of_mem _ hmem, fun hk => hnot ?_⟩
        have heq := hinj addr (List.mem_cons_of_mem _ hmem) n.addr List.mem_cons_self
          (hk.trans hkey.symm)
        exact heq ▸ hmem
      · rintro ⟨hmem, hne⟩
        rcases List.mem_cons.mp hmem with rfl | hmem
        · exact absurd hkey hne
        · exact hmem
    · rw [List.eraseP_cons_of_neg (fun hk => hkey (hhead.mp hk))]
      have ih := ih htail hnodup fun a ha b hb =>
        hinj a (List.mem_cons_of_mem _ ha) b (List.mem_cons_of_mem _ hb)
      unfold remove at ih
      simp only [addrs, List.map_cons, List.mem_cons] at ih ⊢
      rw [ih]
      constructor
      · rintro (rfl | ⟨hmem, hne⟩)
        · exact ⟨.inl rfl, hkey⟩
        · exact ⟨.inr hmem, hne⟩
      · rintro ⟨rfl | hmem, hne⟩
        · exact .inl rfl
        · exact .inr ⟨hmem, hne⟩

theorem addrs_remove_sublist (key : Nat → Option κ) (h : UInt32) (k : κ) (t : Table) :
    (addrs (remove key h k t)).Sublist (addrs t) :=
  (List.eraseP_sublist).map _

end HashTable
