-- SUMMARY: The login infos that the client of a conference has been given, and which of them are still in memory.
import Meanwhile.Service.ConferenceRuns

/-!
# The members of a conference

The client is given the login infos of members when a conference opens and when somebody
joins, and is told when somebody parts. In between it `held`s on to them. In every run the
table of a conference has just those of them that are still in memory (`Told`); the others
were freed when their id came again, or with the conference.
-/

namespace Meanwhile.Conference

/-! ## Tables and memory -/

def Book.ids (b : Book) (a : Nat) : List UInt16 := (b.members a).map Prod.fst

/-- Where the login infos of the members of a conference are -/
def Book.logins (b : Book) (a : Nat) : List Nat := (b.members a).map Prod.snd

/-- No table has an id twice, and the login infos of all tables are in memory, each once. -/
structure Tidy (b : Book) : Prop where
  ids : ∀ a, (b.ids a).Nodup
  logins : ∀ a, (b.logins a).Nodup
  apart : ∀ a a' m, m ∈ b.logins a → m ∈ b.logins a' → a = a'
  alive : ∀ a, ∀ m ∈ b.logins a, (b.login m).isSome
  born : ∀ m, (b.login m).isSome → m < b.nextLogin

section

variable {b b' : Book} {a a' m : Nat} {id : UInt16} {conf : MwConference}

theorem lookup_eq_some_iff_mem {l : List (UInt16 × Nat)} (h : (l.map Prod.fst).Nodup) :
    l.lookup id = some m ↔ (id, m) ∈ l := by
  induction l with
  | nil => simp
  | cons e l ih =>
    obtain ⟨hnot, hl⟩ := List.nodup_cons.mp h
    obtain ⟨id', m'⟩ := e
    by_cases hid : id = id'
    · subst hid
      have hno : (id, m) ∉ l := fun hmem => hnot (List.mem_map.mpr ⟨_, hmem, rfl⟩)
      simp [hno, eq_comm]
    · have hbeq : (id == id') = false := beq_eq_false_iff_ne.mpr hid
      simp [List.lookup_cons, hbeq, hid, ih hl]

theorem members_eq (hconf : b'.conf a = b.conf a) : b'.members a = b.members a := by
  rw [Book.members, hconf, Book.members]

theorem members_of_some (hconf : b.conf a = some conf) : b.members a = conf.members := by
  simp [Book.members, hconf]

theorem members_modifyConf_self (b : Book) (a : Nat) (f : MwConference → MwConference) :
    (b.modifyConf a f).members a = ((b.conf a).map fun conf => (f conf).members).getD [] := by
  simp [Book.members, Book.modifyConf, Function.comp_def]

theorem members_modifyConf_of_ne (h : a' ≠ a) (f : MwConference → MwConference) :
    (b.modifyConf a f).members a' = b.members a' :=
  members_eq (Book.conf_setConf_of_ne b h _)

/-- What changes no table -/
theorem members_modifyConf_keep {f : MwConference → MwConference}
    (hf : ∀ conf, (f conf).members = conf.members) (b : Book) (a a' : Nat) :
    (b.modifyConf a f).members a' = b.members a' := by
  by_cases ha : a' = a
  · subst ha
    simp only [members_modifyConf_self, hf]
    rfl
  · exact members_modifyConf_of_ne ha f

theorem Tidy.congr (h : Tidy b) (hmembers : ∀ a, b'.members a = b.members a)
    (hlogin : b'.login = b.login) (hnext : b'.nextLogin = b.nextLogin) : Tidy b' where
  ids := fun a => by rw [Book.ids, hmembers]; exact h.ids a
  logins := fun a => by rw [Book.logins, hmembers]; exact h.logins a
  apart := fun a a' m => by
    rw [Book.logins, hmembers, Book.logins, hmembers]
    exact h.apart a a' m
  alive := fun a => by
    rw [Book.logins, hmembers, hlogin]
    exact h.alive a
  born := fun m => by
    rw [hlogin, hnext]
    exact h.born m

theorem Tidy.lt (h : Tidy b) (hm : m ∈ b.logins a) : m < b.nextLogin := h.born m (h.alive a m hm)

theorem Tidy.memberFind_iff (h : Tidy b) : b.memberFind a id = some m ↔ (id, m) ∈ b.members a :=
  lookup_eq_some_iff_mem (h.ids a)

theorem mem_logins_of_memberFind (h : Tidy b) (hfind : b.memberFind a id = some m) :
    m ∈ b.logins a :=
  List.mem_map_of_mem (h.memberFind_iff.mp hfind)

/-! ## Taking a member out -/

theorem members_memberRem_self (b : Book) (a : Nat) (id : UInt16) :
    (b.memberRem a id).members a = (b.members a).filter (·.1 ≠ id) := by
  unfold Book.memberRem
  cases hfind : b.memberFind a id with
  | none =>
    refine (List.filter_eq_self.mpr fun e he => ?_).symm
    have hne := List.lookup_eq_none_iff.mp hfind e he
    exact decide_eq_true fun heq => by simp [heq] at hne
  | some m =>
    dsimp only
    rw [members_modifyConf_self]
    show ((b.conf a).map fun conf => conf.members.filter (·.1 ≠ id)).getD [] = _
    unfold Book.members
    cases b.conf a <;> rfl

theorem members_memberRem_of_ne (h : a' ≠ a) (id : UInt16) :
    (b.memberRem a id).members a' = b.members a' := by
  unfold Book.memberRem
  cases b.memberFind a id with
  | none => rfl
  | some m => exact members_modifyConf_of_ne h _

theorem members_memberRem_of_not_mem (hid : id ∉ b.ids a) :
    (b.memberRem a id).members a = b.members a := by
  rw [members_memberRem_self]
  refine List.filter_eq_self.mpr fun e he => decide_eq_true ?_
  rintro rfl
  exact hid (List.mem_map_of_mem he)

theorem members_memberRem_sublist (b : Book) (a a' : Nat) (id : UInt16) :
    ((b.memberRem a id).members a').Sublist (b.members a') := by
  by_cases ha : a' = a
  · subst ha
    rw [members_memberRem_self]
    exact List.filter_sublist
  · rw [members_memberRem_of_ne ha]

theorem mem_logins_of_memberRem (hm : m ∈ (b.memberRem a id).logins a') : m ∈ b.logins a' :=
  ((members_memberRem_sublist b a a' id).map _).subset hm

theorem login_memberRem (b : Book) (a : Nat) (id : UInt16) (m : Nat) :
    (b.memberRem a id).login m = if b.memberFind a id = some m then none else b.login m := by
  unfold Book.memberRem
  cases b.memberFind a id with
  | none => simp
  | some m' =>
    show Function.update b.login m' none m = _
    simp [Function.update_apply, eq_comm]

theorem nextLogin_memberRem (b : Book) (a : Nat) (id : UInt16) :
    (b.memberRem a id).nextLogin = b.nextLogin := by
  unfold Book.memberRem
  cases b.memberFind a id <;> rfl

theorem mem_logins_memberRem (b : Book) (a : Nat) (id : UInt16) (m : Nat) :
    m ∈ (b.memberRem a id).logins a ↔ ∃ id', (id', m) ∈ b.members a ∧ id' ≠ id := by
  simp [Book.logins, members_memberRem_self]

/-- The login info that goes with the member is the one that is freed. -/
theorem Tidy.mem_logins_memberRem_iff (h : Tidy b) :
    m ∈ (b.memberRem a id).logins a ↔ m ∈ b.logins a ∧ ((b.memberRem a id).login m).isSome := by
  rw [mem_logins_memberRem, login_memberRem]
  constructor
  · rintro ⟨id', hmem, hne⟩
    have hm : m ∈ b.logins a := List.mem_map_of_mem hmem
    refine ⟨hm, ?_⟩
    rw [if_neg, h.alive a m hm]
    intro hfind
    have heq := List.inj_on_of_nodup_map (h.logins a) hmem (h.memberFind_iff.mp hfind) rfl
    exact hne (Prod.mk.inj heq).1
  · rintro ⟨hm, hsome⟩
    obtain ⟨e, he, rfl⟩ := List.mem_map.mp hm
    refine ⟨e.1, he, ?_⟩
    rintro rfl
    rw [if_pos (h.memberFind_iff.mpr he)] at hsome
    cases hsome

theorem Tidy.memberRem (h : Tidy b) (a : Nat) (id : UInt16) : Tidy (b.memberRem a id) where
  ids := fun a' => ((members_memberRem_sublist b a a' id).map _).nodup (h.ids a')
  logins := fun a' => ((members_memberRem_sublist b a a' id).map _).nodup (h.logins a')
  apart := fun a1 a2 m h1 h2 =>
    h.apart a1 a2 m (mem_logins_of_memberRem h1) (mem_logins_of_memberRem h2)
  alive := by
    intro a' m hm
    by_cases ha : a' = a
    · subst ha
      exact (h.mem_logins_memberRem_iff.mp hm).2
    · -- the member that goes is in the other table
      have hm' := mem_logins_of_memberRem hm
      rw [login_memberRem, if_neg, h.alive a' m hm']
      exact fun hfind => ha (h.apart a' a m hm' (mem_logins_of_memberFind h hfind))
  born := by
    intro m hm
    rw [nextLogin_memberRem]
    rw [login_memberRem] at hm
    split at hm
    · cases hm
    · exact h.born m hm

/-! ## Putting members in -/

theorem Tidy.newLogin (h : Tidy b) (info : MwLoginInfo) : Tidy (b.newLogin info) := by
  have hold : ∀ m, m < b.nextLogin → (b.newLogin info).login m = b.login m :=
    fun m hm => Function.update_of_ne (Nat.ne_of_lt hm) ..
  refine ⟨h.ids, h.logins, h.apart, ?_, ?_⟩
  · intro a m hm
    rw [hold m (h.lt hm)]
    exact h.alive a m hm
  · intro m hm
    by_cases hnew : m = b.nextLogin
    · exact hnew ▸ Nat.lt_succ_self _
    · exact Nat.lt_succ_of_lt (h.born m ((congrArg _ (Function.update_of_ne hnew ..)).symm.trans hm))

/-- A member that is nowhere yet comes into a table that does not have its id. -/
theorem Tidy.cons (h : Tidy b) (hconf : (b.conf a).isSome) (hid : id ∉ b.ids a)
    (hm : ∀ a', m ∉ b.logins a') (halive : (b.login m).isSome) :
    Tidy (b.modifyConf a fun conf => { conf with members := (id, m) :: conf.members }) := by
  set b' := b.modifyConf a fun conf => { conf with members := (id, m) :: conf.members } with hb'
  obtain ⟨conf, hconf⟩ := Option.isSome_iff_exists.mp hconf
  have hself : b'.members a = (id, m) :: b.members a := by
    rw [hb', members_modifyConf_self, hconf, members_of_some hconf]
    rfl
  have hne : ∀ a', a' ≠ a → b'.members a' = b.members a' :=
    fun a' ha => members_modifyConf_of_ne ha _
  have hlogins : ∀ a' m', m' ∈ b'.logins a' → m' = m ∧ a' = a ∨ m' ∈ b.logins a' := by
    intro a' m' hm'
    by_cases ha : a' = a
    · subst ha
      simp only [Book.logins, hself, List.map_cons, List.mem_cons] at hm'
      exact hm'.imp_left fun h => ⟨h, rfl⟩
    · rw [Book.logins, hne a' ha] at hm'
      exact .inr hm'
  refine ⟨fun a' => ?_, fun a' => ?_, fun a1 a2 m' h1 h2 => ?_, fun a' m' hm' => ?_, h.born⟩
  · by_cases ha : a' = a
    · subst ha
      simp only [Book.ids, hself, List.map_cons]
      exact List.nodup_cons.mpr ⟨hid, h.ids a'⟩
    · rw [Book.ids, hne a' ha]
      exact h.ids a'
  · by_cases ha : a' = a
    · subst ha
      simp only [Book.logins, hself, List.map_cons]
      exact List.nodup_cons.mpr ⟨hm a', h.logins a'⟩
    · rw [Book.logins, hne a' ha]
      exact h.logins a'
  · rcases hlogins a1 m' h1 with ⟨heq1, rfl⟩ | hold1 <;>
      rcases hlogins a2 m' h2 with ⟨heq2, rfl⟩ | hold2
    · rfl
    · exact absurd (heq1 ▸ hold2) (hm a2)
    · exact absurd (heq2 ▸ hold1) (hm a1)
    · exact h.apart a1 a2 m' hold1 hold2
  · rcases hlogins a' m' hm' with ⟨rfl, -⟩ | hm'
    · exact halive
    · exact h.alive a' m' hm'

theorem Tidy.nodup_append_singleton_iff (h : Tidy b) :
    (b.ids a ++ [id]).Nodup ↔ id ∉ b.ids a := by
  rw [← List.concat_eq_append, List.nodup_concat]
  exact and_iff_left (h.ids a)

section

variable {e : UInt16 × MwLoginInfo}

theorem members_addEntry_self (hconf : (b.conf a).isSome) :
    (b.addEntry a e).members a =
      (e.1, b.nextLogin) :: ((b.newLogin e.2).memberRem a e.1).members a := by
  have hconf' : (((b.newLogin e.2).memberRem a e.1).conf a).isSome :=
    ((Refills.memberRem (b.newLogin e.2) a e.1).isSome a).trans hconf
  obtain ⟨conf, hconf'⟩ := Option.isSome_iff_exists.mp hconf'
  unfold Book.addEntry Book.memberAdd
  rw [members_modifyConf_self, hconf', members_of_some hconf']
  rfl

theorem members_addEntry_of_ne (h : a' ≠ a) : (b.addEntry a e).members a' = b.members a' :=
  (members_modifyConf_of_ne h _).trans (members_memberRem_of_ne h e.1)

theorem mem_logins_addEntry (hconf : (b.conf a).isSome) :
    m ∈ (b.addEntry a e).logins a ↔
      m = b.nextLogin ∨ m ∈ ((b.newLogin e.2).memberRem a e.1).logins a := by
  simp only [Book.logins, members_addEntry_self hconf, List.map_cons, List.mem_cons]

/-- The login info of the member that was there with the id is freed. -/
theorem login_addEntry (hm : m ≠ b.nextLogin) :
    (b.addEntry a e).login m = if b.memberFind a e.1 = some m then none else b.login m := by
  have hold : (b.newLogin e.2).login m = b.login m := Function.update_of_ne hm ..
  rw [← hold]
  exact login_memberRem (b.newLogin e.2) a e.1 m

theorem Tidy.login_addEntry_new (h : Tidy b) : ((b.addEntry a e).login b.nextLogin).isSome := by
  have hnot : ¬ b.memberFind a e.1 = some b.nextLogin :=
    fun hfind => Nat.lt_irrefl _ (h.lt (mem_logins_of_memberFind h hfind))
  have heq := (login_memberRem (b.newLogin e.2) a e.1 b.nextLogin).trans (if_neg hnot)
  have hnew : (b.newLogin e.2).login b.nextLogin = some e.2 := Function.update_self ..
  exact congrArg Option.isSome (heq.trans hnew)

theorem Tidy.addEntry (h : Tidy b) (hconf : (b.conf a).isSome) : Tidy (b.addEntry a e) := by
  have hrem := (h.newLogin e.2).memberRem a e.1
  refine hrem.cons (((Refills.memberRem (b.newLogin e.2) a e.1).isSome a).trans hconf) ?_ ?_ ?_
  · rw [Book.ids, members_memberRem_self]
    simp
  · intro a' hm
    have hm' : b.nextLogin ∈ b.logins a' := mem_logins_of_memberRem (b := b.newLogin e.2) hm
    exact Nat.lt_irrefl _ (h.lt hm')
  · exact h.login_addEntry_new

theorem Tidy.mem_logins_addEntry_iff (h : Tidy b) (hconf : (b.conf a).isSome) :
    m ∈ (b.addEntry a e).logins a ↔
      (m ∈ b.logins a ∨ m = b.nextLogin) ∧ ((b.addEntry a e).login m).isSome := by
  rw [mem_logins_addEntry hconf, (h.newLogin e.2).mem_logins_memberRem_iff]
  constructor
  · rintro (rfl | ⟨hm, hsome⟩)
    · exact ⟨.inr rfl, h.login_addEntry_new⟩
    · exact ⟨.inl hm, hsome⟩
  · rintro ⟨hm | rfl, hsome⟩
    · exact .inr ⟨hm, hsome⟩
    · exact .inl rfl

end

/-- What becomes of a table, and of the memory, when members with the given ids come in. Those
that are in the table afterwards are those that are in memory, of the old and of the new ones. -/
structure Added (b b' : Book) (a : Nat) (new : List UInt16) : Prop where
  tidy : Tidy b'
  there : (b'.conf a).isSome
  others : ∀ a', a' ≠ a → b'.members a' = b.members a'
  next : b'.nextLogin = b.nextLogin + new.length
  logins : ∀ m, m ∈ b'.logins a ↔
    (m ∈ b.logins a ∨ b.nextLogin ≤ m ∧ m < b'.nextLogin) ∧ (b'.login m).isSome
  login : ∀ m, m < b.nextLogin → m ∉ b.logins a → b'.login m = b.login m
  ids : (b.ids a ++ new).Nodup → (b'.ids a).Perm (b.ids a ++ new)
  all : (∀ m, (m ∈ b.logins a ∨ b.nextLogin ≤ m ∧ m < b'.nextLogin) → (b'.login m).isSome) ↔
    (b.ids a ++ new).Nodup

theorem Added.nil (h : Tidy b) (hconf : (b.conf a).isSome) : Added b b a [] where
  tidy := h
  there := hconf
  others := fun _ _ => rfl
  next := rfl
  logins := by
    intro m
    have hno : ¬ (b.nextLogin ≤ m ∧ m < b.nextLogin) := fun h => Nat.not_lt.mpr h.1 h.2
    simp only [hno, or_false]
    exact ⟨fun hm => ⟨hm, h.alive a m hm⟩, And.left⟩
  login := fun _ _ _ => rfl
  ids := by simp
  all := by
    rw [List.append_nil]
    refine iff_of_true (fun m hm => ?_) (h.ids a)
    rcases hm with hm | ⟨hle, hlt⟩
    · exact h.alive a m hm
    · exact absurd hlt (Nat.not_lt.mpr hle)

theorem Added.entry (h : Tidy b) (hconf : (b.conf a).isSome) (e : UInt16 × MwLoginInfo) :
    Added b (b.addEntry a e) a [e.1] := by
  have hrange : ∀ m, b.nextLogin ≤ m ∧ m < (b.addEntry a e).nextLogin ↔ m = b.nextLogin := by
    intro m
    rw [Book.nextLogin_addEntry]
    omega
  have hnodup : (b.ids a ++ [e.1]).Nodup ↔ e.1 ∉ b.ids a := h.nodup_append_singleton_iff
  refine ⟨h.addEntry hconf, ?_, ?_, Book.nextLogin_addEntry b a e, ?_, ?_, ?_, ?_⟩
  · exact ((Refills.addEntry b a e).isSome a).trans hconf
  · exact fun a' ha => members_addEntry_of_ne ha
  · intro m
    rw [hrange, h.mem_logins_addEntry_iff hconf]
  · intro m hlt hm
    rw [login_addEntry (Nat.ne_of_lt hlt), if_neg]
    exact fun hfind => hm (mem_logins_of_memberFind h hfind)
  · intro hnot
    have hsame := members_memberRem_of_not_mem (b := b.newLogin e.2) (hnodup.mp hnot)
    rw [Book.ids, members_addEntry_self hconf, hsame, List.map_cons]
    exact (List.perm_append_singleton e.1 (b.ids a)).symm
  · rw [hnodup]
    constructor
    · -- whoever has the id is freed
      intro hall hmem
      obtain ⟨old, hold, heq⟩ := List.mem_map.mp hmem
      have hlogins : old.2 ∈ b.logins a := List.mem_map_of_mem hold
      have hfind : b.memberFind a e.1 = some old.2 := h.memberFind_iff.mpr (heq ▸ hold)
      have hsome := hall old.2 (.inl hlogins)
      rw [login_addEntry (Nat.ne_of_lt (h.lt hlogins)), if_pos hfind] at hsome
      cases hsome
    · intro hnot m hm
      rcases hm with hm | hm
      · rw [login_addEntry (Nat.ne_of_lt (h.lt hm)), if_neg]
        · exact h.alive a m hm
        · exact fun hfind => hnot (List.mem_map_of_mem (h.memberFind_iff.mp hfind))
      · rw [(hrange m).mp hm]
        exact h.login_addEntry_new

theorem Added.trans {b'' : Book} {new new' : List UInt16} (hb : Tidy b) (h : Added b b' a new)
    (h' : Added b' b'' a new') : Added b b'' a (new ++ new') := by
  have hle : b.nextLogin ≤ b'.nextLogin := h.next ▸ Nat.le_add_right _ _
  have hle' : b'.nextLogin ≤ b''.nextLogin := h'.next ▸ Nat.le_add_right _ _
  -- what is freed stays free
  have hback : ∀ m, (m ∈ b.logins a ∨ b.nextLogin ≤ m ∧ m < b'.nextLogin) →
      (b''.login m).isSome → m ∈ b'.logins a := by
    intro m hm hsome
    by_contra hnot
    have hlt : m < b'.nextLogin := hm.elim (fun hm => (hb.lt hm).trans_le hle) And.right
    rw [h'.login m hlt hnot] at hsome
    exact hnot ((h.logins m).mpr ⟨hm, hsome⟩)
  have hsplit : ∀ m, (m ∈ b.logins a ∨ b.nextLogin ≤ m ∧ m < b''.nextLogin) ↔
      (m ∈ b.logins a ∨ b.nextLogin ≤ m ∧ m < b'.nextLogin) ∨
        b'.nextLogin ≤ m ∧ m < b''.nextLogin := by
    intro m
    rw [or_assoc]
    refine or_congr_right ?_
    omega
  refine ⟨h'.tidy, h'.there, fun a' ha => (h'.others a' ha).trans (h.others a' ha), ?_, ?_, ?_, ?_, ?_⟩
  · rw [h'.next, h.next, List.length_append, Nat.add_assoc]
  · intro m
    rw [h'.logins, hsplit]
    constructor
    · rintro ⟨hm, hsome⟩
      exact ⟨hm.imp_left fun hm => ((h.logins m).mp hm).1, hsome⟩
    · rintro ⟨hm, hsome⟩
      exact ⟨hm.imp_left fun hm => hback m hm hsome, hsome⟩
  · intro m hlt hm
    rw [h'.login m (hlt.trans_le hle) ?_, h.login m hlt hm]
    intro hm'
    rcases ((h.logins m).mp hm').1 with hold | hnew
    · exact hm hold
    · exact absurd hlt (Nat.not_lt.mpr hnew.1)
  · intro hnodup
    rw [← List.append_assoc] at hnodup ⊢
    have hperm := h.ids hnodup.of_append_left
    have hnodup' := (hperm.append_right new').nodup_iff.mpr hnodup
    exact (h'.ids hnodup').trans (hperm.append_right new')
  · constructor
    · intro hall
      have hfirst : (b.ids a ++ new).Nodup := h.all.mp fun m hm =>
        ((h.logins m).mp (hback m hm (hall m ((hsplit m).mpr (.inl hm))))).2
      have hsecond : (b'.ids a ++ new').Nodup := h'.all.mp fun m hm =>
        hall m ((hsplit m).mpr (hm.imp_left fun hm => ((h.logins m).mp hm).1))
      rw [← List.append_assoc]
      exact ((h.ids hfirst).append_right new').nodup_iff.mp hsecond
    · intro hnodup m hm
      rw [← List.append_assoc] at hnodup
      have hfirst := hnodup.of_append_left
      have hsecond := ((h.ids hfirst).append_right new').nodup_iff.mpr hnodup
      refine h'.all.mpr hsecond m (((hsplit m).mp hm).imp_left fun hm => ?_)
      exact (h.logins m).mpr ⟨hm, h.all.mpr hfirst m hm⟩

theorem Added.entries (h : Tidy b) (hconf : (b.conf a).isSome)
    (entries : List (UInt16 × MwLoginInfo)) :
    Added b (b.addEntries a entries) a (entries.map Prod.fst) := by
  induction entries generalizing b with
  | nil => exact .nil h hconf
  | cons e entries ih =>
    have hfirst := Added.entry h hconf e
    exact hfirst.trans h (ih hfirst.tidy hfirst.there)

/-! ## What the client holds -/

/-- The login infos that the client has been given, less those of members that have parted -/
def held : List ConfEvent → List Nat
  | [] => []
  | .opened ms :: es => ms ++ held es
  | .peerJoined m :: es => m :: held es
  | .peerParted m :: es => (held es).filter (· ≠ m)
  | _ :: es => held es

/-- The table of a conference has what the client holds, as far as it is in memory. -/
structure Told (b : Book) : Prop where
  logins : ∀ a m, m ∈ b.logins a ↔ m ∈ held (b.history a) ∧ (b.login m).isSome
  below : ∀ a, ∀ m ∈ held (b.history a), m < b.nextLogin

/-- The client holds a login info that has been freed. -/
def Dangles (a : Nat) (b : Book) : Prop := ∃ m ∈ held (b.history a), b.login m = none

/-- What is told of something does not add to what the client holds, nor take from it. -/
def ConfEvent.Silent : ConfEvent → Prop
  | .opened _ | .peerJoined _ | .peerParted _ => False
  | _ => True

theorem held_cons {e : ConfEvent} (he : e.Silent) (es : List ConfEvent) : held (e :: es) = held es := by
  cases e with
  | opened | peerJoined | peerParted => cases he
  | created | invited | closed | text | typing | destroyed => rfl

theorem ConfEvent.Finishes.silent {e : ConfEvent} (h : e.Finishes) : e.Silent := by
  cases e with
  | closed | destroyed => trivial
  | created | invited | opened | peerJoined | peerParted | text | typing => cases h

/-- Tables and memory stay. -/
structure Same (b b' : Book) : Prop where
  members : ∀ a, b'.members a = b.members a
  login : b'.login = b.login
  nextLogin : b'.nextLogin = b.nextLogin

theorem Same.logins (h : Same b b') (a : Nat) : b'.logins a = b.logins a :=
  congrArg (List.map Prod.snd) (h.members a)

theorem Same.ids (h : Same b b') (a : Nat) : b'.ids a = b.ids a :=
  congrArg (List.map Prod.fst) (h.members a)

theorem Same.tidy (h : Same b b') (hb : Tidy b) : Tidy b' := hb.congr h.members h.login h.nextLogin

theorem Added.congr {c c' : Book} {new : List UInt16} (h : Added b b' a new) (hb : Same b c)
    (hb' : Same b' c') (hthere : (c'.conf a).isSome) : Added c c' a new where
  tidy := hb'.tidy h.tidy
  there := hthere
  others := fun a' ha => by rw [hb'.members, hb.members, h.others a' ha]
  next := by rw [hb'.nextLogin, hb.nextLogin, h.next]
  logins := by
    rw [hb'.logins, hb.logins, hb.nextLogin, hb'.nextLogin, hb'.login]
    exact h.logins
  login := by
    rw [hb.logins, hb.nextLogin, hb.login, hb'.login]
    exact h.login
  ids := by
    rw [hb.ids, hb'.ids]
    exact h.ids
  all := by
    rw [hb.logins, hb.ids, hb.nextLogin, hb'.nextLogin, hb'.login]
    exact h.all

/-- What happens to one conference leaves the tables of the others as they are, and of the
memory all but what is in its own table. -/
structure Touches (a : Nat) (b b' : Book) : Prop where
  others : ∀ a', a' ≠ a → b'.members a' = b.members a'
  login : ∀ m, m < b.nextLogin → m ∉ b.logins a → b'.login m = b.login m
  next : b.nextLogin ≤ b'.nextLogin
  kept : ∀ a', a' ≠ a → held (b'.history a') = held (b.history a')

/-- What somebody else's client holds, or what has been freed, is not touched. -/
theorem Touches.login_of_held (h : Touches a b b') (ht : Tidy b) (htold : Told b)
    (hm : m ∈ held (b.history a')) (hor : a' ≠ a ∨ b.login m = none) :
    b'.login m = b.login m := by
  refine h.login m (htold.below a' m hm) fun hmem => ?_
  have halive := ht.alive a m hmem
  rcases hor with hne | hnone
  · exact hne (ht.apart a' a m ((htold.logins a' m).mpr ⟨hm, halive⟩) hmem)
  · rw [hnone] at halive
    cases halive

theorem Touches.told (h : Touches a b b') (ht : Tidy b) (ht' : Tidy b') (htold : Told b)
    (hself : ∀ m, m ∈ held (b'.history a) → (b'.login m).isSome → m ∈ b'.logins a)
    (hheld : ∀ m, m ∈ b'.logins a → m ∈ held (b'.history a))
    (hbelow : ∀ m ∈ held (b'.history a), m < b'.nextLogin) : Told b' := by
  refine ⟨fun a' m => ?_, fun a' m hm => ?_⟩
  · by_cases ha : a' = a
    · subst ha
      exact ⟨fun hm => ⟨hheld m hm, ht'.alive a' m hm⟩, fun hm => hself m hm.1 hm.2⟩
    · -- what the clients of other conferences hold is not in the table that is touched
      have hsame : b'.logins a' = b.logins a' := congrArg (List.map Prod.snd) (h.others a' ha)
      rw [hsame, h.kept a' ha, htold.logins]
      refine and_congr_right fun hm => ?_
      rw [h.login_of_held ht htold hm (.inl ha)]
  · by_cases ha : a' = a
    · subst ha
      exact hbelow m hm
    · rw [h.kept a' ha] at hm
      exact (htold.below a' m hm).trans_le h.next

theorem Touches.dangles_iff (h : Touches a b b') (ht : Tidy b) (htold : Told b) (ha : a' ≠ a) :
    Dangles a' b' ↔ Dangles a' b := by
  unfold Dangles
  rw [h.kept a' ha]
  refine exists_congr fun m => and_congr_right fun hm => ?_
  rw [h.login_of_held ht htold hm (.inl ha)]

/-- With an empty table all that the client holds has been freed. -/
theorem dangles_of_empty (htold : Told b) (htold' : Told b')
    (hheld : held (b'.history a) = held (b.history a)) (hempty : b'.members a = []) :
    Dangles a b' ↔ Dangles a b ∨ b.members a ≠ [] := by
  have hdead : ∀ m ∈ held (b.history a), b'.login m = none := by
    intro m hm
    by_contra hne
    have hmem := (htold'.logins a m).mpr ⟨hheld ▸ hm, Option.isSome_iff_ne_none.mpr hne⟩
    simp [Book.logins, hempty] at hmem
  unfold Dangles
  rw [hheld]
  constructor
  · rintro ⟨m, hm, -⟩
    cases hlogin : b.login m with
    | none => exact .inl ⟨m, hm, hlogin⟩
    | some info =>
      refine .inr fun hnil => ?_
      have hmem := (htold.logins a m).mpr ⟨hm, by rw [hlogin]; rfl⟩
      simp [Book.logins, hnil] at hmem
  · rintro (⟨m, hm, -⟩ | hne)
    · exact ⟨m, hm, hdead m hm⟩
    · obtain ⟨e, he⟩ := List.exists_mem_of_ne_nil _ hne
      have hm := ((htold.logins a e.2).mp (List.mem_map_of_mem he)).1
      exact ⟨e.2, hm, hdead e.2 hm⟩

/-! ### Members that are announced -/

section

variable {new : List UInt16}

theorem Added.touches (h : Added b b' a new)
    (hothers : ∀ a', a' ≠ a → held (b'.history a') = held (b.history a')) : Touches a b b' where
  others := h.others
  login := h.login
  next := h.next ▸ Nat.le_add_right _ _
  kept := hothers

theorem Added.told (h : Added b b' a new) (ht : Tidy b) (htold : Told b)
    (hothers : ∀ a', a' ≠ a → held (b'.history a') = held (b.history a'))
    (hself : ∀ m, m ∈ held (b'.history a) ↔
      (b.nextLogin ≤ m ∧ m < b'.nextLogin) ∨ m ∈ held (b.history a)) : Told b' := by
  have htouch := h.touches hothers
  refine htouch.told ht h.tidy htold (fun m hm hsome => ?_) (fun m hm => ?_) fun m hm => ?_
  · refine (h.logins m).mpr ⟨?_, hsome⟩
    rcases (hself m).mp hm with hnew | hold
    · exact .inr hnew
    · refine or_iff_not_imp_left.mpr fun hnot => ?_
      rw [h.login m (htold.below a m hold) hnot] at hsome
      exact absurd ((htold.logins a m).mpr ⟨hold, hsome⟩) hnot
  · rcases ((h.logins m).mp hm).1 with hold | hnew
    · exact (hself m).mpr (.inr ((htold.logins a m).mp hold).1)
    · exact (hself m).mpr (.inl hnew)
  · rcases (hself m).mp hm with hnew | hold
    · exact hnew.2
    · exact (htold.below a m hold).trans_le htouch.next

theorem Added.dangles_iff (h : Added b b' a new) (ht : Tidy b) (htold : Told b)
    (hothers : ∀ a', a' ≠ a → held (b'.history a') = held (b.history a'))
    (hself : ∀ m, m ∈ held (b'.history a) ↔
      (b.nextLogin ≤ m ∧ m < b'.nextLogin) ∨ m ∈ held (b.history a)) :
    Dangles a b' ↔ Dangles a b ∨ ¬ (b.ids a ++ new).Nodup := by
  have htouch := h.touches hothers
  rw [← h.all]
  constructor
  · -- what is not in memory was freed before, or else does not come through the entries
    rintro ⟨m, hm, hnone⟩
    by_cases hdead : m ∈ held (b.history a) ∧ b.login m = none
    · exact .inl ⟨m, hdead⟩
    · refine .inr fun hall => ?_
      have hsome := hall m ?_
      · rw [hnone] at hsome
        cases hsome
      · rcases (hself m).mp hm with hnew | hold
        · exact .inr hnew
        · refine .inl ((htold.logins a m).mpr ⟨hold, ?_⟩)
          exact Option.isSome_iff_ne_none.mpr fun hlogin => hdead ⟨hold, hlogin⟩
  · rintro (⟨m, hm, hnone⟩ | hall)
    · exact ⟨m, (hself m).mpr (.inr hm),
        (htouch.login_of_held ht htold hm (.inr hnone)).trans hnone⟩
    · push Not at hall
      obtain ⟨m, hm, hnone⟩ := hall
      refine ⟨m, (hself m).mpr ?_, by simpa using hnone⟩
      rcases hm with hold | hnew
      · exact .inr ((htold.logins a m).mp hold).1
      · exact .inl hnew

end

/-! ### A member that parts -/

/-- A member is taken out of the table, and the client no longer holds its login info. -/
theorem parted_touches {id : UInt16} (ht : Tidy b)
    (hlog : ∀ a', b'.history a' = if a = a' then .peerParted m :: b.history a' else b.history a')
    (hsame : Same (b.memberRem a id) b') : Touches a b b' where
  others := fun a' ha => (hsame.members a').trans (members_memberRem_of_ne ha id)
  login := by
    intro m' _ hm'
    rw [hsame.login, login_memberRem, if_neg]
    exact fun hfind' => hm' (mem_logins_of_memberFind ht hfind')
  next := by rw [hsame.nextLogin, nextLogin_memberRem]
  kept := fun a' ha => by rw [hlog, if_neg (Ne.symm ha)]

theorem parted_kept {id : UInt16} (ht : Tidy b) (htold : Told b)
    (hfind : b.memberFind a id = some m)
    (hlog : ∀ a', b'.history a' = if a = a' then .peerParted m :: b.history a' else b.history a')
    (hsame : Same (b.memberRem a id) b') :
    Told b' ∧ (Dangles a b' ↔ Dangles a b) := by
  have htouch := parted_touches ht hlog hsame
  have ht' := hsame.tidy (ht.memberRem a id)
  have hheld : ∀ m', m' ∈ held (b'.history a) ↔ m' ∈ held (b.history a) ∧ m' ≠ m := by
    intro m'
    rw [hlog, if_pos rfl]
    simp [held]
  have hlogin : ∀ m', m' ≠ m → b'.login m' = b.login m' := by
    intro m' hne
    rw [hsame.login, login_memberRem, if_neg]
    rw [hfind]
    exact fun heq => hne (Option.some.inj heq).symm
  have hgone : b'.login m = none := by rw [hsame.login, login_memberRem, if_pos hfind]
  have hlogins : ∀ m', m' ∈ b'.logins a ↔ m' ∈ b.logins a ∧ (b'.login m').isSome := by
    intro m'
    rw [hsame.logins, hsame.login]
    exact ht.mem_logins_memberRem_iff
  refine ⟨htouch.told ht ht' htold (fun m' hm' hsome => ?_) (fun m' hm' => ?_) fun m' hm' => ?_, ?_⟩
  · obtain ⟨hold, hne⟩ := (hheld m').mp hm'
    refine (hlogins m').mpr ⟨(htold.logins a m').mpr ⟨hold, ?_⟩, hsome⟩
    rw [← hlogin m' hne]
    exact hsome
  · obtain ⟨hold, hsome⟩ := (hlogins m').mp hm'
    refine (hheld m').mpr ⟨((htold.logins a m').mp hold).1, ?_⟩
    rintro rfl
    rw [hgone] at hsome
    cases hsome
  · exact (htold.below a m' ((hheld m').mp hm').1).trans_le htouch.next
  · constructor
    · rintro ⟨m', hm', hnone⟩
      obtain ⟨hold, hne⟩ := (hheld m').mp hm'
      exact ⟨m', hold, (hlogin m' hne).symm.trans hnone⟩
    · rintro ⟨m', hm', hnone⟩
      have hne : m' ≠ m := by
        rintro rfl
        have hsome := ht.alive a m' (mem_logins_of_memberFind ht hfind)
        rw [hnone] at hsome
        cases hsome
      exact ⟨m', (hheld m').mpr ⟨hm', hne⟩, (hlogin m' hne).trans hnone⟩

/-! ### The end of a conference -/

theorem foldl_update_none (l : List (UInt16 × Nat)) (login : Nat → Option MwLoginInfo) (m : Nat) :
    l.foldl (fun (login : Nat → Option MwLoginInfo) e => Function.update login e.2 none) login m =
      if m ∈ l.map Prod.snd then none else login m := by
  induction l generalizing login with
  | nil => simp
  | cons e l ih =>
    rw [List.foldl_cons, ih, List.map_cons]
    by_cases hm : m ∈ l.map Prod.snd
    · rw [if_pos hm, if_pos (List.mem_cons_of_mem _ hm)]
    · rw [if_neg hm, Function.update_apply]
      by_cases heq : m = e.2 <;> simp_all

theorem login_confFree (b : Book) (a m : Nat) :
    (b.confFree a).login m = if m ∈ b.logins a then none else b.login m :=
  foldl_update_none (b.members a) b.login m

theorem members_confFree_self (b : Book) (a : Nat) : (b.confFree a).members a = [] := by
  simp [Book.members, Book.confFree]

theorem members_confFree_of_ne (h : a' ≠ a) : (b.confFree a).members a' = b.members a' :=
  members_eq (Function.update_of_ne h ..)

theorem Tidy.confFree (h : Tidy b) (a : Nat) : Tidy (b.confFree a) := by
  have hcases : ∀ a', (b.confFree a).members a' = [] ∨
      a' ≠ a ∧ (b.confFree a).members a' = b.members a' := by
    intro a'
    by_cases ha : a' = a
    · exact .inl (ha ▸ members_confFree_self b a')
    · exact .inr ⟨ha, members_confFree_of_ne ha⟩
  have hlogins : ∀ a' m, m ∈ (b.confFree a).logins a' → a' ≠ a ∧ m ∈ b.logins a' := by
    intro a' m hm
    rcases hcases a' with hnil | ⟨hne, hsame⟩
    · simp [Book.logins, hnil] at hm
    · rw [Book.logins, hsame] at hm
      exact ⟨hne, hm⟩
  refine ⟨fun a' => ?_, fun a' => ?_, fun a1 a2 m h1 h2 => ?_, fun a' m hm => ?_, fun m hm => ?_⟩
  · rcases hcases a' with hnil | ⟨-, hsame⟩
    · simp [Book.ids, hnil]
    · rw [Book.ids, hsame]
      exact h.ids a'
  · rcases hcases a' with hnil | ⟨-, hsame⟩
    · simp [Book.logins, hnil]
    · rw [Book.logins, hsame]
      exact h.logins a'
  · exact h.apart a1 a2 m (hlogins a1 m h1).2 (hlogins a2 m h2).2
  · obtain ⟨hne, hm'⟩ := hlogins a' m hm
    rw [login_confFree, if_neg fun hmem => hne (h.apart a' a m hm' hmem)]
    exact h.alive a' m hm'
  · rw [login_confFree] at hm
    split at hm
    · cases hm
    · exact h.born m hm

theorem Told.confFree (htold : Told b) (ht : Tidy b) (a : Nat) : Told (b.confFree a) := by
  have htouch : Touches a b (b.confFree a) :=
    ⟨fun a' ha => members_confFree_of_ne ha, fun m _ hm => by rw [login_confFree, if_neg hm],
      le_rfl, fun _ _ => rfl⟩
  refine htouch.told ht (ht.confFree a) htold (fun m hm hsome => ?_) (fun m hm => ?_) (htold.below a)
  · rw [login_confFree] at hsome
    split at hsome
    case isTrue => cases hsome
    case isFalse hnot => exact absurd ((htold.logins a m).mpr ⟨hm, hsome⟩) hnot
  · simp [Book.logins, members_confFree_self] at hm

theorem freeAll_kept (ht : Tidy b) (htold : Told b) (rounds : Nat) :
    Tidy (b.freeAll rounds) ∧ Told (b.freeAll rounds) := by
  induction rounds generalizing b with
  | zero => exact ⟨ht, htold⟩
  | succ rounds ih =>
    unfold Book.freeAll
    split
    · exact ⟨ht, htold⟩
    · exact ih (ht.confFree _) (htold.confFree ht _)

/-! ### Everything else -/

theorem Same.told (h : Same b b') (htold : Told b)
    (hheld : ∀ a, held (b'.history a) = held (b.history a)) : Told b' where
  logins := fun a m => by rw [h.logins, hheld, h.login]; exact htold.logins a m
  below := fun a => by rw [hheld, h.nextLogin]; exact htold.below a

theorem Same.dangles_iff (h : Same b b') (hheld : ∀ a, held (b'.history a) = held (b.history a)) :
    Dangles a b' ↔ Dangles a b := by
  unfold Dangles
  rw [hheld, h.login]

theorem Same.addConf (h : Orderly b) {conf : MwConference} (hconf : conf.members = []) :
    Same b (b.addConf conf) where
  members := by
    intro a
    by_cases ha : a = b.nextConf
    · subst ha
      rw [members_of_some (Book.conf_addConf_self b conf), hconf, Book.members, h.absent]
      rfl
    · exact members_eq (Function.update_of_ne ha ..)
  login := rfl
  nextLogin := rfl

end

/-! ## Deeds -/

/-- The deed takes memory away that a client may hold: an id comes again that is in the table,
or comes twice, or a conference with members ends. -/
def Deed.Spoils (b : Book) (a : Nat) : Deed → Prop
  | .welcome a' _ _ entries => a' = a ∧ ¬ (b.ids a ++ entries.map Prod.fst).Nodup
  | .joined a' id _ => a' = a ∧ id ∈ b.ids a
  | .gone a' _ => a' = a ∧ b.members a ≠ []
  | .stopped => b.members a ≠ []
  | _ => False

section

variable {b : Book} {a : Nat} {d : Deed} {e : ConfEvent}

theorem history_of_event (h : d.event b = some (a, e)) (a' : Nat) :
    (b.does d).history a' = if a = a' then e :: b.history a' else b.history a' := by
  rw [history_does, h]
  by_cases ha : a = a' <;> simp [Option.filter, ha]

theorem history_of_none (h : d.event b = none) (a : Nat) :
    (b.does d).history a = b.history a := by
  rw [history_does, h]
  rfl

/-- An event that is silent about members -/
theorem held_of_silent (h : ∀ a e, d.event b = some (a, e) → e.Silent) (a : Nat) :
    held ((b.does d).history a) = held (b.history a) := by
  rcases history_does_cases b d a with ⟨heq, -⟩ | ⟨e, he, heq⟩
  · rw [heq]
  · rw [heq, held_cons (h a e he)]

theorem finishes_of_gone {a' : Nat} {e' : Option ConfEvent} (hfits : (Deed.gone a' e').Fits b)
    (he : (Deed.gone a' e').event b = some (a, e)) : e.Finishes := by
  obtain ⟨-, rfl | ⟨reason, rfl⟩ | rfl⟩ := hfits
  · cases he
  · obtain ⟨-, rfl⟩ := Prod.mk.inj (Option.some.inj he)
    trivial
  · obtain ⟨-, rfl⟩ := Prod.mk.inj (Option.some.inj he)
    trivial

/-- Tables and memory stay, and nothing that is noted is about members. -/
theorem kept_of_same (ht : Tidy b) (htold : Told b) (hsame : Same b (b.does d))
    (hsilent : ∀ a e, d.event b = some (a, e) → e.Silent) (hnot : ∀ a, ¬ d.Spoils b a) :
    Tidy (b.does d) ∧ Told (b.does d) ∧ ∀ a, Dangles a (b.does d) ↔ Dangles a b ∨ d.Spoils b a := by
  have hheld := held_of_silent hsilent
  refine ⟨hsame.tidy ht, hsame.told htold hheld, fun a => ?_⟩
  rw [hsame.dangles_iff hheld, or_iff_left (hnot a)]

/-- Members come in and are announced. -/
theorem kept_of_added {new : List UInt16} (ht : Tidy b) (htold : Told b)
    (hadd : Added b (b.does d) a new) (hevent : d.event b = some (a, e))
    (hheld : ∀ es m, m ∈ held (e :: es) ↔
      (b.nextLogin ≤ m ∧ m < (b.does d).nextLogin) ∨ m ∈ held es)
    (hspoils : ∀ a', d.Spoils b a' ↔ a = a' ∧ ¬ (b.ids a ++ new).Nodup) :
    Tidy (b.does d) ∧ Told (b.does d) ∧ ∀ a, Dangles a (b.does d) ↔ Dangles a b ∨ d.Spoils b a := by
  have hothers : ∀ a', a' ≠ a → held ((b.does d).history a') = held (b.history a') :=
    fun a' ha => by rw [history_of_event hevent, if_neg (Ne.symm ha)]
  have hself : ∀ m, m ∈ held ((b.does d).history a) ↔
      (b.nextLogin ≤ m ∧ m < (b.does d).nextLogin) ∨ m ∈ held (b.history a) := by
    intro m
    rw [history_of_event hevent, if_pos rfl]
    exact hheld _ m
  refine ⟨hadd.tidy, hadd.told ht htold hothers hself, fun a' => ?_⟩
  rw [hspoils]
  by_cases ha : a' = a
  · subst ha
    rw [hadd.dangles_iff ht htold hothers hself]
    simp
  · rw [(hadd.touches hothers).dangles_iff ht htold ha]
    simp [Ne.symm ha]

theorem mem_held_opened (n len m : Nat) (es : List ConfEvent) :
    m ∈ held (.opened (List.range' n len) :: es) ↔ (n ≤ m ∧ m < n + len) ∨ m ∈ held es := by
  simp [held]

theorem kept_does (ht : Tidy b) (htold : Told b) (hb : Orderly b) (hfits : d.Fits b) :
    Tidy (b.does d) ∧ Told (b.does d) ∧ ∀ a, Dangles a (b.does d) ↔ Dangles a b ∨ d.Spoils b a := by
  cases d with
  | nothing => exact kept_of_same ht htold ⟨fun _ => rfl, rfl, rfl⟩ (by simp [Deed.event]) fun _ => id
  | new title =>
    have hadd : Same b (b.addConf { title := title }) := Same.addConf hb rfl
    exact kept_of_same ht htold ⟨hadd.members, rfl, rfl⟩ (by simp [Deed.event, ConfEvent.Silent])
      fun _ => id
  | invited name title owner invite =>
    have hadd : Same b (b.addConf { state := .invited, channel := some b.nextChan, name := name
                                    title := title, owner := owner }) := Same.addConf hb rfl
    exact kept_of_same ht htold ⟨hadd.members, rfl, rfl⟩ (by simp [Deed.event, ConfEvent.Silent])
      fun _ => id
  | junk =>
    -- a conference comes and goes, with an empty table
    have hadd : Same b (b.addConf {}) := Same.addConf hb rfl
    have hempty : (b.addConf {}).members b.nextConf = [] := members_of_some (Book.conf_addConf_self b {})
    refine kept_of_same ht htold ⟨fun a => ?_, funext fun m => ?_, rfl⟩ (by simp [Deed.event]) fun _ => id
    · by_cases ha : a = b.nextConf
      · subst ha
        exact (members_confFree_self _ _).trans (hempty.symm.trans (hadd.members _))
      · exact (members_confFree_of_ne ha).trans (hadd.members a)
    · exact (login_confFree _ _ m).trans (if_neg (by simp [Book.logins, hempty]))
  | opening a name ok =>
    set f : MwConference → MwConference := fun conf =>
      { conf with
        name := name
        state := if ok then .pending else .error
        channel := if ok then some b.nextChan else conf.channel }
    have hkeep : ∀ a', (b.modifyConf a f).members a' = b.members a' :=
      members_modifyConf_keep (f := f) (fun _ => rfl) b a
    exact kept_of_same ht htold ⟨hkeep, rfl, rfl⟩ (by simp [Deed.event]) fun _ => id
  | welcome a name title entries =>
    -- the name, the title and the state are not in the table, so that only the entries matter
    obtain ⟨conf, hconf, -⟩ := hfits
    set f : MwConference → MwConference := fun conf => { conf with name := name, title := title }
    set g : MwConference → MwConference := fun conf => { conf with state := .opened }
    set b1 := (b.modifyConf a f).addEntries a entries
    have hname : Same (b.modifyConf a f) b :=
      ⟨fun a' => (members_modifyConf_keep (f := f) (fun _ => rfl) b a a').symm, rfl, rfl⟩
    have hopened : Same b1 (b1.modifyConf a g) :=
      ⟨members_modifyConf_keep (f := g) (fun _ => rfl) b1 a, rfl, rfl⟩
    have hdone : Same b1 (b.does (.welcome a name title entries)) :=
      ⟨hopened.members, rfl, rfl⟩
    have hthere : ((b.modifyConf a f).conf a).isSome := by
      rw [isSome_modifyConf, hconf]
      rfl
    have hentries := Added.entries (ht.congr (fun a' => (hname.members a').symm) rfl rfl) hthere entries
    have hadd := hentries.congr hname hdone ((isSome_modifyConf _ a a _).trans hentries.there)
    refine kept_of_added ht htold hadd rfl (fun es m => ?_) fun a' => ?_
    · rw [mem_held_opened, hadd.next, List.length_map]
    · refine and_congr_right ?_
      rintro rfl
      exact Iff.rfl
  | joined a id info =>
    obtain ⟨conf, hconf, -⟩ := hfits
    have hthere : (b.conf a).isSome := by rw [hconf]; rfl
    have hentry := Added.entry ht hthere (id, info)
    have hadd : Added b (b.does (.joined a id info)) a [id] :=
      hentry.congr ⟨fun _ => rfl, rfl, rfl⟩ ⟨fun _ => rfl, rfl, rfl⟩ hentry.there
    refine kept_of_added ht htold hadd rfl (fun es m => ?_) fun a' => ?_
    · rw [hadd.next, held, List.mem_cons, List.length_singleton]
      refine or_congr_left ?_
      omega
    · refine and_congr_right ?_
      rintro rfl
      rw [ht.nodup_append_singleton_iff, not_not]
  | parted a id m =>
    -- `on_peer_parted` comes before `MEMBER_REM`, but what is noted is no part of the memory
    have hsame : Same (b.memberRem a id) (b.does (.parted a id m)) := by
      refine ⟨fun a' => ?_, funext fun m' => ?_, ?_⟩
      · by_cases ha : a' = a
        · subst ha
          exact (members_memberRem_self _ a' id).trans (members_memberRem_self b a' id).symm
        · exact (members_memberRem_of_ne ha id).trans (members_memberRem_of_ne (b := b) ha id).symm
      · exact (login_memberRem _ a id m').trans (login_memberRem b a id m').symm
      · exact (nextLogin_memberRem _ a id).trans (nextLogin_memberRem b a id).symm
    have hlog := history_of_event (b := b) (d := .parted a id m) rfl
    obtain ⟨htold', hdangles⟩ := parted_kept ht htold hfits hlog hsame
    refine ⟨hsame.tidy (ht.memberRem a id), htold', fun a' => ?_⟩
    rw [or_iff_left fun h => h.elim]
    by_cases ha : a' = a
    · exact ha ▸ hdangles
    · exact (parted_touches ht hlog hsame).dangles_iff ht htold ha
  | said a e =>
    obtain ⟨id', m, -, htext⟩ := hfits
    refine kept_of_same ht htold ⟨fun _ => rfl, rfl, rfl⟩ (fun a' e' he => ?_) fun _ => id
    obtain ⟨rfl, rfl⟩ := Prod.mk.inj (Option.some.inj he)
    rcases htext with ⟨_, rfl⟩ | ⟨_, rfl⟩ <;> trivial
  | gone a e =>
    have hheld := held_of_silent fun a' e' he => (finishes_of_gone hfits he).silent
    have hfree : Same (b.confFree a) (b.does (.gone a e)) := by cases e <;> exact ⟨fun _ => rfl, rfl, rfl⟩
    have ht' := hfree.tidy (ht.confFree a)
    have htold' := hfree.told (htold.confFree ht a) hheld
    refine ⟨ht', htold', fun a' => ?_⟩
    by_cases ha : a' = a
    · subst ha
      have hempty := (hfree.members a').trans (members_confFree_self b a')
      rw [dangles_of_empty htold htold' (hheld a') hempty]
      simp [Deed.Spoils]
    · have htouch : Touches a b (b.does (.gone a e)) :=
        ⟨fun a' ha => (hfree.members a').trans (members_confFree_of_ne ha),
          fun m _ hm => by rw [hfree.login, login_confFree, if_neg hm], hfree.nextLogin.ge,
          fun a' _ => hheld a'⟩
      rw [htouch.dangles_iff ht htold ha]
      simp [Deed.Spoils, Ne.symm ha]
  | stopped =>
    obtain ⟨ht', htold'⟩ := freeAll_kept ht htold b.confs.length
    refine ⟨ht', htold', fun a => ?_⟩
    have hheld : held ((b.does .stopped).history a) = held (b.history a) :=
      congrArg held (history_of_none rfl a)
    refine dangles_of_empty htold htold' hheld ?_
    -- no conference is left, so that all tables are empty
    have hnone : (b.freeAll b.confs.length).conf a = none := by
      refine Option.not_isSome_iff_eq_none.mp fun hsome => ?_
      have hmem := ((hb.freeAll b.confs.length).listed a).mpr hsome
      rw [confs_freeAll le_rfl] at hmem
      cases hmem
    exact (congrArg (fun c => ((c : Option MwConference).map (·.members)).getD []) hnone)

/-! ## Runs -/

/-- What is told of a member is told of one that the client holds, and new ones are new to it. -/
def AboutHeld : ConfEvent → List ConfEvent → Prop
  | .opened ms, before => ∀ m ∈ ms, m ∉ held before
  | .peerJoined m, before => m ∉ held before
  | .peerParted m, before | .text m _, before | .typing m _, before => m ∈ held before
  | _, _ => True

theorem ConfEvent.Finishes.aboutHeld (h : e.Finishes) (before : List ConfEvent) :
    AboutHeld e before := by
  cases e with
  | closed | destroyed => trivial
  | created | invited | opened | peerJoined | peerParted | text | typing => cases h

theorem aboutHeld_event (ht : Tidy b) (htold : Told b) (hfits : d.Fits b)
    (he : d.event b = some (a, e)) : AboutHeld e (b.history a) := by
  have hmember : ∀ {id m}, b.memberFind a id = some m → m ∈ held (b.history a) :=
    fun hfind => ((htold.logins a _).mp (mem_logins_of_memberFind ht hfind)).1
  cases d with
  | new title | invited name title owner invite =>
    obtain ⟨-, rfl⟩ := Prod.mk.inj (Option.some.inj he)
    trivial
  | welcome a' name title entries =>
    obtain ⟨rfl, rfl⟩ := Prod.mk.inj (Option.some.inj he)
    intro m hm hheld
    exact absurd (htold.below _ m hheld) (Nat.not_lt.mpr (List.mem_range'_1.mp hm).1)
  | joined a' id info =>
    obtain ⟨rfl, rfl⟩ := Prod.mk.inj (Option.some.inj he)
    exact fun hheld => Nat.lt_irrefl _ (htold.below _ _ hheld)
  | parted a' id m =>
    obtain ⟨rfl, rfl⟩ := Prod.mk.inj (Option.some.inj he)
    exact hmember hfits
  | said a' e' =>
    obtain ⟨rfl, rfl⟩ := Prod.mk.inj (Option.some.inj he)
    obtain ⟨id, m, hfind, ⟨_, rfl⟩ | ⟨_, rfl⟩⟩ := hfits <;> exact hmember hfind
  | gone a' e' => exact (finishes_of_gone hfits he).aboutHeld _
  | nothing | junk | opening | stopped => cases he

end

/-- All that holds of conferences, tables, memory and what the client holds, in every run -/
structure Accounted (b : Book) : Prop where
  orderly : Orderly b
  tidy : Tidy b
  told : Told b
  about : ∀ a, Justified AboutHeld (b.history a)

namespace Accounted

theorem empty : Accounted {} where
  orderly := Orderly.empty
  tidy := ⟨fun _ => List.nodup_nil, fun _ => List.nodup_nil, by simp [Book.logins, Book.members],
    by simp [Book.logins, Book.members], by simp⟩
  told := ⟨by simp [Book.logins, Book.members, Book.history, held], by simp [Book.history, held]⟩
  about := fun _ => Justified.nil

theorem does {b : Book} (h : Accounted b) {d : Deed} (hfits : d.Fits b) : Accounted (b.does d) := by
  obtain ⟨ht, htold, -⟩ := kept_does h.tidy h.told h.orderly hfits
  refine ⟨h.orderly.does hfits, ht, htold, fun a => ?_⟩
  rcases history_does_cases b d a with ⟨heq, -⟩ | ⟨e, he, heq⟩
  · rw [heq]
    exact h.about a
  · rw [heq]
    exact (h.about a).cons (aboutHeld_event h.tidy h.told hfits he)

theorem step {s : ConfSide} (h : Accounted s.toBook) (i : ConfInput) :
    Accounted (step i s).2.toBook := by
  rw [step_does i s h.orderly.toListed]
  exact h.does (deed_fits s i)

theorem run {s : ConfSide} (h : Accounted s.toBook) (inputs : List ConfInput) :
    Accounted (run inputs s).toBook := by
  induction inputs generalizing s with
  | nil => exact h
  | cons i inputs ih => exact ih (h.step i)

end Accounted

/-- The client holds a login info that has been freed if and only if somebody has come into
its conference with an id of the table, or twice in one welcome, or the conference has ended
with members in its table. -/
theorem run_dangles_iff (inputs : List ConfInput) (ret : Nat → Int) (a : Nat) :
    Dangles a (run inputs { ret := ret }).toBook ↔
      ∃ before i after, inputs = before ++ i :: after ∧
        (deed (run before { ret := ret }) i).Spoils (run before { ret := ret }).toBook a := by
  refine Latch.foldl_iff_of_not (f := fun s i => (step i s).2)
    (I := fun s => Accounted s.toBook) (L := fun s => Dangles a s.toBook)
    (D := fun s i => (deed s i).Spoils s.toBook a) (fun _ i h => h.step i) ?_ inputs
    (s := { ret := ret }) Accounted.empty ?_
  · intro s i h
    have hfits := deed_fits s i
    rw [step_does i s h.orderly.toListed, (kept_does h.tidy h.told h.orderly hfits).2.2]
  · rintro ⟨m, hm, -⟩
    simp [Book.history, held] at hm

end Meanwhile.Conference
