-- SUMMARY: Lists that are stored and loaded again, and texts that are loaded and stored.
import Meanwhile.StList.Entries

/-!
# Storing and loading

Loading a stored list loads its entries one by one, each from its own line. Whether the
list is the same again is therefore a matter of its entries.
-/

namespace Meanwhile.StList

/-! ## Entries one by one -/

theorem mapM_eq_map_iff {α β : Type} (f : α → Option β) (g : α → β) (xs : List α) :
    xs.mapM f = some (xs.map g) ↔ ∀ x ∈ xs, f x = some (g x) := by
  induction xs with
  | nil => simp
  | cons x xs ih =>
    rw [List.mapM_cons, List.forall_mem_cons, ← ih]
    cases f x <;> cases xs.mapM f <;> simp

def reloadUser (u : MwSametimeUser) : Option MwSametimeUser := getUser (userLine u)

/-- A group loaded from its own lines -/
def reloadGroup (g : MwSametimeGroup) : Option MwSametimeGroup := do
  let g' ← getGroup (groupLine g)
  let users ← g.users.mapM reloadUser
  return { g' with users := users }

theorem versionLine_head (l : MwSametimeList) : (versionLine l).head? = some chV := rfl

theorem groupLine_head (g : MwSametimeGroup) : (groupLine g).head? = some chG := by
  rw [groupLine_eq]
  rfl

theorem userLine_head (u : MwSametimeUser) : (userLine u).head? = some chU := by
  rw [userLine_eq]
  rfl

theorem getLine_groupLine (l : MwSametimeList) (g : MwSametimeGroup) :
    getLine l (groupLine g) =
      (getGroup (groupLine g)).map fun g' => { l with groups := g' :: l.groups } := by
  unfold getLine
  rw [groupLine_head, if_neg (by decide), if_pos rfl]
  cases getGroup (groupLine g) <;> rfl

theorem getLine_userLine (l : MwSametimeList) (g : MwSametimeGroup) (gs : List MwSametimeGroup)
    (u : MwSametimeUser) :
    getLine { l with groups := g :: gs } (userLine u) =
      (reloadUser u).map fun u' =>
        { l with groups := { g with users := g.users ++ [u'] } :: gs } := by
  unfold getLine reloadUser
  rw [userLine_head, if_neg (by decide), if_neg (by decide), if_pos rfl]
  cases getUser (userLine u) <;> rfl

theorem foldlM_userLines (l : MwSametimeList) (g : MwSametimeGroup) (gs : List MwSametimeGroup)
    (us : List MwSametimeUser) :
    (us.map userLine).foldlM getLine { l with groups := g :: gs } =
      (us.mapM reloadUser).map fun us' =>
        { l with groups := { g with users := g.users ++ us' } :: gs } := by
  induction us generalizing g with
  | nil => simp
  | cons u us ih =>
    rw [List.map_cons, List.foldlM_cons, getLine_userLine, List.mapM_cons]
    cases reloadUser u with
    | none => rfl
    | some u' =>
      refine (ih { g with users := g.users ++ [u'] }).trans ?_
      cases us.mapM reloadUser <;> simp

theorem getGroup_users {line : Chars} {g : MwSametimeGroup} (h : getGroup line = some g) :
    g.users = [] := by
  unfold getGroup at h
  obtain ⟨name, _, h⟩ := Option.bind_eq_some_iff.mp h
  obtain ⟨alias_, _, h⟩ := Option.bind_eq_some_iff.mp h
  obtain rfl := Option.some.inj h
  rfl

theorem foldlM_groupLines (l : MwSametimeList) (g : MwSametimeGroup) :
    (groupLines g).foldlM getLine l =
      (reloadGroup g).map fun g' => { l with groups := g' :: l.groups } := by
  unfold groupLines reloadGroup
  rw [List.foldlM_cons, getLine_groupLine]
  cases h : getGroup (groupLine g) with
  | none => rfl
  | some g' =>
    refine (foldlM_userLines l g' l.groups g.users).trans ?_
    rw [getGroup_users h]
    cases g.users.mapM reloadUser <;> rfl

theorem foldlM_groups (l : MwSametimeList) (gs : List MwSametimeGroup) :
    (gs.flatMap groupLines).foldlM getLine l =
      (gs.mapM reloadGroup).map fun gs' => { l with groups := gs'.reverse ++ l.groups } := by
  induction gs generalizing l with
  | nil => simp
  | cons g gs ih =>
    rw [List.flatMap_cons, List.foldlM_append, foldlM_groupLines, List.mapM_cons]
    cases reloadGroup g with
    | none => rfl
    | some g' =>
      refine (ih { l with groups := g' :: l.groups }).trans ?_
      cases gs.mapM reloadGroup <;> simp

/-! ## Whole lists -/

def MwSametimeList.CleanStrings (l : MwSametimeList) : Prop :=
  ∀ g ∈ l.groups, g.CleanStrings ∧ ∀ u ∈ g.users, u.CleanStrings

theorem isLine_of_onlyBlanks {c : UInt8} {cs : Chars} (hc : isSpace c = false)
    (h : OnlyBlanks cs) : IsLine (c :: cs) := by
  refine ⟨⟨c, cs, rfl, by simp [gAsciiIsspace, hc]⟩, fun d hd => ?_⟩
  have hblank : isSpace d = true → d = chSpace := by
    cases List.mem_cons.mp hd with
    | inl heq => exact fun hspace => absurd (heq ▸ hspace) (by simp [hc])
    | inr hin => exact h d hin
  constructor <;> rintro rfl <;> exact absurd (hblank (by decide)) (by decide)

theorem onlyBlanks_two {first second rest : Chars} (hfirst : Solid first) (hsecond : Solid second)
    (hrest : OnlyBlanks rest) :
    OnlyBlanks (chSpace :: (first ++ chSpace :: (second ++ rest))) := by
  intro d hd hspace
  simp only [List.mem_cons, List.mem_append] at hd
  obtain hd | hd | hd | hd | hd := hd
  · exact hd
  · exact absurd hspace (by simp [hfirst d hd])
  · exact hd
  · exact absurd hspace (by simp [hsecond d hd])
  · exact hrest d hd hspace

theorem groupLine_isLine {g : MwSametimeGroup} (h : g.CleanStrings) : IsLine (groupLine g) := by
  rw [groupLine_eq]
  refine isLine_of_onlyBlanks (by decide)
    (onlyBlanks_two (groupFirst_solid h) (pack_solid h.shownAlias) ?_)
  unfold openChar
  cases g.open_ <;> decide

theorem userLine_isLine {u : MwSametimeUser} (h : u.CleanStrings) : IsLine (userLine u) := by
  rw [userLine_eq]
  exact isLine_of_onlyBlanks (by decide)
    (onlyBlanks_two (userFirst_solid h) (userSecond_solid h) fun d hd => nomatch hd)

theorem printU_solid (n : UInt32) : Solid (printU n) := by
  obtain ⟨ds, hlt, _, _, hprint⟩ := printU_eq n
  rw [hprint]
  intro c hc
  obtain ⟨d, hd, rfl⟩ := List.mem_map.mp hc
  exact isSpace_of_isDigit (digitOf_isDigit d (hlt d (List.mem_reverse.mp hd)))

theorem versionLine_isLine (l : MwSametimeList) : IsLine (versionLine l) := by
  have hdot : Solid [chDot] := by decide
  have hliteral : Solid versionLiteral := by decide
  have hsolid : Solid (versionLine l) :=
    ((((hliteral.append (printU_solid _)).append hdot).append (printU_solid _)).append hdot).append
      (printU_solid _)
  exact isLine_of_onlyBlanks (by decide)
    fun d hd hspace => absurd hspace (by simp [hsolid d (List.mem_cons_of_mem _ hd)])

theorem listLines_isLine {l : MwSametimeList} (h : l.CleanStrings) :
    ∀ line ∈ listLines l, IsLine line := by
  intro line hline
  unfold listLines groupLines at hline
  simp only [List.mem_cons, List.mem_flatMap, List.mem_map] at hline
  obtain rfl | ⟨g, hg, rfl | ⟨u, hu, rfl⟩⟩ := hline
  · exact versionLine_isLine l
  · exact groupLine_isLine (h g hg).1
  · exact userLine_isLine ((h g hg).2 u hu)

/-- Loading a stored list loads each of its groups from its own lines. -/
theorem load_store {l : MwSametimeList} (h : l.CleanStrings) :
    mwSametimeListLoad (mwSametimeListStore l) =
      (l.groups.mapM reloadGroup).map fun gs => { l with groups := gs } := by
  have hversion : getLine {} (versionLine l) = some { l with groups := [] } := by
    unfold getLine
    rw [if_pos (versionLine_head l), getVersion, scanVersion_versionLine]
  unfold mwSametimeListLoad listGet
  rw [linesOf_store (listLines_isLine h), listLines, List.foldlM_cons, hversion]
  refine congrArg _ (foldlM_groups _ _) |>.trans ?_
  cases l.groups.mapM reloadGroup <;> simp

/-! ## Stored and loaded -/

theorem beforeColons_eq_none_iff (s : Chars) :
    beforeColons s = none ↔ ¬ [chColon, chColon] <:+: s := by
  induction s with
  | nil => simp [beforeColons]
  | cons c cs ih =>
    rw [beforeColons, List.infix_cons_iff]
    split
    case isTrue h =>
      obtain ⟨rfl, hhead⟩ := h
      obtain ⟨cs', rfl⟩ := List.head?_eq_some_iff.mp hhead
      simp
    case isFalse h =>
      have hnot : ¬ [chColon, chColon] <+: c :: cs := by
        rintro ⟨rest, hrest⟩
        obtain ⟨rfl, rfl⟩ := List.cons.inj hrest
        exact h ⟨rfl, rfl⟩
      rw [Option.map_eq_none_iff, ih]
      simp [hnot]

/-- A user that a list can have when it is stored -/
structure MwSametimeUser.Storable (u : MwSametimeUser) : Prop extends u.CleanStrings where
  id_some : ∃ id, u.id = some id ∧ id ≠ [] ∧ ¬ [chColon, chColon] <:+: id
  comma : u.name.isSome → ∀ s, u.alias_ = some s → chComma ∉ s

/-- A group that a list can have when it is stored -/
structure MwSametimeGroup.Storable (g : MwSametimeGroup) : Prop extends g.CleanStrings where
  name_some : ∃ name, g.name = some name ∧ name ≠ []
  alias_ne : g.alias_ ≠ some []
  users : ∀ u ∈ g.users, u.Storable

def MwSametimeList.Storable (l : MwSametimeList) : Prop := ∀ g ∈ l.groups, g.Storable

/-- No community, and a name: the alias, if there is no other, or nothing -/
def MwSametimeUser.named (u : MwSametimeUser) : MwSametimeUser :=
  { u with
    community := none
    name := some (u.name.getD (u.alias_.getD []))
    alias_ := if u.name.isSome then u.alias_ else none }

/-- An alias that is empty is none. -/
def MwSametimeUser.reloaded (u : MwSametimeUser) : MwSametimeUser :=
  { u.named with alias_ := if u.named.alias_ = some [] then none else u.named.alias_ }

/-- The name stands in for an alias. -/
def MwSametimeGroup.aliased (g : MwSametimeGroup) : MwSametimeGroup :=
  { g with alias_ := if g.alias_.isSome then g.alias_ else g.name }

theorem MwSametimeUser.Storable.separable {u : MwSametimeUser} (h : u.Storable) : u.Separable := by
  obtain ⟨id, hid, _, hcolons⟩ := h.id_some
  refine ⟨h.toCleanStrings, ?_, ?_⟩
  · rw [hid]
    exact (beforeColons_eq_none_iff id).mpr hcolons
  · unfold MwSametimeUser.shownAlias
    by_cases hname : u.name.isSome
    · rw [if_pos hname]
      cases halias : u.alias_ with
      | none => simp
      | some s => exact h.comma hname s halias
    · rw [if_neg hname]
      simp

theorem MwSametimeUser.Storable.norm_eq {u : MwSametimeUser} (h : u.Storable) :
    u.norm = u.reloaded := by
  obtain ⟨id, hid, _, _⟩ := h.id_some
  unfold MwSametimeUser.norm MwSametimeUser.reloaded MwSametimeUser.named
    MwSametimeUser.shownName MwSametimeUser.shownAlias
  rw [hid]
  cases u.name <;> cases u.alias_ <;> simp [printS]

theorem MwSametimeGroup.Storable.norm_eq {g : MwSametimeGroup} (h : g.Storable) :
    g.norm = { g.aliased with users := [] } := by
  obtain ⟨name, hname, _⟩ := h.name_some
  unfold MwSametimeGroup.norm MwSametimeGroup.aliased MwSametimeGroup.shownAlias
  rw [hname]
  cases g.alias_ <;> simp [printS]

theorem MwSametimeGroup.Storable.shownAlias_ne {g : MwSametimeGroup} (h : g.Storable) :
    g.shownAlias ≠ [] := by
  obtain ⟨name, hname, hne⟩ := h.name_some
  have halias := h.alias_ne
  unfold MwSametimeGroup.shownAlias
  cases hg : g.alias_ with
  | none =>
    rw [hname]
    exact hne
  | some s => exact fun hs => halias (by rw [hg]; exact congrArg some hs)

theorem reloadGroup_storable {g : MwSametimeGroup} (h : g.Storable)
    (hlen : ∀ line ∈ groupLines g, line.length < 2 ^ 31) :
    reloadGroup g = some { g.aliased with users := g.users.map MwSametimeUser.reloaded } := by
  have hline := getGroup_groupLine h.toCleanStrings h.shownAlias_ne (hlen _ List.mem_cons_self)
  have husers : g.users.mapM reloadUser = some (g.users.map MwSametimeUser.reloaded) := by
    rw [mapM_eq_map_iff]
    intro u hu
    have hu' := h.users u hu
    have hlen' := hlen (userLine u) (List.mem_cons_of_mem _ (List.mem_map_of_mem hu))
    rw [reloadUser, getUser_userLine hu'.separable hlen', hu'.norm_eq]
  unfold reloadGroup
  rw [hline, husers, h.norm_eq]
  rfl

/-- A list that can be stored is loaded again as it was, but for the alias of a group
that had none, for users whose name was missing or alias was empty, and for
communities. -/
theorem load_store_reloaded (l : MwSametimeList) (h : l.Storable)
    (hlen : ∀ g ∈ l.groups, ∀ line ∈ groupLines g, line.length < 2 ^ 31) :
    mwSametimeListLoad (mwSametimeListStore l) =
      some { l with groups := l.groups.map fun g =>
        { g.aliased with users := g.users.map MwSametimeUser.reloaded } } := by
  have hclean : l.CleanStrings := fun g hg =>
    ⟨(h g hg).toCleanStrings, fun u hu => ((h g hg).users u hu).toCleanStrings⟩
  have hgroups := (mapM_eq_map_iff reloadGroup (fun g =>
    { g.aliased with users := g.users.map MwSametimeUser.reloaded }) l.groups).mpr
      fun g hg => reloadGroup_storable (h g hg) (hlen g hg)
  rw [load_store hclean, hgroups]
  rfl

/-- The user `b` with id `a` in the group `g` -/
def oneUser (alias_ : Chars) : MwSametimeList where
  groups := [{ name := some [0x67],
               users := [{ id := some [0x61], name := some [0x62], alias_ := some alias_ }] }]

theorem oneUser_storable {alias_ : Chars} (hclean : CleanChars alias_) (hcomma : chComma ∉ alias_) :
    (oneUser alias_).Storable := by
  have hclean' : ∀ c : UInt8, c ≠ chSemicolon → isSpace c = false → Clean (some [c]) := by
    intro c hsemi hspace s hs
    obtain rfl := Option.some.inj hs
    intro d hd
    obtain rfl := List.mem_singleton.mp hd
    exact ⟨hsemi, fun h => absurd h (by simp [hspace])⟩
  intro g hg
  obtain rfl := List.mem_singleton.mp hg
  refine ⟨⟨hclean' _ (by decide) (by decide), fun s hs => nomatch hs⟩, ⟨_, rfl, by simp⟩,
    by simp, fun u hu => ?_⟩
  obtain rfl := List.mem_singleton.mp hu
  refine ⟨⟨hclean' _ (by decide) (by decide), hclean' _ (by decide) (by decide), ?_⟩,
    ⟨_, rfl, by simp, ?_⟩, ?_⟩
  · intro s hs
    obtain rfl := Option.some.inj hs
    exact hclean
  · rw [← beforeColons_eq_none_iff]
    decide
  · intro _ s hs
    obtain rfl := Option.some.inj hs
    exact hcomma

theorem load_store_reloaded_oneUser :
    (oneUser [0x63]).Storable ∧
    mwSametimeListLoad (mwSametimeListStore (oneUser [0x63])) =
      some { oneUser [0x63] with groups := (oneUser [0x63]).groups.map fun g =>
        { g.aliased with users := g.users.map MwSametimeUser.reloaded } } := by
  have hstorable : (oneUser [0x63]).Storable := oneUser_storable (by decide)
    (by decide)
  exact ⟨hstorable, load_store_reloaded (oneUser [0x63]) hstorable (by decide +kernel)⟩

/-- An alias that is empty does not come back, though names and aliases that are missing
are all that the line does not tell. -/
theorem load_store_emptyAlias :
    (oneUser []).Storable ∧
    mwSametimeListLoad (mwSametimeListStore (oneUser [])) ≠
      some { oneUser [] with groups := (oneUser []).groups.map fun g =>
        { g.aliased with users := g.users.map MwSametimeUser.named } } :=
  ⟨oneUser_storable CleanChars.nil (by simp), by decide +kernel⟩

end Meanwhile.StList
