-- SUMMARY: When the line of a user can be the line of another one too.
import Meanwhile.StList.Entries

/-!
# Ambiguous lines

A user line joins the short name and the alias with a comma, which stays as it is where
it belongs to one of them. The line can then be cut at another comma, as long as there is
something on both sides of it.
-/

namespace Meanwhile.StList

/-! ## Strings that are joined -/

section

variable {α : Type} {sep : α} {n a m b : List α}

/-- There is only one cut when the separator is nowhere else but at the two ends. -/
theorem joined_inj (hn : sep ∉ n.tail) (ha : sep ∉ a.dropLast) (hm : m ≠ []) (hb : b ≠ [])
    (h : m ++ sep :: b = n ++ sep :: a) : m = n ∧ b = a := by
  rcases List.append_eq_append_iff.mp h with ⟨s, hs, hrest⟩ | ⟨s, hs, hrest⟩
  · cases s with
    | nil => exact ⟨by simpa using hs.symm, by simpa using hrest⟩
    | cons c s =>
      -- the first cut lies further left, so a separator of `n` has become the comma of the join
      obtain ⟨rfl, -⟩ := List.cons.inj hrest
      refine absurd ?_ hn
      rw [hs, List.tail_append_of_ne_nil hm]
      exact List.mem_append_right _ List.mem_cons_self
  · cases s with
    | nil => exact ⟨by simpa using hs, by simpa using hrest.symm⟩
    | cons c s =>
      obtain ⟨rfl, rfl⟩ := List.cons.inj hrest
      refine absurd ?_ ha
      change sep ∈ (s ++ sep :: b).dropLast
      rw [List.dropLast_append_of_ne_nil (List.cons_ne_nil _ _), List.dropLast_cons_of_ne_nil hb]
      exact List.mem_append_right _ List.mem_cons_self

/-- Another cut, at a separator of the left string -/
theorem exists_cut_left (hn : sep ∈ n.tail) :
    ∃ m t, m ≠ [] ∧ n = m ++ sep :: t ∧ m ++ sep :: (t ++ sep :: a) = n ++ sep :: a := by
  cases n with
  | nil => cases hn
  | cons c n =>
    obtain ⟨s, t, rfl⟩ := List.append_of_mem hn
    exact ⟨c :: s, t, List.cons_ne_nil _ _, rfl, by simp⟩

/-- Another cut, at a separator of the right string -/
theorem exists_cut_right (ha : sep ∈ a.dropLast) :
    ∃ t b, b ≠ [] ∧ a = t ++ sep :: b ∧ (n ++ sep :: t) ++ sep :: b = n ++ sep :: a := by
  have hne : a ≠ [] := by
    rintro rfl
    cases ha
  obtain ⟨b, c, rfl⟩ := (List.eq_nil_or_concat' a).resolve_left hne
  rw [List.dropLast_concat] at ha
  obtain ⟨s, t, rfl⟩ := List.append_of_mem ha
  exact ⟨s, t ++ [c], by simp, by simp, by simp⟩

end

/-! ## Users -/

/-- A user with a short name and an alias, both with clean characters only -/
structure MwSametimeUser.Labelled (u : MwSametimeUser) (n a : Chars) : Prop where
  name : u.name = some n
  alias_ : u.alias_ = some a
  nameNe : n ≠ []
  aliasNe : a ≠ []
  nameClean : CleanChars n
  aliasClean : CleanChars a

/-- The line of a user is not that of one with the same id and type but another name or
alias. -/
def MwSametimeUser.Unambiguous (u : MwSametimeUser) (n a : Chars) : Prop :=
  ∀ v m b, v.Labelled m b → v.id = u.id → v.type = u.type → userLine v = userLine u →
    m = n ∧ b = a

variable {u v : MwSametimeUser} {n a m b : Chars}

theorem cleanChars_join_iff (n a : Chars) :
    CleanChars (n ++ chComma :: a) ↔ CleanChars n ∧ CleanChars a := by
  unfold CleanChars
  rw [List.forall_mem_append, List.forall_mem_cons]
  constructor
  · rintro ⟨hn, -, ha⟩
    exact ⟨hn, ha⟩
  · rintro ⟨hn, ha⟩
    exact ⟨hn, by decide, ha⟩

theorem MwSametimeUser.Labelled.clean (h : u.Labelled n a) : CleanChars (n ++ chComma :: a) :=
  (cleanChars_join_iff n a).mpr ⟨h.nameClean, h.aliasClean⟩

theorem MwSametimeUser.Labelled.second (h : u.Labelled n a) :
    userSecond u = pack (n ++ chComma :: a) := by
  have hcomma : pack (chComma :: a) = chComma :: pack a := rfl
  unfold userSecond MwSametimeUser.shownName MwSametimeUser.shownAlias
  rw [h.name, h.alias_]
  exact (congrArg (pack n ++ ·) hcomma).symm.trans List.map_append.symm

/-- Two users with the same id and type have the same line if name and alias, joined with
a comma, are the same. -/
theorem userLine_eq_iff (hu : u.Labelled n a) (hv : v.Labelled m b) (hid : v.id = u.id)
    (htype : v.type = u.type) :
    userLine v = userLine u ↔ m ++ chComma :: b = n ++ chComma :: a := by
  have hfirst : userFirst v = userFirst u := by
    unfold userFirst
    rw [hid, htype]
  rw [userLine_eq, userLine_eq, hfirst, hu.second, hv.second]
  constructor
  · intro h
    have hpacked : pack (m ++ chComma :: b) = pack (n ++ chComma :: a) := by simpa using h
    have hunpacked := congrArg unpack hpacked
    rwa [unpack_pack hu.clean, unpack_pack hv.clean] at hunpacked
  · intro h
    rw [h]

/-- Another cut makes another user of the same line. -/
theorem MwSametimeUser.Unambiguous.only (h : u.Unambiguous n a) (hu : u.Labelled n a)
    (hm : m ≠ []) (hb : b ≠ []) (hjoin : m ++ chComma :: b = n ++ chComma :: a) : m = n := by
  obtain ⟨hmclean, hbclean⟩ := (cleanChars_join_iff m b).mp (hjoin ▸ hu.clean)
  have hv : ({ u with name := some m, alias_ := some b } : MwSametimeUser).Labelled m b :=
    ⟨rfl, rfl, hm, hb, hmclean, hbclean⟩
  exact (h _ m b hv rfl rfl ((userLine_eq_iff hu hv rfl rfl).mpr hjoin)).1

/-- The line of a user is unambiguous if the name has no comma behind its first character,
and the alias none before its last one. -/
theorem unambiguous_iff (hu : u.Labelled n a) :
    u.Unambiguous n a ↔ chComma ∉ n.tail ∧ chComma ∉ a.dropLast := by
  constructor
  · intro h
    constructor
    · intro hcomma
      obtain ⟨m, t, hm, rfl, hjoin⟩ := exists_cut_left (a := a) hcomma
      have hsame := h.only hu hm (by simp) hjoin
      simpa using congrArg List.length hsame
    · intro hcomma
      obtain ⟨t, b, hb, rfl, hjoin⟩ := exists_cut_right (n := n) hcomma
      have hsame := h.only hu (by simp) hb hjoin
      simpa using congrArg List.length hsame
  · rintro ⟨hn, ha⟩ v m b hv hid htype hline
    exact joined_inj hn ha hv.nameNe hv.aliasNe ((userLine_eq_iff hu hv hid htype).mp hline)

/-- The user `"u"` with a short name and an alias -/
def labelled (n a : Chars) : MwSametimeUser :=
  { id := some [0x75], name := some n, alias_ := some a }

theorem labelled_labelled (hn : n ≠ []) (ha : a ≠ []) (hclean : CleanChars (n ++ chComma :: a)) :
    (labelled n a).Labelled n a :=
  have h := (cleanChars_join_iff n a).mp hclean
  ⟨rfl, rfl, hn, ha, h.1, h.2⟩

/-- The names `"a"` and `"b"` -/
theorem unambiguous_iff_plain : (labelled [0x61] [0x62]).Unambiguous [0x61] [0x62] :=
  (unambiguous_iff (labelled_labelled (by decide) (by decide) (by decide))).mpr (by decide)

/-- The name `"a,b"` with the alias `"c"`, and the name `"a"` with the alias `"b,c"` -/
theorem not_unambiguous_comma :
    ¬ ∀ (u v : MwSametimeUser) (n a m b : Chars), u.Labelled n a → v.Labelled m b →
      v.id = u.id → v.type = u.type → userLine v = userLine u → m = n ∧ b = a := by
  intro hall
  have hu : (labelled [0x61, 0x2c, 0x62] [0x63]).Labelled [0x61, 0x2c, 0x62] [0x63] :=
    labelled_labelled (by decide) (by decide) (by decide)
  have hv : (labelled [0x61] [0x62, 0x2c, 0x63]).Labelled [0x61] [0x62, 0x2c, 0x63] :=
    labelled_labelled (by decide) (by decide) (by decide)
  have hsame := hall _ _ _ _ _ _ hu hv rfl rfl (by decide)
  exact absurd hsame.1 (by decide)

end Meanwhile.StList
