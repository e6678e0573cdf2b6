-- SUMMARY: Texts that are loaded, stored and loaded again with the same list.
import Mathlib.Data.List.TakeWhile
import Meanwhile.StList.Roundtrip

/-!
# Texts that loading and storing leave alone

The entries of a loaded list come from the lines of the text, one from each group or
user line. A user is stored so that it is loaded again as it was. A group is not, if its
line has no alias: the alias is then empty, and the mark for open groups is loaded in
its place.

The other texts that are not stable have lines whose length does not fit an `int`.
-/

namespace Meanwhile.StList

/-! ## Fields of a text -/

def firstField (line : Chars) : Chars := (scanFields line).1.getD []
def secondField (line : Chars) : Chars := (scanFields line).2.1.getD []

/-- How much of the first field of a user line is its id -/
def idLength (first : Chars) : Nat :=
  match beforeColons first with
  | none => first.length
  | some before => before.length - 1

/-- How much of the second field of a user line is its name and alias -/
def nameLength (second : Chars) : Nat :=
  if chComma ∈ second then second.length - 1 else second.length

/-- What a text must have to be stored as it was loaded. Lines that are not very long have
all of it but the alias. -/
structure Resavable (t : Chars) : Prop where
  fits : ∀ line ∈ linesOf t, IsGroup line ∨ IsUser line → Fits line
  alias_ : ∀ line ∈ linesOf t, IsGroup line → (scanFields line).2.1.isSome
  size : ∀ line ∈ linesOf t, IsUser line → bufferSize line ≠ 0
  group : ∀ line ∈ linesOf t, IsGroup line →
    5 + (firstField line).length + (secondField line).length < 2 ^ 31
  user : ∀ line ∈ linesOf t, IsUser line →
    7 + idLength (firstField line) + nameLength (secondField line) < 2 ^ 31

/-- The text is loaded, and the list stored from it is loaded as the same list. -/
def StableText (t : Chars) : Prop :=
  ∃ l, mwSametimeListLoad t = some l ∧ mwSametimeListLoad (mwSametimeListStore l) = some l

theorem scanS_solid {s field rest : Chars} (h : scanS s = some (field, rest)) :
    Solid field ∧ field ≠ [] := by
  dsimp only [scanS] at h
  split at h
  case isTrue => exact nomatch h
  case isFalse hne =>
    obtain ⟨rfl, rfl⟩ := Prod.mk.inj (Option.some.inj h)
    refine ⟨fun c hc => ?_, hne⟩
    simpa using List.mem_takeWhile_imp hc

theorem scanFields_solid (line : Chars) :
    (∀ s, (scanFields line).1 = some s → Solid s ∧ s ≠ []) ∧
      ∀ s, (scanFields line).2.1 = some s → Solid s ∧ s ≠ [] := by
  unfold scanFields
  cases hfirst : scanS (line.drop 1) with
  | none => exact ⟨fun s hs => (nomatch hs), fun s hs => (nomatch hs)⟩
  | some r =>
    cases hsecond : scanS r.2 with
    | none =>
      dsimp only
      rw [hsecond]
      refine ⟨fun s hs => ?_, fun s hs => nomatch hs⟩
      obtain rfl := Option.some.inj hs
      exact scanS_solid hfirst
    | some r' =>
      dsimp only
      rw [hsecond]
      refine ⟨fun s hs => ?_, fun s hs => ?_⟩
      · obtain rfl := Option.some.inj hs
        exact scanS_solid hfirst
      · obtain rfl := Option.some.inj hs
        exact scanS_solid hsecond

theorem getD_solid {field : Option Chars} (h : ∀ s, field = some s → Solid s ∧ s ≠ []) :
    Solid (field.getD []) := by
  cases field with
  | none => exact fun c hc => nomatch hc
  | some s => exact (h s rfl).1

theorem firstField_solid (line : Chars) : Solid (firstField line) :=
  getD_solid (scanFields_solid line).1

theorem secondField_solid (line : Chars) : Solid (secondField line) :=
  getD_solid (scanFields_solid line).2

/-- The block for a field is `NULL`, or holds the field or nothing. -/
theorem fieldBuffer_eq {line : Chars} {field buffer : Option Chars}
    (h : fieldBuffer line field = some buffer) :
    buffer = if bufferSize line = 0 then none else some (field.getD []) := by
  unfold fieldBuffer at h
  split at h
  case isTrue => exact nomatch h
  case isFalse =>
    cases field with
    | none => exact (Option.some.inj h).symm
    | some s =>
      dsimp only at h
      split at h
      case isTrue hlt =>
        rw [if_neg (by omega)]
        exact (Option.some.inj h).symm
      case isFalse => exact nomatch h

/-! ## Colons and commas in unpacked fields -/

theorem beforeColons_unpack (s : Chars) :
    beforeColons (unpack s) = (beforeColons s).map unpack := by
  have hcolon : ∀ c : UInt8, (if c = chSemicolon then chSpace else c) = chColon ↔ c = chColon :=
    fun c => unpacked_eq_iff (by decide) (by decide)
  induction s with
  | nil => rfl
  | cons c cs ih =>
    have hhead : (unpack cs).head? = some chColon ↔ cs.head? = some chColon := by
      cases cs with
      | nil => rfl
      | cons d ds => simp [unpack, strReplace, hcolon]
    have hcons : unpack (c :: cs) = (if c = chSemicolon then chSpace else c) :: unpack cs := rfl
    rw [hcons, beforeColons, beforeColons, ih]
    by_cases h : c = chColon ∧ cs.head? = some chColon
    · rw [if_pos h, if_pos ⟨(hcolon c).mpr h.1, hhead.mpr h.2⟩]
      rfl
    · rw [if_neg h, if_neg fun h' => h ⟨(hcolon c).mp h'.1, hhead.mp h'.2⟩]
      cases beforeColons cs <;> rfl

theorem comma_mem_unpack (s : Chars) : chComma ∈ unpack s ↔ chComma ∈ s := by
  have hcomma : ∀ c : UInt8, (if c = chSemicolon then chSpace else c) = chComma ↔ c = chComma :=
    fun c => unpacked_eq_iff (by decide) (by decide)
  simp [unpack, strReplace, hcomma]

theorem CleanChars.of_subset {s s' : Chars} (h : CleanChars s) (hsub : s' ⊆ s) : CleanChars s' :=
  fun c hc => h c (hsub hc)

/-! ## Loaded users -/

theorem userLine_length (u : MwSametimeUser) :
    (userLine u).length =
      7 + (printS u.id).length + (u.shownName.length + u.shownAlias.length) := by
  rw [userLine_eq]
  simp [userFirst, userSecond]
  omega

/-- The id of a loaded user -/
theorem splitUserType_spec {s : Chars} {id : Option Chars} {type : UInt8}
    (h : splitUserType (some (unpack s)) = some (id, type)) (hsolid : Solid s) :
    ∃ t, id = some t ∧ CleanChars t ∧ beforeColons t = none ∧ t.length = idLength s := by
  have hclean := unpack_clean hsolid
  unfold splitUserType at h
  rw [Option.bind_some, beforeColons_unpack] at h
  unfold idLength
  cases hs : beforeColons s with
  | none =>
    rw [hs] at h
    obtain ⟨rfl, rfl⟩ := Prod.mk.inj (Option.some.inj h)
    exact ⟨unpack s, rfl, hclean, by rw [beforeColons_unpack, hs]; rfl, unpack_length s⟩
  | some before =>
    rw [hs, Option.map_some] at h
    have hbefore : beforeColons (unpack s) = some (unpack before) := by
      rw [beforeColons_unpack, hs]
      rfl
    cases hlast : (unpack before).getLast? with
    | none =>
      dsimp only at h
      rw [hlast] at h
      exact nomatch h
    | some type' =>
      dsimp only at h
      rw [hlast] at h
      obtain ⟨rfl, rfl⟩ := Prod.mk.inj (Option.some.inj h)
      refine ⟨_, rfl, hclean.of_subset fun c hc => ?_, beforeColons_before hbefore, by simp⟩
      exact (beforeColons_isPrefix hbefore).subset (List.dropLast_subset _ hc)

/-- The name and alias of a loaded user -/
theorem splitAlias_spec {s : Chars} (hsolid : Solid s) :
    ∃ name after,
      splitAlias (some (unpack s)) = (some name, if after = [] then none else some after) ∧
      CleanChars name ∧ CleanChars after ∧ chComma ∉ after ∧
      name.length + after.length = nameLength s := by
  have hclean := unpack_clean hsolid
  have hcomma := comma_mem_unpack s
  unfold splitAlias nameLength
  rw [Option.bind_some]
  cases hs : splitComma (unpack s) with
  | none =>
    have hnot := (splitComma_eq_none_iff _).mp hs
    exact ⟨unpack s, [], rfl, hclean, CleanChars.nil, by simp, by simp [mt hcomma.mpr hnot]⟩
  | some r =>
    obtain ⟨heq, hafter⟩ := splitComma_eq hs
    have hmem : chComma ∈ s := hcomma.mp (by rw [heq]; simp)
    have hlen := congrArg List.length heq
    rw [unpack_length, List.length_append, List.length_cons] at hlen
    refine ⟨r.1, r.2, rfl, hclean.of_subset ?_, hclean.of_subset ?_, hafter, ?_⟩
    · rw [heq]
      exact List.subset_append_left _ _
    · rw [heq]
      exact fun c hc => List.mem_append_right _ (List.mem_cons_of_mem _ hc)
    · rw [if_pos hmem]
      omega

/-- A user with an id and name, and an alias only if it is not empty -/
def loadedUser (type : MwSametimeUserType) (id name after : Chars) : MwSametimeUser where
  type := type
  id := some id
  name := some name
  alias_ := if after = [] then none else some after

section

variable {type : MwSametimeUserType} {id name after : Chars}

theorem loadedUser_shownAlias : (loadedUser type id name after).shownAlias = after := by
  unfold MwSametimeUser.shownAlias loadedUser
  by_cases h : after = [] <;> simp [h]

theorem loadedUser_norm : (loadedUser type id name after).norm = loadedUser type id name after := by
  unfold MwSametimeUser.norm
  rw [loadedUser_shownAlias]
  rfl

theorem loadedUser_separable (hid : CleanChars id) (hcolons : beforeColons id = none)
    (hname : CleanChars name) (hafter : CleanChars after) (hcomma : chComma ∉ after) :
    (loadedUser type id name after).Separable := by
  refine ⟨⟨fun s hs => Option.some.inj hs ▸ hid, fun s hs => Option.some.inj hs ▸ hname, ?_⟩,
    hcolons, by rwa [loadedUser_shownAlias]⟩
  intro s hs
  dsimp only [loadedUser] at hs
  split at hs
  · exact nomatch hs
  · exact Option.some.inj hs ▸ hafter

end

theorem reloadUser_eq_self_of_norm {u : MwSametimeUser} (h : u.Separable) (hnorm : u.norm = u) :
    reloadUser u = some u ↔ (userLine u).length < 2 ^ 31 := by
  constructor
  · intro hload
    have hfits := (getUser_isSome_iff _).mp (Option.isSome_of_eq_some hload)
    exact (fits_userLine_iff h.toCleanStrings).mp hfits.1
  · intro hlen
    rw [reloadUser, getUser_userLine h hlen, hnorm]

/-- The block for a field as the loader goes on with it -/
def block (line field : Chars) : Option Chars := if bufferSize line = 0 then none else some field

theorem getUser_spec {line : Chars} {u : MwSametimeUser} (h : getUser line = some u) :
    ∃ id type, splitUserType (unpacked (block line (firstField line))) = some (id, type) ∧
      u = { type := userCharToType type, id := id,
            name := (splitAlias (unpacked (block line (secondField line)))).1,
            alias_ := (splitAlias (unpacked (block line (secondField line)))).2 } := by
  unfold getUser at h
  cases hid : fieldBuffer line (scanFields line).1 with
  | none => simp [hid] at h
  | some idBuffer =>
    cases hname : fieldBuffer line (scanFields line).2.1 with
    | none => simp [hid, hname] at h
    | some nameBuffer =>
      cases htype : splitUserType (unpacked idBuffer) with
      | none => simp [hid, hname, htype] at h
      | some r =>
        simp only [hid, hname, htype, Option.bind_eq_bind, Option.bind_some] at h
        obtain rfl := Option.some.inj h
        obtain rfl := fieldBuffer_eq hid
        obtain rfl := fieldBuffer_eq hname
        exact ⟨r.1, r.2, htype, rfl⟩

/-- Without blocks there is neither an id nor a name. -/
theorem getUser_null {line : Chars} {u : MwSametimeUser} (h : getUser line = some u)
    (hsize : bufferSize line = 0) : u = {} := by
  obtain ⟨id, type, htype, rfl⟩ := getUser_spec h
  unfold block at htype ⊢
  rw [if_pos hsize] at htype ⊢
  obtain ⟨rfl, rfl⟩ := Prod.mk.inj (Option.some.inj htype)
  rfl

theorem getUser_loaded {line : Chars} {u : MwSametimeUser} (h : getUser line = some u)
    (hsize : bufferSize line ≠ 0) :
    u.Separable ∧ u.norm = u ∧
      (userLine u).length = 7 + idLength (firstField line) + nameLength (secondField line) := by
  obtain ⟨id, type, htype, rfl⟩ := getUser_spec h
  unfold block at htype ⊢
  rw [if_neg hsize] at htype ⊢
  obtain ⟨id, rfl, hid, hcolons, hidlen⟩ := splitUserType_spec htype (firstField_solid line)
  obtain ⟨name, after, hsplit, hname, hafter, hcomma, hnamelen⟩ :=
    splitAlias_spec (secondField_solid line)
  have halias : splitAlias (unpacked (some (secondField line))) =
      (some name, if after = [] then none else some after) := hsplit
  rw [halias, ← hidlen, ← hnamelen]
  refine ⟨loadedUser_separable hid hcolons hname hafter hcomma, loadedUser_norm, ?_⟩
  refine (userLine_length (loadedUser (userCharToType type) id name after)).trans ?_
  rw [loadedUser_shownAlias]
  rfl

theorem getUser_clean {line : Chars} {u : MwSametimeUser} (h : getUser line = some u) :
    u.CleanStrings := by
  by_cases hsize : bufferSize line = 0
  · obtain rfl := getUser_null h hsize
    exact ⟨fun s hs => (nomatch hs), fun s hs => (nomatch hs), fun s hs => (nomatch hs)⟩
  · exact (getUser_loaded h hsize).1.toCleanStrings

/-- A loaded user is stored so that it is loaded as the same user. -/
theorem reloadUser_eq_self_iff {line : Chars} {u : MwSametimeUser} (h : getUser line = some u) :
    reloadUser u = some u ↔
      bufferSize line ≠ 0 ∧
        7 + idLength (firstField line) + nameLength (secondField line) < 2 ^ 31 := by
  by_cases hsize : bufferSize line = 0
  · obtain rfl := getUser_null h hsize
    exact iff_of_false (by decide +kernel) fun h => h.1 hsize
  · obtain ⟨hseparable, hnorm, hlen⟩ := getUser_loaded h hsize
    rw [reloadUser_eq_self_of_norm hseparable hnorm, hlen]
    exact ⟨fun hlt => ⟨hsize, hlt⟩, fun hlt => hlt.2⟩

/-! ## Loaded groups -/

theorem groupLine_length (g : MwSametimeGroup) :
    (groupLine g).length = 6 + (printS g.name).length + g.shownAlias.length := by
  rw [groupLine_eq]
  simp [groupFirst]
  omega

/-- What a group line is loaded as -/
theorem getGroup_spec {line : Chars} {g : MwSametimeGroup} (h : getGroup line = some g) :
    g.name = (splitType (unpacked (block line (firstField line)))).1 ∧
      g.alias_ = unpacked (block line (secondField line)) ∧ g.users = [] := by
  have husers := getGroup_users h
  unfold getGroup at h
  cases hname : fieldBuffer line (scanFields line).1 with
  | none => simp [hname] at h
  | some nameBuffer =>
    cases halias : fieldBuffer line (scanFields line).2.1 with
    | none => simp [hname, halias] at h
    | some aliasBuffer =>
      simp only [hname, halias, Option.bind_eq_bind, Option.bind_some] at h
      obtain rfl := Option.some.inj h
      obtain rfl := fieldBuffer_eq hname
      obtain rfl := fieldBuffer_eq halias
      exact ⟨rfl, rfl, husers⟩

theorem splitType_clean {name : Option Chars} (h : Clean name) : Clean (splitType name).1 := by
  unfold splitType
  cases hlast : name.bind (·.getLast?) with
  | none => exact h
  | some type =>
    intro s hs
    obtain ⟨s', hs', rfl⟩ := Option.map_eq_some_iff.mp hs
    exact (h s' hs').of_subset (List.dropLast_subset _)

theorem block_clean {line field : Chars} (h : Solid field) :
    Clean (unpacked (block line field)) := by
  intro s hs
  obtain ⟨s', hs', rfl⟩ := Option.map_eq_some_iff.mp hs
  unfold block at hs'
  split at hs'
  · exact nomatch hs'
  · obtain rfl := Option.some.inj hs'
    exact unpack_clean h

theorem getGroup_clean {line : Chars} {g : MwSametimeGroup} (h : getGroup line = some g) :
    g.CleanStrings := by
  obtain ⟨hname, halias, _⟩ := getGroup_spec h
  refine ⟨?_, ?_⟩
  · rw [hname]
    exact splitType_clean (block_clean (firstField_solid line))
  · rw [halias]
    exact block_clean (secondField_solid line)

/-- Both fields are there when the second is. -/
theorem fields_of_second {line : Chars} (h : (scanFields line).2.1.isSome) :
    firstField line ≠ [] ∧ secondField line ≠ [] := by
  have ⟨hfirst, hsecond⟩ := scanFields_solid line
  obtain ⟨second, hs⟩ := Option.isSome_iff_exists.mp h
  have hf : ∃ first, (scanFields line).1 = some first := by
    unfold scanFields at hs ⊢
    cases hscan : scanS (line.drop 1) with
    | none =>
      rw [hscan] at hs
      exact nomatch hs
    | some r =>
      cases hscan' : scanS r.2 with
      | none => simp [hscan']
      | some r' => simp [hscan']
  obtain ⟨first, hf⟩ := hf
  unfold firstField secondField
  rw [hf, hs]
  exact ⟨(hfirst first hf).2, (hsecond second hs).2⟩

/-- A group that is loaded with a name and an alias that is not empty -/
structure MwSametimeGroup.Full (g : MwSametimeGroup) (n a : Chars) : Prop where
  name : g.name = some n
  alias_ : g.alias_ = some a
  ne : a ≠ []
  users : g.users = []

theorem MwSametimeGroup.Full.shownAlias {g : MwSametimeGroup} {n a : Chars}
    (h : g.Full n a) : g.shownAlias = a := by
  unfold MwSametimeGroup.shownAlias
  rw [h.alias_]
  rfl

theorem MwSametimeGroup.Full.norm {g : MwSametimeGroup} {n a : Chars}
    (h : g.Full n a) : g.norm = g := by
  unfold MwSametimeGroup.norm
  rw [h.shownAlias, h.name]
  cases g
  obtain ⟨rfl, rfl, _, rfl⟩ := h
  rfl

theorem getGroup_full {line : Chars} {g : MwSametimeGroup} (h : getGroup line = some g)
    (hsecond : (scanFields line).2.1.isSome) :
    g.Full (unpack (firstField line)).dropLast (unpack (secondField line)) := by
  have hfits := (getGroup_isSome_iff line).mp (Option.isSome_of_eq_some h)
  obtain ⟨second, hs⟩ := Option.isSome_iff_exists.mp hsecond
  have hsize : bufferSize line ≠ 0 := by
    have := hfits.2.2 second hs
    omega
  obtain ⟨hname, halias, husers⟩ := getGroup_spec h
  have ⟨hfirst, hsecond⟩ := fields_of_second hsecond
  unfold block at hname halias
  rw [if_neg hsize] at hname halias
  have hname' : g.name = some (unpack (firstField line)).dropLast := by
    rw [hname]
    have hne : unpack (firstField line) ≠ [] := by simpa [unpack, strReplace] using hfirst
    change (splitType (some (unpack (firstField line)))).1 = _
    unfold splitType
    rw [Option.bind_some, List.getLast?_eq_some_getLast hne]
    rfl
  exact ⟨hname', halias, by simpa [unpack, strReplace] using hsecond, husers⟩

/-- A loaded group is stored so that it is loaded as the same group only if its line had
an alias. -/
theorem getGroup_eq_self_iff {line : Chars} {g : MwSametimeGroup} (h : getGroup line = some g) :
    getGroup (groupLine g) = some g ↔ (scanFields line).2.1.isSome ∧
      5 + (firstField line).length + (secondField line).length < 2 ^ 31 := by
  have hclean := getGroup_clean h
  by_cases hsecond : (scanFields line).2.1.isSome
  · have hfull := getGroup_full h hsecond
    have hne : g.shownAlias ≠ [] := by
      rw [hfull.shownAlias]
      exact hfull.ne
    have hlen : (groupLine g).length =
        5 + (firstField line).length + (secondField line).length := by
      have hpos := List.length_pos_iff.mpr (fields_of_second hsecond).1
      rw [groupLine_length, hfull.shownAlias, hfull.name]
      simp only [printS, List.length_dropLast, unpack_length]
      omega
    rw [← hlen]
    constructor
    · intro hload
      have hfits := (getGroup_isSome_iff _).mp (Option.isSome_of_eq_some hload)
      exact ⟨hsecond, (fits_groupLine_iff hclean hne).mp hfits⟩
    · intro hlt
      rw [getGroup_groupLine hclean hne hlt.2, hfull.norm]
  · refine iff_of_false (fun hload => ?_) fun h => hsecond h.1
    obtain ⟨hname, halias, _⟩ := getGroup_spec h
    unfold secondField block at halias
    rw [Option.not_isSome_iff_eq_none.mp hsecond] at halias
    by_cases hsize : bufferSize line = 0
    · -- without blocks there is neither a name nor an alias, and the line has a text for both
      unfold block at hname
      rw [if_pos hsize] at hname halias
      have hne : g.shownAlias ≠ [] := by
        unfold MwSametimeGroup.shownAlias
        rw [halias, hname]
        decide
      have hfits := (getGroup_isSome_iff _).mp (Option.isSome_of_eq_some hload)
      have hlt := (fits_groupLine_iff hclean hne).mp hfits
      have heq := congrArg MwSametimeGroup.alias_
        (Option.some.inj ((getGroup_groupLine hclean hne hlt).symm.trans hload))
      rw [halias] at heq
      cases heq
    · rw [if_neg hsize] at halias
      have hnil : g.shownAlias = [] := by
        unfold MwSametimeGroup.shownAlias
        rw [halias]
        rfl
      have heq := (getGroup_groupLine_nil hclean hnil hload).symm.trans halias
      cases heq

/-! ## From lines to entries -/

def headOf (g : MwSametimeGroup) : MwSametimeGroup := { g with users := [] }

/-- The entries of `gs` are those of `gs'` and what the line was loaded as. -/
structure Extends (gs gs' : List MwSametimeGroup) (lines : List Chars) : Prop where
  heads : ∀ g, g ∈ gs'.map headOf ↔
    g ∈ gs.map headOf ∨ ∃ line ∈ lines, IsGroup line ∧ getGroup line = some g
  users : ∀ u, u ∈ gs'.flatMap (·.users) ↔
    u ∈ gs.flatMap (·.users) ∨ ∃ line ∈ lines, IsUser line ∧ getUser line = some u

theorem extends_getLine {l l' : MwSametimeList} {line : Chars} (h : getLine l line = some l') :
    Extends l.groups l'.groups [line] := by
  unfold getLine at h
  split at h
  case isTrue hv =>
    obtain rfl := Option.some.inj h
    constructor <;> simp [getVersion, IsGroup, IsUser, hv, chV, chG, chU]
  case isFalse =>
    split at h
    case isTrue hg =>
      obtain ⟨g, hload, h⟩ := Option.bind_eq_some_iff.mp h
      obtain rfl := Option.some.inj h
      have husers := getGroup_users hload
      have hhead : headOf g = g := by
        cases g
        simp_all [headOf]
      have hnot : ¬ IsUser line := by
        rw [IsUser, hg]
        decide
      constructor
      · intro g'
        rw [List.map_cons, List.mem_cons, hhead]
        simp only [List.mem_singleton, exists_eq_left]
        rw [hload, Option.some.injEq, eq_comm (a := g), or_comm]
        simp [show IsGroup line from hg]
      · simp [husers, hnot]
    case isFalse hg =>
      have hnot : ¬ IsGroup line := hg
      split at h
      case isTrue hu =>
        cases hgroups : l.groups with
        | nil =>
          rw [hgroups] at h
          cases h
        | cons g gs =>
          rw [hgroups] at h
          obtain ⟨u, hload, h⟩ := Option.bind_eq_some_iff.mp h
          obtain rfl := Option.some.inj h
          constructor
          · simp [hnot, headOf]
          · intro u'
            simp only [List.flatMap_cons, List.mem_append, List.mem_singleton, exists_eq_left]
            rw [hload, Option.some.injEq, eq_comm (a := u)]
            simp only [show IsUser line from hu, true_and]
            tauto
      case isFalse hu =>
        obtain rfl := Option.some.inj h
        have hnot' : ¬ IsUser line := hu
        constructor <;> simp [hnot, hnot']

theorem Extends.trans {gs gs' gs'' : List MwSametimeGroup} {lines lines' : List Chars}
    (h : Extends gs gs' lines) (h' : Extends gs' gs'' lines') :
    Extends gs gs'' (lines ++ lines') := by
  constructor
  · intro g
    rw [h'.heads, h.heads]
    simp only [List.mem_append, or_and_right, exists_or, or_assoc]
  · intro u
    rw [h'.users, h.users]
    simp only [List.mem_append, or_and_right, exists_or, or_assoc]

theorem extends_foldlM {l l' : MwSametimeList} {lines : List Chars}
    (h : lines.foldlM getLine l = some l') : Extends l.groups l'.groups lines := by
  induction lines generalizing l with
  | nil =>
    obtain rfl := Option.some.inj h
    constructor <;> simp
  | cons line lines ih =>
    rw [List.foldlM_cons] at h
    obtain ⟨l1, hline, hlines⟩ := Option.bind_eq_some_iff.mp h
    exact (extends_getLine hline).trans (ih hlines)

/-- The entries of a loaded list are what its group and user lines were loaded as. -/
theorem extends_load {t : Chars} {l : MwSametimeList} (h : mwSametimeListLoad t = some l) :
    Extends [] l.groups (linesOf t) := by
  obtain ⟨l', hlist, rfl⟩ := Option.map_eq_some_iff.mp h
  have hext := extends_foldlM hlist
  constructor
  · intro g
    rw [← hext.heads, List.map_reverse, List.mem_reverse]
  · intro u
    rw [← hext.users]
    simp [List.mem_flatMap]

/-! ## Stable texts -/

theorem reloadGroup_eq_self_iff (g : MwSametimeGroup) :
    reloadGroup g = some g ↔ getGroup (groupLine (headOf g)) = some (headOf g) ∧
      ∀ u ∈ g.users, reloadUser u = some u := by
  have husers := mapM_eq_map_iff reloadUser id g.users
  rw [List.map_id] at husers
  simp only [id] at husers
  rw [← husers]
  change _ ↔ getGroup (groupLine g) = _ ∧ _
  unfold reloadGroup
  cases hg : getGroup (groupLine g) with
  | none => simp
  | some g' =>
    have hnil := getGroup_users hg
    cases hus : g.users.mapM reloadUser with
    | none => simp
    | some us =>
      cases g
      cases g'
      simp_all [headOf, and_assoc]

theorem load_clean {t : Chars} {l : MwSametimeList} (h : mwSametimeListLoad t = some l) :
    l.CleanStrings := by
  have hext := extends_load h
  intro g hg
  constructor
  · obtain hnone | ⟨line, _, _, hline⟩ := (hext.heads _).mp (List.mem_map_of_mem hg)
    · exact nomatch hnone
    · have hclean := getGroup_clean hline
      exact ⟨hclean.name, hclean.alias_⟩
  · intro u hu
    obtain hnone | ⟨line, _, _, hline⟩ := (hext.users u).mp (List.mem_flatMap.mpr ⟨g, hg, hu⟩)
    · exact nomatch hnone
    · exact getUser_clean hline

/-- A loaded list is the same again when its entries are, one by one. -/
theorem load_store_eq_self_iff {l : MwSametimeList} (h : l.CleanStrings) :
    mwSametimeListLoad (mwSametimeListStore l) = some l ↔
      (∀ g ∈ l.groups.map headOf, getGroup (groupLine g) = some g) ∧
        ∀ u ∈ l.groups.flatMap (·.users), reloadUser u = some u := by
  have hgroups := mapM_eq_map_iff reloadGroup id l.groups
  rw [List.map_id] at hgroups
  have hload : mwSametimeListLoad (mwSametimeListStore l) = some l ↔
      l.groups.mapM reloadGroup = some l.groups := by
    rw [load_store h]
    cases l
    cases List.mapM reloadGroup _ <;> simp
  rw [hload, hgroups]
  simp only [id, reloadGroup_eq_self_iff, List.mem_map, List.mem_flatMap]
  constructor
  · intro hall
    refine ⟨?_, ?_⟩
    · rintro _ ⟨g, hg, rfl⟩
      exact (hall g hg).1
    · rintro u ⟨g, hg, hu⟩
      exact (hall g hg).2 u hu
  · intro ⟨hheads, husers⟩ g hg
    exact ⟨hheads _ ⟨g, hg, rfl⟩, fun u hu => husers u ⟨g, hg, hu⟩⟩

/-- A text whose users have groups and whose ids do not begin with colons is stored as it
was loaded exactly when its group lines have aliases and its lines are not too long. -/
theorem stableText_iff (t : Chars) (hgroups : GroupsFirst (linesOf t))
    (hcolons : ∀ line ∈ linesOf t, IsUser line → ¬ ColonsFirst line) :
    StableText t ↔ Resavable t := by
  have hloads : (mwSametimeListLoad t).isSome ↔
      ∀ line ∈ linesOf t, IsGroup line ∨ IsUser line → Fits line :=
    (load_isSome_iff t).trans ⟨Loadable.fits, fun h => ⟨hgroups, hcolons, h⟩⟩
  -- each line that is loaded into an entry is loaded by its own function
  have hstable : ∀ l, mwSametimeListLoad t = some l →
      (mwSametimeListLoad (mwSametimeListStore l) = some l ↔
        (∀ line ∈ linesOf t, IsGroup line → (scanFields line).2.1.isSome ∧
          5 + (firstField line).length + (secondField line).length < 2 ^ 31) ∧
        ∀ line ∈ linesOf t, IsUser line → bufferSize line ≠ 0 ∧
          7 + idLength (firstField line) + nameLength (secondField line) < 2 ^ 31) := by
    intro l hl
    have hext := extends_load hl
    have hfits := hloads.mp (Option.isSome_of_eq_some hl)
    rw [load_store_eq_self_iff (load_clean hl)]
    refine and_congr ⟨fun hall line hline hgroup => ?_, fun hall g hg => ?_⟩
      ⟨fun hall line hline huser => ?_, fun hall u hu => ?_⟩
    · have hsome := (getGroup_isSome_iff line).mpr (hfits line hline (.inl hgroup))
      obtain ⟨g, hg⟩ := Option.isSome_iff_exists.mp hsome
      have hmem := (hext.heads g).mpr (.inr ⟨line, hline, hgroup, hg⟩)
      exact (getGroup_eq_self_iff hg).mp (hall g hmem)
    · obtain hnone | ⟨line, hline, hgroup, hg⟩ := (hext.heads g).mp hg
      · exact nomatch hnone
      · exact (getGroup_eq_self_iff hg).mpr (hall line hline hgroup)
    · have hsome := (getUser_isSome_iff line).mpr
        ⟨hfits line hline (.inr huser), hcolons line hline huser⟩
      obtain ⟨u, hu⟩ := Option.isSome_iff_exists.mp hsome
      have hmem := (hext.users u).mpr (.inr ⟨line, hline, huser, hu⟩)
      exact (reloadUser_eq_self_iff hu).mp (hall u hmem)
    · obtain hnone | ⟨line, hline, huser, hu⟩ := (hext.users u).mp hu
      · exact nomatch hnone
      · exact (reloadUser_eq_self_iff hu).mpr (hall line hline huser)
  constructor
  · intro ⟨l, hl, hstore⟩
    obtain ⟨hgroup, huser⟩ := (hstable l hl).mp hstore
    exact ⟨hloads.mp (Option.isSome_of_eq_some hl), fun line hline h => (hgroup line hline h).1,
      fun line hline h => (huser line hline h).1, fun line hline h => (hgroup line hline h).2,
      fun line hline h => (huser line hline h).2⟩
  · intro h
    obtain ⟨l, hl⟩ := Option.isSome_iff_exists.mp (hloads.mpr h.fits)
    refine ⟨l, hl, (hstable l hl).mpr ⟨fun line hline hg => ?_, fun line hline hu => ?_⟩⟩
    · exact ⟨h.alias_ line hline hg, h.group line hline hg⟩
    · exact ⟨h.size line hline hu, h.user line hline hu⟩

theorem idLength_le (first : Chars) : idLength first ≤ first.length := by
  unfold idLength
  cases h : beforeColons first with
  | none => exact Nat.le_refl _
  | some before =>
    have := (beforeColons_isPrefix h).length_le
    dsimp only
    omega

theorem nameLength_le (second : Chars) : nameLength second ≤ second.length := by
  unfold nameLength
  split <;> omega

/-- For lines of ordinary length only the alias of a group can be missing. -/
theorem resavable_iff_of_short {t : Chars} (h : ∀ line ∈ linesOf t, line.length < 2 ^ 31 - 8) :
    Resavable t ↔ ∀ line ∈ linesOf t, IsGroup line → (scanFields line).2.1.isSome := by
  refine ⟨Resavable.alias_, fun halias => ?_⟩
  have hne : ∀ line : Chars, IsGroup line ∨ IsUser line → line ≠ [] := by
    rintro line (hline | hline) rfl <;> exact nomatch hline
  have hlen : ∀ line ∈ linesOf t, IsGroup line ∨ IsUser line →
      (firstField line).length + (secondField line).length < line.length :=
    fun line _ hline => scanFields_length (hne line hline)
  refine ⟨fun line hl _ => fits_of_lt (by have := h line hl; omega), halias, fun line hl hu => ?_,
    fun line hl hg => ?_, fun line hl hu => ?_⟩
  · have hlt := h line hl
    have hpos := List.length_pos_iff.mpr (hne line (.inr hu))
    rw [bufferSize_of_lt (by omega)]
    omega
  · have := h line hl
    have := hlen line hl (.inl hg)
    omega
  · have := h line hl
    have := hlen line hl (.inr hu)
    have := idLength_le (firstField line)
    have := nameLength_le (secondField line)
    omega

/-- `"G a2 b O"` and `"U c1:: d,"` -/
def twoLines : Chars :=
  [0x47, 0x20, 0x61, 0x32, 0x20, 0x62, 0x20, 0x4f, 0x0a,
   0x55, 0x20, 0x63, 0x31, 0x3a, 0x3a, 0x20, 0x64, 0x2c]

theorem linesOf_twoLines :
    linesOf twoLines =
      [[0x47, 0x20, 0x61, 0x32, 0x20, 0x62, 0x20, 0x4f],
       [0x55, 0x20, 0x63, 0x31, 0x3a, 0x3a, 0x20, 0x64, 0x2c]] := by
  decide +kernel

theorem stableText_iff_twoLines :
    GroupsFirst (linesOf twoLines) ∧ (StableText twoLines ↔ Resavable twoLines) ∧
      StableText twoLines := by
  have hgroups : GroupsFirst (linesOf twoLines) := by
    rw [linesOf_twoLines]
    refine ((groupsFirstFrom_iff false _).mp ?_).resolve_left (by decide)
    unfold groupsFirstFrom groupsFirstFrom groupsFirstFrom
    decide
  have hcolons : ∀ line ∈ linesOf twoLines, IsUser line → ¬ ColonsFirst line := by
    rw [linesOf_twoLines]
    unfold ColonsFirst
    decide +kernel
  have hresavable : Resavable twoLines := by
    rw [resavable_iff_of_short (by rw [linesOf_twoLines]; decide), linesOf_twoLines]
    decide +kernel
  have hstable := stableText_iff twoLines hgroups hcolons
  exact ⟨hgroups, hstable, hstable.mpr hresavable⟩

/-- `"G foo2"`, a group line without an alias -/
theorem not_stableText_noAlias :
    GroupsFirst (linesOf [0x47, 0x20, 0x66, 0x6f, 0x6f, 0x32]) ∧
    (∀ line ∈ linesOf [0x47, 0x20, 0x66, 0x6f, 0x6f, 0x32], IsUser line → ¬ ColonsFirst line) ∧
    ¬ StableText [0x47, 0x20, 0x66, 0x6f, 0x6f, 0x32] := by
  have hlines : linesOf [0x47, 0x20, 0x66, 0x6f, 0x6f, 0x32] =
      [[0x47, 0x20, 0x66, 0x6f, 0x6f, 0x32]] := by
    decide +kernel
  refine ⟨?_, ?_, ?_⟩
  · rw [hlines]
    refine ((groupsFirstFrom_iff false _).mp ?_).resolve_left (by decide)
    unfold groupsFirstFrom groupsFirstFrom
    decide
  · rw [hlines]
    unfold ColonsFirst
    decide +kernel
  · rintro ⟨l, hl, hstore⟩
    have hload : mwSametimeListLoad [0x47, 0x20, 0x66, 0x6f, 0x6f, 0x32] =
        some { groups := [{ name := some [0x66, 0x6f, 0x6f], alias_ := some [],
                            open_ := true }] } := by
      decide +kernel
    obtain rfl := Option.some.inj (hload.symm.trans hl)
    exact absurd hstore (by decide +kernel)

end Meanwhile.StList
