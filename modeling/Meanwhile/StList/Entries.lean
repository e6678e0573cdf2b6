-- SUMMARY: What a user or a group is after it was stored and loaded again.
import Meanwhile.StList.Lines
import Meanwhile.StList.Safety

/-!
# Entries of a list

The line of a user or group is loaded as the entry it was made from, but for what the
line does not tell: a name or alias that is `NULL` or stands in for another, an alias
of a user that is empty, and the community. An entry without these is loaded as it was.

All strings here are clean: the blank is their only white space, and they have no
semicolon, which stands for a blank.
-/

namespace Meanwhile.StList

/-! ## Strings in lines -/

def CleanChars (s : Chars) : Prop := ∀ c ∈ s, c ≠ chSemicolon ∧ (isSpace c = true → c = chSpace)

instance (s : Chars) : Decidable (CleanChars s) :=
  decidable_of_iff (s.all (fun c => c != chSemicolon && (!isSpace c || c == chSpace)) = true)
    (by simp [CleanChars, or_iff_not_imp_left])

def Clean (str : Option Chars) : Prop := ∀ s, str = some s → CleanChars s

/-- Blanks as semicolons -/
def pack (s : Chars) : Chars := strReplace s chSpace chSemicolon

/-- Semicolons as blanks -/
def unpack (s : Chars) : Chars := strReplace s chSemicolon chSpace

@[simp] theorem pack_length (s : Chars) : (pack s).length = s.length := strReplace_length _ _ _
@[simp] theorem unpack_length (s : Chars) : (unpack s).length = s.length := strReplace_length _ _ _

theorem unpack_append (s s' : Chars) : unpack (s ++ s') = unpack s ++ unpack s' := List.map_append

theorem pack_solid {s : Chars} (h : CleanChars s) : Solid (pack s) := by
  intro c hc
  obtain ⟨d, hd, rfl⟩ := List.mem_map.mp hc
  by_cases hspace : d = chSpace
  · rw [if_pos hspace]
    decide
  · rw [if_neg hspace]
    have hnot := mt (h d hd).2 hspace
    simpa using hnot

theorem unpack_pack {s : Chars} (h : CleanChars s) : unpack (pack s) = s := by
  have hback : ∀ c ∈ s, (if (if c = chSpace then chSemicolon else c) = chSemicolon then chSpace
      else if c = chSpace then chSemicolon else c) = c := by
    intro c hc
    have hne := (h c hc).1
    split_ifs <;> simp_all
  unfold unpack pack strReplace
  rw [List.map_map]
  exact (List.map_congr_left hback).trans (List.map_id _)

/-- A field that was scanned is clean once its semicolons are blanks. -/
theorem unpack_clean {s : Chars} (h : Solid s) : CleanChars (unpack s) := by
  intro c hc
  obtain ⟨d, hd, rfl⟩ := List.mem_map.mp hc
  by_cases hsemi : d = chSemicolon
  · rw [if_pos hsemi]
    exact ⟨by decide, fun _ => rfl⟩
  · rw [if_neg hsemi]
    exact ⟨hsemi, fun hspace => absurd hspace (by rw [h d hd]; decide)⟩

theorem printS_clean {str : Option Chars} (h : Clean str) : CleanChars (printS str) := by
  cases str with
  | none => exact of_decide_eq_true rfl
  | some s => exact h s rfl

theorem printS_packed (str : Option Chars) : printS (packed str) = pack (printS str) := by
  cases str <;> rfl

/-! ## Colons and commas -/

/-- The first `"::"` is found behind a string without any and a type. -/
theorem beforeColons_append {s : Chars} (h : beforeColons s = none) {type : UInt8}
    (htype : type ≠ chColon) :
    beforeColons (s ++ [type, chColon, chColon]) = some (s ++ [type]) := by
  induction s with
  | nil =>
    rw [List.nil_append, beforeColons, if_neg fun hc => htype hc.1]
    rfl
  | cons c cs ih =>
    rw [beforeColons] at h
    split at h
    case isTrue => cases h
    case isFalse hcolons =>
      have hcs := ih (Option.map_eq_none_iff.mp h)
      have hnot : ¬ (c = chColon ∧ (cs ++ [type, chColon, chColon]).head? = some chColon) := by
        cases cs with
        | nil => exact fun hc => htype (Option.some.inj hc.2)
        | cons d ds => exact hcolons
      rw [List.cons_append, beforeColons, if_neg hnot, hcs]
      rfl

theorem splitUserType_append {id : Chars} (h : beforeColons id = none) {type : UInt8}
    (htype : type ≠ chColon) :
    splitUserType (some (id ++ [type, chColon, chColon])) = some (some id, type) := by
  unfold splitUserType
  rw [Option.bind_some, beforeColons_append h htype]
  simp

theorem splitComma_append (s : Chars) {after : Chars} (h : chComma ∉ after) :
    splitComma (s ++ chComma :: after) = some (s, after) := by
  induction s with
  | nil =>
    rw [List.nil_append, splitComma, (splitComma_eq_none_iff after).mpr h]
    rfl
  | cons c cs ih => rw [List.cons_append, splitComma, ih]

/-- What stands before the type and the colons has no colons in it. -/
theorem beforeColons_before {s before : Chars} (h : beforeColons s = some before) :
    beforeColons before.dropLast = none := by
  induction s generalizing before with
  | nil => cases h
  | cons c cs ih =>
    rw [beforeColons] at h
    split at h
    case isTrue =>
      obtain rfl := Option.some.inj h
      rfl
    case isFalse hnot =>
      obtain ⟨rest, hrest, rfl⟩ := Option.map_eq_some_iff.mp h
      cases rest with
      | nil => rfl
      | cons d ds =>
        obtain ⟨tail, rfl⟩ := beforeColons_isPrefix hrest
        -- what is left of the rest begins as the rest does, or is empty
        have hhead : ¬ (c = chColon ∧ (d :: ds).dropLast.head? = some chColon) := by
          intro hc
          cases ds with
          | nil => cases hc.2
          | cons e es => exact hnot hc
        rw [List.dropLast_cons_cons, beforeColons, if_neg hhead, ih hrest]
        rfl

/-! ## Lines of two fields -/

/-- A line of two fields and little else fits only if its length is an `int`. -/
theorem fits_two_iff {c : UInt8} {first second rest : Chars} (hrest : rest.length ≤ 2)
    (h : scanFields (c :: chSpace :: (first ++ chSpace :: (second ++ rest))) =
      (some first, some second, rest)) :
    Fits (c :: chSpace :: (first ++ chSpace :: (second ++ rest))) ↔
      (c :: chSpace :: (first ++ chSpace :: (second ++ rest))).length < 2 ^ 31 := by
  refine ⟨fun hfits => ?_, fits_of_lt⟩
  have hsize := hfits.1
  have hfirst := hfits.2.1 first (by rw [h])
  have hsecond := hfits.2.2 second (by rw [h])
  unfold bufferSize at hsize hfirst hsecond
  rw [BitVec.toInt_eq_toNat_cond, BitVec.toNat_ofNat] at hsize hfirst hsecond
  simp only [List.length_cons, List.length_append] at hsize hfirst hsecond ⊢
  split at hsize <;> omega

/-! ## Users -/

/-- What `user_put` writes as the name -/
def MwSametimeUser.shownName (u : MwSametimeUser) : Chars := u.name.getD (u.alias_.getD [])

/-- What `user_put` writes as the alias -/
def MwSametimeUser.shownAlias (u : MwSametimeUser) : Chars :=
  if u.name.isSome then u.alias_.getD [] else []

/-- The user as its line tells it -/
def MwSametimeUser.norm (u : MwSametimeUser) : MwSametimeUser where
  type := u.type
  id := some (printS u.id)
  name := some u.shownName
  alias_ := if u.shownAlias = [] then none else some u.shownAlias

structure MwSametimeUser.CleanStrings (u : MwSametimeUser) : Prop where
  id : Clean u.id
  name : Clean u.name
  alias_ : Clean u.alias_

/-- What the loader can tell apart in the line of a user -/
structure MwSametimeUser.Separable (u : MwSametimeUser) : Prop extends u.CleanStrings where
  colons : beforeColons (printS u.id) = none
  comma : chComma ∉ u.shownAlias

def userFirst (u : MwSametimeUser) : Chars :=
  pack (printS u.id) ++ [userTypeToChar u.type, chColon, chColon]

def userSecond (u : MwSametimeUser) : Chars := pack u.shownName ++ chComma :: pack u.shownAlias

theorem userLine_eq (u : MwSametimeUser) :
    userLine u = chU :: chSpace :: (userFirst u ++ chSpace :: (userSecond u ++ [])) := by
  unfold userLine userFirst userSecond MwSametimeUser.shownName MwSametimeUser.shownAlias
  dsimp only
  rw [printS_packed]
  cases hname : u.name <;> cases halias : u.alias_ <;> simp [packed, pack, strReplace]

theorem CleanChars.nil : CleanChars [] := fun _ hc => nomatch hc

theorem MwSametimeUser.CleanStrings.shownName {u : MwSametimeUser} (h : u.CleanStrings) :
    CleanChars u.shownName := by
  unfold MwSametimeUser.shownName
  cases hname : u.name with
  | some s => exact h.name s hname
  | none =>
    cases halias : u.alias_ with
    | some s => exact h.alias_ s halias
    | none => exact CleanChars.nil

theorem MwSametimeUser.CleanStrings.shownAlias {u : MwSametimeUser} (h : u.CleanStrings) :
    CleanChars u.shownAlias := by
  unfold MwSametimeUser.shownAlias
  split
  · cases halias : u.alias_ with
    | some s => exact h.alias_ s halias
    | none => exact CleanChars.nil
  · exact CleanChars.nil

theorem userTypeToChar_solid (type : MwSametimeUserType) :
    Solid [userTypeToChar type, chColon, chColon] := by
  cases type <;> decide

theorem userFirst_solid {u : MwSametimeUser} (h : u.CleanStrings) : Solid (userFirst u) :=
  (pack_solid (printS_clean h.id)).append (userTypeToChar_solid u.type)

theorem userSecond_solid {u : MwSametimeUser} (h : u.CleanStrings) : Solid (userSecond u) := by
  have hcomma : Solid [chComma] := by decide
  exact (pack_solid h.shownName).append (hcomma.append (pack_solid h.shownAlias))

theorem scanFields_userLine {u : MwSametimeUser} (h : u.CleanStrings) :
    scanFields (userLine u) = (some (userFirst u), some (userSecond u), []) := by
  rw [userLine_eq]
  exact scanFields_two _ (userFirst_solid h) (by simp [userFirst]) (userSecond_solid h)
    (by simp [userSecond]) (fun c hc => nomatch hc)

theorem fits_userLine_iff {u : MwSametimeUser} (h : u.CleanStrings) :
    Fits (userLine u) ↔ (userLine u).length < 2 ^ 31 := by
  have hscan := scanFields_userLine h
  rw [userLine_eq] at hscan ⊢
  exact fits_two_iff (by decide) hscan

theorem unpack_userFirst {u : MwSametimeUser} (h : u.CleanStrings) :
    unpack (userFirst u) = printS u.id ++ [userTypeToChar u.type, chColon, chColon] := by
  unfold userFirst
  rw [unpack_append, unpack_pack (printS_clean h.id)]
  cases u.type <;> rfl

theorem unpack_userSecond {u : MwSametimeUser} (h : u.CleanStrings) :
    unpack (userSecond u) = u.shownName ++ chComma :: u.shownAlias := by
  have hcomma : unpack (chComma :: pack u.shownAlias) = chComma :: unpack (pack u.shownAlias) := rfl
  unfold userSecond
  rw [unpack_append, unpack_pack h.shownName, hcomma, unpack_pack h.shownAlias]

@[simp] theorem userCharToType_userTypeToChar (type : MwSametimeUserType) :
    userCharToType (userTypeToChar type) = type := by
  cases type <;> decide

/-- A user is loaded as its line tells it. -/
theorem getUser_userLine {u : MwSametimeUser} (h : u.Separable)
    (hlen : (userLine u).length < 2 ^ 31) : getUser (userLine u) = some u.norm := by
  have hscan := scanFields_userLine h.toCleanStrings
  have hfits := fits_of_lt hlen
  have hfirst := hfits.2.1 (userFirst u) (by rw [hscan])
  have hsecond := hfits.2.2 (userSecond u) (by rw [hscan])
  have htype : userTypeToChar u.type ≠ chColon := by cases u.type <;> decide
  have hid : splitUserType (unpacked (some (userFirst u))) =
      some (some (printS u.id), userTypeToChar u.type) := by
    change splitUserType (some (unpack (userFirst u))) = _
    rw [unpack_userFirst h.toCleanStrings, splitUserType_append h.colons htype]
  have hname : splitAlias (unpacked (some (userSecond u))) =
      (some u.shownName, if u.shownAlias = [] then none else some u.shownAlias) := by
    change splitAlias (some (unpack (userSecond u))) = _
    rw [unpack_userSecond h.toCleanStrings, splitAlias, Option.bind_some,
      splitComma_append _ h.comma]
  unfold getUser
  rw [hscan]
  dsimp only
  rw [fieldBuffer_some hfirst, fieldBuffer_some hsecond]
  simp [hid, hname, MwSametimeUser.norm]

/-! ## Groups -/

/-- What `group_put` writes as the alias -/
def MwSametimeGroup.shownAlias (g : MwSametimeGroup) : Chars :=
  printS (if g.alias_.isSome then g.alias_ else g.name)

/-- The group as its line tells it, without its users -/
def MwSametimeGroup.norm (g : MwSametimeGroup) : MwSametimeGroup where
  type := g.type
  name := some (printS g.name)
  alias_ := some g.shownAlias
  open_ := g.open_

structure MwSametimeGroup.CleanStrings (g : MwSametimeGroup) : Prop where
  name : Clean g.name
  alias_ : Clean g.alias_

def groupFirst (g : MwSametimeGroup) : Chars := pack (printS g.name) ++ [groupTypeToChar g.type]

def openChar (g : MwSametimeGroup) : UInt8 := if g.open_ then chO else chC

theorem groupLine_eq (g : MwSametimeGroup) :
    groupLine g = chG :: chSpace :: (groupFirst g ++ chSpace ::
      (pack g.shownAlias ++ [chSpace, openChar g])) := by
  unfold groupLine groupFirst MwSametimeGroup.shownAlias
  dsimp only
  rw [printS_packed, printS_packed]
  simp [openChar]

theorem MwSametimeGroup.CleanStrings.shownAlias {g : MwSametimeGroup} (h : g.CleanStrings) :
    CleanChars g.shownAlias := by
  unfold MwSametimeGroup.shownAlias
  split
  · exact printS_clean h.alias_
  · exact printS_clean h.name

theorem groupFirst_solid {g : MwSametimeGroup} (h : g.CleanStrings) : Solid (groupFirst g) := by
  have htype : Solid [groupTypeToChar g.type] := by cases g.type <;> decide
  exact (pack_solid (printS_clean h.name)).append htype

theorem openChar_ends (g : MwSametimeGroup) :
    ∀ c, ([chSpace, openChar g] : Chars).head? = some c → isSpace c = true := by
  intro c hc
  obtain rfl := Option.some.inj hc
  rfl

theorem scanFields_groupLine {g : MwSametimeGroup} (h : g.CleanStrings) (hne : g.shownAlias ≠ []) :
    scanFields (groupLine g) =
      (some (groupFirst g), some (pack g.shownAlias), [chSpace, openChar g]) := by
  rw [groupLine_eq]
  exact scanFields_two _ (groupFirst_solid h) (by simp [groupFirst]) (pack_solid h.shownAlias)
    (by simpa [pack, strReplace] using hne) (openChar_ends g)

/-- Without an alias, the mark for open groups is in its place. -/
theorem scanFields_groupLine_nil {g : MwSametimeGroup} (h : g.CleanStrings)
    (hnil : g.shownAlias = []) :
    scanFields (groupLine g) = (some (groupFirst g), some [openChar g], []) := by
  have hopen : Solid [openChar g] := by unfold openChar; cases g.open_ <;> decide
  have hspaces : ∀ c, (chSpace :: chSpace :: [openChar g]).head? = some c → isSpace c = true := by
    intro c hc
    obtain rfl := Option.some.inj hc
    rfl
  have hfirst := scanS_field (groupFirst_solid h) (by simp [groupFirst]) hspaces
  have hsecond : scanS [openChar g] = some ([openChar g], []) :=
    scanS_field hopen (by simp) (fun c hc => nomatch hc)
  have hline : groupLine g =
      chG :: chSpace :: (groupFirst g ++ chSpace :: chSpace :: [openChar g]) := by
    rw [groupLine_eq, hnil]
    rfl
  unfold scanFields
  rw [hline, List.drop_one, List.tail_cons, scanS_cons, hfirst]
  dsimp only
  rw [scanS_cons, scanS_cons, hsecond]

theorem fits_groupLine_iff {g : MwSametimeGroup} (h : g.CleanStrings) (hne : g.shownAlias ≠ []) :
    Fits (groupLine g) ↔ (groupLine g).length < 2 ^ 31 := by
  have hscan := scanFields_groupLine h hne
  rw [groupLine_eq] at hscan ⊢
  exact fits_two_iff (Nat.le_refl _) hscan

@[simp] theorem groupCharToType_groupTypeToChar (type : MwSametimeGroupType) :
    groupCharToType (groupTypeToChar type) = type := by
  cases type <;> decide

theorem unpack_groupFirst {g : MwSametimeGroup} (h : g.CleanStrings) :
    unpack (groupFirst g) = printS g.name ++ [groupTypeToChar g.type] := by
  unfold groupFirst
  rw [unpack_append, unpack_pack (printS_clean h.name)]
  cases g.type <;> rfl

/-- A group with an alias, or a name that stands in for it, is loaded as its line tells
it. -/
theorem getGroup_groupLine {g : MwSametimeGroup} (h : g.CleanStrings) (hne : g.shownAlias ≠ [])
    (hlen : (groupLine g).length < 2 ^ 31) : getGroup (groupLine g) = some g.norm := by
  have hscan := scanFields_groupLine h hne
  have hfits := fits_of_lt hlen
  have hfirst := hfits.2.1 (groupFirst g) (by rw [hscan])
  have hsecond := hfits.2.2 (pack g.shownAlias) (by rw [hscan])
  have hname : splitType (unpacked (some (groupFirst g))) =
      (some (printS g.name), groupTypeToChar g.type) := by
    change splitType (some (unpack (groupFirst g))) = _
    rw [unpack_groupFirst h]
    simp [splitType]
  have halias : unpacked (some (pack g.shownAlias)) = some g.shownAlias :=
    congrArg some (unpack_pack h.shownAlias)
  have hopen : (skipSpace [chSpace, openChar g]).head? = some (openChar g) := by
    unfold openChar
    cases g.open_ <;> rfl
  unfold getGroup
  rw [hscan]
  dsimp only
  rw [fieldBuffer_some hfirst, fieldBuffer_some hsecond]
  simp only [hname, halias, hopen, Option.bind_eq_bind, Option.bind_some, Option.isSome_some,
    if_true, Option.getD_some, MwSametimeGroup.norm, groupCharToType_groupTypeToChar]
  unfold openChar
  cases g.open_ <;> rfl

/-- A group with an empty alias is not. -/
theorem getGroup_groupLine_nil {g g' : MwSametimeGroup} (h : g.CleanStrings)
    (hnil : g.shownAlias = []) (hload : getGroup (groupLine g) = some g') :
    g'.alias_ = some [openChar g] := by
  have hscan := scanFields_groupLine_nil h hnil
  have hfits := (getGroup_isSome_iff _).mp (Option.isSome_of_eq_some hload)
  have hfirst := hfits.2.1 (groupFirst g) (by rw [hscan])
  have hsecond := hfits.2.2 [openChar g] (by rw [hscan])
  unfold getGroup at hload
  rw [hscan] at hload
  dsimp only at hload
  rw [fieldBuffer_some hfirst, fieldBuffer_some hsecond] at hload
  obtain rfl := Option.some.inj hload
  unfold openChar
  cases g.open_ <;> rfl

end Meanwhile.StList
