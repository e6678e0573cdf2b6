-- SUMMARY: Which characters loading a list touches, and the texts for which all of them are inside of their strings.
import Meanwhile.StList

/-!
# Loading and its strings

An access is an offset in a block of memory. `fetch_line` walks over the text, whose
block has its terminator at the end. `get_group` and `get_user` scan fields into blocks
of the length of the line, and look at them character by character.

Two kinds of lines take the loader outside: a user line with no group before it, and a
user line whose id begins with the colons that should follow the type. A third kind is
out of reach of the buffers of the library, and only that: a line that is so long that
its length is not an `int`.
-/

namespace Meanwhile.StList

/-! ## Accesses -/

/-- An offset in a block of some length -/
structure Access where
  off : Int
  size : Int

def Access.Inside (a : Access) : Prop := 0 ≤ a.off ∧ a.off < a.size

/-- The characters up to one at the given offset, and that one -/
def upTo (last : Nat) (size : Int) : List Access :=
  (List.range (last + 1)).map fun i : Nat => { off := i, size := size }

/-- `fetch_line`, up to the end of the line or, if there is none, of the text -/
def fetchAccesses (s : Chars) : List Access :=
  let blank := (s.takeWhile gAsciiIsspace).length
  match fetchLine s with
  | none => upTo blank (s.length + 1)
  | some (line, _) => upTo (blank + line.length) (s.length + 1)

/-- Scanning a field into its block and going over it, terminator and all. A block of
no bytes is `NULL` and not looked at, unless there is a field for it. -/
def fieldAccesses (line : Chars) : Option Chars → List Access
  | none => if bufferSize line = 0 then [] else upTo 0 (bufferSize line)
  | some field => upTo field.length (bufferSize line)

/-- `type = name[l]` with `l = strlen(name)-1`, if there is a name -/
def groupTypeAccesses (line : Chars) : Option Chars → List Access
  | none => []
  | some name => if name = [] then [] else [⟨name.length - 1, bufferSize line⟩]

/-- `type = *(tmp)` with `tmp` one before the colons, if there are some -/
def userTypeAccesses (line : Chars) (id : Option Chars) : List Access :=
  match (unpacked id).bind beforeColons with
  | none => []
  | some before => [⟨before.length - 1, bufferSize line⟩]

/-- `*tmp++ = '\0'` at the last comma, and the character after it -/
def aliasAccesses (line : Chars) (name : Option Chars) : List Access :=
  match (unpacked name).bind splitComma with
  | none => []
  | some (before, _) => [⟨before.length, bufferSize line⟩, ⟨before.length + 1, bufferSize line⟩]

/-- `get_group` -/
def groupAccesses (line : Chars) : List Access :=
  let (name, alias_, _) := scanFields line
  fieldAccesses line name ++ fieldAccesses line alias_ ++ groupTypeAccesses line name

/-- `get_user` -/
def userAccesses (line : Chars) : List Access :=
  let (id, name, _) := scanFields line
  fieldAccesses line id ++ fieldAccesses line name ++ userTypeAccesses line id ++
    aliasAccesses line name

/-- What is left of the text each time `fetch_line` is called -/
def remainders : Nat → Chars → List Chars
  | 0, s => [s]
  | fuel + 1, s =>
      match fetchLine s with
      | none => [s]
      | some (_, rest) => s :: remainders fuel rest

def IsGroup (line : Chars) : Prop := line.head? = some chG
def IsUser (line : Chars) : Prop := line.head? = some chU

instance (line : Chars) : Decidable (IsGroup line) := inferInstanceAs (Decidable (_ = _))
instance (line : Chars) : Decidable (IsUser line) := inferInstanceAs (Decidable (_ = _))

/-- Every user line has a group line somewhere before it. -/
def GroupsFirst (lines : List Chars) : Prop :=
  ∀ before line after, lines = before ++ line :: after → IsUser line → ∃ g ∈ before, IsGroup g

/-- The text is parsed to its end inside of its strings. -/
structure ParsesInside (t : Chars) : Prop where
  end_ : ∃ s, (remainders t.length t).getLast? = some s ∧ fetchLine s = none
  fetch : ∀ s ∈ remainders t.length t, ∀ a ∈ fetchAccesses s, a.Inside
  alloc : ∀ line ∈ linesOf t, IsGroup line ∨ IsUser line → 0 ≤ bufferSize line
  group : ∀ line ∈ linesOf t, IsGroup line → ∀ a ∈ groupAccesses line, a.Inside
  user : ∀ line ∈ linesOf t, IsUser line → ∀ a ∈ userAccesses line, a.Inside
  current : GroupsFirst (linesOf t)

/-- A field of the line fits into a block of the length of the line. -/
def FieldFits (line : Chars) (field : Option Chars) : Prop :=
  ∀ s, field = some s → (s.length : Int) < bufferSize line

/-- The fields of the line fit into blocks of its length, an `int`. -/
def Fits (line : Chars) : Prop :=
  0 ≤ bufferSize line ∧ FieldFits line (scanFields line).1 ∧ FieldFits line (scanFields line).2.1

/-- The id of the user line begins with colons. -/
def ColonsFirst (line : Chars) : Prop :=
  (scanFields line).1.map (·.take 2) = some [chColon, chColon]

/-- What a text must not have to be parsed inside of its strings -/
structure Loadable (t : Chars) : Prop where
  current : GroupsFirst (linesOf t)
  colons : ∀ line ∈ linesOf t, IsUser line → ¬ ColonsFirst line
  fits : ∀ line ∈ linesOf t, IsGroup line ∨ IsUser line → Fits line

/-! ## Strings and their parts -/

theorem upTo_inside_iff (last : Nat) (size : Int) :
    (∀ a ∈ upTo last size, a.Inside) ↔ (last : Int) < size := by
  unfold upTo
  constructor
  · intro hall
    exact (hall ⟨last, size⟩ (List.mem_map.mpr ⟨last, by simp, rfl⟩)).2
  · intro hlt a ha
    obtain ⟨i, hi, rfl⟩ := List.mem_map.mp ha
    have := List.mem_range.mp hi
    constructor <;> dsimp only <;> omega

theorem fieldAccesses_inside_iff {line : Chars} (field : Option Chars) (h : 0 ≤ bufferSize line) :
    (∀ a ∈ fieldAccesses line field, a.Inside) ↔ FieldFits line field := by
  cases field with
  | none =>
    refine iff_of_true ?_ (fun s hs => nomatch hs)
    unfold fieldAccesses
    by_cases hsize : bufferSize line = 0
    · rw [if_pos hsize]
      exact fun a ha => nomatch ha
    · rw [if_neg hsize]
      exact (upTo_inside_iff 0 _).mpr (by omega)
  | some field =>
    refine (upTo_inside_iff field.length _).trans ?_
    simp [FieldFits]

theorem strReplace_length (s : Chars) (src dst : UInt8) :
    (strReplace s src dst).length = s.length :=
  List.length_map _

theorem beforeColons_eq_nil_iff (s : Chars) :
    beforeColons s = some [] ↔ s.take 2 = [chColon, chColon] := by
  cases s with
  | nil => simp [beforeColons]
  | cons c cs =>
    cases cs with
    | nil => simp [beforeColons]
    | cons d ds =>
      rw [beforeColons]
      split
      case isTrue h => simp_all
      case isFalse h => simp_all

/-- Blanks for semicolons do not change where other characters are. -/
theorem unpacked_eq_iff {c d : UInt8} (hsemi : chSemicolon ≠ d) (hspace : chSpace ≠ d) :
    (if c = chSemicolon then chSpace else c) = d ↔ c = d := by
  split
  case isTrue h => simp [h, hsemi, hspace]
  case isFalse => rfl

theorem strReplace_take_colons (s : Chars) :
    (strReplace s chSemicolon chSpace).take 2 = [chColon, chColon] ↔
      s.take 2 = [chColon, chColon] := by
  have hcolon : ∀ c : UInt8, (if c = chSemicolon then chSpace else c) = chColon ↔ c = chColon :=
    fun c => unpacked_eq_iff (by decide) (by decide)
  match s with
  | [] => simp [strReplace]
  | [c] => simp [strReplace]
  | c :: d :: s => simp [strReplace, hcolon]

/-- The colons come first in a field exactly when nothing stands before them. -/
theorem colonsFirst_iff (id : Option Chars) :
    (unpacked id).bind beforeColons = some [] ↔ id.map (·.take 2) = some [chColon, chColon] := by
  cases id with
  | none => simp [unpacked]
  | some id => simp [unpacked, beforeColons_eq_nil_iff, strReplace_take_colons]

theorem beforeColons_isPrefix {s before : Chars} (h : beforeColons s = some before) :
    List.IsPrefix before s := by
  induction s generalizing before with
  | nil => exact nomatch h
  | cons c cs ih =>
    unfold beforeColons at h
    split at h
    · obtain rfl := Option.some.inj h
      exact List.nil_prefix
    · obtain ⟨rest, hrest, rfl⟩ := Option.map_eq_some_iff.mp h
      exact List.cons_prefix_cons.mpr ⟨rfl, ih hrest⟩

theorem splitComma_eq_none_iff (s : Chars) : splitComma s = none ↔ chComma ∉ s := by
  induction s with
  | nil => simp [splitComma]
  | cons c cs ih =>
    rw [splitComma]
    cases hcs : splitComma cs with
    | some r =>
      have hmem : chComma ∈ cs := by
        by_contra hnot
        rw [ih.mpr hnot] at hcs
        exact nomatch hcs
      simp [hmem]
    | none =>
      have hnot := ih.mp hcs
      by_cases hc : c = chComma
      · simp [hc]
      · simp [hc, hnot, Ne.symm hc]

/-- A split at the last comma puts the string together again. -/
theorem splitComma_eq {s before after : Chars} (h : splitComma s = some (before, after)) :
    s = before ++ chComma :: after ∧ chComma ∉ after := by
  induction s generalizing before with
  | nil => exact nomatch h
  | cons c cs ih =>
    unfold splitComma at h
    cases hcs : splitComma cs with
    | some r =>
      rw [hcs] at h
      obtain ⟨rfl, rfl⟩ := Prod.mk.inj (Option.some.inj h)
      obtain ⟨heq, hafter⟩ := ih hcs
      exact ⟨congrArg (c :: ·) heq, hafter⟩
    | none =>
      rw [hcs] at h
      dsimp only at h
      split at h
      case isTrue hc =>
        obtain ⟨rfl, rfl⟩ := Prod.mk.inj (Option.some.inj h)
        exact ⟨by rw [hc]; rfl, (splitComma_eq_none_iff _).mp hcs⟩
      case isFalse => exact nomatch h

/-! ## Fetching a line -/

theorem fetchLine_length {s line rest : Chars} (h : fetchLine s = some (line, rest)) :
    (s.takeWhile gAsciiIsspace).length + line.length ≤ s.length := by
  have hsplit := congrArg List.length
    (List.takeWhile_append_dropWhile (p := gAsciiIsspace) (l := s))
  rw [List.length_append] at hsplit
  unfold fetchLine at h
  cases hdrop : s.dropWhile gAsciiIsspace with
  | nil =>
    rw [hdrop] at h
    exact nomatch h
  | cons c cs =>
    rw [hdrop] at h
    obtain ⟨rfl, rfl⟩ := Prod.mk.inj (Option.some.inj h)
    rw [hdrop, List.length_cons] at hsplit
    have hline := (List.takeWhile_sublist (l := cs) fun c => !(c = chLf || c = chCr)).length_le
    rw [List.length_cons]
    omega

/-- Each line leaves less of the text. -/
theorem fetchLine_rest_length {s line rest : Chars} (h : fetchLine s = some (line, rest)) :
    rest.length < s.length := by
  have hle := (List.dropWhile_sublist (l := s) gAsciiIsspace).length_le
  unfold fetchLine at h
  cases hdrop : s.dropWhile gAsciiIsspace with
  | nil =>
    rw [hdrop] at h
    exact nomatch h
  | cons c cs =>
    rw [hdrop] at h
    obtain ⟨rfl, rfl⟩ := Prod.mk.inj (Option.some.inj h)
    rw [hdrop, List.length_cons] at hle
    have hrest := (List.dropWhile_sublist (l := cs) fun c => !(c = chLf || c = chCr)).length_le
    rw [List.length_drop]
    omega

theorem remainders_end {fuel : Nat} {s : Chars} (h : s.length ≤ fuel) :
    ∃ last, (remainders fuel s).getLast? = some last ∧ fetchLine last = none := by
  induction fuel generalizing s with
  | zero =>
    obtain rfl := List.length_eq_zero_iff.mp (Nat.le_zero.mp h)
    exact ⟨[], rfl, rfl⟩
  | succ fuel ih =>
    rw [remainders]
    cases hline : fetchLine s with
    | none => exact ⟨s, rfl, hline⟩
    | some r =>
      have hlt := fetchLine_rest_length hline
      obtain ⟨last, hlast, hnone⟩ := ih (s := r.2) (by omega)
      refine ⟨last, ?_, hnone⟩
      rw [List.getLast?_cons, hlast]
      rfl

/-- `fetch_line` does not leave the text, whatever is left of it. -/
theorem fetchAccesses_inside (s : Chars) : ∀ a ∈ fetchAccesses s, a.Inside := by
  unfold fetchAccesses
  cases h : fetchLine s with
  | none =>
    have hblank := (List.takeWhile_sublist (l := s) gAsciiIsspace).length_le
    exact (upTo_inside_iff _ _).mpr (by omega)
  | some r =>
    have hline := fetchLine_length h
    exact (upTo_inside_iff _ _).mpr (by push_cast; omega)

/-! ## The fields of a line -/

theorem fits_iff {line : Chars} (h : 0 ≤ bufferSize line) :
    Fits line ↔ (∀ a ∈ fieldAccesses line (scanFields line).1, a.Inside) ∧
      ∀ a ∈ fieldAccesses line (scanFields line).2.1, a.Inside := by
  rw [fieldAccesses_inside_iff _ h, fieldAccesses_inside_iff _ h]
  exact ⟨fun hfits => hfits.2, fun hfits => ⟨h, hfits⟩⟩

/-- The last character of a name that fits is inside of its block. -/
theorem groupTypeAccesses_inside {line : Chars} {name : Option Chars} (h : FieldFits line name) :
    ∀ a ∈ groupTypeAccesses line name, a.Inside := by
  intro a ha
  cases name with
  | none => exact nomatch ha
  | some name =>
    have hlt := h name rfl
    rw [groupTypeAccesses] at ha
    split at ha
    · exact nomatch ha
    · rename_i hne
      have := List.length_pos_iff.mpr hne
      obtain rfl := List.mem_singleton.mp ha
      constructor <;> dsimp only <;> omega

theorem groupAccesses_inside_iff {line : Chars} (h : 0 ≤ bufferSize line) :
    (∀ a ∈ groupAccesses line, a.Inside) ↔ Fits line := by
  rw [fits_iff h]
  unfold groupAccesses
  simp only [List.mem_append, or_imp, forall_and]
  constructor
  · exact fun ⟨hfields, _⟩ => hfields
  · intro hfields
    exact ⟨hfields, groupTypeAccesses_inside ((fieldAccesses_inside_iff _ h).mp hfields.1)⟩

/-- The type of a user is read in front of its id exactly when the colons come first. -/
theorem userTypeAccesses_inside_iff {line : Chars} {id : Option Chars} (h : FieldFits line id) :
    (∀ a ∈ userTypeAccesses line id, a.Inside) ↔
      ¬ id.map (·.take 2) = some [chColon, chColon] := by
  rw [← colonsFirst_iff]
  unfold userTypeAccesses
  cases id with
  | none => simp [unpacked]
  | some id =>
    have hlt := h id rfl
    cases hbefore : (unpacked (some id)).bind beforeColons with
    | none => simp
    | some before =>
      have hle := (beforeColons_isPrefix (s := strReplace id chSemicolon chSpace) hbefore).length_le
      rw [strReplace_length] at hle
      simp only [List.mem_singleton, forall_eq, Access.Inside, Option.some.injEq]
      rw [← List.length_eq_zero_iff]
      omega

/-- The character after a comma is inside of the block, as the terminator is. -/
theorem aliasAccesses_inside {line : Chars} {name : Option Chars} (h : FieldFits line name) :
    ∀ a ∈ aliasAccesses line name, a.Inside := by
  intro a ha
  unfold aliasAccesses at ha
  cases name with
  | none => exact nomatch ha
  | some name =>
    have hlt := h name rfl
    cases hcomma : (unpacked (some name)).bind splitComma with
    | none =>
      rw [hcomma] at ha
      exact nomatch ha
    | some r =>
      rw [hcomma] at ha
      have hlen := congrArg List.length
        (splitComma_eq (s := strReplace name chSemicolon chSpace) hcomma).1
      rw [strReplace_length, List.length_append, List.length_cons] at hlen
      simp only [List.mem_cons, List.not_mem_nil, or_false] at ha
      obtain rfl | rfl := ha <;> constructor <;> dsimp only <;> omega

theorem userAccesses_inside_iff {line : Chars} (h : 0 ≤ bufferSize line) :
    (∀ a ∈ userAccesses line, a.Inside) ↔ Fits line ∧ ¬ ColonsFirst line := by
  rw [fits_iff h]
  unfold userAccesses ColonsFirst
  simp only [List.mem_append, or_imp, forall_and]
  constructor
  · intro ⟨⟨hfields, htype⟩, _⟩
    have hid := (fieldAccesses_inside_iff _ h).mp hfields.1
    exact ⟨hfields, (userTypeAccesses_inside_iff hid).mp htype⟩
  · intro ⟨hfields, hcolons⟩
    have hid := (fieldAccesses_inside_iff _ h).mp hfields.1
    have hname := (fieldAccesses_inside_iff _ h).mp hfields.2
    exact ⟨⟨hfields, (userTypeAccesses_inside_iff hid).mpr hcolons⟩, aliasAccesses_inside hname⟩

/-! ## What the loader makes of a line -/

theorem fieldBuffer_isSome_iff (line : Chars) (field : Option Chars) :
    (fieldBuffer line field).isSome ↔ 0 ≤ bufferSize line ∧ FieldFits line field := by
  unfold fieldBuffer
  by_cases hsize : bufferSize line < 0
  · rw [if_pos hsize]
    exact iff_of_false (by simp) (fun h => absurd h.1 (by omega))
  · rw [if_neg hsize]
    have hnonneg : 0 ≤ bufferSize line := by omega
    cases field with
    | none => simp [FieldFits, hnonneg]
    | some s => by_cases hlt : (s.length : Int) < bufferSize line <;> simp [FieldFits, hlt, hnonneg]

/-- A field that fits is read as it is. -/
theorem fieldBuffer_some {line s : Chars} (h : (s.length : Int) < bufferSize line) :
    fieldBuffer line (some s) = some (some s) := by
  unfold fieldBuffer
  rw [if_neg (by omega)]
  exact if_pos h

/-- A buffer holds its field, or nothing that `strstr` would find. -/
theorem fieldBuffer_colons {line : Chars} {field buffer : Option Chars}
    (h : fieldBuffer line field = some buffer) :
    (unpacked buffer).bind beforeColons = (unpacked field).bind beforeColons := by
  unfold fieldBuffer at h
  split at h
  · exact nomatch h
  · cases field with
    | none =>
      obtain rfl := Option.some.inj h
      split <;> rfl
    | some s =>
      dsimp only at h
      split at h
      · obtain rfl := Option.some.inj h
        rfl
      · exact nomatch h

theorem splitUserType_isSome_iff (id : Option Chars) :
    (splitUserType id).isSome ↔ id.bind beforeColons ≠ some [] := by
  unfold splitUserType
  cases id.bind beforeColons with
  | none => simp
  | some before => cases before <;> simp [List.getLast?_cons]

theorem getGroup_isSome_iff (line : Chars) : (getGroup line).isSome ↔ Fits line := by
  have hname := fieldBuffer_isSome_iff line (scanFields line).1
  have halias := fieldBuffer_isSome_iff line (scanFields line).2.1
  unfold getGroup Fits
  cases hn : fieldBuffer line (scanFields line).1 <;>
    cases ha : fieldBuffer line (scanFields line).2.1 <;> simp_all

theorem getUser_isSome_iff (line : Chars) :
    (getUser line).isSome ↔ Fits line ∧ ¬ ColonsFirst line := by
  have hid := fieldBuffer_isSome_iff line (scanFields line).1
  have hname := fieldBuffer_isSome_iff line (scanFields line).2.1
  unfold ColonsFirst
  rw [← colonsFirst_iff]
  unfold getUser Fits
  cases hi : fieldBuffer line (scanFields line).1 with
  | none => simp_all
  | some id =>
    rw [← fieldBuffer_colons hi]
    have htype := splitUserType_isSome_iff (unpacked id)
    cases hn : fieldBuffer line (scanFields line).2.1 <;>
      cases ht : splitUserType (unpacked id) <;> simp_all

/-! ## Whole texts -/

/-- Every user line has a group, for a list that has one already or has none. -/
def groupsFirstFrom : Bool → List Chars → Prop
  | _, [] => True
  | current, line :: lines =>
      (IsUser line → current = true) ∧ groupsFirstFrom (current || decide (IsGroup line)) lines

theorem groupsFirstFrom_iff (current : Bool) (lines : List Chars) :
    groupsFirstFrom current lines ↔ current = true ∨ GroupsFirst lines := by
  induction lines generalizing current with
  | nil => simp [groupsFirstFrom, GroupsFirst]
  | cons line lines ih =>
    rw [groupsFirstFrom, ih]
    cases current with
    | true => simp
    | false =>
      simp only [Bool.false_eq_true, Bool.false_or, decide_eq_true_eq, false_or]
      constructor
      · intro ⟨hline, hlines⟩ before line' after heq huser
        cases before with
        | nil =>
          obtain ⟨rfl, rfl⟩ := List.cons.inj heq
          exact absurd huser hline
        | cons b before =>
          obtain ⟨rfl, rfl⟩ := List.cons.inj heq
          cases hlines with
          | inl hgroup => exact ⟨line, List.mem_cons_self, hgroup⟩
          | inr hlines =>
            obtain ⟨g, hg, hgroup⟩ := hlines before line' after rfl huser
            exact ⟨g, List.mem_cons_of_mem _ hg, hgroup⟩
      · intro hall
        refine ⟨fun huser => ?_, ?_⟩
        · obtain ⟨g, hg, _⟩ := hall [] line lines rfl huser
          exact nomatch hg
        · by_cases hgroup : IsGroup line
          · exact .inl hgroup
          · refine .inr fun before line' after heq huser => ?_
            obtain ⟨g, hg, hg'⟩ := hall (line :: before) line' after (by rw [heq]; rfl) huser
            cases List.mem_cons.mp hg with
            | inl h => exact absurd (h ▸ hg') hgroup
            | inr h => exact ⟨g, h, hg'⟩

/-- The line can be read when there is a group for it, if it is a user line. -/
def LineLoads (line : Chars) : Prop :=
  (IsUser line → ¬ ColonsFirst line) ∧ (IsGroup line ∨ IsUser line → Fits line)

theorem getLine_isSome_iff (l : MwSametimeList) (line : Chars) :
    (getLine l line).isSome ↔
      (IsUser line → (!l.groups.isEmpty) = true) ∧ LineLoads line := by
  have hgroup := getGroup_isSome_iff line
  have huser := getUser_isSome_iff line
  unfold getLine LineLoads IsGroup IsUser
  by_cases hv : line.head? = some chV
  · simp [hv, chV, chG, chU]
  · rw [if_neg hv]
    by_cases hg : line.head? = some chG
    · rw [if_pos hg]
      simp only [hg, show (some chG = some chU) = False from by decide, false_imp_iff, true_or,
        forall_const, true_and]
      cases h : getGroup line <;> simp_all
    · rw [if_neg hg]
      by_cases hu : line.head? = some chU
      · rw [if_pos hu]
        simp only [hu, forall_const, or_true]
        cases l.groups with
        | nil => simp
        | cons g gs => cases h : getUser line <;> simp_all [and_comm]
      · simp [hg, hu]

/-- There is a group for the lines to come once there was a group line. -/
theorem getLine_groups {l l' : MwSametimeList} {line : Chars} (h : getLine l line = some l') :
    (!l'.groups.isEmpty) = (!l.groups.isEmpty || decide (IsGroup line)) := by
  unfold getLine at h
  split at h
  case isTrue hv =>
    obtain rfl := Option.some.inj h
    simp [getVersion, IsGroup, hv, chV, chG]
  case isFalse =>
    split at h
    case isTrue hg =>
      obtain ⟨g, _, hg'⟩ := Option.bind_eq_some_iff.mp h
      obtain rfl := Option.some.inj hg'
      simp [IsGroup, hg]
    case isFalse hg =>
      have hnot : ¬ IsGroup line := hg
      split at h
      case isTrue =>
        cases hgroups : l.groups with
        | nil =>
          rw [hgroups] at h
          exact nomatch h
        | cons g gs =>
          rw [hgroups] at h
          obtain ⟨u, _, hu⟩ := Option.bind_eq_some_iff.mp h
          obtain rfl := Option.some.inj hu
          simp
      case isFalse =>
        obtain rfl := Option.some.inj h
        simp [hnot]

theorem foldlM_getLine_isSome_iff (l : MwSametimeList) (lines : List Chars) :
    (lines.foldlM getLine l).isSome ↔
      groupsFirstFrom (!l.groups.isEmpty) lines ∧ ∀ line ∈ lines, LineLoads line := by
  induction lines generalizing l with
  | nil => simp [groupsFirstFrom]
  | cons line lines ih =>
    have hline := getLine_isSome_iff l line
    rw [List.foldlM_cons, groupsFirstFrom]
    cases h : getLine l line with
    | none =>
      rw [h] at hline
      simp only [Option.isSome_none, Bool.false_eq_true, false_iff, not_and] at hline
      refine iff_of_false (by simp) fun hall => ?_
      exact hline hall.1.1 (hall.2 line List.mem_cons_self)
    | some l' =>
      rw [h] at hline
      have ⟨huser, hloads⟩ := hline.mp rfl
      refine (ih l').trans ?_
      rw [getLine_groups h, List.forall_mem_cons]
      exact ⟨fun ⟨hfirst, hall⟩ => ⟨⟨huser, hfirst⟩, hloads, hall⟩,
        fun ⟨⟨_, hfirst⟩, _, hall⟩ => ⟨hfirst, hall⟩⟩

/-- A list is loaded from a text unless it takes the loader outside. -/
theorem load_isSome_iff (t : Chars) : (mwSametimeListLoad t).isSome ↔ Loadable t := by
  unfold mwSametimeListLoad listGet
  rw [Option.isSome_map, foldlM_getLine_isSome_iff, groupsFirstFrom_iff]
  simp only [List.isEmpty_nil, Bool.not_true, Bool.false_eq_true, false_or]
  constructor
  · intro ⟨hfirst, hlines⟩
    exact ⟨hfirst, fun line h => (hlines line h).1, fun line h => (hlines line h).2⟩
  · intro h
    exact ⟨h.current, fun line hl => ⟨h.colons line hl, h.fits line hl⟩⟩

theorem parsesInside_iff_loadable (t : Chars) : ParsesInside t ↔ Loadable t := by
  constructor
  · intro h
    refine ⟨h.current, fun line hl huser => ?_, fun line hl hline => ?_⟩
    · have hsize := h.alloc line hl (.inr huser)
      exact ((userAccesses_inside_iff hsize).mp (h.user line hl huser)).2
    · have hsize := h.alloc line hl hline
      cases hline with
      | inl hgroup => exact (groupAccesses_inside_iff hsize).mp (h.group line hl hgroup)
      | inr huser => exact ((userAccesses_inside_iff hsize).mp (h.user line hl huser)).1
  · intro h
    refine ⟨remainders_end (Nat.le_refl _), fun s _ => fetchAccesses_inside s,
      fun line hl hline => (h.fits line hl hline).1,
      fun line hl hgroup => ?_, fun line hl huser => ?_, h.current⟩
    · have hfits := h.fits line hl (.inl hgroup)
      exact (groupAccesses_inside_iff hfits.1).mpr hfits
    · have hfits := h.fits line hl (.inr huser)
      exact (userAccesses_inside_iff hfits.1).mpr ⟨hfits, h.colons line hl huser⟩

/-- The loader stays inside of its strings and comes to the end of the text exactly for
the texts without the lines that take it outside, and it has a list for just these. -/
theorem parsesInside_iff (t : Chars) :
    (ParsesInside t ↔ Loadable t) ∧ ((mwSametimeListLoad t).isSome ↔ Loadable t) :=
  ⟨parsesInside_iff_loadable t, load_isSome_iff t⟩

/-- `"U a1:: b,"`, a user without a group -/
theorem not_parsesInside_user :
    ¬ ParsesInside [0x55, 0x20, 0x61, 0x31, 0x3a, 0x3a, 0x20, 0x62, 0x2c] := by
  intro h
  obtain ⟨g, hg, _⟩ := h.current [] [0x55, 0x20, 0x61, 0x31, 0x3a, 0x3a, 0x20, 0x62, 0x2c] []
    (by decide +kernel) (by decide)
  exact nomatch hg

/-! ## Lines that are no longer than an `int` can say -/

theorem bufferSize_of_lt {line : Chars} (h : line.length < 2 ^ 31) :
    bufferSize line = line.length := by
  unfold bufferSize
  rw [BitVec.toInt_eq_toNat_cond, BitVec.toNat_ofNat]
  split <;> omega

theorem scanS_length {s field rest : Chars} (h : scanS s = some (field, rest)) :
    field.length + rest.length ≤ s.length := by
  dsimp only [scanS] at h
  split at h
  · exact nomatch h
  · obtain ⟨rfl, rfl⟩ := Prod.mk.inj (Option.some.inj h)
    have hskip := (List.dropWhile_sublist (l := s) isSpace).length_le
    have hsplit := congrArg List.length
      (List.takeWhile_append_dropWhile (p := fun c => !isSpace c) (l := skipSpace s))
    rw [List.length_append] at hsplit
    rw [hsplit]
    exact hskip

/-- The fields of a line are shorter than the line, by its first character at least. -/
theorem scanFields_length {line : Chars} (hne : line ≠ []) :
    ((scanFields line).1.getD []).length + ((scanFields line).2.1.getD []).length <
      line.length := by
  cases line with
  | nil => exact absurd rfl hne
  | cons c cs =>
    unfold scanFields
    rw [List.drop_one, List.tail_cons, List.length_cons]
    cases hfirst : scanS cs with
    | none => exact Nat.succ_pos _
    | some r =>
      have hlen := scanS_length hfirst
      cases hsecond : scanS r.2 with
      | none =>
        dsimp only
        rw [hsecond]
        simp only [Option.getD_some, Option.getD_none, List.length_nil]
        omega
      | some r' =>
        have hlen' := scanS_length hsecond
        dsimp only
        rw [hsecond]
        simp only [Option.getD_some]
        omega

theorem fits_of_lt {line : Chars} (h : line.length < 2 ^ 31) : Fits line := by
  have hsize := bufferSize_of_lt h
  refine ⟨by omega, fun s hs => ?_, fun s hs => ?_⟩
  all_goals
    have hne : line ≠ [] := by
      rintro rfl
      exact nomatch hs
    have hlen := scanFields_length hne
    rw [hs, Option.getD_some] at hlen
    omega

end Meanwhile.StList
