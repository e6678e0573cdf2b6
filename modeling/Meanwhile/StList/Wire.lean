-- SUMMARY: Lists written to a buffer and read back, and what is lost of a text that is too long for its length word.
import Meanwhile.StList.Stable
import Meanwhile.Common.Reading
import Mathlib.Algebra.Order.BigOperators.Group.List

/-!
# Lists in buffers

`mwSametimeList_put` counts the stored text in 16 bits and writes as much of it as it has
counted. What comes back is the list of the text without the rest. A list whose entries
are loaded from their own lines is longer than that: each of its lines counts for its
entry, and the line that is cut for as much as is left of it.
-/

namespace Meanwhile.StList

/-! ## Writing and reading -/

/-- `mwSametimeList_put`: `len` is the length in 16 bits. -/
def mwSametimeListPut (l : MwSametimeList) : List UInt8 :=
  let str := mwSametimeListStore l
  let len := UInt16.ofNat str.length
  guint16Put len ++ str.take len.toNat

/-- `mwSametimeList_get` into a new list -/
def mwSametimeListGet : Get (Option MwSametimeList) := do
  match ← mwStringGet with
  | none => return some {}
  | some str => return mwSametimeListLoad str.val

/-- Reading back what was written gives the list that the stored text does, and ends where
the writing ended. -/
def ComesBack (l : MwSametimeList) : Prop :=
  ∀ pre post, mwSametimeListGet (.between pre (mwSametimeListPut l ++ post)) =
    (mwSametimeListLoad (mwSametimeListStore l), .between (pre ++ mwSametimeListPut l) post)

def NoNul (str : Option Chars) : Prop := ∀ s, str = some s → 0 ∉ s

/-- All strings end where they should. -/
def MwSametimeList.NoNuls (l : MwSametimeList) : Prop :=
  ∀ g ∈ l.groups, NoNul g.name ∧ NoNul g.alias_ ∧
    ∀ u ∈ g.users, NoNul u.id ∧ NoNul u.name ∧ NoNul u.alias_

/-! ## Characters of a stored text -/

theorem NoNul.packed {str : Option Chars} (h : NoNul str) : NoNul (packed str) := by
  intro s hs
  obtain ⟨t, rfl, rfl⟩ := Option.map_eq_some_iff.mp hs
  intro hmem
  obtain ⟨c, hc, hzero⟩ := List.mem_map.mp hmem
  split at hzero
  · exact nomatch hzero
  · exact h t rfl (hzero ▸ hc)

theorem NoNul.printS {str : Option Chars} (h : NoNul str) : 0 ∉ printS str := by
  cases str with
  | none => decide
  | some s => exact h s rfl

theorem NoNul.getD {str : Option Chars} (h : NoNul str) : 0 ∉ str.getD [] := by
  cases str with
  | none => exact List.not_mem_nil
  | some s => exact h s rfl

theorem printU_noNul (n : UInt32) : 0 ∉ printU n := by
  obtain ⟨ds, hlt, -, -, hprint⟩ := printU_eq n
  rw [hprint]
  intro hmem
  obtain ⟨d, hd, hzero⟩ := List.mem_map.mp hmem
  have hdigit := digitOf_isDigit d (hlt d (List.mem_reverse.mp hd))
  rw [hzero] at hdigit
  exact nomatch hdigit

theorem versionLine_noNul (l : MwSametimeList) : 0 ∉ versionLine l := by
  have hliteral : 0 ∉ versionLiteral := by decide
  have hdot : (0 : UInt8) ≠ chDot := by decide
  simp [versionLine, hliteral, hdot, printU_noNul]

theorem groupLine_noNul {g : MwSametimeGroup} (hname : NoNul g.name) (halias : NoNul g.alias_) :
    0 ∉ groupLine g := by
  have hshown : NoNul (if g.alias_.isSome then g.alias_ else g.name) := by
    split
    · exact halias
    · exact hname
  have htype : (0 : UInt8) ∉ [groupTypeToChar g.type, chSpace] := by cases g.type <;> decide
  have hopen : (0 : UInt8) ∉ [chSpace, if g.open_ then chO else chC] := by cases g.open_ <;> decide
  have hhead : (0 : UInt8) ∉ [chG, chSpace] := by decide
  unfold groupLine
  dsimp only
  simp only [List.mem_append, not_or]
  exact ⟨⟨⟨⟨hhead, hname.packed.printS⟩, htype⟩, hshown.packed.printS⟩, hopen⟩

theorem userLine_noNul {u : MwSametimeUser} (hid : NoNul u.id) (hname : NoNul u.name)
    (halias : NoNul u.alias_) : 0 ∉ userLine u := by
  have htype : (0 : UInt8) ∉ [userTypeToChar u.type, chColon, chColon, chSpace] := by
    cases u.type <;> decide
  have hhead : (0 : UInt8) ∉ [chU, chSpace] := by decide
  have hcomma : (0 : UInt8) ∉ [chComma] := by decide
  have hnone : NoNul none := fun s hs => nomatch hs
  unfold userLine
  dsimp only
  simp only [List.mem_append, not_or]
  refine ⟨⟨⟨⟨⟨hhead, hid.packed.printS⟩, htype⟩, ?_⟩, hcomma⟩, ?_⟩
  · split
    · exact halias.packed.getD
    · exact hname.packed.getD
  · split
    · exact hnone.getD
    · exact halias.packed.getD

theorem store_noNul {l : MwSametimeList} (h : l.NoNuls) : 0 ∉ mwSametimeListStore l := by
  have hend : (0 : UInt8) ∉ [chCr, chLf] := by decide
  intro hmem
  obtain ⟨line, hline, hzero⟩ := List.mem_flatMap.mp hmem
  refine (List.mem_append.mp hzero).elim (fun hzero => ?_) hend
  unfold listLines groupLines at hline
  simp only [List.mem_cons, List.mem_flatMap, List.mem_map] at hline
  obtain rfl | ⟨g, hg, rfl | ⟨u, hu, rfl⟩⟩ := hline
  · exact versionLine_noNul l hzero
  · exact groupLine_noNul (h g hg).1 (h g hg).2.1 hzero
  · obtain ⟨hid, hname, halias⟩ := (h g hg).2.2 u hu
    exact userLine_noNul hid hname halias hzero

/-! ## What comes back -/

theorem get_put {l : MwSametimeList} (h : l.NoNuls) (pre post : List UInt8) :
    mwSametimeListGet (.between pre (mwSametimeListPut l ++ post)) =
      (mwSametimeListLoad ((mwSametimeListStore l).take ((mwSametimeListStore l).length % 2 ^ 16)),
        .between (pre ++ mwSametimeListPut l) post) := by
  let str := mwSametimeListStore l
  have hlen : (UInt16.ofNat str.length).toNat = str.length % 2 ^ 16 := UInt16.toNat_ofNat'
  have hle : str.length % 2 ^ 16 ≤ str.length := Nat.mod_le _ _
  have hnul : 0 ∉ str.take (str.length % 2 ^ 16) := fun hz => store_noNul h (List.mem_of_mem_take hz)
  -- the counted part is a string that fits its length word
  let part : CString := ⟨str.take (str.length % 2 ^ 16), hnul⟩
  have hpart : part.val.length = str.length % 2 ^ 16 := by
    rw [List.length_take, Nat.min_eq_left hle]
  have hword : UInt16.ofNat part.val.length = UInt16.ofNat str.length := by
    rw [hpart, ← hlen, UInt16.ofNat_toNat]
  have hput : mwSametimeListPut l = mwStringPut (some part) := by
    change guint16Put _ ++ str.take (UInt16.ofNat str.length).toNat = guint16Put _ ++ part.val
    rw [hlen]
    exact congrArg (guint16Put · ++ part.val) hword.symm
  have hfits : MwString.Fits (some part) := by
    have hlt := Nat.mod_lt str.length (y := 2 ^ 16) (by decide)
    change part.val.length ≤ 65535
    omega
  unfold mwSametimeListGet
  rw [Get.bind_apply, hput, mwStringGet_between hfits]
  unfold MwString.canon
  by_cases hnil : part.val = []
  · simp only [hnil, if_true]
    change (some {}, _) = (mwSametimeListLoad part.val, _)
    rw [hnil]
    rfl
  · simp only [hnil, if_false]
    rfl

/-! ## Lines that are cut -/

/-- The length of a stored text, by its lines -/
def storedLength (lines : List Chars) : Nat := (lines.map fun line => line.length + 2).sum

theorem length_stored (lines : List Chars) :
    (lines.flatMap (· ++ [chCr, chLf])).length = storedLength lines := by
  simp [storedLength, List.length_flatMap]

theorem fetchLines_nil (fuel : Nat) : fetchLines fuel [] = [] := by
  cases fuel <;> rfl

/-- A line at the end of a text, without its own end -/
theorem fetchLine_last {line : Chars} (h : IsLine line) : fetchLine line = some (line, []) := by
  obtain ⟨c, cs, rfl, hc⟩ := h.head
  have hin : ∀ c ∈ cs, (!(decide (c = chLf) || decide (c = chCr))) = true := by
    intro c hc
    have := h.inside c (List.mem_cons_of_mem _ hc)
    simp [this]
  unfold fetchLine
  rw [List.dropWhile_cons_of_neg (by simp [hc])]
  dsimp only
  rw [List.takeWhile_eq_self_iff.mpr hin, List.dropWhile_eq_nil_iff.mpr hin]
  rfl

theorem IsLine.take {line : Chars} (h : IsLine line) (n : Nat) : IsLine (line.take (n + 1)) := by
  obtain ⟨c, cs, rfl, hc⟩ := h.head
  exact ⟨⟨c, cs.take n, rfl, hc⟩, fun d hd => h.inside d (List.mem_of_mem_take hd)⟩

/-- The start of a stored text has the first lines, and at most one more that is cut. -/
theorem fetchLines_take {lines : List Chars} (h : ∀ line ∈ lines, IsLine line) (n : Nat)
    {fuel : Nat} (hfuel : n ≤ fuel) :
    ∃ done rest part, lines = done ++ rest ∧ part.length ≤ 1 ∧
      fetchLines fuel ((lines.flatMap (· ++ [chCr, chLf])).take n) = done ++ part ∧
      storedLength done + (part.map List.length).sum ≤ n + 1 := by
  induction lines generalizing n fuel with
  | nil => exact ⟨[], [], [], rfl, Nat.zero_le _, by simp [fetchLines_nil], Nat.zero_le _⟩
  | cons line lines ih =>
    have hline := h line List.mem_cons_self
    have htext : (line :: lines).flatMap (· ++ [chCr, chLf]) =
        line ++ chCr :: chLf :: lines.flatMap (· ++ [chCr, chLf]) := by simp
    rw [htext]
    by_cases hcut : n ≤ line.length
    · -- the text ends in this line
      rw [List.take_append_of_le_length hcut]
      cases n with
      | zero => exact ⟨[], line :: lines, [], rfl, Nat.zero_le _, fetchLines_nil fuel, Nat.zero_le _⟩
      | succ n =>
        obtain ⟨fuel, rfl⟩ := Nat.exists_eq_succ_of_ne_zero (Nat.ne_of_gt (Nat.lt_of_lt_of_le n.succ_pos hfuel))
        refine ⟨[], line :: lines, [line.take (n + 1)], rfl, Nat.le_refl _, ?_, ?_⟩
        · rw [fetchLines, fetchLine_last (hline.take n)]
          exact congrArg (line.take (n + 1) :: ·) (fetchLines_nil fuel)
        · simp [storedLength]
    · obtain ⟨k, rfl⟩ := Nat.exists_eq_add_of_lt (Nat.lt_of_not_le hcut)
      obtain ⟨fuel, rfl⟩ := Nat.exists_eq_succ_of_ne_zero (n := fuel) (by omega)
      have hpos : 0 < line.length := by
        obtain ⟨c, cs, rfl, -⟩ := hline.head
        exact Nat.succ_pos _
      have htake : (line ++ chCr :: chLf :: lines.flatMap (· ++ [chCr, chLf])).take
            (line.length + k + 1) =
          line ++ chCr :: (chLf :: lines.flatMap (· ++ [chCr, chLf])).take k := by
        rw [Nat.add_assoc, List.take_length_add_append, List.take_succ_cons]
      rw [htake, fetchLines, fetchLine_line hline]
      dsimp only
      cases k with
      | zero =>
        refine ⟨[line], lines, [], rfl, Nat.zero_le _, ?_, ?_⟩
        · exact congrArg (line :: ·) (fetchLines_nil fuel)
        · simp [storedLength]
      | succ k =>
        obtain ⟨done, rest, part, hlines, hpart, hfetch, hlen⟩ :=
          ih (fun line hl => h line (List.mem_cons_of_mem _ hl)) k (show k ≤ fuel by omega)
        refine ⟨line :: done, rest, part, congrArg (line :: ·) hlines, hpart, ?_, ?_⟩
        · rw [List.take_succ_cons, fetchLines_lf, hfetch]
          rfl
        · simp only [storedLength, List.map_cons, List.sum_cons] at hlen ⊢
          omega

/-! ## What a line counts for -/

/-- The length of the lines that groups are stored as -/
def entriesLength (gs : List MwSametimeGroup) : Nat :=
  (gs.map fun g => storedLength (groupLines g)).sum

/-- The length of the line that the entry of a line is stored as -/
def entryLength (line : Chars) : Nat :=
  if line.head? = some chG then ((getGroup line).map fun g => (groupLine g).length + 2).getD 0
  else if line.head? = some chU then ((getUser line).map fun u => (userLine u).length + 2).getD 0
  else 0

theorem entriesLength_getLine {l l' : MwSametimeList} {line : Chars} (h : getLine l line = some l') :
    entriesLength l'.groups = entriesLength l.groups + entryLength line := by
  unfold getLine at h
  unfold entryLength
  split at h
  case isTrue hv =>
    obtain rfl := Option.some.inj h
    rw [hv, if_neg (by decide), if_neg (by decide)]
    rfl
  case isFalse =>
    split at h
    case isTrue hg =>
      obtain ⟨g, hload, h⟩ := Option.bind_eq_some_iff.mp h
      obtain rfl := Option.some.inj h
      rw [if_pos hg, hload]
      have husers := getGroup_users hload
      simp [entriesLength, storedLength, groupLines, husers]
      omega
    case isFalse hg =>
      rw [if_neg hg]
      split at h
      case isTrue hu =>
        rw [if_pos hu]
        cases hgroups : l.groups with
        | nil =>
          rw [hgroups] at h
          exact nomatch h
        | cons g gs =>
          rw [hgroups] at h
          obtain ⟨u, hload, h⟩ := Option.bind_eq_some_iff.mp h
          obtain rfl := Option.some.inj h
          have hline : groupLine { g with users := g.users ++ [u] } = groupLine g := rfl
          rw [hload]
          simp [entriesLength, storedLength, groupLines, hline]
          omega
      case isFalse hu =>
        obtain rfl := Option.some.inj h
        rw [if_neg hu]
        rfl

theorem entriesLength_foldlM {l l' : MwSametimeList} {lines : List Chars}
    (h : lines.foldlM getLine l = some l') :
    entriesLength l'.groups = entriesLength l.groups + (lines.map entryLength).sum := by
  induction lines generalizing l with
  | nil =>
    obtain rfl := Option.some.inj h
    rfl
  | cons line lines ih =>
    rw [List.foldlM_cons] at h
    obtain ⟨l1, hline, hlines⟩ := Option.bind_eq_some_iff.mp h
    rw [ih hlines, entriesLength_getLine hline, List.map_cons, List.sum_cons, Nat.add_assoc]

/-- Each line of a text counts for its entry in the list that is loaded. -/
theorem entriesLength_load {t : Chars} {l : MwSametimeList} (h : mwSametimeListLoad t = some l) :
    entriesLength l.groups = ((linesOf t).map entryLength).sum := by
  obtain ⟨l', hlist, rfl⟩ := Option.map_eq_some_iff.mp h
  have hlen := entriesLength_foldlM hlist
  unfold entriesLength at hlen ⊢
  rw [List.map_reverse, List.sum_reverse, hlen]
  simp

theorem splitType_length (s : Chars) : ∃ t, (splitType (some s)).1 = some t ∧ t.length ≤ s.length := by
  unfold splitType
  rw [Option.bind_some]
  cases s.getLast? with
  | none => exact ⟨s, rfl, Nat.le_refl _⟩
  | some type => exact ⟨s.dropLast, rfl, by simp⟩

theorem groupLine_length_le {line : Chars} {g : MwSametimeGroup} (h : getGroup line = some g)
    (hne : line ≠ []) : (groupLine g).length ≤ line.length + 18 := by
  obtain ⟨hname, halias, -⟩ := getGroup_spec h
  have hlt : (firstField line).length + (secondField line).length < line.length :=
    scanFields_length hne
  rw [groupLine_length]
  unfold MwSametimeGroup.shownAlias
  unfold block at hname halias
  by_cases hsize : bufferSize line = 0
  · -- both blocks are `NULL`, and are stored as such
    rw [if_pos hsize] at hname halias
    rw [hname, halias]
    have hnull : (printS none).length = 6 := rfl
    change 6 + (printS none).length + (printS none).length ≤ _
    omega
  · rw [if_neg hsize] at hname halias
    obtain ⟨t, ht, hlen⟩ := splitType_length (unpack (firstField line))
    have hname' : g.name = some t := hname.trans ht
    have halias' : g.alias_ = some (unpack (secondField line)) := halias
    rw [hname', halias']
    change 6 + t.length + (unpack (secondField line)).length ≤ _
    rw [unpack_length] at hlen ⊢
    omega

theorem userLine_length_le {line : Chars} {u : MwSametimeUser} (h : getUser line = some u)
    (hne : line ≠ []) : (userLine u).length ≤ line.length + 18 := by
  have hlt : (firstField line).length + (secondField line).length < line.length :=
    scanFields_length hne
  by_cases hsize : bufferSize line = 0
  · obtain rfl := getUser_null h hsize
    have hnull : (userLine {}).length ≤ 18 := by decide
    omega
  · have hlen := (getUser_loaded h hsize).2.2
    have hid := idLength_le (firstField line)
    have hname := nameLength_le (secondField line)
    omega

/-- A line is not much shorter than the one that its entry is stored as. -/
theorem entryLength_le (line : Chars) : entryLength line ≤ line.length + 20 := by
  have hne : ∀ c, line.head? = some c → line ≠ [] := by
    rintro c hc rfl
    exact nomatch hc
  unfold entryLength
  split
  case isTrue hg =>
    cases hload : getGroup line with
    | none => exact Nat.zero_le _
    | some g => exact Nat.add_le_add_right (groupLine_length_le hload (hne _ hg)) 2
  case isFalse =>
    split
    case isTrue hu =>
      cases hload : getUser line with
      | none => exact Nat.zero_le _
      | some u => exact Nat.add_le_add_right (userLine_length_le hload (hne _ hu)) 2
    case isFalse => exact Nat.zero_le _

/-! ## Lists of plain strings -/

/-- A list whose entries are loaded from their own lines -/
structure MwSametimeList.Plain (l : MwSametimeList) : Prop where
  clean : l.CleanStrings
  colons : ∀ g ∈ l.groups, ∀ u ∈ g.users, ¬ [chColon, chColon] <:+: printS u.id
  short : ∀ line ∈ listLines l, line.length < 2 ^ 31

theorem firstField_groupLine {g : MwSametimeGroup} (h : g.CleanStrings) :
    firstField (groupLine g) = groupFirst g ∧
      g.shownAlias.length ≤ (secondField (groupLine g)).length := by
  unfold firstField secondField
  by_cases hnil : g.shownAlias = []
  · rw [scanFields_groupLine_nil h hnil, hnil]
    exact ⟨rfl, Nat.zero_le _⟩
  · rw [scanFields_groupLine h hnil]
    exact ⟨rfl, Nat.le_of_eq (pack_length _).symm⟩

/-- The line of a group counts for all of it. -/
theorem le_entryLength_groupLine {g : MwSametimeGroup} (h : g.CleanStrings)
    (hlen : (groupLine g).length < 2 ^ 31) :
    (groupLine g).length + 2 ≤ entryLength (groupLine g) := by
  obtain ⟨g', hload⟩ := Option.isSome_iff_exists.mp ((getGroup_isSome_iff _).mpr (fits_of_lt hlen))
  obtain ⟨hname, halias, -⟩ := getGroup_spec hload
  obtain ⟨hfirst, hsecond⟩ := firstField_groupLine h
  have hsize : bufferSize (groupLine g) ≠ 0 := by
    rw [bufferSize_of_lt hlen, groupLine_length]
    omega
  unfold block at hname halias
  rw [if_neg hsize] at hname halias
  have hname' : g'.name = some (printS g.name) := by
    rw [hname, hfirst]
    change (splitType (some (unpack (groupFirst g)))).1 = _
    rw [unpack_groupFirst h]
    simp [splitType]
  have halias' : g'.alias_ = some (unpack (secondField (groupLine g))) := halias
  unfold entryLength
  rw [if_pos (groupLine_head g), hload, Option.map_some, Option.getD_some, groupLine_length,
    groupLine_length]
  unfold MwSametimeGroup.shownAlias at hsecond ⊢
  rw [hname', halias']
  change _ ≤ 6 + (printS g.name).length + (unpack (secondField (groupLine g))).length + 2
  rw [unpack_length]
  omega

/-- The line of a user counts for all of it when the id has no colons that the loader
takes for its end. -/
theorem le_entryLength_userLine {u : MwSametimeUser} (h : u.CleanStrings)
    (hcolons : ¬ [chColon, chColon] <:+: printS u.id) (hlen : (userLine u).length < 2 ^ 31) :
    (userLine u).length + 2 ≤ entryLength (userLine u) := by
  have hscan := scanFields_userLine h
  have hnone := (beforeColons_eq_none_iff _).mpr hcolons
  have htype : userTypeToChar u.type ≠ chColon := by cases u.type <;> decide
  have hbefore : beforeColons (unpack (userFirst u)) =
      some (printS u.id ++ [userTypeToChar u.type]) := by
    rw [unpack_userFirst h]
    exact beforeColons_append hnone htype
  have hfirst : firstField (userLine u) = userFirst u := by rw [firstField, hscan]; rfl
  have hsecond : secondField (userLine u) = userSecond u := by rw [secondField, hscan]; rfl
  have hload : (getUser (userLine u)).isSome := by
    rw [getUser_isSome_iff]
    refine ⟨fits_of_lt hlen, ?_⟩
    unfold ColonsFirst
    rw [← colonsFirst_iff, hscan]
    change beforeColons (unpack (userFirst u)) ≠ some []
    rw [hbefore]
    simp
  obtain ⟨u', hload⟩ := Option.isSome_iff_exists.mp hload
  have hsize : bufferSize (userLine u) ≠ 0 := by
    rw [bufferSize_of_lt hlen, userLine_length]
    omega
  have hcount := (getUser_loaded hload hsize).2.2
  have hid : idLength (userFirst u) = (printS u.id).length := by
    rw [beforeColons_unpack] at hbefore
    obtain ⟨before, hbefore, hunpack⟩ := Option.map_eq_some_iff.mp hbefore
    have hlen := congrArg List.length hunpack
    unfold idLength
    rw [hbefore]
    simp at hlen ⊢
    omega
  have hname : nameLength (userSecond u) = u.shownName.length + u.shownAlias.length := by
    unfold nameLength userSecond
    rw [if_pos (by simp)]
    simp
  unfold entryLength
  rw [if_neg (by rw [userLine_head]; decide), if_pos (userLine_head u), hload, Option.map_some,
    Option.getD_some, hcount, hfirst, hsecond, hid, hname, userLine_length]

theorem mapM_isSome {α β : Type} {f : α → Option β} {xs : List α} (h : ∀ x ∈ xs, (f x).isSome) :
    (xs.mapM f).isSome := by
  induction xs with
  | nil => rfl
  | cons x xs ih =>
    obtain ⟨y, hy⟩ := Option.isSome_iff_exists.mp (h x List.mem_cons_self)
    obtain ⟨ys, hys⟩ := Option.isSome_iff_exists.mp (ih fun x hx => h x (List.mem_cons_of_mem _ hx))
    rw [List.mapM_cons, hy, hys]
    rfl

variable {l : MwSametimeList}

/-- All but the version counts for itself. -/
theorem MwSametimeList.Plain.le_entryLength (h : l.Plain) :
    ∀ line ∈ l.groups.flatMap groupLines, line.length + 2 ≤ entryLength line := by
  intro line hline
  have hshort := h.short line (List.mem_cons_of_mem _ hline)
  unfold groupLines at hline
  simp only [List.mem_flatMap, List.mem_cons, List.mem_map] at hline
  obtain ⟨g, hg, rfl | ⟨u, hu, rfl⟩⟩ := hline
  · exact le_entryLength_groupLine (h.clean g hg).1 hshort
  · exact le_entryLength_userLine ((h.clean g hg).2 u hu) (h.colons g hg u hu) hshort

theorem storedLength_le {lines : List Chars}
    (h : ∀ line ∈ lines, line.length + 2 ≤ entryLength line) :
    storedLength lines ≤ (lines.map entryLength).sum :=
  List.sum_le_sum h

/-- An entry that counts for something has been loaded. -/
theorem isSome_of_entryLength {line : Chars} (h : 0 < entryLength line) :
    (line.head? = some chG → (getGroup line).isSome) ∧
      (line.head? = some chU → (getUser line).isSome) := by
  unfold entryLength at h
  constructor
  · intro hg
    rw [if_pos hg] at h
    cases hload : getGroup line with
    | none => exact absurd h (by simp [hload])
    | some g => rfl
  · intro hu
    rw [if_neg (by rw [hu]; decide), if_pos hu] at h
    cases hload : getUser line with
    | none => exact absurd h (by simp [hload])
    | some u => rfl

theorem MwSametimeList.Plain.loads (h : l.Plain) :
    ∃ l', mwSametimeListLoad (mwSametimeListStore l) = some l' := by
  have hload : ∀ line ∈ l.groups.flatMap groupLines, 0 < entryLength line := fun line hline =>
    Nat.lt_of_lt_of_le (Nat.succ_pos _) (h.le_entryLength line hline)
  have hgroups : (l.groups.mapM reloadGroup).isSome := by
    refine mapM_isSome fun g hg => ?_
    have hmem : ∀ line ∈ groupLines g, 0 < entryLength line := fun line hline =>
      hload line (List.mem_flatMap.mpr ⟨g, hg, hline⟩)
    have hgroup := (isSome_of_entryLength (hmem _ List.mem_cons_self)).1 (groupLine_head g)
    obtain ⟨g', hg'⟩ := Option.isSome_iff_exists.mp hgroup
    have husers : (g.users.mapM reloadUser).isSome := mapM_isSome fun u hu =>
      (isSome_of_entryLength (hmem _ (List.mem_cons_of_mem _ (List.mem_map_of_mem hu)))).2
        (userLine_head u)
    obtain ⟨us, hus⟩ := Option.isSome_iff_exists.mp husers
    unfold reloadGroup
    rw [hg', hus]
    rfl
  obtain ⟨gs, hgs⟩ := Option.isSome_iff_exists.mp hgroups
  exact ⟨{ l with groups := gs }, by rw [load_store h.clean, hgs]; rfl⟩

theorem printU_length (n : UInt32) : (printU n).length ≤ 10 := by
  unfold printU
  split
  · decide
  · rw [List.length_map, List.length_reverse, Nat.digits_length_le_iff (by decide)]
    exact Nat.lt_trans n.toNat_lt (by decide)

theorem versionLine_length (l : MwSametimeList) : (versionLine l).length ≤ 40 := by
  have hmajor := printU_length l.verMajor
  have hminor := printU_length l.verMinor
  have hmicro := printU_length l.verMicro
  have hliteral : versionLiteral.length = 8 := rfl
  simp only [versionLine, List.length_append, List.length_singleton]
  omega

/-- The list of a text that is cut by much is another one. -/
theorem MwSametimeList.Plain.load_take_ne (h : l.Plain) {n : Nat}
    (hn : n + 100 ≤ (mwSametimeListStore l).length) :
    mwSametimeListLoad ((mwSametimeListStore l).take n) ≠
      mwSametimeListLoad (mwSametimeListStore l) := by
  intro heq
  obtain ⟨l', hload⟩ := h.loads
  have hall := entriesLength_load hload
  have hcut := entriesLength_load (heq.trans hload)
  rw [linesOf_store (listLines_isLine h.clean)] at hall
  have htake : (mwSametimeListStore l).take n = ((listLines l).flatMap (· ++ [chCr, chLf])).take n :=
    rfl
  have hfuel : ((mwSametimeListStore l).take n).length = n := by
    rw [List.length_take]
    omega
  obtain ⟨done, rest, part, hlines, hpart, hfetch, hlen⟩ :=
    fetchLines_take (listLines_isLine h.clean) n (Nat.le_refl n)
  unfold linesOf at hcut
  rw [hfuel, htake, hfetch, List.map_append, List.sum_append] at hcut
  rw [hlines, List.map_append, List.sum_append] at hall
  -- what is lost counts for nearly all of its length
  have hrest : storedLength rest ≤ (rest.map entryLength).sum + 42 := by
    cases done with
    | nil =>
      have hlost := storedLength_le h.le_entryLength
      have hversion := versionLine_length l
      obtain rfl : listLines l = rest := hlines
      unfold listLines
      rw [List.map_cons, List.sum_cons]
      simp only [storedLength, List.map_cons, List.sum_cons] at hlost ⊢
      omega
    | cons line done =>
      obtain ⟨-, hlines⟩ := List.cons.inj hlines
      have hlost : storedLength rest ≤ (rest.map entryLength).sum := storedLength_le fun line hline =>
        h.le_entryLength line (hlines ▸ List.mem_append_right _ hline)
      omega
  -- and what is left of the last line for little more than its own
  have hlast : (part.map entryLength).sum ≤ (part.map List.length).sum + 20 := by
    match part, hpart with
    | [], _ => exact Nat.zero_le _
    | [line], _ =>
      have hle := entryLength_le line
      simpa using hle
  have htotal : (mwSametimeListStore l).length = storedLength done + storedLength rest := by
    change ((listLines l).flatMap (· ++ [chCr, chLf])).length = _
    rw [length_stored, hlines]
    simp [storedLength]
  omega

theorem comesBack_of_short (h : l.NoNuls) (hlen : (mwSametimeListStore l).length ≤ 65535) :
    ComesBack l := by
  intro pre post
  have hmod : (mwSametimeListStore l).length % 2 ^ 16 = (mwSametimeListStore l).length :=
    Nat.mod_eq_of_lt (Nat.lt_succ_of_le hlen)
  rw [get_put h, hmod, List.take_length]

theorem MwSametimeList.Plain.not_comesBack (h : l.Plain) (hnul : l.NoNuls)
    (hlong : 65535 < (mwSametimeListStore l).length) : ¬ ComesBack l := by
  intro hback
  have hsame := (get_put hnul [] []).symm.trans (hback [] [])
  have hcut : (mwSametimeListStore l).length % 2 ^ 16 + 100 ≤ (mwSametimeListStore l).length := by
    omega
  exact h.load_take_ne hcut (Prod.mk.inj hsame).1

/-- A list comes back if its text fits its length word, and a plain list only then. -/
theorem comesBack_iff (h : l.NoNuls) :
    ((mwSametimeListStore l).length ≤ 65535 → ComesBack l) ∧
      (l.Plain → ComesBack l → (mwSametimeListStore l).length ≤ 65535) := by
  refine ⟨comesBack_of_short h, fun hplain hback => ?_⟩
  by_contra hlong
  exact hplain.not_comesBack h (by omega) hback

/-- A group without users -/
def oneGroup (name : Chars) : MwSametimeList := { groups := [{ name := some name }] }

theorem oneGroup_noNuls {name : Chars} (h : 0 ∉ name) : (oneGroup name).NoNuls := by
  intro g hg
  obtain rfl := List.mem_singleton.mp hg
  refine ⟨fun s hs => ?_, fun s hs => (nomatch hs), fun u hu => (nomatch hu)⟩
  obtain rfl := Option.some.inj hs
  exact h

theorem oneGroup_plain {name : Chars} (hclean : CleanChars name) (hlen : 2 * name.length < 2 ^ 30) :
    (oneGroup name).Plain := by
  refine ⟨fun g hg => ?_, fun g hg u hu => ?_, fun line hline => ?_⟩
  · obtain rfl := List.mem_singleton.mp hg
    refine ⟨⟨fun s hs => ?_, fun s hs => (nomatch hs)⟩, fun u hu => (nomatch hu)⟩
    obtain rfl := Option.some.inj hs
    exact hclean
  · obtain rfl := List.mem_singleton.mp hg
    exact nomatch hu
  · rcases List.mem_cons.mp hline with rfl | hline
    · exact Nat.lt_of_le_of_lt (versionLine_length _) (by decide)
    · obtain rfl := List.mem_singleton.mp hline
      rw [groupLine_length]
      change 6 + name.length + name.length < 2 ^ 31
      omega

/-- `'A'`, 65536 times over -/
def longName : Chars := List.replicate 65536 0x41

theorem longName_clean : CleanChars longName := by
  intro c hc
  obtain rfl := List.eq_of_mem_replicate hc
  decide

theorem comesBack_iff_short : ComesBack (oneGroup [0x41]) :=
  (comesBack_iff (oneGroup_noNuls (by decide))).1 (by decide +kernel)

/-- Another group comes back than the one with the long name. -/
theorem not_comesBack_longName : ¬ ∀ l : MwSametimeList, l.NoNuls → ComesBack l := by
  intro hall
  have hlen : longName.length = 65536 := List.length_replicate
  have hnul : (0 : UInt8) ∉ longName := fun h => absurd (List.eq_of_mem_replicate h) (by decide)
  have hplain := oneGroup_plain longName_clean (by rw [hlen]; decide)
  refine hplain.not_comesBack (oneGroup_noNuls hnul) ?_ (hall _ (oneGroup_noNuls hnul))
  have htext : mwSametimeListStore (oneGroup longName) =
      versionLine (oneGroup longName) ++ [chCr, chLf] ++
        (groupLine { name := some longName } ++ [chCr, chLf]) := by
    simp [mwSametimeListStore, listLines, groupLines, oneGroup]
  have hname : (printS (some longName)).length = 65536 := hlen
  rw [htext, List.length_append, List.length_append, List.length_append, groupLine_length]
  dsimp only
  omega

end Meanwhile.StList
