-- SUMMARY: Reading back what storing wrote: fields, numbers, the version, and the cut into lines.
import Meanwhile.StList

/-!
# Stored lines

A stored text is cut into the lines it was put together from, since none of them has an
end of line in it or begins with a blank. A field without blanks is scanned as a whole,
and a number is scanned as it was printed.
-/

namespace Meanwhile.StList

/-! ## Scanning to a stop -/

section Scanning

variable {α : Type} {p : α → Bool} {s rest : List α}

theorem takeWhile_stop (h : ∀ c ∈ s, p c = true) (hrest : ∀ c, rest.head? = some c → p c = false) :
    (s ++ rest).takeWhile p = s := by
  rw [List.takeWhile_append_of_pos h]
  cases rest with
  | nil => simp
  | cons c cs => simp [hrest c rfl]

theorem dropWhile_stop (h : ∀ c ∈ s, p c = true) (hrest : ∀ c, rest.head? = some c → p c = false) :
    (s ++ rest).dropWhile p = rest := by
  rw [List.dropWhile_append_of_pos h]
  cases rest with
  | nil => rfl
  | cons c cs => rw [List.dropWhile_cons_of_neg (by simp [hrest c rfl])]

end Scanning

/-! ## Fields -/

/-- No white space at all, so that `%s` takes it as a whole -/
def Solid (s : Chars) : Prop := ∀ c ∈ s, isSpace c = false

instance (s : Chars) : Decidable (Solid s) :=
  decidable_of_iff (s.all (!isSpace ·) = true) (by simp [Solid])

/-- The blank as the only white space, so that it is all in one line -/
def OnlyBlanks (s : Chars) : Prop := ∀ c ∈ s, isSpace c = true → c = chSpace

instance (s : Chars) : Decidable (OnlyBlanks s) :=
  decidable_of_iff (s.all (fun c => !isSpace c || c == chSpace) = true)
    (by simp [OnlyBlanks, or_iff_not_imp_left])

theorem Solid.append {s s' : Chars} (h : Solid s) (h' : Solid s') : Solid (s ++ s') := by
  intro c hc
  cases List.mem_append.mp hc with
  | inl hs => exact h c hs
  | inr hs => exact h' c hs

theorem skipSpace_cons (s : Chars) : skipSpace (chSpace :: s) = skipSpace s :=
  List.dropWhile_cons_of_pos (by decide)

theorem scanS_cons (s : Chars) : scanS (chSpace :: s) = scanS s := by
  unfold scanS
  rw [skipSpace_cons]

theorem skipSpace_solid {s : Chars} (h : Solid s) (hne : s ≠ []) (rest : Chars) :
    skipSpace (s ++ rest) = s ++ rest := by
  cases s with
  | nil => exact absurd rfl hne
  | cons c cs => exact List.dropWhile_cons_of_neg (by simp [h c List.mem_cons_self])

theorem scanS_field {field rest : Chars} (h : Solid field) (hne : field ≠ [])
    (hrest : ∀ c, rest.head? = some c → isSpace c = true) :
    scanS (field ++ rest) = some (field, rest) := by
  have hin : ∀ c ∈ field, (!isSpace c) = true := fun c hc => by rw [h c hc]; rfl
  have hout : ∀ c, rest.head? = some c → (!isSpace c) = false := fun c hc => by rw [hrest c hc]; rfl
  dsimp only [scanS]
  rw [skipSpace_solid h hne, takeWhile_stop hin hout, dropWhile_stop hin hout, if_neg hne]

/-- The two fields of a line with one blank before each -/
theorem scanFields_two {first second rest : Chars} (c : UInt8) (hfirst : Solid first)
    (hne : first ≠ []) (hsecond : Solid second) (hne' : second ≠ [])
    (hrest : ∀ c, rest.head? = some c → isSpace c = true) :
    scanFields (c :: chSpace :: (first ++ chSpace :: (second ++ rest))) =
      (some first, some second, rest) := by
  have hsep : ∀ d, (chSpace :: (second ++ rest)).head? = some d → isSpace d = true := by
    intro d hd
    obtain rfl := Option.some.inj hd
    rfl
  unfold scanFields
  rw [List.drop_one, List.tail_cons, scanS_cons, scanS_field hfirst hne hsep]
  dsimp only
  rw [scanS_cons, scanS_field hsecond hne' hrest]

/-! ## Numbers -/

def digitOf (d : Nat) : UInt8 := ch0 + UInt8.ofNat d

theorem digitOf_isDigit : ∀ d < 10, isDigit (digitOf d) = true := by decide

theorem digitOf_toNat : ∀ d < 10, (digitOf d - ch0).toNat = d := by decide

theorem printU_eq (n : UInt32) :
    ∃ ds : List Nat, (∀ d ∈ ds, d < 10) ∧ ds ≠ [] ∧ Nat.ofDigits 10 ds = n.toNat ∧
      printU n = ds.reverse.map digitOf := by
  unfold printU
  by_cases h : n = 0
  · refine ⟨[0], by simp, by simp, by simp [h], ?_⟩
    rw [if_pos h]
    rfl
  · have hne : n.toNat ≠ 0 := fun h0 => h (UInt32.toNat_inj.mp h0)
    rw [if_neg h]
    refine ⟨Nat.digits 10 n.toNat, fun d hd => Nat.digits_lt_base (by decide) hd, ?_, ?_, rfl⟩
    · exact Nat.digits_ne_nil_iff_ne_zero.mpr hne
    · exact Nat.ofDigits_digits 10 n.toNat

/-- Reading digits from the left adds up what they say. -/
theorem foldl_digitOf (ds : List Nat) (h : ∀ d ∈ ds, d < 10) :
    (ds.reverse.map digitOf).foldl (fun n d => 10 * n + (d - ch0).toNat) 0 =
      Nat.ofDigits 10 ds := by
  induction ds with
  | nil => rfl
  | cons d ds ih =>
    have hd := digitOf_toNat d (h d List.mem_cons_self)
    rw [List.reverse_cons, List.map_append, List.foldl_append,
      ih fun d hd => h d (List.mem_cons_of_mem _ hd), Nat.ofDigits_cons]
    simp only [List.map_cons, List.map_nil, List.foldl_cons, List.foldl_nil, hd]
    omega

/-- Stops that a number does not run into -/
def EndsNumber (rest : Chars) : Prop := ∀ c, rest.head? = some c → isDigit c = false

theorem wordOf_eq {digits : Chars} {n : UInt32}
    (h : digits.foldl (fun n d => 10 * n + (d - ch0).toNat) 0 = n.toNat) :
    wordOf false digits = n := by
  have hlt := n.toNat_lt
  dsimp only [wordOf]
  rw [h, if_neg (by omega), if_neg (by decide)]
  exact UInt32.ofNat_toNat

theorem isSpace_of_isDigit {c : UInt8} (h : isDigit c = true) : isSpace c = false := by
  simp only [isDigit, ch0, ch9, Bool.decide_and, Bool.and_eq_true, decide_eq_true_eq,
    UInt8.le_iff_toNat_le] at h
  simp only [isSpace, decide_eq_false_iff_not, UInt8.le_iff_toNat_le, ← UInt8.toNat_inj]
  simp only [UInt8.reduceToNat] at h ⊢
  omega

theorem scanU_digits {ds rest : Chars} (h : ∀ c ∈ ds, isDigit c = true) (hne : ds ≠ [])
    (hrest : EndsNumber rest) : scanU (ds ++ rest) = some (wordOf false ds, rest) := by
  cases ds with
  | nil => exact absurd rfl hne
  | cons c cs =>
    have hc := h c List.mem_cons_self
    have hspace := isSpace_of_isDigit hc
    have hminus : c ≠ 0x2d := by rintro rfl; exact nomatch hc
    have hplus : c ≠ 0x2b := by rintro rfl; exact nomatch hc
    have hskip : skipSpace (c :: cs ++ rest) = c :: cs ++ rest :=
      List.dropWhile_cons_of_neg (by simp [hspace])
    have htake := takeWhile_stop h hrest
    have hdrop := dropWhile_stop h hrest
    unfold scanU
    dsimp only
    rw [hskip]
    split
    case h_1 heq => exact absurd (List.cons.inj heq).1 hminus
    case h_2 heq => exact absurd (List.cons.inj heq).1 hplus
    case h_3 => rw [htake, hdrop, if_neg hne]

theorem scanU_printU (n : UInt32) {rest : Chars} (hrest : EndsNumber rest) :
    scanU (printU n ++ rest) = some (n, rest) := by
  obtain ⟨ds, hlt, hne, hval, hprint⟩ := printU_eq n
  have hdigits : ∀ c ∈ ds.reverse.map digitOf, isDigit c = true := by
    intro c hc
    obtain ⟨d, hd, rfl⟩ := List.mem_map.mp hc
    exact digitOf_isDigit d (hlt d (List.mem_reverse.mp hd))
  rw [hprint, scanU_digits hdigits (by simpa using hne) hrest,
    wordOf_eq ((foldl_digitOf ds hlt).trans hval)]

theorem scanVersion_versionLine (l : MwSametimeList) :
    scanVersion (versionLine l) = (l.verMajor, l.verMinor, l.verMicro) := by
  have hdot : ∀ s, EndsNumber (0x2e :: s) := by
    intro s c hc
    obtain rfl := Option.some.inj hc
    rfl
  have hnil : EndsNumber [] := fun c hc => nomatch hc
  have hline : versionLine l = versionLiteral ++ (printU l.verMajor ++ chDot ::
      (printU l.verMinor ++ chDot :: (printU l.verMicro ++ []))) := by
    simp [versionLine]
  unfold scanVersion
  rw [hline, if_pos (List.isPrefixOf_iff_prefix.mpr (List.prefix_append _ _)), List.drop_left,
    chDot]
  simp only [scanU_printU _ (hdot _), scanU_printU _ hnil]

/-! ## Lines -/

/-- What `fetch_line` takes as one line -/
structure IsLine (line : Chars) : Prop where
  head : ∃ c cs, line = c :: cs ∧ gAsciiIsspace c = false
  inside : ∀ c ∈ line, c ≠ chLf ∧ c ≠ chCr

theorem fetchLine_lf (s : Chars) : fetchLine (chLf :: s) = fetchLine s := by
  unfold fetchLine
  rw [List.dropWhile_cons_of_pos (by decide)]

theorem fetchLines_lf (fuel : Nat) (s : Chars) :
    fetchLines fuel (chLf :: s) = fetchLines fuel s := by
  cases fuel with
  | zero => rfl
  | succ fuel => rw [fetchLines, fetchLine_lf, fetchLines]

theorem fetchLine_line {line : Chars} (h : IsLine line) (rest : Chars) :
    fetchLine (line ++ chCr :: rest) = some (line, rest) := by
  obtain ⟨c, cs, rfl, hc⟩ := h.head
  have hin : ∀ c ∈ cs, (!(decide (c = chLf) || decide (c = chCr))) = true := by
    intro c hc
    have := h.inside c (List.mem_cons_of_mem _ hc)
    simp [this]
  have hout : ∀ c, (chCr :: rest).head? = some c →
      (!(decide (c = chLf) || decide (c = chCr))) = false := by
    intro c hc
    obtain rfl := Option.some.inj hc
    rfl
  unfold fetchLine
  rw [List.cons_append, List.dropWhile_cons_of_neg (by simp [hc])]
  dsimp only
  rw [takeWhile_stop hin hout, dropWhile_stop hin hout, List.drop_one, List.tail_cons]

theorem fetchLines_lines {lines : List Chars} (h : ∀ line ∈ lines, IsLine line) {fuel : Nat}
    (hfuel : lines.length ≤ fuel) :
    fetchLines fuel (lines.flatMap (· ++ [chCr, chLf])) = lines := by
  induction lines generalizing fuel with
  | nil => cases fuel <;> rfl
  | cons line lines ih =>
    cases fuel with
    | zero => cases hfuel
    | succ fuel =>
      have hline := h line List.mem_cons_self
      have hrest := ih (fun line hl => h line (List.mem_cons_of_mem _ hl))
        (Nat.le_of_succ_le_succ hfuel)
      rw [List.flatMap_cons, List.append_assoc, List.cons_append, List.cons_append, List.nil_append,
        fetchLines, fetchLine_line hline]
      exact congrArg (line :: ·) ((fetchLines_lf _ _).trans hrest)

theorem length_le_flatMap (lines : List Chars) :
    lines.length ≤ (lines.flatMap (· ++ [chCr, chLf])).length := by
  induction lines with
  | nil => exact Nat.le_refl _
  | cons line lines ih =>
    rw [List.flatMap_cons, List.length_append, List.length_append]
    simp only [List.length_cons, List.length_nil]
    omega

/-- A stored text is cut into the lines it was put together from. -/
theorem linesOf_store {l : MwSametimeList} (h : ∀ line ∈ listLines l, IsLine line) :
    linesOf (mwSametimeListStore l) = listLines l :=
  fetchLines_lines h (length_le_flatMap _)

end Meanwhile.StList
