-- SUMMARY: Every search of the resolve service is cleaned up once, and answered at most once and while it stands.
import Meanwhile.Service.Resolve
import Meanwhile.Lib.History

/-!
# The searches of the resolve service

`Settled` is what a run of the resolve service shows: the ids of the outstanding
searches and, event by event, why a handler or a cleanup was due. `Ledger` is the
invariant behind it. It knows nothing of channels, so that it does not matter which
writes fail; `Held` says when the table is there.
-/

namespace Meanwhile.Resolve

/-! ## What a run shows -/

/-- The outstanding searches -/
def table (s : MwServiceResolve) : List MwSearch := s.searches.getD []

/-- The addresses of the searches whose call was accepted -/
def issued (log : List ResolveEvent) : List Nat :=
  log.filterMap fun
    | .issue search => some search.addr
    | _ => none

/-- The addresses of the searches whose handler was called -/
def answered (log : List ResolveEvent) : List Nat :=
  log.filterMap fun
    | .handler search _ _ => some search.addr
    | _ => none

/-- The addresses of the searches whose cleanup was called -/
def cleaned (log : List ResolveEvent) : List Nat :=
  log.filterMap fun
    | .cleanup search => some search.addr
    | _ => none

/-- A search was made, and not cancelled since. -/
def Stands (search : MwSearch) (log : List ResolveEvent) : Prop :=
  ∃ newer older, log = newer ++ .issue search :: older ∧ .cancel search.id ∉ newer

/-- What was received last is a response on the current channel, with the id of a
search and a code. -/
def Answers (search : MwSearch) (code : UInt32) (before : List ResolveEvent) : Prop :=
  ∃ chan data older, before = .recv (some chan) chan resolveAction data :: older ∧
    16 ≤ data.length ∧ mw32Get 0 (data.drop 4) = search.id ∧ mw32Get 0 (data.drop 8) = code ∧
    Stands search older

/-- When an event may happen, by what has happened before -/
def Due : ResolveEvent → List ResolveEvent → Prop
  | .handler search code _, before =>
      Answers search code before ∧ search.addr ∉ answered before ∧ search.addr ∉ cleaned before
  | .cleanup search, before => search.addr ∉ cleaned before
  | .stop, before | .clear, before =>
      ∀ search, .issue search ∈ before → search.cleanup.isSome → search.addr ∈ cleaned before
  | _, _ => True

/-- What holds of the resolve service at any time -/
structure Settled (w : ResolveWorld) : Prop where
  ids_nodup : ((table w.srvc).map (·.id)).Nodup
  ids_ne_error : ∀ search ∈ table w.srvc, search.id ≠ searchError
  issued_nodup : (issued w.srvc.log).Nodup
  answered_nodup : (answered w.srvc.log).Nodup
  cleaned_nodup : (cleaned w.srvc.log).Nodup
  due : Justified Due w.srvc.log

theorem answered_nodup {log : List ResolveEvent} (hdue : Justified Due log) :
    (answered log).Nodup := by
  induction log with
  | nil => exact List.nodup_nil
  | cons e log ih =>
    cases e with
    | handler search => exact List.nodup_cons.mpr ⟨hdue.head.2.1, ih hdue.tail⟩
    | _ => exact ih hdue.tail

theorem cleaned_nodup {log : List ResolveEvent} (hdue : Justified Due log) :
    (cleaned log).Nodup := by
  induction log with
  | nil => exact List.nodup_nil
  | cons e log ih =>
    cases e with
    | cleanup search => exact List.nodup_cons.mpr ⟨hdue.head, ih hdue.tail⟩
    | _ => exact ih hdue.tail

theorem Stands.append {search : MwSearch} {log : List ResolveEvent} (h : Stands search log)
    (newer : List ResolveEvent) (hnewer : .cancel search.id ∉ newer) : Stands search (newer ++ log) := by
  obtain ⟨newer', older, rfl, hnot⟩ := h
  refine ⟨newer ++ newer', older, by simp, ?_⟩
  simp [hnewer, hnot]

/-! ## Freeing -/

/-- What freeing searches one after the other records -/
def cleanups (searches : List MwSearch) : List ResolveEvent :=
  ((searches.filter (·.cleanup.isSome)).map .cleanup).reverse

theorem foldl_searchFree (searches : List MwSearch) (s : MwServiceResolve) :
    searches.foldl searchFree s = { s with log := cleanups searches ++ s.log } := by
  induction searches generalizing s with
  | nil => rfl
  | cons search searches ih =>
    rw [List.foldl_cons, ih]
    unfold searchFree cleanups
    rw [List.filter_cons]
    split <;> simp [record]

theorem mem_cleanups {e : ResolveEvent} {searches : List MwSearch} :
    e ∈ cleanups searches ↔ ∃ search ∈ searches, search.cleanup.isSome ∧ e = .cleanup search := by
  simp only [cleanups, List.mem_reverse, List.mem_map, List.mem_filter]
  constructor
  · rintro ⟨search, ⟨hsearch, hcleanup⟩, rfl⟩
    exact ⟨search, hsearch, hcleanup, rfl⟩
  · rintro ⟨search, hsearch, hcleanup, rfl⟩
    exact ⟨search, ⟨hsearch, hcleanup⟩, rfl⟩

theorem issued_cleanups (searches : List MwSearch) (log : List ResolveEvent) :
    issued (cleanups searches ++ log) = issued log := by
  have hnil : issued (cleanups searches) = [] := by
    refine List.filterMap_eq_nil_iff.mpr fun e he => ?_
    obtain ⟨search, -, -, rfl⟩ := mem_cleanups.mp he
    rfl
  rw [issued, List.filterMap_append, ← issued, hnil, List.nil_append, issued]

theorem answered_cleanups (searches : List MwSearch) (log : List ResolveEvent) :
    answered (cleanups searches ++ log) = answered log := by
  have hnil : answered (cleanups searches) = [] := by
    refine List.filterMap_eq_nil_iff.mpr fun e he => ?_
    obtain ⟨search, -, -, rfl⟩ := mem_cleanups.mp he
    rfl
  rw [answered, List.filterMap_append, ← answered, hnil, List.nil_append, answered]

theorem mem_cleaned_cleanups {addr : Nat} {searches : List MwSearch} {log : List ResolveEvent} :
    addr ∈ cleaned (cleanups searches ++ log) ↔
      (∃ search ∈ searches, search.cleanup.isSome ∧ search.addr = addr) ∨ addr ∈ cleaned log := by
  simp [cleaned, cleanups, and_assoc]

theorem justified_cleanups {log : List ResolveEvent} (hdue : Justified Due log)
    {searches : List MwSearch} (hnodup : (searches.map (·.addr)).Nodup)
    (hnot : ∀ search ∈ searches, search.addr ∉ cleaned log) :
    Justified Due (cleanups searches ++ log) := by
  induction searches generalizing log with
  | nil => exact hdue
  | cons search searches ih =>
    obtain ⟨hsearch, hnodup⟩ := List.nodup_cons.mp hnodup
    have hcons : cleanups (search :: searches) ++ log =
        cleanups searches ++ (cleanups [search] ++ log) := by
      simp only [cleanups, List.filter_cons]
      split <;> simp
    rw [hcons]
    refine ih ?_ hnodup ?_
    · by_cases hcleanup : search.cleanup.isSome = true
      · simp only [cleanups, List.filter_cons, hcleanup, if_true, List.filter_nil]
        exact .cons (hnot search List.mem_cons_self) hdue
      · simpa [cleanups, hcleanup] using hdue
    · intro r hr hcleaned
      rcases mem_cleaned_cleanups.mp hcleaned with ⟨r', hr', -, haddr⟩ | hcleaned
      · obtain rfl := List.mem_singleton.mp hr'
        exact hsearch (List.mem_map.mpr ⟨r, hr, haddr.symm⟩)
      · exact hnot r (List.mem_cons_of_mem _ hr) hcleaned

/-! ## The ledger -/

/-- The searches of the service, its counters and its log. `busy` is the search whose
handler is running. -/
structure Ledger (busy : Option MwSearch) (s : MwServiceResolve) : Prop where
  addrs : ((table s).map (·.addr)).Nodup
  addrs_lt : ∀ search ∈ table s, search.addr < s.nextSearch
  ids : ((table s).map (·.id)).Nodup
  ids_ne : ∀ search ∈ table s, search.id ≠ searchError
  stands : ∀ search ∈ table s, Stands search s.log
  unanswered : ∀ search ∈ table s, busy ≠ some search → search.addr ∉ answered s.log
  uncleaned : ∀ search ∈ table s, search.addr ∉ cleaned s.log
  issued : (issued s.log).Nodup
  issued_lt : ∀ addr ∈ Resolve.issued s.log, addr < s.nextSearch
  answered_lt : ∀ addr ∈ answered s.log, addr < s.nextSearch
  cleaned_lt : ∀ addr ∈ cleaned s.log, addr < s.nextSearch
  owed : ∀ search, .issue search ∈ s.log → search.cleanup.isSome →
    search.addr ∈ cleaned s.log ∨ search ∈ table s
  due : Justified Due s.log

namespace Ledger

variable {busy busy' : Option MwSearch} {s : MwServiceResolve}

theorem new : Ledger none {} where
  addrs := List.nodup_nil
  addrs_lt := by simp [table]
  ids := List.nodup_nil
  ids_ne := by simp [table]
  stands := by simp [table]
  unanswered := by simp [table]
  uncleaned := by simp [table]
  issued := List.nodup_nil
  issued_lt := by simp [Resolve.issued]
  answered_lt := by simp [answered]
  cleaned_lt := by simp [cleaned]
  owed := by simp
  due := .nil

/-- Only the table and the log are looked at. -/
theorem channel (hl : Ledger busy s) (channel : Option Nat) :
    Ledger busy { s with channel := channel } :=
  { hl with }

/-- A message received, or a search cancelled that is not there -/
theorem note (hl : Ledger busy s) {e : ResolveEvent}
    (he : (∃ current chan type data, e = .recv current chan type data) ∨
      ∃ id, e = .cancel id ∧ ∀ search ∈ table s, search.id ≠ id) :
    Ledger busy (record s e) := by
  have hstands : ∀ search ∈ table s, Stands search (e :: s.log) := by
    intro search hsearch
    refine (hl.stands search hsearch).append [e] ?_
    rcases he with ⟨current, chan, type, data, rfl⟩ | ⟨id, rfl, hid⟩
    · simp
    · simpa using hid search hsearch
  rcases he with ⟨current, chan, type, data, rfl⟩ | ⟨id, rfl, hid⟩
  · exact
      { hl with
        stands := hstands
        owed := fun search hsearch => hl.owed search (by simpa [record] using hsearch)
        due := .cons trivial hl.due }
  · exact
      { hl with
        stands := hstands
        owed := fun search hsearch => hl.owed search (by simpa [record] using hsearch)
        due := .cons trivial hl.due }

theorem handler (hl : Ledger none s) {search : MwSearch} (hsearch : search ∈ table s) {code : UInt32}
    (hanswers : Answers search code s.log) (results : List MwResolveResult) :
    Ledger (some search) (record s (.handler search code results)) :=
  { hl with
    stands := fun r hr => (hl.stands r hr).append [_] (by simp)
    unanswered := by
      intro r hr hbusy hmem
      rcases List.mem_cons.mp (show r.addr ∈ search.addr :: answered s.log from hmem) with heq | hmem
      · exact hbusy (congrArg some (List.inj_on_of_nodup_map hl.addrs hr hsearch heq).symm)
      · exact hl.unanswered r hr nofun hmem
    answered_lt := by
      intro addr haddr
      rcases List.mem_cons.mp (show addr ∈ search.addr :: answered s.log from haddr) with rfl | haddr
      · exact hl.addrs_lt search hsearch
      · exact hl.answered_lt addr haddr
    owed := fun r hr => hl.owed r (by simpa [record] using hr)
    due := .cons ⟨hanswers, hl.unanswered search hsearch nofun, hl.uncleaned search hsearch⟩ hl.due }

theorem removeWhere_eq (p : MwSearch → Bool) (s : MwServiceResolve) :
    removeWhere p s =
      { s with
        searches := s.searches.map (·.filter (!p ·))
        log := cleanups ((table s).filter p) ++ s.log } := by
  unfold removeWhere table
  cases hs : s.searches with
  | none =>
    cases s
    simp_all [cleanups]
  | some searches =>
    dsimp only
    rw [foldl_searchFree]
    rfl

theorem table_map (f : List MwSearch → List MwSearch) (hf : f [] = [])
    (searches : Option (List MwSearch)) :
    (searches.map f).getD [] = f (searches.getD []) := by
  cases searches with
  | none => exact hf.symm
  | some l => rfl

/-- Searches taken out of the table and freed -/
theorem removeWhere (hl : Ledger busy s) (p : MwSearch → Bool)
    (hbusy : ∀ search ∈ table s, p search = false → busy = some search → busy' = some search) :
    Ledger busy' (removeWhere p s) := by
  have htable : table (Resolve.removeWhere p s) = (table s).filter (!p ·) := by
    rw [removeWhere_eq]
    exact table_map _ rfl s.searches
  have hlog : (Resolve.removeWhere p s).log = cleanups ((table s).filter p) ++ s.log := by
    rw [removeWhere_eq]
  have hnext : (Resolve.removeWhere p s).nextSearch = s.nextSearch := by
    rw [removeWhere_eq]
  have hmem : ∀ search ∈ (table s).filter (!p ·), search ∈ table s ∧ p search = false := by
    intro search hsearch
    simpa using List.mem_filter.mp hsearch
  have hsub : ((table s).filter (!p ·)).Sublist (table s) := List.filter_sublist
  constructor
  all_goals try rw [htable]
  all_goals try rw [hlog]
  all_goals try rw [hnext]
  · exact hl.addrs.sublist (hsub.map _)
  · exact fun search hsearch => hl.addrs_lt search (hmem search hsearch).1
  · exact hl.ids.sublist (hsub.map _)
  · exact fun search hsearch => hl.ids_ne search (hmem search hsearch).1
  · intro search hsearch
    refine (hl.stands search (hmem search hsearch).1).append _ fun he => ?_
    obtain ⟨_, -, -, heq⟩ := mem_cleanups.mp he
    cases heq
  · intro search hsearch hne
    rw [answered_cleanups]
    obtain ⟨hsearch, hp⟩ := hmem search hsearch
    exact hl.unanswered search hsearch fun heq => hne (hbusy search hsearch hp heq)
  · intro search hsearch hcleaned
    obtain ⟨hsearch, hp⟩ := hmem search hsearch
    rcases mem_cleaned_cleanups.mp hcleaned with ⟨r, hr, -, haddr⟩ | hcleaned
    · obtain ⟨hr, hpr⟩ := List.mem_filter.mp hr
      rw [List.inj_on_of_nodup_map hl.addrs hr hsearch haddr, hp] at hpr
      cases hpr
    · exact hl.uncleaned search hsearch hcleaned
  · rw [issued_cleanups]
    exact hl.issued
  · rw [issued_cleanups]
    exact hl.issued_lt
  · rw [answered_cleanups]
    exact hl.answered_lt
  · intro addr haddr
    rcases mem_cleaned_cleanups.mp haddr with ⟨r, hr, -, rfl⟩ | haddr
    · exact hl.addrs_lt r (List.mem_filter.mp hr).1
    · exact hl.cleaned_lt addr haddr
  · intro search hsearch hcleanup
    have hissue : .issue search ∈ s.log := by
      rcases List.mem_append.mp hsearch with he | he
      · obtain ⟨_, -, -, heq⟩ := mem_cleanups.mp he
        cases heq
      · exact he
    rcases hl.owed search hissue hcleanup with hcleaned | hsearch
    · exact .inl (mem_cleaned_cleanups.mpr (.inr hcleaned))
    · cases hp : p search with
      | true =>
        exact .inl (mem_cleaned_cleanups.mpr
          (.inl ⟨search, List.mem_filter.mpr ⟨hsearch, hp⟩, hcleanup, rfl⟩))
      | false => exact .inr (List.mem_filter.mpr ⟨hsearch, by simp [hp]⟩)
  · refine justified_cleanups hl.due (hl.addrs.sublist (List.filter_sublist.map _)) ?_
    exact fun search hsearch => hl.uncleaned search (List.mem_filter.mp hsearch).1

theorem cancel (hl : Ledger busy s) (id : UInt32) :
    Ledger busy (record (remove id s) (.cancel id)) := by
  refine (hl.removeWhere _ fun _ _ _ h => h).note (.inr ⟨id, rfl, fun search hsearch => ?_⟩)
  rw [removeWhere_eq, table, table_map _ rfl] at hsearch
  simpa using (List.mem_filter.mp hsearch).2

/-- The address of a new search has not been seen before. -/
theorem next (hl : Ledger busy s) (handler data : Nat) (cleanup : Option Nat) :
    Ledger busy (searchNew s handler data cleanup).2 :=
  { hl with
    addrs_lt := fun search hsearch => Nat.lt_succ_of_lt (hl.addrs_lt search hsearch)
    issued_lt := fun addr haddr => Nat.lt_succ_of_lt (hl.issued_lt addr haddr)
    answered_lt := fun addr haddr => Nat.lt_succ_of_lt (hl.answered_lt addr haddr)
    cleaned_lt := fun addr haddr => Nat.lt_succ_of_lt (hl.cleaned_lt addr haddr) }

/-- A search that could not be sent is freed at once. -/
theorem refuse (hl : Ledger busy s) (handler data : Nat) (cleanup : Option Nat) :
    Ledger busy (searchFree (searchNew s handler data cleanup).2
      (searchNew s handler data cleanup).1) := by
  have hl' := hl.next handler data cleanup
  unfold searchFree
  split
  · have hnew : ∀ {addr}, addr < s.nextSearch →
        addr ≠ (searchNew s handler data cleanup).1.addr := fun h => h.ne
    have hmem : ∀ {addr}, addr ∈ cleaned (.cleanup (searchNew s handler data cleanup).1 :: s.log) →
        addr = s.nextSearch ∨ addr ∈ cleaned s.log := fun h => List.mem_cons.mp h
    exact
      { hl' with
        stands := fun r hr => (hl.stands r hr).append [_] (by simp)
        uncleaned := by
          intro r hr hcleaned
          rcases hmem hcleaned with heq | hcleaned
          · exact hnew (hl.addrs_lt r hr) heq
          · exact hl.uncleaned r hr hcleaned
        cleaned_lt := by
          intro addr haddr
          rcases hmem haddr with rfl | haddr
          · exact Nat.lt_succ_self _
          · exact Nat.lt_succ_of_lt (hl.cleaned_lt addr haddr)
        owed := by
          intro r hr hcleanup
          have hr : .issue r ∈ s.log := (List.mem_cons.mp hr).resolve_left nofun
          rcases hl.owed r hr hcleanup with hcleaned | hr
          · exact .inl (List.mem_cons_of_mem _ hcleaned)
          · exact .inr hr
        due := .cons (fun hcleaned => hnew (hl.cleaned_lt _ hcleaned) rfl) hl.due }
  · exact hl'

/-- A new search at the end of the table -/
theorem enlist (hl : Ledger busy s) (search : MwSearch) (htable : s.searches.isSome)
    (haddr : search.addr = s.nextSearch) (hid : search.id ≠ searchError)
    (hnew : ∀ r ∈ table s, r.id ≠ search.id) (counter : UInt32) :
    Ledger busy
      { s with
        counter := counter
        nextSearch := s.nextSearch + 1
        searches := s.searches.map (· ++ [search])
        log := .issue search :: s.log } := by
  obtain ⟨searches, hsearches⟩ := Option.isSome_iff_exists.mp htable
  have hmem : ∀ {P : MwSearch → Prop}, (∀ r ∈ table s, P r) → P search →
      ∀ r ∈ (s.searches.map (· ++ [search])).getD [], P r := by
    intro P hP hsearch r hr
    rw [hsearches] at hr
    rcases List.mem_append.mp hr with hr | hr
    · exact hP r (by rwa [table, hsearches])
    · rw [List.mem_singleton.mp hr]
      exact hsearch
  have hmap : ∀ {γ : Type} (f : MwSearch → γ), ((table s).map f).Nodup →
      (∀ r ∈ table s, f r ≠ f search) →
      (((s.searches.map (· ++ [search])).getD []).map f).Nodup := by
    intro γ f hnodup hne
    rw [table, hsearches] at hnodup
    rw [hsearches]
    simp only [Option.map_some, Option.getD_some, List.map_append, List.map_cons, List.map_nil]
    refine List.nodup_append.mpr ⟨hnodup, List.nodup_singleton _, fun a ha b hb => ?_⟩
    obtain ⟨r, hr, rfl⟩ := List.mem_map.mp ha
    rw [List.mem_singleton.mp hb]
    exact hne r (by rwa [table, hsearches])
  exact
    { addrs := hmap _ hl.addrs fun r hr => haddr ▸ (hl.addrs_lt r hr).ne
      addrs_lt := hmem (fun r hr => Nat.lt_succ_of_lt (hl.addrs_lt r hr))
        (haddr ▸ Nat.lt_succ_self _)
      ids := hmap _ hl.ids hnew
      ids_ne := hmem hl.ids_ne hid
      stands := hmem (fun r hr => (hl.stands r hr).append [_] (by simp))
        ⟨[], s.log, rfl, by simp⟩
      unanswered := hmem hl.unanswered fun _ hmem =>
        absurd (hl.answered_lt _ hmem) (haddr ▸ Nat.lt_irrefl _)
      uncleaned := hmem hl.uncleaned fun hmem =>
        absurd (hl.cleaned_lt _ hmem) (haddr ▸ Nat.lt_irrefl _)
      issued := List.nodup_cons.mpr ⟨fun hmem =>
        absurd (hl.issued_lt _ hmem) (haddr ▸ Nat.lt_irrefl _), hl.issued⟩
      issued_lt := by
        intro addr hissued
        rcases List.mem_cons.mp hissued with rfl | hissued
        · exact haddr ▸ Nat.lt_succ_self _
        · exact Nat.lt_succ_of_lt (hl.issued_lt addr hissued)
      answered_lt := fun addr h => Nat.lt_succ_of_lt (hl.answered_lt addr h)
      cleaned_lt := fun addr h => Nat.lt_succ_of_lt (hl.cleaned_lt addr h)
      owed := by
        intro r hr hcleanup
        rw [table, hsearches]
        rcases List.mem_cons.mp hr with hr | hr
        · cases hr
          exact .inr (List.mem_append_right _ List.mem_cons_self)
        · rcases hl.owed r hr hcleanup with hcleaned | hr
          · exact .inl hcleaned
          · rw [table, hsearches] at hr
            exact .inr (List.mem_append_left _ hr)
      due := .cons trivial hl.due }

/-- A search that has been sent -/
theorem issue (hl : Ledger busy s) (htable : s.searches.isSome) (handler data : Nat)
    (cleanup : Option Nat) :
    Ledger busy (record
      (insert (searchNew s handler data cleanup).1 (searchNew s handler data cleanup).2)
      (.issue (searchNew s handler data cleanup).1)) := by
  have hid : (searchNew s handler data cleanup).1.id ≠ searchError := by
    unfold searchNew
    dsimp only
    split
    · rename_i hzero
      rw [hzero]
      decide
    · assumption
  -- the search that was there under the id goes first
  have hremoved := hl.removeWhere (·.id = (searchNew s handler data cleanup).1.id) fun _ _ _ h => h
  rw [removeWhere_eq] at hremoved
  have hnew := hremoved.enlist (searchNew s handler data cleanup).1 (by simpa using htable)
    rfl hid (fun r hr => by
      rw [table, table_map _ rfl] at hr
      simpa using (List.mem_filter.mp hr).2) (searchNew s handler data cleanup).2.counter
  unfold insert record
  rw [removeWhere_eq]
  exact hnew

/-- All searches freed at the end of `stop` and `clear` -/
theorem destroyTable (hl : Ledger none s) {e : ResolveEvent} (he : e = .stop ∨ e = .clear) :
    Ledger none (record (destroyTable s) e) := by
  have hremoved : Ledger none (Resolve.removeWhere (fun _ => true) s) :=
    hl.removeWhere _ fun _ _ h => nomatch h
  have hnil : table (Resolve.removeWhere (fun _ => true) s) = [] := by
    rw [removeWhere_eq, table, table_map _ rfl]
    simp
  generalize hs : Resolve.removeWhere (fun _ => true) s = s' at hremoved hnil
  have hall : ∀ search, .issue search ∈ s'.log → search.cleanup.isSome →
      search.addr ∈ cleaned s'.log := by
    intro search hsearch hcleanup
    rcases hremoved.owed search hsearch hcleanup with hcleaned | hmem
    · exact hcleaned
    · rw [hnil] at hmem
      cases hmem
  unfold Resolve.destroyTable
  rw [hs]
  rcases he with rfl | rfl
  · exact
      { addrs := List.nodup_nil, addrs_lt := nofun, ids := List.nodup_nil, ids_ne := nofun,
        stands := nofun, unanswered := nofun, uncleaned := nofun, issued := hremoved.issued,
        issued_lt := hremoved.issued_lt, answered_lt := hremoved.answered_lt,
        cleaned_lt := hremoved.cleaned_lt
        owed := fun search hsearch hcleanup =>
          .inl (hall search ((List.mem_cons.mp hsearch).resolve_left nofun) hcleanup)
        due := .cons hall hremoved.due }
  · exact
      { addrs := List.nodup_nil, addrs_lt := nofun, ids := List.nodup_nil, ids_ne := nofun,
        stands := nofun, unanswered := nofun, uncleaned := nofun, issued := hremoved.issued,
        issued_lt := hremoved.issued_lt, answered_lt := hremoved.answered_lt,
        cleaned_lt := hremoved.cleaned_lt
        owed := fun search hsearch hcleanup =>
          .inl (hall search ((List.mem_cons.mp hsearch).resolve_left nofun) hcleanup)
        due := .cons hall hremoved.due }

end Ledger

/-! ## Calls and responses -/

/-- The table is there while the service has a channel. -/
def HasTable (s : MwServiceResolve) : Prop := s.channel.isSome → s.searches.isSome

/-- What calls from a handler leave as it was -/
structure Within (busy : Option MwSearch) (w w' : ResolveWorld) : Prop where
  ledger : Ledger busy w'.srvc
  channel : w'.srvc.channel = w.srvc.channel
  searches : w'.srvc.searches.isSome = w.srvc.searches.isSome
  state : w'.state = w.state

theorem removeWhere_isSome (p : MwSearch → Bool) (s : MwServiceResolve) :
    (removeWhere p s).searches.isSome = s.searches.isSome := by
  rw [Ledger.removeWhere_eq]
  exact Option.isSome_map

theorem removeWhere_channel (p : MwSearch → Bool) (s : MwServiceResolve) :
    (removeWhere p s).channel = s.channel := by
  rw [Ledger.removeWhere_eq]

@[simp] theorem searchFree_channel (s : MwServiceResolve) (search : MwSearch) :
    (searchFree s search).channel = s.channel := by
  unfold searchFree
  split <;> rfl

@[simp] theorem searchFree_searches (s : MwServiceResolve) (search : MwSearch) :
    (searchFree s search).searches = s.searches := by
  unfold searchFree
  split <;> rfl

theorem mwChannelSend_srvc (w : ResolveWorld) (chan : Nat) (msg : MwOpaque) :
    (w.mwChannelSend chan msg).2.srvc = w.srvc ∧ (w.mwChannelSend chan msg).2.state = w.state := by
  unfold World.mwChannelSend
  split
  · exact ⟨rfl, rfl⟩
  · split <;> exact ⟨rfl, rfl⟩

theorem mwServiceResolveResolve_spec {busy : Option MwSearch} {w : ResolveWorld}
    (hl : Ledger busy w.srvc) (htable : HasTable w.srvc) (queries : List MwString) (flags : UInt32)
    (handler data : Nat) (cleanup : Option Nat) :
    Within busy w (mwServiceResolveResolve w queries flags handler data cleanup).2 := by
  unfold mwServiceResolveResolve
  split
  · exact ⟨hl, rfl, rfl, rfl⟩
  · -- the message is sent from the service with the search counted
    have hsent : ∀ (ret : Int) (w' : ResolveWorld),
        w'.srvc = (searchNew w.srvc handler data cleanup).2 → w'.state = w.state →
        (ret = 0 → w.srvc.searches.isSome) →
        Within busy w (if ret ≠ 0 then
            (searchError, { w' with
              srvc := searchFree w'.srvc (searchNew w.srvc handler data cleanup).1 })
          else ((searchNew w.srvc handler data cleanup).1.id, { w' with
              srvc := record (insert (searchNew w.srvc handler data cleanup).1 w'.srvc)
                (.issue (searchNew w.srvc handler data cleanup).1) })).2 := by
      intro ret w' hsrvc hstate hsome
      rw [hsrvc]
      split
      · exact ⟨hl.refuse handler data cleanup, by simp [searchNew], by simp [searchNew], hstate⟩
      · rename_i hret
        refine ⟨hl.issue (hsome (not_not.mp hret)) handler data cleanup, ?_, ?_, hstate⟩
        · exact removeWhere_channel ..
        · exact Option.isSome_map.trans (removeWhere_isSome ..)
    dsimp only
    have hchannel : (searchNew w.srvc handler data cleanup).2.channel = w.srvc.channel := rfl
    cases hchan : w.srvc.channel with
    | none =>
      rw [hchannel, hchan]
      exact hsent (-1) { w with srvc := _ } rfl rfl nofun
    | some chan =>
      rw [hchannel, hchan]
      obtain ⟨hsrvc, hstate⟩ := mwChannelSend_srvc
        { w with srvc := (searchNew w.srvc handler data cleanup).2 } chan
        (resolvePut (searchNew w.srvc handler data cleanup).1.id queries flags)
      exact hsent _ _ hsrvc hstate fun _ => htable (by simp [hchan])

theorem runCall_spec {busy : Option MwSearch} {w : ResolveWorld} (hl : Ledger busy w.srvc)
    (htable : HasTable w.srvc) (call : Call) : Within busy w (runCall w call) := by
  cases call with
  | resolve queries flags handler data cleanup =>
    exact mwServiceResolveResolve_spec hl htable queries flags handler data cleanup
  | cancel id =>
    exact ⟨hl.cancel id, removeWhere_channel .., removeWhere_isSome .., rfl⟩

theorem foldl_runCall_spec {busy : Option MwSearch} {w : ResolveWorld} (hl : Ledger busy w.srvc)
    (htable : HasTable w.srvc) (calls : List Call) : Within busy w (calls.foldl runCall w) := by
  induction calls generalizing w with
  | nil => exact ⟨hl, rfl, rfl, rfl⟩
  | cons call calls ih =>
    have hcall := runCall_spec hl htable call
    have htable' : HasTable (runCall w call).srvc := by
      intro hsome
      rw [hcall.searches]
      exact htable (hcall.channel ▸ hsome)
    have hrest := ih hcall.ledger htable'
    exact ⟨hrest.ledger, hrest.channel.trans hcall.channel, hrest.searches.trans hcall.searches,
      hrest.state.trans hcall.state⟩

/-- A head that is read without an error is that of the payload. -/
theorem headGet_of_ok {data : MwOpaque} (h : (headGet (.wrapOpaque data)).2.error = false) :
    16 ≤ data.length ∧ mw32Get 0 (data.drop 4) = (headGet (.wrapOpaque data)).1.1 ∧
      mw32Get 0 (data.drop 8) = (headGet (.wrapOpaque data)).1.2.1 := by
  have heq : headGet (.wrapOpaque data) =
      let r₁ := guint32Get 0 (.wrapOpaque data)
      let r₂ := guint32Get 0 r₁.2
      let r₃ := guint32Get 0 r₂.2
      let r₄ := guint32Get 0 r₃.2
      ((r₂.1, r₃.1, r₄.1), r₄.2) := rfl
  rw [heq] at h ⊢
  obtain ⟨h₃, hrem₄, hget₄⟩ := guint32Get_of_ok h
  obtain ⟨h₂, hrem₃, hget₃⟩ := guint32Get_of_ok h₃
  obtain ⟨h₁, hrem₂, hget₂⟩ := guint32Get_of_ok h₂
  obtain ⟨-, hrem₁, hget₁⟩ := guint32Get_of_ok h₁
  dsimp only
  rw [hget₃, hget₂, hget₁] at hrem₄
  rw [hget₃, hget₂, hget₁]
  simp only [GetBuffer.wrapOpaque, GetBuffer.skip] at hrem₄
  exact ⟨by omega, rfl, rfl⟩

/-- A response to a search that stands triggers its handler, if it can be read, and ends the
search. -/
theorem recvResponse_spec {w : ResolveWorld} (hl : Ledger none w.srvc) (htable : HasTable w.srvc)
    (client : Client) {chan : Nat} {data : MwOpaque} {older : List ResolveEvent}
    (hlog : w.srvc.log = .recv (some chan) chan resolveAction data :: older)
    (hstands : ∀ search ∈ table w.srvc, Stands search older) :
    Within none w (recvResponse client data w) := by
  unfold recvResponse
  have hhead := @headGet_of_ok data
  generalize headGet (.wrapOpaque data) = head at hhead
  obtain ⟨⟨id, code, count⟩, b⟩ := head
  dsimp only at hhead ⊢
  split
  · exact ⟨hl, rfl, rfl, rfl⟩
  · rename_i herror
    obtain ⟨hlength, hid, hcode⟩ := hhead (Bool.not_eq_true _ ▸ herror)
    split
    · exact ⟨hl, rfl, rfl, rfl⟩
    · rename_i search hfind
      obtain ⟨searches, hsearches, hfind⟩ := Option.bind_eq_some_iff.mp hfind
      have hmem : search ∈ table w.srvc := by
        rw [table, hsearches]
        exact List.mem_of_find?_eq_some hfind
      have hsearch : search.id = id := by simpa using List.find?_some hfind
      generalize loadResults client.stack count.toNat b = results
      obtain ⟨results, b⟩ := results
      dsimp only
      split
      · exact ⟨hl.removeWhere _ fun _ _ _ h => h, removeWhere_channel .., removeWhere_isSome ..,
          rfl⟩
      · have hanswers : Answers search code w.srvc.log :=
          ⟨chan, data, older, hlog, hlength, hid.trans hsearch.symm, hcode, hstands search hmem⟩
        have hcalls := foldl_runCall_spec
          (w := { w with srvc := record w.srvc (.handler search code results) })
          (hl.handler hmem hanswers results) htable
          (client.call search code results
            { w with srvc := record w.srvc (.handler search code results) })
        refine ⟨hcalls.ledger.removeWhere _ fun r _ hp hbusy => ?_, ?_, ?_, hcalls.state⟩
        · -- the search whose handler was called goes
          cases hbusy
          simp [hsearch] at hp
        · exact (removeWhere_channel ..).trans hcalls.channel
        · exact (removeWhere_isSome ..).trans hcalls.searches

/-! ## Whole runs -/

/-- The invariant of the service object and its state -/
structure Held (s : MwServiceResolve) (state : MwServiceState) : Prop where
  ledger : Ledger none s
  hasTable : HasTable s
  stopped : state = .stopped → s.channel = none ∧ s.searches = none
  states : state = .stopped ∨ state = .starting ∨ state = .started

theorem Held.stop (w : ResolveWorld) (hl : Ledger none w.srvc) :
    Held (stop w).srvc (stop w).state := by
  have hclose : ∀ w' : ResolveWorld, Ledger none w'.srvc → w'.srvc.channel = none →
      Held (record (destroyTable w'.srvc) .stop) .stopped := by
    intro w' hl' hchannel
    refine ⟨hl'.destroyTable (.inl rfl), ?_, fun _ => ⟨?_, rfl⟩, .inl rfl⟩
    · intro hsome
      change (removeWhere _ w'.srvc).channel.isSome at hsome
      rw [removeWhere_channel, hchannel] at hsome
      cases hsome
    · exact (removeWhere_channel ..).trans hchannel
  unfold Resolve.stop
  dsimp only
  split
  · rename_i chan hchan
    have hsrvc := World.mwChannelDestroy_srvc (w := w) chan 0
    exact hclose { w.mwChannelDestroy chan 0 with
      srvc := { (w.mwChannelDestroy chan 0).srvc with channel := none } }
      (by rw [hsrvc]; exact hl.channel none) rfl
  · rename_i hchan
    exact hclose w hl hchan

theorem held_keep (client : Client) : (fns client).Keep Held where
  start := by
    intro w hstopped hI
    obtain ⟨hchannel, hsearches⟩ := hI.stopped rfl
    change Held (start _).srvc (start _).state
    unfold start
    split
    · rename_i w' hcreate
      have hsrvc : w'.srvc = w.srvc := (congrArg (fun r => r.2.srvc) hcreate).symm
      have hstate : w'.state = .starting := (congrArg (fun r => r.2.state) hcreate).symm
      have hl := hI.ledger
      dsimp only
      rw [hsrvc, hstate]
      refine ⟨?_, fun _ => rfl, nofun, .inr (.inl rfl)⟩
      exact
        { hl with
          addrs := List.nodup_nil, addrs_lt := nofun, ids := List.nodup_nil, ids_ne := nofun
          stands := nofun, unanswered := nofun, uncleaned := nofun
          owed := fun search hsearch hcleanup => by
            refine (hl.owed search hsearch hcleanup).imp_right fun hmem => ?_
            rw [table, hsearches] at hmem
            cases hmem }
    · rename_i w' hcreate
      have hsrvc : w'.srvc = w.srvc := (congrArg (fun r => r.2.srvc) hcreate).symm
      change Held w'.srvc .stopped
      rw [hsrvc]
      exact ⟨hI.ledger, hI.hasTable, fun _ => ⟨hchannel, hsearches⟩, .inl rfl⟩
  stop := fun w state _ hI => Held.stop { w with state := state } hI.ledger
  recvCreate := by
    intro chan offer w hI
    change Held (w.mwChannelDestroy chan errFailure).srvc (w.mwChannelDestroy chan errFailure).state
    rw [World.mwChannelDestroy_srvc, World.mwChannelDestroy_state]
    exact hI
  recvAccept := by
    intro chan w hI
    change Held (recvAccept chan w).srvc (recvAccept chan w).state
    unfold recvAccept
    split
    · exact ⟨hI.ledger, hI.hasTable, nofun, .inr (.inr rfl)⟩
    · exact hI
  recvDestroy := by
    intro chan reason w hI
    change Held (recvDestroy chan w).srvc (recvDestroy chan w).state
    unfold recvDestroy
    split
    · rename_i hchan
      have hdead : w.isDead = false := by
        rcases hI.states with hstate | hstate | hstate
        · rw [(hI.stopped hstate).1] at hchan
          cases hchan
        · simp [World.isDead, hstate]
        · simp [World.isDead, hstate]
      have hstop : World.mwServiceStop stop
          { w with srvc := { w.srvc with channel := none } } =
          stop { w with srvc := { w.srvc with channel := none }, state := .stopping } := by
        unfold World.mwServiceStop
        rw [if_neg]
        change ¬ w.isDead = true
        simp [hdead]
      dsimp only
      rw [hstop]
      exact Held.stop { w with srvc := { w.srvc with channel := none }, state := .stopping }
        (hI.ledger.channel none)
    · exact hI
  recv := by
    intro chan msg w hI
    have hnote := hI.ledger.note (.inl ⟨w.srvc.channel, chan, msg.1, msg.2, rfl⟩)
    have hnoted : Held (record w.srvc (.recv w.srvc.channel chan msg.1 msg.2)) w.state :=
      ⟨hnote, hI.hasTable, hI.stopped, hI.states⟩
    change Held (recv client chan msg w).srvc (recv client chan msg w).state
    unfold recv
    dsimp only
    split
    · rename_i hcurrent
      obtain ⟨hchan, htype⟩ := hcurrent
      have hlog : (record w.srvc (.recv w.srvc.channel chan msg.1 msg.2)).log =
          .recv (some chan) chan resolveAction msg.2 :: w.srvc.log := by
        rw [show w.srvc.channel = some chan from hchan, htype]
        rfl
      have hresponse := recvResponse_spec
        (w := { w with srvc := record w.srvc (.recv w.srvc.channel chan msg.1 msg.2) })
        hnote hI.hasTable client hlog hI.ledger.stands
      refine ⟨hresponse.ledger, ?_, ?_, ?_⟩
      · intro hsome
        rw [hresponse.searches]
        exact hI.hasTable (hresponse.channel ▸ hsome)
      · intro hstopped
        rw [hresponse.state] at hstopped
        obtain ⟨hchannel, -⟩ := hI.stopped hstopped
        exact absurd (hchannel.symm.trans hchan) nofun
      · rw [hresponse.state]
        exact hI.states
    · exact hnoted
  clear := by
    intro w hI
    change Held (World.mwServiceStop stop w).srvc (World.mwServiceStop stop w).state at hI
    have hdead : (World.mwServiceStop stop w).isDead = true := by
      unfold World.mwServiceStop
      split
      · assumption
      · rfl
    change Held (clear (World.mwServiceStop stop w)).srvc (clear (World.mwServiceStop stop w)).state
    generalize World.mwServiceStop stop w = w at hI hdead
    have hstopped : w.state = .stopped := by
      rcases hI.states with hstate | hstate | hstate
      · exact hstate
      · simp [World.isDead, hstate] at hdead
      · simp [World.isDead, hstate] at hdead
    obtain ⟨hchannel, -⟩ := hI.stopped hstopped
    have hchannel' : (record (destroyTable w.srvc) .clear).channel = none :=
      (removeWhere_channel ..).trans hchannel
    refine ⟨hI.ledger.destroyTable (.inr rfl), fun hsome => ?_, fun _ => ⟨hchannel', rfl⟩, hI.states⟩
    exact absurd hsome (by simp [clear, hchannel'])

theorem step_held (client : Client) {w : ResolveWorld} (hI : Held w.srvc w.state) (step : Step) :
    Held (Resolve.step client w step).srvc (Resolve.step client w step).state := by
  cases step with
  | call call =>
    unfold Resolve.step
    dsimp only
    split
    · exact hI
    · have hcall := runCall_spec hI.ledger hI.hasTable call
      refine ⟨hcall.ledger, ?_, ?_, ?_⟩
      · intro hsome
        rw [hcall.searches]
        exact hI.hasTable (hcall.channel ▸ hsome)
      · intro hstopped
        obtain ⟨hchannel, hsearches⟩ := hI.stopped (hcall.state ▸ hstopped)
        refine ⟨hcall.channel.trans hchannel, ?_⟩
        rw [← Option.not_isSome_iff_eq_none, hcall.searches, hsearches]
        exact nofun
      · rw [hcall.state]
        exact hI.states
  | input input => exact World.input_keeps (held_keep client) input hI

theorem run_held (client : Client) (steps : List Step) {w : ResolveWorld}
    (hI : Held w.srvc w.state) :
    Held (run client steps w).srvc (run client steps w).state := by
  induction steps generalizing w with
  | nil => exact hI
  | cons step steps ih => exact ih (step_held client hI step)

/-- In every run of the resolve service, whichever writes fail: the ids of outstanding
searches differ and are not `SEARCH_ERROR`, and every handler, every cleanup and every
stop is due when it happens. -/
theorem run_settled (client : Client) (steps : List Step) (ret : Nat → Int) :
    Settled (run client steps (mwServiceResolveNew ret)) := by
  have hI := run_held client steps (w := mwServiceResolveNew ret)
    ⟨.new, nofun, fun _ => ⟨rfl, rfl⟩, .inl rfl⟩
  have hl := hI.ledger
  exact
    { ids_nodup := hl.ids
      ids_ne_error := hl.ids_ne
      issued_nodup := hl.issued
      answered_nodup := answered_nodup hl.due
      cleaned_nodup := cleaned_nodup hl.due
      due := hl.due }

/-- A search that is answered, one whose handler cancels it, and one that is left over -/
example :
    let w := run { call := fun search _ _ _ => if search.id = 2 then [.cancel 2] else [] }
      [.input .start, .input (.accept 0), .call (.resolve [none] 0 0 0 (some 1)),
        .call (.resolve [none] 0 0 0 (some 1)), .call (.resolve [none] 0 0 0 (some 1)),
        .input (.recv 0 (2, [0, 0, 0, 0, 0, 0, 0, 2, 0, 0, 0, 0, 0, 0, 0, 0])),
        .input (.recv 0 (2, [0, 0, 0, 0, 0, 0, 0, 2, 0, 0, 0, 0, 0, 0, 0, 0])),
        .input .stop] (mwServiceResolveNew fun _ => 0)
    answered w.srvc.log = [1] ∧ cleaned w.srvc.log = [2, 0, 1] := by
  decide +kernel

end Meanwhile.Resolve
