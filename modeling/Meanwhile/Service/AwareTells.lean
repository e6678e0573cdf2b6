-- SUMMARY: What the functions of the aware service tell the server, and that its table changes as it tells.
import Meanwhile.Service.AwareTables
import Meanwhile.Lib.LastWriter

/-!
# What the server is told

The server has the ids that it was told to add and not to remove since, and the last
list of attributes to watch. `Tells` says what a function of the service sends, and
that the table of the service changes as these messages say.
-/

namespace Meanwhile.Aware

open HashTable LastWriter

/-! ## Messages -/

/-- What a message says of an id -/
def AwareMsg.effect : AwareMsg → MwAwareIdBlock → Option Bool
  | .add ids, id => if id ∈ ids then some true else none
  | .remove ids, id => if id ∈ ids then some false else none
  | .watch _, _ => none

/-- What a message says of the attributes to watch -/
def AwareMsg.watches : AwareMsg → Unit → Option (List UInt32)
  | .watch keys, _ => some keys
  | _, _ => none

/-- The messages written on a channel -/
def sentOn (chan : Nat) (wire : List (Packet AwareMsg)) : List AwareMsg :=
  wire.filterMap fun
    | .send c msg => if c = chan then some msg else none
    | _ => none

/-- An id of the table of entries -/
def known (s : MwServiceAware) (id : MwAwareIdBlock) : Bool :=
  (addrs s.entries).any fun addr => entryKey s addr = some id

def watchedKeys (s : MwServiceAware) : List UInt32 := s.attribs.map (·.key)

/-! ## Sending -/

def sends (msgs : List AwareMsg) (w : AwareWorld) : AwareWorld := msgs.foldl send w

/-- A service sends some messages, and changes as they say if it is live. -/
structure Tells (msgs : List AwareMsg) (w w' : AwareWorld) : Prop where
  sent : { w' with srvc := w.srvc } = sends msgs w
  channel : w'.srvc.channel = w.srvc.channel
  known : w.isLive = true →
    ∀ id, known w'.srvc id = value AwareMsg.effect msgs id (known w.srvc id)
  keys : w.isLive = true →
    watchedKeys w'.srvc = value AwareMsg.watches msgs () (watchedKeys w.srvc)

theorem send_withSrvc (w : AwareWorld) {s : MwServiceAware} (h : s.channel = w.srvc.channel)
    (msg : AwareMsg) : send { w with srvc := s } msg = { send w msg with srvc := s } := by
  unfold send
  dsimp only
  rw [h]
  cases w.srvc.channel with
  | none => rfl
  | some chan =>
    unfold World.mwChannelSend
    dsimp only
    cases w.lines chan with
    | none => rfl
    | some line =>
      dsimp only
      split <;> rfl

theorem sends_withSrvc (msgs : List AwareMsg) (w : AwareWorld) {s : MwServiceAware}
    (h : s.channel = w.srvc.channel) :
    sends msgs { w with srvc := s } = { sends msgs w with srvc := s } := by
  unfold sends
  induction msgs generalizing w with
  | nil => rfl
  | cons msg msgs ih =>
    rw [List.foldl_cons, List.foldl_cons, send_withSrvc w h, ih]
    rw [send_srvc]
    exact h

@[simp] theorem sends_srvc (msgs : List AwareMsg) (w : AwareWorld) : (sends msgs w).srvc = w.srvc := by
  unfold sends
  induction msgs generalizing w with
  | nil => rfl
  | cons msg msgs ih => rw [List.foldl_cons, ih, send_srvc]

@[simp] theorem send_state (msg : AwareMsg) (w : AwareWorld) : (send w msg).state = w.state := by
  unfold send World.mwChannelSend
  split
  · rfl
  · split
    · rfl
    · split <;> rfl

@[simp] theorem sends_state (msgs : List AwareMsg) (w : AwareWorld) :
    (sends msgs w).state = w.state := by
  unfold sends
  induction msgs generalizing w with
  | nil => rfl
  | cons msg msgs ih => rw [List.foldl_cons, ih, send_state]

variable {w w' w'' : AwareWorld} {msgs msgs' : List AwareMsg}

theorem Tells.state (h : Tells msgs w w') : w'.state = w.state := by
  have hstate : ({ w' with srvc := w.srvc } : AwareWorld).state = (sends msgs w).state := by
    rw [h.sent]
  rw [sends_state] at hstate
  exact hstate

theorem Tells.isLive (h : Tells msgs w w') : w'.isLive = w.isLive := by
  rw [World.isLive, World.isLive, h.state]

theorem Tells.refl (w : AwareWorld) : Tells [] w w := ⟨rfl, rfl, fun _ _ => rfl, fun _ => rfl⟩

theorem Tells.trans (h : Tells msgs w w') (h' : Tells msgs' w' w'') :
    Tells (msgs ++ msgs') w w'' := by
  refine ⟨?_, h'.channel.trans h.channel, fun hlive id => ?_, fun hlive => ?_⟩
  · have hsent : ({ w'' with srvc := w.srvc } : AwareWorld) =
        { ({ w'' with srvc := w'.srvc } : AwareWorld) with srvc := w.srvc } := rfl
    rw [hsent, h'.sent, ← sends_withSrvc msgs' w' h.channel.symm, h.sent]
    exact List.foldl_append.symm
  · rw [h'.known (h.isLive.trans hlive), h.known hlive, value_append]
  · rw [h'.keys (h.isLive.trans hlive), h.keys hlive, value_append]

/-- A change that is not told of -/
theorem Tells.quiet {s : MwServiceAware} (hchannel : s.channel = w.srvc.channel)
    (hknown : w.isLive = true → ∀ id, Aware.known s id = Aware.known w.srvc id)
    (hkeys : w.isLive = true → watchedKeys s = watchedKeys w.srvc) :
    Tells [] w { w with srvc := s } :=
  ⟨rfl, hchannel, hknown, hkeys⟩

/-- A change that is told of with one message -/
theorem Tells.tell {s : MwServiceAware} (msg : AwareMsg) (hchannel : s.channel = w.srvc.channel)
    (hknown : w.isLive = true →
      ∀ id, Aware.known s id = (msg.effect id).getD (Aware.known w.srvc id))
    (hkeys : w.isLive = true → watchedKeys s = (msg.watches ()).getD (watchedKeys w.srvc)) :
    Tells [msg] w (send { w with srvc := s } msg) := by
  refine ⟨?_, ?_, fun hlive id => ?_, fun hlive => ?_⟩
  · rw [send_withSrvc w hchannel]
    have hself : ∀ w' : AwareWorld, w'.srvc = w.srvc → ({ w' with srvc := w.srvc } : AwareWorld) = w' := by
      rintro w' heq
      rw [← heq]
    exact hself _ (send_srvc w msg)
  · rw [send_srvc]
    exact hchannel
  · rw [send_srvc]
    exact hknown hlive id
  · rw [send_srvc]
    exact hkeys hlive

/-! ## What the functions of lists tell -/

variable {s s' : MwServiceAware} {tables : Nat → Table}

theorem known_eq_true_iff (s : MwServiceAware) (id : MwAwareIdBlock) :
    known s id = true ↔ ∃ addr ∈ addrs s.entries, entryKey s addr = some id := by
  simp [known]

/-- The ids depend on the table and the keys only. -/
theorem known_congr (hentries : addrs s'.entries = addrs s.entries)
    (hkey : ∀ addr ∈ addrs s.entries, entryKey s' addr = entryKey s addr) (id : MwAwareIdBlock) :
    known s' id = known s id := by
  rw [Bool.eq_iff_iff, known_eq_true_iff, known_eq_true_iff, hentries]
  constructor
  · rintro ⟨addr, hmem, hid⟩
    exact ⟨addr, hmem, (hkey addr hmem).symm.trans hid⟩
  · rintro ⟨addr, hmem, hid⟩
    exact ⟨addr, hmem, (hkey addr hmem).trans hid⟩

theorem known_setEntry {addr : Nat} {entry entry' : AwareEntry} (h : s.entry addr = some entry)
    (hid : entry'.aware.id = entry.aware.id) (id : MwAwareIdBlock) :
    known (setEntry s addr (some entry')) id = known s id := by
  apply known_congr
  · rfl
  · exact fun a _ => congrFun (entryKey_setEntry h hid) a

theorem known_newEntry (h : Linked tables s) (id id' : MwAwareIdBlock) :
    known (newEntry id s) id' = (known s id' || decide (id' = id)) := by
  have hold : ∀ a ∈ addrs s.entries, entryKey (newEntry id s) a = entryKey s a := by
    intro a ha
    obtain ⟨entry, hentry⟩ := h.entry_isSome ha
    have hne : a ≠ s.nextEntry := (h.fresh a (by rw [hentry]; rfl)).ne
    exact congrArg (Option.map (·.aware.id)) (setEntry_entry_of_ne hne _)
  have hnew : entryKey (newEntry id s) s.nextEntry = some id :=
    entryKey_of_some (setEntry_entry_self _ _)
  rw [Bool.eq_iff_iff, Bool.or_eq_true, decide_eq_true_eq, known_eq_true_iff, known_eq_true_iff,
    addrs_newEntry]
  constructor
  · rintro ⟨a, ha, hid⟩
    rcases List.mem_append.mp ha with ha | ha
    · exact .inl ⟨a, ha, (hold a ha).symm.trans hid⟩
    · cases List.mem_singleton.mp ha
      exact .inr (Option.some.inj (hid.symm.trans hnew))
  · rintro (⟨a, ha, hid⟩ | rfl)
    · exact ⟨a, List.mem_append_left _ ha, (hold a ha).trans hid⟩
    · exact ⟨s.nextEntry, List.mem_append_right _ (List.mem_singleton_self _), hnew⟩

/-- What `list_add` leaves alone, and what it adds -/
structure Adds (ids : List MwAwareIdBlock) (s s' : MwServiceAware) : Prop where
  channel : s'.channel = s.channel
  attribs : s'.attribs = s.attribs
  known : ∀ id, known s' id = (known s id || decide (id ∈ ids))

theorem Adds.trans {ids ids' : List MwAwareIdBlock} {s'' : MwServiceAware} (h : Adds ids s s')
    (h' : Adds ids' s' s'') : Adds (ids' ++ ids) s s'' := by
  refine ⟨h'.channel.trans h.channel, h'.attribs.trans h.attribs, fun id => ?_⟩
  rw [h'.known, h.known]
  simp only [List.mem_append, Bool.decide_or]
  cases Aware.known s id <;> cases decide (id ∈ ids) <;> cases decide (id ∈ ids') <;> rfl

theorem Adds.none (hchannel : s'.channel = s.channel) (hattribs : s'.attribs = s.attribs)
    (hknown : ∀ id, Aware.known s' id = Aware.known s id) : Adds [] s s' :=
  ⟨hchannel, hattribs, fun id => by rw [hknown]; simp⟩

theorem adds_entryFor (h : Linked tables s) (id : MwAwareIdBlock) :
    Adds [id] s (entryFor id s).2 := by
  obtain ⟨addr, s', heq, hlinked, hmem, hkey, rfl | ⟨-, -, rfl⟩⟩ := h.entryFor id
  · rw [heq]
    have hin : known s' id = true := (known_eq_true_iff s' id).mpr ⟨addr, hmem, hkey⟩
    refine ⟨rfl, rfl, fun id' => ?_⟩
    by_cases hid : id' = id
    · subst hid
      simp [hin]
    · simp [hid]
  · rw [heq]
    refine ⟨rfl, rfl, fun id' => ?_⟩
    rw [known_newEntry h]
    simp

theorem adds_join (l : Nat) (list : MwAwareList) (entries : Table) (id : MwAwareIdBlock) (addr : Nat)
    (s : MwServiceAware) : Adds [] s (join l list entries id addr s) := by
  unfold join
  split
  · exact .none rfl rfl fun _ => rfl
  · rename_i entry hentry
    refine .none rfl rfl fun id' => ?_
    refine (known_setEntry hentry ?_ id' : known (setEntry s addr (some
      { entry with membership := entry.membership ++ [l] })) id' = known s id')
    rfl

/-- Nothing is added, and nothing told. -/
theorem Adds.tells {s : MwServiceAware} (h : Adds [] w.srvc s) : Tells [] w { w with srvc := s } := by
  refine .quiet h.channel (fun _ id => ?_) fun _ => ?_
  · rw [h.known]
    simp
  · rw [watchedKeys, watchedKeys, h.attribs]

theorem adds_listAdd (h : Linked tables s) (l : Nat) (list : MwAwareList) (id : MwAwareIdBlock) :
    Adds (bif (listAdd l list id s).1 then [id] else []) s (listAdd l list id s).2 := by
  have hset : Adds [] s (setList s l (some { list with entries := some (list.entries.getD []) })) :=
    .none rfl rfl fun _ => rfl
  unfold listAdd
  dsimp only
  cases find (setList s l (some { list with entries := some (list.entries.getD []) }))
    (list.entries.getD []) id with
  | some _ => exact hset
  | none =>
    have hs : Linked tables
        (setList s l (some { list with entries := some (list.entries.getD []) })) :=
      h.congr rfl rfl rfl
    exact (hset.trans (adds_entryFor hs id)).trans (adds_join _ _ _ _ _ _)

theorem adds_listAddId (h : Linked tables s) (l : Nat) (id : MwAwareIdBlock) :
    Adds (bif (listAddId l id s).1 then [id] else []) s (listAddId l id s).2 := by
  unfold listAddId
  split
  · exact .none rfl rfl fun _ => rfl
  · split
    · exact .none rfl rfl fun _ => rfl
    · exact adds_listAdd h l _ id

/-- The additions of `mwAwareList_addAware` are what it adds, from among the ids it is given. -/
theorem adds_addAll (l : Nat) (ids additions : List MwAwareIdBlock) (h : Agree s) :
    ∃ new, (addAll l ids additions s).1 = new ++ additions ∧ new ⊆ ids ∧
      Adds new s (addAll l ids additions s).2 := by
  induction ids generalizing additions s with
  | nil => exact ⟨[], rfl, List.nil_subset _, .none rfl rfl fun _ => rfl⟩
  | cons id ids ih =>
    have hadd := adds_listAddId h.linked l id
    obtain ⟨new, hnew, hsub, hadds⟩ := ih
      (if (listAddId l id s).1 then id :: additions else additions) (h.listAddId l id)
    refine ⟨new ++ (bif (listAddId l id s).1 then [id] else []), ?_, ?_, hadd.trans hadds⟩
    · unfold addAll
      dsimp only
      rw [hnew]
      cases (listAddId l id s).1 <;> simp
    · refine List.append_subset.mpr ⟨fun x hx => List.mem_cons_of_mem _ (hsub hx), ?_⟩
      cases (listAddId l id s).1 with
      | false => exact List.nil_subset _
      | true => exact fun x hx => List.mem_singleton.mp hx ▸ List.mem_cons_self

/-- Messages that only add some ids -/
def OnlyAdd (ids : List MwAwareIdBlock) (msgs : List AwareMsg) : Prop :=
  ∀ msg ∈ msgs, ∃ new, msg = .add new ∧ new ⊆ ids

theorem OnlyAdd.append {ids : List MwAwareIdBlock} (h : OnlyAdd ids msgs) (h' : OnlyAdd ids msgs') :
    OnlyAdd ids (msgs ++ msgs') := by
  intro msg hmsg
  rcases List.mem_append.mp hmsg with hmsg | hmsg
  · exact h msg hmsg
  · exact h' msg hmsg

/-- `mwAwareList_addAware` tells what it adds. -/
theorem tells_addAware (h : Agree w.srvc) (l : Nat) (ids : List MwAwareIdBlock) :
    ∃ msgs, Tells msgs w (mwAwareListAddAware l ids w) ∧ OnlyAdd ids msgs := by
  obtain ⟨new, hnew, hsub, hadds⟩ := adds_addAll l ids [] h
  rw [List.append_nil] at hnew
  unfold mwAwareListAddAware
  generalize hr : addAll l ids [] w.srvc = r at hnew hadds
  obtain ⟨additions, s⟩ := r
  dsimp only at hnew hadds ⊢
  subst hnew
  split
  · refine ⟨[.add additions], .tell (.add additions) hadds.channel (fun _ id => ?_) fun _ => ?_, ?_⟩
    · rw [hadds.known, AwareMsg.effect]
      split
      · rename_i hmem
        simp [hmem]
      · rename_i hmem
        simp [hmem]
    · exact congrArg (List.map (·.key)) hadds.attribs
    · intro msg hmsg
      exact ⟨additions, List.mem_singleton.mp hmsg, hsub⟩
  · rename_i hnot
    refine ⟨[], .quiet hadds.channel (fun hlive id => ?_) fun _ => ?_, nofun⟩
    · have hempty : additions = [] := by
        by_contra hne
        exact hnot ⟨hlive, hne⟩
      rw [hadds.known, hempty]
      simp
    · exact congrArg (List.map (·.key)) hadds.attribs

/-- Taking an entry out of a list leaves the ids of the service alone. -/
theorem adds_dismember (l : Nat) (s : MwServiceAware) (addr : Nat) :
    Adds [] s (dismember l s addr) := by
  unfold dismember
  split
  · exact .none rfl rfl fun _ => rfl
  · rename_i entry hentry
    refine .none rfl rfl fun id => ?_
    refine known_setEntry hentry ?_ id
    rfl

theorem adds_removeId (l : Nat) (s : MwServiceAware) (id : MwAwareIdBlock) :
    Adds [] s (removeId l s id) := by
  have hnone : Adds [] s s := .none rfl rfl fun _ => rfl
  unfold removeId
  split
  · exact .none rfl rfl fun _ => rfl
  · split
    · exact hnone
    · split
      · exact .none rfl rfl fun _ => rfl
      · split
        · exact hnone
        · rename_i addr _
          have hset : ∀ list, Adds [] (dismember l s addr) (setList (dismember l s addr) l list) :=
            fun _ => .none rfl rfl fun _ => rfl
          exact (adds_dismember l s addr).trans (hset _)

theorem adds_foldl {α : Type} {f : MwServiceAware → α → MwServiceAware}
    (hf : ∀ s a, Adds [] s (f s a)) (as : List α) (s : MwServiceAware) :
    Adds [] s (as.foldl f s) := by
  induction as generalizing s with
  | nil => exact .none rfl rfl fun _ => rfl
  | cons a as ih => exact (hf s a).trans (ih _)

/-- The ids that are swept are those that are told of. -/
theorem known_sweep (h : Linked tables s) (id : MwAwareIdBlock) :
    known (sweep s) id =
      (AwareMsg.effect (.remove ((s.entries.filter (dead s)).filterMap fun n => entryKey s n.addr))
        id).getD (known s id) := by
  have hsweep : sweep s =
      { s with
        entries := s.entries.filter (! dead s ·)
        entry := fun a => if a ∈ addrs (s.entries.filter (dead s)) then none else s.entry a } :=
    foldl_setEntry _ _
  have hkey : ∀ a k, entryKey (sweep s) a = some k → entryKey s a = some k := by
    intro a k hk
    rw [hsweep, entryKey] at hk
    dsimp only at hk
    split at hk
    · cases hk
    · exact hk
  have hsub : ∀ a ∈ addrs (sweep s).entries, a ∈ addrs s.entries := by
    intro a ha
    rw [hsweep] at ha
    obtain ⟨n, hn, rfl⟩ := List.mem_map.mp ha
    exact List.mem_map_of_mem (List.mem_filter.mp hn).1
  rw [Bool.eq_iff_iff, known_eq_true_iff, AwareMsg.effect]
  split
  · rename_i hgone
    simp only [Option.getD_some, Bool.false_eq_true, iff_false]
    rintro ⟨a, ha, hid⟩
    obtain ⟨n, hn, hnid⟩ := List.mem_filterMap.mp hgone
    have hmem := (List.mem_filter.mp hn).1
    have heq : n.addr = a := h.inj n.addr (List.mem_map_of_mem hmem) a (hsub a ha)
      (hnid.trans (hkey a id hid).symm)
    obtain ⟨e, he⟩ := h.entry_isSome (List.mem_map_of_mem hmem)
    have hspec := sweep_entry (List.mem_map_of_mem hmem) he
    have hempty := hspec.1.mp (List.mem_map_of_mem hn)
    rw [hsweep] at ha
    exact hspec.2.mp (heq ▸ ha) hempty
  · rename_i hleft
    simp only [Option.getD_none]
    rw [known_eq_true_iff]
    constructor
    · rintro ⟨a, ha, hid⟩
      exact ⟨a, hsub a ha, hkey a id hid⟩
    · rintro ⟨a, ha, hid⟩
      obtain ⟨e, he⟩ := h.entry_isSome ha
      have hspec := sweep_entry ha he
      have hne : e.membership ≠ [] := by
        intro hempty
        obtain ⟨n, hn, hna⟩ := List.mem_map.mp (hspec.1.mpr hempty)
        refine hleft (List.mem_filterMap.mpr ⟨n, hn, ?_⟩)
        rw [hna]
        exact hid
      refine ⟨a, ?_, ?_⟩
      · rw [hsweep]
        exact hspec.2.mpr hne
      · rw [hsweep, entryKey]
        dsimp only
        rw [if_neg fun hgone => hne (hspec.1.mp hgone)]
        exact hid

theorem sweep_keys (s : MwServiceAware) :
    (sweep s).channel = s.channel ∧ (sweep s).attribs = s.attribs := by
  unfold sweep
  rw [foldl_setEntry]
  exact ⟨rfl, rfl⟩

/-- The ids of the entries that nobody has -/
def goneIds (s : MwServiceAware) : List MwAwareIdBlock :=
  (s.entries.filter (dead s)).filterMap fun n => entryKey s n.addr

theorem removeUnused_eq (w : AwareWorld) :
    removeUnused w = { w with srvc := sweep w.srvc } ∧
        (w.isLive = true → w.srvc.entries.filter (dead w.srvc) = []) ∨
      removeUnused w = send { w with srvc := sweep w.srvc } (.remove (goneIds w.srvc)) := by
  have hchannel := (sweep_keys w.srvc).1
  unfold removeUnused
  dsimp only
  split
  · rename_i hempty
    have hnil := List.isEmpty_iff.mp hempty
    refine .inl ⟨?_, fun _ => hnil⟩
    rw [sweep, hnil, List.foldl_nil]
  · split
    · refine .inr ?_
      rw [send_withSrvc w hchannel, sendRem, send_withSrvc]
      · rfl
      · rfl
    · rename_i hlive
      exact .inl ⟨rfl, fun h => absurd h hlive⟩

/-- `remove_unused` tells what it removes. -/
theorem tells_removeUnused (h : Linked tables w.srvc) : ∃ msgs, Tells msgs w (removeUnused w) := by
  obtain ⟨hchannel, hattribs⟩ := sweep_keys w.srvc
  have hknown := known_sweep h
  have hkeys : watchedKeys (sweep w.srvc) = watchedKeys w.srvc := by
    rw [watchedKeys, watchedKeys, hattribs]
  obtain ⟨heq, hnil⟩ | heq := removeUnused_eq w
  · rw [heq]
    refine ⟨[], .quiet hchannel (fun hlive id => ?_) fun _ => hkeys⟩
    rw [hknown, hnil hlive]
    rfl
  · rw [heq]
    exact ⟨_, .tell _ hchannel (fun _ => hknown) fun _ => hkeys⟩

theorem tells_removeAware (h : Agree w.srvc) (l : Nat) (ids : List MwAwareIdBlock) :
    ∃ msgs, Tells msgs w (mwAwareListRemoveAware l ids w) := by
  have hout := adds_foldl (adds_removeId l) ids w.srvc
  have hcoupled : Coupled (ids.foldl (removeId l) w.srvc) := h.toCoupled.removeIds l ids
  obtain ⟨msgs, htells⟩ :=
    tells_removeUnused (w := { w with srvc := ids.foldl (removeId l) w.srvc }) hcoupled.linked
  exact ⟨[] ++ msgs, hout.tells.trans htells⟩

/-! ## What is told of attributes -/

theorem tells_sendAttribList (hchannel : s.channel = w.srvc.channel)
    (hknown : ∀ id, known s id = known w.srvc id) :
    Tells [.watch (watchedKeys s)] w (sendAttribList { w with srvc := s }) :=
  .tell _ hchannel (fun _ => hknown) fun _ => rfl

/-- `remove_unused_attrib`, after a change of the attributes -/
theorem tells_removeUnusedAttrib (hchannel : s.channel = w.srvc.channel)
    (hknown : ∀ id, known s id = known w.srvc id) :
    ∃ msgs, Tells msgs w (removeUnusedAttrib { w with srvc := s }) := by
  unfold removeUnusedAttrib
  dsimp only
  split
  · exact ⟨_, tells_sendAttribList hchannel hknown⟩
  · rename_i hlive
    exact ⟨[], .quiet hchannel (fun h => absurd h hlive) fun h => absurd h hlive⟩

/-- Code that changes what is watched only -/
theorem watch_frame {f : MwServiceAware → UInt32 → MwServiceAware}
    (hf : ∀ s key, (f s key).channel = s.channel ∧ ∀ id, known (f s key) id = known s id)
    (keys : List UInt32) (s : MwServiceAware) :
    (keys.foldl f s).channel = s.channel ∧ ∀ id, known (keys.foldl f s) id = known s id := by
  induction keys generalizing s with
  | nil => exact ⟨rfl, fun _ => rfl⟩
  | cons key keys ih =>
    obtain ⟨hchannel, hknown⟩ := ih (f s key)
    exact ⟨hchannel.trans (hf s key).1, fun id => (hknown id).trans ((hf s key).2 id)⟩

theorem watchAdd_frame (l : Nat) (s : MwServiceAware) (key : UInt32) :
    (watchAdd l s key).channel = s.channel ∧ ∀ id, known (watchAdd l s key) id = known s id := by
  unfold watchAdd
  split
  · exact ⟨rfl, fun _ => rfl⟩
  · dsimp only
    split <;> exact ⟨rfl, fun _ => rfl⟩

theorem watchRemove_frame (l : Nat) (s : MwServiceAware) (key : UInt32) :
    (watchRemove l s key).channel = s.channel ∧ ∀ id, known (watchRemove l s key) id = known s id := by
  unfold watchRemove
  split
  · exact ⟨rfl, fun _ => rfl⟩
  · dsimp only
    split <;> exact ⟨rfl, fun _ => rfl⟩

theorem tells_listFree (h : Agree w.srvc) (l : Nat) : ∃ msgs, Tells msgs w (mwAwareListFree l w) := by
  unfold mwAwareListFree
  split
  · exact ⟨[], .refl w⟩
  · rename_i list hlist
    dsimp only
    have hclear : Tells [] w { w with srvc := record { w.srvc with
        lists := w.srvc.lists.filter (· ≠ l) } (.clear l) } :=
      .quiet rfl (fun _ _ => rfl) fun _ => rfl
    generalize hw : ({ w with srvc := record { w.srvc with
      lists := w.srvc.lists.filter (· ≠ l) } (.clear l) } : AwareWorld) = w₀ at hclear ⊢
    obtain ⟨attribs, hattribs⟩ := unwatchAllAttributes_srvc l list w₀
    obtain ⟨msgs₁, htells₁⟩ := tells_removeUnusedAttrib (w := w₀)
      (s := { w₀.srvc with attribs := (list.attribs.getD []).foldl (unwatch l) w₀.srvc.attribs })
      rfl fun _ => rfl
    change Tells msgs₁ w₀ (mwAwareListUnwatchAllAttributes l list w₀) at htells₁
    generalize mwAwareListUnwatchAllAttributes l list w₀ = w₁ at hattribs htells₁ ⊢
    -- the list has no entries any more when the sweep comes
    have hlinked : Linked (Function.update (tableOf w.srvc) l (list.entries.getD [])) w₁.srvc := by
      rw [← tableOf_of_some hlist, Function.update_eq_self, hattribs, ← hw]
      exact h.linked.congr rfl rfl rfl
    have hempty := (hlinked.dismemberAll (list.entries.getD [])).1
    have hout := adds_foldl (adds_dismember l) (addrs (list.entries.getD [])) w₁.srvc
    obtain ⟨msgs₂, htells₂⟩ := tells_removeUnused
      (w := { w₁ with srvc := (addrs (list.entries.getD [])).foldl (dismember l) w₁.srvc }) hempty
    change Tells msgs₂ _ (mwAwareListRemoveAllAware l list w₁) at htells₂
    have hfreed : Tells [] (mwAwareListRemoveAllAware l list w₁)
        { mwAwareListRemoveAllAware l list w₁ with
          srvc := setList (mwAwareListRemoveAllAware l list w₁).srvc l none } :=
      .quiet rfl (fun _ _ => rfl) fun _ => rfl
    exact ⟨_, hclear.trans (htells₁.trans (hout.tells.trans (htells₂.trans hfreed)))⟩

/-! ## What is told on messages -/

theorem adds_tellLists (e : Nat → MwAwareList → Option AwareEvent) (s : MwServiceAware)
    (membership : List Nat) : Adds [] s (tellLists e s membership) := by
  obtain ⟨crashed, log, heq⟩ := tellLists_eq e s membership
  rw [heq]
  exact .none rfl rfl fun _ => rfl

/-- An entry that is told about keeps its id. -/
theorem adds_tell {addr : Nat} {entry : AwareEntry} (hentry : s.entry addr = some entry)
    (entry' : AwareEntry) (hid : entry'.aware.id = entry.aware.id)
    (e : Nat → MwAwareList → Option AwareEvent) (membership : List Nat) :
    Adds [] s (tellLists e (setEntry s addr (some entry')) membership) := by
  have hset : Adds [] s (setEntry s addr (some entry')) :=
    .none rfl rfl fun id => known_setEntry hentry hid id
  exact hset.trans (adds_tellLists e _ membership)

theorem adds_statusRecv (h : Linked tables s) (idb : MwAwareSnapshot) :
    Adds [] s (statusRecv idb s) := by
  unfold statusRecv
  obtain ⟨crashed, heq⟩ | ⟨addr, heq, hmem, hkey⟩ := h.awareFind idb.id
  · rw [heq]
    exact .none rfl rfl fun _ => rfl
  · rw [heq]
    dsimp only
    split
    · exact .none rfl rfl fun _ => rfl
    · rename_i entry hentry
      refine adds_tell hentry _ ?_ _ _
      have hid : idb.id = entry.aware.id :=
        Option.some.inj (hkey.symm.trans (entryKey_of_some hentry))
      exact (mwAwareSnapshotClone_id idb).trans hid

theorem adds_attribRecv (h : Linked tables s) (idb : MwAwareIdBlock) (key : UInt32)
    (data : MwOpaque) : Adds [] s (attribRecv idb key data s) := by
  unfold attribRecv
  obtain ⟨crashed, heq⟩ | ⟨addr, heq, hmem, -⟩ := h.awareFind idb
  · rw [heq]
    exact .none rfl rfl fun _ => rfl
  · rw [heq]
    dsimp only
    split
    · exact .none rfl rfl fun _ => rfl
    · rename_i entry hentry
      refine adds_tell hentry _ ?_ _ _
      rfl

theorem tells_groupMemberRecv (h : Agree w.srvc) (idb : MwAwareSnapshot) :
    ∃ msgs, Tells msgs w (groupMemberRecv idb w) ∧ OnlyAdd [idb.id] msgs := by
  have hloop : ∀ (membership : List Nat) (w : AwareWorld), Agree w.srvc → ∃ msgs,
      Tells msgs w (membership.foldl (fun w l => mwAwareListAddAware l [idb.id] w) w) ∧
        OnlyAdd [idb.id] msgs := by
    intro membership
    induction membership with
    | nil => exact fun w _ => ⟨[], .refl w, nofun⟩
    | cons l membership ih =>
      intro w h
      obtain ⟨msgs, htells, honly⟩ := tells_addAware h l [idb.id]
      obtain ⟨msgs', htells', honly'⟩ := ih _ (h.addAware l [idb.id])
      exact ⟨msgs ++ msgs', htells.trans htells', honly.append honly'⟩
  unfold groupMemberRecv
  obtain ⟨crashed, heq⟩ | ⟨addr, heq, -, -⟩ :=
    h.linked.awareFind { type := mwAwareGroup, user := idb.group }
  · rw [heq]
    exact ⟨[], .quiet rfl (fun _ _ => rfl) fun _ => rfl, nofun⟩
  · rw [heq]
    dsimp only
    split
    · exact ⟨[], .quiet rfl (fun _ _ => rfl) fun _ => rfl, nofun⟩
    · exact hloop _ _ h

/-- The members of groups among some snapshots -/
def membersIn (stack : AwareStack) : Nat → GetBuffer → List MwAwareIdBlock
  | 0, _ => []
  | count + 1, b =>
      let (snap, b) := mwAwareSnapshotGet stack.endOfBlock b
      if b.error then []
      else (if snap.group.isSome then [snap.id] else []) ++ membersIn stack count b

/-- The members of groups that a message tells of -/
def announced (stack : AwareStack) (msg : Payload) : List MwAwareIdBlock :=
  let b := GetBuffer.wrapOpaque msg.2
  if msg.1 = msgAwareSnapshot then
    let (count, b) := guint32Get stack.count b
    membersIn stack count.toNat b
  else if msg.1 = msgAwareUpdate then
    let snap := (mwAwareSnapshotGet stack.endOfBlock b).1
    if snap.group.isSome then [snap.id] else []
  else []

theorem OnlyAdd.mono {ids ids' : List MwAwareIdBlock} (h : OnlyAdd ids msgs) (hsub : ids ⊆ ids') :
    OnlyAdd ids' msgs := by
  intro msg hmsg
  obtain ⟨new, rfl, hnew⟩ := h msg hmsg
  exact ⟨new, rfl, fun id hid => hsub (hnew hid)⟩

theorem tells_member (h : Agree w.srvc) (snap : MwAwareSnapshot) :
    ∃ msgs, Tells msgs w (if snap.group.isSome then groupMemberRecv snap w else w) ∧
      OnlyAdd (if snap.group.isSome then [snap.id] else []) msgs := by
  split
  · exact tells_groupMemberRecv h snap
  · exact ⟨[], .refl w, nofun⟩

theorem tells_snapshots (stack : AwareStack) (count : Nat) (b : GetBuffer) (h : Agree w.srvc) :
    ∃ msgs, Tells msgs w (snapshots stack count b w) ∧ OnlyAdd (membersIn stack count b) msgs := by
  induction count generalizing b w with
  | zero => exact ⟨[], .refl w, nofun⟩
  | succ count ih =>
    unfold snapshots membersIn
    generalize mwAwareSnapshotGet stack.endOfBlock b = r
    obtain ⟨snap, b⟩ := r
    dsimp only
    split
    · exact ⟨[], .refl w, nofun⟩
    · obtain ⟨msgs, htells, honly⟩ := tells_member h snap
      have hmember := h.member snap
      generalize (if snap.group.isSome then groupMemberRecv snap w else w) = w₁ at htells hmember ⊢
      have hstatus := (adds_statusRecv hmember.linked snap).tells
      obtain ⟨msgs', htells', honly'⟩ := ih b (w := { w₁ with srvc := statusRecv snap w₁.srvc })
        (hmember.statusRecv snap)
      refine ⟨msgs ++ ([] ++ msgs'), htells.trans (hstatus.trans htells'), ?_⟩
      exact (honly.mono (List.subset_append_left _ _)).append
        (honly'.mono (List.subset_append_right _ _))

/-- A message makes the service tell of the members it announces, at most. -/
theorem tells_handle (stack : AwareStack) (msg : Payload) (h : Agree w.srvc) :
    ∃ msgs, Tells msgs w (handle stack msg w) ∧ OnlyAdd (announced stack msg) msgs := by
  unfold handle announced
  dsimp only
  split
  · exact tells_snapshots stack _ _ h
  · split
    · unfold recvUpdate
      generalize mwAwareSnapshotGet stack.endOfBlock _ = r
      obtain ⟨snap, b⟩ := r
      dsimp only
      obtain ⟨msgs, htells, honly⟩ := tells_member h snap
      have hmember := h.member snap
      generalize (if snap.group.isSome then groupMemberRecv snap w else w) = w₁ at htells hmember ⊢
      split
      · exact ⟨msgs, htells, honly⟩
      · have hstatus := (adds_statusRecv hmember.linked snap).tells
        exact ⟨msgs ++ [], htells.trans hstatus, honly.append nofun⟩
    · split
      · exact ⟨[], (adds_attribRecv h.linked _ _ _).tells, nofun⟩
      · split
        · exact ⟨[], (adds_attribRecv h.linked _ _ _).tells, nofun⟩
        · exact ⟨[], .refl w, nofun⟩

/-- What the client asks for is told of. -/
theorem tells_runCall (h : Agree w.srvc) (call : Call) : ∃ msgs, Tells msgs w (runCall w call) := by
  have hlist : ∀ l (f : AwareWorld → AwareWorld), (∃ msgs, Tells msgs w (f w)) →
      ∃ msgs, Tells msgs w (onList l f w) := by
    intro l f hf
    unfold onList
    split
    · exact hf
    · exact ⟨[], .refl w⟩
  cases call with
  | listNew => exact ⟨[], .quiet rfl (fun _ _ => rfl) fun _ => rfl⟩
  | listFree l => exact hlist l _ (tells_listFree h l)
  | addAware l ids =>
    obtain ⟨msgs, htells, -⟩ := tells_addAware h l ids
    exact hlist l _ ⟨msgs, htells⟩
  | removeAware l ids => exact hlist l _ (tells_removeAware h l ids)
  | watchAttributes l keys =>
    obtain ⟨hchannel, hknown⟩ := watch_frame (watchAdd_frame l) (keys.takeWhile (· ≠ 0)) w.srvc
    exact hlist l _ ⟨_, tells_sendAttribList hchannel hknown⟩
  | unwatchAttributes l keys =>
    obtain ⟨hchannel, hknown⟩ := watch_frame (watchRemove_frame l) (keys.takeWhile (· ≠ 0)) w.srvc
    exact hlist l _ (tells_removeUnusedAttrib hchannel hknown)
  | setStatus user stat => exact ⟨[], (adds_statusRecv h.linked _).tells⟩

/-! ## Channels -/

theorem sentOn_append (chan : Nat) (wire wire' : List (Packet AwareMsg)) :
    sentOn chan (wire ++ wire') = sentOn chan wire ++ sentOn chan wire' := List.filterMap_append

theorem sentOn_send_self (chan : Nat) (msg : AwareMsg) : sentOn chan [.send chan msg] = [msg] := by
  simp [sentOn]

theorem sentOn_send_of_ne {chan chan' : Nat} (h : chan' ≠ chan) (msg : AwareMsg) :
    sentOn chan [.send chan' msg] = [] := by
  simp [sentOn, h]

/-- What sending does to the channels -/
structure Sent (msgs : List AwareMsg) (w w' : AwareWorld) : Prop where
  ret : w'.ret = w.ret
  nextChan : w'.nextChan = w.nextChan
  others : ∀ chan, w.srvc.channel ≠ some chan →
    w'.lines chan = w.lines chan ∧ sentOn chan w'.wire = sentOn chan w.wire
  gone : ∀ chan, w.lines chan = none →
    w'.lines chan = none ∧ sentOn chan w'.wire = sentOn chan w.wire
  opened : ∀ chan line, w.srvc.channel = some chan → w.lines chan = some line →
    line.state = .opened →
    w'.lines chan = some line ∧ sentOn chan w'.wire = sentOn chan w.wire ++ msgs
  queued : ∀ chan line, w.srvc.channel = some chan → w.lines chan = some line →
    line.state ≠ .opened →
    w'.lines chan = some { line with outgoing := line.outgoing ++ msgs } ∧
      sentOn chan w'.wire = sentOn chan w.wire

theorem sent_send (hret : ∀ n, w.ret n = 0) (msg : AwareMsg) : Sent [msg] w (send w msg) := by
  unfold send World.mwChannelSend
  cases hchan : w.srvc.channel with
  | none =>
    refine ⟨rfl, rfl, fun _ _ => ⟨rfl, rfl⟩, fun _ h => ⟨h, rfl⟩, fun c line h => ?_,
      fun c line h => ?_⟩
    all_goals cases hchan.symm.trans h
  | some chan =>
    dsimp only
    cases hline : w.lines chan with
    | none =>
      refine ⟨rfl, rfl, fun _ _ => ⟨rfl, rfl⟩, fun _ h => ⟨h, rfl⟩, fun c line h hl => ?_,
        fun c line h hl => ?_⟩
      all_goals
        cases hchan.symm.trans h
        cases hline.symm.trans hl
    | some line =>
      dsimp only
      by_cases hopened : line.state = .opened
      · rw [if_pos hopened, World.write_of_ret (hret _)]
        refine ⟨rfl, rfl, fun c hc => ⟨rfl, ?_⟩, fun c hc => ⟨hc, ?_⟩, fun c line' hc hl _ => ?_,
          fun c line' hc hl hnot => ?_⟩
        · have hne : chan ≠ c := fun h => hc (h ▸ hchan)
          rw [sentOn_append, sentOn_send_of_ne hne, List.append_nil]
        · have hne : chan ≠ c := by
            rintro rfl
            cases hline.symm.trans hc
          rw [sentOn_append, sentOn_send_of_ne hne, List.append_nil]
        · cases hchan.symm.trans hc
          exact ⟨hl, by rw [sentOn_append, sentOn_send_self]⟩
        · cases hchan.symm.trans hc
          cases hline.symm.trans hl
          exact absurd hopened hnot
      · rw [if_neg hopened]
        refine ⟨rfl, rfl, fun c hc => ⟨?_, rfl⟩, fun c hc => ⟨?_, rfl⟩, fun c line' hc hl ho => ?_,
          fun c line' hc hl _ => ?_⟩
        · have hne : c ≠ chan := fun h => hc (h ▸ hchan)
          exact World.setLine_of_ne hne _
        · have hne : c ≠ chan := by
            rintro rfl
            cases hline.symm.trans hc
          exact (World.setLine_of_ne hne _).trans hc
        · cases hchan.symm.trans hc
          cases hline.symm.trans hl
          exact absurd ho hopened
        · cases hchan.symm.trans hc
          cases hline.symm.trans hl
          exact ⟨World.setLine_self _ _, rfl⟩

theorem Sent.trans (h : Sent msgs w w') (hchan : w'.srvc.channel = w.srvc.channel)
    (h' : Sent msgs' w' w'') : Sent (msgs ++ msgs') w w'' := by
  refine ⟨h'.ret.trans h.ret, h'.nextChan.trans h.nextChan, fun c hc => ?_, fun c hc => ?_,
    fun c line hc hl ho => ?_, fun c line hc hl ho => ?_⟩
  · obtain ⟨h₁, h₂⟩ := h.others c hc
    obtain ⟨h₁', h₂'⟩ := h'.others c (hchan ▸ hc)
    exact ⟨h₁'.trans h₁, h₂'.trans h₂⟩
  · obtain ⟨h₁, h₂⟩ := h.gone c hc
    obtain ⟨h₁', h₂'⟩ := h'.gone c h₁
    exact ⟨h₁', h₂'.trans h₂⟩
  · obtain ⟨h₁, h₂⟩ := h.opened c line hc hl ho
    obtain ⟨h₁', h₂'⟩ := h'.opened c line (hchan.trans hc) h₁ ho
    exact ⟨h₁', by rw [h₂', h₂, List.append_assoc]⟩
  · obtain ⟨h₁, h₂⟩ := h.queued c line hc hl ho
    obtain ⟨h₁', h₂'⟩ := h'.queued c _ (hchan.trans hc) h₁ ho
    exact ⟨by rw [h₁', List.append_assoc], h₂'.trans h₂⟩

theorem sent_sends (hret : ∀ n, w.ret n = 0) (msgs : List AwareMsg) : Sent msgs w (sends msgs w) := by
  induction msgs generalizing w with
  | nil =>
    refine ⟨rfl, rfl, fun _ _ => ⟨rfl, rfl⟩, fun _ h => ⟨h, rfl⟩, fun c line _ hl _ => ?_,
      fun c line _ hl _ => ?_⟩
    · exact ⟨hl, (List.append_nil _).symm⟩
    · exact ⟨by rw [List.append_nil]; exact hl, rfl⟩
  | cons msg msgs ih =>
    have hsend := sent_send hret msg
    exact hsend.trans (congrArg (·.channel) (send_srvc w msg))
      (ih (w := send w msg) (fun n => (congrFun hsend.ret n).trans (hret n)))

theorem Tells.sending (h : Tells msgs w w') (hret : ∀ n, w.ret n = 0) : Sent msgs w w' := by
  have hsent := sent_sends hret msgs
  rw [← h.sent] at hsent
  exact ⟨hsent.ret, hsent.nextChan, hsent.others, hsent.gone, hsent.opened, hsent.queued⟩

end Meanwhile.Aware
