-- SUMMARY: When the state of a place only advances and it is opened once: when the server says so while it is not open yet.
import Meanwhile.Service.Place
import Meanwhile.Lib.Keeps

/-!
# The life of a place

The life-cycle of a place is described at the top of srvc_place.c. `Lived` says that
a place has followed it so far and has been opened at most once. Three messages move
the place on: the info of the place, a list of its section, and its own joining. The
first and the last of them do not look at how far the place has come, so that `Lived`
holds in the runs in which they come in time.
-/

namespace Meanwhile.Place

/-! ## What a life shows -/

/-- How far a place has come. A place in error only waits to be closed. -/
def MwPlaceState.rank : MwPlaceState → Nat
  | .new => 0
  | .pending => 1
  | .joining => 2
  | .joined => 3
  | .opened => 4
  | .error => 5
  | .closing => 6
  | .unknown => 7

/-- A move along the life-cycle, or to `mwPlace_ERROR` -/
def Advances (before after : MwPlaceState) : Prop := after = .error ∨ before.rank < after.rank

/-- A place that has only advanced, and that was opened at most once -/
structure Lived (log : List PlaceEvent) : Prop where
  advances : ∀ before after, .moved before after ∈ log → Advances before after
  opened_once : log.count .opened ≤ 1

/-! ## Messages in time -/

/-- The state that a message moves a place to, if any -/
def asksGet (stack : PlaceStack) (place : MwPlace) (type : UInt16) : Get (Option MwPlaceState) :=
  if type = msgInInfo then do
    let _ ← guint32Get 0
    let section_ ← guint32Get 0
    return if section_ = 0 then some .joined else none
  else if type = msgInSection then do
    let subtype ← guint16Get 0
    if ← mwGetBufferError then return none
    if subtype = msgInSectionList then
      mwGetBufferAdvance 4
      let sec ← guint32Get (stack .listSection)
      return if sec = place.section_ ∧ place.state ≠ .opened then some .opened else none
    else if subtype = msgInSectionPeer then
      let subtype ← guint16Get 0
      if ← mwGetBufferError then return none
      if subtype = msgInSectionPeerJoin then
        let section_ ← guint32Get (stack .peerJoinSection)
        mwGetBufferAdvance 4
        let id ← guint32Get 0
        return if section_ ≠ 0 ∧ id = place.ourId then some .opened else none
      else return none
    else return none
  else return none

def asks (stack : PlaceStack) (place : MwPlace) (msg : Payload) : Option MwPlaceState :=
  (asksGet stack place msg.1 (.wrapOpaque msg.2)).1

/-- A message that moves a place on comes before the place is open, in error or closing. -/
def InTime (stack : PlaceStack) (place : MwPlace) (msg : Payload) : Prop :=
  (asks stack place msg).isSome → place.state.rank ≤ MwPlaceState.joined.rank

/-! ## What a message does -/

/-- An event of the life of the place -/
def PlaceEvent.loud : PlaceEvent → Bool
  | .moved _ _ => true
  | .opened => true
  | _ => false

/-- The state of the place and the loud events stay as they are. -/
def Quietly (s s' : Scene) : Prop :=
  s'.place.state = s.place.state ∧ s'.log.filter PlaceEvent.loud = s.log.filter PlaceEvent.loud

instance : Std.Refl Quietly where
  refl := fun _ => ⟨rfl, rfl⟩

instance : IsTrans Scene Quietly where
  trans := fun _ _ _ h h' => ⟨h'.1.trans h.1, h'.2.trans h.2⟩

theorem quietly_read {α : Type} (g : Get α) : Keeps Quietly (read g) := fun _ => ⟨rfl, rfl⟩

theorem quietly_record {e : PlaceEvent} (he : e.loud = false) : Keeps Quietly (record e) :=
  fun s => ⟨rfl, by simp [record, he]⟩

theorem quietly_getMember (id : UInt32) : Keeps Quietly (getMember id) := fun _ => ⟨rfl, rfl⟩

theorem quietly_putMember (pm : PlaceMember) : Keeps Quietly (putMember pm) := fun _ => ⟨rfl, rfl⟩

section

variable (stack : PlaceStack)

theorem quietly_recvJoinResponse : Keeps Quietly (recvJoinResponse stack) := fun _ => ⟨rfl, rfl⟩

theorem quietly_recvMessage : Keeps Quietly (recvMessage stack) := by
  refine .bind .get fun s => .ite (fun _ => .pure _) fun _ => ?_
  refine .bind (quietly_read _) fun id => .bind (quietly_getMember id) fun pm => ?_
  cases pm with
  | none => exact .pure _
  | some pm =>
    refine .bind (quietly_read _) fun _ => .bind (quietly_read _) fun ign => ?_
    refine .ite (fun _ => .pure _) fun _ => ?_
    exact .bind (quietly_read _) fun _ => .bind (quietly_read _) fun msg => quietly_record rfl

theorem quietly_memberParted (id : UInt32) : Keeps Quietly (memberParted id) := by
  refine .bind (quietly_getMember id) fun pm => ?_
  cases pm with
  | none => exact .pure _
  | some pm => exact .bind (quietly_record rfl) fun _ => fun _ => ⟨rfl, rfl⟩

theorem quietly_recvSectionPeerPart : Keeps Quietly (recvSectionPeerPart stack) := by
  refine .bind (quietly_read _) fun _ => .bind .get fun s => .ite (fun _ => .pure _) fun _ => ?_
  exact .bind (quietly_read _) fun id => quietly_memberParted id

theorem quietly_recvSectionPeerClearAttr : Keeps Quietly (recvSectionPeerClearAttr stack) := by
  refine .bind (quietly_read _) fun id => .bind (quietly_read _) fun attr => ?_
  refine .bind (quietly_getMember id) fun pm => ?_
  cases pm with
  | none => exact .pure _
  | some pm => exact quietly_record rfl

theorem quietly_recvSectionPeerSetAttr : Keeps Quietly (recvSectionPeerSetAttr stack) := by
  refine .bind (quietly_read _) fun id => .bind (quietly_read _) fun _ => ?_
  refine .bind (quietly_read _) fun o => .bind (quietly_read _) fun _ => ?_
  refine .bind (quietly_read _) fun attr => .bind (quietly_getMember id) fun pm => ?_
  cases pm with
  | none => exact .pure _
  | some pm => exact quietly_record rfl

theorem quietly_listMembers (count : Nat) : Keeps Quietly (listMembers count) := by
  induction count with
  | zero => exact .pure _
  | succ count ih =>
    refine .bind (quietly_read _) fun _ => .bind (quietly_read _) fun m => ?_
    exact .bind (quietly_putMember m) fun _ => ih

/-- What a scene shows of a move -/
def Moved (ask : Option MwPlaceState) (s s' : Scene) : Prop :=
  match ask with
  | none => Quietly s s'
  | some state =>
      s'.place.state = state ∧ s'.log.filter PlaceEvent.loud =
        (if state = .opened then [.opened] else []) ++
          (if s.place.state = state then [] else [.moved s.place.state state]) ++
          s.log.filter PlaceEvent.loud

theorem Moved.of_quietly {ask : Option MwPlaceState} {s s' s'' : Scene} (h : Quietly s s')
    (h' : Moved ask s' s'') : Moved ask s s'' := by
  cases ask with
  | none => exact IsTrans.trans (r := Quietly) _ _ _ h h'
  | some state =>
    obtain ⟨hstate, hlog⟩ := h'
    rw [h.1, h.2] at hlog
    exact ⟨hstate, hlog⟩

theorem moved_placeState (s : Scene) (state : MwPlaceState) (hstate : state ≠ .opened) :
    Moved (some state) s (placeState state s).2 := by
  by_cases h : s.place.state = state
  · simp [placeState, Moved, h, hstate]
  · simp [placeState, Moved, modifyPlace, record, h, hstate, List.filter_cons, PlaceEvent.loud]

theorem moved_placeOpened (s : Scene) : Moved (some .opened) s (placeOpened s).2 := by
  by_cases h : s.place.state = .opened
  · simp [placeOpened, placeState, Moved, record, h, List.filter_cons, PlaceEvent.loud]
  · simp [placeOpened, placeState, Moved, modifyPlace, record, h, List.filter_cons, PlaceEvent.loud]

/-- Code that ends in a move, after code that makes none -/
theorem Moved.bind {α : Type} {x : PlaceM α} {f : α → PlaceM Unit} {ask : Option MwPlaceState}
    {s : Scene} (hx : Keeps Quietly x) (hf : Moved ask (x s).2 (f (x s).1 (x s).2).2) :
    Moved ask s ((x >>= f) s).2 :=
  (hx s).elim fun h h' => .of_quietly ⟨h, h'⟩ hf

theorem Moved.ite {p : Prop} [Decidable p] {x y : PlaceM Unit} {ask : Option MwPlaceState} {s : Scene}
    (hx : p → Moved ask s (x s).2) (hy : ¬ p → Moved ask s (y s).2) :
    Moved ask s ((if p then x else y) s).2 := by
  split
  · exact hx ‹_›
  · exact hy ‹_›

theorem moved_recvInfo (place : MwPlace) (b : GetBuffer) :
    Moved (asksGet stack place msgInInfo b).1 { place := place, b := b }
      (recvInfo { place := place, b := b }).2 := by
  have hasks : (asksGet stack place msgInInfo b).1 =
      if (guint32Get 0 (guint32Get 0 b).2).1 = 0 then some .joined else none := rfl
  rw [hasks]
  refine .bind (quietly_read _) (.bind (quietly_read _) (.bind (quietly_read _) ?_))
  refine .ite (fun hinfo => ?_) fun hpeer => ?_
  · rw [if_pos (by exact hinfo)]
    refine .bind (quietly_read _) (.bind (quietly_read _) ?_)
    exact moved_placeState _ _ (by decide)
  · rw [if_neg (by exact hpeer)]
    exact ⟨rfl, rfl⟩

theorem moved_recvSectionList (place : MwPlace) (b : GetBuffer) :
    Moved (if (guint32Get (stack .listSection) (mwGetBufferAdvance 4 b).2).1 = place.section_ ∧
        place.state ≠ .opened then some .opened else none) { place := place, b := b }
      (recvSectionList stack { place := place, b := b }).2 := by
  refine .bind (quietly_read _) (.bind (quietly_read _) (.bind .get ?_))
  refine .ite (fun hother => ?_) fun hours => ?_
  · rw [if_neg fun h => hother h.1]
    exact ⟨rfl, rfl⟩
  · have hours := not_not.mp hours
    refine .bind (quietly_read _) (.bind (quietly_read _) (.bind (quietly_read _) ?_))
    have hlist := fun count s => (quietly_listMembers count s).1
    refine .bind (quietly_listMembers _) (.bind .get ?_)
    refine .ite (fun hopened => ?_) fun hopened => ?_
    · rw [if_pos ⟨hours, fun h => hopened ((hlist _ _).trans h)⟩]
      exact moved_placeOpened _
    · rw [if_neg fun h => hopened fun h' => h.2 ((hlist _ _).symm.trans h')]
      exact ⟨rfl, rfl⟩

theorem moved_recvSectionPeerJoin (place : MwPlace) (b : GetBuffer) :
    Moved (if (guint32Get (stack .peerJoinSection) b).1 ≠ 0 ∧
        (guint32Get 0 (mwGetBufferAdvance 4 (guint32Get (stack .peerJoinSection) b).2).2).1 =
          place.ourId then some .opened else none) { place := place, b := b }
      (recvSectionPeerJoin stack { place := place, b := b }).2 := by
  refine .bind (quietly_read _) (.ite (fun hzero => ?_) fun hsection => ?_)
  · rw [if_neg fun h => h.1 hzero]
    exact ⟨rfl, rfl⟩
  · refine .bind (quietly_read _) (.bind (quietly_read _) (.bind (quietly_putMember _) ?_))
    refine .bind (quietly_record rfl) (.bind .get (.ite (fun hours => ?_) fun hother => ?_))
    · rw [if_pos ⟨hsection, hours⟩]
      exact moved_placeOpened _
    · rw [if_neg fun h => hother h.2]
      exact ⟨rfl, rfl⟩

/-- What a section message asks for, after its type -/
theorem asksGet_section (place : MwPlace) (b : GetBuffer) :
    (asksGet stack place msgInSection b).1 =
      if (guint16Get 0 b).2.error then none
      else if (guint16Get 0 b).1 = msgInSectionList then
        if (guint32Get (stack .listSection) (mwGetBufferAdvance 4 (guint16Get 0 b).2).2).1 =
          place.section_ ∧ place.state ≠ .opened then some .opened else none
      else if (guint16Get 0 b).1 = msgInSectionPeer then
        if (guint16Get 0 (guint16Get 0 b).2).2.error then none
        else if (guint16Get 0 (guint16Get 0 b).2).1 = msgInSectionPeerJoin then
          if (guint32Get (stack .peerJoinSection) (guint16Get 0 (guint16Get 0 b).2).2).1 ≠ 0 ∧
            (guint32Get 0 (mwGetBufferAdvance 4 (guint32Get (stack .peerJoinSection)
              (guint16Get 0 (guint16Get 0 b).2).2).2).2).1 = place.ourId then some .opened
          else none
        else none
      else none := by
  unfold asksGet
  rw [if_neg (by decide), if_pos rfl, Get.bind_apply, mwGetBufferError_bind, Get.ite_apply]
  split
  · rfl
  · rw [Get.ite_apply]
    split
    · rfl
    · rw [Get.ite_apply]
      split
      · rw [Get.bind_apply, mwGetBufferError_bind, Get.ite_apply]
        split
        · rfl
        · rw [Get.ite_apply]
          split <;> rfl
      · rfl

theorem moved_recvSectionPeer (place : MwPlace) (b : GetBuffer) :
    Moved (if (guint16Get 0 b).2.error then none
      else if (guint16Get 0 b).1 = msgInSectionPeerJoin then
        if (guint32Get (stack .peerJoinSection) (guint16Get 0 b).2).1 ≠ 0 ∧
          (guint32Get 0 (mwGetBufferAdvance 4 (guint32Get (stack .peerJoinSection)
            (guint16Get 0 b).2).2).2).1 = place.ourId then some .opened
        else none
      else none) { place := place, b := b } (recvSectionPeer stack { place := place, b := b }).2 := by
  refine .bind (quietly_read _) (.bind .get (.ite (fun herror => ?_) fun hok => ?_))
  · rw [if_pos (by exact herror)]
    exact ⟨rfl, rfl⟩
  rw [if_neg (by exact hok)]
  refine .ite (fun hjoin => ?_) fun hother => ?_
  · rw [if_pos (by exact hjoin)]
    exact moved_recvSectionPeerJoin stack place _
  rw [if_neg (by exact hother)]
  refine .ite (fun _ => quietly_recvSectionPeerPart stack _) fun _ => ?_
  refine .ite (fun _ => quietly_recvSectionPeerClearAttr stack _) fun _ => ?_
  exact .ite (fun _ => quietly_recvSectionPeerSetAttr stack _) fun _ => ⟨rfl, rfl⟩

theorem moved_recvSection (place : MwPlace) (b : GetBuffer) :
    Moved (asksGet stack place msgInSection b).1 { place := place, b := b }
      (recvSection stack { place := place, b := b }).2 := by
  rw [asksGet_section]
  refine .bind (quietly_read _) (.bind .get (.ite (fun herror => ?_) fun hok => ?_))
  · rw [if_pos (by exact herror)]
    exact ⟨rfl, rfl⟩
  rw [if_neg (by exact hok)]
  refine .ite (fun hlist => ?_) fun hother => ?_
  · rw [if_pos (by exact hlist)]
    exact moved_recvSectionList stack place _
  rw [if_neg (by exact hother)]
  refine .ite (fun hpeer => ?_) fun hother => ?_
  · rw [if_pos (by exact hpeer)]
    exact moved_recvSectionPeer stack place _
  rw [if_neg (by exact hother)]
  refine .ite (fun _ => ?_) fun _ => ⟨rfl, rfl⟩
  exact .bind (quietly_read _) (quietly_memberParted _ _)

/-- A message moves a place to the state it asks for, and tells nothing else of it. -/
theorem moved_receive (place : MwPlace) (msg : Payload) :
    Moved (asks stack place msg) { place := place, b := .wrapOpaque msg.2 }
      (receive stack place msg) := by
  obtain ⟨type, data⟩ := msg
  unfold asks receive recv
  dsimp only
  generalize GetBuffer.wrapOpaque data = b
  by_cases hjoin : type = msgInJoinResponse
  · subst hjoin
    exact quietly_recvJoinResponse stack _
  rw [if_neg hjoin]
  by_cases hinfo : type = msgInInfo
  · subst hinfo
    exact moved_recvInfo stack place b
  rw [if_neg hinfo]
  by_cases hmessage : type = msgInMessage
  · subst hmessage
    exact quietly_recvMessage stack _
  rw [if_neg hmessage]
  by_cases hsection : type = msgInSection
  · subst hsection
    exact moved_recvSection stack place b
  · rw [if_neg hsection]
    unfold asksGet
    rw [if_neg hinfo, if_neg hsection]
    exact ⟨rfl, rfl⟩

end

theorem asks_eq {stack : PlaceStack} {place : MwPlace} {msg : Payload} {state : MwPlaceState}
    (h : asks stack place msg = some state) : state = .joined ∨ state = .opened := by
  obtain ⟨type, data⟩ := msg
  unfold asks at h
  dsimp only at h
  by_cases hinfo : type = msgInInfo
  · subst hinfo
    change (if _ then some MwPlaceState.joined else none) = _ at h
    split at h
    · exact .inl (Option.some.inj h).symm
    · cases h
  by_cases hsection : type = msgInSection
  · subst hsection
    rw [asksGet_section] at h
    split at h <;> try cases h
    split at h
    · split at h
      · exact .inr (Option.some.inj h).symm
      · cases h
    · split at h <;> try cases h
      split at h <;> try cases h
      split at h <;> try cases h
      split at h
      · exact .inr (Option.some.inj h).symm
      · cases h
  · unfold asksGet at h
    rw [if_neg hinfo, if_neg hsection] at h
    cases h

/-! ## Whole lives -/

/-- The messages given to a place came in time. -/
def GivenInTime (frames : Nat → PlaceStack) : List (MwPlace × Payload) → Prop
  | [] => True
  | (place, msg) :: given => InTime (frames given.length) place msg ∧ GivenInTime frames given

/-- The invariant of a place and its channel -/
structure Alive (s : PlaceSide) : Prop where
  lived : Lived s.log
  unopened : ∀ place, s.place = some place → place.state.rank ≤ MwPlaceState.joined.rank →
    .opened ∉ s.log
  rank : ∀ place, s.place = some place → place.state.rank ≤ MwPlaceState.error.rank
  waiting : ∀ line place, s.line = some line → line.state = .wait → s.place = some place →
    place.state = .pending

/-- A move that a place may make -/
def MayMove (before after : MwPlaceState) : Prop :=
  before = after ∧ after ≠ .opened ∨ Advances before after ∧
    (after.rank ≤ MwPlaceState.opened.rank → before.rank ≤ MwPlaceState.joined.rank)

theorem foldl_write (msgs : List Payload) (s : PlaceSide) :
    ∃ writes wire, msgs.foldl (fun s msg => (s.write (.send msg)).2) s =
      { s with writes := writes, wire := wire } := by
  induction msgs generalizing s with
  | nil => exact ⟨s.writes, s.wire, rfl⟩
  | cons msg msgs ih => exact ih _

theorem after_eq (s : PlaceSide) (scene : Scene) :
    ∃ writes wire, s.after scene =
      { s with
        place := some scene.place, log := scene.log ++ s.log, writes := writes, wire := wire } :=
  foldl_write scene.sent _

/-- The loud events among some new ones are all that a life can tell of them. -/
theorem Lived.append {log new loud : List PlaceEvent} (h : Lived log)
    (hnew : new.filter PlaceEvent.loud = loud)
    (hadvances : ∀ before after, .moved before after ∈ loud → Advances before after)
    (hopened : loud.count .opened + log.count .opened ≤ 1) : Lived (new ++ log) := by
  have hcount : new.count .opened = loud.count .opened := by
    rw [← hnew, List.count_filter rfl]
  refine ⟨fun before after hmem => ?_, ?_⟩
  · rcases List.mem_append.mp hmem with hmem | hmem
    · exact hadvances before after (hnew ▸ List.mem_filter.mpr ⟨hmem, rfl⟩)
    · exact h.advances before after hmem
  · rw [List.count_append, hcount]
    exact hopened

/-- A place that moves as it may has lived. -/
theorem Alive.lived_after {s : PlaceSide} (ha : Alive s) {place : MwPlace}
    (hplace : s.place = some place) {ask : Option MwPlaceState} {b : GetBuffer} {scene : Scene}
    (hmoved : Moved ask { place := place, b := b } scene)
    (hask : ∀ state, ask = some state → MayMove place.state state) :
    Lived (scene.log ++ s.log) := by
  cases ask with
  | none => exact ha.lived.append hmoved.2 nofun (by simpa using ha.lived.opened_once)
  | some state =>
    obtain ⟨hstate, hlog⟩ := hmoved
    have hmay := hask state rfl
    dsimp only at hlog
    rw [List.filter_nil, List.append_nil] at hlog
    refine ha.lived.append hlog ?_ ?_
    · intro before after hmem
      rcases List.mem_append.mp hmem with hmem | hmem
      · split at hmem <;> simp at hmem
      · split at hmem
        · cases hmem
        · obtain ⟨rfl, rfl⟩ : before = place.state ∧ after = state := by simpa using hmem
          rcases hmay with ⟨heq, -⟩ | ⟨hadvances, -⟩
          · exact absurd heq ‹_›
          · exact hadvances
    · by_cases hopened : state = .opened
      · subst hopened
        rcases hmay with ⟨-, hne⟩ | ⟨-, hbefore⟩
        · exact absurd rfl hne
        · have hnot := ha.unopened place hplace (hbefore (Nat.le_refl _))
          rw [List.count_eq_zero.mpr hnot, if_pos rfl]
          split <;> simp
      · have hone := ha.lived.opened_once
        rw [if_neg hopened]
        split <;> simpa using hone

/-- A place that moves as it may stays alive. -/
theorem Alive.after {s : PlaceSide} (ha : Alive s) {place : MwPlace} (hplace : s.place = some place)
    {ask : Option MwPlaceState} {b : GetBuffer} {scene : Scene}
    (hmoved : Moved ask { place := place, b := b } scene)
    (hask : ∀ state, ask = some state → MayMove place.state state)
    (hrank : ∀ state, ask = some state → state.rank ≤ MwPlaceState.error.rank)
    (hline : ∀ line, s.line = some line → line.state ≠ .wait) : Alive (s.after scene) := by
  obtain ⟨writes, wire, hafter⟩ := after_eq s scene
  rw [hafter]
  have hloud : ∀ {e : PlaceEvent}, e.loud = true → e ∈ scene.log →
      e ∈ scene.log.filter PlaceEvent.loud := fun hl hmem => List.mem_filter.mpr ⟨hmem, hl⟩
  refine ⟨ha.lived_after hplace hmoved hask, ?_, ?_, fun line _ hl hw _ => absurd hw (hline line hl)⟩
  · intro place' hplace' hle hmem
    cases hplace'
    cases ask with
    | none =>
      obtain ⟨hstate, hlog⟩ := hmoved
      rcases List.mem_append.mp hmem with hmem | hmem
      · have hmem := hloud rfl hmem
        rw [hlog] at hmem
        cases hmem
      · exact ha.unopened place hplace (hstate ▸ hle) hmem
    | some state =>
      obtain ⟨hstate, hlog⟩ := hmoved
      rw [hstate] at hle
      have hne : state ≠ .opened := by
        rintro rfl
        exact absurd hle (by decide)
      rcases List.mem_append.mp hmem with hmem | hmem
      · have hmem := hloud rfl hmem
        rw [hlog, if_neg hne] at hmem
        split at hmem <;> simp at hmem
      · refine ha.unopened place hplace ?_ hmem
        rcases hask state rfl with ⟨heq, -⟩ | ⟨-, hbefore⟩
        · rw [heq]
          exact hle
        · exact hbefore (hle.trans (by decide))
  · intro place' hplace'
    cases hplace'
    cases ask with
    | none => exact hmoved.1 ▸ ha.rank place hplace
    | some state => exact hmoved.1 ▸ hrank state rfl

/-- A side that was alive whenever its messages had come in time -/
def AliveInTime (frames : Nat → PlaceStack) (s : PlaceSide) : Prop :=
  GivenInTime frames s.given → Alive s

theorem AliveInTime.give {frames : Nat → PlaceStack} {s : PlaceSide} (ha : AliveInTime frames s)
    (hline : ∀ line, s.line = some line → line.state ≠ .wait) (msg : Payload) :
    AliveInTime frames (s.give frames msg) ∧ (s.give frames msg).line = s.line := by
  unfold PlaceSide.give
  split
  · exact ⟨ha, rfl⟩
  · rename_i place hplace
    obtain ⟨writes, wire, hafter⟩ := after_eq { s with given := (place, msg) :: s.given }
      (receive (frames s.given.length) place msg)
    refine ⟨fun hgiven => ?_, by rw [hafter]⟩
    rw [hafter] at hgiven
    obtain ⟨htime, hgiven⟩ := hgiven
    have hs := ha hgiven
    have hs' : Alive { s with given := (place, msg) :: s.given } :=
      ⟨hs.lived, hs.unopened, hs.rank, hs.waiting⟩
    refine hs'.after hplace (moved_receive _ place msg) (fun state hask => ?_)
      (fun state hask => ?_) hline
    · have hrank := htime (by rw [hask]; rfl)
      rcases asks_eq hask with rfl | rfl
      · by_cases heq : place.state = .joined
        · exact .inl ⟨heq, by decide⟩
        · refine .inr ⟨.inr ?_, fun _ => hrank⟩
          -- of the states that come so far only this one has its rank
          revert hrank heq
          cases place.state <;> decide
      · exact .inr ⟨.inr (Nat.lt_succ_of_le hrank), fun _ => hrank⟩
    · rcases asks_eq hask with rfl | rfl <;> decide

theorem AliveInTime.gives {frames : Nat → PlaceStack} (msgs : List Payload) {s : PlaceSide}
    (ha : AliveInTime frames s) (hline : ∀ line, s.line = some line → line.state ≠ .wait) :
    AliveInTime frames (msgs.foldl (PlaceSide.give frames) s) := by
  induction msgs generalizing s with
  | nil => exact ha
  | cons msg msgs ih =>
    obtain ⟨ha', hline'⟩ := ha.give hline msg
    exact ih ha' (hline' ▸ hline)

/-- Code of the place that only sets its state -/
theorem Alive.act {s : PlaceSide} (ha : Alive s) {x : PlaceM Unit} {state : MwPlaceState}
    (hx : ∀ place, s.place = some place →
      Moved (some state) { place := place, b := .wrapOpaque [] }
        (x { place := place, b := .wrapOpaque [] }).2)
    (hmay : ∀ place, s.place = some place → MayMove place.state state)
    (hrank : state.rank ≤ MwPlaceState.error.rank)
    (hline : ∀ line, s.line = some line → line.state ≠ .wait) : Alive (s.act x) := by
  unfold PlaceSide.act
  cases hplace : s.place with
  | none => exact ha
  | some place =>
    refine ha.after hplace (hx place hplace) (fun state' hstate => ?_) (fun state' hstate => ?_) hline
    · cases hstate
      exact hmay place hplace
    · cases hstate
      exact hrank

theorem act_eq (s : PlaceSide) (x : PlaceM Unit) :
    (s.act x).given = s.given ∧ (s.act x).line = s.line := by
  unfold PlaceSide.act
  cases s.place with
  | none => exact ⟨rfl, rfl⟩
  | some place =>
    obtain ⟨writes, wire, hafter⟩ := after_eq s (x { place := place, b := .wrapOpaque [] }).2
    dsimp only
    rw [hafter]
    exact ⟨rfl, rfl⟩

theorem mayMove_joining {ret : Int} :
    MayMove .pending (if ret ≠ 0 then .error else .joining) := by
  split
  · exact .inr ⟨.inl rfl, by decide⟩
  · exact .inr ⟨.inr (by decide), by decide⟩

/-- The place joins when its channel is accepted. -/
theorem Alive.recvChannelAccept {s : PlaceSide} (ha : Alive s) {line : PlaceLine}
    (hline : s.line = some line) (hwait : line.state = .wait) :
    Alive { s with line := some { line with state := .opened } }.recvChannelAccept := by
  have hs : Alive { s with
      line := some { line with state := .opened }, writes := s.writes + 1,
      wire := if s.ret s.writes = 0 then s.wire ++ [.send joinPlace] else s.wire } := by
    refine ⟨ha.lived, ha.unopened, ha.rank, fun line' place hline' hwait' => ?_⟩
    cases hline'
    cases hwait'
  refine hs.act (fun place _ => moved_placeState _ _ (by split <;> decide)) ?_ ?_ ?_
  · intro place hplace
    rw [ha.waiting line place hline hwait hplace]
    exact mayMove_joining
  · split <;> decide
  · intro line' hline'
    cases hline'
    exact nofun

/-- A place that is closed is freed. -/
theorem mwPlaceDestroy_eq (s : PlaceSide) (code : UInt32) :
    (s.mwPlaceDestroy code).place = none ∧ (s.mwPlaceDestroy code).given = s.given := by
  unfold PlaceSide.mwPlaceDestroy
  split
  · exact ⟨‹_›, rfl⟩
  · dsimp only
    split <;> exact ⟨rfl, (act_eq s _).1⟩

theorem recvChannelDestroy_eq (s : PlaceSide) (reason : UInt32) :
    (s.recvChannelDestroy reason).place = none ∧
      (s.recvChannelDestroy reason).given = s.given := by
  obtain ⟨hplace, hgiven⟩ := mwPlaceDestroy_eq (s.act do
    placeState .error
    modifyPlace fun place => { place with channel := false }
    record (.closed reason)) reason
  exact ⟨hplace, hgiven.trans (act_eq s _).1⟩

theorem Alive.mwPlaceDestroy {s : PlaceSide} (ha : Alive s) (code : UInt32) :
    Lived (s.mwPlaceDestroy code).log := by
  unfold PlaceSide.mwPlaceDestroy
  split
  · exact ha.lived
  · rename_i place hplace
    have hmay : MayMove place.state .closing := by
      refine .inr ⟨.inr (Nat.lt_succ_of_le (ha.rank place hplace)), fun h => absurd h (by decide)⟩
    have hact : s.act (placeState .closing) =
        s.after (placeState .closing { place := place, b := .wrapOpaque [] }).2 := by
      unfold PlaceSide.act
      rw [hplace]
    obtain ⟨writes, wire, hafter⟩ := after_eq s
      (placeState .closing { place := place, b := .wrapOpaque [] }).2
    have hlived := ha.lived_after hplace
      (moved_placeState { place := place, b := .wrapOpaque [] } .closing (by decide))
      fun state hstate => by
        cases hstate
        exact hmay
    dsimp only
    rw [hact, hafter]
    split <;> exact hlived

/-- A place whose channel is destroyed ends in error, and is closed. -/
theorem Alive.recvChannelDestroy {s : PlaceSide} (ha : Alive s)
    (hline : ∀ line, s.line = some line → line.state ≠ .wait) (reason : UInt32) :
    Lived (s.recvChannelDestroy reason).log := by
  unfold PlaceSide.recvChannelDestroy
  have hmoved : ∀ place, Moved (some .error) { place := place, b := .wrapOpaque [] }
      ((do
        placeState .error
        modifyPlace fun place => { place with channel := false }
        record (.closed reason) : PlaceM Unit) { place := place, b := .wrapOpaque [] }).2 := by
    intro place
    obtain ⟨hstate, hlog⟩ :=
      moved_placeState { place := place, b := .wrapOpaque [] } .error (by decide)
    exact ⟨hstate, hlog⟩
  have hact := ha.act (fun place _ => hmoved place)
    (fun _ _ => .inr ⟨.inl rfl, fun h => absurd h (by decide)⟩) (by decide) hline
  exact hact.mwPlaceDestroy reason

theorem AliveInTime.input {frames : Nat → PlaceStack} {s : PlaceSide} (ha : AliveInTime frames s)
    (i : PlaceInput) : AliveInTime frames (s.input frames i) := by
  unfold PlaceSide.input
  split
  · exact ha
  · rename_i line hline
    cases i with
    | accept =>
      dsimp only
      split
      · intro hgiven
        have hs := ha hgiven
        exact ⟨hs.lived, hs.unopened, hs.rank, nofun⟩
      · rename_i hwait
        have hwait := not_not.mp hwait
        have haccept : AliveInTime frames
            { s with line := some { line with state := .opened } }.recvChannelAccept := by
          intro hgiven
          rw [PlaceSide.recvChannelAccept, (act_eq _ _).1] at hgiven
          exact (ha hgiven).recvChannelAccept hline hwait
        have hgives := haccept.gives line.incoming (by
          rw [PlaceSide.recvChannelAccept, (act_eq _ _).2]
          intro line' hline'
          cases hline'
          exact nofun)
        intro hgiven
        have hs := hgives hgiven
        refine ⟨hs.lived, hs.unopened, hs.rank, fun line' place hline' hwait' => ?_⟩
        cases hline'
        cases hwait'
    | recv msg =>
      dsimp only
      split
      · rename_i hopened
        refine (ha.give (fun line' hline' => ?_) msg).1
        cases hline.symm.trans hline'
        rw [hopened]
        decide
      · intro hgiven
        have hs := ha hgiven
        refine ⟨hs.lived, hs.unopened, hs.rank, fun line' place hline' hwait' hplace => ?_⟩
        cases hline'
        exact hs.waiting line place hline hwait' hplace
    | destroy reason =>
      dsimp only
      generalize hstate : (if reason ≠ 0 then MwChannelState.error else .destroy) = state
      have hleft : state ≠ .wait := by
        rw [← hstate]
        split <;> decide
      have hgone := recvChannelDestroy_eq
        { s with line := some { line with state := state } } reason
      intro hgiven
      have hs := ha (hgone.2 ▸ hgiven)
      have hs' : Alive { s with line := some { line with state := state } } := by
        refine ⟨hs.lived, hs.unopened, hs.rank, fun line' place hline' hwait' => ?_⟩
        cases hline'
        exact absurd hwait' hleft
      have hlived := hs'.recvChannelDestroy (fun line' hline' => by cases hline'; exact hleft) reason
      refine ⟨hlived, fun place hplace => ?_, fun place hplace => ?_, nofun⟩
      all_goals
        change (PlaceSide.recvChannelDestroy _ _).place = _ at hplace
        rw [hgone.1] at hplace
        cases hplace

theorem AliveInTime.run {frames : Nat → PlaceStack} (inputs : List PlaceInput) {s : PlaceSide}
    (ha : AliveInTime frames s) : AliveInTime frames (s.run frames inputs) := by
  induction inputs generalizing s with
  | nil => exact ha
  | cons i inputs ih => exact ih (ha.input i)

/-- A place after `mwPlace_open` -/
theorem open_eq (title : MwString) (ret : Nat → Int) :
    ∃ place line state, Advances .new state ∧ state.rank ≤ MwPlaceState.error.rank ∧
      state ≠ .opened ∧ (line ≠ none → state = .pending) ∧
      (PlaceSide.open_ title ret).place = some place ∧ place.state = state ∧
      (PlaceSide.open_ title ret).line = line ∧
      (PlaceSide.open_ title ret).log = [.moved .new state] := by
  unfold PlaceSide.open_ PlaceSide.write
  dsimp only
  split
  · exact ⟨_, none, .error, .inl rfl, by decide, by decide, nofun, rfl, rfl, rfl, rfl⟩
  · exact ⟨_, some { state := .wait }, .pending, .inr (by decide), by decide, by decide,
      fun _ => rfl, rfl, rfl, rfl, rfl⟩

theorem alive_open_ (title : MwString) (ret : Nat → Int) : Alive (.open_ title ret) := by
  obtain ⟨place, line, state, hadvances, hrank, -, hline, hplace, rfl, hline', hlog⟩ :=
    open_eq title ret
  refine ⟨⟨fun before after hmem => ?_, ?_⟩, fun _ _ _ hmem => ?_, fun place' hplace' => ?_, ?_⟩
  · rw [hlog] at hmem
    cases List.mem_singleton.mp hmem
    exact hadvances
  · rw [hlog]
    simp
  · rw [hlog] at hmem
    cases List.mem_singleton.mp hmem
  · cases hplace.symm.trans hplace'
    exact hrank
  · intro line place' hsome _ hplace'
    cases hplace.symm.trans hplace'
    exact hline (by rw [← hline', hsome]; exact nofun)

/-- A place whose messages come in time goes through its life once. -/
theorem run_lived (frames : Nat → PlaceStack) (title : MwString) (ret : Nat → Int)
    (inputs : List PlaceInput)
    (hgiven : GivenInTime frames ((PlaceSide.open_ title ret).run frames inputs).given) :
    Lived ((PlaceSide.open_ title ret).run frames inputs).log :=
  (AliveInTime.run inputs (fun _ => alive_open_ title ret) hgiven).lived

/-- The words of a message, after some 16 bit types -/
def wordsPut (types : List UInt16) (words : List UInt32) : MwOpaque :=
  types.flatMap guint16Put ++ words.flatMap guint32Put

/-- The channel is accepted, and the place joins its section 7 as member 5. -/
def joins : List PlaceInput :=
  [.accept, .recv (msgInJoinResponse, wordsPut [] [5, 7]), .recv (msgInInfo, wordsPut [] [0, 0, 0])]

/-- The list of section 7, with nobody in it -/
def emptyList : PlaceInput := .recv (msgInSection, wordsPut [msgInSectionList] [0, 7, 0, 0, 0, 0, 0])

/-- Member 5 joins section 7. -/
def ownJoin : PlaceInput :=
  .recv (msgInSection,
    wordsPut [msgInSectionPeer, msgInSectionPeerJoin] [7, 0, 5] ++ guint16Put 0 ++
      mwStringPut (some (.ofBytes [0x62, 0x6f, 0x62])) ++ mwStringPut none ++ mwStringPut none ++ mwStringPut none ++
      guint16Put 0 ++ guint32Put 0 ++ guint32Put 0)

theorem run_lived_opened :
    .opened ∈ ((PlaceSide.open_ none fun _ => 0).run (fun _ _ => 0) (joins ++ [ownJoin])).log ∧
      Lived ((PlaceSide.open_ none fun _ => 0).run (fun _ _ => 0) (joins ++ [ownJoin])).log := by
  refine ⟨by decide +kernel, run_lived _ _ _ _ ?_⟩
  refine ⟨fun _ => ?_, fun _ => ?_, fun _ => ?_, trivial⟩ <;> decide +kernel

/-- A place that is told of its own joining after the list of its section is opened twice. -/
theorem opened_twice :
    ¬ ∀ (frames : Nat → PlaceStack) title ret inputs,
      Lived ((PlaceSide.open_ title ret).run frames inputs).log := by
  intro h
  have htwice := (h (fun _ _ => 0) none (fun _ => 0) (joins ++ [emptyList, ownJoin])).opened_once
  revert htwice
  decide +kernel

end Meanwhile.Place
