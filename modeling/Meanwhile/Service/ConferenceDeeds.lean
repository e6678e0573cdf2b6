-- SUMMARY: What each call and each arrival amounts to for the conferences, and that the service does just that.
import Meanwhile.Service.Conference

/-!
# Deeds

A call of the client, or an arrival, comes to one `Deed`, which is read off it and the
conferences there are. `Book.does` is what a deed does to the conferences, and the
service does what its deeds say (`step_does`), whatever its channels answer.
-/

namespace Meanwhile.Conference

open Opening (MwConferenceState)

/-! ## Deeds -/

inductive Deed where
  | nothing
  /-- A new conference of the client -/
  | new (title : MwString)
  /-- A new channel whose invitation cannot be read -/
  | junk
  | invited (name title : MwString) (owner : MwLoginInfo) (invite : MwString)
  /-- A channel is made for a conference, and could be created if `ok`. -/
  | opening (a : Nat) (name : MwString) (ok : Bool)
  | welcome (a : Nat) (name title : MwString) (entries : List (UInt16 × MwLoginInfo))
  | joined (a : Nat) (id : UInt16) (info : MwLoginInfo)
  | parted (a : Nat) (id : UInt16) (m : Nat)
  /-- The client is told something that a member has sent. -/
  | said (a : Nat) (e : ConfEvent)
  /-- A conference comes to its end, and something is noted before. -/
  | gone (a : Nat) (e : Option ConfEvent)
  /-- All conferences come to their end, one after the other. -/
  | stopped

/-- The members that can be read, up to the first that cannot -/
def entriesGet : Nat → GetBuffer → List (UInt16 × MwLoginInfo)
  | 0, _ => []
  | count + 1, b => if (memberGet b).2.error then [] else (memberGet b).1 :: entriesGet count (memberGet b).2

def welcomeDeed (a : Nat) (b : GetBuffer) : Deed :=
  let r := welcomeGet b
  if r.2.error then .gone a none
  else .welcome a r.1.1 r.1.2.1 (entriesGet r.1.2.2.toNat r.2)

def joinDeed (a : Nat) (conf : MwConference) (b : GetBuffer) : Deed :=
  if conf.state = .pending ∨ (memberGet b).2.error then .nothing
  else .joined a (memberGet b).1.1 (memberGet b).1.2

def partDeed (book : Book) (a : Nat) (b : GetBuffer) : Deed :=
  if (guint16Get 0 b).2.error then .nothing
  else match book.memberFind a (guint16Get 0 b).1 with
    | none => .nothing
    | some m => .parted a (guint16Get 0 b).1 m

def textDeed (a m : Nat) (b : GetBuffer) : Deed :=
  if (mwStringGet b).2.error then .nothing
  else match (mwStringGet b).1 with
    | none => .nothing
    | some text => .said a (.text m text)

def dataDeed (a m : Nat) (b : GetBuffer) : Deed :=
  let type := guint32Get 0 b
  let subtype := guint32Get 0 type.2
  if subtype.2.error then .nothing
  else if type.1 ≠ 1 then .nothing
  else .said a (.typing m (subtype.1 = 0))

def messageDeed (book : Book) (a : Nat) (b : GetBuffer) : Deed :=
  let r := senderGet b
  if b.rem = 0 then .nothing
  else if r.2.error then .nothing
  else match book.memberFind a r.1.1 with
    | none => .nothing
    | some m =>
        if r.1.2 = 1 then textDeed a m r.2
        else if r.1.2 = 2 then dataDeed a m r.2
        else .nothing

/-- What a message to a conference comes to -/
def recvDeed (book : Book) (a : Nat) (conf : MwConference) (msg : Payload) : Deed :=
  let b := GetBuffer.wrapOpaque msg.2
  if msg.1 = msgWelcome then welcomeDeed a b
  else if msg.1 = msgJoin then joinDeed a conf b
  else if msg.1 = msgPart then partDeed book a b
  else if msg.1 = msgMessage then messageDeed book a b
  else .nothing

def createDeed (addtl : MwOpaque) : Deed :=
  let r := inviteGet (.wrapOpaque addtl)
  if r.2.error then .junk else .invited r.1.1 r.1.2.1 r.1.2.2.1 r.1.2.2.2

/-- What opening a conference comes to, by what `mwChannel_create` returns -/
def openingDeed (ret : Int) (a : Nat) (conf : MwConference) (generated : CString) : Deed :=
  if conf.state ≠ .new ∨ conf.channel ≠ none then .nothing
  else .opening a (conf.name.or (some generated)) (ret = 0)

/-- The deed about a conference, if it is there -/
def Book.about (book : Book) (a : Nat) (f : MwConference → Deed) : Deed :=
  match book.conf a with
  | none => .nothing
  | some conf => f conf

/-- The deed about the conference of a channel, if it has one -/
def Book.aboutChan (book : Book) (chan : Nat) (f : Nat → Deed) : Deed :=
  match book.confFind chan with
  | none => .nothing
  | some a => f a

def deed (s : ConfSide) : ConfInput → Deed
  | .new title => .new title
  | .opening a generated => s.about a fun conf => openingDeed (s.ret s.calls) a conf generated
  | .destroy a _ _ => s.about a fun _ => .gone a (some .destroyed)
  | .recvCreate addtl => createDeed addtl
  | .recv chan msg => s.aboutChan chan fun a => s.about a fun conf => recvDeed s.toBook a conf msg
  | .recvDestroy chan reason =>
      s.aboutChan chan fun a => s.about a fun _ => .gone a (some (.closed reason))
  | .stop | .clear => .stopped
  | .accept _ | .invite .. | .sendText .. | .sendTyping .. | .recvAccept _ => .nothing

/-! ## What deeds do -/

/-- A new conference -/
def Book.addConf (b : Book) (conf : MwConference) : Book :=
  { b.setConf b.nextConf (some conf) with
    confs := b.nextConf :: b.confs, nextConf := b.nextConf + 1 }

/-- A new member, with its login info in new memory -/
def Book.addEntry (b : Book) (a : Nat) (e : UInt16 × MwLoginInfo) : Book :=
  (b.newLogin e.2).memberAdd a e.1 b.nextLogin

/-- New members, one after the other -/
def Book.addEntries (b : Book) (a : Nat) (entries : List (UInt16 × MwLoginInfo)) : Book :=
  entries.foldl (addEntry · a ·) b

/-- Something is noted, if there is anything to note. -/
def Book.note (b : Book) (a : Nat) (e : Option ConfEvent) : Book :=
  match e with
  | none => b
  | some e => b.record a e

/-- What happens to a conference whose channel is made -/
def Book.opening (b : Book) (a : Nat) (name : MwString) (ok : Bool) : Book :=
  { b.modifyConf a fun conf =>
      { conf with
        name := name
        state := if ok then .pending else .error
        channel := if ok then some b.nextChan else conf.channel } with
    nextChan := b.nextChan + 1 }

/-- The end of so many conferences, from the first in the list on -/
def Book.freeAll : Nat → Book → Book
  | 0, b => b
  | rounds + 1, b =>
      match b.confs with
      | [] => b
      | a :: _ => freeAll rounds (b.confFree a)

def Book.does (b : Book) : Deed → Book
  | .nothing => b
  | .new title => (b.addConf { title := title }).record b.nextConf .created
  | .junk => { (b.addConf {}).confFree b.nextConf with nextChan := b.nextChan + 1 }
  | .invited name title owner invite =>
      { (b.addConf
          { state := .invited, channel := some b.nextChan, name := name, title := title
            owner := owner }).record b.nextConf (.invited owner invite) with
        nextChan := b.nextChan + 1 }
  | .opening a name ok => b.opening a name ok
  | .welcome a name title entries =>
      (((b.modifyConf a fun conf => { conf with name := name, title := title }).addEntries a
        entries).modifyConf a fun conf => { conf with state := .opened }).record a
          (.opened (List.range' b.nextLogin entries.length))
  | .joined a id info => (b.addEntry a (id, info)).record a (.peerJoined b.nextLogin)
  | .parted a id m => (b.record a (.peerParted m)).memberRem a id
  | .said a e => b.record a e
  | .gone a e => (b.note a e).confFree a
  | .stopped => b.freeAll b.confs.length

/-! ## The service does its deeds -/

/-- What is in the list is there. -/
def Book.Listed (b : Book) : Prop := ∀ a ∈ b.confs, (b.conf a).isSome

namespace Book

variable {b : Book} {a a' : Nat} {conf : MwConference}

@[simp] theorem conf_setConf_self (b : Book) (a : Nat) (c : Option MwConference) :
    (b.setConf a c).conf a = c := Function.update_self ..

theorem conf_setConf_of_ne (b : Book) (h : a' ≠ a) (c : Option MwConference) :
    (b.setConf a c).conf a' = b.conf a' := Function.update_of_ne h ..

@[simp] theorem setConf_setConf (b : Book) (a : Nat) (c c' : Option MwConference) :
    (b.setConf a c).setConf a c' = b.setConf a c' := by
  simp [setConf]

@[simp] theorem modifyConf_modifyConf (b : Book) (a : Nat) (f g : MwConference → MwConference) :
    (b.modifyConf a f).modifyConf a g = b.modifyConf a (g ∘ f) := by
  simp [modifyConf]

theorem modifyConf_of_some (h : b.conf a = some conf) (f : MwConference → MwConference) :
    b.modifyConf a f = b.setConf a (some (f conf)) := by
  simp [modifyConf, h]

@[simp] theorem nextLogin_addEntry (b : Book) (a : Nat) (e : UInt16 × MwLoginInfo) :
    (b.addEntry a e).nextLogin = b.nextLogin + 1 := by
  simp only [addEntry, memberAdd, memberRem]
  split <;> rfl

@[simp] theorem members_record (b : Book) (a a' : Nat) (e : ConfEvent) :
    (b.record a e).members a' = b.members a' := rfl

/-- What a conference is like when it is freed does not matter, but for its table. -/
theorem confFree_modifyConf (b : Book) (a : Nat) {f : MwConference → MwConference}
    (hf : ∀ conf, (f conf).members = conf.members) :
    (b.modifyConf a f).confFree a = b.confFree a := by
  have hmembers : (b.modifyConf a f).members a = b.members a := by
    simp only [members, modifyConf, conf_setConf_self]
    cases b.conf a with
    | none => rfl
    | some conf => exact hf conf
  rw [confFree, hmembers, confFree, modifyConf, setConf_setConf]
  rfl

theorem Listed.confFree (h : b.Listed) (a : Nat) : (b.confFree a).Listed := by
  intro a' ha'
  obtain ⟨hmem, hne⟩ : a' ∈ b.confs ∧ a' ≠ a := by simpa [Book.confFree] using ha'
  exact (congrArg Option.isSome (conf_setConf_of_ne b hne none)).trans (h a' hmem)

end Book

section

variable {s : ConfSide} {a : Nat} {conf : MwConference} {b : GetBuffer}

theorem closeChannel_toBook (conf : MwConference) (reason : UInt32) (text : MwString)
    (s : ConfSide) : (closeChannel conf reason text s).2.toBook = s.toBook := by
  unfold closeChannel
  cases conf.channel <;> rfl

theorem mwConferenceDestroy_toBook (hconf : s.conf a = some conf) (reason : UInt32)
    (text : MwString) :
    (mwConferenceDestroy a reason text s).2.toBook = s.confFree a := by
  unfold mwConferenceDestroy
  rw [StateM.get_bind, hconf]
  show (closeChannel conf reason text s).2.confFree a = s.confFree a
  rw [closeChannel_toBook]

theorem sendOn_toBook (conf : MwConference) (msg : Payload) (s : ConfSide) :
    (sendOn conf msg s).2.toBook = s.toBook := by
  unfold sendOn
  cases conf.channel <;> rfl

theorem mwConferenceSend_toBook (a : Nat) (msg : Payload) (s : ConfSide) :
    (mwConferenceSend a msg s).2.toBook = s.toBook := by
  unfold mwConferenceSend
  rw [StateM.get_bind]
  cases s.conf a with
  | none => rfl
  | some conf => exact sendOn_toBook conf msg s

theorem mwConferenceSendTyping_toBook (a : Nat) (typing : Bool) (s : ConfSide) :
    (mwConferenceSendTyping a typing s).2.toBook = s.toBook := by
  unfold mwConferenceSendTyping
  rw [StateM.get_bind]
  cases s.conf a with
  | none => rfl
  | some conf =>
    dsimp only
    rw [StateM.ite_apply]
    split
    · rfl
    · exact sendOn_toBook conf _ s

theorem mwConferenceAccept_toBook (a : Nat) (s : ConfSide) :
    (mwConferenceAccept a s).2.toBook = s.toBook := by
  unfold mwConferenceAccept
  rw [StateM.get_bind]
  cases s.conf a with
  | none => rfl
  | some conf =>
    dsimp only
    rw [StateM.ite_apply]
    split
    · rfl
    · cases conf.channel with
      | none => rfl
      | some chan =>
        dsimp only
        rw [StateM.bind_apply, StateM.ite_apply]
        split <;> rfl

theorem mwConferenceOpen_toBook (hconf : s.conf a = some conf) (generated : CString) :
    (mwConferenceOpen a generated s).2.toBook =
      s.does (openingDeed (s.ret s.calls) a conf generated) := by
  unfold mwConferenceOpen openingDeed
  rw [StateM.get_bind, hconf]
  dsimp only
  rw [StateM.ite_apply]
  split
  · rfl
  · simp only [StateM.bind_apply, StateM.pure_apply, newChannel, modifyConf, confState,
      modifyBook, StateM.modify_apply, channelCall, Book.does, Book.opening]
    by_cases hret : s.ret s.calls = 0
    · simp [hret, Book.modifyConf, Book.setConf, hconf]
    · simp [hret, Book.modifyConf, Book.setConf, hconf]

end

/-! ### Arrivals -/

section

variable {s : ConfSide} {a : Nat} {conf : MwConference} {b : GetBuffer}

theorem welcomeMembers_eq (a count : Nat) (b : GetBuffer) (l : List Nat) (s : ConfSide) :
    welcomeMembers a count b l s =
      (l ++ List.range' s.nextLogin (entriesGet count b).length,
        { s with toBook := s.addEntries a (entriesGet count b) }) := by
  induction count generalizing b l s with
  | zero => simp [welcomeMembers, entriesGet, Book.addEntries]
  | succ count ih =>
    unfold welcomeMembers entriesGet
    generalize memberGet b = r
    obtain ⟨⟨id, info⟩, b'⟩ := r
    dsimp only
    rw [StateM.ite_apply]
    split
    · simp [Book.addEntries]
    · rw [StateM.get_bind, StateM.bind_apply, ih]
      refine Prod.ext ?_ rfl
      show l ++ [s.nextLogin] ++ List.range' (s.addEntry a (id, info)).nextLogin _ = _
      rw [Book.nextLogin_addEntry, List.length_cons, List.range'_succ, List.append_assoc,
        List.singleton_append]

theorem conf_modifyConf_self (hconf : s.conf a = some conf) (f : MwConference → MwConference) :
    (s.modifyConf a f).conf a = some (f conf) := by
  simp [Book.modifyConf, hconf]

theorem welcomeRecv_toBook (hconf : s.conf a = some conf) (b : GetBuffer) :
    (welcomeRecv a b s).2.toBook = s.does (welcomeDeed a b) := by
  unfold welcomeRecv welcomeDeed
  generalize welcomeGet b = r
  obtain ⟨⟨name, title, count⟩, b'⟩ := r
  dsimp only
  rw [StateM.bind_apply, StateM.ite_apply]
  split
  · rw [StateM.discard_apply]
    exact (mwConferenceDestroy_toBook (conf_modifyConf_self hconf _) _ _).trans
      (Book.confFree_modifyConf s.toBook a fun _ => rfl)
  · rw [StateM.bind_apply, welcomeMembers_eq]
    rfl

theorem joinRecv_toBook (a : Nat) (conf : MwConference) (b : GetBuffer) (s : ConfSide) :
    (joinRecv a conf b s).2.toBook = s.does (joinDeed a conf b) := by
  unfold joinRecv joinDeed
  generalize memberGet b = r
  obtain ⟨⟨id, info⟩, b'⟩ := r
  rw [StateM.ite_apply]
  by_cases hstate : conf.state = .pending
  · rw [if_pos hstate, if_pos (.inl hstate)]
    rfl
  · rw [if_neg hstate]
    dsimp only
    rw [StateM.ite_apply]
    by_cases herror : b'.error = true
    · rw [if_pos herror, if_pos (.inr herror)]
      rfl
    · rw [if_neg herror, if_neg (not_or.mpr ⟨hstate, herror⟩)]
      rfl

theorem partRecv_toBook (a : Nat) (b : GetBuffer) (s : ConfSide) :
    (partRecv a b s).2.toBook = s.does (partDeed s.toBook a b) := by
  unfold partRecv partDeed
  generalize guint16Get 0 b = r
  obtain ⟨id, b'⟩ := r
  dsimp only
  rw [StateM.ite_apply]
  split
  · rfl
  · rw [StateM.get_bind]
    cases s.memberFind a id <;> rfl

theorem textRecv_toBook (a m : Nat) (b : GetBuffer) (s : ConfSide) :
    (textRecv a m b s).2.toBook = s.does (textDeed a m b) := by
  unfold textRecv textDeed
  generalize mwStringGet b = r
  obtain ⟨text, b'⟩ := r
  dsimp only
  rw [StateM.ite_apply]
  split
  · rfl
  · cases text <;> rfl

theorem dataRecv_toBook (a m : Nat) (b : GetBuffer) (s : ConfSide) :
    (dataRecv a m b s).2.toBook = s.does (dataDeed a m b) := by
  unfold dataRecv dataDeed
  generalize guint32Get 0 b = r
  obtain ⟨type, b'⟩ := r
  dsimp only
  generalize guint32Get 0 b' = r
  obtain ⟨subtype, b''⟩ := r
  dsimp only
  rw [StateM.ite_apply, StateM.ite_apply]
  split
  · rfl
  · split <;> rfl

theorem messageRecv_toBook (a : Nat) (b : GetBuffer) (s : ConfSide) :
    (messageRecv a b s).2.toBook = s.does (messageDeed s.toBook a b) := by
  unfold messageRecv messageDeed
  generalize senderGet b = r
  obtain ⟨⟨id, type⟩, b'⟩ := r
  dsimp only
  rw [StateM.ite_apply]
  split
  · rfl
  · rw [StateM.ite_apply]
    split
    · rfl
    · rw [StateM.get_bind]
      cases s.memberFind a id with
      | none => rfl
      | some m =>
        dsimp only
        rw [StateM.ite_apply, StateM.ite_apply]
        split
        · exact textRecv_toBook a m _ s
        · split
          · exact dataRecv_toBook a m _ s
          · rfl

theorem recv_toBook (chan : Nat) (msg : Payload) (s : ConfSide) :
    (recv chan msg s).2.toBook =
      s.does (s.aboutChan chan fun a => s.about a fun conf => recvDeed s.toBook a conf msg) := by
  unfold recv Book.aboutChan
  rw [StateM.get_bind]
  cases s.confFind chan with
  | none => rfl
  | some a =>
    unfold Book.about
    dsimp only
    rw [StateM.get_bind]
    cases hconf : s.conf a with
    | none => rfl
    | some conf =>
      unfold recvDeed
      simp only [StateM.ite_apply]
      split
      · exact welcomeRecv_toBook hconf _
      · split
        · exact joinRecv_toBook a conf _ s
        · split
          · exact partRecv_toBook a _ s
          · split
            · exact messageRecv_toBook a _ s
            · rfl

theorem recvChannelDestroy_toBook (chan : Nat) (reason : UInt32) (s : ConfSide)
    (hlisted : s.Listed) :
    (recvChannelDestroy chan reason s).2.toBook =
      s.does (s.aboutChan chan fun a => s.about a fun _ => .gone a (some (.closed reason))) := by
  unfold recvChannelDestroy Book.aboutChan
  rw [StateM.get_bind]
  cases hfind : s.confFind chan with
  | none => rfl
  | some a =>
    obtain ⟨conf, hconf⟩ := Option.isSome_iff_exists.mp (hlisted a (List.mem_of_find?_eq_some hfind))
    unfold Book.about
    dsimp only
    rw [hconf]
    have hended : (((s.modifyConf a fun conf => { conf with channel := none }).modifyConf a fun conf =>
        { conf with state := if reason ≠ 0 then .error else .closing }).record a
          (.closed reason)).conf a =
        some { conf with channel := none, state := if reason ≠ 0 then .error else .closing } := by
      simp [Book.record, Book.modifyConf, hconf]
    simp only [StateM.bind_apply, StateM.discard_apply, modifyConf, confState, modifyBook,
      StateM.modify_apply, record]
    rw [mwConferenceDestroy_toBook hended]
    simp only [Book.modifyConf_modifyConf]
    exact Book.confFree_modifyConf (s.record a (.closed reason)) a fun _ => rfl

/-- The conferences with a new channel -/
def Book.addChan (b : Book) : Book := { b with nextChan := b.nextChan + 1 }

theorem newChannel_apply (s : ConfSide) :
    newChannel s = (s.nextChan, { s with toBook := s.addChan }) := rfl

theorem confNew_apply (s : ConfSide) :
    confNew s = (s.nextConf, { s with toBook := s.addConf {} }) := rfl

theorem modifyConf_apply (a : Nat) (f : MwConference → MwConference) (s : ConfSide) :
    modifyConf a f s = ((), { s with toBook := s.modifyConf a f }) := rfl

theorem Book.conf_addConf_self (b : Book) (conf : MwConference) :
    (b.addConf conf).conf b.nextConf = some conf := Function.update_self ..

theorem Book.modifyConf_addConf (b : Book) (conf : MwConference)
    (f : MwConference → MwConference) :
    (b.addConf conf).modifyConf b.nextConf f = b.addConf (f conf) := by
  simp [addConf, modifyConf, setConf]

theorem recvChannelCreate_toBook (addtl : MwOpaque) (s : ConfSide) :
    (recvChannelCreate addtl s).2.toBook = s.does (createDeed addtl) := by
  unfold recvChannelCreate createDeed
  generalize inviteGet (.wrapOpaque addtl) = r
  obtain ⟨⟨name, title, owner, invite⟩, b⟩ := r
  rw [StateM.bind_apply, newChannel_apply, StateM.bind_apply, confNew_apply]
  dsimp only
  rw [StateM.bind_apply, modifyConf_apply, StateM.ite_apply]
  split
  · rw [StateM.discard_apply]
    refine (mwConferenceDestroy_toBook
      (conf_modifyConf_self (Book.conf_addConf_self s.addChan {}) _) _ _).trans ?_
    exact Book.confFree_modifyConf (s.addChan.addConf {}) s.nextConf fun _ => rfl
  · rw [StateM.bind_apply, confState, modifyConf_apply]
    dsimp only
    rw [Book.modifyConf_modifyConf, Book.modifyConf_addConf]
    rfl

theorem stopLoop_toBook (rounds : Nat) (s : ConfSide) (hlisted : s.Listed) :
    (stopLoop rounds s).2.toBook = s.freeAll rounds := by
  induction rounds generalizing s with
  | zero => rfl
  | succ rounds ih =>
    unfold stopLoop Book.freeAll
    rw [StateM.get_bind]
    cases hconfs : s.confs with
    | nil => rfl
    | cons a rest =>
      obtain ⟨conf, hconf⟩ := Option.isSome_iff_exists.mp (hlisted a (by simp [hconfs]))
      have hdestroy := mwConferenceDestroy_toBook hconf errSuccess none
      dsimp only
      rw [StateM.bind_apply, StateM.discard_apply, ih, hdestroy]
      rw [hdestroy]
      exact hlisted.confFree a

/-- Freeing them does to the conferences what destroying them does. -/
theorem clearLoop_toBook (rounds : Nat) (s : ConfSide) :
    (clearLoop rounds s).2.toBook = s.freeAll rounds := by
  induction rounds generalizing s with
  | zero => rfl
  | succ rounds ih =>
    unfold clearLoop Book.freeAll
    rw [StateM.get_bind]
    cases hconfs : s.confs with
    | nil => rfl
    | cons a rest =>
      dsimp only
      rw [StateM.bind_apply, ih]
      rfl

end

/-- The service does the deed that its input comes to. -/
theorem step_does (i : ConfInput) (s : ConfSide) (hlisted : s.Listed) :
    (step i s).2.toBook = s.does (deed s i) := by
  cases i with
  | new title => 
    exact congrArg (Book.record · s.nextConf .created)
      (Book.modifyConf_addConf s.toBook {} fun conf => { conf with title := title })
  | opening a generated =>
    show (mwConferenceOpen a generated s).2.toBook =
      s.does (s.about a fun conf => openingDeed (s.ret s.calls) a conf generated)
    unfold Book.about
    cases hconf : s.conf a with
    | none =>
      unfold mwConferenceOpen
      rw [StateM.get_bind, hconf]
      rfl
    | some conf => exact mwConferenceOpen_toBook hconf generated
  | accept a => exact mwConferenceAccept_toBook a s
  | invite a who text => exact mwConferenceSend_toBook a _ s
  | sendText a text => exact mwConferenceSend_toBook a _ s
  | sendTyping a typing => exact mwConferenceSendTyping_toBook a typing s
  | destroy a reason text =>
    show (clientDestroy a reason text s).2.toBook =
      s.does (s.about a fun _ => .gone a (some .destroyed))
    unfold Book.about clientDestroy
    rw [StateM.get_bind]
    cases hconf : s.conf a with
    | none => rfl
    | some conf =>
      dsimp only
      rw [StateM.bind_apply, StateM.discard_apply]
      exact mwConferenceDestroy_toBook (s := { s with toBook := s.record a .destroyed }) hconf
        reason text
  | recvCreate addtl => exact recvChannelCreate_toBook addtl s
  | recvAccept chan => rfl
  | recv chan msg => exact recv_toBook chan msg s
  | recvDestroy chan reason => exact recvChannelDestroy_toBook chan reason s hlisted
  | stop => exact stopLoop_toBook s.confs.length s hlisted
  | clear => exact clearLoop_toBook s.confs.length s

end Meanwhile.Conference
