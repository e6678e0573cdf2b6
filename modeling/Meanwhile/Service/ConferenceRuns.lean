-- SUMMARY: The states and channels of conferences over whole runs, the order of what the client is told, and conferences that end without a word.
import Meanwhile.Lib.History
import Meanwhile.Lib.Latch
import Meanwhile.Service.ConferenceDeeds

/-!
# Runs of the conference service

What holds of all conferences in every run: which states go with a channel, that no
channel has two conferences, and in which order things happen to a conference. The
inductions go over the deeds of a run, each of which fits the conferences there are.
-/

namespace Meanwhile.Conference

open Opening (MwConferenceState)

/-! ## Deeds that fit -/

/-- What a deed takes for granted of the conferences -/
def Deed.Fits (b : Book) : Deed → Prop
  | .opening a _ _ => ∃ conf, b.conf a = some conf ∧ conf.state = .new ∧ conf.channel = none
  | .welcome a _ _ _ => ∃ conf, b.conf a = some conf ∧ conf.channel.isSome
  | .joined a _ _ => ∃ conf, b.conf a = some conf ∧ conf.channel.isSome ∧ conf.state ≠ .pending
  | .parted a id m => b.memberFind a id = some m
  | .said a e => ∃ id m, b.memberFind a id = some m ∧
      ((∃ text, e = .text m text) ∨ ∃ typing, e = .typing m typing)
  | .gone a e => (b.conf a).isSome ∧ (e = none ∨ (∃ reason, e = some (.closed reason)) ∨
      e = some .destroyed)
  | .nothing | .new _ | .junk | .invited .. | .stopped => True

section

variable {b : Book} {a : Nat} {conf : MwConference}

theorem confFind_eq_some {chan : Nat} (h : b.confFind chan = some a) :
    a ∈ b.confs ∧ ∃ conf, b.conf a = some conf ∧ conf.channel = some chan := by
  refine ⟨List.mem_of_find?_eq_some h, ?_⟩
  simpa [Option.any_eq_true] using List.find?_some h

theorem welcomeDeed_fits (hconf : b.conf a = some conf) (hchan : conf.channel.isSome)
    (buf : GetBuffer) : (welcomeDeed a buf).Fits b := by
  unfold welcomeDeed
  dsimp only
  split
  · exact ⟨by rw [hconf]; rfl, .inl rfl⟩
  · exact ⟨conf, hconf, hchan⟩

theorem joinDeed_fits (hconf : b.conf a = some conf) (hchan : conf.channel.isSome)
    (buf : GetBuffer) : (joinDeed a conf buf).Fits b := by
  unfold joinDeed
  split
  · trivial
  · rename_i hor
    exact ⟨conf, hconf, hchan, fun hstate => hor (.inl hstate)⟩

theorem partDeed_fits (b : Book) (a : Nat) (buf : GetBuffer) : (partDeed b a buf).Fits b := by
  unfold partDeed
  split
  · trivial
  · split
    · trivial
    · assumption

theorem messageDeed_fits (b : Book) (a : Nat) (buf : GetBuffer) : (messageDeed b a buf).Fits b := by
  unfold messageDeed
  dsimp only
  split
  · trivial
  · split
    · trivial
    · split
      · trivial
      · rename_i m hm
        unfold textDeed dataDeed
        dsimp only
        split
        · split
          · trivial
          · split
            · trivial
            · exact ⟨_, m, hm, .inl ⟨_, rfl⟩⟩
        · split
          · split
            · trivial
            · split
              · trivial
              · exact ⟨_, m, hm, .inr ⟨_, rfl⟩⟩
          · trivial

theorem recvDeed_fits (hconf : b.conf a = some conf) (hchan : conf.channel.isSome)
    (msg : Payload) : (recvDeed b a conf msg).Fits b := by
  unfold recvDeed
  dsimp only
  split
  · exact welcomeDeed_fits hconf hchan _
  · split
    · exact joinDeed_fits hconf hchan _
    · split
      · exact partDeed_fits b a _
      · split
        · exact messageDeed_fits b a _
        · trivial

theorem openingDeed_fits (hconf : b.conf a = some conf) (ret : Int) (generated : CString) :
    (openingDeed ret a conf generated).Fits b := by
  unfold openingDeed
  split
  · trivial
  · rename_i hor
    obtain ⟨hstate, hchan⟩ := not_or.mp hor
    exact ⟨conf, hconf, not_not.mp hstate, not_not.mp hchan⟩

theorem about_fits {f : MwConference → Deed} (h : ∀ conf, b.conf a = some conf → (f conf).Fits b) :
    (b.about a f).Fits b := by
  unfold Book.about
  split
  · trivial
  · exact h _ ‹_›

theorem aboutChan_fits {f : Nat → Deed} {chan : Nat}
    (h : ∀ a conf, b.conf a = some conf → conf.channel = some chan → (f a).Fits b) :
    (b.aboutChan chan f).Fits b := by
  unfold Book.aboutChan
  split
  · trivial
  · rename_i a hfind
    obtain ⟨-, conf, hconf, hchan⟩ := confFind_eq_some hfind
    exact h a conf hconf hchan

theorem deed_fits (s : ConfSide) (i : ConfInput) : (deed s i).Fits s.toBook := by
  cases i with
  | opening a generated => exact about_fits fun conf hconf => openingDeed_fits hconf _ generated
  | destroy a reason text =>
    exact about_fits fun conf hconf => ⟨by rw [hconf]; rfl, .inr (.inr rfl)⟩
  | recvCreate addtl =>
    show (createDeed addtl).Fits s.toBook
    unfold createDeed
    dsimp only
    split <;> trivial
  | recv chan msg =>
    refine aboutChan_fits fun a conf hconf hchan => about_fits fun conf' hconf' => ?_
    obtain rfl := Option.some.inj (hconf.symm.trans hconf')
    exact recvDeed_fits hconf (by rw [hchan]; rfl) msg
  | recvDestroy chan reason =>
    refine aboutChan_fits fun a conf hconf hchan => about_fits fun conf' hconf' => ?_
    exact ⟨by rw [hconf]; rfl, .inr (.inl ⟨reason, rfl⟩)⟩
  | new | accept | invite | sendText | sendTyping | recvAccept | stop | clear => trivial

end

/-! ## States and channels -/

/-- What the state of a conference says of its channel and its members -/
structure MwConference.InLine (conf : MwConference) : Prop where
  state : conf.state ≠ .closing ∧ conf.state ≠ .unknown
  channel : conf.channel.isSome ↔
    conf.state = .pending ∨ conf.state = .invited ∨ conf.state = .opened
  members : conf.members ≠ [] → conf.state = .invited ∨ conf.state = .opened

structure Orderly (b : Book) : Prop where
  listed : ∀ a, a ∈ b.confs ↔ (b.conf a).isSome
  numbered : ∀ a conf, b.conf a = some conf → a < b.nextConf
  chans : ∀ a conf chan, b.conf a = some conf → conf.channel = some chan → chan < b.nextChan
  inLine : ∀ a conf, b.conf a = some conf → conf.InLine
  /-- No channel has two conferences. -/
  once : ∀ a a' conf conf' chan, b.conf a = some conf → b.conf a' = some conf' →
    conf.channel = some chan → conf'.channel = some chan → a = a'

namespace Orderly

variable {b b' : Book} {a : Nat} {conf conf' : MwConference}

theorem empty : Orderly {} where
  listed := by simp
  numbered := by simp
  chans := by simp
  inLine := by simp
  once := by simp

theorem absent (h : Orderly b) : b.conf b.nextConf = none := by
  cases hconf : b.conf b.nextConf with
  | none => rfl
  | some conf => exact absurd (h.numbered _ _ hconf) (Nat.lt_irrefl _)

/-- Neither the memory nor the log matters. -/
theorem congr (h : Orderly b) (hconf : b'.conf = b.conf) (hconfs : b'.confs = b.confs)
    (hnextConf : b'.nextConf = b.nextConf) (hnextChan : b.nextChan ≤ b'.nextChan) : Orderly b' where
  listed := by rw [hconf, hconfs]; exact h.listed
  numbered := by rw [hconf, hnextConf]; exact h.numbered
  chans := by
    rw [hconf]
    exact fun a conf chan hc hchan => (h.chans a conf chan hc hchan).trans_le hnextChan
  inLine := by rw [hconf]; exact h.inLine
  once := by rw [hconf]; exact h.once

theorem addChan (h : Orderly b) : Orderly b.addChan := h.congr rfl rfl rfl (Nat.le_succ _)

/-- A conference changes, without a channel that others may have. -/
theorem setConf (h : Orderly b) (hconf : b.conf a = some conf) (hin : conf'.InLine)
    (hchan : ∀ chan, conf'.channel = some chan → chan < b.nextChan ∧
      ∀ a' c', a' ≠ a → b.conf a' = some c' → c'.channel ≠ some chan) :
    Orderly (b.setConf a (some conf')) := by
  have hcases : ∀ a' c, (b.setConf a (some conf')).conf a' = some c →
      a' = a ∧ c = conf' ∨ a' ≠ a ∧ b.conf a' = some c := by
    intro a' c hc
    by_cases ha : a' = a
    · subst ha
      exact .inl ⟨rfl, by simpa using hc.symm⟩
    · exact .inr ⟨ha, by rwa [Book.conf_setConf_of_ne b ha] at hc⟩
  refine ⟨?_, ?_, ?_, ?_, ?_⟩
  · intro a'
    by_cases ha : a' = a
    · subst ha
      simp [Book.setConf, h.listed, hconf]
    · rw [Book.conf_setConf_of_ne b ha]
      exact h.listed a'
  · intro a' c hc
    rcases hcases a' c hc with ⟨rfl, -⟩ | ⟨-, hc⟩
    · exact h.numbered _ _ hconf
    · exact h.numbered _ _ hc
  · intro a' c chan hc hcchan
    rcases hcases a' c hc with ⟨-, rfl⟩ | ⟨-, hc⟩
    · exact (hchan chan hcchan).1
    · exact h.chans _ _ _ hc hcchan
  · intro a' c hc
    rcases hcases a' c hc with ⟨-, rfl⟩ | ⟨-, hc⟩
    · exact hin
    · exact h.inLine _ _ hc
  · intro a1 a2 c1 c2 chan h1 h2 hc1 hc2
    rcases hcases a1 c1 h1 with ⟨rfl, rfl⟩ | ⟨hne1, hold1⟩ <;>
      rcases hcases a2 c2 h2 with ⟨rfl, rfl⟩ | ⟨hne2, hold2⟩
    · rfl
    · exact absurd hc2 ((hchan chan hc1).2 a2 c2 hne2 hold2)
    · exact absurd hc1 ((hchan chan hc2).2 a1 c1 hne1 hold1)
    · exact h.once a1 a2 c1 c2 chan hold1 hold2 hc1 hc2

/-- A conference keeps its channel. -/
theorem keepChan (h : Orderly b) (hconf : b.conf a = some conf) (hin : conf'.InLine)
    (hchan : conf'.channel = conf.channel) : Orderly (b.setConf a (some conf')) := by
  refine h.setConf hconf hin fun chan hc => ?_
  rw [hchan] at hc
  exact ⟨h.chans _ _ _ hconf hc, fun a' c' hne hc' hc'chan =>
    hne (h.once a' a c' conf chan hc' hconf hc'chan hc)⟩

/-- There is a new conference, with a new channel or none. -/
theorem addConf (h : Orderly b) (hin : conf.InLine)
    (hchan : ∀ chan, conf.channel = some chan → chan < b.nextChan ∧
      ∀ a' c', b.conf a' = some c' → c'.channel ≠ some chan) : Orderly (b.addConf conf) := by
  have hcases : ∀ a' c, (b.addConf conf).conf a' = some c →
      a' = b.nextConf ∧ c = conf ∨ b.conf a' = some c := by
    intro a' c hc
    by_cases ha : a' = b.nextConf
    · subst ha
      rw [Book.conf_addConf_self] at hc
      exact .inl ⟨rfl, (Option.some.inj hc).symm⟩
    · exact .inr ((Function.update_of_ne ha ..).symm.trans hc)
  refine ⟨?_, ?_, ?_, ?_, ?_⟩
  · intro a'
    by_cases ha : a' = b.nextConf
    · subst ha
      simp [Book.addConf, Book.setConf]
    · have hsame : (b.addConf conf).conf a' = b.conf a' := Function.update_of_ne ha ..
      rw [hsame, ← h.listed a']
      simp [Book.addConf, ha]
  · intro a' c hc
    rcases hcases a' c hc with ⟨rfl, -⟩ | hc
    · exact Nat.lt_succ_self _
    · exact (h.numbered _ _ hc).trans (Nat.lt_succ_self _)
  · intro a' c chan hc hcchan
    rcases hcases a' c hc with ⟨-, rfl⟩ | hc
    · exact (hchan chan hcchan).1
    · exact h.chans _ _ _ hc hcchan
  · intro a' c hc
    rcases hcases a' c hc with ⟨-, rfl⟩ | hc
    · exact hin
    · exact h.inLine _ _ hc
  · intro a1 a2 c1 c2 chan h1 h2 hc1 hc2
    rcases hcases a1 c1 h1 with ⟨rfl, rfl⟩ | hold1 <;>
      rcases hcases a2 c2 h2 with ⟨rfl, rfl⟩ | hold2
    · rfl
    · exact absurd hc2 ((hchan chan hc1).2 a2 c2 hold2)
    · exact absurd hc1 ((hchan chan hc2).2 a1 c1 hold1)
    · exact h.once a1 a2 c1 c2 chan hold1 hold2 hc1 hc2

theorem confFree (h : Orderly b) (a : Nat) : Orderly (b.confFree a) := by
  have hcases : ∀ a' c, (b.confFree a).conf a' = some c → a' ≠ a ∧ b.conf a' = some c := by
    intro a' c hc
    by_cases ha : a' = a
    · subst ha
      simp [Book.confFree] at hc
    · exact ⟨ha, (Function.update_of_ne ha ..).symm.trans hc⟩
  refine ⟨?_, ?_, ?_, ?_, ?_⟩
  · intro a'
    by_cases ha : a' = a
    · subst ha
      simp [Book.confFree]
    · have hsame : (b.confFree a).conf a' = b.conf a' := Function.update_of_ne ha ..
      rw [hsame, ← h.listed a']
      simp [Book.confFree, ha]
  · exact fun a' c hc => h.numbered _ _ (hcases a' c hc).2
  · exact fun a' c chan hc => h.chans _ _ _ (hcases a' c hc).2
  · exact fun a' c hc => h.inLine _ _ (hcases a' c hc).2
  · exact fun a1 a2 c1 c2 chan h1 h2 => h.once a1 a2 c1 c2 chan (hcases a1 c1 h1).2 (hcases a2 c2 h2).2

theorem freeAll (h : Orderly b) (rounds : Nat) : Orderly (b.freeAll rounds) := by
  induction rounds generalizing b with
  | zero => exact h
  | succ rounds ih =>
    unfold Book.freeAll
    split
    · exact h
    · exact ih (h.confFree _)

end Orderly

/-! ## Tables -/

/-- Only the table of a conference and the memory have changed. -/
structure Refills (a : Nat) (b b' : Book) : Prop where
  conf : ∃ f : MwConference → MwConference, (∀ conf, ∃ members, f conf = { conf with members := members }) ∧
    b'.conf = (b.modifyConf a f).conf
  confs : b'.confs = b.confs
  nextConf : b'.nextConf = b.nextConf
  nextChan : b'.nextChan = b.nextChan
  log : b'.log = b.log

namespace Refills

variable {b b' b'' : Book} {a : Nat} {conf : MwConference}

theorem of_conf (hconf : b'.conf = b.conf) (hconfs : b'.confs = b.confs)
    (hnextConf : b'.nextConf = b.nextConf) (hnextChan : b'.nextChan = b.nextChan)
    (hlog : b'.log = b.log) : Refills a b b' := by
  refine ⟨⟨id, fun conf => ⟨conf.members, rfl⟩, ?_⟩, hconfs, hnextConf, hnextChan, hlog⟩
  simp [hconf, Book.modifyConf, Book.setConf]

theorem refl (a : Nat) (b : Book) : Refills a b b := of_conf rfl rfl rfl rfl rfl

theorem trans (h : Refills a b b') (h' : Refills a b' b'') : Refills a b b'' := by
  obtain ⟨f, hf, hconf⟩ := h.conf
  obtain ⟨g, hg, hconf'⟩ := h'.conf
  refine ⟨⟨g ∘ f, ?_, ?_⟩, h'.confs.trans h.confs, h'.nextConf.trans h.nextConf,
    h'.nextChan.trans h.nextChan, h'.log.trans h.log⟩
  · intro conf
    obtain ⟨members, hmembers⟩ := hf conf
    obtain ⟨members', hmembers'⟩ := hg (f conf)
    exact ⟨members', by rw [Function.comp_apply, hmembers', hmembers]⟩
  · rw [hconf', ← Book.modifyConf_modifyConf]
    simp only [Book.modifyConf, Book.setConf, hconf]

theorem modifyConf (b : Book) (a : Nat) (members : MwConference → List (UInt16 × Nat)) :
    Refills a b (b.modifyConf a fun conf => { conf with members := members conf }) :=
  ⟨⟨_, fun conf => ⟨members conf, rfl⟩, rfl⟩, rfl, rfl, rfl, rfl⟩

theorem memberRem (b : Book) (a : Nat) (id : UInt16) : Refills a b (b.memberRem a id) := by
  unfold Book.memberRem
  split
  · exact refl a b
  · rename_i m hm
    have hfree : Refills a b (b.loginFree m) := of_conf rfl rfl rfl rfl rfl
    exact hfree.trans (modifyConf _ a _)

theorem addEntry (b : Book) (a : Nat) (e : UInt16 × MwLoginInfo) :
    Refills a b (b.addEntry a e) := by
  have hnew : Refills a b (b.newLogin e.2) := of_conf rfl rfl rfl rfl rfl
  exact (hnew.trans (memberRem _ a e.1)).trans (modifyConf _ a _)

theorem addEntries (b : Book) (a : Nat) (entries : List (UInt16 × MwLoginInfo)) :
    Refills a b (b.addEntries a entries) := by
  induction entries generalizing b with
  | nil => exact refl a b
  | cons e entries ih => exact (addEntry b a e).trans (ih _)

theorem conf_eq (h : Refills a b b') (hconf : b.conf a = some conf) :
    ∃ members, b'.conf = (b.setConf a (some { conf with members := members })).conf := by
  obtain ⟨f, hf, hb'⟩ := h.conf
  obtain ⟨members, hmembers⟩ := hf conf
  exact ⟨members, by rw [hb', Book.modifyConf_of_some hconf, hmembers]⟩

/-- A conference that may have members gets or loses some. -/
theorem orderly (h : Refills a b b') (hb : Orderly b) (hconf : b.conf a = some conf)
    (hstate : conf.state = .invited ∨ conf.state = .opened) : Orderly b' := by
  obtain ⟨members, hb'⟩ := h.conf_eq hconf
  have hin := hb.inLine a conf hconf
  have hin' : MwConference.InLine { conf with members := members } :=
    ⟨hin.state, hin.channel, fun _ => hstate⟩
  exact (hb.keepChan hconf hin' rfl).congr hb' h.confs h.nextConf h.nextChan.ge

end Refills

/-! ## The inductions -/

theorem memberFind_isSome {b : Book} {a : Nat} {id : UInt16} {m : Nat}
    (h : b.memberFind a id = some m) :
    ∃ conf, b.conf a = some conf ∧ conf.members ≠ [] := by
  unfold Book.memberFind Book.members at h
  cases hconf : b.conf a with
  | none =>
    rw [hconf] at h
    simp at h
  | some conf =>
    rw [hconf] at h
    refine ⟨conf, rfl, fun hnil => ?_⟩
    simp [hnil] at h

theorem Orderly.does {b : Book} (h : Orderly b) {d : Deed} (hfits : d.Fits b) :
    Orderly (b.does d) := by
  have hfresh : ∀ a' c', b.conf a' = some c' → c'.channel ≠ some b.nextChan :=
    fun a' c' hc' hchan => Nat.lt_irrefl _ (h.chans a' c' _ hc' hchan)
  cases d with
  | nothing => exact h
  | new title =>
    have hin : MwConference.InLine { title := title } := ⟨by simp, by simp, by simp⟩
    exact (h.addConf hin (by simp)).congr rfl rfl rfl le_rfl
  | junk =>
    have hin : MwConference.InLine {} := ⟨by simp, by simp, by simp⟩
    exact ((h.addConf hin (by simp)).confFree _).addChan
  | invited name title owner invite =>
    have hin : MwConference.InLine { state := .invited, channel := some b.nextChan
                                     name := name, title := title, owner := owner } :=
      ⟨by simp, by simp, by simp⟩
    refine (h.addChan.addConf hin fun chan hchan => ?_).congr rfl rfl rfl le_rfl
    obtain rfl := Option.some.inj hchan
    exact ⟨Nat.lt_succ_self _, hfresh⟩
  | opening a name ok =>
    obtain ⟨conf, hconf, hstate, hchan⟩ := hfits
    have hin := h.inLine a conf hconf
    have hnone : conf.members = [] := by
      by_contra hne
      rcases hin.members hne with h' | h' <;> exact absurd (hstate.symm.trans h') (by decide)
    show Orderly (b.opening a name ok)
    unfold Book.opening
    rw [Book.modifyConf_of_some hconf]
    have hin' : MwConference.InLine { conf with
        name := name, state := if ok then .pending else .error
        channel := if ok then some b.nextChan else conf.channel } := by
      cases ok with
      | true => exact ⟨by simp, by simp, by simp [hnone]⟩
      | false => exact ⟨by simp, by simp [hchan], by simp [hnone]⟩
    have hconf' : b.addChan.conf a = some conf := hconf
    refine (h.addChan.setConf hconf' hin' fun chan hc => ?_).congr rfl rfl rfl le_rfl
    cases ok with
    | true =>
      obtain rfl : b.nextChan = chan := by simpa using hc
      exact ⟨Nat.lt_succ_self _, fun a' c' _ => hfresh a' c'⟩
    | false => simp [hchan] at hc
  | welcome a name title entries =>
    obtain ⟨conf, hconf, hchan⟩ := hfits
    have hmid := conf_modifyConf_self (s := { toBook := b }) hconf
      fun conf => { conf with name := name, title := title }
    have hfill := Refills.addEntries (b.modifyConf a fun conf =>
      { conf with name := name, title := title }) a entries
    obtain ⟨members, hb'⟩ := hfill.conf_eq hmid
    have hin := h.inLine a conf hconf
    have hin' : MwConference.InLine
        { conf with state := .opened, name := name, title := title, members := members } :=
      ⟨by simp, by simp [hchan], by simp⟩
    refine (h.keepChan hconf hin' rfl).congr ?_ hfill.confs hfill.nextConf hfill.nextChan.ge
    simp only [Book.does, Book.record, Book.modifyConf, Book.setConf, Option.map_some,
      hconf] at hb' ⊢
    rw [hb']
    simp
  | joined a id info =>
    obtain ⟨conf, hconf, hchan, hstate⟩ := hfits
    have hin := h.inLine a conf hconf
    have hstate' : conf.state = .invited ∨ conf.state = .opened :=
      (hin.channel.mp hchan).resolve_left hstate
    exact ((Refills.addEntry b a (id, info)).orderly h hconf hstate').congr rfl rfl rfl le_rfl
  | parted a id m =>
    obtain ⟨conf, hconf, hne⟩ := memberFind_isSome hfits
    have hin := h.inLine a conf hconf
    exact (Refills.memberRem _ a id).orderly (h.congr rfl rfl rfl le_rfl) hconf (hin.members hne)
  | said a e => exact h.congr rfl rfl rfl le_rfl
  | gone a e =>
    have hnote : Orderly (b.note a e) := by
      cases e with
      | none => exact h
      | some e => exact h.congr rfl rfl rfl le_rfl
    exact hnote.confFree a
  | stopped => exact h.freeAll _

theorem Orderly.toListed {b : Book} (h : Orderly b) : b.Listed := fun a ha => (h.listed a).mp ha

theorem Orderly.step {s : ConfSide} (h : Orderly s.toBook) (i : ConfInput) :
    Orderly (step i s).2.toBook := by
  rw [step_does i s h.toListed]
  exact h.does (deed_fits s i)

theorem Orderly.run {s : ConfSide} (h : Orderly s.toBook) (inputs : List ConfInput) :
    Orderly (run inputs s).toBook := by
  induction inputs generalizing s with
  | nil => exact h
  | cons i inputs ih => exact ih (h.step i)

/-! ## What a deed does to the log and to the list of conferences -/

/-- What is noted of a deed -/
def Deed.event (b : Book) : Deed → Option (Nat × ConfEvent)
  | .new _ => some (b.nextConf, .created)
  | .invited _ _ owner invite => some (b.nextConf, .invited owner invite)
  | .welcome a _ _ entries => some (a, .opened (List.range' b.nextLogin entries.length))
  | .joined a _ _ => some (a, .peerJoined b.nextLogin)
  | .parted a _ m => some (a, .peerParted m)
  | .said a e => some (a, e)
  | .gone a e => e.map fun e => (a, e)
  | .nothing | .junk | .opening .. | .stopped => none

/-- The deed makes a conference known. -/
def Deed.Adds (b : Book) (a : Nat) : Deed → Prop
  | .new _ | .invited .. => a = b.nextConf
  | _ => False

/-- The deed ends a conference. -/
def Deed.Ends (a : Nat) : Deed → Prop
  | .gone a' _ => a' = a
  | .stopped => True
  | _ => False

theorem log_freeAll (b : Book) (rounds : Nat) : (b.freeAll rounds).log = b.log := by
  induction rounds generalizing b with
  | zero => rfl
  | succ rounds ih =>
    unfold Book.freeAll
    split
    · rfl
    · exact ih _

theorem log_does (b : Book) (d : Deed) : (b.does d).log = (d.event b).toList ++ b.log := by
  cases d with
  | welcome a name title entries =>
    exact congrArg _ (Refills.addEntries (b.modifyConf a _) a entries).log
  | joined a id info => exact congrArg _ (Refills.addEntry b a (id, info)).log
  | parted a id m => exact (Refills.memberRem (b.record a (.peerParted m)) a id).log
  | gone a e => cases e <;> rfl
  | stopped => exact log_freeAll b _
  | nothing | new | junk | invited | opening | said => rfl

theorem isSome_modifyConf (b : Book) (a a' : Nat) (f : MwConference → MwConference) :
    ((b.modifyConf a f).conf a').isSome = (b.conf a').isSome := by
  by_cases ha : a' = a
  · subst ha
    simp [Book.modifyConf]
  · rw [Book.modifyConf, Book.conf_setConf_of_ne b ha]

theorem Refills.isSome {b b' : Book} {a : Nat} (h : Refills a b b') (a' : Nat) :
    (b'.conf a').isSome = (b.conf a').isSome := by
  obtain ⟨f, -, hconf⟩ := h.conf
  rw [hconf, isSome_modifyConf]

theorem isSome_confFree (b : Book) (a a' : Nat) :
    ((b.confFree a).conf a').isSome ↔ (b.conf a').isSome ∧ a' ≠ a := by
  by_cases ha : a' = a
  · subst ha
    simp [Book.confFree]
  · have hsame : (b.confFree a).conf a' = b.conf a' := Function.update_of_ne ha ..
    simp [hsame, ha]

/-- As many rounds as there are conferences end them all. -/
theorem confs_freeAll {b : Book} {rounds : Nat} (hrounds : b.confs.length ≤ rounds) :
    (b.freeAll rounds).confs = [] := by
  induction rounds generalizing b with
  | zero => exact List.length_eq_zero_iff.mp (Nat.le_zero.mp hrounds)
  | succ rounds ih =>
    unfold Book.freeAll
    cases hconfs : b.confs with
    | nil => exact hconfs
    | cons a rest =>
      refine ih (Nat.le_of_lt_succ (lt_of_lt_of_le ?_ hrounds))
      exact List.length_filter_lt_length_iff_exists.mpr ⟨a, by simp [hconfs], by simp⟩

theorem isSome_does {b : Book} (hb : Orderly b) {d : Deed} (hfits : d.Fits b) (a : Nat) :
    ((b.does d).conf a).isSome ↔ d.Adds b a ∨ (b.conf a).isSome ∧ ¬ d.Ends a := by
  have hadd : ∀ conf, ((b.addConf conf).conf a).isSome ↔ a = b.nextConf ∨ (b.conf a).isSome := by
    intro conf
    by_cases ha : a = b.nextConf
    · subst ha
      simp [Book.conf_addConf_self]
    · have hsame : (b.addConf conf).conf a = b.conf a := Function.update_of_ne ha ..
      simp [hsame, ha]
  cases d with
  | nothing => simp [Book.does, Deed.Adds, Deed.Ends]
  | new title =>
    simp only [Deed.Adds, Deed.Ends, not_false_eq_true, and_true]
    exact hadd _
  | invited name title owner invite =>
    simp only [Deed.Adds, Deed.Ends, not_false_eq_true, and_true]
    exact hadd _
  | junk =>
    refine (isSome_confFree _ _ _).trans ?_
    rw [hadd]
    simp only [Deed.Adds, Deed.Ends, false_or, not_false_eq_true, and_true]
    constructor
    · rintro ⟨h | h, hne⟩
      · exact absurd h hne
      · exact h
    · intro h
      refine ⟨.inr h, ?_⟩
      rintro rfl
      rw [hb.absent] at h
      cases h
  | opening a' name ok =>
    simp only [Deed.Adds, Deed.Ends, false_or, not_false_eq_true, and_true]
    exact Bool.eq_iff_iff.mp (isSome_modifyConf b a' a _)
  | welcome a' name title entries =>
    simp only [Deed.Adds, Deed.Ends, false_or, not_false_eq_true, and_true]
    refine Bool.eq_iff_iff.mp ((isSome_modifyConf _ a' a _).trans ?_)
    rw [(Refills.addEntries _ a' entries).isSome, isSome_modifyConf]
  | joined a' id info =>
    simp only [Deed.Adds, Deed.Ends, false_or, not_false_eq_true, and_true]
    exact Bool.eq_iff_iff.mp ((Refills.addEntry b a' (id, info)).isSome a)
  | parted a' id m =>
    simp only [Deed.Adds, Deed.Ends, false_or, not_false_eq_true, and_true]
    exact Bool.eq_iff_iff.mp ((Refills.memberRem (b.record a' (.peerParted m)) a' id).isSome a)
  | said a' e => simp [Book.does, Book.record, Deed.Adds, Deed.Ends]
  | gone a' e =>
    have hnote : (b.note a' e).conf = b.conf := by cases e <;> rfl
    simp only [Book.does, isSome_confFree, hnote, Deed.Adds, Deed.Ends, false_or, ne_comm, ne_eq]
  | stopped =>
    have hnil := confs_freeAll (le_refl b.confs.length)
    have hlisted := (hb.freeAll b.confs.length).listed a
    simp only [Book.does, ← hlisted, hnil, Deed.Adds, Deed.Ends, List.not_mem_nil, not_true_eq_false,
      and_false, or_self]

/-! ## The order of what happens -/

/-- The first that happens to a conference -/
def ConfEvent.Begins : ConfEvent → Prop
  | .created | .invited .. => True
  | _ => False

/-- The last that happens to a conference -/
def ConfEvent.Finishes : ConfEvent → Prop
  | .closed _ | .destroyed => True
  | _ => False

/-- What happens begins the history of its conference if and only if nothing has happened
before, and comes before its end. -/
def InOrder (e : ConfEvent) (before : List ConfEvent) : Prop :=
  (e.Begins ↔ before = []) ∧ ∀ e' ∈ before, ¬ e'.Finishes

/-- The conference has begun, and nothing has ended it. -/
def Known (history : List ConfEvent) : Prop := history ≠ [] ∧ ∀ e ∈ history, ¬ e.Finishes

theorem history_append (b b' : Book) (e : Option (Nat × ConfEvent))
    (hlog : b'.log = e.toList ++ b.log) (a : Nat) :
    b'.history a = ((e.filter (·.1 = a)).map (·.2)).toList ++ b.history a := by
  unfold Book.history
  rw [hlog, List.filterMap_append]
  cases e with
  | none => rfl
  | some e => by_cases ha : e.1 = a <;> simp [ha, Option.filter]

/-- The conferences there are have begun, and the others have not, or have ended. -/
structure Lived (b : Book) : Prop where
  known : ∀ a, (b.conf a).isSome → Known (b.history a)
  unborn : ∀ a, b.nextConf ≤ a → b.history a = []
  inOrder : ∀ a, Justified InOrder (b.history a)

theorem history_does (b : Book) (d : Deed) (a : Nat) :
    (b.does d).history a = (((d.event b).filter (·.1 = a)).map (·.2)).toList ++ b.history a :=
  history_append b _ _ (log_does b d) a

/-- What is noted of a deed: something about a conference that is there, or the beginning of
a new one -/
theorem event_cases {b : Book} {d : Deed} (hfits : d.Fits b) {a : Nat} {e : ConfEvent}
    (he : d.event b = some (a, e)) :
    (a = b.nextConf ∧ d.Adds b a ∧ e.Begins ∧ ¬ e.Finishes) ∨
      ((b.conf a).isSome ∧ ¬ d.Adds b a ∧ ¬ e.Begins ∧ (e.Finishes ↔ d.Ends a)) := by
  cases d with
  | new title =>
    obtain ⟨rfl, rfl⟩ := Prod.mk.inj (Option.some.inj he)
    exact .inl ⟨rfl, rfl, trivial, id⟩
  | invited name title owner invite =>
    obtain ⟨rfl, rfl⟩ := Prod.mk.inj (Option.some.inj he)
    exact .inl ⟨rfl, rfl, trivial, id⟩
  | welcome a' name title entries =>
    obtain ⟨rfl, rfl⟩ := Prod.mk.inj (Option.some.inj he)
    obtain ⟨conf, hconf, -⟩ := hfits
    exact .inr ⟨by rw [hconf]; rfl, id, id, Iff.rfl⟩
  | joined a' id' info =>
    obtain ⟨rfl, rfl⟩ := Prod.mk.inj (Option.some.inj he)
    obtain ⟨conf, hconf, -⟩ := hfits
    exact .inr ⟨by rw [hconf]; rfl, id, id, Iff.rfl⟩
  | parted a' id' m =>
    obtain ⟨rfl, rfl⟩ := Prod.mk.inj (Option.some.inj he)
    obtain ⟨conf, hconf, -⟩ := memberFind_isSome hfits
    exact .inr ⟨by rw [hconf]; rfl, id, id, Iff.rfl⟩
  | said a' e' =>
    obtain ⟨rfl, rfl⟩ := Prod.mk.inj (Option.some.inj he)
    obtain ⟨id', m, hfind, htold⟩ := hfits
    obtain ⟨conf, hconf, -⟩ := memberFind_isSome hfind
    refine .inr ⟨by rw [hconf]; rfl, id, ?_, ?_⟩
    · rcases htold with ⟨_, rfl⟩ | ⟨_, rfl⟩ <;> exact id
    · rcases htold with ⟨_, rfl⟩ | ⟨_, rfl⟩ <;> exact Iff.rfl
  | gone a' e' =>
    obtain ⟨hconf, rfl | ⟨reason, rfl⟩ | rfl⟩ := hfits
    · cases he
    · obtain ⟨rfl, rfl⟩ := Prod.mk.inj (Option.some.inj he)
      exact .inr ⟨hconf, id, id, iff_of_true trivial rfl⟩
    · obtain ⟨rfl, rfl⟩ := Prod.mk.inj (Option.some.inj he)
      exact .inr ⟨hconf, id, id, iff_of_true trivial rfl⟩
  | nothing | junk | opening | stopped => cases he

theorem adds_event {b : Book} {d : Deed} {a : Nat} (h : d.Adds b a) :
    ∃ e, d.event b = some (a, e) := by
  cases d with
  | new title => exact ⟨_, by rw [show a = b.nextConf from h]; rfl⟩
  | invited name title owner invite => exact ⟨_, by rw [show a = b.nextConf from h]; rfl⟩
  | nothing | junk | opening | welcome | joined | parted | said | gone | stopped => cases h

theorem nextConf_freeAll (b : Book) (rounds : Nat) : (b.freeAll rounds).nextConf = b.nextConf := by
  induction rounds generalizing b with
  | zero => rfl
  | succ rounds ih =>
    unfold Book.freeAll
    split
    · rfl
    · exact ih _

theorem nextConf_does (b : Book) (d : Deed) :
    b.nextConf ≤ (b.does d).nextConf ∧ ∀ a, d.Adds b a → a < (b.does d).nextConf := by
  cases d with
  | new title => exact ⟨Nat.le_succ _, fun a ha => Nat.lt_succ_of_le (le_of_eq ha)⟩
  | invited name title owner invite =>
    exact ⟨Nat.le_succ _, fun a ha => Nat.lt_succ_of_le (le_of_eq ha)⟩
  | junk => exact ⟨Nat.le_succ _, fun a ha => ha.elim⟩
  | welcome a name title entries =>
    exact ⟨(Refills.addEntries (b.modifyConf a _) a entries).nextConf.ge, fun a ha => ha.elim⟩
  | joined a id info => exact ⟨(Refills.addEntry b a (id, info)).nextConf.ge, fun a ha => ha.elim⟩
  | parted a id m =>
    exact ⟨(Refills.memberRem (b.record a (.peerParted m)) a id).nextConf.ge, fun a ha => ha.elim⟩
  | gone a e => cases e <;> exact ⟨le_rfl, fun a ha => ha.elim⟩
  | stopped => exact ⟨(nextConf_freeAll b _).ge, fun a ha => ha.elim⟩
  | nothing | opening | said => exact ⟨le_rfl, fun a ha => ha.elim⟩

/-- Either nothing is noted of a conference, or one thing is. -/
theorem history_does_cases (b : Book) (d : Deed) (a : Nat) :
    (b.does d).history a = b.history a ∧ (∀ e, d.event b ≠ some (a, e)) ∨
      ∃ e, d.event b = some (a, e) ∧ (b.does d).history a = e :: b.history a := by
  rw [history_does]
  cases hevent : d.event b with
  | none => exact .inl ⟨rfl, by simp⟩
  | some e =>
    obtain ⟨a', e⟩ := e
    by_cases ha : a' = a
    · subst ha
      exact .inr ⟨e, rfl, by simp [Option.filter]⟩
    · exact .inl ⟨by simp [Option.filter, ha], fun e' h => ha (Prod.mk.inj (Option.some.inj h)).1⟩

theorem Lived.does {b : Book} (h : Lived b) (hb : Orderly b) {d : Deed} (hfits : d.Fits b) :
    Lived (b.does d) := by
  obtain ⟨hle, hlt⟩ := nextConf_does b d
  refine ⟨?_, ?_, ?_⟩
  · intro a hsome
    rcases (isSome_does hb hfits a).mp hsome with hadds | ⟨hsome, hends⟩
    · rcases history_does_cases b d a with ⟨-, hno⟩ | ⟨e, he, heq⟩
      · obtain ⟨e, he⟩ := adds_event hadds
        exact absurd he (hno e)
      · rcases event_cases hfits he with ⟨rfl, -, -, hfin⟩ | ⟨-, hnot, -⟩
        · rw [heq, h.unborn _ le_rfl]
          exact ⟨List.cons_ne_nil _ _, by simpa using hfin⟩
        · exact absurd hadds hnot
    · have hknown := h.known a hsome
      rcases history_does_cases b d a with ⟨heq, -⟩ | ⟨e, he, heq⟩
      · rwa [heq]
      · rcases event_cases hfits he with ⟨rfl, -⟩ | ⟨-, -, -, hfin⟩
        · rw [hb.absent] at hsome
          cases hsome
        · rw [heq]
          exact ⟨List.cons_ne_nil _ _,
            List.forall_mem_cons.mpr ⟨fun h => hends (hfin.mp h), hknown.2⟩⟩
  · intro a ha
    rcases history_does_cases b d a with ⟨heq, -⟩ | ⟨e, he, -⟩
    · rw [heq]
      exact h.unborn a (hle.trans ha)
    · rcases event_cases hfits he with ⟨-, hadds, -⟩ | ⟨hsome, -⟩
      · exact absurd (hlt a hadds) (Nat.not_lt.mpr ha)
      · obtain ⟨conf, hconf⟩ := Option.isSome_iff_exists.mp hsome
        exact absurd (hb.numbered a conf hconf) (Nat.not_lt.mpr (hle.trans ha))
  · intro a
    rcases history_does_cases b d a with ⟨heq, -⟩ | ⟨e, he, heq⟩
    · rw [heq]
      exact h.inOrder a
    · rw [heq]
      refine (h.inOrder a).cons ?_
      rcases event_cases hfits he with ⟨rfl, -, hbegins, -⟩ | ⟨hsome, -, hbegins, -⟩
      · rw [h.unborn _ le_rfl]
        exact ⟨iff_of_true hbegins rfl, by simp⟩
      · have hknown := h.known a hsome
        exact ⟨iff_of_false hbegins hknown.1, hknown.2⟩

theorem Lived.empty : Lived {} where
  known := by simp
  unborn := fun _ _ => rfl
  inOrder := fun _ => Justified.nil

theorem Lived.run {s : ConfSide} (h : Lived s.toBook) (hs : Orderly s.toBook)
    (inputs : List ConfInput) : Lived (run inputs s).toBook := by
  induction inputs generalizing s with
  | nil => exact h
  | cons i inputs ih =>
    refine ih ?_ (hs.step i)
    rw [step_does i s hs.toListed]
    exact h.does hs (deed_fits s i)

/-- In every run things happen to a conference in order: it begins once, with the client that
makes it or with an invitation, and nothing happens after its end. Conferences that are there
have begun and have not ended. -/
theorem run_inOrder (inputs : List ConfInput) (ret : Nat → Int) (a : Nat) :
    Justified InOrder ((run inputs { ret := ret }).history a) ∧
      (((run inputs { ret := ret }).conf a).isSome → Known ((run inputs { ret := ret }).history a)) := by
  have h := Lived.empty.run (s := { ret := ret }) Orderly.empty inputs
  exact ⟨h.inOrder a, h.known a⟩

/-- In every run the state of a conference tells whether it has a channel and whether it may
have members, and a channel leads to the one conference that has it. -/
theorem run_inLine (inputs : List ConfInput) (ret : Nat → Int) :
    (∀ a conf, (run inputs { ret := ret }).conf a = some conf → conf.InLine) ∧
      ∀ chan a, (run inputs { ret := ret }).confFind chan = some a ↔
        ∃ conf, (run inputs { ret := ret }).conf a = some conf ∧ conf.channel = some chan := by
  have h := Orderly.empty.run (s := { ret := ret }) inputs
  refine ⟨h.inLine, fun chan a => ⟨fun hfind => (confFind_eq_some hfind).2, ?_⟩⟩
  rintro ⟨conf, hconf, hchan⟩
  cases hfind : (Meanwhile.Conference.run inputs { ret := ret }).confFind chan with
  | none =>
    have hnone := List.find?_eq_none.mp hfind a ((h.listed a).mpr (by rw [hconf]; rfl))
    simp [hconf, hchan] at hnone
  | some a' =>
    obtain ⟨-, conf', hconf', hchan'⟩ := confFind_eq_some hfind
    rw [h.once a' a conf' conf chan hconf' hconf hchan' hchan]

/-! ## Ends that the client is not told of -/

/-- A welcome message that cannot be read ends its conference, and so does the end of the
service, which ends all of them: those that are there when it is stopped, or when it is freed
without having been started. -/
def EndsSilently (s : ConfSide) (a : Nat) : ConfInput → Prop
  | .recv chan msg => s.confFind chan = some a ∧ msg.1 = msgWelcome ∧
      (welcomeGet (.wrapOpaque msg.2)).2.error = true
  | .stop | .clear => (s.conf a).isSome
  | _ => False

/-- A deed that ends a conference without a word -/
def Deed.Drops (b : Book) (a : Nat) : Deed → Prop
  | .gone a' e => a' = a ∧ e = none
  | .stopped => (b.conf a).isSome
  | _ => False

theorem Deed.Drops.isSome {b : Book} {a : Nat} {d : Deed} (h : d.Drops b a) (hfits : d.Fits b) :
    (b.conf a).isSome := by
  cases d with
  | gone a' e =>
    obtain ⟨rfl, -⟩ := h
    exact hfits.1
  | stopped => exact h
  | nothing | new | junk | invited | opening | welcome | joined | parted | said => cases h

theorem Deed.Drops.event {b : Book} {a : Nat} {d : Deed} (h : d.Drops b a) : d.event b = none := by
  cases d with
  | gone a' e =>
    obtain ⟨-, rfl⟩ := h
    rfl
  | stopped => rfl
  | nothing | new | junk | invited | opening | welcome | joined | parted | said => cases h

/-- An end of which nothing is noted -/
theorem drops_iff_ends {b : Book} {a : Nat} {d : Deed} (hsome : (b.conf a).isSome)
    (hno : ∀ e, d.event b ≠ some (a, e)) : d.Drops b a ↔ d.Ends a := by
  cases d with
  | gone a' e =>
    refine ⟨And.left, ?_⟩
    rintro rfl
    cases e with
    | none => exact ⟨rfl, rfl⟩
    | some e => exact absurd rfl (hno e)
  | stopped => exact iff_of_true hsome trivial
  | nothing | new | junk | invited | opening | welcome | joined | parted | said => exact Iff.rfl

/-- The client knows of a conference that is not there. -/
def Lost (a : Nat) (b : Book) : Prop := Known (b.history a) ∧ b.conf a = none

theorem lost_does {b : Book} (h : Lived b) (hb : Orderly b) {d : Deed} (hfits : d.Fits b) (a : Nat) :
    Lost a (b.does d) ↔ Lost a b ∨ d.Drops b a := by
  have hthere := isSome_does hb hfits a
  rcases history_does_cases b d a with ⟨heq, hno⟩ | ⟨e, he, heq⟩
  · have hadds : ¬ d.Adds b a := fun hadds =>
      (adds_event hadds).elim fun e he => hno e he
    rw [or_iff_right hadds] at hthere
    unfold Lost
    rw [heq]
    cases hconf : b.conf a with
    | none =>
      have hgone : (b.does d).conf a = none :=
        Option.not_isSome_iff_eq_none.mp fun hsome => by simpa [hconf] using hthere.mp hsome
      have hdrops : ¬ d.Drops b a := fun hdrops => by simpa [hconf] using hdrops.isSome hfits
      simp [hgone, hdrops]
    | some conf =>
      have hsome : (b.conf a).isSome := by rw [hconf]; rfl
      rw [drops_iff_ends hsome hno, ← Option.not_isSome_iff_eq_none, hthere]
      simp [hconf, h.known a hsome]
  · refine iff_of_false ?_ ?_
    · rintro ⟨hknown, hnone⟩
      rw [heq] at hknown
      rcases event_cases hfits he with ⟨-, hadds, -⟩ | ⟨hsome, -, -, hfin⟩
      · have hsome := hthere.mpr (.inl hadds)
        rw [hnone] at hsome
        cases hsome
      · have hends : ¬ d.Ends a := fun hends => hknown.2 e List.mem_cons_self (hfin.mpr hends)
        have hsome := hthere.mpr (.inr ⟨hsome, hends⟩)
        rw [hnone] at hsome
        cases hsome
    · rintro (⟨hknown, hnone⟩ | hdrops)
      · rcases event_cases hfits he with ⟨rfl, -⟩ | ⟨hsome, -⟩
        · exact hknown.1 (h.unborn _ le_rfl)
        · rw [hnone] at hsome
          cases hsome
      · rw [hdrops.event] at he
        cases he

section

variable {s : ConfSide} {a a' : Nat} {conf : MwConference}

theorem recvDeed_drops_iff (b : Book) (conf : MwConference) (msg : Payload) :
    (recvDeed b a' conf msg).Drops b a ↔
      a' = a ∧ msg.1 = msgWelcome ∧ (welcomeGet (.wrapOpaque msg.2)).2.error = true := by
  unfold recvDeed
  dsimp only
  split
  case isTrue hwelcome =>
    unfold welcomeDeed
    dsimp only
    split
    case isTrue herror => simp [Deed.Drops, hwelcome, herror]
    case isFalse herror => simp [Deed.Drops, herror]
  case isFalse hwelcome =>
    refine iff_of_false ?_ fun h => hwelcome h.2.1
    split
    · unfold joinDeed
      split <;> exact id
    · split
      · unfold partDeed
        repeat' split
        all_goals exact id
      · split
        · unfold messageDeed textDeed dataDeed
          dsimp only
          repeat' split
          all_goals exact id
        · exact id

theorem drops_iff (s : ConfSide) (a : Nat) (i : ConfInput) :
    (deed s i).Drops s.toBook a ↔ EndsSilently s a i := by
  cases i with
  | recv chan msg =>
    show (s.aboutChan chan fun a => s.about a fun conf => recvDeed s.toBook a conf msg).Drops _ a ↔
      s.confFind chan = some a ∧ _
    unfold Book.aboutChan
    cases hfind : s.confFind chan with
    | none => exact iff_of_false id (by simp)
    | some a' =>
      obtain ⟨-, conf, hconf, -⟩ := confFind_eq_some hfind
      unfold Book.about
      dsimp only
      rw [hconf]
      dsimp only
      rw [recvDeed_drops_iff, Option.some.injEq]
  | recvDestroy chan reason =>
    refine iff_of_false ?_ id
    show ¬ (s.aboutChan chan fun a => s.about a fun _ => .gone a (some (.closed reason))).Drops _ a
    unfold Book.aboutChan
    cases s.confFind chan with
    | none => exact id
    | some a' =>
      unfold Book.about
      dsimp only
      cases s.conf a' with
      | none => exact id
      | some conf => exact fun h => Option.some_ne_none _ h.2
  | destroy a' reason text =>
    refine iff_of_false ?_ id
    show ¬ (s.about a' fun _ => .gone a' (some .destroyed)).Drops _ a
    unfold Book.about
    cases s.conf a' with
    | none => exact id
    | some conf => exact fun h => Option.some_ne_none _ h.2
  | opening a' generated =>
    refine iff_of_false ?_ id
    show ¬ (s.about a' fun conf => openingDeed (s.ret s.calls) a' conf generated).Drops _ a
    unfold Book.about
    cases s.conf a' with
    | none => exact id
    | some conf =>
      dsimp only
      unfold openingDeed
      split <;> exact id
  | recvCreate addtl =>
    refine iff_of_false ?_ id
    show ¬ (createDeed addtl).Drops _ a
    unfold createDeed
    dsimp only
    split <;> exact id
  | new | accept | invite | sendText | sendTyping | recvAccept | stop | clear => exact Iff.rfl

end

/-- The client knows of a conference that is not there if and only if that conference has
ended with a welcome message that could not be read, or with the service, stopped or freed.
Nothing else takes a conference away from the client without a word. -/
theorem run_lost_iff (inputs : List ConfInput) (ret : Nat → Int) (a : Nat) :
    Known ((run inputs { ret := ret }).history a) ∧ (run inputs { ret := ret }).conf a = none ↔
      ∃ before i after, inputs = before ++ i :: after ∧
        EndsSilently (run before { ret := ret }) a i := by
  refine Latch.foldl_iff_of_not (f := fun s i => (step i s).2)
    (I := fun s => Orderly s.toBook ∧ Lived s.toBook) (L := fun s => Lost a s.toBook)
    (D := fun s i => EndsSilently s a i) ?_ ?_ inputs (s := { ret := ret })
    ⟨Orderly.empty, Lived.empty⟩ (fun h => h.1.1 rfl)
  · rintro s i ⟨hs, hlived⟩
    refine ⟨hs.step i, ?_⟩
    rw [step_does i s hs.toListed]
    exact hlived.does hs (deed_fits s i)
  · rintro s i ⟨hs, hlived⟩
    rw [step_does i s hs.toListed, lost_does hlived hs (deed_fits s i), drops_iff]

end Meanwhile.Conference
