-- SUMMARY: The machine of a channel follows its session through every call and callback.
import Meanwhile.Channel.Machine

/-!
# Calls, seen from a channel

`Follows k chan` relates two sessions if the machine of the channel can get from the
view of the first to that of the second by calls. Every call and every callback of an
environment keeps it, as long as `io_write` makes no calls and the setting `k` is what
the environment is like.
-/

namespace Meanwhile

/-! ## Views under changes -/

section

variable {s : MwSession} {chan : ChanRef}

theorem life_of_some {c : MwChannel} (hc : s.channel? chan = some c) : s.life chan = .live c := by
  simp [MwSession.life, hc]

theorem life_of_none (hc : s.channel? chan = none) (haddr : chan.addr < s.nextAddr) :
    s.life chan = .gone := by
  simp [MwSession.life, hc, Nat.not_le.mpr haddr]

theorem view_of_some {c : MwChannel} (hc : s.channel? chan = some c) :
    s.view chan = ⟨.live c, s.history chan⟩ := by
  rw [MwSession.view, life_of_some hc]

theorem history_log (e : Event) :
    (s.log e).history chan = if e.isOf chan then e :: s.history chan else s.history chan := by
  simp only [MwSession.history, MwSession.log, List.filter_cons]

theorem view_log_of (e : Event) (he : e.isOf chan = true) :
    (s.log e).view chan = (s.view chan).log e := by
  rw [MwSession.view, history_log, if_pos he]
  rfl

theorem view_log_other (e : Event) (he : e.isOf chan = false) : (s.log e).view chan = s.view chan := by
  rw [MwSession.view, history_log, if_neg (by simp [he])]
  rfl

theorem channel?_setChannel_self {c : MwChannel} (hc : s.channel? chan = some c)
    (c' : MwChannel) (haddr : c'.addr = c.addr) : (s.setChannel chan.id (some c')).channel? chan = some c' := by
  simp [MwSession.channel?, MwSession.setChannel, haddr, (map_of_channel? hc).2]

theorem view_setChannel_self {c : MwChannel} (hc : s.channel? chan = some c) (c' : MwChannel)
    (haddr : c'.addr = c.addr) :
    (s.setChannel chan.id (some c')).view chan = ⟨.live c', s.history chan⟩ :=
  view_of_some (channel?_setChannel_self hc c' haddr)

theorem view_remove (haddr : chan.addr < s.nextAddr) :
    (s.setChannel chan.id none).view chan = ⟨.gone, s.history chan⟩ := by
  have hnone : (s.setChannel chan.id none).channel? chan = none := by
    simp [MwSession.channel?, MwSession.setChannel]
  rw [MwSession.view, life_of_none hnone haddr]
  rfl

/-- Nothing that is done under another pointer changes what this one denotes. -/
theorem channel?_setChannel_other {chan' : ChanRef} (hne : chan' ≠ chan) {c : MwChannel}
    (hc : s.channel? chan' = some c) {c' : Option MwChannel} (haddr : ∀ d ∈ c', d.addr = c.addr) :
    (s.setChannel chan'.id c').channel? chan = s.channel? chan := by
  by_cases hid : chan.id = chan'.id
  · have hc' := map_of_channel? hc
    have haddr' : chan'.addr ≠ chan.addr := by
      intro heq
      apply hne
      obtain ⟨id, addr⟩ := chan
      obtain ⟨id', addr'⟩ := chan'
      simp_all
    simp only [MwSession.channel?, MwSession.setChannel, hid, Function.update_self, hc'.1, hc'.2,
      haddr', if_false]
    cases c' with
    | none => rfl
    | some d => simp [haddr d rfl, hc'.2, haddr']
  · simp [MwSession.channel?, MwSession.setChannel, Function.update_of_ne hid]

theorem view_setChannel_other {chan' : ChanRef} (hne : chan' ≠ chan) {c : MwChannel}
    (hc : s.channel? chan' = some c) {c' : Option MwChannel} (haddr : ∀ d ∈ c', d.addr = c.addr) :
    (s.setChannel chan'.id c').view chan = s.view chan := by
  simp only [MwSession.view, MwSession.life, channel?_setChannel_other hne hc haddr]
  rfl

end

/-! ## Following -/

/-- A session is what a setting says. -/
structure MwSession.Fits (s : MwSession) (k : Setting) : Prop where
  addressed : s.Addressed
  ciphers : ∀ type, k.ciphers type ↔ type ∈ s.ciphers.map (·.type)
  services : ∀ type, (s.service? type).any (·.hasRecv) = k.receives type

/-- The machine of a channel gets from one session to the other by calls. -/
def Follows (k : Setting) (chan : ChanRef) (s s' : MwSession) : Prop :=
  s.Fits k → s'.Fits k ∧ Calls k chan (s.view chan) (s'.view chan)

theorem service?_fixed {l l' : List MwService} (h : l'.map (·.fixed) = l.map (·.fixed))
    (type : UInt32) :
    (l'.find? (·.type = type)).any (·.hasRecv) = (l.find? (·.type = type)).any (·.hasRecv) := by
  induction l generalizing l' with
  | nil =>
    rw [List.map_nil, List.map_eq_nil_iff] at h
    rw [h]
  | cons srvc l ih =>
    obtain ⟨srvc', l', rfl, hsrvc, hl⟩ := List.map_eq_cons_iff.mp h
    have htype : srvc'.fixed.type = srvc.fixed.type := congrArg MwService.type hsrvc
    have hrecv : srvc'.fixed.hasRecv = srvc.fixed.hasRecv := congrArg MwService.hasRecv hsrvc
    simp only [MwService.fixed] at htype hrecv
    simp only [List.find?_cons, htype]
    split
    · simp [hrecv]
    · exact ih hl

namespace MwSession.Fits

variable {s s' : MwSession} {k : Setting}

theorem same (h : s.Fits k) (hmap : s'.channels.map = s.channels.map)
    (haddr : s'.nextAddr = s.nextAddr)
    (hciphers : s'.ciphers.map (·.type) = s.ciphers.map (·.type))
    (hservices : s'.services.map (·.fixed) = s.services.map (·.fixed)) : s'.Fits k where
  addressed := by
    intro id c hc
    rw [hmap] at hc
    rw [haddr]
    exact h.addressed id c hc
  ciphers := by
    intro type
    rw [hciphers]
    exact h.ciphers type
  services := by
    intro type
    rw [← h.services type]
    exact service?_fixed hservices type

theorem log (h : s.Fits k) (e : Event) : (s.log e).Fits k := h.same rfl rfl rfl rfl

theorem setChannel (h : s.Fits k) {chan : ChanRef} {c : MwChannel} (hc : s.channel? chan = some c)
    {c' : Option MwChannel} (haddr : ∀ d ∈ c', d.addr = c.addr) :
    (s.setChannel chan.id c').Fits k where
  addressed := by
    intro id d hd
    simp only [MwSession.setChannel, Function.update_apply] at hd
    split at hd
    · rw [haddr d hd]
      exact h.addressed _ c (map_of_channel? hc).1
    · exact h.addressed id d hd
  ciphers := h.ciphers
  services := h.services

theorem addr_lt (h : s.Fits k) {chan : ChanRef} {c : MwChannel} (hc : s.channel? chan = some c) :
    chan.addr < s.nextAddr := by
  have hc' := map_of_channel? hc
  have hlt := h.addressed _ c hc'.1
  rwa [hc'.2] at hlt

end MwSession.Fits

section

variable {k : Setting} {chan : ChanRef} {s s' : MwSession}

/-- One call of the machine -/
theorem Follows.of_call (hfits : s.Fits k → s'.Fits k)
    (hcall : s.Fits k → CallStep k chan (s.view chan) (s'.view chan)) : Follows k chan s s' :=
  fun hs => ⟨hfits hs, .single (.call (hcall hs))⟩

/-- Nothing has happened to the channel. -/
theorem Follows.of_view (hfits : s.Fits k → s'.Fits k) (hview : s'.view chan = s.view chan) :
    Follows k chan s s' := by
  intro hs
  rw [hview]
  exact ⟨hfits hs, .refl⟩

theorem follows_same (hmap : s'.channels.map = s.channels.map) (haddr : s'.nextAddr = s.nextAddr)
    (hhistory : s'.history chan = s.history chan)
    (hciphers : s'.ciphers.map (·.type) = s.ciphers.map (·.type))
    (hservices : s'.services.map (·.fixed) = s.services.map (·.fixed)) : Follows k chan s s' := by
  refine Follows.of_view (fun hs => hs.same hmap haddr hciphers hservices) ?_
  simp only [MwSession.view, MwSession.life, MwSession.channel?, hmap, haddr, hhistory]

theorem follows_log_other (e : Event) (he : e.isOf chan = false) : Follows k chan s (s.log e) :=
  Follows.of_view (fun hs => hs.log e) (view_log_other e he)

theorem follows_setChannel_other {chan' : ChanRef} (hne : chan' ≠ chan) {c : MwChannel}
    (hc : s.channel? chan' = some c) {c' : Option MwChannel} (haddr : ∀ d ∈ c', d.addr = c.addr) :
    Follows k chan s (s.setChannel chan'.id c') :=
  Follows.of_view (fun hs => hs.setChannel hc haddr) (view_setChannel_other hne hc haddr)

theorem follows_update {c c' : MwChannel} (hc : s.channel? chan = some c) (haddr : c'.addr = c.addr)
    (hcall : CallStep k chan ⟨.live c, s.history chan⟩ ⟨.live c', s.history chan⟩) :
    Follows k chan s (s.setChannel chan.id (some c')) := by
  refine Follows.of_call (fun hs => hs.setChannel hc (by simpa using haddr)) fun _ => ?_
  rw [view_of_some hc, view_setChannel_self hc c' haddr]
  exact hcall

end

instance (k : Setting) (chan : ChanRef) : Primitive (Follows k chan) where
  refl := fun _ hs => ⟨hs, .refl⟩
  trans := by
    intro s t u hst htu hs
    obtain ⟨ht, hst⟩ := hst hs
    obtain ⟨hu, htu⟩ := htu ht
    exact ⟨hu, hst.trans htu⟩
  plain := by
    intro s e he
    refine follows_log_other e ?_
    cases e with
    | callback c => cases c <;> simp_all [Event.Plain, Callback.isRecv, Event.isOf]
    | _ => simp_all [Event.Plain, Event.isOf]
  core := by
    intro s s' h
    refine follows_same h.map h.nextAddr ?_ h.ciphers h.services
    rw [MwSession.history, h.trace]
    rfl
  update := by
    intro s chan' c c' hc hsame
    by_cases hne : chan' = chan
    · subst hne
      exact follows_update hc hsame.addr (.describe hsame)
    · exact follows_setChannel_other hne hc (by simpa using hsame.addr)

theorem Event.On.isOf_other {chan chan' : ChanRef} (hne : chan' ≠ chan) {e : Event}
    (he : e.On chan') : e.isOf chan = false := by
  cases e with
  | callback c => cases c <;> simp_all [Event.On, Event.isOf]
  | _ => simp_all [Event.On, Event.isOf]

theorem follows_through (k : Setting) {chan chan' : ChanRef} (hne : chan' ≠ chan) :
    Through (Follows k chan) chan' where
  replace := fun hc haddr => follows_setChannel_other hne hc (by simpa using haddr)
  remove := fun hc => follows_setChannel_other hne hc (by simp)
  event := fun _ _ he => follows_log_other _ (he.isOf_other hne)

/-! ## Supported ciphers -/

/-- Instances may have been added, of some kind only. -/
def Grows (P : MwCipherInstance → Prop) : Option (List MwCipherInstance) →
    Option (List MwCipherInstance) → Prop
  | none, none => True
  | some l, some l' => ∀ ci ∈ l', ci ∈ l ∨ P ci
  | _, _ => False

theorem Grows.refl (P : MwCipherInstance → Prop) (l : Option (List MwCipherInstance)) :
    Grows P l l := by
  cases l with
  | none => trivial
  | some l => exact fun ci hci => .inl hci

theorem Grows.put {P : MwCipherInstance → Prop} {l l' : Option (List MwCipherInstance)}
    (h : Grows P l l') {ci : MwCipherInstance} (hci : P ci) :
    Grows P l (l'.map (putInstance ci)) := by
  cases l with
  | none =>
    cases l' with
    | none => trivial
    | some l' => exact h.elim
  | some l =>
    cases l' with
    | none => exact h.elim
    | some l' =>
      intro ci' hmem
      obtain hmem | rfl := mem_putInstance hmem
      · exact h ci' hmem
      · exact .inr hci

/-- A channel to which instances are being added -/
structure Supporting (k : Setting) (P : MwCipherInstance → Prop) (chan : ChanRef) (c : MwChannel)
    (t : List Event) (s : MwSession) : Prop where
  fits : s.Fits k
  history : s.history chan = t
  channel : ∃ l, s.channel? chan = some { c with supported := l } ∧ Grows P c.supported l

section

variable {k : Setting} {P : MwCipherInstance → Prop} {chan : ChanRef} {c : MwChannel} {t : List Event}

theorem Supporting.core {s s' : MwSession} (hs : Supporting k P chan c t s) (h : SameCore s s') :
    Supporting k P chan c t s' := by
  obtain ⟨l, hl, hgrows⟩ := hs.channel
  refine ⟨hs.fits.same h.map h.nextAddr h.ciphers h.services, ?_, l, ?_, hgrows⟩
  · rw [MwSession.history, h.trace]
    exact hs.history
  · rw [MwSession.channel?, h.map]
    exact hl

theorem putSupported_supporting {ci : MwCipherInstance} (hci : P ci) :
    Keeps (Maintains (Supporting k P chan c t)) (putSupported chan ci) := by
  intro s hs
  obtain ⟨l, hl, hgrows⟩ := hs.channel
  rw [putSupported, updateChannel_of_some hl]
  refine ⟨hs.fits.setChannel hl (by simp), hs.history, _, channel?_setChannel_self hl _ rfl, ?_⟩
  exact hgrows.put hci

theorem newInstance_supporting (cipher : MwCipher) :
    Keeps (Maintains (Supporting k P chan c t)) (newInstance cipher) := by
  intro s hs
  rw [newInstance, Session.get_bind]
  cases mwCipherNewInstance s.login cipher with
  | none => exact hs.core ⟨rfl, rfl, rfl, rfl, rfl, rfl, rfl, rfl⟩
  | some p => exact hs.core (updateCipher_core s p.1)

theorem newInstance_shape {cipher : MwCipher} {s : MwSession} {p : MwCipher × MwCipherInstance}
    (hp : (newInstance cipher s).1 = some p) :
    p.1.type = cipher.type ∧ p.2.shape = freshShape cipher.type := by
  rw [newInstance, Session.get_bind] at hp
  cases hnew : mwCipherNewInstance s.login cipher with
  | none =>
    rw [hnew] at hp
    exact absurd hp (by simp)
  | some q =>
    rw [hnew] at hp
    obtain rfl : q = p := Option.some.inj hp
    cases cipher with
    | rc2_40 c =>
      simp only [mwCipherNewInstance] at hnew
      split at hnew
      · obtain rfl := Option.some.inj hnew
        exact ⟨rfl, rfl⟩
      · obtain ⟨key, -, hkey⟩ := Option.bind_eq_some_iff.mp hnew
        obtain rfl := Option.some.inj hkey
        exact ⟨rfl, rfl⟩
    | rc2_128 c =>
      obtain rfl := Option.some.inj hnew
      exact ⟨rfl, rfl⟩

/-- One cipher of the session is added. -/
theorem addCipher_supporting {cipher : MwCipher}
    (hcipher : ∀ ci : MwCipherInstance, ci.shape = freshShape cipher.type → P ci) :
    Keeps (Maintains (Supporting k P chan c t)) (do
      match ← newInstance cipher with
      | some (_, ci) => putSupported chan ci
      | none => return) := by
  intro s hs
  have hs' := newInstance_supporting cipher s hs
  rw [Session.bind_apply]
  cases hp : (newInstance cipher s).1 with
  | none => exact hs'
  | some p => exact putSupported_supporting (hcipher p.2 (newInstance_shape hp).2) _ hs'

/-- An instance of the type that its shape says -/
theorem fresh_of_shape {ci : MwCipherInstance} {type : MwCipherType}
    (h : ci.shape = freshShape type) : ci.type = type ∧ ci.shape = freshShape ci.type := by
  have htype : ci.type = type := by
    rw [← ci.shape_type, h]
    rfl
  exact ⟨htype, by rw [h, htype]⟩

theorem populate_supporting
    (hP : ∀ ci : MwCipherInstance, k.ciphers ci.type ∧ ci.shape = freshShape ci.type → P ci) :
    Keeps (Maintains (Supporting k P chan c t)) (mwChannelPopulateSupportedCipherInstances chan) := by
  intro s hs
  rw [mwChannelPopulateSupportedCipherInstances, Session.get_bind]
  have hloop : Keeps (Maintains (Supporting k P chan c t)) (s.ciphers.forM _) :=
    Keeps.forM fun cipher hmem => addCipher_supporting fun ci hci => by
      obtain ⟨htype, hfresh⟩ := fresh_of_shape hci
      refine hP ci ⟨?_, hfresh⟩
      rw [htype]
      exact (hs.fits.ciphers _).mpr (List.mem_map_of_mem hmem)
  exact hloop s hs

end

end Meanwhile
