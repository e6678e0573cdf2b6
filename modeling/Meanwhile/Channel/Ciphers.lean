-- SUMMARY: The ciphers of a channel: what they have to do with what the two sides have offered, and with its policy.
import Meanwhile.Channel.Steps

/-!
# The cipher of an open channel

The instances of a channel come from the ciphers of the session, and keep their type
through everything that is done with them (`Registered`). With services that leave the
selection on their own channels to the library (`Negotiates`), the cipher and the policy
of an open channel agree, and the cipher is one of those that were offered.
-/

namespace Meanwhile

/-! ## Using an instance -/

/-- An instance with a message sent through it: only its outgoing vector has moved. -/
theorem mwCipherInstanceEncrypt_keeps {fresh : Block} {data o : MwOpaque} {cipher : MwCipher}
    {ci ci' : MwCipherInstance} (h : mwCipherInstanceEncrypt fresh data cipher ci = some (ci', o)) :
    ci'.type = ci.type := by
  unfold mwCipherInstanceEncrypt at h
  split at h
  · obtain ⟨p, -, hp⟩ := Option.bind_eq_some_iff.mp h
    obtain ⟨rfl, -⟩ := Prod.mk.inj (Option.some.inj hp)
    rfl
  · obtain ⟨p, -, hp⟩ := Option.bind_eq_some_iff.mp h
    obtain ⟨rfl, -⟩ := Prod.mk.inj (Option.some.inj hp)
    rfl
  · obtain ⟨rfl, -⟩ := Prod.mk.inj (Option.some.inj h)
    rfl

theorem SendCall.compose_cipher {call : SendCall} {m : ChannelMessage} {ci : MwCipherInstance}
    (h : call.compose = some (m, some ci)) :
    ∃ cipher ci0, call.owner = some cipher ∧ call.cipher = some ci0 ∧
      mwCipherInstanceEncrypt call.fresh call.data cipher ci0 = some (ci, m.msg.data) := by
  unfold SendCall.compose at h
  split at h
  · rename_i ci0 _ hci0
    obtain ⟨cipher, howner, h⟩ := Option.bind_eq_some_iff.mp h
    obtain ⟨⟨ci1, o⟩, henc, h⟩ := Option.bind_eq_some_iff.mp h
    obtain ⟨rfl, hci⟩ := Prod.mk.inj (Option.some.inj h)
    obtain rfl := Option.some.inj hci
    exact ⟨cipher, ci0, howner, hci0, henc⟩
  · exact absurd (Prod.mk.inj (Option.some.inj h)).2 (by simp)

/-- The cipher that a call leaves is of the type that it found. -/
theorem SendCall.compose_type {call : SendCall} {m : ChannelMessage} {ci : Option MwCipherInstance}
    (h : call.compose = some (m, ci)) :
    (ci <|> call.cipher).map (·.type) = call.cipher.map (·.type) := by
  cases ci with
  | none => rfl
  | some ci =>
    obtain ⟨cipher, ci0, -, hci0, henc⟩ := SendCall.compose_cipher h
    rw [hci0]
    exact congrArg some (mwCipherInstanceEncrypt_keeps henc)

theorem mwCipherInstanceDecrypt_type {data o : MwOpaque} {ci ci' : MwCipherInstance}
    (h : mwCipherInstanceDecrypt data ci = some (ci', o)) : ci'.type = ci.type := by
  unfold mwCipherInstanceDecrypt at h
  split at h
  all_goals
    obtain ⟨d, -, h⟩ := Option.bind_eq_some_iff.mp h
    obtain ⟨p, -, h⟩ := Option.bind_eq_some_iff.mp h
    obtain ⟨rfl, -⟩ := Prod.mk.inj (Option.some.inj h)
    rfl

theorem receivedData_type {c : MwChannel} {m : ChannelMessage} {ci : Option MwCipherInstance}
    {data : MwOpaque} (h : receivedData c m = some (ci, data)) :
    ci.map (·.type) = c.cipher.map (·.type) := by
  unfold receivedData at h
  split at h
  · cases hcipher : c.cipher with
    | none =>
      rw [hcipher] at h
      rw [← (Prod.mk.inj (Option.some.inj h)).1]
    | some ci0 =>
      rw [hcipher] at h
      obtain ⟨⟨ci1, o⟩, hdec, h⟩ := Option.bind_eq_some_iff.mp h
      rw [← (Prod.mk.inj (Option.some.inj h)).1]
      exact congrArg some (mwCipherInstanceDecrypt_type hdec)
  · rw [← (Prod.mk.inj (Option.some.inj h)).1]

theorem SameCipher.type {ci ci' : Option MwCipherInstance} (h : SameCipher ci ci') :
    ci'.map (·.type) = ci.map (·.type) := by
  have htype (ci : Option MwCipherInstance) : ci.map (·.type) = (ci.map (·.shape)).map (·.1) := by
    cases ci with
    | none => rfl
    | some ci => exact congrArg some ci.shape_type.symm
  rw [htype ci', htype ci, h]

/-! ## The types that a channel has -/

/-- A channel has an instance of a type, as its cipher or as one that could be. -/
def MwChannel.Has (c : MwChannel) (type : MwCipherType) : Prop :=
  type ∈ (c.supported.getD []).map (·.type) ∨ c.cipher.map (·.type) = some type

theorem MwChannel.Has.mono {c c' : MwChannel} {type : MwCipherType} (h : c'.Has type)
    (hsupported : ∀ ci ∈ c'.supported.getD [], ci ∈ c.supported.getD [])
    (hcipher : c'.cipher.map (·.type) = some type → c.Has type) : c.Has type := by
  obtain h | h := h
  · obtain ⟨ci, hci, rfl⟩ := List.mem_map.mp h
    exact .inl (List.mem_map_of_mem (hsupported ci hci))
  · exact hcipher h

/-- The same instances, in whatever state -/
theorem MwChannel.Has.same {c c' : MwChannel} {type : MwCipherType} (h : c'.Has type)
    (hsupported : c'.supported = c.supported)
    (hcipher : c'.cipher.map (·.type) = c.cipher.map (·.type)) : c.Has type :=
  h.mono (by rw [hsupported]; exact fun _ hci => hci) fun h => .inr (hcipher ▸ h)

theorem MwChannel.Has.selected {c : MwChannel} {ci : Option MwCipherInstance} {type : MwCipherType}
    (h : (c.selected ci).Has type)
    (hci : ∀ ci' ∈ ci, ∃ ci0 ∈ c.supported.getD [], ci'.type = ci0.type) : c.Has type := by
  refine h.mono (by simp [MwChannel.selected]) fun h => ?_
  obtain ⟨ci', hci', rfl⟩ := Option.map_eq_some_iff.mp h
  obtain ⟨ci0, hci0, htype⟩ := hci ci' hci'
  rw [htype]
  exact .inl (List.mem_map_of_mem hci0)

theorem Selects.has {chan : ChanRef} {c c' : MwChannel} {t t' : List Event}
    (h : Selects chan (c, t) (c', t')) {type : MwCipherType} (hhas : c'.Has type) : c.Has type := by
  cases h with
  | before => exact hhas
  | now hl hci =>
    refine hhas.selected fun ci' hci' => ?_
    obtain ⟨ci0, hci0, hshape⟩ := hci ci' hci'
    refine ⟨ci0, by rwa [hl], ?_⟩
    rw [← ci'.shape_type, hshape, ci0.shape_type]

section

variable {k : Setting} {chan : ChanRef}

/-- Only `mwChannel_populateSupportedCipherInstances` gives a channel new types. -/
theorem SmallStep.has {c c' : MwChannel} {t t' : List Event} {type : MwCipherType}
    (h : SmallStep k chan ⟨.live c, t⟩ ⟨.live c', t'⟩) (hhas : c'.Has type) :
    c.Has type ∨ k.ciphers type ∧ k.calls .populateSupportedCipherInstances c ∧ t' = t ∧
      c'.state = c.state := by
  cases h with
  | call h =>
    cases h with
    | describe hsame =>
      exact .inl (hhas.same hsame.supported (congrArg (Option.map (·.type)) hsame.cipher))
    | populate hcall hl hl' =>
      obtain hhas | hhas := hhas
      · obtain ⟨ci, hci, rfl⟩ := List.mem_map.mp hhas
        obtain hci | hci := hl' ci hci
        · exact .inl (.inl (List.mem_map_of_mem (by rwa [hl])))
        · exact .inr ⟨hci.1, hcall, rfl, rfl⟩
      · exact .inl (.inr hhas)
    | select _ hl hci =>
      exact .inl (hhas.selected fun ci' hci' => ⟨ci', by rw [hl]; exact hci ci' hci', rfl⟩)
    | send hcall hmsg =>
      refine .inl (hhas.same rfl ?_)
      rw [← hcall.cipher]
      exact SendCall.compose_type hmsg
    | queue hcall hmsg =>
      refine .inl (hhas.same rfl ?_)
      rw [← hcall.cipher]
      exact SendCall.compose_type hmsg
    | setService | create | garbled => exact .inl (hhas.same rfl rfl)
  | @accepts _ c2 _ _ _ _ _ _ _ hselect hci =>
    have hhas' : c2.Has type := hhas.same rfl hci.type
    obtain ⟨-, hselect⟩ | ⟨-, heq⟩ := hselect
    · exact .inl (hselect.has hhas')
    · obtain ⟨rfl, rfl⟩ := Prod.mk.inj heq
      exact .inl hhas'
  | @accepted c c2 c1 _ _ _ _ hsame hselect =>
    have hhas' : c2.Has type := hselect.has (hhas.same rfl rfl)
    exact .inl (hhas'.same hsame.supported (congrArg (Option.map (·.type)) hsame.cipher))
  | received hdata => exact .inl (hhas.same rfl (receivedData_type hdata))
  | destroyed | arrives | queued | handed | flushed => exact .inl (hhas.same rfl rfl)

/-- The instances of a channel are of ciphers that there are. -/
def Registered (k : Setting) (v : ChannelView) : Prop :=
  ∀ c, v.life = .live c → ∀ type, c.Has type → k.ciphers type

theorem SmallStep.registered {v v' : ChannelView} (h : SmallStep k chan v v')
    (hv : Registered k v) : Registered k v' := by
  intro c hc type hhas
  obtain ⟨life, t⟩ := v
  obtain ⟨life', t'⟩ := v'
  obtain rfl : life' = .live c := hc
  cases life with
  | live c0 =>
    obtain hhas | ⟨hcipher, -⟩ := h.has hhas
    · exact hv c0 rfl type hhas
    · exact hcipher
  | gone => cases h with | call h => cases h
  | unborn =>
    cases h with
    | call h => cases h
    | newOutgoing => simp [MwChannel.Has] at hhas
    | announced _ _ _ _ _ hcipher _ _ hl hitems =>
      obtain hhas | hhas := hhas
      · rw [hl] at hhas
        obtain ⟨ci, hci, rfl⟩ := List.mem_map.mp hhas
        exact (hitems ci hci).1.1
      · simp [hcipher] at hhas

theorem Lives.registered {t : List Event} {v : ChannelView} (h : Lives k chan ⟨.unborn, t⟩ v) :
    Registered k v :=
  h.keeps SmallStep.registered (fun _ hc => absurd hc (by simp))

end

/-! ## Negotiation -/

/-- The calls of services that leave the selection to the library: they fill in what a
channel supports before they create it, and select at most on channels that others have
created. So do all services of the library. -/
def Negotiates (chan : ChanRef) : ChannelCall → MwChannel → Prop
  | .populateSupportedCipherInstances, c => c.state = .init
  | .selectCipherInstance _, _ => mwChannelIdIsIncoming chan.id = true
  | _, _ => True

/-- A type is among the items of a message that creates the channel. -/
def OffersIn (type : MwCipherType) : MwMessageBody → Prop
  | .channelCreate msg => type.code ∈ msg.encrypt.items.map (·.id)
  | _ => False

/-- A type has been offered by the side that has created the channel. -/
structure Offered (chan : ChanRef) (type : MwCipherType) (t : List Event) : Prop where
  outgoing : mwChannelIdIsOutgoing chan.id = true →
    ∃ msg, .channel chan (.sends msg) ∈ t ∧ OffersIn type msg.body
  incoming : mwChannelIdIsIncoming chan.id = true →
    ∃ msg, .channel chan (.arrives msg) ∈ t ∧ OffersIn type msg.body

theorem Offered.mono {chan : ChanRef} {type : MwCipherType} {t t' : List Event}
    (h : Offered chan type t) (ht : t ⊆ t') : Offered chan type t' where
  outgoing := fun hid => by
    obtain ⟨msg, hmem, hoffers⟩ := h.outgoing hid
    exact ⟨msg, ht hmem, hoffers⟩
  incoming := fun hid => by
    obtain ⟨msg, hmem, hoffers⟩ := h.incoming hid
    exact ⟨msg, ht hmem, hoffers⟩

/-- The policy and the cipher of a channel, once that has been decided -/
def MwChannel.Agreed (c : MwChannel) : Prop :=
  c.policy = ((c.cipher.map (·.type)).map MwCipherType.policy).getD encryptNone

/-- How far the negotiation about a channel has come -/
structure Negotiated (chan : ChanRef) (c : MwChannel) (t : List Event) : Prop where
  offered : c.state = .wait ∨ c.state = .opened → ∀ type, c.Has type → Offered chan type t
  undecided : c.supported ≠ none → c.cipher = none
  agreed : c.supported = none → c.Agreed
  opened : c.state = .opened → c.supported = none
  waiting : mwChannelIdIsOutgoing chan.id = true → c.state = .init ∨ c.state = .wait →
    c.supported ≠ none

theorem selected_agreed (c : MwChannel) (ci : Option MwCipherInstance) : (c.selected ci).Agreed := by
  cases ci <;> rfl

section

variable {k : Setting} {chan : ChanRef} {c c' : MwChannel} {t t' : List Event}

/-- Nothing has been decided, and the state of the channel is the same or an end. -/
theorem Negotiated.same (h : Negotiated chan c t)
    (hoffered : c'.state = .wait ∨ c'.state = .opened → ∀ type, c'.Has type → Offered chan type t')
    (hsupported : c'.supported = c.supported)
    (hcipher : c'.cipher.map (·.type) = c.cipher.map (·.type)) (hpolicy : c'.policy = c.policy)
    (hstate : c'.state = c.state ∨ c.state = .init ∧ c'.state = .wait ∨ c'.state = .error ∨
      c'.state = .destroy) : Negotiated chan c' t' where
  offered := hoffered
  undecided := by
    intro hne
    rw [hsupported] at hne
    rw [h.undecided hne] at hcipher
    simpa using hcipher
  agreed := by
    intro heq
    rw [MwChannel.Agreed, hpolicy, hcipher]
    exact h.agreed (hsupported ▸ heq)
  opened := by
    intro hopened
    rw [hsupported]
    obtain hstate | ⟨-, hstate⟩ | hstate | hstate := hstate
    · exact h.opened (hstate ▸ hopened)
    all_goals rw [hstate] at hopened; exact absurd hopened (by simp)
  waiting := by
    intro hid hwait
    rw [hsupported]
    obtain hstate | ⟨hinit, -⟩ | hstate | hstate := hstate
    · exact h.waiting hid (hstate ▸ hwait)
    · exact h.waiting hid (.inl hinit)
    all_goals rw [hstate] at hwait; exact absurd hwait (by simp)

/-- A decision that has been made -/
theorem Negotiated.decided (hoffered : ∀ type, c.Has type → Offered chan type t)
    (hsupported : c.supported = none) (hagreed : c.Agreed)
    (hid : mwChannelIdIsIncoming chan.id = true ∨ c.state = .opened ∨ c.state = .error) :
    Negotiated chan c t where
  offered := fun _ => hoffered
  undecided := fun hne => absurd hsupported hne
  agreed := fun _ => hagreed
  opened := fun _ => hsupported
  waiting := by
    intro hout hwait
    obtain hid | hid | hid := hid
    · simp [mwChannelIdIsIncoming, hout] at hid
    all_goals rw [hid] at hwait; exact absurd hwait (by simp)

theorem Selects.agreed (h : Selects chan (c, t) (c', t')) (hc : c.supported = none → c.Agreed) :
    c'.supported = none ∧ c'.Agreed := by
  cases h with
  | before hnone => exact ⟨hnone, hc hnone⟩
  | now => exact ⟨rfl, selected_agreed _ _⟩

theorem agreed_of_type (h : c.Agreed) (hcipher : c'.cipher.map (·.type) = c.cipher.map (·.type))
    (hpolicy : c'.policy = c.policy) : c'.Agreed := by
  rw [MwChannel.Agreed, hpolicy, hcipher]
  exact h

/-- The negotiation goes on, or stays where it is. -/
theorem SmallStep.negotiated (hk : ∀ call c, k.calls call c → Negotiates chan call c)
    (h : SmallStep k chan ⟨.live c, t⟩ ⟨.live c', t'⟩) (hregistered : Registered k ⟨.live c, t⟩)
    (hc : Negotiated chan c t) : Negotiated chan c' t' := by
  have hsubset : t ⊆ t' := h.suffix.subset
  -- a channel that has been offered its ciphers does not get others
  have hoffered (hstate : c.state = .wait ∨ c.state = .opened) (type : MwCipherType)
      (hhas : c'.Has type) : Offered chan type t' := by
    obtain hhas | ⟨-, hcall, -⟩ := h.has hhas
    · exact (hc.offered hstate type hhas).mono hsubset
    · have hinit : c.state = .init := hk _ c hcall
      simp [hinit] at hstate
  have hsame (hsupported : c'.supported = c.supported)
      (hcipher : c'.cipher.map (·.type) = c.cipher.map (·.type)) (hpolicy : c'.policy = c.policy)
      (hstate : c'.state = c.state) : Negotiated chan c' t' := by
    refine hc.same ?_ hsupported hcipher hpolicy (.inl hstate)
    rw [hstate]
    exact hoffered
  cases h with
  | call h =>
    cases h with
    | describe hs =>
      exact hsame hs.supported (congrArg (Option.map (·.type)) hs.cipher) hs.policy hs.state
    | populate hcall hl =>
      have hinit : c.state = .init := hk _ c hcall
      exact {
        offered := fun hstate => absurd hstate (by simp [hinit])
        undecided := fun _ => hc.undecided (by simp [hl])
        agreed := fun hnone => absurd hnone (by simp)
        opened := fun hopened => absurd hopened (by simp [hinit])
        waiting := fun _ _ => by simp }
    | @select _ _ _ ci hcall hl hci =>
      obtain ⟨type, hcall⟩ := hcall
      have hid : mwChannelIdIsIncoming chan.id = true := hk _ c hcall
      exact {
        offered := hoffered
        undecided := fun hne => absurd rfl hne
        agreed := fun _ => selected_agreed c ci
        opened := fun _ => rfl
        waiting := fun hout => absurd hid (by simp [mwChannelIdIsIncoming, hout]) }
    | @create _ _ msg state hcall hinit hid hitems hstate =>
      refine hc.same (fun _ type hhas => ?_) rfl rfl rfl ?_
      · refine ⟨fun _ => ⟨⟨{}, .channelCreate msg⟩, by simp, ?_⟩, ?_⟩
        · have hhas' : c.Has type := hhas.same rfl rfl
          have hcipher := hregistered c rfl type hhas'
          obtain hhas' | hhas' := hhas'
          · obtain ⟨ci, hci, rfl⟩ := List.mem_map.mp hhas'
            exact hitems ci hci hcipher
          · rw [hc.undecided (hc.waiting hid (.inl hinit))] at hhas'
            simp at hhas'
        · intro hin
          simp [mwChannelIdIsIncoming, hid] at hin
      · obtain rfl | rfl := hstate
        · exact .inr (.inl ⟨hinit, rfl⟩)
        · exact .inr (.inr (.inl rfl))
    | send hcall hmsg =>
      refine hsame rfl ?_ rfl rfl
      rw [← hcall.cipher]
      exact SendCall.compose_type hmsg
    | queue hcall hmsg =>
      refine hsame rfl ?_ rfl rfl
      rw [← hcall.cipher]
      exact SendCall.compose_type hmsg
    | setService | garbled => exact hsame rfl rfl rfl rfl
  | @accepts _ c2 _ _ _ _ state hwait hid hselect hci hstate =>
    have hagreed : c2.supported = none ∧ c2.Agreed := by
      obtain ⟨-, hselect⟩ | ⟨hsome, heq⟩ := hselect
      · exact hselect.agreed hc.agreed
      · obtain ⟨rfl, rfl⟩ := Prod.mk.inj heq
        have hnone : c2.supported = none := by
          by_contra hne
          exact hsome (hc.undecided hne)
        exact ⟨hnone, hc.agreed hnone⟩
    exact Negotiated.decided (hoffered (.inl hwait)) hagreed.1 (agreed_of_type hagreed.2 hci.type rfl)
      (.inl hid)
  | @accepted _ c2 c1 _ _ hwait hid hs hselect =>
    have hsome : c2.supported ≠ none := by
      have hne := hc.waiting hid (.inr hwait)
      rw [← hs.supported] at hne
      exact hne
    have hagreed := hselect.agreed fun hnone => absurd hnone hsome
    exact Negotiated.decided (hoffered (.inl hwait)) hagreed.1 (agreed_of_type hagreed.2 rfl rfl)
      (.inr (.inl rfl))
  | destroyed reason =>
    have hclosed := closedState_cases reason
    refine hc.same (fun hstate => ?_) rfl rfl rfl (.inr (.inr hclosed))
    obtain h | h := hclosed <;> simp [h] at hstate
  | received hdata => exact hsame rfl (receivedData_type hdata) rfl rfl
  | arrives | queued | handed | flushed => exact hsame rfl rfl rfl rfl

theorem negotiated_newOutgoing (t : List Event) :
    Negotiated chan { addr := chan.addr, state := .init } t where
  offered := by simp
  undecided := fun _ => rfl
  agreed := by simp
  opened := by simp
  waiting := by simp

omit c in
theorem Lives.negotiated {c : MwChannel} (hk : ∀ call c, k.calls call c → Negotiates chan call c) {v : ChannelView}
    (h : Lives k chan ⟨.unborn, t⟩ v) (hlive : v.life = .live c) : Negotiated chan c v.history := by
  suffices hall : Registered k v ∧ ∀ c, v.life = .live c → Negotiated chan c v.history from
    hall.2 c hlive
  refine h.keeps (I := fun v => Registered k v ∧ ∀ c, v.life = .live c → Negotiated chan c v.history)
    ?_ ⟨fun _ hc => absurd hc (by simp), fun _ hc => absurd hc (by simp)⟩
  rintro ⟨life, t⟩ ⟨life', t'⟩ hstep ⟨hregistered, hv⟩
  refine ⟨hstep.registered hregistered, ?_⟩
  rintro d rfl
  cases life with
  | live d0 => exact hstep.negotiated hk hregistered (hv d0 rfl)
  | gone => cases hstep with | call h => cases h
  | unborn =>
    cases hstep with
    | call h => cases h
    | newOutgoing => exact negotiated_newOutgoing _
    | announced head msg t hid hstate hcipher hpolicy _ hl hitems =>
      exact {
        offered := by
          intro _ type hhas
          refine ⟨fun hout => absurd hid (by simp [mwChannelIdIsIncoming, hout]), fun _ => ?_⟩
          refine ⟨⟨head, .channelCreate msg⟩, by simp, ?_⟩
          obtain hhas | hhas := hhas
          · rw [hl] at hhas
            obtain ⟨ci, hci, rfl⟩ := List.mem_map.mp hhas
            exact (hitems ci hci).2
          · simp [hcipher] at hhas
        undecided := fun _ => hcipher
        agreed := by simp [hl]
        opened := by simp [hstate]
        waiting := fun _ _ => by simp [hl] }

end

/-! ## Runs -/

/-- What an open channel has to do with the ciphers of its session and with what has been
offered -/
structure MwSession.Secured (s : MwSession) (chan : ChanRef) (c : MwChannel) : Prop where
  supported : c.supported = none
  policy : c.cipher = none ↔ c.policy = encryptNone
  type : ∀ ci, c.cipher = some ci → c.policy = ci.type.policy
  registered : ∀ ci, c.cipher = some ci → ∃ cipher ∈ s.ciphers, cipher.type = ci.type
  offered : ∀ ci, c.cipher = some ci → Offered chan ci.type s.trace

/-- Services that leave the selection on their own channels to the library: the cipher of
an open channel is one that was offered, and its policy says which. The ciphers of the session are
those it has been given at the beginning: the library itself never calls
`mwSession_removeCipher`, and a client that did so would leave open channels with instances of a
cipher that is registered no more. -/
theorem run_secured (env : Env) (n : Nat) (handler : MwSessionHandler) (services : List MwService)
    (ciphers : List MwCipher) (attributes : Attributes) (chan : ChanRef) (commands : List Command)
    (hwrites : env.OnlyWrites) (henv : env.Meets (Allows (Negotiates chan) chan))
    (hcommands : RunMeets (env.hooks n) (AllowsCommand (Negotiates chan) chan) commands
      (mwSessionNew handler services ciphers attributes)) :
    let s := run (env.hooks n) commands (mwSessionNew handler services ciphers attributes)
    ∀ c, s.channel? chan = some c → c.state = .opened → s.Secured chan c := by
  intro s c hc hopened
  have hsuits : env.Suits (Setting.ofNew services ciphers False (Negotiates chan)) chan :=
    ⟨hwrites, henv, False.elim⟩
  obtain ⟨hfits, hlives⟩ := runNew_lives n handler services ciphers attributes commands hsuits hcommands
  have hview := view_of_some hc
  have hnegotiated : Negotiated chan c (s.history chan) := by
    have h := hlives.negotiated (c := c) (fun _ _ h => h) (by rw [hview])
    rwa [hview] at h
  have hagreed := hnegotiated.agreed (hnegotiated.opened hopened)
  have htype (ci : MwCipherInstance) (hci : c.cipher = some ci) : c.policy = ci.type.policy := by
    rw [hagreed, hci]
    rfl
  have hhas (ci : MwCipherInstance) (hci : c.cipher = some ci) : c.Has ci.type :=
    .inr (by rw [hci]; rfl)
  refine ⟨hnegotiated.opened hopened, ⟨fun hnone => ?_, fun hnone => ?_⟩, htype, ?_, ?_⟩
  · rw [hagreed, hnone]
    rfl
  · cases hci : c.cipher with
    | none => rfl
    | some ci =>
      rw [htype ci hci] at hnone
      cases hci' : ci.type <;> rw [hci'] at hnone <;> exact absurd hnone (by decide)
  · intro ci hci
    have hregistered := hlives.registered c (by rw [hview]) _ (hhas ci hci)
    exact List.mem_map.mp ((hfits.ciphers _).mp hregistered)
  · intro ci hci
    have hoffered := hnegotiated.offered (.inr hopened) _ (hhas ci hci)
    exact hoffered.mono fun e he => (List.mem_filter.mp he).1

/-- A message as it comes from the server -/
def MwMessage.framed (msg : MwMessage) : List UInt8 := mwOpaquePut (mwMessagePut msg)

/-- A channel is announced that offers RC2/40, and the client accepts it. -/
def announcedChannel : List Command :=
  [.recv (MwMessage.framed ⟨{}, .channelCreate
      { channel := 0x80000001, service := 5,
        encrypt := { mode := encryptWhatever, items := [{ id := MwCipherType.code .rc2_40 }] } }⟩),
    .call (.channel ⟨0x80000001, 0⟩ .accept)]

theorem run_secured_announced :
    let s := run (Env.idle.hooks 1) announcedChannel
      (mwSessionNew {} [{ type := 5, type_ne_zero := by decide, hasRecvCreate := true }]
        [mwCipherNewRc2_40] {})
    ∃ c, s.channel? ⟨0x80000001, 0⟩ = some c ∧ c.cipher.isSome = true ∧
      s.Secured ⟨0x80000001, 0⟩ c := by
  intro s
  have hany : (s.channel? ⟨0x80000001, 0⟩).any
      (fun c => c.cipher.isSome ∧ c.state = .opened) = true := by decide +kernel
  obtain ⟨c, hc, hopen⟩ := (Option.any_eq_true _ _).mp hany
  obtain ⟨hcipher, hstate⟩ := of_decide_eq_true hopen
  refine ⟨c, hc, hcipher, run_secured Env.idle 1 {} _ _ {} _ _ (fun _ _ => rfl) ?_ ?_ c hc hstate⟩
  · exact ⟨fun _ _ _ => trivial, fun _ _ => trivial, fun _ _ _ => trivial⟩
  · refine ⟨trivial, ?_, trivial⟩
    rintro _ d ⟨⟩ -
    trivial

end Meanwhile
