-- SUMMARY: The get functions of common.c as programs, what any sequence of them does to a buffer, and where peeking agrees with getting.
import Meanwhile.Common.Program
import Meanwhile.Service.Aware

/-!
# Getters

Every get function of common.c is a program, so that a buffer that is read by any of them in
any order keeps its cursor, its count and its flag in step. A peek is no get function: two of
the three look at the head of the buffer.
-/

namespace Meanwhile

open GetBuffer

/-! ## Structures -/

namespace GetProgram

def guint16 (val : UInt16) : GetProgram UInt16 := ofCall (.guint16 val)
def guint32 (val : UInt32) : GetProgram UInt32 := ofCall (.guint32 val)
def gboolean (val : Bool) : GetProgram Bool := ofCall (.gboolean val)
def string : GetProgram MwString := ofCall .string
def mwOpaque : GetProgram MwOpaque := ofCall .mwOpaque
def failed : GetProgram Bool := ofCall .failed

/-- `mwLoginInfo_get` -/
def loginInfo (login : MwLoginInfo) : GetProgram MwLoginInfo := do
  if ← failed then return login
  let login := { login with loginId := ← string }
  let login := { login with type := ← guint16 login.type }
  let login := { login with userId := ← string }
  let login := { login with userName := ← string }
  let login := { login with community := ← string }
  let login := { login with full := ← gboolean login.full }
  if login.full then
    let login := { login with desc := ← string }
    let login := { login with ipAddr := ← guint32 login.ipAddr }
    let login := { login with serverId := ← string }
    return login
  else
    return login

/-- `mwUserItem_get` -/
def userItem (user : MwUserItem) : GetProgram MwUserItem := do
  if ← failed then return user
  let user := { user with full := ← gboolean user.full }
  let user := { user with id := ← string }
  let user := { user with community := ← string }
  if user.full then
    return { user with name := ← string }
  else
    return user

/-- `while(c--) mwUserItem_get(b, info->users + c)` -/
def userItems : Nat → List MwUserItem → GetProgram (List MwUserItem)
  | 0, users => pure users
  | c + 1, users => do
      let user ← userItem {}
      userItems c (user :: users)

/-- `mwPrivacyInfo_get` -/
def privacyInfo (info : MwPrivacyInfo) : GetProgram MwPrivacyInfo := do
  if ← failed then return info
  let info := { info with deny := ← gboolean info.deny }
  let info := { info with count := ← guint32 info.count }
  if info.count ≠ 0 then
    return { info with users := ← userItems info.count.toNat [] }
  else
    return info

/-- `mwUserStatus_get` -/
def userStatus (stat : MwUserStatus) : GetProgram MwUserStatus := do
  if ← failed then return stat
  let stat := { stat with status := ← guint16 stat.status }
  let stat := { stat with time := ← guint32 stat.time }
  let stat := { stat with desc := ← string }
  return { stat with time := 0 }

/-- `mwIdBlock_get` -/
def idBlock (id : MwIdBlock) : GetProgram MwIdBlock := do
  if ← failed then return id
  let id := { id with user := ← string }
  return { id with community := ← string }

/-- `mwEncryptItem_get` -/
def encryptItem (ei : MwEncryptItem) : GetProgram MwEncryptItem := do
  if ← failed then return ei
  let ei := { ei with id := ← guint16 ei.id }
  return { ei with info := ← mwOpaque }

/-- `mwAwareIdBlock_get` -/
def awareIdBlock (idb : Aware.MwAwareIdBlock) : GetProgram Aware.MwAwareIdBlock := do
  if ← failed then return idb
  let type ← guint16 idb.type
  let user ← string
  let community ← string
  return { type := type, user := user, community := community }

/-- `mwAwareSnapshot_get` into a structure that has been cleared -/
def awareSnapshot (endOfBlock : UInt32) : GetProgram Aware.MwAwareSnapshot := do
  let endOfBlock ← guint32 endOfBlock
  let id ← awareIdBlock {}
  let group ← string
  let online ← gboolean false
  let altId ← if online then string else pure none
  let status ← if online then userStatus {} else pure {}
  let name ← if online then string else pure none
  let ptr ← ofCall .position
  if ptr < endOfBlock.toNat then ofCall (.advance (endOfBlock.toNat - ptr))
  return { id := id, group := group, online := online, altId := altId, status := status,
           name := name }

/-! Each of them is the get function of its name, read field by field. -/

theorem run_loginInfo (login : MwLoginInfo) : (loginInfo login).run = mwLoginInfoGet login := by
  unfold loginInfo mwLoginInfoGet
  simp only [run_bind, run_ite, run_pure]
  rfl

theorem run_userItem (user : MwUserItem) : (userItem user).run = mwUserItemGet user := by
  unfold userItem mwUserItemGet
  simp only [run_bind, run_ite, run_pure]
  rfl

theorem run_userItems (c : Nat) (users : List MwUserItem) :
    (userItems c users).run = mwUserItemsGet c users := by
  induction c generalizing users with
  | zero => rfl
  | succ c ih =>
    unfold userItems mwUserItemsGet
    simp only [run_bind, run_userItem, ih]

theorem run_privacyInfo (info : MwPrivacyInfo) :
    (privacyInfo info).run = mwPrivacyInfoGet info := by
  unfold privacyInfo mwPrivacyInfoGet
  simp only [run_bind, run_ite, run_pure, run_userItems]
  rfl

theorem run_userStatus (stat : MwUserStatus) : (userStatus stat).run = mwUserStatusGet stat := by
  unfold userStatus mwUserStatusGet
  simp only [run_bind, run_ite, run_pure]
  rfl

theorem run_idBlock (id : MwIdBlock) : (idBlock id).run = mwIdBlockGet id := by
  unfold idBlock mwIdBlockGet
  simp only [run_bind, run_ite, run_pure]
  rfl

theorem run_encryptItem (ei : MwEncryptItem) : (encryptItem ei).run = mwEncryptItemGet ei := by
  unfold encryptItem mwEncryptItemGet
  simp only [run_bind, run_ite, run_pure]
  rfl

theorem run_awareIdBlock (idb : Aware.MwAwareIdBlock) :
    (awareIdBlock idb).run = Aware.mwAwareIdBlockGet idb := by
  unfold awareIdBlock Aware.mwAwareIdBlockGet
  simp only [run_bind, run_ite, run_pure]
  rfl

theorem run_awareSnapshot (endOfBlock : UInt32) :
    (awareSnapshot endOfBlock).run = Aware.mwAwareSnapshotGet endOfBlock := by
  unfold awareSnapshot Aware.mwAwareSnapshotGet
  simp only [run_bind, run_ite, run_pure, run_awareIdBlock, run_userStatus]
  rfl

end GetProgram

/-! ## Sequences -/

/-- A get function of common.c, with what its target holds before -/
inductive Getter where
  | guint16 (val : UInt16)
  | guint32 (val : UInt32)
  | gboolean (val : Bool)
  | string
  | mwOpaque
  | read (len : Nat)
  | advance (len : Nat)
  | loginInfo (login : MwLoginInfo)
  | userItem (user : MwUserItem)
  | privacyInfo (info : MwPrivacyInfo)
  | userStatus (stat : MwUserStatus)
  | idBlock (id : MwIdBlock)
  | encryptItem (ei : MwEncryptItem)
  | awareIdBlock (idb : Aware.MwAwareIdBlock)
  | awareSnapshot (endOfBlock : UInt32)

/-- The program of a get function, whatever it returns -/
def Getter.program : Getter → GetProgram Unit
  | guint16 val => GetProgram.guint16 val >>= fun _ => pure ()
  | guint32 val => GetProgram.guint32 val >>= fun _ => pure ()
  | gboolean val => GetProgram.gboolean val >>= fun _ => pure ()
  | string => GetProgram.string >>= fun _ => pure ()
  | mwOpaque => GetProgram.mwOpaque >>= fun _ => pure ()
  | read len => GetProgram.ofCall (.read len) >>= fun _ => pure ()
  | advance len => GetProgram.ofCall (.advance len)
  | loginInfo login => GetProgram.loginInfo login >>= fun _ => pure ()
  | userItem user => GetProgram.userItem user >>= fun _ => pure ()
  | privacyInfo info => GetProgram.privacyInfo info >>= fun _ => pure ()
  | userStatus stat => GetProgram.userStatus stat >>= fun _ => pure ()
  | idBlock id => GetProgram.idBlock id >>= fun _ => pure ()
  | encryptItem ei => GetProgram.encryptItem ei >>= fun _ => pure ()
  | awareIdBlock idb => GetProgram.awareIdBlock idb >>= fun _ => pure ()
  | awareSnapshot endOfBlock => GetProgram.awareSnapshot endOfBlock >>= fun _ => pure ()

/-- The get function itself, whatever it returns -/
def Getter.get : Getter → Get Unit
  | guint16 val => guint16Get val >>= fun _ => pure ()
  | guint32 val => guint32Get val >>= fun _ => pure ()
  | gboolean val => gbooleanGet val >>= fun _ => pure ()
  | string => mwStringGet >>= fun _ => pure ()
  | mwOpaque => mwOpaqueGet >>= fun _ => pure ()
  | read len => mwGetBufferRead len >>= fun _ => pure ()
  | advance len => mwGetBufferAdvance len
  | loginInfo login => mwLoginInfoGet login >>= fun _ => pure ()
  | userItem user => mwUserItemGet user >>= fun _ => pure ()
  | privacyInfo info => mwPrivacyInfoGet info >>= fun _ => pure ()
  | userStatus stat => mwUserStatusGet stat >>= fun _ => pure ()
  | idBlock id => mwIdBlockGet id >>= fun _ => pure ()
  | encryptItem ei => mwEncryptItemGet ei >>= fun _ => pure ()
  | awareIdBlock idb => Aware.mwAwareIdBlockGet idb >>= fun _ => pure ()
  | awareSnapshot endOfBlock => Aware.mwAwareSnapshotGet endOfBlock >>= fun _ => pure ()

theorem Getter.run_program (g : Getter) : g.program.run = g.get := by
  cases g with
  | loginInfo login =>
    rw [program, GetProgram.run_bind, GetProgram.run_loginInfo]
    rfl
  | userItem user =>
    rw [program, GetProgram.run_bind, GetProgram.run_userItem]
    rfl
  | privacyInfo info =>
    rw [program, GetProgram.run_bind, GetProgram.run_privacyInfo]
    rfl
  | userStatus stat =>
    rw [program, GetProgram.run_bind, GetProgram.run_userStatus]
    rfl
  | idBlock id =>
    rw [program, GetProgram.run_bind, GetProgram.run_idBlock]
    rfl
  | encryptItem ei =>
    rw [program, GetProgram.run_bind, GetProgram.run_encryptItem]
    rfl
  | awareIdBlock idb =>
    rw [program, GetProgram.run_bind, GetProgram.run_awareIdBlock]
    rfl
  | awareSnapshot endOfBlock =>
    rw [program, GetProgram.run_bind, GetProgram.run_awareSnapshot]
    rfl
  | _ => rfl

/-- What is done with a buffer -/
inductive BufferStep where
  | get (g : Getter)
  /-- `mwGetBuffer_reset` -/
  | reset

/-- What a step does to a buffer, and what it reads of it -/
def BufferStep.scan (b : GetBuffer) : BufferStep → Scan
  | get g => (g.program.fetch ⟨b, []⟩).2
  | reset => ⟨mwGetBufferReset b, []⟩

/-- The buffer after some steps -/
def GetBuffer.after (b : GetBuffer) (steps : List BufferStep) : GetBuffer :=
  steps.foldl (fun b step => (step.scan b).b) b

/-- How a buffer is made of an opaque: `mwGetBuffer_wrap` takes it as it is, `mwGetBuffer_new`
copies it. `g_memdup` counts in 32 bits, and copies less of a longer one than the buffer is
said to have: such a buffer is none of these. -/
inductive Origin where
  | wrap (o : MwOpaque)
  | new (o : MwOpaque) (fits : o.Fits)

/-- The opaque that it is made of -/
def Origin.bytes : Origin → MwOpaque
  | .wrap o => o
  | .new o _ => o

/-- The buffer that is made -/
def Origin.buffer : Origin → GetBuffer
  | .wrap o => .wrapOpaque o
  | .new o _ => { GetBuffer.wrapOpaque o with wrap := false }

/-- The buffer has these bytes, and a cursor somewhere in them. -/
structure GetBuffer.Over (o : MwOpaque) (b : GetBuffer) : Prop where
  buf : b.buf = o
  len : b.len = o.length
  sound : b.Sound

theorem over_origin (origin : Origin) : origin.buffer.Over origin.bytes := by
  cases origin with
  | wrap o => exact ⟨rfl, rfl, Sound.wrapOpaque o⟩
  | new o fits => exact ⟨rfl, rfl, Sound.wrapOpaque o⟩

section Steps

variable {o : MwOpaque} {b : GetBuffer}

theorem scan_get (hb : b.Over o) (g : Getter) :
    ∃ offs : List Nat, (BufferStep.get g).scan b = ⟨(g.program.run b).2, offs⟩ ∧
      ∀ off ∈ offs, b.ptr ≤ off ∧ off < (g.program.run b).2.ptr := by
  obtain ⟨offs, hscan, hin⟩ := g.program.fetches ⟨b, []⟩ hb.sound
  refine ⟨offs, ?_, hin⟩
  rw [BufferStep.scan, hscan, List.append_nil]

theorem over_scan (hb : b.Over o) (step : BufferStep) : (step.scan b).b.Over o := by
  cases step with
  | get g =>
    obtain ⟨offs, hscan, -⟩ := scan_get hb g
    rw [hscan]
    exact ⟨(g.program.forward b).buf.trans hb.buf, (g.program.sameLen b).trans hb.len,
      (g.program.forward b).sound hb.sound⟩
  | reset =>
    exact ⟨hb.buf, hb.len, by simp [BufferStep.scan, mwGetBufferReset, Sound, hb.len, hb.buf]⟩

theorem over_after (hb : b.Over o) (steps : List BufferStep) : (b.after steps).Over o := by
  induction steps generalizing b with
  | nil => exact hb
  | cons step steps ih => exact ih (over_scan hb step)

/-- What a step of a buffer over some bytes may do -/
structure BufferStep.Safe (step : BufferStep) (b : GetBuffer) : Prop where
  /-- What is scanned is what the get function does. -/
  done : ∀ g, step = .get g → (step.scan b).b = (g.get b).2
  count : b.ptr + b.rem = b.len
  count' : (step.scan b).b.ptr + (step.scan b).b.rem = (step.scan b).b.len
  len : (step.scan b).b.len = b.len
  forward : step ≠ .reset → b.ptr ≤ (step.scan b).b.ptr
  inside : ∀ off ∈ (step.scan b).reads, off < b.len
  sticky : step ≠ .reset → b.error = true → step.scan b = ⟨b, []⟩
  /-- There is no other error than a field that is not all there. -/
  flag : ∀ g, step = .get g → b.error = false →
    ((step.scan b).b.error = true ↔ g.program.parse b.spot = none)

theorem count_of_over (hb : b.Over o) : b.ptr + b.rem = b.len := by
  rw [hb.len, ← hb.buf]
  exact hb.sound

theorem safe_of_over (hb : b.Over o) (step : BufferStep) : step.Safe b := by
  have hafter := over_scan hb step
  have hcount := count_of_over hb
  have hlen := hafter.len.trans hb.len.symm
  cases step with
  | reset =>
    exact ⟨nofun, hcount, count_of_over hafter, hlen, fun h => absurd rfl h, nofun,
      fun h => absurd rfl h, nofun⟩
  | get g =>
    obtain ⟨offs, hscan, hin⟩ := scan_get hb g
    have hforward := g.program.forward b
    have hend := count_of_over hafter
    rw [hlen, hscan] at hend
    refine ⟨?_, hcount, count_of_over hafter, hlen, fun _ => ?_, fun off hoff => ?_,
      fun _ herror => ?_, ?_⟩
    · rintro _ ⟨⟩
      rw [hscan, g.run_program]
    · rw [hscan]
      exact hforward.ptr
    · rw [hscan] at hoff
      have := (hin off hoff).2
      dsimp only at hend
      omega
    · -- nothing is moved over, so nothing is read
      have hsame := hforward.error herror
      rw [hsame] at hscan hin
      have hnone : offs = [] := List.eq_nil_iff_forall_not_mem.mpr fun off hoff => by
        have := hin off hoff
        omega
      rw [hscan, hnone]
    · rintro _ ⟨⟩ hok
      rw [hscan]
      exact g.program.error_iff hb.sound hok

/-- Whatever has been done to a buffer before, its cursor and its count are in step, nothing is
read outside of it, and its flag goes up when a field is not all there and down when it is reset. -/
theorem steps_safe (origin : Origin) (steps : List BufferStep) (step : BufferStep) :
    step.Safe (origin.buffer.after steps) :=
  safe_of_over (over_after (over_origin origin) steps) step

end Steps

/-! ## Peeking -/

/-- `guint16_peek`: like `guint32_peek`, it reads at the head of the buffer, and guards the
first statement of `MW16_GET` only. It writes nothing, as its siblings. -/
def guint16Peek (b : GetBuffer) (beyond : Nat → UInt8 := fun _ => 0) : UInt16 :=
  if 2 ≤ b.rem then mw16Get 0 b.buf else mw16Get 0 [0, b.byteAt beyond 0]

/-- `gboolean_peek`, at the cursor -/
def gbooleanPeek (b : GetBuffer) : Bool :=
  if 1 ≤ b.rem then
    match b.rest with
    | c :: _ => decide (c ≠ 0)
    | [] => false
  else false

/-- What is peeked is what is got next, where there is enough to get. -/
structure PeeksAgree (b : GetBuffer) : Prop where
  guint16 : 2 ≤ b.rem → ∀ val beyond, guint16Peek b beyond = (guint16Get val b).1
  guint32 : 4 ≤ b.rem → ∀ val beyond, guint32Peek b beyond = (guint32Get val b).1
  gboolean : 1 ≤ b.rem → ∀ val, gbooleanPeek b = (gbooleanGet val b).1

/-- The buffer begins with the bytes under the cursor, as many as are peeked at. -/
def GetBuffer.HeadRepeats (b : GetBuffer) : Prop :=
  (2 ≤ b.rem → b.buf.take 2 = b.rest.take 2) ∧ (4 ≤ b.rem → b.buf.take 4 = b.rest.take 4)

section Peeks

variable {b : GetBuffer}

theorem mw16Get_eq_iff {bytes bytes' : List UInt8} (h : 2 ≤ bytes.length) (h' : 2 ≤ bytes'.length)
    (val val' : UInt16) :
    mw16Get val bytes = mw16Get val' bytes' ↔ bytes.take 2 = bytes'.take 2 := by
  match bytes, bytes', h, h' with
  | x :: y :: _, x' :: y' :: _, _, _ =>
    have hy := UInt8.toNat_lt y
    have hy' := UInt8.toNat_lt y'
    rw [← UInt16.toNat_inj, mw16Get_toNat, mw16Get_toNat]
    simp only [List.take_succ_cons, List.take_zero, List.cons.injEq, and_true, ← UInt8.toNat_inj]
    omega

theorem mw32Get_eq_iff {bytes bytes' : List UInt8} (h : 4 ≤ bytes.length) (h' : 4 ≤ bytes'.length)
    (val val' : UInt32) :
    mw32Get val bytes = mw32Get val' bytes' ↔ bytes.take 4 = bytes'.take 4 := by
  match bytes, bytes', h, h' with
  | x :: y :: z :: w :: _, x' :: y' :: z' :: w' :: _, _, _ =>
    have hy := UInt8.toNat_lt y
    have hy' := UInt8.toNat_lt y'
    have hz := UInt8.toNat_lt z
    have hz' := UInt8.toNat_lt z'
    have hw := UInt8.toNat_lt w
    have hw' := UInt8.toNat_lt w'
    rw [← UInt32.toNat_inj, mw32Get_toNat, mw32Get_toNat]
    simp only [List.take_succ_cons, List.take_zero, List.cons.injEq, and_true, ← UInt8.toNat_inj]
    omega

theorem guint16Peek_iff (hb : b.Sound) (hok : b.error = false) (hrem : 2 ≤ b.rem) (val : UInt16)
    (beyond : Nat → UInt8) :
    guint16Peek b beyond = (guint16Get val b).1 ↔ b.buf.take 2 = b.rest.take 2 := by
  have hrest := hb.rest_length
  have hbuf : 2 ≤ b.buf.length := by
    unfold Sound at hb
    omega
  rw [guint16Peek, if_pos hrem, guint16Get_of_le hok hrem]
  exact mw16Get_eq_iff hbuf (hrest ▸ hrem) 0 val

theorem guint32Peek_iff (hb : b.Sound) (hok : b.error = false) (hrem : 4 ≤ b.rem) (val : UInt32)
    (beyond : Nat → UInt8) :
    guint32Peek b beyond = (guint32Get val b).1 ↔ b.buf.take 4 = b.rest.take 4 := by
  have hrest := hb.rest_length
  have hbuf : 4 ≤ b.buf.length := by
    unfold Sound at hb
    omega
  rw [guint32Peek, if_pos hrem, guint32Get_of_le hok hrem]
  exact mw32Get_eq_iff hbuf (hrest ▸ hrem) 0 val

theorem gbooleanPeek_eq (hb : b.Sound) (hok : b.error = false) (hrem : 1 ≤ b.rem) (val : Bool) :
    gbooleanPeek b = (gbooleanGet val b).1 := by
  have hrest := hb.rest_length
  unfold gbooleanPeek gbooleanGet
  rw [if_pos hrem, if_neg (by simp [hok])]
  dsimp only
  rw [check_of_le hok hrem, if_neg (by simp [hok])]
  match b.rest, hrest with
  | _ :: _, _ => rfl
  | [], hrest => exact absurd hrest.symm (by simp; omega)

theorem peeksAgree_iff (hb : b.Sound) (hok : b.error = false) : PeeksAgree b ↔ b.HeadRepeats := by
  constructor
  · intro h
    exact ⟨fun hrem => (guint16Peek_iff hb hok hrem 0 fun _ => 0).mp (h.guint16 hrem 0 _),
      fun hrem => (guint32Peek_iff hb hok hrem 0 fun _ => 0).mp (h.guint32 hrem 0 _)⟩
  · intro h
    exact ⟨fun hrem val beyond => (guint16Peek_iff hb hok hrem val beyond).mpr (h.1 hrem),
      fun hrem val beyond => (guint32Peek_iff hb hok hrem val beyond).mpr (h.2 hrem),
      fun hrem val => gbooleanPeek_eq hb hok hrem val⟩

/-- After any steps that leave no error, the peeks agree with the gets exactly when the head of
the buffer repeats what is under the cursor. -/
theorem steps_peeksAgree_iff (origin : Origin) (steps : List BufferStep)
    (hok : (origin.buffer.after steps).error = false) :
    PeeksAgree (origin.buffer.after steps) ↔ (origin.buffer.after steps).HeadRepeats :=
  peeksAgree_iff (over_after (over_origin origin) steps).sound hok

/-- After one word of two that are alike the next is the one that is peeked at, and after one
of two others it is not. -/
theorem steps_peeksAgree_iff_word :
    PeeksAgree ((Origin.wrap [1, 2, 1, 2]).buffer.after [.get (.guint16 0)]) ∧
      ¬ PeeksAgree ((Origin.wrap [1, 2, 2, 1]).buffer.after [.get (.guint16 0)]) := by
  constructor
  · refine (steps_peeksAgree_iff (.wrap [1, 2, 1, 2]) _ (by decide)).mpr ?_
    unfold HeadRepeats
    decide
  · rw [steps_peeksAgree_iff (.wrap [1, 2, 2, 1]) _ (by decide)]
    unfold HeadRepeats
    decide

/-- After one word of four bytes, the next is not the one that is peeked at. -/
theorem not_peeksAgree_second_word :
    ¬ ∀ (origin : Origin) (steps : List BufferStep), (origin.buffer.after steps).error = false →
        PeeksAgree (origin.buffer.after steps) := by
  intro h
  have hagree := h (.wrap [1, 2, 3, 4]) [.get (.guint16 0)] (by decide)
  exact absurd (hagree.guint16 (by decide) 0 fun _ => 0) (by decide)

end Peeks

end Meanwhile
