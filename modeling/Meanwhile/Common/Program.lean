-- SUMMARY: Code that reads from a get buffer as a program, with what it fetches and what it makes of a list of bytes.
import Meanwhile.Common.Fetch

/-!
# Programs over a get buffer

A `GetProgram` calls the get functions one after another, and what it calls next may
depend on all that it has got. It has three meanings: it runs on a get buffer (`run`), it
fetches bytes one by one (`fetch`), and it takes a list of bytes apart (`parse`). The
last is what the buffer is for. It knows no flag and no cursor to go wrong: there is no
result when a field needs more bytes than are left.

What holds for the calls holds for every program, by induction on it.
-/

namespace Meanwhile

open GetBuffer

/-! ## Calls -/

/-- The functions that a program calls, each with what its target holds before -/
inductive GetCall : Type → Type where
  | guint16 (val : UInt16) : GetCall UInt16
  | guint32 (val : UInt32) : GetCall UInt32
  | gboolean (val : Bool) : GetCall Bool
  | string : GetCall MwString
  | mwOpaque : GetCall MwOpaque
  | read (len : Nat) : GetCall (List UInt8)
  | advance (len : Nat) : GetCall Unit
  | failed : GetCall Bool
  /-- `b->ptr - b->buf` -/
  | position : GetCall Nat

/-- A position in some bytes, with the bytes from there on -/
structure Spot where
  pos : Nat
  bytes : List UInt8
deriving DecidableEq

/-- The spot `n` bytes further on -/
def Spot.skip (p : Spot) (n : Nat) : Spot := ⟨p.pos + n, p.bytes.drop n⟩

/-- A field of `n` bytes, which must be there -/
def Spot.field {α : Type} (p : Spot) (n : Nat) (v : List UInt8 → α) : Option (α × Spot) :=
  if p.bytes.length < n then none else some (v p.bytes, p.skip n)

namespace GetCall

variable {β : Type}

def run : GetCall β → Get β
  | guint16 val => guint16Get val
  | guint32 val => guint32Get val
  | gboolean val => gbooleanGet val
  | string => mwStringGet
  | mwOpaque => mwOpaqueGet
  | read len => mwGetBufferRead len
  | advance len => mwGetBufferAdvance len
  | failed => mwGetBufferError
  | position => fun b => (b.ptr, b)

def fetch : GetCall β → Fetch β
  | guint16 val => Fetch.guint16 val
  | guint32 val => Fetch.guint32 val
  | gboolean val => Fetch.gboolean val
  | string => Fetch.string
  | mwOpaque => Fetch.mwOpaque
  | read len => Fetch.read len
  | advance len => Fetch.advance len
  | failed => Fetch.failed
  | position => fun s => (s.b.ptr, s)

/-- What the call makes of the bytes from a spot on. A string and an opaque are a word
and a body as long as the word announces. -/
def parse : GetCall β → Spot → Option (β × Spot)
  | guint16 val, p => p.field 2 (mw16Get val)
  | guint32 val, p => p.field 4 (mw32Get val)
  | gboolean val, p => p.field 1 fun bytes => match bytes with
      | c :: _ => decide (c ≠ 0)
      | [] => val
  | string, p => (p.field 2 (mw16Get 0)).bind fun len => len.2.field len.1.toNat fun bytes =>
      if len.1 = 0 then none else some (CString.ofBytes (bytes.take len.1.toNat))
  | mwOpaque, p => (p.field 4 (mw32Get 0)).bind fun tmp => tmp.2.field tmp.1.toNat fun bytes =>
      bytes.take tmp.1.toNat
  | read len, p => some (p.bytes.take len, p.skip (min len p.bytes.length))
  | advance len, p => some ((), p.skip (min len p.bytes.length))
  | failed, p => some (false, p)
  | position, p => some (p.pos, p)

theorem forward (c : GetCall β) : c.run.Forward := by
  cases c with
  | guint16 val => exact .guint16 val
  | guint32 val => exact .guint32 val
  | gboolean val => exact .gboolean val
  | string => exact .string
  | mwOpaque => exact .mwOpaque
  | read len =>
    intro b
    simp only [run, mwGetBufferRead]
    split
    case isTrue => exact Std.Refl.refl b
    case isFalse hok => exact Follows.skip (by simpa using hok) (Nat.min_le_right _ _)
  | advance len => exact .advance len
  | failed => exact .error
  | position => exact fun b => Std.Refl.refl b

theorem sameLen (c : GetCall β) : Keeps SameLen c.run := by
  cases c with
  | guint16 val => exact SameLen.guarded (SameLen.field 2 val fun b => mw16Get val b.rest)
  | guint32 val => exact SameLen.guarded (SameLen.field 4 val fun b => mw32Get val b.rest)
  | gboolean val =>
    exact SameLen.guarded (SameLen.field 1 val fun b => match b.rest with
      | c :: _ => decide (c ≠ 0)
      | [] => val)
  | string =>
    have hword : Keeps SameLen (guint16Get 0) :=
      SameLen.guarded (SameLen.field 2 0 fun b => mw16Get 0 b.rest)
    change Keeps SameLen mwStringGet
    rw [funext mwStringGet_eq_field]
    exact SameLen.guarded (Keeps.bind hword fun _ => SameLen.field _ _ _)
  | mwOpaque =>
    have hword : Keeps SameLen (guint32Get 0) :=
      SameLen.guarded (SameLen.field 4 0 fun b => mw32Get 0 b.rest)
    change Keeps SameLen mwOpaqueGet
    rw [funext mwOpaqueGet_eq_field]
    exact SameLen.guarded (Keeps.bind hword fun _ => SameLen.field _ _ _)
  | read len =>
    exact SameLen.guarded (g := fun b => (b.rest.take (min len b.rem), b.skip (min len b.rem)))
      fun _ => rfl
  | advance len => exact SameLen.guarded (g := fun b => ((), b.skip (min len b.rem))) fun _ => rfl
  | failed => exact fun _ => rfl
  | position => exact fun _ => rfl

theorem fetches (c : GetCall β) : Fetches c.fetch c.run := by
  cases c with
  | guint16 val => exact .guint16 val
  | guint32 val => exact .guint32 val
  | gboolean val => exact .gboolean val
  | string => exact .string
  | mwOpaque => exact .mwOpaque
  | read len => exact .read len
  | advance len => exact .advance len
  | failed => exact .failed
  | position => exact fun _ _ => ⟨[], rfl, by simp⟩

end GetCall

/-- Where the cursor stands -/
def GetBuffer.spot (b : GetBuffer) : Spot := ⟨b.ptr, b.rest⟩

/-- What has been read from a buffer is what was there: the result and the spot after it,
or an error if there is no result. -/
def Parses {α : Type} (r : α × GetBuffer) : Option (α × Spot) → Prop
  | none => r.2.error = true
  | some q => r.2.error = false ∧ (r.1, r.2.spot) = q

section Parses

variable {b : GetBuffer} {α : Type}

theorem skip_spot (b : GetBuffer) (n : Nat) : (b.skip n).spot = b.spot.skip n := by
  simp [GetBuffer.spot, Spot.skip, GetBuffer.skip, GetBuffer.rest, List.drop_drop]

theorem parses_field (hb : b.Sound) (hok : b.error = false) (n : Nat) (a : α)
    (v : List UInt8 → α) :
    Parses (Get.field n a (fun b => v b.rest) b) (b.spot.field n v) := by
  have hlen : b.spot.bytes.length = b.rem := hb.rest_length
  unfold Get.field Spot.field
  by_cases hrem : b.rem < n
  · rw [if_pos (check_of_lt hrem), if_pos (hlen ▸ hrem)]
    exact check_of_lt hrem
  · have hcheck := check_of_le hok (Nat.le_of_not_lt hrem)
    rw [hcheck, if_neg (by simp [hok]), if_neg (hlen ▸ hrem)]
    exact ⟨hok, Prod.ext rfl (skip_spot b n)⟩

/-- After an error there is nothing to get. -/
theorem parses_bind {β : Type} {x : Get α} {f : α → Get β} {r : Option (α × Spot)}
    {p : α → Spot → Option (β × Spot)} (hb : b.Sound) (hx : Parses (x b) r)
    (hforward : x.Forward) (hforward' : ∀ a, (f a).Forward)
    (hf : ∀ a b', b'.Sound → b'.error = false → Parses (f a b') (p a b'.spot)) :
    Parses ((x >>= f) b) (r.bind fun q => p q.1 q.2) := by
  rw [Get.bind_apply]
  match r, hx with
  | none, hx =>
    change (f (x b).1 (x b).2).2.error = true
    rw [(hforward' _ _).error hx]
    exact hx
  | some _, ⟨hok, heq⟩ =>
    subst heq
    exact hf _ _ ((hforward b).sound hb) hok

theorem parses_guarded (hok : b.error = false) {a : α} {g : Get α} {r : Option (α × Spot)}
    (h : Parses (g b) r) : Parses (if b.error then (a, b) else g b) r := by
  rwa [if_neg (by simp [hok])]

theorem GetCall.parses (hb : b.Sound) (hok : b.error = false) (c : GetCall α) :
    Parses (c.run b) (c.parse b.spot) := by
  have hlen : b.spot.bytes.length = b.rem := hb.rest_length
  cases c with
  | guint16 val => exact parses_guarded hok (parses_field hb hok 2 val (mw16Get val))
  | guint32 val => exact parses_guarded hok (parses_field hb hok 4 val (mw32Get val))
  | gboolean val =>
    exact parses_guarded hok (parses_field hb hok 1 val fun bytes => match bytes with
      | c :: _ => decide (c ≠ 0)
      | [] => val)
  | string =>
    have hword : Parses (guint16Get 0 b) (b.spot.field 2 (mw16Get 0)) :=
      parses_guarded hok (parses_field hb hok 2 0 (mw16Get 0))
    change Parses (mwStringGet b) _
    rw [mwStringGet_eq_field]
    exact parses_guarded hok (parses_bind
      (p := fun len p => p.field len.toNat fun bytes =>
        if len = 0 then none else some (CString.ofBytes (bytes.take len.toNat)))
      hb hword (.guint16 0) (fun _ => .field _ _ _)
      fun len _ hb' hok' => parses_field hb' hok' _ none _)
  | mwOpaque =>
    have hword : Parses (guint32Get 0 b) (b.spot.field 4 (mw32Get 0)) :=
      parses_guarded hok (parses_field hb hok 4 0 (mw32Get 0))
    change Parses (mwOpaqueGet b) _
    rw [mwOpaqueGet_eq_field]
    exact parses_guarded hok (parses_bind
      (p := fun tmp p => p.field tmp.toNat fun bytes => bytes.take tmp.toNat)
      hb hword (.guint32 0) (fun _ => .field _ _ _)
      fun tmp _ hb' hok' => parses_field hb' hok' _ [] _)
  | read len =>
    refine parses_guarded hok (g := fun b => (b.rest.take (min len b.rem), b.skip (min len b.rem)))
      ⟨hok, Prod.ext ?_ ?_⟩
    · simp [← hlen, GetBuffer.spot, List.take_eq_take_iff]
    · rw [skip_spot, ← hlen]
  | advance len =>
    refine parses_guarded hok (g := fun b => ((), b.skip (min len b.rem))) ⟨hok, Prod.ext rfl ?_⟩
    rw [skip_spot, ← hlen]
  | failed => exact ⟨hok, Prod.ext hok rfl⟩
  | position => exact ⟨hok, rfl⟩

end Parses

/-! ## Programs -/

/-- Calls one after another. What is called next may depend on what has been got. -/
inductive GetProgram (α : Type) : Type 1 where
  | done (a : α)
  | call {β : Type} (c : GetCall β) (k : β → GetProgram α)

namespace GetProgram

variable {α β : Type}

def bind : GetProgram α → (α → GetProgram β) → GetProgram β
  | done a, f => f a
  | call c k, f => call c fun b => (k b).bind f

instance : Monad GetProgram where
  pure := done
  bind := bind

def ofCall (c : GetCall α) : GetProgram α := call c done

def run : GetProgram α → Get α
  | done a => pure a
  | call c k => c.run >>= fun b => (k b).run

def fetch : GetProgram α → Fetch α
  | done a => pure a
  | call c k => c.fetch >>= fun b => (k b).fetch

def parse : GetProgram α → Spot → Option (α × Spot)
  | done a, p => some (a, p)
  | call c k, p => (c.parse p).bind fun q => (k q.1).parse q.2

@[simp] theorem run_pure (a : α) : (pure a : GetProgram α).run = pure a := rfl

@[simp] theorem run_ofCall (c : GetCall α) : (ofCall c).run = c.run := rfl

@[simp] theorem run_ite (p : Prop) [Decidable p] (x y : GetProgram α) :
    (if p then x else y).run = if p then x.run else y.run := apply_ite run p x y

@[simp] theorem run_bind (x : GetProgram α) (f : α → GetProgram β) :
    (x >>= f).run = x.run >>= fun a => (f a).run := by
  induction x with
  | done a => rfl
  | call c k ih => exact congrArg (c.run >>= ·) (funext ih)

theorem forward (x : GetProgram α) : x.run.Forward := by
  induction x with
  | done a => exact Keeps.pure a
  | call c k ih => exact Keeps.bind c.forward ih

theorem sameLen (x : GetProgram α) : Keeps SameLen x.run := by
  induction x with
  | done a => exact Keeps.pure a
  | call c k ih => exact Keeps.bind c.sameLen ih

/-- A program reads only where it moves the cursor over. -/
theorem fetches (x : GetProgram α) : Fetches x.fetch x.run := by
  induction x with
  | done a => exact .pure a
  | call c k ih => exact .bind c.fetches c.forward ih fun b => (k b).forward

/-- A program ends in an error exactly when there is a field that is not all there, and has
otherwise got what the bytes say. -/
theorem parses (x : GetProgram α) {b : GetBuffer} (hb : b.Sound) (hok : b.error = false) :
    Parses (x.run b) (x.parse b.spot) := by
  induction x generalizing b with
  | done a => exact ⟨hok, rfl⟩
  | call c k ih =>
    exact parses_bind hb (c.parses hb hok) c.forward (fun a => (k a).forward)
      fun a b' hb' hok' => ih a hb' hok'

theorem error_iff (x : GetProgram α) {b : GetBuffer} (hb : b.Sound) (hok : b.error = false) :
    (x.run b).2.error = true ↔ x.parse b.spot = none := by
  have h := x.parses hb hok
  cases hparse : x.parse b.spot with
  | none =>
    rw [hparse] at h
    exact iff_of_true h rfl
  | some q =>
    rw [hparse] at h
    exact iff_of_false (by simp [h.1]) nofun

end GetProgram

end Meanwhile
