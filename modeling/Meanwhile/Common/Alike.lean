-- SUMMARY: Get functions that differ in what they start from, and return the same wherever they read all that they need.
import Meanwhile.Common.Cursor

/-!
# Reading alike

A get function leaves what it was given where it cannot read, so that two runs of a
decoder which start from different contents of its variables return the same unless
there is an error. `Alike` says so of two decoders. They always move the cursor in the
same way, since nothing moves after an error.
-/

namespace Meanwhile.Get

open GetBuffer

variable {α β : Type}

/-- Both move the cursor in the same way, and return the same if there is no error. -/
structure Alike (g g' : Get α) : Prop where
  forward : g.Forward
  forward' : g'.Forward
  buffer : ∀ b : GetBuffer, b.Sound → (g b).2 = (g' b).2
  value : ∀ b : GetBuffer, b.Sound → (g b).2.error = false → (g b).1 = (g' b).1

namespace Alike

theorem refl {g : Get α} (h : g.Forward) : Alike g g := ⟨h, h, fun _ _ => rfl, fun _ _ _ => rfl⟩

theorem pure (a : α) : Alike (Pure.pure a) (Pure.pure a) := refl (Keeps.pure a)

theorem guint16 (val val' : UInt16) : Alike (guint16Get val) (guint16Get val') := by
  refine ⟨.guint16 val, .guint16 val', fun b _ => ?_, fun b hb hok => ?_⟩
  · unfold guint16Get
    split
    · rfl
    · dsimp only
      split <;> rfl
  · by_cases hrem : b.rem < 2
    · exact absurd hok (by simp [guint16Get_of_lt hrem])
    · have hb' := (Forward.guint16 val b).ok_of_ok hok
      have hlen := hb.rest_length
      rw [guint16Get_of_le hb' (by omega), guint16Get_of_le hb' (by omega)]
      match b.rest, hlen with
      | _ :: _ :: _, _ => rfl
      | [], hlen | [_], hlen => exact absurd hlen.symm (by simp at hlen ⊢; omega)

theorem guint32 (val val' : UInt32) : Alike (guint32Get val) (guint32Get val') := by
  refine ⟨.guint32 val, .guint32 val', fun b _ => ?_, fun b hb hok => ?_⟩
  · unfold guint32Get
    split
    · rfl
    · dsimp only
      split <;> rfl
  · rw [hb.guint32Get_eq val' hok]

/-- What is read afterwards does not matter when there is an error already. -/
theorem bind {x x' : Get α} {f f' : α → Get β} (hx : Alike x x') (hf : ∀ a, Alike (f a) (f' a)) :
    Alike (x >>= f) (x' >>= f') := by
  refine ⟨Keeps.bind hx.forward fun a => (hf a).forward,
    Keeps.bind hx.forward' fun a => (hf a).forward', fun b hb => ?_, fun b hb hok => ?_⟩
  · change (f (x b).1 (x b).2).2 = (f' (x' b).1 (x' b).2).2
    rw [← hx.buffer b hb]
    cases herror : (x b).2.error with
    | false =>
      rw [← hx.value b hb herror]
      exact (hf _).buffer _ ((hx.forward b).sound hb)
    | true =>
      rw [((hf (x b).1).forward _).error herror, ((hf (x' b).1).forward' _).error herror]
  · have hstart := ((hf (x b).1).forward _).ok_of_ok hok
    change (f (x b).1 (x b).2).1 = (f' (x' b).1 (x' b).2).1
    rw [← hx.buffer b hb, ← hx.value b hb hstart]
    exact (hf _).value _ ((hx.forward b).sound hb) hok

theorem ite {p : Prop} [Decidable p] {x x' y y' : Get α} (hx : p → Alike x x')
    (hy : ¬ p → Alike y y') : Alike (if p then x else y) (if p then x' else y') := by
  split
  · exact hx ‹_›
  · exact hy ‹_›

/-- Code that returns at once, whatever it may be, when there is an error -/
theorem guarded {a a' : α} {x x' : Get α} (hx : Alike x x') :
    Alike (do if ← mwGetBufferError then return a else x)
      (do if ← mwGetBufferError then return a' else x') := by
  refine ⟨.guarded hx.forward, .guarded hx.forward', fun b hb => ?_, fun b hb hok => ?_⟩
  · rw [mwGetBufferError_bind, mwGetBufferError_bind]
    split
    · rfl
    · exact hx.buffer b hb
  · rw [mwGetBufferError_bind] at hok ⊢
    rw [mwGetBufferError_bind]
    split
    · rename_i herror
      rw [if_pos herror] at hok
      exact absurd herror (by simpa using hok)
    · rename_i herror
      rw [if_neg herror] at hok
      exact hx.value b hb hok

/-- Two that read alike are the same where they do not fail. -/
theorem eq {x x' : Get α} (h : Alike x x') {b : GetBuffer} (hb : b.Sound)
    (hok : (x b).2.error = false) : x b = x' b :=
  Prod.ext (h.value b hb hok) (h.buffer b hb)

end Alike

end Meanwhile.Get
