-- SUMMARY: Splitting a stream into frames, and that it can be done piece by piece.
import Mathlib.Data.List.Basic

/-!
# Framing

A framing takes frames off the front of a stream. It decides on a frame when it
has seen all of it, and what follows then changes nothing, so that a stream can
be split as it arrives: what is left over is carried to the next piece.
-/

/-- How to take one frame off the front of a stream, if it is all there. -/
structure Framing (α φ : Type) where
  next : List α → Option (φ × List α)
  next_length : ∀ {b f r}, next b = some (f, r) → r.length < b.length
  next_append : ∀ {b f r} (c : List α), next b = some (f, r) → next (b ++ c) = some (f, r ++ c)

namespace Framing

variable {α φ : Type} (F : Framing α φ)

/-- The frames of a stream, and the incomplete one that is left. -/
def split (b : List α) : List φ × List α :=
  match h : F.next b with
  | none => ([], b)
  | some (f, r) =>
      have := F.next_length h
      (f :: (split r).1, (split r).2)
termination_by b.length

def frames (b : List α) : List φ := (F.split b).1

def tail (b : List α) : List α := (F.split b).2

variable {F}

theorem split_of_none {b : List α} (h : F.next b = none) : F.split b = ([], b) := by
  rw [split]
  split <;> simp_all

theorem split_of_some {b r : List α} {f : φ} (h : F.next b = some (f, r)) :
    F.split b = (f :: F.frames r, F.tail r) := by
  rw [split]
  split <;> simp_all [frames, tail]

theorem frames_of_none {b : List α} (h : F.next b = none) : F.frames b = [] := by
  rw [frames, split_of_none h]

theorem tail_of_none {b : List α} (h : F.next b = none) : F.tail b = b := by
  rw [tail, split_of_none h]

theorem frames_of_some {b r : List α} {f : φ} (h : F.next b = some (f, r)) :
    F.frames b = f :: F.frames r := by
  rw [frames, split_of_some h]

theorem tail_of_some {b r : List α} {f : φ} (h : F.next b = some (f, r)) :
    F.tail b = F.tail r := by
  rw [tail, split_of_some h]

/-- Splitting goes on from what was left over. -/
theorem split_append (a b : List α) :
    F.split (a ++ b) = (F.frames a ++ F.frames (F.tail a ++ b), F.tail (F.tail a ++ b)) := by
  induction hn : a.length using Nat.strongRecOn generalizing a with
  | ind n ih =>
    cases h : F.next a with
    | none => rw [frames_of_none h, tail_of_none h, List.nil_append, frames, tail]
    | some fr =>
      obtain ⟨f, r⟩ := fr
      have hr := ih _ (hn ▸ F.next_length h) r rfl
      rw [split_of_some (F.next_append b h), frames_of_some h, tail_of_some h, frames, tail, hr]
      rfl

theorem frames_append (a b : List α) :
    F.frames (a ++ b) = F.frames a ++ F.frames (F.tail a ++ b) := by
  rw [frames, split_append]

theorem tail_append (a b : List α) : F.tail (a ++ b) = F.tail (F.tail a ++ b) := by
  rw [tail, split_append]

end Framing
