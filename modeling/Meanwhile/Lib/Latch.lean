-- SUMMARY: Properties of runs that set in at certain steps and stay.
import Mathlib.Data.List.Basic

/-!
# Latches

A property that sets in at certain steps, and otherwise is after a step as it was before,
holds at the end of a run if and only if there was such a step.
-/

namespace Latch

variable {σ ι : Type} {f : σ → ι → σ} {I L : σ → Prop} {D : σ → ι → Prop}

theorem foldl_iff (hI : ∀ s i, I s → I (f s i)) (hL : ∀ s i, I s → (L (f s i) ↔ L s ∨ D s i))
    (inputs : List ι) {s : σ} (hs : I s) :
    L (inputs.foldl f s) ↔
      L s ∨ ∃ before i after, inputs = before ++ i :: after ∧ D (before.foldl f s) i := by
  induction inputs generalizing s with
  | nil => simp
  | cons i inputs ih =>
    rw [List.foldl_cons, ih (hI s i hs), hL s i hs, or_assoc]
    refine or_congr_right ?_
    constructor
    · rintro (hD | ⟨before, j, after, rfl, hD⟩)
      · exact ⟨[], i, inputs, rfl, hD⟩
      · exact ⟨i :: before, j, after, rfl, hD⟩
    · rintro ⟨before, j, after, hsplit, hD⟩
      cases before with
      | nil =>
        obtain ⟨rfl, rfl⟩ := List.cons.inj hsplit
        exact .inl hD
      | cons i' before =>
        obtain ⟨rfl, rfl⟩ := List.cons.inj hsplit
        exact .inr ⟨before, j, after, rfl, hD⟩

/-- A property that does not hold at first -/
theorem foldl_iff_of_not (hI : ∀ s i, I s → I (f s i))
    (hL : ∀ s i, I s → (L (f s i) ↔ L s ∨ D s i)) (inputs : List ι) {s : σ} (hs : I s)
    (hnot : ¬ L s) :
    L (inputs.foldl f s) ↔
      ∃ before i after, inputs = before ++ i :: after ∧ D (before.foldl f s) i :=
  (foldl_iff hI hL inputs hs).trans (or_iff_right hnot)

end Latch
