-- SUMMARY: Lists put through a partial function with a running state, and two such functions of which one undoes the other.
import Mathlib.Data.List.Basic
import Mathlib.Data.Option.Basic

/-!
# Transducers

A transducer turns an element into another one, or fails, and has a state that it
passes on to the next element. Where one transducer undoes a single step of another
and gets to the same state, it undoes whole lists, and the two stay in step.
-/

namespace Transducer

variable {σ α β γ : Type}

/-- Put a list through a transducer: the state afterwards and what has come out. There is
no result once a step has none. -/
def run (f : σ → α → Option (σ × β)) : σ → List α → Option (σ × List β)
  | s, [] => some (s, [])
  | s, a :: l => do
      let (s, b) ← f s a
      let (s, r) ← run f s l
      return (s, b :: r)

variable {f : σ → α → Option (σ × β)}

theorem run_cons_eq_some {s s' : σ} {a : α} {l : List α} {r : List β}
    (h : run f s (a :: l) = some (s', r)) :
    ∃ s1 b r', f s a = some (s1, b) ∧ run f s1 l = some (s', r') ∧ r = b :: r' := by
  obtain ⟨⟨s1, b⟩, hstep, h⟩ := Option.bind_eq_some_iff.mp h
  obtain ⟨⟨s2, r'⟩, hrest, h⟩ := Option.bind_eq_some_iff.mp h
  obtain ⟨rfl, rfl⟩ := Prod.mk.inj (Option.some.inj h)
  exact ⟨s1, b, r', hstep, hrest, rfl⟩

theorem run_append {s s1 s2 : σ} {l l' : List α} {r r' : List β} (h : run f s l = some (s1, r))
    (h' : run f s1 l' = some (s2, r')) : run f s (l ++ l') = some (s2, r ++ r') := by
  induction l generalizing s r with
  | nil =>
    obtain ⟨rfl, rfl⟩ := Prod.mk.inj (Option.some.inj h)
    exact h'
  | cons a l ih =>
    obtain ⟨s3, b, r0, hstep, hrest, rfl⟩ := run_cons_eq_some h
    rw [List.cons_append, run, hstep]
    simp [ih hrest]

theorem run_concat {s s1 s2 : σ} {l : List α} {r : List β} {a : α} {b : β}
    (h : run f s l = some (s1, r)) (hstep : f s1 a = some (s2, b)) :
    run f s (l ++ [a]) = some (s2, r ++ [b]) :=
  run_append h (by simp [run, hstep])

/-- The last step of a run -/
theorem run_concat_eq_some {s s1 s2 : σ} {l : List α} {a : α} {r r' : List β}
    (h : run f s l = some (s1, r)) (h' : run f s (l ++ [a]) = some (s2, r')) :
    ∃ b, f s1 a = some (s2, b) ∧ r' = r ++ [b] := by
  induction l generalizing s r r' with
  | nil =>
    obtain ⟨rfl, rfl⟩ := Prod.mk.inj (Option.some.inj h)
    obtain ⟨s3, b, r0, hstep, hrest, rfl⟩ := run_cons_eq_some h'
    obtain ⟨rfl, rfl⟩ := Prod.mk.inj (Option.some.inj hrest)
    exact ⟨b, hstep, rfl⟩
  | cons c l ih =>
    obtain ⟨s3, b, r0, hstep, hrest, rfl⟩ := run_cons_eq_some h
    obtain ⟨s4, b', r1, hstep', hrest', rfl⟩ := run_cons_eq_some h'
    obtain ⟨rfl, rfl⟩ := Prod.mk.inj (Option.some.inj (hstep.symm.trans hstep'))
    obtain ⟨b, hlast, rfl⟩ := ih hrest hrest'
    exact ⟨b, hlast, rfl⟩

theorem length_run {s s' : σ} {l : List α} {r : List β} (h : run f s l = some (s', r)) :
    r.length = l.length := by
  induction l generalizing s r with
  | nil =>
    obtain ⟨-, rfl⟩ := Prod.mk.inj (Option.some.inj h)
    rfl
  | cons a l ih =>
    obtain ⟨s1, b, r', -, hrest, rfl⟩ := run_cons_eq_some h
    simp [ih hrest]

/-- What comes out of the first part of a list is the first part of what comes out. -/
theorem run_take {s s' : σ} {l : List α} {r : List β} (h : run f s l = some (s', r)) (n : ℕ) :
    ∃ s1, run f s (l.take n) = some (s1, r.take n) := by
  induction l generalizing s r n with
  | nil =>
    obtain ⟨-, rfl⟩ := Prod.mk.inj (Option.some.inj h)
    exact ⟨s, by simp [run]⟩
  | cons a l ih =>
    obtain ⟨s1, b, r', hstep, hrest, rfl⟩ := run_cons_eq_some h
    cases n with
    | zero => exact ⟨s, rfl⟩
    | succ n =>
      obtain ⟨s2, htake⟩ := ih hrest n
      exact ⟨s2, by simp [run, hstep, htake]⟩

/-- A transducer that undoes the single steps of another one, with something done to the
elements in between, undoes its runs. -/
theorem run_undoes {δ : Type} {g : σ → δ → Option (σ × γ)} {between : β → δ} {back : α → γ}
    (hstep : ∀ s s' a b, f s a = some (s', b) → g s (between b) = some (s', back a))
    {s s' : σ} {l : List α} {r : List β} (h : run f s l = some (s', r)) :
    run g s (r.map between) = some (s', l.map back) := by
  induction l generalizing s r with
  | nil =>
    obtain ⟨rfl, rfl⟩ := Prod.mk.inj (Option.some.inj h)
    rfl
  | cons a l ih =>
    obtain ⟨s1, b, r', hfirst, hrest, rfl⟩ := run_cons_eq_some h
    simp [run, hstep _ _ _ _ hfirst, ih hrest]

end Transducer
