-- SUMMARY: Relations between the states before and after stateful code, and how they compose.
import Mathlib.Order.Defs.Unbundled

/-!
# Relations kept by stateful code

`Keeps R m` says that every run of `m` takes its state to one related by `R`.
Where `R` is reflexive and transitive it goes through sequencing, branching and
loops, so that what a program does to its state follows from what its smallest
parts do.
-/

variable {σ α β : Type}

/-- Every run of `m` takes a state to one related by `R`. -/
def Keeps (R : σ → σ → Prop) (m : StateM σ α) : Prop := ∀ s, R s (m s).2

namespace Keeps

variable {R : σ → σ → Prop}

theorem pure [Std.Refl R] (a : α) : Keeps R (Pure.pure a : StateM σ α) :=
  fun s => Std.Refl.refl s

theorem get [Std.Refl R] : Keeps R (MonadState.get : StateM σ σ) :=
  fun s => Std.Refl.refl s

theorem bind [IsTrans σ R] {x : StateM σ α} {f : α → StateM σ β} (hx : Keeps R x)
    (hf : ∀ a, Keeps R (f a)) : Keeps R (x >>= f) :=
  fun s => IsTrans.trans _ _ _ (hx s) (hf _ _)

theorem discard {x : StateM σ α} (hx : Keeps R x) : Keeps R (Functor.discard x) := hx

theorem ite {p : Prop} [Decidable p] {x y : StateM σ α} (hx : p → Keeps R x)
    (hy : ¬ p → Keeps R y) : Keeps R (if p then x else y) := by
  split
  · exact hx ‹_›
  · exact hy ‹_›

theorem forM [Std.Refl R] [IsTrans σ R] {l : List α} {f : α → StateM σ PUnit}
    (hf : ∀ a ∈ l, Keeps R (f a)) : Keeps R (l.forM f) := by
  induction l with
  | nil => exact pure _
  | cons a l ih =>
    exact bind (hf a List.mem_cons_self) fun _ => ih fun b hb => hf b (List.mem_cons_of_mem a hb)

end Keeps

/-- What holds before holds afterwards. -/
def Maintains (I : σ → Prop) (s s' : σ) : Prop := I s → I s'

instance (I : σ → Prop) : Std.Refl (Maintains I) where
  refl := fun _ hs => hs

instance (I : σ → Prop) : IsTrans σ (Maintains I) where
  trans := fun _ _ _ hst htu hs => htu (hst hs)
