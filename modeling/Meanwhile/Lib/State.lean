-- SUMMARY: Code in the state monad as functions of the state it starts from.
import Mathlib.Logic.Basic

/-!
# Code in the state monad

Equations that run code on a state, one for each way to put code together.
`get_bind` and `modify_bind` come before `bind_apply`, so that no test depends on
the state through `get`.
-/

namespace StateM

variable {σ α β : Type}

@[simp] theorem bind_apply (x : StateM σ α) (f : α → StateM σ β) (s : σ) :
    (x >>= f) s = f (x s).1 (x s).2 := rfl

@[simp] theorem pure_apply (a : α) (s : σ) : (pure a : StateM σ α) s = (a, s) := rfl

@[simp] theorem map_apply (f : α → β) (x : StateM σ α) (s : σ) :
    (f <$> x) s = (f (x s).1, (x s).2) := rfl

@[simp] theorem get_apply (s : σ) : (get : StateM σ σ) s = (s, s) := rfl

@[simp] theorem set_apply (s s' : σ) : (set s' : StateM σ Unit) s = ((), s') := rfl

@[simp] theorem modify_apply (f : σ → σ) (s : σ) : (modify f : StateM σ Unit) s = ((), f s) := rfl

@[simp high] theorem get_bind (f : σ → StateM σ β) (s : σ) : (get >>= f) s = f s s := rfl

@[simp high] theorem modify_bind (g : σ → σ) (f : Unit → StateM σ β) (s : σ) :
    (modify g >>= f) s = f () (g s) := rfl

@[simp] theorem discard_apply (x : StateM σ α) (s : σ) :
    (discard x : StateM σ PUnit) s = ((), (x s).2) := rfl

@[simp] theorem ite_apply (p : Prop) [Decidable p] (x y : StateM σ α) (s : σ) :
    (if p then x else y) s = if p then x s else y s := by
  split <;> rfl

@[simp] theorem forM_nil (f : α → StateM σ PUnit) (s : σ) : ([] : List α).forM f s = ((), s) := rfl

@[simp] theorem forM_cons (a : α) (l : List α) (f : α → StateM σ PUnit) (s : σ) :
    (a :: l).forM f s = l.forM f (f a s).2 := rfl

end StateM
