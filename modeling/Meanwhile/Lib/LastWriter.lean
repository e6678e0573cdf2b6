-- SUMMARY: Messages that set values, of which the last one counts.
import Mathlib.Data.Option.Basic

/-!
# The last writer

A message may set the value at a place, or leave it as it is. After some messages a
place has the value that the last of them gave it, if any of them did.
-/

namespace LastWriter

variable {μ α β : Type}

/-- The value that the last message about a place gives it -/
def last (effect : μ → α → Option β) (msgs : List μ) (a : α) : Option β :=
  msgs.foldl (fun value m => (effect m a).or value) none

/-- The value at a place after some messages -/
def value (effect : μ → α → Option β) (msgs : List μ) (a : α) (init : β) : β :=
  msgs.foldl (fun value m => (effect m a).getD value) init

variable {effect : μ → α → Option β} {a : α}

theorem value_append (xs ys : List μ) (init : β) :
    value effect (xs ++ ys) a init = value effect ys a (value effect xs a init) :=
  List.foldl_append

theorem value_eq (msgs : List μ) (init : β) :
    value effect msgs a init = (last effect msgs a).getD init := by
  suffices h : ∀ o : Option β, value effect msgs a (o.getD init) =
      (msgs.foldl (fun value m => (effect m a).or value) o).getD init from h none
  induction msgs with
  | nil => exact fun _ => rfl
  | cons m msgs ih =>
    intro o
    rw [List.foldl_cons, ← ih, value, List.foldl_cons, value]
    cases effect m a <;> rfl

theorem value_of_last_none {msgs : List μ} (h : last effect msgs a = none) (init : β) :
    value effect msgs a init = init := by
  rw [value_eq, h, Option.getD_none]

theorem value_of_last_some {msgs : List μ} {b : β} (h : last effect msgs a = some b) (init : β) :
    value effect msgs a init = b := by
  rw [value_eq, h, Option.getD_some]

theorem last_append (xs ys : List μ) :
    last effect (xs ++ ys) a = (last effect ys a).or (last effect xs a) := by
  unfold last
  rw [List.foldl_append]
  generalize xs.foldl _ none = o
  suffices h : ∀ o o' : Option β, ys.foldl (fun value m => (effect m a).or value) (o'.or o) =
      (ys.foldl (fun value m => (effect m a).or value) o').or o from h o none
  induction ys with
  | nil => exact fun _ _ => rfl
  | cons m ys ih =>
    intro o o'
    rw [List.foldl_cons, List.foldl_cons, ← ih, Option.or_assoc]

/-- A value that agrees with the last message about it agrees with all of them. -/
theorem value_of_agrees {msgs : List μ} {b : β} (h : ∀ b', last effect msgs a = some b' → b' = b) :
    value effect msgs a b = b := by
  cases hlast : last effect msgs a with
  | none => exact value_of_last_none hlast b
  | some b' => rw [value_of_last_some hlast, h b' hlast]

end LastWriter
