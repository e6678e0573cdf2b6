-- SUMMARY: Histories whose every event is justified by the events before it.
import Mathlib.Data.List.Infix

/-!
# Histories

A history is a list of events, the latest first. `Justified P log` says that every
event of `log` meets `P` with the events before it; it grows one event at a time.
-/

variable {ε : Type}

/-- Every event of a history meets `P` with what was there before it. -/
def Justified (P : ε → List ε → Prop) (log : List ε) : Prop :=
  ∀ e before, e :: before <:+ log → P e before

namespace Justified

variable {P Q : ε → List ε → Prop} {e : ε} {log log' : List ε}

theorem nil : Justified P [] := by
  intro e before h
  simp at h

theorem cons (he : P e log) (hlog : Justified P log) : Justified P (e :: log) := by
  intro e' before h
  rcases List.suffix_cons_iff.mp h with heq | hsuffix
  · cases heq
    exact he
  · exact hlog e' before hsuffix

theorem of_suffix (hlog : Justified P log) (h : log' <:+ log) : Justified P log' :=
  fun e before he => hlog e before (he.trans h)

theorem head (hlog : Justified P (e :: log)) : P e log := hlog e log List.suffix_rfl

theorem tail (hlog : Justified P (e :: log)) : Justified P log :=
  hlog.of_suffix (List.suffix_cons e log)

end Justified
