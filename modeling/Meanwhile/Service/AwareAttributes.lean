-- SUMMARY: Values of attributes read as booleans and as integers, and where the two disagree.
import Meanwhile.Common.Buffer

/-!
# Values of attributes

The data of an attribute do not say what they are, so the readers go by the length. They
differ for three bytes, of which one takes the first two and the other the last two, and
for none, where `mwAwareAttribute_asBoolean` returns a variable that it never sets.
-/

namespace Meanwhile.Aware

/-! ## Reading -/

/-- `mwAwareAttribute_asBoolean`, of the data of the attribute if there is one. `ret` holds
`stack` before it is set. -/
def mwAwareAttributeAsBoolean (stack : Bool) : Option MwOpaque → Bool
  | none => false
  | some data =>
      let b := GetBuffer.wrapOpaque data
      if 4 ≤ data.length then (guint32Get 0 b).1 ≠ 0
      else if 2 ≤ data.length then (guint16Get 0 b).1 ≠ 0
      else if data.length ≠ 0 then (gbooleanGet stack b).1
      else stack

/-- `mwAwareAttribute_asInteger` -/
def mwAwareAttributeAsInteger : Option MwOpaque → UInt32
  | none => 0
  | some data =>
      let b := GetBuffer.wrapOpaque data
      if 4 ≤ data.length then (guint32Get 0 b).1
      else if data.length = 3 then (guint16Get 0 (gbooleanGet false b).2).1.toUInt32
      else if data.length = 2 then (guint16Get 0 b).1.toUInt32
      else if data.length ≠ 0 then if (gbooleanGet false b).1 then 1 else 0
      else 0

/-- Both readers say the same, whatever the stack holds. -/
def ReadersAgree (data : MwOpaque) : Prop :=
  ∀ stack, mwAwareAttributeAsBoolean stack (some data) = true ↔
    mwAwareAttributeAsInteger (some data) ≠ 0

/-! ## Words -/

theorem mw16Get_eq_zero_iff (h l : UInt8) (post : List UInt8) :
    mw16Get 0 (h :: l :: post) = 0 ↔ h = 0 ∧ l = 0 := by
  rw [← UInt16.toNat_inj, mw16Get_toNat, ← UInt8.toNat_inj, ← UInt8.toNat_inj]
  simp only [UInt16.reduceToNat, UInt8.reduceToNat]
  omega

theorem toUInt32_eq_zero_iff (n : UInt16) : n.toUInt32 = 0 ↔ n = 0 := by
  rw [← UInt32.toNat_inj, ← UInt16.toNat_inj, UInt16.toNat_toUInt32]
  rfl

/-! ## Data by their length -/

theorem asBoolean_three (stack : Bool) (a b c : UInt8) :
    mwAwareAttributeAsBoolean stack (some [a, b, c]) = true ↔ ¬(a = 0 ∧ b = 0) := by
  rw [← mw16Get_eq_zero_iff a b [c]]
  exact decide_eq_true_iff

theorem asInteger_three (a b c : UInt8) :
    mwAwareAttributeAsInteger (some [a, b, c]) ≠ 0 ↔ ¬(b = 0 ∧ c = 0) := by
  rw [← mw16Get_eq_zero_iff b c []]
  exact not_congr (toUInt32_eq_zero_iff (mw16Get 0 [b, c]))

theorem readersAgree_one (a : UInt8) : ReadersAgree [a] := by
  intro stack
  change decide (a ≠ 0) = true ↔ (if decide (a ≠ 0) = true then (1 : UInt32) else 0) ≠ 0
  split <;> simp_all

theorem readersAgree_two (a b : UInt8) : ReadersAgree [a, b] := by
  intro stack
  have hinteger : mwAwareAttributeAsInteger (some [a, b]) = (mw16Get 0 [a, b]).toUInt32 := rfl
  rw [hinteger, ne_eq, toUInt32_eq_zero_iff]
  exact decide_eq_true_iff

theorem readersAgree_long {data : MwOpaque} (h : 4 ≤ data.length) : ReadersAgree data := by
  intro stack
  unfold mwAwareAttributeAsBoolean mwAwareAttributeAsInteger
  dsimp only
  rw [if_pos h, if_pos h]
  exact decide_eq_true_iff

/-- The readers agree but for data that are empty, and for three bytes of which the first
two are zero and the last two are not, or the other way round. -/
theorem readersAgree_iff (data : MwOpaque) :
    ReadersAgree data ↔
      data ≠ [] ∧ ∀ a b c, data = [a, b, c] → (a = 0 ∧ b = 0 ↔ b = 0 ∧ c = 0) := by
  match data with
  | [] =>
    refine iff_of_false (fun h => ?_) (fun h => h.1 rfl)
    exact absurd ((h true).mp rfl) (fun hne => hne rfl)
  | [a] => exact iff_of_true (readersAgree_one a) ⟨by simp, by simp⟩
  | [a, b] => exact iff_of_true (readersAgree_two a b) ⟨by simp, by simp⟩
  | [a, b, c] =>
    have hagree : ReadersAgree [a, b, c] ↔ (a = 0 ∧ b = 0 ↔ b = 0 ∧ c = 0) := by
      unfold ReadersAgree
      simp only [asBoolean_three, asInteger_three, forall_const, not_iff_not]
    rw [hagree]
    constructor
    · rintro h
      refine ⟨by simp, ?_⟩
      rintro a' b' c' hdata
      obtain ⟨rfl, rfl, rfl⟩ : a = a' ∧ b = b' ∧ c = c' := by simpa using hdata
      exact h
    · exact fun h => h.2 a b c rfl
  | a :: b :: c :: d :: rest =>
    refine iff_of_true (readersAgree_long (by simp)) ⟨by simp, ?_⟩
    rintro a' b' c' hdata
    simp at hdata

/-- Three bytes of which only the first is not zero are true, and the integer zero. -/
theorem not_readersAgree_threeBytes : ¬ ∀ data, ReadersAgree data := by
  intro hall
  have htrue := (asBoolean_three false 1 0 0).mpr (by decide)
  exact absurd ⟨rfl, rfl⟩ ((asInteger_three 1 0 0).mp ((hall [1, 0, 0] false).mp htrue))

end Meanwhile.Aware
