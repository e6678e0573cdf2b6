-- SUMMARY: Get functions only move the cursor forward, inside of the buffer, and not at all after an error.
import Meanwhile.Common.Reading
import Meanwhile.Lib.Keeps

/-!
# Cursors

`Follows b b'` says that `b'` is `b` at a later time: the same bytes, a cursor that has not
gone back, and a count of remaining bytes that has gone down by as much as the cursor has
gone up. In a buffer with an error nothing moves. Every get function takes a buffer to one
that follows it, since each does so for its fields.
-/

namespace Meanwhile

namespace GetBuffer

/-- `b'` is `b` at a later time. -/
structure Follows (b b' : GetBuffer) : Prop where
  buf : b'.buf = b.buf
  ptr : b.ptr ≤ b'.ptr
  count : b'.ptr + b'.rem = b.ptr + b.rem
  error : b.error = true → b' = b

instance : Std.Refl Follows where
  refl := fun _ => ⟨rfl, le_refl _, rfl, fun _ => rfl⟩

instance : IsTrans GetBuffer Follows where
  trans := fun _ _ _ h h' =>
    { buf := h'.buf.trans h.buf
      ptr := le_trans h.ptr h'.ptr
      count := h'.count.trans h.count
      error := fun he => by
        have hsame := h.error he
        rw [hsame] at h'
        exact h'.error he }

namespace Follows

variable {b b' : GetBuffer}

theorem sound (h : Follows b b') (hb : b.Sound) : b'.Sound := by
  unfold GetBuffer.Sound at hb ⊢
  rw [h.count, h.buf]
  exact hb

/-- An error stays. -/
theorem ok_of_ok (h : Follows b b') (hok : b'.error = false) : b.error = false := by
  cases herror : b.error with
  | false => rfl
  | true =>
    rw [h.error herror] at hok
    exact absurd herror (by simp [hok])

theorem skip {n : Nat} (hok : b.error = false) (hn : n ≤ b.rem) : Follows b (b.skip n) where
  buf := rfl
  ptr := Nat.le_add_right _ _
  count := by
    simp only [GetBuffer.skip]
    omega
  error := fun he => absurd he (by simp [hok])

/-- A check moves nothing. -/
theorem check (b : GetBuffer) (n : Nat) : Follows b (b.check n) where
  buf := by unfold GetBuffer.check; split <;> rfl
  ptr := by unfold GetBuffer.check; split <;> exact le_refl _
  count := by unfold GetBuffer.check; split <;> rfl
  error := fun he => by unfold GetBuffer.check; rw [if_pos he]

/-- What is read after a check that has passed -/
theorem checked {n : Nat} (hok : ¬ (b.check n).error = true) :
    Follows b ((b.check n).skip n) := by
  have hok := Bool.eq_false_of_not_eq_true hok
  obtain ⟨-, hn, hrem⟩ := Get.Uses.check hok
  exact IsTrans.trans _ _ _ (check b n) (skip hok (hrem ▸ hn))

end Follows

end GetBuffer

open GetBuffer

/-- The get function takes a buffer to one that follows it. -/
abbrev Get.Forward {α : Type} (g : Get α) : Prop := Keeps Follows g

namespace Get.Forward

variable {α : Type}

theorem error : mwGetBufferError.Forward := fun b => Std.Refl.refl b

theorem guint16 (val : UInt16) : (guint16Get val).Forward := by
  intro b
  unfold guint16Get
  split
  · exact Std.Refl.refl b
  · dsimp only
    split
    case isTrue => exact Follows.check b 2
    case isFalse hok => exact Follows.checked hok

theorem guint32 (val : UInt32) : (guint32Get val).Forward := by
  intro b
  unfold guint32Get
  split
  · exact Std.Refl.refl b
  · dsimp only
    split
    case isTrue => exact Follows.check b 4
    case isFalse hok => exact Follows.checked hok

theorem gboolean (val : Bool) : (gbooleanGet val).Forward := by
  intro b
  unfold gbooleanGet
  split
  · exact Std.Refl.refl b
  · dsimp only
    split
    case isTrue => exact Follows.check b 1
    case isFalse hok => exact Follows.checked hok

theorem advance (len : Nat) : (mwGetBufferAdvance len).Forward := by
  intro b
  unfold mwGetBufferAdvance
  split
  case isTrue => exact Std.Refl.refl b
  case isFalse hok => exact Follows.skip (by simpa using hok) (Nat.min_le_right _ _)

theorem string : mwStringGet.Forward := by
  intro b
  have hword := guint16 0 b
  unfold mwStringGet
  split
  · exact Std.Refl.refl b
  · generalize guint16Get 0 b = word at hword ⊢
    obtain ⟨len, b'⟩ := word
    dsimp only at hword ⊢
    split
    case isTrue => exact IsTrans.trans _ _ _ hword (Follows.check _ _)
    case isFalse hok =>
      split
      · exact IsTrans.trans _ _ _ hword (Follows.check _ _)
      · exact IsTrans.trans _ _ _ hword (Follows.checked hok)

theorem mwOpaque : mwOpaqueGet.Forward := by
  intro b
  have hword := guint32 0 b
  unfold mwOpaqueGet
  split
  · exact Std.Refl.refl b
  · generalize guint32Get 0 b = word at hword ⊢
    obtain ⟨tmp, b'⟩ := word
    dsimp only at hword ⊢
    split
    case isTrue => exact IsTrans.trans _ _ _ hword (Follows.check _ _)
    case isFalse hok => exact IsTrans.trans _ _ _ hword (Follows.checked hok)

/-- A get function that returns at once when there is an error already -/
theorem guarded {a : α} {x : Get α} (hx : x.Forward) :
    (mwGetBufferError >>= fun error => if error = true then Pure.pure a else x).Forward :=
  Keeps.bind error fun _ => Keeps.ite (fun _ => Keeps.pure a) fun _ => hx

theorem userStatus (stat : MwUserStatus) : (mwUserStatusGet stat).Forward := by
  unfold mwUserStatusGet
  apply guarded
  refine Keeps.bind (guint16 _) fun _ => ?_
  refine Keeps.bind (guint32 _) fun _ => ?_
  exact Keeps.bind string fun _ => Keeps.pure _

theorem loginInfo (login : MwLoginInfo) : (mwLoginInfoGet login).Forward := by
  unfold mwLoginInfoGet
  apply guarded
  refine Keeps.bind string fun _ => Keeps.bind (guint16 _) fun _ => ?_
  refine Keeps.bind string fun _ => Keeps.bind string fun _ => Keeps.bind string fun _ => ?_
  refine Keeps.bind (gboolean _) fun _ => Keeps.ite (fun _ => ?_) fun _ => Keeps.pure _
  refine Keeps.bind string fun _ => Keeps.bind (guint32 _) fun _ => ?_
  exact Keeps.bind string fun _ => Keeps.pure _

theorem idBlock (id : MwIdBlock) : (mwIdBlockGet id).Forward := by
  unfold mwIdBlockGet
  apply guarded
  exact Keeps.bind string fun _ => Keeps.bind string fun _ => Keeps.pure _

end Get.Forward

/-! ## Where there are bytes enough

What a get function returns is decided by the bytes under the cursor. -/

section Enough

variable {b : GetBuffer}

namespace GetBuffer

@[simp] theorem skip_rest (b : GetBuffer) (n : Nat) : (b.skip n).rest = b.rest.drop n := by
  simp [skip, rest, List.drop_drop]

theorem check_of_le (hok : b.error = false) {n : Nat} (h : n ≤ b.rem) : b.check n = b := by
  obtain ⟨buf, len, ptr, rem, wrap, error⟩ := b
  simp only at hok h
  subst hok
  simpa [check] using h

theorem check_of_error (h : b.error = true) (n : Nat) : b.check n = b := by
  unfold check
  rw [if_pos h]

theorem check_of_lt {n : Nat} (h : b.rem < n) : (b.check n).error = true := by
  unfold check
  split
  case isTrue herror => exact herror
  case isFalse => exact decide_eq_true h

end GetBuffer

theorem guint16Get_of_le (hok : b.error = false) (h : 2 ≤ b.rem) (val : UInt16) :
    guint16Get val b = (mw16Get val b.rest, b.skip 2) := by
  unfold guint16Get
  dsimp only
  rw [check_of_le hok h, hok]
  exact if_neg Bool.false_ne_true

theorem guint16Get_of_lt (h : b.rem < 2) (val : UInt16) : (guint16Get val b).2.error = true := by
  unfold guint16Get
  split
  case isTrue herror => exact herror
  case isFalse =>
    dsimp only
    rw [if_pos (check_of_lt h)]
    exact check_of_lt h

theorem guint32Get_of_le (hok : b.error = false) (h : 4 ≤ b.rem) (val : UInt32) :
    guint32Get val b = (mw32Get val b.rest, b.skip 4) := by
  unfold guint32Get
  dsimp only
  rw [check_of_le hok h, hok]
  exact if_neg Bool.false_ne_true

theorem guint32Get_of_lt (h : b.rem < 4) (val : UInt32) : (guint32Get val b).2.error = true := by
  unfold guint32Get
  split
  case isTrue herror => exact herror
  case isFalse =>
    dsimp only
    rw [if_pos (check_of_lt h)]
    exact check_of_lt h

theorem mwStringGet_of_error (h : b.error = true) : (mwStringGet b).1 = none := by
  unfold mwStringGet
  rw [if_pos h]

/-- The bytes begin with a string that is not empty, and all of it is there. -/
def BeginsWithString : List UInt8 → Prop
  | h :: l :: bytes => 0 < h.toNat * 256 + l.toNat ∧ h.toNat * 256 + l.toNat ≤ bytes.length
  | _ => False

instance : DecidablePred BeginsWithString
  | h :: l :: bytes =>
      inferInstanceAs (Decidable (0 < h.toNat * 256 + l.toNat ∧
        h.toNat * 256 + l.toNat ≤ bytes.length))
  | [_] => inferInstanceAs (Decidable False)
  | [] => inferInstanceAs (Decidable False)

/-- `mwString_get` returns a string if there is one, and `NULL` for anything else. -/
theorem mwStringGet_isSome_iff (hb : b.Sound) (hok : b.error = false) :
    (mwStringGet b).1.isSome ↔ BeginsWithString b.rest := by
  have hlen := hb.rest_length
  unfold mwStringGet
  rw [if_neg (by simp [hok])]
  dsimp only
  match hrest : b.rest with
  | [] | [_] =>
    have hlt : b.rem < 2 := by simp [← hlen, hrest]
    have herror := guint16Get_of_lt hlt 0
    generalize guint16Get 0 b = word at herror ⊢
    obtain ⟨len, b'⟩ := word
    dsimp only at herror ⊢
    rw [check_of_error herror, if_pos herror]
    simp [BeginsWithString]
  | h :: l :: bytes =>
    have hrem : b.rem = bytes.length + 2 := by simp [← hlen, hrest]
    rw [guint16Get_of_le hok (by omega), hrest]
    have hword := mw16Get_toNat 0 h l bytes
    dsimp only
    generalize mw16Get 0 (h :: l :: bytes) = len at hword ⊢
    have hzero : len = 0 ↔ h.toNat * 256 + l.toNat = 0 := by
      rw [← UInt16.toNat_inj, hword]
      rfl
    have hskip : (b.skip 2).error = false := hok
    have hleft : (b.skip 2).rem = bytes.length := by simp [GetBuffer.skip, hrem]
    change _ ↔ 0 < h.toNat * 256 + l.toNat ∧ h.toNat * 256 + l.toNat ≤ bytes.length
    rw [← hword] at hzero ⊢
    by_cases hfits : len.toNat ≤ bytes.length
    · rw [check_of_le hskip (hleft ▸ hfits), if_neg (by simp [hskip])]
      split
      case isTrue hnil => simp [hnil]
      case isFalse hne =>
        have hpos := mt hzero.mpr hne
        exact ⟨fun _ => ⟨by omega, hfits⟩, fun _ => rfl⟩
    · rw [if_pos (check_of_lt (by omega))]
      exact ⟨fun h => (by cases h), fun h => absurd h.2 hfits⟩

end Enough

end Meanwhile
