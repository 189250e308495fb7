import Mathlib.Order.Lattice

/-!
# Integers reduced to a machine width

A machine integer with `m` values, half of them negative, holds the integers around 0. Arithmetic on
such integers computes the exact result and reduces it by a multiple of `m`; that is `Int.bmod`.
This module is about what a comparison with a reduced value says of the exact one: the same where
the exact value fits, and otherwise the opposite for every number between the two.
-/

namespace Wrapping

/-- The integer is one of the `m` around 0. -/
def Fits (m : Nat) (x : Int) : Prop := -(m : Int) ≤ x * 2 ∧ x * 2 < m

instance decidableFits (m : Nat) (x : Int) : Decidable (Fits m x) :=
  inferInstanceAs (Decidable (_ ∧ _))

variable {m : Nat} {x y a : Int}

theorem fits_bmod (hm : 0 < m) (x : Int) : Fits m (x.bmod m) := by
  have hle := Int.le_bmod (x := x) hm
  have hlt := Int.bmod_le (x := x) hm
  rw [Fits]
  omega

theorem bmod_eq_self_iff (hm : 0 < m) : x.bmod m = x ↔ Fits m x := by
  constructor
  · intro h
    rw [← h]
    exact fits_bmod hm x
  · intro h
    exact Int.bmod_eq_of_le_mul_two h.1 h.2

theorem bmod_eq_iff_dvd (hm : 0 < m) : x.bmod m = y ↔ Fits m y ∧ (m : Int) ∣ x - y := by
  constructor
  · rintro rfl
    exact ⟨fits_bmod hm x, Int.dvd_self_sub_bmod⟩
  · rintro ⟨hfits, hdvd⟩
    rw [← (bmod_eq_self_iff hm).mpr hfits, Int.bmod_eq_bmod_iff_bmod_sub_eq_zero]
    exact Int.bmod_eq_zero_of_dvd hdvd

theorem bmod_of_above (hm : m ≤ x * 2) (hx : x * 2 < 3 * m) : x.bmod m = x - m := by
  rw [← Int.sub_bmod_right x m]
  apply Int.bmod_eq_of_le_mul_two <;> omega

theorem bmod_of_below (hm : x * 2 < -(m : Int)) (hx : -3 * (m : Int) ≤ x * 2) :
    x.bmod m = x + m := by
  rw [← Int.add_bmod_right x m]
  apply Int.bmod_eq_of_le_mul_two <;> omega

/-! ### Comparisons -/

/-- One of the two is below `a` and the other is not. -/
def Straddle (a x y : Int) : Prop := (x < a ∧ a ≤ y) ∨ (y < a ∧ a ≤ x)

instance decidableStraddle (a x y : Int) : Decidable (Straddle a x y) :=
  inferInstanceAs (Decidable (_ ∨ _))

theorem not_straddle_iff : ¬ Straddle a x y ↔ (x < a ↔ y < a) := by
  rw [Straddle]
  omega

/-- Where the exact value leaves the width by less than the width, comparing the reduced value tells
the truth for those `a` only that are beyond both. -/
theorem bmod_lt_iff_lt_iff (ha : Fits m a) (habove : x * 2 < 3 * m)
    (hbelow : -3 * (m : Int) ≤ x * 2) :
    (x.bmod m < a ↔ x < a) ↔
      Fits m x ∨ (m ≤ x * 2 ∧ a ≤ x - m) ∨ (x * 2 < -(m : Int) ∧ x + m < a) := by
  rw [Fits] at ha
  by_cases hhigh : m ≤ x * 2
  · rw [bmod_of_above hhigh habove, Fits]
    omega
  · by_cases hlow : x * 2 < -(m : Int)
    · rw [bmod_of_below hlow hbelow, Fits]
      omega
    · have hfits : Fits m x := ⟨by omega, by omega⟩
      rw [Int.bmod_eq_of_le_mul_two hfits.1 hfits.2]
      exact iff_of_true Iff.rfl (Or.inl hfits)

/-- Where the comparisons with all numbers from some `n` on tell the truth, the exact value fits. -/
theorem fits_of_bmod_lt_iff_lt {n : Int} (hn : Fits m n) (hle : n ≤ x.bmod m)
    (habove : x * 2 + 2 < 3 * m) (hbelow : -3 * (m : Int) ≤ x * 2)
    (h : ∀ a, Fits m a → n ≤ a → (x.bmod m < a ↔ x < a)) : Fits m x := by
  by_cases hhigh : m ≤ x * 2
  · rw [bmod_of_above hhigh (by omega)] at h hle
    rw [Fits] at hn
    have hnext := h (x - m + 1) ⟨by omega, by omega⟩ (by omega)
    omega
  · by_cases hlow : x * 2 < -(m : Int)
    · rw [bmod_of_below hlow hbelow] at h hle
      have hfirst := h n hn le_rfl
      rw [Fits] at hn
      omega
    · exact ⟨by omega, by omega⟩

/-! ### The types of the machine -/

theorem fits_int64 (x : Int64) : Fits Int64.size x.toInt := by
  have hsize : (Int64.size : Int) = 18446744073709551616 := rfl
  have hle := x.le_toInt
  have hlt := x.toInt_lt
  rw [Fits, hsize]
  omega

theorem toInt_ofInt64_iff {z : Int} : (Int64.ofInt z).toInt = z ↔ Fits Int64.size z := by
  rw [Int64.toInt_ofInt]
  exact bmod_eq_self_iff (by decide)

theorem toInt_ofInt32_iff {z : Int} : (Int32.ofInt z).toInt = z ↔ Fits Int32.size z := by
  rw [Int32.toInt_ofInt]
  exact bmod_eq_self_iff (by decide)

/-- Comparing with `x` and with `y` comes to the same at every clock reading only if they are equal
or beyond the end of time. -/
theorem forall_lt_toInt_iff (hx : Fits Int64.size x) :
    (∀ now : Int64, (x < now.toInt ↔ y < now.toInt)) ↔
      x = y ∨ (x = Int64.maxValue.toInt ∧ Int64.maxValue.toInt < y) := by
  have hsize : (Int64.size : Int) = 18446744073709551616 := rfl
  rw [Int64.toInt_maxValue]
  constructor
  · intro h
    rcases lt_trichotomy x y with hlt | heq | hgt
    · by_cases hmax : x = 9223372036854775807
      · exact Or.inr ⟨hmax, by omega⟩
      · have hnext : (Int64.ofInt (x + 1)).toInt = x + 1 := by
          rw [Fits, hsize] at hx
          rw [toInt_ofInt64_iff, Fits, hsize]
          omega
        have hnow := h (Int64.ofInt (x + 1))
        rw [hnext] at hnow
        omega
    · exact Or.inl heq
    · have hnow := h (Int64.ofInt x)
      rw [toInt_ofInt64_iff.mpr hx] at hnow
      omega
  · rintro (rfl | ⟨rfl, hlt⟩) now
    · exact Iff.rfl
    · have hle := now.toInt_le
      rw [Int64.toInt_maxValue] at hle
      omega

end Wrapping
