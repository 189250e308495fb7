import Ticketing.Library.Wrapping

/-!
# Expiry dates

A ticket is valid for whole days of 86400 seconds from its creation date on. All programs compute
the last second in an `int64_t`, but not all compute the product in one: where the validity is an
`int`, so is its product. This module relates both ways of computing it to the exact date.
-/

namespace Ticketing

open Wrapping

/-- The last second of validity, in exact integers. -/
def exactExpiry (creationDate validityInDays : Int) : Int := creationDate + 86400 * validityInDays

/-- What is left of it after the product has been cut to an `int` and the sum to an `int64_t`. -/
def wrappedExpiry (creationDate validityInDays : Int) : Int :=
  (creationDate + (86400 * validityInDays).bmod Int32.size).bmod Int64.size

theorem toInt_expiry_int (creationDate : Int64) (validityInDays : Int32) :
    (creationDate + (validityInDays * 86400).toInt64).toInt =
      wrappedExpiry creationDate.toInt validityInDays.toInt := by
  rw [Int64.toInt_add, Int32.toInt_toInt64, Int32.toInt_mul, Int.mul_comm]
  rfl

theorem toInt_expiry_int64 (creationDate validityInDays : Int64) :
    (creationDate + validityInDays * 86400).toInt =
      (exactExpiry creationDate.toInt validityInDays.toInt).bmod Int64.size := by
  rw [Int64.toInt_add, Int64.toInt_mul, Int.add_bmod_bmod, Int.mul_comm]
  rfl

theorem fits_wrappedExpiry (creationDate validityInDays : Int) :
    Fits Int64.size (wrappedExpiry creationDate validityInDays) := fits_bmod (by decide) _

/-- The exact date is left if it is one of `int64_t` and what the product has lost would have been
lost from the sum as well. -/
theorem wrappedExpiry_eq_iff {creationDate validityInDays : Int} :
    wrappedExpiry creationDate validityInDays = exactExpiry creationDate validityInDays ↔
      Fits Int64.size (exactExpiry creationDate validityInDays) ∧
        (Int64.size : Int) ∣ 86400 * validityInDays - (86400 * validityInDays).bmod Int32.size := by
  have hneg : creationDate + (86400 * validityInDays).bmod Int32.size -
      (creationDate + 86400 * validityInDays) =
      -(86400 * validityInDays - (86400 * validityInDays).bmod Int32.size) := by omega
  rw [wrappedExpiry, bmod_eq_iff_dvd (by decide), exactExpiry, hneg, Int.dvd_neg]

theorem wrappedExpiry_of_fits {creationDate validityInDays : Int}
    (h : Fits Int32.size (86400 * validityInDays)) :
    wrappedExpiry creationDate validityInDays =
      (exactExpiry creationDate validityInDays).bmod Int64.size := by
  rw [wrappedExpiry, (bmod_eq_self_iff (by decide)).mpr h, exactExpiry]

theorem fits_product_iff {validityInDays : Int} :
    Fits Int32.size (86400 * validityInDays) ↔
      -24855 ≤ validityInDays ∧ validityInDays ≤ 24855 := by
  have hsize : (Int32.size : Int) = 4294967296 := rfl
  rw [Fits, hsize]
  omega

/-- A date and a number of days that are machine integers keep the exact date within one width of
`int64_t`. -/
theorem exactExpiry_bounds (creationDate : Int64) (validityInDays : Int32) :
    -3 * (Int64.size : Int) ≤ exactExpiry creationDate.toInt validityInDays.toInt * 2 ∧
      exactExpiry creationDate.toInt validityInDays.toInt * 2 + 2 < 3 * Int64.size := by
  have hsize : (Int64.size : Int) = 18446744073709551616 := rfl
  have hdate := creationDate.le_toInt
  have hdate' := creationDate.toInt_lt
  have hdays := validityInDays.le_toInt
  have hdays' := validityInDays.toInt_lt
  rw [exactExpiry, hsize]
  omega

end Ticketing
