import Mathlib.Data.UInt
import Mathlib.Order.Nat

/-!
# Base64

The standard alphabet with padding. Three bytes are 24 bits and so four digits of six bits; one or
two bytes at the end are filled up with zero bits, and the missing digits are written as `=`.
Decoding is defined on every text: the padding may be missing, the digits of the URL alphabet are
read as well, and a byte that is no digit counts as zero.
-/

namespace Base64

/-- The character of a digit below 64. -/
def digit (i : Nat) : UInt8 :=
  if i < 26 then .ofNat (65 + i)
  else if i < 52 then .ofNat (71 + i)
  else if i < 62 then .ofNat (i - 4)
  else if i = 62 then 43
  else 47

def value (b : UInt8) : Nat :=
  if 65 ≤ b ∧ b ≤ 90 then b.toNat - 65
  else if 97 ≤ b ∧ b ≤ 122 then b.toNat - 71
  else if 48 ≤ b ∧ b ≤ 57 then b.toNat + 4
  else if b = 43 ∨ b = 45 then 62
  else if b = 47 ∨ b = 95 then 63
  else 0

def padding : UInt8 := 61

def encode : List UInt8 → List UInt8
  | [] => []
  | [a] => [digit (a.toNat / 4), digit (a.toNat % 4 * 16), padding, padding]
  | [a, b] =>
      [digit (a.toNat / 4), digit (a.toNat % 4 * 16 + b.toNat / 16), digit (b.toNat % 16 * 4),
        padding]
  | a :: b :: c :: rest =>
      digit (a.toNat / 4) :: digit (a.toNat % 4 * 16 + b.toNat / 16) ::
        digit (b.toNat % 16 * 4 + c.toNat / 64) :: digit (c.toNat % 64) :: encode rest

/-- The three bytes that four digits stand for. -/
def firstByte (p q : UInt8) : UInt8 := .ofNat (value p * 4 + value q / 16)

def secondByte (q r : UInt8) : UInt8 := .ofNat (value q % 16 * 16 + value r / 4)

def thirdByte (r s : UInt8) : UInt8 := .ofNat (value r % 4 * 64 + value s)

def decode : List UInt8 → List UInt8
  | p :: q :: r :: s :: rest =>
      if rest = [] ∧ r = padding ∧ s = padding then [firstByte p q]
      else if rest = [] ∧ s = padding then [firstByte p q, secondByte q r]
      else firstByte p q :: secondByte q r :: thirdByte r s :: decode rest
  | [p, q, r] => [firstByte p q, secondByte q r]
  | [p, q] => [firstByte p q]
  | _ => []

theorem value_digit {i : Nat} (h : i < 64) : value (digit i) = i := by
  revert i
  decide

theorem digit_ne_padding {i : Nat} (h : i < 64) : digit i ≠ padding := by
  revert i
  decide

theorem firstByte_digit {a : UInt8} {j : Nat} (hj : j < 16) :
    firstByte (digit (a.toNat / 4)) (digit (a.toNat % 4 * 16 + j)) = a := by
  have ha := a.toNat_lt
  rw [firstByte, value_digit (by omega), value_digit (by omega),
    show a.toNat / 4 * 4 + (a.toNat % 4 * 16 + j) / 16 = a.toNat by omega, UInt8.ofNat_toNat]

theorem secondByte_digit {b : UInt8} {i j : Nat} (hi : i < 4) (hj : j < 4) :
    secondByte (digit (i * 16 + b.toNat / 16)) (digit (b.toNat % 16 * 4 + j)) = b := by
  have hb := b.toNat_lt
  rw [secondByte, value_digit (by omega), value_digit (by omega),
    show (i * 16 + b.toNat / 16) % 16 * 16 + (b.toNat % 16 * 4 + j) / 4 = b.toNat by omega,
    UInt8.ofNat_toNat]

theorem thirdByte_digit {c : UInt8} {i : Nat} (hi : i < 16) :
    thirdByte (digit (i * 4 + c.toNat / 64)) (digit (c.toNat % 64)) = c := by
  have hc := c.toNat_lt
  rw [thirdByte, value_digit (by omega), value_digit (by omega),
    show (i * 4 + c.toNat / 64) % 4 * 64 + c.toNat % 64 = c.toNat by omega, UInt8.ofNat_toNat]

theorem decode_encode (bytes : List UInt8) : decode (encode bytes) = bytes := by
  induction bytes using encode.induct with
  | case1 => rfl
  | case2 a =>
      rw [encode, decode, if_pos ⟨rfl, rfl, rfl⟩]
      exact congrArg (· :: []) (firstByte_digit (j := 0) (by decide))
  | case3 a b =>
      have hdigit : digit (b.toNat % 16 * 4) ≠ padding := digit_ne_padding (by omega)
      have hb := b.toNat_lt
      rw [encode, decode, if_neg (by simp [hdigit]), if_pos ⟨rfl, rfl⟩,
        firstByte_digit (by omega)]
      exact congrArg (fun x => [a, x]) (secondByte_digit (j := 0) (by omega) (by decide))
  | case4 a b c rest ih =>
      have hb := b.toNat_lt
      have hc := c.toNat_lt
      have hdigit : digit (c.toNat % 64) ≠ padding := digit_ne_padding (by omega)
      rw [encode, decode, if_neg (by simp [hdigit]), if_neg (by simp [hdigit]),
        firstByte_digit (by omega), secondByte_digit (by omega) (by omega),
        thirdByte_digit (by omega), ih]

end Base64
