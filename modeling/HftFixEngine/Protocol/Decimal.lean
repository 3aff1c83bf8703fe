import HftFixEngine.Protocol.ProtocolParser
import HftFixEngine.Shared.Scan
import Mathlib.Data.List.Basic
import Mathlib.Algebra.Ring.Nat

set_option autoImplicit false

namespace HftFixEngine.Protocol

open Word Scan

def ascii (text : String) : Bytes :=
  text.toList.map fun char => UInt8.ofNat char.toNat

def toCharsInt (number : Int) : Bytes :=
  if number < 0 then 45 :: toChars number.natAbs else toChars number.natAbs

theorem toDigits_bounds {number : Nat} {digit : Char} (written : digit ∈ Nat.toDigits 10 number) :
    48 ≤ digit.toNat ∧ digit.toNat ≤ 57 := by
  have isDigit := Nat.isDigit_of_mem_toDigits (by decide) (by decide) written
  simp only [Char.isDigit, Bool.and_eq_true, decide_eq_true_eq, ge_iff_le] at isDigit
  exact isDigit

theorem isDigit_toChars (number : Nat) : ∀ char, char ∈ toChars number → isDigit char = true := by
  intro char member
  obtain ⟨digit, written, rfl⟩ := List.mem_map.mp member
  have bounds := toDigits_bounds written
  have small : digit.toNat % 2 ^ 8 = digit.toNat := by omega
  simp only [isDigit, Bool.and_eq_true, decide_eq_true_eq, UInt8.le_iff_toNat_le,
    UInt8.toNat_ofNat', UInt8.toNat_ofNat, small]
  omega

theorem toChars_ne_nil (number : Nat) : toChars number ≠ [] := by
  simp [toChars, Nat.toDigits_ne_nil]

theorem length_toChars_le {number width : Nat} (positive : 0 < width) (small : number < 10 ^ width) :
    (toChars number).length ≤ width := by
  rw [toChars, List.length_map]
  exact (Nat.length_toDigits_le_iff (by decide) positive).mpr small

theorem foldl_toChars (number : Nat) :
    (toChars number).foldl (fun value char => value * 10 + digitValue char) 0 = number := by
  have digits := Nat.ofDigitChars_toDigits (b := 10) (n := number) (by decide) (by decide)
  rw [Nat.ofDigitChars_eq_foldl] at digits
  rw [toChars, List.foldl_map]
  refine Eq.trans ?_ digits
  apply List.foldl_ext
  intro value char member
  have bounds := toDigits_bounds member
  have small : char.toNat % 2 ^ 8 = char.toNat := by omega
  have zero : '0'.toNat = 48 := rfl
  rw [digitValue, UInt8.toNat_ofNat', small, zero, Nat.mul_comm]

theorem leadingNumber_toChars (number : Nat) {rest : Bytes} (stops : Stops isDigit rest) :
    leadingNumber (toChars number ++ rest) = some number := by
  simp [leadingNumber, takeWhile_body (isDigit_toChars number) stops, toChars_ne_nil, foldl_toChars]

theorem ne_of_isDigit {char other : UInt8} (digit : isDigit char = true)
    (outside : isDigit other = false) : char ≠ other := by
  rintro rfl
  rw [digit] at outside
  cases outside

theorem head?_toChars_append (number : Nat) (rest : Bytes) :
    ∀ char, (toChars number ++ rest).head? = some char → isDigit char = true := by
  intro char front
  obtain ⟨first, more, written⟩ := List.exists_cons_of_ne_nil (toChars_ne_nil number)
  have digit := isDigit_toChars number first (by simp [written])
  rw [written, List.cons_append, List.head?_cons, Option.some.injEq] at front
  rwa [← front]

theorem fromCharsInt_toChars (number : Nat) {rest : Bytes} (stops : Stops isDigit rest)
    (inside : InInt32 number) (value : Int) :
    fromCharsInt (toChars number ++ rest) value = number := by
  have front := head?_toChars_append number rest
  unfold fromCharsInt
  split
  next chars other negative =>
    have digit := front 45 (by rw [negative]; rfl)
    simp [isDigit] at digit
  next => simp [leadingNumber_toChars number stops, inside]

theorem fromCharsInt_toCharsInt (number : Int) (inside : InInt32 number) (value : Int) :
    fromCharsInt (toCharsInt number) value = number := by
  have stops : Stops isDigit [] := stops_nil
  unfold toCharsInt
  split
  next negative =>
    have read := leadingNumber_toChars number.natAbs stops
    rw [List.append_nil] at read
    have same : -(number.natAbs : Int) = number := by omega
    simp only [fromCharsInt, read, same, inside, if_true]
  next positive =>
    have same : (number.natAbs : Int) = number := by omega
    have read := fromCharsInt_toChars number.natAbs stops (by rwa [same]) value
    rwa [List.append_nil, same] at read

theorem fromCharsUint64_toChars (number : Nat) (inside : number < 2 ^ 64) (value : Nat) :
    fromCharsUint64 (toChars number) value = number := by
  have read := leadingNumber_toChars number stops_nil
  rw [List.append_nil] at read
  simp only [fromCharsUint64, read, inside, if_true]

theorem mem_toCharsInt {number : Int} {char : UInt8} (written : char ∈ toCharsInt number) :
    char = 45 ∨ isDigit char = true := by
  unfold toCharsInt at written
  split at written
  next =>
    rcases List.mem_cons.mp written with sign | digit
    next => exact .inl sign
    next => exact .inr (isDigit_toChars _ char digit)
  next => exact .inr (isDigit_toChars _ char written)

def sixDigits (number : Nat) : Bytes :=
  [100000, 10000, 1000, 100, 10, 1].map fun power => UInt8.ofNat (48 + number / power % 10)

-- A price in millionths as a decimal number with six digits behind the point.
def priceText (priceScaled : Nat) : Bytes :=
  toChars (priceScaled / 1000000) ++ 46 :: sixDigits priceScaled

theorem digit_ofNat {digit : Nat} (small : digit < 10) :
    isDigit (UInt8.ofNat (48 + digit)) = true ∧ digitValue (UInt8.ofNat (48 + digit)) = digit := by
  have value : (48 + digit) % 2 ^ 8 = 48 + digit := by omega
  simp only [isDigit, digitValue, Bool.and_eq_true, decide_eq_true_eq, UInt8.le_iff_toNat_le,
    UInt8.toNat_ofNat', UInt8.toNat_ofNat, value]
  omega

namespace FixParser

theorem le_foldl_digits (digits : Bytes) (start : Nat) :
    start ≤ digits.foldl (fun number char => number * 10 + digitValue char) start := by
  induction digits generalizing start with
  | nil => exact Nat.le_refl _
  | cons char rest ih =>
    have later := ih (start * 10 + digitValue char)
    rw [List.foldl_cons]
    omega

theorem foldl_wrap_digits (digits : Bytes) (start : Nat)
    (fits : digits.foldl (fun number char => number * 10 + digitValue char) start < 2 ^ 63) :
    digits.foldl (fun number char => wrapInt64 (wrapInt64 (number * 10) + digitValue char))
        (start : Int) =
      (digits.foldl (fun number char => number * 10 + digitValue char) start : Nat) := by
  induction digits generalizing start with
  | nil => rfl
  | cons char rest ih =>
    rw [List.foldl_cons] at fits
    have bound := le_foldl_digits rest (start * 10 + digitValue char)
    have tens : wrapInt64 ((start : Int) * 10) = (start * 10 : Nat) := by
      rw [wrapInt64_of_inInt64]
      next => omega
      next =>
        simp only [InInt64]
        omega
    have both : wrapInt64 (((start * 10 : Nat) : Int) + digitValue char) =
        (start * 10 + digitValue char : Nat) := by
      rw [wrapInt64_of_inInt64]
      next => omega
      next =>
        simp only [InInt64]
        omega
    rw [List.foldl_cons, List.foldl_cons, tens, both]
    exact ih _ fits

theorem integerPart_toChars (number : Nat) (fits : number < 2 ^ 63) {rest : Bytes}
    (stops : Stops isDigit rest) : integerPart (toChars number ++ rest) = number := by
  have value := foldl_toChars number
  have read := foldl_wrap_digits (toChars number) 0 (by omega)
  rw [integerPart, takeWhile_body (isDigit_toChars number) stops]
  exact read.trans (by rw [value])

theorem addFraction_digit {digit : Nat} (small : digit < 10) (rest : Bytes) (value multiplier : Int)
    (positive : 0 < multiplier) (fits : InInt64 (value + digit * multiplier)) :
    addFraction (UInt8.ofNat (48 + digit) :: rest) value multiplier =
      addFraction rest (value + digit * multiplier) (multiplier / 10) := by
  obtain ⟨isDigit, value_eq⟩ := digit_ofNat small
  simp only [addFraction, isDigit, positive, and_self, if_true, value_eq]
  rw [wrapInt64_of_inInt64 fits]

def lastDigits (number : Nat) : Nat → Bytes
  | 0 => []
  | n + 1 => UInt8.ofNat (48 + number / 10 ^ n % 10) :: lastDigits number n

theorem addFraction_lastDigits (number n : Nat) (value : Int) (lower : 0 ≤ value)
    (upper : value + (10 ^ n : Nat) < 2 ^ 63) :
    addFraction (lastDigits number n) value (10 ^ n / 10 : Nat) =
      value + (number % 10 ^ n : Nat) := by
  induction n generalizing value with
  | zero => simp [lastDigits, addFraction, Nat.mod_one]
  | succ n ih =>
    have small : number / 10 ^ n % 10 < 10 := Nat.mod_lt _ (by decide)
    have positive : 0 < 10 ^ n := Nat.pow_pos (by decide)
    rw [lastDigits, Nat.mod_pow_succ]
    rw [Nat.pow_succ] at upper ⊢
    rw [Nat.mul_div_cancel _ (by decide : 0 < 10)]
    generalize number / 10 ^ n % 10 = digit at small ⊢
    generalize 10 ^ n = power at ih upper positive ⊢
    -- The digit's share of the value, which stays below the next power.
    have product : ((power * digit : Nat) : Int) = digit * power := by
      rw [Nat.mul_comm]
      exact Int.natCast_mul digit power
    have share : power * digit ≤ power * 9 := Nat.mul_le_mul_left power (by omega)
    have fits : InInt64 (value + digit * power) := by
      rw [← product]
      simp only [InInt64]
      omega
    rw [addFraction_digit small _ _ _ (by omega) fits, ← product,
      show (power : Int) / 10 = (power / 10 : Nat) by omega, ih _ (by omega) (by omega)]
    omega

theorem addFraction_sixDigits (number : Nat) (value : Int) (lower : 0 ≤ value)
    (upper : value < 2 ^ 62) :
    addFraction (sixDigits number) value 100000 = value + (number % 1000000 : Nat) :=
  addFraction_lastDigits number 6 value lower (by omega)

theorem parseFixedPointPrice_priceText (priceScaled : Nat) (small : priceScaled < 2 ^ 32) :
    parseFixedPointPrice (priceText priceScaled) = priceScaled := by
  have stops : Stops isDigit (46 :: sixDigits priceScaled) := stops_cons (by decide)
  have whole := integerPart_toChars (priceScaled / 1000000) (by omega) stops
  have behind := dropWhile_body (isDigit_toChars (priceScaled / 1000000)) stops
  have scaled : wrapInt64 (((priceScaled / 1000000 : Nat) : Int) * 1000000) =
      (priceScaled / 1000000 : Nat) * 1000000 := by
    rw [wrapInt64_of_inInt64]
    simp only [InInt64]
    omega
  have unsigned : unsignedPrice (priceText priceScaled) = priceScaled := by
    simp only [unsignedPrice, priceText, whole, behind, scaled]
    rw [addFraction_sixDigits _ _ (by omega) (by omega)]
    omega
  have front := head?_toChars_append (priceScaled / 1000000) (46 :: sixDigits priceScaled)
  unfold parseFixedPointPrice
  split
  next chars other negative =>
    have digit := front 45 (by rw [← priceText, negative]; rfl)
    simp [isDigit] at digit
  next => exact unsigned

end FixParser

end HftFixEngine.Protocol
