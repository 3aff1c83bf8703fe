import HftFixEngine.Protocol.Decimal

set_option autoImplicit false

namespace HftFixEngine.Protocol

open Word Scan

def decimal (digits : Bytes) : Nat :=
  digits.foldl (fun number char => number * 10 + digitValue char) 0

def padded (width : Nat) (digits : Bytes) : Bytes :=
  digits.take width ++ List.replicate (width - digits.length) 48

namespace FixParser

def unsignedText (chars : Bytes) : Bytes :=
  match chars with
  | 45 :: rest => rest
  | _ => chars

def fractionDigits (chars : Bytes) : Bytes :=
  match chars.dropWhile isDigit with
  | 46 :: fraction => fraction.takeWhile isDigit
  | _ => []

def magnitude (chars : Bytes) : Nat :=
  decimal ((unsignedText chars).takeWhile isDigit) * 10 ^ 6 +
    decimal (padded 6 (fractionDigits (unsignedText chars)))

def exactPrice (chars : Bytes) : Int :=
  if chars.head? = some 45 then -(magnitude chars : Int) else magnitude chars

-- What each addition, multiplication and negation of the scanner amounts to before it is
-- stored in 64 bits.
def integerOperations : Bytes → Int → List Int
  | [], _ => []
  | char :: rest, number =>
    let scaled := number * 10
    let sum := wrapInt64 scaled + digitValue char
    scaled :: sum :: integerOperations rest (wrapInt64 sum)

def fractionOperations : Bytes → Int → Int → List Int
  | [], _, _ => []
  | char :: rest, value, multiplier =>
    if isDigit char ∧ 0 < multiplier then
      let share := digitValue char * multiplier
      share :: (value + share) ::
        fractionOperations rest (wrapInt64 (value + share)) (multiplier / 10)
    else []

def unsignedOperations (chars : Bytes) : List Int :=
  let scaled := integerPart chars * 1000000
  integerOperations (chars.takeWhile isDigit) 0 ++ scaled ::
    match chars.dropWhile isDigit with
    | 46 :: fraction => fractionOperations fraction (wrapInt64 scaled) 100000
    | _ => []

def operations (chars : Bytes) : List Int :=
  match chars with
  | 45 :: rest => unsignedOperations rest ++ [-unsignedPrice rest]
  | _ => unsignedOperations chars

end FixParser

theorem foldl_decimal (digits : Bytes) (start : Nat) :
    digits.foldl (fun number char => number * 10 + digitValue char) start =
      start * 10 ^ digits.length + decimal digits := by
  induction digits generalizing start with
  | nil => simp [decimal]
  | cons char rest ih =>
    rw [decimal, List.foldl_cons, List.foldl_cons, ih, ih (0 * 10 + digitValue char),
      List.length_cons, Nat.pow_succ]
    grind

theorem decimal_cons (char : UInt8) (digits : Bytes) :
    decimal (char :: digits) = digitValue char * 10 ^ digits.length + decimal digits := by
  rw [decimal, List.foldl_cons, foldl_decimal, Nat.zero_mul, Nat.zero_add]

theorem length_padded (width : Nat) (digits : Bytes) : (padded width digits).length = width := by
  simp only [padded, List.length_append, List.length_take, List.length_replicate]
  omega

theorem decimal_padded_nil (width : Nat) : decimal (padded width []) = 0 := by
  induction width with
  | zero => rfl
  | succ width ih =>
    have split : padded (width + 1) [] = 48 :: padded width [] := by
      simp [padded, List.replicate_succ]
    have zero : digitValue 48 = 0 := rfl
    rw [split, decimal_cons, ih, zero, Nat.zero_mul]

theorem decimal_padded_cons (width : Nat) (char : UInt8) (digits : Bytes) :
    decimal (padded (width + 1) (char :: digits)) =
      digitValue char * 10 ^ width + decimal (padded width digits) := by
  have split : padded (width + 1) (char :: digits) = char :: padded width digits := by
    simp [padded]
  rw [split, decimal_cons, length_padded]

theorem digitValue_le {char : UInt8} (digit : isDigit char = true) : digitValue char ≤ 9 := by
  simp only [isDigit, Bool.and_eq_true, decide_eq_true_eq, UInt8.le_iff_toNat_le,
    UInt8.toNat_ofNat] at digit
  simp only [digitValue]
  omega

namespace FixParser

theorem integerOperations_inInt64_iff (digits : Bytes) (start : Nat) (fits : start < 2 ^ 63) :
    (∀ result, result ∈ integerOperations digits start → InInt64 result) ↔
      digits.foldl (fun number char => number * 10 + digitValue char) start < 2 ^ 63 := by
  induction digits generalizing start with
  | nil => simpa [integerOperations] using fits
  | cons char rest ih =>
    have grows := le_foldl_digits rest (start * 10 + digitValue char)
    simp only [integerOperations, List.forall_mem_cons, List.foldl_cons]
    by_cases small : start * 10 + digitValue char < 2 ^ 63
    next =>
      have tens : InInt64 ((start : Int) * 10) := by
        simp only [InInt64]
        omega
      have sum : InInt64 ((start : Int) * 10 + digitValue char) := by
        simp only [InInt64]
        omega
      have cast : (start : Int) * 10 + digitValue char = (start * 10 + digitValue char : Nat) := by
        omega
      rw [wrapInt64_of_inInt64 tens, wrapInt64_of_inInt64 sum, cast, ih _ small, ← cast]
      simp [tens, sum]
    next =>
      constructor
      next =>
        rintro ⟨tens, sum, -⟩
        rw [wrapInt64_of_inInt64 tens] at sum
        simp only [InInt64] at sum
        omega
      next =>
        intro within
        omega

theorem fraction_round {char : UInt8} (digit : isDigit char = true) (rest : Bytes) (width : Nat)
    (narrow : width < 6) (value : Nat) :
    let share := digitValue char * 10 ^ width
    share ≤ 900000 ∧
      fractionOperations (char :: rest) value (10 ^ (width + 1) / 10 : Nat) =
        (share : Int) :: ((value + share : Nat) : Int) ::
          fractionOperations rest (wrapInt64 (value + share : Nat)) (10 ^ width / 10 : Nat) ∧
      addFraction (char :: rest) value (10 ^ (width + 1) / 10 : Nat) =
        addFraction rest (wrapInt64 (value + share : Nat)) (10 ^ width / 10 : Nat) := by
  intro share
  have power : 10 ^ (width + 1) / 10 = 10 ^ width := by
    rw [Nat.pow_succ, Nat.mul_div_cancel _ (by decide)]
  have positive : 0 < 10 ^ width := Nat.pow_pos (by decide)
  have bound : 10 ^ width ≤ 10 ^ 5 := Nat.pow_le_pow_right (by decide) (by omega)
  have most : share ≤ 9 * 10 ^ width := Nat.mul_le_mul_right _ (digitValue_le digit)
  have next : ((10 ^ width : Nat) : Int) / 10 = (10 ^ width / 10 : Nat) := by omega
  have cast : (digitValue char : Int) * (10 ^ width : Nat) = (share : Nat) :=
    (Int.natCast_mul _ _).symm
  have going : isDigit char = true ∧ 0 < ((10 ^ width : Nat) : Int) := ⟨digit, by omega⟩
  rw [power, fractionOperations, addFraction]
  rw [if_pos going, if_pos going]
  simp only [cast, next, Int.natCast_add]
  exact ⟨by omega, trivial, trivial⟩

theorem fraction_inInt64_iff (fraction : Bytes) (width : Nat) (narrow : width ≤ 6)
    (value : Nat) (fits : value < 2 ^ 63) :
    let sum := value + decimal (padded width (fraction.takeWhile isDigit))
    ((∀ result, result ∈ fractionOperations fraction value (10 ^ width / 10 : Nat) →
        InInt64 result) ↔ sum < 2 ^ 63) ∧
      (sum < 2 ^ 63 → addFraction fraction value (10 ^ width / 10 : Nat) = sum) := by
  induction fraction generalizing width value with
  | nil => simpa [fractionOperations, addFraction, decimal_padded_nil] using fits
  | cons char rest ih =>
    cases width with
    | zero => simpa [fractionOperations, addFraction, padded, decimal] using fits
    | succ width =>
      cases digit : isDigit char with
      | false => simpa [fractionOperations, addFraction, digit, decimal_padded_nil] using fits
      | true =>
        obtain ⟨most, operations, added⟩ := fraction_round digit rest width narrow value
        rw [operations, added, List.takeWhile_cons_of_pos digit, decimal_padded_cons]
        generalize digitValue char * 10 ^ width = share at most
        have inside : InInt64 (share : Int) := by
          simp only [InInt64]
          omega
        simp only [List.forall_mem_cons, inside, true_and, ← Nat.add_assoc]
        by_cases small : value + share < 2 ^ 63
        next =>
          have sum : InInt64 ((value + share : Nat) : Int) := by
            simp only [InInt64]
            omega
          rw [wrapInt64_of_inInt64 sum]
          simp only [sum, true_and]
          exact ih width (by omega) _ small
        next =>
          have beyond : ¬ InInt64 ((value + share : Nat) : Int) := by
            simp only [InInt64]
            omega
          simp only [beyond, false_and, false_iff]
          omega

theorem parts_of_point {chars fraction : Bytes} (found : chars.dropWhile isDigit = 46 :: fraction) :
    unsignedOperations chars = integerOperations (chars.takeWhile isDigit) 0 ++
        integerPart chars * 1000000 ::
          fractionOperations fraction (wrapInt64 (integerPart chars * 1000000)) 100000 ∧
      unsignedPrice chars =
        addFraction fraction (wrapInt64 (integerPart chars * 1000000)) 100000 ∧
      fractionDigits chars = fraction.takeWhile isDigit := by
  simp only [unsignedOperations, unsignedPrice, fractionDigits, found, and_self]

theorem parts_of_no_point {chars : Bytes}
    (pointless : ∀ fraction, chars.dropWhile isDigit ≠ 46 :: fraction) :
    unsignedOperations chars =
        integerOperations (chars.takeWhile isDigit) 0 ++ [integerPart chars * 1000000] ∧
      unsignedPrice chars = wrapInt64 (integerPart chars * 1000000) ∧
      fractionDigits chars = [] := by
  unfold unsignedOperations unsignedPrice fractionDigits
  generalize chars.dropWhile isDigit = rest at pointless
  refine ⟨?_, ?_, ?_⟩ <;> split
  all_goals first | rfl | exact absurd rfl (pointless _)

theorem unsigned_inInt64_iff (chars : Bytes) :
    let denoted : Nat :=
      decimal (chars.takeWhile isDigit) * 10 ^ 6 + decimal (padded 6 (fractionDigits chars))
    ((∀ result, result ∈ unsignedOperations chars → InInt64 result) ↔ denoted < 2 ^ 63) ∧
      (denoted < 2 ^ 63 → unsignedPrice chars = denoted) := by
  intro denoted
  have whole := integerOperations_inInt64_iff (chars.takeWhile isDigit) 0 (by decide)
  have part (fits : decimal (chars.takeWhile isDigit) < 2 ^ 63) :
      integerPart chars = decimal (chars.takeWhile isDigit) :=
    foldl_wrap_digits _ 0 fits
  change _ ↔ decimal (chars.takeWhile isDigit) < 2 ^ 63 at whole
  by_cases small : decimal (chars.takeWhile isDigit) * 10 ^ 6 < 2 ^ 63
  next =>
    have product : ((decimal (chars.takeWhile isDigit) : Int) * 1000000) =
        (decimal (chars.takeWhile isDigit) * 10 ^ 6 : Nat) := by omega
    have scaled : InInt64 ((decimal (chars.takeWhile isDigit) * 10 ^ 6 : Nat) : Int) := by
      simp only [InInt64]
      omega
    have integers := whole.mpr (by omega)
    by_cases point : exists fraction, chars.dropWhile isDigit = 46 :: fraction
    next =>
      obtain ⟨fraction, found⟩ := point
      obtain ⟨operations, price, digits⟩ := parts_of_point found
      obtain ⟨within, value⟩ := fraction_inInt64_iff fraction 6 (by omega) _ small
      simp only [operations, price, part (by omega), product, wrapInt64_of_inInt64 scaled,
        List.forall_mem_append, List.forall_mem_cons, scaled, true_and, denoted, digits]
      exact ⟨(and_iff_right integers).trans within, value⟩
    next =>
      obtain ⟨operations, price, digits⟩ := parts_of_no_point (not_exists.mp point)
      simp only [operations, price, part (by omega), product, wrapInt64_of_inInt64 scaled,
        List.forall_mem_append, List.forall_mem_singleton, scaled, and_true, denoted, digits,
        decimal_padded_nil, Nat.add_zero]
      exact ⟨iff_of_true integers small, fun _ => trivial⟩
  next =>
    have beyond : ¬ denoted < 2 ^ 63 :=
      fun less => small (Nat.lt_of_le_of_lt (Nat.le_add_right _ _) less)
    simp only [beyond, iff_false, false_implies, and_true]
    intro within
    simp only [unsignedOperations, List.forall_mem_append, List.forall_mem_cons] at within
    obtain ⟨integers, scaled, -⟩ := within
    rw [part (whole.mp integers)] at scaled
    simp only [InInt64] at scaled
    omega

theorem unsigned_cases (chars : Bytes) :
    (∃ rest, chars = 45 :: rest) ∨
      chars.head? ≠ some 45 ∧ unsignedText chars = chars ∧
        parseFixedPointPrice chars = unsignedPrice chars ∧
        operations chars = unsignedOperations chars := by
  by_cases front : chars.head? = some 45
  next =>
    obtain ⟨rest, signed⟩ := List.head?_eq_some_iff.mp front
    exact Or.inl ⟨rest, signed⟩
  next =>
    have other (rest : Bytes) : chars ≠ 45 :: rest := by
      rintro rfl
      exact front rfl
    refine Or.inr ⟨front, ?_, ?_, ?_⟩
    next =>
      unfold unsignedText
      split
      next rest => exact absurd rfl (other rest)
      next => rfl
    next =>
      unfold parseFixedPointPrice
      split
      next rest => exact absurd rfl (other rest)
      next => rfl
    next =>
      unfold operations
      split
      next rest => exact absurd rfl (other rest)
      next => rfl

-- The scanner reads the price the text denotes, stays in 64 bits on the way, and brings no price
-- from outside the collar of 35.00 +/- 5.00 into it.
structure PriceExact (chars : Bytes) : Prop where
  exact : parseFixedPointPrice chars = exactPrice chars
  inRange : ∀ result, result ∈ operations chars → InInt64 result
  collar : exactPrice chars < 30000000 ∨ 40000000 < exactPrice chars →
    parseFixedPointPrice chars < 30000000 ∨ 40000000 < parseFixedPointPrice chars

theorem priceExact_iff (chars : Bytes) : PriceExact chars ↔ magnitude chars < 2 ^ 63 := by
  obtain ⟨inRange, value⟩ := unsigned_inInt64_iff (unsignedText chars)
  rw [← magnitude] at inRange value
  rcases unsigned_cases chars with ⟨rest, rfl⟩ | ⟨unsigned, text, price, same⟩
  next =>
    constructor
    next =>
      intro holds
      apply inRange.mp
      intro result member
      exact holds.inRange result (List.mem_append_left _ member)
    next =>
      intro small
      have read : unsignedPrice rest = magnitude (45 :: rest) := value small
      have inside : InInt64 (-unsignedPrice rest) := by
        simp only [read, InInt64]
        omega
      have exact : parseFixedPointPrice (45 :: rest) = exactPrice (45 :: rest) := by
        rw [parseFixedPointPrice, exactPrice, if_pos (by rfl), wrapInt64_of_inInt64 inside, read]
      refine ⟨exact, ?_, by rw [exact]; exact id⟩
      intro result member
      rcases List.mem_append.mp member with earlier | last
      next => exact inRange.mpr small result earlier
      next =>
        rw [List.mem_singleton.mp last]
        exact inside
  next =>
    rw [text] at inRange value
    constructor
    next =>
      intro holds
      exact inRange.mp (same ▸ holds.inRange)
    next =>
      intro small
      have exact : parseFixedPointPrice chars = exactPrice chars := by
        rw [price, value small, exactPrice, if_neg unsigned]
      exact ⟨exact, same ▸ inRange.mpr small, by rw [exact]; exact id⟩

-- A price of 2^64 + 35000000 millionths, read as 35.00.
theorem priceExact_broken_wrapped :
    let text := ascii "18446744073744.551616"
    exactPrice text = 18446744073744551616 ∧ parseFixedPointPrice text = 35000000 ∧
      ¬ PriceExact text := by
  have denoted : exactPrice (ascii "18446744073744.551616") = 18446744073744551616 := by
    decide +kernel
  have read : parseFixedPointPrice (ascii "18446744073744.551616") = 35000000 := by
    decide +kernel
  refine ⟨denoted, read, ?_⟩
  intro holds
  have exact := holds.exact
  rw [denoted, read] at exact
  exact absurd exact (by decide)

end FixParser

end HftFixEngine.Protocol
