import Mathlib.Data.Rat.Floor

/-!
# The numbers that a program computes with

A program that is written for floats can be read in two ways: with exact numbers, or with those of a
machine, which are rounded and among which there are infinities and values that are no number at
all. `FloatNumber` collects the operations in which the two differ, so that one definition of a
program has both meanings. The exact meaning is the instance of the rationals, for which a
conversion to `float` does nothing.

The conversion of an out-of-range float to an integer is undefined in C++; `floatToInt` and
`floatToUnsigned` give it the value that the conversion instruction of x86-64 returns.

Few laws hold of both. `LawfulFloatNumber` collects those from which it follows where a number lies
after it has been compared with literals and converted.

## Main definitions

* `truncate`, `roundHalfAway`: a rational as an integer.
* `FloatNumber`, and its instance for the rationals.
* `FloatNumber.IsNumber`: the value is equal to itself.
* `LawfulFloatNumber`: the laws, with the instance for the rationals.
* `floatToInt`, `floatToUnsigned`.
-/

/-- Truncation towards zero. -/
def truncate (q : ℚ) : ℤ := q.num.tdiv q.den

/-- Rounding to the nearest integer, halves away from zero, as `std::round` does. -/
def roundHalfAway (q : ℚ) : ℤ := if 0 ≤ q then (q + 1 / 2).floor else (q - 1 / 2).ceil

/-- The operations of a program on its numbers. -/
class FloatNumber (N : Type) extends LT N, LE N where
  decidableLT : DecidableLT N
  decidableLE : DecidableLE N
  /-- A literal. -/
  ofRat : ℚ → N
  /-- The conversion to `float`. -/
  single : N → N
  /-- The product, before it is rounded. -/
  mul : N → N → N
  /-- The quotient, before it is rounded. -/
  div : N → N → N
  /-- `std::round`. -/
  round : N → N
  /-- The number without its fraction, if it is finite. -/
  integerPart : N → Option ℤ

attribute [reducible, instance] FloatNumber.decidableLT FloatNumber.decidableLE

/-- Exact numbers. -/
instance : FloatNumber ℚ where
  decidableLT := inferInstance
  decidableLE := inferInstance
  ofRat q := q
  single q := q
  mul p q := p * q
  div p q := p / q
  round q := roundHalfAway q
  integerPart q := some (truncate q)

namespace FloatNumber

@[simp] theorem ofRat_rat (q : ℚ) : (ofRat q : ℚ) = q := rfl

@[simp] theorem single_rat (q : ℚ) : single q = q := rfl

@[simp] theorem mul_rat (p q : ℚ) : mul p q = p * q := rfl

@[simp] theorem div_rat (p q : ℚ) : div p q = p / q := rfl

@[simp] theorem round_rat (q : ℚ) : round q = (roundHalfAway q : ℚ) := rfl

/-- The value is a number: it is equal to itself. -/
def IsNumber {N : Type} [FloatNumber N] (x : N) : Prop := x ≤ x

instance {N : Type} [FloatNumber N] (x : N) : Decidable (IsNumber x) :=
  inferInstanceAs (Decidable (x ≤ x))

end FloatNumber

open FloatNumber (ofRat single IsNumber)

/-- What the numbers of a program have in common, rounded or not. -/
class LawfulFloatNumber (N : Type) [FloatNumber N] : Prop where
  ofRat_le_ofRat {p q : ℚ} : (ofRat p : N) ≤ ofRat q ↔ p ≤ q
  /-- What is compared with success is a number. -/
  isNumber_of_le {x y : N} : x ≤ y → IsNumber x ∧ IsNumber y
  isNumber_of_lt {x y : N} : x < y → IsNumber x ∧ IsNumber y
  not_lt {x y : N} : IsNumber x → IsNumber y → (¬x < y ↔ y ≤ x)
  le_of_lt {x y : N} : x < y → x ≤ y
  le_trans {x y z : N} : x ≤ y → y ≤ z → x ≤ z
  /-- A number between two literals could be written as one. -/
  exists_ofRat {x : N} {p q : ℚ} : ofRat p ≤ x → x ≤ ofRat q → ∃ r, x = ofRat r
  integerPart_ofRat (q : ℚ) : FloatNumber.integerPart (ofRat q : N) = some (truncate q)
  isNumber_single {x : N} : IsNumber (single x) ↔ IsNumber x
  single_single (x : N) : single (single x) = single x
  /-- Small integers are converted exactly. -/
  single_ofRat {n : ℤ} : |n| ≤ 2 ^ 24 → single (ofRat n : N) = ofRat n
  isNumber_div_ofRat {x : N} {q : ℚ} :
    IsNumber x → q ≠ 0 → IsNumber (FloatNumber.div x (ofRat q))

instance : LawfulFloatNumber ℚ where
  ofRat_le_ofRat := Iff.rfl
  isNumber_of_le _ := ⟨le_refl _, le_refl _⟩
  isNumber_of_lt _ := ⟨le_refl _, le_refl _⟩
  not_lt _ _ := ⟨fun h => le_of_not_gt h, not_lt_of_ge⟩
  le_of_lt := le_of_lt
  le_trans := le_trans
  exists_ofRat _ _ := ⟨_, rfl⟩
  integerPart_ofRat _ := rfl
  isNumber_single := Iff.rfl
  single_single _ := rfl
  single_ofRat _ := rfl
  isNumber_div_ofRat _ _ := le_refl _

section conversions

variable {N : Type} [FloatNumber N]

theorem isNumber_ofRat [LawfulFloatNumber N] (q : ℚ) : IsNumber (ofRat q : N) :=
  LawfulFloatNumber.ofRat_le_ofRat.mpr le_rfl

/-- `(int) x`; `-2 ^ 31` out of range. -/
def floatToInt (x : N) : Int32 :=
  match FloatNumber.integerPart x with
  | some n => if -2 ^ 31 ≤ n ∧ n < 2 ^ 31 then Int32.ofInt n else Int32.ofInt (-2 ^ 31)
  | none => Int32.ofInt (-2 ^ 31)

/-- `(unsigned int) x`: the low half of the conversion to 64 bits, zero out of range. -/
def floatToUnsigned (x : N) : UInt32 :=
  match FloatNumber.integerPart x with
  | some n => if -2 ^ 63 ≤ n ∧ n < 2 ^ 63 then UInt32.ofInt n else 0
  | none => 0

theorem floatToInt_ofRat [LawfulFloatNumber N] (q : ℚ) :
    floatToInt (ofRat q : N) = floatToInt q := by
  rw [floatToInt, LawfulFloatNumber.integerPart_ofRat]
  rfl

theorem floatToUnsigned_ofRat [LawfulFloatNumber N] (q : ℚ) :
    floatToUnsigned (ofRat q : N) = floatToUnsigned q := by
  rw [floatToUnsigned, LawfulFloatNumber.integerPart_ofRat]
  rfl

end conversions

theorem floatToInt_rat (q : ℚ) : floatToInt q =
    if -2 ^ 31 ≤ truncate q ∧ truncate q < 2 ^ 31 then Int32.ofInt (truncate q)
    else Int32.ofInt (-2 ^ 31) := rfl

theorem floatToUnsigned_rat (q : ℚ) : floatToUnsigned q =
    if -2 ^ 63 ≤ truncate q ∧ truncate q < 2 ^ 63 then UInt32.ofInt (truncate q) else 0 := rfl
