import ArbutusEngine.Lib.Numbers
import Mathlib.Data.Int.Log
import Mathlib.Tactic.FieldSimp
import Mathlib.Tactic.Linarith
import Mathlib.Tactic.NormNum
import Mathlib.Tactic.Positivity
import Mathlib.Tactic.Ring

/-!
# The numbers of a machine

Numbers as IEEE 754 has them, by their values: a rational, one of two infinities, or no number.
Zero has one sign here, which only a division by it would tell. No comparison with what is no number
holds. A result is rounded to the nearest number of a format, at a tie to the one whose last digit
is even; beyond the largest number of the format it is infinite.

All that is used of rounding is that it stays on its side of every number of the format
(`le_rounded`, `rounded_le`), and so leaves the numbers of the format alone.

## Main definitions

* `roundEven`, `BinaryFormat`, `BinaryFormat.rounded`, `BinaryFormat.Represents`.
* `Machine`, with the instance of `FloatNumber` whose `single` rounds to `binary32`.

## Main results

* `BinaryFormat.le_rounded`, `BinaryFormat.rounded_le`, `BinaryFormat.rounded_of_represents`.
* `Machine.finite_le_single`, `Machine.single_le_finite`, `Machine.single_of_represents`.
-/

/-! ### Rounding to integers -/

/-- Rounding to the nearest integer, halves to the even one. -/
def roundEven (q : ℚ) : ℤ :=
  if q - ⌊q⌋ < 1 / 2 then ⌊q⌋ else if 1 / 2 < q - ⌊q⌋ then ⌊q⌋ + 1 else ⌊q⌋ + ⌊q⌋ % 2

theorem floor_le_roundEven (q : ℚ) : ⌊q⌋ ≤ roundEven q := by
  rw [roundEven]
  split_ifs <;> omega

theorem roundEven_le_ceil (q : ℚ) : roundEven q ≤ ⌈q⌉ := by
  rcases eq_or_lt_of_le (Int.floor_le q) with heq | hlt
  · have hround : roundEven q = ⌊q⌋ := by
      rw [roundEven, if_pos (by linarith)]
    rw [hround]
    exact Int.floor_le_ceil q
  · have hceil : ⌊q⌋ + 1 ≤ ⌈q⌉ := Int.add_one_le_iff.mpr (Int.lt_ceil.mpr hlt)
    rw [roundEven]
    split_ifs <;> omega

/-! ### Formats -/

/-- A binary format: how many digits follow the first one of a number, the exponent of the last digit
of the smallest numbers, and that of the first power of two that is too large. -/
structure BinaryFormat where
  fraction : ℕ
  lowest : ℤ
  highest : ℤ

/-- The format of a `float`. -/
def binary32 : BinaryFormat := ⟨23, -149, 128⟩

namespace BinaryFormat

variable (f : BinaryFormat) {q r : ℚ}

/-- The exponent of the last digit of the numbers around `q`. -/
def lastDigit (q : ℚ) : ℤ := max (Int.log 2 |q| - f.fraction) f.lowest

/-- The distance of the numbers around `q`. -/
def unit (q : ℚ) : ℚ := 2 ^ f.lastDigit q

/-- The number of the format, without a bound, that is nearest to `q`. -/
def rounded (q : ℚ) : ℚ := roundEven (q / f.unit q) * f.unit q

/-- `r` is a number of the format, which has no bound here. -/
def Represents (r : ℚ) : Prop :=
  ∃ m e : ℤ, r = m * 2 ^ e ∧ |m| ≤ 2 ^ (f.fraction + 1) ∧ f.lowest ≤ e

theorem unit_pos (q : ℚ) : 0 < f.unit q := zpow_pos (by norm_num) _

/-- Rounding does not pass a multiple of the unit. -/
theorem mul_unit_le_rounded {m : ℤ} (hm : m * f.unit q ≤ q) : m * f.unit q ≤ f.rounded q := by
  have hfloor : m ≤ ⌊q / f.unit q⌋ := Int.le_floor.mpr ((le_div_iff₀ (f.unit_pos q)).mpr hm)
  refine mul_le_mul_of_nonneg_right ?_ (f.unit_pos q).le
  exact_mod_cast hfloor.trans (floor_le_roundEven _)

theorem rounded_le_mul_unit {m : ℤ} (hm : q ≤ m * f.unit q) : f.rounded q ≤ m * f.unit q := by
  have hceil : ⌈q / f.unit q⌉ ≤ m := Int.ceil_le.mpr ((div_le_iff₀ (f.unit_pos q)).mpr hm)
  refine mul_le_mul_of_nonneg_right ?_ (f.unit_pos q).le
  exact_mod_cast (roundEven_le_ceil _).trans hceil

/-- A number of the format is a multiple of the unit of `q`, or a power of two lies between them. -/
theorem Represents.multiple_or_between {f : BinaryFormat} (hr : f.Represents r) (hq : q ≠ 0) :
    (∃ m : ℤ, r = m * f.unit q) ∨ ∃ m : ℤ, |r| ≤ m * f.unit q ∧ m * f.unit q ≤ |q| := by
  obtain ⟨m, e, rfl, hm, he⟩ := hr
  rcases le_or_gt (f.lastDigit q) e with hle | hlt
  · left
    obtain ⟨k, hk⟩ := Int.le.dest hle
    refine ⟨m * 2 ^ k, ?_⟩
    rw [unit, ← hk, zpow_add₀ (by norm_num), zpow_natCast]
    push_cast
    ring
  · right
    have hlast : f.lastDigit q = Int.log 2 |q| - f.fraction := by
      rw [lastDigit] at hlt ⊢
      omega
    have hunit : ((2 ^ f.fraction : ℤ) : ℚ) * f.unit q = 2 ^ Int.log 2 |q| := by
      rw [unit, hlast, Int.cast_pow, Int.cast_ofNat, ← zpow_natCast, ← zpow_add₀ (by norm_num)]
      congr 1
      ring
    refine ⟨2 ^ f.fraction, ?_, ?_⟩
    · have hm' : |(m : ℚ)| ≤ 2 ^ (f.fraction + 1) := by exact_mod_cast hm
      have hpos : (0 : ℚ) < 2 ^ e := zpow_pos two_pos e
      have he' : (2 : ℚ) ^ e ≤ 2 ^ (f.lastDigit q - 1) :=
        zpow_le_zpow_right₀ (by norm_num) (by omega)
      calc |(m : ℚ) * 2 ^ e| = |(m : ℚ)| * 2 ^ e := by rw [abs_mul, abs_of_pos hpos]
        _ ≤ 2 ^ (f.fraction + 1) * 2 ^ (f.lastDigit q - 1) :=
          mul_le_mul hm' he' hpos.le (by positivity)
        _ = ((2 ^ f.fraction : ℤ) : ℚ) * f.unit q := by
          rw [unit, zpow_sub_one₀ (by norm_num)]
          push_cast
          ring
    · rw [hunit]
      exact_mod_cast Int.zpow_log_le_self (b := 2) (by norm_num) (abs_pos.mpr hq)

/-- A number of the format that is not above `q` is not above what `q` is rounded to. -/
theorem le_rounded (hr : f.Represents r) (hle : r ≤ q) : r ≤ f.rounded q := by
  rcases eq_or_ne q 0 with rfl | hq
  · have hzero : ((0 : ℤ) : ℚ) * f.unit 0 ≤ f.rounded 0 := f.mul_unit_le_rounded (by simp)
    simpa using hle.trans (by simpa using hzero)
  rcases hr.multiple_or_between hq with ⟨m, rfl⟩ | ⟨m, hrm, hmq⟩
  · exact f.mul_unit_le_rounded hle
  · rcases le_total 0 q with hpos | hneg
    · rw [abs_of_nonneg hpos] at hmq
      exact (le_of_abs_le hrm).trans (f.mul_unit_le_rounded hmq)
    · rw [abs_of_nonpos hneg] at hmq
      have hge := neg_le_of_abs_le hrm
      have heq : r = ((-m : ℤ) : ℚ) * f.unit q := by
        push_cast
        linarith
      rw [heq] at hle ⊢
      exact f.mul_unit_le_rounded hle

theorem rounded_le (hr : f.Represents r) (hle : q ≤ r) : f.rounded q ≤ r := by
  rcases eq_or_ne q 0 with rfl | hq
  · have hzero : f.rounded 0 ≤ ((0 : ℤ) : ℚ) * f.unit 0 := f.rounded_le_mul_unit (by simp)
    exact (by simpa using hzero : f.rounded 0 ≤ 0).trans hle
  rcases hr.multiple_or_between hq with ⟨m, rfl⟩ | ⟨m, hrm, hmq⟩
  · exact f.rounded_le_mul_unit hle
  · rcases le_total 0 q with hpos | hneg
    · rw [abs_of_nonneg hpos] at hmq
      have heq : r = m * f.unit q := by linarith [le_of_abs_le hrm]
      rw [heq] at hle ⊢
      exact f.rounded_le_mul_unit hle
    · rw [abs_of_nonpos hneg] at hmq
      have hunit : q ≤ ((-m : ℤ) : ℚ) * f.unit q := by
        push_cast
        linarith
      refine (f.rounded_le_mul_unit hunit).trans ?_
      push_cast
      linarith [neg_le_of_abs_le hrm]

/-- The numbers of the format are left alone. -/
theorem rounded_of_represents (hr : f.Represents r) : f.rounded r = r :=
  le_antisymm (f.rounded_le hr le_rfl) (f.le_rounded hr le_rfl)

/-- What a number is rounded to is a number of the format. -/
theorem represents_rounded (q : ℚ) : f.Represents (f.rounded q) := by
  refine ⟨roundEven (q / f.unit q), f.lastDigit q, rfl, ?_, le_max_right _ _⟩
  have hunit : (2 : ℚ) ^ (Int.log 2 |q| + 1) ≤ ((2 ^ (f.fraction + 1) : ℤ) : ℚ) * f.unit q := by
    have hcast : ((2 ^ (f.fraction + 1) : ℤ) : ℚ) = 2 ^ ((f.fraction : ℤ) + 1) := by
      rw [Int.cast_pow, Int.cast_ofNat, ← zpow_natCast]
      push_cast
      rfl
    rw [hcast, unit, ← zpow_add₀ (by norm_num)]
    refine zpow_le_zpow_right₀ (by norm_num) ?_
    have hlast : Int.log 2 |q| - f.fraction ≤ f.lastDigit q := le_max_left _ _
    omega
  have hlt : |q| < ((2 ^ (f.fraction + 1) : ℤ) : ℚ) * f.unit q :=
    (Int.lt_zpow_succ_log_self (b := 2) (by norm_num) |q|).trans_le (by exact_mod_cast hunit)
  obtain ⟨hlower, hupper⟩ := abs_lt.mp hlt
  refine abs_le.mpr ⟨?_, ?_⟩
  · refine le_trans (Int.le_floor.mpr ?_) (floor_le_roundEven _)
    rw [le_div_iff₀ (f.unit_pos q)]
    push_cast at hlower ⊢
    linarith
  · refine le_trans (roundEven_le_ceil _) (Int.ceil_le.mpr ?_)
    rw [div_le_iff₀ (f.unit_pos q)]
    exact hupper.le

theorem represents_intCast {n : ℤ} (hn : |n| ≤ 2 ^ (f.fraction + 1)) (hlowest : f.lowest ≤ 0) :
    f.Represents n := ⟨n, 0, by simp, hn, hlowest⟩

end BinaryFormat

/-! ### Numbers with infinities and without a value -/

/-- A number of a machine, by its value. -/
inductive Machine where
  | nan
  | infinite (negative : Bool)
  | finite (q : ℚ)
  deriving DecidableEq

namespace Machine

/-- `<`, which does not hold of what is no number. -/
def lt : Machine → Machine → Bool
  | finite p, finite q => p < q
  | infinite true, finite _ => true
  | infinite true, infinite false => true
  | finite _, infinite false => true
  | _, _ => false

/-- `<=`, which does not hold of what is no number. -/
def le : Machine → Machine → Bool
  | finite p, finite q => p ≤ q
  | infinite true, finite _ => true
  | infinite true, infinite _ => true
  | finite _, infinite false => true
  | infinite false, infinite false => true
  | _, _ => false

/-- The product, before it is rounded. -/
def mul : Machine → Machine → Machine
  | finite p, finite q => finite (p * q)
  | infinite s, infinite t => infinite (s != t)
  | infinite s, finite q => if q = 0 then nan else infinite (s != decide (q < 0))
  | finite p, infinite t => if p = 0 then nan else infinite (decide (p < 0) != t)
  | _, _ => nan

/-- The quotient, before it is rounded. -/
def div : Machine → Machine → Machine
  | finite p, finite q =>
    if q = 0 then if p = 0 then nan else infinite (decide (p < 0)) else finite (p / q)
  | finite _, infinite _ => finite 0
  | infinite s, finite q => infinite (s != decide (q < 0))
  | _, _ => nan

end Machine

/-- The value in a format, infinite if it is too large for it. -/
def BinaryFormat.round (f : BinaryFormat) (q : ℚ) : Machine :=
  if |f.rounded q| < 2 ^ f.highest then .finite (f.rounded q) else .infinite (decide (q < 0))

namespace Machine

/-- The conversion to `float`. -/
def single : Machine → Machine
  | finite q => binary32.round q
  | x => x

instance : FloatNumber Machine where
  lt x y := x.lt y = true
  le x y := x.le y = true
  decidableLT x y := inferInstanceAs (Decidable (x.lt y = true))
  decidableLE x y := inferInstanceAs (Decidable (x.le y = true))
  ofRat := finite
  single := single
  mul := mul
  div := div
  round
    | finite q => finite (roundHalfAway q)
    | x => x
  integerPart
    | finite q => some (truncate q)
    | _ => none

variable {x y : Machine} {p q r : ℚ}

@[simp] theorem ofRat_eq (q : ℚ) : (FloatNumber.ofRat q : Machine) = finite q := rfl

@[simp] theorem finite_lt_finite : finite p < finite q ↔ p < q := decide_eq_true_iff

@[simp] theorem finite_le_finite : finite p ≤ finite q ↔ p ≤ q := decide_eq_true_iff

theorem not_nan_lt (x : Machine) : ¬nan < x := Bool.false_ne_true

theorem not_lt_nan (x : Machine) : ¬x < nan := by
  cases x with
  | infinite s => cases s <;> exact Bool.false_ne_true
  | _ => exact Bool.false_ne_true

theorem not_nan_le (x : Machine) : ¬nan ≤ x := Bool.false_ne_true

theorem not_le_nan (x : Machine) : ¬x ≤ nan := by
  cases x with
  | infinite s => cases s <;> exact Bool.false_ne_true
  | _ => exact Bool.false_ne_true

/-- What lies between two rationals is one. -/
theorem exists_finite (hp : finite p ≤ x) (hq : x ≤ finite q) : ∃ r, x = finite r := by
  cases x with
  | nan => exact absurd hq (not_nan_le _)
  | infinite s => cases s <;> first | exact absurd hp Bool.false_ne_true |
      exact absurd hq Bool.false_ne_true
  | finite r => exact ⟨r, rfl⟩

/-! ### The conversion to `float` -/

theorem single_eq_nan_iff : single x = nan ↔ x = nan := by
  cases x with
  | finite q =>
    rw [single, BinaryFormat.round]
    split_ifs <;> simp
  | _ => rfl

/-- Zero is in every format that has small numbers, so that rounding keeps the sign. -/
theorem rounded_nonneg (hq : 0 ≤ q) : 0 ≤ binary32.rounded q := by
  have hzero : binary32.Represents ((0 : ℤ) : ℚ) :=
    binary32.represents_intCast (by decide) (by decide)
  exact_mod_cast binary32.le_rounded hzero (by simpa using hq)

theorem rounded_nonpos (hq : q ≤ 0) : binary32.rounded q ≤ 0 := by
  have hzero : binary32.Represents ((0 : ℤ) : ℚ) :=
    binary32.represents_intCast (by decide) (by decide)
  exact_mod_cast binary32.rounded_le hzero (by simpa using hq)

/-- What is at least a number of the format, which is not too large, is so when it is rounded. -/
theorem finite_le_single (hr : binary32.Represents r) (hlt : |r| < 2 ^ binary32.highest)
    (hle : finite r ≤ x) : finite r ≤ single x := by
  cases x with
  | finite q =>
    have hrounded := binary32.le_rounded hr (finite_le_finite.mp hle)
    rw [single, BinaryFormat.round]
    split_ifs with hbound
    · exact finite_le_finite.mpr hrounded
    · have hpos : ¬q < 0 := by
        intro hneg
        rw [abs_of_nonpos (rounded_nonpos hneg.le)] at hbound
        linarith [(abs_lt.mp hlt).1]
      rw [decide_eq_false hpos]
      rfl
  | _ => exact hle

theorem single_le_finite (hr : binary32.Represents r) (hlt : |r| < 2 ^ binary32.highest)
    (hle : x ≤ finite r) : single x ≤ finite r := by
  cases x with
  | finite q =>
    have hrounded := binary32.rounded_le hr (finite_le_finite.mp hle)
    rw [single, BinaryFormat.round]
    split_ifs with hbound
    · exact finite_le_finite.mpr hrounded
    · have hneg : q < 0 := by
        by_contra hpos
        rw [abs_of_nonneg (rounded_nonneg (not_lt.mp hpos))] at hbound
        linarith [(abs_lt.mp hlt).2]
      rw [decide_eq_true hneg]
      rfl
  | _ => exact hle

/-- The numbers of the format that are not too large are left alone. -/
theorem single_of_represents (hr : binary32.Represents r) (hlt : |r| < 2 ^ binary32.highest) :
    single (finite r) = finite r := by
  rw [single, BinaryFormat.round, binary32.rounded_of_represents hr, if_pos hlt]

theorem single_single (x : Machine) : single (single x) = single x := by
  cases x with
  | finite q =>
    rw [single, BinaryFormat.round]
    split_ifs with hlt
    · exact single_of_represents (binary32.represents_rounded q) hlt
    · rfl
  | _ => rfl

/-- Small integers are numbers of the format. -/
theorem represents_small {n : ℤ} (hn : |n| ≤ 2 ^ 24) :
    binary32.Represents n ∧ |(n : ℚ)| < 2 ^ binary32.highest := by
  refine ⟨binary32.represents_intCast hn (by decide), ?_⟩
  have hcast : |(n : ℚ)| ≤ 2 ^ 24 := by exact_mod_cast hn
  exact hcast.trans_lt (by norm_num [binary32])

/-! ### The laws -/

theorem isNumber_iff : FloatNumber.IsNumber x ↔ x ≠ nan := by
  cases x with
  | nan => exact iff_of_false (not_nan_le _) (not_not.mpr rfl)
  | infinite s => exact iff_of_true (by cases s <;> rfl) Machine.noConfusion
  | finite q => exact iff_of_true (finite_le_finite.mpr le_rfl) Machine.noConfusion

theorem isNumber_of_le (h : x ≤ y) : FloatNumber.IsNumber x ∧ FloatNumber.IsNumber y := by
  rw [isNumber_iff, isNumber_iff]
  constructor
  · rintro rfl
    exact not_nan_le _ h
  · rintro rfl
    exact not_le_nan _ h

theorem isNumber_of_lt (h : x < y) : FloatNumber.IsNumber x ∧ FloatNumber.IsNumber y := by
  rw [isNumber_iff, isNumber_iff]
  constructor
  · rintro rfl
    exact not_nan_lt _ h
  · rintro rfl
    exact not_lt_nan _ h

/-- Numbers are compared as they are ordered. -/
theorem not_lt (hx : x ≠ nan) (hy : y ≠ nan) : ¬x < y ↔ y ≤ x := by
  cases x with
  | nan => exact absurd rfl hx
  | infinite s =>
    cases y with
    | nan => exact absurd rfl hy
    | infinite t => cases s <;> cases t <;> exact decide_eq_decide.mp rfl
    | finite q => cases s <;> exact decide_eq_decide.mp rfl
  | finite p =>
    cases y with
    | nan => exact absurd rfl hy
    | infinite t => cases t <;> exact decide_eq_decide.mp rfl
    | finite q => rw [finite_lt_finite, finite_le_finite, Rat.not_lt]

theorem le_of_lt (h : x < y) : x ≤ y := by
  cases x with
  | nan => exact absurd h (not_nan_lt _)
  | infinite s =>
    cases s <;> cases y with
    | nan => exact absurd h Bool.false_ne_true
    | infinite t => cases t <;> first | rfl | exact absurd h Bool.false_ne_true
    | finite q => first | rfl | exact absurd h Bool.false_ne_true
  | finite p =>
    cases y with
    | nan => exact absurd h Bool.false_ne_true
    | infinite t => cases t <;> first | rfl | exact absurd h Bool.false_ne_true
    | finite q => exact finite_le_finite.mpr (finite_lt_finite.mp h).le

theorem infinite_false_le (h : infinite false ≤ x) : x = infinite false := by
  cases x with
  | infinite s => cases s <;> first | rfl | exact absurd h Bool.false_ne_true
  | _ => exact absurd h Bool.false_ne_true

theorem le_trans {z : Machine} (hxy : x ≤ y) (hyz : y ≤ z) : x ≤ z := by
  cases x with
  | nan => exact absurd hxy (not_nan_le _)
  | infinite s =>
    cases s with
    | false => rwa [infinite_false_le hxy] at hyz
    | true =>
      cases z with
      | nan => exact absurd hyz (not_le_nan _)
      | _ => rfl
  | finite p =>
    cases y with
    | nan => exact absurd hyz (not_nan_le _)
    | infinite t =>
      cases t with
      | false => rwa [infinite_false_le hyz]
      | true => exact absurd hxy Bool.false_ne_true
    | finite q =>
      cases z with
      | nan => exact absurd hyz Bool.false_ne_true
      | infinite t => cases t <;> first | rfl | exact absurd hyz Bool.false_ne_true
      | finite r =>
        exact finite_le_finite.mpr ((finite_le_finite.mp hxy).trans (finite_le_finite.mp hyz))

theorem div_ne_nan (hx : x ≠ nan) (hq : q ≠ 0) : div x (finite q) ≠ nan := by
  cases x with
  | nan => exact absurd rfl hx
  | infinite s => exact Machine.noConfusion
  | finite p =>
    rw [div, if_neg hq]
    exact Machine.noConfusion

theorem finite_div_le (hq : 0 < q) (h : finite p ≤ x) : finite (p / q) ≤ div x (finite q) := by
  cases x with
  | nan => exact absurd h (not_le_nan _)
  | infinite s =>
    cases s with
    | false =>
      rw [div, decide_eq_false hq.not_gt]
      rfl
    | true => exact absurd h Bool.false_ne_true
  | finite r =>
    rw [div, if_neg hq.ne']
    exact finite_le_finite.mpr (div_le_div_of_nonneg_right (finite_le_finite.mp h) hq.le)

theorem div_le_finite (hq : 0 < q) (h : x ≤ finite p) : div x (finite q) ≤ finite (p / q) := by
  cases x with
  | nan => exact absurd h (not_nan_le _)
  | infinite s =>
    cases s with
    | false => exact absurd h Bool.false_ne_true
    | true =>
      rw [div, decide_eq_false hq.not_gt]
      rfl
  | finite r =>
    rw [div, if_neg hq.ne']
    exact finite_le_finite.mpr (div_le_div_of_nonneg_right (finite_le_finite.mp h) hq.le)

/-- Numbers that are equal are the same. -/
theorem eq_of_le_of_le (hxy : x ≤ y) (hyx : y ≤ x) : x = y := by
  cases x with
  | nan => exact absurd hxy (not_nan_le _)
  | infinite s =>
    cases s with
    | false => exact (infinite_false_le hxy).symm
    | true =>
      cases y with
      | infinite t => cases t <;> first | rfl | exact absurd hyx Bool.false_ne_true
      | _ => exact absurd hyx Bool.false_ne_true
  | finite p =>
    cases y with
    | finite q =>
      exact congrArg finite (le_antisymm (finite_le_finite.mp hxy) (finite_le_finite.mp hyx))
    | infinite t =>
      cases t
      · exact absurd hyx Bool.false_ne_true
      · exact absurd hxy Bool.false_ne_true
    | nan => exact absurd hyx (not_nan_le _)

theorem le_and_le_iff : x ≤ y ∧ y ≤ x ↔ x = y ∧ y ≠ nan := by
  constructor
  · exact fun h => ⟨eq_of_le_of_le h.1 h.2, isNumber_iff.mp (isNumber_of_le h.1).2⟩
  · rintro ⟨rfl, hx⟩
    exact ⟨isNumber_iff.mpr hx, isNumber_iff.mpr hx⟩

instance : LawfulFloatNumber Machine where
  ofRat_le_ofRat := finite_le_finite
  isNumber_of_le := isNumber_of_le
  isNumber_of_lt := isNumber_of_lt
  not_lt hx hy := not_lt (isNumber_iff.mp hx) (isNumber_iff.mp hy)
  le_of_lt := le_of_lt
  le_trans := le_trans
  exists_ofRat := exists_finite
  integerPart_ofRat _ := rfl
  isNumber_single := isNumber_iff.trans ((not_congr single_eq_nan_iff).trans isNumber_iff.symm)
  single_single := single_single
  single_ofRat hn := single_of_represents (represents_small hn).1 (represents_small hn).2
  isNumber_div_ofRat hx hq := isNumber_iff.mpr (div_ne_nan (isNumber_iff.mp hx) hq)

end Machine
