import ArbutusEngine.Host
import Mathlib.Algebra.Order.Round
import Mathlib.Data.Rat.Floor
import Mathlib.Tactic.Linarith
import Mathlib.Tactic.NormNum
import Mathlib.Tactic.Ring

/-!
# Rounding, truncating and clamping

A number that a client sends reaches a property through one of several conversions: it is truncated,
rounded to an integer, or rounded to two decimals, and at last clamped to the limits of the
property. This file says what the conversions return where C++ defines them, and when two of them
agree after the clamp.

## Main results

* `truncate_of_nonneg`, `roundHalfAway_of_nonneg`: on non-negative numbers, in terms of the floor.
* `toNat_floatToUnsigned`, `toInt_floatToInt`: the conversions return what they truncate to, where
  that is in range.
* `isOfClamp_iff`: what is relied on of `ofClamp` determines it.
* `ofClamp_mem_iff`: it keeps numbers within its limits, and nothing else.
* `ofClamp_truncate_eq_ofClamp_round_iff`: truncating and rounding agree after the clamp.
* `ofClamp_roundWithPrecision_eq_iff`: so do rounding to two decimals and not rounding at all.
-/

open FloatNumber (ofRat single IsNumber)

namespace ArbutusEngine

variable {q lo hi : ℚ}

/-! ### Clamping -/

theorem ofClamp_of_mem (hlo : lo ≤ q) (hhi : q ≤ hi) : ofClamp q lo hi = q := by
  rw [ofClamp, if_neg (not_lt.mpr hlo), if_neg (not_lt.mpr hhi)]

theorem ofClamp_of_le (h : lo ≤ hi) (hq : hi ≤ q) : ofClamp q lo hi = hi := by
  rw [ofClamp, if_neg (not_lt.mpr (h.trans hq))]
  split_ifs with hlt
  · rfl
  · linarith

theorem ofClamp_of_ge (hq : q ≤ lo) (h : lo ≤ hi) : ofClamp q lo hi = lo := by
  rw [ofClamp]
  split_ifs <;> linarith

section lawful

variable {N : Type} [FloatNumber N] {v : N}

/-- What is relied on of `ofClamp`, a function of openFrameworks. -/
structure IsOfClamp (clamp : N → N → N → N) : Prop where
  below {value min max : N} : value < min → clamp value min max = min
  above {value min max : N} : ¬value < min → max < value → clamp value min max = max
  otherwise {value min max : N} : ¬value < min → ¬max < value → clamp value min max = value

/-- Nothing else is relied on: every function that behaves so is the one of the model. -/
theorem isOfClamp_iff {clamp : N → N → N → N} : IsOfClamp clamp ↔ clamp = ofClamp := by
  constructor
  · intro h
    funext value min max
    rw [ofClamp]
    split_ifs with hlt hgt
    · exact h.below hlt
    · exact h.above hlt hgt
    · exact h.otherwise hlt hgt
  · rintro rfl
    exact ⟨fun hlt => if_pos hlt, fun hlt hgt => (if_neg hlt).trans (if_pos hgt),
      fun hlt hgt => (if_neg hlt).trans (if_neg hgt)⟩

variable [LawfulFloatNumber N]

/-- The clamp keeps numbers within its limits, and nothing else. -/
theorem ofClamp_mem_iff (h : lo ≤ hi) :
    ofRat lo ≤ ofClamp v (ofRat lo) (ofRat hi) ∧ ofClamp v (ofRat lo) (ofRat hi) ≤ ofRat hi ↔
      IsNumber v := by
  have hlohi : (ofRat lo : N) ≤ ofRat hi := LawfulFloatNumber.ofRat_le_ofRat.mpr h
  rw [ofClamp]
  split_ifs with hlt hgt
  · exact iff_of_true ⟨isNumber_ofRat lo, hlohi⟩ (LawfulFloatNumber.isNumber_of_lt hlt).1
  · exact iff_of_true ⟨hlohi, isNumber_ofRat hi⟩ (LawfulFloatNumber.isNumber_of_lt hgt).2
  · refine ⟨fun hmem => (LawfulFloatNumber.isNumber_of_le hmem.1).2, fun hv => ⟨?_, ?_⟩⟩
    · exact (LawfulFloatNumber.not_lt hv (isNumber_ofRat lo)).mp hlt
    · exact (LawfulFloatNumber.not_lt (isNumber_ofRat hi) hv).mp hgt

/-- The clamp does not make a number of what is none. -/
theorem isNumber_ofClamp_iff :
    IsNumber (ofClamp v (ofRat lo) (ofRat hi)) ↔ IsNumber v := by
  rw [ofClamp]
  split_ifs with hlt hgt
  · exact iff_of_true (isNumber_ofRat lo) (LawfulFloatNumber.isNumber_of_lt hlt).1
  · exact iff_of_true (isNumber_ofRat hi) (LawfulFloatNumber.isNumber_of_lt hgt).2
  · exact Iff.rfl

/-- A clamped number lies below another one exactly if the number itself or the upper limit does. -/
theorem ofClamp_le_iff {x : N} (hx : ofRat lo ≤ x) (hv : IsNumber v) :
    ofClamp v (ofRat lo) (ofRat hi) ≤ x ↔ v ≤ x ∨ ofRat hi ≤ x := by
  rw [ofClamp]
  split_ifs with hlt hgt
  · refine iff_of_true hx (.inl ?_)
    exact LawfulFloatNumber.le_trans (LawfulFloatNumber.le_of_lt hlt) hx
  · refine ⟨.inr, fun hor => hor.elim (fun hvx => ?_) id⟩
    exact LawfulFloatNumber.le_trans (LawfulFloatNumber.le_of_lt hgt) hvx
  · have hvhi := (LawfulFloatNumber.not_lt (isNumber_ofRat hi) hv).mp hgt
    exact ⟨.inl, fun hor => hor.elim id fun hle => LawfulFloatNumber.le_trans hvhi hle⟩

/-- A number within the limits is left alone. -/
theorem ofClamp_of_between (hlo : ofRat lo ≤ v) (hhi : v ≤ ofRat hi) :
    ofClamp v (ofRat lo) (ofRat hi) = v := by
  have hv := (LawfulFloatNumber.isNumber_of_le hlo).2
  rw [ofClamp, if_neg ((LawfulFloatNumber.not_lt hv (isNumber_ofRat lo)).mpr hlo),
    if_neg ((LawfulFloatNumber.not_lt (isNumber_ofRat hi) hv).mpr hhi)]

end lawful

/-! ### Truncating -/

theorem truncate_of_nonneg (hq : 0 ≤ q) : truncate q = ⌊q⌋ := by
  rw [truncate, Rat.floor_def', Int.tdiv_eq_ediv_of_nonneg (Rat.num_nonneg.mpr hq)]

theorem truncate_neg (q : ℚ) : truncate (-q) = -truncate q := by
  rw [truncate, truncate, Rat.neg_num, Rat.neg_den, Int.neg_tdiv]

@[simp] theorem truncate_intCast (n : ℤ) : truncate n = n := by
  simp [truncate]

/-- `(unsigned int) q`, where C++ defines it. -/
theorem toNat_floatToUnsigned (h0 : 0 ≤ truncate q) (hlt : truncate q < 2 ^ 32) :
    ((floatToUnsigned q).toNat : ℤ) = truncate q := by
  rw [floatToUnsigned_rat, if_pos ⟨by omega, by omega⟩]
  have hmod : (truncate q % 2 ^ 32).toNat = (truncate q).toNat := by omega
  rw [UInt32.ofInt, hmod, UInt32.toNat_ofNat', Nat.mod_eq_of_lt (by omega)]
  omega

theorem toNat_floatToUnsigned_le (h0 : 0 ≤ q) {n : ℕ} (hn : q ≤ n) (hlt : n < 2 ^ 32) :
    (floatToUnsigned q).toNat ≤ n := by
  have hfloor : truncate q ≤ n := by
    rw [truncate_of_nonneg h0]
    exact_mod_cast (Int.floor_le_iff.mpr (by push_cast; linarith) : ⌊q⌋ ≤ n)
  have hnonneg : 0 ≤ truncate q := by
    rw [truncate_of_nonneg h0]
    exact Int.floor_nonneg.mpr h0
  have heq := toNat_floatToUnsigned hnonneg (by omega)
  omega

theorem floatToUnsigned_toNat (x : UInt32) : floatToUnsigned (x.toNat : ℚ) = x := by
  apply UInt32.toNat_inj.mp
  have hlt := x.toNat_lt
  have h := toNat_floatToUnsigned (q := ((x.toNat : ℤ) : ℚ)) (by rw [truncate_intCast]; omega)
    (by rw [truncate_intCast]; omega)
  rw [truncate_intCast] at h
  exact_mod_cast h

/-- `(int) q`, where C++ defines it. -/
theorem toInt_floatToInt (h0 : -2 ^ 31 ≤ truncate q) (hlt : truncate q < 2 ^ 31) :
    (floatToInt q).toInt = truncate q := by
  rw [floatToInt_rat, if_pos ⟨h0, hlt⟩, Int32.toInt_ofInt, Int32.size]
  exact Int.bmod_eq_of_le (by omega) (by omega)

/-- An integer that is converted to `int` and on to `unsigned int`, where it fits the latter. -/
theorem toNat_toUInt32_ofInt {n : ℤ} (h0 : 0 ≤ n) (hlt : n < 2 ^ 32) :
    ((Int32.ofInt n).toUInt32.toNat : ℤ) = n := by
  change ((BitVec.ofInt 32 n).toNat : ℤ) = n
  rw [BitVec.toNat_ofInt]
  omega

theorem toUInt32_ofInt_toNat (x : UInt32) : (Int32.ofInt x.toNat).toUInt32 = x := by
  apply UInt32.toNat_inj.mp
  have h := toNat_toUInt32_ofInt (n := x.toNat) (by omega) (by exact_mod_cast x.toNat_lt)
  exact_mod_cast h

/-! ### Rounding -/

theorem roundHalfAway_of_nonneg (hq : 0 ≤ q) : roundHalfAway q = ⌊q + 1 / 2⌋ := if_pos hq

theorem roundHalfAway_of_neg (hq : q < 0) : roundHalfAway q = ⌈q - 1 / 2⌉ := by
  rw [roundHalfAway, if_neg (not_le.mpr hq), Rat.ceil_eq_neg_floor_neg]
  change -⌊-(q - 1 / 2)⌋ = ⌈q - 1 / 2⌉
  rw [Int.floor_neg, neg_neg]

@[simp] theorem roundHalfAway_intCast (n : ℤ) : roundHalfAway n = n := by
  rcases le_or_gt 0 (n : ℚ) with hn | hn
  · rw [roundHalfAway_of_nonneg hn, Int.floor_eq_iff]
    constructor <;> linarith
  · rw [roundHalfAway_of_neg hn, Int.ceil_eq_iff]
    constructor <;> linarith

/-- Rounding moves a number by at most one half. -/
theorem roundHalfAway_mem (q : ℚ) :
    q - 1 / 2 ≤ roundHalfAway q ∧ (roundHalfAway q : ℚ) ≤ q + 1 / 2 := by
  rcases le_or_gt 0 q with hq | hq
  · rw [roundHalfAway_of_nonneg hq]
    have hlt := Int.lt_floor_add_one (q + 1 / 2)
    exact ⟨by linarith, Int.floor_le _⟩
  · rw [roundHalfAway_of_neg hq]
    have hlt := Int.ceil_lt_add_one (q - 1 / 2)
    exact ⟨Int.le_ceil _, by linarith⟩

/-- A number that is rounded to an `unsigned int` is truncated to the same one if it is negative. -/
theorem roundHalfAway_eq_truncate_of_neg (hq : q < 0) (h0 : 0 ≤ roundHalfAway q) :
    roundHalfAway q = 0 ∧ truncate q = 0 := by
  rw [roundHalfAway_of_neg hq] at h0 ⊢
  have hgt : -1 / 2 < q := by
    have hcast : (0 : ℚ) ≤ ⌈q - 1 / 2⌉ := by exact_mod_cast h0
    have hlt := Int.ceil_lt_add_one (q - 1 / 2)
    linarith
  refine ⟨Int.ceil_eq_iff.mpr ⟨by push_cast; linarith, by push_cast; linarith⟩, ?_⟩
  have hneg : truncate (-q) = 0 := by
    rw [truncate_of_nonneg (by linarith), Int.floor_eq_iff]
    exact ⟨by push_cast; linarith, by push_cast; linarith⟩
  rw [truncate_neg] at hneg
  omega

/-- Truncating and rounding a number that both can be converted to `unsigned int` give the same
value in the limits `0` and `n`, unless the number lies below `n` and is rounded up. -/
theorem ofClamp_truncate_eq_ofClamp_round_iff {n : ℕ} (h0 : 0 ≤ roundHalfAway q) :
    ofClamp (truncate q : ℚ) 0 n = ofClamp (roundHalfAway q : ℚ) 0 n ↔
      q < 0 ∨ n ≤ q ∨ Int.fract q < 1 / 2 := by
  have hn : (0 : ℚ) ≤ n := Nat.cast_nonneg n
  rcases lt_or_ge q 0 with hneg | hnonneg
  · obtain ⟨hround, htrunc⟩ := roundHalfAway_eq_truncate_of_neg hneg h0
    simp [hround, htrunc, hneg]
  · have hfloor : (⌊q⌋ : ℚ) ≤ q := Int.floor_le q
    have hsum := Int.floor_add_fract q
    have hfloor0 : (0 : ℚ) ≤ ⌊q⌋ := by exact_mod_cast Int.floor_nonneg.mpr hnonneg
    rw [truncate_of_nonneg hnonneg, roundHalfAway_of_nonneg hnonneg]
    rcases lt_or_ge (Int.fract q) (1 / 2) with hdown | hup
    · have heq : ⌊q + 1 / 2⌋ = ⌊q⌋ := by
        rw [Int.floor_eq_iff]
        exact ⟨by linarith, by linarith⟩
      simp only [heq, hdown, or_true]
    · have heq : ⌊q + 1 / 2⌋ = ⌊q⌋ + 1 := by
        have hlt := Int.fract_lt_one q
        rw [Int.floor_eq_iff]
        exact ⟨by push_cast; linarith, by push_cast; linarith⟩
      rw [heq]
      rcases le_or_gt (n : ℚ) q with hle | hgt
      · have hfloorn : (n : ℚ) ≤ ⌊q⌋ := by exact_mod_cast Int.le_floor.mpr (by exact_mod_cast hle)
        rw [ofClamp_of_le hn hfloorn, ofClamp_of_le hn (by push_cast; linarith)]
        simp [hle]
      · have hfloorn : (⌊q⌋ : ℚ) + 1 ≤ n := by
          have : ⌊q⌋ < n := Int.floor_lt.mpr (by exact_mod_cast hgt)
          exact_mod_cast this
        rw [ofClamp_of_mem hfloor0 (by linarith),
          ofClamp_of_mem (by push_cast; linarith) (by push_cast; linarith)]
        constructor
        · intro h
          push_cast at h
          linarith
        · rintro (h | h | h) <;> linarith

/-- `roundWithPrecision` to two decimals, where C++ defines it. -/
theorem roundWithPrecision_two (h0 : -2 ^ 31 ≤ roundHalfAway (q * 100))
    (hlt : roundHalfAway (q * 100) < 2 ^ 31) :
    roundWithPrecision q 2 = (roundHalfAway (q * 100) : ℚ) / 100 := by
  have hfactor : (10 : ℚ) ^ 2 = 100 := by norm_num
  simp only [roundWithPrecision, FloatNumber.ofRat_rat, FloatNumber.single_rat, FloatNumber.mul_rat,
    FloatNumber.div_rat, FloatNumber.round_rat, hfactor]
  rw [toInt_floatToInt (by simpa using h0) (by simpa using hlt), truncate_intCast]

/-- Rounding always gives a number. -/
theorem isNumber_roundWithPrecision {N : Type} [FloatNumber N] [LawfulFloatNumber N] (input : N)
    (precision : ℕ) : IsNumber (roundWithPrecision input precision) := by
  have hfactor : ((10 ^ precision : ℚ)) ≠ 0 := pow_ne_zero _ (by norm_num)
  refine LawfulFloatNumber.isNumber_single.mpr (LawfulFloatNumber.isNumber_div_ofRat ?_ hfactor)
  exact LawfulFloatNumber.isNumber_single.mpr (isNumber_ofRat _)

/-- Rounding a number to two decimals changes its clamp to `-1` and `1` exactly if the number lies
between them and has more decimals. -/
theorem ofClamp_roundWithPrecision_eq_iff (h0 : -2 ^ 31 ≤ roundHalfAway (q * 100))
    (hlt : roundHalfAway (q * 100) < 2 ^ 31) :
    ofClamp (roundWithPrecision q 2) (-1) 1 = ofClamp q (-1) 1 ↔
      1 ≤ |q| ∨ ∃ n : ℤ, q * 100 = n := by
  rw [roundWithPrecision_two h0 hlt]
  obtain ⟨hge, hle⟩ := roundHalfAway_mem (q * 100)
  rcases le_or_gt 1 |q| with habs | habs
  · simp only [habs, true_or, iff_true]
    rcases le_abs'.mp habs with hq | hq
    · have hround : roundHalfAway (q * 100) ≤ -100 := by
        have : (roundHalfAway (q * 100) : ℚ) < ((-99 : ℤ) : ℚ) := by push_cast; linarith
        have := Int.cast_lt.mp this
        omega
      have hcast : (roundHalfAway (q * 100) : ℚ) ≤ -100 := by exact_mod_cast hround
      rw [ofClamp_of_ge hq (by norm_num), ofClamp_of_ge (by linarith) (by norm_num)]
    · have hround : 100 ≤ roundHalfAway (q * 100) := by
        have : ((99 : ℤ) : ℚ) < (roundHalfAway (q * 100) : ℚ) := by push_cast; linarith
        have := Int.cast_lt.mp this
        omega
      have hcast : (100 : ℚ) ≤ roundHalfAway (q * 100) := by exact_mod_cast hround
      rw [ofClamp_of_le (by norm_num) hq, ofClamp_of_le (by norm_num) (by linarith)]
  · obtain ⟨hlo, hhi⟩ := abs_lt.mp habs
    have hround : -100 ≤ roundHalfAway (q * 100) ∧ roundHalfAway (q * 100) ≤ 100 := by
      have h₁ : ((-101 : ℤ) : ℚ) < (roundHalfAway (q * 100) : ℚ) := by push_cast; linarith
      have h₂ : (roundHalfAway (q * 100) : ℚ) < ((101 : ℤ) : ℚ) := by push_cast; linarith
      have h₁ := Int.cast_lt.mp h₁
      have h₂ := Int.cast_lt.mp h₂
      omega
    have hcast : (-100 : ℚ) ≤ roundHalfAway (q * 100) ∧ (roundHalfAway (q * 100) : ℚ) ≤ 100 :=
      ⟨by exact_mod_cast hround.1, by exact_mod_cast hround.2⟩
    rw [ofClamp_of_mem (by linarith) (by linarith), ofClamp_of_mem hlo.le hhi.le]
    constructor
    · intro h
      exact Or.inr ⟨roundHalfAway (q * 100), by linarith⟩
    · rintro (h | ⟨n, hn⟩)
      · exact absurd h (not_le.mpr habs)
      · rw [hn, roundHalfAway_intCast]
        linarith

end ArbutusEngine
