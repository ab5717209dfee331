import Mathlib

/-!
# Rounding to a number format

A rounding sends every rational to a representable one, keeps the order and
leaves representable numbers alone.  The formats here have no upper end: twice a
representable number is representable, and an overflow is a question that is
asked about the rounded result.  Under these laws the rounded mean of two
representable numbers lies between them.

One such format is binary, with a fixed number of fraction digits and a smallest
exponent, under rounding to the nearest number with ties to even.
-/

structure Rounding where
  Representable : ℚ -> Prop
  round : ℚ -> ℚ
  monotone : Monotone round
  representable_round : forall value, Representable (round value)
  round_eq : forall value, Representable value -> round value = value
  double : forall value, Representable value -> Representable (2 * value)

namespace Rounding

variable (rounding : Rounding) {low high : ℚ}

/-- The rounded sum lies between the doubles. -/
theorem double_le_round_add (lowFits : rounding.Representable low) (ordered : low ≤ high) :
    2 * low ≤ rounding.round (low + high) := by
  have doubled : 2 * low ≤ low + high := by linarith only [ordered]
  rw [← rounding.round_eq _ (rounding.double low lowFits)]
  exact rounding.monotone doubled

theorem round_add_le_double (highFits : rounding.Representable high) (ordered : low ≤ high) :
    rounding.round (low + high) ≤ 2 * high := by
  have doubled : low + high ≤ 2 * high := by linarith only [ordered]
  rw [← rounding.round_eq _ (rounding.double high highFits)]
  exact rounding.monotone doubled

/-- The rounded half of the rounded sum lies between the summands. -/
theorem le_mean (lowFits : rounding.Representable low) (ordered : low ≤ high) :
    low ≤ rounding.round (rounding.round (low + high) / 2) := by
  have half : low ≤ rounding.round (low + high) / 2 := by
    linarith only [rounding.double_le_round_add lowFits ordered]
  calc
    low = rounding.round low := (rounding.round_eq low lowFits).symm
    _ ≤ rounding.round (rounding.round (low + high) / 2) := rounding.monotone half

theorem mean_le (highFits : rounding.Representable high) (ordered : low ≤ high) :
    rounding.round (rounding.round (low + high) / 2) ≤ high := by
  have half : rounding.round (low + high) / 2 ≤ high := by
    linarith only [rounding.round_add_le_double highFits ordered]
  calc
    rounding.round (rounding.round (low + high) / 2) ≤ rounding.round high :=
      rounding.monotone half
    _ = high := rounding.round_eq high highFits

end Rounding

/-! ## The nearest integer -/

/-- The nearest integer; of two the even one. -/
def nearestEven (value : ℚ) : ℤ :=
  if Int.fract value < 1 / 2 then ⌊value⌋
  else if 1 / 2 < Int.fract value then ⌊value⌋ + 1
  else if ⌊value⌋ % 2 = 0 then ⌊value⌋
  else ⌊value⌋ + 1

theorem nearestEven_intCast (value : ℤ) : nearestEven value = value := by
  have small : Int.fract (value : ℚ) < 1 / 2 := by
    rw [Int.fract_intCast]
    norm_num
  rw [nearestEven, if_pos small, Int.floor_intCast]

theorem floor_le_nearestEven (value : ℚ) : ⌊value⌋ ≤ nearestEven value := by
  unfold nearestEven
  split_ifs <;> omega

theorem nearestEven_le_floor_succ (value : ℚ) : nearestEven value ≤ ⌊value⌋ + 1 := by
  unfold nearestEven
  split_ifs <;> omega

theorem nearestEven_mono : Monotone nearestEven := by
  intro left right ordered
  rcases (Int.floor_mono ordered).lt_or_eq with below | same
  · exact (nearestEven_le_floor_succ left).trans
      ((Int.add_one_le_iff.mpr below).trans (floor_le_nearestEven right))
  · -- over one integer the fractions decide
    have fractions : Int.fract left ≤ Int.fract right := by
      rw [Int.fract, Int.fract, same]
      exact sub_le_sub_right ordered _
    unfold nearestEven
    rw [same]
    split_ifs <;> first | omega | (exfalso; linarith)

theorem nearestEven_neg (value : ℚ) : nearestEven (-value) = -nearestEven value := by
  by_cases whole : Int.fract value = 0
  · have integer : value = (⌊value⌋ : ℚ) := by
      have parts := Int.floor_add_fract value
      rw [whole, add_zero] at parts
      exact parts.symm
    rw [integer, ← Int.cast_neg, nearestEven_intCast, nearestEven_intCast]
  · have floor : ⌊-value⌋ = -⌊value⌋ - 1 := by
      rw [Int.floor_neg, Int.ceil_eq_floor_add_one_iff_notMem value |>.mpr ?_]
      · ring
      · rw [← Int.fract_eq_zero_iff]
        exact whole
    have fraction : Int.fract (-value) = 1 - Int.fract value := Int.fract_neg whole
    unfold nearestEven
    rw [floor, fraction]
    split_ifs <;> first | omega | (exfalso; linarith)

/-! ## Binary formats -/

namespace Binary

/-- The exponent of the last digit that the format keeps of a number. -/
def exponent (digits : Nat) (smallest : ℤ) (value : ℚ) : ℤ :=
  max (Int.log 2 |value| - digits) smallest

def round (digits : Nat) (smallest : ℤ) (value : ℚ) : ℚ :=
  nearestEven (value / 2 ^ exponent digits smallest value) * 2 ^ exponent digits smallest value

/-- A leading digit and `digits` further ones, times a power of two that is not
below the smallest. -/
def Representable (digits : Nat) (smallest : ℤ) (value : ℚ) : Prop :=
  ∃ mantissa place : ℤ, |mantissa| < 2 ^ (digits + 1) ∧ smallest ≤ place ∧
    value = mantissa * 2 ^ place

variable {digits : Nat} {smallest : ℤ}

private theorem power_pos (place : ℤ) : (0 : ℚ) < 2 ^ place :=
  zpow_pos (by norm_num) place

theorem exponent_neg (value : ℚ) :
    exponent digits smallest (-value) = exponent digits smallest value := by
  rw [exponent, abs_neg, exponent]

theorem round_neg (value : ℚ) : round digits smallest (-value) = -round digits smallest value := by
  rw [round, exponent_neg, neg_div, nearestEven_neg, Int.cast_neg, neg_mul, round]

theorem exponent_mono {left right : ℚ} (positive : 0 < left) (ordered : left ≤ right) :
    exponent digits smallest left ≤ exponent digits smallest right := by
  have larger : Int.log 2 |left| ≤ Int.log 2 |right| := by
    rw [abs_of_pos positive, abs_of_pos (positive.trans_le ordered)]
    exact Int.log_mono_right positive ordered
  exact max_le_max_right _ (sub_le_sub_right larger _)

/-- The scaled number has no digits beyond those of the format before the
point. -/
theorem abs_scaled_lt (value : ℚ) :
    |value / 2 ^ exponent digits smallest value| < 2 ^ (digits + 1) := by
  have scale := power_pos (exponent digits smallest value)
  rw [abs_div, abs_of_pos scale, div_lt_iff₀ scale, ← zpow_natCast, ← zpow_add₀ two_ne_zero]
  have reach : Int.log 2 |value| + 1 ≤
      ((digits + 1 : ℕ) : ℤ) + exponent digits smallest value := by
    have kept : Int.log 2 |value| - digits ≤ exponent digits smallest value := le_max_left _ _
    push_cast
    omega
  calc
    |value| < (2 : ℕ) ^ (Int.log 2 |value| + 1) := Int.lt_zpow_succ_log_self (by norm_num) _
    _ ≤ 2 ^ (((digits + 1 : ℕ) : ℤ) + exponent digits smallest value) :=
      zpow_le_zpow_right₀ (by norm_num) reach

theorem representable_round (value : ℚ) :
    Representable digits smallest (round digits smallest value) := by
  have bound : |nearestEven (value / 2 ^ exponent digits smallest value)| ≤ 2 ^ (digits + 1) := by
    have scaled : |value / 2 ^ exponent digits smallest value| ≤ ((2 ^ (digits + 1) : ℤ) : ℚ) := by
      push_cast
      exact (abs_scaled_lt value).le
    rcases abs_le.mp scaled with ⟨above, below⟩
    rw [← Int.cast_neg] at above
    have upper := nearestEven_mono below
    have lower := nearestEven_mono above
    rw [nearestEven_intCast] at upper lower
    exact abs_le.mpr ⟨lower, upper⟩
  have placed : smallest ≤ exponent digits smallest value := le_max_right _ _
  rcases bound.lt_or_eq with inside | full
  · exact ⟨_, _, inside, placed, rfl⟩
  · -- a carry into a further digit moves the point
    have half : forall sign : ℤ, |sign| = 1 ->
        Representable digits smallest
          (((sign * 2 ^ (digits + 1) : ℤ) : ℚ) * 2 ^ exponent digits smallest value) := by
      intro sign unit
      refine ⟨sign * 2 ^ digits, exponent digits smallest value + 1, ?_, by omega, ?_⟩
      · rw [abs_mul, unit, one_mul, abs_of_pos (by positivity)]
        exact pow_lt_pow_right₀ (by norm_num) (Nat.lt_succ_self digits)
      · rw [zpow_add_one₀ two_ne_zero]
        push_cast
        ring
    unfold round
    rcases (abs_eq (by positivity)).mp full with positive | negative
    · rw [positive, ← one_mul ((2 : ℤ) ^ (digits + 1))]
      exact half 1 rfl
    · rw [negative, neg_eq_neg_one_mul]
      exact half (-1) rfl

/-- A representable number is a whole number of last digits. -/
theorem round_of_representable {value : ℚ} (representable : Representable digits smallest value) :
    round digits smallest value = value := by
  rcases representable with ⟨mantissa, place, short, placed, rfl⟩
  by_cases zero : mantissa = 0
  · subst zero
    rw [round, Int.cast_zero, zero_mul, zero_div]
    change ((nearestEven ((0 : ℤ) : ℚ) : ℤ) : ℚ) * _ = 0
    rw [nearestEven_intCast, Int.cast_zero, zero_mul]
  · have nonzero : (0 : ℚ) < |(mantissa : ℚ) * 2 ^ place| :=
      abs_pos.mpr (mul_ne_zero (Int.cast_ne_zero.mpr zero) (power_pos place).ne')
    have small : |(mantissa : ℚ) * 2 ^ place| < ((2 : ℕ) : ℚ) ^ ((digits : ℤ) + 1 + place) := by
      rw [abs_mul, abs_of_pos (power_pos place), Nat.cast_ofNat, zpow_add₀ two_ne_zero]
      apply mul_lt_mul_of_pos_right _ (power_pos place)
      have cast : |(mantissa : ℚ)| < 2 ^ (digits + 1) := by exact_mod_cast short
      rwa [← zpow_natCast] at cast
    have kept : exponent digits smallest (mantissa * 2 ^ place) ≤ place := by
      have log := (Int.lt_zpow_iff_log_lt (by norm_num) nonzero).mp small
      exact max_le (by omega) placed
    rw [round]
    generalize exponent digits smallest (mantissa * 2 ^ place) = last at kept ⊢
    rcases Int.le.dest kept with ⟨further, rfl⟩
    have whole : (mantissa : ℚ) * 2 ^ (last + (further : ℤ)) / 2 ^ last =
        ((mantissa * 2 ^ further : ℤ) : ℚ) := by
      rw [div_eq_iff (power_pos _).ne', zpow_add₀ two_ne_zero, zpow_natCast]
      push_cast
      ring
    rw [whole, nearestEven_intCast, ← whole, div_mul_cancel₀ _ (power_pos _).ne']

/-- Rounding does not pass a whole number of last digits. -/
theorem round_le_whole {value : ℚ} (count : ℤ)
    (below : value ≤ count * 2 ^ exponent digits smallest value) :
    round digits smallest value ≤ count * 2 ^ exponent digits smallest value := by
  have scaled := nearestEven_mono ((div_le_iff₀ (power_pos _)).mpr below)
  rw [nearestEven_intCast] at scaled
  exact mul_le_mul_of_nonneg_right (Int.cast_le.mpr scaled) (power_pos _).le

theorem whole_le_round {value : ℚ} (count : ℤ)
    (above : count * 2 ^ exponent digits smallest value ≤ value) :
    count * 2 ^ exponent digits smallest value ≤ round digits smallest value := by
  have scaled := nearestEven_mono ((le_div_iff₀ (power_pos _)).mpr above)
  rw [nearestEven_intCast] at scaled
  exact mul_le_mul_of_nonneg_right (Int.cast_le.mpr scaled) (power_pos _).le

theorem round_nonneg {value : ℚ} (nonnegative : 0 ≤ value) : 0 ≤ round digits smallest value := by
  have none : ((0 : ℤ) : ℚ) * 2 ^ exponent digits smallest value = 0 := by
    rw [Int.cast_zero, zero_mul]
  rw [← none]
  exact whole_le_round 0 (none.trans_le nonnegative)

/-- A power of two is a whole number of last digits, unless it is smaller than
the last digit. -/
private theorem power_eq_whole {last place : ℤ} (kept : last ≤ place) :
    ∃ count : ℤ, (2 : ℚ) ^ place = count * 2 ^ last := by
  rcases Int.le.dest kept with ⟨places, rfl⟩
  refine ⟨2 ^ places, ?_⟩
  rw [zpow_add₀ two_ne_zero, zpow_natCast, mul_comm]
  push_cast
  rfl

/-- The power of two at the leading digit of the larger number separates two
numbers that keep different last digits. -/
private theorem round_le_of_exponent_lt {left right : ℚ} (positive : 0 < left)
    (ordered : left ≤ right)
    (finer : exponent digits smallest left < exponent digits smallest right) :
    round digits smallest left ≤ round digits smallest right := by
  have rightPositive := positive.trans_le ordered
  have normal : exponent digits smallest right = Int.log 2 |right| - digits := by
    apply max_eq_left
    by_contra subnormal
    have least : exponent digits smallest right = smallest := max_eq_right (not_le.mp subnormal).le
    exact absurd (le_max_right _ _) (not_le.mpr (least ▸ finer))
  have shorter : Int.log 2 |left| - digits ≤ exponent digits smallest left := le_max_left _ _
  have above : (2 : ℚ) ^ Int.log 2 |right| ≤ round digits smallest right := by
    rcases power_eq_whole (show exponent digits smallest right ≤ Int.log 2 |right| by omega) with
      ⟨count, whole⟩
    have leading : (2 : ℚ) ^ Int.log 2 |right| ≤ right := by
      rw [abs_of_pos rightPositive]
      exact_mod_cast Int.zpow_log_le_self (b := 2) (by norm_num) rightPositive
    rw [whole] at leading ⊢
    exact whole_le_round count leading
  have below : round digits smallest left ≤ 2 ^ Int.log 2 |right| := by
    rcases power_eq_whole (show exponent digits smallest left ≤ Int.log 2 |right| by omega) with
      ⟨count, whole⟩
    have leading : left ≤ (2 : ℚ) ^ Int.log 2 |right| := by
      calc
        left = |left| := (abs_of_pos positive).symm
        _ ≤ 2 ^ (Int.log 2 |left| + 1) := by
          exact_mod_cast (Int.lt_zpow_succ_log_self (b := 2) (by norm_num) |left|).le
        _ ≤ 2 ^ Int.log 2 |right| := zpow_le_zpow_right₀ (by norm_num) (by omega)
    rw [whole] at leading ⊢
    exact round_le_whole count leading
  exact below.trans above

private theorem round_mono_of_pos {left right : ℚ} (positive : 0 < left) (ordered : left ≤ right) :
    round digits smallest left ≤ round digits smallest right := by
  have coarser : exponent digits smallest left ≤ exponent digits smallest right :=
    exponent_mono positive ordered
  rcases coarser.lt_or_eq with finer | same
  · exact round_le_of_exponent_lt positive ordered finer
  · unfold round
    rw [same]
    apply mul_le_mul_of_nonneg_right _ (power_pos _).le
    exact_mod_cast nearestEven_mono (div_le_div_of_nonneg_right ordered (power_pos _).le)

theorem round_mono : Monotone (round digits smallest) := by
  intro left right ordered
  rcases lt_or_ge 0 left with positive | nonpositive
  · exact round_mono_of_pos positive ordered
  · rcases lt_or_ge right 0 with negative | nonnegative
    · have mirrored : round digits smallest (-right) ≤ round digits smallest (-left) :=
        round_mono_of_pos (neg_pos.mpr negative) (neg_le_neg ordered)
      rw [round_neg, round_neg] at mirrored
      exact neg_le_neg_iff.mp mirrored
    · have mirrored : 0 ≤ round digits smallest (-left) := round_nonneg (neg_nonneg.mpr nonpositive)
      rw [round_neg] at mirrored
      exact (neg_nonneg.mp mirrored).trans (round_nonneg nonnegative)

end Binary

namespace Rounding

/-- The binary format with a leading digit, `digits` further ones and a smallest
exponent. -/
def binary (digits : Nat) (smallest : ℤ) : Rounding where
  Representable := Binary.Representable digits smallest
  round := Binary.round digits smallest
  monotone := Binary.round_mono
  representable_round := Binary.representable_round
  round_eq := fun _value representable => Binary.round_of_representable representable
  double := by
    rintro value ⟨mantissa, place, short, placed, rfl⟩
    refine ⟨mantissa, place + 1, short, by omega, ?_⟩
    rw [zpow_add_one₀ two_ne_zero]
    ring

end Rounding
