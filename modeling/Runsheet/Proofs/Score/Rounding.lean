/-
Correct rounding. A whole number of any size is kept as a double: as the
one nearest to it, of two equally near ones as the one whose last bit is
0; and where the nearest would be past the largest double, as infinity.

# The argument

Around a number of more than 53 bits the numbers with a significand of 53
bits are the multiples of its spacing. Every other number with so short a
significand lies below those multiples, so that one of them is nearer
(`HasPrecision.multiple_or_lt`). Rounding is therefore a matter of a
quotient: the rounded one is off by half a unit at most, and any other by
half a unit at least (`two_mul_dist_le`, `le_two_mul_dist`). Only if both
are half a unit is there a tie, and then the rounded one is even. Rounding
up to the next power of two needs no case of its own but one: the
significand halves, and stays even (`exists_significand`).

# Order and threshold

Nothing but the distances is needed to see that rounding keeps the order:
if a smaller number went to the larger of two, it would not lie below
their middle, nor the larger number above it (`round_mono`). So where
infinity begins can be found by rounding two numbers, the threshold and
the one before it (`round_lt_bound_iff`).

# One nearest double

Two doubles that both are nearest to a number are its neighbours at the
same distance and would both have to be even. But between two even doubles
stands another one (`exists_isDouble_between`), and that would be nearer.
So "the nearest double" says which (`IsNearest.unique`).
-/
import Mathlib.Algebra.Order.Field.Power
import Mathlib.Data.ENat.Basic
import Mathlib.Tactic.Linarith
import Mathlib.Tactic.Positivity
import Mathlib.Tactic.Ring
import Mathlib.Tactic.Zify
import Runsheet.Score

namespace Runsheet

namespace Score

-- ================================================= numbers of 53 bits

/-- The numbers with a significand of 53 bits and a sign, whatever their
exponent. -/
def HasPrecision (x : ℚ) : Prop := ∃ m e : ℤ, |m| < 2 ^ precision ∧ x = m * 2 ^ e

/-- The finite numbers of the double format: the exponent is bounded, too. -/
def IsDouble (x : ℚ) : Prop :=
  ∃ m e : ℤ, |m| < 2 ^ precision ∧ -1074 ≤ e ∧ e ≤ 971 ∧ x = m * 2 ^ e

/-- The doubles whose last bit is 0. The significand is written with its
leading bit, which is missing below the smallest exponent only. -/
def IsEven (x : ℚ) : Prop :=
  ∃ m e : ℤ, Even m ∧ |m| < 2 ^ precision ∧ (2 ^ (precision - 1) ≤ |m| ∨ e = -1074)
    ∧ -1074 ≤ e ∧ e ≤ 971 ∧ x = m * 2 ^ e

theorem IsDouble.hasPrecision {x : ℚ} (h : IsDouble x) : HasPrecision x := by
  obtain ⟨m, e, hm, -, -, hx⟩ := h
  exact ⟨m, e, hm, hx⟩

/-- The double nearest to a number, of two equally near ones the even one. -/
structure IsNearest (x y : ℚ) : Prop where
  isDouble : IsDouble y
  le : ∀ z, IsDouble z → |x - y| ≤ |x - z|
  isEven : ∀ z, IsDouble z → z ≠ y → |x - z| = |x - y| → IsEven y

-- ==================================================== the rounded quotient

variable {n unit : ℕ}

/-- The rounded quotient is off by half a unit at most. -/
theorem two_mul_dist_le (h : 0 < unit) :
    2 * |(n : ℤ) - divNearestEven n unit * unit| ≤ unit := by
  obtain ⟨hlow, hhigh⟩ := divNearestEven_mul_le (n := n) h
  zify at hlow hhigh
  rcases abs_cases ((n : ℤ) - divNearestEven n unit * unit) with ⟨ha, -⟩ | ⟨ha, -⟩
  · rw [ha]
    linarith
  · rw [ha]
    linarith

/-- Every other quotient is off by half a unit at least. -/
theorem le_two_mul_dist (h : 0 < unit) {j : ℤ} (hj : j ≠ divNearestEven n unit) :
    (unit : ℤ) ≤ 2 * |(n : ℤ) - j * unit| := by
  have hdist := two_mul_dist_le (n := n) h
  have hstep : (unit : ℤ) ≤ |j * unit - divNearestEven n unit * unit| := by
    rw [← sub_mul, abs_mul, Nat.abs_cast]
    have hone : 1 ≤ |j - divNearestEven n unit| := Int.one_le_abs (sub_ne_zero.2 hj)
    nlinarith
  have htriangle := abs_sub_le (j * unit : ℤ) n (divNearestEven n unit * unit)
  rw [abs_sub_comm (j * unit : ℤ) n] at htriangle
  linarith

/-- If half a unit is left, the rounded quotient is the even one. -/
theorem even_divNearestEven (h : 0 < unit)
    (htie : 2 * |(n : ℤ) - divNearestEven n unit * unit| = unit) :
    Even (divNearestEven n unit) := by
  have hn : (n : ℤ) = (n / unit : ℕ) * unit + (n % unit : ℕ) := by
    rw [mul_comm]
    exact_mod_cast (Nat.div_add_mod n unit).symm
  have hrest : n % unit < unit := Nat.mod_lt n h
  rw [divNearestEven] at htie ⊢
  split at htie
  · -- the remainder is half a unit in both cases: up from an odd quotient, down from
    -- an even one
    next hup =>
      rw [if_pos hup]
      have hleft : (n / unit + 1 : ℕ) * unit - (n : ℤ) = unit - (n % unit : ℕ) := by
        rw [hn]
        push_cast
        ring
      rw [abs_sub_comm, hleft, abs_of_nonneg (by omega)] at htie
      rw [Nat.even_add_one, Nat.even_iff]
      rcases hup with hup | ⟨-, hodd⟩ <;> omega
  · next hdown =>
      rw [if_neg hdown]
      have hleft : (n : ℤ) - (n / unit : ℕ) * unit = (n % unit : ℕ) := by linarith
      rw [hleft, Nat.abs_cast] at htie
      have hhalf : 2 * (n % unit) = unit := by exact_mod_cast htie
      rw [Nat.even_iff]
      by_contra hodd
      exact hdown (Or.inr ⟨hhalf, by omega⟩)

-- ============================================================== the spacing

theorem spacing_pos (n : ℕ) : 0 < spacing n := Nat.pow_pos (by decide)

/-- A number of more than 53 bits lies where the multiples of the spacing
have a significand of 53 bits. -/
theorem spacing_bounds (h : 2 ^ precision ≤ n) :
    2 ^ (precision - 1) * spacing n ≤ n ∧ n < 2 ^ precision * spacing n := by
  have hn : n ≠ 0 := by
    intro hzero
    rw [hzero] at h
    exact absurd h (by decide)
  -- at and above the precision the exponent of the spacing is no truncated
  -- difference
  have hlog : precision ≤ n.log2 := (Nat.le_log2 hn).2 h
  have hlow : 2 ^ (precision - 1) * spacing n = 2 ^ n.log2 := by
    rw [spacing, Nat.pow_eq, ← pow_add]
    congr 1
    rw [precision] at hlog ⊢
    omega
  have hhigh : 2 ^ precision * spacing n = 2 ^ (n.log2 + 1) := by
    rw [spacing, Nat.pow_eq, ← pow_add]
    congr 1
    omega
  rw [hlow, hhigh]
  exact ⟨Nat.log2_self_le hn, Nat.lt_log2_self⟩

/-- Rounded to the spacing at its own size, a number has as many digits as
the precision gives, or is the next power of two. -/
theorem divNearestEven_spacing_bounds (h : 2 ^ precision ≤ n) :
    2 ^ (precision - 1) ≤ divNearestEven n (spacing n)
      ∧ divNearestEven n (spacing n) ≤ 2 ^ precision := by
  obtain ⟨hlow, hhigh⟩ := spacing_bounds h
  have hlow' : 2 ^ (precision - 1) ≤ n / spacing n :=
    (Nat.le_div_iff_mul_le (spacing_pos n)).2 hlow
  have hhigh' : n / spacing n < 2 ^ precision :=
    (Nat.div_lt_iff_lt_mul (spacing_pos n)).2 hhigh
  rw [divNearestEven]
  split
  · omega
  · omega

/-- A rounded number has a significand of exactly 53 bits, if it has not
fewer to begin with. Rounding up to the next power of two halves the
significand and keeps it even. -/
theorem exists_significand (h : 2 ^ precision ≤ n) :
    ∃ m e : ℕ, (2 ^ (precision - 1) ≤ m ∧ m < 2 ^ precision) ∧ round n = m * 2 ^ e
      ∧ (Even (divNearestEven n (spacing n)) → Even m) := by
  obtain ⟨hlow, hhigh⟩ := divNearestEven_spacing_bounds h
  by_cases hcarry : divNearestEven n (spacing n) = 2 ^ precision
  · refine ⟨2 ^ (precision - 1), n.log2 + 1 - precision + 1, by decide, ?_, fun _ => by decide⟩
    rw [round, hcarry, spacing, Nat.pow_eq, precision]
    ring
  · exact ⟨divNearestEven n (spacing n), n.log2 + 1 - precision, ⟨hlow, by omega⟩, rfl, id⟩

theorem abs_natCast_lt {m k : ℕ} (h : m < 2 ^ k) : |(m : ℤ)| < 2 ^ k := by
  rw [Nat.abs_cast]
  exact_mod_cast h

theorem natCast_mul_pow (m e : ℕ) : ((m * 2 ^ e : ℕ) : ℚ) = (m : ℤ) * 2 ^ (e : ℤ) := by
  push_cast
  rw [zpow_natCast]

/-- What is rounded has the precision it is rounded to. -/
theorem hasPrecision_round (n : ℕ) : HasPrecision (round n) := by
  by_cases h : 2 ^ precision ≤ n
  · obtain ⟨m, e, ⟨-, hm⟩, hround, -⟩ := exists_significand h
    exact ⟨m, e, abs_natCast_lt hm, by rw [hround, natCast_mul_pow]⟩
  · rw [round_of_lt (not_le.1 h)]
    exact ⟨n, 0, abs_natCast_lt (not_le.1 h), by simp⟩

-- ================================================================= distances

/-- A multiple of a power of two is one of every smaller power. -/
theorem mul_zpow_add (m e : ℤ) (i : ℕ) : (m : ℚ) * 2 ^ (e + i) = (m * 2 ^ i : ℤ) * 2 ^ e := by
  rw [zpow_add₀ two_ne_zero, zpow_natCast]
  push_cast
  ring

/-- A number of 53 bits is a multiple of a power of two, or lies below the
multiples that have a significand of 53 bits. -/
theorem HasPrecision.multiple_or_lt {z : ℚ} (h : HasPrecision z) (k : ℕ) :
    (∃ j : ℤ, z = j * 2 ^ k) ∨ z < 2 ^ (precision - 1) * 2 ^ k := by
  obtain ⟨m, e, hm, rfl⟩ := h
  rcases le_or_gt (k : ℤ) e with he | he
  · left
    obtain ⟨i, rfl⟩ := Int.le.dest he
    exact ⟨m * 2 ^ i, by rw [mul_zpow_add, zpow_natCast]⟩
  · -- in finer units no significand is large enough to reach the bound
    right
    have hpos : (0 : ℚ) < 2 ^ e := zpow_pos two_pos e
    have hm' : (m : ℚ) < 2 ^ precision := by exact_mod_cast (le_abs_self m).trans_lt hm
    have he' : (2 : ℚ) ^ e ≤ 2 ^ ((k : ℤ) - 1) := zpow_le_zpow_right₀ one_le_two (by omega)
    have hhalf : (2 : ℚ) ^ ((k : ℤ) - 1) * 2 = 2 ^ k := by
      rw [← zpow_add_one₀ two_ne_zero, sub_add_cancel, zpow_natCast]
    calc (m : ℚ) * 2 ^ e < 2 ^ precision * 2 ^ e := mul_lt_mul_of_pos_right hm' hpos
      _ ≤ 2 ^ precision * 2 ^ ((k : ℤ) - 1) := mul_le_mul_of_nonneg_left he' (by positivity)
      _ = 2 ^ (precision - 1) * (2 ^ ((k : ℤ) - 1) * 2) := by rw [precision]; ring
      _ = 2 ^ (precision - 1) * 2 ^ k := by rw [hhalf]

/-- Rounding moves a number by half the spacing at most. -/
theorem two_mul_dist_round_le (n : ℕ) : 2 * |(n : ℚ) - round n| ≤ spacing n := by
  have h := two_mul_dist_le (n := n) (spacing_pos n)
  rw [round, Nat.cast_mul]
  exact_mod_cast h

/-- A number of 53 bits that is not the rounded one is off by half the
spacing at least, or it is not the nearest. -/
theorem dist_cases (h : 2 ^ precision ≤ n) {z : ℚ} (hz : HasPrecision z) (hne : z ≠ round n) :
    (spacing n : ℚ) ≤ 2 * |(n : ℚ) - z| ∨ |(n : ℚ) - round n| < |(n : ℚ) - z| := by
  have hmultiple : ∀ j : ℤ, (j : ℚ) * spacing n ≠ round n →
      (spacing n : ℚ) ≤ 2 * |(n : ℚ) - j * spacing n| := by
    intro j hj
    have hj' : j ≠ divNearestEven n (spacing n) := by
      intro hsame
      exact hj (by rw [hsame, round]; push_cast; rfl)
    exact_mod_cast le_two_mul_dist (n := n) (spacing_pos n) hj'
  have hspacing : (spacing n : ℚ) = 2 ^ (n.log2 + 1 - precision) := by
    rw [spacing, Nat.pow_eq]
    push_cast
    rfl
  -- multiples of the spacing are at least half a spacing off; what is finer lies in
  -- lower binades
  rcases hz.multiple_or_lt (n.log2 + 1 - precision) with ⟨j, rfl⟩ | hlt
  · left
    rw [← hspacing] at hne ⊢
    exact hmultiple j hne
  · right
    -- a multiple of the spacing lies between the two
    rw [← hspacing] at hlt
    obtain ⟨hlow, -⟩ := spacing_bounds h
    have hlow' : (2 : ℚ) ^ (precision - 1) * spacing n ≤ n := by exact_mod_cast hlow
    have hdist := two_mul_dist_round_le n
    have hnear : |(n : ℚ) - round n| ≤ |(n : ℚ) - 2 ^ (precision - 1) * spacing n| := by
      by_cases hj : (2 : ℚ) ^ (precision - 1) * spacing n = round n
      · rw [hj]
      · have hj' := hmultiple (2 ^ (precision - 1)) (by push_cast; exact hj)
        push_cast at hj'
        linarith
    rw [abs_of_nonneg (sub_nonneg.2 hlow')] at hnear
    rw [abs_of_nonneg (by linarith : (0 : ℚ) ≤ n - z)]
    linarith

/-- No number of 53 bits is nearer than the rounded one. -/
theorem dist_round_le {z : ℚ} (hz : HasPrecision z) : |(n : ℚ) - round n| ≤ |(n : ℚ) - z| := by
  by_cases h : 2 ^ precision ≤ n
  · by_cases hne : z = round n
    · rw [hne]
    · have hdist := two_mul_dist_round_le n
      rcases dist_cases h hz hne with hfar | hfar
      · linarith
      · exact hfar.le
  · rw [round_of_lt (not_le.1 h), sub_self, abs_zero]
    exact abs_nonneg _

/-- If another is as near, the rounded quotient is even. -/
theorem even_of_tie (h : 2 ^ precision ≤ n) {z : ℚ} (hz : HasPrecision z) (hne : z ≠ round n)
    (htie : |(n : ℚ) - z| = |(n : ℚ) - round n|) : Even (divNearestEven n (spacing n)) := by
  have hdist := two_mul_dist_round_le n
  rcases dist_cases h hz hne with hfar | hfar
  · have hhalf : 2 * |(n : ℚ) - round n| = spacing n := by linarith
    refine even_divNearestEven (spacing_pos n) ?_
    rw [round, Nat.cast_mul] at hhalf
    exact_mod_cast hhalf
  · exact absurd htie hfar.ne'

/-- Of two numbers the larger is as near exactly to what does not lie below
their middle. -/
theorem dist_le_iff {x y z : ℚ} (h : z < y) : |x - y| ≤ |x - z| ↔ y + z ≤ 2 * x := by
  have hfactor : (x - z) ^ 2 - (x - y) ^ 2 = (y - z) * (2 * x - (y + z)) := by ring
  rw [← sq_le_sq, ← sub_nonneg, hfactor, mul_nonneg_iff_of_pos_left (sub_pos.2 h), sub_nonneg]

/-- Two numbers are as near exactly to their middle. -/
theorem dist_eq_iff {x y z : ℚ} (h : z < y) : |x - y| = |x - z| ↔ y + z = 2 * x := by
  have hfactor : (x - z) ^ 2 - (x - y) ^ 2 = (y - z) * (2 * x - (y + z)) := by ring
  rw [← sq_eq_sq_iff_abs_eq_abs, eq_comm, ← sub_eq_zero, hfactor,
    mul_eq_zero_iff_left (sub_ne_zero.2 h.ne'), sub_eq_zero, eq_comm]

/-- A larger number is not rounded to a smaller one. -/
theorem round_mono {n' : ℕ} (h : n ≤ n') : round n ≤ round n' := by
  by_contra hlt
  have hlt' : (round n' : ℚ) < round n := by exact_mod_cast not_le.1 hlt
  have hle : (n : ℚ) ≤ n' := by exact_mod_cast h
  -- the smaller number does not lie below the middle, so the larger is the middle
  have hn : (round n + round n' : ℚ) ≤ 2 * n :=
    (dist_le_iff hlt').1 (dist_round_le (hasPrecision_round n'))
  have hnear : |(n' : ℚ) - round n| ≤ |(n' : ℚ) - round n'| :=
    (dist_le_iff hlt').2 (by linarith)
  have hmiddle : (round n + round n' : ℚ) = 2 * n' :=
    (dist_eq_iff hlt').1 (le_antisymm hnear (dist_round_le (hasPrecision_round n)))
  have hsame : (n : ℚ) = n' := by linarith
  rw [Nat.cast_injective hsame] at hlt
  exact hlt le_rfl

-- ============================================================ the threshold

/-- From here on a score is infinite. -/
def overflow : ℕ := Nat.pow 2 1024 - Nat.pow 2 970

/-- Numbers are rounded past all doubles exactly from the threshold on, which
lies half a spacing below the bound. -/
theorem round_lt_bound_iff : round n < bound ↔ n < overflow := by
  have hlast : round (overflow - 1) < bound := by decide +kernel
  have hfirst : bound ≤ round overflow := by decide +kernel
  constructor
  · intro h
    by_contra hn
    exact absurd (hfirst.trans (round_mono (not_lt.1 hn))) (not_le.2 h)
  · intro h
    have hle : n ≤ overflow - 1 := Nat.le_sub_one_of_lt h
    exact (round_mono hle).trans_lt hlast

/-- A significand of 53 bits bounds the exponent below any bound. -/
theorem exponent_lt {m e k : ℕ} (hm : 2 ^ (precision - 1) ≤ m)
    (h : m * 2 ^ e < 2 ^ (precision - 1) * 2 ^ k) : e < k := by
  by_contra he
  have hpow : 2 ^ k ≤ 2 ^ e := Nat.pow_le_pow_right two_pos (not_lt.1 he)
  exact absurd (Nat.mul_le_mul hm hpow) (not_le.2 h)

/-- A number of at most 53 bits is the nearest double to itself. -/
theorem isNearest_self (h : n < 2 ^ precision) : IsNearest n n where
  isDouble := ⟨n, 0, abs_natCast_lt h, by omega, by omega, by simp⟩
  le := fun z _ => by
    rw [sub_self, abs_zero]
    exact abs_nonneg _
  isEven := fun z _ hne htie => by
    rw [sub_self, abs_zero, abs_eq_zero, sub_eq_zero] at htie
    exact absurd htie.symm hne

/-- The rounded number is the nearest double, as long as it is one. -/
theorem isNearest_round (h : round n < bound) : IsNearest n (round n) := by
  by_cases hn : 2 ^ precision ≤ n
  · obtain ⟨m, e, ⟨hlow, hhigh⟩, hround, heven⟩ := exists_significand hn
    -- a larger exponent would be past all doubles, against `h`
    have he : e < 972 := by
      have hbound : bound = 2 ^ (precision - 1) * 2 ^ 972 := by decide +kernel
      rw [hround, hbound] at h
      exact exponent_lt hlow h
    have hm : |(m : ℤ)| < 2 ^ precision := abs_natCast_lt hhigh
    have hlow' : 2 ^ (precision - 1) ≤ |(m : ℤ)| := by
      rw [Nat.abs_cast]
      exact_mod_cast hlow
    have hvalue : (round n : ℚ) = (m : ℤ) * 2 ^ (e : ℤ) := by rw [hround, natCast_mul_pow]
    refine ⟨⟨m, e, hm, by omega, by omega, hvalue⟩, fun z hz => dist_round_le hz.hasPrecision,
      fun z hz hne htie => ?_⟩
    have hm' : Even (m : ℤ) := by exact_mod_cast heven (even_of_tie hn hz.hasPrecision hne htie)
    exact ⟨m, e, hm', hm, Or.inl hlow', by omega, by omega, hvalue⟩
  · rw [round_of_lt (not_le.1 hn)]
    exact isNearest_self (not_le.1 hn)

-- =============================================================== uniqueness

/-- Beside an even significand there is room for one more on either side. -/
theorem isDouble_beside {m d e : ℤ} (heven : Even m) (hm : |m| < 2 ^ precision) (hd : |d| = 1)
    (hlow : -1074 ≤ e) (hhigh : e ≤ 971) : IsDouble ((m + d : ℤ) * 2 ^ e) := by
  refine ⟨m + d, e, ?_, hlow, hhigh, rfl⟩
  have hne : |m| ≠ 2 ^ precision - 1 := by
    intro h
    have hodd : ¬ Even (2 ^ precision - 1 : ℤ) := by decide
    exact hodd (h ▸ even_abs.2 heven)
  have hsum := abs_add_le m d
  omega

/-- Two even multiples are further apart than the unit. -/
theorem not_next_of_even {a b : ℤ} {u : ℚ} (hu : 0 < u) (ha : Even a) (hb : Even b)
    (hlt : (a : ℚ) * u < b * u) : (a : ℚ) * u + u < b * u := by
  have hlt' : a < b := by exact_mod_cast lt_of_mul_lt_mul_right hlt hu.le
  have hne : b - a ≠ 1 := by
    intro h
    have hdiff := hb.sub ha
    rw [h] at hdiff
    exact absurd hdiff (by decide)
  have hnext : a + 1 < b := by omega
  calc (a : ℚ) * u + u = (a + 1 : ℤ) * u := by push_cast; ring
    _ < b * u := mul_lt_mul_of_pos_right (by exact_mod_cast hnext) hu

/-- Between two even doubles stands another double, beside the one with the
smaller unit. -/
theorem exists_isDouble_between {y y' : ℚ} (h : IsEven y) (h' : IsEven y') (hlt : y < y') :
    ∃ z, IsDouble z ∧ y < z ∧ z < y' := by
  obtain ⟨m, e, heven, hm, -, hlow, hhigh, rfl⟩ := h
  obtain ⟨m', e', heven', hm', -, hlow', hhigh', rfl⟩ := h'
  rcases le_total e e' with he | he
  · -- the next double above the smaller one
    obtain ⟨i, rfl⟩ := Int.le.dest he
    have hpos : (0 : ℚ) < 2 ^ e := zpow_pos two_pos e
    rw [mul_zpow_add] at hlt ⊢
    have hnext := not_next_of_even hpos heven (heven'.mul_right _) hlt
    refine ⟨_, isDouble_beside heven hm (d := 1) (by decide) hlow hhigh, ?_, ?_⟩
    · push_cast
      linarith
    · push_cast at hnext ⊢
      linarith
  · -- the next double below the larger one
    obtain ⟨i, rfl⟩ := Int.le.dest he
    have hpos : (0 : ℚ) < 2 ^ e' := zpow_pos two_pos e'
    rw [mul_zpow_add] at hlt ⊢
    have hnext := not_next_of_even hpos (heven.mul_right _) heven' hlt
    refine ⟨_, isDouble_beside heven' hm' (d := -1) (by decide) hlow' hhigh', ?_, ?_⟩
    · push_cast at hnext ⊢
      linarith
    · push_cast
      linarith

/-- Of two doubles that are nearest the second is no larger. Else both are
even, and what stands between them is nearer. -/
theorem IsNearest.ge {x y y' : ℚ} (h : IsNearest x y) (h' : IsNearest x y') : y' ≤ y := by
  by_contra hlt
  rw [not_le] at hlt
  have hsame : |x - y'| = |x - y| := le_antisymm (h'.le y h.isDouble) (h.le y' h'.isDouble)
  have hmiddle : y' + y = 2 * x := (dist_eq_iff hlt).1 hsame
  have heven : IsEven y := h.isEven y' h'.isDouble hlt.ne' hsame
  have heven' : IsEven y' := h'.isEven y h.isDouble hlt.ne hsame.symm
  obtain ⟨z, hz, hyz, hzy⟩ := exists_isDouble_between heven heven' hlt
  have hfar : y' + z ≤ 2 * x := (dist_le_iff hzy).1 (h'.le z hz)
  linarith

/-- There is one nearest double: of two at the same distance, ties to even
leave one. -/
theorem IsNearest.unique {x y y' : ℚ} (h : IsNearest x y) (h' : IsNearest x y') : y = y' :=
  le_antisymm (h'.ge h) (h.ge h')

-- ================================================================== scores

/-- The score that a whole number is rounded to: infinity from the threshold
on, and else the nearest double. -/
def Rounds (n : ℕ) : Score → Prop
  | .finite k => n < overflow ∧ IsNearest n k
  | .infinity => overflow ≤ n

/-- The score as a number, infinity on top. -/
def value : Score → ℕ∞
  | .finite n => n
  | .infinity => ⊤

theorem ofNat_of_lt (h : n < overflow) : ofNat n = .finite (round n) :=
  if_pos (round_lt_bound_iff.2 h)

theorem ofNat_of_ge (h : overflow ≤ n) : ofNat n = .infinity :=
  if_neg (mt round_lt_bound_iff.1 (not_lt.2 h))

/-- A number is rounded to one score, the one that is kept. -/
theorem rounds_iff {s : Score} : Rounds n s ↔ s = ofNat n := by
  rcases lt_or_ge n overflow with h | h
  · rw [ofNat_of_lt h]
    have hnearest := isNearest_round (round_lt_bound_iff.2 h)
    cases s with
    | finite k =>
        rw [Rounds, and_iff_right h, Score.finite.injEq]
        constructor
        · intro hk
          exact Nat.cast_injective (hk.unique hnearest)
        · intro hk
          rw [hk]
          exact hnearest
    | infinity => exact iff_of_false (not_le.2 h) nofun
  · rw [ofNat_of_ge h]
    cases s with
    | finite k => exact iff_of_false (fun hk => absurd hk.1 (not_lt.2 h)) nofun
    | infinity => exact iff_of_true h rfl

/-- The greater number has no smaller double. -/
theorem value_ofNat_mono {n' : ℕ} (h : n ≤ n') : (ofNat n).value ≤ (ofNat n').value := by
  rcases lt_or_ge n' overflow with h' | h'
  · rw [ofNat_of_lt (h.trans_lt h'), ofNat_of_lt h']
    show (round n : ℕ∞) ≤ round n'
    exact Nat.cast_le.2 (round_mono h)
  · rw [ofNat_of_ge h']
    exact le_top

/-- Up to the precision nothing is rounded. -/
theorem round_of_le (h : n ≤ 2 ^ precision) : round n = n := by
  rcases h.lt_or_eq with h | rfl
  · exact round_of_lt h
  · decide

theorem ofNat_of_le (h : n ≤ 2 ^ precision) : ofNat n = .finite n := by
  have hsmall : 2 ^ precision < overflow := by decide +kernel
  rw [ofNat_of_lt (h.trans_lt hsmall), round_of_le h]

/-- What is rounded already stays. -/
theorem round_round (n : ℕ) : round (round n) = round n := by
  have hdist := dist_round_le (n := round n) (hasPrecision_round n)
  rw [sub_self, abs_zero] at hdist
  have hzero := abs_nonpos_iff.1 hdist
  exact Nat.cast_injective (sub_eq_zero.1 hzero).symm

/-- Rounding twice is rounding once. -/
theorem ofNat_of_ofNat_eq {k : ℕ} (h : ofNat n = .finite k) : ofNat k = .finite k := by
  unfold ofNat at h
  split at h
  · next hlt =>
      cases h
      rw [ofNat, round_round, if_pos hlt]
  · cases h

-- ================================================================ numerals

/-- The whole number that decimal digits write. -/
def numeral (p : Text) : ℕ := Nat.ofDigitChars 10 p 0

/-- Leading zeros count for nothing. -/
theorem numeral_zeros_append (k : ℕ) (p : Text) :
    numeral (List.replicate k '0' ++ p) = numeral p := by
  rw [numeral, Nat.ofDigitChars_append, Nat.ofDigitChars_replicate_zero, mul_zero, numeral]

/-- Digits are read exactly first, and rounded once. -/
theorem ofDigits_eq (p : Text) : ofDigits p = ofNat (numeral p) := by rw [ofDigits, numeral]

/-- A number is read back from its digits. -/
theorem numeral_toDigits (n : ℕ) : numeral (Nat.toDigits 10 n) = n := Nat.ofDigitChars_ten_toDigits

end Score

end Runsheet
