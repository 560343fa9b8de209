/-
Scores. A score is written in decimal digits, any number of them, and
kept with 53 significant bits: the nearest number that has so many,
and of two equally near ones the one whose last bit is 0. Everything
from 2^1024 - 2^970 on, half a step past the largest number kept, is
infinite.

The rounding is exact arithmetic on whole numbers. Around `n` the
numbers with 53 significant bits lie `spacing n` apart, so rounding is
a division by the spacing, rounded to nearest with ties to even, and a
multiplication.
-/
import Runsheet.Text.Basic

namespace Runsheet

/-- A number of points: a whole number, or too large to tell. -/
inductive Score where
  | finite (n : Nat)
  | infinity
  deriving DecidableEq, Repr

namespace Score

/-- How many significant bits a score keeps. -/
def precision : Nat := 53

/-- Scores lie below this bound, or are infinite. -/
def bound : Nat := Nat.pow 2 1024

/-- The distance between neighbouring scores around `n`. -/
def spacing (n : Nat) : Nat := Nat.pow 2 (n.log2 + 1 - precision)

/-- `n / unit`, rounded to the nearest whole number; a tie goes to the
even one. -/
def divNearestEven (n unit : Nat) : Nat :=
  if unit < 2 * (n % unit) ∨ 2 * (n % unit) = unit ∧ n / unit % 2 = 1
  then n / unit + 1 else n / unit

/-- The nearest number with 53 significant bits. -/
def round (n : Nat) : Nat := divNearestEven n (spacing n) * spacing n

/-- The score of a whole number. -/
def ofNat (n : Nat) : Score := if round n < bound then .finite (round n) else .infinity

/-- The score that a row of decimal digits writes. -/
def ofDigits (digits : Text) : Score := ofNat (Nat.ofDigitChars 10 digits 0)

-- ================================================= where rounding begins

/-- A tie goes to the neighbour whose last bit is 0, down or up. -/
example : round 9007199254740993 = 9007199254740992
    ∧ round 9007199254740995 = 9007199254740996 := by decide

/-- Numbers of at most 53 bits are kept as they are. -/
theorem round_of_lt {n : Nat} (h : n < Nat.pow 2 precision) : round n = n := by
  have hs : spacing n = 1 := by
    have : n.log2 + 1 - precision = 0 := by
      by_cases hn : n = 0
      · subst hn; decide
      · have := (Nat.log2_lt hn).2 h
        omega
    rw [spacing, this, Nat.pow]
  rw [round, hs]
  simp [divNearestEven, Nat.mod_one]

/-- The rounded quotient lies at most half a unit away. -/
theorem divNearestEven_mul_le {n unit : Nat} (h : 0 < unit) :
    2 * (divNearestEven n unit * unit) ≤ 2 * n + unit
      ∧ 2 * n ≤ 2 * (divNearestEven n unit * unit) + unit := by
  have hd := Nat.div_add_mod n unit
  have hm := Nat.mod_lt n h
  rw [Nat.mul_comm] at hd
  rw [divNearestEven]
  split
  · rw [Nat.add_mul, Nat.one_mul]; omega
  · omega

end Score

end Runsheet
