import Mathlib.Algebra.Ring.Nat
import TradingHours.Number.Binary
/-!
Quotients that are whole numbers. One of less than 53 bits has an exponent of zero or below, so
nothing is rounded and its integer part is the number itself. Main statement:
`truncate_ofQuotient_mul`.
-/
namespace TradingHours.Number.Binary

variable {n den : Nat} {e : Int}

theorem divideToEven_mul (hden : 0 < den) (n : Nat) : divideToEven (n * den) den = n := by
  simp [divideToEven, Nat.mul_div_cancel n hden, hden]

theorem scaled_mul (hden : 0 < den) (he : e ≤ 0) :
    scaled (n * den) den e = n * 2 ^ (-e).toNat := by
  rw [scaled]
  split
  · next hnonneg =>
    obtain rfl : e = 0 := by omega
    simpa using divideToEven_mul hden n
  · rw [Nat.pow_eq, Nat.mul_right_comm, divideToEven_mul hden]

/-- A factor below `2^53` adds at most 53 to the binary logarithm. -/
theorem log2_mul_le (hn : 0 < n) (hn' : n < 2 ^ 53) (hden : 0 < den) :
    (n * den).log2 ≤ den.log2 + 53 := by
  have hprod : n * den ≠ 0 := Nat.mul_ne_zero (by omega) (by omega)
  apply Nat.le_of_lt_succ
  rw [Nat.log2_lt hprod]
  calc n * den < 2 ^ 53 * 2 ^ (den.log2 + 1) :=
        Nat.mul_lt_mul'' hn' Nat.lt_log2_self
    _ = 2 ^ (den.log2 + 53 + 1) := by rw [← Nat.pow_add]; congr 1; omega

theorem unitExponent_mul_le (hn : 0 < n) (hn' : n < 2 ^ 53) (hden : 0 < den) :
    unitExponent (n * den) den ≤ 0 := by
  have hlog := log2_mul_le hn hn' hden
  have hmin : minExponent ≤ 0 := by decide
  rw [unitExponent]
  by_cases hguess : ((n * den).log2 : Int) - den.log2 - 52 ≤ 0
  · omega
  · -- one bit too many was guessed, and the quotient shows it
    have hone : ((n * den).log2 : Int) - den.log2 - 52 = 1 := by omega
    have hsmall : n * den < den * Nat.pow 2 53 := by
      rw [Nat.mul_comm]
      exact Nat.mul_lt_mul_of_pos_left hn' hden
    refine Int.max_le.2 ⟨hmin, ?_⟩
    simp [hone, hsmall]

theorem truncate_finite_mul (negative : Bool) (n k : Nat) :
    (finite negative (n * 2 ^ k) (-k)).truncate = if negative then -(n : Int) else n := by
  have hn : (if 0 ≤ (-(k : Int)) then ((n * 2 ^ k : Nat) : Int) * Nat.pow 2 (-(k : Int)).toNat
      else (n * 2 ^ k / Nat.pow 2 (-(-(k : Int))).toNat : Nat)) = n := by
    split
    · next hk =>
      obtain rfl : k = 0 := by omega
      simp
    · rw [Int.neg_neg, Int.toNat_natCast, Nat.pow_eq, Nat.mul_div_cancel n (Nat.two_pow_pos k)]
  rw [truncate]
  simp only [hn]

/-- The integer part of a rounded quotient is the quotient if it is a whole number that fits. -/
theorem truncate_ofQuotient_mul (negative : Bool) (hn : n < 2 ^ 53) (hden : 0 < den) :
    (ofQuotient negative (n * den) den).truncate = if negative then -(n : Int) else n := by
  rcases Nat.eq_zero_or_pos n with rfl | hpos
  · obtain ⟨k, hk⟩ : ∃ k : Nat, minExponent = -k := ⟨1074, rfl⟩
    rw [ofQuotient, if_pos (.inl (Nat.zero_mul den)), hk]
    simpa using truncate_finite_mul negative 0 k
  · have hle := unitExponent_mul_le hpos hn hden
    obtain ⟨k, hk⟩ : ∃ k : Nat, unitExponent (n * den) den = -k :=
      ⟨(-unitExponent (n * den) den).toNat, by omega⟩
    have hzero : ¬ (n * den = 0 ∨ den = 0) := by
      simp only [Nat.mul_eq_zero]
      omega
    have hscaled : scaled (n * den) den (-k) = n * 2 ^ k := by
      rw [scaled_mul hden (by omega)]
      simp
    have hmax : ∀ j : Nat, ¬ maxExponent < -(j : Int) := by
      intro j
      rw [maxExponent]
      omega
    rw [ofQuotient, if_neg hzero]
    simp only [hk, hscaled]
    by_cases hround : n * 2 ^ k = Nat.pow 2 53
    · -- the mantissa `2^53` is written as `2^52`, with a greater exponent
      obtain ⟨j, rfl⟩ : ∃ j, k = j + 1 := by
        cases k with
        | zero => simp at hround; omega
        | succ j => exact ⟨j, rfl⟩
      have hhalf : Nat.pow 2 52 = n * 2 ^ j := by
        rw [Nat.pow_succ, ← Nat.mul_assoc] at hround
        simp only [Nat.pow_eq] at hround ⊢
        omega
      have hexponent : -((j + 1 : Nat) : Int) + 1 = -(j : Int) := by omega
      rw [if_pos hround]
      simp only [hexponent, if_neg (hmax j), hhalf]
      exact truncate_finite_mul negative n j
    · rw [if_neg hround]
      simp only [if_neg (hmax k)]
      exact truncate_finite_mul negative n k

end TradingHours.Number.Binary
