import Deduction.Number.Binary64

namespace Deduction.Binary64

/-- The least magnitude of an integer whose nearest number is infinite: half a unit less than the
power after the greatest. -/
def leastInfinite : Nat :=
  Nat.pow 2 1024 - Nat.pow 2 970

theorem roundHalfEven_eq_succ_iff {num half top : Nat} (hhalf : 0 < half) (hodd : top % 2 = 1)
    (hlt : num < 2 * half * (top + 1)) :
    roundHalfEven num (2 * half) = top + 1 ↔ 2 * half * top + half ≤ num := by
  have hdivide := Nat.div_add_mod num (2 * half)
  have hrest := Nat.mod_lt num (Nat.mul_pos Nat.two_pos hhalf)
  have hbelow : num / (2 * half) ≤ top := Nat.le_of_lt_succ (Nat.div_lt_of_lt_mul hlt)
  simp only [roundHalfEven]
  generalize num / (2 * half) = below at hdivide hbelow
  generalize num % (2 * half) = rest at hdivide hrest
  rcases Nat.lt_or_eq_of_le hbelow with hless | rfl
  · have hfar : 2 * half * (below + 1) ≤ 2 * half * top := Nat.mul_le_mul_left _ hless
    rw [Nat.mul_add, Nat.mul_one] at hfar
    have hnone : ¬ 2 * half * top + half ≤ num := by omega
    simp only [hnone, iff_false]
    split
    · omega
    · split
      · omega
      · split <;> omega
  · simp only [hodd, Nat.one_ne_zero, beq_iff_eq, if_false]
    split
    · omega
    · split <;> omega

theorem pow_two_le_pow_two {m n : Nat} (hle : m ≤ n) : Nat.pow 2 m ≤ Nat.pow 2 n :=
  Nat.pow_le_pow_right Nat.two_pos hle

theorem pow_two_lt_leastInfinite {exponent : Nat} (hless : exponent < 1024) :
    Nat.pow 2 exponent < leastInfinite := by
  obtain ⟨more, hmore⟩ := Nat.exists_eq_add_of_le (Nat.le_of_lt_succ hless)
  have hlimit : Nat.pow 2 (exponent + more) < leastInfinite := by
    rw [← hmore]
    decide +kernel
  exact Nat.lt_of_le_of_lt (pow_two_le_pow_two (Nat.le_add_right exponent more)) hlimit

theorem leastInfinite_le_pow_two {exponent : Nat} (hle : 1024 ≤ exponent) :
    leastInfinite ≤ Nat.pow 2 exponent := by
  refine Nat.le_trans ?_ (pow_two_le_pow_two hle)
  decide +kernel

section Integer

variable {num : Nat}

theorem order_log2 (hnum : num ≠ 0) :
    order 2 num 1 ((Nat.log2 num : Int) - (Nat.log2 1 : Int)) = Nat.log2 num := by
  have hpower := Nat.log2_self_le hnum
  have hone : Nat.log2 1 = 0 := by decide
  simp [order, scale, hone, Nat.not_lt.mpr hpower]

theorem ofRatio_one (negative : Bool) (hnum : num ≠ 0) :
    ofRatio negative num 1 =
      let exponent : Int := (Nat.log2 num : Int) - 52
      let unit := scale 2 1 exponent
      let significand := roundHalfEven (num * unit.2) unit.1
      if significand = Nat.pow 2 53 then
        if greatestExponent < exponent + 1 then .infinite negative
        else .finite negative (Nat.pow 2 52) (exponent + 1)
      else if greatestExponent < exponent then .infinite negative
      else .finite negative significand exponent := by
  have hexponent : max ((Nat.log2 num : Int) - 52) leastExponent = (Nat.log2 num : Int) - 52 := by
    unfold leastExponent
    omega
  simp [ofRatio, hnum, order_log2, hexponent]

/-- With the greatest exponent, a significand is rounded out of range exactly from the least
magnitude that is infinite. -/
theorem roundHalfEven_greatest_iff (hnum : num < Nat.pow 2 (1023 + 1)) :
    roundHalfEven num (2 * Nat.pow 2 970) = Nat.pow 2 53 ↔ leastInfinite ≤ num := by
  have hhalf : 0 < Nat.pow 2 970 := by decide +kernel
  have hodd : (Nat.pow 2 53 - 1) % 2 = 1 := by decide +kernel
  have htop : Nat.pow 2 53 - 1 + 1 = Nat.pow 2 53 := by decide +kernel
  have hproduct : 2 * Nat.pow 2 970 * (Nat.pow 2 53 - 1 + 1) = Nat.pow 2 (1023 + 1) := by
    decide +kernel
  have hmiddle : 2 * Nat.pow 2 970 * (Nat.pow 2 53 - 1) + Nat.pow 2 970 = leastInfinite := by
    decide +kernel
  have hrounds := roundHalfEven_eq_succ_iff hhalf hodd (hproduct ▸ hnum)
  rwa [htop, hmiddle] at hrounds

theorem ofRatio_one_eq_infinite_iff (negative : Bool) (hnum : num ≠ 0) :
    ofRatio negative num 1 = .infinite negative ↔ leastInfinite ≤ num := by
  have hlow : Nat.pow 2 (Nat.log2 num) ≤ num := Nat.log2_self_le hnum
  have hhigh : num < Nat.pow 2 (Nat.log2 num + 1) := Nat.lt_log2_self
  rw [ofRatio_one negative hnum]
  generalize Nat.log2 num = exponent at hlow hhigh
  rcases Nat.lt_trichotomy exponent 1023 with hless | rfl | hgreater
  · have hbelow := Nat.lt_trans hhigh (pow_two_lt_leastInfinite (Nat.succ_lt_succ hless))
    have hfits : ¬ greatestExponent < (exponent : Int) - 52 + 1 := by
      unfold greatestExponent
      omega
    have hfits' : ¬ greatestExponent < (exponent : Int) - 52 := by
      unfold greatestExponent
      omega
    simp only [Nat.not_le.mpr hbelow, iff_false, if_neg hfits, if_neg hfits']
    split <;> exact nofun
  · -- The last exponent in range: all depends on the rounding of the significand.
    have hunit : scale 2 1 (((1023 : Nat) : Int) - 52) = (2 * Nat.pow 2 970, 1) := by
      decide +kernel
    have hrounds := roundHalfEven_greatest_iff hhigh
    have hfits : ¬ greatestExponent < ((1023 : Nat) : Int) - 52 := by decide
    have hexceeds : greatestExponent < ((1023 : Nat) : Int) - 52 + 1 := by decide
    simp only [hunit, Nat.mul_one, if_pos hexceeds, if_neg hfits, ← hrounds]
    generalize roundHalfEven num (2 * Nat.pow 2 970) = significand
    by_cases hrounded : significand = Nat.pow 2 53
    · simp only [hrounded, if_true]
    · simp [hrounded]
  · have hinfinite := Nat.le_trans (leastInfinite_le_pow_two (Nat.succ_le_of_lt hgreater)) hlow
    have hexceeds : greatestExponent < (exponent : Int) - 52 := by
      unfold greatestExponent
      omega
    have hexceeds' : greatestExponent < (exponent : Int) - 52 + 1 := by omega
    simp only [hinfinite, if_pos hexceeds, if_pos hexceeds', ite_self]

end Integer

theorem eq_of_ofRatio_eq_infinite {negative sign : Bool} {num den : Nat}
    (hinfinite : ofRatio negative num den = .infinite sign) : sign = negative := by
  simp only [ofRatio] at hinfinite
  split at hinfinite
  · cases hinfinite
  · split at hinfinite
    · split at hinfinite <;> cases hinfinite
      rfl
    · split at hinfinite <;> cases hinfinite
      rfl

/-- The number nearest to an integer is infinite from a least magnitude on. -/
theorem exists_ofInt_eq_infinite_iff (n : Int) :
    (∃ sign, ofInt n = .infinite sign) ↔ leastInfinite ≤ n.natAbs := by
  rw [ofInt]
  by_cases hzero : n.natAbs = 0
  · have hpositive : ¬ leastInfinite ≤ 0 := by decide +kernel
    simp [hzero, ofRatio, hpositive]
  · rw [← ofRatio_one_eq_infinite_iff (decide (n < 0)) hzero]
    constructor
    · rintro ⟨sign, hinfinite⟩
      rw [hinfinite, eq_of_ofRatio_eq_infinite hinfinite]
    · exact fun hinfinite => ⟨_, hinfinite⟩

end Deduction.Binary64
