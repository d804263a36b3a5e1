import EntityClient.Json.Basic
import Mathlib.Tactic.Ring

/-!
Natural numbers have a nearest double: scaled by the power of two that their length asks for, they
have the full mantissa, and the largest exponent is far off. Whole numbers therefore become finite
doubles.
-/

namespace EntityClient

namespace FiniteDouble

theorem roundQuotient_bounds {num den low high : Nat} (pos : 0 < den) (lower : low * den ≤ num)
    (upper : num < high * den) :
    low ≤ roundQuotient num den ∧ roundQuotient num den ≤ high := by
  have hlow : low ≤ num / den := (Nat.le_div_iff_mul_le pos).mpr lower
  have hhigh : num / den < high := (Nat.div_lt_iff_lt_mul pos).mpr upper
  simp only [roundQuotient]
  split <;> omega

/-- A natural number, scaled by the exponent that its length asks for, has the full mantissa. -/
theorem scaled_bounds {n : Nat} (pos : n ≠ 0) :
    let e : Int := n.log2 - 52
    fullMantissa * power 2 e ≤ n * power 2 (-e) ∧
      n * power 2 (-e) < 2 * fullMantissa * power 2 e := by
  intro e
  have lower : 2 ^ n.log2 ≤ n := Nat.log2_self_le pos
  have upper : n < 2 ^ (n.log2 + 1) := Nat.lt_log2_self
  have full : fullMantissa = 2 ^ 52 := rfl
  have hup : power 2 (-e) = 2 ^ (-e).toNat := rfl
  have hdown : power 2 e = 2 ^ e.toNat := rfl
  rw [hup, hdown, full]
  by_cases long : 52 ≤ n.log2
  · have up : (-e).toNat = 0 := by omega
    have down : n.log2 = 52 + e.toNat := by omega
    rw [up, pow_zero, mul_one]
    rw [down, pow_add] at lower
    rw [down, pow_succ, pow_add] at upper
    omega
  · have down : e.toNat = 0 := by omega
    have up : 52 = n.log2 + (-e).toNat := by omega
    have positive : 0 < 2 ^ (-e).toNat := Nat.two_pow_pos _
    have exact : (2 : Nat) ^ 52 = 2 ^ n.log2 * 2 ^ (-e).toNat := by rw [← pow_add, ← up]
    rw [down, pow_zero, mul_one, mul_one, exact]
    refine ⟨Nat.mul_le_mul_right _ lower, ?_⟩
    calc n * 2 ^ (-e).toNat < 2 ^ (n.log2 + 1) * 2 ^ (-e).toNat :=
          Nat.mul_lt_mul_of_pos_right upper positive
      _ = 2 * (2 ^ n.log2 * 2 ^ (-e).toNat) := by ring

theorem exists_nearest? (negative : Bool) {n : Nat} (short : n.log2 < 1023) :
    ∃ x, nearest? negative n 1 = some x := by
  by_cases zero : n = 0
  · exact ⟨_, if_pos zero⟩
  obtain ⟨lower, upper⟩ := scaled_bounds zero
  generalize he : (n.log2 : Int) - 52 = e at lower upper
  have positive : 0 < power 2 e := Nat.two_pow_pos _
  have full : ¬ n * power 2 (-e) / power 2 e < fullMantissa :=
    Nat.not_lt.mpr ((Nat.le_div_iff_mul_le positive).mpr lower)
  have least : max (-1074) e = e := by omega
  obtain ⟨hlow, hhigh⟩ := roundQuotient_bounds positive lower upper
  have one : ((Nat.log2 1 : Nat) : Int) = 0 := rfl
  simp only [nearest?, if_neg zero, one, sub_zero, he, Nat.one_mul, if_neg full, least]
  by_cases carry : roundQuotient (n * power 2 (-e)) (power 2 e) = 2 * fullMantissa
  · -- the mantissa has overflowed to the next power of two
    simp only [if_pos carry]
    exact ⟨_, dif_pos ⟨by decide, by omega, by omega, .inl le_rfl⟩⟩
  · simp only [if_neg carry]
    exact ⟨_, dif_pos ⟨by omega, by omega, by omega, .inl hlow⟩⟩

end FiniteDouble

theorem Double.exists_ofInt (n : Whole) : ∃ x, Double.ofInt n.val = .finite x := by
  have bound : n.val.natAbs < 2 ^ 64 := by
    have := n.lower
    have := n.upper
    omega
  have short : n.val.natAbs.log2 < 1023 := by
    by_cases zero : n.val.natAbs = 0
    · rw [zero]
      decide
    · have := (Nat.log2_lt zero).mpr bound
      omega
  obtain ⟨x, hx⟩ := FiniteDouble.exists_nearest? (decide (n.val < 0)) short
  exact ⟨x, by rw [ofInt, ofRatio, hx]⟩

end EntityClient
