/-!
Rounding to 53 significant bits. Magnitudes are counted in units of `2 ^ -1074`, the smallest
positive number of the format, so every finite number is a whole number of units.
-/

namespace FactRules.Binary64

def unitBits : Nat := 1074

def oneUnits : Nat := Nat.pow 2 unitBits

theorem two_pow_pos (exponent : Nat) : 0 < Nat.pow 2 exponent :=
  Nat.two_pow_pos exponent

theorem oneUnits_pos : 0 < oneUnits := by
  unfold oneUnits
  exact two_pow_pos unitBits

def overflowUnits : Nat := Nat.pow 2 1024 * oneUnits

def Fits (units : Nat) : Prop :=
  units < overflowUnits ∧ ∃ shift, Nat.pow 2 shift ∣ units ∧ units < Nat.pow 2 (53 + shift)

def excessBits (units : Nat) : Nat :=
  units.log2 - 52

def roundQuotient (numerator denominator : Nat) : Nat :=
  let quotient := numerator / denominator
  let remainder := numerator % denominator
  if 2 * remainder < denominator then quotient
  else if denominator < 2 * remainder then quotient + 1
  else quotient + quotient % 2

/-- The nearest magnitude of at most 53 significant bits to a quotient of units, whatever its size. -/
def nearestUnits (numerator denominator : Nat) : Nat :=
  let step := Nat.pow 2 (excessBits (numerator / denominator))
  roundQuotient numerator (denominator * step) * step

theorem roundQuotient_le (numerator denominator : Nat) :
    roundQuotient numerator denominator ≤ numerator / denominator + 1 := by
  simp only [roundQuotient]
  split
  · omega
  · split
    · omega
    · have := Nat.mod_lt (numerator / denominator) (show 0 < 2 by decide)
      omega

theorem roundQuotient_mul (quotient : Nat) {denominator : Nat} (positive : 0 < denominator) :
    roundQuotient (quotient * denominator) denominator = quotient := by
  simp [roundQuotient, Nat.mul_div_cancel _ positive, positive]

theorem lt_two_pow_excessBits (units : Nat) : units < Nat.pow 2 (53 + excessBits units) := by
  refine Nat.lt_of_lt_of_le (Nat.lt_log2_self (n := units)) ?_
  apply Nat.pow_le_pow_right (by decide)
  simp only [excessBits]
  omega

theorem two_pow_add (left right : Nat) :
    Nat.pow 2 (left + right) = Nat.pow 2 left * Nat.pow 2 right :=
  Nat.pow_add 2 left right

theorem significand_le (numerator denominator : Nat) :
    roundQuotient numerator (denominator * Nat.pow 2 (excessBits (numerator / denominator))) ≤
      Nat.pow 2 53 := by
  have bound := lt_two_pow_excessBits (numerator / denominator)
  generalize excessBits (numerator / denominator) = shift at bound ⊢
  refine Nat.le_trans (roundQuotient_le _ _) ?_
  rw [← Nat.div_div_eq_div_mul]
  apply Nat.succ_le_of_lt
  apply (Nat.div_lt_iff_lt_mul (two_pow_pos shift)).2
  rwa [← two_pow_add]

theorem nearestUnits_narrow (numerator denominator : Nat) :
    ∃ shift, Nat.pow 2 shift ∣ nearestUnits numerator denominator ∧
      nearestUnits numerator denominator < Nat.pow 2 (53 + shift) := by
  have significandBound := significand_le numerator denominator
  generalize excess : excessBits (numerator / denominator) = shift at significandBound
  have positive := two_pow_pos shift
  simp only [nearestUnits, excess]
  by_cases carried : roundQuotient numerator (denominator * Nat.pow 2 shift) = Nat.pow 2 53
  · refine ⟨53 + shift, ?_, ?_⟩
    · simp only [carried, ← two_pow_add, Nat.dvd_refl]
    · rw [carried, ← two_pow_add]
      exact Nat.pow_lt_pow_right (by decide) (by omega)
  · refine ⟨shift, Nat.dvd_mul_left _ _, ?_⟩
    rw [two_pow_add]
    exact Nat.mul_lt_mul_of_pos_right (Nat.lt_of_le_of_ne significandBound carried) positive

theorem fits_nearestUnits {numerator denominator : Nat}
    (bound : nearestUnits numerator denominator < overflowUnits) :
    Fits (nearestUnits numerator denominator) :=
  ⟨bound, nearestUnits_narrow numerator denominator⟩

theorem nearestUnits_of_fits {units denominator : Nat} (fits : Fits units)
    (positive : 0 < denominator) : nearestUnits (units * denominator) denominator = units := by
  obtain ⟨_, shift, divides, bound⟩ := fits
  have excess : excessBits units ≤ shift := by
    by_cases zero : units = 0
    · simp [excessBits, zero]
    · have := (Nat.log2_lt zero).2 bound
      simp only [excessBits]
      omega
  generalize stepEq : Nat.pow 2 (excessBits units) = step
  have stepPositive : 0 < step := stepEq ▸ two_pow_pos (excessBits units)
  have stepDivides : step ∣ units :=
    stepEq ▸ Nat.dvd_trans (Nat.pow_dvd_pow 2 excess) divides
  obtain ⟨significand, product⟩ := stepDivides
  simp only [nearestUnits, Nat.mul_div_cancel _ positive, stepEq]
  have steps : units * denominator = significand * (denominator * step) := by
    rw [product, Nat.mul_comm step, Nat.mul_assoc, Nat.mul_comm step]
  rw [steps, roundQuotient_mul _ (Nat.mul_pos positive stepPositive), Nat.mul_comm]
  exact product.symm

theorem nearestUnits_mul_mul (numerator denominator factor : Nat) (positive : 0 < factor) :
    nearestUnits (numerator * factor) (denominator * factor) =
      nearestUnits numerator denominator := by
  simp only [nearestUnits, Nat.mul_div_mul_right _ _ positive]
  congr 1
  generalize Nat.pow 2 (excessBits (numerator / denominator)) = step
  rw [Nat.mul_right_comm]
  simp only [roundQuotient, Nat.mul_div_mul_right _ _ positive, Nat.mul_mod_mul_right]
  have scale (left right : Nat) : 2 * (left * factor) < right * factor ↔ 2 * left < right := by
    rw [← Nat.mul_assoc]
    exact Nat.mul_lt_mul_right positive
  have scaleBack (left right : Nat) : right * factor < 2 * (left * factor) ↔ right < 2 * left := by
    rw [← Nat.mul_assoc]
    exact Nat.mul_lt_mul_right positive
  simp only [scale, scaleBack]

end FactRules.Binary64
