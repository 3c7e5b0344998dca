import FactRules.Binary64.Basic

/-!
Rounding keeps the order. Of two quotients the greater one has no lesser nearest magnitude, so that
the places of the numbers nearest to integers are in the order of the integers. Up to `2 ^ 53` an
integer is its own nearest number.
-/

namespace FactRules.Binary64

theorem div_le_roundQuotient (numerator denominator : Nat) :
    numerator / denominator ≤ roundQuotient numerator denominator := by
  simp only [roundQuotient]
  repeat' split
  all_goals omega

theorem roundQuotient_mono {lesser greater : Nat} (le : lesser ≤ greater) (denominator : Nat) :
    roundQuotient lesser denominator ≤ roundQuotient greater denominator := by
  have quotients : lesser / denominator ≤ greater / denominator := Nat.div_le_div_right le
  by_cases same : lesser / denominator = greater / denominator
  · have lesserParts := Nat.div_add_mod lesser denominator
    have greaterParts := Nat.div_add_mod greater denominator
    rw [same] at lesserParts
    have remainders : lesser % denominator ≤ greater % denominator := by omega
    simp only [roundQuotient, same]
    repeat' split
    all_goals omega
  · have first := roundQuotient_le lesser denominator
    have last := div_le_roundQuotient greater denominator
    omega

theorem two_pow_le_of_excessBits {units : Nat} (excess : excessBits units ≠ 0) :
    Nat.pow 2 (52 + excessBits units) ≤ units := by
  have nonzero : units ≠ 0 := by
    rintro rfl
    exact excess rfl
  have leading : 52 + excessBits units = units.log2 := by
    unfold excessBits at excess ⊢
    omega
  rw [leading]
  exact Nat.log2_self_le nonzero

theorem excessBits_mono {lesser greater : Nat} (le : lesser ≤ greater) :
    excessBits lesser ≤ excessBits greater := by
  by_cases none : excessBits lesser = 0
  · omega
  · have lower := two_pow_le_of_excessBits none
    have upper := lt_two_pow_excessBits greater
    have powers : Nat.pow 2 (52 + excessBits lesser) < Nat.pow 2 (53 + excessBits greater) := by
      omega
    have exponents := (Nat.pow_lt_pow_iff_right (by decide)).1 powers
    omega

theorem nearestUnits_le (numerator denominator : Nat) :
    nearestUnits numerator denominator ≤
      Nat.pow 2 (53 + excessBits (numerator / denominator)) := by
  rw [two_pow_add]
  exact Nat.mul_le_mul_right _ (significand_le numerator denominator)

theorem le_nearestUnits {numerator denominator : Nat}
    (excess : excessBits (numerator / denominator) ≠ 0) :
    Nat.pow 2 (52 + excessBits (numerator / denominator)) ≤ nearestUnits numerator denominator := by
  have leading := two_pow_le_of_excessBits excess
  simp only [nearestUnits]
  generalize excessBits (numerator / denominator) = shift at leading ⊢
  rw [two_pow_add] at leading ⊢
  apply Nat.mul_le_mul_right
  refine Nat.le_trans ?_ (div_le_roundQuotient _ _)
  rw [← Nat.div_div_eq_div_mul]
  exact (Nat.le_div_iff_mul_le (two_pow_pos shift)).2 leading

theorem nearestUnits_mono {lesser greater : Nat} (le : lesser ≤ greater) (denominator : Nat) :
    nearestUnits lesser denominator ≤ nearestUnits greater denominator := by
  have bits := excessBits_mono (Nat.div_le_div_right le : lesser / denominator ≤ _)
  by_cases same : excessBits (lesser / denominator) = excessBits (greater / denominator)
  · simp only [nearestUnits, same]
    exact Nat.mul_le_mul_right _ (roundQuotient_mono le _)
  · -- Rounded at different bits, the two have a power of two between them.
    calc nearestUnits lesser denominator
        ≤ Nat.pow 2 (53 + excessBits (lesser / denominator)) := nearestUnits_le _ _
      _ ≤ Nat.pow 2 (52 + excessBits (greater / denominator)) :=
          Nat.pow_le_pow_right (by decide) (by omega)
      _ ≤ nearestUnits greater denominator := le_nearestUnits (by omega)

def nearestMagnitude (value : Nat) : Nat :=
  min (nearestUnits (value * oneUnits) 1) overflowUnits

def nearestPlace (value : Int) : Int :=
  if value < 0 then -(nearestMagnitude value.natAbs : Int) else nearestMagnitude value.natAbs

theorem place?_ofInt (value : Int) : (ofInt value).place? = some (nearestPlace value) := by
  simp only [ofInt, ofRatio, nearestPlace, nearestMagnitude]
  split
  · next below => simp only [place?, decide_eq_true_eq, Nat.min_eq_left (Nat.le_of_lt below)]
  · next beyond => simp only [place?, decide_eq_true_eq, Nat.min_eq_right (Nat.le_of_not_lt beyond)]

theorem nearestMagnitude_mono {lesser greater : Nat} (le : lesser ≤ greater) :
    nearestMagnitude lesser ≤ nearestMagnitude greater := by
  have units := nearestUnits_mono (Nat.mul_le_mul_right oneUnits le) 1
  unfold nearestMagnitude
  omega

theorem nearestPlace_mono {lesser greater : Int} (le : lesser ≤ greater) :
    nearestPlace lesser ≤ nearestPlace greater := by
  unfold nearestPlace
  by_cases negative : greater < 0
  · have magnitudes : nearestMagnitude greater.natAbs ≤ nearestMagnitude lesser.natAbs :=
      nearestMagnitude_mono (by omega)
    have lesserNegative : lesser < 0 := by omega
    rw [if_pos negative, if_pos lesserNegative]
    omega
  · rw [if_neg negative]
    by_cases lesserNegative : lesser < 0
    · rw [if_pos lesserNegative]
      omega
    · rw [if_neg lesserNegative]
      have magnitudes : nearestMagnitude lesser.natAbs ≤ nearestMagnitude greater.natAbs :=
        nearestMagnitude_mono (by omega)
      omega

theorem two_pow_lt {lesser greater : Nat} (lt : lesser < greater) :
    Nat.pow 2 lesser < Nat.pow 2 greater :=
  Nat.pow_lt_pow_right (by decide) lt

/-- Integers whose nearest numbers lie apart are in the order of these. -/
theorem compare_nearestPlace {left right : Int}
    (apart : nearestPlace left ≠ nearestPlace right) :
    compare (nearestPlace left) (nearestPlace right) = compare left right := by
  rcases Int.lt_trichotomy left right with less | same | greater
  · have places := nearestPlace_mono (Int.le_of_lt less)
    rw [Int.compare_eq_lt.2 less, Int.compare_eq_lt.2 (by omega)]
  · exact absurd (congrArg nearestPlace same) apart
  · have places := nearestPlace_mono (Int.le_of_lt greater)
    rw [Int.compare_eq_gt.2 greater, Int.compare_eq_gt.2 (by omega)]

theorem oneUnits_eq : oneUnits = Nat.pow 2 unitBits := by
  unfold oneUnits
  rfl

theorem lt_overflowUnits {value : Nat} (bound : value < Nat.pow 2 128) :
    value * oneUnits < overflowUnits := by
  have powers : ∃ bits, 128 ≤ bits ∧ overflowUnits = Nat.pow 2 bits * oneUnits := by
    unfold overflowUnits
    exact ⟨_, by decide, rfl⟩
  obtain ⟨bits, enough, overflow⟩ := powers
  have larger : Nat.pow 2 128 ≤ Nat.pow 2 bits := Nat.pow_le_pow_right (by decide) enough
  rw [overflow]
  exact Nat.mul_lt_mul_of_pos_right (Nat.lt_of_lt_of_le bound larger) oneUnits_pos

theorem fits_natural {value : Nat} (shift : Nat) (divides : Nat.pow 2 shift ∣ value)
    (narrow : value < Nat.pow 2 (53 + shift)) (bound : value < Nat.pow 2 128) :
    Fits (value * oneUnits) := by
  refine ⟨lt_overflowUnits bound, shift + unitBits, ?_, ?_⟩
  · rw [two_pow_add, oneUnits_eq]
    exact Nat.mul_dvd_mul_right divides _
  · rw [← Nat.add_assoc, two_pow_add, oneUnits_eq]
    exact Nat.mul_lt_mul_of_pos_right narrow (two_pow_pos _)

theorem nearestMagnitude_of_fits {value : Nat} (fits : Fits (value * oneUnits)) :
    nearestMagnitude value = value * oneUnits := by
  have own := nearestUnits_of_fits fits Nat.one_pos
  rw [Nat.mul_one] at own
  rw [nearestMagnitude, own]
  exact Nat.min_eq_left (Nat.le_of_lt fits.1)

theorem nearestMagnitude_of_le {value : Nat} (small : value ≤ Nat.pow 2 53) :
    nearestMagnitude value = value * oneUnits := by
  apply nearestMagnitude_of_fits
  have bound : value < Nat.pow 2 128 :=
    Nat.lt_of_le_of_lt small (two_pow_lt (by decide))
  by_cases last : value = Nat.pow 2 53
  · exact fits_natural 53 ⟨1, last⟩ (last ▸ two_pow_lt (by decide)) bound
  · exact fits_natural 0 (Nat.one_dvd value) (Nat.lt_of_le_of_ne small last) bound

theorem nearestPlace_of_le {value : Int} (small : value.natAbs ≤ Nat.pow 2 53) :
    nearestPlace value = value * oneUnits := by
  unfold nearestPlace
  rw [nearestMagnitude_of_le small, Int.natCast_mul]
  by_cases negative : value < 0
  · rw [if_pos negative, Int.ofNat_natAbs_of_nonpos (by omega), Int.neg_mul, Int.neg_neg]
  · rw [if_neg negative, Int.natAbs_of_nonneg (by omega)]

theorem le_of_nearestPlace_le {lesser greater : Int} (small : lesser.natAbs ≤ Nat.pow 2 53)
    (otherSmall : greater.natAbs ≤ Nat.pow 2 53)
    (places : nearestPlace lesser ≤ nearestPlace greater) : lesser ≤ greater := by
  rw [nearestPlace_of_le small, nearestPlace_of_le otherSmall] at places
  exact Int.le_of_mul_le_mul_right places (Int.natCast_pos.2 oneUnits_pos)

theorem eq_of_nearestPlace_eq {value other : Int} (small : value.natAbs < Nat.pow 2 53)
    (same : nearestPlace value = nearestPlace other) : value = other := by
  have limit : Nat.pow 2 53 = 9007199254740992 := by decide
  rw [limit] at small
  by_cases above : other > 9007199254740992
  · have places := nearestPlace_mono (Int.le_of_lt above)
    rw [← same] at places
    have le := le_of_nearestPlace_le (by omega) (by omega) places
    omega
  · by_cases below : other < -9007199254740992
    · have places := nearestPlace_mono (Int.le_of_lt below)
      rw [← same] at places
      have le := le_of_nearestPlace_le (by omega) (by omega) places
      omega
    · have first := le_of_nearestPlace_le (by omega) (by omega) (Int.le_of_eq same)
      have last := le_of_nearestPlace_le (by omega) (by omega) (Int.le_of_eq same.symm)
      omega

end FactRules.Binary64
