import FactRules.Binary64.Rounding

/-!
Numbers of the IEEE 754 binary64 format, their rounding and their order. A finite number is a sign
and a whole number of units of `2 ^ -1074`, so comparing two numbers is comparing two integers.
-/

namespace FactRules

inductive Binary64 where
  | nan
  | infinite (negative : Bool)
  | finite (negative : Bool) (units : Nat) (fits : Binary64.Fits units)
  deriving DecidableEq

namespace Binary64

def ofRatio (negative : Bool) (numerator denominator : Nat) : Binary64 :=
  if bound : nearestUnits (numerator * oneUnits) denominator < overflowUnits then
    .finite negative (nearestUnits (numerator * oneUnits) denominator)
      (fits_nearestUnits bound)
  else .infinite negative

def ofInt (value : Int) : Binary64 :=
  ofRatio (value < 0) value.natAbs 1

instance : Inhabited Binary64 := ⟨.nan⟩

def isFinite : Binary64 → Bool
  | .finite .. => true
  | _ => false

/-- Where a number lies, in units. The infinities lie just beyond all finite numbers, the two zeros
lie in one place, and what is not a number lies nowhere. -/
def place? : Binary64 → Option Int
  | .nan => none
  | .infinite negative => some (if negative then -overflowUnits else overflowUnits)
  | .finite negative units _ => some (if negative then -units else units)

def order? (left right : Binary64) : Option Ordering :=
  match left.place?, right.place? with
  | some leftPlace, some rightPlace => some (compare leftPlace rightPlace)
  | _, _ => none

def equals (left right : Binary64) : Bool :=
  left.order? right == some .eq

def whole? : Binary64 → Option Int
  | .finite negative units _ =>
      let magnitude : Int := units / oneUnits
      some (if negative then -magnitude else magnitude)
  | _ => none

theorem equals_iff {left right : Binary64} : left.equals right = true ↔
    ∃ place, left.place? = some place ∧ right.place? = some place := by
  simp only [equals, order?, beq_iff_eq]
  split
  · next leftPlace rightPlace leftEq rightEq =>
      simp only [leftEq, rightEq, Option.some.injEq, Int.compare_eq_eq]
      exact ⟨fun same => ⟨leftPlace, rfl, same.symm⟩,
        fun ⟨place, leftIs, rightIs⟩ => leftIs.trans rightIs.symm⟩
  · next missing =>
      simp only [reduceCtorEq, false_iff]
      rintro ⟨place, leftEq, rightEq⟩
      exact missing place place leftEq rightEq

theorem equals_comm (left right : Binary64) : left.equals right = right.equals left := by
  rw [Bool.eq_iff_iff, equals_iff, equals_iff]
  exact exists_congr fun _ => And.comm

theorem ofRatio_units (negative : Bool) {units : Nat} (fits : Fits units) :
    ofRatio negative units (oneUnits) = .finite negative units fits := by
  have same := nearestUnits_of_fits fits oneUnits_pos
  simp [ofRatio, same, fits.1]

theorem ofRatio_mul_mul (negative : Bool) (numerator denominator factor : Nat)
    (positive : 0 < factor) : ofRatio negative (numerator * factor) (denominator * factor) =
      ofRatio negative numerator denominator := by
  have same := nearestUnits_mul_mul (numerator * oneUnits) denominator factor positive
  rw [Nat.mul_right_comm] at same
  simp only [ofRatio, same]

end Binary64

end FactRules
