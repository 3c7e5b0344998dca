import FactRules.Proofs.Numerals
import FactRules.Proofs.Rounding
import FactRules.Proofs.Templates

/-!
What an integer placeholder writes. A whole number in the range of 64 bits is written as it is. One
beyond the range is replaced by the nearest end of the range, unless it is so large that it is
rounded to infinity, which cannot be written.
-/

namespace FactRules

namespace Text

inductive Signs : List Char → Bool → List Char → Prop
  | none (digits : List Char) : Signs digits false digits
  | plus (digits : List Char) : Signs ('+' :: digits) false digits
  | minus (digits : List Char) : Signs ('-' :: digits) true digits

theorem inInt64_iff {value : Int} : inInt64 value = true ↔
    -9223372036854775808 ≤ value ∧ value ≤ 9223372036854775807 := by
  have least : Int64.minValue.toInt = -9223372036854775808 := rfl
  have greatest : Int64.maxValue.toInt = 9223372036854775807 := rfl
  rw [inInt64, least, greatest, Bool.and_eq_true, decide_eq_true_eq, decide_eq_true_eq]

theorem not_inInt64_iff {value : Int} : inInt64 value = false ↔
    value < -9223372036854775808 ∨ 9223372036854775807 < value := by
  rw [← Bool.not_eq_true, inInt64_iff]
  omega

theorem clampedInt64_of_inInt64 {value : Int} (inside : inInt64 value = true) :
    clampedInt64 value = Int64.ofInt value := by
  rw [inInt64, Bool.and_eq_true, decide_eq_true_eq, decide_eq_true_eq] at inside
  rw [clampedInt64, if_neg (Int.not_lt.2 inside.1), if_neg (Int.not_lt.2 inside.2)]

theorem toInt_clampedInt64 {value : Int} (inside : inInt64 value = true) :
    (clampedInt64 value).toInt = value := by
  rw [clampedInt64_of_inInt64 inside]
  rw [inInt64_iff] at inside
  exact Int64.toInt_ofInt_of_le (by omega) (by omega)

/-- The nearest end of the range to a number beyond it. -/
def boundary (negative : Bool) : Int64 :=
  if negative then Int64.minValue else Int64.maxValue

theorem clampedInt64_signed {negative : Bool} {magnitude : Nat}
    (large : 9223372036854775808 ≤ magnitude) :
    clampedInt64 (signed negative magnitude) = boundary negative := by
  have least : Int64.minValue.toInt = -9223372036854775808 := rfl
  have greatest : Int64.maxValue.toInt = 9223372036854775807 := rfl
  cases negative with
  | false =>
      have signs : signed false magnitude = magnitude := rfl
      rw [clampedInt64, signs, if_neg (by omega), if_pos (by omega)]
      rfl
  | true =>
      have signs : signed true magnitude = -magnitude := rfl
      rw [clampedInt64, signs]
      by_cases last : magnitude = 9223372036854775808
      · rw [last]
        rfl
      · rw [if_pos (by omega)]
        rfl

theorem signed_beyond {negative : Bool} {magnitude : Nat}
    (beyond : inInt64 (signed negative magnitude) = false) : 9223372036854775808 ≤ magnitude := by
  rw [not_inInt64_iff] at beyond
  cases negative with
  | false =>
      have signs : signed false magnitude = magnitude := rfl
      omega
  | true =>
      have signs : signed true magnitude = -magnitude := rfl
      omega

theorem signed_natAbs (value : Int) : signed (value < 0) value.natAbs = value := by
  by_cases negative : value < 0
  · rw [decide_eq_true negative, signed, if_pos rfl]
    omega
  · rw [decide_eq_false negative, signed, if_neg Bool.false_ne_true]
    omega

theorem clampedInt64_beyond {value : Int} (beyond : inInt64 value = false) :
    clampedInt64 value = boundary (value < 0) := by
  rw [← signed_natAbs value] at beyond
  rw [← clampedInt64_signed (signed_beyond beyond), signed_natAbs]

theorem readInteger_of_signs {text digits : List Char} {negative : Bool}
    (signs : Signs text negative digits) (allDigits : AllDigits digits) (nonempty : digits ≠ []) :
    readInteger text = Int64.ofInt <$> readDigitsFrom negative (signed negative 0) digits := by
  obtain ⟨first, later, rfl⟩ := List.exists_cons_of_ne_nil nonempty
  cases signs with
  | none => exact readInteger_of_digits (allDigits first List.mem_cons_self)
  | plus => rfl
  | minus => rfl

end Text

namespace Binary64

open Text

theorem readDecimal?_of_digits (negative : Bool) {digits : List Char}
    (allDigits : AllDigits digits) (nonempty : digits ≠ []) :
    readDecimal? negative digits = some (ofRatio negative (naturalOfDigits digits) 1) := by
  have taken := takeWhile_digits allDigits []
  have dropped := dropWhile_digits allDigits []
  rw [List.append_nil, List.takeWhile_nil, List.append_nil] at taken
  rw [List.append_nil, List.dropWhile_nil] at dropped
  have split : splitFraction [] = ([], []) := rfl
  have exponent : boundedExponent digits.length (0 - ([] : List Char).length) = .ofNat 0 :=
    boundedExponent_places (Nat.zero_le _)
  have power : naturalOfDigits digits * Nat.pow 10 0 = naturalOfDigits digits := Nat.mul_one _
  simp only [readDecimal?, taken, dropped, split, readExponent?_nil, Option.map_some,
    List.append_nil, exponent, Decimal.toBinary64, power]
  simp [nonempty]

theorem ofText?_of_signs {text digits : List Char} {negative : Bool}
    (signs : Signs text negative digits) (allDigits : AllDigits digits) (nonempty : digits ≠ []) :
    ofText? text = some (ofRatio negative (naturalOfDigits digits) 1) := by
  rw [← readDecimal?_of_digits negative allDigits nonempty]
  obtain ⟨first, later, rfl⟩ := List.exists_cons_of_ne_nil nonempty
  have digit := allDigits first List.mem_cons_self
  rw [← readMagnitude?_of_digit negative digit]
  cases signs with
  | none => exact ofText?_of_digit digit
  | plus => rfl
  | minus => rfl

theorem isFinite_ofRatio (negative : Bool) (value : Nat) : (ofRatio negative value 1).isFinite =
    decide (nearestUnits (value * oneUnits) 1 < overflowUnits) := by
  unfold ofRatio
  split <;> simp only [isFinite, *, decide_true, decide_false]

theorem isFinite_ofInt_signed (negative : Bool) (magnitude : Nat) :
    (ofInt (signed negative magnitude)).isFinite = (ofRatio negative magnitude 1).isFinite := by
  have same : (signed negative magnitude).natAbs = magnitude := by
    cases negative <;> simp [signed]
  rw [ofInt, same, isFinite_ofRatio, isFinite_ofRatio]

theorem whole?_finite (negative : Bool) {units : Nat} (fits : Fits units) :
    (finite negative units fits).whole? = some (signed negative (units / oneUnits)) := by
  simp only [whole?, signed, Int.natCast_ediv]

theorem place?_finite (negative : Bool) {units : Nat} (fits : Fits units) :
    (finite negative units fits).place? = some (signed negative units) := rfl

theorem tdiv_signed (negative : Bool) (left right : Nat) :
    (signed negative left).tdiv right = signed negative (left / right) := by
  cases negative with
  | false => exact (Int.ofNat_tdiv left right).symm
  | true =>
      have signs : signed true left = -left := rfl
      rw [signs, Int.neg_tdiv, ← Int.ofNat_tdiv]
      rfl

theorem isFinite_of_le {units value : Nat} (fits : Fits units) (le : value * oneUnits ≤ units)
    (negative : Bool) : (ofRatio negative value 1).isFinite = true := by
  have own := nearestUnits_of_fits fits Nat.one_pos
  have least := nearestUnits_mono le 1
  have bound := fits.1
  rw [Nat.mul_one] at own
  rw [isFinite_ofRatio, decide_eq_true_eq]
  omega

theorem fits_two_pow_63 : Fits (9223372036854775808 * oneUnits) :=
  fits_natural 63 (by decide) (by decide) (by decide)

theorem isFinite_of_inInt64 {value : Int} (inside : inInt64 value = true) :
    (ofInt value).isFinite = true := by
  have range := inInt64_iff.1 inside
  exact isFinite_of_le fits_two_pow_63 (Nat.mul_le_mul_right oneUnits (by omega)) _

theorem le_whole_of_le {value : Nat} (large : 9223372036854775808 ≤ value) :
    9223372036854775808 ≤ nearestMagnitude value / oneUnits := by
  have units := nearestMagnitude_mono large
  rw [nearestMagnitude_of_fits fits_two_pow_63] at units
  exact (Nat.le_div_iff_mul_le oneUnits_pos).2 units

theorem whole?_eq_tdiv {value : Binary64} (finite : value.isFinite = true) {place : Int}
    (lies : value.place? = some place) : value.whole? = some (place.tdiv oneUnits) := by
  cases value with
  | nan | infinite => cases finite
  | finite negative units fits =>
      rw [place?_finite, Option.some.injEq] at lies
      rw [whole?_finite, ← lies, tdiv_signed]

theorem isFinite_tdiv {value : Binary64} (finite : value.isFinite = true) {place : Int}
    (lies : value.place? = some place) : (ofInt (place.tdiv oneUnits)).isFinite = true := by
  cases value with
  | nan | infinite => cases finite
  | finite negative units fits =>
      rw [place?_finite, Option.some.injEq] at lies
      rw [← lies, tdiv_signed, isFinite_ofInt_signed]
      exact isFinite_of_le fits (Nat.div_mul_le_self units oneUnits) negative

theorem whole?_ofRatio (negative : Bool) (value : Nat) : (ofRatio negative value 1).whole? =
    if (ofRatio negative value 1).isFinite then
      some (signed negative (nearestMagnitude value / oneUnits))
    else none := by
  rw [isFinite_ofRatio]
  unfold ofRatio
  split
  · next below =>
      rw [decide_eq_true below, if_pos rfl, whole?_finite, nearestMagnitude,
        Nat.min_eq_left (Nat.le_of_lt below)]
  · next beyond =>
      rw [decide_eq_false beyond, if_neg Bool.false_ne_true]
      rfl

end Binary64

namespace Template

open Text Binary64

/-- The whole number that a binding stands for: an integer, the whole part of a finite
floating-point number, or a signed numeral, with blanks around it or without. -/
inductive IsWhole : Value → Int → Prop
  | int (value : Int64) : IsWhole (.int value) value.toInt
  | float {value : Binary64} {place : Int} (finite : value.isFinite = true)
      (lies : value.place? = some place) : IsWhole (.float value) (place.tdiv oneUnits)
  | string {text : String} {digits : List Char} {negative : Bool}
      (signs : Signs (trim text.toList) negative digits) (allDigits : AllDigits digits)
      (nonempty : digits ≠ []) : IsWhole (.string text) (signed negative (naturalOfDigits digits))

theorem clampedWhole?_ofRatio {negative : Bool} {magnitude : Nat}
    (beyond : inInt64 (signed negative magnitude) = false) :
    clampedWhole? (ofRatio negative magnitude 1) =
      if (ofRatio negative magnitude 1).isFinite then some (boundary negative) else none := by
  have large := le_whole_of_le (signed_beyond beyond)
  rw [clampedWhole?, whole?_ofRatio]
  split
  · rw [Option.map_some, clampedInt64_signed large]
  · rfl

theorem integer?_of_ok {text : String} {value : Int64}
    (reads : readInteger (trim text.toList) = .ok value) :
    integer? (.string text) = some value := by
  rw [integer?, reads]

theorem integer?_of_error {text : String} {error : IntegerError}
    (reads : readInteger (trim text.toList) = .error error) :
    integer? (.string text) = (ofText? (trim text.toList)).bind clampedWhole? := by
  rw [integer?, reads]

theorem integer?_of_isWhole {binding : Value} {number : Int} (whole : IsWhole binding number) :
    integer? binding =
      if (Binary64.ofInt number).isFinite then some (clampedInt64 number) else none := by
  cases whole with
  | int value =>
      have inside := inInt64_toInt value
      rw [if_pos (isFinite_of_inInt64 inside), integer?, Option.some.injEq, ← Int64.toInt_inj,
        toInt_clampedInt64 inside]
  | float finite lies =>
      rw [if_pos (isFinite_tdiv finite lies), integer?, clampedWhole?, whole?_eq_tdiv finite lies,
        Option.map_some]
  | @string text digits negative signs allDigits nonempty =>
      have start : inInt64 (signed negative 0) = true := by cases negative <;> rfl
      have reads := readInteger_of_signs signs allDigits nonempty
      cases inside : inInt64 (signed negative (naturalOfDigits digits)) with
      | true =>
          rw [readDigitsFrom_of_bound allDigits 0 inside] at reads
          rw [if_pos (isFinite_of_inInt64 inside), clampedInt64_of_inInt64 inside,
            integer?_of_ok reads]
          rfl
      | false =>
          rw [readDigitsFrom_beyond allDigits 0 start inside] at reads
          rw [integer?_of_error reads, ofText?_of_signs signs allDigits nonempty, Option.bind_some,
            clampedWhole?_ofRatio inside, isFinite_ofInt_signed,
            clampedInt64_signed (signed_beyond inside)]

theorem written?_integer {binding : Value} {number : Int} (whole : IsWhole binding number) :
    written? .integer binding = (integer? binding).map fun value => integerText value.toInt := by
  cases whole with
  | float finite => simp only [written?, finite, Bool.not_true, Bool.false_eq_true, if_false]
  | int | string => simp only [written?, Bool.false_eq_true, if_false]

theorem write_whole {binding : Value} {number : Int} (whole : IsWhole binding number) :
    write .integer binding =
      if (Binary64.ofInt number).isFinite then
        .ok (integerText (clampedInt64 number).toInt)
      else .error (.unusableBinding "%d" binding.shown) := by
  rw [write, written?_integer whole, integer?_of_isWhole whole]
  cases (Binary64.ofInt number).isFinite with
  | true => rfl
  | false => rfl

/-- What stands for a number is replaced by its digits, or by those of the nearest end of the range
of 64 bits. There is no text for what is rounded to infinity. -/
theorem expandFrom_whole {binding : Value} {number : Int} (whole : IsWhole binding number)
    (index : Nat) (later : List Value) (rest : List Char) :
    (inInt64 number = true →
      expandFrom index (binding :: later) ('%' :: 'd' :: rest) =
        (integerDigits number ++ ·) <$> expandFrom (index + 1) later rest) ∧
    (inInt64 number = false → (Binary64.ofInt number).isFinite = true →
      expandFrom index (binding :: later) ('%' :: 'd' :: rest) =
        (integerDigits (boundary (number < 0)).toInt ++ ·) <$> expandFrom (index + 1) later rest) ∧
    ((Binary64.ofInt number).isFinite = false →
      expandFrom index (binding :: later) ('%' :: 'd' :: rest) =
        .error (.unusableBinding "%d" binding.shown)) := by
  rw [expandFrom_conversion rfl, write_whole whole]
  refine ⟨?_, ?_, ?_⟩
  · intro inside
    rw [if_pos (isFinite_of_inInt64 inside), toInt_clampedInt64 inside, integerText]
    simp only [Except.bind, String.toList_ofList]
  · intro beyond finite
    rw [if_pos finite, clampedInt64_beyond beyond, integerText]
    simp only [Except.bind, String.toList_ofList]
  · intro infinite
    rw [infinite, if_neg Bool.false_ne_true]
    rfl

/-- One more than the greatest number of 64 bits is replaced by the greatest. -/
theorem expandFrom_whole_greatest :
    IsWhole (.string " +9223372036854775808 ") 9223372036854775808 ∧
    inInt64 9223372036854775808 = false ∧
    (Binary64.ofInt 9223372036854775808).isFinite = true ∧
    expandFrom 0 [.string " +9223372036854775808 "] ['%', 'd'] =
      .ok (integerDigits 9223372036854775807) := by
  have trimmed : trim " +9223372036854775808 ".toList =
      '+' :: integerDigits 9223372036854775808 := by decide +kernel
  have signs : Signs (trim " +9223372036854775808 ".toList) false
      (integerDigits 9223372036854775808) := by
    rw [trimmed]
    exact .plus _
  have whole : IsWhole (.string " +9223372036854775808 ") 9223372036854775808 :=
    .string signs (allDigits_toDigits _) Nat.toDigits_ne_nil
  have beyond : inInt64 9223372036854775808 = false := rfl
  have finite : (Binary64.ofInt 9223372036854775808).isFinite = true := by decide +kernel
  refine ⟨whole, beyond, finite, ?_⟩
  rw [(expandFrom_whole whole 0 [] []).2.1 beyond finite]
  rfl

end Template

end FactRules
