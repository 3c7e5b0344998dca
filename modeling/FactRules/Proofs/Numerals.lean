import FactRules.SharedCondition.Parse

/-!
Numbers survive being written and read. A magnitude is written in digits that round back to it, and
no step of the writing or of the reading changes the number that the digits stand for.
-/

namespace FactRules

namespace Decimal

open Binary64

theorem toBinary64_of_readsBack {units : Nat} {decimal : Decimal} (fits : Fits units)
    (back : readsBack units decimal = true) (negative : Bool) :
    decimal.toBinary64 negative = .finite negative units fits := by
  have signs (numerator denominator : Nat)
      (found : ofRatio false numerator denominator = .finite false units fits) :
      ofRatio negative numerator denominator = .finite negative units fits := by
    simp only [ofRatio] at found ⊢
    split at found
    · next bound =>
        simp only [finite.injEq, true_and] at found
        subst found
        simp [bound]
    · cases found
  have positive : decimal.toBinary64 false = .finite false units fits := by
    simp only [readsBack] at back
    split at back
    · next sign found _ read =>
        simp only [decide_eq_true_eq] at back
        subst back
        have unsigned : sign = false := by
          simp only [toBinary64, ofRatio] at read
          split at read <;> split at read <;> simp_all
        rw [read, unsigned]
    · simp at back
  simp only [toBinary64] at positive ⊢
  split at positive
  · exact signs _ _ positive
  · exact signs _ _ positive

theorem toBinary64_tenfold (negative : Bool) (digits : Nat) (exponent : Int) :
    toBinary64 negative ⟨10 * digits, exponent⟩ = toBinary64 negative ⟨digits, exponent + 1⟩ := by
  match exponent with
  | .ofNat power =>
      have next : Int.ofNat power + 1 = .ofNat (power + 1) := rfl
      simp only [next, toBinary64]
      rw [Nat.mul_comm 10, Nat.mul_assoc, show 10 * Nat.pow 10 power = Nat.pow 10 (power + 1) from
        (Nat.pow_succ' (m := 10)).symm]
  | .negSucc 0 =>
      have next : Int.negSucc 0 + 1 = .ofNat 0 := rfl
      simp only [next, toBinary64]
      have same := ofRatio_mul_mul negative digits 1 10 (by decide)
      simpa [Nat.mul_comm] using same
  | .negSucc (power + 1) =>
      have next : Int.negSucc (power + 1) + 1 = .negSucc power := rfl
      simp only [next, toBinary64]
      have same := ofRatio_mul_mul negative digits (Nat.pow 10 (power + 1)) 10 (by decide)
      rw [Nat.mul_comm 10, ← same]
      rfl

theorem toBinary64_trimmed (negative : Bool) (decimal : Decimal) :
    decimal.trimmed.toBinary64 negative = decimal.toBinary64 negative := by
  fun_induction trimmed decimal with
  | case1 decimal trailing ih =>
      rw [ih, ← toBinary64_tenfold, Nat.mul_div_cancel' (Nat.dvd_of_mod_eq_zero trailing.1)]
  | case2 => rfl

theorem readsBack_of_nearestOnGrid? {tie : Tie} {units : Nat} {exponent : Int} {decimal : Decimal}
    (found : nearestOnGrid? tie units exponent = some decimal) :
    readsBack units decimal = true := by
  simp only [nearestOnGrid?] at found
  split at found
  · next lesserBack =>
      split at found
      · next greater =>
          rw [Bool.and_eq_true] at greater
          rw [← Option.some.inj found]
          exact greater.1
      · rw [← Option.some.inj found]
        exact lesserBack
  · split at found
    · next greaterBack =>
        rw [← Option.some.inj found]
        exact greaterBack
    · cases found

theorem toBinary64_neg (negative : Bool) (digits power : Nat) :
    toBinary64 negative ⟨digits, -(power : Int)⟩ = ofRatio negative digits (Nat.pow 10 power) := by
  cases power with
  | zero => exact congrArg (ofRatio negative · 1) (Nat.mul_one digits)
  | succ power => rfl

theorem ofRatio_powers (negative : Bool) (units power : Nat) :
    ofRatio negative (units * Nat.pow 5 power) (Nat.pow 10 power) =
      ofRatio negative units (Nat.pow 2 power) := by
  have positive : 0 < Nat.pow 5 power := Nat.pow_pos (by decide)
  have same := ofRatio_mul_mul negative units (Nat.pow 2 power) _ positive
  rwa [← show Nat.pow 10 power = Nat.pow 2 power * Nat.pow 5 power from Nat.mul_pow 2 5 power]
    at same

theorem toBinary64_exact (negative : Bool) {units : Nat} (fits : Fits units) :
    (exact units).toBinary64 negative = .finite negative units fits := by
  have same := ofRatio_units negative fits
  unfold oneUnits at same
  rw [Decimal.exact, toBinary64_neg, ofRatio_powers, same]

/-- The shortest numeral stands for the number it was made from. -/
theorem toBinary64_shortest (tie : Tie) (negative : Bool) {units : Nat} (fits : Fits units) :
    (shortest tie units).toBinary64 negative = .finite negative units fits := by
  by_cases zero : units = 0
  · subst zero
    have same := ofRatio_mul_mul negative 0 1 oneUnits oneUnits_pos
    rw [Nat.zero_mul, Nat.one_mul, ofRatio_units negative fits] at same
    simpa [shortest, toBinary64] using same.symm
  · simp only [shortest, zero, if_false, toBinary64_trimmed]
    cases found : (List.range greatestDigitCount).findSome? fun (count : Nat) =>
        nearestOnGrid? tie units (pointPlace units - 1 - count) with
    | none => exact toBinary64_exact negative fits
    | some decimal =>
        obtain ⟨count, _, onGrid⟩ := List.exists_of_findSome?_eq_some found
        exact toBinary64_of_readsBack fits (readsBack_of_nearestOnGrid? onGrid) negative

end Decimal

namespace Text

def AllDigits (characters : List Char) : Prop :=
  ∀ character ∈ characters, character.isDigit = true

theorem allDigits_toDigits (value : Nat) : AllDigits (Nat.toDigits 10 value) :=
  fun _ member => Nat.isDigit_of_mem_toDigits (by decide) (by decide) member

theorem allDigits_append {left right : List Char} :
    AllDigits (left ++ right) ↔ AllDigits left ∧ AllDigits right := by
  simp only [AllDigits, List.mem_append, or_imp, forall_and]

theorem takeWhile_digits {digits : List Char} (allDigits : AllDigits digits) (rest : List Char) :
    (digits ++ rest).takeWhile Char.isDigit = digits ++ rest.takeWhile Char.isDigit :=
  List.takeWhile_append_of_pos allDigits

theorem dropWhile_digits {digits : List Char} (allDigits : AllDigits digits) (rest : List Char) :
    (digits ++ rest).dropWhile Char.isDigit = rest.dropWhile Char.isDigit :=
  List.dropWhile_append_of_pos allDigits

theorem naturalOfDigits_append (left right : List Char) :
    naturalOfDigits (left ++ right) = Nat.ofDigitChars 10 right (naturalOfDigits left) :=
  Nat.ofDigitChars_append 0

theorem mem_digits {character : Char} (digit : character.isDigit = true) :
    character ∈ ['0', '1', '2', '3', '4', '5', '6', '7', '8', '9'] := by
  rw [Char.isDigit_iff_toNat] at digit
  have code : character.toNat ∈ [48, 49, 50, 51, 52, 53, 54, 55, 56, 57] := by
    have zero : '0'.toNat = 48 := rfl
    have nine : '9'.toNat = 57 := rfl
    simp only [List.mem_cons, List.not_mem_nil, or_false]
    omega
  exact List.mem_map.2 ⟨character.toNat, code, Char.ofNat_toNat character⟩

theorem toLower_of_isDigit {character : Char} (digit : character.isDigit = true) :
    character.toLower = character := by
  have isOne := mem_digits digit
  simp only [List.mem_cons, List.not_mem_nil, or_false] at isOne
  rcases isOne with rfl | rfl | rfl | rfl | rfl | rfl | rfl | rfl | rfl | rfl <;> rfl

def signed (negative : Bool) (magnitude : Nat) : Int :=
  if negative then -magnitude else magnitude

theorem inInt64_signed_of_le {negative : Bool} {less more : Nat} (le : less ≤ more)
    (bound : inInt64 (signed negative more) = true) : inInt64 (signed negative less) = true := by
  have least : Int64.minValue.toInt = -9223372036854775808 := rfl
  have greatest : Int64.maxValue.toInt = 9223372036854775807 := rfl
  simp only [inInt64, least, greatest, Bool.and_eq_true, decide_eq_true_eq, signed] at bound ⊢
  cases negative
  · simp only [Bool.false_eq_true, if_false] at bound ⊢
    omega
  · simp only [if_true] at bound ⊢
    omega

theorem le_ofDigitChars (digits : List Char) (value : Nat) :
    value ≤ Nat.ofDigitChars 10 digits value := by
  rw [Nat.ofDigitChars_eq_ofDigitChars_zero]
  have : value ≤ 10 ^ digits.length * value := Nat.le_mul_of_pos_left value (Nat.pow_pos (by decide))
  omega

theorem signed_digit (negative : Bool) (value : Nat) (character : Char) :
    (if negative then 10 * signed negative value - digitValue character
      else 10 * signed negative value + digitValue character) =
      signed negative (10 * value + (character.toNat - '0'.toNat)) := by
  cases negative
  · simp only [signed, digitValue, Bool.false_eq_true, if_false]
    omega
  · simp only [signed, digitValue, if_true]
    omega

theorem readDigitsFrom_of_bound {negative : Bool} {digits : List Char}
    (allDigits : AllDigits digits) (value : Nat)
    (bound : inInt64 (signed negative (Nat.ofDigitChars 10 digits value)) = true) :
    readDigitsFrom negative (signed negative value) digits =
      .ok (signed negative (Nat.ofDigitChars 10 digits value)) := by
  induction digits generalizing value with
  | nil => simp [readDigitsFrom]
  | cons character digits ih =>
      have isDigit : character.isDigit = true := allDigits character List.mem_cons_self
      have later : AllDigits digits :=
        fun other member => allDigits other (List.mem_cons_of_mem _ member)
      rw [Nat.ofDigitChars_cons] at bound ⊢
      have nextBound := inInt64_signed_of_le
        (le_ofDigitChars digits (10 * value + (character.toNat - '0'.toNat))) bound
      simp only [readDigitsFrom, isDigit, if_true, signed_digit, nextBound]
      exact ih later _ bound

theorem readDigitsFrom_beyond {negative : Bool} {digits : List Char}
    (allDigits : AllDigits digits) (value : Nat) (inside : inInt64 (signed negative value) = true)
    (beyond : inInt64 (signed negative (Nat.ofDigitChars 10 digits value)) = false) :
    readDigitsFrom negative (signed negative value) digits =
      .error (if negative then .tooSmall else .tooLarge) := by
  induction digits generalizing value with
  | nil =>
      rw [Nat.ofDigitChars_nil, inside] at beyond
      cases beyond
  | cons character digits ih =>
      have isDigit : character.isDigit = true := allDigits character List.mem_cons_self
      have later : AllDigits digits :=
        fun other member => allDigits other (List.mem_cons_of_mem _ member)
      rw [Nat.ofDigitChars_cons] at beyond
      simp only [readDigitsFrom, isDigit, if_true, signed_digit]
      split
      · next nextInside => exact ih later _ nextInside beyond
      · rfl

theorem inInt64_toInt (value : Int64) : inInt64 value.toInt = true := by
  simp only [inInt64, Bool.and_eq_true, decide_eq_true_eq]
  exact ⟨Int64.minValue_le_toInt value, Int64.toInt_le value⟩

theorem integerDigits_eq (value : Int) : ∃ negative magnitude,
    value = signed negative magnitude ∧
      integerDigits value = (if negative then ['-'] else []) ++ Nat.toDigits 10 magnitude := by
  cases value with
  | ofNat magnitude => exact ⟨false, magnitude, rfl, rfl⟩
  | negSucc magnitude => exact ⟨true, magnitude + 1, rfl, rfl⟩

theorem readInteger_of_digits {first : Char} {digits : List Char}
    (digit : first.isDigit = true) :
    readInteger (first :: digits) = Int64.ofInt <$> readDigitsFrom false 0 (first :: digits) := by
  have notPlus : first ≠ '+' := fun same => by simp [same] at digit
  have notMinus : first ≠ '-' := fun same => by simp [same] at digit
  unfold readInteger
  split <;> simp_all

theorem readInteger_negative {first : Char} {digits : List Char} :
    readInteger ('-' :: first :: digits) =
      Int64.ofInt <$> readDigitsFrom true 0 (first :: digits) := rfl

theorem readInteger_integerDigits (value : Int64) :
    readInteger (integerDigits value.toInt) = .ok value := by
  obtain ⟨negative, magnitude, same, digits⟩ := integerDigits_eq value.toInt
  have allDigits := allDigits_toDigits magnitude
  have bound : inInt64 (signed negative (Nat.ofDigitChars 10 (Nat.toDigits 10 magnitude) 0)) =
      true := by
    rw [Nat.ofDigitChars_ten_toDigits, ← same]
    exact inInt64_toInt value
  have read := readDigitsFrom_of_bound allDigits 0 bound
  have zero : signed negative 0 = 0 := by cases negative <;> rfl
  rw [Nat.ofDigitChars_ten_toDigits, ← same, zero] at read
  rw [digits]
  cases shape : Nat.toDigits 10 magnitude with
  | nil => exact absurd shape Nat.toDigits_ne_nil
  | cons first later =>
      rw [shape] at read allDigits
      cases negative with
      | false =>
          rw [if_neg Bool.false_ne_true, List.nil_append,
            readInteger_of_digits (allDigits first List.mem_cons_self), read]
          exact congrArg Except.ok (Int64.ofInt_toInt value)
      | true =>
          rw [if_pos rfl, List.singleton_append, readInteger_negative, read]
          exact congrArg Except.ok (Int64.ofInt_toInt value)

end Text

namespace Binary64

open Text Decimal

structure Pointed (text : List Char) (decimal : Decimal) (whole fraction : List Char) : Prop where
  split : text = whole ++ '.' :: fraction
  wholeDigits : AllDigits whole
  fractionDigits : AllDigits fraction
  wholeNonempty : whole ≠ []
  fractionNonempty : fraction ≠ []
  value : ∀ negative, toBinary64 negative ⟨naturalOfDigits (whole ++ fraction), -(fraction.length : Int)⟩ =
    decimal.toBinary64 negative

theorem allDigits_replicate (count : Nat) : AllDigits (List.replicate count '0') := by
  intro character member
  rw [List.eq_of_mem_replicate member]
  rfl

theorem pointed_positional (digits : Nat) (exponent : Int) :
    ∃ whole fraction,
      Pointed (positional (Nat.toDigits 10 digits) exponent) ⟨digits, exponent⟩ whole fraction := by
  have allDigits := allDigits_toDigits digits
  have nonempty : Nat.toDigits 10 digits ≠ [] := Nat.toDigits_ne_nil
  have value : naturalOfDigits (Nat.toDigits 10 digits) = digits := Nat.ofDigitChars_ten_toDigits
  cases exponent with
  | ofNat zeros =>
      refine ⟨Nat.toDigits 10 digits ++ List.replicate zeros '0', ['0'], by simp [positional],
        allDigits_append.2 ⟨allDigits, allDigits_replicate zeros⟩, by simp [AllDigits],
        by simp [nonempty], by simp, fun negative => ?_⟩
      have tenfold : naturalOfDigits (Nat.toDigits 10 digits ++ List.replicate zeros '0' ++ ['0']) =
          10 * (digits * Nat.pow 10 zeros) := by
        rw [naturalOfDigits_append, naturalOfDigits_append, value]
        simp [Nat.ofDigitChars_cons, Nat.mul_comm]
      have point : -((['0'] : List Char).length : Int) + 1 = .ofNat 0 := rfl
      rw [tenfold, toBinary64_tenfold, point]
      exact congrArg (ofRatio negative · 1) (Nat.mul_one _)
  | negSucc before =>
      by_cases inside : before + 1 < (Nat.toDigits 10 digits).length
      · refine ⟨(Nat.toDigits 10 digits).take ((Nat.toDigits 10 digits).length - (before + 1)),
          (Nat.toDigits 10 digits).drop ((Nat.toDigits 10 digits).length - (before + 1)),
          by simp [positional, inside], fun character member =>
            allDigits character (List.mem_of_mem_take member), fun character member =>
            allDigits character (List.mem_of_mem_drop member), ?_, ?_, fun negative => ?_⟩
        · intro empty
          have := congrArg List.length empty
          rw [List.length_take, List.length_nil] at this
          omega
        · intro empty
          have := congrArg List.length empty
          rw [List.length_drop, List.length_nil] at this
          omega
        · have places : (Nat.toDigits 10 digits).length -
              ((Nat.toDigits 10 digits).length - (before + 1)) = before + 1 := by omega
          rw [List.take_append_drop, value, List.length_drop, places]
          rfl
      · refine ⟨['0'], List.replicate (before + 1 - (Nat.toDigits 10 digits).length) '0' ++
          Nat.toDigits 10 digits, by simp [positional, inside], by simp [AllDigits],
          allDigits_append.2 ⟨allDigits_replicate _, allDigits⟩, by simp, by simp [nonempty],
          fun negative => ?_⟩
        have places : (List.replicate (before + 1 - (Nat.toDigits 10 digits).length) '0' ++
            Nat.toDigits 10 digits).length = before + 1 := by
          rw [List.length_append, List.length_replicate]
          omega
        have same : naturalOfDigits (['0'] ++ (List.replicate
            (before + 1 - (Nat.toDigits 10 digits).length) '0' ++ Nat.toDigits 10 digits)) =
              digits := by
          rw [naturalOfDigits_append, Nat.ofDigitChars_append]
          simp [naturalOfDigits, Nat.ofDigitChars_cons]
        rw [places, same]
        rfl

theorem readExponent?_nil : readExponent? [] = some 0 := rfl

theorem boundedExponent_places {count places : Nat} (inside : places ≤ count) :
    boundedExponent count (0 - (places : Int)) = -(places : Int) := by
  simp only [boundedExponent]
  omega

theorem readDecimal?_pointed (negative : Bool) {text whole fraction : List Char}
    {decimal : Decimal} (pointed : Pointed text decimal whole fraction) :
    readDecimal? negative text = some (decimal.toBinary64 negative) := by
  have stops : (('.' :: fraction).takeWhile Char.isDigit) = [] := rfl
  have keeps : (('.' :: fraction).dropWhile Char.isDigit) = '.' :: fraction := rfl
  have taken : fraction.takeWhile Char.isDigit = fraction := by
    simpa using takeWhile_digits pointed.fractionDigits []
  have dropped : fraction.dropWhile Char.isDigit = [] := by
    simpa using dropWhile_digits pointed.fractionDigits []
  have inside : fraction.length ≤ (whole ++ fraction).length := by simp
  rw [pointed.split]
  simp only [readDecimal?, takeWhile_digits pointed.wholeDigits, stops, List.append_nil,
    dropWhile_digits pointed.wholeDigits, keeps, splitFraction, taken, dropped,
    readExponent?_nil, Option.map_some, boundedExponent_places inside, pointed.value]
  simp [pointed.wholeNonempty]

theorem readMagnitude?_of_digit (negative : Bool) {first : Char} {later : List Char}
    (digit : first.isDigit = true) :
    readMagnitude? negative (first :: later) = readDecimal? negative (first :: later) := by
  have notLetter : ∀ letter : Char, letter.isDigit = false → first.toLower ≠ letter := by
    intro letter isLetter same
    rw [toLower_of_isDigit digit] at same
    simp [← same, digit] at isLetter
  have notInfinite := notLetter 'i' rfl
  have notNan := notLetter 'n' rfl
  simp [readMagnitude?, notInfinite, notNan]

theorem readMagnitude?_pointed (negative : Bool) {text whole fraction : List Char}
    {decimal : Decimal} (pointed : Pointed text decimal whole fraction) :
    readMagnitude? negative text = some (decimal.toBinary64 negative) := by
  obtain ⟨first, later, wholeEq⟩ := List.exists_cons_of_ne_nil pointed.wholeNonempty
  have digit : first.isDigit = true :=
    pointed.wholeDigits first (by rw [wholeEq]; exact List.mem_cons_self)
  have head : text = first :: (later ++ '.' :: fraction) := by
    rw [pointed.split, wholeEq, List.cons_append]
  rw [head, readMagnitude?_of_digit negative digit, ← head, readDecimal?_pointed negative pointed]

theorem ofText?_of_digit {first : Char} {later : List Char} (digit : first.isDigit = true) :
    ofText? (first :: later) = readMagnitude? false (first :: later) := by
  have notPlus : first ≠ '+' := fun same => by simp [same] at digit
  have notMinus : first ≠ '-' := fun same => by simp [same] at digit
  unfold ofText?
  split <;> simp_all

theorem magnitudeText_plain (units : Nat) : ∃ whole fraction,
    Pointed (magnitudeText Value.plainLayout units) (shortest .greater units) whole fraction := by
  have plain : magnitudeText Value.plainLayout units =
      positional (Nat.toDigits 10 (shortest .greater units).digits)
        (shortest .greater units).exponent := rfl
  rw [plain]
  exact pointed_positional _ _

theorem ofText?_toText (negative : Bool) {units : Nat} (fits : Fits units) :
    ofText? (toText Value.plainLayout (.finite negative units fits)) =
      some (.finite negative units fits) := by
  obtain ⟨whole, fraction, pointed⟩ := magnitudeText_plain units
  have read := readMagnitude?_pointed negative pointed
  rw [toBinary64_shortest .greater negative fits] at read
  cases negative with
  | true => exact read
  | false =>
      obtain ⟨first, later, wholeEq⟩ := List.exists_cons_of_ne_nil pointed.wholeNonempty
      have digit : first.isDigit = true :=
        pointed.wholeDigits first (by rw [wholeEq]; exact List.mem_cons_self)
      have head : magnitudeText Value.plainLayout units = first :: (later ++ '.' :: fraction) := by
        rw [pointed.split, wholeEq, List.cons_append]
      rw [head] at read
      simp only [toText, Bool.false_eq_true, if_false, head]
      rw [ofText?_of_digit digit, read]

end Binary64

namespace Text

def behindPoint : Option (List Char) → List Char
  | none => []
  | some digits => '.' :: digits

structure IsNumeral (text : List Char) (negative : Bool) (whole : List Char)
    (fraction : Option (List Char)) : Prop where
  split : text = (if negative then ['-'] else []) ++ (whole ++ behindPoint fraction)
  wholeDigits : AllDigits whole
  wholeNonempty : whole ≠ []
  fractionDigits : ∀ digits, fraction = some digits → AllDigits digits ∧ digits ≠ []

theorem isNumeral_integerDigits (value : Int) :
    ∃ negative whole, IsNumeral (integerDigits value) negative whole none := by
  obtain ⟨negative, magnitude, _, digits⟩ := integerDigits_eq value
  refine ⟨negative, Nat.toDigits 10 magnitude, ?_, allDigits_toDigits magnitude,
    Nat.toDigits_ne_nil, by simp⟩
  rw [digits, behindPoint, List.append_nil]

theorem isNumeral_toText (negative : Bool) {units : Nat} (fits : Binary64.Fits units) :
    ∃ whole fraction, IsNumeral (Binary64.toText Value.plainLayout (.finite negative units fits))
      negative whole (some fraction) := by
  obtain ⟨whole, fraction, pointed⟩ := Binary64.magnitudeText_plain units
  refine ⟨whole, fraction, ?_, pointed.wholeDigits, pointed.wholeNonempty, ?_⟩
  · cases negative <;> simp [Binary64.toText, pointed.split, behindPoint]
  · intro digits same
    cases same
    exact ⟨pointed.fractionDigits, pointed.fractionNonempty⟩

theorem point_mem_iff {text : List Char} {negative : Bool} {whole : List Char}
    {fraction : Option (List Char)} (numeral : IsNumeral text negative whole fraction) :
    '.' ∈ text ↔ fraction.isSome = true := by
  have notDigit : ∀ {digits : List Char}, AllDigits digits → '.' ∉ digits :=
    fun allDigits member => absurd (allDigits '.' member) (by decide)
  rw [numeral.split]
  have sign : '.' ∉ (if negative then ['-'] else []) := by cases negative <;> decide
  cases fraction with
  | none => simp [sign, notDigit numeral.wholeDigits, behindPoint]
  | some digits => simp [behindPoint]

end Text

namespace Literal

theorem isNumeral_integer (value : Int64) :
    ∃ negative whole, Text.IsNumeral (Literal.integer value).text.toList negative whole none := by
  obtain ⟨negative, whole, numeral⟩ := Text.isNumeral_integerDigits value.toInt
  exact ⟨negative, whole, by simpa [text, Text.integerText] using numeral⟩

theorem isNumeral_float {value : Binary64} (finite : value.isFinite = true) :
    ∃ negative whole fraction,
      Text.IsNumeral (Literal.float value).text.toList negative whole (some fraction) := by
  cases value with
  | nan => cases finite
  | infinite => cases finite
  | finite negative units fits =>
      obtain ⟨whole, fraction, numeral⟩ := Text.isNumeral_toText negative fits
      exact ⟨negative, whole, fraction, by simpa [text, Value.floatText] using numeral⟩

end Literal

namespace SharedCondition.Stacks

theorem literalOfNumber?_integer (value : Int64) :
    literalOfNumber? (Literal.integer value).text = some (.integer value) := by
  obtain ⟨negative, whole, numeral⟩ := Literal.isNumeral_integer value
  have noPoint : '.' ∉ (Literal.integer value).text.toList := by
    simp [Text.point_mem_iff numeral]
  have read : Text.readInteger (Literal.integer value).text.toList = .ok value := by
    simp [Literal.text, Text.integerText, Text.readInteger_integerDigits]
  simp [literalOfNumber?, noPoint, read]

theorem literalOfNumber?_float {value : Binary64} (finite : value.isFinite = true) :
    literalOfNumber? (Literal.float value).text = some (.float value) := by
  obtain ⟨negative, whole, fraction, numeral⟩ := Literal.isNumeral_float finite
  have point : '.' ∈ (Literal.float value).text.toList := by
    simp [Text.point_mem_iff numeral]
  have read : Binary64.ofText? (Literal.float value).text.toList = some value := by
    cases value with
    | nan => cases finite
    | infinite => cases finite
    | finite negative units fits => simp [Literal.text, Value.floatText, Binary64.ofText?_toText]
  simp [literalOfNumber?, point, read, finite, Option.filter]

end SharedCondition.Stacks

end FactRules
