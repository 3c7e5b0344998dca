import FactRules.Binary64.Basic

/-!
Decimal numerals and the numbers they round to. `shortest` finds, for a magnitude, a numeral with
the fewest digits that rounds back to it; of two such numerals it takes the nearer one, and when
both are as near the one that a rule for ties names.
-/

namespace FactRules

structure Decimal where
  digits : Nat
  exponent : Int
  deriving DecidableEq

inductive Tie where
  | greater
  | even
  deriving DecidableEq

def Tie.takesGreater (tie : Tie) (lesser : Nat) : Bool :=
  match tie with
  | .greater => true
  | .even => lesser % 2 = 1

namespace Decimal

def toBinary64 (negative : Bool) (decimal : Decimal) : Binary64 :=
  match decimal.exponent with
  | .ofNat power => .ofRatio negative (decimal.digits * Nat.pow 10 power) 1
  | .negSucc power => .ofRatio negative decimal.digits (Nat.pow 10 (power + 1))

def trimmed (decimal : Decimal) : Decimal :=
  if decimal.digits % 10 = 0 ∧ decimal.digits ≠ 0 then
    trimmed ⟨decimal.digits / 10, decimal.exponent + 1⟩
  else decimal
termination_by decimal.digits
decreasing_by omega

def readsBack (units : Nat) (decimal : Decimal) : Bool :=
  match decimal.toBinary64 false with
  | .finite _ found _ => found = units
  | _ => false

def gridQuotient (units : Nat) : Int → Nat × Nat
  | .ofNat power => (units, Binary64.oneUnits * Nat.pow 10 power)
  | .negSucc power => (units * Nat.pow 10 (power + 1), Binary64.oneUnits)

def nearestOnGrid? (tie : Tie) (units : Nat) (exponent : Int) : Option Decimal :=
  let (numerator, denominator) := gridQuotient units exponent
  let lesser := numerator / denominator
  let remainder := numerator % denominator
  let aboveMiddle := denominator < 2 * remainder ||
    (denominator = 2 * remainder && tie.takesGreater lesser)
  if readsBack units ⟨lesser, exponent⟩ then
    if readsBack units ⟨lesser + 1, exponent⟩ && aboveMiddle then some ⟨lesser + 1, exponent⟩
    else some ⟨lesser, exponent⟩
  else if readsBack units ⟨lesser + 1, exponent⟩ then some ⟨lesser + 1, exponent⟩
  else none

def greatestDigitCount : Nat := 17

/-- How many digits a magnitude has before the decimal point; when it begins with zeros after the
point, their number, negated. -/
def pointPlace (units : Nat) : Int :=
  let quotient := gridQuotient units (-400)
  (Nat.toDigits 10 (quotient.1 / quotient.2)).length - 400

def exact (units : Nat) : Decimal :=
  ⟨units * Nat.pow 5 Binary64.unitBits, -Binary64.unitBits⟩

def shortest (tie : Tie) (units : Nat) : Decimal :=
  if units = 0 then ⟨0, 0⟩
  else
    let place := pointPlace units
    let found := (List.range greatestDigitCount).findSome? fun (count : Nat) =>
      nearestOnGrid? tie units (place - 1 - count)
    (found.getD (exact units)).trimmed

end Decimal

end FactRules
