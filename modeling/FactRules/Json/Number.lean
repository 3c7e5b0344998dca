import FactRules.Binary64.Decimal
import FactRules.Json.Tree
import FactRules.Text.Integer

/-!
The number that a numeral means. A numeral without fraction and exponent is an integer when it fits
in 64 bits. Any other keeps as many digits as fit in 64 bits, becomes a floating-point number, and
is then multiplied or divided by a power of ten, so that it need not be the nearest number. A
numeral beyond the format means nothing.
-/

namespace FactRules.Json

inductive Number where
  | integer (value : Int)
  | float (value : Binary64)
  deriving DecidableEq

namespace Number

def equals : Number → Number → Bool
  | .integer left, .integer right => left = right
  | .float left, .float right => left.equals right
  | _, _ => false

def greatestPower : Nat := 308

def timesPower (value : Binary64) (power : Nat) : Binary64 :=
  match value, Binary64.ofRatio false (Nat.pow 10 power) 1 with
  | .finite negative units _, .finite _ factor _ =>
      .ofRatio negative (units * factor) (Binary64.oneUnits * Binary64.oneUnits)
  | value, _ => value

def overPower (value : Binary64) (power : Nat) : Binary64 :=
  match value, Binary64.ofRatio false (Nat.pow 10 power) 1 with
  | .finite negative units _, .finite _ factor _ => .ofRatio negative units factor
  | value, _ => value

def isZero (value : Binary64) : Bool :=
  value.place? == some 0

def dividedBy (value : Binary64) (power : Nat) : Binary64 :=
  if power ≤ greatestPower then overPower value power
  else if isZero value then value
  else dividedBy (overPower value greatestPower) (power - greatestPower)
termination_by power
decreasing_by
  simp only [greatestPower] at *
  omega

def scaled? (negative : Bool) (significand : Nat) (exponent : Int) : Option Binary64 :=
  let value := Binary64.ofRatio negative significand 1
  match exponent with
  | .negSucc power => some (dividedBy value (power + 1))
  | .ofNat power =>
      if power ≤ greatestPower then some (timesPower value power) |>.filter Binary64.isFinite
      else if isZero value then some value
      else none

/-- Takes digits as long as the number that they write stays below `2 ^ 64`, and gives back the
digits that are left. -/
def significantDigits (significand : Nat) : List Char → Nat × List Char
  | [] => (significand, [])
  | digit :: rest =>
      let next := 10 * significand + Text.digitValue digit
      if next < UInt64.size then significantDigits next rest else (significand, digit :: rest)

def greatestExponent : Nat := 2147483647

def withExponent? (negative : Bool) (significand : Nat) (exponent : Int) (isNegative : Bool)
    (digits : List Char) : Option Binary64 :=
  let written := Text.naturalOfDigits digits
  if greatestExponent < written then
    if significand = 0 || isNegative then some (.ofRatio negative 0 1) else none
  else
    scaled? negative significand (if isNegative then exponent - written else exponent + written)

def ofInteger (negative : Bool) (magnitude : Nat) : Number :=
  if negative then
    if 0 < magnitude && Text.inInt64 (-magnitude) then .integer (-magnitude)
    else .float (.ofRatio true magnitude 1)
  else .integer magnitude

def ofNumeral? (numeral : Numeral) : Option Number :=
  let (whole, beyond) := significantDigits 0 numeral.whole
  let (significand, left) := significantDigits whole numeral.fraction
  let exponent : Int := beyond.length - (numeral.fraction.length - left.length : Nat)
  match numeral.exponent with
  | some (isNegative, digits) =>
      (withExponent? numeral.negative significand exponent isNegative digits).map .float
  | none =>
      if numeral.fraction.isEmpty && beyond.isEmpty then some (ofInteger numeral.negative whole)
      else (scaled? numeral.negative significand exponent).map .float

end Number

end FactRules.Json
