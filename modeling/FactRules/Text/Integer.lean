/-!
Whole numbers in decimal digits: how they are written, and what is wrong with a text that is not
one. A number that is too long is reported at the digit where it leaves the range, unless an
earlier character is no digit.
-/

namespace FactRules

namespace Text

def integerDigits : Int → List Char
  | .ofNat value => Nat.toDigits 10 value
  | .negSucc value => '-' :: Nat.toDigits 10 (value + 1)

def integerText (value : Int) : String :=
  String.ofList (integerDigits value)

def naturalText (value : Nat) : String :=
  String.ofList (Nat.toDigits 10 value)

def digitValue (character : Char) : Nat :=
  character.toNat - '0'.toNat

def naturalOfDigits (digits : List Char) : Nat :=
  Nat.ofDigitChars 10 digits 0

end Text

inductive IntegerError where
  | empty
  | invalidDigit
  | tooLarge
  | tooSmall
  deriving DecidableEq

namespace IntegerError

def message : IntegerError → String
  | .empty => "cannot parse integer from empty string"
  | .invalidDigit => "invalid digit found in string"
  | .tooLarge => "number too large to fit in target type"
  | .tooSmall => "number too small to fit in target type"

end IntegerError

namespace Text

def inInt64 (value : Int) : Bool :=
  Int64.minValue.toInt ≤ value && value ≤ Int64.maxValue.toInt

def readDigitsFrom (negative : Bool) : Int → List Char → Except IntegerError Int
  | value, [] => .ok value
  | value, character :: rest =>
      if character.isDigit then
        let next := if negative then 10 * value - digitValue character
          else 10 * value + digitValue character
        if inInt64 next then readDigitsFrom negative next rest
        else .error (if negative then .tooSmall else .tooLarge)
      else .error .invalidDigit

def readInteger : List Char → Except IntegerError Int64
  | [] => .error .empty
  | ['+'] => .error .invalidDigit
  | ['-'] => .error .invalidDigit
  | '+' :: digits => Int64.ofInt <$> readDigitsFrom false 0 digits
  | '-' :: digits => Int64.ofInt <$> readDigitsFrom true 0 digits
  | digits => Int64.ofInt <$> readDigitsFrom false 0 digits

def clampedInt64 (value : Int) : Int64 :=
  if value < Int64.minValue.toInt then Int64.minValue
  else if Int64.maxValue.toInt < value then Int64.maxValue
  else Int64.ofInt value

def readNatural? (characters : List Char) : Option Nat :=
  let digits := match characters with
    | '+' :: rest => rest
    | other => other
  if digits.isEmpty || !digits.all Char.isDigit then none
  else if naturalOfDigits digits < UInt64.size then some (naturalOfDigits digits)
  else none

end Text

end FactRules
