import FactRules.Binary64.Decimal
import FactRules.Text.Integer

/-!
Numbers of the binary format as text. They are written with the fewest digits that read back, and
always with a decimal point unless an exponent follows; they are read with or without a point, with
or without an exponent, and in any number of digits.
-/

namespace FactRules.Binary64

/-- How a finite number is laid out: the places of the decimal point, counted from the first digit,
at which it is written without an exponent, and the choice between numerals as near. -/
structure Layout where
  isPositional : Int → Bool
  tie : Tie

def positional (digits : List Char) (exponent : Int) : List Char :=
  match exponent with
  | .ofNat zeros => digits ++ List.replicate zeros '0' ++ ['.', '0']
  | .negSucc before =>
      let places := before + 1
      if places < digits.length then
        digits.take (digits.length - places) ++ '.' :: digits.drop (digits.length - places)
      else '0' :: '.' :: List.replicate (places - digits.length) '0' ++ digits

def scientific (digits : List Char) (exponent : Int) : List Char :=
  let power := exponent + digits.length - 1
  match digits with
  | [] => []
  | [first] => first :: 'e' :: Text.integerDigits power
  | first :: rest => first :: '.' :: rest ++ 'e' :: Text.integerDigits power

def magnitudeText (layout : Layout) (units : Nat) : List Char :=
  let decimal := Decimal.shortest layout.tie units
  let digits := Nat.toDigits 10 decimal.digits
  if layout.isPositional (decimal.exponent + digits.length) then
    positional digits decimal.exponent
  else scientific digits decimal.exponent

def toText (layout : Layout) : Binary64 → List Char
  | .nan => ['N', 'a', 'N']
  | .infinite negative => if negative then ['-', 'i', 'n', 'f'] else ['i', 'n', 'f']
  | .finite negative units _ =>
      if negative then '-' :: magnitudeText layout units else magnitudeText layout units

/-- An exponent so bounded that the number it belongs to still rounds to the same zero or infinity.
`count` is the number of its digits. -/
def boundedExponent (count : Nat) (exponent : Int) : Int :=
  max (-(count + 400)) (min exponent 400)

def readExponent? : List Char → Option Int
  | [] => some 0
  | mark :: rest =>
      if mark = 'e' || mark = 'E' then
        let (negative, digits) := match rest with
          | '+' :: digits => (false, digits)
          | '-' :: digits => (true, digits)
          | digits => (false, digits)
        if digits.isEmpty || !digits.all Char.isDigit then none
        else
          let power : Int := Text.naturalOfDigits digits
          some (if negative then -power else power)
      else none

def splitFraction : List Char → List Char × List Char
  | '.' :: rest => (rest.takeWhile Char.isDigit, rest.dropWhile Char.isDigit)
  | other => ([], other)

def readDecimal? (negative : Bool) (characters : List Char) : Option Binary64 :=
  let whole := characters.takeWhile Char.isDigit
  let (fraction, rest) := splitFraction (characters.dropWhile Char.isDigit)
  if whole.isEmpty && fraction.isEmpty then none
  else (readExponent? rest).map fun exponent =>
    let digits := whole ++ fraction
    Decimal.toBinary64 negative
      ⟨Text.naturalOfDigits digits, boundedExponent digits.length (exponent - fraction.length)⟩

def readMagnitude? (negative : Bool) (characters : List Char) : Option Binary64 :=
  let lower := characters.map Char.toLower
  if lower = ['i', 'n', 'f'] || lower = ['i', 'n', 'f', 'i', 'n', 'i', 't', 'y'] then
    some (.infinite negative)
  else if lower = ['n', 'a', 'n'] then some .nan
  else readDecimal? negative characters

def ofText? : List Char → Option Binary64
  | '+' :: rest => readMagnitude? false rest
  | '-' :: rest => readMagnitude? true rest
  | characters => readMagnitude? false characters

end FactRules.Binary64
