import FactRules.Binary64.Text
import FactRules.Json.Datum

/-!
Writing JSON data, without blanks. A control character in a string is written as an escape, and
every other character as itself.
-/

namespace FactRules.Json

def floatLayout : Binary64.Layout := ⟨fun place => -5 < place && place ≤ 16, .even⟩

def twoHexDigits (code : Nat) : List Char :=
  [Nat.digitChar (code / 16), Nat.digitChar (code % 16)]

def escapedCharacter (character : Char) : List Char :=
  match character with
  | '"' => ['\\', '"']
  | '\\' => ['\\', '\\']
  | '\x08' => ['\\', 'b']
  | '\x0c' => ['\\', 'f']
  | '\n' => ['\\', 'n']
  | '\r' => ['\\', 'r']
  | '\t' => ['\\', 't']
  | _ =>
      if character.toNat < 0x20 then '\\' :: 'u' :: '0' :: '0' :: twoHexDigits character.toNat
      else [character]

def stringText (text : String) : List Char :=
  '"' :: text.toList.flatMap escapedCharacter ++ ['"']

def Number.text : Number → List Char
  | .integer value => Text.integerDigits value
  | .float value => value.toText floatLayout

namespace Datum

mutual

def text : Datum → List Char
  | .null => ['n', 'u', 'l', 'l']
  | .bool true => ['t', 'r', 'u', 'e']
  | .bool false => ['f', 'a', 'l', 's', 'e']
  | .number found => found.text
  | .string content => stringText content
  | .array items => '[' :: [','].intercalate (itemTexts items) ++ [']']
  | .object members => '\x7b' :: [','].intercalate (memberTexts members) ++ ['\x7d']

def itemTexts : List Datum → List (List Char)
  | [] => []
  | item :: items => text item :: itemTexts items

def memberTexts : List (String × Datum) → List (List Char)
  | [] => []
  | (name, datum) :: members => (stringText name ++ ':' :: text datum) :: memberTexts members

end

end Datum

end FactRules.Json
