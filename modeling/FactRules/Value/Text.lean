import FactRules.Binary64.Text
import FactRules.Value

/-!
Values as text: `text` is the plain form that stands inside longer texts, `shown` the form of a
message, which also tells the type.
-/

namespace FactRules.Value

/-- Plain text never uses an exponent, so that a finite number reads back as a number. -/
def plainLayout : Binary64.Layout := ⟨fun _ => true, .greater⟩

/-- Messages use an exponent below `0.0001` and from `10000000000000000` on. -/
def shownLayout : Binary64.Layout := ⟨fun place => -4 < place && place ≤ 16, .greater⟩

def boolText (value : Bool) : String :=
  if value then "true" else "false"

def floatText (value : Binary64) : String :=
  String.ofList (value.toText plainLayout)

mutual

def text : Value → String
  | .null => ""
  | .bool value => boolText value
  | .int value => Text.integerText value.toInt
  | .float value => floatText value
  | .string value => value
  | .list items => "[" ++ String.intercalate ", " (itemTexts items) ++ "]"
  | .map entries => "\x7b" ++ String.intercalate ", " (entryTexts entries) ++ "\x7d"
  | .object _ _ description _ => description

def itemTexts : List Value → List String
  | [] => []
  | item :: items => text item :: itemTexts items

def entryTexts : List (String × Value) → List String
  | [] => []
  | (key, value) :: entries => (key ++ ": " ++ text value) :: entryTexts entries

end

mutual

def shown : Value → String
  | .null => "Null"
  | .bool value => "Bool(" ++ boolText value ++ ")"
  | .int value => "Int(" ++ Text.integerText value.toInt ++ ")"
  | .float value => "Float(" ++ String.ofList (value.toText shownLayout) ++ ")"
  | .string value => "String(" ++ Text.quoted value ++ ")"
  | .list items => "[" ++ String.intercalate ", " (shownItems items) ++ "]"
  | .map entries => "\x7b" ++ String.intercalate ", " (shownEntries entries) ++ "\x7d"
  | .object _ _ description _ => "Object(" ++ description ++ ")"

def shownItems : List Value → List String
  | [] => []
  | item :: items => shown item :: shownItems items

def shownEntries : List (String × Value) → List String
  | [] => []
  | (key, value) :: entries => (Text.quoted key ++ ": " ++ shown value) :: shownEntries entries

end

end FactRules.Value
