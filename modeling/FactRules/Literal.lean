import FactRules.Text.Blank
import FactRules.Value.Text

/-!
Literals of a condition. Each has one canonical text. A typed literal keeps the text in its quotes
and becomes a value only when it is resolved, through the constructor of its type.
-/

namespace FactRules

inductive Literal where
  | string (text : String)
  | integer (value : Int64)
  | float (value : Binary64)
  | bool (value : Bool)
  | null
  | typed (typeName text : String)
  deriving DecidableEq

/-- Makes a value from the text of a typed literal, or says why it cannot. -/
abbrev Constructor := String → Except String Value

abbrev TypeTable := Table Constructor

namespace Constructor

def string : Constructor := fun text => .ok (.string text)

def integer : Constructor := fun text =>
  match Text.readInteger (Text.trim text.toList) with
  | .ok value => .ok (.int value)
  | .error error => .error error.message

def float : Constructor := fun text =>
  let trimmed := Text.trim text.toList
  match Binary64.ofText? trimmed with
  | some value => .ok (.float value)
  | none =>
      if trimmed.isEmpty then .error "cannot parse float from empty string"
      else .error "invalid float literal"

def bool : Constructor := fun text =>
  let trimmed := Text.trimmed text
  if trimmed = "true" then .ok (.bool true)
  else if trimmed = "false" then .ok (.bool false)
  else .error ("expected true or false, got " ++ Text.quoted trimmed)

end Constructor

namespace TypeTable

def standard : TypeTable :=
  Table.ofList [("String", .string), ("Integer", .integer), ("Float", .float), ("Bool", .bool)]

def construct (types : TypeTable) (typeName text : String) : Except EvalError Value :=
  match Table.find? types typeName with
  | none => .error (.unknownType typeName)
  | some constructor =>
      match constructor text with
      | .ok value => .ok value
      | .error reason => .error (.coercion typeName text reason)

end TypeTable

namespace Literal

/-- The literal of a value. A value without a literal of its own becomes a typed literal that
carries its type and its text. -/
def ofValue : Value → Literal
  | .null => .null
  | .bool value => .bool value
  | .int value => .integer value
  | .float value => .float value
  | .string text => .string text
  | value => .typed value.typeName value.text

def resolve (types : TypeTable) : Literal → Except EvalError Value
  | .string text => .ok (.string text)
  | .integer value => .ok (.int value)
  | .float value => .ok (.float value)
  | .bool value => .ok (.bool value)
  | .null => .ok .null
  | .typed typeName text => types.construct typeName text

def escapedCharacter (character : Char) : List Char :=
  if character = '\\' || character = '\'' then ['\\', character] else [character]

def quotedText (text : String) : String :=
  String.ofList ('\'' :: text.toList.flatMap escapedCharacter ++ ['\''])

def text : Literal → String
  | .string text => quotedText text
  | .integer value => Text.integerText value.toInt
  | .float value => Value.floatText value
  | .bool value => Value.boolText value
  | .null => "nil"
  | .typed typeName text => "(" ++ typeName ++ ")" ++ quotedText text

/-- Equality, where numbers are compared as numbers: a literal that is not a number differs from
itself, and the two zeros are equal. -/
def equals : Literal → Literal → Bool
  | .float left, .float right => left.equals right
  | left, right => left = right

end Literal

end FactRules
