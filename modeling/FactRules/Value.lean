import FactRules.Binary64.Basic
import FactRules.Error
import FactRules.Table

/-!
The values of facts, rule results and bindings, with their equality and their order. An integer and
a floating-point number are compared as floating-point numbers, an object only equals itself, and
only numbers and strings are ordered.
-/

namespace FactRules

inductive Value where
  | null
  | bool (value : Bool)
  | int (value : Int64)
  | float (value : Binary64)
  | string (value : String)
  | list (items : List Value)
  /-- The entries are in ascending order of their keys. -/
  | map (entries : List (String × Value))
  /-- A thing with attributes of its own: `answer` gives the value of one by its name, and `none`
  for a name that the object does not have. -/
  | object (identity : Nat) (typeName description : String)
      (answer : String → Except EvalError (Option Value))

namespace Value

instance : Inhabited Value := ⟨.null⟩

def ofEntries (entries : List (String × Value)) : Value :=
  .map (Table.ofList entries)

def isNull : Value → Bool
  | .null => true
  | _ => false

def bool? : Value → Option Bool
  | .bool value => some value
  | _ => none

def int? : Value → Option Int64
  | .int value => some value
  | _ => none

/-- An integer counts as the nearest floating-point number. -/
def float? : Value → Option Binary64
  | .float value => some value
  | .int value => some (.ofInt value.toInt)
  | _ => none

def string? : Value → Option String
  | .string value => some value
  | _ => none

def list? : Value → Option (List Value)
  | .list items => some items
  | _ => none

def typeName : Value → String
  | .null => "Null"
  | .bool _ => "Bool"
  | .int _ => "Integer"
  | .float _ => "Float"
  | .string _ => "String"
  | .list _ => "List"
  | .map _ => "Map"
  | .object _ typeName _ _ => typeName

def read? : Value → String → Except EvalError (Option Value)
  | .map entries, name => .ok (Table.find? entries name)
  | .object _ _ _ answer, name => answer name
  | _, _ => .ok none

def read (value : Value) (name : String) : Except EvalError Value := do
  match ← value.read? name with
  | some found => .ok found
  | none => .error (.unknownKey value.typeName name)

mutual

def equals : Value → Value → Bool
  | .null, .null => true
  | .bool left, .bool right => left = right
  | .int left, .int right => left = right
  | .float left, .float right => left.equals right
  | .int left, .float right => (Binary64.ofInt left.toInt).equals right
  | .float left, .int right => left.equals (Binary64.ofInt right.toInt)
  | .string left, .string right => left = right
  | .list left, .list right => equalItems left right
  | .map left, .map right => equalEntries left right
  | .object left .., .object right .. => left = right
  | _, _ => false

def equalItems : List Value → List Value → Bool
  | [], [] => true
  | left :: lefts, right :: rights => left.equals right && equalItems lefts rights
  | _, _ => false

def equalEntries : List (String × Value) → List (String × Value) → Bool
  | [], [] => true
  | (leftKey, left) :: lefts, (rightKey, right) :: rights =>
      leftKey = rightKey && left.equals right && equalEntries lefts rights
  | _, _ => false

end

/-- The order of two numbers or of two strings, the latter by code points. -/
def order? : Value → Value → Option Ordering
  | .int left, .int right => some (compare left.toInt right.toInt)
  | .float left, .float right => left.order? right
  | .int left, .float right => (Binary64.ofInt left.toInt).order? right
  | .float left, .int right => left.order? (Binary64.ofInt right.toInt)
  | .string left, .string right => some (compare left right)
  | _, _ => none

end Value

end FactRules
