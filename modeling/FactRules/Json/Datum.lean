import FactRules.Json.Builder
import FactRules.Json.Number
import FactRules.Value

/-!
JSON data: what a tree means. Of two members with one name the later one stays, and containers lie
inside each other only to a bounded depth.
-/

namespace FactRules.Json

inductive Datum where
  | null
  | bool (value : Bool)
  | number (value : Number)
  | string (text : String)
  | array (items : List Datum)
  /-- The members are in ascending order of their names. -/
  | object (members : List (String × Datum))

namespace Datum

instance : Inhabited Datum := ⟨.null⟩

def greatestDepth : Nat := 127

mutual

def ofTree? (depth : Nat) : Tree → Option Datum
  | .null => some .null
  | .bool value => some (.bool value)
  | .number numeral => (Number.ofNumeral? numeral).map .number
  | .string pieces => (Piece.text? pieces).map .string
  | .array items =>
      match depth with
      | 0 => none
      | depth + 1 => (ofItems? depth items).map .array
  | .object members =>
      match depth with
      | 0 => none
      | depth + 1 => (ofMembers? depth members).map fun members => .object (Table.ofList members)

def ofItems? (depth : Nat) : List Tree → Option (List Datum)
  | [] => some []
  | item :: items => do
      let item ← ofTree? depth item
      let items ← ofItems? depth items
      some (item :: items)

def ofMembers? (depth : Nat) : List (List Piece × Tree) → Option (List (String × Datum))
  | [] => some []
  | (name, tree) :: members => do
      let name ← Piece.text? name
      let datum ← ofTree? depth tree
      let members ← ofMembers? depth members
      some ((name, datum) :: members)

end

def ofText? (text : String) : Option Datum :=
  (Tree.ofText? text).bind (ofTree? greatestDepth)

mutual

def equals : Datum → Datum → Bool
  | .null, .null => true
  | .bool left, .bool right => left = right
  | .number left, .number right => left.equals right
  | .string left, .string right => left = right
  | .array left, .array right => equalItems left right
  | .object left, .object right => equalMembers left right
  | _, _ => false

def equalItems : List Datum → List Datum → Bool
  | [], [] => true
  | left :: lefts, right :: rights => left.equals right && equalItems lefts rights
  | _, _ => false

def equalMembers : List (String × Datum) → List (String × Datum) → Bool
  | [], [] => true
  | (leftName, left) :: lefts, (rightName, right) :: rights =>
      leftName = rightName && left.equals right && equalMembers lefts rights
  | _, _ => false

end

/-- An integer that does not fit in 64 bits with a sign becomes a floating-point number. -/
def numberValue : Number → Value
  | .integer value => if Text.inInt64 value then .int (Int64.ofInt value) else .float (.ofInt value)
  | .float value => .float value

mutual

def value : Datum → Value
  | .null => .null
  | .bool value => .bool value
  | .number found => numberValue found
  | .string text => .string text
  | .array items => .list (itemValues items)
  | .object members => .map (memberValues members)

def itemValues : List Datum → List Value
  | [] => []
  | item :: items => value item :: itemValues items

def memberValues : List (String × Datum) → List (String × Value)
  | [] => []
  | (name, datum) :: members => (name, value datum) :: memberValues members

end

end Datum

end FactRules.Json
