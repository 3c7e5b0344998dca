import FactRules.Json.Writer
import FactRules.Rule

/-!
Rule records: rules as they are authored in JSON, before their conditions are read. A record is an
object whose fields have several names each, or an array of its fields in their order, whose end may
be missing where the fields have defaults.
-/

namespace FactRules

structure Record where
  condition : String
  bindings : List Json.Datum := []
  target : String
  value : Json.Datum := .null
  action : Option String := none
  priority : Int32 := 0

namespace Record

inductive Field where
  | condition
  | bindings
  | target
  | value
  | action
  | priority
  deriving DecidableEq

namespace Field

def all : List Field :=
  [.condition, .bindings, .target, .value, .action, .priority]

def names : Field → List String
  | .condition => ["condition", "lhs", "left", "left_hand_side"]
  | .bindings => ["bindings"]
  | .target => ["target", "key", "rhs_key", "right_hand_side_key"]
  | .value => ["value", "val", "rhs_value", "right_hand_side_value"]
  | .action => ["action", "ass", "assignment", "assignment_class"]
  | .priority => ["priority", "pri"]

def ofName? (name : String) : Option Field :=
  all.find? fun field => field.names.contains name

end Field

/-- A record lies inside an array, so that one container less than two is left for a value. -/
def valueDepth : Nat := Json.Datum.greatestDepth - 2

def text? : Json.Tree → Option String
  | .string pieces => Json.Piece.text? pieces
  | _ => none

def bindings? : Json.Tree → Option (List Json.Datum)
  | .array items => Json.Datum.ofItems? (valueDepth - 1) items
  | _ => none

def action? : Json.Tree → Option (Option String)
  | .null => some none
  | .string pieces => (Json.Piece.text? pieces).map some
  | _ => none

def priority? : Json.Tree → Option Int32
  | .number numeral =>
      match Json.Number.ofNumeral? numeral with
      | some (.integer value) =>
          if Int32.minValue.toInt ≤ value && value ≤ Int32.maxValue.toInt then
            some (Int32.ofInt value)
          else none
      | _ => none
  | _ => none

/-- The value of a field, or its default if the field is missing. A field without a default has to
be there. -/
def fieldOr? {α : Type} (fields : List (Field × Json.Tree)) (field : Field) (standard : Option α)
    (read? : Json.Tree → Option α) : Option α :=
  match fields.find? fun entry => entry.1 = field with
  | some (_, tree) => read? tree
  | none => standard

def ofFields? (fields : List (Field × Json.Tree)) : Option Record :=
  if (fields.map Prod.fst).Nodup then do
    let condition ← fieldOr? fields .condition none text?
    let bindings ← fieldOr? fields .bindings (some []) bindings?
    let target ← fieldOr? fields .target none text?
    let value ← fieldOr? fields .value (some .null) (Json.Datum.ofTree? valueDepth)
    let action ← fieldOr? fields .action (some none) action?
    let priority ← fieldOr? fields .priority (some 0) priority?
    some { condition, bindings, target, value, action, priority }
  else none

def fieldsOfMembers? : List (List Json.Piece × Json.Tree) → Option (List (Field × Json.Tree))
  | [] => some []
  | (pieces, tree) :: members => do
      let name ← Json.Piece.text? pieces
      let fields ← fieldsOfMembers? members
      match Field.ofName? name with
      | some field => some ((field, tree) :: fields)
      | none => some fields

def ofTree? : Json.Tree → Option Record
  | .object members => (fieldsOfMembers? members).bind ofFields?
  | .array items =>
      if items.length ≤ Field.all.length then ofFields? (Field.all.zip items) else none
  | _ => none

/-- The rule of a record. Its condition is read before its action is looked up. -/
def compile (actions : ActionTable) (record : Record) : Sharing RuleError Rule := do
  let rule ← Rule.parse record.condition (record.bindings.map Json.Datum.value) record.target
    record.value.value record.priority
  match record.action with
  | none => pure rule
  | some name =>
      match actions.find? name with
      | some action => pure { rule with action := some action }
      | none => throw (.unknownAction record.target name)

def equals (left right : Record) : Bool :=
  left.condition = right.condition && Json.Datum.equalItems left.bindings right.bindings &&
    left.target = right.target && left.value.equals right.value && left.action = right.action &&
    left.priority = right.priority

def actionDatum (action : Option String) : Json.Datum :=
  match action with
  | some name => .string name
  | none => .null

def members (record : Record) : List (String × Json.Datum) :=
  [("condition", .string record.condition), ("bindings", .array record.bindings),
    ("target", .string record.target), ("value", record.value),
    ("action", actionDatum record.action), ("priority", .number (.integer record.priority.toInt))]

end Record

end FactRules
