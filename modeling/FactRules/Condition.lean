import FactRules.Literal

/-!
Conditions: comparisons joined by AND, OR and NOT. `text` is the canonical text, `walk` lists every
node of the tree with the children before their parent.
-/

namespace FactRules

/-- A comparison of an attribute with a literal, of two attributes, or of two literals. The keys are
paths of names with points between them. -/
inductive Comparison where
  | keyLiteral (key : String) (operator : Operator) (literal : Literal)
  | keyKey (left : String) (operator : Operator) (right : String)
  | literalLiteral (left : Literal) (operator : Operator) (right : Literal)
  deriving DecidableEq

namespace Comparison

def operator : Comparison → Operator
  | .keyLiteral _ operator _ => operator
  | .keyKey _ operator _ => operator
  | .literalLiteral _ operator _ => operator

def withOperator (operator : Operator) : Comparison → Comparison
  | .keyLiteral key _ literal => .keyLiteral key operator literal
  | .keyKey left _ right => .keyKey left operator right
  | .literalLiteral left _ right => .literalLiteral left operator right

def negation (comparison : Comparison) : Except EvalError Comparison :=
  match comparison.operator.negation? with
  | some operator => .ok (comparison.withOperator operator)
  | none => .error (.negationUnsupported comparison.operator)

def text : Comparison → String
  | .keyLiteral key operator literal =>
      "(" ++ key ++ " " ++ operator.symbol ++ " " ++ literal.text ++ ")"
  | .keyKey left operator right => "(" ++ left ++ " " ++ operator.symbol ++ " " ++ right ++ ")"
  | .literalLiteral left operator right =>
      "(" ++ left.text ++ " " ++ operator.symbol ++ " " ++ right.text ++ ")"

def keys : Comparison → List String
  | .keyLiteral key _ _ => [key]
  | .keyKey left _ right => [left, right]
  | .literalLiteral .. => []

def equals : Comparison → Comparison → Bool
  | .keyLiteral leftKey leftOperator left, .keyLiteral rightKey rightOperator right =>
      leftKey = rightKey && leftOperator = rightOperator && left.equals right
  | .literalLiteral left leftOperator right, .literalLiteral left' rightOperator right' =>
      left.equals left' && leftOperator = rightOperator && right.equals right'
  | left, right => left = right

end Comparison

inductive Condition where
  | leaf (comparison : Comparison)
  | all (terms : List Condition)
  | any (terms : List Condition)
  | not (inner : Condition)

namespace Condition

mutual

def text : Condition → String
  | .leaf comparison => comparison.text
  | .all terms => "(" ++ String.intercalate " AND " (termTexts terms) ++ ")"
  | .any terms => "(" ++ String.intercalate " OR " (termTexts terms) ++ ")"
  | .not inner => "(NOT " ++ text inner ++ ")"

def termTexts : List Condition → List String
  | [] => []
  | term :: terms => text term :: termTexts terms

end

mutual

def size : Condition → Nat
  | .leaf _ => 1
  | .all terms => termsSize terms + 1
  | .any terms => termsSize terms + 1
  | .not inner => size inner + 1

def termsSize : List Condition → Nat
  | [] => 0
  | term :: terms => size term + termsSize terms

end

mutual

def walk : Condition → List Condition
  | .leaf comparison => [.leaf comparison]
  | .all terms => walkTerms terms ++ [.all terms]
  | .any terms => walkTerms terms ++ [.any terms]
  | .not inner => walk inner ++ [.not inner]

def walkTerms : List Condition → List Condition
  | [] => []
  | term :: terms => walk term ++ walkTerms terms

end

def ownKeys : Condition → List String
  | .leaf comparison => comparison.keys
  | _ => []

def keys (condition : Condition) : List String :=
  (Table.ofList ((condition.walk.flatMap ownKeys).map fun key => (key, ()))).names

mutual

def equals : Condition → Condition → Bool
  | .leaf left, .leaf right => left.equals right
  | .all left, .all right => equalTerms left right
  | .any left, .any right => equalTerms left right
  | .not left, .not right => equals left right
  | _, _ => false

def equalTerms : List Condition → List Condition → Bool
  | [], [] => true
  | left :: lefts, right :: rights => equals left right && equalTerms lefts rights
  | _, _ => false

end

theorem termTexts_eq_map (terms : List Condition) : termTexts terms = terms.map text := by
  induction terms with
  | nil => rfl
  | cons term terms ih => rw [termTexts, ih, List.map_cons]

def always : Condition :=
  .leaf (.literalLiteral (.bool true) .equal (.bool true))

def never : Condition :=
  .leaf (.literalLiteral (.bool true) .equal (.bool false))

mutual

theorem length_walk (condition : Condition) : condition.walk.length = condition.size := by
  cases condition with
  | leaf comparison => simp [walk, size]
  | all terms => simp [walk, size, length_walkTerms]
  | any terms => simp [walk, size, length_walkTerms]
  | not inner => simp [walk, size, length_walk]

theorem length_walkTerms (terms : List Condition) : (walkTerms terms).length = termsSize terms := by
  cases terms with
  | nil => simp [walkTerms, termsSize]
  | cons term terms => simp [walkTerms, termsSize, length_walk, length_walkTerms]

end

end Condition

end FactRules
