import FactRules.Pattern
import FactRules.Value.Text

/-!
Comparison of two values by an operator. Equality is defined for all values, order for numbers and
for strings, and the pattern operators need a string on the right.
-/

namespace FactRules.Value

def orderOf (left : Value) (operator : Operator) (right : Value) : Except EvalError Ordering :=
  match left.order? right with
  | some order => .ok order
  | none => .error (.notComparable left.typeName operator right.typeName)

def matchesPattern (caseless : Bool) (left pattern : Value) : Except EvalError Bool :=
  match pattern, left with
  | .string pattern, .string text =>
      (fun regex => regex.isMatch text.toList) <$> Pattern.compiled pattern caseless
  | .string _, _ => .ok false
  | pattern, _ =>
      .error (.invalidPattern pattern.text ("expected a String pattern, got " ++ pattern.typeName))

def satisfies (left : Value) (operator : Operator) (right : Value) : Except EvalError Bool :=
  match operator with
  | .equal => .ok (left.equals right)
  | .notEqual => .ok (!left.equals right)
  | .greater => Ordering.isGT <$> left.orderOf operator right
  | .greaterOrEqual => Ordering.isGE <$> left.orderOf operator right
  | .less => Ordering.isLT <$> left.orderOf operator right
  | .lessOrEqual => Ordering.isLE <$> left.orderOf operator right
  | .like => left.matchesPattern false right
  | .caselessLike => left.matchesPattern true right

end FactRules.Value
