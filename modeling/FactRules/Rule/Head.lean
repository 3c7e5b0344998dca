import FactRules.SharedCondition
import FactRules.Text.Pieces

/-!
What a rule says: under which condition, for which attribute, with which value and how urgently.
-/

namespace FactRules

structure RuleHead where
  condition : SharedCondition
  target : String
  value : Value
  priority : Int32

namespace RuleHead

def isValid (head : RuleHead) : Bool :=
  head.condition.condition.keys.all fun key => Text.firstPiece '.' key ≠ head.target

def size (head : RuleHead) : Nat :=
  head.condition.condition.size

end RuleHead

end FactRules
