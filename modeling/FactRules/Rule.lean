import FactRules.Interner
import FactRules.Rule.Program
import FactRules.SharedCondition.Parse

/-!
Rules: what they say, and the action that computes their result if they have one.
-/

namespace FactRules

structure Rule extends RuleHead where
  action : Option Action := none

abbrev ActionTable := Table Action

namespace Rule

def parse (condition : String) (bindings : List Value) (target : String) (value : Value)
    (priority : Int32) : Sharing RuleError Rule := do
  let condition ← (SharedCondition.parse condition bindings).adapt RuleError.parse
  pure { condition, target, value, priority }

def shown (rule : Rule) : String :=
  "Rule \x7b qualifier: " ++ Text.quoted rule.condition.text ++
    ", target: " ++ Text.quoted rule.target ++ ", value: " ++ rule.value.shown ++
    ", action: " ++ Value.boolText rule.action.isSome ++
    ", priority: " ++ Text.integerText rule.priority.toInt ++ " \x7d"

end Rule

namespace ActionTable

def shown (actions : ActionTable) : String :=
  "ActionTable \x7b actions: [" ++
    String.intercalate ", " (actions.names.map Text.quoted) ++ "] \x7d"

end ActionTable

end FactRules
