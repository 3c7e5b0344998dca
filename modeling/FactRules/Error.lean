import FactRules.Operator
import FactRules.Text.Integer
import FactRules.Text.Quoted

/-!
What can go wrong: while a condition is read, while it is evaluated, and while a rule is compiled or
an attribute looked up. An error says what happened; `message` words it and `kind` classifies it.
-/

namespace FactRules

inductive ParseError where
  /-- No token begins at this offset, which counts bytes of the text after its bindings are in. -/
  | unrecognized (offset : Nat) (rest : String)
  | numberOutOfRange (text : String)
  | unbalanced
  | unexpectedToken (token : String)
  | missingOperand (operator : String)
  | incomplete
  | missingBinding (index : Nat)
  | unusableBinding (placeholder value : String)
  deriving DecidableEq

namespace ParseError

def kind : ParseError → String
  | .unrecognized .. => "Tokenize"
  | .numberOutOfRange .. => "InvalidNumber"
  | .unbalanced => "Unbalanced"
  | .unexpectedToken .. => "UnexpectedToken"
  | .missingOperand .. => "MissingOperand"
  | .incomplete => "Incomplete"
  | .missingBinding .. => "MissingBinding"
  | .unusableBinding .. => "InvalidBinding"

def message : ParseError → String
  | .unrecognized offset rest =>
      "unrecognized input at offset " ++ Text.naturalText offset ++ ": " ++ Text.quoted rest
  | .numberOutOfRange text => "numeric literal " ++ Text.quoted text ++ " is out of range"
  | .unbalanced => "unbalanced parentheses"
  | .unexpectedToken token => "unexpected token " ++ Text.quoted token
  | .missingOperand operator => "operator '" ++ operator ++ "' is missing an operand"
  | .incomplete => "expression did not reduce to a single condition"
  | .missingBinding index => "no binding supplied for placeholder #" ++ Text.naturalText index
  | .unusableBinding placeholder value =>
      "binding for '" ++ placeholder ++ "' cannot be converted: " ++ value

end ParseError

mutual

inductive EvalError where
  | unknownKey (typeName key : String)
  | unknownType (name : String)
  | coercion (typeName text reason : String)
  | notComparable (left : String) (operator : Operator) (right : String)
  | invalidPattern (pattern reason : String)
  | negationUnsupported (operator : Operator)
  /-- The object failed to answer for an attribute. -/
  | lookup (cause : RuleError)

inductive RuleError where
  | parse (cause : ParseError)
  | eval (cause : EvalError)
  | cycle (chain : List String)
  | depthExceeded (limit : Nat) (target : String)
  | action (target message : String)
  | unknownAction (target name : String)

end

deriving instance DecidableEq for EvalError, RuleError

mutual

def EvalError.kind : EvalError → String
  | .unknownKey .. => "UnknownKey"
  | .unknownType .. => "UnknownType"
  | .coercion .. => "Coercion"
  | .notComparable .. => "NotComparable"
  | .invalidPattern .. => "InvalidPattern"
  | .negationUnsupported .. => "NegationUnsupported"
  | .lookup cause => "Lookup/" ++ cause.kind

def RuleError.kind : RuleError → String
  | .parse cause => "Parse/" ++ cause.kind
  | .eval cause => "Eval/" ++ cause.kind
  | .cycle .. => "Cycle"
  | .depthExceeded .. => "DepthExceeded"
  | .action .. => "Action"
  | .unknownAction .. => "Model"

end

mutual

def EvalError.message : EvalError → String
  | .unknownKey typeName key =>
      "this \"" ++ typeName ++ "\" value has no attribute \"" ++ key ++ "\""
  | .unknownType name => "unknown literal type '" ++ name ++ "'"
  | .coercion typeName text reason =>
      "cannot convert " ++ Text.quoted text ++ " to " ++ typeName ++ ": " ++ reason
  | .notComparable left operator right =>
      "comparison of " ++ left ++ " with " ++ right ++ " failed for '" ++ operator.symbol ++ "'"
  | .invalidPattern pattern reason =>
      "invalid like pattern " ++ Text.quoted pattern ++ ": " ++ reason
  | .negationUnsupported operator => "operator '" ++ operator.symbol ++ "' has no negated form"
  | .lookup cause => cause.message

def RuleError.message : RuleError → String
  | .parse cause => cause.message
  | .eval cause => cause.message
  | .cycle chain => "cyclic lookup: " ++ String.intercalate " -> " chain
  | .depthExceeded limit target =>
      "lookup of '" ++ target ++ "' exceeded the maximum depth of " ++ Text.naturalText limit
  | .action target message => "action for '" ++ target ++ "' failed: " ++ message
  | .unknownAction target name =>
      "invalid rule model: rule for '" ++ target ++ "' names unknown action '" ++ name ++ "'"

end

/-- A failed lookup stands for itself; any other failure becomes the cause. -/
def RuleError.ofEval : EvalError → RuleError
  | .lookup cause => cause
  | cause => .eval cause

theorem map_eq_ok_iff {ε α β : Type} {change : α → β} {outcome : Except ε α} {value : β} :
    change <$> outcome = .ok value ↔ ∃ found, outcome = .ok found ∧ change found = value := by
  cases outcome with
  | error error => exact iff_of_false nofun (fun ⟨_, found, _⟩ => nomatch found)
  | ok found =>
      constructor
      · intro mapped
        exact ⟨found, rfl, Except.ok.inj mapped⟩
      · rintro ⟨_, ⟨⟩, rfl⟩
        rfl

theorem map_eq_error_iff {ε α β : Type} {change : α → β} {outcome : Except ε α} {error : ε} :
    change <$> outcome = .error error ↔ outcome = .error error := by
  cases outcome with
  | error other => exact ⟨fun failed => congrArg Except.error (Except.error.inj failed),
      fun failed => congrArg Except.error (Except.error.inj failed)⟩
  | ok found => exact iff_of_false nofun nofun

theorem bind_eq_error_iff {ε α β : Type} {outcome : Except ε α} {next : α → Except ε β} {error : ε} :
    outcome >>= next = .error error ↔
      outcome = .error error ∨ ∃ value, outcome = .ok value ∧ next value = .error error := by
  cases outcome with
  | error other =>
      refine ⟨fun failed => .inl (congrArg Except.error (Except.error.inj failed)), ?_⟩
      rintro (failed | ⟨_, succeeded, _⟩)
      · exact congrArg Except.error (Except.error.inj failed)
      · cases succeeded
  | ok value =>
      refine ⟨fun failed => .inr ⟨value, rfl, failed⟩, ?_⟩
      rintro (failed | ⟨_, succeeded, failed⟩)
      · cases failed
      · cases succeeded
        exact failed

end FactRules
