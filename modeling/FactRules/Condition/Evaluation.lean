import FactRules.Condition
import FactRules.Value.Path

/-!
Evaluation of a condition against anything that attributes can be read from. Reading an attribute
may change a state, as it does where answers are remembered. Only the first name of a key path is
read from the source itself; the others are read from the values found on the way.
-/

namespace FactRules

/-- Outcomes of reading, in the presence of a state that outlasts failures. -/
abbrev Reading (σ : Type) := ExceptT EvalError (StateM σ)

def Reading.lift {σ α : Type} (outcome : Except EvalError α) : Reading σ α :=
  fun state => (outcome, state)

structure Source (σ : Type) where
  typeName : String
  read? : String → Reading σ (Option Value)

namespace Value

def source {σ : Type} (value : Value) : Source σ where
  typeName := value.typeName
  read? name := Reading.lift (value.read? name)

end Value

namespace Source

variable {σ : Type}

def read (source : Source σ) (name : String) : Reading σ Value := do
  match ← source.read? name with
  | some found => pure found
  | none => throw (.unknownKey source.typeName name)

def resolvePath (source : Source σ) (path : String) : Reading σ Value := do
  let first ← source.read (Text.firstPiece '.' path)
  Reading.lift (first.follow (Text.laterPieces '.' path))

end Source

variable {σ : Type}

/-- The literal is resolved before anything is read. -/
def Comparison.evaluateFrom (types : TypeTable) (source : Source σ) : Comparison → Reading σ Bool
  | .keyLiteral key operator literal => do
      let expected ← Reading.lift (literal.resolve types)
      let first ← source.read (Text.firstPiece '.' key)
      Reading.lift (Value.satisfiesAlong operator expected first (Text.laterPieces '.' key))
  | .keyKey leftKey operator rightKey => do
      let left ← source.resolvePath leftKey
      let right ← source.resolvePath rightKey
      Reading.lift (left.satisfies operator right)
  | .literalLiteral leftLiteral operator rightLiteral => do
      let left ← Reading.lift (leftLiteral.resolve types)
      let right ← Reading.lift (rightLiteral.resolve types)
      Reading.lift (left.satisfies operator right)

namespace Condition

mutual

def evaluateFrom (types : TypeTable) (source : Source σ) : Condition → Reading σ Bool
  | .leaf comparison => comparison.evaluateFrom types source
  | .all terms => evaluateAll types source terms
  | .any terms => evaluateAny types source terms
  | .not inner => do
      let outcome ← evaluateFrom types source inner
      pure !outcome

def evaluateAll (types : TypeTable) (source : Source σ) : List Condition → Reading σ Bool
  | [] => pure true
  | term :: terms => do
      if ← evaluateFrom types source term then evaluateAll types source terms else pure false

def evaluateAny (types : TypeTable) (source : Source σ) : List Condition → Reading σ Bool
  | [] => pure false
  | term :: terms => do
      if ← evaluateFrom types source term then pure true else evaluateAny types source terms

end

def evaluate (types : TypeTable) (condition : Condition) (object : Value) :
    Except EvalError Bool :=
  (condition.evaluateFrom types object.source ()).1

def filter {α : Type} (types : TypeTable) (condition : Condition) (object : α → Value) :
    List α → Except EvalError (List α)
  | [] => .ok []
  | item :: items => do
      let kept ← condition.evaluate types (object item)
      let rest ← filter types condition object items
      pure (if kept then item :: rest else rest)

end Condition

end FactRules
