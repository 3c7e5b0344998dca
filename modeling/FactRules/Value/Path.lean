import FactRules.Text.Pieces
import FactRules.Value.Comparison

/-!
Key paths: names with points between them, each read from the value that the one before it gave.
Following a path finds one value; comparing along a path goes into the items of every list that it
meets before its end.
-/

namespace FactRules.Value

def follow (value : Value) (path : List String) : Except EvalError Value :=
  path.foldlM read value

def resolvePath (value : Value) (path : String) : Except EvalError Value := do
  let first ← value.read (Text.firstPiece '.' path)
  first.follow (Text.laterPieces '.' path)

/-- Compares what lies at the end of a path. A list met before the path ends stands for its items:
each of them has to satisfy the comparison, and the first that does not decides. -/
def satisfiesAlong (operator : Operator) (expected : Value) : Value → List String →
    Except EvalError Bool
  | value, [] => value.satisfies operator expected
  | .list items, name :: path =>
      items.allM fun item => do
        let found ← item.read name
        satisfiesAlong operator expected found path
  | value, name :: path => do
      let found ← value.read name
      satisfiesAlong operator expected found path

end FactRules.Value
