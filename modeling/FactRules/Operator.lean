import FactRules.Text.Ascii

/-!
The comparison operators of a condition. The six relational ones come in pairs that are each other's
negation; the two pattern operators have no negation.
-/

namespace FactRules

inductive Operator where
  | equal
  | notEqual
  | greater
  | greaterOrEqual
  | less
  | lessOrEqual
  | like
  | caselessLike
  deriving DecidableEq

namespace Operator

def all : List Operator :=
  [.equal, .notEqual, .greater, .greaterOrEqual, .less, .lessOrEqual, .like, .caselessLike]

def symbol : Operator → String
  | .equal => "="
  | .notEqual => "!="
  | .greater => ">"
  | .greaterOrEqual => ">="
  | .less => "<"
  | .lessOrEqual => "<="
  | .like => "like"
  | .caselessLike => "cilike"

def spellings : List String :=
  ["=", "==", "!=", "<", "<=", ">", ">=", "like", "cilike"]

def relationalSpellings : List String :=
  ["=", "==", "!=", "<", "<=", ">", ">="]

def ofSpelling? (spelling : String) : Option Operator :=
  let lower := Text.lowerAscii spelling
  if lower = "==" then some .equal else all.find? fun operator => operator.symbol = lower

def isRelational : Operator → Bool
  | .like | .caselessLike => false
  | _ => true

def negation? : Operator → Option Operator
  | .equal => some .notEqual
  | .notEqual => some .equal
  | .greater => some .lessOrEqual
  | .lessOrEqual => some .greater
  | .greaterOrEqual => some .less
  | .less => some .greaterOrEqual
  | .like | .caselessLike => none

theorem ofSpelling?_symbol (operator : Operator) :
    ofSpelling? operator.symbol = some operator := by
  cases operator <;> decide

theorem negation?_isSome (operator : Operator) :
    operator.negation?.isSome = operator.isRelational := by
  cases operator <;> rfl

theorem negation?_eq_some_comm {operator negation : Operator} :
    operator.negation? = some negation ↔ negation.negation? = some operator := by
  cases operator <;> cases negation <;> decide

end Operator

end FactRules
