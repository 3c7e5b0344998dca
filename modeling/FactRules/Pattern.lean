import FactRules.Error
import FactRules.Regex

/-!
Patterns in which a star stands for any run of characters and a question mark for any one. A pattern
becomes a regular expression for a beginning of a text, in which every other character is escaped.
-/

namespace FactRules.Pattern

def translated : Char → List Char
  | '*' => ['.', '*']
  | '?' => ['.']
  | other => Regex.escape other

def source (pattern : List Char) : List Char :=
  ['\\', 'A'] ++ pattern.flatMap translated

def compiled (pattern : String) (caseless : Bool) : Except EvalError Regex :=
  match Regex.build (source pattern.toList) caseless true with
  | .ok regex => .ok regex
  | .error reason => .error (.invalidPattern pattern reason)

end FactRules.Pattern
