import FactRules.Condition
import FactRules.Text.Blank
import FactRules.Text.WordCharacter

/-!
Tokens of condition text. `next?` takes one token off the front of a text that does not begin with a
blank. The kinds are tried in a fixed order, so that `(Name)'text'` is one literal and `like` in
front of a letter is part of a word.
-/

namespace FactRules

inductive Token where
  | openGroup
  | closeGroup
  | compare (operator : Operator)
  | constant (literal : Literal)
  /-- A numeral as written; its range is checked when it is used. -/
  | number (text : String)
  | word (text : String)
  deriving DecidableEq

namespace Token

def after? (alike : Char → Char → Bool) : List Char → List Char → Option (List Char)
  | [], input => some input
  | _ :: _, [] => none
  | expected :: later, found :: input =>
      if alike expected found then after? alike later input else none

def exactly (expected found : Char) : Bool :=
  expected = found

/-- Only ASCII letters have a case. This is an assumption: where a Kelvin sign is lowered to `k` as
well, `like` may match a beginning that is longer in bytes, and the text is cut inside a character,
which is a failure without an answer. -/
def anyCase (expected found : Char) : Bool :=
  expected.toLower = found.toLower

def atBoundary : List Char → Bool
  | [] => true
  | character :: _ => !Text.isWordCharacter character

def afterWord? (alike : Char → Char → Bool) (word : String) (input : List Char) :
    Option (List Char) :=
  (after? alike word.toList input).filter atBoundary

/-- The characters up to a closing quote, which is taken away. A backslash makes the next character
part of the text, whatever it is. -/
def quotedBody? (quote : Char) : List Char → Option (List Char × List Char)
  | [] => none
  | '\\' :: [] => none
  | '\\' :: escaped :: rest =>
      (quotedBody? quote rest).map fun (body, rest) => (escaped :: body, rest)
  | character :: rest =>
      if character = quote then some ([], rest)
      else (quotedBody? quote rest).map fun (body, rest) => (character :: body, rest)

def quoted? : List Char → Option (String × List Char)
  | [] => none
  | quote :: input =>
      if quote = '\'' || quote = '"' then
        (quotedBody? quote input).map fun (body, rest) => (String.ofList body, rest)
      else none

/-- A name of ASCII letters and digits in parentheses, directly before a quoted text. -/
def typed? : List Char → Option (Token × List Char)
  | '(' :: initial :: input =>
      let name := initial :: input.takeWhile Char.isAlphanum
      match initial.isUpper, input.dropWhile Char.isAlphanum with
      | true, ')' :: rest =>
          (quoted? rest).map fun (text, rest) =>
            (.constant (.typed (String.ofList name) text), rest)
      | _, _ => none
  | _ => none

def group? : List Char → Option (Token × List Char)
  | '(' :: rest => some (.openGroup, rest)
  | ')' :: rest => some (.closeGroup, rest)
  | _ => none

def symbols : List (String × Operator) :=
  [("==", .equal), ("!=", .notEqual), (">=", .greaterOrEqual), ("<=", .lessOrEqual),
    (">", .greater), ("<", .less), ("=", .equal)]

def operatorWords : List (String × Operator) :=
  [("cilike", .caselessLike), ("like", .like)]

def operator? (input : List Char) : Option (Token × List Char) :=
  let symbol := symbols.findSome? fun (spelling, operator) =>
    (after? exactly spelling.toList input).map fun rest => (Token.compare operator, rest)
  symbol <|> operatorWords.findSome? fun (spelling, operator) =>
    (afterWord? anyCase spelling input).map fun rest => (Token.compare operator, rest)

def fraction : List Char → List Char × List Char
  | '.' :: input =>
      if (input.takeWhile Char.isDigit).isEmpty then ([], '.' :: input)
      else ('.' :: input.takeWhile Char.isDigit, input.dropWhile Char.isDigit)
  | input => ([], input)

def unsigned? (input : List Char) : Option (List Char × List Char) :=
  if (input.takeWhile Char.isDigit).isEmpty then none
  else
    let (digits, rest) := fraction (input.dropWhile Char.isDigit)
    some (input.takeWhile Char.isDigit ++ digits, rest)

def number? : List Char → Option (Token × List Char)
  | '-' :: input =>
      (unsigned? input).map fun (digits, rest) => (.number (String.ofList ('-' :: digits)), rest)
  | input => (unsigned? input).map fun (digits, rest) => (.number (String.ofList digits), rest)

def keywords : List (String × Literal) :=
  [("true", .bool true), ("false", .bool false), ("nil", .null)]

def keyword? (input : List Char) : Option (Token × List Char) :=
  keywords.findSome? fun (spelling, literal) =>
    (afterWord? exactly spelling input).map fun rest => (Token.constant literal, rest)

def string? (input : List Char) : Option (Token × List Char) :=
  (quoted? input).map fun (text, rest) => (.constant (.string text), rest)

def marks : List Char :=
  ['(', ')', '=', '!', '<', '>', '\'', '"']

def isBare (character : Char) : Bool :=
  !Text.isBlank character && !marks.contains character

def word? (input : List Char) : Option (Token × List Char) :=
  if (input.takeWhile isBare).isEmpty then none
  else some (.word (String.ofList (input.takeWhile isBare)), input.dropWhile isBare)

def next? (input : List Char) : Option (Token × List Char) :=
  typed? input <|> group? input <|> operator? input <|> number? input <|> keyword? input <|>
    string? input <|> word? input

end Token

end FactRules
