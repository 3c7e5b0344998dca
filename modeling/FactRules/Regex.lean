import FactRules.Text.CaseFolding

/-!
Regular expressions, as far as patterns are translated into them: single characters, any number of
characters of one kind, and the beginning of the text. A backslash in front of punctuation takes its
meaning away. Expressions with anything else are refused. There is no limit on their size.
-/

namespace FactRules

namespace Regex

inductive Symbol where
  | any
  | letter (character : Char)
  deriving DecidableEq

inductive Part where
  | start
  | one (symbol : Symbol)
  | many (symbol : Symbol)
  deriving DecidableEq

def operators : List Char :=
  ['\\', '.', '+', '*', '?', '(', ')', '|', '[', ']', '\x7b', '\x7d', '^', '$']

/-- What may be escaped. The last four have a meaning only inside brackets or in spaced expressions. -/
def punctuation : List Char :=
  operators ++ ['#', '&', '-', '~']

def escape (character : Char) : List Char :=
  if punctuation.contains character then ['\\', character] else [character]

inductive Unit where
  | start
  | symbol (symbol : Symbol)
  | star
  deriving DecidableEq

def units? : List Char → Option (List Unit)
  | [] => some []
  | '\\' :: 'A' :: rest => (units? rest).map (.start :: ·)
  | '\\' :: character :: rest =>
      if punctuation.contains character then (units? rest).map (.symbol (.letter character) :: ·)
      else none
  | '.' :: rest => (units? rest).map (.symbol .any :: ·)
  | '*' :: rest => (units? rest).map (.star :: ·)
  | character :: rest =>
      if operators.contains character then none
      else (units? rest).map (.symbol (.letter character) :: ·)

def parts? : List Unit → Option (List Part)
  | [] => some []
  | .start :: rest => (parts? rest).map (.start :: ·)
  | .symbol symbol :: .star :: rest => (parts? rest).map (.many symbol :: ·)
  | .symbol symbol :: rest => (parts? rest).map (.one symbol :: ·)
  | .star :: _ => none

end Regex

structure Regex where
  parts : List Regex.Part
  caseless : Bool
  dotMatchesNewLine : Bool

namespace Regex

def build (source : List Char) (caseless dotMatchesNewLine : Bool) : Except String Regex :=
  match (units? source).bind parts? with
  | some parts => .ok { parts, caseless, dotMatchesNewLine }
  | none => .error ("regex parse error: " ++ String.ofList source)

def takes (regex : Regex) : Symbol → Char → Bool
  | .any, found => regex.dotMatchesNewLine || found != '\n'
  | .letter expected, found =>
      if regex.caseless then Text.sameLetter expected found else expected = found

/-- Of the places between the characters, those that are reached behind one more character. A place
beyond the end of the list is not reached. -/
def shift (taken : Char → Bool) (carried : Bool) : List Char → List Bool → List Bool
  | [], _ => [carried]
  | character :: text, reached =>
      carried :: shift taken (reached.headD false && taken character) text reached.tail

def spread (taken : Char → Bool) (carried : Bool) : List Char → List Bool → List Bool
  | [], reached => [reached.headD false || carried]
  | character :: text, reached =>
      let here := reached.headD false || carried
      here :: spread taken (here && taken character) text reached.tail

def step (regex : Regex) (text : List Char) (reached : List Bool) : Part → List Bool
  | .start => reached.take 1
  | .one symbol => shift (regex.takes symbol) false text reached
  | .many symbol => spread (regex.takes symbol) false text reached

def isMatch (regex : Regex) (text : List Char) : Bool :=
  (regex.parts.foldl (regex.step text) (true :: text.map fun _ => true)).contains true

end Regex

end FactRules
