/-!
JSON texts as they are written: numerals keep their digits, and strings keep the code units that
their escapes name. A tree says that a text follows the grammar of JSON, and not yet that its
numerals and strings mean anything.
-/

namespace FactRules.Json

inductive Piece where
  | plain (character : Char)
  | unit (code : Nat)
  deriving DecidableEq

/-- A numeral by its parts. There is no fraction exactly when it has no digits. -/
structure Numeral where
  negative : Bool
  whole : List Char
  fraction : List Char
  exponent : Option (Bool × List Char)
  deriving DecidableEq

inductive Tree where
  | null
  | bool (value : Bool)
  | number (numeral : Numeral)
  | string (pieces : List Piece)
  | array (items : List Tree)
  | object (members : List (List Piece × Tree))

namespace Piece

def isLeading (code : Nat) : Bool :=
  0xD800 ≤ code && code < 0xDC00

def isTrailing (code : Nat) : Bool :=
  0xDC00 ≤ code && code < 0xE000

/-- The characters that a written string means. Two code units of a surrogate pair make one
character; a surrogate on its own means nothing. -/
def decode? : List Piece → Option (List Char)
  | [] => some []
  | .plain character :: rest => (decode? rest).map (character :: ·)
  | .unit leading :: .unit trailing :: rest =>
      if isLeading leading then
        if isTrailing trailing then
          (decode? rest).map
            (Char.ofNat (0x10000 + (leading - 0xD800) * 0x400 + (trailing - 0xDC00)) :: ·)
        else none
      else if isTrailing leading then none
      else (decode? (.unit trailing :: rest)).map (Char.ofNat leading :: ·)
  | .unit code :: rest =>
      if isLeading code || isTrailing code then none
      else (decode? rest).map (Char.ofNat code :: ·)

def text? (pieces : List Piece) : Option String :=
  (decode? pieces).map String.ofList

end Piece

end FactRules.Json
