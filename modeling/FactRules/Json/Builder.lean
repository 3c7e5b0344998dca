import FactRules.Json.Lexeme

/-!
Building a tree from lexical units. The containers that are still open lie on a stack, innermost
first, and what may come next is known at each point; a unit that may not come ends the reading.
-/

namespace FactRules.Json

/-- An open container with what it holds so far, the latest first. -/
inductive Frame where
  | array (items : List Tree)
  | object (members : List (List Piece × Tree)) (name : List Piece)

inductive Builder where
  | atValue (frames : List Frame)
  | atFirstItem (frames : List Frame)
  | afterItem (items : List Tree) (frames : List Frame)
  | atFirstName (frames : List Frame)
  | atName (members : List (List Piece × Tree)) (frames : List Frame)
  | atColon (members : List (List Piece × Tree)) (name : List Piece) (frames : List Frame)
  | afterMember (members : List (List Piece × Tree)) (frames : List Frame)
  | finished (tree : Tree)

namespace Builder

def deliver (tree : Tree) : List Frame → Builder
  | [] => .finished tree
  | .array items :: frames => .afterItem (tree :: items) frames
  | .object members name :: frames => .afterMember ((name, tree) :: members) frames

def beginValue (frames : List Frame) : Lexeme → Option Builder
  | .null => some (deliver .null frames)
  | .bool value => some (deliver (.bool value) frames)
  | .number numeral => some (deliver (.number numeral) frames)
  | .string pieces => some (deliver (.string pieces) frames)
  | .openArray => some (.atFirstItem frames)
  | .openObject => some (.atFirstName frames)
  | _ => none

def step : Builder → Lexeme → Option Builder
  | .atValue frames, lexeme => beginValue frames lexeme
  | .atFirstItem frames, .closeArray => some (deliver (.array []) frames)
  | .atFirstItem frames, lexeme => beginValue (.array [] :: frames) lexeme
  | .afterItem items frames, .comma => some (.atValue (.array items :: frames))
  | .afterItem items frames, .closeArray => some (deliver (.array items.reverse) frames)
  | .atFirstName frames, .closeObject => some (deliver (.object []) frames)
  | .atFirstName frames, .string name => some (.atColon [] name frames)
  | .atName members frames, .string name => some (.atColon members name frames)
  | .atColon members name frames, .colon => some (.atValue (.object members name :: frames))
  | .afterMember members frames, .comma => some (.atName members frames)
  | .afterMember members frames, .closeObject => some (deliver (.object members.reverse) frames)
  | _, _ => none

end Builder

namespace Tree

def ofLexemes? (lexemes : List Lexeme) : Option Tree :=
  match lexemes.foldlM Builder.step (.atValue []) with
  | some (.finished tree) => some tree
  | _ => none

def ofText? (text : String) : Option Tree :=
  (Lexeme.scan text.toList).bind ofLexemes?

end Tree

end FactRules.Json
