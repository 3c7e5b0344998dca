import FactRules.Interner
import FactRules.Template
import FactRules.Token.Scan

/-!
Reading conditions. The tokens are shifted onto two stacks, one of operands and one of operators
that wait for them; a closing parenthesis applies the operators of its group from right to left.
The whole text counts as one group. Every condition that is built is shared.
-/

namespace FactRules

inductive Pending where
  | openGroup
  | compare (operator : Operator)
  | and
  | or
  | not
  deriving DecidableEq

inductive Operand where
  | key (path : String)
  | literal (literal : Literal)
  | condition (condition : SharedCondition)
  /-- Stands where NOT has no left operand. -/
  | marker

namespace Pending

def name : Pending → String
  | .openGroup => "("
  | .compare operator => operator.symbol
  | .and => "AND"
  | .or => "OR"
  | .not => "NOT"

def ofWord? (word : String) : Option Pending :=
  if Text.sameWord word.toList ['a', 'n', 'd'] then some .and
  else if Text.sameWord word.toList ['o', 'r'] then some .or
  else if Text.sameWord word.toList ['n', 'o', 't'] then some .not
  else none

end Pending

namespace Operand

def text : Operand → String
  | .key path => path
  | .literal value => value.text
  | .condition shared => shared.text
  | .marker => "NOT"

def isTerm : Operand → Bool
  | .key _ => true
  | .literal _ => true
  | _ => false

def stray (left right : Operand) : Operand :=
  if left.isTerm && !right.isTerm then left else right

end Operand

namespace SharedCondition

open Interner

/-- The terms of an AND of two conditions: an AND on the right gives its own terms. -/
def allTerms (left right : SharedCondition) : List SharedCondition :=
  match right with
  | .all _ terms => left :: terms
  | _ => [left, right]

def anyTerms (left right : SharedCondition) : List SharedCondition :=
  match right with
  | .any _ terms => left :: terms
  | _ => [left, right]

def combine (pending : Pending) (left right : Operand) : Sharing ParseError SharedCondition :=
  match pending, left, right with
  | .compare operator, .key key, .literal literal =>
      internLeaf (.keyLiteral key operator literal)
  | .compare operator, .key left, .key right => internLeaf (.keyKey left operator right)
  | .compare operator, .literal left, .literal right =>
      internLeaf (.literalLiteral left operator right)
  | .and, .condition left, .condition right => internAll (allTerms left right)
  | .or, .condition left, .condition right => internAny (anyTerms left right)
  | .not, .marker, .condition right => internNot right
  | _, left, right => throw (.unexpectedToken (Operand.stray left right).text)

structure Stacks where
  pending : List Pending := []
  operands : List Operand := []

namespace Stacks

def closeGroup : List Pending → List Operand → Sharing ParseError Stacks
  | [], _ => throw .unbalanced
  | .openGroup :: pending, operands => pure { pending, operands }
  | operator :: pending, right :: left :: operands => do
      let condition ← combine operator left right
      closeGroup pending (.condition condition :: operands)
  | operator :: _, _ => throw (.missingOperand operator.name)

/-- A numeral with a point is a finite floating-point number, one without an integer. -/
def literalOfNumber? (text : String) : Option Literal :=
  if text.toList.contains '.' then
    ((Binary64.ofText? text.toList).filter Binary64.isFinite).map .float
  else
    match Text.readInteger text.toList with
    | .ok value => some (.integer value)
    | .error _ => none

def push (held : Stacks) (operand : Operand) : Stacks :=
  { held with operands := operand :: held.operands }

def wait (held : Stacks) (operator : Pending) : Stacks :=
  { held with pending := operator :: held.pending }

def shift (held : Stacks) : Token → Sharing ParseError Stacks
  | .openGroup => pure (held.wait .openGroup)
  | .closeGroup => closeGroup held.pending held.operands
  | .compare operator => pure (held.wait (.compare operator))
  | .constant literal => pure (held.push (.literal literal))
  | .number text =>
      match literalOfNumber? text with
      | some literal => pure (held.push (.literal literal))
      | none => throw (.numberOutOfRange text)
  | .word word =>
      match Pending.ofWord? word with
      | some .not => pure ((held.push .marker).wait .not)
      | some connective => pure (held.wait connective)
      | none => pure (held.push (.key word))

def result (held : Stacks) : Except ParseError SharedCondition :=
  if held.pending.contains .openGroup then .error .unbalanced
  else match held.operands, held.pending with
    | [.condition condition], [] => .ok condition
    | [other], [] => .error (.unexpectedToken other.text)
    | _ :: second :: _, _ => .error (.unexpectedToken second.text)
    | _, _ => .error .incomplete

end Stacks

def ofTokens (tokens : List Token) : Sharing ParseError SharedCondition := do
  let held ← tokens.foldlM Stacks.shift {}
  match held.result with
  | .ok condition => pure condition
  | .error error => throw error

def byteLength : List Char → Nat
  | [] => 0
  | character :: rest => character.utf8Size + byteLength rest

/-- The tokens of a text in a pair of parentheses. The offset of an error counts the bytes of the
text before it, without the parenthesis. -/
def tokens (text : String) : Except ParseError (List Token) :=
  let grouped := '(' :: text.toList ++ [')']
  match Token.scan grouped with
  | .ok tokens => .ok tokens
  | .error rest =>
      .error (.unrecognized (byteLength grouped - byteLength rest - 1) (String.ofList rest))

def parse (text : String) (bindings : List Value) : Sharing ParseError SharedCondition :=
  match Template.expand text bindings with
  | .error error => throw error
  | .ok expanded =>
      match tokens expanded with
      | .error error => throw error
      | .ok found => ofTokens found

end SharedCondition

end FactRules
