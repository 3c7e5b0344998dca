import FactRules.Literal

/-!
Templates: texts with placeholders, each of which takes the next binding. `%s` writes a string
literal, `%d` an integer, `%f` a floating-point number, `%@` the literal of the binding, and `%K` a
key path. Two percent signs write one; a percent sign before anything else is itself.
-/

namespace FactRules.Template

inductive Conversion where
  | string
  | integer
  | float
  | literal
  | keyPath
  deriving DecidableEq

namespace Conversion

def ofLetter? : Char → Option Conversion
  | 's' => some .string
  | 'd' => some .integer
  | 'f' => some .float
  | '@' => some .literal
  | 'K' => some .keyPath
  | _ => none

def placeholder : Conversion → String
  | .string => "%s"
  | .integer => "%d"
  | .float => "%f"
  | .literal => "%@"
  | .keyPath => "%K"

end Conversion

def clampedWhole? (value : Binary64) : Option Int64 :=
  value.whole?.map Text.clampedInt64

def integer? : Value → Option Int64
  | .int value => some value
  | .float value => clampedWhole? value
  | .string text =>
      let trimmed := Text.trim text.toList
      match Text.readInteger trimmed with
      | .ok value => some value
      | .error _ => (Binary64.ofText? trimmed).bind clampedWhole?
  | _ => none

def float? (binding : Value) : Option Binary64 :=
  let value? := match binding with
    | .int value => some (Binary64.ofInt value.toInt)
    | .float value => some value
    | .string text => Binary64.ofText? (Text.trim text.toList)
    | _ => none
  value?.filter Binary64.isFinite

/-- What a conversion writes for a binding, if it can. A floating-point number that is not finite is
never written. -/
def written? (conversion : Conversion) (binding : Value) : Option String :=
  let unwritable := match binding with
    | .float value => !value.isFinite
    | _ => false
  if unwritable then none
  else match conversion, binding with
    | .string, _ => some (Literal.quotedText binding.text)
    | .integer, _ => (integer? binding).map fun value => Text.integerText value.toInt
    | .float, _ => (float? binding).map Value.floatText
    | .keyPath, .string key => some key
    | _, _ => some (Literal.ofValue binding).text

def write (conversion : Conversion) (binding : Value) : Except ParseError String :=
  match written? conversion binding with
  | some text => .ok text
  | none => .error (.unusableBinding conversion.placeholder binding.shown)

def expandFrom (index : Nat) (bindings : List Value) : List Char → Except ParseError (List Char)
  | [] => .ok []
  | '%' :: '%' :: rest => ('%' :: ·) <$> expandFrom index bindings rest
  | '%' :: letter :: rest =>
      match Conversion.ofLetter? letter with
      | none => ('%' :: ·) <$> expandFrom index bindings (letter :: rest)
      | some conversion =>
          match bindings with
          | [] => .error (.missingBinding index)
          | binding :: later => do
              let text ← write conversion binding
              let following ← expandFrom (index + 1) later rest
              pure (text.toList ++ following)
  | character :: rest => (character :: ·) <$> expandFrom index bindings rest

/-- The text with every placeholder replaced. Bindings beyond the last placeholder do not matter. -/
def expand (template : String) (bindings : List Value) : Except ParseError String :=
  String.ofList <$> expandFrom 0 bindings template.toList

end FactRules.Template
