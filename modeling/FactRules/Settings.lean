import FactRules.Text.Ascii
import FactRules.Text.Blank
import FactRules.Text.Integer
import FactRules.Text.Quoted

/-!
Settings of an engine, their defaults, and how variables of the environment change them. A variable
whose text is not understood is left out with a warning.
-/

namespace FactRules

structure Settings where
  maxLookupDepth : Nat := 64
  /-- Whether a lookup fails that needs its own answer. -/
  detectCycles : Bool := true
  deriving DecidableEq

inductive Warning where
  | ignoredVariable (name text : String)
  | readsOwnTarget (target condition : String)
  deriving DecidableEq

namespace Warning

def message : Warning → String
  | .ignoredVariable name text => "rulebook: ignoring " ++ name ++ "=" ++ Text.quoted text
  | .readsOwnTarget target condition =>
      "rule for '" ++ target ++ "' references its own target: " ++ condition

end Warning

namespace Settings

def depthVariable : String := "RULEBOOK_MAX_LOOKUP_DEPTH"

def cyclesVariable : String := "RULEBOOK_DETECT_CYCLES"

def depth? (text : String) : Option Nat :=
  (Text.readNatural? (Text.trim text.toList)).filter (0 < ·)

def flag? (text : String) : Option Bool :=
  let word := Text.lowerAscii (Text.trimmed text)
  if ["1", "true", "yes", "on"].contains word then some true
  else if ["0", "false", "no", "off"].contains word then some false
  else none

def choose {α : Type} (name : String) (standard : α) (read? : String → Option α) :
    Option String → α × List Warning
  | none => (standard, [])
  | some text =>
      match read? text with
      | some value => (value, [])
      | none => (standard, [.ignoredVariable name text])

def ofEnvironment (environment : String → Option String) : Settings × List Warning :=
  let defaults : Settings := {}
  let (maxLookupDepth, depthWarnings) :=
    choose depthVariable defaults.maxLookupDepth depth? (environment depthVariable)
  let (detectCycles, cyclesWarnings) :=
    choose cyclesVariable defaults.detectCycles flag? (environment cyclesVariable)
  ({ maxLookupDepth, detectCycles }, depthWarnings ++ cyclesWarnings)

end Settings

end FactRules
