import FactRules.Rule
import FactRules.Settings

/-!
The index of an engine: for each attribute its rules in buckets, one for each priority. Buckets come
in descending priority, and the rules of a bucket in descending size of their conditions; among
rules of one size the one loaded first comes first.
-/

namespace FactRules

structure Bucket where
  priority : Int32
  rules : List Rule

structure Engine where
  index : Table (List Bucket) := []
  settings : Settings := {}
  types : TypeTable := .standard

namespace Bucket

def insertRule (rule : Rule) : List Rule → List Rule
  | [] => [rule]
  | first :: later =>
      if first.size < rule.size then rule :: first :: later else first :: insertRule rule later

def sortRules (rules : List Rule) : List Rule :=
  rules.foldl (fun sorted rule => insertRule rule sorted) []

def sorted (bucket : Bucket) : Bucket :=
  { bucket with rules := sortRules bucket.rules }

def append (rule : Rule) : List Bucket → List Bucket
  | [] => [⟨rule.priority, [rule]⟩]
  | bucket :: later =>
      if bucket.priority = rule.priority then
        { bucket with rules := bucket.rules ++ [rule] } :: later
      else if bucket.priority < rule.priority then ⟨rule.priority, [rule]⟩ :: bucket :: later
      else bucket :: append rule later

end Bucket

namespace Engine

def buckets (engine : Engine) (target : String) : List Bucket :=
  (engine.index.find? target).getD []

def append (engine : Engine) (rule : Rule) : Engine :=
  { engine with
    index := engine.index.insert rule.target (Bucket.append rule (engine.buckets rule.target)) }

def sorted (engine : Engine) : Engine :=
  { engine with index := engine.index.mapValues (List.map Bucket.sorted) }

def loadWarnings (rules : List Rule) : List Warning :=
  (rules.filter fun rule => !rule.isValid).map fun rule =>
    .readsOwnTarget rule.target rule.condition.text

/-- Appends the rules to their buckets, and then puts every bucket in order. -/
def load (engine : Engine) (rules : List Rule) : Engine × List Warning :=
  ((rules.foldl append engine).sorted, loadWarnings rules)

def targets (engine : Engine) : List String :=
  engine.index.names

def rulesFor (engine : Engine) (target : String) : List Rule :=
  (engine.buckets target).flatMap Bucket.rules

end Engine

end FactRules
