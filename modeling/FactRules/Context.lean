import FactRules.Facts
import FactRules.Interner
import FactRules.ResolvingStack
import FactRules.Value

/-!
Contexts: the facts of one evaluation, the answers remembered so far, the lookups in progress, and a
journal of what has happened.
-/

namespace FactRules

inductive Event where
  /-- A lookup began; these are the names in progress, the new one first. -/
  | entered (names : List String)
  /-- A lookup ended, and its answer is remembered. -/
  | answered (name : String) (answer : Option Value)
  | failed (name : String) (cause : RuleError)
  | fired (target : String)
  | cleared

structure Context where
  facts : Facts := {}
  answers : Table (Option Value) := []
  /-- Truth values of conditions, by instance. -/
  verdicts : List (SharedCondition × Bool) := []
  resolving : ResolvingStack := {}
  interner : Interner := {}
  /-- The latest event comes first. -/
  journal : List Event := []

namespace Context

def fresh (facts : Facts) (interner : Interner := {}) : Context :=
  { facts, interner }

def ofFacts (facts : List (String × Value)) (interner : Interner := {}) : Context :=
  fresh (.ofList facts) interner

def note (context : Context) (event : Event) : Context :=
  { context with journal := event :: context.journal }

def clear (context : Context) : Context :=
  { context with answers := [], verdicts := [] }.note .cleared

/-- Gives a fact, and forgets whatever may have depended on it. -/
def set (context : Context) (name : String) (value : Value)
    (arrangement : Arrangement := .unchanged) : Context :=
  { context with facts := arrangement.arrange (context.facts.insert name value) }.clear

def contains (context : Context) (name : String) : Bool :=
  context.facts.contains name

def verdict? (context : Context) (condition : SharedCondition) : Option Bool :=
  (context.verdicts.find? fun entry => entry.1 = condition).map Prod.snd

def withVerdict (condition : SharedCondition) (verdict : Bool) :
    List (SharedCondition × Bool) → List (SharedCondition × Bool)
  | [] => [(condition, verdict)]
  | entry :: later =>
      if entry.1 = condition then (condition, verdict) :: later
      else entry :: withVerdict condition verdict later

def rememberVerdict (context : Context) (condition : SharedCondition) (verdict : Bool) : Context :=
  { context with verdicts := withVerdict condition verdict context.verdicts }

def rememberAnswer (context : Context) (name : String) (answer : Option Value) : Context :=
  { context with answers := context.answers.insert name answer }.note (.answered name answer)

def firedTargets (context : Context) : List String :=
  context.journal.reverse.filterMap fun event =>
    match event with
    | .fired target => some target
    | _ => none

theorem verdict?_rememberVerdict (context : Context) (condition other : SharedCondition)
    (verdict : Bool) : (context.rememberVerdict condition verdict).verdict? other =
      if other = condition then some verdict else context.verdict? other := by
  simp only [verdict?, rememberVerdict]
  induction context.verdicts with
  | nil =>
      by_cases same : condition = other
      · simp [withVerdict, same]
      · simp [withVerdict, same, Ne.symm same]
  | cons entry later ih =>
      simp only [withVerdict]
      by_cases found : entry.1 = condition
      · by_cases same : condition = other
        · simp [found, same]
        · simp [found, same, Ne.symm same]
      · by_cases same : other = condition
        · simp only [found, if_false, List.find?_cons, same, decide_false, if_true] at ih ⊢
          exact ih
        · by_cases first : entry.1 = other
          · simp [first, same]
          · simp only [found, if_false, List.find?_cons, first, decide_false, same] at ih ⊢
            exact ih

end Context

end FactRules
