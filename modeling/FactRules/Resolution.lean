import FactRules.Condition.Evaluation
import FactRules.Context
import FactRules.Engine

/-!
Answering from a context and an engine. An attribute is a fact, a remembered answer, or else the
result of the first rule whose condition holds; conditions and actions ask for further attributes on
the way. Every step is stated for any way `ask` of answering those; `Engine.get` closes the circle,
where the number of lookups that may still be entered bounds the recursion.
-/

namespace FactRules

abbrev Resolving := ExceptT RuleError (StateM Context)

abbrev Ask := String → Resolving (Option Value)

def Reading.resolving {α : Type} (reading : Reading Context α) : Resolving α := fun context =>
  match reading context with
  | (.ok value, after) => (.ok value, after)
  | (.error error, after) => (.error (.ofEval error), after)

namespace Resolution

/-- A context as a source: an attribute without a value reads as null. -/
def source (ask : Ask) : Source Context where
  typeName := "Context"
  read? name := fun context =>
    match ask name context with
    | (.ok found, after) => (.ok (some (found.getD .null)), after)
    | (.error cause, after) => (.error (.lookup cause), after)

def remembering (condition : SharedCondition) (compute : Resolving Bool) : Resolving Bool :=
  fun context =>
    match context.verdict? condition with
    | some verdict => (.ok verdict, context)
    | none =>
        match compute context with
        | (.ok verdict, after) => (.ok verdict, after.rememberVerdict condition verdict)
        | (.error error, after) => (.error error, after)

mutual

def evaluate (types : TypeTable) (ask : Ask) : SharedCondition → Resolving Bool
  | .leaf identity comparison =>
      remembering (.leaf identity comparison)
        (comparison.evaluateFrom types (source ask)).resolving
  | .all identity terms => remembering (.all identity terms) (evaluateAll types ask terms)
  | .any identity terms => remembering (.any identity terms) (evaluateAny types ask terms)
  | .not identity inner =>
      remembering (.not identity inner) do
        let outcome ← evaluate types ask inner
        pure !outcome

def evaluateAll (types : TypeTable) (ask : Ask) : List SharedCondition → Resolving Bool
  | [] => pure true
  | term :: terms => do
      if ← evaluate types ask term then evaluateAll types ask terms else pure false

def evaluateAny (types : TypeTable) (ask : Ask) : List SharedCondition → Resolving Bool
  | [] => pure false
  | term :: terms => do
      if ← evaluate types ask term then pure true else evaluateAny types ask terms

end

def matching {m : Type → Type} [Monad m] (holds : Rule → m Bool) : List Rule → m (List Rule)
  | [] => pure []
  | rule :: rules => do
      let matched ← holds rule
      let others ← matching holds rules
      pure (if matched then rule :: others else others)

/-- The matching rules of the first bucket that has any. -/
def firstMatching {m : Type → Type} [Monad m] (holds : Rule → m Bool) :
    List Bucket → m (List Rule)
  | [] => pure []
  | bucket :: buckets => do
      match ← matching holds bucket.rules with
      | [] => firstMatching holds buckets
      | found => pure found

variable (engine : Engine) (ask : Ask)

def holds (rule : Rule) : Resolving Bool :=
  evaluate engine.types ask rule.condition

def candidates (target : String) : Resolving (List Rule) :=
  firstMatching (holds engine ask) (engine.buckets target)

def run {α : Type} : Program α → Resolving α
  | .done outcome => fun context => (outcome, context)
  | .get name next => fun context =>
      let (answer, after) := ask name context
      run (next answer) after
  | .evaluate condition next => fun context =>
      let (answer, after) := evaluate engine.types ask condition context
      run (next answer) after
  | .candidates target next => fun context =>
      let (answer, after) := candidates engine ask target context
      run (next (answer.map fun rules => rules.map Rule.toRuleHead)) after
  | .facts next => fun context => run (next context.facts) context
  | .clear next => fun context => run next context.clear
  | .share make next => fun context =>
      let (made, interner) := make context.interner
      run (next made) { context with interner }
  | .create make next => fun context =>
      let (made, interner) := make context.interner
      run (next made) { context with interner }

def fire (rule : Rule) : Resolving Value :=
  match rule.action with
  | none => pure rule.value
  | some action => fun context =>
      run engine ask (action rule.toRuleHead) (context.note (.fired rule.target))

def lookup (target : String) : Resolving (Option Value) := do
  match ← candidates engine ask target with
  | [] => pure none
  | rule :: _ =>
      let value ← fire engine ask rule
      pure (if value.isNull then none else some value)

def finish (name : String) (outcome : Except RuleError (Option Value)) (context : Context) :
    Except RuleError (Option Value) × Context :=
  let after := { context with resolving := context.resolving.leave.2 }
  match outcome with
  | .ok answer => (.ok answer, after.rememberAnswer name answer)
  | .error error => (.error error, after.note (.failed name error))

def answer (settings : Settings) (lookup : Ask) : Ask := fun name context =>
  match context.facts.find? name with
  | some fact => (.ok (some fact), context)
  | none =>
      match context.answers.find? name with
      | some answer => (.ok answer, context)
      | none =>
          match context.resolving.enter settings name with
          | .error error => (.error error, context.note (.failed name error))
          | .ok resolving =>
              let (outcome, after) :=
                lookup name ({ context with resolving }.note (.entered resolving.names))
              finish name outcome after

/-- Answers attributes with at most `remaining` more lookups inside each other. When none is left
the resolving stack is full and refuses to begin one. -/
def within (engine : Engine) : (remaining : Nat) → Ask
  | 0 => answer engine.settings fun name =>
      throw (.depthExceeded engine.settings.maxLookupDepth name)
  | remaining + 1 => answer engine.settings (lookup engine (within engine remaining))

end Resolution

namespace Engine

def get (engine : Engine) : Ask := fun name context =>
  Resolution.within engine (engine.settings.maxLookupDepth - context.resolving.depth) name context

def evaluate (engine : Engine) (condition : SharedCondition) : Resolving Bool :=
  Resolution.evaluate engine.types engine.get condition

def candidates (engine : Engine) (target : String) : Resolving (List Rule) :=
  Resolution.candidates engine engine.get target

def fire (engine : Engine) (rule : Rule) : Resolving Value :=
  Resolution.fire engine engine.get rule

/-- The result of the first candidate, whether or not the attribute is a fact or has been answered
before. -/
def lookup (engine : Engine) (target : String) : Resolving (Option Value) :=
  Resolution.lookup engine engine.get target

def source (engine : Engine) : Source Context :=
  Resolution.source engine.get

end Engine

end FactRules
