import FactRules.Proofs.Failures
import FactRules.Proofs.Repeatable

/-!
Actions that pass on errors. An error is wrapped when a failed lookup has become the cause of
another failure. A program passes on errors if it ends with the error of any failed request and wraps
none itself; so do the scripts that rescue nothing.
-/

namespace FactRules

def RuleError.Unwrapped (error : RuleError) : Prop :=
  ∀ cause, error ≠ .eval (.lookup cause)

/-- No error inside the failure is wrapped. As nothing but the failure of a lookup has an error inside
it, that shows at the outside. -/
def EvalError.Flat (error : EvalError) : Prop :=
  ∀ cause, error ≠ .lookup (.eval (.lookup cause))

theorem RuleError.unwrapped_ofEval {failure : EvalError} (flat : failure.Flat) :
    (RuleError.ofEval failure).Unwrapped := by
  cases failure with
  | lookup cause => exact fun inner same => flat inner (congrArg EvalError.lookup same)
  | unknownKey | unknownType | coercion | notComparable | invalidPattern | negationUnsupported =>
      exact nofun

theorem Value.family_flat : Family (FailsOnly EvalError.Flat) EvalError.Flat :=
  family_failsOnly fun _ own _ => own _

/-- As long as it is answered with such values the program passes on the errors of its requests,
raises none that is wrapped, and ends with such results. -/
inductive Program.Propagates (good : Value → Prop) {α : Type} (ends : α → Prop) : Program α → Prop
  | succeed {value : α} (fits : ends value) : Propagates good ends (.done (.ok value))
  | fail {error : RuleError} (unwrapped : error.Unwrapped) :
      Propagates good ends (.done (.error error))
  | get (name : String) {next : Except RuleError (Option Value) → Program α}
      (passes : PassesErrors next)
      (answered : ∀ answer : Option Value, (∀ value ∈ answer, good value) →
        Propagates good ends (next (.ok answer))) :
      Propagates good ends (.get name next)
  | evaluate (condition : SharedCondition) {next : Except RuleError Bool → Program α}
      (passes : PassesErrors next)
      (answered : ∀ verdict, Propagates good ends (next (.ok verdict))) :
      Propagates good ends (.evaluate condition next)
  | candidates (target : String) {next : Except RuleError (List RuleHead) → Program α}
      (passes : PassesErrors next)
      (answered : ∀ heads : List RuleHead, (∀ head ∈ heads, good head.value) →
        Propagates good ends (next (.ok heads))) :
      Propagates good ends (.candidates target next)
  | facts {next : Facts → Program α}
      (answered : ∀ facts : Facts,
        (∀ name value, facts.find? name = some value → good value) →
        Propagates good ends (next facts)) :
      Propagates good ends (.facts next)
  | clear {next : Program α} (goesOn : Propagates good ends next) :
      Propagates good ends (.clear next)
  | share {make : Sharing ParseError SharedCondition}
      {next : Except ParseError SharedCondition → Program α}
      (made : ∀ interner, Propagates good ends (next (make interner).1)) :
      Propagates good ends (.share make next)
  | create {make : StateM Interner Value} {next : Value → Program α}
      (made : ∀ interner, Propagates good ends (next (make interner).1)) :
      Propagates good ends (.create make next)

def Engine.Propagates (engine : Engine) (good : Value → Prop) : Prop :=
  ∀ target, ∀ rule ∈ engine.rulesFor target, ∀ action, rule.action = some action →
    (action rule.toRuleHead).Propagates good good

namespace Program

variable {good : Value → Prop} {α β : Type} {ends : α → Prop} {ends' : β → Prop}

theorem Propagates.bind {program : Program α} (first : program.Propagates good ends)
    {following : α → Program β}
    (later : ∀ value, ends value → (following value).Propagates good ends') :
    (program.bind following).Propagates good ends' := by
  induction first with
  | succeed fits => exact later _ fits
  | fail unwrapped => exact .fail unwrapped
  | get name passes _ ih => exact .get name (passes.bind following) ih
  | evaluate condition passes _ ih => exact .evaluate condition (passes.bind following) ih
  | candidates target passes _ ih => exact .candidates target (passes.bind following) ih
  | facts _ ih => exact .facts ih
  | clear _ ih => exact .clear ih
  | share _ ih => exact .share ih
  | create _ ih => exact .create ih

theorem propagates_read (name : String) :
    (read name).Propagates good fun answer => ∀ value ∈ answer, good value :=
  .get name (fun _ => rfl) fun _ held => .succeed held

theorem propagates_follow (family : Value.Family good EvalError.Flat) (path : String) :
    (follow path).Propagates good good := by
  refine (propagates_read _).bind fun first held => ?_
  have started : good (first.getD .null) := by
    cases first with
    | none => exact family.null
    | some value => exact held value rfl
  cases reached : (first.getD .null).follow (Text.laterPieces '.' path) with
  | ok value => exact .succeed (family.found_follow started reached)
  | error error => exact .fail (RuleError.unwrapped_ofEval (family.failed_follow started reached))

end Program

namespace Script

open Program Value

mutual

def Forwards : Script → Prop
  | .constant make => ∀ interner, (make interner).1.FailsOnly EvalError.Flat
  | .concat parts => AllForward parts
  | .list parts => AllForward parts
  | .sequence parts => AllForward parts
  | .rescue _ => False
  | _ => True

def AllForward : List Script → Prop
  | [] => True
  | part :: parts => Forwards part ∧ AllForward parts

end

mutual

theorem propagates_program (head : RuleHead) (held : head.value.FailsOnly EvalError.Flat) :
    (script : Script) → script.Forwards →
    (script.program head).Propagates (FailsOnly EvalError.Flat) (FailsOnly EvalError.Flat)
  | .constant _, forwards => .create fun interner => .succeed (forwards interner)
  | .ruleValue, _ => .succeed held
  | .get name, _ => (propagates_read name).bind fun found held => by
      cases found with
      | none => exact .succeed .null
      | some value => exact .succeed (held value rfl)
  | .isAbsent name, _ => (propagates_read name).bind fun _ _ => .succeed (.bool _)
  | .hasFact _, _ => .facts fun _ _ => .succeed (.bool _)
  | .concat parts, forwards =>
      (propagates_programs head held parts forwards).bind fun _ _ => .succeed (.string _)
  | .list parts, forwards =>
      (propagates_programs head held parts forwards).bind fun _ each => .succeed (.list each)
  | .sequence parts, forwards =>
      (propagates_programs head held parts forwards).bind fun values each => .succeed (by
        rw [List.getLastD_eq_getLast?]
        cases last : values.getLast? with
        | none => exact .null
        | some value => exact each value (List.mem_of_getLast? last))
  | .path keyPath, _ => propagates_follow family_flat keyPath
  | .holds make, _ => .share fun interner => by
      cases (make interner).1 with
      | error error => exact .fail nofun
      | ok condition => exact .evaluate condition (fun _ => rfl) fun _ => .succeed (.bool _)
  | .count target, _ => .candidates target (fun _ => rfl) fun _ _ => .succeed (.int _)
  | .describe, _ => .succeed (.ofEntries (by simp [FailsOnly.string, FailsOnly.int]))
  | .clear, _ => .clear (.succeed .null)
  | .fail _, _ => .fail nofun
  | .rescue _, forwards => forwards.elim

theorem propagates_programs (head : RuleHead) (held : head.value.FailsOnly EvalError.Flat) :
    (parts : List Script) → AllForward parts →
    (programs head parts).Propagates (FailsOnly EvalError.Flat)
      fun values => ∀ value ∈ values, value.FailsOnly EvalError.Flat
  | [], _ => .succeed nofun
  | part :: parts, forwards =>
      (propagates_program head held part forwards.1).bind fun _ first =>
        (propagates_programs head held parts forwards.2).bind fun _ later =>
          .succeed (List.forall_mem_cons.2 ⟨first, later⟩)

end

end Script

end FactRules
