import FactRules.Proofs.Inquiry
import FactRules.Proofs.Repeatable

/-!
What answering amounts to by itself, with nothing remembered and no limit on what is in progress. A
plan is the tree of the attributes that are asked for; unlike an inquiry it may go on after a
failure. What a plan gives follows from the facts and the rules alone, so it gives one thing at most.
-/

namespace FactRules

open Inquiry

inductive Plan (α : Type) : Type where
  | ends (outcome : Except RuleError α)
  | asks (name : String) (next : Except RuleError (Option Value) → Plan α)

namespace Plan

variable {α β : Type}

def handle (plan : Plan α) (following : Except RuleError α → Plan β) : Plan β :=
  match plan with
  | .ends outcome => following outcome
  | .asks name next => .asks name fun answer => (next answer).handle following

def orFail (following : α → Plan β) : Except RuleError α → Plan β
  | .ok value => following value
  | .error error => .ends (.error error)

instance : Monad Plan where
  pure value := .ends (.ok value)
  bind plan following := plan.handle (orFail following)

def ofInquiry : Inquiry α → Plan α
  | .done outcome => .ends outcome
  | .ask name next => .asks name (orFail fun answer => ofInquiry (next answer))

theorem ofInquiry_bind (inquiry : Inquiry α) (following : α → Inquiry β) :
    ofInquiry (inquiry >>= following) =
      ofInquiry inquiry >>= fun value => ofInquiry (following value) := by
  induction inquiry with
  | done outcome => cases outcome <;> rfl
  | ask name next ih =>
      refine congrArg (Plan.asks name) (funext fun answer => ?_)
      cases answer with
      | error error => rfl
      | ok answer => exact ih answer

variable (engine : Engine) (facts : Facts) (interner : Interner)

def ofProgram : Program α → Plan α
  | .done outcome => .ends outcome
  | .get name next => .asks name fun answer => ofProgram (next answer)
  | .evaluate condition next =>
      (ofInquiry (ofCondition engine.types condition.condition)).handle fun outcome =>
        ofProgram (next outcome)
  | .candidates target next =>
      (ofInquiry (ofCandidates engine target)).handle fun found =>
        ofProgram (next (found.map fun rules => rules.map Rule.toRuleHead))
  | .facts next => ofProgram (next facts)
  | .clear next => ofProgram next
  | .share make next => ofProgram (next (make interner).1)
  | .create make next => ofProgram (next (make interner).1)

def ofRule (rule : Rule) : Plan Value :=
  match rule.action with
  | none => pure rule.value
  | some action => ofProgram engine facts interner (action rule.toRuleHead)

def ofLookup (target : String) : Plan (Option Value) := do
  match ← ofInquiry (ofCandidates engine target) with
  | [] => pure none
  | rule :: _ =>
      let value ← ofRule engine facts interner rule
      pure (if value.isNull then none else some value)

/-- The plan comes to this end when each attribute is a fact or is given by the plan of its lookup. -/
inductive Gives : {α : Type} → Plan α → Except RuleError α → Prop
  | ends {α : Type} (outcome : Except RuleError α) : Gives (.ends outcome) outcome
  | fact {α : Type} {name : String} {value : Value}
      {next : Except RuleError (Option Value) → Plan α} {outcome : Except RuleError α}
      (given : facts.find? name = some value) (rest : Gives (next (.ok (some value))) outcome) :
      Gives (.asks name next) outcome
  | lookup {α : Type} {name : String} {answer : Except RuleError (Option Value)}
      {next : Except RuleError (Option Value) → Plan α} {outcome : Except RuleError α}
      (missing : facts.find? name = none)
      (inner : Gives (ofLookup engine facts interner name) answer)
      (rest : Gives (next answer) outcome) : Gives (.asks name next) outcome

variable {engine facts interner}

namespace Gives

theorem unique {plan : Plan α} {outcome other : Except RuleError α}
    (gives : plan.Gives engine facts interner outcome)
    (again : plan.Gives engine facts interner other) : outcome = other := by
  induction gives with
  | ends outcome =>
      cases again
      rfl
  | fact given rest ih =>
      cases again with
      | fact givenAgain restAgain =>
          obtain rfl := Option.some.inj (given.symm.trans givenAgain)
          exact ih restAgain
      | lookup missing innerAgain restAgain => cases given.symm.trans missing
  | lookup missing inner rest innerIh restIh =>
      cases again with
      | fact given restAgain => cases missing.symm.trans given
      | lookup missingAgain innerAgain restAgain =>
          obtain rfl := innerIh innerAgain
          exact restIh restAgain

theorem handle {plan : Plan α} {outcome : Except RuleError α}
    (first : plan.Gives engine facts interner outcome) {following : Except RuleError α → Plan β}
    {result : Except RuleError β} (later : (following outcome).Gives engine facts interner result) :
    (plan.handle following).Gives engine facts interner result := by
  induction first with
  | ends outcome => exact later
  | fact given rest ih => exact .fact given (ih later)
  | lookup missing inner rest _ ih => exact .lookup missing inner (ih later)

theorem bind {plan : Plan α} {value : α} (first : plan.Gives engine facts interner (.ok value))
    {following : α → Plan β} {result : Except RuleError β}
    (later : (following value).Gives engine facts interner result) :
    (plan >>= following).Gives engine facts interner result :=
  first.handle later

theorem bind_error {plan : Plan α} {error : RuleError}
    (first : plan.Gives engine facts interner (.error error)) (following : α → Plan β) :
    (plan >>= following).Gives engine facts interner (.error error) :=
  first.handle (.ends (.error error))

theorem asked {name : String} {next : Except RuleError (Option Value) → Plan α}
    {outcome : Except RuleError α}
    (gives : (Plan.asks name next).Gives engine facts interner outcome) :
    ∃ answer, (Plan.asks name .ends).Gives engine facts interner answer ∧
      (next answer).Gives engine facts interner outcome := by
  cases gives with
  | fact given rest => exact ⟨_, .fact given (.ends _), rest⟩
  | lookup missing inner rest => exact ⟨_, .lookup missing inner (.ends _), rest⟩

theorem exists_known (engine : Engine) (facts : Facts) (interner : Interner) :
    ∃ known : Known, ∀ name answer,
      (Plan.asks name .ends).Gives engine facts interner (.ok answer) →
        known name = some answer := by
  have choose (name : String) : ∃ found : Option (Option Value), ∀ answer,
      (Plan.asks name .ends).Gives engine facts interner (.ok answer) → found = some answer := by
    by_cases given : ∃ answer, (Plan.asks name .ends).Gives engine facts interner (.ok answer)
    · obtain ⟨answer, right⟩ := given
      exact ⟨some answer, fun other again => congrArg some (Except.ok.inj (right.unique again))⟩
    · exact ⟨none, fun answer right => (given ⟨answer, right⟩).elim⟩
  exact Classical.skolem.1 choose

theorem result?_eq {known : Known}
    (right : ∀ name answer, (Plan.asks name .ends).Gives engine facts interner (.ok answer) →
      known name = some answer)
    {inquiry : Inquiry α} {value : α}
    (gives : (ofInquiry inquiry).Gives engine facts interner (.ok value)) :
    inquiry.result? known = some value := by
  induction inquiry with
  | done outcome =>
      cases gives
      rfl
  | ask name next ih =>
      obtain ⟨answer, asked, rest⟩ := gives.asked
      cases answer with
      | error error => cases rest
      | ok answer =>
          simp only [result?, right name answer asked]
          exact ih answer rest

theorem subset_of_candidates {target : String} {found : List Rule}
    (gives : (ofInquiry (ofCandidates engine target)).Gives engine facts interner (.ok found)) :
    found ⊆ engine.rulesFor target := by
  obtain ⟨known, right⟩ := exists_known engine facts interner
  exact mem_of_candidates (gives.result?_eq right)

end Gives

end Plan

namespace Program

/-- Two programs that make the same requests and end in the same way when their requests are answered
in the same way, be it by failures, in whatever order they are given the facts, and whatever they
share and create with interners that are kept to. -/
inductive Corresponds (kept : Interner → Prop) {α : Type} : Program α → Program α → Prop
  | done (outcome : Except RuleError α) : Corresponds kept (.done outcome) (.done outcome)
  | get (name : String) {next other : Except RuleError (Option Value) → Program α}
      (answered : ∀ answer, Corresponds kept (next answer) (other answer)) :
      Corresponds kept (.get name next) (.get name other)
  | evaluate {condition equal : SharedCondition} (equals : condition.condition = equal.condition)
      {next other : Except RuleError Bool → Program α}
      (answered : ∀ outcome, Corresponds kept (next outcome) (other outcome)) :
      Corresponds kept (.evaluate condition next) (.evaluate equal other)
  | candidates (target : String) {next other : Except RuleError (List RuleHead) → Program α}
      (answered : ∀ found, Corresponds kept (next found) (other found)) :
      Corresponds kept (.candidates target next) (.candidates target other)
  | facts {next other : Facts → Program α}
      (answered : ∀ left right, left.SameAs right → Corresponds kept (next left) (other right)) :
      Corresponds kept (.facts next) (.facts other)
  | clear {next other : Program α} (later : Corresponds kept next other) :
      Corresponds kept (.clear next) (.clear other)
  | share {make again : Sharing ParseError SharedCondition}
      {next other : Except ParseError SharedCondition → Program α}
      (keeps : ∀ interner, kept interner → kept (make interner).2)
      (made : ∀ left right, kept left → kept right →
        Corresponds kept (next (make left).1) (other (again right).1)) :
      Corresponds kept (.share make next) (.share again other)
  | create {make again : StateM Interner Value} {next other : Value → Program α}
      (keeps : ∀ interner, kept interner → kept (make interner).2)
      (made : ∀ left right, kept left → kept right →
        Corresponds kept (next (make left).1) (other (again right).1)) :
      Corresponds kept (.create make next) (.create again other)

variable {kept : Interner → Prop} {α β : Type}

theorem PassesErrors.corresponds {next other : Except RuleError β → Program α}
    (passes : PassesErrors next) (otherPasses : PassesErrors other)
    (answered : ∀ value, Corresponds kept (next (.ok value)) (other (.ok value)))
    (answer : Except RuleError β) : Corresponds kept (next answer) (other answer) := by
  cases answer with
  | error error =>
      rw [passes error, otherPasses error]
      exact .done _
  | ok value => exact answered value

theorem Alike.corresponds {program again : Program α}
    (alike : Alike kept Facts.SameAs program again) : Corresponds kept program again := by
  induction alike with
  | done outcome => exact .done outcome
  | get name _ passes otherPasses ih => exact .get name (passes.corresponds otherPasses ih)
  | evaluate equals _ passes otherPasses ih =>
      exact .evaluate equals (passes.corresponds otherPasses ih)
  | candidates target _ passes otherPasses ih =>
      exact .candidates target (passes.corresponds otherPasses ih)
  | facts _ ih => exact .facts ih
  | share keeps _ _ ih => exact .share keeps ih
  | create keeps _ _ ih => exact .create keeps ih

end Program

/-- Each action does the same whenever its requests are answered in the same way. -/
def Engine.Determined (engine : Engine) (kept : Interner → Prop) : Prop :=
  ∀ target, ∀ rule ∈ engine.rulesFor target, ∀ action, rule.action = some action →
    Program.Corresponds kept (action rule.toRuleHead) (action rule.toRuleHead)

end FactRules
