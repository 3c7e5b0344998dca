import FactRules.Proofs.History
import FactRules.Proofs.NamesRead

/-!
Evaluation that remembers nothing. A condition read plainly from a context has the outcome that the
context gives for it, whatever the context has been used for: what is skipped because it is
remembered would have been answered from memory.
-/

namespace FactRules

open Resolution Inquiry

/-- A context that is not in use: a new one, or one after a use from outside. -/
inductive Context.Reachable (engine : Engine) (kept : Interner → Prop) : Context → Prop
  | fresh (facts : Facts) {interner : Interner} (interned : kept interner) :
      Reachable engine kept (.fresh facts interner)
  | step {context : Context} (reachable : Reachable engine kept context) {step : Step}
      (keeps : step.Keeps kept) : Reachable engine kept (step.after engine context)
  | plainly {context : Context} (reachable : Reachable engine kept context)
      (condition : Condition) :
      Reachable engine kept (condition.evaluateFrom engine.types engine.source context).2
  | follow {context : Context} (reachable : Reachable engine kept context) (path : String) :
      Reachable engine kept (engine.source.resolvePath path context).2
  | fire {context : Context} (reachable : Reachable engine kept context) {rule : Rule}
      (repeatable : ∀ action, rule.action = some action →
        (action rule.toRuleHead).Repeatable kept) :
      Reachable engine kept (engine.fire rule context).2

theorem resolving_apply {α : Type} (reading : Reading Context α) (context : Context) :
    reading.resolving context =
      ((reading context).1.mapError RuleError.ofEval, (reading context).2) := by
  simp only [Reading.resolving]
  obtain ⟨_ | value, after⟩ := reading context <;> rfl

namespace Resolution

variable {stack : ResolvingStack} {ask other : Ask}

theorem agreeAt_iff_alike {α : Type} {left right : Reading Context α} :
    AgreeAt stack left right ↔ Reading.Alike
      (fun context other => context = other ∧ context.resolving = stack) left right := by
  constructor
  · rintro agree context _ ⟨rfl, held⟩
    obtain ⟨equal, kept⟩ := agree context held
    exact ⟨congrArg Prod.fst equal, congrArg Prod.snd equal, kept⟩
  · intro alike context held
    obtain ⟨outcome, after, kept⟩ := alike context context ⟨rfl, held⟩
    exact ⟨Prod.ext outcome after, kept⟩

theorem agreeAt_condition (agree : AsksAgreeAt stack ask other) (types : TypeTable)
    (condition : Condition) :
    AgreeAt stack (condition.evaluateFrom types (source ask))
      (condition.evaluateFrom types (source other)) := by
  have alike : (source ask).AlikeOn
      (fun context other => context = other ∧ context.resolving = stack) condition.Reads
      (source other) :=
    ⟨rfl, fun name _ => agreeAt_iff_alike.1 (agreeAt_source agree name)⟩
  exact agreeAt_iff_alike.2 (condition.alike_evaluateFrom alike types fun _ reads => reads)

end Resolution

namespace Inquiry

variable {engine : Engine} {facts : Facts} {interner : Interner} {kept : Interner → Prop}
  {remaining : Nat} {ask : Ask}

mutual

theorem shows_condition (asks : AsksShow engine facts interner kept remaining ask) :
    (condition : Condition) →
    Shows engine facts interner kept remaining
      (condition.evaluateFrom engine.types (source ask)).resolving
      (ofCondition engine.types condition)
  | .leaf comparison => shows_comparison asks comparison
  | .all terms => shows_allTerms asks terms
  | .any terms => shows_anyTerms asks terms
  | .not inner => by
      rw [Condition.evaluateFrom, resolving_bind]
      exact .bind (shows_condition asks inner) fun _ => .lift rfl

theorem shows_allTerms (asks : AsksShow engine facts interner kept remaining ask) :
    (terms : List Condition) →
    Shows engine facts interner kept remaining
      (Condition.evaluateAll engine.types (source ask) terms).resolving (ofAll engine.types terms)
  | [] => .pure true
  | term :: terms => by
      rw [Condition.evaluateAll, resolving_bind]
      apply Shows.bind (shows_condition asks term)
      intro verdict
      cases verdict with
      | false => exact .pure false
      | true => exact shows_allTerms asks terms

theorem shows_anyTerms (asks : AsksShow engine facts interner kept remaining ask) :
    (terms : List Condition) →
    Shows engine facts interner kept remaining
      (Condition.evaluateAny engine.types (source ask) terms).resolving (ofAny engine.types terms)
  | [] => .pure false
  | term :: terms => by
      rw [Condition.evaluateAny, resolving_bind]
      apply Shows.bind (shows_condition asks term)
      intro verdict
      cases verdict with
      | false => exact shows_anyTerms asks terms
      | true => exact .pure true

end

theorem asksShow_idle (owned : kept interner) (repeatable : engine.Repeatable kept)
    (facts : Facts) :
    AsksShow engine facts interner kept engine.settings.maxLookupDepth
      (within engine engine.settings.maxLookupDepth) :=
  asksShow_within owned repeatable _

end Inquiry

namespace Context

variable {engine : Engine} {interner : Interner} {kept : Interner → Prop} {context : Context}

theorem Settled.of_reading (settled : context.Settled engine interner kept) {α : Type}
    {work other : Reading Context α} {inquiry : Inquiry α}
    (agree : AgreeAt {} work other)
    (showing : Shows engine context.facts interner kept engine.settings.maxLookupDepth
      other.resolving inquiry) :
    (work context).2.Settled engine interner kept := by
  have same := (agree context settled.idle).1
  have after := settled.of_shows showing
  rw [resolving_apply] at after
  rw [same]
  exact after

theorem Settled.plainly (settled : context.Settled engine interner kept) (owned : kept interner)
    (repeatable : engine.Repeatable kept) (condition : Condition) :
    (condition.evaluateFrom engine.types engine.source context).2.Settled engine interner kept := by
  have asks := asksShow_idle owned repeatable context.facts
  apply settled.of_reading
  · exact agreeAt_condition (agreeAt_idle engine) engine.types condition
  · exact shows_condition asks condition

theorem Settled.follow (settled : context.Settled engine interner kept) (owned : kept interner)
    (repeatable : engine.Repeatable kept) (path : String) :
    (engine.source.resolvePath path context).2.Settled engine interner kept := by
  have asks := asksShow_idle owned repeatable context.facts
  apply settled.of_reading
  · exact agreeAt_resolvePath (agreeAt_idle engine) path
  · exact shows_follow asks path

theorem Settled.fire (settled : context.Settled engine interner kept) (owned : kept interner)
    (repeatable : engine.Repeatable kept) {rule : Rule}
    (action : ∀ action, rule.action = some action → (action rule.toRuleHead).Repeatable kept) :
    (engine.fire rule context).2.Settled engine interner kept := by
  have asks := asksShow_idle owned repeatable context.facts
  have same := (agreeAt_fire (agreeAt_idle engine) engine rule context settled.idle).1
  rw [Engine.fire, same]
  exact settled.of_shows (shows_fire asks owned action)

theorem Reachable.settled (reachable : context.Reachable engine kept)
    (repeatable : engine.Repeatable kept) :
    ∃ interner, kept interner ∧ context.Settled engine interner kept := by
  induction reachable with
  | @fresh facts interner interned => exact ⟨interner, interned, .fresh interned facts⟩
  | step _ keeps ih =>
      obtain ⟨interner, owned, settled⟩ := ih
      exact ⟨interner, owned, settled.after owned repeatable keeps⟩
  | plainly _ condition ih =>
      obtain ⟨interner, owned, settled⟩ := ih
      exact ⟨interner, owned, settled.plainly owned repeatable condition⟩
  | follow _ path ih =>
      obtain ⟨interner, owned, settled⟩ := ih
      exact ⟨interner, owned, settled.follow owned repeatable path⟩
  | fire _ action ih =>
      obtain ⟨interner, owned, settled⟩ := ih
      exact ⟨interner, owned, settled.fire owned repeatable action⟩

end Context

/-- A context gives for a condition what plain evaluation gives, be it a verdict or an error. -/
theorem evaluate_eq_plain {engine : Engine} {kept : Interner → Prop} {context : Context}
    (repeatable : engine.Repeatable kept) (reachable : context.Reachable engine kept)
    (condition : SharedCondition) :
    (engine.evaluate condition context).1 =
      (condition.condition.evaluateFrom engine.types engine.source context).1.mapError
        RuleError.ofEval := by
  obtain ⟨interner, owned, settled⟩ := reachable.settled repeatable
  have idle := Context.Settled.agreeAt_idle engine
  have asks := asksShow_idle owned repeatable context.facts
  have remembering : (engine.evaluate condition context).1 =
      (perform (askWithin engine context.facts interner engine.settings.maxLookupDepth)
        (ofCondition engine.types condition.condition) context).1 := by
    rw [Engine.evaluate, (agreeAt_evaluate idle engine.types condition context settled.idle).1]
    exact (shows_evaluate asks condition context context settled.mirrors).1
  have plain : (condition.condition.evaluateFrom engine.types engine.source context).1.mapError
      RuleError.ofEval =
        (perform (askWithin engine context.facts interner engine.settings.maxLookupDepth)
          (ofCondition engine.types condition.condition) context).1 := by
    have shown := (shows_condition asks condition.condition context context settled.mirrors).1
    rw [resolving_apply] at shown
    rw [Engine.source,
      (agreeAt_condition idle engine.types condition.condition context settled.idle).1]
    exact shown
  rw [remembering, plain]

/-- The total can be compared once the tax is known; before that its lookup nests too deeply. -/
theorem evaluate_eq_plain_total :
    let condition : SharedCondition := .leaf 1 (.keyLiteral "total" .equal (.integer 7))
    let plain := condition.condition.evaluateFrom taxEngine.types taxEngine.source
    let fresh := Context.ofFacts []
    let used := Step.after taxEngine (.get "tax") fresh
    (taxEngine.evaluate condition used).1 = (plain used).1.mapError RuleError.ofEval ∧
      (plain used).1 = .ok true ∧
      (taxEngine.evaluate condition fresh).1 = (plain fresh).1.mapError RuleError.ofEval ∧
      (plain fresh).1 = .error (.lookup (.depthExceeded 1 "tax")) := by
  intro condition plain fresh used
  have freshly : fresh.Reachable taxEngine fun _ => True := .fresh _ trivial
  have usedly : used.Reachable taxEngine fun _ => True := .step freshly trivial
  refine ⟨?_, rfl, ?_, rfl⟩
  · exact evaluate_eq_plain (orderless_taxEngine _).repeatable usedly condition
  · exact evaluate_eq_plain (orderless_taxEngine _).repeatable freshly condition

end FactRules
