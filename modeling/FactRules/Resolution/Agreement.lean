import FactRules.Resolution

/-!
Outcomes that do not depend on how deep questions are answered. `AgreeAt` compares two ways of
working in contexts with one resolving stack, and says that both leave the stack as it is. The main
statement is `get_eq`: the bound inside `Engine.get` never shows, so that an attribute is answered
from a lookup which itself asks `Engine.get`.
-/

namespace FactRules.Resolution

/-- In contexts with this stack both have one outcome and leave the stack as it is. -/
def AgreeAt (stack : ResolvingStack) {ε α : Type} (left right : ExceptT ε (StateM Context) α) :
    Prop :=
  ∀ context : Context, context.resolving = stack →
    left context = right context ∧ (left context).2.resolving = stack

namespace AgreeAt

variable {stack : ResolvingStack} {ε α β : Type}

theorem refl {work : ExceptT ε (StateM Context) α}
    (kept : ∀ context : Context, (work context).2.resolving = context.resolving) :
    AgreeAt stack work work := by
  intro context held
  exact ⟨rfl, (kept context).trans held⟩

theorem pure (value : α) :
    AgreeAt stack (Pure.pure value : ExceptT ε (StateM Context) α) (Pure.pure value) :=
  refl fun _ => rfl

theorem throw (error : ε) :
    AgreeAt stack (MonadExcept.throw error : ExceptT ε (StateM Context) α)
      (MonadExcept.throw error) :=
  refl fun _ => rfl

theorem bind {left right : ExceptT ε (StateM Context) α}
    {next other : α → ExceptT ε (StateM Context) β} (first : AgreeAt stack left right)
    (later : ∀ value, AgreeAt stack (next value) (other value)) :
    AgreeAt stack (left >>= next) (right >>= other) := by
  intro context held
  obtain ⟨equal, kept⟩ := first context held
  rw [bind_apply, bind_apply, ← equal]
  generalize left context = outcome at kept
  obtain ⟨result, after⟩ := outcome
  cases result with
  | ok value => exact later value after kept
  | error error => exact ⟨rfl, kept⟩

theorem lift (outcome : Except EvalError α) :
    AgreeAt stack (Reading.lift outcome : Reading Context α) (Reading.lift outcome) :=
  refl fun _ => rfl

theorem resolving {left right : Reading Context α} (agree : AgreeAt stack left right) :
    AgreeAt stack left.resolving right.resolving := by
  intro context held
  obtain ⟨equal, kept⟩ := agree context held
  simp only [Reading.resolving, ← equal]
  generalize left context = outcome at kept
  obtain ⟨_ | _, after⟩ := outcome <;> simp_all

theorem remembering (condition : SharedCondition) {left right : Resolving Bool}
    (agree : AgreeAt stack left right) :
    AgreeAt stack (remembering condition left) (remembering condition right) := by
  intro context held
  simp only [Resolution.remembering]
  cases context.verdict? condition with
  | some verdict => exact ⟨rfl, held⟩
  | none =>
      obtain ⟨equal, kept⟩ := agree context held
      simp only [← equal]
      generalize left context = outcome at kept
      obtain ⟨_ | _, after⟩ := outcome <;> simp_all [Context.rememberVerdict]

theorem answer (settings : Settings) {left right : Ask} (name : String)
    (agree : ∀ entered, stack.enter settings name = .ok entered →
      AgreeAt entered (left name) (right name)) :
    AgreeAt stack (answer settings left name) (answer settings right name) := by
  intro context held
  simp only [Resolution.answer]
  cases context.facts.find? name with
  | some fact => exact ⟨rfl, held⟩
  | none =>
      cases context.answers.find? name with
      | some found => exact ⟨rfl, held⟩
      | none =>
          rw [held]
          cases entering : stack.enter settings name with
          | error error => exact ⟨rfl, held⟩
          | ok entered =>
              obtain ⟨equal, kept⟩ := agree entered entering
                ({ context with resolving := entered }.note (.entered entered.names)) rfl
              have back := ResolvingStack.leave_of_enter entering
              simp only [← equal]
              generalize left name _ = outcome at kept
              obtain ⟨_ | _, after⟩ := outcome <;>
                simp_all [finish, Context.note, Context.rememberAnswer]

end AgreeAt

def AsksAgreeAt (stack : ResolvingStack) (ask other : Ask) : Prop :=
  ∀ name, AgreeAt stack (ask name) (other name)

section

variable {stack : ResolvingStack} {ask other : Ask}

theorem agreeAt_source (agree : AsksAgreeAt stack ask other) (name : String) :
    AgreeAt stack ((source ask).read? name) ((source other).read? name) := by
  intro context held
  obtain ⟨equal, kept⟩ := agree name context held
  simp only [source, ← equal]
  generalize ask name context = outcome at kept
  obtain ⟨_ | _, after⟩ := outcome <;> simp_all

theorem agreeAt_read (agree : AsksAgreeAt stack ask other) (name : String) :
    AgreeAt stack ((source ask).read name) ((source other).read name) := by
  refine .bind (agreeAt_source agree name) fun found => ?_
  cases found with
  | none => exact .throw _
  | some value => exact .pure value

theorem agreeAt_resolvePath (agree : AsksAgreeAt stack ask other) (path : String) :
    AgreeAt stack ((source ask).resolvePath path) ((source other).resolvePath path) :=
  .bind (agreeAt_read agree _) fun _ => .lift _

theorem agreeAt_evaluateFrom (agree : AsksAgreeAt stack ask other) (types : TypeTable)
    (comparison : Comparison) :
    AgreeAt stack (comparison.evaluateFrom types (source ask))
      (comparison.evaluateFrom types (source other)) := by
  cases comparison with
  | keyLiteral key operator literal =>
      exact .bind (.lift _) fun _ => .bind (agreeAt_read agree _) fun _ => .lift _
  | keyKey left operator right =>
      exact .bind (agreeAt_resolvePath agree _) fun _ =>
        .bind (agreeAt_resolvePath agree _) fun _ => .lift _
  | literalLiteral left operator right =>
      exact .bind (.lift _) fun _ => .bind (.lift _) fun _ => .lift _

mutual

theorem agreeAt_evaluate (agree : AsksAgreeAt stack ask other) (types : TypeTable) :
    (condition : SharedCondition) →
    AgreeAt stack (evaluate types ask condition) (evaluate types other condition)
  | .leaf identity comparison => by
      rw [evaluate, evaluate]
      exact .remembering _ (.resolving (agreeAt_evaluateFrom agree types comparison))
  | .all identity terms => by
      rw [evaluate, evaluate]
      exact .remembering _ (agreeAt_evaluateAll agree types terms)
  | .any identity terms => by
      rw [evaluate, evaluate]
      exact .remembering _ (agreeAt_evaluateAny agree types terms)
  | .not identity inner => by
      rw [evaluate, evaluate]
      exact .remembering _ (.bind (agreeAt_evaluate agree types inner) fun _ => .pure _)

theorem agreeAt_evaluateAll (agree : AsksAgreeAt stack ask other) (types : TypeTable) :
    (terms : List SharedCondition) →
    AgreeAt stack (evaluateAll types ask terms) (evaluateAll types other terms)
  | [] => by
      rw [evaluateAll, evaluateAll]
      exact .pure _
  | term :: terms => by
      rw [evaluateAll, evaluateAll]
      refine .bind (agreeAt_evaluate agree types term) fun verdict => ?_
      cases verdict
      · exact .pure _
      · exact agreeAt_evaluateAll agree types terms

theorem agreeAt_evaluateAny (agree : AsksAgreeAt stack ask other) (types : TypeTable) :
    (terms : List SharedCondition) →
    AgreeAt stack (evaluateAny types ask terms) (evaluateAny types other terms)
  | [] => by
      rw [evaluateAny, evaluateAny]
      exact .pure _
  | term :: terms => by
      rw [evaluateAny, evaluateAny]
      refine .bind (agreeAt_evaluate agree types term) fun verdict => ?_
      cases verdict
      · exact agreeAt_evaluateAny agree types terms
      · exact .pure _

end

theorem agreeAt_matching (agree : AsksAgreeAt stack ask other) (engine : Engine)
    (rules : List Rule) :
    AgreeAt stack (matching (holds engine ask) rules) (matching (holds engine other) rules) := by
  induction rules with
  | nil => exact .pure _
  | cons rule rules ih =>
      exact .bind (agreeAt_evaluate agree _ _) fun _ => .bind ih fun _ => .pure _

theorem agreeAt_candidates (agree : AsksAgreeAt stack ask other) (engine : Engine)
    (target : String) :
    AgreeAt stack (candidates engine ask target) (candidates engine other target) := by
  simp only [candidates]
  induction engine.buckets target with
  | nil => exact .pure _
  | cons bucket buckets ih =>
      refine .bind (agreeAt_matching agree engine bucket.rules) fun found => ?_
      cases found with
      | nil => exact ih
      | cons rule rules => exact .pure _

theorem agreeAt_run (agree : AsksAgreeAt stack ask other) (engine : Engine) {α : Type}
    (program : Program α) :
    AgreeAt stack (run engine ask program) (run engine other program) := by
  induction program with
  | done outcome => exact .refl fun _ => rfl
  | get name next ih =>
      intro context held
      obtain ⟨equal, kept⟩ := agree name context held
      simp only [run, ← equal]
      exact ih _ _ kept
  | evaluate condition next ih =>
      intro context held
      obtain ⟨equal, kept⟩ := agreeAt_evaluate agree engine.types condition context held
      simp only [run, ← equal]
      exact ih _ _ kept
  | candidates target next ih =>
      intro context held
      obtain ⟨equal, kept⟩ := agreeAt_candidates agree engine target context held
      simp only [run, ← equal]
      exact ih _ _ kept
  | facts next ih =>
      intro context held
      exact ih context.facts context held
  | clear next ih =>
      intro context held
      exact ih context.clear held
  | share make next ih =>
      intro context held
      exact ih (make context.interner).1 { context with interner := (make context.interner).2 } held
  | create make next ih =>
      intro context held
      exact ih (make context.interner).1 { context with interner := (make context.interner).2 } held

theorem agreeAt_fire (agree : AsksAgreeAt stack ask other) (engine : Engine) (rule : Rule) :
    AgreeAt stack (fire engine ask rule) (fire engine other rule) := by
  simp only [fire]
  cases rule.action with
  | none => exact .pure _
  | some action =>
      intro context held
      exact agreeAt_run agree engine _ (context.note _) held

theorem agreeAt_lookup (agree : AsksAgreeAt stack ask other) (engine : Engine) (target : String) :
    AgreeAt stack (lookup engine ask target) (lookup engine other target) := by
  refine .bind (agreeAt_candidates agree engine target) fun found => ?_
  cases found with
  | nil => exact .pure _
  | cons rule rules => exact .bind (agreeAt_fire agree engine rule) fun _ => .pure _

end

/-- Bounds agree that are both large enough for the lookups that may still be entered. -/
theorem agreeAt_within (engine : Engine) (name : String) {stack : ResolvingStack}
    {remaining more : Nat} (enough : engine.settings.maxLookupDepth ≤ stack.depth + remaining)
    (le : remaining ≤ more) :
    AgreeAt stack (within engine remaining name) (within engine more name) := by
  induction remaining generalizing more stack name with
  | zero =>
      have full (left right : Ask) : AgreeAt stack (answer engine.settings left name)
          (answer engine.settings right name) := by
        refine .answer _ _ fun entered entering => ?_
        have := ResolvingStack.depth_lt_of_enter entering
        omega
      cases more with
      | zero => exact full _ _
      | succ more => exact full _ _
  | succ remaining ih =>
      obtain ⟨less, rfl⟩ : ∃ less, more = less + 1 := ⟨more - 1, by omega⟩
      simp only [within]
      refine .answer _ _ fun entered entering => ?_
      have deeper : entered.depth = stack.depth + 1 := by
        rw [ResolvingStack.enter_eq_ok entering]
        rfl
      exact agreeAt_lookup (fun name => ih name (by omega) (by omega)) engine name

theorem agreeAt_get (engine : Engine) (name : String) {stack : ResolvingStack} {more : Nat}
    (enough : engine.settings.maxLookupDepth ≤ stack.depth + more) :
    AgreeAt stack (engine.get name) (within engine more name) := by
  intro context held
  simp only [Engine.get, held]
  exact agreeAt_within engine name (by omega) (by omega) context held

/-- An attribute is a fact, a remembered answer, or the outcome of a lookup that asks in turn. -/
theorem get_eq (engine : Engine) (name : String) (context : Context) :
    engine.get name context = answer engine.settings (lookup engine engine.get) name context := by
  have unfolded : AgreeAt context.resolving (engine.get name)
      (within engine (engine.settings.maxLookupDepth + 1) name) :=
    agreeAt_get engine name (by omega)
  have folded : AgreeAt context.resolving
      (answer engine.settings (lookup engine engine.get) name)
      (within engine (engine.settings.maxLookupDepth + 1) name) := by
    simp only [within]
    refine .answer _ _ fun entered entering => ?_
    exact agreeAt_lookup (fun name => agreeAt_get engine name (by omega)) engine name
  rw [(unfolded context rfl).1, (folded context rfl).1]

end FactRules.Resolution
