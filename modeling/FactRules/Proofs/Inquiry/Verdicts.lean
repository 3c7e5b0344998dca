import FactRules.Proofs.Inquiry.Memory
import FactRules.Proofs.Repeatable
import FactRules.Resolution.Agreement

/-!
Remembered verdicts do not show. Whatever a condition that has a verdict reads is known already, so
evaluating it anew would not enter any lookup. A context therefore answers as one without verdicts
does, which performs the inquiry of each lookup.
-/

namespace FactRules.Inquiry

open Resolution

variable (engine : Engine) (facts : Facts) (interner : Interner) (kept : Interner → Prop)

/-- The contexts differ in their verdicts, which are right, and in what is never read back. -/
structure Mirrors (full bare : Context) : Prop where
  coherent : Coherent engine facts interner bare
  sameFacts : full.facts = facts
  sameAnswers : full.answers = bare.answers
  sameStack : full.resolving = bare.resolving
  kept : kept full.interner
  verdicts : ∀ condition verdict, full.verdict? condition = some verdict →
    (ofCondition engine.types condition.condition).result? bare.recall = some verdict

def Shows (remaining : Nat) {α : Type} (work : Resolving α) (inquiry : Inquiry α) : Prop :=
  ∀ full bare, Mirrors engine facts interner kept full bare →
    (work full).1 = (perform (askWithin engine facts interner remaining) inquiry bare).1 ∧
      Mirrors engine facts interner kept (work full).2
        (perform (askWithin engine facts interner remaining) inquiry bare).2

def AsksShow (remaining : Nat) (ask : Ask) : Prop :=
  ∀ name full bare, Mirrors engine facts interner kept full bare →
    (ask name full).1 = (askWithin engine facts interner remaining name bare).1 ∧
      Mirrors engine facts interner kept (ask name full).2
        (askWithin engine facts interner remaining name bare).2

variable {engine facts interner kept}

namespace Mirrors

variable {full bare : Context}

theorem note (mirrors : Mirrors engine facts interner kept full bare) (event : Event) :
    Mirrors engine facts interner kept (full.note event) bare :=
  { mirrors with }

theorem noteBoth (mirrors : Mirrors engine facts interner kept full bare) (event : Event) :
    Mirrors engine facts interner kept (full.note event) (bare.note event) :=
  { mirrors with coherent := mirrors.coherent.congr (fun _ => rfl) rfl }

theorem enter (mirrors : Mirrors engine facts interner kept full bare)
    (resolving : ResolvingStack) :
    Mirrors engine facts interner kept (entering full resolving) (entering bare resolving) :=
  { mirrors with
    coherent := coherent_entering mirrors.coherent resolving
    sameStack := rfl }

theorem finish (mirrors : Mirrors engine facts interner kept full bare) {name : String}
    {outcome : Except RuleError (Option Value)} (notFact : facts.find? name = none)
    (found : ∀ answer, outcome = .ok answer →
      (ofLookup engine facts interner name).result? bare.recall = some answer) :
    Mirrors engine facts interner kept (Resolution.finish name outcome full).2
      (Resolution.finish name outcome bare).2 := by
  obtain ⟨coherent, within, _⟩ := coherent_finish mirrors.coherent notFact found
  cases outcome with
  | error error =>
      exact { mirrors with
        coherent := coherent
        sameStack := congrArg (fun stack => stack.leave.2) mirrors.sameStack }
  | ok answer =>
      exact {
        coherent := coherent
        sameFacts := mirrors.sameFacts
        sameAnswers := congrArg (Table.insert · name answer) mirrors.sameAnswers
        sameStack := congrArg (fun stack => stack.leave.2) mirrors.sameStack
        kept := mirrors.kept
        verdicts := fun condition verdict known =>
          result?_of_within within (mirrors.verdicts condition verdict known) }

theorem share (mirrors : Mirrors engine facts interner kept full bare) {made : Interner}
    (keeps : kept made) :
    Mirrors engine facts interner kept { full with interner := made } bare :=
  { mirrors with kept := keeps }

theorem sameRecall (mirrors : Mirrors engine facts interner kept full bare) :
    full.recall = bare.recall := by
  funext name
  simp only [Context.recall, mirrors.sameFacts, mirrors.coherent.sameFacts, mirrors.sameAnswers]

theorem itself (mirrors : Mirrors engine facts interner kept full bare) :
    Mirrors engine facts interner kept full full where
  coherent := by
    refine mirrors.coherent.congr (fun name => ?_) mirrors.sameAnswers
    rw [mirrors.sameFacts, mirrors.coherent.sameFacts]
  sameFacts := mirrors.sameFacts
  sameAnswers := rfl
  sameStack := rfl
  kept := mirrors.kept
  verdicts condition verdict known := by
    rw [mirrors.sameRecall]
    exact mirrors.verdicts condition verdict known

theorem rememberVerdict (mirrors : Mirrors engine facts interner kept full bare)
    {condition : SharedCondition} {verdict : Bool}
    (found : (ofCondition engine.types condition.condition).result? bare.recall = some verdict) :
    Mirrors engine facts interner kept (full.rememberVerdict condition verdict) bare := by
  refine { mirrors with verdicts := fun other different known => ?_ }
  rw [Context.verdict?_rememberVerdict] at known
  by_cases same : other = condition
  · simp only [same, if_true, Option.some.injEq] at known
    rw [same, ← known]
    exact found
  · simp only [same, if_false] at known
    exact mirrors.verdicts other different known

end Mirrors

namespace Shows

variable {remaining : Nat} {α β : Type}

theorem done (outcome : Except RuleError α) :
    Shows engine facts interner kept remaining (fun context => (outcome, context)) (.done outcome) :=
  fun _ _ mirrors => ⟨rfl, mirrors⟩

theorem bind_of_result {work : Resolving α} {inquiry : Inquiry α} {next : α → Resolving β}
    {following : α → Inquiry β} (first : Shows engine facts interner kept remaining work inquiry)
    (later : ∀ value known, inquiry.result? known = some value →
      Shows engine facts interner kept remaining (next value) (following value)) :
    Shows engine facts interner kept remaining (work >>= next) (inquiry >>= following) := by
  intro full bare mirrors
  obtain ⟨equal, after⟩ := first full bare mirrors
  have possible := ((remembers_askWithin remaining).perform inquiry mirrors.coherent).2
  rw [perform_bind, bind_apply]
  generalize work full = outcome at equal after
  generalize perform (askWithin engine facts interner remaining) inquiry bare = bareOutcome
    at equal after possible
  obtain ⟨result, fullAfter⟩ := outcome
  obtain ⟨bareResult, bareAfter⟩ := bareOutcome
  simp only at equal after
  subst equal
  cases result with
  | error error => exact ⟨rfl, after⟩
  | ok value => exact later value _ (possible value rfl) fullAfter bareAfter after

theorem bind {work : Resolving α} {inquiry : Inquiry α} {next : α → Resolving β}
    {following : α → Inquiry β} (first : Shows engine facts interner kept remaining work inquiry)
    (later : ∀ value, Shows engine facts interner kept remaining (next value) (following value)) :
    Shows engine facts interner kept remaining (work >>= next) (inquiry >>= following) :=
  first.bind_of_result fun value _ _ => later value

theorem pure (value : α) :
    Shows engine facts interner kept remaining (Pure.pure value : Resolving α) (Pure.pure value) :=
  done (.ok value)

theorem asked {ask : Ask} (asks : AsksShow engine facts interner kept remaining ask)
    (name : String) : Shows engine facts interner kept remaining (ask name)
      (.ask name fun answer => .done (.ok answer)) := by
  intro full bare mirrors
  have same : perform (askWithin engine facts interner remaining)
      (.ask name fun answer => .done (.ok answer)) bare =
        askWithin engine facts interner remaining name bare := by
    simp only [perform]
    obtain ⟨_ | answer, after⟩ := askWithin engine facts interner remaining name bare <;> rfl
  rw [same]
  exact asks name full bare mirrors

theorem lift {outcome : Except EvalError α} {work : Reading Context α}
    (lifted : work = Reading.lift outcome) :
    Shows engine facts interner kept remaining work.resolving (lift outcome) := by
  subst lifted
  intro full bare mirrors
  cases outcome <;> exact ⟨rfl, mirrors⟩

/-- A verdict is remembered only after its condition has been evaluated, and then read back. -/
theorem remembering {condition : SharedCondition} {compute : Resolving Bool}
    (computes : Shows engine facts interner kept remaining compute
      (ofCondition engine.types condition.condition)) :
    Shows engine facts interner kept remaining
      (remembering condition compute) (ofCondition engine.types condition.condition) := by
  intro full bare mirrors
  simp only [Resolution.remembering]
  cases found : full.verdict? condition with
  | some verdict =>
      rw [perform_of_result remaining (mirrors.verdicts condition verdict found)]
      exact ⟨rfl, mirrors⟩
  | none =>
      obtain ⟨equal, after⟩ := computes full bare mirrors
      have result := ((remembers_askWithin remaining).perform
        (ofCondition engine.types condition.condition) mirrors.coherent).2
      rw [← equal] at result ⊢
      generalize compute full = outcome at result after ⊢
      obtain ⟨_ | verdict, fullAfter⟩ := outcome
      · exact ⟨rfl, after⟩
      · exact ⟨rfl, after.rememberVerdict (result verdict rfl)⟩

end Shows

theorem resolving_bind {α β : Type} (work : Reading Context α) (next : α → Reading Context β) :
    Reading.resolving (work >>= next) =
      work.resolving >>= fun value => (next value).resolving := by
  funext context
  rw [bind_apply]
  simp only [Reading.resolving, bind_apply]
  obtain ⟨_ | value, after⟩ := work context <;> rfl

theorem resolving_read (ask : Ask) (name : String) :
    ((source ask).read name).resolving =
      ask name >>= fun found => pure (found.getD .null) := by
  funext context
  rw [bind_apply]
  simp only [Source.read, source, Reading.resolving, bind_apply]
  obtain ⟨_ | found, after⟩ := ask name context <;> rfl

section

variable {remaining : Nat} {ask : Ask}

theorem shows_read (asks : AsksShow engine facts interner kept remaining ask)
    (name : String) :
    Shows engine facts interner kept remaining
      ((source ask).read name).resolving (read name) := by
  rw [resolving_read]
  exact (Shows.asked asks name).bind fun _ => .pure _

theorem shows_follow (asks : AsksShow engine facts interner kept remaining ask)
    (path : String) :
    Shows engine facts interner kept remaining
      ((source ask).resolvePath path).resolving (follow path) := by
  simp only [Source.resolvePath, resolving_bind, follow]
  exact .bind (shows_read asks _) fun _ => .lift rfl

theorem shows_comparison (asks : AsksShow engine facts interner kept remaining ask)
    (comparison : Comparison) :
    Shows engine facts interner kept remaining
      (comparison.evaluateFrom engine.types (source ask)).resolving
      (ofComparison engine.types comparison) := by
  cases comparison with
  | keyLiteral key operator literal =>
      simp only [Comparison.evaluateFrom, resolving_bind, ofComparison]
      exact .bind (.lift rfl) fun _ => .bind (shows_read asks _) fun _ => .lift rfl
  | keyKey left operator right =>
      simp only [Comparison.evaluateFrom, resolving_bind, ofComparison]
      exact .bind (shows_follow asks _) fun _ => .bind (shows_follow asks _) fun _ => .lift rfl
  | literalLiteral left operator right =>
      simp only [Comparison.evaluateFrom, resolving_bind, ofComparison]
      exact .bind (.lift rfl) fun _ => .bind (.lift rfl) fun _ => .lift rfl

mutual

theorem shows_evaluate (asks : AsksShow engine facts interner kept remaining ask) :
    (condition : SharedCondition) →
    Shows engine facts interner kept remaining
      (evaluate engine.types ask condition) (ofCondition engine.types condition.condition)
  | .leaf identity comparison => by
      rw [evaluate]
      exact .remembering (shows_comparison asks comparison)
  | .all identity terms => by
      rw [evaluate]
      exact .remembering (shows_evaluateAll asks terms)
  | .any identity terms => by
      rw [evaluate]
      exact .remembering (shows_evaluateAny asks terms)
  | .not identity inner => by
      rw [evaluate]
      exact .remembering (.bind (shows_evaluate asks inner) fun _ => .pure _)

theorem shows_evaluateAll (asks : AsksShow engine facts interner kept remaining ask) :
    (terms : List SharedCondition) →
    Shows engine facts interner kept remaining
      (evaluateAll engine.types ask terms) (ofAll engine.types (SharedCondition.conditions terms))
  | [] => by
      rw [evaluateAll]
      exact .pure true
  | term :: terms => by
      rw [evaluateAll]
      refine .bind (shows_evaluate asks term) fun verdict => ?_
      cases verdict
      · exact .pure false
      · exact shows_evaluateAll asks terms

theorem shows_evaluateAny (asks : AsksShow engine facts interner kept remaining ask) :
    (terms : List SharedCondition) →
    Shows engine facts interner kept remaining
      (evaluateAny engine.types ask terms) (ofAny engine.types (SharedCondition.conditions terms))
  | [] => by
      rw [evaluateAny]
      exact .pure false
  | term :: terms => by
      rw [evaluateAny]
      refine .bind (shows_evaluate asks term) fun verdict => ?_
      cases verdict
      · exact shows_evaluateAny asks terms
      · exact .pure true

end

theorem shows_matching (asks : AsksShow engine facts interner kept remaining ask)
    (rules : List Rule) :
    Shows engine facts interner kept remaining
      (matching (holds engine ask) rules)
      (matching (fun rule => ofCondition engine.types rule.condition.condition) rules) := by
  induction rules with
  | nil => exact .pure _
  | cons rule rules ih =>
      exact .bind (shows_evaluate asks rule.condition) fun _ => .bind ih fun _ => .pure _

theorem shows_candidates (asks : AsksShow engine facts interner kept remaining ask)
    (target : String) :
    Shows engine facts interner kept remaining
      (candidates engine ask target) (ofCandidates engine target) := by
  simp only [candidates, ofCandidates]
  induction engine.buckets target with
  | nil => exact .pure _
  | cons bucket buckets ih =>
      refine .bind (shows_matching asks bucket.rules) fun found => ?_
      cases found with
      | nil => exact ih
      | cons rule rules => exact .pure _

theorem shows_request {α β : Type} {work : Resolving β} {inquiry : Inquiry β}
    (next : Except RuleError β → Program α) {following : β → Inquiry α}
    (first : Shows engine facts interner kept remaining work inquiry)
    (later : ∀ value, Shows engine facts interner kept remaining (run engine ask (next (.ok value)))
      (following value))
    (passes : Program.PassesErrors next) :
    Shows engine facts interner kept remaining
      (fun context => run engine ask (next (work context).1) (work context).2)
      (inquiry >>= following) := by
  have same : (fun context => run engine ask (next (work context).1) (work context).2) =
      work >>= fun value => run engine ask (next (.ok value)) := by
    funext context
    rw [bind_apply]
    obtain ⟨error | value, after⟩ := work context
    · simp only [passes error, run]
    · rfl
  rw [same]
  exact first.bind later

theorem shows_run (asks : AsksShow engine facts interner kept remaining ask)
    (owned : kept interner) {α : Type} {program again : Program α}
    (alike : Program.Alike kept Eq program again) :
    Shows engine facts interner kept remaining (run engine ask program)
      (ofProgram engine facts interner again) := by
  induction alike with
  | done outcome => exact .done outcome
  | get name _ passes _ ih =>
      exact shows_request _ (.asked asks name) ih passes
  | evaluate equals _ passes _ ih =>
      simp only [ofProgram, ← equals]
      exact shows_request _ (shows_evaluate asks _) ih passes
  | @candidates target next other _ passes _ ih =>
      exact shows_request (fun rules => next (rules.map fun found => found.map Rule.toRuleHead))
        (shows_candidates asks target) (fun rules => ih (rules.map Rule.toRuleHead))
        fun error => passes error
  | facts _ ih =>
      intro full bare mirrors
      simp only [run, mirrors.sameFacts]
      exact ih facts facts rfl full bare mirrors
  | share keeps _ _ ih =>
      intro full bare mirrors
      exact ih full.interner interner mirrors.kept owned _ bare
        (mirrors.share (keeps _ mirrors.kept))
  | create keeps _ _ ih =>
      intro full bare mirrors
      exact ih full.interner interner mirrors.kept owned _ bare
        (mirrors.share (keeps _ mirrors.kept))

theorem shows_fire (asks : AsksShow engine facts interner kept remaining ask)
    (owned : kept interner) {rule : Rule}
    (repeatable : ∀ action, rule.action = some action →
      (action rule.toRuleHead).Repeatable kept) :
    Shows engine facts interner kept remaining (fire engine ask rule)
      (ofFiring engine facts interner rule) := by
  simp only [fire, ofFiring]
  cases chosen : rule.action with
  | none => exact .pure rule.value
  | some action =>
      intro full bare mirrors
      exact shows_run asks owned (repeatable action chosen) _ bare (mirrors.note _)

theorem shows_lookup (asks : AsksShow engine facts interner kept remaining ask)
    (owned : kept interner) (repeatable : engine.Repeatable kept) (target : String) :
    Shows engine facts interner kept remaining (lookup engine ask target)
      (ofLookup engine facts interner target) := by
  refine (shows_candidates asks target).bind_of_result fun found known result => ?_
  cases found with
  | nil => exact .pure none
  | cons rule rules =>
      have member := mem_of_candidates result List.mem_cons_self
      exact (shows_fire asks owned (repeatable target rule member)).bind fun _ => .pure _

end

theorem asksShow_answer {remaining : Nat} {lookup bareLookup : Ask}
    (bare_eq : askWithin engine facts interner remaining = answer engine.settings bareLookup)
    (lookups : ∀ name full bare, Mirrors engine facts interner kept full bare →
      (lookup name full).1 = (bareLookup name bare).1 ∧
        Mirrors engine facts interner kept (lookup name full).2 (bareLookup name bare).2 ∧
        ∀ answer, (bareLookup name bare).1 = .ok answer →
          (ofLookup engine facts interner name).result? (bareLookup name bare).2.recall =
            some answer) :
    AsksShow engine facts interner kept remaining (answer engine.settings lookup) := by
  intro name full bare mirrors
  rw [bare_eq]
  cases known : bare.recall name with
  | some found =>
      rw [answer_of_recall known, answer_of_recall (mirrors.sameRecall ▸ known)]
      exact ⟨rfl, mirrors⟩
  | none =>
      have fullUnknown : full.recall name = none := mirrors.sameRecall ▸ known
      cases entered : bare.resolving.enter engine.settings name with
      | error error =>
          rw [answer_of_refused known entered,
            answer_of_refused fullUnknown (mirrors.sameStack ▸ entered)]
          exact ⟨rfl, mirrors.noteBoth _⟩
      | ok resolving =>
          rw [answer_of_entered known entered,
            answer_of_entered fullUnknown (mirrors.sameStack ▸ entered)]
          obtain ⟨equal, after, found⟩ := lookups name _ _ (mirrors.enter resolving)
          rw [equal]
          exact ⟨by simp only [finish_fst],
            after.finish (notFact_of_unknown mirrors.coherent known) found⟩

/-- Lookups that remember verdicts go as those that do not. -/
theorem asksShow_within (owned : kept interner) (repeatable : engine.Repeatable kept)
    (remaining : Nat) :
    AsksShow engine facts interner kept remaining (within engine remaining) := by
  induction remaining with
  | zero => exact asksShow_answer rfl fun name full bare mirrors => ⟨rfl, mirrors, by
      intro answer succeeded
      cases succeeded⟩
  | succ remaining ih =>
      refine asksShow_answer rfl fun name full bare mirrors => ?_
      obtain ⟨equal, after⟩ := shows_lookup ih owned repeatable name full bare mirrors
      exact ⟨equal, after, ((remembers_askWithin remaining).perform _ mirrors.coherent).2⟩

end FactRules.Inquiry
