import FactRules.Proofs.Inquiry.Verdicts

/-!
Answering as calls. A call asks a context for an attribute, for the rules or the answer of an
attribute, for the result of a rule or for the truth of a condition. It makes further calls for
that, one after the other, and its course tells which, and what it does with their outcomes. Nothing
in a course limits how deep calls nest. `answer_eq_result` says that the answers of an engine are
where these courses lead; `Course.Runs` says that a course comes to its end, with every call on the
way, at any depth, and lists the moments at which a call begins or ends.
-/

namespace FactRules

open Resolution Inquiry

inductive Call where
  | get (name : String)
  | lookup (target : String)
  | candidates (target : String)
  | fire (rule : Rule)
  | evaluate (condition : SharedCondition)

namespace Call

abbrev Answer : Call → Type
  | .get _ => Option Value
  | .lookup _ => Option Value
  | .candidates _ => List Rule
  | .fire _ => Value
  | .evaluate _ => Bool

def answer (engine : Engine) : (call : Call) → Resolving call.Answer
  | .get name => engine.get name
  | .lookup target => engine.lookup target
  | .candidates target => engine.candidates target
  | .fire rule => engine.fire rule
  | .evaluate condition => engine.evaluate condition

end Call

/-- The rest of some work: its end, or a call and how the work goes on after it. -/
inductive Course (α : Type) : Type where
  | ends (outcome : Except RuleError α) (context : Context)
  | calls (call : Call) (context : Context)
      (next : Except RuleError call.Answer → Context → Course α)

namespace Course

variable {α β : Type}

protected def bind (course : Course α) (following : α → Context → Course β) : Course β :=
  match course with
  | .ends (.ok value) context => following value context
  | .ends (.error error) context => .ends (.error error) context
  | .calls call context next =>
      .calls call context fun outcome after => (next outcome after).bind following

def result (answer : (call : Call) → Resolving call.Answer) :
    Course α → Except RuleError α × Context
  | .ends outcome context => (outcome, context)
  | .calls call context next =>
      (next (answer call context).1 (answer call context).2).result answer

theorem result_bind (answer : (call : Call) → Resolving call.Answer) (course : Course α)
    (following : α → Context → Course β) : (course.bind following).result answer =
      match course.result answer with
      | (.ok value, after) => (following value after).result answer
      | (.error error, after) => (.error error, after) := by
  induction course with
  | ends outcome context => cases outcome <;> rfl
  | calls call context next ih => exact ih _ _

end Course

/-- Work that is told by its course, from any context on. -/
def Working (α : Type) := Context → Course α

namespace Working

variable {α β : Type}

instance : Monad Working where
  pure value := fun context => .ends (.ok value) context
  bind work next := fun context => (work context).bind next

def result (answer : (call : Call) → Resolving call.Answer) (work : Working α) : Resolving α :=
  fun context => (work context).result answer

theorem result_bind (answer : (call : Call) → Resolving call.Answer) (work : Working α)
    (next : α → Working β) :
    (work >>= next).result answer =
      work.result answer >>= fun value => (next value).result answer := by
  funext context
  rw [bind_apply]
  refine (Course.result_bind answer (work context) next).trans ?_
  simp only [result]
  obtain ⟨_ | value, after⟩ := (work context).result answer <;> rfl

def call (call : Call) : Working call.Answer := fun context =>
  .calls call context .ends

def ofInquiry : Inquiry α → Working α
  | .done outcome => fun context => .ends outcome context
  | .ask name next => do
      let found ← call (.get name)
      ofInquiry (next found)

def ofAll : List SharedCondition → Working Bool
  | [] => pure true
  | term :: terms => do
      if ← call (.evaluate term) then ofAll terms else pure false

def ofAny : List SharedCondition → Working Bool
  | [] => pure false
  | term :: terms => do
      if ← call (.evaluate term) then pure true else ofAny terms

def ofParts (types : TypeTable) : SharedCondition → Working Bool
  | .leaf _ comparison => ofInquiry (ofComparison types comparison)
  | .all _ terms => ofAll terms
  | .any _ terms => ofAny terms
  | .not _ inner => do
      let outcome ← call (.evaluate inner)
      pure !outcome

def ofCondition (types : TypeTable) (condition : SharedCondition) : Working Bool := fun context =>
  match context.verdict? condition with
  | some verdict => .ends (.ok verdict) context
  | none => (ofParts types condition context).bind fun verdict after =>
      .ends (.ok verdict) (after.rememberVerdict condition verdict)

def ofProgram : Program α → Working α
  | .done outcome => fun context => .ends outcome context
  | .get name next => fun context =>
      .calls (.get name) context fun found => ofProgram (next found)
  | .evaluate condition next => fun context =>
      .calls (.evaluate condition) context fun outcome => ofProgram (next outcome)
  | .candidates target next => fun context =>
      .calls (.candidates target) context fun found =>
        ofProgram (next (found.map fun rules => rules.map Rule.toRuleHead))
  | .facts next => fun context => ofProgram (next context.facts) context
  | .clear next => fun context => ofProgram next context.clear
  | .share make next => fun context =>
      ofProgram (next (make context.interner).1)
        { context with interner := (make context.interner).2 }
  | .create make next => fun context =>
      ofProgram (next (make context.interner).1)
        { context with interner := (make context.interner).2 }

def ofRule (rule : Rule) : Working Value :=
  match rule.action with
  | none => pure rule.value
  | some action => fun context =>
      ofProgram (action rule.toRuleHead) (context.note (.fired rule.target))

def ofCandidates (engine : Engine) (target : String) : Working (List Rule) :=
  firstMatching (fun rule => call (.evaluate rule.condition)) (engine.buckets target)

def ofLookup (target : String) : Working (Option Value) := do
  match ← call (.candidates target) with
  | [] => pure none
  | rule :: _ =>
      let value ← call (.fire rule)
      pure (if value.isNull then none else some value)

def ofName (settings : Settings) (name : String) : Working (Option Value) := fun context =>
  match context.recall name with
  | some found => .ends (.ok found) context
  | none =>
      match context.resolving.enter settings name with
      | .error error => .ends (.error error) (context.note (.failed name error))
      | .ok resolving =>
          .calls (.lookup name) (entering context resolving) fun outcome after =>
            .ends outcome (finish name outcome after).2

end Working

def Call.course (engine : Engine) : (call : Call) → Working call.Answer
  | .get name => .ofName engine.settings name
  | .lookup target => .ofLookup target
  | .candidates target => .ofCandidates engine target
  | .fire rule => .ofRule rule
  | .evaluate condition => .ofCondition engine.types condition

section

variable {α : Type} (engine : Engine)

theorem resolving_comparison (types : TypeTable) (ask : Ask) (comparison : Comparison) :
    (comparison.evaluateFrom types (source ask)).resolving =
      perform ask (ofComparison types comparison) := by
  have performed {β γ : Type} (inquiry : Inquiry β) (following : β → Inquiry γ) :
      perform ask (inquiry >>= following) =
        perform ask inquiry >>= fun value => perform ask (following value) := by
    funext context
    rw [perform_bind, bind_apply]
    obtain ⟨_ | value, after⟩ := perform ask inquiry context <;> rfl
  have lifted {β : Type} (outcome : Except EvalError β) :
      (Reading.lift outcome : Reading Context β).resolving = perform ask (lift outcome) := by
    cases outcome <;> rfl
  have asked (name : String) :
      ((source ask).read name).resolving = perform ask (Inquiry.read name) := by
    rw [resolving_read]
    funext context
    rw [bind_apply]
    simp only [Inquiry.read, perform]
    obtain ⟨_ | found, after⟩ := ask name context <;> rfl
  cases comparison with
  | keyLiteral key operator literal =>
      simp only [Comparison.evaluateFrom, ofComparison, resolving_bind, performed, lifted, asked]
  | keyKey left operator right =>
      simp only [Comparison.evaluateFrom, ofComparison, resolving_bind, performed, lifted, asked,
        Source.resolvePath, follow]
  | literalLiteral left operator right =>
      simp only [Comparison.evaluateFrom, ofComparison, resolving_bind, performed, lifted]

theorem result_call (call : Call) :
    (Working.call call).result (Call.answer engine) = call.answer engine := rfl

theorem result_inquiry (inquiry : Inquiry α) :
    (Working.ofInquiry inquiry).result (Call.answer engine) = perform engine.get inquiry := by
  induction inquiry with
  | done outcome => rfl
  | ask name next ih =>
      rw [Working.ofInquiry, Working.result_bind, result_call]
      funext context
      rw [bind_apply]
      simp only [ih, perform, Call.answer]
      obtain ⟨_ | found, after⟩ := engine.get name context <;> rfl

theorem result_ofAll (terms : List SharedCondition) :
    (Working.ofAll terms).result (Call.answer engine) =
      evaluateAll engine.types engine.get terms := by
  induction terms with
  | nil => rfl
  | cons term terms ih =>
      rw [Working.ofAll, Working.result_bind, evaluateAll, ← ih]
      congr
      funext verdict
      cases verdict <;> rfl

theorem result_ofAny (terms : List SharedCondition) :
    (Working.ofAny terms).result (Call.answer engine) =
      evaluateAny engine.types engine.get terms := by
  induction terms with
  | nil => rfl
  | cons term terms ih =>
      rw [Working.ofAny, Working.result_bind, evaluateAny, ← ih]
      congr
      funext verdict
      cases verdict <;> rfl

theorem result_ofCondition (condition : SharedCondition) :
    (Working.ofCondition engine.types condition).result (Call.answer engine) =
      engine.evaluate condition := by
  have parts : Resolution.evaluate engine.types engine.get condition =
      remembering condition
        ((Working.ofParts engine.types condition).result (Call.answer engine)) := by
    cases condition with
    | leaf identity comparison =>
        rw [evaluate, resolving_comparison, Working.ofParts, result_inquiry]
    | all identity terms => rw [evaluate, Working.ofParts, result_ofAll]
    | any identity terms => rw [evaluate, Working.ofParts, result_ofAny]
    | not identity inner =>
        rw [evaluate, Working.ofParts, Working.result_bind]
        rfl
  rw [Engine.evaluate, parts]
  funext context
  simp only [Working.result, Working.ofCondition, remembering]
  cases context.verdict? condition with
  | some verdict => rfl
  | none =>
      simp only [Course.result_bind]
      obtain ⟨_ | verdict, after⟩ :=
        (Working.ofParts engine.types condition context).result (Call.answer engine) <;> rfl

theorem result_ofProgram (program : Program α) :
    (Working.ofProgram program).result (Call.answer engine) = run engine engine.get program := by
  induction program with
  | done outcome => rfl
  | get name next ih =>
      funext context
      exact congrFun (ih _) _
  | evaluate condition next ih =>
      funext context
      exact congrFun (ih _) _
  | candidates target next ih =>
      funext context
      exact congrFun (ih _) _
  | facts next ih =>
      funext context
      exact congrFun (ih _) _
  | clear next ih =>
      funext context
      exact congrFun ih _
  | share make next ih =>
      funext context
      exact congrFun (ih _) _
  | create make next ih =>
      funext context
      exact congrFun (ih _) _

theorem result_ofRule (rule : Rule) :
    (Working.ofRule rule).result (Call.answer engine) = engine.fire rule := by
  simp only [Working.ofRule, Engine.fire, fire]
  cases rule.action with
  | none => rfl
  | some action =>
      funext context
      exact congrFun (result_ofProgram engine _) _

theorem result_matching (rules : List Rule) :
    (matching (fun rule => Working.call (.evaluate rule.condition)) rules).result
        (Call.answer engine) = matching (holds engine engine.get) rules := by
  induction rules with
  | nil => rfl
  | cons rule rules ih =>
      rw [matching, Working.result_bind, matching]
      congr
      funext matched
      rw [Working.result_bind, ih]
      rfl

theorem result_ofCandidates (target : String) :
    (Working.ofCandidates engine target).result (Call.answer engine) =
      engine.candidates target := by
  simp only [Working.ofCandidates, Engine.candidates, candidates]
  induction engine.buckets target with
  | nil => rfl
  | cons bucket buckets ih =>
      rw [firstMatching, Working.result_bind, firstMatching, result_matching]
      congr
      funext found
      cases found with
      | nil => exact ih
      | cons rule rules => rfl

theorem result_ofLookup (target : String) :
    (Working.ofLookup target).result (Call.answer engine) = engine.lookup target := by
  rw [Working.ofLookup, Working.result_bind]
  simp only [Engine.lookup, lookup]
  congr
  funext found
  cases found with
  | nil => rfl
  | cons rule rules =>
      rw [Working.result_bind]
      rfl

theorem result_ofName (name : String) :
    (Working.ofName engine.settings name).result (Call.answer engine) = engine.get name := by
  funext context
  rw [get_eq]
  simp only [Working.result, Working.ofName]
  cases known : context.recall name with
  | some found => exact (answer_of_recall known).symm
  | none =>
      cases entered : context.resolving.enter engine.settings name with
      | error error => exact (answer_of_refused known entered).symm
      | ok resolving =>
          rw [answer_of_entered known entered]
          exact Prod.ext (finish_fst _ _ _).symm rfl

/-- Each call is answered as the answers of the calls on its course say. -/
theorem answer_eq_result (call : Call) (context : Context) :
    call.answer engine context = (call.course engine context).result (Call.answer engine) := by
  cases call with
  | get name => exact (congrFun (result_ofName engine name) context).symm
  | lookup target => exact (congrFun (result_ofLookup engine target) context).symm
  | candidates target => exact (congrFun (result_ofCandidates engine target) context).symm
  | fire rule => exact (congrFun (result_ofRule engine rule) context).symm
  | evaluate condition => exact (congrFun (result_ofCondition engine condition) context).symm

end

/-- A call at any depth begins, or has ended. -/
inductive Moment where
  | began (call : Call) (context : Context)
  | ended (call : Call) (before : Context) (outcome : Except RuleError call.Answer)
      (after : Context)

def Moment.context : Moment → Context
  | .began _ context => context
  | .ended _ _ _ after => after

/-- The course comes to its end in finitely many calls, made at these moments. -/
inductive Course.Runs (engine : Engine) :
    {α : Type} → Course α → List Moment → Except RuleError α → Context → Prop
  | ends {α : Type} (outcome : Except RuleError α) (context : Context) :
      Runs engine (.ends outcome context) [] outcome context
  | calls {α : Type} {call : Call} {context middle after : Context}
      {next : Except RuleError call.Answer → Context → Course α}
      {answer : Except RuleError call.Answer} {outcome : Except RuleError α}
      {first later : List Moment}
      (inner : Runs engine (call.course engine context) first answer middle)
      (rest : Runs engine (next answer middle) later outcome after) :
      Runs engine (.calls call context next)
        (.began call context :: first ++ .ended call context answer middle :: later) outcome after

def Call.Runs (engine : Engine) (call : Call) (context : Context) (moments : List Moment)
    (outcome : Except RuleError call.Answer) (after : Context) : Prop :=
  (Working.call call context).Runs engine moments outcome after

namespace Course.Runs

variable {engine : Engine} {α : Type} {course : Course α} {moments : List Moment}
  {outcome : Except RuleError α} {after : Context}

theorem eq_result (run : course.Runs engine moments outcome after) :
    course.result (Call.answer engine) = (outcome, after) := by
  induction run with
  | ends outcome context => rfl
  | calls inner rest innerLeads restLeads =>
      rw [result, answer_eq_result, innerLeads]
      exact restLeads

theorem moments_unique (run : course.Runs engine moments outcome after) {others : List Moment}
    {other : Except RuleError α} {otherAfter : Context}
    (again : course.Runs engine others other otherAfter) : others = moments := by
  induction run generalizing others otherAfter with
  | ends outcome context =>
      cases again with
      | ends => rfl
  | calls inner rest innerSame restSame =>
      cases again with
      | calls innerAgain restAgain =>
          have same := inner.eq_result.symm.trans innerAgain.eq_result
          simp only [Prod.mk.injEq] at same
          obtain ⟨rfl, rfl⟩ := same
          rw [innerSame innerAgain, restSame restAgain]

end Course.Runs

theorem Call.Runs.eq_answer {engine : Engine} {call : Call} {context after : Context}
    {moments : List Moment} {outcome : Except RuleError call.Answer}
    (run : call.Runs engine context moments outcome after) :
    call.answer engine context = (outcome, after) :=
  Course.Runs.eq_result run

end FactRules
