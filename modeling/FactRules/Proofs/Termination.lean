import FactRules.Proofs.Calls
import FactRules.Proofs.Moves

/-!
Every call returns. While the lookups in progress stay the same, a call only makes calls that come
before it in a well-founded order: conditions get smaller, and whatever else is asked for is of an
earlier kind. Only an attribute that is not known leads to a lookup, inside which one lookup more is
in progress, and the settings limit how many there are. So calls can nest in finitely many ways
only, however rules refer to each other.
-/

namespace FactRules

open Resolution Inquiry

namespace Course

variable {α β : Type} {step : Context → Context → Prop} {allowed : Call → Prop}

/-- Between its calls the course takes such steps, and it makes such calls only, provided that each
of them leaves the lookups in progress as they were. -/
def Obeys (step : Context → Context → Prop) (allowed : Call → Prop) :
    Context → Course α → Prop
  | current, .ends _ context => step current context
  | current, .calls call context next =>
      step current context ∧ allowed call ∧
        ∀ outcome after, after.resolving = context.resolving →
          (next outcome after).Obeys step allowed after

theorem Obeys.mono {step' : Context → Context → Prop} {allowed' : Call → Prop}
    (steps : ∀ before after, step before after → step' before after)
    (calls : ∀ call, allowed call → allowed' call) {current : Context} {course : Course α}
    (obeys : course.Obeys step allowed current) : course.Obeys step' allowed' current := by
  induction course generalizing current with
  | ends outcome context => exact steps _ _ obeys
  | calls call context next ih =>
      obtain ⟨taken, made, later⟩ := obeys
      exact ⟨steps _ _ taken, calls _ made, fun outcome after same =>
        ih outcome after (later outcome after same)⟩

end Course

def Working.Keeps (settings : Settings) (allowed : Call → Prop) {α : Type} (work : Working α) :
    Prop :=
  ∀ context, (work context).Obeys (Context.Passes settings) allowed context

/-- The calls that a call may make while the same lookups are in progress. -/
inductive Call.Uses : Call → Call → Prop
  | read (condition : SharedCondition) (name : String) : Uses (.evaluate condition) (.get name)
  | part {condition term : SharedCondition} (inside : term ∈ condition.children) :
      Uses (.evaluate condition) (.evaluate term)
  | test (target : String) (condition : SharedCondition) :
      Uses (.candidates target) (.evaluate condition)
  | requestGet (rule : Rule) (name : String) : Uses (.fire rule) (.get name)
  | requestEvaluate (rule : Rule) (condition : SharedCondition) :
      Uses (.fire rule) (.evaluate condition)
  | requestCandidates (rule : Rule) (target : String) : Uses (.fire rule) (.candidates target)
  | choose (target : String) : Uses (.lookup target) (.candidates target)
  | fire (target : String) (rule : Rule) : Uses (.lookup target) (.fire rule)

namespace Call

def rank : Call → Nat × Nat
  | .get _ => (0, 0)
  | .evaluate condition => (1, condition.condition.size)
  | .candidates _ => (2, 0)
  | .fire _ => (3, 0)
  | .lookup _ => (4, 0)

theorem size_le_termsSize {terms : List SharedCondition} {term : SharedCondition}
    (inside : term ∈ terms) :
    term.condition.size ≤ Condition.termsSize (SharedCondition.conditions terms) := by
  induction terms with
  | nil => cases inside
  | cons first terms ih =>
      simp only [SharedCondition.conditions, Condition.termsSize]
      rcases List.mem_cons.1 inside with rfl | later
      · exact Nat.le_add_right _ _
      · exact Nat.le_trans (ih later) (Nat.le_add_left _ _)

theorem size_lt_of_mem_children {condition term : SharedCondition}
    (inside : term ∈ condition.children) : term.condition.size < condition.condition.size := by
  cases condition with
  | leaf identity comparison => cases inside
  | all identity terms => exact Nat.lt_succ_of_le (size_le_termsSize inside)
  | any identity terms => exact Nat.lt_succ_of_le (size_le_termsSize inside)
  | not identity inner =>
      obtain rfl := List.mem_singleton.1 inside
      exact Nat.lt_succ_self _

theorem wellFounded_uses : WellFounded fun inner outer : Call => outer.Uses inner := by
  refine Subrelation.wf ?_ (InvImage.wf rank (Prod.lex Nat.lt_wfRel Nat.lt_wfRel).wf)
  intro inner outer uses
  have earlierKind (less : (rank inner).1 < (rank outer).1) :
      Prod.Lex (· < ·) (· < ·) (rank inner) (rank outer) := .left _ _ less
  cases uses with
  | part inside => exact .right _ (size_lt_of_mem_children inside)
  | read | test | requestGet | requestEvaluate | requestCandidates | choose | fire =>
      exact earlierKind (by simp [rank])

end Call

namespace Working.Keeps

variable {settings : Settings} {allowed : Call → Prop} {α β : Type}

open Context (Passes)

theorem before {course : Course α} {earlier current : Context}
    (obeys : course.Obeys (Passes settings) allowed current)
    (first : Passes settings earlier current) : course.Obeys (Passes settings) allowed earlier := by
  cases course with
  | ends outcome context => exact first.trans obeys
  | calls call context next => exact ⟨first.trans obeys.1, obeys.2⟩

theorem bindCourse {course : Course α} {following : α → Context → Course β} {current : Context}
    (obeys : course.Obeys (Passes settings) allowed current)
    (later : ∀ value after, (following value after).Obeys (Passes settings) allowed after) :
    (course.bind following).Obeys (Passes settings) allowed current := by
  induction course generalizing current with
  | ends outcome context =>
      cases outcome with
      | error error => exact obeys
      | ok value => exact before (later value context) obeys
  | calls call context next ih =>
      exact ⟨obeys.1, obeys.2.1, fun outcome after same =>
        ih outcome after (obeys.2.2 outcome after same)⟩

theorem bind {work : Working α} {next : α → Working β} (first : work.Keeps settings allowed)
    (later : ∀ value, (next value).Keeps settings allowed) :
    (work >>= next).Keeps settings allowed :=
  fun context => bindCourse (first context) later

theorem pure (value : α) : (Pure.pure value : Working α).Keeps settings allowed :=
  fun context => .refl context

theorem call {call : Call} (made : allowed call) : (Working.call call).Keeps settings allowed :=
  fun context => ⟨.refl context, made, fun _ after _ => .refl after⟩

theorem inquiry (made : ∀ name, allowed (.get name)) (inquiry : Inquiry α) :
    (Working.ofInquiry inquiry).Keeps settings allowed := by
  induction inquiry with
  | done outcome => exact fun context => .refl context
  | ask name next ih => exact (call (made name)).bind ih

theorem allTerms {terms : List SharedCondition}
    (made : ∀ term ∈ terms, allowed (.evaluate term)) :
    (Working.ofAll terms).Keeps settings allowed := by
  induction terms with
  | nil => exact pure true
  | cons term terms ih =>
      refine (call (made term List.mem_cons_self)).bind fun verdict => ?_
      cases verdict with
      | false => exact pure false
      | true => exact ih fun other member => made other (List.mem_cons_of_mem _ member)

theorem anyTerms {terms : List SharedCondition}
    (made : ∀ term ∈ terms, allowed (.evaluate term)) :
    (Working.ofAny terms).Keeps settings allowed := by
  induction terms with
  | nil => exact pure false
  | cons term terms ih =>
      refine (call (made term List.mem_cons_self)).bind fun verdict => ?_
      cases verdict with
      | false => exact ih fun other member => made other (List.mem_cons_of_mem _ member)
      | true => exact pure true

theorem parts (types : TypeTable) (condition : SharedCondition) :
    (Working.ofParts types condition).Keeps settings (Call.evaluate condition).Uses := by
  cases condition with
  | leaf identity comparison => exact inquiry (.read _) _
  | all identity terms => exact allTerms fun _ member => .part member
  | any identity terms => exact anyTerms fun _ member => .part member
  | not identity inner => exact (call (.part List.mem_cons_self)).bind fun _ => pure _

theorem condition (types : TypeTable) (condition : SharedCondition) :
    (Working.ofCondition types condition).Keeps settings (Call.evaluate condition).Uses := by
  intro context
  simp only [Working.ofCondition]
  cases context.verdict? condition with
  | some verdict => exact .refl context
  | none =>
      refine bindCourse (parts types condition context) fun verdict after => ?_
      exact ⟨.single (.verdict after condition verdict), rfl⟩

theorem program (rule : Rule) (program : Program α) :
    (Working.ofProgram program).Keeps settings (Call.fire rule).Uses := by
  induction program with
  | done outcome => exact fun context => .refl context
  | get name next ih =>
      exact fun context =>
        ⟨.refl context, .requestGet rule name, fun found after _ => ih found after⟩
  | evaluate condition next ih =>
      exact fun context =>
        ⟨.refl context, .requestEvaluate rule condition, fun outcome after _ => ih outcome after⟩
  | candidates target next ih =>
      exact fun context =>
        ⟨.refl context, .requestCandidates rule target, fun found after _ => ih _ after⟩
  | facts next ih => exact fun context => ih context.facts context
  | clear next ih =>
      exact fun context => before (ih context.clear) ⟨.single (.clear context), rfl⟩
  | share make next ih =>
      exact fun context => before (ih _ _) ⟨.single (.share context (make context.interner).2), rfl⟩
  | create make next ih =>
      exact fun context => before (ih _ _) ⟨.single (.share context (make context.interner).2), rfl⟩

theorem rule (rule : Rule) :
    (Working.ofRule rule).Keeps settings (Call.fire rule).Uses := by
  simp only [Working.ofRule]
  cases rule.action with
  | none => exact pure rule.value
  | some action =>
      exact fun context => before (program rule _ _) ⟨.single (.fire context rule.target), rfl⟩

theorem matching (target : String) (rules : List Rule) :
    (Resolution.matching (fun rule => Working.call (.evaluate rule.condition)) rules).Keeps settings
      (Call.candidates target).Uses := by
  induction rules with
  | nil => exact pure []
  | cons rule rules ih =>
      exact (call (.test target rule.condition)).bind fun _ => ih.bind fun _ => pure _

theorem candidates (engine : Engine) (target : String) :
    (Working.ofCandidates engine target).Keeps settings (Call.candidates target).Uses := by
  simp only [Working.ofCandidates]
  induction engine.buckets target with
  | nil => exact pure []
  | cons bucket buckets ih =>
      refine (matching target bucket.rules).bind fun found => ?_
      cases found with
      | nil => exact ih
      | cons rule rules => exact pure _

theorem lookup (target : String) :
    (Working.ofLookup target).Keeps settings (Call.lookup target).Uses := by
  refine (call (.choose target)).bind fun found => ?_
  cases found with
  | nil => exact pure none
  | cons rule rules => exact (call (.fire target rule)).bind fun _ => pure _

end Working.Keeps

section

variable (engine : Engine)

theorem resolving_get (name : String) (context : Context) :
    (engine.get name context).2.resolving = context.resolving := by
  have enough : engine.settings.maxLookupDepth ≤
      context.resolving.depth + engine.settings.maxLookupDepth := by omega
  exact (agreeAt_get engine name enough context rfl).2

theorem asksAgreeAt_get (stack : ResolvingStack) : AsksAgreeAt stack engine.get engine.get :=
  fun name => .refl (resolving_get engine name)

theorem resolving_answer (call : Call) (context : Context) :
    (call.answer engine context).2.resolving = context.resolving := by
  have agree := asksAgreeAt_get engine context.resolving
  cases call with
  | get name => exact resolving_get engine name context
  | lookup target => exact (agreeAt_lookup agree engine target context rfl).2
  | candidates target => exact (agreeAt_candidates agree engine target context rfl).2
  | fire rule => exact (agreeAt_fire agree engine rule context rfl).2
  | evaluate condition => exact (agreeAt_evaluate agree engine.types condition context rfl).2

variable {engine}

def Course.Returns (engine : Engine) {α : Type} (course : Course α) : Prop :=
  ∃ moments, course.Runs engine moments (course.result (Call.answer engine)).1
    (course.result (Call.answer engine)).2

theorem Course.Obeys.returns {allowed : Call → Prop} {α : Type} {course : Course α}
    {current : Context} (obeys : course.Obeys (Context.Passes engine.settings) allowed current)
    (calls : ∀ call, allowed call → ∀ context, context.resolving = current.resolving →
      (call.course engine context).Returns engine) : course.Returns engine := by
  induction course generalizing current with
  | ends outcome context => exact ⟨[], .ends outcome context⟩
  | calls call context next ih =>
      obtain ⟨passes, made, later⟩ := obeys
      obtain ⟨first, inner⟩ := calls call made context passes.sameStack
      rw [← answer_eq_result] at inner
      have kept := resolving_answer engine call context
      obtain ⟨others, rest⟩ := ih _ _ (later (call.answer engine context).1 _ kept)
        fun other otherMade at_ same =>
          calls other otherMade at_ (same.trans (kept.trans passes.sameStack))
      exact ⟨_, .calls inner rest⟩

theorem returns_get {room : Nat} {stack : ResolvingStack}
    (limited : engine.settings.maxLookupDepth ≤ stack.depth + room)
    (deeper : ∀ fewer < room, ∀ inner : ResolvingStack,
      engine.settings.maxLookupDepth ≤ inner.depth + fewer →
      ∀ (call : Call) (context : Context), context.resolving = inner →
        (call.course engine context).Returns engine)
    (name : String) {context : Context} (held : context.resolving = stack) :
    ((Call.get name).course engine context).Returns engine := by
  simp only [Call.course, Working.ofName]
  cases context.recall name with
  | some found => exact ⟨[], .ends _ _⟩
  | none =>
      cases entered : context.resolving.enter engine.settings name with
      | error error => exact ⟨[], .ends _ _⟩
      | ok resolving =>
          have below := ResolvingStack.depth_lt_of_enter entered
          have deep : resolving.depth = stack.depth + 1 := by
            rw [ResolvingStack.enter_eq_ok entered, ← held]
            rfl
          rw [held] at below
          obtain ⟨moments, inner⟩ := deeper (room - 1) (by omega) resolving (by omega)
            (.lookup name) (entering context resolving) rfl
          rw [← answer_eq_result] at inner
          exact ⟨_, .calls inner (.ends _ _)⟩

theorem returns_course (engine : Engine) {room : Nat} {stack : ResolvingStack}
    (limited : engine.settings.maxLookupDepth ≤ stack.depth + room) (call : Call)
    {context : Context} (held : context.resolving = stack) :
    (call.course engine context).Returns engine := by
  -- The outer induction is on the lookups that may still be entered, the inner one on the calls that
  -- are made while the same ones are in progress.
  induction room using Nat.strongRecOn generalizing stack call context with
  | ind room deeper =>
      induction call using Call.wellFounded_uses.induction generalizing context with
      | _ call earlier =>
          have calls (other : Call) (made : call.Uses other) (at_ : Context)
              (same : at_.resolving = context.resolving) :
              (other.course engine at_).Returns engine := earlier other made (same.trans held)
          cases call with
          | get name =>
              have inside (fewer : Nat) (less : fewer < room) (inner : ResolvingStack)
                  (enough : engine.settings.maxLookupDepth ≤ inner.depth + fewer) (call : Call)
                  (context : Context) (held : context.resolving = inner) :
                  (call.course engine context).Returns engine := deeper fewer less enough call held
              exact returns_get limited inside name held
          | lookup target =>
              exact (Working.Keeps.lookup target context).returns calls
          | candidates target =>
              exact (Working.Keeps.candidates engine target context).returns calls
          | fire rule =>
              exact (Working.Keeps.rule rule context).returns calls
          | evaluate condition =>
              exact (Working.Keeps.condition engine.types condition context).returns calls

theorem exists_run (engine : Engine) (call : Call) (context : Context) :
    ∃ moments, call.Runs engine context moments (call.answer engine context).1
      (call.answer engine context).2 := by
  have limited : engine.settings.maxLookupDepth ≤
      context.resolving.depth + engine.settings.maxLookupDepth := by omega
  obtain ⟨moments, inner⟩ := returns_course engine limited call rfl
  rw [← answer_eq_result] at inner
  exact ⟨_, .calls inner (.ends _ _)⟩

/-- Every call comes to its end, with the answer of the engine, and in one way only. -/
theorem call_returns (engine : Engine) (call : Call) (context : Context) :
    ∃ moments outcome after, call.Runs engine context moments outcome after ∧
      call.answer engine context = (outcome, after) ∧
      ∀ others other otherAfter, call.Runs engine context others other otherAfter →
        others = moments ∧ other = outcome ∧ otherAfter = after := by
  obtain ⟨moments, run⟩ := exists_run engine call context
  refine ⟨moments, _, _, run, rfl, fun others other otherAfter again => ?_⟩
  have same : call.answer engine context = (other, otherAfter) := again.eq_answer
  rw [same] at run ⊢
  exact ⟨run.moments_unique again, rfl, rfl⟩

end

end FactRules
