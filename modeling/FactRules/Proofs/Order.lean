import FactRules.Proofs.Plans
import FactRules.Proofs.WriteOnce

/-!
The order of calls. What a call answers is either what its plan gives, or a failure that comes from
what is in progress. An action may turn such a failure into a value, and that value is remembered, so
that later answers depend on which lookup came first. Where no action does so, whatever is remembered
is what the plans give, and answers do not depend on the order.
-/

namespace FactRules

open Inquiry Resolution

def RuleError.isLimit : RuleError → Bool
  | .cycle _ => true
  | .depthExceeded _ _ => true
  | _ => false

def Limited {α : Type} (outcome : Except RuleError α) : Prop :=
  ∃ error, outcome = .error error ∧ error.isLimit = true

theorem limited_of_refused {α : Type} {stack : ResolvingStack} {settings : Settings} {name : String}
    {error : RuleError} (refused : stack.enter settings name = .error error) :
    Limited (.error error : Except RuleError α) := by
  refine ⟨error, rfl, ?_⟩
  rcases ResolvingStack.enter_eq_error refused with ⟨_, rfl⟩ | rfl <;> rfl

def Course.Hindered (engine : Engine) {α : Type} : Course α → Prop
  | .ends _ _ => False
  | .calls call context next =>
      Limited (call.answer engine context).1 ∨
        (next (call.answer engine context).1 (call.answer engine context).2).Hindered engine

namespace Call

def plan (engine : Engine) (facts : Facts) (interner : Interner) :
    (call : Call) → Plan call.Answer
  | .get name => .asks name .ends
  | .lookup target => .ofLookup engine facts interner target
  | .candidates target => .ofInquiry (ofCandidates engine target)
  | .fire rule => .ofRule engine facts interner rule
  | .evaluate condition => .ofInquiry (ofCondition engine.types condition.condition)

def Belongs (engine : Engine) : Call → Prop
  | .fire rule => ∃ target, rule ∈ engine.rulesFor target
  | _ => True

end Call

section

variable (engine : Engine) (facts : Facts) (interner : Interner) (kept : Interner → Prop)

/-- The plan comes to this outcome, unless what is in progress prevents it. -/
def Plan.Allows {α : Type} (plan : Plan α) (outcome : Except RuleError α) : Prop :=
  Limited outcome ∨ plan.Gives engine facts interner outcome

structure Right (context : Context) : Prop where
  sameFacts : context.facts.SameAs facts
  kept : kept context.interner
  answers : ∀ name answer, context.recall name = some answer →
    (Plan.asks name .ends).Gives engine facts interner (.ok answer)
  verdicts : ∀ condition verdict, context.verdict? condition = some verdict →
    (Plan.ofInquiry (ofCondition engine.types condition.condition)).Gives engine facts interner
      (.ok verdict)

def Course.Leads {α : Type} (goal : Except RuleError α → Context → Prop) : Course α → Prop
  | .ends outcome context => goal outcome context
  | .calls call context next =>
      Right engine facts interner kept context ∧ call.Belongs engine ∧
        ∀ outcome after, call.answer engine context = (outcome, after) →
          Right engine facts interner kept after →
          (call.plan engine facts interner).Allows engine facts interner outcome →
          (next outcome after).Leads goal

/-- The course ends as the plan says unless one of its calls fails because of what is in progress,
and leaves the context right. -/
def Course.Follows {α : Type} (course : Course α) (plan : Plan α) : Prop :=
  course.Leads engine facts interner kept fun outcome after =>
    Right engine facts interner kept after ∧
      (course.Hindered engine ∨ plan.Gives engine facts interner outcome)

def Working.Tells {α : Type} (work : Working α) (plan : Plan α) : Prop :=
  ∀ context, Right engine facts interner kept context →
    (work context).Leads engine facts interner kept fun outcome after =>
      Right engine facts interner kept after ∧ plan.Allows engine facts interner outcome

variable {engine facts interner kept}

namespace Right

variable {context : Context}

theorem of_forgotten (sameFacts : context.facts.SameAs facts) (interned : kept context.interner)
    (noAnswer : context.answers = []) (noVerdict : context.verdicts = []) :
    Right engine facts interner kept context where
  sameFacts := sameFacts
  kept := interned
  answers name answer known := by
    rw [recall_of_forgotten noAnswer, Facts.find?_eq_of_sameAs sameFacts,
      Option.map_eq_some_iff] at known
    obtain ⟨value, fact, rfl⟩ := known
    exact .fact fact (.ends _)
  verdicts condition verdict known := by simp [Context.verdict?, noVerdict] at known

theorem note (right : Right engine facts interner kept context) (event : Event) :
    Right engine facts interner kept (context.note event) :=
  { right with }

theorem entering (right : Right engine facts interner kept context) (resolving : ResolvingStack) :
    Right engine facts interner kept (Inquiry.entering context resolving) :=
  { right with }

theorem share (right : Right engine facts interner kept context) {made : Interner}
    (keeps : kept made) : Right engine facts interner kept { context with interner := made } :=
  { right with kept := keeps }

theorem clear (right : Right engine facts interner kept context) :
    Right engine facts interner kept context.clear :=
  of_forgotten right.sameFacts right.kept rfl rfl

theorem rememberVerdict (right : Right engine facts interner kept context)
    {condition : SharedCondition} {verdict : Bool}
    (gives : (Plan.ofInquiry (ofCondition engine.types condition.condition)).Gives engine facts
      interner (.ok verdict)) :
    Right engine facts interner kept (context.rememberVerdict condition verdict) := by
  refine { right with verdicts := fun other different known => ?_ }
  rw [Context.verdict?_rememberVerdict] at known
  by_cases same : other = condition
  · simp only [same, if_true, Option.some.injEq] at known
    rw [same, ← known]
    exact gives
  · simp only [same, if_false] at known
    exact right.verdicts other different known

theorem finish (right : Right engine facts interner kept context) {name : String}
    (missing : facts.find? name = none) {outcome : Except RuleError (Option Value)}
    (allowed : (Plan.ofLookup engine facts interner name).Allows engine facts interner outcome) :
    Right engine facts interner kept (Resolution.finish name outcome context).2 := by
  cases outcome with
  | error error => exact { right with }
  | ok answer =>
      refine { right with answers := fun other different known => ?_ }
      by_cases same : other = name
      · subst other
        have notFact : context.facts.find? name = none :=
          (Facts.find?_eq_of_sameAs right.sameFacts name).trans missing
        have written : (Resolution.finish name (.ok answer) context).2.recall name = some answer := by
          rw [recall_of_notFact (show (Resolution.finish name (.ok answer)
            context).2.facts.find? name = none from notFact)]
          exact Table.find?_insert_self _ _ _
        obtain rfl := Option.some.inj (written.symm.trans known)
        rcases allowed with ⟨error, failed, _⟩ | gives
        · cases failed
        · exact .lookup missing gives (.ends _)
      · rw [recall_finish_of_ne same] at known
        exact right.answers other different known

end Right

namespace Course.Leads

variable {α β : Type} {goal : Except RuleError α → Context → Prop}

theorem mono {goal' : Except RuleError α → Context → Prop} {course : Course α}
    (leads : course.Leads engine facts interner kept goal)
    (weaker : ∀ outcome after, goal outcome after → goal' outcome after) :
    course.Leads engine facts interner kept goal' := by
  induction course with
  | ends outcome context => exact weaker outcome context leads
  | calls call context next ih =>
      obtain ⟨right, belongs, later⟩ := leads
      exact ⟨right, belongs, fun outcome after answered stillRight allowed =>
        ih outcome after (later outcome after answered stillRight allowed)⟩

theorem bind {goal' : Except RuleError β → Context → Prop} {course : Course α}
    {following : α → Context → Course β} (leads : course.Leads engine facts interner kept goal)
    (goesOn : ∀ value after, goal (.ok value) after →
      (following value after).Leads engine facts interner kept goal')
    (fails : ∀ error after, goal (.error error) after → goal' (.error error) after) :
    (course.bind following).Leads engine facts interner kept goal' := by
  induction course with
  | ends outcome context =>
      cases outcome with
      | error error => exact fails error context leads
      | ok value => exact goesOn value context leads
  | calls call context next ih =>
      obtain ⟨right, belongs, later⟩ := leads
      exact ⟨right, belongs, fun outcome after answered stillRight allowed =>
        ih outcome after (later outcome after answered stillRight allowed)⟩

end Course.Leads

namespace Plan.Allows

variable {α β : Type} {plan : Plan α}

theorem gives {value : α} (allowed : plan.Allows engine facts interner (.ok value)) :
    plan.Gives engine facts interner (.ok value) := by
  rcases allowed with ⟨error, failed, _⟩ | gives
  · cases failed
  · exact gives

theorem bind_error {error : RuleError}
    (allowed : plan.Allows engine facts interner (.error error)) (following : α → Plan β) :
    (plan >>= following).Allows engine facts interner (.error error) := by
  rcases allowed with ⟨_, same, limit⟩ | gives
  · cases same
    exact .inl ⟨error, rfl, limit⟩
  · exact .inr (gives.bind_error following)

theorem bind {value : α} (first : plan.Gives engine facts interner (.ok value))
    {following : α → Plan β} {outcome : Except RuleError β}
    (allowed : (following value).Allows engine facts interner outcome) :
    (plan >>= following).Allows engine facts interner outcome :=
  allowed.imp_right first.bind

end Plan.Allows

namespace Working.Tells

variable {α β : Type}

theorem ends (outcome : Except RuleError α) :
    Working.Tells engine facts interner kept (fun context => .ends outcome context)
      (.ends outcome) :=
  fun _ right => ⟨right, .inr (.ends outcome)⟩

theorem pure (value : α) :
    Working.Tells engine facts interner kept (Pure.pure value) (Pure.pure value) :=
  ends (.ok value)

theorem bind {work : Working α} {plan : Plan α} (first : work.Tells engine facts interner kept plan)
    {next : α → Working β} {following : α → Plan β}
    (later : ∀ value, plan.Gives engine facts interner (.ok value) →
      (next value).Tells engine facts interner kept (following value)) :
    (work >>= next).Tells engine facts interner kept (plan >>= following) := by
  intro context right
  refine (first context right).bind (fun value after ⟨stillRight, allowed⟩ => ?_)
    fun error after ⟨stillRight, allowed⟩ => ⟨stillRight, allowed.bind_error following⟩
  exact (later value allowed.gives after stillRight).mono fun outcome final ⟨finalRight, told⟩ =>
    ⟨finalRight, .bind allowed.gives told⟩

theorem call (call : Call) (belongs : call.Belongs engine) :
    (Working.call call).Tells engine facts interner kept (call.plan engine facts interner) :=
  fun _ right => ⟨right, belongs, fun _ _ _ stillRight allowed => ⟨stillRight, allowed⟩⟩

theorem inquiry (inquiry : Inquiry α) :
    (Working.ofInquiry inquiry).Tells engine facts interner kept (.ofInquiry inquiry) := by
  induction inquiry with
  | done outcome => exact ends outcome
  | ask name next ih => exact (call (.get name) trivial).bind fun answer _ => ih answer

theorem allTerms (terms : List SharedCondition) :
    (Working.ofAll terms).Tells engine facts interner kept
      (.ofInquiry (Inquiry.ofAll engine.types (SharedCondition.conditions terms))) := by
  induction terms with
  | nil => exact pure true
  | cons term terms ih =>
      simp only [SharedCondition.conditions, Inquiry.ofAll, Plan.ofInquiry_bind]
      refine (call (.evaluate term) trivial).bind fun verdict _ => ?_
      cases verdict with
      | false => exact pure false
      | true => exact ih

theorem anyTerms (terms : List SharedCondition) :
    (Working.ofAny terms).Tells engine facts interner kept
      (.ofInquiry (Inquiry.ofAny engine.types (SharedCondition.conditions terms))) := by
  induction terms with
  | nil => exact pure false
  | cons term terms ih =>
      simp only [SharedCondition.conditions, Inquiry.ofAny, Plan.ofInquiry_bind]
      refine (call (.evaluate term) trivial).bind fun verdict _ => ?_
      cases verdict with
      | false => exact ih
      | true => exact pure true

theorem parts (condition : SharedCondition) :
    (Working.ofParts engine.types condition).Tells engine facts interner kept
      (.ofInquiry (Inquiry.ofCondition engine.types condition.condition)) := by
  cases condition with
  | leaf identity comparison => exact inquiry _
  | all identity terms => exact allTerms terms
  | any identity terms => exact anyTerms terms
  | not identity inner =>
      simp only [SharedCondition.condition, Inquiry.ofCondition, Plan.ofInquiry_bind]
      exact (call (.evaluate inner) trivial).bind fun verdict _ => pure _

theorem condition (condition : SharedCondition) :
    (Working.ofCondition engine.types condition).Tells engine facts interner kept
      (.ofInquiry (Inquiry.ofCondition engine.types condition.condition)) := by
  intro context right
  simp only [Working.ofCondition]
  cases known : context.verdict? condition with
  | some verdict => exact ⟨right, .inr (right.verdicts condition verdict known)⟩
  | none =>
      refine (parts condition context right).bind (fun verdict after told => ?_)
        fun _ _ failed => failed
      obtain ⟨stillRight, allowed⟩ := told
      exact ⟨stillRight.rememberVerdict allowed.gives, allowed⟩

theorem matching (rules : List Rule) :
    (Resolution.matching (fun rule => Working.call (.evaluate rule.condition)) rules).Tells engine
      facts interner kept (.ofInquiry (Resolution.matching
        (fun rule => Inquiry.ofCondition engine.types rule.condition.condition) rules)) := by
  induction rules with
  | nil => exact pure []
  | cons rule rules ih =>
      simp only [Resolution.matching, Plan.ofInquiry_bind]
      exact (call (.evaluate rule.condition) trivial).bind fun _ _ =>
        ih.bind fun _ _ => pure _

theorem candidates (target : String) :
    (Working.ofCandidates engine target).Tells engine facts interner kept
      (.ofInquiry (Inquiry.ofCandidates engine target)) := by
  simp only [Working.ofCandidates, Inquiry.ofCandidates]
  induction engine.buckets target with
  | nil => exact pure []
  | cons bucket buckets ih =>
      simp only [firstMatching, Plan.ofInquiry_bind]
      refine (matching bucket.rules).bind fun found _ => ?_
      cases found with
      | nil => exact ih
      | cons rule rules => exact pure _

theorem lookup (target : String) :
    (Working.ofLookup target).Tells engine facts interner kept
      (.ofLookup engine facts interner target) := by
  refine (call (.candidates target) trivial).bind fun found chosen => ?_
  cases found with
  | nil => exact pure none
  | cons rule rules =>
      have member := chosen.subset_of_candidates List.mem_cons_self
      exact (call (.fire rule) ⟨target, member⟩).bind fun value _ => pure _

theorem asked (name : String) :
    (Working.ofName engine.settings name).Tells engine facts interner kept (.asks name .ends) := by
  intro context right
  simp only [Working.ofName]
  cases known : context.recall name with
  | some found => exact ⟨right, .inr (right.answers name found known)⟩
  | none =>
      cases entered : context.resolving.enter engine.settings name with
      | error error => exact ⟨right.note _, .inl (limited_of_refused entered)⟩
      | ok resolving =>
          have missing : facts.find? name = none := by
            rw [← Facts.find?_eq_of_sameAs right.sameFacts]
            exact notFact_of_recall_none known
          refine ⟨right.entering resolving, trivial, fun outcome after _ stillRight allowed => ?_⟩
          refine ⟨stillRight.finish missing allowed, ?_⟩
          exact allowed.imp_right fun gives => .lookup missing gives (.ends outcome)

end Working.Tells

theorem follows_request {α : Type} {call : Call} {plan : Plan call.Answer}
    (same : call.plan engine facts interner = plan) (belongs : call.Belongs engine)
    {context : Context} (right : Right engine facts interner kept context)
    {next : Except RuleError call.Answer → Working α}
    {following : Except RuleError call.Answer → Plan α}
    (later : ∀ answer after, Right engine facts interner kept after →
      (next answer after).Follows engine facts interner kept (following answer)) :
    (Course.calls call context next).Follows engine facts interner kept
      (plan.handle following) := by
  refine ⟨right, belongs, fun answer after answered stillRight allowed => ?_⟩
  refine (later answer after stillRight).mono fun outcome final ⟨finalRight, told⟩ => ?_
  refine ⟨finalRight, ?_⟩
  simp only [Course.Hindered, answered]
  rcases allowed with limited | gives
  · exact .inl (.inl limited)
  · exact told.imp .inr (same ▸ gives).handle

/-- A program may do anything with a failure that comes from what is in progress. Its outcome is the
plan's as long as it meets none. -/
theorem follows_program (owned : kept interner) {α : Type} {program again : Program α}
    (corresponds : Program.Corresponds kept program again) {context : Context}
    (right : Right engine facts interner kept context) :
    (Working.ofProgram program context).Follows engine facts interner kept
      (.ofProgram engine facts interner again) := by
  induction corresponds generalizing context with
  | done outcome => exact ⟨right, .inr (.ends outcome)⟩
  | get name _ ih =>
      have read : (Call.get name).plan engine facts interner = .asks name .ends := rfl
      exact follows_request read trivial right fun answer _ stillRight => ih answer stillRight
  | @evaluate condition equal equals next other _ ih =>
      have tested : (Call.evaluate condition).plan engine facts interner =
          .ofInquiry (ofCondition engine.types equal.condition) := by
        rw [Call.plan, equals]
      exact follows_request tested trivial right fun outcome _ stillRight => ih outcome stillRight
  | candidates target _ ih =>
      have chosen : (Call.candidates target).plan engine facts interner =
          .ofInquiry (ofCandidates engine target) := rfl
      exact follows_request chosen trivial right fun found _ stillRight => ih _ stillRight
  | facts _ ih => exact ih context.facts facts right.sameFacts right
  | clear _ ih => exact ih right.clear
  | share keeps _ ih =>
      exact ih context.interner interner right.kept owned (right.share (keeps _ right.kept))
  | create keeps _ ih =>
      exact ih context.interner interner right.kept owned (right.share (keeps _ right.kept))

theorem follows_rule (owned : kept interner) (determined : engine.Determined kept) {target : String}
    {rule : Rule} (member : rule ∈ engine.rulesFor target) {context : Context}
    (right : Right engine facts interner kept context) :
    (Working.ofRule rule context).Follows engine facts interner kept
      (.ofRule engine facts interner rule) := by
  simp only [Working.ofRule, Plan.ofRule]
  cases chosen : rule.action with
  | none => exact ⟨right, .inr (.ends _)⟩
  | some action =>
      exact follows_program owned (determined target rule member action chosen) (right.note _)

/-- Of these moments: an action that meets a failure which comes from what is in progress ends with
such a failure. -/
def Heeded (engine : Engine) (moments : List Moment) : Prop :=
  ∀ target, ∀ rule ∈ engine.rulesFor target, ∀ before, Moment.began (.fire rule) before ∈ moments →
    ((Call.fire rule).course engine before).Hindered engine → Limited (engine.fire rule before).1

theorem Heeded.mono {moments more : List Moment} (heeded : Heeded engine more)
    (subset : moments ⊆ more) : Heeded engine moments :=
  fun target rule member before began => heeded target rule member before (subset began)

theorem Course.Runs.reaches (owned : kept interner) (determined : engine.Determined kept) {α : Type}
    {course : Course α} {moments : List Moment} {outcome : Except RuleError α} {after : Context}
    (run : course.Runs engine moments outcome after) (heeded : Heeded engine moments)
    {goal : Except RuleError α → Context → Prop}
    (leads : course.Leads engine facts interner kept goal) : goal outcome after := by
  induction run with
  | ends outcome context => exact leads
  | @calls _ call context middle after next answer outcome first later inner rest innerIh restIh =>
      obtain ⟨right, belongs, goesOn⟩ := leads
      have answered : call.answer engine context = (answer, middle) := by
        rw [answer_eq_result, inner.eq_result]
      have inside : Heeded engine first := heeded.mono fun moment member =>
        List.mem_append_left _ (List.mem_cons_of_mem _ member)
      have behind : Heeded engine later := heeded.mono fun moment member =>
        List.mem_append_right _ (List.mem_cons_of_mem _ member)
      -- Only an action may go on after a failure, so that only there the hypothesis is needed.
      have sound : Right engine facts interner kept middle ∧
          (call.plan engine facts interner).Allows engine facts interner answer := by
        cases call with
        | get name => exact innerIh inside (Working.Tells.asked name context right)
        | lookup target => exact innerIh inside (Working.Tells.lookup target context right)
        | candidates target => exact innerIh inside (Working.Tells.candidates target context right)
        | evaluate condition => exact innerIh inside (Working.Tells.condition condition context right)
        | fire rule =>
            obtain ⟨target, member⟩ := belongs
            obtain ⟨stillRight, told⟩ := innerIh inside (follows_rule owned determined member right)
            refine ⟨stillRight, told.imp_left fun hindered => ?_⟩
            have limited := heeded target rule member context List.mem_cons_self hindered
            rwa [show engine.fire rule context = (answer, middle) from answered] at limited
      exact restIh behind (goesOn answer middle answered sound.1 sound.2)

theorem Session.allows_gets (owned : kept interner) (determined : engine.Determined kept)
    {first second : String} {context after : Context} {moments : List Moment}
    (session : Session engine [.get first, .get second] context moments after)
    (heeded : Heeded engine moments) (right : Right engine facts interner kept context) :
    (Plan.asks first .ends).Allows engine facts interner (engine.get first context).1 ∧
      (Plan.asks second .ends).Allows engine facts interner
        (engine.get second (engine.get first context).2).1 := by
  cases session with
  | change made => cases made
  | call made run rest =>
      cases made
      cases rest with
      | change made => cases made
      | call made runAgain rest =>
          cases made
          have firstAnswer : engine.get first context = _ := run.eq_answer
          have secondAnswer : engine.get second _ = _ := runAgain.eq_answer
          obtain ⟨middleRight, allowed⟩ := Course.Runs.reaches owned determined run
            (heeded.mono (List.subset_append_left _ _))
            (Working.Tells.call (.get first) trivial context right)
          obtain ⟨_, allowedAgain⟩ := Course.Runs.reaches owned determined runAgain
            (heeded.mono fun moment member =>
              List.mem_append_right _ (List.mem_append_left _ member))
            (Working.Tells.call (.get second) trivial _ middleRight)
          rw [firstAnswer, secondAnswer]
          exact ⟨allowed, allowedAgain⟩

end

/-- Where every failure that comes from what is in progress is passed on, two attributes have the same
values whichever of them is asked for first, in whatever order the facts are listed. -/
theorem get_in_either_order {engine : Engine} {kept : Interner → Prop}
    (determined : engine.Determined kept) {facts others : Facts} (sameFacts : others.SameAs facts)
    {interner other : Interner} (interned : kept interner) (otherInterned : kept other)
    {a b : String} {forward backward : List Moment} {forwardAfter backwardAfter : Context}
    (forwards : Session engine [.get a, .get b] (.fresh facts interner) forward forwardAfter)
    (backwards : Session engine [.get b, .get a] (.fresh others other) backward backwardAfter)
    (heeded : Heeded engine forward) (otherHeeded : Heeded engine backward) :
    let fresh := Context.fresh facts interner
    let otherFresh := Context.fresh others other
    (∀ value same, (engine.get a fresh).1 = .ok value →
      (engine.get a (engine.get b otherFresh).2).1 = .ok same → value = same) ∧
    ∀ value same, (engine.get b (engine.get a fresh).2).1 = .ok value →
      (engine.get b otherFresh).1 = .ok same → value = same := by
  intro fresh otherFresh
  obtain ⟨firstForward, secondForward⟩ := forwards.allows_gets interned determined heeded
    (.of_forgotten (.refl facts.entries) interned rfl rfl)
  obtain ⟨firstBackward, secondBackward⟩ := backwards.allows_gets interned determined otherHeeded
    (.of_forgotten sameFacts otherInterned rfl rfl)
  have agree {name : String} {left right : Except RuleError (Option Value)}
      {value same : Option Value}
      (allowed : (Plan.asks name .ends).Allows engine facts interner left)
      (otherAllowed : (Plan.asks name .ends).Allows engine facts interner right)
      (found : left = .ok value) (otherFound : right = .ok same) : value = same := by
    subst found otherFound
    exact Except.ok.inj (allowed.gives.unique otherAllowed.gives)
  exact ⟨fun value same => agree firstForward secondBackward,
    fun value same => agree secondForward firstBackward⟩

def valueOrUnknown (name : String) : Program Value :=
  .get name fun
    | .ok found => .done (.ok (found.getD .null))
    | .error error => .done (if error.isLimit then .error error else .ok (.string "unknown"))

def carefulRules : List Rule :=
  let condition : SharedCondition := .leaf 0 (.literalLiteral (.bool true) .equal (.bool true))
  [{ condition, target := "a", value := .null, priority := 0,
     action := some fun _ => valueOrUnknown "b" },
   { condition, target := "b", value := .null, priority := 0,
     action := some (Script.action (.fail "closed")) }]

def carefulEngine : Engine :=
  (Engine.load {} carefulRules).1

theorem determined_carefulEngine (kept : Interner → Prop) : carefulEngine.Determined kept := by
  intro target rule member action chosen
  have loaded : rule ∈ carefulRules := Engine.mem_of_load rfl member
  simp only [carefulRules, List.mem_cons, List.not_mem_nil, or_false] at loaded
  rcases loaded with rfl | rfl
  · cases chosen
    refine .get "b" fun answer => ?_
    cases answer <;> exact .done _
  · cases chosen
    exact (Script.orderless_program _ (.fail "closed") trivial).corresponds

theorem heeded_carefulEngine (moments : List Moment) : Heeded carefulEngine moments := by
  intro target rule member before _ hindered
  have loaded : rule ∈ carefulRules := Engine.mem_of_load rfl member
  simp only [carefulRules, List.mem_cons, List.not_mem_nil, or_false] at loaded
  rcases loaded with rfl | rfl
  · simp only [Engine.fire, fire, valueOrUnknown, run]
    simp only [Call.course, Working.ofRule, valueOrUnknown, Working.ofProgram, Course.Hindered,
      Call.answer] at hindered
    generalize carefulEngine.get "b" _ = answered at hindered ⊢
    obtain ⟨answer, after⟩ := answered
    rcases hindered with ⟨error, rfl, limit⟩ | later
    · exact ⟨error, by simp only [run, limit, if_true], limit⟩
    · cases answer <;> exact later.elim
  · exact hindered.elim

theorem get_in_either_order_of_careful :
    let facts : Facts := { entries := [("c", .int 1), ("d", .int 2)] }
    let others : Facts := { entries := [("d", .int 2), ("c", .int 1)] }
    carefulEngine.Determined (fun _ => True) ∧
      (∀ moments, Heeded carefulEngine moments) ∧
      others.SameAs facts ∧
      ∃ value same, (carefulEngine.get "a" (.fresh facts)).1 = .ok value ∧
        (carefulEngine.get "a" (carefulEngine.get "b" (.fresh others)).2).1 = .ok same ∧
        value = same := by
  intro facts others
  have sameFacts : others.SameAs facts := .swap _ _ []
  obtain ⟨forward, forwards⟩ := exists_session carefulEngine [.get "a", .get "b"] (.fresh facts)
  obtain ⟨backward, backwards⟩ := exists_session carefulEngine [.get "b", .get "a"] (.fresh others)
  have determined := determined_carefulEngine fun _ => True
  have agree := get_in_either_order determined sameFacts trivial trivial forwards backwards
    (heeded_carefulEngine forward) (heeded_carefulEngine backward)
  exact ⟨determined, heeded_carefulEngine, sameFacts, _, _, rfl, rfl, agree.1 _ _ rfl rfl⟩

theorem determined_mutualEngine (kept : Interner → Prop) : mutualEngine.Determined kept := by
  intro target rule member action chosen
  have loaded : rule ∈ mutualRules := Engine.mem_of_load rfl member
  simp only [mutualRules, List.mem_cons, List.not_mem_nil, or_false] at loaded
  rcases loaded with rfl | rfl
  · cases chosen
    refine .get "b" fun answer => ?_
    cases answer <;> exact .done _
  · cases chosen
    refine .get "a" fun answer => ?_
    cases answer <;> exact .done _

/-- Which of two attributes stands for the other one's cycle depends on which is asked for first. -/
theorem get_depends_on_order :
    mutualEngine.Determined (fun _ => True) ∧
      ∃ value other, (mutualEngine.get "a" (.ofFacts [])).1 = .ok value ∧
        (mutualEngine.get "a" (mutualEngine.get "b" (.ofFacts [])).2).1 = .ok other ∧
        value ≠ other :=
  ⟨determined_mutualEngine _, some (.string "rescued Cycle: cyclic lookup: a -> b -> a"),
    some (.string "rescued Cycle: cyclic lookup: b -> a -> b"), rfl, rfl, by simp⟩

end FactRules
