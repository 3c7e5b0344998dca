import FactRules.Proofs.Dependencies
import FactRules.Proofs.Order
import FactRules.Proofs.Propagation

/-!
How failures come to the surface. A failed lookup is the cause of a failure to read, and is taken
out of it again by what has asked. So however deep calls nest, as long as actions pass on the errors
of their requests, the first call that fails decides: from then on all that happens is that the
calls around it end with its error.
-/

namespace FactRules

open Inquiry Resolution

theorem unwrapped_of_refused {stack : ResolvingStack} {settings : Settings} {name : String}
    {error : RuleError} (refused : stack.enter settings name = .error error) : error.Unwrapped := by
  obtain ⟨_, rfl⟩ | rfl := ResolvingStack.enter_eq_error refused <;> exact nofun

section

variable (engine : Engine) (good : Value → Prop)

def Call.Fits : (call : Call) → call.Answer → Prop
  | .get _, answer => ∀ value : Value, answer = some value → good value
  | .lookup _, answer => ∀ value : Value, answer = some value → good value
  | .candidates target, rules => rules ⊆ engine.rulesFor target
  | .fire _, value => good value
  | .evaluate _, _ => True

/-- A failed call ends the course with its error. Otherwise the course ends with such a result or
with an error that is not wrapped. -/
def Course.Surfaces {α : Type} (ends : α → Prop) : Course α → Prop
  | .ends (.ok value) context => ends value ∧ context.Holds good
  | .ends (.error error) _ => error.Unwrapped
  | .calls call context next => context.Holds good ∧ call.Belongs engine ∧
      (∀ error after, ∃ final, next (.error error) after = .ends (.error error) final) ∧
      ∀ answer after, call.Fits engine good answer → after.Holds good →
        (next (.ok answer) after).Surfaces ends

def Working.Surfaces {α : Type} (work : Working α) (ends : α → Prop) : Prop :=
  ∀ context, context.Holds good → (work context).Surfaces engine good ends

variable {engine good}

theorem Context.Holds.of_forgotten {context : Context} (forgotten : context.answers = [])
    (facts : ∀ name value, context.facts.find? name = some value → good value) :
    context.Holds good := by
  intro name value known
  rw [recall_of_forgotten forgotten] at known
  obtain ⟨found, fact, same⟩ := Option.map_eq_some_iff.1 known
  exact Option.some.inj same ▸ facts name found fact

theorem Context.Holds.finish {context : Context} (held : context.Holds good) (name : String)
    {answer : Option Value} (fits : ∀ value, answer = some value → good value) :
    (Resolution.finish name (.ok answer) context).2.Holds good := by
  intro other value known
  by_cases same : other = name
  · subst other
    cases fact : context.facts.find? name with
    | some found =>
        have recalled := recall_of_fact
          (show (Resolution.finish name (.ok answer) context).2.facts.find? name = _ from fact)
        rw [recalled, ← recall_of_fact fact] at known
        exact held name value known
    | none =>
        have recalled := recall_of_notFact
          (show (Resolution.finish name (.ok answer) context).2.facts.find? name = _ from fact)
        rw [recalled] at known
        exact fits value (Option.some.inj ((Table.find?_insert_self _ _ _).symm.trans known))
  · rw [recall_finish_of_ne same] at known
    exact held other value known

theorem Course.Surfaces.bind {α β : Type} {ends : α → Prop} {ends' : β → Prop} {course : Course α}
    {following : α → Context → Course β} (surfaces : course.Surfaces engine good ends)
    (later : ∀ value after, ends value → after.Holds good →
      (following value after).Surfaces engine good ends') :
    (course.bind following).Surfaces engine good ends' := by
  induction course with
  | ends outcome context =>
      cases outcome with
      | ok value => exact later value context surfaces.1 surfaces.2
      | error error => exact surfaces
  | calls call context next ih =>
      obtain ⟨held, belongs, fails, goesOn⟩ := surfaces
      refine ⟨held, belongs, fun error after => ?_, fun answer after fits stillHeld =>
        ih (.ok answer) after (goesOn answer after fits stillHeld)⟩
      obtain ⟨final, same⟩ := fails error after
      exact ⟨final, congrArg (Course.bind · following) same⟩

namespace Working.Surfaces

variable {α β : Type} {ends : α → Prop}

theorem pure {value : α} (fits : ends value) :
    (Pure.pure value : Working α).Surfaces engine good ends :=
  fun _ held => ⟨fits, held⟩

theorem bind {ends' : β → Prop} {work : Working α} {next : α → Working β}
    (first : work.Surfaces engine good ends)
    (later : ∀ value, ends value → (next value).Surfaces engine good ends') :
    (work >>= next).Surfaces engine good ends' :=
  fun context held => (first context held).bind fun value after fits stillHeld =>
    later value fits after stillHeld

theorem call (call : Call) (belongs : call.Belongs engine) :
    (Working.call call).Surfaces engine good (call.Fits engine good) :=
  fun _ held => ⟨held, belongs, fun _ after => ⟨after, rfl⟩, fun _ _ fits stillHeld =>
    ⟨fits, stillHeld⟩⟩

theorem inquiry {inquiry : Inquiry α}
    (confined : inquiry.Confined (fun _ => True) good EvalError.Flat ends) :
    (Working.ofInquiry inquiry).Surfaces engine good ends := by
  induction inquiry with
  | done outcome =>
      intro context held
      cases outcome with
      | ok value => exact ⟨confined, held⟩
      | error error =>
          obtain ⟨failure, flat, rfl⟩ := confined
          exact RuleError.unwrapped_ofEval flat
  | ask name next ih =>
      exact (call (.get name) trivial).bind fun answer fits => ih answer (confined.2 answer fits)

theorem allTerms (terms : List SharedCondition) :
    (Working.ofAll terms).Surfaces engine good fun _ => True := by
  induction terms with
  | nil => exact pure trivial
  | cons term terms ih =>
      refine (call (.evaluate term) trivial).bind fun verdict _ => ?_
      cases verdict with
      | false => exact pure trivial
      | true => exact ih

theorem anyTerms (terms : List SharedCondition) :
    (Working.ofAny terms).Surfaces engine good fun _ => True := by
  induction terms with
  | nil => exact pure trivial
  | cons term terms ih =>
      refine (call (.evaluate term) trivial).bind fun verdict _ => ?_
      cases verdict with
      | false => exact ih
      | true => exact pure trivial

variable (family : Value.Family good EvalError.Flat)
include family

theorem parts (condition : SharedCondition) :
    (Working.ofParts engine.types condition).Surfaces engine good fun _ => True := by
  cases condition with
  | leaf identity comparison =>
      exact inquiry (Confined.comparison family engine.types comparison fun _ _ => trivial)
  | all identity terms => exact allTerms terms
  | any identity terms => exact anyTerms terms
  | not identity inner => exact (call (.evaluate inner) trivial).bind fun _ _ => pure trivial

theorem condition (condition : SharedCondition) :
    (Working.ofCondition engine.types condition).Surfaces engine good fun _ => True := by
  intro context held
  simp only [Working.ofCondition]
  cases context.verdict? condition with
  | some verdict => exact ⟨trivial, held⟩
  | none => exact (parts family condition context held).bind fun _ _ _ stillHeld =>
      ⟨trivial, stillHeld⟩

omit family

theorem matching (rules : List Rule) :
    (Resolution.matching (fun rule => Working.call (.evaluate rule.condition)) rules).Surfaces
      engine good (· ⊆ rules) := by
  induction rules with
  | nil => exact pure (List.Subset.refl [])
  | cons rule rules ih =>
      refine (call (.evaluate rule.condition) trivial).bind fun matched _ => ?_
      refine ih.bind fun others inside => ?_
      cases matched with
      | false => exact pure (List.subset_cons_of_subset _ inside)
      | true => exact pure (List.cons_subset_cons _ inside)

theorem candidates (target : String) :
    (Working.ofCandidates engine target).Surfaces engine good (· ⊆ engine.rulesFor target) := by
  have among (buckets : List Bucket)
      (inside : buckets.flatMap Bucket.rules ⊆ engine.rulesFor target) :
      (firstMatching (fun rule => Working.call (.evaluate rule.condition)) buckets).Surfaces
        engine good (· ⊆ engine.rulesFor target) := by
    induction buckets with
    | nil => exact pure (List.nil_subset _)
    | cons bucket buckets ih =>
        obtain ⟨first, later⟩ := List.append_subset.1 (List.flatMap_cons ▸ inside)
        refine (matching bucket.rules).bind fun found matched => ?_
        cases found with
        | nil => exact ih later
        | cons rule rules => exact pure (List.Subset.trans matched first)
  exact among (engine.buckets target) (List.Subset.refl _)

theorem lookup (target : String) :
    (Working.ofLookup target).Surfaces engine good
      fun answer => ∀ value : Value, answer = some value → good value := by
  refine (call (.candidates target) trivial).bind fun found inside => ?_
  cases found with
  | nil => exact pure nofun
  | cons rule rules =>
      refine (call (.fire rule) ⟨target, inside List.mem_cons_self⟩).bind fun value held => ?_
      refine pure fun other given => ?_
      split at given
      · cases given
      · exact Option.some.inj given ▸ held

theorem program (values : engine.Holds good) {program : Program α}
    (propagates : program.Propagates good ends) :
    (Working.ofProgram program).Surfaces engine good ends := by
  have passed {β : Type} {next : Except RuleError β → Program α} (passes : Program.PassesErrors next)
      (error : RuleError) (after : Context) : ∃ final,
        Working.ofProgram (next (.error error)) after = .ends (.error error) final :=
    ⟨after, by rw [passes error]; rfl⟩
  induction propagates with
  | succeed fits => exact fun _ held => ⟨fits, held⟩
  | fail unwrapped => exact fun _ _ => unwrapped
  | get name passes _ ih =>
      exact fun _ held => ⟨held, trivial, passed passes, fun answer after fits stillHeld =>
        ih answer fits after stillHeld⟩
  | evaluate condition passes _ ih =>
      exact fun _ held => ⟨held, trivial, passed passes, fun verdict after _ stillHeld =>
        ih verdict after stillHeld⟩
  | candidates target passes _ ih =>
      refine fun _ held => ⟨held, trivial, passed passes, fun rules after inside stillHeld =>
        ih (rules.map Rule.toRuleHead) (fun head member => ?_) after stillHeld⟩
      obtain ⟨rule, candidate, rfl⟩ := List.mem_map.1 member
      exact values target rule (inside candidate)
  | facts _ ih =>
      refine fun context held => ih context.facts (fun name value fact => ?_) context held
      exact held name value (recall_of_fact fact)
  | clear _ ih =>
      intro context held
      exact ih context.clear (.of_forgotten rfl fun name value fact =>
        held name value (recall_of_fact fact))
  | share _ ih => exact fun context held => ih context.interner _ held
  | create _ ih => exact fun context held => ih context.interner _ held

theorem rule (values : engine.Holds good) (propagates : engine.Propagates good) {target : String}
    {rule : Rule} (member : rule ∈ engine.rulesFor target) :
    (Working.ofRule rule).Surfaces engine good good := by
  simp only [Working.ofRule]
  cases chosen : rule.action with
  | none => exact pure (values target rule member)
  | some action =>
      exact fun context held =>
        program values (propagates target rule member action chosen) (context.note _) held

theorem name (name : String) :
    (Working.ofName engine.settings name).Surfaces engine good
      fun answer => ∀ value : Value, answer = some value → good value := by
  intro context held
  simp only [Working.ofName]
  cases known : context.recall name with
  | some found =>
      refine ⟨fun value same => held name value ?_, held⟩
      rw [known, same]
  | none =>
      cases entered : context.resolving.enter engine.settings name with
      | error error => exact unwrapped_of_refused entered
      | ok resolving =>
          exact ⟨held, trivial, fun _ _ => ⟨_, rfl⟩, fun _ after fits stillHeld =>
            ⟨fits, stillHeld.finish name fits⟩⟩

end Working.Surfaces

theorem surfaces_course (family : Value.Family good EvalError.Flat) (values : engine.Holds good)
    (propagates : engine.Propagates good) {call : Call} (belongs : call.Belongs engine) :
    (call.course engine).Surfaces engine good (call.Fits engine good) := by
  cases call with
  | get name => exact .name name
  | lookup target => exact .lookup target
  | candidates target => exact .candidates target
  | fire rule =>
      obtain ⟨target, member⟩ := belongs
      exact .rule values propagates member
  | evaluate condition => exact .condition family condition

end

def Moment.failure? : Moment → Option RuleError
  | .began _ _ => none
  | .ended _ _ (.ok _) _ => none
  | .ended _ _ (.error error) _ => some error

def NoFailure (moments : List Moment) : Prop :=
  ∀ moment ∈ moments, moment.failure? = none

/-- A first call fails with this error. From then on nothing happens but that the calls around it
end with it as well. -/
def Surfaced (error : RuleError) (moments : List Moment) : Prop :=
  ∃ (front : List Moment) (call : Call) (before after : Context) (back : List Moment),
    moments = front ++ .ended call before (.error error) after :: back ∧ NoFailure front ∧
      ∀ moment ∈ back, moment.failure? = some error

theorem Surfaced.behind {error : RuleError} {front later : List Moment} (quiet : NoFailure front)
    (surfaced : Surfaced error later) : Surfaced error (front ++ later) := by
  obtain ⟨before, call, start, stop, back, rfl, stillQuiet, failing⟩ := surfaced
  refine ⟨front ++ before, call, start, stop, back, (List.append_assoc _ _ _).symm, ?_, failing⟩
  exact List.forall_mem_append.2 ⟨quiet, stillQuiet⟩

theorem Surfaced.around {error : RuleError} {moments : List Moment}
    (surfaced : Surfaced error moments) (call : Call) (before after : Context) :
    Surfaced error (moments ++ [.ended call before (.error error) after]) := by
  obtain ⟨front, inner, start, stop, back, rfl, quiet, failing⟩ := surfaced
  refine ⟨front, inner, start, stop, back ++ [.ended call before (.error error) after], ?_, quiet,
    ?_⟩
  · rw [List.append_assoc, List.cons_append]
  · exact List.forall_mem_append.2 ⟨failing, List.forall_mem_singleton.2 rfl⟩

section

variable {engine : Engine} {good : Value → Prop} {α : Type} {ends : α → Prop}

def Emerges (good : Value → Prop) (ends : α → Prop) (moments : List Moment) :
    Except RuleError α → Context → Prop
  | .ok value, after => ends value ∧ after.Holds good ∧ NoFailure moments
  | .error error, _ => error.Unwrapped ∧ (NoFailure moments ∨ Surfaced error moments)

theorem Emerges.behind {front later : List Moment} {outcome : Except RuleError α} {after : Context}
    (quiet : NoFailure front) (emerges : Emerges good ends later outcome after) :
    Emerges good ends (front ++ later) outcome after := by
  cases outcome with
  | ok value =>
      obtain ⟨fits, held, stillQuiet⟩ := emerges
      exact ⟨fits, held, List.forall_mem_append.2 ⟨quiet, stillQuiet⟩⟩
  | error error =>
      obtain ⟨unwrapped, stillQuiet | surfaced⟩ := emerges
      · exact ⟨unwrapped, .inl (List.forall_mem_append.2 ⟨quiet, stillQuiet⟩)⟩
      · exact ⟨unwrapped, .inr (surfaced.behind quiet)⟩

theorem Course.Runs.emerges (family : Value.Family good EvalError.Flat) (values : engine.Holds good)
    (propagates : engine.Propagates good) {course : Course α} {moments : List Moment}
    {outcome : Except RuleError α} {after : Context}
    (run : course.Runs engine moments outcome after)
    (surfaces : course.Surfaces engine good ends) : Emerges good ends moments outcome after := by
  induction run with
  | ends outcome context =>
      cases outcome with
      | ok value => exact ⟨surfaces.1, surfaces.2, nofun⟩
      | error error => exact ⟨surfaces, .inl nofun⟩
  | @calls _ call context middle after next answer outcome first later inner rest innerIh restIh =>
      obtain ⟨held, belongs, fails, goesOn⟩ := surfaces
      have inside := innerIh (surfaces_course family values propagates belongs context held)
      have begins : NoFailure [.began call context] := List.forall_mem_singleton.2 rfl
      cases answer with
      | ok value =>
          obtain ⟨fits, stillHeld, quiet⟩ := inside
          have ended : NoFailure [.ended call context (.ok value) middle] :=
            List.forall_mem_singleton.2 rfl
          exact ((restIh (goesOn value middle fits stillHeld)).behind ended).behind
            (List.forall_mem_append.2 ⟨begins, quiet⟩)
      | error error =>
          have surfaced : Surfaced error
              (.began call context :: first ++ [.ended call context (.error error) middle]) := by
            obtain ⟨_, quiet | surfaced⟩ := inside
            · exact ⟨.began call context :: first, call, context, middle, [], rfl,
                List.forall_mem_append.2 ⟨begins, quiet⟩, nofun⟩
            · exact (surfaced.behind begins).around call context middle
          obtain ⟨final, same⟩ := fails error middle
          rw [same] at rest
          cases rest
          exact ⟨inside.1, .inr surfaced⟩

theorem Call.Runs.ended_mem {call : Call} {context after : Context} {moments : List Moment}
    {outcome : Except RuleError call.Answer} (run : call.Runs engine context moments outcome after) :
    .ended call context outcome after ∈ moments := by
  cases run with
  | calls inner rest =>
      cases rest
      simp

end

/-- Where actions pass on errors, no error is wrapped. A call that fails does so with the error of
the first call that fails inside it, or of itself when there is none, and so do all calls around
that one. -/
theorem errors_surface {engine : Engine} {context : Context}
    (propagates : engine.Propagates (Value.FailsOnly EvalError.Flat))
    (values : engine.Holds (Value.FailsOnly EvalError.Flat))
    (held : context.Holds (Value.FailsOnly EvalError.Flat)) (call : Call)
    (belongs : call.Belongs engine) :
    (∀ cause, (call.answer engine context).1 ≠ .error (.eval (.lookup cause))) ∧
      ∃ moments, call.Runs engine context moments (call.answer engine context).1
          (call.answer engine context).2 ∧
        ∀ error, (call.answer engine context).1 = .error error → Surfaced error moments := by
  have surfaces : Course.Surfaces engine _ _ (Working.call call context) :=
    Working.Surfaces.call call belongs context held
  obtain ⟨moments, run⟩ := exists_run engine call context
  have emerges := run.emerges Value.family_flat values propagates surfaces
  have last := run.ended_mem
  generalize (call.answer engine context).1 = outcome at run emerges last ⊢
  cases outcome with
  | ok value => exact ⟨nofun, moments, run, nofun⟩
  | error error =>
      obtain ⟨unwrapped, quiet | surfaced⟩ := emerges
      · cases quiet _ last
      · refine ⟨fun cause failed => unwrapped cause (Except.error.inj failed), moments, run, ?_⟩
        rintro _ ⟨⟩
        exact surfaced

def billRules : List Rule :=
  [{ condition := .leaf 0 (.literalLiteral (.bool true) .equal (.bool true)), target := "total",
     value := .null, priority := 0, action := some (Script.action (.get "net")) },
   { condition := .leaf 1 (.keyLiteral "rate.high" .equal (.integer 1)), target := "net",
     value := .int 5, priority := 0 }]

def billEngine : Engine :=
  (Engine.load {} billRules).1

def brokenRate : Value :=
  .object 0 "Rate" "rate" fun name => .error (.lookup (.cycle [name, name]))

theorem errors_surface_of_bill :
    let context := Context.ofFacts [("rate", brokenRate)]
    let call := Call.get "total"
    (billEngine.get "total" context).1 = .error (.cycle ["high", "high"]) ∧
      ∃ moments, call.Runs billEngine context moments (call.answer billEngine context).1
          (call.answer billEngine context).2 ∧
        Surfaced (.cycle ["high", "high"]) moments := by
  intro context call
  have values : billEngine.Holds (Value.FailsOnly EvalError.Flat) :=
    Engine.holds_of_load rfl (by simp [billRules, Value.FailsOnly.int, Value.FailsOnly.null])
  have propagates : billEngine.Propagates (Value.FailsOnly EvalError.Flat) := by
    intro target rule member action chosen
    have loaded : rule ∈ billRules := Engine.mem_of_load rfl member
    simp only [billRules, List.mem_cons, List.not_mem_nil, or_false] at loaded
    rcases loaded with rfl | rfl
    · cases chosen
      exact Script.propagates_program _ .null (.get "net") trivial
    · cases chosen
  have held : context.Holds (Value.FailsOnly EvalError.Flat) := by
    refine .of_forgotten rfl fun name value fact => ?_
    have entry : (name, value) ∈ [("rate", brokenRate)] := Table.mem_of_find? fact
    obtain ⟨_, rfl⟩ := Prod.mk.inj (List.mem_singleton.1 entry)
    constructor
    · intro name error failed cause wrapped
      cases failed
      cases wrapped
    · intro name value answered
      cases answered
  obtain ⟨_, moments, run, surfaced⟩ := errors_surface propagates values held call trivial
  exact ⟨rfl, moments, run, surfaced _ rfl⟩

end FactRules
