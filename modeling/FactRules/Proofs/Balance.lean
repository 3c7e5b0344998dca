import FactRules.Proofs.Termination
import Mathlib.Data.List.Chain

/-!
The resolving stack during a run. From each moment of a run to the next the context only moves, so
that what moves keep holds at every moment: the stack is never deeper than allowed, and holds no
name twice where cycles are detected. Every call, also one that fails, hands the stack back as it
was.
-/

namespace FactRules

open Resolution Inquiry
open Context (Moves Passes)

theorem isChain_join {relates : Context → Context → Prop} {start middle last : Context}
    {first later : List Context} (left : (start :: (first ++ [middle])).IsChain relates)
    (right : (middle :: (later ++ [last])).IsChain relates) :
    (start :: (first ++ middle :: (later ++ [last]))).IsChain relates := by
  have joined : ((start :: first) ++ [middle] ++ (later ++ [last])).IsChain relates :=
    List.IsChain.append_overlap left right (List.cons_ne_nil _ _)
  simpa using joined

instance (settings : Settings) : IsTrans Context (Moves settings) :=
  inferInstanceAs (IsTrans Context (Relation.ReflTransGen _))

section

variable {engine : Engine}

theorem obeys_ofName (settings : Settings) (name : String) (context : Context) :
    (Working.ofName settings name context).Obeys (Moves settings) (fun _ => True) context := by
  simp only [Working.ofName]
  cases unknown : context.recall name with
  | some found => exact .refl
  | none =>
      cases entered : context.resolving.enter settings name with
      | error error => exact .single (.refuse unknown entered)
      | ok resolving =>
          refine ⟨.single (.enter unknown entered), trivial, fun outcome after same => ?_⟩
          have innermost : after.resolving.names = name :: context.resolving.names := by
            rw [same, ResolvingStack.enter_eq_ok entered]
            rfl
          exact .single (.finish innermost outcome)

theorem obeys_course (engine : Engine) (call : Call) (context : Context) :
    (call.course engine context).Obeys (Moves engine.settings) (fun _ => True) context := by
  have moving {α : Type} {allowed : Call → Prop} {course : Course α} {current : Context}
      (obeys : course.Obeys (Passes engine.settings) allowed current) :
      course.Obeys (Moves engine.settings) (fun _ => True) current :=
    obeys.mono (fun _ _ passes => passes.moves) fun _ _ => trivial
  cases call with
  | get name => exact obeys_ofName engine.settings name context
  | lookup target => exact moving (Working.Keeps.lookup target context)
  | candidates target => exact moving (Working.Keeps.candidates engine target context)
  | fire rule => exact moving (Working.Keeps.rule rule context)
  | evaluate condition => exact moving (Working.Keeps.condition engine.types condition context)

namespace Course.Runs

variable {α : Type} {course : Course α} {moments : List Moment} {outcome : Except RuleError α}
  {current after : Context}

theorem answer_of_ended (run : course.Runs engine moments outcome after) {call : Call}
    {before behind : Context} {answer : Except RuleError call.Answer}
    (ended : Moment.ended call before answer behind ∈ moments) :
    call.answer engine before = (answer, behind) := by
  induction run with
  | ends => cases ended
  | calls inner rest inFirst inLater =>
      rcases List.mem_append.1 ended with inside | outside
      · rcases List.mem_cons.1 inside with began | inside
        · cases began
        · exact inFirst inside
      · rcases List.mem_cons.1 outside with same | outside
        · cases same
          rw [answer_eq_result, inner.eq_result]
        · exact inLater outside

theorem resolving_of_ended (run : course.Runs engine moments outcome after) {call : Call}
    {before behind : Context} {answer : Except RuleError call.Answer}
    (ended : Moment.ended call before answer behind ∈ moments) :
    behind.resolving = before.resolving := by
  have kept := resolving_answer engine call before
  rwa [run.answer_of_ended ended] at kept

theorem isChain (run : course.Runs engine moments outcome after)
    (obeys : course.Obeys (Moves engine.settings) (fun _ => True) current) :
    (current :: (moments.map Moment.context ++ [after])).IsChain (Moves engine.settings) := by
  induction run generalizing current with
  | ends outcome context => exact .cons_cons obeys (.singleton context)
  | @calls _ call context middle after next answer outcome first later inner rest innerChain
      restChain =>
      obtain ⟨reached, _, follows⟩ := obeys
      have kept : middle.resolving = context.resolving := by
        have same := resolving_answer engine call context
        rwa [answer_eq_result, inner.eq_result] at same
      have inside := innerChain (obeys_course engine call context)
      have behind := restChain (follows answer middle kept)
      simpa [Moment.context] using List.IsChain.cons_cons reached (isChain_join inside behind)

end Course.Runs

namespace Call.Runs

variable {call : Call} {context after : Context} {moments : List Moment}
  {outcome : Except RuleError call.Answer}

theorem isChain (run : call.Runs engine context moments outcome after) :
    (context :: (moments.map Moment.context ++ [after])).IsChain (Moves engine.settings) :=
  Course.Runs.isChain run ⟨.refl, trivial, fun _ _ _ => .refl⟩

theorem moves (run : call.Runs engine context moments outcome after) {moment : Moment}
    (member : moment ∈ moments) : Moves engine.settings context moment.context := by
  have inRun : moment.context ∈ moments.map Moment.context ++ [after] :=
    List.mem_append_left _ (List.mem_map_of_mem member)
  exact List.rel_of_pairwise_cons (List.isChain_iff_pairwise.1 run.isChain) inRun

theorem moves_after (run : call.Runs engine context moments outcome after) :
    Moves engine.settings context after := by
  have inRun : after ∈ moments.map Moment.context ++ [after] :=
    List.mem_append_right _ List.mem_cons_self
  exact List.rel_of_pairwise_cons (List.isChain_iff_pairwise.1 run.isChain) inRun

/-- Whatever a call does and however it ends, it hands back the stack that it was given, and so does
every call on the way; and the stack keeps within the settings all the time. -/
theorem stack_balanced (within : context.resolving.Within engine.settings)
    (run : call.Runs engine context moments outcome after) :
    after.resolving = context.resolving ∧
      (∀ inner before answer behind, Moment.ended inner before answer behind ∈ moments →
        behind.resolving = before.resolving) ∧
      ∀ moment ∈ moments,
        moment.context.resolving.depth ≤ engine.settings.maxLookupDepth ∧
          (engine.settings.detectCycles = true → moment.context.resolving.names.Nodup) := by
  refine ⟨?_, fun inner before answer behind ended => ?_, fun moment member => ?_⟩
  · have kept := resolving_answer engine call context
    rwa [run.eq_answer] at kept
  · exact Course.Runs.resolving_of_ended run ended
  · obtain ⟨bounded, distinct⟩ := Context.within_moves within (run.moves member)
    exact ⟨bounded, distinct⟩

end Call.Runs

end

def mutualRules : List Rule :=
  let condition : SharedCondition := .leaf 0 (.literalLiteral (.bool true) .equal (.bool true))
  [{ condition, target := "a", value := .null, priority := 0,
     action := some (Script.action (.rescue (.get "b"))) },
   { condition, target := "b", value := .null, priority := 0,
     action := some (Script.action (.rescue (.get "a"))) }]

def mutualEngine : Engine :=
  (Engine.load {} mutualRules).1

theorem stack_balanced_of_mutual :
    ResolvingStack.Within mutualEngine.settings {} ∧
      ∃ moments outcome after, (Call.get "a").Runs mutualEngine {} moments outcome after ∧
        after.resolving = {} ∧
        ∀ moment ∈ moments, moment.context.resolving.depth ≤ 64 ∧
          moment.context.resolving.names.Nodup := by
  have within : ResolvingStack.Within mutualEngine.settings {} :=
    ⟨Nat.zero_le _, fun _ => List.nodup_nil⟩
  obtain ⟨moments, run⟩ := exists_run mutualEngine (.get "a") {}
  obtain ⟨balanced, _, bounded⟩ := Call.Runs.stack_balanced within run
  refine ⟨within, moments, _, _, run, balanced, fun moment member => ?_⟩
  obtain ⟨shallow, distinct⟩ := bounded moment member
  exact ⟨shallow, distinct rfl⟩

end FactRules
