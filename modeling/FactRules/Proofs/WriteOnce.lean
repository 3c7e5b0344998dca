import FactRules.Proofs.Balance
import FactRules.Proofs.History

/-!
Sessions: a context is used from outside, step by step. Where cycles are detected, each attribute is
answered by one lookup at most between two times that the context forgets, and its answer stays as
it is; what is a fact is not answered at all, and what fails is not remembered.
-/

namespace FactRules

open Resolution Inquiry
open Context (Moves)

def Step.call? : Step → Option Call
  | .get name => some (.get name)
  | .evaluate condition => some (.evaluate condition)
  | .candidates target => some (.candidates target)
  | .lookup target => some (.lookup target)
  | .set _ _ _ => none
  | .clear => none
  | .share _ => none

theorem Step.after_of_call {engine : Engine} {step : Step} {call : Call}
    (made : step.call? = some call) (context : Context) :
    step.after engine context = (call.answer engine context).2 := by
  cases step <;> cases made <;> rfl

namespace Moment

/-- The context once this moment is over. What a request has looked up is noted before anything else
happens. -/
def settled : Moment → Context
  | .ended (.lookup name) before outcome after =>
      if before.resolving.current? = some name then (finish name outcome after).2 else after
  | moment => moment.context

def contexts : Moment → List Context
  | .began _ context => [context]
  | moment => [moment.context, moment.settled]

/-- A lookup that a request for the attribute has begun ends, and it has found an answer. -/
def Answers (name : String) (moment : Moment) : Prop :=
  ∃ before answer after, moment = .ended (.lookup name) before (.ok answer) after ∧
    before.resolving.current? = some name

end Moment

def Course.Settles (settings : Settings) {α : Type} : Context → Course α → Prop
  | current, .ends _ context => Moves settings current context
  | current, .calls call context next => Moves settings current context ∧
      ∀ outcome after, after.resolving = context.resolving →
        (next outcome after).Settles settings (Moment.ended call context outcome after).settled

inductive Session (engine : Engine) : List Step → Context → List Moment → Context → Prop
  | idle (context : Context) : Session engine [] context [] context
  | call {step : Step} {steps : List Step} {call : Call} {context middle after : Context}
      {first later : List Moment} {outcome : Except RuleError call.Answer}
      (made : step.call? = some call) (run : call.Runs engine context first outcome middle)
      (rest : Session engine steps middle later after) :
      Session engine (step :: steps) context (first ++ later) after
  | change {step : Step} {steps : List Step} {context after : Context} {later : List Moment}
      (made : step.call? = none)
      (rest : Session engine steps (step.after engine context) later after) :
      Session engine (step :: steps) context later after

theorem exists_session (engine : Engine) (steps : List Step) (context : Context) :
    ∃ moments, Session engine steps context moments (engine.history steps context) := by
  induction steps generalizing context with
  | nil => exact ⟨[], .idle context⟩
  | cons step steps ih =>
      obtain ⟨later, rest⟩ := ih (step.after engine context)
      cases made : step.call? with
      | none => exact ⟨later, .change made rest⟩
      | some call =>
          obtain ⟨first, run⟩ := exists_run engine call context
          rw [← Step.after_of_call made] at run
          exact ⟨first ++ later, .call made run rest⟩

section

variable {engine : Engine}

theorem move_of_change {step : Step} {context : Context} (made : step.call? = none)
    (idle : context.resolving = {}) :
    Context.Move engine.settings context (step.after engine context) ∧
      (step.after engine context).resolving = {} := by
  cases step with
  | get | evaluate | candidates | lookup => cases made
  | set name value arrangement => exact ⟨.set idle name value arrangement, idle⟩
  | clear => exact ⟨.clear context, idle⟩
  | share interner => exact ⟨.share context interner, idle⟩

theorem moves_settled {call : Call} {before after : Context}
    {outcome : Except RuleError call.Answer} (same : after.resolving = before.resolving) :
    Moves engine.settings after (Moment.ended call before outcome after).settled := by
  cases call with
  | lookup name =>
      simp only [Moment.settled]
      split
      · next started =>
          obtain ⟨names, innermost⟩ := List.head?_eq_some_iff.1 started
          exact .single (.finish (same ▸ innermost) outcome)
      · exact .refl
  | get | candidates | fire | evaluate => exact .refl

theorem settles_of_obeys {α : Type} {outer : Call} {course : Course α} {current : Context}
    (obeys : course.Obeys (Context.Passes engine.settings) outer.Uses current) :
    course.Settles engine.settings current := by
  induction course generalizing current with
  | ends outcome context => exact obeys.moves
  | calls call context next ih =>
      obtain ⟨passes, made, later⟩ := obeys
      refine ⟨passes.moves, fun outcome after same => ?_⟩
      cases call with
      | lookup name => cases made
      | get | candidates | fire | evaluate => exact ih outcome after (later outcome after same)

theorem settles_course (engine : Engine) (call : Call) (context : Context) :
    (call.course engine context).Settles engine.settings context := by
  cases call with
  | get name =>
      simp only [Call.course, Working.ofName]
      cases unknown : context.recall name with
      | some found => exact .refl
      | none =>
          cases entered : context.resolving.enter engine.settings name with
          | error error => exact .single (.refuse unknown entered)
          | ok resolving =>
              refine ⟨.single (.enter unknown entered), fun outcome after same => ?_⟩
              have started : resolving.current? = some name := by
                rw [ResolvingStack.enter_eq_ok entered]
                rfl
              have settled : (Moment.ended (.lookup name) (entering context resolving) outcome
                  after).settled = (finish name outcome after).2 := if_pos started
              rw [settled]
              exact .refl
  | lookup target => exact settles_of_obeys (Working.Keeps.lookup target context)
  | candidates target => exact settles_of_obeys (Working.Keeps.candidates engine target context)
  | fire rule => exact settles_of_obeys (Working.Keeps.rule rule context)
  | evaluate condition => exact settles_of_obeys (Working.Keeps.condition engine.types condition context)

theorem settles_call {call : Call} {context : Context} (idle : context.resolving = {}) :
    (Working.call call context).Settles engine.settings context := by
  refine ⟨.refl, fun outcome after _ => ?_⟩
  cases call with
  | lookup name =>
      have notStarted : context.resolving.current? ≠ some name := by
        rw [idle]
        nofun
      have settled : (Moment.ended (.lookup name) context outcome after).settled = after :=
        if_neg notStarted
      rw [settled]
      exact .refl
  | get | candidates | fire | evaluate => exact .refl

namespace Course.Runs

variable {α : Type} {course : Course α} {moments : List Moment} {outcome : Except RuleError α}
  {after : Context}

theorem isChain_settled (run : course.Runs engine moments outcome after) {current : Context}
    (settles : course.Settles engine.settings current) :
    (current :: (moments.flatMap Moment.contexts ++ [after])).IsChain (Moves engine.settings) := by
  induction run generalizing current with
  | ends outcome context => exact .cons_cons settles (.singleton context)
  | @calls _ call context middle after next answer outcome first later inner rest innerChain
      restChain =>
      obtain ⟨reached, follows⟩ := settles
      have kept : middle.resolving = context.resolving := by
        have same := resolving_answer engine call context
        rwa [answer_eq_result, inner.eq_result] at same
      have inside := innerChain (settles_course engine call context)
      have behind : (middle :: ((Moment.ended call context answer middle).settled ::
          later.flatMap Moment.contexts ++ [after])).IsChain (Moves engine.settings) :=
        .cons_cons (moves_settled kept) (restChain (follows answer middle kept))
      simpa [Moment.contexts, Moment.context] using
        List.IsChain.cons_cons reached (isChain_join inside behind)

theorem began_of_ended (run : course.Runs engine moments outcome after) {call : Call}
    {before behind : Context} {answer : Except RuleError call.Answer}
    (ended : Moment.ended call before answer behind ∈ moments) :
    Moment.began call before ∈ moments := by
  induction run with
  | ends => cases ended
  | calls inner rest inFirst inLater =>
      rcases List.mem_append.1 ended with inside | outside
      · rcases List.mem_cons.1 inside with began | inside
        · cases began
        · exact List.mem_append_left _ (List.mem_cons_of_mem _ (inFirst inside))
      · rcases List.mem_cons.1 outside with same | outside
        · cases same
          exact List.mem_append_left _ List.mem_cons_self
        · exact List.mem_append_right _ (List.mem_cons_of_mem _ (inLater outside))

end Course.Runs

namespace Session

variable {steps : List Step} {context after : Context} {moments : List Moment}

theorem pairwise (session : Session engine steps context moments after)
    (idle : context.resolving = {}) :
    (context :: (moments.flatMap Moment.contexts ++ [after])).Pairwise (Moves engine.settings) := by
  induction session with
  | idle context => exact List.pairwise_pair.2 .refl
  | @call step steps call context middle after first later outcome made run rest ih =>
      have middleIdle : middle.resolving = {} := by
        have kept := resolving_answer engine call context
        rw [run.eq_answer] at kept
        exact kept.trans idle
      have chain := Course.Runs.isChain_settled run (settles_call idle)
      have joined := List.isChain_iff_pairwise.1
        (isChain_join chain (List.isChain_iff_pairwise.2 (ih middleIdle)))
      refine joined.sublist (.cons_cons context ?_)
      rw [List.flatMap_append, List.append_assoc]
      exact (List.sublist_cons_self middle _).append_left _
  | change made rest ih =>
      obtain ⟨move, stillIdle⟩ := move_of_change made idle
      have later := ih stillIdle
      refine List.pairwise_cons.2 ⟨fun reached member => ?_, (List.pairwise_cons.1 later).2⟩
      exact Relation.ReflTransGen.head move (List.rel_of_pairwise_cons later member)

theorem answer_of_ended (session : Session engine steps context moments after) {call : Call}
    {before behind : Context} {answer : Except RuleError call.Answer}
    (ended : Moment.ended call before answer behind ∈ moments) :
    call.answer engine before = (answer, behind) ∧ Moment.began call before ∈ moments := by
  induction session with
  | idle => cases ended
  | call made run rest ih =>
      rcases List.mem_append.1 ended with inFirst | inLater
      · exact ⟨Course.Runs.answer_of_ended run inFirst,
          List.mem_append_left _ (Course.Runs.began_of_ended run inFirst)⟩
      · exact ⟨(ih inLater).1, List.mem_append_right _ (ih inLater).2⟩
  | change made rest ih => exact ih ended

end Session

theorem unknown_of_failed {name : String} {context : Context} {error : RuleError}
    (orderly : context.Orderly) (detects : engine.settings.detectCycles = true)
    (failed : (engine.get name context).1 = .error error) :
    (engine.get name context).2.answers.find? name = none := by
  rw [get_eq] at failed ⊢
  cases known : context.recall name with
  | some found =>
      rw [answer_of_recall known] at failed
      cases failed
  | none =>
      cases entered : context.resolving.enter engine.settings name with
      | error refusal =>
          rw [answer_of_refused known entered]
          rwa [recall_of_notFact (notFact_of_recall_none known)] at known
      | ok resolving =>
          rw [answer_of_entered known entered, finish_fst] at failed
          rw [answer_of_entered known entered, failed]
          obtain ⟨moments, run⟩ := exists_run engine (.lookup name) (entering context resolving)
          have still := (Context.since_moves (orderly.enter known entered detects) detects
            run.moves_after).1
          have kept : (engine.lookup name (entering context resolving)).2.resolving = resolving :=
            resolving_answer engine (.lookup name) (entering context resolving)
          have inProgress : name ∈ resolving.names := by
            rw [ResolvingStack.enter_eq_ok entered]
            exact List.mem_cons_self
          have unknown := still.unknown name (kept.symm ▸ inProgress)
          rwa [recall_of_notFact (notFact_of_recall_none unknown)] at unknown

theorem Moment.context_mem_contexts (moment : Moment) : moment.context ∈ moment.contexts := by
  cases moment <;> exact List.mem_cons_self

theorem Moment.settled_mem_contexts (moment : Moment) : moment.settled ∈ moment.contexts := by
  cases moment with
  | began => exact List.mem_cons_self
  | ended => exact List.mem_cons_of_mem _ List.mem_cons_self

theorem exists_answers {name : String} {context after : Context} {answer : Option Value}
    {moments : List Moment} (unknown : context.recall name = none)
    (run : (Call.get name).Runs engine context moments (.ok answer) after) :
    ∃ moment ∈ moments, moment.Answers name := by
  cases run with
  | calls inner rest =>
      cases rest
      simp only [Call.course, Working.ofName, unknown] at inner
      cases entered : context.resolving.enter engine.settings name with
      | error error =>
          rw [entered] at inner
          cases inner
      | ok resolving =>
          rw [entered] at inner
          cases inner with
          | @calls _ _ _ found _ _ _ _ _ _ looksUp ends =>
              cases ends
              refine ⟨.ended (.lookup name) (entering context resolving) (.ok answer) found, by simp,
                _, answer, found, rfl, ?_⟩
              rw [ResolvingStack.enter_eq_ok entered]
              rfl

theorem not_answered_before {name : String} {earlier later : Moment} {events : List Event}
    (answers : earlier.Answers name) (since : Context.Since earlier.settled later.context)
    (journal : later.context.journal = events ++ earlier.context.journal)
    (calm : .cleared ∉ events) (orderly : later.context.Orderly) :
    name ∉ later.context.resolving.names := by
  intro inProgress
  obtain ⟨before, answer, behind, rfl, started⟩ := answers
  have settled : (Moment.ended (.lookup name) before (.ok answer) behind).settled =
      (finish name (.ok answer) behind).2 := if_pos started
  obtain ⟨between, settledJournal, once⟩ := since
  rw [settled] at settledJournal once
  have same : events = between ++ [.answered name answer] := by
    refine List.append_cancel_right (journal.symm.trans (settledJournal.trans ?_))
    rw [List.append_assoc]
    rfl
  have stillCalm : .cleared ∉ between := fun member =>
    calm (same ▸ List.mem_append_left _ member)
  have known := (once stillCalm).kept name answer (Table.find?_insert_self _ _ _)
  have unknown := orderly.unknown name inProgress
  rw [recall_of_notFact (orderly.notFact name answer known), known] at unknown
  cases unknown

/-- While nothing is forgotten, no remembered answer changes or is lost and no attribute is answered
by two lookups; no fact is remembered as an answer, and none is remembered for what has just failed. -/
theorem Session.write_once (detects : engine.settings.detectCycles = true)
    {facts : Facts} {interner : Interner} {steps : List Step}
    {moments : List Moment} {after : Context}
    (session : Session engine steps (.fresh facts interner) moments after) :
    moments.Pairwise (fun earlier later =>
        ∃ events, later.context.journal = events ++ earlier.context.journal ∧
          (.cleared ∉ events →
            (∀ name answer, earlier.context.answers.find? name = some answer →
              later.context.answers.find? name = some answer ∧
                name ∉ events.filterMap Event.answered?) ∧
            (events.filterMap Event.answered?).Nodup ∧
            ∀ name, earlier.Answers name → ¬ later.Answers name)) ∧
      (∀ name before error behind,
        Moment.ended (.get name) before (.error error) behind ∈ moments →
          behind.answers.find? name = none) ∧
      ∀ moment ∈ moments, ∀ name answer, moment.context.answers.find? name = some answer →
        moment.context.facts.find? name = none := by
  have moving := session.pairwise rfl
  have orderlyAt : ∀ moment ∈ moments, ∀ context ∈ moment.contexts, context.Orderly := by
    intro moment member context inMoment
    have fresh : (Context.fresh facts interner).Orderly := Context.orderly_of_forgotten rfl rfl
    have reached := List.rel_of_pairwise_cons moving
      (List.mem_append_left _ (List.mem_flatMap.2 ⟨moment, member, inMoment⟩))
    exact (Context.since_moves fresh detects reached).1
  have orderly : ∀ moment ∈ moments, moment.context.Orderly := fun moment member =>
    orderlyAt moment member _ moment.context_mem_contexts
  refine ⟨?_, fun name before error behind ended => ?_, fun moment member => ?_⟩
  · have between := (List.pairwise_append.1 (List.pairwise_cons.1 moving).2).1
    refine (List.pairwise_flatMap.1 between).2.imp_of_mem ?_
    intro earlier later earlierMember laterMember moves
    have since (context : Context) (inEarlier : context ∈ earlier.contexts) :
        Context.Since context later.context :=
      (Context.since_moves (orderlyAt earlier earlierMember context inEarlier) detects
        (moves context inEarlier _ later.context_mem_contexts)).2
    obtain ⟨events, journal, once⟩ := since _ earlier.context_mem_contexts
    refine ⟨events, journal, fun calm => ⟨fun name answer found => ?_, (once calm).once, ?_⟩⟩
    · refine ⟨(once calm).kept name answer found, fun again => ?_⟩
      simp [((once calm).written name again).1] at found
    · intro name answers again
      have settled := since _ earlier.settled_mem_contexts
      refine not_answered_before answers settled journal calm (orderly later laterMember) ?_
      obtain ⟨before, answer, behind, rfl, started⟩ := again
      have kept := resolving_answer engine (.lookup name) before
      rw [(session.answer_of_ended laterMember).1] at kept
      exact kept.symm ▸ List.mem_of_mem_head? started
  · obtain ⟨answered, began⟩ := session.answer_of_ended ended
    have tidy : before.Orderly := orderly _ began
    have failed : (engine.get name before).1 = .error error := congrArg Prod.fst answered
    have unknown := unknown_of_failed tidy detects failed
    rwa [show (engine.get name before).2 = behind from congrArg Prod.snd answered] at unknown
  · exact (orderly moment member).notFact

theorem write_once_of_mutual :
    mutualEngine.settings.detectCycles = true ∧
      ∃ moments after,
        Session mutualEngine [.get "a", .set "c" (.int 1), .get "b", .candidates "a"] (.ofFacts [])
            moments after ∧
          (∃ moment ∈ moments, moment.Answers "a") ∧
          moments.Pairwise (fun earlier later =>
            ∃ events, later.context.journal = events ++ earlier.context.journal ∧
              (.cleared ∉ events → (events.filterMap Event.answered?).Nodup ∧
                ∀ name, earlier.Answers name → ¬ later.Answers name)) ∧
          ∀ moment ∈ moments, ∀ name answer, moment.context.answers.find? name = some answer →
            moment.context.facts.find? name = none := by
  obtain ⟨moments, session⟩ := exists_session mutualEngine
    [.get "a", .set "c" (.int 1), .get "b", .candidates "a"] (.ofFacts [])
  obtain ⟨once, _, notFact⟩ := Session.write_once rfl session
  refine ⟨rfl, moments, _, session, ?_, once.imp ?_, notFact⟩
  · cases session with
    | change made => cases made
    | call made run rest =>
        cases made
        have answered : (mutualEngine.get "a" (.ofFacts [])).1 = .ok _ := rfl
        rw [show mutualEngine.get "a" (.ofFacts []) = _ from run.eq_answer] at answered
        obtain rfl := answered
        obtain ⟨moment, member, answers⟩ := exists_answers rfl run
        exact ⟨moment, List.mem_append_left _ member, answers⟩
  · rintro earlier later ⟨events, journal, unlessCleared⟩
    exact ⟨events, journal, fun calm => (unlessCleared calm).2⟩

end

end FactRules
