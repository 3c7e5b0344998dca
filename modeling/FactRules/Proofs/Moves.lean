import FactRules.Proofs.Inquiry.Memory
import Mathlib.Logic.Relation

/-!
How a context changes. Whatever a context does, it does by moves: it begins or ends a lookup, refuses
one, remembers a verdict, notes that an action starts, forgets, or is given a fact. What one move
keeps is kept for good: the resolving stack stays within the settings, and where cycles are detected
an answer, once remembered, stays until everything is forgotten.
-/

namespace FactRules

open Inquiry

def Event.answered? : Event → Option String
  | .answered name _ => some name
  | _ => none

namespace ResolvingStack

structure Within (settings : Settings) (stack : ResolvingStack) : Prop where
  bounded : stack.depth ≤ settings.maxLookupDepth
  distinct : settings.detectCycles = true → stack.names.Nodup

theorem not_mem_of_enter {stack entered : ResolvingStack} {settings : Settings} {name : String}
    (detects : settings.detectCycles = true)
    (succeeded : stack.enter settings name = .ok entered) : name ∉ stack.names := by
  intro member
  have again : stack.isResolving name = true := by
    simpa [isResolving] using member
  simp [enter, detects, again] at succeeded

theorem Within.enter {stack entered : ResolvingStack} {settings : Settings} {name : String}
    (within : stack.Within settings) (succeeded : stack.enter settings name = .ok entered) :
    entered.Within settings := by
  have below := depth_lt_of_enter succeeded
  rw [enter_eq_ok succeeded]
  refine ⟨below, fun detects => ?_⟩
  exact List.nodup_cons.2 ⟨not_mem_of_enter detects succeeded, within.distinct detects⟩

theorem Within.leave {stack : ResolvingStack} {settings : Settings}
    (within : stack.Within settings) : stack.leave.2.Within settings := by
  refine ⟨?_, fun detects => (within.distinct detects).sublist (List.tail_sublist _)⟩
  have shorter : stack.leave.2.depth ≤ stack.depth := (List.tail_sublist _).length_le
  exact Nat.le_trans shorter within.bounded

end ResolvingStack

namespace Context

/-- One change of a context. Facts are only given while nothing is in progress. -/
inductive Move (settings : Settings) : Context → Context → Prop
  | enter {context : Context} {name : String} {resolving : ResolvingStack}
      (unknown : context.recall name = none)
      (entered : context.resolving.enter settings name = .ok resolving) :
      Move settings context (entering context resolving)
  | refuse {context : Context} {name : String} {error : RuleError}
      (unknown : context.recall name = none)
      (refused : context.resolving.enter settings name = .error error) :
      Move settings context (context.note (.failed name error))
  | finish {context : Context} {name : String} {names : List String}
      (innermost : context.resolving.names = name :: names)
      (outcome : Except RuleError (Option Value)) :
      Move settings context (Resolution.finish name outcome context).2
  | verdict (context : Context) (condition : SharedCondition) (verdict : Bool) :
      Move settings context (context.rememberVerdict condition verdict)
  | fire (context : Context) (target : String) :
      Move settings context (context.note (.fired target))
  | clear (context : Context) : Move settings context context.clear
  | share (context : Context) (interner : Interner) :
      Move settings context { context with interner }
  | set {context : Context} (idle : context.resolving = {}) (name : String) (value : Value)
      (arrangement : Arrangement) : Move settings context (context.set name value arrangement)

def Moves (settings : Settings) : Context → Context → Prop :=
  Relation.ReflTransGen (Move settings)

structure Passes (settings : Settings) (before after : Context) : Prop where
  moves : Moves settings before after
  sameStack : after.resolving = before.resolving

variable {settings : Settings} {before after later : Context}

theorem Passes.refl (context : Context) : Passes settings context context :=
  ⟨.refl, rfl⟩

theorem Passes.trans (first : Passes settings before after) (second : Passes settings after later) :
    Passes settings before later :=
  ⟨first.moves.trans second.moves, second.sameStack.trans first.sameStack⟩

theorem within_move (within : before.resolving.Within settings) (move : Move settings before after) :
    after.resolving.Within settings := by
  cases move with
  | enter _ entered => exact within.enter entered
  | finish innermost outcome =>
      rw [resolving_finish]
      exact within.leave
  | refuse | verdict | fire | clear | share | set => exact within

theorem within_moves (within : before.resolving.Within settings)
    (moves : Moves settings before after) : after.resolving.Within settings := by
  induction moves with
  | refl => exact within
  | tail _ move ih => exact within_move ih move

/-- What is in progress is not known yet, and facts are not looked up. -/
structure Orderly (context : Context) : Prop where
  distinct : context.resolving.names.Nodup
  unknown : ∀ name ∈ context.resolving.names, context.recall name = none
  notFact : ∀ name answer, context.answers.find? name = some answer →
    context.facts.find? name = none

theorem orderly_of_forgotten {context : Context} (idle : context.resolving = {})
    (forgotten : context.answers = []) : context.Orderly where
  distinct := by simp [idle]
  unknown := by simp [idle]
  notFact := by simp [forgotten]

namespace Orderly

theorem congr {context other : Context} (orderly : context.Orderly)
    (sameStack : other.resolving = context.resolving) (sameFacts : other.facts = context.facts)
    (sameAnswers : other.answers = context.answers) : other.Orderly := by
  have sameRecall : other.recall = context.recall := by
    funext name
    simp only [Context.recall, sameFacts, sameAnswers]
  refine ⟨?_, ?_, ?_⟩
  · exact sameStack ▸ orderly.distinct
  · rw [sameStack, sameRecall]
    exact orderly.unknown
  · rw [sameFacts, sameAnswers]
    exact orderly.notFact

theorem clear {context : Context} (orderly : context.Orderly) : context.clear.Orderly where
  distinct := orderly.distinct
  unknown name member := by
    have fact := notFact_of_recall_none (orderly.unknown name member)
    rw [recall_of_forgotten rfl]
    exact congrArg (Option.map some) fact
  notFact name answer found := by simp [Context.clear, note] at found

theorem enter {context : Context} {name : String} {resolving : ResolvingStack}
    (orderly : context.Orderly) (unknown : context.recall name = none)
    (entered : context.resolving.enter settings name = .ok resolving)
    (detects : settings.detectCycles = true) : (entering context resolving).Orderly := by
  have outside := ResolvingStack.not_mem_of_enter detects entered
  rw [ResolvingStack.enter_eq_ok entered]
  refine ⟨List.nodup_cons.2 ⟨outside, orderly.distinct⟩, fun other member => ?_, orderly.notFact⟩
  rcases List.mem_cons.1 member with rfl | inProgress
  · exact unknown
  · exact orderly.unknown other inProgress

theorem finish {context : Context} {name : String} {names : List String}
    (orderly : context.Orderly) (innermost : context.resolving.names = name :: names)
    (outcome : Except RuleError (Option Value)) :
    (Resolution.finish name outcome context).2.Orderly := by
  obtain ⟨outside, distinct⟩ := List.nodup_cons.1 (innermost ▸ orderly.distinct)
  have left : (Resolution.finish name outcome context).2.resolving.names = names := by
    rw [resolving_finish]
    exact congrArg List.tail innermost
  have ended := orderly.unknown name (innermost ▸ List.mem_cons_self)
  refine ⟨left ▸ distinct, fun other member => ?_, fun other answer found => ?_⟩
  · rw [left] at member
    rw [recall_finish_of_ne (ne_of_mem_of_not_mem member outside)]
    exact orderly.unknown other (innermost ▸ List.mem_cons_of_mem _ member)
  · cases outcome with
    | error error => exact orderly.notFact other answer found
    | ok result =>
        by_cases same : other = name
        · subst same
          have fact := notFact_of_recall_none ended
          exact fact
        · have known : context.answers.find? other = some answer := by
            rwa [← Table.find?_insert_of_ne context.answers result same]
          exact orderly.notFact other answer known

theorem move (orderly : before.Orderly) (detects : settings.detectCycles = true)
    (move : Move settings before after) : after.Orderly := by
  cases move with
  | enter unknown entered => exact orderly.enter unknown entered detects
  | finish innermost outcome => exact orderly.finish innermost outcome
  | clear => exact orderly.clear
  | set idle => exact orderly_of_forgotten idle rfl
  | refuse | verdict | fire | share => exact orderly.congr rfl rfl rfl

end Orderly

structure WriteOnce (before : Context) (events : List Event) (after : Context) : Prop where
  kept : ∀ name answer, before.answers.find? name = some answer →
    after.answers.find? name = some answer
  written : ∀ name ∈ events.filterMap Event.answered?,
    before.answers.find? name = none ∧ after.answers.find? name ≠ none
  once : (events.filterMap Event.answered?).Nodup

theorem writeOnce_of_same {events : List Event} (sameAnswers : after.answers = before.answers)
    (noAnswer : events.filterMap Event.answered? = []) : WriteOnce before events after where
  kept name answer found := sameAnswers ▸ found
  written := by simp [noAnswer]
  once := by simp [noAnswer]

theorem WriteOnce.trans {first second : List Event} (left : WriteOnce before first after)
    (right : WriteOnce after second later) : WriteOnce before (second ++ first) later where
  kept name answer found := right.kept name answer (left.kept name answer found)
  written name member := by
    rw [List.filterMap_append, List.mem_append] at member
    rcases member with inSecond | inFirst
    · obtain ⟨unknown, known⟩ := right.written name inSecond
      refine ⟨?_, known⟩
      cases found : before.answers.find? name with
      | none => rfl
      | some answer => simp [left.kept name answer found] at unknown
    · obtain ⟨unknown, known⟩ := left.written name inFirst
      obtain ⟨answer, found⟩ := Option.ne_none_iff_exists'.1 known
      exact ⟨unknown, by simp [right.kept name answer found]⟩
  once := by
    rw [List.filterMap_append, List.nodup_append]
    refine ⟨right.once, left.once, ?_⟩
    rintro name inSecond _ inFirst rfl
    exact (left.written name inFirst).2 (right.written name inSecond).1

/-- The later context has seen further events, and has written each answer once since the earlier one,
unless it has forgotten its answers meanwhile. -/
def Since (before after : Context) : Prop :=
  ∃ events, after.journal = events ++ before.journal ∧
    (.cleared ∉ events → WriteOnce before events after)

theorem Since.trans (first : Since before after) (second : Since after later) :
    Since before later := by
  obtain ⟨firstEvents, firstJournal, firstOnce⟩ := first
  obtain ⟨secondEvents, secondJournal, secondOnce⟩ := second
  refine ⟨secondEvents ++ firstEvents, ?_, fun calm => ?_⟩
  · rw [secondJournal, firstJournal, List.append_assoc]
  · rw [List.mem_append, not_or] at calm
    exact (firstOnce calm.2).trans (secondOnce calm.1)

theorem since_finish {context : Context} {name : String} {names : List String}
    (orderly : context.Orderly) (innermost : context.resolving.names = name :: names)
    (outcome : Except RuleError (Option Value)) :
    Since context (Resolution.finish name outcome context).2 := by
  cases outcome with
  | error error => exact ⟨[.failed name error], rfl, fun _ => writeOnce_of_same rfl rfl⟩
  | ok answer =>
      have ended := orderly.unknown name (innermost ▸ List.mem_cons_self)
      have unknown : context.answers.find? name = none := by
        rwa [← recall_of_notFact (notFact_of_recall_none ended)]
      refine ⟨[.answered name answer], rfl, fun _ => ⟨fun other known found => ?_, ?_, ?_⟩⟩
      · have differs : other ≠ name := by
          rintro rfl
          simp [unknown] at found
        exact (Table.find?_insert_of_ne _ _ differs).trans found
      · intro other member
        obtain rfl : other = name := by simpa [Event.answered?] using member
        refine ⟨unknown, ?_⟩
        have written : (Resolution.finish other (.ok answer) context).2.answers.find? other =
            some answer := Table.find?_insert_self _ _ _
        simp [written]
      · simp [Event.answered?]

theorem since_move (orderly : before.Orderly) (move : Move settings before after) :
    Since before after := by
  cases move with
  | enter _ _ => exact ⟨[_], rfl, fun _ => writeOnce_of_same rfl rfl⟩
  | refuse _ _ => exact ⟨[_], rfl, fun _ => writeOnce_of_same rfl rfl⟩
  | finish innermost outcome => exact since_finish orderly innermost outcome
  | verdict condition verdict => exact ⟨[], rfl, fun _ => writeOnce_of_same rfl rfl⟩
  | fire target => exact ⟨[.fired target], rfl, fun _ => writeOnce_of_same rfl rfl⟩
  | share interner => exact ⟨[], rfl, fun _ => writeOnce_of_same rfl rfl⟩
  | clear => exact ⟨[.cleared], rfl, fun calm => (calm List.mem_cons_self).elim⟩
  | set _ _ _ _ => exact ⟨[.cleared], rfl, fun calm => (calm List.mem_cons_self).elim⟩

theorem since_moves (orderly : before.Orderly) (detects : settings.detectCycles = true)
    (moves : Moves settings before after) : after.Orderly ∧ Since before after := by
  induction moves with
  | refl => exact ⟨orderly, [], rfl, fun _ => writeOnce_of_same rfl rfl⟩
  | tail _ move ih => exact ⟨ih.1.move detects move, ih.2.trans (since_move ih.1 move)⟩

end Context

end FactRules
