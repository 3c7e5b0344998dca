import FactRules.Proofs.Requests
import Mathlib.Data.List.Forall2

/-!
The shape of conditions without NOT. Their comparisons are those of the condition from left to
right, with the operator negated below an odd number of NOTs, and there are none exactly if one of
those operators has no negation. Such a condition is its own condition without NOT.
-/

namespace FactRules

namespace Comparison

theorem keys_withOperator (operator : Operator) (comparison : Comparison) :
    (comparison.withOperator operator).keys = comparison.keys := by
  cases comparison <;> rfl

theorem operator_withOperator (operator : Operator) (comparison : Comparison) :
    (comparison.withOperator operator).operator = operator := by
  cases comparison <;> rfl

theorem withOperator_self (comparison : Comparison) :
    comparison.withOperator comparison.operator = comparison := by
  cases comparison <;> rfl

def turned (counted : Comparison × Bool) : Except EvalError Comparison :=
  if counted.2 then counted.1.negation else .ok counted.1

structure Turns (counted : Comparison × Bool) (result : Comparison) : Prop where
  same : result = counted.1.withOperator result.operator
  operator : if counted.2 then counted.1.operator.negation? = some result.operator
    else result.operator = counted.1.operator

theorem turns_of_turned {counted : Comparison × Bool} {result : Comparison}
    (turns : turned counted = .ok result) : Turns counted result := by
  obtain ⟨comparison, odd⟩ := counted
  cases odd with
  | false =>
      cases turns
      exact ⟨comparison.withOperator_self.symm, rfl⟩
  | true =>
      obtain ⟨operator, negates, rfl⟩ := exists_of_negation turns
      rw [← operator_withOperator operator comparison] at negates
      exact ⟨by rw [operator_withOperator], negates⟩

/-- A pattern operator below an odd number of NOTs, which has no negation. -/
def isStuck (counted : Comparison × Bool) : Bool :=
  counted.2 && (counted.1.operator == .like || counted.1.operator == .caselessLike)

theorem turned_of_isStuck {counted : Comparison × Bool} (stuck : isStuck counted = true) :
    turned counted = .error (.negationUnsupported counted.1.operator) := by
  obtain ⟨comparison, odd⟩ := counted
  simp only [isStuck, Bool.and_eq_true, Bool.or_eq_true, beq_iff_eq] at stuck
  obtain ⟨rfl, pattern⟩ := stuck
  simp only [turned, negation]
  rcases pattern with same | same <;> simp [same, Operator.negation?]

theorem exists_turned {counted : Comparison × Bool} (free : isStuck counted = false) :
    ∃ result, turned counted = .ok result := by
  obtain ⟨comparison, odd⟩ := counted
  cases odd with
  | false => exact ⟨comparison, rfl⟩
  | true =>
      simp only [turned, negation, isStuck] at free ⊢
      cases operator : comparison.operator <;> simp_all [Operator.negation?]

theorem mapM_turned_eq_error_iff {counted : List (Comparison × Bool)} {error : EvalError} :
    counted.mapM turned = .error error ↔
      ∃ stuck, counted.find? isStuck = some stuck ∧
        error = .negationUnsupported stuck.1.operator := by
  induction counted with
  | nil => exact iff_of_false nofun (fun ⟨_, found, _⟩ => nomatch found)
  | cons first counted ih =>
      rw [List.mapM_cons, List.find?_cons]
      cases stuck : isStuck first with
      | true =>
          rw [turned_of_isStuck stuck]
          constructor
          · rintro ⟨⟩
            exact ⟨first, rfl, rfl⟩
          · rintro ⟨_, ⟨⟩, rfl⟩
            rfl
      | false =>
          obtain ⟨result, turns⟩ := exists_turned stuck
          rw [turns, ← ih]
          cases counted.mapM turned <;> simp [bind, Except.bind, pure, Except.pure]

theorem turns_of_mapM {counted : List (Comparison × Bool)} {results : List Comparison}
    (turned : counted.mapM turned = .ok results) : List.Forall₂ Turns counted results := by
  induction counted generalizing results with
  | nil =>
      cases turned
      exact .nil
  | cons first counted ih =>
      rw [List.mapM_cons] at turned
      cases turnsFirst : Comparison.turned first with
      | error error =>
          rw [turnsFirst] at turned
          cases turned
      | ok result =>
          cases turnsLater : counted.mapM Comparison.turned with
          | error error =>
              rw [turnsFirst, turnsLater] at turned
              cases turned
          | ok later =>
              rw [turnsFirst, turnsLater] at turned
              cases turned
              exact .cons (turns_of_turned turnsFirst) (ih turnsLater)

theorem keys_of_turns {counted : List (Comparison × Bool)} {results : List Comparison}
    (turns : List.Forall₂ Turns counted results) :
    results.flatMap keys = (counted.map Prod.fst).flatMap keys := by
  induction turns with
  | nil => rfl
  | cons turn _ ih =>
      rw [List.map_cons, List.flatMap_cons, List.flatMap_cons, ih, turn.same, keys_withOperator]

end Comparison

namespace Condition

mutual

def leaves : Condition → List Comparison
  | .leaf comparison => [comparison]
  | .all terms => termLeaves terms
  | .any terms => termLeaves terms
  | .not inner => leaves inner

def termLeaves : List Condition → List Comparison
  | [] => []
  | term :: terms => leaves term ++ termLeaves terms

end

mutual

theorem leaves_eq_map_comparisons (inverted : Bool) : (condition : Condition) →
    condition.leaves = (condition.comparisons inverted).map Prod.fst
  | .leaf _ => rfl
  | .all terms => termLeaves_eq_map_comparisons inverted terms
  | .any terms => termLeaves_eq_map_comparisons inverted terms
  | .not inner => leaves_eq_map_comparisons (!inverted) inner

theorem termLeaves_eq_map_comparisons (inverted : Bool) : (terms : List Condition) →
    termLeaves terms = (termComparisons inverted terms).map Prod.fst
  | [] => rfl
  | term :: terms => by
      rw [termLeaves, termComparisons, List.map_append, leaves_eq_map_comparisons inverted term,
        termLeaves_eq_map_comparisons inverted terms]

end

mutual

theorem leaves_pushed (inverted : Bool) : (condition : Condition) →
    leaves <$> condition.pushed inverted = (condition.comparisons inverted).mapM Comparison.turned
  | .leaf comparison => by
      rw [comparisons, List.mapM_cons, List.mapM_nil]
      cases inverted with
      | false => rfl
      | true =>
          simp only [pushed, Comparison.turned, if_pos]
          cases comparison.negation <;> rfl
  | .all terms => by
      rw [comparisons, ← leaves_pushedTerms inverted terms, pushed]
      cases pushedTerms inverted terms <;> cases inverted <;> rfl
  | .any terms => by
      rw [comparisons, ← leaves_pushedTerms inverted terms, pushed]
      cases pushedTerms inverted terms <;> cases inverted <;> rfl
  | .not inner => leaves_pushed (!inverted) inner

theorem leaves_pushedTerms (inverted : Bool) : (terms : List Condition) →
    termLeaves <$> pushedTerms inverted terms =
      (termComparisons inverted terms).mapM Comparison.turned
  | [] => rfl
  | term :: terms => by
      rw [termComparisons, List.mapM_append, ← leaves_pushed inverted term,
        ← leaves_pushedTerms inverted terms, pushedTerms]
      cases pushed inverted term with
      | error error => rfl
      | ok form =>
          cases pushedTerms inverted terms with
          | error error => rfl
          | ok forms => rfl

end

theorem turns_of_pushed {inverted : Bool} {condition form : Condition}
    (pushes : condition.pushed inverted = .ok form) :
    List.Forall₂ Comparison.Turns (condition.comparisons inverted) form.leaves := by
  have turned := leaves_pushed inverted condition
  rw [pushes] at turned
  exact Comparison.turns_of_mapM turned.symm

mutual

theorem flatMap_ownKeys_walk : (condition : Condition) →
    condition.walk.flatMap ownKeys = condition.leaves.flatMap Comparison.keys
  | .leaf comparison => rfl
  | .all terms => by
      rw [walk, List.flatMap_append, flatMap_ownKeys_walkTerms terms]
      exact List.append_nil _
  | .any terms => by
      rw [walk, List.flatMap_append, flatMap_ownKeys_walkTerms terms]
      exact List.append_nil _
  | .not inner => by
      rw [walk, List.flatMap_append, flatMap_ownKeys_walk inner]
      exact List.append_nil _

theorem flatMap_ownKeys_walkTerms : (terms : List Condition) →
    (walkTerms terms).flatMap ownKeys = (termLeaves terms).flatMap Comparison.keys
  | [] => rfl
  | term :: terms => by
      rw [walkTerms, termLeaves, List.flatMap_append, List.flatMap_append,
        flatMap_ownKeys_walk term, flatMap_ownKeys_walkTerms terms]

end

theorem keys_of_pushed {condition form : Condition} {inverted : Bool}
    (pushes : condition.pushed inverted = .ok form) : form.keys = condition.keys := by
  rw [keys, keys, flatMap_ownKeys_walk, flatMap_ownKeys_walk,
    Comparison.keys_of_turns (turns_of_pushed pushes), ← leaves_eq_map_comparisons]

mutual

/-- Induction along the way on which NOT is pushed down, from the comparisons up. -/
theorem pushed_induction {motive : Bool → Condition → Condition → Prop}
    (same : ∀ comparison, motive false (.leaf comparison) (.leaf comparison))
    (opposite : ∀ comparison negation, comparison.negation = .ok negation →
      motive true (.leaf comparison) (.leaf negation))
    (node : ∀ (junction : Junction) inverted terms forms,
      List.Forall₂ (motive inverted) terms forms →
      motive inverted (junction.node terms) ((junction.turned inverted).node forms))
    (not : ∀ inverted inner form, motive (!inverted) inner form → motive inverted (.not inner) form)
    {inverted : Bool} : (condition : Condition) → {form : Condition} →
    condition.pushed inverted = .ok form → motive inverted condition form
  | .leaf comparison, form, pushes => by
      cases inverted with
      | false =>
          cases pushes
          exact same comparison
      | true =>
          obtain ⟨negation, negates, rfl⟩ := map_eq_ok_iff.1 pushes
          exact opposite comparison negation negates
  | .all terms, form, pushes => by
      obtain ⟨forms, pushesTerms, rfl⟩ := map_eq_ok_iff.1 pushes
      exact node .all _ _ _ (pushedTerms_induction same opposite node not terms pushesTerms)
  | .any terms, form, pushes => by
      obtain ⟨forms, pushesTerms, rfl⟩ := map_eq_ok_iff.1 pushes
      exact node .any _ _ _ (pushedTerms_induction same opposite node not terms pushesTerms)
  | .not inner, form, pushes => not _ _ _ (pushed_induction same opposite node not inner pushes)

theorem pushedTerms_induction {motive : Bool → Condition → Condition → Prop}
    (same : ∀ comparison, motive false (.leaf comparison) (.leaf comparison))
    (opposite : ∀ comparison negation, comparison.negation = .ok negation →
      motive true (.leaf comparison) (.leaf negation))
    (node : ∀ (junction : Junction) inverted terms forms,
      List.Forall₂ (motive inverted) terms forms →
      motive inverted (junction.node terms) ((junction.turned inverted).node forms))
    (not : ∀ inverted inner form, motive (!inverted) inner form → motive inverted (.not inner) form)
    {inverted : Bool} : (terms : List Condition) → {forms : List Condition} →
    pushedTerms inverted terms = .ok forms → List.Forall₂ (motive inverted) terms forms
  | [], forms, pushes => by
      cases pushes
      exact .nil
  | term :: terms, forms, pushes => by
      obtain ⟨form, later, pushesTerm, pushesLater, rfl⟩ := pushedTerms_cons_eq_ok pushes
      exact .cons (pushed_induction same opposite node not term pushesTerm)
        (pushedTerms_induction same opposite node not terms pushesLater)

end

def WithoutNot (condition : Condition) : Prop :=
  ∀ node ∈ condition.walk, ∀ inner, node ≠ .not inner

theorem withoutNot_node (junction : Junction) {terms : List Condition}
    (without : ∀ node ∈ walkTerms terms, ∀ inner, node ≠ .not inner) :
    (junction.node terms).WithoutNot := by
  rw [WithoutNot, Junction.walk_node]
  refine List.forall_mem_append.2 ⟨without, List.forall_mem_singleton.2 ?_⟩
  cases junction <;> exact nofun

theorem size_node (junction : Junction) (terms : List Condition) :
    (junction.node terms).size = termsSize terms + 1 := by
  cases junction <;> rfl

structure Lighter (condition form : Condition) : Prop where
  without : form.WithoutNot
  size : form.size ≤ condition.size

theorem lighter_node (junction : Junction) (inverted : Bool) (terms forms : List Condition)
    (lighter : List.Forall₂ Lighter terms forms) :
    Lighter (junction.node terms) ((junction.turned inverted).node forms) := by
  have below : (∀ node ∈ walkTerms forms, ∀ inner, node ≠ .not inner) ∧
      termsSize forms ≤ termsSize terms := by
    induction lighter with
    | nil => exact ⟨nofun, Nat.le_refl _⟩
    | cons first _ ih =>
        exact ⟨List.forall_mem_append.2 ⟨first.without, ih.1⟩, Nat.add_le_add first.size ih.2⟩
  refine ⟨withoutNot_node _ below.1, ?_⟩
  rw [size_node, size_node]
  exact Nat.add_le_add_right below.2 1

theorem lighter_leaf (comparison result : Comparison) :
    Lighter (.leaf comparison) (.leaf result) :=
  ⟨List.forall_mem_singleton.2 nofun, Nat.le_refl _⟩

theorem lighter_pushed {inverted : Bool} (condition : Condition) {form : Condition}
    (pushes : condition.pushed inverted = .ok form) : Lighter condition form := by
  refine pushed_induction (motive := fun _ => Lighter) ?_ ?_ lighter_node ?_ condition pushes
  · exact fun comparison => lighter_leaf comparison comparison
  · exact fun comparison negation _ => lighter_leaf comparison negation
  · exact fun _ _ _ inner => ⟨inner.without, Nat.le_succ_of_le inner.size⟩

end Condition

/-- What is known and what is asked for are of one family, in which no two conditions are printed
alike. So each answer is like what is asked for. -/
structure Interner.AnswersAlike (family : Condition → Prop) (interner : Interner)
    (drafts : List Condition) : Prop where
  determines : Condition.TextDetermines family
  within : interner.Within family
  members : ∀ draft ∈ drafts, family draft

namespace SharedCondition

open Interner

section

variable {interner : Interner}

theorem text_congr (junction : Junction) {terms others : List SharedCondition}
    (same : terms.map text = others.map text) (identity otherIdentity : Nat) :
    (junction.shared identity terms).text = (junction.shared otherIdentity others).text := by
  have texts : Condition.termTexts (conditions terms) = Condition.termTexts (conditions others) := by
    rw [Condition.termTexts_eq_map, Condition.termTexts_eq_map, conditions_eq_map,
      conditions_eq_map, List.map_map, List.map_map]
    exact same
  cases junction <;> simp [text, Junction.shared, condition, Condition.text, texts]

def Reprints {α β : Type} (printed : α → β) (work : Sharing EvalError α) (like : α)
    (interner : Interner) : Prop :=
  ∃ again after, work interner = (.ok again, after) ∧ printed again = printed like ∧
    after.Keyed ∧ after.Extends interner

theorem Reprints.draft (junction : Junction) (identity : Nat) {terms : List SharedCondition}
    (reprints : Reprints (List.map text) (pushedTerms false terms) terms interner) :
    ∃ draft between, (junction.shared identity terms).pushed false interner =
        (.ok (intern draft between).1, (intern draft between).2) ∧
      draft.text = (junction.shared identity terms).text ∧ between.Keyed ∧
      between.Extends interner := by
  obtain ⟨again, between, ran, same, keyed, grows⟩ := reprints
  rw [junction.pushed_shared, junction.turned_false]
  exact ⟨_, between, bind_eq_ok_iff.2 ⟨again, between, ran, rfl⟩, text_congr _ same _ _, keyed,
    grows⟩

theorem Reprints.positive (junction : Junction) (identity : Nat) {terms : List SharedCondition}
    (reprints : Reprints (List.map text) (pushedTerms false terms) terms interner)
    (known : Table.find? interner.known (junction.shared identity terms).text =
      some (junction.shared identity terms)) :
    ∃ final, (junction.shared identity terms).positive interner =
      (.ok (junction.shared identity terms), final) := by
  -- Its terms may give other instances, but these are printed alike, and the text finds the node.
  obtain ⟨draft, between, ran, same, _, grows⟩ := reprints.draft junction identity
  have found := grows _ _ known
  rw [← same] at found
  rw [intern_known found] at ran
  exact ⟨_, ran⟩

theorem Reprints.node (junction : Junction) (identity : Nat) {terms : List SharedCondition}
    (reprints : Reprints (List.map text) (pushedTerms false terms) terms interner) :
    Reprints text ((junction.shared identity terms).pushed false)
      (junction.shared identity terms) interner := by
  obtain ⟨draft, between, ran, same, keyed, grows⟩ := reprints.draft junction identity
  exact ⟨_, _, ran, (keyed.text_intern draft).trans same, keyed.intern draft,
    (intern_extends draft between).trans grows⟩

mutual

theorem reprints : (shared : SharedCondition) → shared.condition.WithoutNot →
    {interner : Interner} → interner.Keyed → Reprints text (shared.pushed false) shared interner
  | .leaf _ _, _, interner, keyed => ⟨_, _, rfl, rfl, keyed, Extends.refl interner⟩
  | .all identity terms, without, _, keyed =>
      (reprintsTerms terms (List.forall_mem_append.1 without).1 keyed).node .all identity
  | .any identity terms, without, _, keyed =>
      (reprintsTerms terms (List.forall_mem_append.1 without).1 keyed).node .any identity
  | .not _ _, without, _, _ =>
      absurd rfl (without _ (List.mem_append_right _ List.mem_cons_self) _)

theorem reprintsTerms : (terms : List SharedCondition) →
    (∀ node ∈ Condition.walkTerms (conditions terms), ∀ inner, node ≠ .not inner) →
    {interner : Interner} → interner.Keyed →
    Reprints (List.map text) (pushedTerms false terms) terms interner
  | [], _, interner, keyed => ⟨_, _, rfl, rfl, keyed, Extends.refl interner⟩
  | term :: terms, without, interner, keyed => by
      obtain ⟨withoutTerm, withoutLater⟩ := List.forall_mem_append.1 without
      obtain ⟨first, between, ran, same, stillKeyed, grows⟩ := reprints term withoutTerm keyed
      obtain ⟨others, after, ranLater, sameLater, finallyKeyed, growsLater⟩ :=
        reprintsTerms terms withoutLater stillKeyed
      refine ⟨first :: others, after, ?_, ?_, finallyKeyed, growsLater.trans grows⟩
      · rw [pushedTerms]
        exact bind_eq_ok_iff.2 ⟨first, between, ran, bind_eq_ok_iff.2 ⟨others, after, ranLater, rfl⟩⟩
      · rw [List.map_cons, List.map_cons, same, sameLater]

end

def Settled (interner : Interner) (shared : SharedCondition) : Prop :=
  (∃ identity comparison, shared = .leaf identity comparison) ∨
    Table.find? interner.known shared.text = some shared

theorem settled_intern (keyed : interner.Keyed) (draft : SharedCondition) :
    Settled (intern draft interner).2 (intern draft interner).1 := by
  refine .inr ?_
  rw [keyed.text_intern draft]
  exact find?_intern draft interner

theorem keyed_pushedTerms (inverted : Bool) (terms : List SharedCondition)
    (keyed : interner.Keyed) : (pushedTerms inverted terms interner).2.Keyed := by
  have interns : InternsOk False (AllReadably False terms.length) (pushedTerms inverted terms)
      interner := interns_pushedTerms terms nofun nofun
  obtain ⟨steps, trace, _⟩ := interns.traced
  exact trace.keyed keyed

theorem settled_node (junction : Junction) (identity : Nat) {inverted : Bool}
    {terms : List SharedCondition} {positive : SharedCondition} {after : Interner}
    (keyed : interner.Keyed)
    (ran : (junction.shared identity terms).pushed inverted interner = (.ok positive, after)) :
    Settled after positive := by
  rw [junction.pushed_shared] at ran
  obtain ⟨pushed, between, ranTerms, interned⟩ := bind_eq_ok_iff.1 ran
  have stillKeyed := keyed_pushedTerms inverted terms keyed
  rw [ranTerms] at stillKeyed
  cases interned
  exact settled_intern stillKeyed _

theorem settled_pushed {inverted : Bool} : (shared : SharedCondition) →
    {positive : SharedCondition} → {after : Interner} → interner.Keyed →
    shared.pushed inverted interner = (.ok positive, after) → Settled after positive
  | .leaf identity comparison, positive, after, keyed, ran => by
      cases inverted with
      | false =>
          cases ran
          exact .inl ⟨identity, comparison, rfl⟩
      | true =>
          rw [pushed, if_pos rfl] at ran
          cases negates : comparison.negation with
          | error error =>
              rw [negates] at ran
              cases ran
          | ok negation =>
              rw [negates] at ran
              cases ran
              exact settled_intern keyed _
  | .all identity _, _, _, keyed, ran => settled_node .all identity keyed ran
  | .any identity _, _, _, keyed, ran => settled_node .any identity keyed ran
  | .not _ inner, _, _, keyed, ran => settled_pushed inner keyed ran

/-- Without NOT in it the instance that is known gives itself, also when more is known. -/
theorem Settled.positive {shared : SharedCondition} (settled : Settled interner shared)
    (without : shared.condition.WithoutNot) {later : Interner} (keyed : later.Keyed)
    (grows : later.Extends interner) :
    ∃ final, shared.positive later = (.ok shared, final) := by
  cases shared with
  | leaf identity comparison => exact ⟨_, rfl⟩
  | all identity terms =>
      have known := settled.resolve_left fun ⟨_, _, same⟩ => nomatch same
      have again := reprintsTerms terms (List.forall_mem_append.1 without).1 keyed
      exact again.positive .all identity (grows _ _ known)
  | any identity terms =>
      have known := settled.resolve_left fun ⟨_, _, same⟩ => nomatch same
      have again := reprintsTerms terms (List.forall_mem_append.1 without).1 keyed
      exact again.positive .any identity (grows _ _ known)
  | not identity inner =>
      exact absurd rfl (without _ (List.mem_append_right _ List.mem_cons_self) _)

end

theorem pushes_of_positive {family : Condition → Prop} {interner after : Interner}
    {shared positive : SharedCondition}
    (answers : interner.AnswersAlike family (shared.condition.drafts false))
    (gave : shared.positive interner = (.ok positive, after)) :
    shared.condition.pushed false = .ok positive.condition ∧ after.Within family := by
  have ran : shared.pushed false interner = (.ok positive, after) := gave
  obtain ⟨form, pushes⟩ := exists_pushed_of_positive gave
  obtain ⟨given, final, gives, same, within⟩ :=
    gives_drafted answers.determines shared pushes answers.members answers.within
  rw [ran] at gives
  cases gives
  exact ⟨pushes.trans (congrArg Except.ok same.symm), within⟩

/-- `positive` fails as the first comparison that cannot be negated says. Where every answer of the
interner is like what is asked for, it gives the same comparisons in the same order, those below an
odd number of NOTs negated, in a tree without NOT that has the same keys and is no larger; and
whatever is shared after that, such a tree gives itself. -/
theorem shape_positive (shared : SharedCondition) (interner : Interner) :
    (∀ error, (shared.positive interner).1 = .error error ↔
      ∃ stuck, (shared.condition.comparisons false).find? Comparison.isStuck = some stuck ∧
        error = .negationUnsupported stuck.1.operator) ∧
    ∀ family positive after, interner.AnswersAlike family (shared.condition.drafts false) →
      shared.positive interner = (.ok positive, after) →
      positive.condition.WithoutNot ∧
      List.Forall₂ Comparison.Turns (shared.condition.comparisons false) positive.condition.leaves ∧
      positive.condition.keys = shared.condition.keys ∧
      positive.condition.size ≤ shared.condition.size ∧
      ∀ later, Reached after later → ∃ final, positive.positive later = (.ok positive, final) := by
  constructor
  · intro error
    have alike := failAlike_pushed false shared interner
    rw [← Comparison.mapM_turned_eq_error_iff, ← Condition.leaves_pushed false]
    exact (alike.eq_error_iff error).trans map_eq_error_iff.symm
  · intro family positive after answers gave
    obtain ⟨pushes, within⟩ := pushes_of_positive answers gave
    obtain ⟨without, size⟩ := Condition.lighter_pushed _ pushes
    refine ⟨without, Condition.turns_of_pushed pushes, Condition.keys_of_pushed pushes, size, ?_⟩
    intro later reached
    have settled := settled_pushed shared answers.within.keyed gave
    exact settled.positive without (reached.keyed within.keyed) reached.extends

theorem shape_positive_items : ∃ positive after,
    smallItems.positive { nextIdentity := 0, known := [] } = (.ok positive, after) ∧
    positive.condition.WithoutNot ∧ positive.condition.size = 3 ∧
    positive.condition.leaves = [.keyLiteral "items.size" .notEqual (.integer 1),
      .keyLiteral "rate" .greater (.integer 2)] ∧
    (∃ final, positive.positive after = (.ok positive, final)) ∧
    ((SharedCondition.not 0 (.all 1 [smallItems, .leaf 2 (.keyKey "low" .like "rate")])).positive
      after).1 = .error (.negationUnsupported .like) := by
  have size : IsKey "items.size" := ⟨(Token.Scanned.step rfl rfl (.nil rfl)).scan_eq, rfl⟩
  have rate : IsKey "rate" := ⟨(Token.Scanned.step rfl rfl (.nil rfl)).scan_eq, rfl⟩
  have drafts : smallItems.condition.drafts false =
      [.leaf (.keyLiteral "items.size" .notEqual (.integer 1)),
        .all [.leaf (.keyLiteral "items.size" .notEqual (.integer 1)),
          .leaf (.keyLiteral "rate" .greater (.integer 2))]] := rfl
  have answers : Interner.AnswersAlike Condition.Printable { nextIdentity := 0, known := [] }
      (smallItems.condition.drafts false) := by
    refine ⟨Condition.textDetermines_printable, within_of_empty _ rfl, ?_⟩
    rw [drafts]
    simp [Condition.Printable, Condition.AllPrintable, Comparison.Printable, Literal.Printable,
      size, rate]
  obtain ⟨positive, after, gave, same, _⟩ :=
    gives_drafted answers.determines smallItems rfl answers.members answers.within
  obtain ⟨without, _, _, _, again⟩ := (shape_positive smallItems _).2 _ _ _ answers gave
  refine ⟨positive, after, gave, without, ?_, ?_, again after .start, ?_⟩
  · rw [same]
    rfl
  · rw [same]
    rfl
  · exact ((shape_positive _ after).1 _).2 ⟨_, rfl, rfl⟩

end SharedCondition

end FactRules
