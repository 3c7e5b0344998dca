import FactRules.Condition.Evaluation
import FactRules.Proofs.Junction
import FactRules.Proofs.Paths
import FactRules.Proofs.Sharing

/-!
Conditions without NOT. Negation is pushed down to the operators, and AND and OR take each other's
place on the way. What is shared in the end is the tree that this gives, and it holds where the
condition holds if the comparisons whose operators are negated are unanimous.
-/

namespace FactRules

variable {σ : Type}

namespace Junction

def turned : Junction → Bool → Junction
  | .all, true => .any
  | .any, true => .all
  | junction, false => junction

def shared : Junction → Nat → List SharedCondition → SharedCondition
  | .all => .all
  | .any => .any

/-- The answer of a term after which no other is asked. -/
def decisive : Junction → Bool
  | .all => false
  | .any => true

def evaluate (types : TypeTable) (source : Source σ) : Junction → List Condition → Reading σ Bool
  | .all => Condition.evaluateAll types source
  | .any => Condition.evaluateAny types source

section

variable (junction : Junction)

theorem turned_false : junction.turned false = junction := by
  cases junction <;> rfl

theorem decisive_turned (inverted : Bool) :
    (junction.turned inverted).decisive = (junction.decisive ^^ inverted) := by
  cases junction <;> cases inverted <;> rfl

theorem eq_decisive_turned (inverted answer : Bool) :
    (answer ^^ inverted) = (junction.turned inverted).decisive ↔ answer = junction.decisive := by
  rw [junction.decisive_turned, Bool.xor_left_inj]

theorem condition_shared (identity : Nat) (terms : List SharedCondition) :
    (junction.shared identity terms).condition =
      junction.node (SharedCondition.conditions terms) := by
  cases junction <;> rfl

theorem pushed_shared (inverted : Bool) (identity : Nat) (terms : List SharedCondition) :
    (junction.shared identity terms).pushed inverted =
      SharedCondition.pushedTerms inverted terms >>= fun pushed =>
        liftM (Interner.intern ((junction.turned inverted).shared 0 pushed)) := by
  cases junction <;> cases inverted <;> rfl

theorem walk_node (terms : List Condition) :
    (junction.node terms).walk = Condition.walkTerms terms ++ [junction.node terms] := by
  cases junction <;> rfl

theorem evaluate_node (types : TypeTable) (source : Source σ) (terms : List Condition) :
    (junction.node terms).evaluateFrom types source = junction.evaluate types source terms := by
  cases junction <;> rfl

theorem evaluate_nil (types : TypeTable) (source : Source σ) (state : σ) :
    junction.evaluate types source [] state = (.ok !junction.decisive, state) := by
  cases junction <;> rfl

theorem evaluate_cons (types : TypeTable) (source : Source σ) (term : Condition)
    (terms : List Condition) (state : σ) :
    junction.evaluate types source (term :: terms) state =
      match term.evaluateFrom types source state with
      | (.ok answer, after) =>
          if answer = junction.decisive then (.ok answer, after)
          else junction.evaluate types source terms after
      | (.error error, after) => (.error error, after) := by
  cases junction with
  | all =>
      change Condition.evaluateAll types source (term :: terms) state = _
      rw [Condition.evaluateAll, bind_apply]
      rcases term.evaluateFrom types source state with ⟨_ | (_ | _), after⟩ <;> rfl
  | any =>
      change Condition.evaluateAny types source (term :: terms) state = _
      rw [Condition.evaluateAny, bind_apply]
      rcases term.evaluateFrom types source state with ⟨_ | (_ | _), after⟩ <;> rfl

theorem evaluate_single (types : TypeTable) (source : Source σ) (term : Condition) :
    junction.evaluate types source [term] = term.evaluateFrom types source := by
  funext state
  rw [junction.evaluate_cons]
  rcases term.evaluateFrom types source state with ⟨error | answer, after⟩
  · rfl
  · by_cases decides : answer = junction.decisive
    · exact if_pos decides
    · have other : (!junction.decisive) = answer := (Bool.eq_not.2 decides).symm
      simp only [if_neg decides, junction.evaluate_nil, other]

end

end Junction

theorem Reading.lift_eq_ok_iff {α : Type} {outcome : Except EvalError α} {state after : σ}
    {value : α} :
    (Reading.lift outcome : Reading σ α) state = (.ok value, after) ↔
      outcome = .ok value ∧ state = after :=
  Iff.of_eq (Prod.mk.injEq _ _ _ _)

namespace Comparison

theorem exists_of_negation {comparison negation : Comparison}
    (negates : comparison.negation = .ok negation) :
    ∃ operator, comparison.operator.negation? = some operator ∧
      negation = comparison.withOperator operator := by
  unfold Comparison.negation at negates
  split at negates
  · next operator found =>
      cases negates
      exact ⟨operator, found, rfl⟩
  · cases negates

theorem Printable.negation {comparison negation : Comparison} (printable : comparison.Printable)
    (negates : comparison.negation = .ok negation) : negation.Printable := by
  obtain ⟨operator, _, rfl⟩ := exists_of_negation negates
  cases comparison <;> exact printable

/-- Wherever the comparison along the key path has an answer, all that the path leads to gives it,
and there is something that does. -/
def UnanimousOn (types : TypeTable) (source : Source σ) : Comparison → Prop
  | .keyLiteral key operator literal =>
      ∀ expected state first after answer, literal.resolve types = .ok expected →
        source.read (Text.firstPiece '.' key) state = (.ok first, after) →
        Value.satisfiesAlong operator expected first (Text.laterPieces '.' key) = .ok answer →
        Value.Unanimous operator expected first (Text.laterPieces '.' key) answer
  | _ => True

theorem evaluateFrom_negation {types : TypeTable} {source : Source σ}
    {comparison negation : Comparison} (negates : comparison.negation = .ok negation)
    (unanimous : comparison.UnanimousOn types source) {state after : σ} {answer : Bool}
    (evaluated : comparison.evaluateFrom types source state = (.ok answer, after)) :
    negation.evaluateFrom types source state = (.ok !answer, after) := by
  obtain ⟨opposite, negatesOperator, rfl⟩ := exists_of_negation negates
  cases comparison with
  | keyLiteral key operator literal =>
      obtain ⟨expected, _, resolved, evaluated⟩ := bind_eq_ok_iff.1 evaluated
      obtain ⟨first, _, read, compared⟩ := bind_eq_ok_iff.1 evaluated
      obtain ⟨resolves, rfl⟩ := Reading.lift_eq_ok_iff.1 resolved
      obtain ⟨satisfied, rfl⟩ := Reading.lift_eq_ok_iff.1 compared
      have agreed := unanimous expected _ first _ answer resolves read satisfied
      have opposed := (Value.satisfiesAlong_negation negatesOperator satisfied).2 agreed
      exact bind_eq_ok_iff.2 ⟨expected, _, resolved, bind_eq_ok_iff.2
        ⟨first, _, read, Reading.lift_eq_ok_iff.2 ⟨opposed, rfl⟩⟩⟩
  | keyKey leftKey operator rightKey =>
      obtain ⟨left, between, readLeft, evaluated⟩ := bind_eq_ok_iff.1 evaluated
      obtain ⟨right, _, readRight, compared⟩ := bind_eq_ok_iff.1 evaluated
      obtain ⟨satisfied, rfl⟩ := Reading.lift_eq_ok_iff.1 compared
      have opposed := (Value.satisfies_eq_ok_iff negatesOperator left right answer).1 satisfied
      exact bind_eq_ok_iff.2 ⟨left, between, readLeft, bind_eq_ok_iff.2
        ⟨right, _, readRight, Reading.lift_eq_ok_iff.2 ⟨opposed, rfl⟩⟩⟩
  | literalLiteral leftLiteral operator rightLiteral =>
      obtain ⟨left, between, resolvedLeft, evaluated⟩ := bind_eq_ok_iff.1 evaluated
      obtain ⟨right, _, resolvedRight, compared⟩ := bind_eq_ok_iff.1 evaluated
      obtain ⟨satisfied, rfl⟩ := Reading.lift_eq_ok_iff.1 compared
      have opposed := (Value.satisfies_eq_ok_iff negatesOperator left right answer).1 satisfied
      exact bind_eq_ok_iff.2 ⟨left, between, resolvedLeft, bind_eq_ok_iff.2
        ⟨right, _, resolvedRight, Reading.lift_eq_ok_iff.2 ⟨opposed, rfl⟩⟩⟩

end Comparison

namespace Condition

mutual

def pushed (inverted : Bool) : Condition → Except EvalError Condition
  | .leaf comparison => if inverted then .leaf <$> comparison.negation else .ok (.leaf comparison)
  | .all terms => (Junction.all.turned inverted).node <$> pushedTerms inverted terms
  | .any terms => (Junction.any.turned inverted).node <$> pushedTerms inverted terms
  | .not inner => pushed (!inverted) inner

def pushedTerms (inverted : Bool) : List Condition → Except EvalError (List Condition)
  | [] => .ok []
  | term :: terms => do
      let term ← pushed inverted term
      let terms ← pushedTerms inverted terms
      .ok (term :: terms)

end

mutual

/-- The comparisons from left to right, each with whether the number of NOTs above it is odd, where
one more counts when `inverted`. -/
def comparisons (inverted : Bool) : Condition → List (Comparison × Bool)
  | .leaf comparison => [(comparison, inverted)]
  | .all terms => termComparisons inverted terms
  | .any terms => termComparisons inverted terms
  | .not inner => comparisons (!inverted) inner

def termComparisons (inverted : Bool) : List Condition → List (Comparison × Bool)
  | [] => []
  | term :: terms => comparisons inverted term ++ termComparisons inverted terms

end

mutual

/-- What is interned on the way to the condition without NOT, in order: comparisons that are negated,
and every AND and OR. -/
def drafts (inverted : Bool) : Condition → List Condition
  | .leaf comparison => if inverted then (pushed true (.leaf comparison)).toOption.toList else []
  | .all terms => termDrafts inverted terms ++ (pushed inverted (.all terms)).toOption.toList
  | .any terms => termDrafts inverted terms ++ (pushed inverted (.any terms)).toOption.toList
  | .not inner => drafts (!inverted) inner

def termDrafts (inverted : Bool) : List Condition → List Condition
  | [] => []
  | term :: terms => drafts inverted term ++ termDrafts inverted terms

end

theorem pushed_node (inverted : Bool) (junction : Junction) (terms : List Condition) :
    (junction.node terms).pushed inverted =
      (junction.turned inverted).node <$> pushedTerms inverted terms := by
  cases junction <;> rfl

theorem drafts_node {inverted : Bool} (junction : Junction) {terms forms : List Condition}
    (pushes : pushedTerms inverted terms = .ok forms) :
    (junction.node terms).drafts inverted =
      termDrafts inverted terms ++ [(junction.turned inverted).node forms] := by
  have gives := pushed_node inverted junction terms
  rw [pushes] at gives
  cases junction <;> exact congrArg (termDrafts inverted terms ++ ·.toOption.toList) gives

theorem pushedTerms_cons_eq_ok {inverted : Bool} {term : Condition} {terms forms : List Condition}
    (pushes : pushedTerms inverted (term :: terms) = .ok forms) :
    ∃ form later, pushed inverted term = .ok form ∧ pushedTerms inverted terms = .ok later ∧
      forms = form :: later := by
  rw [pushedTerms] at pushes
  cases first : pushed inverted term with
  | error error =>
      rw [first] at pushes
      cases pushes
  | ok form =>
      rw [first] at pushes
      cases rest : pushedTerms inverted terms with
      | error error =>
          rw [rest] at pushes
          cases pushes
      | ok later =>
          rw [rest] at pushes
          cases pushes
          exact ⟨form, later, rfl, rfl, rfl⟩

theorem node_drafts_subset_walk {inverted : Bool} (junction : Junction)
    {terms forms : List Condition} (pushes : pushedTerms inverted terms = .ok forms)
    (subset : termDrafts inverted terms ⊆ walkTerms forms) :
    (junction.node terms).drafts inverted ⊆ ((junction.turned inverted).node forms).walk := by
  rw [drafts_node junction pushes, Junction.walk_node]
  exact List.append_subset.2
    ⟨List.subset_append_of_subset_left _ subset, List.subset_append_right _ _⟩

mutual

theorem drafts_subset_walk {inverted : Bool} : (condition : Condition) → {form : Condition} →
    condition.pushed inverted = .ok form → condition.drafts inverted ⊆ form.walk
  | .leaf comparison, form, pushes => by
      cases inverted with
      | false => exact List.nil_subset _
      | true =>
          rw [drafts, if_pos rfl, pushes]
          obtain ⟨negation, _, rfl⟩ := map_eq_ok_iff.1 pushes
          exact List.Subset.refl _
  | .all terms, form, pushes => by
      obtain ⟨forms, pushesTerms, rfl⟩ := map_eq_ok_iff.1 pushes
      exact node_drafts_subset_walk .all pushesTerms (termDrafts_subset_walk terms pushesTerms)
  | .any terms, form, pushes => by
      obtain ⟨forms, pushesTerms, rfl⟩ := map_eq_ok_iff.1 pushes
      exact node_drafts_subset_walk .any pushesTerms (termDrafts_subset_walk terms pushesTerms)
  | .not inner, form, pushes => drafts_subset_walk inner pushes

theorem termDrafts_subset_walk {inverted : Bool} : (terms : List Condition) →
    {forms : List Condition} → pushedTerms inverted terms = .ok forms →
    termDrafts inverted terms ⊆ walkTerms forms
  | [], forms, pushes => List.nil_subset _
  | term :: terms, forms, pushes => by
      obtain ⟨form, later, pushesTerm, pushesLater, rfl⟩ := pushedTerms_cons_eq_ok pushes
      exact List.append_subset.2
        ⟨List.subset_append_of_subset_left _ (drafts_subset_walk term pushesTerm),
          List.subset_append_of_subset_right _ (termDrafts_subset_walk terms pushesLater)⟩

end

section

variable {types : TypeTable} {source : Source σ}

/-- Each comparison whose operator is negated is unanimous. -/
def Opposable (types : TypeTable) (source : Source σ) (comparisons : List (Comparison × Bool)) :
    Prop :=
  ∀ comparison, (comparison, true) ∈ comparisons → comparison.UnanimousOn types source

mutual

theorem evaluateFrom_pushed {inverted : Bool} : (condition : Condition) → {form : Condition} →
    condition.pushed inverted = .ok form →
    Opposable types source (condition.comparisons inverted) → {state after : σ} →
    {answer : Bool} → condition.evaluateFrom types source state = (.ok answer, after) →
    form.evaluateFrom types source state = (.ok (answer ^^ inverted), after)
  | .leaf comparison, form, pushes, opposable, state, after, answer, evaluated => by
      cases inverted with
      | false =>
          cases pushes
          rw [Bool.xor_false]
          exact evaluated
      | true =>
          obtain ⟨negation, negates, rfl⟩ := map_eq_ok_iff.1 pushes
          rw [Bool.xor_true]
          exact Comparison.evaluateFrom_negation negates (opposable _ List.mem_cons_self) evaluated
  | .all terms, form, pushes, opposable, state, after, answer, evaluated => by
      obtain ⟨forms, pushesTerms, rfl⟩ := map_eq_ok_iff.1 pushes
      rw [Junction.evaluate_node]
      exact evaluate_pushedTerms .all terms pushesTerms opposable evaluated
  | .any terms, form, pushes, opposable, state, after, answer, evaluated => by
      obtain ⟨forms, pushesTerms, rfl⟩ := map_eq_ok_iff.1 pushes
      rw [Junction.evaluate_node]
      exact evaluate_pushedTerms .any terms pushesTerms opposable evaluated
  | .not inner, form, pushes, opposable, state, after, answer, evaluated => by
      obtain ⟨own, between, evaluatedInner, same⟩ := bind_eq_ok_iff.1 evaluated
      cases same
      rw [evaluateFrom_pushed inner pushes opposable evaluatedInner]
      cases own <;> cases inverted <;> rfl

theorem evaluate_pushedTerms {inverted : Bool} (junction : Junction) : (terms : List Condition) →
    {forms : List Condition} → pushedTerms inverted terms = .ok forms →
    Opposable types source (termComparisons inverted terms) → {state after : σ} →
    {answer : Bool} → junction.evaluate types source terms state = (.ok answer, after) →
    (junction.turned inverted).evaluate types source forms state =
      (.ok (answer ^^ inverted), after)
  | [], forms, pushes, _, state, after, answer, evaluated => by
      cases pushes
      rw [junction.evaluate_nil] at evaluated
      cases evaluated
      rw [Junction.evaluate_nil, junction.decisive_turned, Bool.not_xor]
  | term :: terms, forms, pushes, opposable, state, after, answer, evaluated => by
      obtain ⟨form, later, pushesTerm, pushesLater, rfl⟩ := pushedTerms_cons_eq_ok pushes
      have opposableTerm : Opposable types source (term.comparisons inverted) :=
        fun comparison member => opposable comparison (List.mem_append_left _ member)
      have opposableLater : Opposable types source (termComparisons inverted terms) :=
        fun comparison member => opposable comparison (List.mem_append_right _ member)
      rw [Junction.evaluate_cons] at evaluated ⊢
      split at evaluated
      · next own between evaluatedTerm =>
          rw [evaluateFrom_pushed term pushesTerm opposableTerm evaluatedTerm]
          simp only [junction.eq_decisive_turned]
          split at evaluated
          · next decides =>
              cases evaluated
              rw [if_pos decides]
          · next goesOn =>
              rw [if_neg goesOn]
              exact evaluate_pushedTerms junction terms pushesLater opposableLater evaluated
      · cases evaluated

end

end

end Condition

inductive FailAlike {ε α β : Type} : Except ε α → Except ε β → Prop where
  | ok (left : α) (right : β) : FailAlike (.ok left) (.ok right)
  | error (error : ε) : FailAlike (.error error) (.error error)

theorem FailAlike.eq_error_iff {ε α β : Type} {left : Except ε α} {right : Except ε β}
    (alike : FailAlike left right) (error : ε) : left = .error error ↔ right = .error error := by
  cases alike with
  | ok left right => exact iff_of_false nofun nofun
  | error own => exact ⟨fun failed => congrArg Except.error (Except.error.inj failed),
      fun failed => congrArg Except.error (Except.error.inj failed)⟩

theorem FailAlike.bind {ε α β γ δ : Type} {work : Sharing ε α} {next : α → Sharing ε β}
    {outcome : Except ε γ} {following : γ → Except ε δ} {interner : Interner}
    (first : FailAlike (work interner).1 outcome)
    (later : ∀ value found after, FailAlike (next value after).1 (following found)) :
    FailAlike ((work >>= next) interner).1 (outcome >>= following) := by
  rw [bind_apply]
  generalize work interner = ran at first ⊢
  obtain ⟨result, after⟩ := ran
  cases first with
  | ok value found => exact later value found after
  | error error => exact .error error

namespace SharedCondition

open Interner

mutual

theorem failAlike_pushed (inverted : Bool) : (shared : SharedCondition) → (interner : Interner) →
    FailAlike (shared.pushed inverted interner).1 (shared.condition.pushed inverted)
  | .leaf identity comparison, interner => by
      cases inverted with
      | false => exact .ok _ _
      | true =>
          rw [condition, Condition.pushed, pushed]
          cases comparison.negation with
          | ok negation => exact .ok _ _
          | error error => exact .error error
  | .all identity terms, interner => by
      have alike := failAlike_pushedTerms inverted terms interner
      exact alike.bind fun _ _ _ => by
        cases inverted <;> exact .ok _ _
  | .any identity terms, interner => by
      have alike := failAlike_pushedTerms inverted terms interner
      exact alike.bind fun _ _ _ => by
        cases inverted <;> exact .ok _ _
  | .not identity inner, interner => failAlike_pushed (!inverted) inner interner

theorem failAlike_pushedTerms (inverted : Bool) : (terms : List SharedCondition) →
    (interner : Interner) →
    FailAlike (pushedTerms inverted terms interner).1
      (Condition.pushedTerms inverted (conditions terms))
  | [], _ => .ok _ _
  | term :: terms, interner =>
      (failAlike_pushed inverted term interner).bind fun _ _ after =>
        (failAlike_pushedTerms inverted terms after).bind fun _ _ _ => .ok _ _

end

theorem exists_pushed_of_positive {shared positive : SharedCondition} {interner after : Interner}
    (gave : shared.positive interner = (.ok positive, after)) :
    ∃ form, shared.condition.pushed false = .ok form := by
  have alike := failAlike_pushed false shared interner
  have ran : shared.pushed false interner = (.ok positive, after) := gave
  rw [ran] at alike
  cases pushes : shared.condition.pushed false with
  | error error =>
      rw [pushes] at alike
      cases alike
  | ok form => exact ⟨form, rfl⟩

section

variable {family : Condition → Prop}

def Gives {α β : Type} (family : Condition → Prop) (tree : α → β) (work : Sharing EvalError α)
    (expected : β) (interner : Interner) : Prop :=
  ∃ value after, work interner = (.ok value, after) ∧ tree value = expected ∧ after.Within family

theorem gives_node (determines : Condition.TextDetermines family) {inverted : Bool}
    (junction : Junction) (identity : Nat) {terms : List SharedCondition} {interner : Interner}
    (given : ∀ {forms}, Condition.pushedTerms inverted (conditions terms) = .ok forms →
      (∀ draft ∈ Condition.termDrafts inverted (conditions terms), family draft) →
      Gives family conditions (pushedTerms inverted terms) forms interner)
    {form : Condition} (pushes : (junction.turned inverted).node <$>
      Condition.pushedTerms inverted (conditions terms) = .ok form)
    (members : ∀ draft ∈ (junction.node (conditions terms)).drafts inverted, family draft) :
    Gives family condition ((junction.shared identity terms).pushed inverted) form interner := by
  obtain ⟨forms, pushesTerms, rfl⟩ := map_eq_ok_iff.1 pushes
  rw [Condition.drafts_node junction pushesTerms, List.forall_mem_append] at members
  obtain ⟨pushed, between, ran, rfl, within⟩ := given pushesTerms members.1
  have member := members.2 _ List.mem_cons_self
  rw [← Junction.condition_shared _ 0] at member ⊢
  have alike := within.condition_intern determines member
  rw [junction.pushed_shared]
  exact ⟨_, _, bind_eq_ok_iff.2 ⟨pushed, between, ran, rfl⟩, alike, within.intern member⟩

mutual

theorem gives_drafted (determines : Condition.TextDetermines family) {inverted : Bool} :
    (shared : SharedCondition) → {form : Condition} →
    shared.condition.pushed inverted = .ok form →
    (∀ draft ∈ shared.condition.drafts inverted, family draft) →
    {interner : Interner} → interner.Within family →
    Gives family condition (shared.pushed inverted) form interner
  | .leaf identity comparison, form, pushes, members, interner, within => by
      cases inverted with
      | false =>
          cases pushes
          exact ⟨_, _, rfl, rfl, within⟩
      | true =>
          rw [condition, Condition.drafts, if_pos rfl, ← condition, pushes] at members
          obtain ⟨negation, negates, rfl⟩ := map_eq_ok_iff.1 pushes
          have member : family (SharedCondition.leaf 0 negation).condition :=
            members _ List.mem_cons_self
          have ran : (SharedCondition.leaf identity comparison).pushed true =
              liftM (internLeaf negation) := by
            simp only [pushed, negates]
            rfl
          rw [ran]
          exact ⟨_, _, rfl, within.condition_intern determines member, within.intern member⟩
  | .all identity terms, _, pushes, members, _, within =>
      gives_node determines .all identity
        (fun pushesTerms earlier => gives_draftedTerms determines terms pushesTerms earlier within)
        pushes members
  | .any identity terms, _, pushes, members, _, within =>
      gives_node determines .any identity
        (fun pushesTerms earlier => gives_draftedTerms determines terms pushesTerms earlier within)
        pushes members
  | .not _ inner, _, pushes, members, _, within =>
      gives_drafted determines inner pushes members within

theorem gives_draftedTerms (determines : Condition.TextDetermines family) {inverted : Bool} :
    (terms : List SharedCondition) → {forms : List Condition} →
    Condition.pushedTerms inverted (conditions terms) = .ok forms →
    (∀ draft ∈ Condition.termDrafts inverted (conditions terms), family draft) →
    {interner : Interner} → interner.Within family →
    Gives family conditions (pushedTerms inverted terms) forms interner
  | [], forms, pushes, members, interner, within => by
      cases pushes
      exact ⟨_, _, rfl, rfl, within⟩
  | term :: terms, _, pushes, members, interner, within => by
      obtain ⟨form, later, pushesTerm, pushesLater, rfl⟩ := Condition.pushedTerms_cons_eq_ok pushes
      rw [conditions, Condition.termDrafts, List.forall_mem_append] at members
      obtain ⟨first, between, ran, rfl, stillWithin⟩ :=
        gives_drafted determines term pushesTerm members.1 within
      obtain ⟨others, after, ranLater, rfl, finallyWithin⟩ :=
        gives_draftedTerms determines terms pushesLater members.2 stillWithin
      refine ⟨first :: others, after, ?_, rfl, finallyWithin⟩
      rw [pushedTerms]
      exact bind_eq_ok_iff.2 ⟨first, between, ran, bind_eq_ok_iff.2 ⟨others, after, ranLater, rfl⟩⟩

end

theorem gives_pushed (determines : Condition.TextDetermines family) {inverted : Bool}
    (shared : SharedCondition) {form : Condition}
    (pushes : shared.condition.pushed inverted = .ok form) (members : ∀ node ∈ form.walk, family node)
    {interner : Interner} (within : interner.Within family) :
    Gives family condition (shared.pushed inverted) form interner :=
  gives_drafted determines shared pushes
    (fun draft drafted => members draft (Condition.drafts_subset_walk _ pushes drafted)) within

/-- What `positive` gives holds exactly where the condition does, on anything that attributes can be
read from, if the comparisons whose operators are negated are unanimous there. -/
theorem evaluateFrom_positive (determines : Condition.TextDetermines family)
    {shared positive : SharedCondition} {interner after : Interner}
    (within : interner.Within family) (gave : shared.positive interner = (.ok positive, after))
    (members : ∀ form, shared.condition.pushed false = .ok form → ∀ node ∈ form.walk, family node)
    {types : TypeTable} {source : Source σ}
    (opposable : Condition.Opposable types source (shared.condition.comparisons false))
    {state final : σ} {answer : Bool}
    (evaluated : shared.condition.evaluateFrom types source state = (.ok answer, final)) :
    positive.condition.evaluateFrom types source state = (.ok answer, final) := by
  have alike := failAlike_pushed false shared interner
  have ran : shared.pushed false interner = (.ok positive, after) := gave
  cases pushes : shared.condition.pushed false with
  | error error =>
      rw [ran, pushes] at alike
      cases alike
  | ok form =>
      obtain ⟨given, _, gives, same, _⟩ :=
        gives_pushed determines shared pushes (members form pushes) within
      rw [ran] at gives
      cases gives
      rw [same, Condition.evaluateFrom_pushed _ pushes opposable evaluated, Bool.xor_false]

def smallItems : SharedCondition :=
  .not 0 (.any 0 [.leaf 0 (.keyLiteral "items.size" .equal (.integer 1)),
    .not 0 (.leaf 0 (.keyLiteral "rate" .greater (.integer 2)))])

def twoItems : Value :=
  .map [("items", .list [.map [("size", .int 2)], .map [("size", .int 3)]]), ("rate", .int 3)]

theorem opposable_twoItems : Condition.Opposable TypeTable.standard
    (twoItems.source : Source Unit) (smallItems.condition.comparisons false) := by
  intro comparison member
  have isSize : comparison = .keyLiteral "items.size" .equal (.integer 1) := by
    simpa [smallItems, condition, conditions, Condition.comparisons, Condition.termComparisons]
      using member
  rw [isSize]
  intro expected state first after answer resolves read satisfied
  cases resolves
  cases read
  cases satisfied
  have sizes : Value.reachedAlong (.list [.map [("size", .int 2)], .map [("size", .int 3)]])
      (Text.laterPieces '.' "items.size") = [.ok (.int 2), .ok (.int 3)] := rfl
  refine ⟨sizes ▸ List.cons_ne_nil _ _, ?_⟩
  rw [sizes]
  rintro reached found
  rcases List.mem_cons.1 found with rfl | later
  · rfl
  · rw [List.mem_singleton.1 later]
    rfl

theorem evaluateFrom_positive_items : ∃ positive after,
    smallItems.positive { nextIdentity := 0, known := [] } = (.ok positive, after) ∧
    positive.condition.evaluateFrom TypeTable.standard twoItems.source () = (.ok true, ()) := by
  have size : IsKey "items.size" := ⟨(Token.Scanned.step rfl rfl (.nil rfl)).scan_eq, rfl⟩
  have rate : IsKey "rate" := ⟨(Token.Scanned.step rfl rfl (.nil rfl)).scan_eq, rfl⟩
  have pushes : smallItems.condition.pushed false =
      .ok (.all [.leaf (.keyLiteral "items.size" .notEqual (.integer 1)),
        .leaf (.keyLiteral "rate" .greater (.integer 2))]) := rfl
  have members : ∀ form, smallItems.condition.pushed false = .ok form →
      ∀ node ∈ form.walk, node.Printable := by
    rintro form same
    cases pushes.symm.trans same
    simp [Condition.walk, Condition.walkTerms, Condition.Printable, Condition.AllPrintable,
      Comparison.Printable, Literal.Printable, size, rate]
  have within : ({ nextIdentity := 0, known := [] } : Interner).Within Condition.Printable :=
    within_of_empty _ rfl
  obtain ⟨positive, after, gave, _⟩ := gives_pushed Condition.textDetermines_printable smallItems
    pushes (members _ pushes) within
  exact ⟨positive, after, gave, evaluateFrom_positive Condition.textDetermines_printable within
    gave members opposable_twoItems rfl⟩

end

end SharedCondition

end FactRules
