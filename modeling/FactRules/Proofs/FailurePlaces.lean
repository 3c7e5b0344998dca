import FactRules.Proofs.Polarity

/-!
Where evaluation fails. Along a path that meets no list before its end there is one value to be
compared, so a comparison and its negation fail alike; and as AND and OR take each other's place, the
terms are asked in the same order, up to the same one. What `positive` gives fails as the condition
does, at the same comparison.
-/

namespace FactRules

variable {σ : Type}

/-- The same error, but for the negation of the operator that has found no order. -/
inductive EvalError.Like : EvalError → EvalError → Prop where
  | same (error : EvalError) : Like error error
  | negated {operator negation : Operator} (negates : operator.negation? = some negation)
      (left right : String) :
      Like (.notComparable left operator right) (.notComparable left negation right)

/-- Two runs that leave the same state. Both have an answer, the second the opposite one when
`inverted`, or both fail, with related errors. -/
inductive Matches {ε : Type} (related : ε → ε → Prop) (inverted : Bool) :
    Except ε Bool × σ → Except ε Bool × σ → Prop where
  | answer (answer : Bool) (after : σ) :
      Matches related inverted (.ok answer, after) (.ok (answer ^^ inverted), after)
  | failure {left right : ε} (alike : related left right) (after : σ) :
      Matches related inverted (.error left, after) (.error right, after)

namespace Matches

variable {ε : Type} {related : ε → ε → Prop} {inverted : Bool}

theorem refl (reflexive : ∀ error, related error error) (ran : Except ε Bool × σ) :
    Matches related false ran ran := by
  obtain ⟨error | answer, after⟩ := ran
  · exact .failure (reflexive error) after
  · have matched : Matches related false (.ok answer, after) (.ok (answer ^^ false), after) :=
      .answer answer after
    rwa [Bool.xor_false] at matched

theorem bind {α : Type} (reflexive : ∀ error, related error error)
    {work : ExceptT ε (StateM σ) α} {next following : α → ExceptT ε (StateM σ) Bool} {state : σ}
    (later : ∀ value after, work state = (.ok value, after) →
      Matches related inverted (next value after) (following value after)) :
    Matches related inverted ((work >>= next) state) ((work >>= following) state) := by
  rw [bind_apply, bind_apply]
  cases ran : work state with
  | mk outcome after =>
      cases outcome with
      | error error => exact .failure (reflexive error) after
      | ok value => exact later value after ran

end Matches

namespace Value

def Straight : Value → List String → Prop
  | _, [] => True
  | value, name :: path =>
      (∀ items, value ≠ .list items) ∧ ∀ found, value.read name = .ok found → Straight found path

theorem satisfiesAlong_of_straight {operator : Operator} {expected value : Value}
    {path : List String} (straight : value.Straight path) :
    satisfiesAlong operator expected value path =
      value.follow path >>= fun reached => reached.satisfies operator expected := by
  fun_induction satisfiesAlong operator expected value path with
  | case1 value => rfl
  | case2 items name path => exact absurd rfl (straight.1 items)
  | case3 value name path _ ih =>
      rw [follow, List.foldlM_cons, bind_assoc]
      cases read : value.read name with
      | error error => rfl
      | ok found => exact ih found (straight.2 found read)

theorem matches_satisfies {operator negation : Operator}
    (negates : operator.negation? = some negation) (left right : Value) (state : σ) :
    Matches EvalError.Like true ((Reading.lift (left.satisfies operator right) : Reading σ Bool) state)
      ((Reading.lift (left.satisfies negation right) : Reading σ Bool) state) := by
  rcases satisfies_negation negates left right with ⟨answer, own, other⟩ | ⟨own, other⟩
  · rw [own, other, ← Bool.xor_true]
    exact .answer answer state
  · rw [own, other]
    exact .failure (.negated negates _ _) state

end Value

namespace Comparison

def StraightOn (source : Source σ) : Comparison → Prop
  | .keyLiteral key _ _ => ∀ state first after,
      source.read (Text.firstPiece '.' key) state = (.ok first, after) →
      first.Straight (Text.laterPieces '.' key)
  | _ => True

theorem matches_negation {types : TypeTable} {source : Source σ} {comparison negation : Comparison}
    (negates : comparison.negation = .ok negation) (straight : comparison.StraightOn source)
    (state : σ) :
    Matches EvalError.Like true (comparison.evaluateFrom types source state)
      (negation.evaluateFrom types source state) := by
  obtain ⟨opposite, negatesOperator, rfl⟩ := exists_of_negation negates
  cases comparison with
  | keyLiteral key operator literal =>
      refine Matches.bind .same fun expected between _ => ?_
      refine Matches.bind .same fun first after read => ?_
      have path := straight _ _ _ read
      rw [Value.satisfiesAlong_of_straight path, Value.satisfiesAlong_of_straight path]
      cases first.follow (Text.laterPieces '.' key) with
      | error error => exact .failure (.same error) after
      | ok reached => exact Value.matches_satisfies negatesOperator reached expected after
  | keyKey leftKey operator rightKey =>
      refine Matches.bind .same fun left between _ => ?_
      refine Matches.bind .same fun right after _ => ?_
      exact Value.matches_satisfies negatesOperator left right after
  | literalLiteral leftLiteral operator rightLiteral =>
      refine Matches.bind .same fun left between _ => ?_
      refine Matches.bind .same fun right after _ => ?_
      exact Value.matches_satisfies negatesOperator left right after

end Comparison

abbrev Located (σ : Type) := ExceptT (Nat × EvalError) (StateM σ)

def Reading.placed (place : Nat) (reading : Reading σ Bool) : Located σ Bool := fun state =>
  ((reading state).1.mapError fun error => (place, error), (reading state).2)

def Located.plain (ran : Except (Nat × EvalError) Bool × σ) : Except EvalError Bool × σ :=
  (ran.1.mapError Prod.snd, ran.2)

def Located.Like (left right : Nat × EvalError) : Prop :=
  left.1 = right.1 ∧ left.2.Like right.2

theorem Located.like_self (failure : Nat × EvalError) : Located.Like failure failure :=
  ⟨rfl, .same failure.2⟩

theorem Matches.placed {inverted : Bool} {left right : Reading σ Bool} {state : σ}
    (matched : Matches EvalError.Like inverted (left state) (right state)) (place : Nat) :
    Matches Located.Like inverted (left.placed place state) (right.placed place state) := by
  unfold Reading.placed
  generalize left state = ran at matched ⊢
  generalize right state = other at matched ⊢
  cases matched with
  | answer answer after => exact .answer answer after
  | failure alike after => exact .failure ⟨rfl, alike⟩ after

namespace Condition

section

variable (types : TypeTable) (source : Source σ)

mutual

/-- Evaluation that tells where it fails. Comparisons are counted from the left, and the first of
the condition has this place. -/
def evaluateAt (place : Nat) : Condition → Located σ Bool
  | .leaf comparison => (comparison.evaluateFrom types source).placed place
  | .all terms => evaluateTermsAt .all place terms
  | .any terms => evaluateTermsAt .any place terms
  | .not inner => do
      let outcome ← evaluateAt place inner
      pure !outcome

def evaluateTermsAt (junction : Junction) (place : Nat) : List Condition → Located σ Bool
  | [] => pure !junction.decisive
  | term :: terms => do
      let answer ← evaluateAt place term
      if answer = junction.decisive then pure answer
      else evaluateTermsAt junction (place + term.leaves.length) terms

end

end

section

variable {types : TypeTable} {source : Source σ}

theorem evaluateAt_node (junction : Junction) (place : Nat) (terms : List Condition) :
    (junction.node terms).evaluateAt types source place =
      evaluateTermsAt types source junction place terms := by
  cases junction <;> rfl

theorem evaluateTermsAt_cons (junction : Junction) (place : Nat) (term : Condition)
    (terms : List Condition) (state : σ) :
    evaluateTermsAt types source junction place (term :: terms) state =
      match term.evaluateAt types source place state with
      | (.ok answer, after) =>
          if answer = junction.decisive then (.ok answer, after)
          else evaluateTermsAt types source junction (place + term.leaves.length) terms after
      | (.error failure, after) => (.error failure, after) := by
  rw [evaluateTermsAt, bind_apply]
  rcases term.evaluateAt types source place state with ⟨_ | answer, after⟩
  · rfl
  · by_cases decides : answer = junction.decisive
    · simp only [decides, if_true]
      rfl
    · simp only [decides, if_false]

mutual

theorem plain_evaluateAt : (condition : Condition) → (place : Nat) → (state : σ) →
    Located.plain (condition.evaluateAt types source place state) =
      condition.evaluateFrom types source state
  | .leaf comparison, place, state => by
      simp only [evaluateAt, evaluateFrom, Reading.placed, Located.plain]
      rcases comparison.evaluateFrom types source state with ⟨_ | answer, after⟩ <;> rfl
  | .all terms, place, state => by
      rw [evaluateAt]
      exact plain_evaluateTermsAt .all terms place state
  | .any terms, place, state => by
      rw [evaluateAt]
      exact plain_evaluateTermsAt .any terms place state
  | .not inner, place, state => by
      rw [evaluateAt, evaluateFrom, bind_apply, bind_apply, ← plain_evaluateAt inner place state]
      rcases inner.evaluateAt types source place state with ⟨_ | answer, after⟩ <;> rfl

theorem plain_evaluateTermsAt (junction : Junction) : (terms : List Condition) → (place : Nat) →
    (state : σ) →
    Located.plain (evaluateTermsAt types source junction place terms state) =
      junction.evaluate types source terms state
  | [], place, state => (junction.evaluate_nil types source state).symm
  | term :: terms, place, state => by
      rw [evaluateTermsAt_cons, junction.evaluate_cons, ← plain_evaluateAt term place state]
      rcases term.evaluateAt types source place state with ⟨_ | answer, after⟩
      · rfl
      · change Located.plain (if answer = junction.decisive then (.ok answer, after) else _) =
          if answer = junction.decisive then (.ok answer, after) else _
        split
        · rfl
        · exact plain_evaluateTermsAt junction terms _ after

end

def FailsAt (types : TypeTable) (source : Source σ) (leaves : List Comparison) (start : Nat)
    (failure : Nat × EvalError) (after : σ) : Prop :=
  ∃ front leaf back between, leaves = front ++ leaf :: back ∧ failure.1 = start + front.length ∧
    leaf.evaluateFrom types source between = (.error failure.2, after)

section

variable {leaves : List Comparison} {start : Nat} {failure : Nat × EvalError} {after : σ}

theorem FailsAt.append_right (fails : FailsAt types source leaves start failure after)
    (later : List Comparison) : FailsAt types source (leaves ++ later) start failure after := by
  obtain ⟨front, leaf, back, between, rfl, place, failed⟩ := fails
  exact ⟨front, leaf, back ++ later, between, by simp, place, failed⟩

theorem FailsAt.append_left {earlier : List Comparison}
    (fails : FailsAt types source leaves (start + earlier.length) failure after) :
    FailsAt types source (earlier ++ leaves) start failure after := by
  obtain ⟨front, leaf, back, between, rfl, place, failed⟩ := fails
  refine ⟨earlier ++ front, leaf, back, between, by simp, ?_, failed⟩
  rw [place, List.length_append, Nat.add_assoc]

end

mutual

theorem failsAt_of_evaluateAt : (condition : Condition) → {place : Nat} → {state after : σ} →
    {failure : Nat × EvalError} →
    condition.evaluateAt types source place state = (.error failure, after) →
    FailsAt types source condition.leaves place failure after
  | .leaf comparison, place, state, after, failure, failed => by
      simp only [evaluateAt, Reading.placed] at failed
      rcases ran : comparison.evaluateFrom types source state with ⟨error | answer, final⟩
      · rw [ran] at failed
        cases failed
        exact ⟨[], comparison, [], state, rfl, rfl, ran⟩
      · rw [ran] at failed
        cases failed
  | .all terms, _, _, _, _, failed => failsAt_of_evaluateTermsAt .all terms failed
  | .any terms, _, _, _, _, failed => failsAt_of_evaluateTermsAt .any terms failed
  | .not inner, place, state, after, failure, failed => by
      rw [evaluateAt, bind_apply] at failed
      rcases ran : inner.evaluateAt types source place state with ⟨own | answer, final⟩
      · rw [ran] at failed
        cases failed
        exact failsAt_of_evaluateAt inner ran
      · rw [ran] at failed
        cases failed

theorem failsAt_of_evaluateTermsAt (junction : Junction) : (terms : List Condition) →
    {place : Nat} → {state after : σ} → {failure : Nat × EvalError} →
    evaluateTermsAt types source junction place terms state = (.error failure, after) →
    FailsAt types source (termLeaves terms) place failure after
  | [], _, _, _, _, failed => nomatch failed
  | term :: terms, place, state, after, failure, failed => by
      rw [evaluateTermsAt_cons] at failed
      rw [termLeaves]
      rcases ran : term.evaluateAt types source place state with ⟨own | answer, between⟩
      · rw [ran] at failed
        cases failed
        exact (failsAt_of_evaluateAt term ran).append_right _
      · simp only [ran] at failed
        split at failed
        · cases failed
        · exact (failsAt_of_evaluateTermsAt junction terms failed).append_left

end

/-- Where a comparison is negated, its path meets no list before its end. -/
def Straight (source : Source σ) (comparisons : List (Comparison × Bool)) : Prop :=
  ∀ comparison, (comparison, true) ∈ comparisons → comparison.StraightOn source

theorem length_leaves_of_pushed {inverted : Bool} {condition form : Condition}
    (pushes : condition.pushed inverted = .ok form) :
    form.leaves.length = condition.leaves.length := by
  rw [leaves_eq_map_comparisons inverted condition, List.length_map]
  exact (turns_of_pushed pushes).length_eq.symm

mutual

theorem matches_pushed {inverted : Bool} : (condition : Condition) → {form : Condition} →
    condition.pushed inverted = .ok form → Straight source (condition.comparisons inverted) →
    (place : Nat) → (state : σ) →
    Matches Located.Like inverted (condition.evaluateAt types source place state)
      (form.evaluateAt types source place state)
  | .leaf comparison, form, pushes, straight, place, state => by
      cases inverted with
      | false =>
          cases pushes
          exact Matches.refl Located.like_self _
      | true =>
          obtain ⟨negation, negates, rfl⟩ := map_eq_ok_iff.1 pushes
          have own := straight _ List.mem_cons_self
          exact (Comparison.matches_negation negates own state).placed place
  | .all terms, form, pushes, straight, place, state => by
      obtain ⟨forms, pushesTerms, rfl⟩ := map_eq_ok_iff.1 pushes
      rw [evaluateAt_node]
      exact matches_pushedTerms .all terms pushesTerms straight place state
  | .any terms, form, pushes, straight, place, state => by
      obtain ⟨forms, pushesTerms, rfl⟩ := map_eq_ok_iff.1 pushes
      rw [evaluateAt_node]
      exact matches_pushedTerms .any terms pushesTerms straight place state
  | .not inner, form, pushes, straight, place, state => by
      have matched := matches_pushed inner pushes straight place state
      rw [evaluateAt, bind_apply]
      generalize inner.evaluateAt types source place state = ran at matched ⊢
      generalize form.evaluateAt types source place state = other at matched ⊢
      cases matched with
      | answer own after =>
          rw [Bool.xor_not, ← Bool.not_xor]
          exact .answer (!own) after
      | failure alike after => exact .failure alike after

theorem matches_pushedTerms {inverted : Bool} (junction : Junction) : (terms : List Condition) →
    {forms : List Condition} → pushedTerms inverted terms = .ok forms →
    Straight source (termComparisons inverted terms) → (place : Nat) → (state : σ) →
    Matches Located.Like inverted (evaluateTermsAt types source junction place terms state)
      (evaluateTermsAt types source (junction.turned inverted) place forms state)
  | [], forms, pushes, _, place, state => by
      cases pushes
      have matched : Matches Located.Like inverted (.ok !junction.decisive, state)
          (.ok ((!junction.decisive) ^^ inverted), state) := .answer _ state
      rw [Bool.not_xor, ← junction.decisive_turned] at matched
      exact matched
  | term :: terms, forms, pushes, straight, place, state => by
      obtain ⟨form, later, pushesTerm, pushesLater, rfl⟩ := pushedTerms_cons_eq_ok pushes
      have straightTerm : Straight source (term.comparisons inverted) :=
        fun comparison member => straight comparison (List.mem_append_left _ member)
      have straightLater : Straight source (termComparisons inverted terms) :=
        fun comparison member => straight comparison (List.mem_append_right _ member)
      have matched := matches_pushed term pushesTerm straightTerm place state
      rw [evaluateTermsAt_cons, evaluateTermsAt_cons, length_leaves_of_pushed pushesTerm]
      generalize term.evaluateAt types source place state = ran at matched ⊢
      generalize form.evaluateAt types source place state = other at matched ⊢
      cases matched with
      | failure alike after => exact .failure alike after
      | answer own after =>
          simp only [junction.eq_decisive_turned]
          split
          · exact .answer own after
          · exact matches_pushedTerms junction terms pushesLater straightLater _ after

end

end

end Condition

theorem Matches.plain {inverted : Bool} {left right : Except (Nat × EvalError) Bool × σ}
    (matched : Matches Located.Like inverted left right) :
    Matches EvalError.Like inverted (Located.plain left) (Located.plain right) := by
  cases matched with
  | answer answer after => exact .answer answer after
  | failure alike after => exact .failure alike.2 after

namespace SharedCondition

/-- On anything on which the paths of negated comparisons meet no list before their end, what
`positive` gives has the answer of the condition, or fails as it does and at the same comparison. -/
theorem failures_positive {family : Condition → Prop} {interner after : Interner}
    {shared positive : SharedCondition}
    (answers : interner.AnswersAlike family (shared.condition.drafts false))
    (gave : shared.positive interner = (.ok positive, after)) {types : TypeTable}
    {source : Source σ} (straight : Condition.Straight source (shared.condition.comparisons false))
    (state : σ) :
    Matches EvalError.Like false (shared.condition.evaluateFrom types source state)
      (positive.condition.evaluateFrom types source state) ∧
    ∀ failure final,
      shared.condition.evaluateAt types source 0 state = (.error failure, final) →
      ∃ other, positive.condition.evaluateAt types source 0 state = (.error other, final) ∧
        Located.Like failure other ∧
        Condition.FailsAt types source shared.condition.leaves 0 failure final ∧
        Condition.FailsAt types source positive.condition.leaves 0 other final := by
  obtain ⟨pushes, _⟩ := pushes_of_positive answers gave
  have matched : Matches Located.Like false (shared.condition.evaluateAt types source 0 state)
      (positive.condition.evaluateAt types source 0 state) :=
    Condition.matches_pushed _ pushes straight 0 state
  constructor
  · rw [← Condition.plain_evaluateAt _ 0, ← Condition.plain_evaluateAt _ 0]
    exact matched.plain
  · intro failure final failed
    have fails := Condition.failsAt_of_evaluateAt _ failed
    rw [failed] at matched
    generalize ran : positive.condition.evaluateAt types source 0 state = other at matched
    cases matched with
    | failure alike => exact ⟨_, rfl, alike, fails, Condition.failsAt_of_evaluateAt _ ran⟩

def unordered : SharedCondition :=
  .not 0 (.all 1 [.leaf 2 (.keyLiteral "low.rate" .greater (.string "a")),
    .leaf 3 (.keyLiteral "rate" .equal (.integer 1))])

def lowRate : Value :=
  .map [("low", .map [("rate", .int 3)])]

theorem straight_lowRate : Condition.Straight (lowRate.source : Source Unit)
    (unordered.condition.comparisons false) := by
  intro comparison member
  have isNested : comparison = .keyLiteral "low.rate" .greater (.string "a") ∨
      comparison = .keyLiteral "rate" .equal (.integer 1) := by
    simpa [unordered, condition, conditions, Condition.comparisons, Condition.termComparisons]
      using member
  rcases isNested with rfl | rfl
  · rintro state first after read
    cases read
    refine ⟨nofun, fun _ _ => trivial⟩
  · rintro state first after read
    cases read

theorem failures_positive_lowRate : ∃ positive after error,
    unordered.positive { nextIdentity := 0, known := [] } = (.ok positive, after) ∧
    positive.condition.evaluateFrom TypeTable.standard lowRate.source () = (.error error, ()) ∧
    EvalError.Like (.notComparable "Integer" .greater "String") error := by
  have nested : IsKey "low.rate" := ⟨(Token.Scanned.step rfl rfl (.nil rfl)).scan_eq, rfl⟩
  have rate : IsKey "rate" := ⟨(Token.Scanned.step rfl rfl (.nil rfl)).scan_eq, rfl⟩
  have drafts : unordered.condition.drafts false =
      [.leaf (.keyLiteral "low.rate" .lessOrEqual (.string "a")),
        .leaf (.keyLiteral "rate" .notEqual (.integer 1)),
        .any [.leaf (.keyLiteral "low.rate" .lessOrEqual (.string "a")),
          .leaf (.keyLiteral "rate" .notEqual (.integer 1))]] := rfl
  have answers : Interner.AnswersAlike Condition.Printable { nextIdentity := 0, known := [] }
      (unordered.condition.drafts false) := by
    refine ⟨Condition.textDetermines_printable, Interner.within_of_empty _ rfl, ?_⟩
    rw [drafts]
    simp [Condition.Printable, Condition.AllPrintable, Comparison.Printable, Literal.Printable,
      nested, rate]
  obtain ⟨positive, after, gave, _⟩ :=
    gives_drafted answers.determines unordered rfl answers.members answers.within
  have matched : Matches EvalError.Like false
      (unordered.condition.evaluateFrom TypeTable.standard lowRate.source ())
      (positive.condition.evaluateFrom TypeTable.standard lowRate.source ()) :=
    (failures_positive answers gave straight_lowRate ()).1
  have failed : unordered.condition.evaluateFrom TypeTable.standard lowRate.source () =
      (.error (.notComparable "Integer" .greater "String"), ()) := rfl
  rw [failed] at matched
  generalize ran : positive.condition.evaluateFrom TypeTable.standard lowRate.source () = other
    at matched
  cases matched with
  | failure alike => exact ⟨positive, after, _, gave, ran, alike⟩

end SharedCondition

end FactRules
