import FactRules.Value.Path

/-!
What lies at the end of a key path. A list that is met before the end leads to what its items lead
to, so that there may be several values or none. A comparison along the path is the opposite of the
negated one where all of them answer alike and there is one to answer.
-/

namespace FactRules

section

variable {ε α β : Type}

theorem allM_single (question : α → Except ε Bool) (item : α) :
    [item].allM question = question item := by
  rw [List.allM]
  cases question item with
  | error error => rfl
  | ok answer => cases answer <;> rfl

theorem allM_append (question : α → Except ε Bool) (front back : List α) :
    (front ++ back).allM question = (do
      match ← front.allM question with
      | true => back.allM question
      | false => pure false) := by
  induction front with
  | nil => rfl
  | cons first front ih =>
      rw [List.cons_append, List.allM, List.allM, ih]
      cases question first with
      | error error => rfl
      | ok answer => cases answer <;> rfl

theorem allM_flatMap (question : β → Except ε Bool) (parts : α → List β) (items : List α) :
    (items.flatMap parts).allM question = items.allM fun item => (parts item).allM question := by
  induction items with
  | nil => rfl
  | cons item items ih =>
      rw [List.flatMap_cons, allM_append, ih, List.allM]
      rfl

theorem allM_cons_of_true {question : α → Except ε Bool} {first : α}
    (yes : question first = .ok true) (later : List α) :
    (first :: later).allM question = later.allM question := by
  rw [List.allM, yes]
  rfl

theorem allM_cons_of_ne {question : α → Except ε Bool} {first : α}
    (no : question first ≠ .ok true) (later : List α) :
    (first :: later).allM question = question first := by
  rw [List.allM]
  rcases asked : question first with error | _ | _
  · rfl
  · rfl
  · exact absurd asked no

theorem allM_eq_true_iff (question : α → Except ε Bool) (items : List α) :
    items.allM question = .ok true ↔ ∀ item ∈ items, question item = .ok true := by
  induction items with
  | nil => exact iff_of_true rfl (by simp)
  | cons first items ih =>
      rw [List.forall_mem_cons, ← ih, List.allM]
      cases question first with
      | error error => exact iff_of_false nofun (fun both => nomatch both.1)
      | ok answer =>
          cases answer with
          | false => exact iff_of_false nofun (fun both => nomatch both.1)
          | true => exact (and_iff_right rfl).symm

theorem exists_of_allM_eq_error {question : α → Except ε Bool} {items : List α}
    {error : ε} (failed : items.allM question = .error error) :
    ∃ item ∈ items, question item = .error error := by
  induction items with
  | nil => cases failed
  | cons first items ih =>
      rw [List.allM] at failed
      cases asked : question first with
      | error other =>
          rw [asked] at failed
          cases failed
          exact ⟨first, List.mem_cons_self, asked⟩
      | ok answer =>
          rw [asked] at failed
          cases answer with
          | false => cases failed
          | true =>
              obtain ⟨item, member, same⟩ := ih failed
              exact ⟨item, List.mem_cons_of_mem _ member, same⟩

theorem allM_opposite {question opposite : α → Except ε Bool}
    (opposes : ∀ item answer, question item = .ok answer ↔ opposite item = .ok !answer)
    {items : List α} {outcome : Bool} (asked : items.allM question = .ok outcome) :
    items.allM opposite = .ok (!outcome) ↔
      items ≠ [] ∧ ∀ item ∈ items, question item = .ok outcome := by
  cases outcome with
  | true =>
      have agreed := (allM_eq_true_iff question items).1 asked
      rw [and_iff_left agreed]
      cases items with
      | nil => exact iff_of_false nofun (fun some => some rfl)
      | cons first later =>
          have answered := (opposes first true).1 (agreed first List.mem_cons_self)
          have refused : opposite first ≠ .ok true := by
            rw [answered]
            nofun
          have stops := (allM_cons_of_ne refused later).trans answered
          exact iff_of_true stops (List.cons_ne_nil _ _)
  | false =>
      have some : items ≠ [] := by
        rintro rfl
        cases asked
      rw [and_iff_right some, Bool.not_false, allM_eq_true_iff]
      exact forall₂_congr fun item _ => (opposes item false).symm

end

namespace Value

theorem map_orderOf (test : Ordering → Bool) (left right : Value) (operator : Operator) :
    test <$> left.orderOf operator right =
      match left.order? right with
      | some order => .ok (test order)
      | none => .error (.notComparable left.typeName operator right.typeName) := by
  unfold orderOf
  cases left.order? right <;> rfl

theorem satisfies_negation {operator negation : Operator}
    (negates : operator.negation? = some negation) (left right : Value) :
    (∃ answer, left.satisfies operator right = .ok answer ∧
      left.satisfies negation right = .ok !answer) ∨
    left.satisfies operator right =
        .error (.notComparable left.typeName operator right.typeName) ∧
      left.satisfies negation right =
        .error (.notComparable left.typeName negation right.typeName) := by
  cases operator with
  | equal =>
      cases negates
      exact .inl ⟨_, rfl, rfl⟩
  | notEqual =>
      cases negates
      exact .inl ⟨_, rfl, by rw [Bool.not_not]; rfl⟩
  | greater | greaterOrEqual | less | lessOrEqual =>
      cases negates
      simp only [satisfies, map_orderOf]
      cases left.order? right with
      | none => exact .inr ⟨rfl, rfl⟩
      | some order => exact .inl ⟨_, rfl, by cases order <;> rfl⟩
  | like | caselessLike => cases negates

theorem satisfies_eq_ok_iff {operator negation : Operator}
    (negates : operator.negation? = some negation) (left right : Value) (answer : Bool) :
    left.satisfies operator right = .ok answer ↔ left.satisfies negation right = .ok !answer := by
  rcases satisfies_negation negates left right with ⟨_, own, other⟩ | ⟨own, other⟩
  · rw [own, other]
    simp
  · rw [own, other]
    simp

def branches : Value → List Value
  | .list items => items
  | value => [value]

/-- What a path leads to, in order: values, and the failures to read one on the way. -/
def reachedAlong : Value → List String → List (Except EvalError Value)
  | value, [] => [.ok value]
  | value, name :: path =>
      value.branches.flatMap fun branch =>
        match branch.read name with
        | .ok found => reachedAlong found path
        | .error error => [.error error]

def answer (operator : Operator) (expected : Value) (reached : Except EvalError Value) :
    Except EvalError Bool := do
  let value ← reached
  value.satisfies operator expected

theorem allM_reachedAlong_cons (question : Except EvalError Value → Except EvalError Bool)
    (fails : ∀ error, question (.error error) = .error error) (value : Value) (name : String)
    (path : List String) :
    (reachedAlong value (name :: path)).allM question =
      value.branches.allM fun branch =>
        branch.read name >>= fun found => (reachedAlong found path).allM question := by
  rw [reachedAlong, allM_flatMap]
  congr 1
  funext branch
  cases branch.read name with
  | ok found => rfl
  | error error => exact (allM_single question _).trans (fails error)

/-- A comparison along a path is one of all that the path leads to, until it is not satisfied. -/
theorem satisfiesAlong_eq_allM (operator : Operator) (expected value : Value)
    (path : List String) :
    satisfiesAlong operator expected value path =
      (reachedAlong value path).allM (answer operator expected) := by
  fun_induction satisfiesAlong operator expected value path with
  | case1 value => exact (allM_single (answer operator expected) (.ok value)).symm
  | case2 items name path ih =>
      rw [allM_reachedAlong_cons _ (fun _ => rfl)]
      simp only [ih]
      rfl
  | case3 value name path notList ih =>
      have single : value.branches = [value] := by
        cases value with
        | list items => exact absurd rfl (notList items)
        | null | bool | int | float | string | map | object => rfl
      rw [allM_reachedAlong_cons _ (fun _ => rfl), single, allM_single]
      simp only [ih]

structure Unanimous (operator : Operator) (expected first : Value) (path : List String)
    (outcome : Bool) : Prop where
  some : reachedAlong first path ≠ []
  all : ∀ reached ∈ reachedAlong first path, answer operator expected reached = .ok outcome

theorem answer_eq_ok_iff {operator negation : Operator}
    (negates : operator.negation? = some negation) (expected : Value)
    (reached : Except EvalError Value) (outcome : Bool) :
    answer operator expected reached = .ok outcome ↔
      answer negation expected reached = .ok !outcome := by
  cases reached with
  | ok value => exact satisfies_eq_ok_iff negates value expected outcome
  | error error => exact iff_of_false nofun nofun

/-- Negating the operator negates a comparison along a path exactly where it is unanimous. -/
theorem satisfiesAlong_negation {operator negation : Operator}
    (negates : operator.negation? = some negation) {expected first : Value} {path : List String}
    {outcome : Bool} (satisfied : satisfiesAlong operator expected first path = .ok outcome) :
    satisfiesAlong negation expected first path = .ok (!outcome) ↔
      Unanimous operator expected first path outcome := by
  rw [satisfiesAlong_eq_allM] at satisfied ⊢
  rw [allM_opposite (answer_eq_ok_iff negates expected) satisfied]
  exact ⟨fun both => ⟨both.1, both.2⟩, fun unanimous => ⟨unanimous.some, unanimous.all⟩⟩

example : satisfiesAlong .equal (.int 1) (.list []) ["size"] = .ok true ∧
    satisfiesAlong .notEqual (.int 1) (.list []) ["size"] = .ok true := ⟨rfl, rfl⟩

end Value

end FactRules
