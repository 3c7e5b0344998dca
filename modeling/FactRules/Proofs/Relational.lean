import FactRules.Proofs.Paths

/-!
The relational operators among themselves. The negation of an operator answers the other way, and
its mirror image answers the same of two values in the other order. Where two values have an order,
they are less, equal or greater, and equality is the one of all values.
-/

namespace FactRules

namespace Operator

def mirrored : Operator → Operator
  | .greater => .less
  | .greaterOrEqual => .lessOrEqual
  | .less => .greater
  | .lessOrEqual => .greaterOrEqual
  | operator => operator

end Operator

theorem Binary64.order?_swap (left right : Binary64) :
    right.order? left = (left.order? right).map Ordering.swap := by
  unfold order?
  cases left.place? with
  | none => cases right.place? <;> rfl
  | some leftPlace =>
      cases right.place? with
      | none => rfl
      | some rightPlace => exact congrArg some Std.OrientedCmp.eq_swap

namespace Value

mutual

theorem equals_comm (left right : Value) : left.equals right = right.equals left := by
  cases left with
  | list lefts =>
      cases right with
      | list rights => exact equalItems_comm lefts rights
      | _ => rfl
  | map lefts =>
      cases right with
      | map rights => exact equalEntries_comm lefts rights
      | _ => rfl
  | int | float =>
      cases right with
      | int | float => simp only [equals, Binary64.equals_comm, eq_comm]
      | _ => simp only [equals]
  | null | bool | string | object =>
      cases right <;> simp only [equals, eq_comm]

theorem equalItems_comm (lefts rights : List Value) :
    equalItems lefts rights = equalItems rights lefts := by
  cases lefts with
  | nil => cases rights <;> rfl
  | cons left lefts =>
      cases rights with
      | nil => rfl
      | cons right rights =>
          rw [equalItems, equalItems, equals_comm left right, equalItems_comm lefts rights]

theorem equalEntries_comm (lefts rights : List (String × Value)) :
    equalEntries lefts rights = equalEntries rights lefts := by
  cases lefts with
  | nil => cases rights <;> rfl
  | cons entry lefts =>
      obtain ⟨leftKey, left⟩ := entry
      cases rights with
      | nil => rfl
      | cons entry rights =>
          obtain ⟨rightKey, right⟩ := entry
          rw [equalEntries, equalEntries, equals_comm left right, equalEntries_comm lefts rights]
          simp only [eq_comm]

end

theorem order?_swap (left right : Value) :
    right.order? left = (left.order? right).map Ordering.swap := by
  cases left with
  | int left =>
      cases right with
      | int right => exact congrArg some Std.OrientedCmp.eq_swap
      | float right => rw [order?, order?, Binary64.order?_swap]
      | _ => simp only [order?, Option.map_none]
  | float left =>
      cases right with
      | int | float => rw [order?, order?, Binary64.order?_swap]
      | _ => simp only [order?, Option.map_none]
  | string left =>
      cases right with
      | string right => exact congrArg some Std.OrientedCmp.eq_swap
      | _ => simp only [order?, Option.map_none]
  | _ => cases right <;> simp only [order?, Option.map_none]

theorem equals_of_order? {left right : Value} {order : Ordering}
    (ordered : left.order? right = some order) : left.equals right = (order == .eq) := by
  have ofPlaces : ∀ {left right : Binary64}, left.order? right = some order →
      left.equals right = (order == .eq) := by
    intro left right placed
    rw [Binary64.equals, placed]
    rfl
  cases left with
  | int left =>
      cases right with
      | int right =>
          cases ordered
          rw [equals, Bool.eq_iff_iff, decide_eq_true_eq, beq_iff_eq, Std.compare_eq_iff_eq,
            Int64.toInt_inj]
      | float right => exact ofPlaces ordered
      | _ => cases ordered
  | float left =>
      cases right with
      | int | float => exact ofPlaces ordered
      | _ => cases ordered
  | string left =>
      cases right with
      | string right =>
          cases ordered
          rw [equals, Bool.eq_iff_iff, decide_eq_true_eq, beq_iff_eq, Std.compare_eq_iff_eq]
      | _ => cases ordered
  | _ => cases right <;> cases ordered

theorem toOption_satisfies_negation {operator negation : Operator}
    (negates : operator.negation? = some negation) (left right : Value) :
    (left.satisfies negation right).toOption =
      (left.satisfies operator right).toOption.map (!·) := by
  rcases satisfies_negation negates left right with ⟨answer, own, other⟩ | ⟨own, other⟩
  · rw [own, other]
    rfl
  · rw [own, other]
    rfl

theorem toOption_satisfies_mirrored {operator : Operator}
    (relational : operator.isRelational = true) (left right : Value) :
    (right.satisfies operator.mirrored left).toOption =
      (left.satisfies operator right).toOption := by
  cases operator with
  | equal => exact congrArg some (equals_comm right left)
  | notEqual => exact congrArg (some !·) (equals_comm right left)
  | greater | greaterOrEqual | less | lessOrEqual =>
      simp only [Operator.mirrored, satisfies, map_orderOf, order?_swap left right]
      cases left.order? right with
      | none => rfl
      | some order => cases order <;> rfl
  | like | caselessLike => cases relational

theorem relational_coherent (left right : Value) :
    (∀ operator : Operator, operator.isRelational = true →
      (∃ negation, operator.negation? = some negation ∧
        (left.satisfies negation right).toOption =
          (left.satisfies operator right).toOption.map (!·)) ∧
      (right.satisfies operator.mirrored left).toOption =
        (left.satisfies operator right).toOption) ∧
    ∀ order, left.order? right = some order →
      left.satisfies .less right = .ok (order == .lt) ∧
      left.satisfies .equal right = .ok (order == .eq) ∧
      left.satisfies .greater right = .ok (order == .gt) ∧
      left.satisfies .lessOrEqual right = .ok (order == .lt || order == .eq) ∧
      left.satisfies .greaterOrEqual right = .ok (order == .gt || order == .eq) := by
  constructor
  · intro operator relational
    rw [← Operator.negation?_isSome] at relational
    obtain ⟨negation, negates⟩ := Option.isSome_iff_exists.1 relational
    rw [Operator.negation?_isSome] at relational
    exact ⟨⟨negation, negates, toOption_satisfies_negation negates left right⟩,
      toOption_satisfies_mirrored relational left right⟩
  · intro order ordered
    simp only [satisfies, map_orderOf, ordered, equals_of_order? ordered]
    cases order <;> exact ⟨rfl, trivial, rfl, rfl, rfl⟩

/-- An integer that is no floating-point number, and the one that it is rounded to. -/
theorem relational_coherent_rounded :
    (int 9007199254740993).order? (float (.ofInt 9007199254740992)) = some .eq ∧
    (int 9007199254740993).satisfies .greaterOrEqual (float (.ofInt 9007199254740992)) = .ok true ∧
    Operator.less.isRelational = true ∧
    ((float (.ofInt 9007199254740992)).satisfies .greater (int 9007199254740993)).toOption =
      some false := by
  have ordered : (int 9007199254740993).order? (float (.ofInt 9007199254740992)) = some .eq := by
    decide +kernel
  obtain ⟨each, orders⟩ :=
    relational_coherent (int 9007199254740993) (float (.ofInt 9007199254740992))
  obtain ⟨less, _, _, _, greaterOrEqual⟩ := orders .eq ordered
  obtain ⟨_, mirrored⟩ := each .less rfl
  rw [less] at mirrored
  exact ⟨ordered, greaterOrEqual, rfl, mirrored⟩

end Value

end FactRules
