import FactRules.Proofs.Relational
import FactRules.Proofs.Rounding

/-!
The order of integers and floating-point numbers in any mix. Two integers are compared as they are,
and an integer with a floating-point number by the number nearest to it. So the order is the one of
the places of the nearest numbers, but for integers that share their nearest number.
-/

namespace FactRules.Value

/-- Where a number lies, an integer where the number nearest to it does. -/
def place? (value : Value) : Option Int :=
  value.float?.bind Binary64.place?

def IsNumber (value : Value) : Prop :=
  ∃ place, value.place? = some place

/-- Different integers that have one nearest floating-point number. -/
def Merged : Value → Value → Prop
  | .int left, .int right =>
      left ≠ right ∧ (Binary64.ofInt left.toInt).equals (Binary64.ofInt right.toInt) = true
  | _, _ => False

theorem place?_int (value : Int64) :
    (int value).place? = some (Binary64.nearestPlace value.toInt) := by
  rw [place?, float?, Option.bind_some, Binary64.place?_ofInt]

theorem place?_float (value : Binary64) : (float value).place? = value.place? := by
  rw [place?, float?, Option.bind_some]

theorem isNumber_int (whole : Int64) : (int whole).IsNumber :=
  ⟨_, place?_int whole⟩

theorem isNumber_float {number : Binary64} (finite : number.isFinite = true) :
    (float number).IsNumber := by
  rw [IsNumber, place?_float]
  cases number with
  | finite => exact ⟨_, rfl⟩
  | nan | infinite => cases finite

theorem merged_iff {left right : Int64} : Merged (.int left) (.int right) ↔
    left.toInt ≠ right.toInt ∧
      Binary64.nearestPlace left.toInt = Binary64.nearestPlace right.toInt := by
  have places : (Binary64.ofInt left.toInt).equals (Binary64.ofInt right.toInt) = true ↔
      Binary64.nearestPlace left.toInt = Binary64.nearestPlace right.toInt := by
    simp only [Binary64.equals_iff, Binary64.place?_ofInt, Option.some.injEq, exists_eq_left']
    exact eq_comm
  rw [Merged, places, ne_eq, ne_eq, Int64.toInt_inj]

theorem int_or_float {value : Value} {place : Int} (lies : value.place? = some place) :
    (∃ whole, value = .int whole) ∨ ∃ number, value = .float number := by
  cases value with
  | int whole => exact .inl ⟨whole, rfl⟩
  | float number => exact .inr ⟨number, rfl⟩
  | _ => cases lies

theorem order?_of_place? {left right : Binary64} {leftPlace rightPlace : Int}
    (leftAt : left.place? = some leftPlace) (rightAt : right.place? = some rightPlace) :
    left.order? right = some (compare leftPlace rightPlace) := by
  rw [Binary64.order?, leftAt, rightAt]

theorem compare_cases (left right : Int64) :
    compare left.toInt right.toInt =
        compare (Binary64.nearestPlace left.toInt) (Binary64.nearestPlace right.toInt) ∧
      ¬Merged (.int left) (.int right) ∨
    compare left.toInt right.toInt ≠ .eq ∧
      Binary64.nearestPlace left.toInt = Binary64.nearestPlace right.toInt ∧
      Merged (.int left) (.int right) := by
  by_cases merged : Merged (.int left) (.int right)
  · obtain ⟨differ, onePlace⟩ := merged_iff.1 merged
    exact .inr ⟨fun same => differ (Int.compare_eq_eq.1 same), onePlace, merged⟩
  · refine .inl ⟨?_, merged⟩
    by_cases same : left.toInt = right.toInt
    · rw [same, Int.compare_eq_eq.2 rfl, Int.compare_eq_eq.2 rfl]
    · rw [Binary64.compare_nearestPlace]
      exact fun onePlace => merged (merged_iff.2 ⟨same, onePlace⟩)

theorem not_merged_float (left : Binary64) (right : Value) : ¬Merged (float left) right :=
  id

theorem float_not_merged (left : Value) (right : Binary64) : ¬Merged left (float right) := by
  cases left <;> exact id

theorem order?_of_places {left right : Value} {leftPlace rightPlace : Int}
    (leftAt : left.place? = some leftPlace) (rightAt : right.place? = some rightPlace) :
    ∃ order, left.order? right = some order ∧
      (order = compare leftPlace rightPlace ∧ ¬Merged left right ∨
        order ≠ .eq ∧ leftPlace = rightPlace ∧ Merged left right) := by
  rcases int_or_float leftAt with ⟨left, rfl⟩ | ⟨left, rfl⟩
  · rcases int_or_float rightAt with ⟨right, rfl⟩ | ⟨right, rfl⟩
    · rw [place?_int, Option.some.injEq] at leftAt rightAt
      subst leftAt rightAt
      exact ⟨_, rfl, compare_cases left right⟩
    · rw [place?_float] at rightAt
      rw [place?_int, ← Binary64.place?_ofInt] at leftAt
      refine ⟨_, ?_, .inl ⟨rfl, float_not_merged _ right⟩⟩
      rw [order?, order?_of_place? leftAt rightAt]
  · rw [place?_float] at leftAt
    rcases int_or_float rightAt with ⟨right, rfl⟩ | ⟨right, rfl⟩
    · rw [place?_int, ← Binary64.place?_ofInt] at rightAt
      refine ⟨_, ?_, .inl ⟨rfl, not_merged_float left _⟩⟩
      rw [order?, order?_of_place? leftAt rightAt]
    · rw [place?_float] at rightAt
      refine ⟨_, ?_, .inl ⟨rfl, not_merged_float left _⟩⟩
      rw [order?, order?_of_place? leftAt rightAt]

theorem satisfies_lessOrEqual {left right : Value} {order : Ordering}
    (ordered : left.order? right = some order) :
    left.satisfies .lessOrEqual right = .ok true ↔ order ≠ .gt := by
  simp only [satisfies, map_orderOf, ordered, Except.ok.injEq]
  cases order <;> decide

theorem satisfies_equal {left right : Value} {order : Ordering}
    (ordered : left.order? right = some order) :
    left.satisfies .equal right = .ok true ↔ order = .eq := by
  rw [satisfies, equals_of_order? ordered, Except.ok.injEq, beq_iff_eq]

theorem satisfies_of_order? {left right otherLeft otherRight : Value} {order : Ordering}
    (ordered : left.order? right = some order)
    (otherOrdered : otherLeft.order? otherRight = some order) {operator : Operator}
    (relational : operator.isRelational = true) :
    left.satisfies operator right = otherLeft.satisfies operator otherRight := by
  cases operator with
  | equal | notEqual =>
      rw [satisfies, satisfies, equals_of_order? ordered, equals_of_order? otherOrdered]
  | greater | greaterOrEqual | less | lessOrEqual =>
      simp only [satisfies, map_orderOf, ordered, otherOrdered]
  | like | caselessLike => cases relational

theorem order?_of_not_merged {left right : Value} {leftPlace rightPlace : Int}
    (leftAt : left.place? = some leftPlace) (rightAt : right.place? = some rightPlace)
    (apart : ¬Merged left right) : left.order? right = some (compare leftPlace rightPlace) := by
  obtain ⟨_, ordered, ⟨rfl, _⟩ | ⟨_, _, merged⟩⟩ := order?_of_places leftAt rightAt
  · exact ordered
  · exact absurd merged apart

theorem place_of_merged {left right : Value} {leftPlace rightPlace : Int}
    (leftAt : left.place? = some leftPlace) (rightAt : right.place? = some rightPlace)
    (merged : Merged left right) : leftPlace = rightPlace := by
  obtain ⟨_, _, ⟨_, apart⟩ | ⟨_, same, _⟩⟩ := order?_of_places leftAt rightAt
  · exact absurd merged apart
  · exact same

theorem equal_iff {left right : Value} {leftPlace rightPlace : Int}
    (leftAt : left.place? = some leftPlace) (rightAt : right.place? = some rightPlace) :
    left.satisfies .equal right = .ok true ↔ leftPlace = rightPlace ∧ ¬Merged left right := by
  obtain ⟨order, ordered, ⟨rfl, apart⟩ | ⟨differ, _, merged⟩⟩ := order?_of_places leftAt rightAt
  · rw [satisfies_equal ordered, Int.compare_eq_eq]
    exact (and_iff_left apart).symm
  · rw [satisfies_equal ordered]
    exact ⟨fun equal => absurd equal differ, fun ⟨_, apart⟩ => absurd merged apart⟩

theorem le_of_lessOrEqual {left right : Value} {leftPlace rightPlace : Int}
    (leftAt : left.place? = some leftPlace) (rightAt : right.place? = some rightPlace)
    (le : left.satisfies .lessOrEqual right = .ok true) : leftPlace ≤ rightPlace := by
  by_cases merged : Merged left right
  · exact Int.le_of_eq (place_of_merged leftAt rightAt merged)
  · rw [satisfies_lessOrEqual (order?_of_not_merged leftAt rightAt merged)] at le
    exact Int.compare_ne_gt.1 le

theorem lessOrEqual_of_le {left right : Value} {leftPlace rightPlace : Int}
    (leftAt : left.place? = some leftPlace) (rightAt : right.place? = some rightPlace)
    (apart : ¬Merged left right) (le : leftPlace ≤ rightPlace) :
    left.satisfies .lessOrEqual right = .ok true := by
  rw [satisfies_lessOrEqual (order?_of_not_merged leftAt rightAt apart)]
  exact Int.compare_ne_gt.2 le

theorem eq_of_merged {first second third : Value} (firstMerged : Merged first third)
    (secondMerged : Merged second third) (equal : first.satisfies .equal second = .ok true) :
    first = second := by
  cases first with
  | int first =>
      cases second with
      | int second =>
          rw [satisfies_equal rfl, Int.compare_eq_eq, Int64.toInt_inj] at equal
          rw [equal]
      | _ => cases secondMerged
  | _ => cases firstMerged

theorem compared_alike_iff {first second third : Value} (firstNumber : first.IsNumber)
    (secondNumber : second.IsNumber) (thirdNumber : third.IsNumber)
    (equal : first.satisfies .equal second = .ok true) :
    (∀ operator : Operator, operator.isRelational = true →
        first.satisfies operator third = second.satisfies operator third) ↔
      (Merged first third ↔ Merged second third) := by
  obtain ⟨place, firstAt⟩ := firstNumber
  obtain ⟨secondPlace, secondAt⟩ := secondNumber
  obtain ⟨thirdPlace, thirdAt⟩ := thirdNumber
  obtain ⟨rfl, _⟩ := (equal_iff firstAt secondAt).1 equal
  constructor
  · intro alike
    have both : first.satisfies .equal third = .ok true ↔
        second.satisfies .equal third = .ok true := by
      rw [alike .equal rfl]
    rw [equal_iff firstAt thirdAt, equal_iff secondAt thirdAt] at both
    have firstPlace := place_of_merged firstAt thirdAt
    have secondPlace := place_of_merged secondAt thirdAt
    grind
  · intro both operator relational
    by_cases merged : Merged first third
    · rw [eq_of_merged merged (both.1 merged) equal]
    · exact satisfies_of_order? (order?_of_not_merged firstAt thirdAt merged)
        (order?_of_not_merged secondAt thirdAt (mt both.2 merged)) relational

theorem large_of_merged {left right : Int64} (merged : Merged (.int left) (.int right)) :
    Nat.pow 2 53 ≤ left.toInt.natAbs ∧ Nat.pow 2 53 ≤ right.toInt.natAbs := by
  obtain ⟨differ, same⟩ := merged_iff.1 merged
  constructor
  · apply Nat.le_of_not_lt
    intro small
    exact differ (Binary64.eq_of_nearestPlace_eq small same)
  · apply Nat.le_of_not_lt
    intro small
    exact differ (Binary64.eq_of_nearestPlace_eq small same.symm).symm

theorem order_of_numbers {first second third : Value} (firstNumber : first.IsNumber)
    (secondNumber : second.IsNumber) (thirdNumber : third.IsNumber) :
    (first.satisfies .equal second = .ok true → second.satisfies .equal third = .ok true →
      (first.satisfies .equal third = .ok true ↔ ¬Merged first third)) ∧
    (first.satisfies .lessOrEqual second = .ok true →
      second.satisfies .lessOrEqual third = .ok true → ¬Merged first third →
        first.satisfies .lessOrEqual third = .ok true) ∧
    (first.satisfies .equal second = .ok true →
      ((∀ operator : Operator, operator.isRelational = true →
          first.satisfies operator third = second.satisfies operator third) ↔
        (Merged first third ↔ Merged second third))) ∧
    ∀ left right, Merged (.int left) (.int right) →
      Nat.pow 2 53 ≤ left.toInt.natAbs ∧ Nat.pow 2 53 ≤ right.toInt.natAbs := by
  have alike := compared_alike_iff firstNumber secondNumber thirdNumber
  obtain ⟨place, firstAt⟩ := firstNumber
  obtain ⟨secondPlace, secondAt⟩ := secondNumber
  obtain ⟨thirdPlace, thirdAt⟩ := thirdNumber
  refine ⟨?_, ?_, alike, fun _ _ => large_of_merged⟩
  · intro equal laterEqual
    obtain ⟨rfl, _⟩ := (equal_iff firstAt secondAt).1 equal
    obtain ⟨rfl, _⟩ := (equal_iff secondAt thirdAt).1 laterEqual
    rw [equal_iff firstAt thirdAt]
    exact and_iff_right rfl
  · intro le laterLe apart
    have places := le_of_lessOrEqual firstAt secondAt le
    have laterPlaces := le_of_lessOrEqual secondAt thirdAt laterLe
    exact lessOrEqual_of_le firstAt thirdAt apart (Int.le_trans places laterPlaces)

/-- An integer is rounded down, and no other one of the three is merged with it. -/
theorem order_of_numbers_rounded :
    (int 9007199254740993).IsNumber ∧ (float (.ofInt 9007199254740992)).IsNumber ∧
    (int 9007199254740994).IsNumber ∧
    (int 9007199254740993).satisfies .equal (float (.ofInt 9007199254740992)) = .ok true ∧
    ¬Merged (int 9007199254740993) (int 9007199254740994) ∧
    (int 9007199254740993).satisfies .lessOrEqual (int 9007199254740994) = .ok true ∧
    ∀ operator : Operator, operator.isRelational = true →
      (int 9007199254740993).satisfies operator (int 9007199254740994) =
        (float (.ofInt 9007199254740992)).satisfies operator (int 9007199254740994) := by
  have ordered : (int 9007199254740993).order? (float (.ofInt 9007199254740992)) = some .eq := by
    decide +kernel
  have laterOrdered :
      (float (.ofInt 9007199254740992)).order? (int 9007199254740994) = some .lt := by
    decide +kernel
  have apart : ¬Merged (int 9007199254740993) (int 9007199254740994) := by
    rintro ⟨_, same⟩
    exact absurd same (by decide +kernel)
  have equal := (satisfies_equal ordered).2 rfl
  have number : (float (.ofInt 9007199254740992)).IsNumber := isNumber_float (by decide +kernel)
  obtain ⟨_, le, alike, _⟩ :=
    order_of_numbers (isNumber_int 9007199254740993) number (isNumber_int 9007199254740994)
  have first := (satisfies_lessOrEqual ordered).2 (by decide)
  have second := (satisfies_lessOrEqual laterOrdered).2 (by decide)
  exact ⟨isNumber_int _, number, isNumber_int _, equal, apart, le first second apart,
    (alike equal).2 (iff_of_false apart (not_merged_float _ _))⟩

/-- Two integers equal one floating-point number and differ from each other. -/
theorem equality_not_transitive :
    (int 9007199254740993).satisfies .equal (float (.ofInt 9007199254740992)) = .ok true ∧
    (float (.ofInt 9007199254740992)).satisfies .equal (int 9007199254740992) = .ok true ∧
    (int 9007199254740993).satisfies .equal (int 9007199254740992) = .ok false := by
  have first : (int 9007199254740993).equals (float (.ofInt 9007199254740992)) = true := by
    decide +kernel
  have second : (float (.ofInt 9007199254740992)).equals (int 9007199254740992) = true := by
    decide +kernel
  have third : (int 9007199254740993).equals (int 9007199254740992) = false := by
    decide +kernel
  simp only [satisfies, first, second, third, and_self]

end FactRules.Value
