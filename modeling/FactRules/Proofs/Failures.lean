import FactRules.Literal
import FactRules.Proofs.Paths

/-!
How reading and comparing values fails. Maps and lists fail in ways of their own only, an object in
any way that it chooses, be it with the failure of a lookup. Values whose objects fail in certain
ways only are a family that reading does not leave, and nothing that is done with them fails
otherwise.
-/

namespace FactRules

def EvalError.Own (error : EvalError) : Prop :=
  ∀ cause, error ≠ .lookup cause

theorem RuleError.ofEval_of_own {error : EvalError} (own : error.Own) :
    RuleError.ofEval error = .eval error := by
  cases error with
  | lookup cause => exact absurd rfl (own cause)
  | unknownKey | unknownType | coercion | notComparable | invalidPattern | negationUnsupported => rfl

namespace Value

/-- Objects, also those inside the value and those that they answer with, fail in such ways only.
Without objects there is nothing to fail. -/
inductive FailsOnly (allowed : EvalError → Prop) : Value → Prop
  | null : FailsOnly allowed .null
  | bool (value : Bool) : FailsOnly allowed (.bool value)
  | int (value : Int64) : FailsOnly allowed (.int value)
  | float (value : Binary64) : FailsOnly allowed (.float value)
  | string (value : String) : FailsOnly allowed (.string value)
  | list {items : List Value} (each : ∀ item ∈ items, FailsOnly allowed item) :
      FailsOnly allowed (.list items)
  | map {entries : List (String × Value)} (each : ∀ entry ∈ entries, FailsOnly allowed entry.2) :
      FailsOnly allowed (.map entries)
  | object {identity : Nat} {typeName description : String}
      {answer : String → Except EvalError (Option Value)}
      (failures : ∀ name error, answer name = .error error → allowed error)
      (answers : ∀ name value, answer name = .ok (some value) → FailsOnly allowed value) :
      FailsOnly allowed (.object identity typeName description answer)

theorem FailsOnly.ofEntries {allowed : EvalError → Prop} {entries : List (String × Value)}
    (each : ∀ entry ∈ entries, FailsOnly allowed entry.2) :
    FailsOnly allowed (.ofEntries entries) :=
  .map fun entry member => each entry (Table.mem_of_mem_ofList member)

/-- Reading and comparing such values gives such values, and fails in such ways only. -/
structure Family (good : Value → Prop) (allowed : EvalError → Prop) : Prop where
  null : good .null
  item : ∀ items, good (.list items) → ∀ item ∈ items, good item
  found : ∀ value name found, good value → value.read? name = .ok (some found) → good found
  failed : ∀ value name error, good value → value.read? name = .error error → allowed error
  own : ∀ error : EvalError, error.Own → allowed error

theorem Family.always : Family (fun _ => True) fun _ => True := by
  constructor <;> intros <;> trivial

theorem family_failsOnly {allowed : EvalError → Prop}
    (own : ∀ error : EvalError, error.Own → allowed error) :
    Family (FailsOnly allowed) allowed where
  null := .null
  own := own
  item items held item member := by
    cases held with
    | list each => exact each item member
  found value name found held answered := by
    cases held with
    | map each =>
        rename_i entries
        have member : (name, found) ∈ entries := Table.mem_of_find? (Except.ok.inj answered)
        exact each _ member
    | object failures answers => exact answers name found answered
    | null | bool | int | float | string | list => cases answered
  failed value name error held answered := by
    cases held with
    | object failures answers => exact failures name error answered
    | null | bool | int | float | string | list | map => cases answered

theorem family_own : Family (FailsOnly EvalError.Own) EvalError.Own :=
  family_failsOnly fun _ own => own

theorem own_of_orderOf {left right : Value} {operator : Operator} {error : EvalError}
    (failed : left.orderOf operator right = .error error) : error.Own := by
  rw [orderOf] at failed
  split at failed
  · cases failed
  · cases failed
    exact nofun

theorem own_of_matchesPattern {caseless : Bool} {left pattern : Value} {error : EvalError}
    (failed : left.matchesPattern caseless pattern = .error error) : error.Own := by
  rw [matchesPattern.eq_def] at failed
  split at failed
  · rw [map_eq_error_iff, Pattern.compiled] at failed
    split at failed
    · cases failed
    · cases failed
      exact nofun
  · cases failed
  · cases failed
    exact nofun

theorem own_of_satisfies {left right : Value} {operator : Operator} {error : EvalError}
    (failed : left.satisfies operator right = .error error) : error.Own := by
  have ordered {test : Ordering → Bool} {operator : Operator}
      (failed : test <$> left.orderOf operator right = .error error) : error.Own := by
    cases order : left.orderOf operator right with
    | error other =>
        rw [order] at failed
        cases failed
        exact own_of_orderOf order
    | ok found =>
        rw [order] at failed
        cases failed
  cases operator with
  | equal | notEqual => cases failed
  | greater | greaterOrEqual | less | lessOrEqual => exact ordered failed
  | like | caselessLike => exact own_of_matchesPattern failed

namespace Family

variable {good : Value → Prop} {allowed : EvalError → Prop}

theorem failed_read (family : Family good allowed) {value : Value} (held : good value)
    {name : String} {error : EvalError} (failed : value.read name = .error error) :
    allowed error := by
  rcases bind_eq_error_iff.1 failed with failed | ⟨found, _, failed⟩
  · exact family.failed value name error held failed
  · cases found with
    | some found => cases failed
    | none =>
        cases failed
        exact family.own _ nofun

theorem found_read (family : Family good allowed) {value : Value} (held : good value)
    {name : String} {found : Value} (succeeded : value.read name = .ok found) : good found := by
  rw [read] at succeeded
  cases answered : value.read? name with
  | error error =>
      rw [answered] at succeeded
      cases succeeded
  | ok answer =>
      rw [answered] at succeeded
      cases answer with
      | none => cases succeeded
      | some other =>
          cases succeeded
          exact family.found value name found held answered

theorem failed_follow (family : Family good allowed) {value : Value} (held : good value)
    {path : List String} {error : EvalError} (failed : value.follow path = .error error) :
    allowed error := by
  induction path generalizing value with
  | nil => cases failed
  | cons name path ih =>
      rcases bind_eq_error_iff.1 failed with failed | ⟨found, succeeded, failed⟩
      · exact family.failed_read held failed
      · exact ih (family.found_read held succeeded) failed

theorem found_follow (family : Family good allowed) {value : Value} (held : good value)
    {path : List String} {found : Value} (succeeded : value.follow path = .ok found) :
    good found := by
  induction path generalizing value with
  | nil => exact Except.ok.inj succeeded ▸ held
  | cons name path ih =>
      rw [follow, List.foldlM_cons] at succeeded
      cases read : value.read name with
      | error error =>
          rw [read] at succeeded
          cases succeeded
      | ok first =>
          rw [read] at succeeded
          exact ih (family.found_read held read) succeeded

theorem branches (family : Family good allowed) {value branch : Value} (held : good value)
    (member : branch ∈ value.branches) : good branch := by
  cases value with
  | list items => exact family.item items held branch member
  | null | bool | int | float | string | map | object =>
      obtain rfl := List.mem_singleton.1 member
      exact held

theorem failed_along (family : Family good allowed) {operator : Operator} {expected value : Value}
    (held : good value) {path : List String} {error : EvalError}
    (failed : satisfiesAlong operator expected value path = .error error) : allowed error := by
  rw [satisfiesAlong_eq_allM] at failed
  induction path generalizing value with
  | nil =>
      rw [reachedAlong, allM_single] at failed
      exact family.own _ (own_of_satisfies failed)
  | cons name path ih =>
      rw [allM_reachedAlong_cons _ fun _ => rfl] at failed
      obtain ⟨branch, member, failed⟩ := exists_of_allM_eq_error failed
      have inside := family.branches held member
      rcases bind_eq_error_iff.1 failed with failed | ⟨found, succeeded, failed⟩
      · exact family.failed_read inside failed
      · exact ih (family.found_read inside succeeded) failed

end Family

end Value

theorem Literal.own_of_resolve {types : TypeTable} {literal : Literal} {error : EvalError}
    (failed : literal.resolve types = .error error) : error.Own := by
  cases literal with
  | typed typeName text =>
      simp only [resolve, TypeTable.construct] at failed
      split at failed
      · cases failed
        exact nofun
      · split at failed
        · cases failed
        · cases failed
          exact nofun
  | string | integer | float | bool | null => cases failed

end FactRules
