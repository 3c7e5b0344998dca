import FactRules.Condition

/-!
Shared conditions: trees in which every node has an identity of its own. Two conditions are the same
instance when their roots have one identity; `condition` forgets the identities.
-/

namespace FactRules

inductive SharedCondition where
  | leaf (identity : Nat) (comparison : Comparison)
  | all (identity : Nat) (terms : List SharedCondition)
  | any (identity : Nat) (terms : List SharedCondition)
  | not (identity : Nat) (inner : SharedCondition)

namespace SharedCondition

def identity : SharedCondition → Nat
  | .leaf identity _ => identity
  | .all identity _ => identity
  | .any identity _ => identity
  | .not identity _ => identity

def withIdentity (identity : Nat) : SharedCondition → SharedCondition
  | .leaf _ comparison => .leaf identity comparison
  | .all _ terms => .all identity terms
  | .any _ terms => .any identity terms
  | .not _ inner => .not identity inner

def children : SharedCondition → List SharedCondition
  | .leaf _ _ => []
  | .all _ terms => terms
  | .any _ terms => terms
  | .not _ inner => [inner]

mutual

def condition : SharedCondition → Condition
  | .leaf _ comparison => .leaf comparison
  | .all _ terms => .all (conditions terms)
  | .any _ terms => .any (conditions terms)
  | .not _ inner => .not (condition inner)

def conditions : List SharedCondition → List Condition
  | [] => []
  | term :: terms => condition term :: conditions terms

end

def text (shared : SharedCondition) : String :=
  shared.condition.text

mutual

def same : SharedCondition → SharedCondition → Bool
  | .leaf left leftComparison, .leaf right rightComparison =>
      left = right && leftComparison = rightComparison
  | .all left leftTerms, .all right rightTerms => left = right && sameTerms leftTerms rightTerms
  | .any left leftTerms, .any right rightTerms => left = right && sameTerms leftTerms rightTerms
  | .not left leftInner, .not right rightInner => left = right && same leftInner rightInner
  | _, _ => false

def sameTerms : List SharedCondition → List SharedCondition → Bool
  | [], [] => true
  | left :: lefts, right :: rights => same left right && sameTerms lefts rights
  | _, _ => false

end

mutual

theorem same_iff : (left right : SharedCondition) → (same left right = true ↔ left = right)
  | .leaf .., .leaf .. => by simp [same]
  | .all _ leftTerms, .all _ rightTerms => by simp [same, sameTerms_iff leftTerms rightTerms]
  | .any _ leftTerms, .any _ rightTerms => by simp [same, sameTerms_iff leftTerms rightTerms]
  | .not _ leftInner, .not _ rightInner => by simp [same, same_iff leftInner rightInner]
  | .leaf .., .all .. | .leaf .., .any .. | .leaf .., .not .. => by simp [same]
  | .all .., .leaf .. | .all .., .any .. | .all .., .not .. => by simp [same]
  | .any .., .leaf .. | .any .., .all .. | .any .., .not .. => by simp [same]
  | .not .., .leaf .. | .not .., .all .. | .not .., .any .. => by simp [same]

theorem sameTerms_iff : (lefts rights : List SharedCondition) →
    (sameTerms lefts rights = true ↔ lefts = rights)
  | [], [] => by simp [sameTerms]
  | left :: lefts, right :: rights => by
      simp [sameTerms, same_iff left right, sameTerms_iff lefts rights]
  | [], _ :: _ => by simp [sameTerms]
  | _ :: _, [] => by simp [sameTerms]

end

instance : DecidableEq SharedCondition := fun left right =>
  decidable_of_iff _ (same_iff left right)

@[simp] theorem condition_withIdentity (identity : Nat) (shared : SharedCondition) :
    (shared.withIdentity identity).condition = shared.condition := by
  cases shared <;> simp [withIdentity, condition]

theorem conditions_eq_map (terms : List SharedCondition) :
    conditions terms = terms.map condition := by
  induction terms with
  | nil => rfl
  | cons term terms ih => simp [conditions, ih]

end SharedCondition

end FactRules
