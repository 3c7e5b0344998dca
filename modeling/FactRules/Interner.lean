import FactRules.SharedCondition

/-!
Sharing of conditions by their canonical text. The interner knows one condition for each text that
it has been given and answers with that one from then on; it forgets nothing, also when the work
that uses it fails. Whatever needs an identity of its own, a condition or an object, has it from
here.
-/

namespace FactRules

structure Interner where
  nextIdentity : Nat := 0
  known : Table SharedCondition := []

/-- Work that shares conditions and may fail. What has been shared stays shared after a failure. -/
abbrev Sharing (ε : Type) := ExceptT ε (StateM Interner)

theorem bind_apply {ε σ α β : Type} (work : ExceptT ε (StateM σ) α)
    (next : α → ExceptT ε (StateM σ) β) (state : σ) : (work >>= next) state =
      match work state with
      | (.ok value, after) => next value after
      | (.error error, after) => (.error error, after) := by
  change ExceptT.bindCont next (work state).1 (work state).2 = _
  obtain ⟨_ | value, after⟩ := work state <;> rfl

theorem bind_eq_ok_iff {ε σ α β : Type} {work : ExceptT ε (StateM σ) α}
    {next : α → ExceptT ε (StateM σ) β} {state final : σ} {result : β} :
    (work >>= next) state = (.ok result, final) ↔
      ∃ value after, work state = (.ok value, after) ∧ next value after = (.ok result, final) := by
  rw [bind_apply]
  constructor
  · intro ran
    split at ran
    · next value after first => exact ⟨value, after, first, ran⟩
    · cases ran
  · rintro ⟨value, after, first, later⟩
    simp only [first, later]

namespace Interner

def newIdentity : StateM Interner Nat := fun interner =>
  (interner.nextIdentity, { interner with nextIdentity := interner.nextIdentity + 1 })

def own (draft : SharedCondition) : StateM Interner SharedCondition := do
  let identity ← newIdentity
  pure (draft.withIdentity identity)

/-- The condition known for the draft's text, or else the draft itself, known from now on. The
identity of the draft's root does not matter. -/
def intern (draft : SharedCondition) : StateM Interner SharedCondition := fun interner =>
  match Table.find? interner.known draft.text with
  | some known => (known, interner)
  | none =>
      let (shared, interner) := own draft interner
      (shared, { interner with known := Table.insert interner.known draft.text shared })

def internLeaf (comparison : Comparison) : StateM Interner SharedCondition :=
  intern (.leaf 0 comparison)

def internAll (terms : List SharedCondition) : StateM Interner SharedCondition :=
  intern (.all 0 terms)

def internAny (terms : List SharedCondition) : StateM Interner SharedCondition :=
  intern (.any 0 terms)

def internNot (inner : SharedCondition) : StateM Interner SharedCondition :=
  intern (.not 0 inner)

end Interner

namespace SharedCondition

open Interner

mutual

/-- Makes the nodes of a condition from the leaves up, each of them placed by `place`: interned, or
given an identity of its own. -/
def ofCondition (place : SharedCondition → StateM Interner SharedCondition) :
    Condition → StateM Interner SharedCondition
  | .leaf comparison => place (.leaf 0 comparison)
  | .all terms => do
      let terms ← ofConditions place terms
      place (.all 0 terms)
  | .any terms => do
      let terms ← ofConditions place terms
      place (.any 0 terms)
  | .not inner => do
      let inner ← ofCondition place inner
      place (.not 0 inner)

def ofConditions (place : SharedCondition → StateM Interner SharedCondition) :
    List Condition → StateM Interner (List SharedCondition)
  | [] => pure []
  | term :: terms => do
      let term ← ofCondition place term
      let terms ← ofConditions place terms
      pure (term :: terms)

end

mutual

theorem condition_ofCondition_own (condition : Condition) (interner : Interner) :
    (ofCondition own condition interner).1.condition = condition :=
  match condition with
  | .leaf _ => rfl
  | .all terms => congrArg Condition.all (conditions_ofConditions_own terms interner)
  | .any terms => congrArg Condition.any (conditions_ofConditions_own terms interner)
  | .not inner => congrArg Condition.not (condition_ofCondition_own inner interner)

theorem conditions_ofConditions_own (terms : List Condition) (interner : Interner) :
    conditions (ofConditions own terms interner).1 = terms :=
  match terms with
  | [] => rfl
  | term :: terms =>
      congr (congrArg List.cons (condition_ofCondition_own term interner))
        (conditions_ofConditions_own terms (ofCondition own term interner).2)

end

def always : StateM Interner SharedCondition :=
  internLeaf (.literalLiteral (.bool true) .equal (.bool true))

def never : StateM Interner SharedCondition :=
  internLeaf (.literalLiteral (.bool true) .equal (.bool false))

def equalities : List (String × Value) → StateM Interner (List SharedCondition)
  | [] => pure []
  | (key, value) :: pairs => do
      let term ← internLeaf (.keyLiteral key .equal (.ofValue value))
      let terms ← equalities pairs
      pure (term :: terms)

def matchAll (pairs : List (String × Value)) : StateM Interner SharedCondition := do
  match ← equalities pairs with
  | [] => always
  | [term] => pure term
  | terms => internAll terms

def matchAny (pairs : List (String × Value)) : StateM Interner SharedCondition := do
  match ← equalities pairs with
  | [] => never
  | [term] => pure term
  | terms => internAny terms

mutual

def pushed (inverted : Bool) : SharedCondition → Sharing EvalError SharedCondition
  | .leaf identity comparison =>
      if inverted then
        match comparison.negation with
        | .ok negation => internLeaf negation
        | .error error => throw error
      else pure (.leaf identity comparison)
  | .all _ terms => do
      let terms ← pushedTerms inverted terms
      if inverted then internAny terms else internAll terms
  | .any _ terms => do
      let terms ← pushedTerms inverted terms
      if inverted then internAll terms else internAny terms
  | .not _ inner => pushed (!inverted) inner

def pushedTerms (inverted : Bool) : List SharedCondition →
    Sharing EvalError (List SharedCondition)
  | [] => pure []
  | term :: terms => do
      let term ← pushed inverted term
      let terms ← pushedTerms inverted terms
      pure (term :: terms)

end

/-- An equivalent condition in which negation only stands inside comparison operators. -/
def positive (shared : SharedCondition) : Sharing EvalError SharedCondition :=
  shared.pushed false

end SharedCondition

end FactRules
