import Mathlib.Data.List.Induction
import FactRules.Proofs.TokenKinds

/-!
From which tokens the operands come. While the tokens of a text are shifted and its operators are
applied, every operand is accompanied by its origin, the places of the tokens that it has been made
of. The accompanied stacks go through what the stacks alone go through, so that whatever is parsed
has an origin.
-/

namespace FactRules

/-- How an operand has been put together, from the tokens at these places. The missing left operand
of a NOT is a leaf at the place of the NOT. -/
inductive Origin where
  | leaf (place : Nat)
  | applied (place : Nat) (left right : Origin)

namespace Origin

def leaves : Origin → List Nat
  | leaf place => [place]
  | applied _ left right => left.leaves ++ right.leaves

def places : Origin → List Nat
  | leaf place => [place]
  | applied place left right => place :: (left.places ++ right.places)

/-- Somewhere in the origin the operator at the place is applied to the two others. -/
inductive Applies : Origin → Nat → Origin → Origin → Prop where
  | here (place : Nat) (left right : Origin) : Applies (applied place left right) place left right
  | inLeft {inner left right : Origin} {place : Nat} (applies : Applies inner place left right)
      (other : Nat) (outer : Origin) : Applies (applied other inner outer) place left right
  | inRight {inner left right : Origin} {place : Nat} (applies : Applies inner place left right)
      (other : Nat) (outer : Origin) : Applies (applied other outer inner) place left right

theorem leaves_subset_places (origin : Origin) : origin.leaves ⊆ origin.places := by
  induction origin with
  | leaf place => exact List.Subset.refl _
  | applied place left right leftIh rightIh =>
      intro leaf member
      rcases List.mem_append.1 member with inLeft | inRight
      · simp [places, leftIh inLeft]
      · simp [places, rightIh inRight]

theorem exists_leaf (origin : Origin) : ∃ place, place ∈ origin.leaves := by
  induction origin with
  | leaf place => exact ⟨place, List.mem_cons_self⟩
  | applied _ left right leftIh _ =>
      obtain ⟨place, member⟩ := leftIh
      exact ⟨place, List.mem_append_left _ member⟩

end Origin

namespace SharedCondition

structure PlacedStacks where
  pending : List (Pending × Nat) := []
  operands : List (Operand × Origin) := []

namespace PlacedStacks

def forget (held : PlacedStacks) : Stacks where
  pending := held.pending.map Prod.fst
  operands := held.operands.map Prod.fst

def push (held : PlacedStacks) (operand : Operand) (origin : Origin) : PlacedStacks :=
  { held with operands := (operand, origin) :: held.operands }

def wait (held : PlacedStacks) (operator : Pending) (place : Nat) : PlacedStacks :=
  { held with pending := (operator, place) :: held.pending }

inductive Closes : List (Pending × Nat) → List (Operand × Origin) → Interner →
    PlacedStacks → Interner → Prop where
  | group (opened : Nat) (pending : List (Pending × Nat)) (operands : List (Operand × Origin))
      (interner : Interner) :
      Closes ((.openGroup, opened) :: pending) operands interner { pending, operands } interner
  | apply {operator : Pending} {left right : Operand} {interner between after : Interner}
      {condition : SharedCondition} {place : Nat} {leftOrigin rightOrigin : Origin}
      {pending : List (Pending × Nat)} {operands : List (Operand × Origin)} {held : PlacedStacks}
      (notGroup : operator ≠ .openGroup)
      (combined : combine operator left right interner = (.ok condition, between))
      (closes : Closes pending
        ((.condition condition, .applied place leftOrigin rightOrigin) :: operands) between held
        after) :
      Closes ((operator, place) :: pending)
        ((right, rightOrigin) :: (left, leftOrigin) :: operands) interner held after

inductive Step (place : Nat) :
    Token → PlacedStacks → Interner → PlacedStacks → Interner → Prop where
  | closeGroup {held next : PlacedStacks} {interner after : Interner}
      (closes : Closes held.pending held.operands interner next after) :
      Step place .closeGroup held interner next after
  | wait {token : Token} {operator : Pending} (waits : token.waits? = some operator)
      (notNegation : operator ≠ .not) (held : PlacedStacks) (interner : Interner) :
      Step place token held interner (held.wait operator place) interner
  | negation {token : Token} (waits : token.waits? = some .not) (held : PlacedStacks)
      (interner : Interner) :
      Step place token held interner ((held.push .marker (.leaf place)).wait .not place) interner
  | operand {token : Token} {operand : Operand} (isOperand : token.operand? = some operand)
      (held : PlacedStacks) (interner : Interner) :
      Step place token held interner (held.push operand (.leaf place)) interner

end PlacedStacks

inductive Reads (start : Interner) : List Token → PlacedStacks → Interner → Prop where
  | nil : Reads start [] {} start
  | snoc {tokens : List Token} {token : Token} {held next : PlacedStacks}
      {interner after : Interner} (reads : Reads start tokens held interner)
      (step : held.Step tokens.length token interner next after) :
      Reads start (tokens ++ [token]) next after

theorem closeGroup_of_closes {pending : List (Pending × Nat)}
    {operands : List (Operand × Origin)} {held : PlacedStacks} {interner after : Interner}
    (closes : held.Closes pending operands interner after) :
    Stacks.closeGroup (pending.map Prod.fst) (operands.map Prod.fst) interner =
      (.ok held.forget, after) := by
  induction closes with
  | group => rfl
  | apply notGroup combined _ ih =>
      simp only [List.map_cons] at ih ⊢
      rw [closeGroup_operator notGroup, bind_eq_ok_iff]
      exact ⟨_, _, combined, ih⟩

theorem closes_of_closeGroup {pending : List (Pending × Nat)}
    {operands : List (Operand × Origin)} {bare : Stacks} {interner after : Interner}
    (closed : Stacks.closeGroup (pending.map Prod.fst) (operands.map Prod.fst) interner =
      (.ok bare, after)) :
    ∃ held : PlacedStacks, held.forget = bare ∧ held.Closes pending operands interner after := by
  induction pending generalizing operands interner with
  | nil => cases closed
  | cons waiting pending ih =>
      obtain ⟨operator, place⟩ := waiting
      by_cases isGroup : operator = .openGroup
      · subst isGroup
        cases closed
        exact ⟨{ pending, operands }, rfl, .group place pending operands _⟩
      · rcases operands with _ | ⟨⟨right, rightOrigin⟩, _ | ⟨⟨left, leftOrigin⟩, operands⟩⟩
        · cases operator <;> first | exact absurd rfl isGroup | cases closed
        · cases operator <;> first | exact absurd rfl isGroup | cases closed
        · simp only [List.map_cons] at closed
          rw [closeGroup_operator isGroup] at closed
          obtain ⟨condition, between, combined, closed⟩ := bind_eq_ok_iff.1 closed
          let origin := Origin.applied place leftOrigin rightOrigin
          obtain ⟨held, forgotten, closes⟩ :=
            @ih ((.condition condition, origin) :: operands) between closed
          exact ⟨held, forgotten, .apply isGroup combined closes⟩

section

variable {token : Token} {operator : Pending} {held : Stacks}

theorem shift_of_waits (waits : token.waits? = some operator) (notNegation : operator ≠ .not) :
    held.shift token = pure (held.wait operator) := by
  cases token with
  | openGroup | compare =>
      cases waits
      rfl
  | word word =>
      have connective : Pending.ofWord? word = some operator := waits
      cases operator with
      | not => exact absurd rfl notNegation
      | openGroup | compare | and | or => simp only [Stacks.shift, connective]
  | closeGroup | constant | number => cases waits

theorem shift_of_negation (waits : token.waits? = some .not) :
    held.shift token = pure ((held.push .marker).wait .not) := by
  cases token with
  | word word =>
      have connective : Pending.ofWord? word = some .not := waits
      simp only [Stacks.shift, connective]
  | openGroup | compare | closeGroup | constant | number => cases waits

theorem shift_of_operand {operand : Operand} (isOperand : token.operand? = some operand) :
    held.shift token = pure (held.push operand) := by
  cases token with
  | constant literal =>
      cases isOperand
      rfl
  | number text =>
      obtain ⟨literal, inRange, rfl⟩ := Option.map_eq_some_iff.1 isOperand
      simp only [Stacks.shift, inRange]
  | word word =>
      cases connective : Pending.ofWord? word with
      | some operator => simp [Token.operand?, connective] at isOperand
      | none =>
          simp only [Token.operand?, connective, Option.isNone_none, if_true] at isOperand
          cases isOperand
          simp only [Stacks.shift, connective]
  | openGroup | compare | closeGroup => cases isOperand

end

theorem shift_of_step {token : Token} {held next : PlacedStacks} {interner after : Interner}
    {place : Nat} (step : held.Step place token interner next after) :
    held.forget.shift token interner = (.ok next.forget, after) := by
  cases step with
  | closeGroup closes => exact closeGroup_of_closes closes
  | wait waits notNegation =>
      rw [shift_of_waits waits notNegation]
      rfl
  | negation waits =>
      rw [shift_of_negation waits]
      rfl
  | operand isOperand =>
      rw [shift_of_operand isOperand]
      rfl

theorem step_of_shift {token : Token} {held : PlacedStacks} {bare : Stacks}
    {interner after : Interner} (place : Nat)
    (shifted : held.forget.shift token interner = (.ok bare, after)) :
    ∃ next : PlacedStacks, next.forget = bare ∧ held.Step place token interner next after := by
  cases isOperand : token.operand? with
  | some operand =>
      rw [shift_of_operand isOperand] at shifted
      cases shifted
      exact ⟨held.push operand (.leaf place), rfl, .operand isOperand held _⟩
  | none =>
      cases waits : token.waits? with
      | some operator =>
          by_cases isNegation : operator = .not
          · subst isNegation
            rw [shift_of_negation waits] at shifted
            cases shifted
            exact ⟨(held.push .marker (.leaf place)).wait .not place, rfl, .negation waits held _⟩
          · rw [shift_of_waits waits isNegation] at shifted
            cases shifted
            exact ⟨held.wait operator place, rfl, .wait waits isNegation held _⟩
      | none =>
          cases token with
          | closeGroup =>
              obtain ⟨next, forgotten, closes⟩ := closes_of_closeGroup shifted
              exact ⟨next, forgotten, .closeGroup closes⟩
          | number text =>
              have outOfRange : Stacks.literalOfNumber? text = none :=
                Option.map_eq_none_iff.1 isOperand
              simp only [Stacks.shift, outOfRange] at shifted
              cases shifted
          | word word =>
              have connective : Pending.ofWord? word = none := waits
              simp [Token.operand?, connective] at isOperand
          | openGroup | compare => cases waits
          | constant => cases isOperand

theorem Reads.fold {start after : Interner} {tokens : List Token} {held : PlacedStacks}
    (reads : Reads start tokens held after) :
    tokens.foldlM Stacks.shift {} start = (.ok held.forget, after) := by
  induction reads with
  | nil => rfl
  | snoc _ step ih =>
      rw [List.foldlM_append, bind_eq_ok_iff]
      refine ⟨_, _, ih, ?_⟩
      rw [List.foldlM_cons, bind_eq_ok_iff]
      exact ⟨_, _, shift_of_step step, rfl⟩

theorem exists_reads_of_fold {start after : Interner} {tokens : List Token} {bare : Stacks}
    (folded : tokens.foldlM Stacks.shift {} start = (.ok bare, after)) :
    ∃ held : PlacedStacks, held.forget = bare ∧ Reads start tokens held after := by
  induction tokens using List.reverseRecOn generalizing bare after with
  | nil =>
      cases folded
      exact ⟨{}, rfl, .nil⟩
  | append_singleton tokens token ih =>
      rw [List.foldlM_append] at folded
      obtain ⟨between, interner, first, folded⟩ := bind_eq_ok_iff.1 folded
      rw [List.foldlM_cons] at folded
      obtain ⟨last, final, shifted, folded⟩ := bind_eq_ok_iff.1 folded
      cases folded
      obtain ⟨held, rfl, reads⟩ := ih first
      obtain ⟨next, forgotten, step⟩ := step_of_shift tokens.length shifted
      exact ⟨next, forgotten, reads.snoc step⟩

/-- The tokens are read as the condition, in this way. -/
def ReadAs (start : Interner) (tokens : List Token) (shared : SharedCondition) (origin : Origin)
    (after : Interner) : Prop :=
  Reads start tokens { pending := [], operands := [(.condition shared, origin)] } after

theorem ofTokens_eq_ok_iff {start after : Interner} {tokens : List Token}
    {shared : SharedCondition} : ofTokens tokens start = (.ok shared, after) ↔
      ∃ origin, ReadAs start tokens shared origin after := by
  constructor
  · intro reduced
    obtain ⟨bare, between, folded, reduced⟩ := bind_eq_ok_iff.1 reduced
    obtain ⟨⟨pending, operands⟩, rfl, reads⟩ := exists_reads_of_fold folded
    cases outcome : (PlacedStacks.forget { pending, operands }).result with
    | error error =>
        simp only [outcome] at reduced
        cases reduced
    | ok condition =>
        simp only [outcome] at reduced
        cases reduced
        have noOperators := Stacks.pending_of_result outcome
        have oneOperand := Stacks.operands_of_result outcome
        simp only [PlacedStacks.forget, List.map_eq_nil_iff] at noOperators
        simp only [PlacedStacks.forget, List.map_eq_singleton_iff] at oneOperand
        obtain ⟨⟨operand, origin⟩, rfl, rfl⟩ := oneOperand
        subst noOperators
        exact ⟨origin, reads⟩
  · rintro ⟨origin, reads⟩
    unfold ofTokens
    rw [bind_eq_ok_iff]
    exact ⟨_, _, reads.fold, rfl⟩

end SharedCondition

end FactRules
