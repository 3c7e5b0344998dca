import FactRules.Proofs.Printing

/-!
Groups on the stacks. `Builds` says that the tokens of a group, wherever the group stands, leave
stacks behind from which closing it makes one condition. Groups are put together from groups by the
connectives, and the lemmas follow that.
-/

namespace FactRules.SharedCondition

open Interner

def closing (inner : List Token) (pending : List Pending) (operands : List Operand) :
    Sharing ParseError Stacks := do
  let held ← inner.foldlM Stacks.shift { pending, operands }
  Stacks.closeGroup held.pending held.operands

/-- From any interner that is held, the group makes a condition of the result. -/
def Builds (held : Interner → Prop) (result : SharedCondition → Prop) (inner : List Token) : Prop :=
  ∀ interner, held interner → ∀ pending operands, ∃ shared after,
    result shared ∧ held after ∧ closing inner pending operands interner =
      Stacks.closeGroup pending (.condition shared :: operands) after

def Makes (held : Interner → Prop) (result : SharedCondition → Prop)
    (work : Sharing ParseError SharedCondition) : Prop :=
  ∀ interner, held interner → ∃ shared after,
    result shared ∧ held after ∧ work interner = (.ok shared, after)

theorem closeGroup_operator {operator : Pending} (notGroup : operator ≠ .openGroup)
    (pending : List Pending) (left right : Operand) (operands : List Operand) :
    Stacks.closeGroup (operator :: pending) (right :: left :: operands) = (do
      let condition ← combine operator left right
      Stacks.closeGroup pending (.condition condition :: operands)) := by
  cases operator with
  | openGroup => exact absurd rfl notGroup
  | compare | and | or | not => rfl

section

variable {held : Interner → Prop} {result : SharedCondition → Prop} {inner : List Token}

theorem Builds.fold_group (builds : Builds held result inner) {interner : Interner}
    (isHeld : held interner) (pending : List Pending) (operands : List Operand) :
    ∃ shared after, result shared ∧ held after ∧
      (Token.openGroup :: (inner ++ [.closeGroup])).foldlM Stacks.shift { pending, operands }
        interner = (.ok { pending, operands := .condition shared :: operands }, after) := by
  obtain ⟨shared, after, isResult, stillHeld, closed⟩ :=
    builds interner isHeld (.openGroup :: pending) operands
  refine ⟨shared, after, isResult, stillHeld, ?_⟩
  have opened : (Token.openGroup :: (inner ++ [.closeGroup])).foldlM Stacks.shift
      { pending, operands } = closing inner (.openGroup :: pending) operands := by
    simp only [List.foldlM_cons, List.foldlM_append, List.foldlM_nil, bind_pure]
    rfl
  rw [opened, closed]
  rfl

theorem closing_append {first later : List Token} {pending : List Pending}
    {operands : List Operand} {interner after : Interner} {between : Stacks}
    (folded : first.foldlM Stacks.shift { pending, operands } interner = (.ok between, after)) :
    closing (first ++ later) pending operands interner =
      closing later between.pending between.operands after := by
  rw [closing, List.foldlM_append, bind_assoc, bind_apply, folded]
  rfl

theorem Builds.group (builds : Builds held result inner) :
    Builds held result (.openGroup :: (inner ++ [.closeGroup])) := by
  intro interner isHeld pending operands
  obtain ⟨shared, after, isResult, stillHeld, folded⟩ :=
    builds.fold_group isHeld pending operands
  refine ⟨shared, after, isResult, stillHeld, ?_⟩
  have closed : closing (Token.openGroup :: (inner ++ [.closeGroup]) ++ []) pending operands
      interner = closing [] pending (.condition shared :: operands) after :=
    closing_append folded
  rw [List.append_nil] at closed
  rw [closed]
  rfl

/-- What waits for a group on its right is applied to the condition of that group. -/
theorem Builds.closing_under (builds : Builds held result inner) {operator : Pending}
    (notGroup : operator ≠ .openGroup) {left : Operand} {combined : SharedCondition → Prop}
    (makes : ∀ right, result right → Makes held combined (combine operator left (.condition right)))
    {interner : Interner} (isHeld : held interner) (pending : List Pending)
    (operands : List Operand) :
    ∃ shared after, combined shared ∧ held after ∧
      closing inner (operator :: pending) (left :: operands) interner =
        Stacks.closeGroup pending (.condition shared :: operands) after := by
  obtain ⟨right, between, isResult, stillHeld, closed⟩ :=
    builds interner isHeld (operator :: pending) (left :: operands)
  obtain ⟨shared, after, isCombined, heldAfter, made⟩ := makes right isResult between stillHeld
  refine ⟨shared, after, isCombined, heldAfter, ?_⟩
  rw [closed, closeGroup_operator notGroup, bind_apply, made]

theorem Builds.join {leftResult combined : SharedCondition → Prop} {leftInner : List Token}
    {word : Token} {operator : Pending} (notGroup : operator ≠ .openGroup)
    (waits : ∀ shifted : Stacks, shifted.shift word = pure (shifted.wait operator))
    (left : Builds held leftResult leftInner) (right : Builds held result inner)
    (makes : ∀ left right, leftResult left → result right →
      Makes held combined (combine operator (.condition left) (.condition right))) :
    Builds held combined (.openGroup :: (leftInner ++ [.closeGroup]) ++ word :: inner) := by
  intro interner isHeld pending operands
  obtain ⟨leftShared, between, leftIs, stillHeld, folded⟩ :=
    left.fold_group isHeld pending operands
  obtain ⟨shared, after, isCombined, heldAfter, closed⟩ :=
    right.closing_under notGroup (fun right rightIs => makes leftShared right leftIs rightIs)
      stillHeld pending operands
  refine ⟨shared, after, isCombined, heldAfter, ?_⟩
  rw [closing_append folded, ← closed]
  simp only [closing, List.foldlM_cons, waits, pure_bind]
  rfl

theorem Builds.negation {combined : SharedCondition → Prop} {word : Token}
    (waits : ∀ shifted : Stacks, shifted.shift word = pure ((shifted.push .marker).wait .not))
    (right : Builds held result inner)
    (makes : ∀ right, result right → Makes held combined (combine .not .marker (.condition right))) :
    Builds held combined (word :: inner) := by
  intro interner isHeld pending operands
  obtain ⟨shared, after, isCombined, heldAfter, closed⟩ :=
    right.closing_under (by decide) makes isHeld pending operands
  refine ⟨shared, after, isCombined, heldAfter, ?_⟩
  rw [← closed]
  simp only [closing, List.foldlM_cons, waits, pure_bind]
  rfl

theorem Builds.negate {combined : SharedCondition → Prop} (right : Builds held result inner)
    (makes : ∀ right, result right → Makes held combined (combine .not .marker (.condition right))) :
    Builds held combined (.word "NOT" :: inner) :=
  right.negation (fun _ => rfl) makes

def Pushes (token : Token) (operand : Operand) : Prop :=
  ∀ shifted : Stacks, shifted.shift token = pure (shifted.push operand)

def Shifts (tokens : List Token) (operand : Operand) : Prop :=
  ∀ shifted : Stacks, tokens.foldlM Stacks.shift shifted =
    (pure (shifted.push operand) : Sharing ParseError Stacks)

theorem Pushes.shifts {token : Token} {operand : Operand} (pushes : Pushes token operand) :
    Shifts [token] operand := by
  intro shifted
  rw [List.foldlM_cons, pushes, pure_bind, List.foldlM_nil]

theorem Shifts.group {tokens : List Token} {operand : Operand} (shifts : Shifts tokens operand) :
    Shifts (.openGroup :: (tokens ++ [.closeGroup])) operand := by
  intro shifted
  have opens : shifted.shift .openGroup =
      (pure (shifted.wait .openGroup) : Sharing ParseError Stacks) := rfl
  rw [List.foldlM_cons, opens, pure_bind, List.foldlM_append, shifts, pure_bind, List.foldlM_cons]
  rfl

theorem Builds.comparison {left right : List Token} {leftOperand rightOperand : Operand}
    (leftShifts : Shifts left leftOperand) (rightShifts : Shifts right rightOperand)
    {operator : Operator}
    (makes : Makes held result (combine (.compare operator) leftOperand rightOperand)) :
    Builds held result (left ++ .compare operator :: right) := by
  intro interner isHeld pending operands
  obtain ⟨shared, after, isResult, stillHeld, made⟩ := makes interner isHeld
  refine ⟨shared, after, isResult, stillHeld, ?_⟩
  have waits : ∀ shifted : Stacks, shifted.shift (.compare operator) =
      pure (shifted.wait (.compare operator)) := fun _ => rfl
  have notGroup : Pending.compare operator ≠ .openGroup := by simp
  have closed : closing (left ++ .compare operator :: right) pending operands =
      Stacks.closeGroup (.compare operator :: pending)
        (rightOperand :: leftOperand :: operands) := by
    rw [closing, List.foldlM_append, leftShifts, pure_bind, List.foldlM_cons, waits, pure_bind,
      rightShifts, pure_bind]
    rfl
  rw [closed, closeGroup_operator notGroup, bind_apply, made]

theorem Builds.compare {left right : Token} {leftOperand rightOperand : Operand}
    (leftPushes : Pushes left leftOperand) (rightPushes : Pushes right rightOperand)
    {operator : Operator}
    (makes : Makes held result (combine (.compare operator) leftOperand rightOperand)) :
    Builds held result [left, .compare operator, right] :=
  Builds.comparison leftPushes.shifts rightPushes.shifts makes

theorem Builds.ofTokens (builds : Builds held result inner) {interner : Interner}
    (isHeld : held interner) :
    ∃ shared after, result shared ∧ held after ∧
      ofTokens (.openGroup :: (inner ++ [.closeGroup])) interner = (.ok shared, after) := by
  obtain ⟨shared, after, isResult, stillHeld, folded⟩ := builds.fold_group isHeld [] []
  refine ⟨shared, after, isResult, stillHeld, ?_⟩
  rw [SharedCondition.ofTokens, bind_apply, folded]
  rfl

end

theorem pushes_literal {literal : Literal} (printable : literal.Printable) :
    Pushes literal.token (.literal literal) := by
  intro shifted
  cases literal with
  | integer value => simp [Literal.token, Stacks.shift, Stacks.literalOfNumber?_integer]
  | float value => simp [Literal.token, Stacks.shift, Stacks.literalOfNumber?_float printable]
  | string | bool | null | typed => rfl

theorem pushes_key {key : String} (isKey : IsKey key) : Pushes (.word key) (.key key) := by
  intro shifted
  simp [Stacks.shift, isKey.2]

theorem tokens_of_reads {text : String} {found : List Token}
    (reads : Token.Reads text.toList found) (noName : Token.NoName text.toList) :
    tokens text = .ok (.openGroup :: (found ++ [.closeGroup])) := by
  have grouped := reads.group noName [] (by simp [Token.Delimits])
  have nothing : Token.scan [] = .ok [] := Token.scan_nil rfl
  have scanned : Token.scan ('(' :: text.toList ++ [')']) =
      .ok (.openGroup :: (found ++ [.closeGroup])) := by
    rw [List.append_nil, nothing] at grouped
    exact grouped.trans (congrArg Except.ok (List.append_nil _))
  simp only [tokens, scanned]

end FactRules.SharedCondition
