import FactRules.Proofs.Printing

/-!
AND and OR, of which one is as good as the other: the words for them, the nodes they make, and the
terms of those nodes, where a node of the same kind on the right gives its own. With them go the
other operators: which draft each of them makes of which operands.
-/

namespace FactRules

inductive Junction where
  | all
  | any

namespace Junction

def operator : Junction → Pending
  | .all => .and
  | .any => .or

def word : Junction → List Char
  | .all => ['A', 'N', 'D']
  | .any => ['O', 'R']

def node : Junction → List Condition → Condition
  | .all => .all
  | .any => .any

def isNode : Junction → Condition → Bool
  | .all, .all _ => true
  | .any, .any _ => true
  | _, _ => false

def terms (junction : Junction) (left right : Condition) : List Condition :=
  match junction, right with
  | .all, .all list => left :: list
  | .any, .any list => left :: list
  | _, _ => [left, right]

def draft : Junction → SharedCondition → SharedCondition → SharedCondition
  | .all, left, right => .all 0 (SharedCondition.allTerms left right)
  | .any, left, right => .any 0 (SharedCondition.anyTerms left right)

section

variable (junction : Junction)

theorem isWord : Token.IsWord junction.word := by
  cases junction with
  | all => exact Condition.isWord_and
  | any => exact Condition.isWord_or

theorem notGroup : junction.operator ≠ .openGroup := by
  cases junction <;> decide

theorem waits_of_ofWord? {word : String}
    (connective : Pending.ofWord? word = some junction.operator)
    (shifted : SharedCondition.Stacks) :
    shifted.shift (.word word) = pure (shifted.wait junction.operator) := by
  simp only [SharedCondition.Stacks.shift, connective]
  cases junction <;> rfl

theorem waits (shifted : SharedCondition.Stacks) :
    shifted.shift (.word (String.ofList junction.word)) =
      pure (shifted.wait junction.operator) :=
  junction.waits_of_ofWord? (by cases junction <;> rfl) shifted

theorem combine_eq (left right : SharedCondition) :
    SharedCondition.combine junction.operator (.condition left) (.condition right) =
      liftM (Interner.intern (junction.draft left right)) := by
  cases junction <;> rfl

theorem condition_draft (left right : SharedCondition) :
    (junction.draft left right).condition =
      junction.node (junction.terms left.condition right.condition) := by
  cases junction <;> cases right <;> rfl

theorem terms_node (left : Condition) (list : List Condition) :
    junction.terms left (junction.node list) = left :: list := by
  cases junction <;> rfl

theorem terms_of_isNode {right : Condition} (apart : junction.isNode right = false)
    (left : Condition) : junction.terms left right = [left, right] := by
  cases junction <;> cases right <;> first | rfl | cases apart

theorem terms_cases (left right : Condition) :
    (∃ list, right = junction.node list ∧ junction.terms left right = left :: list) ∨
      junction.isNode right = false ∧ junction.terms left right = [left, right] := by
  cases apart : junction.isNode right with
  | false => exact Or.inr ⟨rfl, junction.terms_of_isNode apart left⟩
  | true =>
      have isNode : ∃ list, right = junction.node list := by
        cases junction <;> cases right <;> first | exact ⟨_, rfl⟩ | cases apart
      obtain ⟨list, same⟩ := isNode
      exact Or.inl ⟨list, same, same ▸ junction.terms_node left list⟩

theorem printable_node {list : List Condition} :
    (junction.node list).Printable ↔ 2 ≤ list.length ∧ Condition.AllPrintable list := by
  cases junction <;> exact Iff.rfl

theorem printable_terms {left right : Condition} (leftPrintable : left.Printable)
    (rightPrintable : right.Printable) :
    (junction.node (junction.terms left right)).Printable := by
  rw [printable_node]
  rcases junction.terms_cases left right with ⟨list, rfl, same⟩ | ⟨_, same⟩
  · obtain ⟨several, allPrintable⟩ := junction.printable_node.1 rightPrintable
    rw [same, List.length_cons]
    exact ⟨by omega, leftPrintable, allPrintable⟩
  · rw [same]
    exact ⟨Nat.le_refl 2, leftPrintable, rightPrintable, trivial⟩

theorem inner_cons (first : Condition) {list : List Condition}
    (nonempty : (junction.node list).inner ≠ []) :
    (junction.node (first :: list)).inner =
      first.text.toList ++ ' ' :: (junction.word ++ ' ' :: (junction.node list).inner) := by
  cases list with
  | nil => exact absurd (by cases junction <;> rfl) nonempty
  | cons second later => cases junction <;> simp [node, word, Condition.inner, Condition.termTexts]

theorem inner_pair (left right : Condition) :
    (junction.node [left, right]).inner =
      left.text.toList ++ ' ' :: (junction.word ++ ' ' :: right.text.toList) := by
  cases junction <;> simp [node, word, Condition.inner, Condition.termTexts]

end

end Junction

namespace SharedCondition

open Interner

/-- The draft that an operator makes of two operands that go together. -/
inductive Drafts : Pending → Operand → Operand → SharedCondition → Prop where
  | keyLiteral (key : String) (operator : Operator) (literal : Literal) :
      Drafts (.compare operator) (.key key) (.literal literal)
        (.leaf 0 (.keyLiteral key operator literal))
  | keyKey (left : String) (operator : Operator) (right : String) :
      Drafts (.compare operator) (.key left) (.key right) (.leaf 0 (.keyKey left operator right))
  | literalLiteral (left : Literal) (operator : Operator) (right : Literal) :
      Drafts (.compare operator) (.literal left) (.literal right)
        (.leaf 0 (.literalLiteral left operator right))
  | joined (junction : Junction) (left right : SharedCondition) :
      Drafts junction.operator (.condition left) (.condition right) (junction.draft left right)
  | negated (right : SharedCondition) : Drafts .not .marker (.condition right) (.not 0 right)

/-- An operator interns its draft, or the operands do not go together. -/
theorem combine_cases (operator : Pending) (left right : Operand) :
    (∃ draft, Drafts operator left right draft ∧
      combine operator left right = liftM (intern draft)) ∨
    ∃ error, combine operator left right = MonadExcept.throw error := by
  unfold combine
  split
  · exact .inl ⟨_, .keyLiteral .., rfl⟩
  · exact .inl ⟨_, .keyKey .., rfl⟩
  · exact .inl ⟨_, .literalLiteral .., rfl⟩
  · exact .inl ⟨_, .joined .all .., rfl⟩
  · exact .inl ⟨_, .joined .any .., rfl⟩
  · exact .inl ⟨_, .negated .., rfl⟩
  · exact .inr ⟨_, rfl⟩

theorem drafts_of_combine {operator : Pending} {left right : Operand} {shared : SharedCondition}
    {interner after : Interner}
    (combined : combine operator left right interner = (.ok shared, after)) :
    ∃ draft, Drafts operator left right draft ∧ intern draft interner = (shared, after) := by
  rcases combine_cases operator left right with ⟨draft, drafts, interns⟩ | ⟨error, fails⟩
  · rw [interns] at combined
    cases combined
    exact ⟨draft, drafts, rfl⟩
  · rw [fails] at combined
    cases combined

end SharedCondition

end FactRules
