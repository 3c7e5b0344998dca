import FactRules.Proofs.Groups
import FactRules.Proofs.Parsing
import FactRules.Proofs.Templates
import FactRules.Proofs.WellFormed

/-!
Parsing undoes printing. A well-formed condition is built again from its own tokens, group by group,
and whatever is parsed is well-formed.
-/

namespace FactRules

namespace Condition

def joined (word : Token) (terms : List Condition) : List Token :=
  [word].intercalate (termTokens terms)

theorem joined_single (word : Token) (term : Condition) : joined word [term] = term.tokens := by
  simp [joined, termTokens]

theorem joined_cons_cons (word : Token) (term second : Condition) (terms : List Condition) :
    joined word (term :: second :: terms) =
      term.tokens ++ word :: joined word (second :: terms) := by
  simp [joined, termTokens]

def contents : Condition → List Token
  | .leaf comparison => comparison.tokens
  | .all terms => joined (.word "AND") terms
  | .any terms => joined (.word "OR") terms
  | .not inner => .word "NOT" :: inner.tokens

theorem tokens_eq_contents (condition : Condition) :
    condition.tokens = .openGroup :: (condition.contents ++ [.closeGroup]) := by
  cases condition <;> simp [tokens, contents, joined]

end Condition

namespace SharedCondition

open Interner

section

variable {left right : SharedCondition} {condition : Condition}

theorem makes_intern {draft : SharedCondition} (printable : draft.condition.Printable) :
    Makes Faithful (·.condition = draft.condition) (liftM (intern draft)) := by
  intro interner faithful
  exact ⟨_, _, faithful.condition_intern printable, faithful.intern printable, rfl⟩

theorem makes_joined (junction : Junction) (leftPrintable : left.condition.Printable)
    (rightPrintable : right.condition.Printable) :
    Makes Faithful
      (·.condition = junction.node (junction.terms left.condition right.condition))
      (combine junction.operator (.condition left) (.condition right)) := by
  rw [junction.combine_eq, ← junction.condition_draft]
  refine makes_intern ?_
  rw [junction.condition_draft]
  exact junction.printable_terms leftPrintable rightPrintable

theorem makes_not (printable : right.condition.Printable) :
    Makes Faithful (·.condition = .not right.condition)
      (combine .not .marker (.condition right)) := by
  have draft : (SharedCondition.not 0 right).condition = .not right.condition := rfl
  rw [← draft]
  exact makes_intern printable

theorem makes_leaf {comparison : Comparison} (printable : comparison.Printable) :
    Makes Faithful (·.condition = .leaf comparison) (liftM (internLeaf comparison)) :=
  makes_intern (show (SharedCondition.leaf 0 comparison).condition.Printable from printable)

end

theorem builds_leaf {comparison : Comparison} (printable : comparison.Printable) :
    Builds Faithful (·.condition = .leaf comparison) comparison.tokens := by
  have makes := makes_leaf printable
  cases comparison with
  | keyLiteral key operator literal =>
      exact Builds.compare (pushes_key printable.1) (pushes_literal printable.2) makes
  | keyKey left operator right =>
      exact Builds.compare (pushes_key printable.1) (pushes_key printable.2) makes
  | literalLiteral left operator right =>
      exact Builds.compare (pushes_literal printable.1) (pushes_literal printable.2) makes

theorem builds_pair (junction : Junction) {first second : Condition} {inner : List Token}
    (firstPrintable : first.Printable) (secondPrintable : second.Printable)
    (builds : Builds Faithful (·.condition = first) first.contents)
    (buildsSecond : Builds Faithful (·.condition = second) inner) :
    Builds Faithful (·.condition = junction.node (junction.terms first second))
      (first.tokens ++ .word (String.ofList junction.word) :: inner) := by
  rw [Condition.tokens_eq_contents]
  refine Builds.join junction.notGroup junction.waits builds buildsSecond ?_
  rintro left right rfl rfl
  exact makes_joined junction firstPrintable secondPrintable

theorem builds_joined (junction : Junction) :
    ∀ list : List Condition, 2 ≤ list.length → Condition.AllPrintable list →
      (∀ term ∈ list, Builds Faithful (·.condition = term) term.contents) →
      (∀ last ∈ list.getLast?, junction.isNode last = false) →
      Builds Faithful (·.condition = junction.node list)
        (Condition.joined (.word (String.ofList junction.word)) list)
  | [first, second], _, printable, builds, apart => by
      have buildsSecond := (builds second (by simp)).group
      rw [← Condition.tokens_eq_contents] at buildsSecond
      have pair := builds_pair junction printable.1 printable.2.1 (builds first (by simp))
        buildsSecond
      rw [junction.terms_of_isNode (apart second rfl)] at pair
      rwa [Condition.joined_cons_cons, Condition.joined_single]
  | first :: second :: third :: later, _, printable, builds, apart => by
      have several : 2 ≤ (second :: third :: later).length := by simp
      have buildsLater := builds_joined junction (second :: third :: later) several printable.2
        (fun term member => builds term (List.mem_cons_of_mem _ member)) apart
      have laterPrintable := junction.printable_node.2 ⟨several, printable.2⟩
      have pair := builds_pair junction printable.1 laterPrintable (builds first (by simp))
        buildsLater
      rw [junction.terms_node] at pair
      rwa [Condition.joined_cons_cons]

mutual

theorem builds : (condition : Condition) → condition.Printable → condition.Flat →
    Builds Faithful (·.condition = condition) condition.contents
  | .leaf comparison, printable, _ => builds_leaf printable
  | .all terms, printable, flat =>
      builds_joined .all terms printable.1 printable.2 (builds_terms terms printable.2 flat.2)
        flat.1
  | .any terms, printable, flat =>
      builds_joined .any terms printable.1 printable.2 (builds_terms terms printable.2 flat.2)
        flat.1
  | .not inner, printable, flat => by
      have group := (builds inner printable flat).group
      rw [← Condition.tokens_eq_contents] at group
      refine Builds.negate group ?_
      rintro right rfl
      exact makes_not printable

theorem builds_terms : (terms : List Condition) → Condition.AllPrintable terms →
    Condition.AllFlat terms →
    ∀ term ∈ terms, Builds Faithful (·.condition = term) term.contents
  | [], _, _ => by simp
  | first :: terms, printable, flat => by
      intro term member
      rcases List.mem_cons.1 member with same | later
      · rw [same]
        exact builds first printable.1 flat.1
      · exact builds_terms terms printable.2 flat.2 term later

end

theorem tokens_text {condition : Condition} (printable : condition.Printable) :
    tokens condition.text = .ok (.openGroup :: (condition.tokens ++ [.closeGroup])) :=
  tokens_of_reads (Condition.reads_text condition printable) condition.noName_text

/-- The text of a well-formed condition, with its percent signs doubled, is parsed as it. -/
theorem parse_text {condition : Condition} (wellFormed : condition.WellFormed)
    (bindings : List Value) {interner : Interner} (faithful : interner.Faithful) :
    ∃ shared after, shared.condition = condition ∧ after.Faithful ∧
      parse (Template.doubled condition.text) bindings interner = (.ok shared, after) := by
  have group := (builds condition wellFormed.printable wellFormed.flat).group
  rw [← Condition.tokens_eq_contents] at group
  obtain ⟨shared, after, same, stillFaithful, parsed⟩ := group.ofTokens faithful
  refine ⟨shared, after, same, stillFaithful, ?_⟩
  simp only [parse, Template.expand_doubled, tokens_text wellFormed.printable]
  exact parsed

def WellFormedOperand : Operand → Prop
  | .key path => IsKey path
  | .literal literal => literal.Printable
  | .condition shared => shared.condition.WellFormed
  | .marker => True

theorem keeps_intern {draft : SharedCondition} (wellFormed : draft.condition.WellFormed)
    {interner : Interner} (faithful : interner.Faithful) :
    Keeps Faithful (fun _ shared => WellFormedOperand (.condition shared))
      (liftM (intern draft) : Sharing ParseError SharedCondition) interner := by
  refine ⟨intern_extends draft interner, faithful.intern wellFormed.printable, ?_⟩
  intro shared same
  have isShared : (intern draft interner).1 = shared := Except.ok.inj same
  have like := faithful.condition_intern wellFormed.printable
  rw [isShared] at like
  rw [WellFormedOperand, like]
  exact wellFormed

theorem Drafts.wellFormed {operator : Pending} {left right : Operand} {draft : SharedCondition}
    (drafts : Drafts operator left right draft) (leftFormed : WellFormedOperand left)
    (rightFormed : WellFormedOperand right) : draft.condition.WellFormed := by
  cases drafts with
  | keyLiteral | keyKey | literalLiteral => exact ⟨⟨leftFormed, rightFormed⟩, trivial⟩
  | joined junction =>
      rw [junction.condition_draft]
      exact Condition.WellFormed.join junction leftFormed rightFormed
  | negated => exact ⟨rightFormed.printable, rightFormed.flat⟩

theorem keeps_combine {interner : Interner} (faithful : interner.Faithful) {left right : Operand}
    (leftFormed : WellFormedOperand left) (rightFormed : WellFormedOperand right)
    (operator : Pending) :
    Keeps Faithful (fun _ shared => WellFormedOperand (.condition shared))
      (combine operator left right) interner := by
  rcases combine_cases operator left right with ⟨draft, drafts, interns⟩ | ⟨error, fails⟩
  · rw [interns]
    exact keeps_intern (drafts.wellFormed leftFormed rightFormed) faithful
  · rw [fails]
    exact Keeps.throw faithful error

theorem invariant_wellFormed : Invariant Faithful (Keeps Faithful) fun _ => WellFormedOperand where
  toJudges := Keeps.judges Faithful
  grows _ _ formed := formed
  marker _ := trivial
  key _ _ isKey := isKey
  literal _ _ printable := printable
  combine faithful leftFormed rightFormed operator :=
    keeps_combine faithful leftFormed rightFormed operator

end SharedCondition

end FactRules
