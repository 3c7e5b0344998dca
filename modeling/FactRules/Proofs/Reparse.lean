import FactRules.Proofs.Percents
import FactRules.Proofs.RoundTrip

/-!
Parsing a canonical text again. Whatever has been parsed is found again from its own tokens, also
when the interner has been given conditions that no text is read as. But the text is a template, and
two percent signs in it, or one before the letter of a conversion, do not stand for themselves.
-/

namespace FactRules

theorem Condition.inner_eq_of_text_eq {left right : Condition} (same : left.text = right.text) :
    left.inner = right.inner := by
  have leftText := left.text_eq_inner
  rw [same, right.text_eq_inner] at leftText
  simpa using leftText.symm

namespace SharedCondition

open Interner

/-- The text, wherever it stands, is answered with this very condition, now and later. -/
def Stands (interner : Interner) (shared : SharedCondition) (text : List Char) : Prop :=
  ∃ tokens, Token.Reads text tokens ∧
    ∀ later : Interner, later.Extends interner → Builds (· = later) (· = shared) tokens

/-- The condition is found again from what its text has between the parentheses. -/
structure Rebuilds (interner : Interner) (shared : SharedCondition) : Prop where
  nonempty : shared.condition.inner ≠ []
  noName : Token.NoName shared.condition.inner
  stands : Stands interner shared shared.condition.inner

def Repeats (interner : Interner) : Operand → Prop
  | .key path => IsKey path
  | .literal literal => literal.Printable
  | .condition shared => Rebuilds interner shared
  | .marker => True

theorem Repeats.grows {earlier later : Interner} {operand : Operand}
    (grows : later.Extends earlier) (repeats : Repeats earlier operand) :
    Repeats later operand := by
  cases operand with
  | condition shared =>
      obtain ⟨nonempty, noName, tokens, reads, builds⟩ := repeats
      exact ⟨nonempty, noName, tokens, reads, fun latest more => builds latest (more.trans grows)⟩
  | key | literal | marker => exact repeats

section

variable {interner : Interner}

theorem Rebuilds.group {shared : SharedCondition} (rebuilds : Rebuilds interner shared) :
    Stands interner shared shared.text.toList := by
  obtain ⟨tokens, reads, builds⟩ := rebuilds.stands
  refine ⟨_, ?_, fun later grows => (builds later grows).group⟩
  rw [SharedCondition.text, Condition.text_eq_inner]
  exact reads.group rebuilds.noName

theorem makes_known {draft shared : SharedCondition}
    (known : Table.find? interner.known draft.text = some shared) :
    Makes (· = interner) (· = shared)
      (liftM (intern draft) : Sharing ParseError SharedCondition) := by
  intro other same
  refine ⟨shared, interner, rfl, rfl, ?_⟩
  have lifted : (liftM (intern draft) : Sharing ParseError SharedCondition) interner =
      (.ok (intern draft interner).1, (intern draft interner).2) := rfl
  rw [same, lifted, intern_known known]

theorem keeps_draft (keyed : interner.Keyed) {draft : SharedCondition} {tokens : List Token}
    (nonempty : draft.condition.inner ≠ []) (noName : Token.NoName draft.condition.inner)
    (reads : Token.Reads draft.condition.inner tokens)
    (builds : ∀ later shared, later.Extends interner →
      Table.find? later.known draft.text = some shared →
      Builds (· = later) (· = shared) tokens) :
    Keeps Keyed (fun after shared => Repeats after (.condition shared))
      (liftM (intern draft) : Sharing ParseError SharedCondition) interner := by
  refine ⟨intern_extends draft interner, keyed.intern draft, ?_⟩
  intro shared same
  have isShared : (intern draft interner).1 = shared := Except.ok.inj same
  have found := find?_intern draft interner
  have sameText := keyed.text_intern draft
  rw [isShared] at found sameText
  have sameInner := Condition.inner_eq_of_text_eq sameText
  rw [← sameInner] at nonempty noName reads
  refine ⟨nonempty, noName, tokens, reads, ?_⟩
  intro later grows
  exact builds later shared (grows.trans (intern_extends draft interner)) (grows _ _ found)

theorem keeps_comparison (keyed : interner.Keyed) {comparison : Comparison}
    (printable : comparison.Printable) {left right : Token} {leftOperand rightOperand : Operand}
    (tokens : comparison.tokens = [left, .compare comparison.operator, right])
    (leftPushes : Pushes left leftOperand) (rightPushes : Pushes right rightOperand)
    (combines : combine (.compare comparison.operator) leftOperand rightOperand =
      liftM (intern (.leaf 0 comparison))) :
    Keeps Keyed (fun after shared => Repeats after (.condition shared))
      (combine (.compare comparison.operator) leftOperand rightOperand) interner := by
  rw [combines]
  have nonempty : comparison.inner ≠ [] := by cases comparison <;> simp [Comparison.inner]
  refine keeps_draft keyed nonempty (Comparison.noName_inner printable)
    (Comparison.reads_inner printable) ?_
  intro later shared _ known
  rw [tokens]
  refine Builds.compare leftPushes rightPushes ?_
  rw [combines]
  exact makes_known known

theorem keeps_joined (keyed : interner.Keyed) (junction : Junction) {left right : SharedCondition}
    (rebuilds : Rebuilds interner left) {rightText : List Char}
    (stands : Stands interner right rightText)
    (text : (junction.draft left right).condition.inner =
      left.text.toList ++ ' ' :: (junction.word ++ ' ' :: rightText)) :
    Keeps Keyed (fun after shared => Repeats after (.condition shared))
      (combine junction.operator (.condition left) (.condition right)) interner := by
  obtain ⟨tokens, reads, builds⟩ := rebuilds.stands
  obtain ⟨rightTokens, readsRight, buildsRight⟩ := stands
  rw [SharedCondition.text, Condition.text_eq_inner] at text
  have nonempty : (junction.draft left right).condition.inner ≠ [] := by simp [text]
  have noName : Token.NoName (junction.draft left right).condition.inner := by
    rw [text]
    exact Token.noName_of_head rfl
  have readsDraft := (reads.group rebuilds.noName).space
    ((Token.reads_word junction.isWord).space readsRight)
  rw [← text] at readsDraft
  rw [junction.combine_eq]
  refine keeps_draft keyed nonempty noName readsDraft ?_
  intro later shared grows known
  refine Builds.join junction.notGroup junction.waits (builds later grows)
    (buildsRight later grows) ?_
  rintro _ _ rfl rfl
  rw [junction.combine_eq]
  exact makes_known known

theorem keeps_joining_again (keyed : interner.Keyed) (junction : Junction)
    {left right : SharedCondition} (leftRebuilds : Rebuilds interner left)
    (rightRebuilds : Rebuilds interner right) :
    Keeps Keyed (fun after shared => Repeats after (.condition shared))
      (combine junction.operator (.condition left) (.condition right)) interner := by
  rcases junction.terms_cases left.condition right.condition with
    ⟨list, isNode, same⟩ | ⟨_, same⟩
  · have nonempty := rightRebuilds.nonempty
    refine keeps_joined keyed junction leftRebuilds rightRebuilds.stands ?_
    rw [isNode] at nonempty
    rw [junction.condition_draft, same, isNode]
    exact junction.inner_cons left.condition nonempty
  · refine keeps_joined keyed junction leftRebuilds rightRebuilds.group ?_
    rw [junction.condition_draft, same]
    exact junction.inner_pair left.condition right.condition

theorem keeps_not (keyed : interner.Keyed) {right : SharedCondition}
    (rebuilds : Rebuilds interner right) :
    Keeps Keyed (fun after shared => Repeats after (.condition shared))
      (combine .not .marker (.condition right)) interner := by
  obtain ⟨tokens, reads, builds⟩ := rebuilds.group
  have combines : combine .not .marker (.condition right) =
      (liftM (intern (.not 0 right)) : Sharing ParseError SharedCondition) := rfl
  have noClose : ')' ∉ ['N', 'O', 'T'] := by decide
  have nonempty : (SharedCondition.not 0 right).condition.inner ≠ [] := List.cons_ne_nil _ _
  rw [combines]
  refine keeps_draft keyed nonempty (Token.noName_of_space noClose _)
    ((Token.reads_word Condition.isWord_not).space reads) ?_
  intro later shared grows known
  refine Builds.negate (builds later grows) ?_
  rintro _ rfl
  exact makes_known known

theorem keeps_repeats (keyed : interner.Keyed) {left right : Operand}
    (leftRepeats : Repeats interner left) (rightRepeats : Repeats interner right)
    (operator : Pending) :
    Keeps Keyed (fun after shared => Repeats after (.condition shared))
      (combine operator left right) interner := by
  rcases combine_cases operator left right with ⟨draft, drafts, _⟩ | ⟨error, fails⟩
  · cases drafts with
    | keyLiteral key operator literal =>
        have printable : (Comparison.keyLiteral key operator literal).Printable :=
          ⟨leftRepeats, rightRepeats⟩
        exact keeps_comparison keyed printable rfl (pushes_key leftRepeats)
          (pushes_literal rightRepeats) rfl
    | keyKey left operator right =>
        have printable : (Comparison.keyKey left operator right).Printable :=
          ⟨leftRepeats, rightRepeats⟩
        exact keeps_comparison keyed printable rfl (pushes_key leftRepeats)
          (pushes_key rightRepeats) rfl
    | literalLiteral left operator right =>
        have printable : (Comparison.literalLiteral left operator right).Printable :=
          ⟨leftRepeats, rightRepeats⟩
        exact keeps_comparison keyed printable rfl (pushes_literal leftRepeats)
          (pushes_literal rightRepeats) rfl
    | joined junction => exact keeps_joining_again keyed junction leftRepeats rightRepeats
    | negated => exact keeps_not keyed rightRepeats
  · rw [fails]
    exact Keeps.throw keyed error

theorem invariant_repeats : Invariant Keyed (Keeps Keyed) Repeats where
  toJudges := Keeps.judges Keyed
  grows grows _ repeats := repeats.grows grows
  marker _ := trivial
  key _ _ isKey := isKey
  literal _ _ printable := printable
  combine keyed leftRepeats rightRepeats operator :=
    keeps_repeats keyed leftRepeats rightRepeats operator

theorem Rebuilds.parse_text {shared : SharedCondition} (rebuilds : Rebuilds interner shared)
    (plain : Template.Plain shared.text.toList) {later : Interner}
    (grows : later.Extends interner) : parse shared.text [] later = (.ok shared, later) := by
  obtain ⟨found, reads, builds⟩ := rebuilds.group
  have noName : Token.NoName shared.text.toList := shared.condition.noName_text
  have written := Template.expand_of_plain plain []
  obtain ⟨again, after, rfl, rfl, parsed⟩ := (builds later grows).ofTokens rfl
  simp only [parse, written, tokens_of_reads reads noName]
  exact parsed

theorem plain_of_parse_text (keyed : interner.Keyed) {shared : SharedCondition}
    {after : Interner} (parsed : parse shared.text [] interner = (.ok shared, after)) :
    Template.Plain shared.text.toList := by
  cases written : Template.expandFrom 0 [] shared.text.toList with
  | error error =>
      have failed : Template.expand shared.text [] = .error error := by
        rw [Template.expand, written]
        rfl
      simp only [parse, failed] at parsed
      cases parsed
  | ok expanded =>
      have succeeded : Template.expand shared.text [] = .ok (String.ofList expanded) := by
        rw [Template.expand, written]
        rfl
      rcases Template.plain_or_count_lt rfl written with plain | lost
      · exact plain
      · have fewer := ((percents_parse keyed succeeded).of_ok parsed).2
        rw [String.toList_ofList] at fewer
        exact absurd lost (Nat.not_lt.2 fewer)

end

/-- From whatever state of the interner a condition has been parsed, and whatever has been shared
since: parsing its text gives it again exactly if the text has nothing that a template would
replace. -/
theorem parse_text_iff_plain {nextIdentity : Nat} {before after later : Interner}
    (reached : Reached { nextIdentity, known := [] } before) {text : String}
    {bindings : List Value} {shared : SharedCondition}
    (parsed : parse text bindings before = (.ok shared, after)) (further : Reached after later) :
    (parse shared.text [] later).1 = .ok shared ↔ Template.Plain shared.text.toList := by
  have empty : Faithful { nextIdentity, known := [] } := faithful_of_empty rfl
  have keyed := reached.keyed empty.keyed
  obtain ⟨keyedAfter, rebuilds⟩ := (invariant_repeats.parse keyed text bindings).of_ok parsed
  constructor
  · intro again
    have split : parse shared.text [] later = (.ok shared, (parse shared.text [] later).2) :=
      Prod.ext again rfl
    exact plain_of_parse_text (further.keyed keyedAfter) split
  · intro plain
    have rebuilt : Rebuilds after shared := rebuilds
    rw [rebuilt.parse_text plain further.extends]

/-- The percent sign of the literal is taken for a placeholder when its text is parsed. -/
theorem parse_text_rate : ∃ shared after,
    parse "(rate = '5%%d')" [] { nextIdentity := 0, known := [] } = (.ok shared, after) ∧
    shared.text = "(rate = '5%d')" ∧ (parse shared.text [] after).1 ≠ .ok shared := by
  have rate : IsKey "rate" := ⟨scan_of_isWord ⟨List.all_eq_true.1 rfl, by decide, rfl, rfl, rfl⟩, rfl⟩
  have wellFormed : (Condition.leaf (.keyLiteral "rate" .equal (.string "5%d"))).WellFormed :=
    ⟨⟨rate, trivial⟩, trivial⟩
  have empty : Faithful { nextIdentity := 0, known := [] } := faithful_of_empty rfl
  obtain ⟨shared, after, same, _, parsed⟩ := parse_text wellFormed [] empty
  have template : Template.doubled
      (Condition.leaf (.keyLiteral "rate" .equal (.string "5%d"))).text = "(rate = '5%%d')" := by
    decide
  have text : shared.text = "(rate = '5%d')" := by
    rw [SharedCondition.text, same]
    decide
  rw [template] at parsed
  refine ⟨shared, after, parsed, text, ?_⟩
  intro again
  have plain := (parse_text_iff_plain .start parsed .start).1 again
  have placeholder := plain "(rate = '5".toList 'd' "')".toList (by rw [text]; decide)
  exact absurd placeholder.2 (by decide)

end SharedCondition

end FactRules
