import FactRules.Proofs.Enclosed
import FactRules.Proofs.RoundTrip

/-!
Sentences: the sequences of tokens that are read as conditions, and what they say. A connective
joins a group in parentheses to everything behind it up to the end of its own group, and NOT negates
all of that, so that a sentence is read from the right. Every sentence is parsed as what it says.
-/

namespace FactRules

open SharedCondition

inductive Term : List Token → Operand → Prop where
  | key {word : String} (notConnective : Pending.ofWord? word = none) :
      Term [.word word] (.key word)
  | constant (literal : Literal) : Term [.constant literal] (.literal literal)
  | number {text : String} {literal : Literal}
      (inRange : Stacks.literalOfNumber? text = some literal) :
      Term [.number text] (.literal literal)
  | group {tokens : List Token} {operand : Operand} (term : Term tokens operand) :
      Term (.openGroup :: (tokens ++ [.closeGroup])) operand

/-- The tokens say the condition. An AND in front of an AND becomes its first term, and an OR
likewise. -/
inductive Sentence : List Token → Condition → Prop where
  | keyLiteral {left right : List Token} {key : String} {literal : Literal} (operator : Operator)
      (leftTerm : Term left (.key key)) (rightTerm : Term right (.literal literal)) :
      Sentence (left ++ .compare operator :: right) (.leaf (.keyLiteral key operator literal))
  | keyKey {left right : List Token} {key otherKey : String} (operator : Operator)
      (leftTerm : Term left (.key key)) (rightTerm : Term right (.key otherKey)) :
      Sentence (left ++ .compare operator :: right) (.leaf (.keyKey key operator otherKey))
  | literalLiteral {left right : List Token} {literal otherLiteral : Literal} (operator : Operator)
      (leftTerm : Term left (.literal literal)) (rightTerm : Term right (.literal otherLiteral)) :
      Sentence (left ++ .compare operator :: right)
        (.leaf (.literalLiteral literal operator otherLiteral))
  | group {tokens : List Token} {condition : Condition} (inner : Sentence tokens condition) :
      Sentence (.openGroup :: (tokens ++ [.closeGroup])) condition
  | join {left right : List Token} {first second : Condition} {word : String} (junction : Junction)
      (connective : Pending.ofWord? word = some junction.operator)
      (leftSentence : Sentence left first) (rightSentence : Sentence right second) :
      Sentence (.openGroup :: (left ++ [.closeGroup]) ++ .word word :: right)
        (junction.node (junction.terms first second))
  | negate {tokens : List Token} {condition : Condition} {word : String}
      (negation : Pending.ofWord? word = some .not) (inner : Sentence tokens condition) :
      Sentence (.word word :: tokens) (.not condition)

def Opens (tokens : List Token) : Prop :=
  ∃ first later, tokens = first :: later ∧ first ≠ .closeGroup ∧
    (first = .openGroup ∨ ∀ second ∈ later.head?, second ≠ .closeGroup)

theorem Opens.append_cons {tokens : List Token} (opens : Opens tokens) {next : Token}
    (notClose : next ≠ .closeGroup) (later : List Token) : Opens (tokens ++ next :: later) := by
  obtain ⟨first, rest, rfl, firstNotClose, open_or⟩ := opens
  refine ⟨first, rest ++ next :: later, rfl, firstNotClose, open_or.imp_right ?_⟩
  intro notClosed second isHead
  cases rest with
  | nil =>
      cases isHead
      exact notClose
  | cons other rest => exact notClosed second isHead

theorem opens_group (tokens : List Token) : Opens (.openGroup :: tokens) :=
  ⟨_, tokens, rfl, by simp, Or.inl rfl⟩

theorem Term.opens {tokens : List Token} {operand : Operand} (term : Term tokens operand) :
    Opens tokens := by
  cases term with
  | key => exact ⟨_, [], rfl, by simp, Or.inr (by simp)⟩
  | constant => exact ⟨_, [], rfl, by simp, Or.inr (by simp)⟩
  | number => exact ⟨_, [], rfl, by simp, Or.inr (by simp)⟩
  | group => exact opens_group _

theorem Sentence.opens {tokens : List Token} {condition : Condition}
    (sentence : Sentence tokens condition) : Opens tokens := by
  induction sentence with
  | keyLiteral operator leftTerm _ => exact leftTerm.opens.append_cons (by simp) _
  | keyKey operator leftTerm _ => exact leftTerm.opens.append_cons (by simp) _
  | literalLiteral operator leftTerm _ => exact leftTerm.opens.append_cons (by simp) _
  | group => exact opens_group _
  | join => exact opens_group _
  | negate _ _ ih =>
      obtain ⟨first, later, rfl, notClose, _⟩ := ih
      refine ⟨_, _, rfl, by simp, Or.inr ?_⟩
      rintro second ⟨⟩
      exact notClose

theorem Term.shifts {tokens : List Token} {operand : Operand} (term : Term tokens operand) :
    Shifts tokens operand := by
  induction term with
  | key notConnective =>
      refine Pushes.shifts fun shifted => ?_
      simp only [Stacks.shift, notConnective]
  | constant literal => exact Pushes.shifts fun _ => rfl
  | number inRange =>
      refine Pushes.shifts fun shifted => ?_
      simp only [Stacks.shift, inRange]
  | group _ ih => exact ih.group

theorem Term.wellFormed {tokens : List Token} {operand : Operand} (term : Term tokens operand)
    (legal : ∀ token ∈ tokens, token.Legal) : WellFormedOperand operand := by
  induction term with
  | key notConnective => exact Token.Legal.isKey (legal _ List.mem_cons_self) notConnective
  | constant literal => exact Token.Legal.printable (legal _ List.mem_cons_self)
  | number inRange => exact Stacks.printable_of_literalOfNumber? inRange
  | group _ ih => exact ih fun token member => legal token (by simp [member])

theorem builds_comparison {left right : List Token} {leftOperand rightOperand : Operand}
    (leftTerm : Term left leftOperand) (rightTerm : Term right rightOperand)
    (comparison : Comparison) (printable : comparison.Printable)
    (combines : combine (.compare comparison.operator) leftOperand rightOperand =
      liftM (Interner.internLeaf comparison)) :
    (Condition.leaf comparison).Printable ∧
      Builds Interner.Faithful (·.condition = .leaf comparison)
        (left ++ .compare comparison.operator :: right) := by
  refine ⟨printable, Builds.comparison leftTerm.shifts rightTerm.shifts ?_⟩
  rw [combines]
  exact makes_leaf printable

theorem Sentence.builds {tokens : List Token} {condition : Condition}
    (sentence : Sentence tokens condition) (legal : ∀ token ∈ tokens, token.Legal) :
    condition.Printable ∧ Builds Interner.Faithful (·.condition = condition) tokens := by
  induction sentence with
  | keyLiteral operator leftTerm rightTerm =>
      have isKey := leftTerm.wellFormed fun token member => legal token (by simp [member])
      have readable := rightTerm.wellFormed fun token member => legal token (by simp [member])
      exact builds_comparison leftTerm rightTerm (.keyLiteral ..) ⟨isKey, readable⟩ rfl
  | keyKey operator leftTerm rightTerm =>
      have isKey := leftTerm.wellFormed fun token member => legal token (by simp [member])
      have otherIsKey := rightTerm.wellFormed fun token member => legal token (by simp [member])
      exact builds_comparison leftTerm rightTerm (.keyKey ..) ⟨isKey, otherIsKey⟩ rfl
  | literalLiteral operator leftTerm rightTerm =>
      have readable := leftTerm.wellFormed fun token member => legal token (by simp [member])
      have otherReadable := rightTerm.wellFormed fun token member => legal token (by simp [member])
      exact builds_comparison leftTerm rightTerm (.literalLiteral ..)
        ⟨readable, otherReadable⟩ rfl
  | group _ ih =>
      obtain ⟨printable, builds⟩ := ih fun token member => legal token (by simp [member])
      exact ⟨printable, builds.group⟩
  | join junction connective _ _ leftBuilds rightBuilds =>
      obtain ⟨firstPrintable, buildsFirst⟩ :=
        leftBuilds fun token member => legal token (by simp [member])
      obtain ⟨secondPrintable, buildsSecond⟩ :=
        rightBuilds fun token member => legal token (by simp [member])
      refine ⟨junction.printable_terms firstPrintable secondPrintable, ?_⟩
      refine Builds.join junction.notGroup (junction.waits_of_ofWord? connective) buildsFirst
        buildsSecond ?_
      rintro left right rfl rfl
      exact makes_joined junction firstPrintable secondPrintable
  | negate negation _ ih =>
      obtain ⟨printable, builds⟩ := ih fun token member => legal token (by simp [member])
      refine ⟨printable, builds.negation ?_ ?_⟩
      · intro shifted
        simp only [Stacks.shift, negation]
      · rintro right rfl
        exact makes_not printable

theorem Sentence.tokens_eq {tokens : List Token} {condition : Condition}
    (sentence : Sentence tokens condition) {text : String}
    (scanned : Token.scan text.toList = .ok tokens) :
    SharedCondition.tokens text = .ok (.openGroup :: (tokens ++ [.closeGroup])) := by
  rcases Token.scan_enclosed text.toList with ⟨own, found, read, enclosed, encloses⟩ | stuck
  · rw [scanned] at read
    cases read
    cases encloses with
    | group => exact tokens_of_scan enclosed
    | typed notOpen notClose shape =>
        obtain ⟨first, later, same, _, openOrNot⟩ := sentence.opens
        rw [shape] at same
        cases same
        rcases openOrNot with isOpen | notClosed
        · exact absurd isOpen notOpen
        · exact absurd rfl (notClosed _ rfl)
  · obtain ⟨_, _, failed, _⟩ := stuck
    rw [scanned] at failed
    cases failed

/-- Every sentence is parsed as the condition that it says. -/
theorem parse_sentence (nextIdentity : Nat) {text expanded : String} {bindings : List Value}
    {tokens : List Token} {condition : Condition}
    (written : Template.expand text bindings = .ok expanded)
    (scanned : Token.scan expanded.toList = .ok tokens) (sentence : Sentence tokens condition) :
    ∃ shared after, parse text bindings { nextIdentity, known := [] } = (.ok shared, after) ∧
      shared.condition = condition := by
  have legal := (Token.scanned_of_scan scanned).legal
  have empty : Interner.Faithful { nextIdentity, known := [] } := Interner.faithful_of_empty rfl
  obtain ⟨shared, after, same, _, parsed⟩ := (sentence.builds legal).2.ofTokens empty
  refine ⟨shared, after, ?_, same⟩
  rw [parse_of_tokens written (sentence.tokens_eq scanned)]
  exact parsed

/-- A group, a negation up to the end of its group, and a comparison of terms in parentheses. -/
theorem parse_sentence_rate : ∃ shared after,
    parse "(low = 1) and (not low = high) AND ((rate)) <= ('x')" []
      { nextIdentity := 0, known := [] } = (.ok shared, after) ∧
    shared.condition = .all [.leaf (.keyLiteral "low" .equal (.integer 1)),
      .not (.leaf (.keyKey "low" .equal "high")),
      .leaf (.keyLiteral "rate" .lessOrEqual (.string "x"))] := by
  have scanned : Token.Scanned "(low = 1) and (not low = high) AND ((rate)) <= ('x')".toList
      [.openGroup, .word "low", .compare .equal, .number "1", .closeGroup, .word "and",
        .openGroup, .word "not", .word "low", .compare .equal, .word "high", .closeGroup,
        .word "AND", .openGroup, .openGroup, .word "rate", .closeGroup, .closeGroup,
        .compare .lessOrEqual, .openGroup, .constant (.string "x"), .closeGroup] := by
    repeat refine .step rfl rfl ?_
    exact .nil rfl
  have low : Sentence [.word "low", .compare .equal, .number "1"]
      (.leaf (.keyLiteral "low" .equal (.integer 1))) :=
    .keyLiteral .equal (.key rfl) (.number rfl)
  have apart : Sentence [.word "not", .word "low", .compare .equal, .word "high"]
      (.not (.leaf (.keyKey "low" .equal "high"))) :=
    .negate rfl (.keyKey .equal (.key rfl) (.key rfl))
  have rate : Sentence [.openGroup, .openGroup, .word "rate", .closeGroup, .closeGroup,
      .compare .lessOrEqual, .openGroup, .constant (.string "x"), .closeGroup]
      (.leaf (.keyLiteral "rate" .lessOrEqual (.string "x"))) :=
    .keyLiteral .lessOrEqual (.group (.group (.key rfl))) (.group (.constant _))
  exact parse_sentence 0 rfl scanned.scan_eq (.join .all rfl low (.join .all rfl apart rate))

end FactRules
