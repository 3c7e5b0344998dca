import FactRules.Proofs.Origins
import FactRules.Proofs.Positive
import FactRules.Proofs.RoundTrip

/-!
Flattening keeps the meaning. A node that has taken the terms of its right operand is evaluated like
the node of the two operands, and so is the tree that a text is parsed as like the one in which
every AND and every OR has kept its two operands.
-/

namespace FactRules

inductive Phrase where
  | key (path : String)
  | literal (literal : Literal)
  | condition (condition : Condition)
  | marker

namespace Operand

def phrase : Operand → Phrase
  | .key path => .key path
  | .literal value => .literal value
  | .condition shared => .condition shared.condition
  | .marker => .marker

end Operand

namespace Junction

def pair (_ : Junction) (left right : Condition) : List Condition :=
  [left, right]

end Junction

namespace Phrase

def join? (terms : Junction → Condition → Condition → List Condition) :
    Pending → Phrase → Phrase → Option Condition
  | .compare operator, .key path, .literal value => some (.leaf (.keyLiteral path operator value))
  | .compare operator, .key left, .key right => some (.leaf (.keyKey left operator right))
  | .compare operator, .literal left, .literal right =>
      some (.leaf (.literalLiteral left operator right))
  | .and, .condition left, .condition right => some (.all (terms .all left right))
  | .or, .condition left, .condition right => some (.any (terms .any left right))
  | .not, .marker, .condition right => some (.not right)
  | _, _, _ => none

end Phrase

namespace Condition

/-- Evaluated alike against everything, with the same failures and the same state left behind. -/
def Alike (left right : Condition) : Prop :=
  ∀ (σ : Type) (types : TypeTable) (source : Source σ),
    left.evaluateFrom types source = right.evaluateFrom types source

section

variable {first second third : Condition}

theorem Alike.refl (condition : Condition) : condition.Alike condition :=
  fun _ _ _ => rfl

theorem Alike.trans (early : first.Alike second) (late : second.Alike third) : first.Alike third :=
  fun σ types source => (early σ types source).trans (late σ types source)

theorem Alike.not (alike : first.Alike second) : (Condition.not first).Alike (.not second) := by
  intro σ types source
  rw [evaluateFrom, evaluateFrom, alike σ types source]

theorem Alike.evaluate (alike : first.Alike second) (types : TypeTable) (object : Value) :
    first.evaluate types object = second.evaluate types object := by
  rw [Condition.evaluate, Condition.evaluate, alike Unit types object.source]

end

end Condition

namespace Junction

section

variable (junction : Junction) {σ : Type} (types : TypeTable) (source : Source σ)

theorem evaluate_congr {first other : Condition} (alike : first.Alike other)
    {terms others : List Condition}
    (same : junction.evaluate types source terms = junction.evaluate types source others) :
    junction.evaluate types source (first :: terms) =
      junction.evaluate types source (other :: others) := by
  funext state
  rw [junction.evaluate_cons, junction.evaluate_cons, alike σ types source, same]

end

variable (junction : Junction)

theorem alike_pair {left right otherLeft otherRight : Condition} (lefts : left.Alike otherLeft)
    (rights : right.Alike otherRight) :
    (junction.node [left, right]).Alike (junction.node [otherLeft, otherRight]) := by
  intro σ types source
  rw [junction.evaluate_node, junction.evaluate_node]
  exact junction.evaluate_congr types source lefts (junction.evaluate_congr types source rights rfl)

theorem alike_terms (left right : Condition) :
    (junction.node (junction.terms left right)).Alike (junction.node [left, right]) := by
  rcases junction.terms_cases left right with ⟨list, rfl, same⟩ | ⟨_, same⟩
  · intro σ types source
    rw [same, junction.evaluate_node, junction.evaluate_node]
    apply junction.evaluate_congr types source (.refl left)
    rw [junction.evaluate_single, junction.evaluate_node]
  · rw [same]
    exact .refl _

end Junction

namespace Phrase

inductive Alike : Phrase → Phrase → Prop where
  | refl (phrase : Phrase) : Alike phrase phrase
  | condition {left right : Condition} (alike : left.Alike right) :
      Alike (.condition left) (.condition right)

theorem Alike.exists_condition {condition : Condition} {phrase : Phrase}
    (alike : (Phrase.condition condition).Alike phrase) :
    ∃ other, phrase = .condition other ∧ condition.Alike other := by
  cases alike with
  | refl => exact ⟨condition, rfl, .refl condition⟩
  | condition alike => exact ⟨_, rfl, alike⟩

theorem Alike.join {operator : Pending} {left right otherLeft otherRight : Phrase}
    {condition : Condition} (lefts : left.Alike otherLeft) (rights : right.Alike otherRight)
    (joins : join? Junction.terms operator left right = some condition) :
    ∃ other, join? Junction.pair operator otherLeft otherRight = some other ∧
      condition.Alike other := by
  have joined : ∀ (junction : Junction) {left right otherLeft otherRight : Condition},
      left.Alike otherLeft → right.Alike otherRight →
        (junction.node (junction.terms left right)).Alike
          (junction.node (junction.pair otherLeft otherRight)) :=
    fun junction _ _ _ _ lefts rights =>
      (junction.alike_terms _ _).trans (junction.alike_pair lefts rights)
  unfold join? at joins
  split at joins
  case h_1 | h_2 | h_3 =>
    cases lefts
    cases rights
    exact ⟨condition, joins, .refl condition⟩
  case h_4 =>
    cases joins
    obtain ⟨_, rfl, leftAlike⟩ := lefts.exists_condition
    obtain ⟨_, rfl, rightAlike⟩ := rights.exists_condition
    exact ⟨_, rfl, joined .all leftAlike rightAlike⟩
  case h_5 =>
    cases joins
    obtain ⟨_, rfl, leftAlike⟩ := lefts.exists_condition
    obtain ⟨_, rfl, rightAlike⟩ := rights.exists_condition
    exact ⟨_, rfl, joined .any leftAlike rightAlike⟩
  case h_6 =>
    cases joins
    cases lefts
    obtain ⟨_, rfl, alike⟩ := rights.exists_condition
    exact ⟨_, rfl, alike.not⟩
  case h_7 => cases joins

end Phrase

namespace Origin

def phrase? (terms : Junction → Condition → Condition → List Condition) (tokens : List Token) :
    Origin → Option Phrase
  | leaf place => do
      let token ← tokens[place]?
      if token.waits? = some .not then some .marker else token.operand?.map Operand.phrase
  | applied place left right => do
      let token ← tokens[place]?
      let operator ← token.waits?
      let leftPhrase ← left.phrase? terms tokens
      let rightPhrase ← right.phrase? terms tokens
      (Phrase.join? terms operator leftPhrase rightPhrase).map .condition

section

variable {terms : Junction → Condition → Condition → List Condition} {tokens : List Token}
  {place : Nat} {token : Token}

theorem phrase?_negation (atPlace : tokens[place]? = some token)
    (waits : token.waits? = some .not) : (leaf place).phrase? terms tokens = some .marker := by
  simp only [phrase?, atPlace, waits, Option.bind_eq_bind, Option.bind_some, if_true]

theorem phrase?_operand (atPlace : tokens[place]? = some token) {operand : Operand}
    (isOperand : token.operand? = some operand) :
    (leaf place).phrase? terms tokens = some operand.phrase := by
  have notNegation : token.waits? ≠ some .not := by
    intro waits
    have is := Token.isOperand_of_operand? isOperand
    rw [Token.isOperand_of_waits? waits] at is
    cases is
  simp only [phrase?, atPlace, isOperand, Option.bind_eq_bind, Option.bind_some, if_neg notNegation,
    Option.map_some]

theorem phrase?_applied {left right : Origin} {phrase : Phrase} :
    (applied place left right).phrase? terms tokens = some phrase ↔
      ∃ token operator leftPhrase rightPhrase condition, tokens[place]? = some token ∧
        token.waits? = some operator ∧ left.phrase? terms tokens = some leftPhrase ∧
        right.phrase? terms tokens = some rightPhrase ∧
        Phrase.join? terms operator leftPhrase rightPhrase = some condition ∧
        .condition condition = phrase := by
  simp only [phrase?, Option.bind_eq_bind, Option.bind_eq_some_iff, Option.map_eq_some_iff]
  constructor
  · rintro ⟨token, atPlace, operator, waits, leftPhrase, leftIs, rightPhrase, rightIs, condition,
      joins, same⟩
    exact ⟨token, operator, leftPhrase, rightPhrase, condition, atPlace, waits, leftIs, rightIs,
      joins, same⟩
  · rintro ⟨token, operator, leftPhrase, rightPhrase, condition, atPlace, waits, leftIs, rightIs,
      joins, same⟩
    exact ⟨token, atPlace, operator, waits, leftPhrase, leftIs, rightPhrase, rightIs, condition,
      joins, same⟩

/-- What has been flattened on the way is like what has not, whatever has been put together. -/
theorem exists_unflattened (origin : Origin) {phrase : Phrase}
    (flattened : origin.phrase? Junction.terms tokens = some phrase) :
    ∃ other, origin.phrase? Junction.pair tokens = some other ∧ phrase.Alike other := by
  induction origin generalizing phrase with
  | leaf place => exact ⟨phrase, flattened, .refl phrase⟩
  | applied place left right leftIh rightIh =>
      obtain ⟨token, operator, leftPhrase, rightPhrase, condition, atPlace, waits, leftFlattened,
        rightFlattened, joins, rfl⟩ := phrase?_applied.1 flattened
      obtain ⟨otherLeft, leftUnflattened, lefts⟩ := leftIh leftFlattened
      obtain ⟨otherRight, rightUnflattened, rights⟩ := rightIh rightFlattened
      obtain ⟨other, otherJoins, alike⟩ := lefts.join rights joins
      exact ⟨.condition other, phrase?_applied.2 ⟨token, operator, otherLeft, otherRight, other,
        atPlace, waits, leftUnflattened, rightUnflattened, otherJoins, rfl⟩, .condition alike⟩

end

end Origin

namespace SharedCondition

open Interner

theorem Drafts.join? {operator : Pending} {left right : Operand} {draft : SharedCondition}
    (drafts : Drafts operator left right draft) :
    Phrase.join? Junction.terms operator left.phrase right.phrase = some draft.condition := by
  cases drafts with
  | keyLiteral | keyKey | literalLiteral | negated => rfl
  | joined junction left right =>
      rw [junction.condition_draft]
      cases junction <;> rfl

theorem phrase_of_combine {operator : Pending} {left right : Operand} {shared : SharedCondition}
    {interner after : Interner} (faithful : interner.Faithful) (leftFormed : WellFormedOperand left)
    (rightFormed : WellFormedOperand right)
    (combined : combine operator left right interner = (.ok shared, after)) :
    Phrase.join? Junction.terms operator left.phrase right.phrase = some shared.condition := by
  obtain ⟨draft, drafts, interned⟩ := drafts_of_combine combined
  have like := faithful.condition_intern (drafts.wellFormed leftFormed rightFormed).printable
  rw [interned] at like
  rw [drafts.join?, like]

theorem wellFormed_of_operand? {token : Token} {operand : Operand} (legal : token.Legal)
    (isOperand : token.operand? = some operand) : WellFormedOperand operand := by
  cases token with
  | constant literal =>
      cases isOperand
      exact legal.printable
  | number text =>
      obtain ⟨literal, inRange, rfl⟩ := Option.map_eq_some_iff.1 isOperand
      exact Stacks.printable_of_literalOfNumber? inRange
  | word text =>
      cases notConnective : Pending.ofWord? text with
      | some operator => simp [Token.operand?, notConnective] at isOperand
      | none =>
          simp only [Token.operand?, notConnective, Option.isNone_none, if_true] at isOperand
          cases isOperand
          exact legal.isKey notConnective
  | openGroup | closeGroup | compare => cases isOperand

namespace PlacedStacks

/-- Every operator on the stacks waits where it stands among the tokens, and the origin of every
operand leads to it. -/
structure Traced (found : List Token) (held : PlacedStacks) (interner : Interner) : Prop where
  faithful : interner.Faithful
  formed : ∀ operand ∈ held.operands, WellFormedOperand operand.1
  waits : ∀ waiting ∈ held.pending, ∃ token, found[waiting.2]? = some token ∧
    token.waits? = some waiting.1
  phrases : ∀ operand ∈ held.operands,
    operand.2.phrase? Junction.terms found = some operand.1.phrase

section

variable {found tokens later : List Token} {held next : PlacedStacks} {token : Token}
  {interner after : Interner}

theorem Traced.wait {operator : Pending} (traced : Traced found held interner) {place : Nat}
    (atPlace : found[place]? = some token) (waits : token.waits? = some operator) :
    Traced found (held.wait operator place) interner where
  faithful := traced.faithful
  formed := traced.formed
  waits := List.forall_mem_cons.2 ⟨⟨token, atPlace, waits⟩, traced.waits⟩
  phrases := traced.phrases

theorem Traced.push {operand : Operand} {origin : Origin} (traced : Traced found held interner)
    (formed : WellFormedOperand operand)
    (phrase : origin.phrase? Junction.terms found = some operand.phrase) :
    Traced found (held.push operand origin) interner where
  faithful := traced.faithful
  formed := List.forall_mem_cons.2 ⟨formed, traced.formed⟩
  waits := traced.waits
  phrases := List.forall_mem_cons.2 ⟨phrase, traced.phrases⟩

theorem Closes.traced {pending : List (Pending × Nat)} {operands : List (Operand × Origin)}
    (closes : Closes pending operands interner held after)
    (traced : Traced found { pending, operands } interner) : Traced found held after := by
  induction closes with
  | group =>
      exact ⟨traced.faithful, traced.formed, fun waiting member =>
        traced.waits waiting (List.mem_cons_of_mem _ member), traced.phrases⟩
  | @apply operator left right interner between after shared place leftOrigin rightOrigin pending
      operands held _ combined _ ih =>
      have leftFormed := traced.formed (left, leftOrigin) (by simp)
      have rightFormed := traced.formed (right, rightOrigin) (by simp)
      have leftPhrase := traced.phrases (left, leftOrigin) (by simp)
      have rightPhrase := traced.phrases (right, rightOrigin) (by simp)
      have joins := phrase_of_combine traced.faithful leftFormed rightFormed combined
      obtain ⟨token, atPlace, waits⟩ := traced.waits (operator, place) List.mem_cons_self
      have phrase := Origin.phrase?_applied.2 ⟨token, operator, left.phrase, right.phrase, _,
        atPlace, waits, leftPhrase, rightPhrase, joins, rfl⟩
      have keeps := keeps_combine traced.faithful leftFormed rightFormed operator
      obtain ⟨faithful, formed⟩ := keeps.of_ok combined
      refine ih ⟨faithful, ?_, ?_, ?_⟩
      · refine List.forall_mem_cons.2 ⟨formed, ?_⟩
        exact fun other member => traced.formed other (by simp [member])
      · exact fun waiting member => traced.waits waiting (List.mem_cons_of_mem _ member)
      · refine List.forall_mem_cons.2 ⟨phrase, ?_⟩
        exact fun other member => traced.phrases other (by simp [member])

theorem Traced.step (traced : Traced found held interner)
    (isNext : found = tokens ++ token :: later) (legal : token.Legal)
    (step : held.Step tokens.length token interner next after) :
    Traced found next after := by
  have atPlace : found[tokens.length]? = some token := by simp [isNext]
  cases step with
  | closeGroup closes => exact closes.traced traced
  | wait waits => exact traced.wait atPlace waits
  | negation waits =>
      have marked : Traced found (held.push .marker (.leaf tokens.length)) interner :=
        traced.push trivial (Origin.phrase?_negation atPlace waits)
      exact marked.wait atPlace waits
  | operand isOperand =>
      exact traced.push (wellFormed_of_operand? legal isOperand)
        (Origin.phrase?_operand atPlace isOperand)

end

end PlacedStacks

theorem Reads.traced {start after : Interner} {found tokens : List Token} {held : PlacedStacks}
    (reads : Reads start tokens held after) (faithful : start.Faithful)
    (legal : ∀ token ∈ found, token.Legal) (later : List Token) (all : found = tokens ++ later) :
    held.Traced found after := by
  induction reads generalizing later with
  | nil => exact ⟨faithful, by simp, by simp, by simp⟩
  | @snoc tokens token _ _ _ _ _ step ih =>
      have next : found = tokens ++ token :: later := by rw [all, List.append_assoc]; rfl
      exact (ih _ next).step next (legal token (by simp [next])) step

theorem ReadAs.phrase?_terms {start after : Interner} {found : List Token} {shared : SharedCondition}
    {origin : Origin} (readAs : ReadAs start found shared origin after) (faithful : start.Faithful)
    (legal : ∀ token ∈ found, token.Legal) :
    origin.phrase? Junction.terms found = some (.condition shared.condition) :=
  (Reads.traced readAs faithful legal [] (List.append_nil found).symm).phrases
    (.condition shared, origin) List.mem_cons_self

/-- A node that has taken the terms of its right operand is evaluated like the node of the two. What
is parsed is put together as its origin tells, and evaluated like what comes of the same operators
and operands if no node takes the terms of another. -/
theorem meaning_of_parse :
    (∀ (identity : Nat) (left right : SharedCondition),
      (SharedCondition.all identity (allTerms left right)).condition.Alike
        (.all [left.condition, right.condition]) ∧
      (SharedCondition.any identity (anyTerms left right)).condition.Alike
        (.any [left.condition, right.condition])) ∧
    ∀ (nextIdentity : Nat) (text : String) (bindings : List Value) (shared : SharedCondition)
      (after : Interner),
      parse text bindings { nextIdentity, known := [] } = (.ok shared, after) →
        ∃ expanded found origin nested, Template.expand text bindings = .ok expanded ∧
          tokens expanded = .ok found ∧
          ReadAs { nextIdentity, known := [] } found shared origin after ∧
          origin.phrase? Junction.terms found = some (.condition shared.condition) ∧
          origin.phrase? Junction.pair found = some (.condition nested) ∧
          shared.condition.Alike nested := by
  constructor
  · intro identity left right
    have all := Junction.all.condition_draft left right
    have any := Junction.any.condition_draft left right
    constructor
    · exact all ▸ Junction.all.alike_terms left.condition right.condition
    · exact any ▸ Junction.any.alike_terms left.condition right.condition
  · intro nextIdentity text bindings shared after parsed
    obtain ⟨expanded, found, written, read, reduced⟩ := exists_tokens_of_parse parsed
    obtain ⟨origin, readAs⟩ := ofTokens_eq_ok_iff.1 reduced
    have legal := (Token.scanned_of_scan (scan_of_tokens read)).legal
    have flattened := readAs.phrase?_terms (faithful_of_empty rfl) legal
    obtain ⟨phrase, unflattened, alike⟩ := origin.exists_unflattened flattened
    obtain ⟨nested, rfl, sameMeaning⟩ := alike.exists_condition
    exact ⟨expanded, found, origin, nested, written, read, readAs, flattened, unflattened,
      sameMeaning⟩

/-- The second AND becomes three terms of the first one, and is evaluated like two in two. -/
theorem meaning_of_parse_low : ∃ shared after found origin nested,
    parse "(low = 1) and (rate = 2) and not low < rate" [] { nextIdentity := 0, known := [] } =
      (.ok shared, after) ∧
    shared.condition = .all [.leaf (.keyLiteral "low" .equal (.integer 1)),
      .leaf (.keyLiteral "rate" .equal (.integer 2)), .not (.leaf (.keyKey "low" .less "rate"))] ∧
    ReadAs { nextIdentity := 0, known := [] } found shared origin after ∧
    origin.phrase? Junction.pair found = some (.condition nested) ∧
    ∀ types object, shared.condition.evaluate types object = nested.evaluate types object := by
  have scanned : Token.Scanned
      ('(' :: "(low = 1) and (rate = 2) and not low < rate".toList ++ [')'])
      [.openGroup, .openGroup, .word "low", .compare .equal, .number "1", .closeGroup, .word "and",
        .openGroup, .word "rate", .compare .equal, .number "2", .closeGroup, .word "and",
        .word "not", .word "low", .compare .less, .word "rate", .closeGroup] := by
    repeat refine .step rfl rfl ?_
    exact .nil rfl
  have read := tokens_of_scan scanned.scan_eq
  have written : Template.expand "(low = 1) and (rate = 2) and not low < rate" [] =
      .ok "(low = 1) and (rate = 2) and not low < rate" := rfl
  have parsed : ∃ shared after, parse "(low = 1) and (rate = 2) and not low < rate" []
        { nextIdentity := 0, known := [] } = (.ok shared, after) ∧
      shared.condition = .all [.leaf (.keyLiteral "low" .equal (.integer 1)),
        .leaf (.keyLiteral "rate" .equal (.integer 2)),
        .not (.leaf (.keyKey "low" .less "rate"))] := by
    rw [parse_of_tokens written read]
    exact ⟨_, _, rfl, rfl⟩
  obtain ⟨shared, after, parsed, same⟩ := parsed
  obtain ⟨expanded, found, origin, nested, _, _, readAs, _, unflattened, alike⟩ :=
    meaning_of_parse.2 0 _ [] shared after parsed
  exact ⟨shared, after, found, origin, nested, parsed, same, readAs, unflattened, alike.evaluate⟩

end SharedCondition

end FactRules
