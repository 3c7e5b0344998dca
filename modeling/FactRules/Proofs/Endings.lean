import FactRules.Proofs.HashConsing
import FactRules.Proofs.Polarity
import FactRules.Proofs.Reparse

/-!
How conditions without NOT end. An OR below an odd number of NOTs becomes an AND, and where it was
the last term of an AND, that AND ends with an AND. Parsing never gives such a condition: it takes
the text of one for that of a longer AND. What `positive` gives otherwise is found again from its
text.
-/

namespace FactRules

namespace Junction

theorem turned_inj {left right : Junction} {inverted : Bool} :
    left.turned inverted = right.turned inverted ↔ left = right := by
  cases left <;> cases right <;> cases inverted <;> simp [turned]

theorem turned_not (junction : Junction) (inverted : Bool) :
    junction.turned (!inverted) = (junction.turned true).turned inverted := by
  cases junction <;> cases inverted <;> rfl

theorem isNode_node (junction other : Junction) (terms : List Condition) :
    junction.isNode (other.node terms) = true ↔ other = junction := by
  cases junction <;> cases other <;> simp [isNode, node]

end Junction

namespace Condition

/-- What joins the terms when NOT has been pushed down, where the condition is negated when
`inverted`. A comparison has no terms. -/
def joint? (inverted : Bool) : Condition → Option Junction
  | .leaf _ => none
  | .all _ => some (Junction.all.turned inverted)
  | .any _ => some (Junction.any.turned inverted)
  | .not inner => joint? (!inverted) inner

mutual

/-- No AND ends with what becomes an AND without NOT, and no OR with what becomes an OR. -/
def EndsApart : Condition → Prop
  | .leaf _ => True
  | .all terms => (∀ last ∈ terms.getLast?, last.joint? false ≠ some .all) ∧ AllEndApart terms
  | .any terms => (∀ last ∈ terms.getLast?, last.joint? false ≠ some .any) ∧ AllEndApart terms
  | .not inner => EndsApart inner

def AllEndApart : List Condition → Prop
  | [] => True
  | term :: terms => EndsApart term ∧ AllEndApart terms

end

theorem joint?_eq_map (inverted : Bool) (condition : Condition) :
    condition.joint? inverted = (condition.joint? false).map (·.turned inverted) := by
  cases condition with
  | leaf | all | any => rfl
  | not inner =>
      rw [joint?, joint?, joint?_eq_map (!inverted) inner, joint?_eq_map (!false) inner,
        Option.map_map]
      congr 1
      funext junction
      exact junction.turned_not inverted

theorem joint?_eq_turned_iff (condition : Condition) (junction : Junction) (inverted : Bool) :
    condition.joint? inverted = some (junction.turned inverted) ↔
      condition.joint? false = some junction := by
  rw [joint?_eq_map]
  cases condition.joint? false with
  | none => exact iff_of_false nofun nofun
  | some other => simp [Junction.turned_inj]

theorem getLast?_of_forall₂ {related : Condition → Condition → Prop}
    {terms forms : List Condition} (alike : List.Forall₂ related terms forms) :
    (terms.getLast? = none ∧ forms.getLast? = none) ∨
      ∃ last form, terms.getLast? = some last ∧ forms.getLast? = some form ∧ related last form := by
  induction alike with
  | nil => exact .inl ⟨rfl, rfl⟩
  | @cons term form terms forms first _ ih =>
      refine .inr ?_
      rw [List.getLast?_cons, List.getLast?_cons]
      rcases ih with ⟨isNone, isNoneForm⟩ | ⟨last, lastForm, isLast, isLastForm, pair⟩
      · exact ⟨term, form, by rw [isNone]; rfl, by rw [isNoneForm]; rfl, first⟩
      · exact ⟨last, lastForm, by rw [isLast]; rfl, by rw [isLastForm]; rfl, pair⟩

theorem joint?_node (junction : Junction) (inverted : Bool) (terms : List Condition) :
    (junction.node terms).joint? inverted = some (junction.turned inverted) := by
  cases junction <;> rfl

theorem endsApart_node (junction : Junction) {terms : List Condition} :
    (junction.node terms).EndsApart ↔
      (∀ last ∈ terms.getLast?, last.joint? false ≠ some junction) ∧ AllEndApart terms := by
  cases junction <;> exact Iff.rfl

structure Ends (inverted : Bool) (condition form : Condition) : Prop where
  flat : form.Flat ↔ condition.EndsApart
  joint : ∀ junction : Junction,
    junction.isNode form = true ↔ condition.joint? inverted = some junction

theorem ends_leaf (inverted : Bool) (comparison result : Comparison) :
    Ends inverted (.leaf comparison) (.leaf result) :=
  ⟨Iff.rfl, fun junction => iff_of_false (by cases junction <;> nofun) nofun⟩

theorem ends_node (junction : Junction) (inverted : Bool) (terms forms : List Condition)
    (ends : List.Forall₂ (Ends inverted) terms forms) :
    Ends inverted (junction.node terms) ((junction.turned inverted).node forms) := by
  have below : AllFlat forms ↔ AllEndApart terms := by
    induction ends with
    | nil => exact Iff.rfl
    | cons first _ ih => exact and_congr first.flat ih
  constructor
  · rw [flat_node, endsApart_node, below]
    refine and_congr_left fun _ => ?_
    rcases getLast?_of_forall₂ ends with ⟨isNone, isNoneForm⟩ | ⟨last, form, isLast, isForm, pair⟩
    · rw [isNone, isNoneForm]
      exact iff_of_true nofun nofun
    · rw [isLast, isForm]
      simp only [Option.mem_def, Option.some.injEq, forall_eq']
      rw [← Bool.not_eq_true, pair.joint, joint?_eq_turned_iff]
  · intro other
    rw [Junction.isNode_node, joint?_node, Option.some.injEq]

theorem ends_pushed {inverted : Bool} (condition : Condition) {form : Condition}
    (pushes : condition.pushed inverted = .ok form) : Ends inverted condition form := by
  refine pushed_induction ?_ ?_ ends_node ?_ condition pushes
  · exact fun comparison => ends_leaf false comparison comparison
  · exact fun comparison negation _ => ends_leaf true comparison negation
  · exact fun _ _ _ inner => ⟨inner.flat, inner.joint⟩

theorem printable_pushed {inverted : Bool} (condition : Condition) {form : Condition}
    (pushes : condition.pushed inverted = .ok form) : condition.Printable → form.Printable := by
  refine pushed_induction (motive := fun _ condition form => condition.Printable → form.Printable)
    ?_ ?_ ?_ ?_ condition pushes
  · exact fun _ printable => printable
  · exact fun _ _ negates printable => Comparison.Printable.negation printable negates
  · intro junction inverted terms forms kept printable
    obtain ⟨several, allPrintable⟩ := junction.printable_node.1 printable
    refine (Junction.printable_node _).2 ⟨kept.length_eq ▸ several, ?_⟩
    clear several printable
    induction kept with
    | nil => trivial
    | cons first _ ih => exact ⟨first allPrintable.1, ih allPrintable.2⟩
  · exact fun _ _ _ kept => kept

mutual

theorem printable_of_mem_walk : (condition : Condition) → condition.Printable →
    ∀ node ∈ condition.walk, node.Printable
  | .leaf _, printable => List.forall_mem_singleton.2 printable
  | .all terms, printable => List.forall_mem_append.2
      ⟨printable_of_mem_walkTerms terms printable.2, List.forall_mem_singleton.2 printable⟩
  | .any terms, printable => List.forall_mem_append.2
      ⟨printable_of_mem_walkTerms terms printable.2, List.forall_mem_singleton.2 printable⟩
  | .not inner, printable => List.forall_mem_append.2
      ⟨printable_of_mem_walk inner printable, List.forall_mem_singleton.2 printable⟩

theorem printable_of_mem_walkTerms : (terms : List Condition) → AllPrintable terms →
    ∀ node ∈ walkTerms terms, node.Printable
  | [], _ => nofun
  | term :: terms, printable => List.forall_mem_append.2
      ⟨printable_of_mem_walk term printable.1, printable_of_mem_walkTerms terms printable.2⟩

end

theorem percents_withOperator (operator : Operator) (comparison : Comparison) :
    (leaf (comparison.withOperator operator)).percents = (leaf comparison).percents := by
  rw [percents_leaf, percents_leaf]
  cases comparison <;> rfl

theorem percents_pushed {inverted : Bool} (condition : Condition) {form : Condition}
    (pushes : condition.pushed inverted = .ok form) : form.percents = condition.percents := by
  refine pushed_induction (motive := fun _ condition form => form.percents = condition.percents)
    ?_ ?_ ?_ ?_ condition pushes
  · exact fun _ => rfl
  · intro comparison negation negates
    obtain ⟨operator, _, rfl⟩ := Comparison.exists_of_negation negates
    exact percents_withOperator operator comparison
  · intro junction inverted terms forms same
    rw [percents_node, percents_node]
    induction same with
    | nil => rfl
    | cons first _ ih =>
        rw [percents, percents] at first
        rw [List.flatMap_cons, List.flatMap_cons, List.count_append, List.count_append, first, ih]
  · intro inverted inner form same
    rw [percents_not, same]

end Condition

/-- What is known can be read back from its text and is made of what is known. -/
structure Interner.Consistent (interner : Interner) : Prop where
  faithful : interner.Faithful
  hashConsed : interner.HashConsed

namespace Interner.Consistent

open SharedCondition

variable {interner after : Interner} {shared : SharedCondition}

theorem of_empty (empty : interner.known = []) : interner.Consistent :=
  ⟨faithful_of_empty empty, hashConsed_of_empty empty⟩

theorem parse (consistent : interner.Consistent) {text : String} {bindings : List Value}
    (parsed : SharedCondition.parse text bindings interner = (.ok shared, after)) :
    after.Consistent ∧ shared.condition.WellFormed ∧ after.Canonical shared := by
  obtain ⟨faithful, wellFormed⟩ :=
    (invariant_wellFormed.parse consistent.faithful text bindings).of_ok parsed
  obtain ⟨hashConsed, canonical⟩ :=
    (invariant_canonical.parse consistent.hashConsed text bindings).of_ok parsed
  exact ⟨⟨faithful, hashConsed⟩, wellFormed, canonical⟩

theorem positive (consistent : interner.Consistent) (printable : shared.condition.Printable)
    (canonical : interner.Canonical shared) {positive : SharedCondition}
    (gave : shared.positive interner = (.ok positive, after)) :
    shared.condition.pushed false = .ok positive.condition ∧ after.Consistent ∧
      after.Canonical positive := by
  have ran : shared.pushed false interner = (.ok positive, after) := gave
  obtain ⟨form, pushes⟩ := exists_pushed_of_positive gave
  have members := Condition.printable_of_mem_walk form
    (Condition.printable_pushed _ pushes printable)
  obtain ⟨_, _, gives, same, within⟩ := gives_pushed Condition.textDetermines_printable shared
    pushes members consistent.faithful.within
  rw [ran] at gives
  cases gives
  obtain ⟨hashConsed, isKnown⟩ :=
    (canonical_pushed shared consistent.hashConsed canonical).of_ok ran
  exact ⟨pushes.trans (congrArg Except.ok same.symm), ⟨within, hashConsed⟩, isKnown⟩

theorem parse_text (consistent : interner.Consistent) (wellFormed : shared.condition.WellFormed)
    (canonical : interner.Canonical shared) (plain : Template.Plain shared.text.toList) :
    (SharedCondition.parse shared.text [] interner).1 = .ok shared := by
  have alike : SharedCondition.parse shared.text [] =
      SharedCondition.parse (Template.doubled shared.condition.text) [] := by
    simp only [SharedCondition.parse, Template.expand_of_plain plain, Template.expand_doubled]
    rfl
  obtain ⟨found, after, same, _, parsed⟩ :=
    SharedCondition.parse_text wellFormed [] consistent.faithful
  obtain ⟨_, _, isKnown⟩ := consistent.parse parsed
  have keeps :=
    invariant_canonical.parse consistent.hashConsed (Template.doubled shared.condition.text) []
  have grows := keeps.grows
  rw [parsed] at grows
  have stillKnown : after.Canonical shared := canonical.grows grows
  have sameText : found.text = shared.text := congrArg Condition.text same
  rw [Canonical, sameText, stillKnown] at isKnown
  rw [alike, parsed, Option.some.inj isKnown]

end Interner.Consistent

namespace SharedCondition

open Interner

/-- What `positive` gives is of the form that parsing gives, and is found again from its text,
exactly where no AND comes to end with an AND and no OR with an OR. It has the percent signs of the
condition, so without any there is nothing in its text that a template would replace. -/
theorem endings_positive {before after later final last : Interner} {text : String}
    {bindings : List Value} {shared positive : SharedCondition} (consistent : before.Consistent)
    (parsed : parse text bindings before = (.ok shared, after))
    (consistentLater : later.Consistent) (further : later.Extends after)
    (gave : shared.positive later = (.ok positive, final))
    (consistentLast : last.Consistent) (beyond : last.Extends final) :
    (positive.condition.Flat ↔ shared.condition.EndsApart) ∧
    ((parse positive.text [] last).1 = .ok positive ↔
      shared.condition.EndsApart ∧ Template.Plain positive.text.toList) ∧
    ('%' ∉ shared.text.toList →
      ((parse positive.text [] last).1 = .ok positive ↔ shared.condition.EndsApart)) := by
  obtain ⟨_, wellFormed, canonical⟩ := consistent.parse parsed
  obtain ⟨pushes, _, isKnown⟩ :=
    consistentLater.positive wellFormed.printable (canonical.grows further) gave
  have flat := (Condition.ends_pushed _ pushes).flat
  have again : (parse positive.text [] last).1 = .ok positive ↔
      shared.condition.EndsApart ∧ Template.Plain positive.text.toList := by
    constructor
    · intro found
      have split : parse positive.text [] last = (.ok positive, (parse positive.text [] last).2) :=
        Prod.ext found rfl
      obtain ⟨_, isFormed, _⟩ := consistentLast.parse split
      exact ⟨flat.1 isFormed.flat, plain_of_parse_text consistentLast.faithful.keyed split⟩
    · rintro ⟨apart, plain⟩
      have printable := Condition.printable_pushed _ pushes wellFormed.printable
      exact consistentLast.parse_text ⟨printable, flat.2 apart⟩ (isKnown.grows beyond) plain
  refine ⟨flat, again, fun noPercent => again.trans (and_iff_left ?_)⟩
  have none : positive.condition.percents = 0 :=
    (Condition.percents_pushed _ pushes).trans (List.count_eq_zero.2 noPercent)
  exact Template.plain_of_not_mem (List.count_eq_zero.1 none)

def lowAndNeither : Condition :=
  .all [.leaf (.keyLiteral "low" .equal (.integer 1)),
    .not (.any [.leaf (.keyLiteral "rate" .equal (.integer 2)),
      .leaf (.keyLiteral "size" .equal (.integer 3))])]

theorem wellFormed_lowAndNeither : lowAndNeither.WellFormed := by
  have low : IsKey "low" := ⟨(Token.Scanned.step rfl rfl (.nil rfl)).scan_eq, rfl⟩
  have rate : IsKey "rate" := ⟨(Token.Scanned.step rfl rfl (.nil rfl)).scan_eq, rfl⟩
  have size : IsKey "size" := ⟨(Token.Scanned.step rfl rfl (.nil rfl)).scan_eq, rfl⟩
  constructor
  · simp [lowAndNeither, Condition.Printable, Condition.AllPrintable, Comparison.Printable,
      Literal.Printable, low, rate, size]
  · simp [lowAndNeither, Condition.Flat, Condition.AllFlat, Junction.isNode]

theorem endings_positive_low : ∃ shared after positive final,
    parse "((low = 1) AND (NOT ((rate = 2) OR (size = 3))))" [] { nextIdentity := 0, known := [] } =
      (.ok shared, after) ∧
    '%' ∉ shared.text.toList ∧ shared.positive after = (.ok positive, final) ∧
    positive.text = "((low = 1) AND ((rate != 2) AND (size != 3)))" ∧
    ¬ positive.condition.Flat ∧ (parse positive.text [] final).1 ≠ .ok positive := by
  have empty : Consistent { nextIdentity := 0, known := [] } := .of_empty rfl
  obtain ⟨shared, after, same, _, parsed⟩ := parse_text wellFormed_lowAndNeither [] empty.faithful
  obtain ⟨consistent, formed, canonical⟩ := empty.parse parsed
  have pushes : shared.condition.pushed false =
      .ok (.all [.leaf (.keyLiteral "low" .equal (.integer 1)),
        .all [.leaf (.keyLiteral "rate" .notEqual (.integer 2)),
          .leaf (.keyLiteral "size" .notEqual (.integer 3))]]) := by
    rw [same]
    rfl
  have printable := Condition.printable_pushed _ pushes formed.printable
  obtain ⟨positive, final, gave, like, _⟩ := gives_pushed Condition.textDetermines_printable shared
    pushes (Condition.printable_of_mem_walk _ printable) consistent.faithful.within
  obtain ⟨_, consistentFinal, _⟩ := consistent.positive formed.printable canonical gave
  obtain ⟨flat, again, _⟩ := endings_positive empty parsed consistent (.refl after) gave
    consistentFinal (.refl final)
  have joins : ¬ shared.condition.EndsApart := by
    rw [same]
    exact fun apart => apart.1 _ rfl rfl
  have template : Template.doubled lowAndNeither.text =
      "((low = 1) AND (NOT ((rate = 2) OR (size = 3))))" := by decide
  rw [template] at parsed
  refine ⟨shared, after, positive, final, parsed, ?_, gave, ?_, fun isFlat => joins (flat.1 isFlat),
    fun found => joins (again.1 found).1⟩
  · rw [SharedCondition.text, same]
    decide
  · rw [SharedCondition.text, like]
    decide

end SharedCondition

end FactRules
