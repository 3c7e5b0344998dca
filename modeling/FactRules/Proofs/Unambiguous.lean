import FactRules.Proofs.Junction
import Mathlib.Data.List.TakeWhile

/-!
No two conditions are printed alike. Read from the front, the text of a condition determines the
condition, and where it ends in a longer text. A key may have blanks around its word, and its word
may be the word for a connective.
-/

namespace FactRules

open Token

def IsWorded (key : String) : Prop :=
  ∃ word, scan key.toList = .ok [.word word]

structure Padded (key front word back : List Char) : Prop where
  split : key = front ++ (word ++ back)
  isWord : IsWord word
  frontBlank : ∀ character ∈ front, Text.isBlank character = true
  backBlank : ∀ character ∈ back, Text.isBlank character = true

theorem IsWorded.padded {key : String} (worded : IsWorded key) :
    ∃ front word back, Padded key.toList front word back := by
  obtain ⟨word, scanned⟩ := worded
  cases scanned_of_scan scanned with
  | step start found remaining =>
      cases remaining with
      | nil nothing =>
          obtain ⟨isWord, _, shape⟩ := isWord_of_next? found
          have split : key.toList.takeWhile Text.isBlank ++ Text.dropBlanks key.toList = key.toList :=
            List.takeWhile_append_dropWhile
          rw [start, shape] at split
          exact ⟨_, _, _, split.symm, isWord, List.all_eq_true.1 List.all_takeWhile,
            List.dropWhile_eq_nil_iff.1 nothing⟩

namespace Padded

variable {key front word back rest : List Char}

theorem takeWhile_front (padded : Padded key front word back) (rest : List Char) :
    (key ++ rest).takeWhile Text.isBlank = front ∧
      (key ++ rest).dropWhile Text.isBlank = word ++ (back ++ rest) := by
  obtain ⟨first, later, shape⟩ := List.exists_cons_of_ne_nil padded.isWord.nonempty
  have bare := padded.isWord.bare first (shape ▸ List.mem_cons_self)
  simp only [isBare, Bool.and_eq_true, Bool.not_eq_eq_eq_not, Bool.not_true] at bare
  rw [padded.split, List.append_assoc, List.append_assoc,
    List.takeWhile_append_of_pos padded.frontBlank, List.dropWhile_append_of_pos padded.frontBlank,
    shape]
  simp [bare.1]

theorem endsWord_back (padded : Padded key front word back) (ends : EndsWord rest) :
    EndsWord (back ++ rest) := by
  cases shape : back with
  | nil => exact ends
  | cons first later =>
      rintro _ ⟨⟩
      have blank := padded.backBlank first (shape ▸ List.mem_cons_self)
      simp [isBare, blank]

theorem noClose (padded : Padded key front word back) : ')' ∉ key := by
  rw [padded.split, List.mem_append, List.mem_append]
  rintro (member | member | member)
  · cases padded.frontBlank _ member
  · exact bare_ne (padded.isWord.bare _ member) (by decide) rfl
  · cases padded.backBlank _ member

theorem append_inj {other otherFront otherWord otherBack otherRest : List Char}
    (padded : Padded key front word back)
    (otherPadded : Padded other otherFront otherWord otherBack) (ends : EndsWord rest)
    (otherEnds : EndsWord otherRest)
    (alike : rest.takeWhile Text.isBlank = otherRest.takeWhile Text.isBlank)
    (same : key ++ rest = other ++ otherRest) : key = other ∧ rest = otherRest := by
  obtain ⟨fronts, behindFront⟩ := padded.takeWhile_front rest
  obtain ⟨otherFronts, otherBehindFront⟩ := otherPadded.takeWhile_front otherRest
  rw [same, otherFronts] at fronts
  rw [same, otherBehindFront] at behindFront
  obtain ⟨words, behindWord⟩ := takeWhile_bare padded.isWord.bare (padded.endsWord_back ends)
  obtain ⟨otherWords, otherBehindWord⟩ :=
    takeWhile_bare otherPadded.isWord.bare (otherPadded.endsWord_back otherEnds)
  rw [← behindFront, otherWords] at words
  rw [← behindFront, otherBehindWord] at behindWord
  -- The blanks of the key go on into what follows it, which brings the same ones on both sides.
  have blanks := congrArg (List.takeWhile Text.isBlank) behindWord
  rw [List.takeWhile_append_of_pos padded.backBlank,
    List.takeWhile_append_of_pos otherPadded.backBlank, alike] at blanks
  have backs := List.append_cancel_right blanks
  rw [backs] at behindWord
  rw [padded.split, otherPadded.split, fronts, words, backs]
  exact ⟨rfl, (List.append_cancel_left behindWord).symm⟩

end Padded

namespace Literal

def ofToken? : Token → Option Literal
  | .number text => SharedCondition.Stacks.literalOfNumber? text
  | .constant literal => some literal
  | _ => none

theorem ofToken?_token {literal : Literal} (printable : literal.Printable) :
    ofToken? literal.token = some literal := by
  cases literal with
  | integer value => exact SharedCondition.Stacks.literalOfNumber?_integer value
  | float value => exact SharedCondition.Stacks.literalOfNumber?_float printable
  | string | bool | null | typed => rfl

theorem token_inj {left right : Literal} (leftPrintable : left.Printable)
    (rightPrintable : right.Printable) (same : left.token = right.token) : left = right := by
  have leftRead := ofToken?_token leftPrintable
  have rightRead := ofToken?_token rightPrintable
  rw [same, rightRead] at leftRead
  exact (Option.some.inj leftRead).symm

theorem token_ne_word (literal : Literal) (word : String) : literal.token ≠ .word word := by
  cases literal <;> simp [token]

theorem token_ne_openGroup (literal : Literal) : literal.token ≠ .openGroup := by
  cases literal <;> simp [token]

end Literal

inductive Side where
  | key (path : String)
  | constant (literal : Literal)

namespace Side

def text : Side → List Char
  | .key path => path.toList
  | .constant literal => literal.text.toList

def Legible : Side → Prop
  | .key path => IsWorded path
  | .constant literal => literal.Printable

section

variable {left right : Side} {rest other : List Char}

theorem key_ne_literal {path : String} {literal : Literal} (worded : IsWorded path)
    (printable : literal.Printable) (stops : Stops rest) (otherStops : Stops other) :
    path.toList ++ rest ≠ literal.text.toList ++ other := by
  intro same
  obtain ⟨front, word, back, padded⟩ := worded.padded
  obtain ⟨first, later, shape, notBlank, _⟩ := literal.head_text printable
  have behind := (padded.takeWhile_front rest).2
  rw [same, shape, List.cons_append, List.dropWhile_cons_of_neg (by simp [notBlank]),
    ← List.cons_append, ← shape] at behind
  have asWord := next?_word padded.isWord (padded.endsWord_back stops.endsWord)
  rw [← behind, Literal.next?_text printable otherStops] at asWord
  exact literal.token_ne_word _ (Prod.mk.inj (Option.some.inj asWord)).1

theorem append_inj (leftLegible : left.Legible) (rightLegible : right.Legible)
    (stops : Stops rest) (otherStops : Stops other)
    (alike : rest.takeWhile Text.isBlank = other.takeWhile Text.isBlank)
    (same : left.text ++ rest = right.text ++ other) : left = right ∧ rest = other := by
  cases left with
  | key path =>
      cases right with
      | key otherPath =>
          obtain ⟨_, _, _, padded⟩ := IsWorded.padded leftLegible
          obtain ⟨_, _, _, otherPadded⟩ := IsWorded.padded rightLegible
          obtain ⟨samePath, sameRest⟩ :=
            padded.append_inj otherPadded stops.endsWord otherStops.endsWord alike same
          exact ⟨congrArg key (String.toList_inj.1 samePath), sameRest⟩
      | constant literal => exact absurd same (key_ne_literal leftLegible rightLegible stops otherStops)
  | constant literal =>
      cases right with
      | key path =>
          exact absurd same.symm (key_ne_literal rightLegible leftLegible otherStops stops)
      | constant otherLiteral =>
          have leftRead := Literal.next?_text leftLegible stops
          have rightRead := Literal.next?_text rightLegible otherStops
          change literal.text.toList ++ rest = otherLiteral.text.toList ++ other at same
          rw [same, rightRead] at leftRead
          obtain ⟨sameToken, sameRest⟩ := Prod.mk.inj (Option.some.inj leftRead)
          exact ⟨congrArg constant (Literal.token_inj leftLegible rightLegible sameToken.symm),
            sameRest.symm⟩

theorem append_ne_group (legible : left.Legible) (stops : Stops rest) {input : List Char}
    (notTyped : typed? ('(' :: input) = none) : left.text ++ rest ≠ '(' :: input := by
  intro same
  have opens : next? ('(' :: input) = some (.openGroup, input) := by simp [next?, notTyped, group?]
  cases left with
  | key path =>
      obtain ⟨front, word, back, padded⟩ := IsWorded.padded legible
      have behind := (padded.takeWhile_front rest).2
      change path.toList ++ rest = '(' :: input at same
      rw [same, List.dropWhile_cons_of_neg (by decide)] at behind
      rw [behind, next?_word padded.isWord (padded.endsWord_back stops.endsWord)] at opens
      cases opens
  | constant literal =>
      rw [← same] at opens
      have read := Literal.next?_text legible stops
      change next? (literal.text.toList ++ rest) = _ at opens
      rw [read] at opens
      exact literal.token_ne_openGroup (Prod.mk.inj (Option.some.inj opens)).1

theorem noName (legible : left.Legible) (later : List Char) :
    NoName (left.text ++ ' ' :: later) := by
  cases left with
  | key path =>
      obtain ⟨_, _, _, padded⟩ := IsWorded.padded legible
      exact noName_of_space padded.noClose later
  | constant literal => exact literal.noName_text legible _

end

end Side

namespace Operator

theorem symbol_head (operator : Operator) :
    ∃ first later, operator.symbol.toList = first :: later ∧ Text.isBlank first = false ∧
      first ≠ '(' := by
  cases operator <;> exact ⟨_, _, rfl, by decide, by decide⟩

theorem symbol_takeWhile (operator : Operator) (rest : List Char) :
    (operator.symbol.toList ++ ' ' :: rest).takeWhile (· != ' ') = operator.symbol.toList := by
  have noBlank : operator.symbol.toList.all (· != ' ') = true := by cases operator <;> rfl
  rw [List.takeWhile_append_of_pos (List.all_eq_true.1 noBlank)]
  exact List.append_nil _

theorem symbol_inj {left right : Operator} (same : left.symbol = right.symbol) : left = right := by
  have found := ofSpelling?_symbol left
  rw [same, ofSpelling?_symbol] at found
  exact (Option.some.inj found).symm

theorem symbol_append_inj {left right : Operator} {rest other : List Char}
    (same : left.symbol.toList ++ ' ' :: rest = right.symbol.toList ++ ' ' :: other) :
    left = right ∧ rest = other := by
  have symbols := left.symbol_takeWhile rest
  rw [same, symbol_takeWhile] at symbols
  rw [symbols] at same
  exact ⟨symbol_inj (String.toList_inj.1 symbols.symm),
    (List.cons.inj (List.append_cancel_left same)).2⟩

end Operator

namespace Comparison

def leftSide : Comparison → Side
  | .keyLiteral key _ _ => .key key
  | .keyKey left _ _ => .key left
  | .literalLiteral left _ _ => .constant left

def rightSide : Comparison → Side
  | .keyLiteral _ _ literal => .constant literal
  | .keyKey _ _ right => .key right
  | .literalLiteral _ _ right => .constant right

/-- Every key is one word, with blanks around it or without, and every literal can be read. -/
def Legible (comparison : Comparison) : Prop :=
  comparison.leftSide.Legible ∧ comparison.rightSide.Legible

theorem eq_of_sides {left right : Comparison} (lefts : left.leftSide = right.leftSide)
    (operators : left.operator = right.operator) (rights : left.rightSide = right.rightSide) :
    left = right := by
  cases left <;> cases right <;> simp_all [leftSide, rightSide, operator]

def behindLeft (comparison : Comparison) (rest : List Char) : List Char :=
  ' ' :: (comparison.operator.symbol.toList ++ ' ' :: (comparison.rightSide.text ++ ')' :: rest))

theorem inner_eq_sides (comparison : Comparison) (rest : List Char) :
    comparison.inner ++ ')' :: rest = comparison.leftSide.text ++ comparison.behindLeft rest := by
  cases comparison <;> simp [inner, leftSide, rightSide, operator, behindLeft, Side.text]

theorem stops_behindLeft (comparison : Comparison) (rest : List Char) :
    Stops (comparison.behindLeft rest) := by
  rintro _ ⟨⟩
  exact .inl rfl

theorem blanks_behindLeft (comparison : Comparison) (rest : List Char) :
    (comparison.behindLeft rest).takeWhile Text.isBlank = [' '] := by
  obtain ⟨first, later, shape, notBlank, _⟩ := comparison.operator.symbol_head
  have blank : Text.isBlank ' ' = true := rfl
  rw [behindLeft, shape]
  simp [blank, notBlank]

theorem stops_close (rest : List Char) : Stops (')' :: rest) := by
  rintro _ ⟨⟩
  exact .inr (.inr rfl)

theorem append_inj {left right : Comparison} (leftLegible : left.Legible)
    (rightLegible : right.Legible) {rest other : List Char}
    (same : left.inner ++ ')' :: rest = right.inner ++ ')' :: other) :
    left = right ∧ rest = other := by
  rw [inner_eq_sides, inner_eq_sides] at same
  obtain ⟨lefts, behind⟩ := Side.append_inj leftLegible.1 rightLegible.1 (left.stops_behindLeft rest)
    (right.stops_behindLeft other) (by rw [blanks_behindLeft, blanks_behindLeft]) same
  obtain ⟨operators, behindOperator⟩ := Operator.symbol_append_inj (List.cons.inj behind).2
  obtain ⟨rights, ends⟩ := Side.append_inj leftLegible.2 rightLegible.2 (stops_close rest)
    (stops_close other) rfl behindOperator
  exact ⟨eq_of_sides lefts operators rights, (List.cons.inj ends).2⟩

theorem Printable.legible {comparison : Comparison} (printable : comparison.Printable) :
    comparison.Legible := by
  cases comparison with
  | keyLiteral key operator literal => exact ⟨⟨key, printable.1.1⟩, printable.2⟩
  | keyKey left operator right => exact ⟨⟨left, printable.1.1⟩, ⟨right, printable.2.1⟩⟩
  | literalLiteral left operator right => exact printable

theorem noName_of_legible {comparison : Comparison} (legible : comparison.Legible) :
    NoName comparison.inner := by
  cases comparison with
  | keyLiteral key operator literal => exact Side.noName legible.1 _
  | keyKey left operator right => exact Side.noName legible.1 _
  | literalLiteral left operator right => exact Side.noName legible.1 _

end Comparison

namespace Condition

mutual

/-- Every comparison is legible, and AND and OR join at least two terms. -/
def Legible : Condition → Prop
  | .leaf comparison => comparison.Legible
  | .all terms => 2 ≤ terms.length ∧ AllLegible terms
  | .any terms => 2 ≤ terms.length ∧ AllLegible terms
  | .not inner => Legible inner

def AllLegible : List Condition → Prop
  | [] => True
  | term :: terms => Legible term ∧ AllLegible terms

end

theorem legible_node (junction : Junction) {terms : List Condition} :
    (junction.node terms).Legible ↔ 2 ≤ terms.length ∧ AllLegible terms := by
  cases junction <;> exact Iff.rfl

theorem noName_not (inner : Condition) : NoName (Condition.not inner).inner := by
  have noClose : ')' ∉ ['N', 'O', 'T'] := by decide
  exact noName_of_space noClose _

theorem inner_single (junction : Junction) (term : Condition) :
    (junction.node [term]).inner = term.text.toList := by
  cases junction <;> simp [Junction.node, inner, termTexts]

theorem inner_cons_cons (junction : Junction) (first second : Condition)
    (terms : List Condition) :
    (junction.node (first :: second :: terms)).inner =
      first.text.toList ++ ' ' :: (junction.word ++ ' ' :: (junction.node (second :: terms)).inner) := by
  cases junction <;> simp [Junction.node, Junction.word, inner, termTexts]

theorem opens_of_legible (junction : Junction) {terms : List Condition}
    (legible : (junction.node terms).Legible) :
    ∃ first later, Condition.Legible first ∧
      (junction.node terms).inner = '(' :: (first.inner ++ later) := by
  obtain ⟨several, allLegible⟩ := (legible_node junction).1 legible
  match terms, several with
  | first :: second :: terms, _ =>
      rw [inner_cons_cons, text_eq_inner, List.cons_append, List.append_assoc]
      exact ⟨first, _, allLegible.1, rfl⟩

theorem noName_of_legible {condition : Condition} (legible : condition.Legible) :
    NoName condition.inner := by
  have ofTerms (junction : Junction) {terms : List Condition}
      (legible : (junction.node terms).Legible) : NoName (junction.node terms).inner := by
    obtain ⟨_, _, _, shape⟩ := opens_of_legible junction legible
    rw [shape]
    exact noName_of_head rfl
  cases condition with
  | leaf comparison => exact Comparison.noName_of_legible legible
  | all terms => exact ofTerms .all legible
  | any terms => exact ofTerms .any legible
  | not inner => exact noName_not inner

theorem leaf_ne_node {comparison : Comparison} (legible : comparison.Legible) (junction : Junction)
    {terms : List Condition} (nodeLegible : (junction.node terms).Legible)
    {rest other : List Char} :
    comparison.inner ++ ')' :: rest ≠ (junction.node terms).inner ++ ')' :: other := by
  obtain ⟨first, _, firstLegible, shape⟩ := opens_of_legible junction nodeLegible
  rw [Comparison.inner_eq_sides, shape, List.cons_append, List.append_assoc]
  exact Side.append_ne_group legible.1 (comparison.stops_behindLeft rest)
    (noName_of_legible firstLegible _)

/-- The word NOT might be a key, but it is not followed by an operator. -/
theorem leaf_ne_not {comparison : Comparison} (legible : comparison.Legible) {inner : Condition}
    {rest other : List Char} :
    comparison.inner ++ ')' :: rest ≠ (Condition.not inner).inner ++ ')' :: other := by
  intro same
  have isNot : Side.Legible (.key "NOT") := ⟨"NOT", scan_of_isWord isWord_not⟩
  have stops : Stops (' ' :: (inner.text.toList ++ ')' :: other)) := by
    rintro _ ⟨⟩
    exact .inl rfl
  have blanks : (' ' :: (inner.text.toList ++ ')' :: other)).takeWhile Text.isBlank = [' '] := by
    rw [text_eq_inner]
    rfl
  rw [Comparison.inner_eq_sides] at same
  obtain ⟨_, behind⟩ := Side.append_inj legible.1 isNot (comparison.stops_behindLeft rest) stops
    (by rw [Comparison.blanks_behindLeft, blanks]) same
  obtain ⟨first, later, shape, _, notOpen⟩ := comparison.operator.symbol_head
  have heads := (List.cons.inj behind).2
  rw [shape, text_eq_inner] at heads
  exact notOpen (List.cons.inj heads).1

theorem node_ne_not (junction : Junction) {terms : List Condition}
    (legible : (junction.node terms).Legible) {inner : Condition} {rest other : List Char} :
    (junction.node terms).inner ++ ')' :: rest ≠ (Condition.not inner).inner ++ ')' :: other := by
  obtain ⟨_, _, _, shape⟩ := opens_of_legible junction legible
  rw [shape]
  exact fun same => absurd (List.cons.inj same).1 (by decide)

/-- The text up to the closing parenthesis determines the condition. -/
def Unambiguous (left : Condition) : Prop :=
  left.Legible → ∀ right : Condition, right.Legible → ∀ rest other,
    left.inner ++ ')' :: rest = right.inner ++ ')' :: other → left = right ∧ rest = other

theorem Unambiguous.text_append_inj {left right : Condition} (unambiguous : Unambiguous left)
    (leftLegible : left.Legible) (rightLegible : right.Legible) {rest other : List Char}
    (same : left.text.toList ++ rest = right.text.toList ++ other) : left = right ∧ rest = other := by
  rw [text_eq_inner, text_eq_inner] at same
  exact unambiguous leftLegible right rightLegible rest other (by simpa using same)

theorem terms_append_inj {junction other : Junction} {lefts rights : List Condition}
    (unambiguous : ∀ left ∈ lefts, Unambiguous left) (leftNonempty : lefts ≠ [])
    (rightNonempty : rights ≠ []) (leftLegible : AllLegible lefts)
    (rightLegible : AllLegible rights) {rest more : List Char}
    (same : (junction.node lefts).inner ++ ')' :: rest =
      (other.node rights).inner ++ ')' :: more) :
    lefts = rights ∧ rest = more ∧ (2 ≤ lefts.length → junction = other) := by
  induction lefts generalizing rights with
  | nil => exact absurd rfl leftNonempty
  | cons left lefts ih =>
      have inj := fun right rest more (legible : Condition.Legible right)
          (same : left.text.toList ++ rest = right.text.toList ++ more) =>
        (unambiguous left List.mem_cons_self).text_append_inj leftLegible.1 legible same
      match lefts, rights, rightNonempty with
      | [], [right], _ =>
          rw [inner_single, inner_single] at same
          obtain ⟨rfl, sameRest⟩ := inj right _ _ rightLegible.1 same
          exact ⟨rfl, (List.cons.inj sameRest).2, fun several => by simp at several⟩
      | [], right :: second :: rights, _ =>
          rw [inner_single, inner_cons_cons, List.append_assoc] at same
          have ends := (inj right _ _ rightLegible.1 same).2
          exact absurd (List.cons.inj ends).1 (by decide)
      | second :: lefts, [right], _ =>
          rw [inner_single, inner_cons_cons, List.append_assoc] at same
          have ends := (inj right _ _ rightLegible.1 same).2
          exact absurd (List.cons.inj ends).1 (by decide)
      | second :: lefts, right :: otherSecond :: rights, _ =>
          rw [inner_cons_cons, inner_cons_cons, List.append_assoc, List.append_assoc] at same
          obtain ⟨rfl, sameLater⟩ := inj right _ _ rightLegible.1 same
          have words : junction.word ++ ' ' :: (junction.node (second :: lefts)).inner ++ ')' :: rest =
              other.word ++ ' ' :: (other.node (otherSecond :: rights)).inner ++ ')' :: more :=
            (List.cons.inj sameLater).2
          have sameJunction : junction = other := by
            cases junction <;> cases other <;>
              first | rfl | exact absurd (List.cons.inj words).1 (by decide)
          subst sameJunction
          rw [List.append_assoc, List.append_assoc] at words
          have terms := (List.cons.inj (List.append_cancel_left words)).2
          obtain ⟨sameTerms, sameRest, _⟩ :=
            ih (fun term member => unambiguous term (List.mem_cons_of_mem _ member)) (by simp)
              (by simp) leftLegible.2 rightLegible.2 terms
          exact ⟨congrArg _ sameTerms, sameRest, fun _ => rfl⟩

theorem terms_ne_nil {terms : List Condition} (several : 2 ≤ terms.length) : terms ≠ [] :=
  List.ne_nil_of_length_pos (by omega)

theorem node_append_inj (junction other : Junction) {lefts rights : List Condition}
    (unambiguous : ∀ left ∈ lefts, Unambiguous left)
    (leftLegible : (junction.node lefts).Legible) (rightLegible : (other.node rights).Legible)
    {rest more : List Char}
    (same : (junction.node lefts).inner ++ ')' :: rest =
      (other.node rights).inner ++ ')' :: more) :
    junction.node lefts = other.node rights ∧ rest = more := by
  obtain ⟨several, allLegible⟩ := (legible_node junction).1 leftLegible
  obtain ⟨otherSeveral, otherLegible⟩ := (legible_node other).1 rightLegible
  obtain ⟨sameTerms, sameRest, sameJunction⟩ := terms_append_inj unambiguous
    (terms_ne_nil several) (terms_ne_nil otherSeveral) allLegible otherLegible same
  exact ⟨by rw [sameJunction several, sameTerms], sameRest⟩

theorem unambiguous_node (junction : Junction) {lefts : List Condition}
    (unambiguous : ∀ left ∈ lefts, Unambiguous left) : Unambiguous (junction.node lefts) := by
  intro leftLegible right rightLegible rest other same
  cases right with
  | leaf comparison => exact absurd same.symm (leaf_ne_node rightLegible junction leftLegible)
  | all rights => exact node_append_inj junction .all unambiguous leftLegible rightLegible same
  | any rights => exact node_append_inj junction .any unambiguous leftLegible rightLegible same
  | not inner => exact absurd same (node_ne_not junction leftLegible)

mutual

theorem unambiguous : (left : Condition) → Unambiguous left
  | .leaf comparison => by
      intro leftLegible right rightLegible rest other same
      cases right with
      | leaf otherComparison =>
          obtain ⟨rfl, sameRest⟩ := Comparison.append_inj leftLegible rightLegible same
          exact ⟨rfl, sameRest⟩
      | all terms =>
          exact absurd same (leaf_ne_node leftLegible .all rightLegible)
      | any terms =>
          exact absurd same (leaf_ne_node leftLegible .any rightLegible)
      | not inner => exact absurd same (leaf_ne_not leftLegible)
  | .all lefts => unambiguous_node .all (unambiguous_terms lefts)
  | .any lefts => unambiguous_node .any (unambiguous_terms lefts)
  | .not leftInner => by
      intro leftLegible right rightLegible rest other same
      cases right with
      | leaf comparison => exact absurd same.symm (leaf_ne_not rightLegible)
      | all terms =>
          exact absurd same.symm (node_ne_not .all rightLegible)
      | any terms =>
          exact absurd same.symm (node_ne_not .any rightLegible)
      | not rightInner =>
          have sameInner : leftInner.text.toList ++ ')' :: rest =
              rightInner.text.toList ++ ')' :: other := by
            simpa [inner] using same
          have rightInnerLegible : rightInner.Legible := rightLegible
          obtain ⟨rfl, sameRest⟩ :=
            (unambiguous leftInner).text_append_inj leftLegible rightInnerLegible sameInner
          exact ⟨rfl, (List.cons.inj sameRest).2⟩

theorem unambiguous_terms : (terms : List Condition) → ∀ term ∈ terms, Unambiguous term
  | [] => by simp
  | first :: terms => by
      intro term member
      rcases List.mem_cons.1 member with same | later
      · rw [same]
        exact unambiguous first
      · exact unambiguous_terms terms term later

end

theorem text_append_inj {left right : Condition} (leftLegible : left.Legible)
    (rightLegible : right.Legible) {rest other : List Char}
    (same : left.text.toList ++ rest = right.text.toList ++ other) : left = right ∧ rest = other :=
  (unambiguous left).text_append_inj leftLegible rightLegible same

theorem eq_of_legible {left right : Condition} (leftLegible : left.Legible)
    (rightLegible : right.Legible) (same : left.text = right.text) : left = right := by
  have padded : left.text.toList ++ [] = right.text.toList ++ [] := by rw [same]
  exact (text_append_inj leftLegible rightLegible padded).1

mutual

theorem Printable.legible : {condition : Condition} → condition.Printable → condition.Legible
  | .leaf _, printable => Comparison.Printable.legible printable
  | .all _, printable => ⟨printable.1, allLegible_of_printable printable.2⟩
  | .any _, printable => ⟨printable.1, allLegible_of_printable printable.2⟩
  | .not inner, printable => (show inner.Printable from printable).legible

theorem allLegible_of_printable : {terms : List Condition} → AllPrintable terms → AllLegible terms
  | [], _ => trivial
  | _ :: _, printable => ⟨printable.1.legible, allLegible_of_printable printable.2⟩

end

theorem eq_of_text_eq {left right : Condition} (leftPrintable : left.Printable)
    (rightPrintable : right.Printable) (same : left.text = right.text) : left = right :=
  eq_of_legible leftPrintable.legible rightPrintable.legible same

def TextDetermines (family : Condition → Prop) : Prop :=
  ∀ left right, family left → family right → left.text = right.text → left = right

theorem textDetermines_printable : TextDetermines Printable :=
  fun _ _ => eq_of_text_eq

end Condition

end FactRules
