import FactRules.Proofs.Junction
import FactRules.Proofs.Parsing

/-!
Percent signs are not made by parsing: a condition is printed with no more of them than there were
in the text that it was read from.
-/

namespace FactRules

namespace Token

theorem Takes.count_le {input rest : List Char} (takes : Takes input rest) :
    rest.count '%' ≤ input.count '%' :=
  takes.suffix.sublist.count_le '%'

theorem count_quotedBody? {quote : Char} {input body rest : List Char}
    (found : quotedBody? quote input = some (body, rest)) :
    body.count '%' + rest.count '%' ≤ input.count '%' := by
  fun_induction quotedBody? quote input generalizing body rest with
  | case1 => simp at found
  | case2 => simp at found
  | case3 escaped input ih =>
      obtain ⟨⟨inner, remaining⟩, closed, same⟩ := Option.map_eq_some_iff.1 found
      have shorter := ih closed
      cases same
      simp only [List.count_cons]
      omega
  | case4 =>
      cases found
      simp only [List.count_nil, List.count_cons]
      omega
  | case5 character input _ _ differs ih =>
      obtain ⟨⟨inner, remaining⟩, closed, same⟩ := Option.map_eq_some_iff.1 found
      have shorter := ih closed
      cases same
      simp only [List.count_cons]
      omega

theorem count_quoted? {input rest : List Char} {text : String}
    (found : quoted? input = some (text, rest)) :
    text.toList.count '%' + rest.count '%' ≤ input.count '%' := by
  cases input with
  | nil => cases found
  | cons quote input =>
      simp only [quoted?] at found
      split at found
      · obtain ⟨⟨inner, remaining⟩, closed, same⟩ := Option.map_eq_some_iff.1 found
        have inside := count_quotedBody? closed
        cases same
        rw [String.toList_ofList]
        exact Nat.le_trans inside List.count_le_count_cons
      · cases found

theorem count_quotedText (text : String) :
    (Literal.quotedText text).toList.count '%' = text.toList.count '%' := by
  have escaped : ∀ characters : List Char,
      (characters.flatMap Literal.escapedCharacter).count '%' = characters.count '%' := by
    intro characters
    induction characters with
    | nil => rfl
    | cons character characters ih =>
        have one : (Literal.escapedCharacter character).count '%' = [character].count '%' := by
          unfold Literal.escapedCharacter
          split
          · exact List.count_cons_of_ne (by decide)
          · rfl
        rw [List.flatMap_cons, List.count_append, one, ih, ← List.count_append]
        rfl
  simp [Literal.quotedText, escaped]

def content : Token → List Char
  | .word text => text.toList
  | .constant literal => literal.text.toList
  | _ => []

def percents (token : Token) : Nat :=
  token.content.count '%'

theorem percents_string (text : String) :
    (Token.constant (.string text)).percents = text.toList.count '%' :=
  count_quotedText text

theorem percents_typed {name : String} (isTypeName : Literal.IsTypeName name) (text : String) :
    (Token.constant (.typed name text)).percents = text.toList.count '%' := by
  have noPercent : name.toList.count '%' = 0 := by
    obtain ⟨initial, later, shape, upper, alphanumeric⟩ := isTypeName
    rw [shape, List.count_eq_zero]
    intro member
    rcases List.mem_cons.1 member with rfl | member
    · exact absurd upper (by decide)
    · exact absurd (alphanumeric _ member) (by decide)
  have shape : (Literal.typed name text).text.toList =
      '(' :: (name.toList ++ ')' :: (Literal.quotedText text).toList) := by
    simp [Literal.text]
  simp [percents, content, shape, noPercent, count_quotedText]

theorem percents_typed? {input rest : List Char} {token : Token}
    (found : typed? input = some (token, rest)) :
    token.percents + rest.count '%' ≤ input.count '%' := by
  obtain ⟨name, text, rfl, isTypeName⟩ := typed?_token found
  rw [percents_typed isTypeName]
  unfold typed? at found
  split at found
  · next initial input =>
      split at found
      · next remaining _ dropped =>
          obtain ⟨⟨text, after⟩, quoted, same⟩ := Option.map_eq_some_iff.1 found
          cases same
          have inside := count_quoted? quoted
          have fewer := (List.dropWhile_sublist Char.isAlphanum (l := input)).count_le '%'
          rw [dropped] at fewer
          simp only [List.count_cons] at fewer ⊢
          omega
      · cases found
  · cases found

theorem percents_next? {input rest : List Char} {token : Token}
    (found : next? input = some (token, rest)) :
    token.percents + rest.count '%' ≤ input.count '%' := by
  simp only [next?, Option.orElse_eq_orElse, Option.orElse_eq_or, Option.or_eq_some_iff] at found
  rcases found with typed | ⟨_, group | ⟨_, operator | ⟨_, number | ⟨_, keyword | ⟨_, string |
    ⟨_, word⟩⟩⟩⟩⟩⟩
  · exact percents_typed? typed
  · have fewer := (group?_takes group).count_le
    rcases group?_token group with rfl | rfl <;> simpa [percents, content] using fewer
  · have fewer := (operator?_takes operator).count_le
    obtain ⟨operator, rfl⟩ := operator?_token operator
    simpa [percents, content] using fewer
  · have fewer := (number?_takes number).count_le
    obtain ⟨text, rfl⟩ := number?_token number
    simpa [percents, content] using fewer
  · have fewer := (keyword?_takes keyword).count_le
    obtain ⟨entry, member, rfl⟩ := keyword?_token keyword
    have noPercent : ∀ entry ∈ keywords, (Token.constant entry.2).percents = 0 := by decide
    rw [noPercent entry member, Nat.zero_add]
    exact fewer
  · obtain ⟨⟨text, remaining⟩, quoted, same⟩ := Option.map_eq_some_iff.1 string
    cases same
    rw [percents_string]
    exact count_quoted? quoted
  · obtain ⟨rfl, _, rfl⟩ := word?_token word
    have split : input = input.takeWhile isBare ++ input.dropWhile isBare :=
      List.takeWhile_append_dropWhile.symm
    have same : (Token.word (String.ofList (input.takeWhile isBare))).percents +
        (input.dropWhile isBare).count '%' = input.count '%' := by
      rw [percents, content, String.toList_ofList, ← List.count_append, ← split]
    exact Nat.le_of_eq same

theorem Scanned.percents_le {input : List Char} {tokens : List Token}
    (scanned : Scanned input tokens) : (tokens.flatMap content).count '%' ≤ input.count '%' := by
  induction scanned with
  | nil => exact Nat.zero_le _
  | @step input later rest first token tokens start found _ ih =>
      have one := percents_next? found
      have blanks : (Text.dropBlanks input).count '%' ≤ input.count '%' :=
        (List.dropWhile_sublist _).count_le '%'
      rw [start] at blanks
      rw [percents] at one
      simp only [List.flatMap_cons, List.count_append]
      omega

end Token

theorem Literal.count_text_number {text : String} {literal : Literal}
    (read : SharedCondition.Stacks.literalOfNumber? text = some literal) :
    literal.text.toList.count '%' = 0 := by
  have ofNumeral : ∀ {negative whole fraction},
      Text.IsNumeral literal.text.toList negative whole fraction →
      literal.text.toList.count '%' = 0 := by
    intro negative whole fraction numeral
    have notDigit : ∀ {digits : List Char}, Text.AllDigits digits → digits.count '%' = 0 :=
      fun allDigits => List.count_eq_zero.2 fun member => absurd (allDigits '%' member) (by decide)
    have sign : (if negative then ['-'] else []).count '%' = 0 := by cases negative <;> decide
    have behind : (Text.behindPoint fraction).count '%' = 0 := by
      cases fraction with
      | none => rfl
      | some digits =>
          rw [Text.behindPoint, List.count_cons_of_ne (by decide)]
          exact notDigit (numeral.fractionDigits digits rfl).1
    rw [numeral.split, List.count_append, List.count_append, sign, notDigit numeral.wholeDigits,
      behind]
  unfold SharedCondition.Stacks.literalOfNumber? at read
  split at read
  · obtain ⟨value, finite, rfl⟩ := Option.map_eq_some_iff.1 read
    obtain ⟨_, _, _, numeral⟩ := isNumeral_float (Option.filter_eq_some_iff.1 finite).2
    exact ofNumeral numeral
  · split at read
    · next value _ =>
        cases read
        obtain ⟨_, _, numeral⟩ := isNumeral_integer value
        exact ofNumeral numeral
    · cases read

namespace Condition

theorem count_intercalate {separator : List Char} (noPercent : separator.count '%' = 0)
    (texts : List (List Char)) :
    (separator.intercalate texts).count '%' = texts.flatten.count '%' := by
  induction texts with
  | nil => rfl
  | cons text texts ih =>
      cases texts with
      | nil => simp
      | cons second texts =>
          rw [List.intercalate_cons_cons, List.count_append, List.count_append, noPercent, ih,
            Nat.add_zero, List.flatten_cons (l := text), List.count_append]

def percents (condition : Condition) : Nat :=
  condition.text.toList.count '%'

theorem percents_eq_inner (condition : Condition) :
    condition.percents = condition.inner.count '%' := by
  rw [percents, text_eq_inner]
  simp

theorem percents_node (junction : Junction) (list : List Condition) :
    (junction.node list).percents = (list.flatMap fun term => term.text.toList).count '%' := by
  rw [percents_eq_inner]
  cases junction with
  | all =>
      rw [Junction.node, inner, count_intercalate (by decide), termTexts_eq_map, List.map_map]
      rfl
  | any =>
      rw [Junction.node, inner, count_intercalate (by decide), termTexts_eq_map, List.map_map]
      rfl

theorem percents_terms (junction : Junction) (left right : Condition) :
    (junction.node (junction.terms left right)).percents = left.percents + right.percents := by
  rw [percents_node]
  rcases junction.terms_cases left right with ⟨list, rfl, same⟩ | ⟨_, same⟩
  · rw [same, percents_node, List.flatMap_cons, List.count_append, percents]
  · simp [same, percents]

theorem percents_not (inner : Condition) : (Condition.not inner).percents = inner.percents := by
  rw [percents_eq_inner, Condition.inner]
  simp [percents]

theorem count_symbol (operator : Operator) : operator.symbol.toList.count '%' = 0 := by
  cases operator <;> decide

theorem percents_leaf (comparison : Comparison) :
    (Condition.leaf comparison).percents =
      match comparison with
      | .keyLiteral key _ literal => key.toList.count '%' + literal.text.toList.count '%'
      | .keyKey left _ right => left.toList.count '%' + right.toList.count '%'
      | .literalLiteral left _ right =>
          left.text.toList.count '%' + right.text.toList.count '%' := by
  rw [percents_eq_inner]
  cases comparison <;> simp [inner, Comparison.inner, count_symbol]

end Condition

def Operand.percents (operand : Operand) : Nat :=
  operand.text.toList.count '%'

namespace SharedCondition

open Interner

section

variable {interner : Interner}

theorem keeps_percents_intern (keyed : interner.Keyed) {draft : SharedCondition} {bound : Nat}
    (fewer : draft.condition.percents ≤ bound) :
    Keeps Keyed (fun _ shared => (Operand.condition shared).percents ≤ bound)
      (liftM (intern draft) : Sharing ParseError SharedCondition) interner := by
  refine ⟨intern_extends draft interner, keyed.intern draft, ?_⟩
  intro shared same
  have isShared : (intern draft interner).1 = shared := Except.ok.inj same
  have text := keyed.text_intern draft
  rw [isShared] at text
  rw [Operand.percents, Operand.text, text]
  exact fewer

theorem Drafts.percents_le {operator : Pending} {left right : Operand} {draft : SharedCondition}
    (drafts : Drafts operator left right draft) :
    draft.condition.percents ≤ left.percents + right.percents := by
  cases drafts with
  | keyLiteral => exact Nat.le_of_eq (Condition.percents_leaf (.keyLiteral ..))
  | keyKey => exact Nat.le_of_eq (Condition.percents_leaf (.keyKey ..))
  | literalLiteral => exact Nat.le_of_eq (Condition.percents_leaf (.literalLiteral ..))
  | joined junction left right =>
      rw [junction.condition_draft]
      exact Nat.le_of_eq (Condition.percents_terms junction left.condition right.condition)
  | negated =>
      rw [SharedCondition.condition, Condition.percents_not]
      exact Nat.le_add_left _ _

theorem percents_combine (keyed : interner.Keyed) (operator : Pending) (left right : Operand) :
    Keeps Keyed (fun _ shared => (Operand.condition shared).percents ≤
      left.percents + right.percents) (combine operator left right) interner := by
  rcases combine_cases operator left right with ⟨draft, drafts, interns⟩ | ⟨error, fails⟩
  · rw [interns]
    exact keeps_percents_intern keyed drafts.percents_le
  · rw [fails]
    exact Keeps.throw keyed error

def totalPercents (operands : List Operand) : Nat :=
  (operands.flatMap fun operand => operand.text.toList).count '%'

theorem totalPercents_cons (operand : Operand) (operands : List Operand) :
    totalPercents (operand :: operands) = operand.percents + totalPercents operands := by
  rw [totalPercents, List.flatMap_cons, List.count_append]
  rfl

theorem percents_closeGroup (keyed : interner.Keyed) (pending : List Pending)
    (operands : List Operand) {bound : Nat} (fewer : totalPercents operands ≤ bound) :
    Keeps Keyed (fun _ shifted => totalPercents shifted.operands ≤ bound)
      (Stacks.closeGroup pending operands) interner := by
  induction pending generalizing operands interner with
  | nil =>
      rw [Stacks.closeGroup]
      exact Keeps.throw keyed _
  | cons operator pending ih =>
      unfold Stacks.closeGroup
      split
      · next missing => cases missing
      · next same =>
          cases same
          exact Keeps.pure keyed fewer
      · next operator pending right left operands _ same =>
          cases same
          refine (percents_combine keyed _ left right).bind ?_
          intro shared after _ keyedAfter fewerCombined
          refine ih keyedAfter _ ?_
          rw [totalPercents_cons] at fewer ⊢
          rw [totalPercents_cons] at fewer
          omega
      · exact Keeps.throw keyed _

theorem percents_shift (keyed : interner.Keyed) (shifted : Stacks) (token : Token) :
    Keeps Keyed (fun _ after => totalPercents after.operands ≤
      totalPercents shifted.operands + token.percents) (shifted.shift token) interner := by
  have same : totalPercents shifted.operands ≤ totalPercents shifted.operands + token.percents :=
    Nat.le_add_right _ _
  have pushed : ∀ operand : Operand, operand.percents ≤ token.percents →
      totalPercents (shifted.push operand).operands ≤
        totalPercents shifted.operands + token.percents := by
    intro operand fewer
    rw [Stacks.push, totalPercents_cons]
    omega
  cases token with
  | openGroup => exact Keeps.pure keyed same
  | closeGroup => exact percents_closeGroup keyed _ _ same
  | compare operator => exact Keeps.pure keyed same
  | constant literal => exact Keeps.pure keyed (pushed _ (Nat.le_refl _))
  | number text =>
      simp only [Stacks.shift]
      split
      · next literal read =>
          refine Keeps.pure keyed (pushed (.literal literal) ?_)
          exact Nat.le_of_eq (Literal.count_text_number read)
      · exact Keeps.throw keyed _
  | word word =>
      simp only [Stacks.shift]
      split
      · exact Keeps.pure keyed (pushed .marker (Nat.zero_le _))
      · exact Keeps.pure keyed same
      · exact Keeps.pure keyed (pushed _ (Nat.le_refl _))

theorem percents_foldlM (keyed : interner.Keyed) (shifted : Stacks) (tokens : List Token) :
    Keeps Keyed (fun _ after => totalPercents after.operands ≤
      totalPercents shifted.operands + (tokens.flatMap Token.content).count '%')
      (tokens.foldlM Stacks.shift shifted) interner := by
  induction tokens generalizing shifted interner with
  | nil => exact Keeps.pure keyed (Nat.le_refl _)
  | cons token tokens ih =>
      rw [List.foldlM_cons]
      refine (percents_shift keyed shifted token).bind ?_
      intro between after _ keyedAfter fewer
      refine (ih keyedAfter between).imp ?_
      intro _ final fewerLater
      rw [Token.percents] at fewer
      simp only [List.flatMap_cons, List.count_append]
      omega

/-- A text is parsed as a condition with at most the percent signs of the expanded text. -/
theorem percents_parse (keyed : interner.Keyed) {text expanded : String} {bindings : List Value}
    (written : Template.expand text bindings = .ok expanded) :
    Keeps Keyed (fun _ shared => shared.condition.percents ≤ expanded.toList.count '%')
      (parse text bindings) interner := by
  unfold parse
  simp only [written]
  split
  · exact Keeps.throw keyed _
  · next found read =>
      have scanned := (Token.scanned_of_scan (scan_of_tokens read)).percents_le
      have sameCount : ('(' :: expanded.toList ++ [')']).count '%' = expanded.toList.count '%' := by
        simp
      rw [sameCount] at scanned
      refine (percents_foldlM keyed {} found).bind ?_
      intro shifted after _ keyedAfter fewer
      split
      · next shared reduced =>
          refine Keeps.pure keyedAfter ?_
          rw [Stacks.operands_of_result reduced] at fewer
          have total : totalPercents [.condition shared] = shared.condition.percents :=
            totalPercents_cons _ _
          have nothing : totalPercents ({} : Stacks).operands = 0 := rfl
          omega
      · exact Keeps.throw keyedAfter _

end

end SharedCondition

end FactRules
