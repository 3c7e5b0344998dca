import FactRules.Proofs.Unambiguous

/-!
The text of an equality tells its key from its literal, whatever characters the key has. A quotation
opens with the last quote that has no backslash before it, and the equals sign is the last one with
a blank on both sides, as long as no type name has one.
-/

namespace FactRules

/-- A text has one valid split where no valid split can be moved to the right. -/
theorem split_unique {α : Type} (valid : List α → List α → Prop)
    (unmoved : ∀ front more rest, valid front (more ++ rest) → valid (front ++ more) rest →
      more = []) {front rest other otherRest : List α} (isValid : valid front rest)
    (otherValid : valid other otherRest) (same : front ++ rest = other ++ otherRest) :
    front = other ∧ rest = otherRest := by
  rcases List.append_eq_append_iff.1 same with ⟨more, rfl, rfl⟩ | ⟨more, rfl, rfl⟩
  · obtain rfl := unmoved _ _ _ isValid otherValid
    simp
  · obtain rfl := unmoved _ _ _ otherValid isValid
    simp

def Escaped (text : List Char) : Prop :=
  ∀ front back, text = front ++ '\'' :: back → front.getLast? = some '\\'

theorem escapedCharacter_cases (character : Char) :
    Literal.escapedCharacter character = ['\\', character] ∨
      Literal.escapedCharacter character = [character] ∧ character ≠ '\'' := by
  by_cases escaped : character = '\\' ∨ character = '\''
  · exact .inl (by simp [Literal.escapedCharacter, escaped])
  · refine .inr ⟨?_, fun isQuote => escaped (.inr isQuote)⟩
    simp only [Literal.escapedCharacter, Bool.or_eq_true, decide_eq_true_eq, escaped, if_false]

theorem escaped_flatMap (text : List Char) :
    Escaped (text.flatMap Literal.escapedCharacter) := by
  induction text with
  | nil =>
      intro front back split
      simp at split
  | cons character text ih =>
      intro front back split
      rw [List.flatMap_cons] at split
      rcases escapedCharacter_cases character with shape | ⟨shape, notQuote⟩
      · rw [shape] at split
        match front, split with
        | [_], split =>
            rw [(List.cons.inj split).1]
            rfl
        | _ :: _ :: front, split =>
            have later := ih front back (List.cons.inj (List.cons.inj split).2).2
            simp [List.getLast?_cons, later]
      · rw [shape] at split
        match front, split with
        | [], split => exact absurd (List.cons.inj split).1 notQuote
        | _ :: front, split =>
            have later := ih front back (List.cons.inj split).2
            simp [List.getLast?_cons, later]

theorem Literal.eq_of_escaped {text other : String}
    (same : text.toList.flatMap escapedCharacter = other.toList.flatMap escapedCharacter) :
    text = other := by
  have read := Token.quotedBody?_escaped text.toList []
  rw [same, Token.quotedBody?_escaped] at read
  exact String.toList_inj.1 (Prod.mk.inj (Option.some.inj read)).1.symm

def Quotes (front rest : List Char) : Prop :=
  front.getLast? ≠ some '\\' ∧ ∃ body, rest = '\'' :: body ∧ Escaped body

theorem quotes_unmoved (front more rest : List Char) (quotes : Quotes front (more ++ rest))
    (moved : Quotes (front ++ more) rest) : more = [] := by
  obtain ⟨-, body, opened, escaped⟩ := quotes
  obtain ⟨bare, later, rfl, -⟩ := moved
  cases more with
  | nil => rfl
  | cons first more =>
      have last := escaped more later (List.cons.inj opened).2.symm
      refine absurd ?_ bare
      simp [List.getLast?_append, List.getLast?_cons, last]

def equalsSign : List Char := [' ', '=', ' ']

theorem no_equalsSign_of_no_blank {text : List Char} (noBlank : ' ' ∉ text) :
    ¬ equalsSign <:+: text :=
  fun sign => noBlank (sign.subset List.mem_cons_self)

/-- An equals sign with blanks comes first, and then no other one. -/
def Equates (rest : List Char) : Prop :=
  ∃ tail, rest = equalsSign ++ tail ∧ tail.head? ≠ some '=' ∧ ¬ equalsSign <:+: tail

theorem equates_unmoved (_front more rest : List Char) (equates : Equates (more ++ rest))
    (moved : Equates rest) : more = [] := by
  obtain ⟨tail, shape, head, single⟩ := equates
  obtain ⟨later, rfl, -, -⟩ := moved
  match more, shape with
  | [], _ => rfl
  | [_], shape => simp [equalsSign] at shape
  | [_, _], shape =>
      have inside : '=' :: ' ' :: later = tail :=
        (List.cons.inj (List.cons.inj (List.cons.inj shape).2).2).2
      exact absurd (by rw [← inside]; rfl) head
  | _ :: _ :: _ :: more, shape =>
      have inside : more ++ (equalsSign ++ later) = tail :=
        (List.cons.inj (List.cons.inj (List.cons.inj shape).2).2).2
      exact absurd ⟨more, later, by rw [← inside, List.append_assoc]⟩ single

namespace Literal

def opening : Literal → List Char
  | .string _ => []
  | .typed typeName _ => '(' :: typeName.toList ++ [')']
  | literal => literal.text.toList

def quoted? : Literal → Option String
  | .string text => some text
  | .typed _ text => some text
  | _ => none

theorem text_of_quoted? {literal : Literal} {content : String}
    (quotes : literal.quoted? = some content) :
    literal.text.toList =
      literal.opening ++ '\'' :: content.toList.flatMap escapedCharacter ++ ['\''] := by
  cases literal with
  | string => cases quotes; simp [text, quotedText, opening]
  | typed => cases quotes; simp [text, quotedText, opening]
  | integer | float | bool | null => cases quotes

theorem text_of_unquoted {literal : Literal} (unquoted : literal.quoted? = none) :
    literal.text.toList = literal.opening := by
  cases literal with
  | string | typed => cases unquoted
  | integer | float | bool | null => rfl

def Unequated : Literal → Prop
  | .typed typeName _ => ¬ equalsSign <:+: typeName.toList
  | _ => True

theorem infinite_cases {literal : Literal} (unquoted : literal.quoted? = none)
    (infinite : ¬ literal.Printable) :
    literal = .float .nan ∨ literal = .float (.infinite false) ∨
      literal = .float (.infinite true) := by
  cases literal with
  | string | typed => cases unquoted
  | integer | bool | null => exact absurd trivial infinite
  | float value =>
      match value, infinite with
      | .nan, _ => exact .inl rfl
      | .infinite false, _ => exact .inr (.inl rfl)
      | .infinite true, _ => exact .inr (.inr rfl)
      | .finite .., infinite => exact absurd rfl infinite

theorem next?_text_alone {literal : Literal} (printable : literal.Printable) :
    Token.next? literal.text.toList = some (literal.token, []) := by
  have stops : Token.Stops [] := nofun
  simpa using next?_text printable stops

theorem text_ne_of_infinite {left right : Literal} (printable : left.Printable)
    (unquoted : right.quoted? = none) (infinite : ¬ right.Printable) : left.text ≠ right.text := by
  intro same
  have read := next?_text_alone printable
  have word : ∃ word, Token.next? right.text.toList = some (.word word, []) := by
    rcases infinite_cases unquoted infinite with rfl | rfl | rfl
    · exact ⟨"NaN", by decide⟩
    · exact ⟨"inf", by decide⟩
    · exact ⟨"-inf", by decide⟩
  obtain ⟨word, asWord⟩ := word
  rw [same, asWord] at read
  exact left.token_ne_word word (Prod.mk.inj (Option.some.inj read)).1.symm

theorem eq_of_unquoted {left right : Literal} (leftUnquoted : left.quoted? = none)
    (rightUnquoted : right.quoted? = none) (same : left.text = right.text) : left = right := by
  by_cases leftPrintable : left.Printable <;> by_cases rightPrintable : right.Printable
  · have leftRead := next?_text_alone leftPrintable
    rw [same, next?_text_alone rightPrintable] at leftRead
    exact token_inj leftPrintable rightPrintable (Prod.mk.inj (Option.some.inj leftRead)).1.symm
  · exact absurd same (text_ne_of_infinite leftPrintable rightUnquoted rightPrintable)
  · exact absurd same.symm (text_ne_of_infinite rightPrintable leftUnquoted leftPrintable)
  · rcases infinite_cases leftUnquoted leftPrintable with rfl | rfl | rfl <;>
      rcases infinite_cases rightUnquoted rightPrintable with rfl | rfl | rfl <;>
      first | rfl | exact absurd same (by decide)

theorem eq_of_opening {left right : Literal} (openings : left.opening = right.opening)
    (quotations : left.quoted? = right.quoted?) : left = right := by
  cases quotes : right.quoted? with
  | none =>
      rw [quotes] at quotations
      apply eq_of_unquoted quotations quotes
      apply String.toList_inj.1
      rw [text_of_unquoted quotations, text_of_unquoted quotes, openings]
  | some content =>
      cases left <;> cases right <;> simp_all [opening, quoted?, String.toList_inj]

def isPlain (character : Char) : Bool :=
  character ≠ ' ' && character ≠ '\'' && character ≠ '='

theorem isPlain_of_isDigit {character : Char} (digit : character.isDigit = true) :
    isPlain character = true := by
  have other (mark : Char) (noDigit : mark.isDigit = false) : character ≠ mark := by
    rintro rfl
    exact Bool.false_ne_true (noDigit.symm.trans digit)
  simp [isPlain, other ' ' rfl, other '\'' rfl, other '=' rfl]

theorem plain_of_isNumeral {text whole : List Char} {negative : Bool}
    {fraction : Option (List Char)} (numeral : Text.IsNumeral text negative whole fraction) :
    text.all isPlain = true := by
  have digits {text : List Char} (allDigits : Text.AllDigits text) : text.all isPlain = true :=
    List.all_eq_true.2 fun character member => isPlain_of_isDigit (allDigits character member)
  have sign : (if negative then ['-'] else []).all isPlain = true := by cases negative <;> rfl
  rw [numeral.split, List.all_append, List.all_append, sign, digits numeral.wholeDigits]
  cases fraction with
  | none => rfl
  | some places =>
      rw [Text.behindPoint, List.all_cons, digits (numeral.fractionDigits places rfl).1]
      rfl

theorem plain_of_unquoted {literal : Literal} (unquoted : literal.quoted? = none) :
    literal.text.toList.all isPlain = true := by
  by_cases printable : literal.Printable
  · cases literal with
    | string | typed => cases unquoted
    | bool value => cases value <;> rfl
    | null => rfl
    | integer value =>
        obtain ⟨_, _, isNumeral⟩ := isNumeral_integer value
        exact plain_of_isNumeral isNumeral
    | float value =>
        obtain ⟨_, _, _, isNumeral⟩ := isNumeral_float printable
        exact plain_of_isNumeral isNumeral
  · rcases infinite_cases unquoted printable with rfl | rfl | rfl <;> rfl

theorem not_mem_of_unquoted {literal : Literal} (unquoted : literal.quoted? = none)
    {mark : Char} (isMark : isPlain mark = false) : mark ∉ literal.text.toList := by
  intro member
  have plain := List.all_eq_true.1 (plain_of_unquoted unquoted) mark member
  exact Bool.false_ne_true (isMark.symm.trans plain)

theorem equates_opening {literal : Literal} (unequated : literal.Unequated) :
    Equates (equalsSign ++ literal.opening) := by
  refine ⟨literal.opening, rfl, ?_⟩
  cases quotes : literal.quoted? with
  | none =>
      rw [← text_of_unquoted quotes]
      constructor
      · intro head
        exact not_mem_of_unquoted quotes rfl (List.mem_of_mem_head? head)
      · exact no_equalsSign_of_no_blank (not_mem_of_unquoted quotes rfl)
  | some content =>
      cases literal with
      | integer | float | bool | null => cases quotes
      | string => exact ⟨nofun, no_equalsSign_of_no_blank nofun⟩
      | typed typeName text =>
          refine ⟨by simp [opening], ?_⟩
          intro sign
          rcases List.infix_cons_iff.1 sign with ⟨back, begins⟩ | sign
          · exact absurd (List.cons.inj begins).1 (by decide)
          · rcases List.infix_concat_iff.1 sign with ⟨front, ends⟩ | sign
            · have last := congrArg List.getLast? ends
              simp [equalsSign] at last
            · exact unequated sign

theorem quotes_opening {literal : Literal} {content : String}
    (quotes : literal.quoted? = some content) (key : List Char) :
    Quotes (key ++ (equalsSign ++ literal.opening))
      ('\'' :: content.toList.flatMap escapedCharacter) := by
  refine ⟨?_, _, rfl, escaped_flatMap content.toList⟩
  cases literal with
  | string => simp [opening, equalsSign]
  | typed => simp [opening, equalsSign, List.getLast?_cons]
  | integer | float | bool | null => cases quotes

theorem getLast?_eq_quote_iff (front : List Char) (literal : Literal) :
    (front ++ (equalsSign ++ literal.text.toList)).getLast? = some '\'' ↔
      literal.quoted?.isSome = true := by
  cases quotes : literal.quoted? with
  | some content => simp [text_of_quoted? quotes, List.getLast?_cons]
  | none =>
      refine iff_of_false ?_ nofun
      intro last
      have last : (equalsSign ++ literal.text.toList).getLast? = some '\'' := by
        simpa [equalsSign, List.getLast?_append, List.getLast?_cons] using last
      rcases List.mem_append.1 (List.mem_of_getLast? last) with inSign | inText
      · exact absurd inSign (by decide)
      · exact not_mem_of_unquoted quotes rfl inText

end Literal

/-- An equality of any key with a literal is determined by its text. -/
theorem equality_text_inj {key other : String} {left right : Literal}
    (leftUnequated : left.Unequated) (rightUnequated : right.Unequated)
    (same : (Comparison.keyLiteral key .equal left).text =
      (Comparison.keyLiteral other .equal right).text) : key = other ∧ left = right := by
  have shape (key : String) (literal : Literal) :
      (Comparison.keyLiteral key .equal literal).text.toList =
        '(' :: (key.toList ++ (equalsSign ++ literal.text.toList)) ++ [')'] := by
    simp [Comparison.text, Operator.symbol, equalsSign]
  have whole := congrArg String.toList same
  rw [shape, shape] at whole
  have inner := (List.cons.inj (List.append_cancel_right whole)).2
  -- Without the quotations the last equals sign parts the texts.
  have parted (openings : key.toList ++ (equalsSign ++ left.opening) =
      other.toList ++ (equalsSign ++ right.opening)) (quotations : left.quoted? = right.quoted?) :
      key = other ∧ left = right := by
    obtain ⟨keys, signs⟩ := split_unique (fun _ rest => Equates rest) equates_unmoved
      (left.equates_opening leftUnequated) (right.equates_opening rightUnequated) openings
    exact ⟨String.toList_inj.1 keys,
      Literal.eq_of_opening (List.append_cancel_left signs) quotations⟩
  have ends := Literal.getLast?_eq_quote_iff key.toList left
  rw [inner, Literal.getLast?_eq_quote_iff] at ends
  cases leftQuotes : left.quoted? with
  | none =>
      cases rightQuotes : right.quoted? with
      | some => simp [leftQuotes, rightQuotes] at ends
      | none =>
          rw [Literal.text_of_unquoted leftQuotes, Literal.text_of_unquoted rightQuotes] at inner
          exact parted inner (leftQuotes.trans rightQuotes.symm)
  | some content =>
      cases rightQuotes : right.quoted? with
      | none => simp [leftQuotes, rightQuotes] at ends
      | some otherContent =>
          rw [Literal.text_of_quoted? leftQuotes, Literal.text_of_quoted? rightQuotes] at inner
          simp only [← List.append_assoc] at inner
          obtain ⟨openings, bodies⟩ := split_unique Quotes quotes_unmoved
            (Literal.quotes_opening leftQuotes key.toList)
            (Literal.quotes_opening rightQuotes other.toList)
            (by simpa only [List.append_assoc] using List.append_cancel_right inner)
          have contents := Literal.eq_of_escaped (List.cons.inj bodies).2
          exact parted openings (by rw [leftQuotes, rightQuotes, contents])

end FactRules
