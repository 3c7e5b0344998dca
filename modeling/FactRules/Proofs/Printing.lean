import FactRules.Proofs.Followed

/-!
Canonical texts are read as the tokens that they are printed from, literal by literal and node by
node, in front of whatever may follow them in a longer text.
-/

namespace FactRules

namespace Token

def Delimits (rest : List Char) : Prop :=
  ∀ character ∈ rest.head?, character = ' ' ∨ character = ')'

def Reads (text : List Char) (tokens : List Token) : Prop :=
  ∀ rest, Delimits rest → scan (text ++ rest) = (tokens ++ ·) <$> scan rest

def NoName (text : List Char) : Prop :=
  ∀ rest, typed? ('(' :: (text ++ rest)) = none

section

variable {text rest : List Char} {tokens : List Token}

theorem Delimits.stops (delimits : Delimits rest) : Stops rest := by
  intro character isHead
  rcases delimits character isHead with rfl | rfl
  · exact .inl rfl
  · exact .inr (.inr rfl)

theorem reads_one {first : Char} {later : List Char} {token : Token} (shape : text = first :: later)
    (notBlank : Text.isBlank first = false)
    (found : ∀ rest, Delimits rest → next? (text ++ rest) = some (token, rest)) :
    Reads text [token] := by
  intro rest delimits
  have step := found rest delimits
  rw [shape, List.cons_append] at step ⊢
  exact scan_step (by simp [Text.dropBlanks, notBlank]) step

theorem map_append_map {ε α : Type} (first second : List α) (outcome : Except ε (List α)) :
    (first ++ ·) <$> (second ++ ·) <$> outcome = (first ++ second ++ ·) <$> outcome := by
  cases outcome with
  | error error => rfl
  | ok found => exact congrArg Except.ok (List.append_assoc first second found).symm

theorem Reads.space {other : List Char} {others : List Token} (reads : Reads text tokens)
    (readsOther : Reads other others) : Reads (text ++ ' ' :: other) (tokens ++ others) := by
  intro rest delimits
  have blank : scan (' ' :: (other ++ rest)) = scan (other ++ rest) := scan_congr rfl
  rw [List.append_assoc, List.cons_append, reads _ (by simp [Delimits]), blank,
    readsOther rest delimits, map_append_map]

theorem Reads.group (reads : Reads text tokens) (noName : NoName text) :
    Reads ('(' :: (text ++ [')'])) (.openGroup :: (tokens ++ [.closeGroup])) := by
  intro rest delimits
  have opened : next? ('(' :: (text ++ ')' :: rest)) = some (.openGroup, text ++ ')' :: rest) := by
    have notTyped := noName (')' :: rest)
    simp [next?, notTyped, group?]
  have closed : scan (')' :: rest) = (.closeGroup :: ·) <$> scan rest :=
    scan_step rfl rfl
  have split : '(' :: (text ++ [')']) ++ rest = '(' :: (text ++ ')' :: rest) := by simp
  rw [split, scan_step rfl opened, reads _ (by simp [Delimits]), closed]
  have joined := map_append_map [.openGroup] (tokens ++ [.closeGroup]) (scan rest)
  rw [← map_append_map tokens] at joined
  exact joined

theorem noName_of_head {initial : Char} (lower : initial.isUpper = false) :
    NoName (initial :: text) := by
  intro rest
  simp [typed?, lower]

theorem noName_of_space (noClose : ')' ∉ text) (later : List Char) :
    NoName (text ++ ' ' :: later) := by
  intro rest
  cases text with
  | nil => rfl
  | cons initial text =>
      have stops : (' ' :: (later ++ rest)).dropWhile Char.isAlphanum = ' ' :: (later ++ rest) := rfl
      have notClosed : ∀ input, (text ++ ' ' :: (later ++ rest)).dropWhile Char.isAlphanum ≠
          ')' :: input := by
        intro input closed
        rw [List.dropWhile_append, stops] at closed
        split at closed
        · cases closed
        · next nonempty =>
            have member : ')' ∈ text.dropWhile Char.isAlphanum := by
              cases left : text.dropWhile Char.isAlphanum with
              | nil => simp [left] at nonempty
              | cons found others =>
                  rw [left, List.cons_append] at closed
                  simp [(List.cons.inj closed).1]
            exact noClose (List.mem_cons_of_mem _ ((List.dropWhile_sublist _).subset member))
      simp only [typed?, List.cons_append, List.append_assoc]
      split
      · next closed => exact absurd closed (notClosed _)
      · rfl

theorem quotedBody?_escaped (text rest : List Char) :
    quotedBody? '\'' (text.flatMap Literal.escapedCharacter ++ '\'' :: rest) =
      some (text, rest) := by
  induction text with
  | nil => rfl
  | cons character text ih =>
      rw [List.flatMap_cons, List.append_assoc]
      by_cases escaped : character = '\\' ∨ character = '\''
      · have shape : Literal.escapedCharacter character = ['\\', character] := by
          simp [Literal.escapedCharacter, escaped]
        rw [shape]
        simp [quotedBody?, ih]
      · have shape : Literal.escapedCharacter character = [character] := by
          simp only [Literal.escapedCharacter, Bool.or_eq_true, decide_eq_true_eq, escaped, if_false]
        rw [not_or] at escaped
        rw [shape, List.singleton_append]
        unfold quotedBody?
        split
        · next same => cases same
        · next same => exact absurd (List.cons.inj same).1 escaped.1
        · next same => exact absurd (List.cons.inj same).1 escaped.1
        · next same =>
            cases same
            simp [escaped.2, ih]

theorem quoted?_quotedText (text : String) (rest : List Char) :
    quoted? ((Literal.quotedText text).toList ++ rest) = some (text, rest) := by
  rw [Literal.quotedText, String.toList_ofList]
  simp only [List.cons_append, List.append_assoc, quoted?]
  simp [quotedBody?_escaped]

theorem next?_typed {name : String} (isTypeName : Literal.IsTypeName name) (text : String)
    (rest : List Char) :
    next? ((Literal.typed name text).text.toList ++ rest) =
      some (.constant (.typed name text), rest) := by
  obtain ⟨initial, later, nameEq, upper, alphanumeric⟩ := isTypeName
  have shape : (Literal.typed name text).text.toList =
      '(' :: (initial :: (later ++ ')' :: (Literal.quotedText text).toList)) := by
    simp [Literal.text, nameEq]
  have quoted := quoted?_quotedText text rest
  have stops : (')' :: ((Literal.quotedText text).toList ++ rest)).takeWhile Char.isAlphanum = [] :=
    rfl
  have keeps : (')' :: ((Literal.quotedText text).toList ++ rest)).dropWhile Char.isAlphanum =
      ')' :: ((Literal.quotedText text).toList ++ rest) := rfl
  have taken : (later ++ ')' :: ((Literal.quotedText text).toList ++ rest)).takeWhile
      Char.isAlphanum = later := by
    rw [List.takeWhile_append_of_pos alphanumeric, stops, List.append_nil]
  have dropped : (later ++ ')' :: ((Literal.quotedText text).toList ++ rest)).dropWhile
      Char.isAlphanum = ')' :: ((Literal.quotedText text).toList ++ rest) := by
    rw [List.dropWhile_append_of_pos alphanumeric, keeps]
  have isTyped : typed? ((Literal.typed name text).text.toList ++ rest) =
      some (.constant (.typed name text), rest) := by
    rw [shape]
    simp only [typed?, List.cons_append, List.append_assoc, dropped, upper, quoted, taken,
      Option.map_some, ← nameEq, String.ofList_toList]
  simp only [next?, isTyped]
  rfl

theorem unsigned?_numeral {whole : List Char} {decimals : Option (List Char)} {negative : Bool}
    (numeral : Text.IsNumeral text negative whole decimals) :
    unsigned? (whole ++ Text.behindPoint decimals) = some (whole ++ Text.behindPoint decimals, []) := by
  cases decimals with
  | none =>
      have taken := Text.takeWhile_digits numeral.wholeDigits []
      have dropped := Text.dropWhile_digits numeral.wholeDigits []
      simp only [Text.behindPoint, unsigned?, taken, dropped]
      simp [numeral.wholeNonempty, fraction]
  | some digits =>
      obtain ⟨allDigits, nonempty⟩ := numeral.fractionDigits digits rfl
      have taken := Text.takeWhile_digits allDigits []
      have dropped := Text.dropWhile_digits allDigits []
      have decimals : fraction ('.' :: digits) = ('.' :: digits, []) := by
        rw [List.append_nil] at taken dropped
        simp [fraction, taken, dropped, nonempty]
      have pointStops : ('.' :: digits).takeWhile Char.isDigit = [] := rfl
      have pointKeeps : ('.' :: digits).dropWhile Char.isDigit = '.' :: digits := rfl
      simp only [Text.behindPoint, unsigned?, Text.takeWhile_digits numeral.wholeDigits,
        Text.dropWhile_digits numeral.wholeDigits, pointStops, pointKeeps, decimals,
        List.append_nil]
      simp [numeral.wholeNonempty]

def numeralHeads : List Char :=
  ['-', '0', '1', '2', '3', '4', '5', '6', '7', '8', '9']

theorem head_numeral {whole : List Char} {decimals : Option (List Char)} {negative : Bool}
    (numeral : Text.IsNumeral text negative whole decimals) :
    ∃ first later, text = first :: later ∧ first ∈ numeralHeads := by
  have split := numeral.split
  cases negative with
  | true => exact ⟨'-', _, split, List.mem_cons_self⟩
  | false =>
      obtain ⟨first, later, wholeEq⟩ := List.exists_cons_of_ne_nil numeral.wholeNonempty
      have digit := numeral.wholeDigits first (by rw [wholeEq]; exact List.mem_cons_self)
      rw [if_neg Bool.false_ne_true, List.nil_append, wholeEq, List.cons_append] at split
      exact ⟨first, _, split, List.mem_cons_of_mem _ (Text.mem_digits digit)⟩

theorem number?_numeral {whole : List Char} {decimals : Option (List Char)} {negative : Bool}
    (numeral : Text.IsNumeral text negative whole decimals) :
    number? text = some (.number (String.ofList text), []) := by
  have split := numeral.split
  have unsigned := unsigned?_numeral numeral
  cases negative with
  | true =>
      rw [if_pos rfl, List.singleton_append] at split
      rw [split, number?, unsigned]
      rfl
  | false =>
      rw [if_neg Bool.false_ne_true, List.nil_append] at split
      rw [← split] at unsigned
      obtain ⟨first, later, wholeEq⟩ := List.exists_cons_of_ne_nil numeral.wholeNonempty
      have digit := numeral.wholeDigits first (by rw [wholeEq]; exact List.mem_cons_self)
      rw [number?, unsigned]
      · rfl
      · intro others same
        rw [split, wholeEq, List.cons_append] at same
        rw [(List.cons.inj same).1] at digit
        cases digit

theorem next?_number {whole : List Char} {decimals : Option (List Char)} {negative : Bool}
    (numeral : Text.IsNumeral text negative whole decimals) (stops : Stops rest) :
    next? (text ++ rest) = some (.number (String.ofList text), rest) := by
  have isNumber := number?_numeral numeral
  obtain ⟨first, later, rfl, isHead⟩ := head_numeral numeral
  have noMark : (numeralHeads.all fun head =>
      head != '(' && head != ')' && head != '\'' && head != '"') = true := by decide
  obtain ⟨notOpen, notClose, notSingle, notDouble⟩ :
      first ≠ '(' ∧ first ≠ ')' ∧ first ≠ '\'' ∧ first ≠ '"' := by
    simpa [and_assoc] using List.all_eq_true.1 noMark first isHead
  have noOperator : operator? (first :: later) = none := by
    simp only [numeralHeads, List.mem_cons, List.not_mem_nil, or_false] at isHead
    rcases isHead with rfl | rfl | rfl | rfl | rfl | rfl | rfl | rfl | rfl | rfl | rfl <;> rfl
  refine next?_alone ?_ notOpen notSingle notDouble stops
  simp only [next?, typed?_of_ne notOpen, group?_of_ne notOpen notClose, noOperator, isNumber]
  rfl

theorem reads_operator (operator : Operator) :
    Reads operator.symbol.toList [.compare operator] := by
  have heads : (['=', '!', '<', '>', 'c', 'l'].all fun head =>
      !Text.isBlank head && head != '(' && head != '\'' && head != '"') = true := by decide
  have shape : ∃ first later, operator.symbol.toList = first :: later ∧
      first ∈ ['=', '!', '<', '>', 'c', 'l'] ∧
        next? (first :: later) = some (.compare operator, []) := by
    cases operator <;> exact ⟨_, _, rfl, by decide, rfl⟩
  obtain ⟨first, later, shape, isHead, alone⟩ := shape
  obtain ⟨notBlank, notOpen, notSingle, notDouble⟩ :
      Text.isBlank first = false ∧ first ≠ '(' ∧ first ≠ '\'' ∧ first ≠ '"' := by
    simpa [and_assoc] using List.all_eq_true.1 heads first isHead
  refine reads_one shape notBlank fun rest delimits => ?_
  rw [shape]
  exact next?_alone alone notOpen notSingle notDouble delimits.stops

theorem reads_word (isWord : IsWord text) : Reads text [.word (String.ofList text)] := by
  obtain ⟨first, later, shape⟩ := List.exists_cons_of_ne_nil isWord.nonempty
  have bare := isWord.bare first (shape ▸ List.mem_cons_self)
  refine reads_one shape ?_ fun rest delimits => next?_word isWord delimits.stops.endsWord
  simp only [isBare, Bool.and_eq_true, Bool.not_eq_eq_eq_not, Bool.not_true] at bare
  exact bare.1

end

end Token

namespace Literal

def token : Literal → Token
  | .integer value => .number (Literal.integer value).text
  | .float value => .number (Literal.float value).text
  | other => .constant other

/-- Numbers are finite, and the types of typed literals are named by type names. -/
def Printable : Literal → Prop
  | .float value => value.isFinite = true
  | .typed name _ => IsTypeName name
  | _ => True

theorem next?_text {literal : Literal} (printable : literal.Printable) {rest : List Char}
    (stops : Token.Stops rest) :
    Token.next? (literal.text.toList ++ rest) = some (literal.token, rest) := by
  cases literal with
  | string content => exact Token.next?_quoted (Token.quoted?_quotedText content rest)
  | integer value =>
      obtain ⟨negative, whole, numeral⟩ := isNumeral_integer value
      simpa [token] using Token.next?_number numeral stops
  | float value =>
      obtain ⟨negative, whole, fraction, numeral⟩ := isNumeral_float printable
      simpa [token] using Token.next?_number numeral stops
  | bool value =>
      cases value
      · exact Token.next?_alone rfl (by decide) (by decide) (by decide) stops
      · exact Token.next?_alone rfl (by decide) (by decide) (by decide) stops
  | null => exact Token.next?_alone rfl (by decide) (by decide) (by decide) stops
  | typed name content => exact Token.next?_typed printable content rest

theorem head_text {literal : Literal} (printable : literal.Printable) :
    ∃ first later, literal.text.toList = first :: later ∧ Text.isBlank first = false ∧
      first.isUpper = false := by
  have plain : (Token.numeralHeads.all fun head => !Text.isBlank head && !head.isUpper) = true := by
    decide
  have heads : ∀ head ∈ Token.numeralHeads,
      Text.isBlank head = false ∧ head.isUpper = false := by
    intro head isHead
    simpa using List.all_eq_true.1 plain head isHead
  cases literal with
  | string content => exact ⟨'\'', _, by simp [text, quotedText]; rfl, rfl, rfl⟩
  | integer value =>
      obtain ⟨negative, whole, numeral⟩ := isNumeral_integer value
      obtain ⟨first, later, shape, isHead⟩ := Token.head_numeral numeral
      exact ⟨first, later, shape, heads first isHead⟩
  | float value =>
      obtain ⟨negative, whole, fraction, numeral⟩ := isNumeral_float printable
      obtain ⟨first, later, shape, isHead⟩ := Token.head_numeral numeral
      exact ⟨first, later, shape, heads first isHead⟩
  | bool value => cases value <;> exact ⟨_, _, rfl, rfl, rfl⟩
  | null => exact ⟨_, _, rfl, rfl, rfl⟩
  | typed name content => exact ⟨'(', _, by simp [text]; rfl, rfl, rfl⟩

theorem reads_text {literal : Literal} (printable : literal.Printable) :
    Token.Reads literal.text.toList [literal.token] := by
  obtain ⟨first, later, shape, notBlank, _⟩ := head_text printable
  apply Token.reads_one shape notBlank
  intro rest delimits
  exact next?_text printable delimits.stops

theorem noName_text {literal : Literal} (printable : literal.Printable) (later : List Char) :
    Token.NoName (literal.text.toList ++ later) := by
  obtain ⟨first, others, shape, _, lower⟩ := head_text printable
  rw [shape, List.cons_append]
  exact Token.noName_of_head lower

end Literal

def IsKey (key : String) : Prop :=
  Token.scan key.toList = .ok [.word key] ∧ Pending.ofWord? key = none

theorem isWord_of_scan {word : String} (alone : Token.scan word.toList = .ok [.word word]) :
    Token.IsWord word.toList := by
  cases start : Text.dropBlanks word.toList with
  | nil =>
      rw [Token.scan_nil start] at alone
      cases alone
  | cons first later =>
      cases found : Token.next? (first :: later) with
      | none =>
          rw [Token.scan_stuck start found] at alone
          cases alone
      | some step =>
          obtain ⟨token, rest⟩ := step
          rw [Token.scan_step start found] at alone
          cases after : Token.scan rest with
          | error stuck =>
              rw [after] at alone
              cases alone
          | ok tokens =>
              rw [after] at alone
              have same := (List.cons.inj (Except.ok.inj alone)).1
              rw [same] at found
              exact (Token.isWord_of_next? found).1

theorem scan_of_isWord {word : String} (isWord : Token.IsWord word.toList) :
    Token.scan word.toList = .ok [.word word] := by
  have reads := Token.reads_word isWord [] (by simp [Token.Delimits])
  have nothing : Token.scan [] = .ok [] := Token.scan_nil rfl
  rw [List.append_nil, nothing, String.ofList_toList] at reads
  exact reads

theorem IsKey.reads {key : String} (isKey : IsKey key) :
    Token.Reads key.toList [.word key] := by
  have reads := Token.reads_word (isWord_of_scan isKey.1)
  rwa [String.ofList_toList] at reads

theorem IsKey.noClose {key : String} (isKey : IsKey key) : ')' ∉ key.toList :=
  fun member => Token.bare_ne ((isWord_of_scan isKey.1).bare _ member) (by decide) rfl

namespace Comparison

def Printable : Comparison → Prop
  | .keyLiteral key _ literal => IsKey key ∧ literal.Printable
  | .keyKey left _ right => IsKey left ∧ IsKey right
  | .literalLiteral left _ right => left.Printable ∧ right.Printable

def tokens : Comparison → List Token
  | .keyLiteral key operator literal => [.word key, .compare operator, literal.token]
  | .keyKey left operator right => [.word left, .compare operator, .word right]
  | .literalLiteral left operator right => [left.token, .compare operator, right.token]

def inner : Comparison → List Char
  | .keyLiteral key operator literal =>
      key.toList ++ ' ' :: (operator.symbol.toList ++ ' ' :: literal.text.toList)
  | .keyKey left operator right =>
      left.toList ++ ' ' :: (operator.symbol.toList ++ ' ' :: right.toList)
  | .literalLiteral left operator right =>
      left.text.toList ++ ' ' :: (operator.symbol.toList ++ ' ' :: right.text.toList)

theorem text_eq_inner (comparison : Comparison) :
    comparison.text.toList = '(' :: (comparison.inner ++ [')']) := by
  cases comparison <;> simp [text, inner]

theorem reads_inner {comparison : Comparison} (printable : comparison.Printable) :
    Token.Reads comparison.inner comparison.tokens := by
  cases comparison with
  | keyLiteral key operator literal =>
      exact printable.1.reads.space
        ((Token.reads_operator operator).space (Literal.reads_text printable.2))
  | keyKey left operator right =>
      exact printable.1.reads.space ((Token.reads_operator operator).space printable.2.reads)
  | literalLiteral left operator right =>
      exact (Literal.reads_text printable.1).space
        ((Token.reads_operator operator).space (Literal.reads_text printable.2))

theorem noName_inner {comparison : Comparison} (printable : comparison.Printable) :
    Token.NoName comparison.inner := by
  cases comparison with
  | keyLiteral key operator literal => exact Token.noName_of_space printable.1.noClose _
  | keyKey left operator right => exact Token.noName_of_space printable.1.noClose _
  | literalLiteral left operator right => exact Literal.noName_text printable.1 _

end Comparison

namespace Condition

mutual

/-- Every key is one word, every literal can be read, and AND and OR join at least two terms. -/
def Printable : Condition → Prop
  | .leaf comparison => comparison.Printable
  | .all terms => 2 ≤ terms.length ∧ AllPrintable terms
  | .any terms => 2 ≤ terms.length ∧ AllPrintable terms
  | .not inner => Printable inner

def AllPrintable : List Condition → Prop
  | [] => True
  | term :: terms => Printable term ∧ AllPrintable terms

end

mutual

def tokens : Condition → List Token
  | .leaf comparison => .openGroup :: (comparison.tokens ++ [.closeGroup])
  | .all terms =>
      .openGroup :: ([Token.word "AND"].intercalate (termTokens terms) ++ [.closeGroup])
  | .any terms =>
      .openGroup :: ([Token.word "OR"].intercalate (termTokens terms) ++ [.closeGroup])
  | .not inner => .openGroup :: (.word "NOT" :: tokens inner ++ [.closeGroup])

def termTokens : List Condition → List (List Token)
  | [] => []
  | term :: terms => tokens term :: termTokens terms

end

def inner : Condition → List Char
  | .leaf comparison => comparison.inner
  | .all terms => [' ', 'A', 'N', 'D', ' '].intercalate ((termTexts terms).map String.toList)
  | .any terms => [' ', 'O', 'R', ' '].intercalate ((termTexts terms).map String.toList)
  | .not inner => 'N' :: 'O' :: 'T' :: ' ' :: inner.text.toList

theorem text_eq_inner (condition : Condition) :
    condition.text.toList = '(' :: (condition.inner ++ [')']) := by
  cases condition with
  | leaf comparison => exact comparison.text_eq_inner
  | all terms => simp [text, inner, String.toList_intercalate]
  | any terms => simp [text, inner, String.toList_intercalate]
  | not term => simp [text, inner]

theorem noName_text (condition : Condition) : Token.NoName condition.text.toList := by
  rw [text_eq_inner]
  exact Token.noName_of_head rfl

theorem isWord_and : Token.IsWord ['A', 'N', 'D'] :=
  ⟨List.all_eq_true.1 rfl, by decide, rfl, rfl, rfl⟩

theorem isWord_or : Token.IsWord ['O', 'R'] :=
  ⟨List.all_eq_true.1 rfl, by decide, rfl, rfl, rfl⟩

theorem isWord_not : Token.IsWord ['N', 'O', 'T'] :=
  ⟨List.all_eq_true.1 rfl, by decide, rfl, rfl, rfl⟩

theorem reads_intercalate {word : List Char} (isWord : Token.IsWord word) {terms : List Condition}
    (nonempty : terms ≠ [])
    (reads : ∀ term ∈ terms, Token.Reads term.text.toList term.tokens) :
    Token.Reads ((' ' :: (word ++ [' '])).intercalate ((termTexts terms).map String.toList))
      ([Token.word (String.ofList word)].intercalate (termTokens terms)) := by
  induction terms with
  | nil => exact absurd rfl nonempty
  | cons term terms ih =>
      have first := reads term List.mem_cons_self
      cases terms with
      | nil => simpa [termTexts, termTokens] using first
      | cons second terms =>
          have later := ih (by simp) fun other member => reads other (List.mem_cons_of_mem _ member)
          have joined := first.space ((Token.reads_word isWord).space later)
          simpa [termTexts, termTokens] using joined

theorem noName_inner {condition : Condition} (printable : condition.Printable) :
    Token.NoName condition.inner := by
  have ofTerms : ∀ (separator : List Char) (terms : List Condition), 2 ≤ terms.length →
      Token.NoName (separator.intercalate ((termTexts terms).map String.toList)) := by
    intro separator terms several
    match terms, several with
    | first :: second :: terms, _ =>
        simp only [termTexts, List.map_cons, List.intercalate_cons_cons, text_eq_inner,
          List.cons_append, List.append_assoc]
        exact Token.noName_of_head rfl
  cases condition with
  | leaf comparison => exact Comparison.noName_inner printable
  | all terms => exact ofTerms _ terms printable.1
  | any terms => exact ofTerms _ terms printable.1
  | not term =>
      have noClose : ')' ∉ ['N', 'O', 'T'] := by decide
      exact Token.noName_of_space noClose _

mutual

/-- A printable condition is read as its tokens. -/
theorem reads_text : (condition : Condition) → condition.Printable →
    Token.Reads condition.text.toList condition.tokens
  | .leaf comparison, printable => by
      rw [text_eq_inner]
      exact (Comparison.reads_inner printable).group (noName_inner printable)
  | .all terms, printable => by
      rw [text_eq_inner]
      have nonempty : terms ≠ [] := List.ne_nil_of_length_pos (by have := printable.1; omega)
      have joined := reads_intercalate isWord_and nonempty (reads_terms terms printable.2)
      exact joined.group (noName_inner printable)
  | .any terms, printable => by
      rw [text_eq_inner]
      have nonempty : terms ≠ [] := List.ne_nil_of_length_pos (by have := printable.1; omega)
      have joined := reads_intercalate isWord_or nonempty (reads_terms terms printable.2)
      exact joined.group (noName_inner printable)
  | .not inner, printable => by
      rw [text_eq_inner]
      have reads := (Token.reads_word isWord_not).space (reads_text inner printable)
      exact reads.group (noName_inner printable)

theorem reads_terms : (terms : List Condition) → AllPrintable terms →
    ∀ term ∈ terms, Token.Reads term.text.toList term.tokens
  | [], _ => by simp
  | first :: terms, printable => by
      intro term member
      rcases List.mem_cons.1 member with same | later
      · rw [same]
        exact reads_text first printable.1
      · exact reads_terms terms printable.2 term later

end

end Condition

end FactRules
