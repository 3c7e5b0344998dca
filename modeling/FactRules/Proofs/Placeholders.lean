import Mathlib.Data.List.Basic
import FactRules.Proofs.Percents
import FactRules.Proofs.Quoting
import FactRules.Proofs.Splitting
import FactRules.Proofs.Templates

/-!
Placeholders and what is written for them. In a template whose placeholders stand apart from other
text, outside quotes, each is one word. What is written for it is one literal, and nothing else among
the tokens changes.
-/

namespace FactRules

def Value.isObject : Value → Bool
  | .object .. => true
  | _ => false

def Token.StandsFor : Token → Literal → Prop
  | .constant own, literal => own = literal
  | .number text, literal => SharedCondition.Stacks.literalOfNumber? text = some literal
  | _, _ => False

theorem Literal.standsFor_token {literal : Literal} (printable : literal.Printable) :
    literal.token.StandsFor literal := by
  cases literal with
  | integer value => exact SharedCondition.Stacks.literalOfNumber?_integer value
  | float value => exact SharedCondition.Stacks.literalOfNumber?_float printable
  | string | bool | null | typed => rfl

namespace Template

def Conversion.literal? : Conversion → Value → Option Literal
  | .string, binding => some (.string binding.text)
  | .integer, binding => (integer? binding).map .integer
  | .float, binding => (float? binding).map .float
  | .literal, binding => some (.ofValue binding)
  | .keyPath, _ => none

/-- Every percent sign begins a placeholder, not of a key path, that stands outside quotes, behind a
blank, an opening parenthesis or nothing and in front of a blank, a closing one or nothing. -/
def Separate (template : List Char) : Prop :=
  ∀ before after, template = before ++ '%' :: after →
    Token.Unquoted before ∧
    (∀ last ∈ before.getLast?, Text.isBlank last = true ∨ last = '(') ∧
    ∃ letter rest conversion, after = letter :: rest ∧
      Conversion.ofLetter? letter = some conversion ∧ conversion ≠ .keyPath ∧
      ∀ next ∈ rest.head?, Text.isBlank next = true ∨ next = ')'

def Conversion.ofToken? : Token → Option Conversion
  | .word word =>
      match word.toList with
      | ['%', letter] => ofLetter? letter
      | _ => none
  | _ => none

def placeholders : List Char → List Conversion
  | [] => []
  | '%' :: '%' :: rest => placeholders rest
  | '%' :: letter :: rest =>
      match Conversion.ofLetter? letter with
      | none => placeholders (letter :: rest)
      | some conversion => conversion :: placeholders rest
  | _ :: rest => placeholders rest

/-- Each placeholder takes the next binding and becomes one literal, and bindings may be left. -/
inductive Converts : List Conversion → List Value → List Literal → Prop where
  | nil (bindings : List Value) : Converts [] bindings []
  | cons {conversion : Conversion} {binding : Value} {literal : Literal}
      {conversions : List Conversion} {bindings : List Value} {literals : List Literal}
      (converted : conversion.literal? binding = some literal)
      (rest : Converts conversions bindings literals) :
      Converts (conversion :: conversions) (binding :: bindings) (literal :: literals)

def fill : List Token → List Literal → List Token
  | [], _ => []
  | token :: found, literals =>
      match Conversion.ofToken? token, literals with
      | some _, literal :: later => literal.token :: fill found later
      | _, _ => token :: fill found literals

/-- Both texts have tokens, of which the first ones have these placeholders and the second ones the
literals in their place, or both are stuck, in ways that go together. -/
inductive FillsOutcome {ε : Type} (stuckAlike : ε → ε → Prop) (conversions : List Conversion)
    (literals : List Literal) : Except ε (List Token) → Except ε (List Token) → Prop where
  | ok {found : List Token} (inPlace : found.filterMap Conversion.ofToken? = conversions) :
      FillsOutcome stuckAlike conversions literals (.ok found) (.ok (fill found literals))
  | error {first second : ε} (alike : stuckAlike first second) :
      FillsOutcome stuckAlike conversions literals (.error first) (.error second)

def WrittenFor (bindings : List Value) (rest following : List Char) : Prop :=
  ∃ index later, later <:+ bindings ∧ expandFrom index later rest = .ok following

/-- Neither text goes on with a token, and what is left of the second one is written for what is left
of the first, from bindings that are left. -/
def StuckAlike (bindings : List Value) : ParseError → ParseError → Prop
  | .unrecognized _ rest, .unrecognized _ following =>
      WrittenFor bindings rest.toList following.toList
  | _, _ => False

section

variable {ε : Type} {stuckAlike : ε → ε → Prop} {first second : Except ε (List Token)}
  {conversions : List Conversion} {literals : List Literal} {kept found : List Token}

theorem ofToken?_placeholder (conversion : Conversion) :
    Conversion.ofToken? (.word conversion.placeholder) = some conversion := by
  cases conversion <;> rfl

theorem fill_append (noPlaceholder : ∀ token ∈ kept, Conversion.ofToken? token = none) :
    fill (kept ++ found) literals = kept ++ fill found literals := by
  induction kept with
  | nil => rfl
  | cons token kept ih =>
      obtain ⟨one, others⟩ := List.forall_mem_cons.1 noPlaceholder
      rw [List.cons_append, fill, ih others, List.cons_append]
      rintro _ _ _ same _
      rw [one] at same
      cases same

theorem FillsOutcome.mono {other : ε → ε → Prop}
    (fills : FillsOutcome stuckAlike conversions literals first second)
    (implies : ∀ left right, stuckAlike left right → other left right) :
    FillsOutcome other conversions literals first second := by
  cases fills with
  | ok inPlace => exact .ok inPlace
  | error alike => exact .error (implies _ _ alike)

theorem FillsOutcome.keepAll (noPlaceholder : ∀ token ∈ kept, Conversion.ofToken? token = none)
    (fills : FillsOutcome stuckAlike conversions literals first second) :
    FillsOutcome stuckAlike conversions literals ((kept ++ ·) <$> first)
      ((kept ++ ·) <$> second) := by
  cases fills with
  | @ok found inPlace =>
      have unmoved : (kept ++ found).filterMap Conversion.ofToken? = conversions := by
        rw [List.filterMap_append, List.filterMap_eq_nil_iff.2 noPlaceholder, inPlace,
          List.nil_append]
      have filled : FillsOutcome stuckAlike conversions literals (.ok (kept ++ found))
          (.ok (Template.fill (kept ++ found) literals)) := .ok unmoved
      rwa [fill_append noPlaceholder] at filled
  | error alike => exact .error alike

theorem FillsOutcome.fill (conversion : Conversion) (literal : Literal)
    (fills : FillsOutcome stuckAlike conversions literals first second) :
    FillsOutcome stuckAlike (conversion :: conversions) (literal :: literals)
      ((.word conversion.placeholder :: ·) <$> first) ((literal.token :: ·) <$> second) := by
  cases fills with
  | @ok found inPlace =>
      have inFront : (.word conversion.placeholder :: found).filterMap Conversion.ofToken? =
          conversion :: conversions := by
        rw [List.filterMap_cons_some (ofToken?_placeholder conversion), inPlace]
      have filled : FillsOutcome stuckAlike (conversion :: conversions) (literal :: literals)
          (.ok (.word conversion.placeholder :: found))
          (.ok (Template.fill (.word conversion.placeholder :: found) (literal :: literals))) :=
        .ok inFront
      simp only [Template.fill, ofToken?_placeholder] at filled
      exact filled
  | error alike => exact .error alike

end

theorem placeholders_of_ne {character : Char} (differs : character ≠ '%') (rest : List Char) :
    placeholders (character :: rest) = placeholders rest := by
  rw [placeholders]
  · rintro _ same _
    exact differs same
  · rintro _ _ same _
    exact differs same

theorem placeholders_append {before : List Char} (noPercent : '%' ∉ before) (rest : List Char) :
    placeholders (before ++ rest) = placeholders rest := by
  induction before with
  | nil => rfl
  | cons character before ih =>
      have differs : character ≠ '%' := fun same => noPercent (same ▸ List.mem_cons_self)
      rw [List.cons_append, placeholders_of_ne differs,
        ih fun member => noPercent (List.mem_cons_of_mem _ member)]

theorem placeholders_conversion {letter : Char} {conversion : Conversion}
    (isConversion : Conversion.ofLetter? letter = some conversion) (rest : List Char) :
    placeholders ('%' :: letter :: rest) = conversion :: placeholders rest := by
  have single : letter ≠ '%' := by
    rintro rfl
    cases isConversion
  rw [placeholders]
  · simp only [isConversion]
  · exact single

theorem placeholders_close (text : List Char) :
    placeholders (text ++ [')']) = placeholders text := by
  induction text using placeholders.induct with
  | case1 => rfl
  | case2 rest ih => rw [List.cons_append, List.cons_append, placeholders, placeholders, ih]
  | case3 letter rest single noConversion ih =>
      rw [List.cons_append] at ih
      rw [List.cons_append, List.cons_append, placeholders, placeholders]
      · simp only [noConversion, ih]
      · exact single
      · exact single
  | case4 letter rest single conversion isConversion ih =>
      rw [List.cons_append, List.cons_append, placeholders_conversion isConversion,
        placeholders_conversion isConversion, ih]
  | case5 character rest notDouble notLetter ih =>
      by_cases percent : character = '%'
      · subst percent
        cases rest with
        | nil => rfl
        | cons letter rest => exact (notLetter letter rest rfl rfl).elim
      · rw [List.cons_append, placeholders_of_ne percent, placeholders_of_ne percent, ih]

theorem printable_ofValue {binding : Value} (noObject : binding.isObject = false)
    (finite : ∀ value, binding = .float value → value.isFinite = true) :
    (Literal.ofValue binding).Printable := by
  cases binding with
  | null | bool | int | string => trivial
  | float value => exact finite value rfl
  | list items =>
      have shape : "List".toList = 'L' :: ['i', 's', 't'] := by decide
      exact ⟨_, _, shape, rfl, List.all_eq_true.1 rfl⟩
  | map entries =>
      have shape : "Map".toList = 'M' :: ['a', 'p'] := by decide
      exact ⟨_, _, shape, rfl, List.all_eq_true.1 rfl⟩
  | object => cases noObject

theorem finite_of_written {conversion : Conversion} {binding : Value} {text : String}
    (written : written? conversion binding = some text) :
    ∀ value, binding = .float value → value.isFinite = true := by
  rintro value rfl
  cases finite : value.isFinite with
  | true => rfl
  | false => simp [written?, finite] at written

theorem literal_of_written {conversion : Conversion} {binding : Value} {text : String}
    (notKeyPath : conversion ≠ .keyPath) (noObject : binding.isObject = false)
    (written : written? conversion binding = some text) :
    ∃ literal, conversion.literal? binding = some literal ∧ literal.Printable ∧
      text = literal.text := by
  have finite := finite_of_written written
  unfold written? at written
  obtain ⟨_, written⟩ := Option.ite_none_left_eq_some.1 written
  cases conversion with
  | string =>
      cases written
      exact ⟨_, rfl, trivial, rfl⟩
  | integer =>
      obtain ⟨value, read, rfl⟩ := Option.map_eq_some_iff.1 written
      refine ⟨.integer value, ?_, trivial, rfl⟩
      rw [Conversion.literal?, read]
      rfl
  | float =>
      obtain ⟨value, read, rfl⟩ := Option.map_eq_some_iff.1 written
      refine ⟨.float value, ?_, (Option.filter_eq_some_iff.1 read).2, rfl⟩
      rw [Conversion.literal?, read]
      rfl
  | literal =>
      cases written
      exact ⟨.ofValue binding, rfl, printable_ofValue noObject finite, rfl⟩
  | keyPath => cases notKeyPath rfl

theorem expandFrom_append {before : List Char} (noPercent : '%' ∉ before) (index : Nat)
    (bindings : List Value) (rest : List Char) :
    expandFrom index bindings (before ++ rest) =
      (before ++ ·) <$> expandFrom index bindings rest := by
  induction before with
  | nil =>
      change _ = id <$> expandFrom index bindings rest
      rw [id_map]
      rfl
  | cons character before ih =>
      have differs : character ≠ '%' := fun same => noPercent (same ▸ List.mem_cons_self)
      rw [List.cons_append, expandFrom_of_ne differs,
        ih fun member => noPercent (List.mem_cons_of_mem _ member)]
      cases expandFrom index bindings rest <;> rfl

theorem expandFrom_of_noPercent {text : List Char} (noPercent : '%' ∉ text) (index : Nat)
    (bindings : List Value) : expandFrom index bindings text = .ok text := by
  have appended := expandFrom_append noPercent index bindings []
  rw [List.append_nil, expandFrom] at appended
  rw [appended]
  exact congrArg Except.ok (List.append_nil text)

theorem WrittenFor.behind {bindings : List Value} {front rest following : List Char}
    (noPercent : '%' ∉ front) (written : WrittenFor bindings rest following) :
    WrittenFor bindings (front ++ rest) (front ++ following) := by
  obtain ⟨index, later, left, written⟩ := written
  refine ⟨index, later, left, ?_⟩
  rw [expandFrom_append noPercent, written]
  rfl

theorem WrittenFor.later {binding : Value} {bindings : List Value} {rest following : List Char}
    (written : WrittenFor bindings rest following) :
    WrittenFor (binding :: bindings) rest following := by
  obtain ⟨index, later, left, written⟩ := written
  exact ⟨index, later, left.trans (List.suffix_cons binding bindings), written⟩

theorem noPercent_of_stuck {text left : List Char} (noPercent : '%' ∉ text)
    (stuck : Token.scan text = .error left) : '%' ∉ left := by
  obtain ⟨⟨tokens, splits⟩, _⟩ := Token.scan_eq_error_iff.1 stuck
  exact fun member => noPercent (splits.suffix.subset member)

theorem expandFrom_placeholder {letter : Char} {conversion : Conversion}
    (isConversion : Conversion.ofLetter? letter = some conversion) {index : Nat}
    {bindings : List Value} {rest expanded : List Char}
    (written : expandFrom index bindings ('%' :: letter :: rest) = .ok expanded) :
    ∃ binding later text following, bindings = binding :: later ∧
      written? conversion binding = some text ∧
      expandFrom (index + 1) later rest = .ok following ∧
      expanded = text.toList ++ following := by
  have single : letter ≠ '%' := by
    rintro rfl
    cases isConversion
  rw [expandFrom] at written
  · simp only [isConversion] at written
    cases bindings with
    | nil => cases written
    | cons binding later =>
        simp only [write] at written
        cases wrote : written? conversion binding with
        | none =>
            rw [wrote] at written
            cases written
        | some text =>
            rw [wrote] at written
            cases followed : expandFrom (index + 1) later rest with
            | error error =>
                rw [followed] at written
                cases written
            | ok following =>
                rw [followed] at written
                cases written
                exact ⟨binding, later, text, following, rfl, wrote, followed, rfl⟩
  · exact fun same => single same

theorem expandFrom_close (index : Nat) (bindings : List Value) (text : List Char) :
    expandFrom index bindings (text ++ [')']) =
      (· ++ [')']) <$> expandFrom index bindings text := by
  have pushed : ∀ (character : Char) (outcome : Except ParseError (List Char)),
      (character :: ·) <$> (· ++ [')']) <$> outcome =
        (· ++ [')']) <$> (character :: ·) <$> outcome := by
    intro character outcome
    cases outcome <;> rfl
  induction index, bindings, text using expandFrom.induct with
  | case1 => rfl
  | case2 index bindings rest ih =>
      rw [List.cons_append, List.cons_append, expandFrom, expandFrom, ih, pushed]
  | case3 index bindings letter rest single noConversion ih =>
      rw [List.cons_append] at ih
      rw [List.cons_append, List.cons_append, expandFrom, expandFrom]
      · simp only [noConversion, ih, pushed]
      · exact single
      · exact single
  | case4 index letter rest single conversion isConversion =>
      rw [List.cons_append, List.cons_append, expandFrom, expandFrom]
      · simp only [isConversion]
        rfl
      · exact single
      · exact single
  | case5 index letter rest single conversion isConversion binding later ih =>
      rw [List.cons_append, List.cons_append, expandFrom, expandFrom]
      · simp only [isConversion, ih]
        cases write conversion binding with
        | error error => rfl
        | ok text =>
            cases expandFrom (index + 1) later rest with
            | error error => rfl
            | ok following => exact congrArg Except.ok (List.append_assoc ..).symm
      · exact single
      · exact single
  | case6 index bindings character rest notDouble notLetter ih =>
      by_cases percent : character = '%'
      · subst percent
        cases rest with
        | nil => rfl
        | cons letter rest => exact (notLetter letter rest rfl rfl).elim
      · rw [List.cons_append, expandFrom_of_ne percent, expandFrom_of_ne percent, ih, pushed]

theorem isWord_placeholder (conversion : Conversion) :
    Token.IsWord conversion.placeholder.toList := by
  cases conversion <;> exact ⟨List.all_eq_true.1 rfl, by decide, rfl, rfl, rfl⟩

theorem noPlaceholder_of_scan {text : List Char} {tokens : List Token} (noPercent : '%' ∉ text)
    (scanned : Token.scan text = .ok tokens) :
    ∀ token ∈ tokens, Conversion.ofToken? token = none := by
  intro token member
  have none := (Token.scanned_of_scan scanned).percents_le
  rw [List.count_eq_zero.2 noPercent] at none
  have absent : '%' ∉ token.content := by
    intro inside
    have among : '%' ∈ tokens.flatMap Token.content := List.mem_flatMap.2 ⟨token, member, inside⟩
    exact absurd (List.count_pos_iff.2 among) (by omega)
  unfold Conversion.ofToken?
  split
  · next word =>
      split
      · next shape =>
          have inside : '%' ∈ word.toList := shape ▸ List.mem_cons_self
          exact absurd inside absent
      · rfl
  · rfl

theorem scan_behind {stop : Char} (isStop : Text.isBlank stop = true ∨ stop = '(') :
    ∃ own : List Token, (∀ token ∈ own, token = .openGroup) ∧
      ∀ (first : Char) (later : List Char), first.isUpper = false →
        Token.scan (stop :: first :: later) = (own ++ ·) <$> Token.scan (first :: later) := by
  rcases isStop with blank | rfl
  · refine ⟨[], List.forall_mem_nil _, ?_⟩
    intro first later _
    have skipped : Token.scan (stop :: first :: later) = Token.scan (first :: later) :=
      Token.scan_congr (by simp [Text.dropBlanks, blank])
    rw [skipped]
    cases Token.scan (first :: later) <;> rfl
  · refine ⟨[.openGroup], fun token member => List.mem_singleton.1 member, ?_⟩
    intro first later lower
    have notTyped : Token.typed? ('(' :: first :: later) = none := by simp [Token.typed?, lower]
    have found : Token.next? ('(' :: first :: later) = some (.openGroup, first :: later) := by
      simp only [Token.next?, notTyped, Token.group?]
      rfl
    exact Token.scan_token (by decide) found

theorem scan_placeholder (conversion : Conversion) {rest : List Char} (stops : Token.Stops rest) :
    Token.scan (conversion.placeholder.toList ++ rest) =
      (.word conversion.placeholder :: ·) <$> Token.scan rest := by
  have found := Token.next?_word (isWord_placeholder conversion) stops.endsWord
  rw [String.ofList_toList] at found
  have shape : ∃ letter, conversion.placeholder.toList = ['%', letter] := by
    cases conversion <;> exact ⟨_, rfl⟩
  obtain ⟨letter, shape⟩ := shape
  rw [shape, List.cons_append] at found ⊢
  exact Token.scan_token (by decide) found

theorem scan_literal {literal : Literal} (printable : literal.Printable) {rest : List Char}
    (stops : Token.Stops rest) :
    Token.scan (literal.text.toList ++ rest) = (literal.token :: ·) <$> Token.scan rest := by
  have found := Literal.next?_text printable stops
  obtain ⟨first, later, shape, notBlank, _⟩ := Literal.head_text printable
  rw [shape, List.cons_append] at found ⊢
  exact Token.scan_token notBlank found

theorem Separate.suffix {before after : List Char} (separate : Separate (before ++ after))
    (unquoted : Token.Unquoted before) : Separate after := by
  intro front rest split
  obtain ⟨whole, behind, next⟩ := separate (before ++ front) rest (by rw [split, List.append_assoc])
  refine ⟨?_, ?_, next⟩
  · rw [Token.Unquoted, Token.Quoting.after_append, unquoted] at whole
    exact whole
  · intro last isLast
    apply behind
    rw [List.getLast?_append, Option.mem_def.1 isLast]
    rfl

theorem placeholder_of_ofLetter? {letter : Char} {conversion : Conversion}
    (isConversion : Conversion.ofLetter? letter = some conversion) :
    conversion.placeholder.toList = ['%', letter] := by
  unfold Conversion.ofLetter? at isConversion
  split at isConversion
  all_goals
    cases isConversion
    try rfl

theorem stops_of_next {rest : List Char}
    (next : ∀ first ∈ rest.head?, Text.isBlank first = true ∨ first = ')') : Token.Stops rest := by
  intro first isHead
  rcases next first isHead with blank | isClose
  · exact .inl blank
  · exact .inr (.inr isClose)

theorem head?_expandFrom {index : Nat} {bindings : List Value} {text expanded : List Char}
    (head : ∀ first ∈ text.head?, first ≠ '%')
    (written : expandFrom index bindings text = .ok expanded) : expanded.head? = text.head? := by
  cases text with
  | nil =>
      cases written
      rfl
  | cons first text =>
      rw [expandFrom_of_ne (head first rfl)] at written
      obtain ⟨later, _, rfl⟩ := map_eq_ok_iff.1 written
      rfl

/-- Text in front of a placeholder is split as it is in front of the literal. -/
theorem fillsOutcome_behind {bindings : List Value} {conversions : List Conversion}
    {literals : List Literal} {front : List Char} {stop : Char}
    (unquoted : Token.Unquoted (front ++ [stop])) (isStop : Text.isBlank stop = true ∨ stop = '(')
    (noPercent : '%' ∉ front) {first other : Char} {later others : List Char}
    (lower : first.isUpper = false) (otherLower : other.isUpper = false)
    (written : WrittenFor bindings (first :: later) (other :: others))
    (fills : FillsOutcome (WrittenFor bindings) conversions literals (Token.scan (first :: later))
      (Token.scan (other :: others))) :
    FillsOutcome (WrittenFor bindings) conversions literals
      (Token.scan (front ++ stop :: first :: later))
      (Token.scan (front ++ stop :: other :: others)) := by
  have notPercent : '%' ∉ [stop] := by
    rw [List.mem_singleton]
    rintro rfl
    revert isStop
    decide
  have notQuote : stop ≠ '\'' ∧ stop ≠ '"' := by
    constructor <;>
    · rintro rfl
      revert isStop
      decide
  have unquotedFront := Token.unquoted_of_concat notQuote unquoted
  have opens : ∀ rest, Token.Opens (stop :: rest) := by
    rintro rest _ ⟨⟩
    exact isStop
  obtain ⟨own, areOpen, behind⟩ := scan_behind isStop
  rw [Token.scan_unquoted unquotedFront (opens _), Token.scan_unquoted unquotedFront (opens _)]
  cases scanned : Token.scan front with
  | error left =>
      have noPercentLeft := noPercent_of_stuck noPercent scanned
      exact .error (.behind noPercentLeft (.behind notPercent written))
  | ok kept =>
      rw [Token.continued, Token.continued, behind first later lower,
        behind other others otherLower]
      apply FillsOutcome.keepAll (noPlaceholder_of_scan noPercent scanned)
      apply FillsOutcome.keepAll _ fills
      intro token member
      rw [areOpen token member]
      rfl

theorem fillsOutcome_placeholder {bindings : List Value} {front : List Char} {stop : Char}
    (unquoted : Token.Unquoted (front ++ [stop])) (isStop : Text.isBlank stop = true ∨ stop = '(')
    (noPercent : '%' ∉ front) (conversion : Conversion) {literal : Literal}
    (printable : literal.Printable) {rest following : List Char} (stops : Token.Stops rest)
    (stopsFollowing : Token.Stops following) {conversions : List Conversion}
    {literals : List Literal}
    (written : WrittenFor bindings (conversion.placeholder.toList ++ rest)
      (literal.text.toList ++ following))
    (fills : FillsOutcome (WrittenFor bindings) conversions literals (Token.scan rest)
      (Token.scan following)) :
    FillsOutcome (WrittenFor bindings) (conversion :: conversions) (literal :: literals)
      (Token.scan (front ++ stop :: (conversion.placeholder.toList ++ rest)))
      (Token.scan (front ++ stop :: (literal.text.toList ++ following))) := by
  have filled := fills.fill conversion literal
  rw [← scan_placeholder conversion stops, ← scan_literal printable stopsFollowing] at filled
  have shape : ∃ letter, conversion.placeholder.toList = ['%', letter] := by
    cases conversion <;> exact ⟨_, rfl⟩
  obtain ⟨letter, shape⟩ := shape
  obtain ⟨first, later, literalShape, _, lower⟩ := Literal.head_text printable
  rw [shape, literalShape] at filled written ⊢
  exact fillsOutcome_behind unquoted isStop noPercent rfl lower written filled

theorem fillsOutcome_of_separate {text : List Char} (separate : Separate text)
    (head : ∀ first ∈ text.head?, first ≠ '%') {index : Nat} {bindings : List Value}
    {expanded : List Char} (noObjects : ∀ binding ∈ bindings, binding.isObject = false)
    (written : expandFrom index bindings text = .ok expanded) :
    ∃ literals, Converts (placeholders text) bindings literals ∧
      (∀ literal ∈ literals, literal.Printable) ∧
      FillsOutcome (WrittenFor bindings) (placeholders text) literals (Token.scan text)
        (Token.scan expanded) := by
  induction length : text.length using Nat.strongRecOn generalizing text index bindings expanded with
  | ind count ih =>
      by_cases percent : '%' ∈ text
      · obtain ⟨before, after, rfl, noPercent⟩ := List.eq_append_cons_of_mem percent
        obtain ⟨unquoted, behind, letter, rest, conversion, rfl, isConversion, notKeyPath, next⟩ :=
          separate before after rfl
        rw [expandFrom_append noPercent] at written
        obtain ⟨expandedBehind, rewritten, rfl⟩ := map_eq_ok_iff.1 written
        obtain ⟨binding, later, text, following, rfl, wrote, followed, rfl⟩ :=
          expandFrom_placeholder isConversion rewritten
        obtain ⟨noObject, noOthers⟩ := List.forall_mem_cons.1 noObjects
        obtain ⟨literal, converted, printable, rfl⟩ := literal_of_written notKeyPath noObject wrote
        have notPercent : ∀ first ∈ rest.head?, first ≠ '%' := by
          rintro first isHead rfl
          rcases next '%' isHead with blank | same
          · cases blank
          · cases same
        have stops := stops_of_next next
        have stopsFollowing : Token.Stops following := by
          rw [Token.Stops, head?_expandFrom notPercent followed]
          exact stops
        have placeholder := placeholder_of_ofLetter? isConversion
        have writtenHere : WrittenFor (binding :: later) (conversion.placeholder.toList ++ rest)
            (literal.text.toList ++ following) := by
          rw [placeholder]
          exact ⟨index, _, List.suffix_refl _, rewritten⟩
        have separateRest : Separate rest := by
          have split : before ++ '%' :: letter :: rest =
              before ++ conversion.placeholder.toList ++ rest := by simp [placeholder]
          rw [split] at separate
          apply separate.suffix
          rw [Token.Unquoted, Token.Quoting.after_append, unquoted]
          cases conversion <;> rfl
        have shorter : rest.length < count := by
          rw [← length, List.length_append, List.length_cons, List.length_cons]
          omega
        obtain ⟨literals, converts, arePrintable, fills⟩ :=
          ih rest.length shorter separateRest notPercent noOthers followed rfl
        rw [placeholders_append noPercent, placeholders_conversion isConversion]
        refine ⟨literal :: literals, .cons converted converts,
          List.forall_mem_cons.2 ⟨printable, arePrintable⟩, ?_⟩
        rcases List.eq_nil_or_concat before with rfl | ⟨front, stop, rfl⟩
        · exact absurd rfl (head '%' rfl)
        · rw [List.concat_eq_append] at unquoted noPercent behind ⊢
          have isStop := behind stop List.getLast?_concat
          have noPercentFront : '%' ∉ front := fun member =>
            noPercent (List.mem_append_left _ member)
          have filled := fillsOutcome_placeholder unquoted isStop noPercentFront conversion
            printable stops stopsFollowing writtenHere (fills.mono fun _ _ => WrittenFor.later)
          rw [placeholder] at filled
          simpa using filled
      · have same : expanded = text := by
          rw [expandFrom_of_noPercent percent] at written
          exact (Except.ok.inj written).symm
        have none := placeholders_append percent []
        rw [List.append_nil, placeholders] at none
        rw [same, none]
        refine ⟨[], .nil bindings, List.forall_mem_nil _, ?_⟩
        cases scanned : Token.scan text with
        | error left =>
            exact .error ⟨index, bindings, List.suffix_refl _,
              expandFrom_of_noPercent (noPercent_of_stuck percent scanned) index bindings⟩
        | ok found =>
            have fills : FillsOutcome (WrittenFor bindings) [] [] (.ok []) (.ok []) := .ok rfl
            have kept := fills.keepAll (noPlaceholder_of_scan percent scanned)
            change FillsOutcome _ [] [] (.ok (found ++ [])) (.ok (found ++ [])) at kept
            rwa [List.append_nil] at kept

theorem Separate.enclosed {template : List Char} (separate : Separate template) :
    Separate ('(' :: template ++ [')']) := by
  intro before after split
  cases before with
  | nil => cases (List.cons.inj split).1
  | cons first before =>
      obtain ⟨rfl, inside⟩ := List.cons.inj split
      rcases List.eq_nil_or_concat after with rfl | ⟨after, last, rfl⟩
      · have ends := (List.append_inj' inside rfl).2
        cases ends
      · change template ++ [')'] = before ++ '%' :: after.concat last at inside
        rw [List.concat_eq_append, ← List.cons_append, ← List.append_assoc] at inside
        obtain ⟨rfl, ends⟩ := List.append_inj' inside rfl
        cases ends
        obtain ⟨unquoted, behind, letter, rest, conversion, rfl, isConversion, notKeyPath, next⟩ :=
          separate before after rfl
        refine ⟨unquoted, ?_, letter, rest ++ [')'], conversion, ?_, isConversion, notKeyPath, ?_⟩
        · intro last isLast
          cases before with
          | nil =>
              cases isLast
              exact .inr rfl
          | cons second before => exact behind last isLast
        · rw [List.concat_eq_append, List.cons_append]
        · cases rest with
          | nil =>
              rintro stop ⟨⟩
              exact .inr rfl
          | cons stop rest => exact next

/-- Whatever quotes, percent signs, parentheses or words the bindings contain: the placeholders of the
template are tokens of it, one for each, and the tokens of what is written are the same ones with one
literal in the place of each placeholder, made from the next binding. Where the template is stuck, what
is written is stuck as well, and in the same place. -/
theorem tokens_expand {template expanded : String} {bindings : List Value}
    (separate : Separate template.toList)
    (noObjects : ∀ binding ∈ bindings, binding.isObject = false)
    (written : expand template bindings = .ok expanded) :
    ∃ literals, Converts (placeholders template.toList) bindings literals ∧
      (∀ literal ∈ literals, literal.token.StandsFor literal) ∧
      FillsOutcome (StuckAlike bindings) (placeholders template.toList) literals
        (SharedCondition.tokens template) (SharedCondition.tokens expanded) := by
  obtain ⟨characters, writtenInside, rfl⟩ := map_eq_ok_iff.1 written
  have writtenAll : expandFrom 0 bindings ('(' :: template.toList ++ [')']) =
      .ok ('(' :: characters ++ [')']) := by
    rw [expandFrom_close, expandFrom_of_ne (by decide), writtenInside]
    rfl
  have head : ∀ first ∈ ('(' :: template.toList ++ [')']).head?, first ≠ '%' := by
    rintro _ ⟨⟩
    decide
  obtain ⟨literals, converts, arePrintable, fills⟩ :=
    fillsOutcome_of_separate separate.enclosed head noObjects writtenAll
  rw [placeholders_close, placeholders_of_ne (by decide)] at converts fills
  refine ⟨literals, converts, fun literal member =>
    Literal.standsFor_token (arePrintable literal member), ?_⟩
  simp only [SharedCondition.tokens, String.toList_ofList]
  generalize Token.scan ('(' :: template.toList ++ [')']) = first at fills ⊢
  generalize Token.scan ('(' :: characters ++ [')']) = second at fills ⊢
  cases fills with
  | ok inPlace => exact .ok inPlace
  | error alike =>
      refine .error ?_
      rwa [StuckAlike, String.toList_ofList, String.toList_ofList]

theorem tokens_expand_name :
    expand "name = %s" [.string "x') or (1 = 1"] = .ok "name = 'x\\') or (1 = 1'" ∧
    SharedCondition.tokens "name = %s" =
      .ok [.openGroup, .word "name", .compare .equal, .word "%s", .closeGroup] ∧
    SharedCondition.tokens "name = 'x\\') or (1 = 1'" =
      .ok [.openGroup, .word "name", .compare .equal, .constant (.string "x') or (1 = 1"),
        .closeGroup] := by
  have written : expand "name = %s" [.string "x') or (1 = 1"] = .ok "name = 'x\\') or (1 = 1'" :=
    rfl
  have separate : Separate "name = %s".toList := by
    intro before after split
    have shape : "name = %s".toList = ['n', 'a', 'm', 'e', ' ', '=', ' '] ++ '%' :: ['s'] := by
      decide
    rw [shape, List.append_cons_inj_of_notMem (by decide) (by decide)] at split
    obtain ⟨rfl, _, rfl⟩ := split
    refine ⟨rfl, ?_, 's', [], .string, rfl, rfl, by decide, nofun⟩
    rintro last ⟨⟩
    exact .inl rfl
  have splits : Token.Splits ('(' :: "name = %s".toList ++ [')'])
      [.openGroup, .word "name", .compare .equal, .word "%s", .closeGroup] [] :=
    .cons rfl (List.cons_ne_nil '(' []) rfl
      (.cons rfl (List.cons_ne_nil 'n' ['a', 'm', 'e']) rfl
        (.cons rfl (List.cons_ne_nil '=' []) rfl
          (.cons rfl (List.cons_ne_nil '%' ['s']) rfl
            (.cons rfl (List.cons_ne_nil ')' []) rfl (.nil [])))))
  have found : SharedCondition.tokens "name = %s" =
      .ok [.openGroup, .word "name", .compare .equal, .word "%s", .closeGroup] := by
    rw [SharedCondition.tokens, Token.scan_eq_ok_iff.2 splits]
  have filled := tokens_expand separate (by simp [Value.isObject]) written
  rw [found] at filled
  obtain ⟨_, _ | ⟨converted, rest⟩, _, fills⟩ := filled
  cases converted
  cases rest
  generalize SharedCondition.tokens "name = 'x\\') or (1 = 1'" = second at fills ⊢
  cases fills
  exact ⟨written, found, rfl⟩

end Template

end FactRules
