import FactRules.Proofs.Followed

/-!
A text in parentheses. The closing parenthesis is always a token of its own behind the tokens of the
text. The opening one is a token of its own before them, unless it makes the beginning of the text
the name of a type: then the text by itself closes a group that it has not opened.
-/

namespace FactRules.Token

abbrev closed : Token × List Char → Token × List Char :=
  followedBy [')']

section

variable {input : List Char}

theorem stops_close : Stops [')'] := by
  rintro character ⟨⟩
  exact .inr (.inr rfl)

theorem ne_backslash {character : Char} {rest : List Char}
    (notLast : character = '\\' → rest = [] → False)
    (notEscape : ∀ escaped later, character = '\\' → rest = escaped :: later → False) :
    character ≠ '\\' := by
  intro isBackslash
  cases rest with
  | nil => exact notLast isBackslash rfl
  | cons escaped later => exact notEscape escaped later isBackslash rfl

theorem quotedBody?_of_ne {character : Char} (differs : character ≠ '\\') (quote : Char)
    (rest : List Char) :
    quotedBody? quote (character :: rest) =
      if character = quote then some ([], rest)
      else (quotedBody? quote rest).map fun (body, rest) => (character :: body, rest) := by
  rw [quotedBody?]
  · exact fun same => absurd same differs
  · exact fun escaped later same => absurd same differs

theorem quotedBody?_closed {quote : Char} (notClose : quote ≠ ')') (input : List Char) :
    quotedBody? quote (input ++ [')']) =
      (quotedBody? quote input).map fun found => (found.1, found.2 ++ [')']) := by
  fun_induction quotedBody? quote input with
  | case1 => simp [quotedBody?, notClose.symm]
  | case2 => rfl
  | case3 escaped rest ih =>
      rw [List.cons_append, List.cons_append, quotedBody?, ih]
      cases quotedBody? quote rest <;> rfl
  | case4 rest notLast notEscape =>
      rw [List.cons_append, quotedBody?_of_ne (ne_backslash notLast notEscape), if_pos rfl]
      rfl
  | case5 character rest notLast notEscape differs ih =>
      rw [List.cons_append, quotedBody?_of_ne (ne_backslash notLast notEscape), if_neg differs, ih]
      cases quotedBody? quote rest <;> rfl

theorem quoted?_closed (input : List Char) :
    quoted? (input ++ [')']) = (quoted? input).map fun found => (found.1, found.2 ++ [')']) := by
  cases input with
  | nil => rfl
  | cons quote input =>
      simp only [List.cons_append, quoted?]
      split
      · next isQuote =>
          have notClose : quote ≠ ')' := by
            rintro rfl
            exact absurd isQuote (by decide)
          rw [quotedBody?_closed notClose]
          cases quotedBody? quote input <;> rfl
      · rfl

theorem typed?_closed (first : Char) (input : List Char) :
    typed? (first :: input ++ [')']) = (typed? (first :: input)).map closed := by
  apply typed?_followed stops_close
  · intro name later _ _
    exact quoted?_closed later
  · rintro later ⟨⟩
    rfl

theorem string?_closed (input : List Char) :
    string? (input ++ [')']) = (string? input).map closed := by
  simp only [string?, quoted?_closed]
  cases quoted? input <;> rfl

/-- The end of a group takes nothing away from the token in front of it. -/
theorem next?_closed (first : Char) (input : List Char) :
    next? (first :: input ++ [')']) = (next? (first :: input)).map closed :=
  next?_followed stops_close (typed?_closed first input) (string?_closed (first :: input))

def closedOutcome : Except (List Char) (List Token) → Except (List Char) (List Token)
  | .ok tokens => .ok (tokens ++ [.closeGroup])
  | .error rest => .error (rest ++ [')'])

theorem scan_closed (text : List Char) : scan (text ++ [')']) = closedOutcome (scan text) := by
  have ended : scan [')'] = .ok [.closeGroup] :=
    (Scanned.step rfl rfl (.nil rfl)).scan_eq
  have followed : scan (text ++ [')']) = continued [')'] (scan text) :=
    scan_followed (fun first input (_ : True) => next?_closed first input)
      (fun _ _ => trivial) (fun _ _ _ _ _ => trivial) trivial
  rw [followed]
  cases scan text with
  | error stuck => rfl
  | ok tokens =>
      rw [continued, ended]
      rfl

theorem findSome?_afterWord?_whole {α : Type} {alike : Char → Char → Bool}
    {spellings : List (String × α)} {make : α → Token} {token : Token} {rest : List Char}
    (ofWords : ∀ character ∈ input, Text.isWordCharacter character = true)
    (found : (spellings.findSome? fun entry =>
      (afterWord? alike entry.1 input).map fun rest => (make entry.2, rest)) =
        some (token, rest)) : rest = [] := by
  obtain ⟨entry, _, followed⟩ := List.exists_of_findSome?_eq_some found
  obtain ⟨remaining, after, same⟩ := Option.map_eq_some_iff.1 followed
  cases same
  obtain ⟨taken, ends⟩ := Option.filter_eq_some_iff.1 after
  cases rest with
  | nil => rfl
  | cons next later =>
      have member : next ∈ input := (after?_suffix taken).subset List.mem_cons_self
      simp [atBoundary, ofWords next member] at ends

theorem isWordCharacter_of_alphanumeric {character : Char}
    (alphanumeric : character.isAlphanum = true) : Text.isWordCharacter character = true := by
  refine Text.isWordCharacter_of_isAlphanum character ?_ alphanumeric
  have code : character.val.toNat = character.toNat := rfl
  have ends : 'Z'.val.toNat = 90 ∧ 'z'.val.toNat = 122 ∧ '9'.val.toNat = 57 := by decide
  have ranges : character.isAlphanum =
      (decide (character.val ≥ 'A'.val ∧ character.val ≤ 'Z'.val) ||
        (decide (character.val ≥ 'a'.val) && decide (character.val ≤ 'z'.val)) ||
        (decide (character.val ≥ '0'.val) && decide (character.val ≤ '9'.val))) := rfl
  rw [ranges] at alphanumeric
  simp only [Bool.or_eq_true, Bool.and_eq_true, decide_eq_true_eq, UInt32.le_iff_toNat_le, code]
    at alphanumeric
  omega

theorem ofWords_name {name : String} (isTypeName : Literal.IsTypeName name) :
    ∀ character ∈ name.toList, Text.isWordCharacter character = true := by
  obtain ⟨initial, later, shape, upper, alphanumeric⟩ := isTypeName
  intro character member
  rw [shape] at member
  rcases List.mem_cons.1 member with rfl | member
  · exact isWordCharacter_of_alphanumeric (isAlphanum_of_isUpper upper)
  · exact isWordCharacter_of_alphanumeric (alphanumeric character member)

theorem bare_of_ofWords (ofWords : ∀ character ∈ input, Text.isWordCharacter character = true) :
    ∀ character ∈ input, isBare character = true := by
  intro character member
  cases bare : isBare character with
  | true => rfl
  | false =>
      have notOfWords := isWordCharacter_of_not_isBare bare
      rw [ofWords character member] at notOfWords
      cases notOfWords

theorem number?_name {name : String} (isTypeName : Literal.IsTypeName name) :
    number? name.toList = none := by
  obtain ⟨initial, later, shape, upper, _⟩ := isTypeName
  have notSign : initial ≠ '-' := by
    rintro rfl
    exact absurd upper (by decide)
  have notDigit : initial.isDigit = false := by
    have none : ['0', '1', '2', '3', '4', '5', '6', '7', '8', '9'].any Char.isUpper = false := by
      decide
    cases digit : initial.isDigit with
    | false => rfl
    | true => exact absurd upper (List.any_eq_false.1 none initial (Text.mem_digits digit))
  rw [number?_eq_none_iff, shape, afterSign]
  · rintro first ⟨⟩
    exact notDigit
  · exact fun _ same => notSign (List.cons.inj same).1

theorem operator?_whole (ofWords : ∀ character ∈ input, Text.isWordCharacter character = true)
    (nonempty : input ≠ []) {token : Token} {rest : List Char}
    (found : operator? input = some (token, rest)) : rest = [] := by
  have noSymbol := symbols_of_bare (bare_of_ofWords ofWords) nonempty []
  rw [List.append_nil] at noSymbol
  simp only [operator?, noSymbol] at found
  exact findSome?_afterWord?_whole ofWords found

theorem next?_name {name : String} (isTypeName : Literal.IsTypeName name) (rest : List Char) :
    ∃ first, next? (name.toList ++ ')' :: rest) = some (first, ')' :: rest) ∧
      first ≠ .openGroup ∧ first ≠ .closeGroup := by
  have ofWords := ofWords_name isTypeName
  have bare := bare_of_ofWords ofWords
  have noNumber := number?_name isTypeName
  obtain ⟨initial, later, shape, _⟩ := isTypeName
  have nonempty : name.toList ≠ [] := by simp [shape]
  have ends : EndsWord (')' :: rest) := by
    rintro character ⟨⟩
    rfl
  have notMark : ∀ mark ∈ marks, initial ≠ mark :=
    fun mark isMark => bare_ne (bare initial (shape ▸ List.mem_cons_self)) isMark
  have notTyped : typed? (name.toList ++ ')' :: rest) = none := by
    rw [shape]
    exact typed?_of_ne (notMark _ (by decide)) _
  have notGroup : group? (name.toList ++ ')' :: rest) = none := by
    rw [shape]
    exact group?_of_ne (notMark _ (by decide)) (notMark _ (by decide)) _
  have readOperator := operator?_append bare nonempty ends
  cases operator : operator? name.toList with
  | some found =>
      obtain ⟨token, remaining⟩ := found
      have whole := operator?_whole ofWords nonempty operator
      obtain ⟨symbol, rfl⟩ := operator?_token operator
      rw [operator, whole] at readOperator
      refine ⟨.compare symbol, ?_, by simp, by simp⟩
      simp only [next?, notTyped, notGroup, readOperator]
      rfl
  | none =>
      rw [operator] at readOperator
      have readNumber := (number?_append_eq_none nonempty ends).2 noNumber
      have readKeyword : keyword? (name.toList ++ ')' :: rest) = _ := keyword?_append ends
      cases keyword : keyword? name.toList with
      | some found =>
          obtain ⟨token, remaining⟩ := found
          have whole := findSome?_afterWord?_whole ofWords keyword
          obtain ⟨entry, _, rfl⟩ := keyword?_token keyword
          rw [keyword, whole] at readKeyword
          refine ⟨.constant entry.2, ?_, by simp, by simp⟩
          simp only [next?, notTyped, notGroup, readOperator, readNumber, readKeyword]
          rfl
      | none =>
          have isWord : IsWord name.toList := ⟨bare, nonempty, operator, noNumber, keyword⟩
          exact ⟨_, next?_word isWord ends, by simp, by simp⟩

theorem scan_token {first : Char} {later rest : List Char} {token : Token}
    (notBlank : Text.isBlank first = false) (found : next? (first :: later) = some (token, rest)) :
    scan (first :: later) = (token :: ·) <$> scan rest :=
  scan_step (by simp [Text.dropBlanks, notBlank]) found

theorem typed?_split {text rest : List Char} {name content : String}
    (typed : typed? ('(' :: text) = some (.constant (.typed name content), rest)) :
    ∃ remaining, text = name.toList ++ ')' :: remaining ∧
      quoted? remaining = some (content, rest) := by
  cases text with
  | nil => cases typed
  | cons initial later =>
      simp only [typed?] at typed
      split at typed
      · next remaining _ dropped =>
          obtain ⟨⟨found, after⟩, quoted, same⟩ := Option.map_eq_some_iff.1 typed
          cases same
          refine ⟨remaining, ?_, quoted⟩
          rw [String.toList_ofList, List.cons_append, ← dropped, List.takeWhile_append_dropWhile]
      · cases typed

theorem scan_name {name : String} (isTypeName : Literal.IsTypeName name) (rest : List Char) :
    ∃ first, first ≠ .openGroup ∧ first ≠ .closeGroup ∧
      scan (name.toList ++ ')' :: rest) = (first :: ·) <$> scan (')' :: rest) := by
  obtain ⟨first, found, notOpen, notClose⟩ := next?_name isTypeName rest
  have bare := bare_of_ofWords (ofWords_name isTypeName)
  obtain ⟨initial, later, shape, _⟩ := isTypeName
  have isBareInitial := bare initial (shape ▸ List.mem_cons_self)
  simp only [isBare, Bool.and_eq_true, Bool.not_eq_eq_eq_not, Bool.not_true] at isBareInitial
  rw [shape, List.cons_append] at found ⊢
  exact ⟨first, notOpen, notClose, scan_token isBareInitial.1 found⟩

theorem scan_quoted {content : String} {rest : List Char}
    (quoted : quoted? input = some (content, rest)) :
    scan input = (.constant (.string content) :: ·) <$> scan rest := by
  have found := next?_quoted quoted
  obtain ⟨quote, body, rfl, isQuote⟩ := quoted?_head quoted
  rcases isQuote with rfl | rfl <;> exact scan_token rfl found

/-- How the tokens of a text show among the tokens of the text in parentheses. -/
inductive Encloses (own : List Token) : List Token → Prop where
  | group : Encloses own (.openGroup :: (own ++ [.closeGroup]))
  | typed {first : Token} {name content : String} {later : List Token}
      (notOpen : first ≠ .openGroup) (notClose : first ≠ .closeGroup)
      (shape : own = first :: .closeGroup :: .constant (.string content) :: later) :
      Encloses own (.constant (.typed name content) :: (later ++ [.closeGroup]))

/-- A text is split into tokens exactly if the text in parentheses is. -/
theorem scan_enclosed (text : List Char) :
    (∃ own found, scan text = .ok own ∧ scan ('(' :: text ++ [')']) = .ok found ∧
      Encloses own found) ∨
    ∃ stuck stuckEnclosed, scan text = .error stuck ∧
      scan ('(' :: text ++ [')']) = .error stuckEnclosed := by
  rw [scan_closed]
  cases typed : typed? ('(' :: text) with
  | none =>
      have opened : scan ('(' :: text) = (.openGroup :: ·) <$> scan text :=
        scan_token rfl (by simp [next?, typed, group?])
      rw [opened]
      cases scan text with
      | ok own => exact Or.inl ⟨own, _, rfl, rfl, .group⟩
      | error stuck => exact Or.inr ⟨stuck, _, rfl, rfl⟩
  | some found =>
      obtain ⟨token, rest⟩ := found
      obtain ⟨name, content, rfl, isTypeName⟩ := typed?_token typed
      have enclosed : scan ('(' :: text) = (.constant (.typed name content) :: ·) <$> scan rest :=
        scan_token rfl (by simp [next?, typed])
      obtain ⟨remaining, rfl, quoted⟩ := typed?_split typed
      obtain ⟨first, notOpen, notClose, named⟩ := scan_name isTypeName remaining
      have ended : scan (')' :: remaining) = (.closeGroup :: ·) <$> scan remaining :=
        scan_token rfl rfl
      rw [enclosed, named, ended, scan_quoted quoted]
      cases scan rest with
      | ok later => exact Or.inl ⟨_, _, rfl, rfl, .typed notOpen notClose rfl⟩
      | error stuck => exact Or.inr ⟨stuck, _, rfl, rfl⟩

end

end FactRules.Token
