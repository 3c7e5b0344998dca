import FactRules.Proofs.Tokens

/-!
Tokens in front of a blank or a parenthesis. Whatever the readers find at the front of a text, they
find when more text follows there, and the rest that they leave is followed by it; only a quoted
text might run on.
-/

namespace FactRules.Token

theorem isAlphanum_of_isUpper {character : Char} (upper : character.isUpper = true) :
    character.isAlphanum = true := by
  have either : character.isAlphanum =
      (character.isUpper || character.isLower || character.isDigit) := rfl
  rw [either, upper]
  rfl

def Stops (rest : List Char) : Prop :=
  ∀ character ∈ rest.head?, Text.isBlank character = true ∨ character = '(' ∨ character = ')'

section

variable {input rest : List Char}

theorem EndsWord.rejects (ends : EndsWord rest) {accepted : Char → Bool}
    (none : enders.any accepted = false) : ∀ character ∈ rest.head?, accepted character = false := by
  intro character isHead
  have ender := mem_enders (ends character isHead)
  exact Bool.eq_false_iff.2 (List.any_eq_false.1 none character ender)

theorem Stops.endsWord (stops : Stops rest) : EndsWord rest := by
  intro character isHead
  rcases stops character isHead with blank | rfl | rfl
  · simp [isBare, blank]
  · rfl
  · rfl

theorem Stops.unlike (stops : Stops rest) {expected : Char} (notBlank : Text.isBlank expected = false)
    (notOpen : expected ≠ '(') (notClose : expected ≠ ')') :
    ∀ character ∈ rest.head?, exactly expected character = false := by
  intro character isHead
  simp only [exactly, decide_eq_false_iff_not]
  rintro rfl
  rcases stops expected isHead with blank | same | same
  · rw [notBlank] at blank
    cases blank
  · exact notOpen same
  · exact notClose same

theorem takeWhile_followed {accepted : Char → Bool}
    (rejects : ∀ character ∈ rest.head?, accepted character = false) (input : List Char) :
    (input ++ rest).takeWhile accepted = input.takeWhile accepted ∧
      (input ++ rest).dropWhile accepted = input.dropWhile accepted ++ rest := by
  induction input with
  | nil =>
      cases rest with
      | nil => exact ⟨rfl, rfl⟩
      | cons stop rest => simp [rejects stop rfl]
  | cons character input ih =>
      by_cases taken : accepted character = true
      · simpa [taken] using ih
      · simp [taken]

theorem group?_followed {first : Char} (input rest : List Char) :
    group? (first :: input ++ rest) = (group? (first :: input)).map (followedBy rest) := by
  by_cases isOpen : first = '('
  · subst isOpen
    rfl
  · by_cases isClose : first = ')'
    · subst isClose
      rfl
    · rw [List.cons_append, group?_of_ne isOpen isClose, group?_of_ne isOpen isClose]
      rfl

theorem symbols_followed (stops : Stops rest) (input : List Char) :
    (symbols.findSome? fun (spelling, operator) =>
        (after? exactly spelling.toList (input ++ rest)).map fun rest =>
          (Token.compare operator, rest)) =
      (symbols.findSome? fun (spelling, operator) =>
        (after? exactly spelling.toList input).map fun rest => (Token.compare operator, rest)).map
          (followedBy rest) := by
  have unlike : (symbols.all fun entry => entry.1.toList.all fun letter =>
      !Text.isBlank letter && letter != '(' && letter != ')') = true := by decide
  refine findSome?_append Token.compare (fun spelling => after? exactly spelling.toList) ?_
  intro entry member
  refine after?_append ?_
  intro mark isHead letter isLetter
  obtain ⟨notBlank, notOpen, notClose⟩ :
      Text.isBlank letter = false ∧ letter ≠ '(' ∧ letter ≠ ')' := by
    simpa [and_assoc] using
      List.all_eq_true.1 (List.all_eq_true.1 unlike entry member) letter isLetter
  exact stops.unlike notBlank notOpen notClose mark isHead

theorem operator?_followed (stops : Stops rest) (input : List Char) :
    operator? (input ++ rest) = (operator? input).map (followedBy rest) := by
  simp only [operator?, symbols_followed stops, operatorWords_append stops.endsWord,
    Option.orElse_eq_orElse, Option.orElse_eq_or, Option.map_or]

theorem not_isDigit_head (ends : EndsWord rest) :
    ∀ character ∈ rest.head?, character.isDigit = false :=
  ends.rejects (by decide +kernel)

theorem fraction_nil_of_endsWord (ends : EndsWord rest) : fraction rest = ([], rest) := by
  unfold fraction
  split
  · next later =>
      have bare := ends '.' rfl
      cases bare
  · rfl

theorem fraction_followed (ends : EndsWord rest) (input : List Char) :
    fraction (input ++ rest) = ((fraction input).1, (fraction input).2 ++ rest) := by
  cases input with
  | nil => exact fraction_nil_of_endsWord ends
  | cons first input =>
      obtain ⟨taken, dropped⟩ := takeWhile_followed (not_isDigit_head ends) input
      by_cases isPoint : first = '.'
      · subst isPoint
        simp only [List.cons_append, fraction, taken, dropped]
        split <;> rfl
      · simp [fraction, isPoint]

theorem unsigned?_followed (ends : EndsWord rest) (input : List Char) :
    unsigned? (input ++ rest) =
      (unsigned? input).map fun found => (found.1, found.2 ++ rest) := by
  obtain ⟨taken, dropped⟩ := takeWhile_followed (not_isDigit_head ends) input
  simp only [unsigned?, taken, dropped, fraction_followed ends]
  split <;> rfl

theorem number?_followed (ends : EndsWord rest) {first : Char} (input : List Char) :
    number? (first :: input ++ rest) = (number? (first :: input)).map (followedBy rest) := by
  by_cases isSign : first = '-'
  · subst isSign
    simp only [List.cons_append, number?, unsigned?_followed ends]
    cases unsigned? input <;> rfl
  · have noSign : ∀ later, number? (first :: later) = (unsigned? (first :: later)).map
        fun found => (.number (String.ofList found.1), found.2) := by
      intro later
      unfold number?
      split
      · next same => exact absurd (List.cons.inj same).1 isSign
      · rfl
    rw [List.cons_append, noSign, noSign, ← List.cons_append, unsigned?_followed ends]
    cases unsigned? (first :: input) <;> rfl

theorem word?_followed (ends : EndsWord rest) (input : List Char) :
    word? (input ++ rest) = (word? input).map (followedBy rest) := by
  obtain ⟨taken, dropped⟩ := takeWhile_followed ends input
  simp only [word?, taken, dropped]
  split <;> rfl

/-- A quoted text directly behind the name of a type is all that can make a difference there. -/
theorem typed?_followed (stops : Stops rest) {first : Char} {input : List Char}
    (quoted : ∀ name later, first :: input = '(' :: (name ++ ')' :: later) →
      (∀ character ∈ name, character.isAlphanum = true) →
        quoted? (later ++ rest) = (quoted? later).map fun found => (found.1, found.2 ++ rest))
    (behind : ∀ later, rest = ')' :: later → quoted? later = none) :
    typed? (first :: input ++ rest) = (typed? (first :: input)).map (followedBy rest) := by
  by_cases isOpen : first = '('
  · subst isOpen
    cases input with
    | nil =>
        cases rest with
        | nil => rfl
        | cons stop rest =>
            have lower := stops.endsWord.rejects (by decide +kernel : enders.any Char.isUpper = false)
            simp [typed?, lower stop rfl]
    | cons initial input =>
        have notAlphanumeric : ∀ character ∈ rest.head?, character.isAlphanum = false :=
          stops.endsWord.rejects (by decide +kernel)
        obtain ⟨taken, dropped⟩ := takeWhile_followed notAlphanumeric input
        simp only [List.cons_append, typed?, taken, dropped]
        cases upper : initial.isUpper with
        | false => rfl
        | true =>
            cases remaining : input.dropWhile Char.isAlphanum with
            | nil =>
                rw [List.nil_append]
                split
                · next later _ => simp [behind later rfl]
                · rfl
            | cons stop later =>
                by_cases isClose : stop = ')'
                · subst isClose
                  have split : input = input.takeWhile Char.isAlphanum ++ ')' :: later := by
                    rw [← remaining, List.takeWhile_append_dropWhile]
                  have alphanumeric : ∀ character ∈ initial :: input.takeWhile Char.isAlphanum,
                      character.isAlphanum = true := by
                    intro character member
                    rcases List.mem_cons.1 member with rfl | taken
                    · exact isAlphanum_of_isUpper upper
                    · exact List.all_eq_true.1 List.all_takeWhile character taken
                  have same := quoted (initial :: input.takeWhile Char.isAlphanum) later
                    (by rw [List.cons_append, ← split]) alphanumeric
                  simp only [List.cons_append, same]
                  cases quoted? later <;> rfl
                · simp [isClose]
  · rw [List.cons_append, typed?_of_ne isOpen, typed?_of_ne isOpen]
    rfl

theorem next?_followed (stops : Stops rest) {first : Char} {input : List Char}
    (typed : typed? (first :: input ++ rest) = (typed? (first :: input)).map (followedBy rest))
    (string : string? (first :: input ++ rest) = (string? (first :: input)).map (followedBy rest)) :
    next? (first :: input ++ rest) = (next? (first :: input)).map (followedBy rest) := by
  simp only [next?, typed, group?_followed, operator?_followed stops,
    number?_followed stops.endsWord, keyword?_append stops.endsWord, string,
    word?_followed stops.endsWord, Option.orElse_eq_orElse, Option.orElse_eq_or, Option.map_or]

theorem next?_alone {first : Char} {token : Token} (found : next? (first :: input) = some (token, []))
    (notOpen : first ≠ '(') (notSingle : first ≠ '\'') (notDouble : first ≠ '"')
    (stops : Stops rest) : next? (first :: input ++ rest) = some (token, rest) := by
  have typed : typed? (first :: input ++ rest) =
      (typed? (first :: input)).map (followedBy rest) := by
    rw [List.cons_append, typed?_of_ne notOpen, typed?_of_ne notOpen]
    rfl
  have string : string? (first :: input ++ rest) =
      (string? (first :: input)).map (followedBy rest) := by
    rw [List.cons_append, string?_of_ne notSingle notDouble, string?_of_ne notSingle notDouble]
    rfl
  rw [next?_followed stops typed string, found]
  rfl

theorem quoted?_head {found : String × List Char} (quoted : quoted? input = some found) :
    ∃ quote body, input = quote :: body ∧ (quote = '\'' ∨ quote = '"') := by
  cases input with
  | nil => cases quoted
  | cons quote body =>
      simp only [quoted?] at quoted
      split at quoted
      · next isQuote => exact ⟨quote, body, rfl, by simpa using isQuote⟩
      · cases quoted

theorem next?_quoted {content : String}
    (quoted : quoted? input = some (content, rest)) :
    next? input = some (.constant (.string content), rest) := by
  obtain ⟨quote, body, rfl, isQuote⟩ := quoted?_head quoted
  have isString : string? (quote :: body) = some (.constant (.string content), rest) := by
    simp [string?, quoted]
  rcases isQuote with rfl | rfl
  · simp only [next?, isString]
    rfl
  · simp only [next?, isString]
    rfl

def continued (rest : List Char) :
    Except (List Char) (List Token) → Except (List Char) (List Token)
  | .ok tokens => (tokens ++ ·) <$> scan rest
  | .error stuck => .error (stuck ++ rest)

theorem continued_cons (token : Token) (outcome : Except (List Char) (List Token)) :
    continued rest ((token :: ·) <$> outcome) = (token :: ·) <$> continued rest outcome := by
  cases outcome with
  | error stuck => rfl
  | ok tokens =>
      change (token :: tokens ++ ·) <$> scan rest = (token :: ·) <$> (tokens ++ ·) <$> scan rest
      cases scan rest <;> rfl

/-- A text is split as it is without the rest if each of its tokens is read so. -/
theorem scan_followed {kept : List Char → Prop}
    (reads : ∀ first input, kept (first :: input) →
      next? (first :: input ++ rest) = (next? (first :: input)).map (followedBy rest))
    (skips : ∀ text, kept text → kept (Text.dropBlanks text))
    (leaves : ∀ text token later, kept text → next? text = some (token, later) → kept later)
    {text : List Char} (isKept : kept text) :
    scan (text ++ rest) = continued rest (scan text) := by
  induction length : text.length using Nat.strongRecOn generalizing text with
  | ind count ih =>
      have trimmed : Text.dropBlanks (text ++ rest) =
          if (Text.dropBlanks text).isEmpty then Text.dropBlanks rest
          else Text.dropBlanks text ++ rest := List.dropWhile_append
      have keptTrimmed := skips text isKept
      cases start : Text.dropBlanks text with
      | nil =>
          rw [start, List.isEmpty_nil, if_pos rfl] at trimmed
          rw [scan_nil start, scan_congr trimmed]
          change scan rest = ([] ++ ·) <$> scan rest
          cases scan rest <;> rfl
      | cons first later =>
          have shorter := Text.length_dropBlanks_le text
          rw [start] at trimmed shorter keptTrimmed
          have split : Text.dropBlanks (text ++ rest) = first :: (later ++ rest) := trimmed
          have read := reads first later keptTrimmed
          rw [List.cons_append] at read
          cases found : next? (first :: later) with
          | none =>
              rw [found] at read
              rw [scan_stuck start found, scan_stuck split read]
              rfl
          | some step =>
              obtain ⟨token, remaining⟩ := step
              have fewer := length_next? found
              have keptRemaining := leaves _ token remaining keptTrimmed found
              rw [found] at read
              rw [scan_step start found, scan_step split read, continued_cons,
                ih remaining.length (by omega) keptRemaining rfl]

end

end FactRules.Token
