import FactRules.Proofs.Numerals

/-!
Text that is read as the same tokens wherever it stands. A word that is a word by itself is one in
front of anything that ends words, and the other way round.
-/

namespace FactRules

namespace Text

def blankCodes : List Nat :=
  [9, 10, 11, 12, 13, 0x20, 0x85, 0xA0, 0x1680, 0x2000, 0x2001, 0x2002, 0x2003, 0x2004, 0x2005,
    0x2006, 0x2007, 0x2008, 0x2009, 0x200A, 0x2028, 0x2029, 0x202F, 0x205F, 0x3000]

theorem toNat_mem_blankCodes {character : Char} (blank : isBlank character = true) :
    character.toNat ∈ blankCodes := by
  simp only [isBlank, Bool.or_eq_true, Bool.and_eq_true, decide_eq_true_eq] at blank
  simp only [blankCodes, List.mem_cons, List.not_mem_nil, or_false]
  omega

end Text

def Literal.IsTypeName (name : String) : Prop :=
  ∃ initial later, name.toList = initial :: later ∧ initial.isUpper = true ∧
    ∀ character ∈ later, character.isAlphanum = true

namespace Token

def EndsWord (rest : List Char) : Prop :=
  ∀ character ∈ rest.head?, isBare character = false

def enders : List Char :=
  Text.blankCodes.map Char.ofNat ++ marks

theorem mem_enders {character : Char} (notBare : isBare character = false) :
    character ∈ enders := by
  simp only [isBare, Bool.and_eq_false_iff, Bool.not_eq_eq_eq_not, Bool.not_false] at notBare
  rcases notBare with blank | mark
  · refine List.mem_append_left _ (List.mem_map.2 ⟨character.toNat, ?_, Char.ofNat_toNat character⟩)
    exact Text.toNat_mem_blankCodes blank
  · exact List.mem_append_right _ (List.contains_iff_mem.1 mark)

theorem isWordCharacter_of_not_isBare {character : Char} (notBare : isBare character = false) :
    Text.isWordCharacter character = false := by
  have none : enders.any Text.isWordCharacter = false := by decide +kernel
  exact Bool.eq_false_iff.2 (List.any_eq_false.1 none character (mem_enders notBare))

theorem atBoundary_of_endsWord {rest : List Char} (ends : EndsWord rest) :
    atBoundary rest = true := by
  cases rest with
  | nil => rfl
  | cons character rest =>
      simp [atBoundary, isWordCharacter_of_not_isBare (ends character rfl)]

/-- A word by itself: no other kind of token is read from its front. -/
structure IsWord (word : List Char) : Prop where
  bare : ∀ character ∈ word, isBare character = true
  nonempty : word ≠ []
  notOperator : operator? word = none
  notNumber : number? word = none
  notKeyword : keyword? word = none

section

variable {word rest : List Char}

theorem after?_append {alike : Char → Char → Bool} {expected : List Char}
    (unlike : ∀ mark ∈ rest.head?, ∀ letter ∈ expected, alike letter mark = false) :
    after? alike expected (word ++ rest) = (after? alike expected word).map (· ++ rest) := by
  induction expected generalizing word with
  | nil => rfl
  | cons letter expected ih =>
      have later : ∀ mark ∈ rest.head?, ∀ letter ∈ expected, alike letter mark = false :=
        fun mark isHead other member => unlike mark isHead other (List.mem_cons_of_mem _ member)
      cases word with
      | nil =>
          cases rest with
          | nil => rfl
          | cons mark rest => simp [after?, unlike mark rfl letter List.mem_cons_self]
      | cons character word =>
          simp only [List.cons_append, after?]
          split
          · exact ih later
          · rfl

theorem afterWord?_append {alike : Char → Char → Bool} {spelling : String}
    (ends : atBoundary rest = true)
    (unlike : ∀ mark ∈ rest.head?, ∀ letter ∈ spelling.toList, alike letter mark = false) :
    afterWord? alike spelling (word ++ rest) = (afterWord? alike spelling word).map (· ++ rest) := by
  simp only [afterWord?, after?_append unlike]
  cases after? alike spelling.toList word with
  | none => rfl
  | some remaining =>
      have same : atBoundary (remaining ++ rest) = atBoundary remaining := by
        cases remaining with
        | nil => exact ends
        | cons character remaining => rfl
      simp only [Option.map_some, Option.filter_some, same]
      split <;> rfl

def followedBy (rest : List Char) (found : Token × List Char) : Token × List Char :=
  (found.1, found.2 ++ rest)

theorem findSome?_append {α : Type} {spellings : List (String × α)} (token : α → Token)
    (find? : String → List Char → Option (List Char))
    (finds : ∀ entry ∈ spellings,
      find? entry.1 (word ++ rest) = (find? entry.1 word).map (· ++ rest)) :
    (spellings.findSome? fun entry =>
        (find? entry.1 (word ++ rest)).map fun rest => (token entry.2, rest)) =
      (spellings.findSome? fun entry =>
        (find? entry.1 word).map fun rest => (token entry.2, rest)).map (followedBy rest) := by
  induction spellings with
  | nil => rfl
  | cons entry spellings ih =>
      have one := finds entry List.mem_cons_self
      have others := ih fun other member => finds other (List.mem_cons_of_mem _ member)
      simp only [List.findSome?_cons, one, others]
      cases find? entry.1 word <;> rfl

theorem unlike_of_endsWord {alike : Char → Char → Bool} {spelling : String}
    (ends : EndsWord rest)
    (unlike : (enders.any fun ender => spelling.toList.any fun letter => alike letter ender) = false) :
    ∀ mark ∈ rest.head?, ∀ letter ∈ spelling.toList, alike letter mark = false := by
  intro mark isHead letter member
  have none := List.any_eq_false.1 unlike mark (mem_enders (ends mark isHead))
  exact Bool.eq_false_iff.2 (List.any_eq_false.1 (Bool.eq_false_iff.2 none) letter member)

theorem operatorWords_append (ends : EndsWord rest) :
    (operatorWords.findSome? fun (spelling, operator) =>
        (afterWord? anyCase spelling (word ++ rest)).map fun rest =>
          (Token.compare operator, rest)) =
      (operatorWords.findSome? fun (spelling, operator) =>
        (afterWord? anyCase spelling word).map fun rest => (Token.compare operator, rest)).map
          (followedBy rest) := by
  have unlike : ∀ entry ∈ operatorWords,
      (enders.any fun ender => entry.1.toList.any fun letter => anyCase letter ender) = false := by
    decide +kernel
  refine findSome?_append Token.compare (afterWord? anyCase) fun entry member => ?_
  exact afterWord?_append (atBoundary_of_endsWord ends)
    (unlike_of_endsWord ends (unlike entry member))

theorem keyword?_append (ends : EndsWord rest) :
    keyword? (word ++ rest) = (keyword? word).map (followedBy rest) := by
  have unlike : ∀ entry ∈ keywords,
      (enders.any fun ender => entry.1.toList.any fun letter => exactly letter ender) = false := by
    decide +kernel
  refine findSome?_append Token.constant (afterWord? exactly) fun entry member => ?_
  exact afterWord?_append (atBoundary_of_endsWord ends)
    (unlike_of_endsWord ends (unlike entry member))

theorem not_isBare_of_mem_marks {mark : Char} (isMark : mark ∈ marks) : isBare mark = false := by
  have none : marks.any isBare = false := by decide
  exact Bool.eq_false_iff.2 (List.any_eq_false.1 none mark isMark)

theorem symbols_of_bare (bare : ∀ character ∈ word, isBare character = true) (nonempty : word ≠ [])
    (rest : List Char) : (symbols.findSome? fun (spelling, operator) =>
      (after? exactly spelling.toList (word ++ rest)).map fun rest =>
        (Token.compare operator, rest)) = none := by
  obtain ⟨first, later, rfl⟩ := List.exists_cons_of_ne_nil nonempty
  have isBare := bare first List.mem_cons_self
  have differs : ∀ mark ∈ marks, exactly mark first = false := by
    intro mark member
    simp only [exactly, decide_eq_false_iff_not]
    rintro rfl
    simp [not_isBare_of_mem_marks member] at isBare
  have heads : (symbols.all fun entry => entry.1.toList.head?.any marks.contains) = true := by decide
  rw [List.findSome?_eq_none_iff]
  rintro ⟨spelling, operator⟩ member
  have inMarks := List.all_eq_true.1 heads _ member
  simp only at inMarks ⊢
  cases letters : spelling.toList with
  | nil => simp [letters] at inMarks
  | cons mark others =>
      have isMark : mark ∈ marks := by simpa [letters] using inMarks
      simp [after?, differs mark isMark]

theorem operator?_append (bare : ∀ character ∈ word, isBare character = true)
    (nonempty : word ≠ []) (ends : EndsWord rest) :
    operator? (word ++ rest) = (operator? word).map (followedBy rest) := by
  have noSymbol := symbols_of_bare bare nonempty rest
  have noSymbolAlone := symbols_of_bare bare nonempty []
  rw [List.append_nil] at noSymbolAlone
  simp only [operator?, noSymbol, noSymbolAlone]
  exact operatorWords_append ends

def afterSign : List Char → List Char
  | '-' :: input => input
  | input => input

theorem number?_eq_none_iff {input : List Char} :
    number? input = none ↔ ∀ first ∈ (afterSign input).head?, first.isDigit = false := by
  have unsigned (input : List Char) :
      unsigned? input = none ↔ ∀ first ∈ input.head?, first.isDigit = false := by
    cases input with
    | nil => simp [unsigned?]
    | cons first input => by_cases digit : first.isDigit = true <;> simp [unsigned?, digit]
  unfold number?
  split
  · exact Option.map_eq_none_iff.trans (unsigned _)
  · next other =>
      have same : afterSign input = input := by
        unfold afterSign
        split
        · exact absurd rfl (other _)
        · rfl
      rw [same]
      exact Option.map_eq_none_iff.trans (unsigned input)

theorem afterSign_append (nonempty : word ≠ []) :
    afterSign (word ++ rest) = afterSign word ++ rest := by
  obtain ⟨first, later, rfl⟩ := List.exists_cons_of_ne_nil nonempty
  by_cases sign : first = '-'
  · subst sign
    rfl
  · simp [afterSign, sign]

theorem number?_append_eq_none (nonempty : word ≠ []) (ends : EndsWord rest) :
    number? (word ++ rest) = none ↔ number? word = none := by
  rw [number?_eq_none_iff, number?_eq_none_iff, afterSign_append nonempty]
  cases afterSign word with
  | cons first later => rfl
  | nil =>
      have none : enders.any Char.isDigit = false := by decide +kernel
      simp only [List.nil_append, List.head?_nil, Option.mem_def, reduceCtorEq, false_implies,
        implies_true, iff_true]
      intro first isHead
      exact Bool.eq_false_iff.2 (List.any_eq_false.1 none first (mem_enders (ends first isHead)))

theorem bare_ne {first : Char} (bare : isBare first = true) {mark : Char} (isMark : mark ∈ marks) :
    first ≠ mark := by
  rintro rfl
  simp [not_isBare_of_mem_marks isMark] at bare

theorem typed?_of_ne {first : Char} (differs : first ≠ '(') (input : List Char) :
    typed? (first :: input) = none := by
  unfold typed?
  split
  · next same => exact absurd (List.cons.inj same).1 differs
  · rfl

theorem group?_of_ne {first : Char} (notOpen : first ≠ '(') (notClose : first ≠ ')')
    (input : List Char) : group? (first :: input) = none := by
  unfold group?
  split
  · next same => exact absurd (List.cons.inj same).1 notOpen
  · next same => exact absurd (List.cons.inj same).1 notClose
  · rfl

theorem string?_of_ne {first : Char} (notSingle : first ≠ '\'') (notDouble : first ≠ '"')
    (input : List Char) : string? (first :: input) = none := by
  simp [string?, quoted?, notSingle, notDouble]

theorem takeWhile_bare (bare : ∀ character ∈ word, isBare character = true) (ends : EndsWord rest) :
    (word ++ rest).takeWhile isBare = word ∧ (word ++ rest).dropWhile isBare = rest := by
  rw [List.takeWhile_append_of_pos bare, List.dropWhile_append_of_pos bare]
  cases rest with
  | nil => simp
  | cons ender rest => simp [ends ender rfl]

theorem next?_word (isWord : IsWord word) (ends : EndsWord rest) :
    next? (word ++ rest) = some (.word (String.ofList word), rest) := by
  obtain ⟨taken, dropped⟩ := takeWhile_bare isWord.bare ends
  have notOperator := operator?_append isWord.bare isWord.nonempty ends
  have notNumber := (number?_append_eq_none isWord.nonempty ends).2 isWord.notNumber
  have notKeyword : keyword? (word ++ rest) = _ := keyword?_append ends
  rw [isWord.notOperator] at notOperator
  rw [isWord.notKeyword] at notKeyword
  have isWordText : word? (word ++ rest) = some (.word (String.ofList word), rest) := by
    simp [word?, taken, dropped, isWord.nonempty]
  obtain ⟨first, later, shape⟩ := List.exists_cons_of_ne_nil isWord.nonempty
  have bare := isWord.bare first (shape ▸ List.mem_cons_self)
  have differs : ∀ mark ∈ marks, first ≠ mark := fun mark isMark => bare_ne bare isMark
  have notTyped : typed? (word ++ rest) = none := by
    rw [shape]
    exact typed?_of_ne (differs _ (by decide)) _
  have notGroup : group? (word ++ rest) = none := by
    rw [shape]
    exact group?_of_ne (differs _ (by decide)) (differs _ (by decide)) _
  have notString : string? (word ++ rest) = none := by
    rw [shape]
    exact string?_of_ne (differs _ (by decide)) (differs _ (by decide)) _
  simp [next?, notTyped, notGroup, notOperator, notNumber, notKeyword, notString, isWordText]

theorem typed?_token {input : List Char} {token : Token} (found : typed? input = some (token, rest)) :
    ∃ name text, token = .constant (.typed name text) ∧ Literal.IsTypeName name := by
  unfold typed? at found
  split at found
  · next initial later =>
      split at found
      · next upper _ =>
          obtain ⟨⟨text, remaining⟩, _, same⟩ := Option.map_eq_some_iff.1 found
          simp only [Prod.mk.injEq] at same
          refine ⟨_, text, same.1.symm, initial, _, String.toList_ofList, upper, ?_⟩
          exact List.all_eq_true.1 List.all_takeWhile
      · cases found
  · cases found

theorem group?_token {input : List Char} {token : Token} (found : group? input = some (token, rest)) :
    token = .openGroup ∨ token = .closeGroup := by
  unfold group? at found
  split at found <;> simp_all

theorem operator?_token {input : List Char} {token : Token}
    (found : operator? input = some (token, rest)) : ∃ operator, token = .compare operator := by
  simp only [operator?, Option.orElse_eq_orElse, Option.orElse_eq_or, Option.or_eq_some_iff]
    at found
  rcases found with found | ⟨_, found⟩
  · obtain ⟨⟨spelling, operator⟩, _, followed⟩ := List.exists_of_findSome?_eq_some found
    obtain ⟨remaining, _, same⟩ := Option.map_eq_some_iff.1 followed
    exact ⟨operator, (Prod.mk.inj same).1.symm⟩
  · obtain ⟨⟨spelling, operator⟩, _, followed⟩ := List.exists_of_findSome?_eq_some found
    obtain ⟨remaining, _, same⟩ := Option.map_eq_some_iff.1 followed
    exact ⟨operator, (Prod.mk.inj same).1.symm⟩

theorem number?_token {input : List Char} {token : Token}
    (found : number? input = some (token, rest)) : ∃ text, token = .number text := by
  unfold number? at found
  split at found
  · obtain ⟨⟨digits, remaining⟩, _, same⟩ := Option.map_eq_some_iff.1 found
    exact ⟨_, (Prod.mk.inj same).1.symm⟩
  · obtain ⟨⟨digits, remaining⟩, _, same⟩ := Option.map_eq_some_iff.1 found
    exact ⟨_, (Prod.mk.inj same).1.symm⟩

theorem keyword?_token {input : List Char} {token : Token}
    (found : keyword? input = some (token, rest)) :
    ∃ entry ∈ keywords, token = .constant entry.2 := by
  obtain ⟨entry, member, followed⟩ := List.exists_of_findSome?_eq_some found
  obtain ⟨remaining, _, same⟩ := Option.map_eq_some_iff.1 followed
  exact ⟨entry, member, (Prod.mk.inj same).1.symm⟩

theorem string?_token {input : List Char} {token : Token}
    (found : string? input = some (token, rest)) : ∃ text, token = .constant (.string text) := by
  obtain ⟨⟨text, remaining⟩, _, same⟩ := Option.map_eq_some_iff.1 found
  exact ⟨text, (Prod.mk.inj same).1.symm⟩

theorem endsWord_dropWhile (input : List Char) : EndsWord (input.dropWhile isBare) := by
  intro character member
  have stopped := List.head?_dropWhile_not isBare input
  rw [Option.mem_def] at member
  simpa [member] using stopped

theorem word?_token {input : List Char} {token : Token}
    (found : word? input = some (token, rest)) :
    token = .word (String.ofList (input.takeWhile isBare)) ∧ input.takeWhile isBare ≠ [] ∧
      rest = input.dropWhile isBare := by
  unfold word? at found
  split at found
  · cases found
  · next nonempty =>
      simp only [Option.some.injEq, Prod.mk.injEq] at found
      exact ⟨found.1.symm, by simpa using nonempty, found.2.symm⟩

/-- Whatever is read as a word, wherever it stands, is a word by itself. -/
theorem isWord_of_next? {input : List Char} {text : String}
    (found : next? input = some (.word text, rest)) :
    IsWord text.toList ∧ EndsWord rest ∧ input = text.toList ++ rest := by
  simp only [next?, Option.orElse_eq_orElse, Option.orElse_eq_or, Option.or_eq_some_iff] at found
  rcases found with typed | ⟨notTyped, group | ⟨notGroup, operator | ⟨notOperator, number |
    ⟨notNumber, keyword | ⟨notKeyword, string | ⟨notString, word⟩⟩⟩⟩⟩⟩
  · obtain ⟨_, _, same, _⟩ := typed?_token typed
    cases same
  · rcases group?_token group with same | same <;> cases same
  · obtain ⟨_, same⟩ := operator?_token operator
    cases same
  · obtain ⟨_, same⟩ := number?_token number
    cases same
  · obtain ⟨_, _, same⟩ := keyword?_token keyword
    cases same
  · obtain ⟨_, same⟩ := string?_token string
    cases same
  · obtain ⟨same, nonempty, rfl⟩ := word?_token word
    cases same
    have bare : ∀ character ∈ input.takeWhile isBare, isBare character = true :=
      List.all_eq_true.1 List.all_takeWhile
    have ends := endsWord_dropWhile input
    have split : input = input.takeWhile isBare ++ input.dropWhile isBare :=
      List.takeWhile_append_dropWhile.symm
    rw [split] at notOperator notNumber notKeyword
    rw [operator?_append bare nonempty ends, Option.map_eq_none_iff] at notOperator
    rw [keyword?_append ends, Option.map_eq_none_iff] at notKeyword
    rw [number?_append_eq_none nonempty ends] at notNumber
    rw [String.toList_ofList]
    exact ⟨⟨bare, nonempty, notOperator, notNumber, notKeyword⟩, ends, split⟩

inductive Scanned : List Char → List Token → Prop where
  | nil {input : List Char} (start : Text.dropBlanks input = []) : Scanned input []
  | step {input later rest : List Char} {first : Char} {token : Token} {tokens : List Token}
      (start : Text.dropBlanks input = first :: later)
      (found : next? (first :: later) = some (token, rest)) (remaining : Scanned rest tokens) :
      Scanned input (token :: tokens)

theorem scanned_of_scan {input : List Char} {tokens : List Token}
    (scanned : scan input = .ok tokens) : Scanned input tokens := by
  induction length : input.length using Nat.strongRecOn generalizing input tokens with
  | ind count ih =>
      cases start : Text.dropBlanks input with
      | nil =>
          rw [scan_nil start] at scanned
          cases scanned
          exact .nil start
      | cons first later =>
          cases found : next? (first :: later) with
          | none =>
              rw [scan_stuck start found] at scanned
              cases scanned
          | some step =>
              obtain ⟨token, rest⟩ := step
              have shorter := length_next? found
              have trimmed := Text.length_dropBlanks_le input
              rw [start] at trimmed
              rw [scan_step start found] at scanned
              cases after : scan rest with
              | error stuck =>
                  rw [after] at scanned
                  cases scanned
              | ok others =>
                  rw [after] at scanned
                  cases scanned
                  exact .step start found (ih rest.length (by omega) after rfl)

theorem Scanned.scan_eq {input : List Char} {tokens : List Token} (scanned : Scanned input tokens) :
    scan input = .ok tokens := by
  induction scanned with
  | nil start => exact scan_nil start
  | step start found _ ih =>
      rw [scan_step start found, ih]
      rfl

def Legal : Token → Prop
  | .word text => IsWord text.toList
  | .constant (.typed name _) => Literal.IsTypeName name
  | .constant (.float _) => False
  | _ => True

theorem legal_of_next? {input : List Char} {token : Token}
    (found : next? input = some (token, rest)) : token.Legal := by
  have read := found
  simp only [next?, Option.orElse_eq_orElse, Option.orElse_eq_or, Option.or_eq_some_iff] at read
  rcases read with typed | ⟨_, group | ⟨_, operator | ⟨_, number | ⟨_, keyword | ⟨_, string |
    ⟨_, word⟩⟩⟩⟩⟩⟩
  · obtain ⟨name, text, rfl, isTypeName⟩ := typed?_token typed
    exact isTypeName
  · rcases group?_token group with rfl | rfl <;> trivial
  · obtain ⟨operator, rfl⟩ := operator?_token operator
    trivial
  · obtain ⟨text, rfl⟩ := number?_token number
    trivial
  · obtain ⟨entry, member, rfl⟩ := keyword?_token keyword
    simp only [keywords, List.mem_cons, List.not_mem_nil, or_false] at member
    rcases member with rfl | rfl | rfl <;> trivial
  · obtain ⟨text, rfl⟩ := string?_token string
    trivial
  · obtain ⟨rfl, _⟩ := word?_token word
    exact (isWord_of_next? found).1

theorem Scanned.legal {input : List Char} {tokens : List Token} (scanned : Scanned input tokens) :
    ∀ token ∈ tokens, token.Legal := by
  induction scanned with
  | nil => simp
  | step start found _ ih =>
      intro token member
      rcases List.mem_cons.1 member with rfl | later
      · exact legal_of_next? found
      · exact ih token later

end

end Token

end FactRules
