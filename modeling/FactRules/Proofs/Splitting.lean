import FactRules.Proofs.Enclosed
import FactRules.Proofs.Printing
import Mathlib.Data.List.DropRight

/-!
Where a text can be split into tokens and where not. Every character but a quote and an exclamation
mark begins a token: a quote needs its like to close it, and an exclamation mark an equals sign
behind it. So the splitting comes to the end of the text or in front of one of these two, and the
error says where that is.
-/

namespace FactRules

namespace Token

inductive Closes (quote : Char) : List Char → Prop where
  | quote (rest : List Char) : Closes quote (quote :: rest)
  | escaped (character : Char) {rest : List Char} (closes : Closes quote rest) :
      Closes quote ('\\' :: character :: rest)
  | plain {character : Char} {rest : List Char} (isPlain : character ≠ '\\')
      (closes : Closes quote rest) : Closes quote (character :: rest)

inductive Unreadable : List Char → Prop where
  | exclamation {rest : List Char} (noEquals : ∀ next ∈ rest.head?, next ≠ '=') :
      Unreadable ('!' :: rest)
  | unclosed {quote : Char} {rest : List Char} (isQuote : quote = '\'' ∨ quote = '"')
      (neverClosed : ¬ Closes quote rest) : Unreadable (quote :: rest)

/-- From the front of the text these tokens are taken, each of at least one character and with
blanks before it, and this is left. -/
inductive Splits : List Char → List Token → List Char → Prop where
  | nil (input : List Char) : Splits input [] (Text.dropBlanks input)
  | cons {input taken rest left : List Char} {token : Token} {tokens : List Token}
      (start : Text.dropBlanks input = taken ++ rest) (nonempty : taken ≠ [])
      (found : next? (taken ++ rest) = some (token, rest)) (later : Splits rest tokens left) :
      Splits input (token :: tokens) left

section

variable {quote first : Char} {input later rest left : List Char} {token : Token}
  {tokens : List Token}

theorem closes_of_quotedBody? {body : List Char}
    (closed : quotedBody? quote input = some (body, rest)) : Closes quote input := by
  fun_induction quotedBody? quote input generalizing body rest with
  | case1 => cases closed
  | case2 => cases closed
  | case3 escaped input ih =>
      obtain ⟨⟨inner, remaining⟩, inside, _⟩ := Option.map_eq_some_iff.1 closed
      exact .escaped escaped (ih inside)
  | case4 input => exact .quote input
  | case5 character input notLast notEscape _ ih =>
      obtain ⟨⟨inner, remaining⟩, inside, _⟩ := Option.map_eq_some_iff.1 closed
      exact .plain (ne_backslash notLast notEscape) (ih inside)

theorem quotedBody?_of_closes (notBackslash : quote ≠ '\\') (closes : Closes quote input) :
    ∃ found, quotedBody? quote input = some found := by
  induction closes with
  | quote rest => exact ⟨_, by rw [quotedBody?_of_ne notBackslash, if_pos rfl]⟩
  | escaped character _ ih =>
      obtain ⟨found, closed⟩ := ih
      exact ⟨_, by rw [quotedBody?, closed]; rfl⟩
  | @plain character rest isPlain _ ih =>
      obtain ⟨found, closed⟩ := ih
      rw [quotedBody?_of_ne isPlain, closed]
      split
      · exact ⟨_, rfl⟩
      · exact ⟨_, rfl⟩

theorem quotedBody?_eq_none_iff (notBackslash : quote ≠ '\\') :
    quotedBody? quote input = none ↔ ¬ Closes quote input := by
  constructor
  · intro missing closes
    obtain ⟨found, closed⟩ := quotedBody?_of_closes notBackslash closes
    rw [missing] at closed
    cases closed
  · intro neverClosed
    cases closed : quotedBody? quote input with
    | none => rfl
    | some found => exact absurd (closes_of_quotedBody? closed) neverClosed

theorem string?_eq_none_iff (isQuote : quote = '\'' ∨ quote = '"') :
    string? (quote :: input) = none ↔ ¬ Closes quote input := by
  have notBackslash : quote ≠ '\\' := by rcases isQuote with rfl | rfl <;> decide
  have tried : (quote = '\'' || quote = '"') = true := by simpa using isQuote
  rw [string?, quoted?, if_pos tried, Option.map_eq_none_iff, Option.map_eq_none_iff,
    quotedBody?_eq_none_iff notBackslash]

theorem next?_quote (isQuote : quote = '\'' ∨ quote = '"') :
    next? (quote :: input) = string? (quote :: input) := by
  have notBare : isBare quote = false := by rcases isQuote with rfl | rfl <;> decide
  have noWord : word? (quote :: input) = none := by simp [word?, notBare]
  have noOther : typed? (quote :: input) = none ∧ group? (quote :: input) = none ∧
      operator? (quote :: input) = none ∧ number? (quote :: input) = none ∧
      keyword? (quote :: input) = none := by
    rcases isQuote with rfl | rfl <;> exact ⟨rfl, rfl, rfl, rfl, rfl⟩
  obtain ⟨noTyped, noGroup, noOperator, noNumber, noKeyword⟩ := noOther
  simp [next?, noTyped, noGroup, noOperator, noNumber, noKeyword, noWord]

theorem next?_exclamation (noEquals : ∀ next ∈ input.head?, next ≠ '=') :
    next? ('!' :: input) = none := by
  cases input with
  | nil => rfl
  | cons next input =>
      have differs : '=' ≠ next := (noEquals next rfl).symm
      have noOperator : operator? ('!' :: next :: input) = none := by
        simp [operator?, symbols, operatorWords, afterWord?, after?, exactly, anyCase, differs]
      simp only [next?, noOperator]
      rfl

theorem after?_of_no_operator (noOperator : operator? input = none) (entry : String × Operator)
    (isSymbol : entry ∈ symbols) : after? exactly entry.1.toList input = none := by
  simp only [operator?, Option.orElse_eq_orElse, Option.orElse_eq_or, Option.or_eq_none_iff,
    List.findSome?_eq_none_iff, Option.map_eq_none_iff] at noOperator
  exact noOperator.1 entry isSymbol

theorem unreadable_of_mark (isMark : first ∈ marks) (notQuote : ¬ (first = '\'' ∨ first = '"'))
    (noGroup : group? (first :: later) = none) (noOperator : operator? (first :: later) = none) :
    Unreadable (first :: later) := by
  have noSymbol := after?_of_no_operator noOperator
  simp only [marks, List.mem_cons, List.not_mem_nil, or_false] at isMark
  rcases isMark with rfl | rfl | rfl | rfl | rfl | rfl | isQuote
  · cases noGroup
  · cases noGroup
  · cases noSymbol ("=", .equal) (by decide)
  · refine .exclamation ?_
    rintro next isHead rfl
    obtain ⟨rest, rfl⟩ := List.head?_eq_some_iff.1 isHead
    cases noSymbol ("!=", .notEqual) (by decide)
  · cases noSymbol ("<", .less) (by decide)
  · cases noSymbol (">", .greater) (by decide)
  · exact absurd isQuote notQuote

theorem next?_eq_none_iff (notBlank : Text.isBlank first = false) :
    next? (first :: later) = none ↔ Unreadable (first :: later) := by
  by_cases isQuote : first = '\'' ∨ first = '"'
  · rw [next?_quote isQuote, string?_eq_none_iff isQuote]
    constructor
    · exact .unclosed isQuote
    · rintro (_ | ⟨_, neverClosed⟩)
      · cases isQuote <;> contradiction
      · exact neverClosed
  · constructor
    · intro missing
      simp only [next?, Option.orElse_eq_orElse, Option.orElse_eq_or, Option.or_eq_none_iff]
        at missing
      obtain ⟨_, noGroup, noOperator, _, _, _, noWord⟩ := missing
      have isMark : first ∈ marks := by
        by_cases bare : isBare first = true
        · simp [word?, bare] at noWord
        · simpa [isBare, notBlank] using bare
      exact unreadable_of_mark isMark isQuote noGroup noOperator
    · rintro (noEquals | ⟨isOne, _⟩)
      · exact next?_exclamation noEquals
      · exact absurd isOne isQuote

theorem Unreadable.notBlank (unreadable : Unreadable (first :: later)) :
    Text.isBlank first = false := by
  rcases unreadable with _ | ⟨rfl | rfl, _⟩ <;> rfl

theorem Unreadable.scan_eq (unreadable : Unreadable input) : scan input = .error input := by
  cases input with
  | nil => cases unreadable
  | cons first later =>
      have notBlank := unreadable.notBlank
      have missing := (next?_eq_none_iff notBlank).2 unreadable
      exact scan_stuck (by simp [Text.dropBlanks, notBlank]) missing

theorem notBlank_of_dropBlanks (start : Text.dropBlanks input = first :: later) :
    Text.isBlank first = false := by
  have head := List.head?_dropWhile_not Text.isBlank input
  rw [← Text.dropBlanks, start] at head
  simpa using head

theorem Splits.suffix (splits : Splits input tokens left) : left <:+ input := by
  induction splits with
  | nil input => exact List.dropWhile_suffix Text.isBlank
  | @cons input taken rest _ _ _ start _ _ _ ih =>
      have behind : rest <:+ Text.dropBlanks input := ⟨taken, start.symm⟩
      exact ih.trans (behind.trans (List.dropWhile_suffix Text.isBlank))

theorem Splits.scan_eq (splits : Splits input tokens left) :
    scan input = (tokens ++ ·) <$> scan left := by
  induction splits with
  | nil input =>
      have again : scan (Text.dropBlanks input) = scan input :=
        scan_congr (List.dropWhile_idempotent Text.isBlank input)
      rw [again]
      exact (id_map _).symm
  | @cons input taken rest left token tokens start nonempty found _ ih =>
      obtain ⟨first, later, rfl⟩ := List.exists_cons_of_ne_nil nonempty
      rw [scan_step start found, ih]
      exact map_append_map [token] tokens (scan left)

theorem exists_splits (input : List Char) :
    ∃ tokens left, Splits input tokens left ∧ (left = [] ∨ Unreadable left) := by
  induction length : input.length using Nat.strongRecOn generalizing input with
  | ind count ih =>
      have ended : Splits input [] (Text.dropBlanks input) := .nil input
      cases start : Text.dropBlanks input with
      | nil => exact ⟨[], [], start ▸ ended, .inl rfl⟩
      | cons first later =>
          cases found : next? (first :: later) with
          | none =>
              have unreadable := (next?_eq_none_iff (notBlank_of_dropBlanks start)).1 found
              exact ⟨[], _, start ▸ ended, .inr unreadable⟩
          | some step =>
              obtain ⟨token, rest⟩ := step
              have shorter := length_next? found
              have trimmed := Text.length_dropBlanks_le input
              rw [start] at trimmed
              obtain ⟨tokens, left, splits, stops⟩ := ih rest.length (by omega) rest rfl
              obtain ⟨_, _, ⟨⟩, others, rfl⟩ := next?_takes found
              have nonempty := List.cons_ne_nil first others
              exact ⟨token :: tokens, left, .cons start nonempty found splits, stops⟩

theorem scan_eq_ok_iff : scan input = .ok tokens ↔ Splits input tokens [] := by
  constructor
  · intro scanned
    obtain ⟨found, left, splits, rfl | unreadable⟩ := exists_splits input
    · have same := splits.scan_eq
      rw [scanned, scan_nil rfl] at same
      have equal : tokens = found ++ [] := Except.ok.inj same
      rwa [equal, List.append_nil]
    · have same := splits.scan_eq
      rw [scanned, unreadable.scan_eq] at same
      cases same
  · intro splits
    rw [splits.scan_eq, scan_nil rfl]
    exact congrArg Except.ok (List.append_nil tokens)

theorem scan_eq_error_iff :
    scan input = .error left ↔ (∃ tokens, Splits input tokens left) ∧ Unreadable left := by
  constructor
  · intro stuck
    obtain ⟨tokens, other, splits, rfl | unreadable⟩ := exists_splits input
    · have same := splits.scan_eq
      rw [stuck, scan_nil rfl] at same
      cases same
    · have same := splits.scan_eq
      rw [stuck, unreadable.scan_eq] at same
      cases same
      exact ⟨⟨tokens, splits⟩, unreadable⟩
  · rintro ⟨⟨tokens, splits⟩, unreadable⟩
    rw [splits.scan_eq, unreadable.scan_eq]
    rfl

end

end Token

namespace SharedCondition

open Token

theorem byteLength_append (left right : List Char) :
    byteLength (left ++ right) = byteLength left + byteLength right := by
  induction left with
  | nil => exact (Nat.zero_add _).symm
  | cons character left ih => rw [List.cons_append, byteLength, byteLength, ih, Nat.add_assoc]

theorem byteLength_eq (characters : List Char) :
    byteLength characters = (String.ofList characters).utf8ByteSize := by
  induction characters with
  | nil => rfl
  | cons character characters ih =>
      rw [byteLength, ih, String.ofList_cons, String.utf8ByteSize_append,
        String.utf8ByteSize_singleton]

theorem exists_before {text : String} {tokens : List Token} {left : List Char}
    (splits : Splits ('(' :: text.toList ++ [')']) tokens left) (unreadable : Unreadable left) :
    ∃ before after : String, text = before ++ after ∧ left = after.toList ++ [')'] := by
  rw [List.cons_append] at splits
  rcases List.suffix_cons_iff.1 splits.suffix with rfl | inside
  · cases unreadable with
    | unclosed isQuote => exact absurd isQuote (by decide)
  · rcases List.suffix_concat_iff.1 inside with rfl | ⟨after, rfl, before, split⟩
    · cases unreadable
    · refine ⟨.ofList before, .ofList after, ?_, by rw [String.toList_ofList]⟩
      rw [← String.ofList_append, split, String.ofList_toList]

theorem offset_unreadable (before after : String) :
    byteLength ('(' :: (before ++ after).toList ++ [')']) - byteLength (after ++ ")").toList - 1 =
      before.utf8ByteSize := by
  have opening : byteLength ['('] = 1 := rfl
  have whole : '(' :: (before ++ after).toList ++ [')'] =
      ['('] ++ (before.toList ++ (after ++ ")").toList) := by simp
  rw [whole, byteLength_append, byteLength_append, opening, byteLength_eq before.toList,
    String.ofList_toList]
  omega

/-- A text in a pair of parentheses is split into tokens unless a part of it is, in front of an
exclamation mark without an equals sign or of a quote that is never closed. The error names the
bytes of the text before that place and what stands behind them, with the added parenthesis. -/
theorem tokens_split (text : String) :
    ((∃ error, tokens text = .error error) ↔
      ∃ found left, Splits ('(' :: text.toList ++ [')']) found left ∧ Unreadable left) ∧
    (∀ found left, Splits ('(' :: text.toList ++ [')']) found left → Unreadable left →
      ∃ before after : String, text = before ++ after ∧ left = (after ++ ")").toList ∧
        tokens text = .error (.unrecognized before.utf8ByteSize (after ++ ")"))) ∧
    ∀ found, tokens text = .ok found ↔ Splits ('(' :: text.toList ++ [')']) found [] := by
  have fails (found : List Token) (left : List Char)
      (splits : Splits ('(' :: text.toList ++ [')']) found left) (unreadable : Unreadable left) :
      ∃ before after : String, text = before ++ after ∧ left = (after ++ ")").toList ∧
        tokens text = .error (.unrecognized before.utf8ByteSize (after ++ ")")) := by
    have stuck := scan_eq_error_iff.2 ⟨⟨found, splits⟩, unreadable⟩
    obtain ⟨before, after, rfl, rfl⟩ := exists_before splits unreadable
    have rest : (after ++ ")").toList = after.toList ++ [')'] := String.toList_append
    refine ⟨before, after, rfl, rest.symm, ?_⟩
    simp only [tokens, stuck, ← rest, String.ofList_toList, offset_unreadable]
  refine ⟨⟨?_, ?_⟩, fails, ?_⟩
  · rintro ⟨error, failed⟩
    cases scanned : scan ('(' :: text.toList ++ [')']) with
    | ok found =>
        simp only [tokens, scanned] at failed
        cases failed
    | error left =>
        obtain ⟨⟨found, splits⟩, unreadable⟩ := scan_eq_error_iff.1 scanned
        exact ⟨found, left, splits, unreadable⟩
  · rintro ⟨found, left, splits, unreadable⟩
    obtain ⟨before, after, _, _, failed⟩ := fails found left splits unreadable
    exact ⟨_, failed⟩
  · intro found
    rw [← scan_eq_ok_iff, tokens]
    cases scan ('(' :: text.toList ++ [')']) <;> simp

/-- The backslash takes the added parenthesis along, and two letters are two bytes long. -/
theorem tokens_split_unclosed :
    let left := ['\'', 'a', '\\', ')']
    Splits ('(' :: "größe = 'a\\".toList ++ [')'])
      [.openGroup, .word "größe", .compare .equal] left ∧ Unreadable left ∧
    tokens "größe = 'a\\" = .error (.unrecognized 10 "'a\\)") ∧
    tokens "größe" = .ok [.openGroup, .word "größe", .closeGroup] := by
  intro left
  have splits : Splits ('(' :: "größe = 'a\\".toList ++ [')'])
      [.openGroup, .word "größe", .compare .equal] left :=
    .cons rfl (List.cons_ne_nil '(' []) rfl
      (.cons rfl (List.cons_ne_nil 'g' ['r', 'ö', 'ß', 'e']) rfl
        (.cons rfl (List.cons_ne_nil '=' []) rfl (.nil _)))
  have unreadable : Unreadable left :=
    .unclosed (.inl rfl) ((quotedBody?_eq_none_iff (by decide)).1 rfl)
  have whole : Splits ('(' :: "größe".toList ++ [')'])
      [.openGroup, .word "größe", .closeGroup] [] :=
    .cons rfl (List.cons_ne_nil '(' []) rfl
      (.cons rfl (List.cons_ne_nil 'g' ['r', 'ö', 'ß', 'e']) rfl
        (.cons rfl (List.cons_ne_nil ')' []) rfl (.nil [])))
  obtain ⟨before, after, split, rest, failed⟩ :=
    (tokens_split "größe = 'a\\").2.1 _ left splits unreadable
  have tail : after ++ ")" = "'a\\)" := String.toList_inj.1 (rest.symm.trans rfl)
  have size : 13 = before.utf8ByteSize + after.utf8ByteSize :=
    (congrArg String.utf8ByteSize split).trans String.utf8ByteSize_append
  have tailSize : after.utf8ByteSize + 1 = 4 :=
    String.utf8ByteSize_append.symm.trans (congrArg String.utf8ByteSize tail)
  have offset : before.utf8ByteSize = 10 := by omega
  rw [tail, offset] at failed
  exact ⟨splits, unreadable, failed, ((tokens_split "größe").2.2 _).2 whole⟩

end SharedCondition

end FactRules
