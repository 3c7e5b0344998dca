import FactRules.Proofs.Enclosed

/-!
Quotes and tokens. Where a text leaves no quote open, and a blank or an opening parenthesis follows
it, it is split into tokens as it is by itself.
-/

namespace FactRules.Token

inductive Quoting where
  | outside
  | inside (quote : Char)
  | escaped (quote : Char)

namespace Quoting

def step : Quoting → Char → Quoting
  | .outside, character =>
      if character = '\'' || character = '"' then .inside character else .outside
  | .inside quote, character =>
      if character = '\\' then .escaped quote
      else if character = quote then .outside
      else .inside quote
  | .escaped quote, _ => .inside quote

def after (start : Quoting) (text : List Char) : Quoting :=
  text.foldl step start

theorem after_append (start : Quoting) (text later : List Char) :
    start.after (text ++ later) = (start.after text).after later :=
  List.foldl_append

def Proper : Quoting → Prop
  | .outside => True
  | .inside quote => quote = '\'' ∨ quote = '"'
  | .escaped quote => quote = '\'' ∨ quote = '"'

theorem Proper.step {start : Quoting} (proper : start.Proper) (character : Char) :
    (start.step character).Proper := by
  cases start with
  | outside =>
      rw [Quoting.step]
      split
      · next isQuote => simpa [Proper] using isQuote
      · trivial
  | inside quote =>
      rw [Quoting.step]
      split
      · exact proper
      · split
        · trivial
        · exact proper
  | escaped quote => exact proper

theorem Proper.after {start : Quoting} (proper : start.Proper) (text : List Char) :
    (start.after text).Proper := by
  induction text generalizing start with
  | nil => exact proper
  | cons character text ih => exact ih (proper.step character)

end Quoting

def Unquoted (text : List Char) : Prop :=
  Quoting.outside.after text = .outside

def Opens (rest : List Char) : Prop :=
  ∀ character ∈ rest.head?, Text.isBlank character = true ∨ character = '('

section

variable {input rest : List Char} {token : Token}

theorem Opens.stops (opens : Opens rest) : Stops rest := by
  intro character isHead
  rcases opens character isHead with blank | isOpen
  · exact .inl blank
  · exact .inr (.inl isOpen)

theorem unquoted_of_concat {text : List Char} {last : Char}
    (notQuote : last ≠ '\'' ∧ last ≠ '"') (unquoted : Unquoted (text ++ [last])) :
    Unquoted text := by
  have start : Quoting.outside.Proper := trivial
  have proper := start.after text
  have closes : (Quoting.outside.after text).step last = .outside := by
    rw [Unquoted, Quoting.after_append] at unquoted
    exact unquoted
  rw [Unquoted]
  cases state : Quoting.outside.after text with
  | outside => rfl
  | inside quote =>
      rw [state] at proper closes
      simp only [Quoting.step] at closes
      split at closes
      · cases closes
      · split at closes
        · next same =>
            subst same
            rcases proper with same | same
            · exact absurd same notQuote.1
            · exact absurd same notQuote.2
        · cases closes
  | escaped quote =>
      rw [state] at closes
      cases closes

theorem inside_of_missing {quote : Char} (missing : quotedBody? quote input = none) :
    (Quoting.inside quote).after input ≠ .outside := by
  fun_induction quotedBody? quote input with
  | case1 => simp [Quoting.after]
  | case2 => simp [Quoting.after, Quoting.step]
  | case3 escaped rest ih => exact ih (Option.map_eq_none_iff.1 missing)
  | case4 => cases missing
  | case5 character rest notLast notEscape differs ih =>
      have goesOn : (Quoting.inside quote).step character = .inside quote := by
        rw [Quoting.step, if_neg (ne_backslash notLast notEscape), if_neg differs]
      rw [Quoting.after, List.foldl_cons, goesOn]
      exact ih (Option.map_eq_none_iff.1 missing)

theorem quotedBody?_ends {quote : Char} {body : List Char}
    (found : quotedBody? quote input = some (body, rest)) :
    (Quoting.inside quote).after input = Quoting.outside.after rest ∧
      ∀ later, quotedBody? quote (input ++ later) = some (body, rest ++ later) := by
  fun_induction quotedBody? quote input generalizing body rest with
  | case1 => cases found
  | case2 => cases found
  | case3 escaped input ih =>
      obtain ⟨⟨inner, remaining⟩, closed, same⟩ := Option.map_eq_some_iff.1 found
      cases same
      obtain ⟨ends, followed⟩ := ih closed
      refine ⟨ends, ?_⟩
      intro later
      rw [List.cons_append, List.cons_append, quotedBody?, followed later]
      rfl
  | case4 input notLast notEscape =>
      cases found
      have differs := ne_backslash notLast notEscape
      have closes : (Quoting.inside quote).step quote = .outside := by
        rw [Quoting.step, if_neg differs, if_pos rfl]
      constructor
      · rw [Quoting.after, List.foldl_cons, closes]
        rfl
      · intro later
        rw [List.cons_append, quotedBody?_of_ne differs, if_pos rfl]
  | case5 character input notLast notEscape differs ih =>
      obtain ⟨⟨inner, remaining⟩, closed, same⟩ := Option.map_eq_some_iff.1 found
      cases same
      obtain ⟨ends, followed⟩ := ih closed
      have notBackslash := ne_backslash notLast notEscape
      have goesOn : (Quoting.inside quote).step character = .inside quote := by
        rw [Quoting.step, if_neg notBackslash, if_neg differs]
      constructor
      · rw [Quoting.after, List.foldl_cons, goesOn]
        exact ends
      · intro later
        rw [List.cons_append, quotedBody?_of_ne notBackslash, if_neg differs, followed later]
        rfl

theorem quoted?_followed (unquoted : Unquoted input) (stops : Stops rest) :
    quoted? (input ++ rest) = (quoted? input).map fun found => (found.1, found.2 ++ rest) := by
  cases input with
  | nil =>
      cases rest with
      | nil => rfl
      | cons stop rest =>
          have notQuote : ∀ quote ∈ ['\'', '"'], stop ≠ quote := by
            rintro quote member rfl
            simp only [List.mem_cons, List.not_mem_nil, or_false] at member
            have standing := stops stop rfl
            rcases member with rfl | rfl <;> revert standing <;> decide
          simp [quoted?, notQuote '\'' (by decide), notQuote '"' (by decide)]
  | cons quote body =>
      simp only [List.cons_append, quoted?]
      by_cases isQuote : (quote = '\'' || quote = '"') = true
      · rw [if_pos isQuote, if_pos isQuote]
        cases closed : quotedBody? quote body with
        | none =>
            have opened : Quoting.outside.step quote = .inside quote := if_pos isQuote
            rw [Unquoted, Quoting.after, List.foldl_cons, opened] at unquoted
            exact absurd unquoted (inside_of_missing closed)
        | some found =>
            obtain ⟨text, remaining⟩ := found
            rw [(quotedBody?_ends closed).2 rest]
            rfl
      · rw [if_neg isQuote, if_neg isQuote]
        rfl

def Skips (input rest : List Char) : Prop :=
  ∃ taken, input = taken ++ rest ∧ ∀ character ∈ taken, character ≠ '\'' ∧ character ≠ '"'

theorem Skips.refl (input : List Char) : Skips input input :=
  ⟨[], rfl, nofun⟩

theorem Skips.cons {first : Char} (notQuote : first ≠ '\'' ∧ first ≠ '"')
    (skips : Skips input rest) : Skips (first :: input) rest := by
  obtain ⟨taken, rfl, noQuotes⟩ := skips
  exact ⟨first :: taken, rfl, List.forall_mem_cons.2 ⟨notQuote, noQuotes⟩⟩

theorem Skips.trans {later : List Char} (first : Skips input rest) (second : Skips rest later) :
    Skips input later := by
  obtain ⟨taken, rfl, noQuotes⟩ := first
  obtain ⟨others, rfl, noOthers⟩ := second
  refine ⟨taken ++ others, (List.append_assoc ..).symm, ?_⟩
  exact List.forall_mem_append.2 ⟨noQuotes, noOthers⟩

theorem after_of_skips (skips : Skips input rest) :
    Quoting.outside.after input = Quoting.outside.after rest := by
  obtain ⟨taken, rfl, noQuotes⟩ := skips
  induction taken with
  | nil => rfl
  | cons character taken ih =>
      obtain ⟨notQuote, others⟩ := List.forall_mem_cons.1 noQuotes
      have stays : Quoting.outside.step character = .outside := by
        rw [Quoting.step, if_neg]
        simpa using notQuote
      rw [List.cons_append, Quoting.after, List.foldl_cons, stays]
      exact ih others

theorem skips_dropWhile {accepted : Char → Bool} (notSingle : accepted '\'' = false)
    (notDouble : accepted '"' = false) (input : List Char) :
    Skips input (input.dropWhile accepted) := by
  refine ⟨input.takeWhile accepted, List.takeWhile_append_dropWhile.symm, ?_⟩
  intro character member
  have isAccepted := List.all_eq_true.1 List.all_takeWhile character member
  constructor
  · rintro rfl
    rw [notSingle] at isAccepted
    cases isAccepted
  · rintro rfl
    rw [notDouble] at isAccepted
    cases isAccepted

theorem skips_after? {alike : Char → Char → Bool} {expected : List Char}
    (unlike : ∀ letter ∈ expected, alike letter '\'' = false ∧ alike letter '"' = false)
    (found : after? alike expected input = some rest) : Skips input rest := by
  induction expected generalizing input with
  | nil =>
      cases found
      exact Skips.refl rest
  | cons letter expected ih =>
      obtain ⟨⟨notSingle, notDouble⟩, others⟩ := List.forall_mem_cons.1 unlike
      cases input with
      | nil => cases found
      | cons character input =>
          simp only [after?] at found
          split at found
          · next alikeLetter =>
              refine (ih others found).cons ⟨?_, ?_⟩
              · rintro rfl
                rw [notSingle] at alikeLetter
                cases alikeLetter
              · rintro rfl
                rw [notDouble] at alikeLetter
                cases alikeLetter
          · cases found

theorem skips_spelling {α : Type} {spellings : List (String × α)} {make : α → Token}
    {alike : Char → Char → Bool} {find? : String → List Char → Option (List Char)}
    (unlike : (spellings.all fun entry => entry.1.toList.all fun letter =>
      !alike letter '\'' && !alike letter '"') = true)
    (finds : ∀ {spelling : String} {remaining : List Char}, find? spelling input = some remaining →
      after? alike spelling.toList input = some remaining)
    (found : (spellings.findSome? fun entry =>
      (find? entry.1 input).map fun rest => (make entry.2, rest)) = some (token, rest)) :
    Skips input rest := by
  obtain ⟨entry, member, followed⟩ := List.exists_of_findSome?_eq_some found
  obtain ⟨remaining, after, same⟩ := Option.map_eq_some_iff.1 followed
  cases same
  refine skips_after? ?_ (finds after)
  intro letter isLetter
  simpa using List.all_eq_true.1 (List.all_eq_true.1 unlike entry member) letter isLetter

theorem skips_operator? (found : operator? input = some (token, rest)) : Skips input rest := by
  simp only [operator?, Option.orElse_eq_orElse, Option.orElse_eq_or, Option.or_eq_some_iff]
    at found
  rcases found with symbol | ⟨_, word⟩
  · exact skips_spelling (by decide) id symbol
  · have unlike : (operatorWords.all fun entry => entry.1.toList.all fun letter =>
        !anyCase letter '\'' && !anyCase letter '"') = true := by decide
    refine skips_spelling unlike ?_ word
    intro spelling remaining after
    exact (Option.filter_eq_some_iff.1 after).1

theorem skips_keyword? (found : keyword? input = some (token, rest)) : Skips input rest := by
  have unlike : (keywords.all fun entry => entry.1.toList.all fun letter =>
      !exactly letter '\'' && !exactly letter '"') = true := by decide
  refine skips_spelling unlike ?_ found
  intro spelling remaining after
  exact (Option.filter_eq_some_iff.1 after).1

theorem skips_group? (found : group? input = some (token, rest)) : Skips input rest := by
  unfold group? at found
  split at found
  · cases found
    exact (Skips.refl rest).cons (by decide)
  · cases found
    exact (Skips.refl rest).cons (by decide)
  · cases found

theorem skips_fraction (input : List Char) : Skips input (fraction input).2 := by
  unfold fraction
  split
  · next input =>
      split
      · exact Skips.refl _
      · exact (skips_dropWhile rfl rfl input).cons (by decide)
  · exact Skips.refl _

theorem skips_unsigned? {digits : List Char} (found : unsigned? input = some (digits, rest)) :
    Skips input rest := by
  unfold unsigned? at found
  split at found
  · cases found
  · cases found
    exact (skips_dropWhile rfl rfl input).trans (skips_fraction _)

theorem skips_number? (found : number? input = some (token, rest)) : Skips input rest := by
  unfold number? at found
  split at found
  · obtain ⟨⟨digits, after⟩, followed, same⟩ := Option.map_eq_some_iff.1 found
    cases same
    exact (skips_unsigned? followed).cons (by decide)
  · obtain ⟨⟨digits, after⟩, followed, same⟩ := Option.map_eq_some_iff.1 found
    cases same
    exact skips_unsigned? followed

theorem skips_ofWords {name : List Char}
    (ofWords : ∀ character ∈ name, Text.isWordCharacter character = true) (rest : List Char) :
    Skips (name ++ rest) rest := by
  refine ⟨name, rfl, ?_⟩
  intro character member
  have ofWord := ofWords character member
  constructor
  · rintro rfl
    cases ofWord
  · rintro rfl
    cases ofWord

theorem skips_typed {name : List Char}
    (ofWords : ∀ character ∈ name, Text.isWordCharacter character = true) (rest : List Char) :
    Skips ('(' :: (name ++ ')' :: rest)) rest := by
  have closing : Skips (')' :: rest) rest := (Skips.refl rest).cons (by decide)
  exact ((skips_ofWords ofWords (')' :: rest)).trans closing).cons (by decide)

theorem after_quoted? {text : String} (found : quoted? input = some (text, rest)) :
    Quoting.outside.after input = Quoting.outside.after rest := by
  cases input with
  | nil => cases found
  | cons quote body =>
      simp only [quoted?] at found
      split at found
      · next isQuote =>
          obtain ⟨⟨content, remaining⟩, closed, same⟩ := Option.map_eq_some_iff.1 found
          cases same
          have opened : Quoting.outside.step quote = .inside quote := if_pos isQuote
          rw [Quoting.after, List.foldl_cons, opened]
          exact (quotedBody?_ends closed).1
      · cases found

/-- A token opens no quote that it does not close. -/
theorem after_next? (found : next? input = some (token, rest)) :
    Quoting.outside.after input = Quoting.outside.after rest := by
  simp only [next?, Option.orElse_eq_orElse, Option.orElse_eq_or, Option.or_eq_some_iff] at found
  rcases found with typed | ⟨_, group | ⟨_, operator | ⟨_, number | ⟨_, keyword | ⟨_, string |
    ⟨_, word⟩⟩⟩⟩⟩⟩
  · obtain ⟨name, text, rfl, isTypeName⟩ := typed?_token typed
    cases input with
    | nil => cases typed
    | cons first input =>
        by_cases isOpen : first = '('
        · subst isOpen
          obtain ⟨remaining, rfl, quoted⟩ := typed?_split typed
          rw [after_of_skips (skips_typed (ofWords_name isTypeName) remaining),
            after_quoted? quoted]
        · rw [typed?_of_ne isOpen] at typed
          cases typed
  · exact after_of_skips (skips_group? group)
  · exact after_of_skips (skips_operator? operator)
  · exact after_of_skips (skips_number? number)
  · exact after_of_skips (skips_keyword? keyword)
  · obtain ⟨⟨text, remaining⟩, quoted, same⟩ := Option.map_eq_some_iff.1 string
    cases same
    exact after_quoted? quoted
  · obtain ⟨_, _, rfl⟩ := word?_token word
    exact after_of_skips (skips_dropWhile rfl rfl input)

theorem next?_unquoted {first : Char} (unquoted : Unquoted (first :: input)) (opens : Opens rest) :
    next? (first :: input ++ rest) = (next? (first :: input)).map (followedBy rest) := by
  apply next?_followed opens.stops
  · apply typed?_followed opens.stops
    · intro name later split alphanumeric
      have ofWords := fun character member =>
        isWordCharacter_of_alphanumeric (alphanumeric character member)
      rw [Unquoted, split, after_of_skips (skips_typed ofWords later)] at unquoted
      exact quoted?_followed unquoted opens.stops
    · rintro later rfl
      rcases opens ')' rfl with blank | same
      · cases blank
      · cases same
  · simp only [string?, quoted?_followed unquoted opens.stops]
    cases quoted? (first :: input) <;> rfl

theorem scan_unquoted {text : List Char} (unquoted : Unquoted text) (opens : Opens rest) :
    scan (text ++ rest) = continued rest (scan text) := by
  refine scan_followed ?_ ?_ ?_ unquoted
  · intro first input isUnquoted
    exact next?_unquoted isUnquoted opens
  · intro text isUnquoted
    have blanks := after_of_skips (skips_dropWhile rfl rfl text : Skips _ (Text.dropBlanks text))
    exact blanks.symm.trans isUnquoted
  · intro text token later isUnquoted found
    exact (after_next? found).symm.trans isUnquoted

end

end FactRules.Token
