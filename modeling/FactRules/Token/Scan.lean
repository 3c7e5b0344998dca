import FactRules.Token

/-!
Splitting a text into tokens. Every token takes at least one character, so the splitting ends; it
stops early only where no token begins.
-/

namespace FactRules.Token

def Takes (input rest : List Char) : Prop :=
  ∃ first later, input = first :: later ∧ rest <:+ later

section

variable {input rest : List Char} {token : Token}

theorem Takes.suffix (takes : Takes input rest) : rest <:+ input := by
  obtain ⟨first, later, rfl, suffix⟩ := takes
  exact suffix.trans (List.suffix_cons first later)

theorem Takes.length_lt (takes : Takes input rest) : rest.length < input.length := by
  obtain ⟨first, later, rfl, suffix⟩ := takes
  have shorter := suffix.length_le
  rw [List.length_cons]
  omega

theorem takes_cons {first : Char} (suffix : rest <:+ input) : Takes (first :: input) rest :=
  ⟨first, input, rfl, suffix⟩

theorem after?_suffix {alike : Char → Char → Bool} {expected : List Char}
    (found : after? alike expected input = some rest) : rest <:+ input := by
  induction expected generalizing input with
  | nil =>
      cases found
      exact List.suffix_refl rest
  | cons letter expected ih =>
      cases input with
      | nil => cases found
      | cons character input =>
          simp only [after?] at found
          split at found
          · exact (ih found).trans (List.suffix_cons character input)
          · cases found

theorem after?_takes {alike : Char → Char → Bool} {letter : Char} {expected : List Char}
    (found : after? alike (letter :: expected) input = some rest) : Takes input rest := by
  cases input with
  | nil => cases found
  | cons character input =>
      simp only [after?] at found
      split at found
      · exact takes_cons (after?_suffix found)
      · cases found

theorem spelling_takes {α : Type} {spellings : List (String × α)} {make : α → Token}
    {find? : String → List Char → Option (List Char)}
    (nonempty : ∀ entry ∈ spellings, entry.1.toList ≠ [])
    (finds : ∀ {spelling : String} {letter : Char} {later remaining : List Char},
      spelling.toList = letter :: later → find? spelling input = some remaining →
        Takes input remaining)
    (found : (spellings.findSome? fun entry =>
      (find? entry.1 input).map fun rest => (make entry.2, rest)) = some (token, rest)) :
    Takes input rest := by
  obtain ⟨entry, member, followed⟩ := List.exists_of_findSome?_eq_some found
  obtain ⟨remaining, after, same⟩ := Option.map_eq_some_iff.1 followed
  obtain ⟨letter, later, shape⟩ := List.exists_cons_of_ne_nil (nonempty entry member)
  cases same
  exact finds shape after

theorem afterWord?_takes {alike : Char → Char → Bool} {spelling : String} {letter : Char}
    {later : List Char} (shape : spelling.toList = letter :: later)
    (found : afterWord? alike spelling input = some rest) : Takes input rest := by
  simp only [afterWord?, Option.filter_eq_some_iff, shape] at found
  exact after?_takes found.1

theorem quotedBody?_takes {quote : Char} {body : List Char}
    (found : quotedBody? quote input = some (body, rest)) : Takes input rest := by
  fun_induction quotedBody? quote input generalizing body rest with
  | case1 => cases found
  | case2 => cases found
  | case3 escaped input ih =>
      obtain ⟨⟨inner, remaining⟩, closed, same⟩ := Option.map_eq_some_iff.1 found
      cases same
      exact takes_cons ((ih closed).suffix.trans (List.suffix_cons escaped input))
  | case4 =>
      cases found
      exact takes_cons (List.suffix_refl _)
  | case5 character input _ _ differs ih =>
      obtain ⟨⟨inner, remaining⟩, closed, same⟩ := Option.map_eq_some_iff.1 found
      cases same
      exact takes_cons (ih closed).suffix

theorem quoted?_takes {text : String} (found : quoted? input = some (text, rest)) :
    Takes input rest := by
  cases input with
  | nil => cases found
  | cons quote input =>
      simp only [quoted?] at found
      split at found
      · obtain ⟨⟨inner, remaining⟩, closed, same⟩ := Option.map_eq_some_iff.1 found
        cases same
        exact takes_cons (quotedBody?_takes closed).suffix
      · cases found

theorem dropWhile_takes {accepted : Char → Bool}
    (taken : ¬(input.takeWhile accepted).isEmpty = true) :
    Takes input (input.dropWhile accepted) := by
  cases input with
  | nil => exact absurd rfl taken
  | cons character input =>
      by_cases first : accepted character = true
      · rw [List.dropWhile_cons_of_pos first]
        exact takes_cons (List.dropWhile_suffix accepted)
      · simp [first] at taken

theorem typed?_takes (found : typed? input = some (token, rest)) : Takes input rest := by
  unfold typed? at found
  split at found
  · next initial input =>
      split at found
      · next remaining _ split =>
          obtain ⟨⟨text, after⟩, closed, same⟩ := Option.map_eq_some_iff.1 found
          cases same
          have nameSuffix : ')' :: remaining <:+ input := by
            rw [← split]
            exact List.dropWhile_suffix Char.isAlphanum
          have closing := (List.suffix_cons ')' remaining).trans nameSuffix
          exact takes_cons (((quoted?_takes closed).suffix.trans closing).trans
            (List.suffix_cons initial input))
      · cases found
  · cases found

theorem group?_takes (found : group? input = some (token, rest)) : Takes input rest := by
  unfold group? at found
  split at found
  · cases found
    exact takes_cons (List.suffix_refl rest)
  · cases found
    exact takes_cons (List.suffix_refl rest)
  · cases found

theorem operator?_takes (found : operator? input = some (token, rest)) : Takes input rest := by
  simp only [operator?, Option.orElse_eq_orElse, Option.orElse_eq_or, Option.or_eq_some_iff]
    at found
  rcases found with symbol | ⟨_, word⟩
  · have reads : ∀ {spelling : String} {letter : Char} {later remaining : List Char},
        spelling.toList = letter :: later → after? exactly spelling.toList input = some remaining →
          Takes input remaining := by
      intro spelling letter later remaining shape after
      rw [shape] at after
      exact after?_takes after
    exact spelling_takes (by decide) reads symbol
  · exact spelling_takes (by decide) afterWord?_takes word

theorem fraction_suffix (input : List Char) : (fraction input).2 <:+ input := by
  unfold fraction
  split
  · next input =>
      split
      · exact List.suffix_refl _
      · exact (List.dropWhile_suffix Char.isDigit).trans (List.suffix_cons '.' input)
  · exact List.suffix_refl _

theorem unsigned?_takes {digits : List Char} (found : unsigned? input = some (digits, rest)) :
    Takes input rest := by
  unfold unsigned? at found
  split at found
  · cases found
  · next taken =>
      cases found
      obtain ⟨first, later, shape, suffix⟩ := dropWhile_takes taken
      exact ⟨first, later, shape, (fraction_suffix _).trans suffix⟩

theorem number?_takes (found : number? input = some (token, rest)) : Takes input rest := by
  unfold number? at found
  split at found
  · obtain ⟨⟨digits, after⟩, followed, same⟩ := Option.map_eq_some_iff.1 found
    cases same
    exact takes_cons (unsigned?_takes followed).suffix
  · obtain ⟨⟨digits, after⟩, followed, same⟩ := Option.map_eq_some_iff.1 found
    cases same
    exact unsigned?_takes followed

theorem keyword?_takes (found : keyword? input = some (token, rest)) : Takes input rest :=
  spelling_takes (by decide) afterWord?_takes found

theorem string?_takes (found : string? input = some (token, rest)) : Takes input rest := by
  obtain ⟨⟨text, after⟩, closed, same⟩ := Option.map_eq_some_iff.1 found
  cases same
  exact quoted?_takes closed

theorem word?_takes (found : word? input = some (token, rest)) : Takes input rest := by
  unfold word? at found
  split at found
  · cases found
  · next taken =>
      cases found
      exact dropWhile_takes taken

theorem next?_takes (found : next? input = some (token, rest)) : Takes input rest := by
  simp only [next?, Option.orElse_eq_orElse, Option.orElse_eq_or, Option.or_eq_some_iff] at found
  rcases found with found | ⟨_, found | ⟨_, found | ⟨_, found | ⟨_, found | ⟨_, found | ⟨_, found⟩⟩⟩⟩⟩⟩
  · exact typed?_takes found
  · exact group?_takes found
  · exact operator?_takes found
  · exact number?_takes found
  · exact keyword?_takes found
  · exact string?_takes found
  · exact word?_takes found

end

theorem length_next? {input rest : List Char} {token : Token}
    (found : next? input = some (token, rest)) : rest.length < input.length :=
  (next?_takes found).length_lt

/-- The tokens of a text, with blanks between them, or the rest at which no token begins. -/
def scan (input : List Char) : Except (List Char) (List Token) :=
  match start : Text.dropBlanks input with
  | [] => .ok []
  | first :: later =>
      match found : next? (first :: later) with
      | none => .error (first :: later)
      | some (token, rest) =>
          have : rest.length < input.length := by
            have shorter := length_next? found
            have trimmed := Text.length_dropBlanks_le input
            rw [start] at trimmed
            omega
          (token :: ·) <$> scan rest
termination_by input.length

section

variable {input later rest : List Char} {first : Char} {token : Token}

theorem scan_nil (start : Text.dropBlanks input = []) : scan input = .ok [] := by
  rw [scan]
  split
  · rfl
  · next other => simp [start] at other

theorem scan_stuck (start : Text.dropBlanks input = first :: later)
    (missing : next? (first :: later) = none) : scan input = .error (first :: later) := by
  rw [scan]
  split
  · next empty => simp [start] at empty
  · next same =>
      rw [start] at same
      cases same
      split
      · rfl
      · next found => simp [missing] at found

theorem scan_step (start : Text.dropBlanks input = first :: later)
    (found : next? (first :: later) = some (token, rest)) :
    scan input = (token :: ·) <$> scan rest := by
  rw [scan]
  split
  · next empty => simp [start] at empty
  · next same =>
      rw [start] at same
      cases same
      split
      · next missing => simp [found] at missing
      · next again =>
          rw [found] at again
          cases again
          rfl

theorem scan_congr {other : List Char} (same : Text.dropBlanks input = Text.dropBlanks other) :
    scan input = scan other := by
  cases start : Text.dropBlanks other with
  | nil => rw [scan_nil start, scan_nil (same.trans start)]
  | cons first later =>
      cases found : next? (first :: later) with
      | none => rw [scan_stuck start found, scan_stuck (same.trans start) found]
      | some step => rw [scan_step start found, scan_step (same.trans start) found]

end

end FactRules.Token
