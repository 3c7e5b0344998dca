import FactRules.Proofs.RegularExpressions
import FactRules.Value.Comparison
import Mathlib.Data.List.Forall2

/-!
What patterns match. The expression that a pattern becomes can always be built: whatever has a
meaning in an expression is escaped. It matches a text exactly if a beginning of the text is cut into
one run for each character of the pattern.
-/

namespace FactRules

namespace Pattern

inductive StandsFor (alike : Char → Char → Prop) : Char → List Char → Prop where
  | star (run : List Char) : StandsFor alike '*' run
  | question (character : Char) : StandsFor alike '?' [character]
  | letter {symbol character : Char} (notStar : symbol ≠ '*') (notQuestion : symbol ≠ '?')
      (isAlike : alike symbol character) : StandsFor alike symbol [character]

/-- A beginning of the text consists of one run for each character of the pattern. -/
def Matches (alike : Char → Char → Prop) (pattern text : List Char) : Prop :=
  ∃ runs, List.Forall₂ (StandsFor alike) pattern runs ∧ runs.flatten <+: text

def part : Char → Regex.Part
  | '*' => .many .any
  | '?' => .one .any
  | other => .one (.letter other)

theorem units?_escape (character : Char) (rest : List Char) :
    Regex.units? (Regex.escape character ++ rest) =
      (Regex.units? rest).map (.symbol (.letter character) :: ·) := by
  unfold Regex.escape
  split
  · next special =>
      have notStart : character ≠ 'A' := by
        rintro rfl
        revert special
        decide
      rw [List.cons_append, List.singleton_append, Regex.units?, if_pos special]
      exact fun same => absurd same notStart
  · next plain =>
      have notOperator : ¬ Regex.operators.contains character := by
        intro operator
        refine plain ?_
        rw [Regex.punctuation, List.contains_iff_mem, List.mem_append]
        exact .inl (List.contains_iff_mem.1 operator)
      have differs (operator : Char) (member : Regex.operators.contains operator = true) :
          character ≠ operator := by
        rintro rfl
        exact notOperator member
      rw [List.singleton_append, Regex.units?, if_neg notOperator]
      · exact fun _ same => absurd same (differs '\\' (by decide))
      · exact fun _ _ same => absurd same (differs '\\' (by decide))
      · exact fun same => differs '.' (by decide) same
      · exact fun same => differs '*' (by decide) same

theorem part_of_letter {character : Char} (notStar : character ≠ '*')
    (notQuestion : character ≠ '?') :
    part character = .one (.letter character) ∧ translated character = Regex.escape character := by
  constructor
  · rw [part]
    · exact fun same => notStar same
    · exact fun same => notQuestion same
  · rw [translated]
    · exact fun same => notStar same
    · exact fun same => notQuestion same

theorem units?_translated (character : Char) (rest : List Char) :
    Regex.units? (translated character ++ rest) =
      (Regex.units? rest).map ((part character).units ++ ·) := by
  by_cases star : character = '*'
  · subst star
    exact Option.map_map ..
  · by_cases question : character = '?'
    · subst question
      rfl
    · obtain ⟨isPart, isEscaped⟩ := part_of_letter star question
      rw [isPart, isEscaped, units?_escape]
      rfl

theorem units?_flatMap (pattern : List Char) :
    Regex.units? (pattern.flatMap translated) =
      some ((pattern.map part).flatMap Regex.Part.units) := by
  induction pattern with
  | nil => rfl
  | cons character pattern ih =>
      rw [List.flatMap_cons, units?_translated, ih, Option.map_some, List.map_cons,
        List.flatMap_cons]

theorem compiled_eq (pattern : String) (caseless : Bool) :
    compiled pattern caseless = .ok ⟨.start :: pattern.toList.map part, caseless, true⟩ := by
  have read : Regex.units? (source pattern.toList) =
      some ((Regex.Part.start :: pattern.toList.map part).flatMap Regex.Part.units) := by
    rw [source, List.cons_append, List.singleton_append, Regex.units?, units?_flatMap]
    rfl
  rw [compiled, Regex.build, read, Option.bind_some, Regex.parts?_units]

section

variable {regex : Regex} {alike : Char → Char → Prop}
  (agrees : ∀ expected found, regex.takes (.letter expected) found = true ↔ alike expected found)
  (anyCharacter : regex.dotMatchesNewLine = true)

include agrees anyCharacter

theorem spans_part_iff {symbol : Char} {before run : List Char} :
    (part symbol).Spans regex before run ↔ StandsFor alike symbol run := by
  have takesAny (character : Char) : regex.takes .any character = true := by
    rw [Regex.takes, anyCharacter, Bool.true_or]
  by_cases star : symbol = '*'
  · subst star
    constructor
    · intro _
      exact .star run
    · intro _
      exact .many before fun character _ => takesAny character
  · by_cases question : symbol = '?'
    · subst question
      constructor
      · intro spans
        cases spans with
        | one _ _ => exact .question _
      · intro standsFor
        cases standsFor with
        | question character => exact .one before (takesAny character)
        | letter _ notQuestion _ => exact absurd rfl notQuestion
    · rw [(part_of_letter star question).1]
      constructor
      · intro spans
        cases spans with
        | one _ taken => exact .letter star question ((agrees _ _).1 taken)
      · intro standsFor
        cases standsFor with
        | star => exact absurd rfl star
        | question => exact absurd rfl question
        | letter _ _ isAlike => exact .one before ((agrees _ _).2 isAlike)

theorem spans_parts_iff {pattern before run : List Char} :
    regex.Spans (pattern.map part) before run ↔
      ∃ runs, List.Forall₂ (StandsFor alike) pattern runs ∧ runs.flatten = run := by
  induction pattern generalizing before run with
  | nil =>
      constructor
      · rintro ⟨⟩
        exact ⟨[], .nil, rfl⟩
      · rintro ⟨_, ⟨⟩, rfl⟩
        exact .nil before
  | cons symbol pattern ih =>
      constructor
      · intro spans
        cases spans with
        | cons first rest =>
            obtain ⟨runs, standFor, rfl⟩ := ih.1 rest
            have standsFor := (spans_part_iff agrees anyCharacter).1 first
            exact ⟨_ :: runs, .cons standsFor standFor, rfl⟩
      · rintro ⟨_, standFor, rfl⟩
        cases standFor with
        | cons standsFor standFor =>
            rw [List.flatten_cons]
            refine .cons ((spans_part_iff agrees anyCharacter).2 standsFor) ?_
            exact ih.2 ⟨_, standFor, rfl⟩

theorem matches_iff {pattern text : List Char} (parts : regex.parts = .start :: pattern.map part) :
    regex.Matches text ↔ Matches alike pattern text := by
  rw [Regex.Matches, parts]
  constructor
  · rintro ⟨before, _, after, rfl, spans⟩
    cases spans with
    | cons atBeginning rest =>
        cases atBeginning
        obtain ⟨runs, standFor, rfl⟩ := (spans_parts_iff agrees anyCharacter).1 rest
        exact ⟨runs, standFor, List.prefix_append _ after⟩
  · rintro ⟨runs, standFor, after, rfl⟩
    have rest : regex.Spans (pattern.map part) [] runs.flatten :=
      (spans_parts_iff agrees anyCharacter).2 ⟨runs, standFor, rfl⟩
    exact ⟨[], runs.flatten, after, rfl, .cons .start rest⟩

end

end Pattern

namespace Value

theorem matchesPattern_iff {alike : Char → Char → Prop} {caseless : Bool} (pattern text : String)
    (agrees : ∀ expected found,
      (if caseless then Text.sameLetter expected found else expected = found) = true ↔
        alike expected found) :
    ∃ answer, (Value.string text).matchesPattern caseless (.string pattern) = .ok answer ∧
      (answer = true ↔ Pattern.Matches alike pattern.toList text.toList) := by
  let regex : Regex := ⟨.start :: pattern.toList.map Pattern.part, caseless, true⟩
  have takesAlike : ∀ expected found,
      regex.takes (.letter expected) found = true ↔ alike expected found := agrees
  refine ⟨regex.isMatch text.toList, ?_, ?_⟩
  · rw [matchesPattern, Pattern.compiled_eq]
    rfl
  · rw [Regex.isMatch_iff]
    exact Pattern.matches_iff takesAlike rfl rfl

/-- `like` always answers for a text and a pattern, and it matches as much of the text as the
pattern accounts for, where letters stand for themselves. `cilike` does the same with letters that
fold alike. -/
theorem satisfies_like (pattern text : String) :
    (∃ answer, (Value.string text).satisfies .like (.string pattern) = .ok answer ∧
      (answer = true ↔ Pattern.Matches Eq pattern.toList text.toList)) ∧
    ∃ answer, (Value.string text).satisfies .caselessLike (.string pattern) = .ok answer ∧
      (answer = true ↔ Pattern.Matches
        (fun expected found => Text.foldCase expected = Text.foldCase found)
        pattern.toList text.toList) := by
  constructor
  · exact matchesPattern_iff pattern text fun _ _ => decide_eq_true_iff
  · exact matchesPattern_iff pattern text fun _ _ => decide_eq_true_iff

example : (Value.string "a.\n+bc").satisfies .like (.string "A.?+*B") = .ok false ∧
    (Value.string "a.\n+bc").satisfies .caselessLike (.string "A.?+*B") = .ok true := ⟨rfl, rfl⟩

end Value

end FactRules
