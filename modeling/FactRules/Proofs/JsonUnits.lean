import FactRules.Json.Writer
import FactRules.Proofs.Numerals
import Mathlib.Data.List.Forall2

/-!
The lexical units of JSON as it is written. Each string, each whole number and each container is
read as its units wherever it stands, as long as a mark or nothing follows it.
-/

namespace FactRules

theorem Text.toDigits_eq_cons {value : Nat} (positive : 0 < value) :
    ∃ first later, Nat.toDigits 10 value = first :: later ∧ first ≠ '0' := by
  induction value using Nat.strongRecOn with
  | ind value ih =>
      by_cases single : value < 10
      · refine ⟨Nat.digitChar value, [], Nat.toDigits_of_lt_base single, ?_⟩
        have nonzero : ∀ digit < 10, 0 < digit → Nat.digitChar digit ≠ '0' := by decide
        exact nonzero value single positive
      · obtain ⟨first, later, digits, nonzero⟩ := ih (value / 10) (by omega) (by omega)
        refine ⟨first, later ++ [Nat.digitChar (value % 10)], ?_, nonzero⟩
        rw [Nat.toDigits_of_base_le (by decide) (by omega), digits, List.cons_append]

namespace Json

def Follows (rest : List Char) : Prop :=
  ∀ character ∈ rest.head?, character = ',' ∨ character = ']' ∨ character = '\x7d'

/-- In front of whatever may follow it, the text is read as these units. -/
def ReadAs (text : List Char) (units : List Lexeme) : Prop :=
  ∀ rest, Follows rest → Lexeme.scan (text ++ rest) = (Lexeme.scan rest).map (units ++ ·)

namespace Lexeme

theorem scan_cons {character : Char} {input rest : List Char} {lexeme : Lexeme}
    (printed : isBlank character = false)
    (found : next? (character :: input) = some (lexeme, rest)) :
    scan (character :: input) = (scan rest).map (lexeme :: ·) := by
  have start : (character :: input).dropWhile isBlank = character :: input :=
    List.dropWhile_cons_of_neg (by simp [printed])
  rw [scan]
  split
  · next empty => rw [start] at empty; cases empty
  · next first later same =>
      obtain ⟨rfl, rfl⟩ := List.cons.inj (start.symm.trans same)
      split
      · next none => rw [found] at none; cases none
      · next other after also =>
          rw [found] at also
          cases also
          rfl

theorem scan_mark {character : Char} {lexeme : Lexeme} (printed : isBlank character = false)
    (found : ∀ input, next? (character :: input) = some (lexeme, input)) (rest : List Char) :
    scan (character :: rest) = (scan rest).map (lexeme :: ·) :=
  scan_cons printed (found rest)

section

variable {rest : List Char}

theorem fraction?_of_follows (follows : Follows rest) : fraction? rest = some ([], rest) := by
  cases rest with
  | nil => rfl
  | cons character later => rcases follows character rfl with rfl | rfl | rfl <;> rfl

theorem exponent?_of_follows (follows : Follows rest) : exponent? rest = some (none, rest) := by
  cases rest with
  | nil => rfl
  | cons character later => rcases follows character rfl with rfl | rfl | rfl <;> rfl

theorem takeWhile_isDigit_of_follows (follows : Follows rest) :
    rest.takeWhile Char.isDigit = [] ∧ rest.dropWhile Char.isDigit = rest := by
  cases rest with
  | nil => exact ⟨rfl, rfl⟩
  | cons character later => rcases follows character rfl with rfl | rfl | rfl <;> exact ⟨rfl, rfl⟩

theorem whole?_toDigits (value : Nat) (follows : Follows rest) :
    whole? (Nat.toDigits 10 value ++ rest) = some (Nat.toDigits 10 value, rest) := by
  rcases Nat.eq_zero_or_pos value with rfl | positive
  · rfl
  · obtain ⟨first, later, digits, nonzero⟩ := Text.toDigits_eq_cons positive
    have read : digits? (Nat.toDigits 10 value ++ rest) =
        some (Nat.toDigits 10 value, rest) := by
      obtain ⟨taken, left⟩ := takeWhile_isDigit_of_follows follows
      have allDigits := Text.allDigits_toDigits value
      rw [digits?, Text.takeWhile_digits allDigits, Text.dropWhile_digits allDigits, taken, left,
        List.append_nil]
      simp
    rw [digits, List.cons_append] at read ⊢
    unfold whole?
    split
    · next same => exact absurd (List.cons.inj same).1 nonzero
    · exact read

theorem unsigned?_toDigits (negative : Bool) (value : Nat) (follows : Follows rest) :
    unsigned? negative (Nat.toDigits 10 value ++ rest) =
      some (⟨negative, Nat.toDigits 10 value, [], none⟩, rest) := by
  simp only [unsigned?, whole?_toDigits value follows, fraction?_of_follows follows,
    exponent?_of_follows follows, Option.bind_eq_bind, Option.bind_some]

theorem next?_of_isDigit {first : Char} {later : List Char} (digit : first.isDigit = true) :
    next? (first :: later) =
      (unsigned? false (first :: later)).map fun (numeral, rest) => (.number numeral, rest) := by
  have isOne := Text.mem_digits digit
  simp only [List.mem_cons, List.not_mem_nil, or_false] at isOne
  rcases isOne with rfl | rfl | rfl | rfl | rfl | rfl | rfl | rfl | rfl | rfl <;> rfl

end

end Lexeme

open Lexeme

theorem isBlank_of_isDigit {character : Char} (digit : character.isDigit = true) :
    isBlank character = false := by
  have isOne := Text.mem_digits digit
  simp only [List.mem_cons, List.not_mem_nil, or_false] at isOne
  rcases isOne with rfl | rfl | rfl | rfl | rfl | rfl | rfl | rfl | rfl | rfl <;> rfl

theorem readAs_natural (value : Nat) :
    ReadAs (Nat.toDigits 10 value) [.number ⟨false, Nat.toDigits 10 value, [], none⟩] := by
  intro rest follows
  have read := unsigned?_toDigits false value follows
  have allDigits := Text.allDigits_toDigits value
  cases digits : Nat.toDigits 10 value with
  | nil => exact absurd digits Nat.toDigits_ne_nil
  | cons first later =>
      rw [digits] at read allDigits
      have digit := allDigits first List.mem_cons_self
      rw [List.cons_append] at read ⊢
      refine scan_cons (isBlank_of_isDigit digit) ?_
      rw [next?_of_isDigit digit, read, Option.map_some]

theorem readAs_negative (value : Nat) :
    ReadAs ('-' :: Nat.toDigits 10 value) [.number ⟨true, Nat.toDigits 10 value, [], none⟩] := by
  intro rest follows
  have read := congrArg (Option.map fun (numeral, rest) => (Lexeme.number numeral, rest))
    (unsigned?_toDigits true value follows)
  exact scan_cons rfl read

structure Spelled (characters : List Char) (pieces : List Piece) : Prop where
  read : ∀ rest, pieces? (characters.flatMap escapedCharacter ++ '"' :: rest) = some (pieces, rest)
  meaning : Piece.decode? pieces = some characters

structure SpelledCharacter (character : Char) (piece : Piece) : Prop where
  read : ∀ rest, pieces? (escapedCharacter character ++ rest) =
    (pieces? rest).map fun (later, after) => (piece :: later, after)
  meaning : ∀ later, Piece.decode? (piece :: later) = (Piece.decode? later).map (character :: ·)

theorem unitOf?_control {code : Nat} (control : code < 0x20) :
    unitOf? ('0' :: '0' :: twoHexDigits code) = some code := by
  have each : ∀ code < 0x20, unitOf? ('0' :: '0' :: twoHexDigits code) = some code := by decide
  exact each code control

theorem spelledCharacter_control {character : Char} (control : character.toNat < 0x20)
    (escaped : escapedCharacter character =
      '\\' :: 'u' :: '0' :: '0' :: twoHexDigits character.toNat) :
    SpelledCharacter character (.unit character.toNat) where
  read rest := by
    rw [escaped]
    simp only [twoHexDigits, List.cons_append, List.nil_append, pieces?]
    rw [show unitOf? ['0', '0', Nat.digitChar (character.toNat / 16),
      Nat.digitChar (character.toNat % 16)] = some character.toNat from unitOf?_control control]
    cases pieces? rest <;> rfl
  meaning later := by
    have notLeading : Piece.isLeading character.toNat = false := by
      simp only [Piece.isLeading, Bool.and_eq_false_iff, decide_eq_false_iff_not]
      omega
    have notTrailing : Piece.isTrailing character.toNat = false := by
      simp only [Piece.isTrailing, Bool.and_eq_false_iff, decide_eq_false_iff_not]
      omega
    rcases later with _ | ⟨_ | _, later⟩ <;>
      simp [Piece.decode?, notLeading, notTrailing, Char.ofNat_toNat]

theorem spelledCharacter_letter {character letter : Char}
    (escaped : escapedCharacter character = ['\\', letter])
    (named : escaped? letter = some character) : SpelledCharacter character (.plain character) where
  read rest := by
    have notUnit : letter ≠ 'u' := by
      rintro rfl
      cases named
    rw [escaped, List.cons_append, List.singleton_append, pieces?, named]
    · cases pieces? rest <;> rfl
    · exact fun _ _ _ _ _ isUnit => absurd isUnit notUnit
  meaning later := by rw [Piece.decode?]

theorem spelledCharacter_plain {character : Char} (printed : ¬ character.toNat < 0x20)
    (notQuote : character ≠ '"') (notBackslash : character ≠ '\\')
    (escaped : escapedCharacter character = [character]) :
    SpelledCharacter character (.plain character) where
  read rest := by
    rw [escaped, List.singleton_append, pieces?, if_neg (by simp [printed, notBackslash])]
    · cases pieces? rest <;> rfl
    all_goals simp [notQuote, notBackslash]
  meaning later := by rw [Piece.decode?]

theorem exists_spelledCharacter (character : Char) : ∃ piece, SpelledCharacter character piece := by
  fun_cases escapedCharacter character
  case case8 control _ _ _ _ _ _ _ =>
    refine ⟨_, spelledCharacter_control control ?_⟩
    rw [escapedCharacter, if_pos control] <;> assumption
  case case9 printed notQuote notBackslash _ _ _ _ _ =>
    refine ⟨_, spelledCharacter_plain printed notQuote notBackslash ?_⟩
    rw [escapedCharacter, if_neg printed] <;> assumption
  all_goals exact ⟨_, spelledCharacter_letter rfl rfl⟩

theorem exists_spelled (characters : List Char) : ∃ pieces, Spelled characters pieces := by
  induction characters with
  | nil => exact ⟨[], fun rest => rfl, rfl⟩
  | cons character characters ih =>
      obtain ⟨piece, first⟩ := exists_spelledCharacter character
      obtain ⟨pieces, later⟩ := ih
      refine ⟨piece :: pieces, fun rest => ?_, ?_⟩
      · rw [List.flatMap_cons, List.append_assoc, first.read, later.read, Option.map_some]
      · rw [first.meaning, later.meaning, Option.map_some]

section

variable {text : String} {pieces : List Piece}

theorem Spelled.text?_eq (spelled : Spelled text.toList pieces) :
    Piece.text? pieces = some text := by
  rw [Piece.text?, spelled.meaning, Option.map_some, String.ofList_toList]

theorem Spelled.scan_stringText (spelled : Spelled text.toList pieces) (rest : List Char) :
    scan (stringText text ++ rest) = (scan rest).map (.string pieces :: ·) := by
  rw [stringText, List.append_assoc, List.cons_append, List.singleton_append]
  refine scan_cons rfl ?_
  exact congrArg (Option.map fun (pieces, rest) => (Lexeme.string pieces, rest)) (spelled.read rest)

theorem Spelled.readAs (spelled : Spelled text.toList pieces) :
    ReadAs (stringText text) [.string pieces] :=
  fun rest _ => spelled.scan_stringText rest

end

section

variable {texts : List (List Char)} {units : List (List Lexeme)}

theorem intercalate_cons {α : Type} (separator : α) (first : List α) (later : List (List α)) :
    [separator].intercalate (first :: later) = first ++ later.flatMap (separator :: ·) := by
  induction later generalizing first with
  | nil => simp
  | cons second later ih =>
      rw [List.intercalate_cons_cons, ih, List.flatMap_cons, List.append_assoc,
        List.singleton_append, List.cons_append]

theorem follows_commas {rest : List Char} (follows : Follows rest) :
    Follows (texts.flatMap (',' :: ·) ++ rest) := by
  cases texts with
  | nil => exact follows
  | cons text texts =>
      intro character first
      rw [List.flatMap_cons, List.cons_append, List.cons_append] at first
      exact .inl (Option.some.inj first).symm

theorem scan_commas (each : List.Forall₂ ReadAs texts units) {rest : List Char}
    (follows : Follows rest) :
    scan (texts.flatMap (',' :: ·) ++ rest) =
      (scan rest).map (units.flatMap (Lexeme.comma :: ·) ++ ·) := by
  induction each with
  | nil => simp
  | @cons text unit texts units reads _ ih =>
      have comma (input : List Char) : scan (',' :: input) = (scan input).map (.comma :: ·) :=
        scan_mark rfl (fun _ => rfl) input
      rw [List.flatMap_cons, List.append_assoc, List.cons_append, comma,
        reads _ (follows_commas follows), ih]
      simp [Function.comp_def]

theorem readAs_enclosed (each : List.Forall₂ ReadAs texts units) {first last : Char}
    {opening closing : Lexeme}
    (opens : ∀ rest, scan (first :: rest) = (scan rest).map (opening :: ·))
    (closes : ∀ rest, scan (last :: rest) = (scan rest).map (closing :: ·))
    (follows : ∀ rest, Follows (last :: rest)) :
    ReadAs (first :: [','].intercalate texts ++ [last])
      (opening :: [Lexeme.comma].intercalate units ++ [closing]) := by
  intro rest _
  rw [List.append_assoc, List.cons_append, opens, List.singleton_append]
  cases each with
  | nil => simp [closes, Function.comp_def]
  | cons reads later =>
      rw [intercalate_cons, intercalate_cons, List.append_assoc,
        reads _ (follows_commas (follows rest)), scan_commas later (follows rest), closes]
      simp [Function.comp_def]

end

end Json

end FactRules
