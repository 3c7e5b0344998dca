import FactRules.Json.Tree

/-!
The lexical units of JSON: marks, words, numerals and strings, with blanks between them.
-/

namespace FactRules.Json

inductive Lexeme where
  | openArray
  | closeArray
  | openObject
  | closeObject
  | comma
  | colon
  | null
  | bool (value : Bool)
  | number (numeral : Numeral)
  | string (pieces : List Piece)
  deriving DecidableEq

namespace Lexeme

def isBlank (character : Char) : Bool :=
  character = ' ' || character = '\n' || character = '\t' || character = '\r'

def isHexDigit (character : Char) : Bool :=
  character.isDigit || ('a' ≤ character && character ≤ 'f') || ('A' ≤ character && character ≤ 'F')

def hexValue (character : Char) : Nat :=
  if character.isDigit then character.toNat - '0'.toNat
  else character.toLower.toNat - 'a'.toNat + 10

def unitOf? (digits : List Char) : Option Nat :=
  if digits.all isHexDigit then
    some (digits.foldl (fun code digit => 16 * code + hexValue digit) 0)
  else none

def escaped? : Char → Option Char
  | '"' => some '"'
  | '\\' => some '\\'
  | '/' => some '/'
  | 'b' => some '\x08'
  | 'f' => some '\x0c'
  | 'n' => some '\n'
  | 'r' => some '\r'
  | 't' => some '\t'
  | _ => none

def pieces? : List Char → Option (List Piece × List Char)
  | [] => none
  | '"' :: rest => some ([], rest)
  | '\\' :: 'u' :: first :: second :: third :: fourth :: rest => do
      let code ← unitOf? [first, second, third, fourth]
      let (later, rest) ← pieces? rest
      some (.unit code :: later, rest)
  | '\\' :: letter :: rest => do
      let character ← escaped? letter
      let (later, rest) ← pieces? rest
      some (.plain character :: later, rest)
  | character :: rest =>
      if character.toNat < 0x20 || character = '\\' then none
      else do
        let (later, rest) ← pieces? rest
        some (.plain character :: later, rest)

def digits? (input : List Char) : Option (List Char × List Char) :=
  if (input.takeWhile Char.isDigit).isEmpty then none
  else some (input.takeWhile Char.isDigit, input.dropWhile Char.isDigit)

def whole? : List Char → Option (List Char × List Char)
  | '0' :: rest => some (['0'], rest)
  | input => digits? input

def fraction? : List Char → Option (List Char × List Char)
  | '.' :: rest => digits? rest
  | input => some ([], input)

def sign : List Char → Bool × List Char
  | '+' :: rest => (false, rest)
  | '-' :: rest => (true, rest)
  | input => (false, input)

def exponent? : List Char → Option (Option (Bool × List Char) × List Char)
  | [] => some (none, [])
  | mark :: rest =>
      if mark = 'e' || mark = 'E' then do
        let (negative, unsigned) := sign rest
        let (digits, rest) ← digits? unsigned
        some (some (negative, digits), rest)
      else some (none, mark :: rest)

def unsigned? (negative : Bool) (input : List Char) : Option (Numeral × List Char) := do
  let (whole, rest) ← whole? input
  let (fraction, rest) ← fraction? rest
  let (exponent, rest) ← exponent? rest
  some ({ negative, whole, fraction, exponent }, rest)

def numeral? : List Char → Option (Numeral × List Char)
  | '-' :: rest => unsigned? true rest
  | input => unsigned? false input

def next? : List Char → Option (Lexeme × List Char)
  | '[' :: rest => some (.openArray, rest)
  | ']' :: rest => some (.closeArray, rest)
  | '\x7b' :: rest => some (.openObject, rest)
  | '\x7d' :: rest => some (.closeObject, rest)
  | ',' :: rest => some (.comma, rest)
  | ':' :: rest => some (.colon, rest)
  | 'n' :: 'u' :: 'l' :: 'l' :: rest => some (.null, rest)
  | 't' :: 'r' :: 'u' :: 'e' :: rest => some (.bool true, rest)
  | 'f' :: 'a' :: 'l' :: 's' :: 'e' :: rest => some (.bool false, rest)
  | '"' :: rest => (pieces? rest).map fun (pieces, rest) => (.string pieces, rest)
  | input => (numeral? input).map fun (numeral, rest) => (.number numeral, rest)

theorem length_pieces? {input rest : List Char} {pieces : List Piece}
    (found : pieces? input = some (pieces, rest)) : rest.length < input.length := by
  fun_induction pieces? input generalizing pieces rest with
  | case1 => simp at found
  | case2 => simp_all
  | case3 first second third fourth input ih =>
      simp only [Option.bind_eq_bind, Option.bind_eq_some_iff] at found
      obtain ⟨code, _, ⟨later, after⟩, inner, same⟩ := found
      have := ih inner
      simp_all
      omega
  | case4 letter input _ ih =>
      simp only [Option.bind_eq_bind, Option.bind_eq_some_iff] at found
      obtain ⟨character, _, ⟨later, after⟩, inner, same⟩ := found
      have := ih inner
      simp_all
      omega
  | case5 => simp at found
  | case6 character input _ _ _ _ ih =>
      simp only [Option.bind_eq_bind, Option.bind_eq_some_iff] at found
      obtain ⟨⟨later, after⟩, inner, same⟩ := found
      have := ih inner
      simp_all
      omega

theorem length_digits? {input digits rest : List Char}
    (found : digits? input = some (digits, rest)) : rest.length < input.length := by
  unfold digits? at found
  split at found
  · simp at found
  · next taken =>
      simp only [Option.some.injEq, Prod.mk.injEq] at found
      have parts := congrArg List.length
        (List.takeWhile_append_dropWhile (p := Char.isDigit) (l := input))
      have positive : 0 < (input.takeWhile Char.isDigit).length := by
        apply List.length_pos_iff.2
        simpa using taken
      rw [List.length_append] at parts
      rw [← found.2]
      omega

theorem length_whole? {input digits rest : List Char}
    (found : whole? input = some (digits, rest)) : rest.length < input.length := by
  unfold whole? at found
  split at found
  · simp_all
  · exact length_digits? found

theorem length_fraction? {input digits rest : List Char}
    (found : fraction? input = some (digits, rest)) : rest.length ≤ input.length := by
  unfold fraction? at found
  split at found
  · have := length_digits? found
    simp only [List.length_cons]
    omega
  · simp_all

theorem length_sign (input : List Char) : (sign input).2.length ≤ input.length := by
  unfold sign
  split <;> simp

theorem length_exponent? {input rest : List Char} {exponent : Option (Bool × List Char)}
    (found : exponent? input = some (exponent, rest)) : rest.length ≤ input.length := by
  cases input with
  | nil => simp_all [exponent?]
  | cons mark input =>
      simp only [exponent?] at found
      split at found
      · simp only [Option.bind_eq_bind, Option.bind_eq_some_iff] at found
        obtain ⟨⟨digits, after⟩, inner, same⟩ := found
        have shorter := length_digits? inner
        have signed := length_sign input
        simp only [Option.some.injEq, Prod.mk.injEq] at same
        rw [← same.2, List.length_cons]
        omega
      · simp_all

theorem length_unsigned? {negative : Bool} {input rest : List Char} {numeral : Numeral}
    (found : unsigned? negative input = some (numeral, rest)) : rest.length < input.length := by
  simp only [unsigned?, Option.bind_eq_bind, Option.bind_eq_some_iff] at found
  obtain ⟨⟨whole, afterWhole⟩, first, ⟨fraction, afterFraction⟩, second, ⟨exponent, after⟩, third,
    same⟩ := found
  have shorter := length_whole? first
  have fractionLe := length_fraction? second
  have exponentLe := length_exponent? third
  simp only [Option.some.injEq, Prod.mk.injEq] at same
  rw [← same.2]
  simp only at shorter fractionLe exponentLe
  omega

theorem length_numeral? {input rest : List Char} {numeral : Numeral}
    (found : numeral? input = some (numeral, rest)) : rest.length < input.length := by
  unfold numeral? at found
  split at found
  · have := length_unsigned? found
    simp only [List.length_cons]
    omega
  · exact length_unsigned? found

theorem length_next? {input rest : List Char} {lexeme : Lexeme}
    (found : next? input = some (lexeme, rest)) : rest.length < input.length := by
  unfold next? at found
  split at found
  case h_10 =>
    obtain ⟨⟨pieces, after⟩, inner, same⟩ := Option.map_eq_some_iff.1 found
    have := length_pieces? inner
    simp only [Prod.mk.injEq] at same
    rw [← same.2, List.length_cons]
    omega
  case h_11 =>
    obtain ⟨⟨numeral, after⟩, inner, same⟩ := Option.map_eq_some_iff.1 found
    have := length_numeral? inner
    simp only [Prod.mk.injEq] at same
    rw [← same.2]
    omega
  all_goals
    simp only [Option.some.injEq, Prod.mk.injEq] at found
    rw [← found.2]
    simp only [List.length_cons]
    omega

theorem length_dropBlanks_le (input : List Char) :
    (input.dropWhile isBlank).length ≤ input.length :=
  (List.dropWhile_sublist isBlank).length_le

def scan (input : List Char) : Option (List Lexeme) :=
  match start : input.dropWhile isBlank with
  | [] => some []
  | first :: later =>
      match found : next? (first :: later) with
      | none => none
      | some (lexeme, rest) =>
          have : rest.length < input.length := by
            have shorter := length_next? found
            have trimmed := length_dropBlanks_le input
            rw [start] at trimmed
            omega
          (scan rest).map (lexeme :: ·)
termination_by input.length

end Lexeme

end FactRules.Json
