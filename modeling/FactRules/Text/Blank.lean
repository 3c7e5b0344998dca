/-!
Blanks: the characters that separate words, which are those with the Unicode property White_Space.
-/

namespace FactRules.Text

/-- Tab to carriage return, space, next line, no-break space and the other Unicode spaces. -/
def isBlank (character : Char) : Bool :=
  let code := character.toNat
  (9 ≤ code && code ≤ 13) || code = 0x20 || code = 0x85 || code = 0xA0 || code = 0x1680 ||
    (0x2000 ≤ code && code ≤ 0x200A) || code = 0x2028 || code = 0x2029 || code = 0x202F ||
    code = 0x205F || code = 0x3000

theorem isBlank_of_isWhitespace (character : Char) (blank : character.isWhitespace = true) :
    isBlank character = true := by
  have cases : character = ' ' ∨ character = '\t' ∨ character = '\r' ∨ character = '\n' := by
    simpa [Char.isWhitespace, or_assoc] using blank
  rcases cases with same | same | same | same <;> rw [same] <;> decide

def dropBlanks (characters : List Char) : List Char :=
  characters.dropWhile isBlank

theorem length_dropBlanks_le (characters : List Char) :
    (dropBlanks characters).length ≤ characters.length :=
  (List.dropWhile_sublist isBlank).length_le

def trim (characters : List Char) : List Char :=
  (dropBlanks (dropBlanks characters).reverse).reverse

def trimmed (text : String) : String :=
  String.ofList (trim text.toList)

end FactRules.Text
