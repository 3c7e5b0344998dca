/-!
ASCII letter case. Keywords and flags are recognised in any case of their ASCII letters.
-/

namespace FactRules.Text

def lowerAscii (text : String) : String :=
  String.ofList (text.toList.map Char.toLower)

def upperAscii (text : String) : String :=
  String.ofList (text.toList.map Char.toUpper)

def sameWord (left right : List Char) : Bool :=
  left.map Char.toLower = right.map Char.toLower

end FactRules.Text
