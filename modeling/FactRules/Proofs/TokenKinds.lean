import FactRules.Proofs.Parentheses

/-!
Kinds of tokens. A token is a parenthesis, an operand, a NOT or an operator between two operands;
the kinds differ in what waits after the token and in what may come before and behind it. Among
tokens, a group is what is balanced between two parentheses.
-/

namespace FactRules

namespace Token

def waits? : Token → Option Pending
  | .openGroup => some .openGroup
  | .compare operator => some (.compare operator)
  | .word text => Pending.ofWord? text
  | _ => none

def operand? : Token → Option Operand
  | .constant literal => some (.literal literal)
  | .number text => (SharedCondition.Stacks.literalOfNumber? text).map .literal
  | .word text => if (Pending.ofWord? text).isNone then some (.key text) else none
  | _ => none

def isOperand : Token → Bool
  | .constant _ => true
  | .number _ => true
  | .word text => (Pending.ofWord? text).isNone
  | _ => false

def isLeaf (token : Token) : Bool :=
  token.isOperand || token.waits? = some .not

def begins (token : Token) : Bool :=
  token = .openGroup || token.isLeaf

def ends (token : Token) : Bool :=
  token = .closeGroup || token.isOperand

def isBinary (token : Token) : Bool :=
  token.isOperator && token.waits? ≠ some .not

def isParenthesis (token : Token) : Bool :=
  token = .openGroup || token = .closeGroup

theorem Balanced.nil : Balanced [] :=
  ⟨by simp, rfl⟩

theorem Balanced.append {first second : List Token} (firstBalanced : Balanced first)
    (secondBalanced : Balanced second) : Balanced (first ++ second) := by
  constructor
  · rintro front ⟨back, same⟩
    rcases List.append_eq_append_iff.1 same with ⟨later, inFirst, _⟩ | ⟨later, rfl, inSecond⟩
    · exact firstBalanced.upTo front ⟨later, inFirst.symm⟩
    · have upTo := secondBalanced.upTo later ⟨back, inSecond.symm⟩
      have total := firstBalanced.total
      simp only [List.count_append]
      omega
  · have firstTotal := firstBalanced.total
    have secondTotal := secondBalanced.total
    simp only [List.count_append]
    omega

theorem Balanced.single {token : Token} (notOpen : token ≠ .openGroup)
    (notClose : token ≠ .closeGroup) : Balanced [token] := by
  constructor
  · intro front isPrefix
    have none : front.count .closeGroup ≤ [token].count .closeGroup :=
      isPrefix.sublist.count_le _
    simp [notClose] at none
    omega
  · simp [notOpen, notClose]

theorem Balanced.group {inner : List Token} (balanced : Balanced inner) :
    Balanced (.openGroup :: (inner ++ [.closeGroup])) := by
  constructor
  · rintro (_ | ⟨first, front⟩) isPrefix
    · simp
    · obtain ⟨rfl, later⟩ := List.cons_prefix_cons.1 isPrefix
      rcases List.prefix_concat_iff.1 later with rfl | inInner
      · simp [balanced.total]
      · have upTo := balanced.upTo front inInner
        simp
        omega
  · simp [balanced.total]

section

variable {token : Token} {operator : Pending} {operand : Operand}

theorem isOperand_of_operand?
    (isOperand : token.operand? = some operand) : token.isOperand = true := by
  cases token with
  | constant | number => rfl
  | word text =>
      cases connective : Pending.ofWord? text with
      | none => simp [Token.isOperand, connective]
      | some operator => simp [operand?, connective] at isOperand
  | openGroup | closeGroup | compare => cases isOperand

theorem ne_marker_of_operand? (isOperand : token.operand? = some operand) : operand ≠ .marker := by
  rintro rfl
  cases token with
  | constant | openGroup | closeGroup | compare => cases isOperand
  | number => simp [operand?] at isOperand
  | word => simp [operand?] at isOperand

theorem balanced_of_operand? (isOperand : token.operand? = some operand) : Balanced [token] := by
  refine .single ?_ ?_
  · rintro rfl
    cases isOperand
  · rintro rfl
    cases isOperand

theorem not_isOperator_of_operand?
    (isOperand : token.operand? = some operand) : token.isOperator = false := by
  cases token with
  | word text =>
      cases connective : Pending.ofWord? text with
      | none => simp [isOperator, connective]
      | some operator => simp [operand?, connective] at isOperand
  | constant | number => rfl
  | openGroup | closeGroup | compare => cases isOperand

theorem eq_openGroup_of_waits? (waits : token.waits? = some .openGroup) : token = .openGroup := by
  cases token with
  | openGroup => rfl
  | word text => exact absurd rfl (SharedCondition.notGroup_of_ofWord? waits)
  | compare | closeGroup | constant | number => cases waits

theorem ne_closeGroup_of_waits? (waits : token.waits? = some operator) : token ≠ .closeGroup := by
  rintro rfl
  cases waits

theorem ne_openGroup_of_waits?
    (waits : token.waits? = some operator) (notGroup : operator ≠ .openGroup) :
    token ≠ .openGroup := by
  rintro rfl
  cases waits
  exact notGroup rfl

theorem isOperator_of_waits?
    (waits : token.waits? = some operator) (notGroup : operator ≠ .openGroup) :
    token.isOperator = true := by
  cases token with
  | openGroup =>
      cases waits
      exact absurd rfl notGroup
  | compare => rfl
  | word text => exact Option.isSome_of_eq_some waits
  | constant | closeGroup | number => cases waits

theorem isLeaf_of_waits? (waits : token.waits? = some operator) :
    token.isLeaf = decide (operator = .not) := by
  cases token with
  | openGroup | compare =>
      cases waits
      rfl
  | word text =>
      have connective : Pending.ofWord? text = some operator := waits
      simp [isLeaf, isOperand, waits?, connective]
  | constant | closeGroup | number => cases waits

theorem isOperand_of_waits? (waits : token.waits? = some operator) : token.isOperand = false := by
  cases token with
  | openGroup | compare => rfl
  | word text =>
      have connective : Pending.ofWord? text = some operator := waits
      simp [isOperand, connective]
  | closeGroup | constant | number => cases waits

theorem isBinary_of_operand?
    (isOperand : token.operand? = some operand) : token.isBinary = false := by
  simp [isBinary, not_isOperator_of_operand? isOperand]

theorem isBinary_of_negation (waits : token.waits? = some .not) : token.isBinary = false := by
  simp [isBinary, waits]

theorem isBinary_of_waits? (waits : token.waits? = some operator) (notNegation : operator ≠ .not) :
    token.isBinary = decide (operator ≠ .openGroup) := by
  by_cases isGroup : operator = .openGroup
  · subst isGroup
    rw [eq_openGroup_of_waits? waits]
    rfl
  · simp [isBinary, isOperator_of_waits? waits isGroup, waits, notNegation, isGroup]

theorem begins_of_waits? (waits : token.waits? = some operator) :
    token.begins = decide (operator = .openGroup ∨ operator = .not) := by
  by_cases isGroup : operator = .openGroup
  · subst isGroup
    rw [eq_openGroup_of_waits? waits]
    rfl
  · simp [begins, isLeaf_of_waits? waits, ne_openGroup_of_waits? waits isGroup, isGroup]

theorem ends_of_waits? (waits : token.waits? = some operator) : token.ends = false := by
  simp [ends, isOperand_of_waits? waits, ne_closeGroup_of_waits? waits]

/-- A token that does not begin an operand ends one or joins two. -/
theorem sum_kinds (token : Token) :
    token.isOperand.toNat + 1 = token.isBinary.toNat + token.ends.toNat + token.begins.toNat := by
  cases token with
  | openGroup | closeGroup | compare | constant | number => rfl
  | word text =>
      cases connective : Pending.ofWord? text with
      | none =>
          simp [isOperand, isBinary, isOperator, ends, begins, isLeaf, waits?, connective]
      | some operator =>
          by_cases isNegation : operator = .not
          · simp [isOperand, isBinary, isOperator, ends, begins, isLeaf, waits?, connective,
              isNegation]
          · simp [isOperand, isBinary, isOperator, ends, begins, isLeaf, waits?, connective,
              isNegation]

theorem eq_of_isParenthesis (isParenthesis : token.isParenthesis = true) :
    token = .openGroup ∨ token = .closeGroup := by
  simpa [Token.isParenthesis] using isParenthesis

theorem isLeaf_of_isParenthesis (isParenthesis : token.isParenthesis = true) :
    token.isLeaf = false := by
  rcases eq_of_isParenthesis isParenthesis with rfl | rfl <;> rfl

theorem isOperator_of_isParenthesis
    (isParenthesis : token.isParenthesis = true) : token.isOperator = false := by
  rcases eq_of_isParenthesis isParenthesis with rfl | rfl <;> rfl

theorem eq_openGroup_of_begins (begun : token.begins = true)
    (isParenthesis : token.isParenthesis = true) : token = .openGroup := by
  rcases eq_of_isParenthesis isParenthesis with rfl | rfl
  · rfl
  · cases begun

theorem eq_closeGroup_of_ends (ended : token.ends = true)
    (isParenthesis : token.isParenthesis = true) : token = .closeGroup := by
  rcases eq_of_isParenthesis isParenthesis with rfl | rfl
  · cases ended
  · rfl

theorem ne_openGroup_of_not_isParenthesis
    (notParenthesis : token.isParenthesis = false) : token ≠ .openGroup := by
  rintro rfl
  cases notParenthesis

theorem ne_closeGroup_of_not_isParenthesis
    (notParenthesis : token.isParenthesis = false) : token ≠ .closeGroup := by
  rintro rfl
  cases notParenthesis

theorem isOperator_of_not_isOperand (notParenthesis : token.isParenthesis = false)
    (notOperand : token.isOperand = false) : token.isOperator = true := by
  cases token with
  | openGroup | closeGroup => cases notParenthesis
  | constant | number => cases notOperand
  | compare => rfl
  | word text => simpa [isOperand, isOperator, Option.isSome_iff_ne_none] using notOperand

theorem isBinary_of_not_isLeaf (notParenthesis : token.isParenthesis = false)
    (notLeaf : token.isLeaf = false) : token.isBinary = true := by
  simp only [isLeaf, Bool.or_eq_false_iff, decide_eq_false_iff_not] at notLeaf
  simp [isBinary, isOperator_of_not_isOperand notParenthesis notLeaf.1, notLeaf.2]

end

/-- Of all groups that hold the place, the one between these places is the smallest. -/
def Innermost (tokens : List Token) (opened place closed : Nat) : Prop :=
  ∃ before inner token behind after,
    tokens = before ++ .openGroup :: (inner ++ token :: (behind ++ .closeGroup :: after)) ∧
    Balanced inner ∧ Balanced behind ∧ opened = before.length ∧
    place = opened + 1 + inner.length ∧ closed = place + 1 + behind.length

theorem Innermost.exists_before {front between back : List Token} {opened place closed : Nat}
    (innermost : Innermost (front ++ (between ++ back)) opened place closed)
    (isPlace : place = front.length + between.length) (inFront : opened < front.length) :
    ∃ inner, Balanced inner ∧ between <:+ inner := by
  obtain ⟨before, inner, token, behind, after, shape, balanced, _, rfl, same, _⟩ := innermost
  refine ⟨inner, balanced, ?_⟩
  have upTo : front ++ between = before ++ .openGroup :: inner := by
    have regrouped : front ++ between ++ back = before ++ .openGroup :: inner ++
        token :: (behind ++ .closeGroup :: after) := by simpa using shape
    refine (List.append_inj regrouped ?_).1
    simp only [List.length_append, List.length_cons]
    omega
  have lengths := congrArg List.length upTo
  simp only [List.length_append, List.length_cons] at lengths
  exact List.suffix_of_suffix_length_le ⟨front, upTo⟩ ⟨before ++ [.openGroup], by simp⟩ (by omega)

theorem Innermost.exists_behind {front between back : List Token} {opened place closed : Nat}
    (innermost : Innermost (front ++ (between ++ back)) opened place closed)
    (isPlace : place + 1 = front.length) (behind : front.length + between.length ≤ closed) :
    ∃ inner, Balanced inner ∧ between <+: inner := by
  obtain ⟨before, inner, token, later, after, shape, _, balanced, rfl, same, rfl⟩ := innermost
  refine ⟨later, balanced, ?_⟩
  have fromPlace : between ++ back = later ++ .closeGroup :: after := by
    have regrouped : front ++ (between ++ back) = before ++ .openGroup :: (inner ++ [token]) ++
        (later ++ .closeGroup :: after) := by simpa using shape
    refine (List.append_inj regrouped ?_).2
    simp only [List.length_append, List.length_cons, List.length_nil]
    omega
  exact List.prefix_of_prefix_length_le ⟨back, rfl⟩ ⟨.closeGroup :: after, fromPlace.symm⟩
    (by omega)

/-- Among parentheses that begin with the beginning of a group and end groups there is an empty
group. -/
theorem exists_empty_group {tokens : List Token}
    (parentheses : ∀ token ∈ tokens, token.isParenthesis = true)
    (closes : .closeGroup ∈ tokens) :
    [.openGroup, .closeGroup] <:+: Token.openGroup :: tokens := by
  induction tokens with
  | nil => cases closes
  | cons token tokens ih =>
      rcases eq_of_isParenthesis (parentheses token List.mem_cons_self) with rfl | rfl
      · have later : Token.closeGroup ∈ tokens := by simpa using closes
        exact List.infix_cons (ih (fun other member => parentheses other (by simp [member])) later)
      · exact ⟨[], tokens, rfl⟩

theorem Balanced.count_suffix {tokens back : List Token} (balanced : Balanced tokens)
    (isSuffix : back <:+ tokens) : back.count .openGroup ≤ back.count .closeGroup := by
  obtain ⟨front, rfl⟩ := isSuffix
  have upTo := balanced.upTo front (List.prefix_append front back)
  have total := balanced.total
  rw [List.count_append, List.count_append] at total
  omega

theorem Balanced.empty_of_back {tokens back : List Token} (balanced : Balanced tokens)
    (isSuffix : .openGroup :: back <:+ tokens)
    (parentheses : ∀ token ∈ back, token.isParenthesis = true) :
    [.openGroup, .closeGroup] <:+: Token.openGroup :: back := by
  have counts := balanced.count_suffix isSuffix
  refine exists_empty_group parentheses (List.count_pos_iff.1 ?_)
  simp at counts
  omega

theorem Balanced.empty_of_front {tokens front : List Token} (balanced : Balanced tokens)
    (isPrefix : front ++ [.closeGroup] <+: tokens)
    (parentheses : ∀ token ∈ front, token.isParenthesis = true) :
    [.openGroup, .closeGroup] <:+: front ++ [.closeGroup] := by
  have upTo := balanced.upTo _ isPrefix
  have opens : Token.openGroup ∈ front := by
    refine List.count_pos_iff.1 ?_
    simp at upTo
    omega
  obtain ⟨before, behind, rfl⟩ := List.append_of_mem opens
  rw [List.append_assoc, List.cons_append]
  refine List.IsInfix.trans (exists_empty_group ?_ (by simp)) (List.suffix_append _ _).isInfix
  intro token member
  rcases List.mem_append.1 member with inside | last
  · exact parentheses token (by simp [inside])
  · rw [List.mem_singleton.1 last]
    rfl

theorem exists_first_other (tokens : List Token) : (∀ token ∈ tokens, token.isParenthesis = true) ∨
      ∃ front token back, tokens = front ++ token :: back ∧
        (∀ token ∈ front, token.isParenthesis = true) ∧ token.isParenthesis = false := by
  induction tokens with
  | nil => exact .inl (by simp)
  | cons first tokens ih =>
      cases isParenthesis : first.isParenthesis with
      | false => exact .inr ⟨[], first, tokens, rfl, by simp, isParenthesis⟩
      | true =>
          rcases ih with all | ⟨front, token, back, rfl, parentheses, other⟩
          · exact .inl (by simpa [isParenthesis] using all)
          · refine .inr ⟨first :: front, token, back, rfl, ?_, other⟩
            simpa [isParenthesis] using parentheses

theorem exists_last_other (tokens : List Token) : (∀ token ∈ tokens, token.isParenthesis = true) ∨
      ∃ front token back, tokens = front ++ token :: back ∧
        (∀ token ∈ back, token.isParenthesis = true) ∧ token.isParenthesis = false := by
  rcases exists_first_other tokens.reverse with all | ⟨front, token, back, same, parentheses, other⟩
  · exact .inl (by simpa using all)
  · refine .inr ⟨back.reverse, token, front.reverse, ?_, by simpa using parentheses, other⟩
    rw [← List.reverse_reverse tokens, same]
    simp

end Token

end FactRules
