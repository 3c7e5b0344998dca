import Mathlib.Data.List.Chain
import FactRules.Proofs.Placement

/-!
Which texts put their operators between the operands. The parser takes an operator also in front of
its operands, behind them or in a group of its own. But then two operands stand side by side: where
an operator comes between any two of them, it is applied to what stands before it and behind it.
-/

namespace FactRules

namespace Token

/-- Nothing that ends an operand stands directly before the beginning of another one. -/
def Apart (tokens : List Token) : Prop :=
  ∀ first second, [first, second] <:+: tokens → first.ends = true → second.begins = false

theorem apart_iff_isChain {tokens : List Token} :
    Apart tokens ↔
      tokens.IsChain fun first second => first.ends = true → second.begins = false := by
  rw [List.isChain_iff_forall_rel_of_append_cons_cons]
  constructor
  · intro apart first second front back same
    exact apart first second ⟨front, back, by simp [same]⟩
  · rintro chain first second ⟨front, back, same⟩
    refine @chain first second front back ?_
    simp [← same]

instance (tokens : List Token) : Decidable (Apart tokens) :=
  decidable_of_iff _ apart_iff_isChain.symm

def Infix (tokens : List Token) (place : Nat) (left right : Origin) : Prop :=
  ∃ opened closed, Innermost tokens opened place closed ∧
    (∀ other ∈ left.places, opened < other ∧ other < place) ∧
    ∀ other ∈ right.places, place < other ∧ other < closed

def AllInfix (tokens : List Token) (origin : Origin) : Prop :=
  ∀ place token left right, tokens[place]? = some token → token.isBinary = true →
    origin.Applies place left right → Infix tokens place left right

def endsOperand (tokens : List Token) : Bool :=
  tokens.getLast?.any ends

@[simp] theorem endsOperand_append_singleton (tokens : List Token) (token : Token) :
    endsOperand (tokens ++ [token]) = token.ends := by
  simp [endsOperand]

/-- By how much the operands outnumber the operators, and one less when the last token ends an
operand. -/
def surplus (tokens : List Token) : Int :=
  tokens.countP isOperand - tokens.countP isBinary - (endsOperand tokens).toNat

theorem surplus_append_singleton (tokens : List Token) (token : Token) :
    surplus (tokens ++ [token]) =
      surplus tokens + (endsOperand tokens).toNat + token.begins.toNat - 1 := by
  have kinds := token.sum_kinds
  have operands : [token].countP isOperand = token.isOperand.toNat := by
    cases isOperand : token.isOperand <;> simp [isOperand]
  have operators : [token].countP isBinary = token.isBinary.toNat := by
    cases isBinary : token.isBinary <;> simp [isBinary]
  simp only [surplus, endsOperand_append_singleton, List.countP_append, operands, operators]
  omega

theorem Apart.step {front back : List Token} {token : Token}
    (apart : Apart (front ++ token :: back)) :
    (endsOperand front).toNat + token.begins.toNat ≤ 1 := by
  cases front using List.reverseRecOn with
  | nil =>
      have atMostOne := token.begins.toNat_le
      simpa [endsOperand] using atMostOne
  | append_singleton front last =>
      have found : [last, token] <:+: front ++ [last] ++ token :: back := ⟨front, back, by simp⟩
      rw [endsOperand_append_singleton]
      cases ended : last.ends with
      | false => simpa using token.begins.toNat_le
      | true => simp [apart last token found ended]

theorem Apart.surplus_le {front back : List Token} (apart : Apart (front ++ back)) :
    surplus (front ++ back) ≤ surplus front := by
  induction back generalizing front with
  | nil => simp
  | cons token back ih =>
      have step := apart.step
      have same : front ++ token :: back = front ++ [token] ++ back := by simp
      rw [same] at apart ⊢
      have later := ih apart
      rw [surplus_append_singleton front token] at later
      omega

/-- Where operands are apart and are one more than the operators, every operand is followed by an
operator or the end of its group, and every operator by an operand. -/
theorem Apart.begins_eq {front back : List Token} {token : Token}
    (apart : Apart (front ++ token :: back))
    (oneMore : (front ++ token :: back).countP isOperand =
      (front ++ token :: back).countP isBinary + 1) :
    token.begins = !endsOperand front := by
  -- The surplus begins at zero, never grows and does not end below zero: no token changes it.
  have step := apart.step
  have before : surplus front ≤ surplus [] := by
    have fromStart : Apart ([] ++ front) := by
      intro first second found
      exact apart first second (found.trans (List.prefix_append _ _).isInfix)
    exact fromStart.surplus_le
  have same : front ++ token :: back = front ++ [token] ++ back := by simp
  have after : surplus (front ++ token :: back) ≤ surplus (front ++ [token]) := by
    rw [same] at apart ⊢
    exact apart.surplus_le
  have whole : 0 ≤ surplus (front ++ token :: back) := by
    have atMostOne := (endsOperand (front ++ token :: back)).toNat_le
    unfold surplus
    omega
  have none : surplus [] = 0 := rfl
  rw [surplus_append_singleton] at after
  have total : (endsOperand front).toNat + token.begins.toNat = 1 := by omega
  cases ended : endsOperand front with
  | false =>
      rw [ended] at total
      exact Bool.toNat_eq_one.1 (by simpa using total)
  | true =>
      rw [ended] at total
      exact Bool.toNat_eq_zero.1 (by simpa using total)

end Token

namespace SharedCondition

namespace PlacedStacks

def waiting (pending : List (Pending × Nat)) : Nat :=
  pending.countP (·.1 ≠ .openGroup)

@[simp] theorem waiting_group (opened : Nat) (pending : List (Pending × Nat)) :
    waiting ((.openGroup, opened) :: pending) = waiting pending := by
  simp [waiting]

theorem waiting_operator {operator : Pending} (notGroup : operator ≠ .openGroup) (place : Nat)
    (pending : List (Pending × Nat)) :
    waiting ((operator, place) :: pending) = waiting pending + 1 := by
  simp [waiting, notGroup]

theorem Closes.length_operands {pending : List (Pending × Nat)}
    {operands : List (Operand × Origin)} {held : PlacedStacks} {interner after : Interner}
    (closes : Closes pending operands interner held after) :
    held.operands.length + waiting pending = operands.length + waiting held.pending := by
  induction closes with
  | group => simp
  | apply notGroup _ _ ih =>
      rw [waiting_operator notGroup]
      simp only [List.length_cons] at ih ⊢
      omega

def Counted (tokens : List Token) (held : PlacedStacks) : Prop :=
  held.operands.length + tokens.countP Token.isBinary =
    tokens.countP Token.isOperand + waiting held.pending

theorem Counted.step {tokens : List Token} {token : Token} {held next : PlacedStacks}
    {place : Nat} {interner after : Interner} (counted : Counted tokens held)
    (step : held.Step place token interner next after) : Counted (tokens ++ [token]) next := by
  unfold Counted at counted ⊢
  simp only [List.countP_append, List.countP_singleton]
  cases step with
  | closeGroup closes =>
      have length := closes.length_operands
      simp [Token.isBinary, Token.isOperator, Token.isOperand]
      omega
  | @wait _ operator waits notNegation =>
      rw [Token.isOperand_of_waits? waits, Token.isBinary_of_waits? waits notNegation]
      by_cases isGroup : operator = .openGroup
      · simp [PlacedStacks.wait, isGroup, counted]
      · simp [PlacedStacks.wait, isGroup, waiting_operator isGroup]
        omega
  | negation waits =>
      rw [Token.isOperand_of_waits? waits, Token.isBinary_of_negation waits]
      simp [PlacedStacks.wait, PlacedStacks.push, waiting_operator]
      omega
  | operand isOperand =>
      rw [Token.isOperand_of_operand? isOperand, Token.isBinary_of_operand? isOperand]
      simp [PlacedStacks.push]
      omega

end PlacedStacks

theorem Reads.counted {start after : Interner} {tokens : List Token} {held : PlacedStacks}
    (reads : Reads start tokens held after) : held.Counted tokens := by
  induction reads with
  | nil => rfl
  | snoc _ step ih => exact ih.step step

theorem ReadAs.begins_eq {start after : Interner} {front back : List Token} {token : Token}
    {shared : SharedCondition} {origin : Origin}
    (readAs : ReadAs start (front ++ token :: back) shared origin after)
    (apart : Token.Apart (front ++ token :: back)) :
    token.begins = !Token.endsOperand front := by
  have counted := Reads.counted readAs
  refine apart.begins_eq ?_
  simp only [PlacedStacks.Counted, PlacedStacks.waiting, List.length_singleton, List.countP_nil]
    at counted
  omega

namespace PlacedStacks

/-- An operand has to come, at this place or behind it. A binary operator that waits has its left
operand, and a NOT its marker; all of them stand where they have been read. -/
inductive Expecting : Nat → List (Pending × Nat) → List (Operand × Origin) → Prop where
  | nil (next : Nat) : Expecting next [] []
  | group {opened next : Nat} {pending : List (Pending × Nat)}
      {operands : List (Operand × Origin)} (earlier : Expecting opened pending operands)
      (behind : opened < next) : Expecting next ((.openGroup, opened) :: pending) operands
  | negation {place next : Nat} {pending : List (Pending × Nat)}
      {operands : List (Operand × Origin)} (earlier : Expecting place pending operands)
      (behind : place < next) :
      Expecting next ((.not, place) :: pending) ((.marker, .leaf place) :: operands)
  | operator {operator : Pending} {start place next : Nat} {left : Operand × Origin}
      {pending : List (Pending × Nat)} {operands : List (Operand × Origin)}
      (notGroup : operator ≠ .openGroup) (earlier : Expecting start pending operands)
      (before : ∀ other ∈ left.2.places, start ≤ other ∧ other < place) (behind : place < next) :
      Expecting next ((operator, place) :: pending) (left :: operands)

def Holding (next : Nat) (held : PlacedStacks) : Prop :=
  ∃ start operand operands, held.operands = operand :: operands ∧
    Expecting start held.pending operands ∧
    ∀ other ∈ operand.2.places, start ≤ other ∧ other < next

theorem Expecting.opened_lt {inside pending : List (Pending × Nat)}
    {operands : List (Operand × Origin)} {opened next : Nat}
    (expecting : Expecting next (inside ++ (.openGroup, opened) :: pending) operands) :
    opened < next := by
  induction inside generalizing next operands with
  | nil =>
      generalize same : [] ++ (Pending.openGroup, opened) :: pending = all at expecting
      cases expecting with
      | nil => cases same
      | group _ behind =>
          cases same
          exact behind
      | negation => cases same
      | operator notGroup =>
          cases same
          exact absurd rfl notGroup
  | cons waiting inside ih =>
      cases expecting with
      | group earlier behind => exact Nat.lt_trans (ih earlier) behind
      | negation earlier behind => exact Nat.lt_trans (ih earlier) behind
      | @operator _ start place _ left _ _ notGroup earlier before behind =>
          obtain ⟨leaf, member⟩ := left.2.exists_leaf
          have inside := before leaf (left.2.leaves_subset_places member)
          have below := ih earlier
          omega

section

variable {operator : Pending} {place next : Nat} {left right : Operand × Origin}
  {pending : List (Pending × Nat)} {operands : List (Operand × Origin)}

theorem Expecting.exists_earlier
    (expecting : Expecting next ((operator, place) :: pending) (left :: operands))
    (notGroup : operator ≠ .openGroup) : place < next ∧
      ∃ start, Expecting start pending operands ∧
        (∀ other ∈ left.2.places, start ≤ other ∧ other ≤ place) ∧
        (operator ≠ .not → ∀ other ∈ left.2.places, other < place) := by
  cases expecting with
  | group => exact absurd rfl notGroup
  | negation earlier behind =>
      refine ⟨behind, place, earlier, ?_, fun notNegation => absurd rfl notNegation⟩
      intro other member
      rw [List.mem_singleton.1 member]
      exact ⟨Nat.le_refl _, Nat.le_refl _⟩
  | @operator _ start _ _ _ _ _ _ earlier before behind =>
      refine ⟨behind, start, earlier, ?_, fun _ other member => (before other member).2⟩
      intro other member
      exact ⟨(before other member).1, Nat.le_of_lt (before other member).2⟩

theorem Holding.apply {operand : Operand}
    (holding : Holding next
      { pending := (operator, place) :: pending, operands := right :: left :: operands })
    (notGroup : operator ≠ .openGroup) :
    Holding next
      { pending, operands := (operand, .applied place left.2 right.2) :: operands } := by
  obtain ⟨behind, _, _, same, expecting, within⟩ := holding
  cases same
  obtain ⟨below, start, earlier, before, _⟩ := expecting.exists_earlier notGroup
  refine ⟨start, _, operands, rfl, earlier, ?_⟩
  obtain ⟨last, member⟩ := right.2.exists_leaf
  have inside := within last (right.2.leaves_subset_places member)
  obtain ⟨first, member⟩ := left.2.exists_leaf
  have above := before first (left.2.leaves_subset_places member)
  intro other member
  rcases List.mem_cons.1 member with rfl | member
  · omega
  · rcases List.mem_append.1 member with inLeft | inRight
    · have here := before other inLeft
      omega
    · have here := within other inRight
      omega

theorem Holding.isInfix {inside outside : List (Pending × Nat)} {tokens later : List Token}
    {opened : Nat}
    (holding : Holding tokens.length
      { pending := (operator, place) :: (inside ++ (.openGroup, opened) :: outside),
        operands := right :: left :: operands })
    (notGroup : operator ≠ .openGroup) (notNegation : operator ≠ .not)
    (noGroup : ∀ waiting ∈ inside, waiting.1 ≠ .openGroup)
    (spread : Spread tokens ((operator, place) :: (inside ++ (.openGroup, opened) :: outside))) :
    Token.Infix (tokens ++ .closeGroup :: later) place left.2 right.2 := by
  obtain ⟨behind, _, _, same, expecting, within⟩ := holding
  cases same
  obtain ⟨below, start, earlier, before, beforePlace⟩ := expecting.exists_earlier notGroup
  refine ⟨opened, tokens.length, spread.innermost noGroup later, ?_, ?_⟩
  · intro other member
    have above := before other member
    have openedBelow := earlier.opened_lt
    exact ⟨by omega, beforePlace notNegation other member⟩
  · intro other member
    have inside := within other member
    omega

end

def Regular (found : List Token) (operands : List (Operand × Origin)) : Prop :=
  ∀ operand ∈ operands, Token.AllInfix found operand.2

theorem Closes.regular {found tokens later : List Token} {pending : List (Pending × Nat)}
    {operands : List (Operand × Origin)} {held : PlacedStacks} {interner after : Interner}
    (closes : Closes pending operands interner held after)
    (next : found = tokens ++ .closeGroup :: later)
    (placed : Placed found tokens { pending, operands })
    (holding : Holding tokens.length { pending, operands }) (regular : Regular found operands) :
    Holding (tokens.length + 1) held ∧ Regular found held.operands := by
  induction closes with
  | group opened pending operands =>
      refine ⟨?_, regular⟩
      obtain ⟨start, operand, others, same, expecting, within⟩ := holding
      cases expecting with
      | operator notGroup => exact absurd rfl notGroup
      | group earlier behind =>
          refine ⟨opened, operand, others, same, earlier, ?_⟩
          intro other member
          have inside := within other member
          omega
  | @apply operator left right _ _ _ condition place leftOrigin rightOrigin pending operands _
      notGroup combined closes ih =>
      obtain ⟨inside, opened, noGroup, same⟩ := closes.exists_group
      refine ih (placed.apply notGroup combined ⟨inside, opened, _, noGroup, same⟩ next)
        (holding.apply notGroup) ?_
      intro operand member
      rcases List.mem_cons.1 member with rfl | member
      · intro other token first second atPlace isBinary applies
        cases applies with
        | inLeft applies =>
            exact regular (left, leftOrigin) (by simp) other token _ _ atPlace isBinary applies
        | inRight applies =>
            exact regular (right, rightOrigin) (by simp) other token _ _ atPlace isBinary applies
        | here =>
            obtain ⟨operatorToken, atOperator, waits⟩ := placed.spread.token_at
            have notNegation : operator ≠ .not := by
              rintro rfl
              have inside := (List.getElem?_eq_some_iff.1 atOperator).1
              rw [next, List.getElem?_append_left inside, atOperator] at atPlace
              cases atPlace
              rw [Token.isBinary_of_negation waits] at isBinary
              cases isBinary
            subst same
            rw [next]
            exact holding.isInfix notGroup notNegation noGroup placed.spread
      · exact regular operand (by simp [member])

structure Alternates (found tokens : List Token) (held : PlacedStacks) : Prop where
  state : if Token.endsOperand tokens then Holding tokens.length held
    else Expecting tokens.length held.pending held.operands
  regular : Regular found held.operands

theorem regular_push {found : List Token} {held : PlacedStacks}
    (regular : Regular found held.operands) (operand : Operand) (place : Nat) :
    Regular found (held.push operand (.leaf place)).operands := by
  intro other member
  rcases List.mem_cons.1 member with rfl | member
  · intro _ _ _ _ _ _ applies
    cases applies
  · exact regular other member

section

variable {found tokens : List Token} {token : Token} {held next : PlacedStacks}

theorem Alternates.expecting (alternates : Alternates found tokens held)
    (inTurn : token.begins = !Token.endsOperand tokens) (begun : token.begins = true) :
    Expecting tokens.length held.pending held.operands := by
  have notEnded : Token.endsOperand tokens = false := by simpa [begun] using inTurn
  simpa [notEnded] using alternates.state

theorem Alternates.holding (alternates : Alternates found tokens held)
    (inTurn : token.begins = !Token.endsOperand tokens) (notBegun : token.begins = false) :
    Holding tokens.length held := by
  have ended : Token.endsOperand tokens = true := by simpa [notBegun] using inTurn
  simpa [ended] using alternates.state

theorem Alternates.of_holding (holding : Holding (tokens.length + 1) next)
    (ended : token.ends = true) (regular : Regular found next.operands) :
    Alternates found (tokens ++ [token]) next := by
  refine ⟨?_, regular⟩
  simpa [ended] using holding

theorem Alternates.of_expecting
    (expecting : Expecting (tokens.length + 1) next.pending next.operands)
    (notEnded : token.ends = false) (regular : Regular found next.operands) :
    Alternates found (tokens ++ [token]) next := by
  refine ⟨?_, regular⟩
  simpa [notEnded] using expecting

theorem Alternates.step {later : List Token} {interner after : Interner}
    (alternates : Alternates found tokens held) (placed : Placed found tokens held)
    (isNext : found = tokens ++ token :: later)
    (inTurn : token.begins = !Token.endsOperand tokens)
    (step : held.Step tokens.length token interner next after) :
    Alternates found (tokens ++ [token]) next := by
  have regular := alternates.regular
  have oneMore : tokens.length < tokens.length + 1 := Nat.lt_succ_self _
  cases step with
  | closeGroup closes =>
      have holding := alternates.holding inTurn rfl
      obtain ⟨still, allRegular⟩ := closes.regular isNext placed holding regular
      exact .of_holding still rfl allRegular
  | @wait _ operator waits notNegation =>
      refine .of_expecting ?_ (Token.ends_of_waits? waits) regular
      by_cases isGroup : operator = .openGroup
      · subst isGroup
        have begun : token.begins = true := by simp [Token.begins_of_waits? waits]
        exact .group (alternates.expecting inTurn begun) oneMore
      · have notBegun : token.begins = false := by
          simp [Token.begins_of_waits? waits, isGroup, notNegation]
        obtain ⟨start, operand, operands, same, earlier, within⟩ :=
          alternates.holding inTurn notBegun
        have expecting : Expecting (tokens.length + 1)
            ((operator, tokens.length) :: held.pending) (operand :: operands) :=
          .operator isGroup earlier within oneMore
        rwa [← same] at expecting
  | negation waits =>
      have begun : token.begins = true := by simp [Token.begins_of_waits? waits]
      refine .of_expecting ?_ (Token.ends_of_waits? waits) (regular_push regular _ _)
      exact .negation (alternates.expecting inTurn begun) oneMore
  | @operand _ operand isOperand =>
      have read := Token.isOperand_of_operand? isOperand
      have begun : token.begins = true := by simp [Token.begins, Token.isLeaf, read]
      have ended : token.ends = true := by simp [Token.ends, read]
      refine .of_holding ?_ ended (regular_push regular _ _)
      refine ⟨_, _, _, rfl, alternates.expecting inTurn begun, ?_⟩
      intro other member
      rw [List.mem_singleton.1 member]
      exact ⟨Nat.le_refl _, oneMore⟩

end

end PlacedStacks

theorem Reads.alternates {start after : Interner} {found tokens : List Token}
    {held : PlacedStacks} (reads : Reads start tokens held after) (later : List Token)
    (all : found = tokens ++ later)
    (inTurn : ∀ front token back, found = front ++ token :: back →
      token.begins = !Token.endsOperand front) : held.Alternates found tokens := by
  induction reads generalizing later with
  | nil =>
      refine ⟨?_, by simp [PlacedStacks.Regular]⟩
      exact .nil _
  | @snoc tokens token _ _ _ _ reads step ih =>
      have next : found = tokens ++ token :: later := by rw [all, List.append_assoc]; rfl
      exact (ih _ next).step (reads.placed _ next) next (inTurn _ _ _ next) step

theorem ReadAs.allInfix {start after : Interner} {found : List Token} {shared : SharedCondition}
    {origin : Origin} (readAs : ReadAs start found shared origin after)
    (apart : Token.Apart found) : Token.AllInfix found origin := by
  have alternates := Reads.alternates readAs [] (List.append_nil found).symm (by
    rintro front token back rfl
    exact readAs.begins_eq apart)
  exact alternates.regular _ List.mem_cons_self

end SharedCondition

end FactRules
