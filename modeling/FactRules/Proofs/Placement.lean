import FactRules.Proofs.Origins

/-!
Where the operands of an operator stand. Every operator is applied when its innermost group ends, to
operands that stand before that end, the left one before the right one; and a NOT is applied to what
stands behind it. Nothing says on which side of the two others stands.
-/

namespace FactRules

theorem getElem?_append_singleton_eq_some {α : Type} {front : List α} {last found : α}
    {place : Nat} : (front ++ [last])[place]? = some found ↔
      front[place]? = some found ∨ place = front.length ∧ last = found := by
  rcases Nat.lt_trichotomy place front.length with inside | rfl | beyond
  · have notLast : place ≠ front.length := Nat.ne_of_lt inside
    simp [List.getElem?_append_left inside, notLast]
  · simp
  · have notLast : place ≠ front.length := Nat.ne_of_gt beyond
    have longer : (front ++ [last]).length ≤ place := by
      rw [List.length_append]
      exact beyond
    have nothing : front[place]? = none := List.getElem?_eq_none (Nat.le_of_lt beyond)
    simp [List.getElem?_eq_none longer, nothing, notLast]

namespace SharedCondition

/-- Where the operands of an operator stand among the tokens. -/
structure Placement (tokens : List Token) (place : Nat) (left right : Origin) : Prop where
  operator : ∃ token, tokens[place]? = some token ∧ token.isOperator = true
  group : ∃ opened closed, Token.Innermost tokens opened place closed ∧
    ∀ other ∈ left.places ++ right.places, other < closed
  ordered : ∀ first ∈ left.leaves, ∀ second ∈ right.leaves, first < second
  negation : ∀ token, tokens[place]? = some token → token.waits? = some .not →
    left = .leaf place ∧ ∀ other ∈ right.places, place < other

namespace PlacedStacks

/-- Every operator that waits stands at its place, and behind it only whole groups. -/
inductive Spread : List Token → List (Pending × Nat) → Prop where
  | nil {tokens : List Token} (balanced : Token.Balanced tokens) : Spread tokens []
  | cons {front behind : List Token} {token : Token} {operator : Pending}
      {pending : List (Pending × Nat)} (waits : token.waits? = some operator)
      (earlier : Spread front pending) (balanced : Token.Balanced behind) :
      Spread (front ++ token :: behind) ((operator, front.length) :: pending)

namespace Spread

variable {tokens more : List Token} {pending : List (Pending × Nat)}

theorem append (spread : Spread tokens pending) (balanced : Token.Balanced more) :
    Spread (tokens ++ more) pending := by
  cases spread with
  | nil first => exact .nil (first.append balanced)
  | cons waits earlier behind =>
      rw [List.append_assoc, List.cons_append]
      exact .cons waits earlier (behind.append balanced)

theorem wait {token : Token} {operator : Pending} (spread : Spread tokens pending)
    (waits : token.waits? = some operator) :
    Spread (tokens ++ [token]) ((operator, tokens.length) :: pending) :=
  .cons waits spread .nil

theorem lt_length (spread : Spread tokens pending) :
    ∀ waiting ∈ pending, waiting.2 < tokens.length := by
  induction spread with
  | nil => simp
  | cons waits earlier _ ih =>
      intro waiting member
      rw [List.length_append, List.length_cons]
      rcases List.mem_cons.1 member with rfl | member
      · dsimp only
        omega
      · have below := ih waiting member
        omega

theorem descending (spread : Spread tokens pending) :
    pending.Pairwise fun upper lower => lower.2 < upper.2 := by
  induction spread with
  | nil => exact .nil
  | cons _ earlier _ ih => exact .cons earlier.lt_length ih

theorem drop {operator : Pending} {place : Nat} (notGroup : operator ≠ .openGroup)
    (spread : Spread tokens ((operator, place) :: pending)) : Spread tokens pending := by
  cases spread with
  | @cons front behind token _ _ waits earlier balanced =>
      have one : Token.Balanced [token] :=
        .single (Token.ne_openGroup_of_waits? waits notGroup) (Token.ne_closeGroup_of_waits? waits)
      exact earlier.append (one.append balanced)

theorem group {inside : List (Pending × Nat)} {opened : Nat}
    (noGroup : ∀ waiting ∈ inside, waiting.1 ≠ .openGroup)
    (spread : Spread tokens (inside ++ (.openGroup, opened) :: pending)) :
    ∃ before inner, tokens = before ++ .openGroup :: inner ∧ Token.Balanced inner ∧
      opened = before.length ∧ Spread before pending := by
  induction inside with
  | nil =>
      generalize same : [] ++ (Pending.openGroup, opened) :: pending = all at spread
      cases spread with
      | nil => cases same
      | @cons front behind token operator _ waits earlier balanced =>
          cases same
          cases Token.eq_openGroup_of_waits? waits
          exact ⟨front, behind, rfl, balanced, rfl, earlier⟩
  | cons waiting inside ih =>
      have notGroup := noGroup waiting List.mem_cons_self
      exact ih (fun other member => noGroup other (List.mem_cons_of_mem _ member))
        (spread.drop notGroup)

theorem innermost {inside : List (Pending × Nat)} {operator : Pending} {opened place : Nat}
    (noGroup : ∀ waiting ∈ inside, waiting.1 ≠ .openGroup)
    (spread : Spread tokens ((operator, place) :: (inside ++ (.openGroup, opened) :: pending)))
    (later : List Token) :
    Token.Innermost (tokens ++ .closeGroup :: later) opened place tokens.length := by
  cases spread with
  | @cons front behind token _ _ waits earlier balanced =>
      obtain ⟨before, inner, rfl, innerBalanced, rfl, _⟩ := earlier.group noGroup
      refine ⟨before, inner, token, behind, later, ?_, innerBalanced, balanced, rfl, ?_, ?_⟩
      · simp
      · simp
        omega
      · simp
        omega

theorem token_at {operator : Pending} {place : Nat}
    (spread : Spread tokens ((operator, place) :: pending)) :
    ∃ token, tokens[place]? = some token ∧ token.waits? = some operator := by
  cases spread with
  | cons waits => exact ⟨_, by simp, waits⟩

end Spread

def leaves : List (Operand × Origin) → List Nat
  | [] => []
  | (_, origin) :: operands => leaves operands ++ origin.leaves

/-- The leaves of the operands are the leaves among the tokens, and stand in their order. -/
structure Ordered (tokens : List Token) (operands : List (Operand × Origin)) : Prop where
  ascending : (leaves operands).Pairwise (· < ·)
  mem_iff : ∀ place, place ∈ leaves operands ↔
    ∃ token, tokens[place]? = some token ∧ token.isLeaf = true

namespace Ordered

variable {tokens : List Token} {operands : List (Operand × Origin)}

theorem nil : Ordered [] [] :=
  ⟨.nil, by simp [leaves]⟩

theorem lt_length (ordered : Ordered tokens operands) :
    ∀ place ∈ leaves operands, place < tokens.length := by
  intro place member
  obtain ⟨_, found, _⟩ := (ordered.mem_iff place).1 member
  exact (List.getElem?_eq_some_iff.1 found).1

theorem skip {token : Token} (ordered : Ordered tokens operands) (notLeaf : token.isLeaf = false) :
    Ordered (tokens ++ [token]) operands := by
  refine ⟨ordered.ascending, ?_⟩
  intro place
  rw [ordered.mem_iff]
  simp only [getElem?_append_singleton_eq_some]
  constructor
  · rintro ⟨found, atPlace, isLeaf⟩
    exact ⟨found, .inl atPlace, isLeaf⟩
  · rintro ⟨found, atPlace | ⟨_, rfl⟩, isLeaf⟩
    · exact ⟨found, atPlace, isLeaf⟩
    · rw [notLeaf] at isLeaf
      cases isLeaf

theorem push {token : Token} (ordered : Ordered tokens operands) (isLeaf : token.isLeaf = true)
    (operand : Operand) :
    Ordered (tokens ++ [token]) ((operand, .leaf tokens.length) :: operands) := by
  constructor
  · refine List.pairwise_append.2 ⟨ordered.ascending, List.pairwise_singleton _ _, ?_⟩
    intro place member last isLast
    rw [List.mem_singleton.1 isLast]
    exact ordered.lt_length place member
  · intro place
    simp only [leaves, Origin.leaves, List.mem_append, List.mem_singleton, ordered.mem_iff,
      getElem?_append_singleton_eq_some]
    constructor
    · rintro (⟨found, atPlace, foundLeaf⟩ | rfl)
      · exact ⟨found, .inl atPlace, foundLeaf⟩
      · exact ⟨token, .inr ⟨rfl, rfl⟩, isLeaf⟩
    · rintro ⟨found, atPlace | ⟨rfl, _⟩, foundLeaf⟩
      · exact .inl ⟨found, atPlace, foundLeaf⟩
      · exact .inr rfl

theorem apply {left right operand : Operand} {leftOrigin rightOrigin : Origin} (place : Nat)
    (ordered : Ordered tokens ((right, rightOrigin) :: (left, leftOrigin) :: operands)) :
    Ordered tokens ((operand, .applied place leftOrigin rightOrigin) :: operands) := by
  have same : leaves ((operand, .applied place leftOrigin rightOrigin) :: operands) =
      leaves ((right, rightOrigin) :: (left, leftOrigin) :: operands) := by
    simp only [leaves, Origin.leaves, List.append_assoc]
  constructor
  · rw [same]
    exact ordered.ascending
  · rw [same]
    exact ordered.mem_iff

theorem left_lt_right {left right : Operand × Origin}
    (ordered : Ordered tokens (right :: left :: operands)) :
    ∀ first ∈ left.2.leaves, ∀ second ∈ right.2.leaves, first < second := by
  intro first inLeft second inRight
  exact (List.pairwise_append.1 ordered.ascending).2.2 first (List.mem_append_right _ inLeft)
    second inRight

end Ordered

def marker? : Operand × Origin → Option Origin
  | (.marker, origin) => some origin
  | _ => none

def negation? : Pending × Nat → Option Origin
  | (.not, place) => some (.leaf place)
  | _ => none

/-- Each NOT that waits has its own marker, and the operands above are made of what is behind. -/
structure Marked (held : PlacedStacks) : Prop where
  markers : held.operands.filterMap marker? = held.pending.filterMap negation?
  above : held.operands.Pairwise fun upper lower => lower.1 = .marker →
    ∀ first ∈ lower.2.places, ∀ second ∈ upper.2.places, first < second

theorem marker?_of_ne {operand : Operand} (notMarker : operand ≠ .marker) (origin : Origin) :
    marker? (operand, origin) = none := by
  cases operand with
  | marker => exact absurd rfl notMarker
  | key | literal | condition => rfl

theorem negation?_of_ne {operator : Pending} (notNegation : operator ≠ .not) (place : Nat) :
    negation? (operator, place) = none := by
  cases operator with
  | not => exact absurd rfl notNegation
  | openGroup | compare | and | or => rfl

theorem operands_of_combine {operator : Pending} {left right : Operand}
    {interner after : Interner} {shared : SharedCondition}
    (combined : combine operator left right interner = (.ok shared, after)) :
    (operator = .not ∧ left = .marker ∨ operator ≠ .not ∧ left ≠ .marker) ∧ right ≠ .marker := by
  obtain ⟨draft, drafts, _⟩ := drafts_of_combine combined
  cases drafts with
  | keyLiteral | keyKey | literalLiteral | negated => simp
  | joined junction => cases junction <;> simp [Junction.operator]

namespace Marked

variable {pending : List (Pending × Nat)} {operands : List (Operand × Origin)}

theorem nil : Marked {} :=
  ⟨rfl, .nil⟩

theorem wait {operator : Pending} {held : PlacedStacks} (marked : Marked held)
    (notNegation : operator ≠ .not) (place : Nat) : Marked (held.wait operator place) := by
  refine ⟨?_, marked.above⟩
  have none := negation?_of_ne notNegation place
  simpa only [PlacedStacks.wait, List.filterMap_cons, none] using marked.markers

theorem above_push {place : Nat} {operand : Operand}
    (above : operands.Pairwise fun upper lower => lower.1 = .marker →
      ∀ first ∈ lower.2.places, ∀ second ∈ upper.2.places, first < second)
    (bounded : ∀ operand ∈ operands, ∀ other ∈ operand.2.places, other < place) :
    ((operand, Origin.leaf place) :: operands).Pairwise fun upper lower => lower.1 = .marker →
      ∀ first ∈ lower.2.places, ∀ second ∈ upper.2.places, first < second := by
  refine .cons ?_ above
  intro lower member _ first inLower second isPlace
  rw [List.mem_singleton.1 isPlace]
  exact bounded lower member first inLower

theorem negation {held : PlacedStacks} {place : Nat} (marked : Marked held)
    (bounded : ∀ operand ∈ held.operands, ∀ other ∈ operand.2.places, other < place) :
    Marked ((held.push .marker (.leaf place)).wait .not place) := by
  refine ⟨?_, above_push marked.above bounded⟩
  simp only [PlacedStacks.wait, PlacedStacks.push, List.filterMap_cons, marker?, negation?,
    marked.markers]

theorem push {held : PlacedStacks} {operand : Operand} {place : Nat} (marked : Marked held)
    (notMarker : operand ≠ .marker)
    (bounded : ∀ operand ∈ held.operands, ∀ other ∈ operand.2.places, other < place) :
    Marked (held.push operand (.leaf place)) := by
  refine ⟨?_, above_push marked.above bounded⟩
  have none := marker?_of_ne notMarker (.leaf place)
  simpa only [PlacedStacks.push, List.filterMap_cons, none] using marked.markers

theorem place_of_marker {held : PlacedStacks} (marked : Marked held) {operand : Operand × Origin}
    (member : operand ∈ held.operands) (isMarker : operand.1 = .marker) :
    ∃ place, operand.2 = .leaf place ∧ (.not, place) ∈ held.pending := by
  obtain ⟨_, origin⟩ := operand
  subst isMarker
  have isMarked : origin ∈ held.operands.filterMap marker? :=
    List.mem_filterMap.2 ⟨_, member, rfl⟩
  rw [marked.markers, List.mem_filterMap] at isMarked
  obtain ⟨⟨operator, place⟩, waits, same⟩ := isMarked
  cases operator with
  | not =>
      cases same
      exact ⟨place, rfl, waits⟩
  | openGroup | compare | and | or => cases same

section

variable {operator : Pending} {left right : Operand} {leftOrigin rightOrigin : Origin}
  {place : Nat} {interner after : Interner} {shared : SharedCondition}

theorem markers_apply
    (marked : Marked { pending := (operator, place) :: pending,
                       operands := (right, rightOrigin) :: (left, leftOrigin) :: operands })
    (combined : combine operator left right interner = (.ok shared, after)) :
    operands.filterMap marker? = pending.filterMap negation? ∧
      (operator = .not → leftOrigin = .leaf place) := by
  obtain ⟨leftMarks, notMarker⟩ := operands_of_combine combined
  have markers := marked.markers
  simp only [List.filterMap_cons, marker?_of_ne notMarker] at markers
  rcases leftMarks with ⟨rfl, rfl⟩ | ⟨notNegation, leftNotMarker⟩
  · simp only [marker?, negation?, List.cons.injEq] at markers
    exact ⟨markers.2, fun _ => markers.1⟩
  · simp only [marker?_of_ne leftNotMarker, negation?_of_ne notNegation] at markers
    exact ⟨markers, fun isNegation => absurd isNegation notNegation⟩

theorem apply
    (marked : Marked { pending := (operator, place) :: pending,
                       operands := (right, rightOrigin) :: (left, leftOrigin) :: operands })
    (combined : combine operator left right interner = (.ok shared, after))
    (earlier : ∀ waiting ∈ pending, waiting.2 < place) :
    Marked { pending,
             operands :=
              (.condition shared, .applied place leftOrigin rightOrigin) :: operands } := by
  obtain ⟨markers, _⟩ := marked.markers_apply combined
  obtain ⟨aboveRight, later⟩ := List.pairwise_cons.1 marked.above
  obtain ⟨aboveLeft, above⟩ := List.pairwise_cons.1 later
  have still : Marked { pending, operands } := ⟨markers, above⟩
  refine ⟨by simpa only [List.filterMap_cons, marker?] using markers, .cons ?_ above⟩
  intro lower member isMarker first inLower second inApplied
  rcases List.mem_cons.1 inApplied with rfl | inOperand
  · obtain ⟨marked, isLeaf, waits⟩ := still.place_of_marker member isMarker
    rw [isLeaf] at inLower
    rw [List.mem_singleton.1 inLower]
    exact earlier _ waits
  · rcases List.mem_append.1 inOperand with inLeft | inRight
    · exact aboveLeft lower member isMarker first inLower second inLeft
    · exact aboveRight lower (List.mem_cons_of_mem _ member) isMarker first inLower second inRight

theorem behind_negation
    (marked : Marked { pending := (.not, place) :: pending,
                       operands := (right, rightOrigin) :: (left, leftOrigin) :: operands })
    (combined : combine .not left right interner = (.ok shared, after)) :
    leftOrigin = .leaf place ∧ ∀ other ∈ rightOrigin.places, place < other := by
  have isLeaf := (marked.markers_apply combined).2 rfl
  refine ⟨isLeaf, ?_⟩
  subst isLeaf
  have isMarker : left = .marker := by
    rcases (operands_of_combine combined).1 with ⟨_, isMarker⟩ | ⟨notNegation, _⟩
    · exact isMarker
    · exact absurd rfl notNegation
  have above := (List.pairwise_cons.1 marked.above).1 _ List.mem_cons_self isMarker
  exact above place List.mem_cons_self

end

end Marked

structure Placed (found tokens : List Token) (held : PlacedStacks) : Prop where
  spread : Spread tokens held.pending
  ordered : Ordered tokens held.operands
  marked : Marked held
  bounded : ∀ operand ∈ held.operands, ∀ place ∈ operand.2.places, place < tokens.length
  operators : ∀ place token, tokens[place]? = some token → token.isOperator = true →
    (∃ operator, (operator, place) ∈ held.pending) ∨
      ∃ operand ∈ held.operands, ∃ left right, operand.2.Applies place left right
  applied : ∀ operand ∈ held.operands, ∀ place left right, operand.2.Applies place left right →
    Placement found place left right

namespace Placed

variable {found tokens : List Token} {held : PlacedStacks} {token : Token}

theorem nil : Placed found [] {} where
  spread := .nil .nil
  ordered := .nil
  marked := .nil
  bounded := by simp
  operators := by simp
  applied := by simp

theorem bounded_snoc (placed : Placed found tokens held) :
    ∀ operand ∈ held.operands, ∀ place ∈ operand.2.places, place < (tokens ++ [token]).length := by
  intro operand member place inOperand
  have below := placed.bounded operand member place inOperand
  rw [List.length_append]
  omega

theorem bounded_push (placed : Placed found tokens held) (operand : Operand) :
    ∀ other ∈ (held.push operand (.leaf tokens.length)).operands, ∀ place ∈ other.2.places,
      place < (tokens ++ [token]).length := by
  intro other member place inOther
  rcases List.mem_cons.1 member with rfl | member
  · rw [List.mem_singleton.1 inOther, List.length_append]
    exact Nat.lt_succ_self _
  · exact placed.bounded_snoc other member place inOther

theorem applied_push (placed : Placed found tokens held) (operand : Operand) :
    ∀ other ∈ (held.push operand (.leaf tokens.length)).operands, ∀ place left right,
      other.2.Applies place left right → Placement found place left right := by
  intro other member place left right applies
  rcases List.mem_cons.1 member with rfl | member
  · cases applies
  · exact placed.applied other member place left right applies

theorem wait {operator : Pending} (placed : Placed found tokens held)
    (waits : token.waits? = some operator) (notNegation : operator ≠ .not) :
    Placed found (tokens ++ [token]) (held.wait operator tokens.length) where
  spread := placed.spread.wait waits
  ordered := placed.ordered.skip (by simp [Token.isLeaf_of_waits? waits, notNegation])
  marked := placed.marked.wait notNegation _
  bounded := placed.bounded_snoc
  operators := by
    intro place other atPlace isOperator
    rcases getElem?_append_singleton_eq_some.1 atPlace with earlier | ⟨rfl, _⟩
    · refine (placed.operators place other earlier isOperator).imp_left ?_
      rintro ⟨waiting, member⟩
      exact ⟨waiting, List.mem_cons_of_mem _ member⟩
    · exact .inl ⟨operator, List.mem_cons_self⟩
  applied := placed.applied

theorem negation (placed : Placed found tokens held) (waits : token.waits? = some .not) :
    Placed found (tokens ++ [token])
      ((held.push .marker (.leaf tokens.length)).wait .not tokens.length) where
  spread := placed.spread.wait waits
  ordered := placed.ordered.push (by simp [Token.isLeaf_of_waits? waits]) .marker
  marked := placed.marked.negation placed.bounded
  bounded := placed.bounded_push .marker
  operators := by
    intro place other atPlace isOperator
    rcases getElem?_append_singleton_eq_some.1 atPlace with earlier | ⟨rfl, _⟩
    · rcases placed.operators place other earlier isOperator with ⟨waiting, member⟩ | applied
      · exact .inl ⟨waiting, List.mem_cons_of_mem _ member⟩
      · obtain ⟨operand, member, applies⟩ := applied
        exact .inr ⟨operand, List.mem_cons_of_mem _ member, applies⟩
    · exact .inl ⟨.not, List.mem_cons_self⟩
  applied := placed.applied_push .marker

theorem operand {operand : Operand} (placed : Placed found tokens held)
    (isOperand : token.operand? = some operand) :
    Placed found (tokens ++ [token]) (held.push operand (.leaf tokens.length)) where
  spread := placed.spread.append (Token.balanced_of_operand? isOperand)
  ordered := placed.ordered.push (by simp [Token.isLeaf, Token.isOperand_of_operand? isOperand]) _
  marked := placed.marked.push (Token.ne_marker_of_operand? isOperand) placed.bounded
  bounded := placed.bounded_push operand
  operators := by
    intro place other atPlace isOperator
    rcases getElem?_append_singleton_eq_some.1 atPlace with earlier | ⟨rfl, rfl⟩
    · refine (placed.operators place other earlier isOperator).imp_right ?_
      rintro ⟨earlierOperand, member, applies⟩
      exact ⟨earlierOperand, List.mem_cons_of_mem _ member, applies⟩
    · rw [Token.not_isOperator_of_operand? isOperand] at isOperator
      cases isOperator
  applied := placed.applied_push operand

section

variable {operator : Pending} {left right : Operand} {leftOrigin rightOrigin : Origin}
  {place : Nat} {interner after : Interner} {shared : SharedCondition}
  {pending : List (Pending × Nat)} {operands : List (Operand × Origin)}

theorem placement
    (placed : Placed found tokens
      { pending := (operator, place) :: pending,
        operands := (right, rightOrigin) :: (left, leftOrigin) :: operands })
    (notGroup : operator ≠ .openGroup)
    (combined : combine operator left right interner = (.ok shared, after))
    (group : ∃ inside opened outside, (∀ waiting ∈ inside, waiting.1 ≠ .openGroup) ∧
      pending = inside ++ (.openGroup, opened) :: outside)
    {later : List Token} (next : found = tokens ++ .closeGroup :: later) :
    Placement found place leftOrigin rightOrigin := by
  obtain ⟨token, atPlace, waits⟩ := placed.spread.token_at
  have inFound : found[place]? = some token := by
    rw [next, List.getElem?_append_left (List.getElem?_eq_some_iff.1 atPlace).1]
    exact atPlace
  constructor
  · exact ⟨token, inFound, Token.isOperator_of_waits? waits notGroup⟩
  · obtain ⟨inside, opened, outside, noGroup, rfl⟩ := group
    refine ⟨opened, tokens.length, ?_, ?_⟩
    · rw [next]
      exact placed.spread.innermost noGroup later
    · intro other member
      rcases List.mem_append.1 member with inLeft | inRight
      · exact placed.bounded (left, leftOrigin) (by simp) other inLeft
      · exact placed.bounded (right, rightOrigin) (by simp) other inRight
  · exact placed.ordered.left_lt_right
  · intro other atSame isNegation
    rw [inFound] at atSame
    cases atSame
    rw [waits] at isNegation
    cases isNegation
    exact placed.marked.behind_negation combined

theorem apply
    (placed : Placed found tokens
      { pending := (operator, place) :: pending,
        operands := (right, rightOrigin) :: (left, leftOrigin) :: operands })
    (notGroup : operator ≠ .openGroup)
    (combined : combine operator left right interner = (.ok shared, after))
    (group : ∃ inside opened outside, (∀ waiting ∈ inside, waiting.1 ≠ .openGroup) ∧
      pending = inside ++ (.openGroup, opened) :: outside)
    {later : List Token} (next : found = tokens ++ .closeGroup :: later) :
    Placed found tokens
      { pending,
        operands :=
          (.condition shared, .applied place leftOrigin rightOrigin) :: operands } where
  spread := placed.spread.drop notGroup
  ordered := placed.ordered.apply place
  marked := placed.marked.apply combined (List.pairwise_cons.1 placed.spread.descending).1
  bounded := by
    intro operand member other inOperand
    rcases List.mem_cons.1 member with rfl | member
    · rcases List.mem_cons.1 inOperand with rfl | inOperand
      · exact placed.spread.lt_length _ List.mem_cons_self
      · rcases List.mem_append.1 inOperand with inLeft | inRight
        · exact placed.bounded (left, leftOrigin) (by simp) other inLeft
        · exact placed.bounded (right, rightOrigin) (by simp) other inRight
    · exact placed.bounded operand (by simp [member]) other inOperand
  operators := by
    intro other token atOther isOperator
    rcases placed.operators other token atOther isOperator with ⟨waiting, member⟩ | applied
    · rcases List.mem_cons.1 member with same | member
      · cases same
        exact .inr ⟨_, List.mem_cons_self, leftOrigin, rightOrigin, .here ..⟩
      · exact .inl ⟨waiting, member⟩
    · obtain ⟨operand, member, first, second, applies⟩ := applied
      rcases List.mem_cons.1 member with rfl | member
      · exact .inr ⟨_, List.mem_cons_self, first, second, .inRight applies ..⟩
      · rcases List.mem_cons.1 member with rfl | member
        · exact .inr ⟨_, List.mem_cons_self, first, second, .inLeft applies ..⟩
        · exact .inr ⟨operand, List.mem_cons_of_mem _ member, first, second, applies⟩
  applied := by
    intro operand member other first second applies
    rcases List.mem_cons.1 member with rfl | member
    · cases applies with
      | here => exact placed.placement notGroup combined group next
      | inLeft applies => exact placed.applied (left, leftOrigin) (by simp) _ _ _ applies
      | inRight applies => exact placed.applied (right, rightOrigin) (by simp) _ _ _ applies
    · exact placed.applied operand (by simp [member]) other first second applies

end

theorem group {opened : Nat} {pending : List (Pending × Nat)}
    {operands : List (Operand × Origin)}
    (placed : Placed found tokens { pending := (.openGroup, opened) :: pending, operands }) :
    Placed found (tokens ++ [.closeGroup]) { pending, operands } where
  spread := by
    have noneInside : ∀ waiting ∈ ([] : List (Pending × Nat)), waiting.1 ≠ .openGroup := by simp
    obtain ⟨before, inner, rfl, balanced, _, outside⟩ := Spread.group noneInside placed.spread
    rw [List.append_assoc, List.cons_append]
    exact outside.append balanced.group
  ordered := placed.ordered.skip rfl
  marked := ⟨placed.marked.markers, placed.marked.above⟩
  bounded := placed.bounded_snoc
  operators := by
    intro place token atPlace isOperator
    rcases getElem?_append_singleton_eq_some.1 atPlace with earlier | ⟨_, rfl⟩
    · refine (placed.operators place token earlier isOperator).imp_left ?_
      rintro ⟨operator, member⟩
      rcases List.mem_cons.1 member with same | member
      · cases same
        obtain ⟨parenthesis, atOpened, waits⟩ := placed.spread.token_at
        rw [earlier] at atOpened
        cases atOpened
        cases Token.eq_openGroup_of_waits? waits
        cases isOperator
      · exact ⟨operator, member⟩
    · cases isOperator
  applied := placed.applied

end Placed

theorem Closes.exists_group {pending : List (Pending × Nat)} {operands : List (Operand × Origin)}
    {held : PlacedStacks} {interner after : Interner}
    (closes : Closes pending operands interner held after) :
    ∃ inside opened, (∀ waiting ∈ inside, waiting.1 ≠ .openGroup) ∧
      pending = inside ++ (.openGroup, opened) :: held.pending := by
  induction closes with
  | group opened => exact ⟨[], opened, by simp, rfl⟩
  | @apply operator _ _ _ _ _ _ place _ _ _ _ _ notGroup _ _ ih =>
      obtain ⟨inside, opened, noGroup, rfl⟩ := ih
      refine ⟨(operator, place) :: inside, opened, ?_, rfl⟩
      intro waiting member
      rcases List.mem_cons.1 member with rfl | member
      · exact notGroup
      · exact noGroup waiting member

theorem Closes.placed {found tokens later : List Token} {pending : List (Pending × Nat)}
    {operands : List (Operand × Origin)} {held : PlacedStacks} {interner after : Interner}
    (closes : Closes pending operands interner held after)
    (next : found = tokens ++ .closeGroup :: later)
    (placed : Placed found tokens { pending, operands }) :
    Placed found (tokens ++ [.closeGroup]) held := by
  induction closes with
  | group => exact placed.group
  | apply notGroup combined closes ih =>
      obtain ⟨inside, opened, noGroup, same⟩ := closes.exists_group
      exact ih (placed.apply notGroup combined ⟨inside, opened, _, noGroup, same⟩ next)

theorem Placed.step {found tokens later : List Token} {token : Token} {held next : PlacedStacks}
    {interner after : Interner} (placed : Placed found tokens held)
    (isNext : found = tokens ++ token :: later)
    (step : held.Step tokens.length token interner next after) :
    Placed found (tokens ++ [token]) next := by
  cases step with
  | closeGroup closes => exact closes.placed isNext placed
  | wait waits notNegation => exact placed.wait waits notNegation
  | negation waits => exact placed.negation waits
  | operand isOperand => exact placed.operand isOperand

end PlacedStacks

theorem Reads.placed {start after : Interner} {found tokens : List Token} {held : PlacedStacks}
    (reads : Reads start tokens held after) (later : List Token) (all : found = tokens ++ later) :
    held.Placed found tokens := by
  induction reads generalizing later with
  | nil => exact .nil
  | @snoc tokens token _ _ _ _ _ step ih =>
      have next : found = tokens ++ token :: later := by rw [all, List.append_assoc]; rfl
      exact (ih _ next).step next step

section

variable {start after : Interner} {found : List Token} {shared : SharedCondition} {origin : Origin}

theorem ReadAs.placed (readAs : ReadAs start found shared origin after) :
    PlacedStacks.Placed found found
      { pending := [], operands := [(.condition shared, origin)] } :=
  Reads.placed readAs [] (List.append_nil found).symm

theorem ReadAs.applies {place : Nat} {token : Token}
    (readAs : ReadAs start found shared origin after) (atPlace : found[place]? = some token)
    (isOperator : token.isOperator = true) : ∃ left right, origin.Applies place left right := by
  rcases readAs.placed.operators place token atPlace isOperator with ⟨_, waits⟩ | applied
  · cases waits
  · obtain ⟨operand, member, left, right, applies⟩ := applied
    cases List.mem_singleton.1 member
    exact ⟨left, right, applies⟩

theorem ReadAs.placement {place : Nat} {left right : Origin}
    (readAs : ReadAs start found shared origin after) (applies : origin.Applies place left right) :
    Placement found place left right :=
  readAs.placed.applied _ List.mem_cons_self place left right applies

theorem ReadAs.mem_leaves_iff {place : Nat} (readAs : ReadAs start found shared origin after) :
    place ∈ origin.leaves ↔ ∃ token, found[place]? = some token ∧ token.isLeaf = true :=
  readAs.placed.ordered.mem_iff place

theorem ReadAs.ascending (readAs : ReadAs start found shared origin after) :
    origin.leaves.Pairwise (· < ·) :=
  readAs.placed.ordered.ascending

end

end SharedCondition

end FactRules
