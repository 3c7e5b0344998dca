import FactRules.Proofs.Infix

/-!
Operands side by side. Where no group is empty, they are what makes an operator stand elsewhere than
between its operands: of two operands that nothing comes between, the last leaf of the one and the
first leaf of the other are on the two sides of some operator, which does not stand between them.
-/

namespace FactRules

namespace Origin

theorem Applies.leaves_subset {origin left right : Origin} {place : Nat}
    (applies : origin.Applies place left right) :
    left.leaves ⊆ origin.leaves ∧ right.leaves ⊆ origin.leaves := by
  induction applies with
  | here => exact ⟨List.subset_append_left _ _, List.subset_append_right _ _⟩
  | inLeft _ _ _ ih =>
      exact ⟨List.subset_append_of_subset_left _ ih.1, List.subset_append_of_subset_left _ ih.2⟩
  | inRight _ _ _ ih =>
      exact ⟨List.subset_append_of_subset_right _ ih.1, List.subset_append_of_subset_right _ ih.2⟩

structure Cuts (origin : Origin) (cut : Nat) (left right : Origin) : Prop where
  upTo : ∀ leaf ∈ left.leaves, leaf ≤ cut
  last : ∀ leaf ∈ origin.leaves, leaf ≤ cut → ∃ later ∈ left.leaves, leaf ≤ later
  first : ∀ leaf ∈ origin.leaves, cut < leaf → ∃ earlier ∈ right.leaves, earlier ≤ leaf

section

variable {inner outer first second : Origin} {cut place : Nat}

theorem Cuts.inLeft (cuts : inner.Cuts cut first second)
    (applies : inner.Applies place first second)
    (across : ∀ leaf ∈ inner.leaves, ∀ other ∈ outer.leaves, leaf < other)
    (above : ∃ leaf ∈ inner.leaves, cut < leaf) (root : Nat) :
    (applied root inner outer).Cuts cut first second := by
  refine ⟨cuts.upTo, ?_, ?_⟩
  · intro leaf member belowCut
    rcases List.mem_append.1 member with inInner | inOuter
    · exact cuts.last leaf inInner belowCut
    · obtain ⟨other, inInner, aboveCut⟩ := above
      have order := across other inInner leaf inOuter
      omega
  · intro leaf member aboveCut
    rcases List.mem_append.1 member with inInner | inOuter
    · exact cuts.first leaf inInner aboveCut
    · obtain ⟨earlier, inSecond⟩ := second.exists_leaf
      have order := across earlier (applies.leaves_subset.2 inSecond) leaf inOuter
      exact ⟨earlier, inSecond, Nat.le_of_lt order⟩

theorem Cuts.inRight (cuts : inner.Cuts cut first second)
    (applies : inner.Applies place first second)
    (across : ∀ leaf ∈ outer.leaves, ∀ other ∈ inner.leaves, leaf < other)
    (below : ∃ leaf ∈ inner.leaves, leaf ≤ cut) (root : Nat) :
    (applied root outer inner).Cuts cut first second := by
  refine ⟨cuts.upTo, ?_, ?_⟩
  · intro leaf member belowCut
    rcases List.mem_append.1 member with inOuter | inInner
    · obtain ⟨later, inFirst⟩ := first.exists_leaf
      have order := across leaf inOuter later (applies.leaves_subset.1 inFirst)
      exact ⟨later, inFirst, Nat.le_of_lt order⟩
    · exact cuts.last leaf inInner belowCut
  · intro leaf member aboveCut
    rcases List.mem_append.1 member with inOuter | inInner
    · obtain ⟨other, inInner, belowCut⟩ := below
      have order := across leaf inOuter other inInner
      omega
    · exact cuts.first leaf inInner aboveCut

theorem cuts_root (allBelow : ∀ leaf ∈ inner.leaves, leaf ≤ cut)
    (allAbove : ∀ leaf ∈ outer.leaves, cut < leaf) (root : Nat) :
    (applied root inner outer).Cuts cut inner outer := by
  refine ⟨allBelow, ?_, ?_⟩
  · intro leaf member belowCut
    rcases List.mem_append.1 member with inInner | inOuter
    · exact ⟨leaf, inInner, Nat.le_refl _⟩
    · have aboveCut := allAbove leaf inOuter
      omega
  · intro leaf member aboveCut
    rcases List.mem_append.1 member with inInner | inOuter
    · have belowCut := allBelow leaf inInner
      omega
    · exact ⟨leaf, inOuter, Nat.le_refl _⟩

end

/-- Wherever the leaves are cut in two, some operator has its operands on the two sides. -/
theorem exists_cut {origin : Origin} {cut : Nat} (ascending : origin.leaves.Pairwise (· < ·))
    (below : ∃ leaf ∈ origin.leaves, leaf ≤ cut) (above : ∃ leaf ∈ origin.leaves, cut < leaf) :
    ∃ place left right, origin.Applies place left right ∧ origin.Cuts cut left right := by
  induction origin with
  | leaf place =>
      obtain ⟨first, isFirst, belowCut⟩ := below
      obtain ⟨last, isLast, aboveCut⟩ := above
      rw [List.mem_singleton.1 isFirst] at belowCut
      rw [List.mem_singleton.1 isLast] at aboveCut
      omega
  | applied root left right leftIh rightIh =>
      obtain ⟨leftAscending, rightAscending, across⟩ := List.pairwise_append.1 ascending
      by_cases aboveLeft : ∃ leaf ∈ left.leaves, cut < leaf
      · have belowLeft : ∃ leaf ∈ left.leaves, leaf ≤ cut := by
          obtain ⟨leaf, member, belowCut⟩ := below
          obtain ⟨other, inLeft, aboveCut⟩ := aboveLeft
          rcases List.mem_append.1 member with here | inRight
          · exact ⟨leaf, here, belowCut⟩
          · have order := across other inLeft leaf inRight
            omega
        obtain ⟨place, first, second, applies, cuts⟩ := leftIh leftAscending belowLeft aboveLeft
        exact ⟨place, first, second, .inLeft applies _ _,
          cuts.inLeft applies across aboveLeft root⟩
      · have allBelow : ∀ leaf ∈ left.leaves, leaf ≤ cut := by
          intro leaf member
          exact Nat.le_of_not_lt fun aboveCut => aboveLeft ⟨leaf, member, aboveCut⟩
        by_cases belowRight : ∃ leaf ∈ right.leaves, leaf ≤ cut
        · have aboveRight : ∃ leaf ∈ right.leaves, cut < leaf := by
            obtain ⟨leaf, member, aboveCut⟩ := above
            rcases List.mem_append.1 member with inLeft | here
            · have belowCut := allBelow leaf inLeft
              omega
            · exact ⟨leaf, here, aboveCut⟩
          obtain ⟨place, first, second, applies, cuts⟩ :=
            rightIh rightAscending belowRight aboveRight
          exact ⟨place, first, second, .inRight applies _ _,
            cuts.inRight applies across belowRight root⟩
        · have allAbove : ∀ leaf ∈ right.leaves, cut < leaf := by
            intro leaf member
            exact Nat.lt_of_not_le fun belowCut => belowRight ⟨leaf, member, belowCut⟩
          exact ⟨root, left, right, .here _ _ _, cuts_root allBelow allAbove root⟩

end Origin

theorem mem_of_getElem?_between {α : Type} {front between back : List α} {place : Nat} {found : α}
    (atPlace : (front ++ (between ++ back))[place]? = some found) (behind : front.length ≤ place)
    (before : place < front.length + between.length) : found ∈ between := by
  rw [List.getElem?_append_right behind, List.getElem?_append_left (by omega)] at atPlace
  exact List.mem_of_getElem? atPlace

namespace SharedCondition

section

variable {start after : Interner} {found : List Token} {shared : SharedCondition} {origin : Origin}

theorem ReadAs.balanced (readAs : ReadAs start found shared origin after) :
    Token.Balanced found :=
  (waitsAlong_of_ofTokens (ofTokens_eq_ok_iff.2 ⟨origin, readAs⟩)).balanced

theorem ReadAs.leaf_behind {place : Nat} {token : Token}
    (readAs : ReadAs start found shared origin after) (allInfix : Token.AllInfix found origin)
    (atPlace : found[place]? = some token) (isOperator : token.isOperator = true) :
    ∃ opened closed leaf, Token.Innermost found opened place closed ∧ leaf ∈ origin.leaves ∧
      place < leaf ∧ leaf < closed := by
  obtain ⟨left, right, applies⟩ := readAs.applies atPlace isOperator
  obtain ⟨leaf, inRight⟩ := right.exists_leaf
  have inOrigin := applies.leaves_subset.2 inRight
  have inPlaces := right.leaves_subset_places inRight
  by_cases isNegation : token.waits? = some .not
  · have placement := readAs.placement applies
    obtain ⟨opened, closed, innermost, within⟩ := placement.group
    have behind := (placement.negation token atPlace isNegation).2 leaf inPlaces
    exact ⟨opened, closed, leaf, innermost, inOrigin, behind,
      within leaf (List.mem_append_right _ inPlaces)⟩
  · have isBinary : token.isBinary = true := by simp [Token.isBinary, isOperator, isNegation]
    obtain ⟨opened, closed, innermost, _, behind⟩ :=
      allInfix place token left right atPlace isBinary applies
    exact ⟨opened, closed, leaf, innermost, inOrigin, behind leaf inPlaces⟩

theorem ReadAs.leaf_before {place : Nat} {token : Token}
    (readAs : ReadAs start found shared origin after) (allInfix : Token.AllInfix found origin)
    (atPlace : found[place]? = some token) (isBinary : token.isBinary = true) :
    ∃ opened closed leaf, Token.Innermost found opened place closed ∧ leaf ∈ origin.leaves ∧
      opened < leaf ∧ leaf < place := by
  have isOperator : token.isOperator = true := (Bool.and_eq_true_iff.1 isBinary).1
  obtain ⟨left, right, applies⟩ := readAs.applies atPlace isOperator
  obtain ⟨leaf, inLeft⟩ := left.exists_leaf
  obtain ⟨opened, closed, innermost, before, _⟩ :=
    allInfix place token left right atPlace isBinary applies
  exact ⟨opened, closed, leaf, innermost, applies.leaves_subset.1 inLeft,
    before leaf (left.leaves_subset_places inLeft)⟩

theorem ReadAs.not_mem_leaves {front between back : List Token} {place : Nat}
    (readAs : ReadAs start found shared origin after)
    (shape : found = front ++ (between ++ back))
    (parentheses : ∀ token ∈ between, token.isParenthesis = true)
    (behind : front.length ≤ place) (before : place < front.length + between.length) :
    place ∉ origin.leaves := by
  intro member
  obtain ⟨token, atPlace, isLeaf⟩ := readAs.mem_leaves_iff.1 member
  rw [shape] at atPlace
  have inside := mem_of_getElem?_between atPlace behind before
  rw [Token.isLeaf_of_isParenthesis (parentheses token inside)] at isLeaf
  cases isLeaf

theorem ReadAs.exists_leaf_ahead {front back : List Token} {token : Token}
    (readAs : ReadAs start (front ++ token :: back) shared origin after)
    (allInfix : Token.AllInfix (front ++ token :: back) origin)
    (noneEmpty : ¬[.openGroup, .closeGroup] <:+: front ++ token :: back)
    (begun : token.begins = true) :
    ∃ between leaf later, token :: back = between ++ leaf :: later ∧
      (∀ token ∈ between, token.isParenthesis = true) ∧ leaf.isLeaf = true := by
  rcases Token.exists_first_other (token :: back) with
    all | ⟨between, other, later, same, parentheses, notParenthesis⟩
  · cases Token.eq_openGroup_of_begins begun (all token List.mem_cons_self)
    have empty := readAs.balanced.empty_of_back (List.suffix_append front _) fun other member =>
      all other (List.mem_cons_of_mem _ member)
    exact absurd (empty.trans (List.suffix_append _ _).isInfix) noneEmpty
  · cases isLeaf : other.isLeaf with
    | true => exact ⟨between, other, later, same, parentheses, isLeaf⟩
    | false =>
        cases between with
        | nil =>
            cases same
            simp [Token.begins, isLeaf, Token.ne_openGroup_of_not_isParenthesis notParenthesis]
              at begun
        | cons first between =>
            cases same
            cases Token.eq_openGroup_of_begins begun (parentheses _ List.mem_cons_self)
            have atPlace : (front ++ .openGroup :: (between ++ other :: later))[
                front.length + (between.length + 1)]? = some other := by
              simp
            obtain ⟨opened, closed, leaf, innermost, inOrigin, behind, before⟩ :=
              readAs.leaf_before allInfix atPlace
                (Token.isBinary_of_not_isLeaf notParenthesis isLeaf)
            have shape : front ++ .openGroup :: (between ++ other :: later) =
                front ++ ((.openGroup :: between) ++ other :: later) := rfl
            have inFront : leaf < front.length := by
              by_contra notInFront
              exact readAs.not_mem_leaves shape parentheses (Nat.le_of_not_lt notInFront) before
                inOrigin
            obtain ⟨inner, balanced, isSuffix⟩ :=
              (shape ▸ innermost).exists_before rfl (Nat.lt_trans behind inFront)
            have empty := balanced.empty_of_back isSuffix fun token member =>
              parentheses token (List.mem_cons_of_mem _ member)
            exact absurd (empty.trans ⟨front, other :: later, by simp⟩) noneEmpty

theorem ReadAs.exists_operand_behind {front back : List Token} {token : Token}
    (readAs : ReadAs start (front ++ token :: back) shared origin after)
    (allInfix : Token.AllInfix (front ++ token :: back) origin)
    (noneEmpty : ¬[.openGroup, .closeGroup] <:+: front ++ token :: back)
    (ended : token.ends = true) :
    ∃ earlier operand between, front ++ [token] = earlier ++ operand :: between ∧
      (∀ token ∈ between, token.isParenthesis = true) ∧ operand.isOperand = true := by
  rcases Token.exists_last_other (front ++ [token]) with
    all | ⟨earlier, other, between, same, parentheses, notParenthesis⟩
  · cases Token.eq_closeGroup_of_ends ended (all token (by simp))
    have isPrefix : front ++ [.closeGroup] <+: front ++ .closeGroup :: back := ⟨back, by simp⟩
    have empty := readAs.balanced.empty_of_front isPrefix fun other member =>
      all other (List.mem_append_left _ member)
    exact absurd (empty.trans isPrefix.isInfix) noneEmpty
  · cases isOperand : other.isOperand with
    | true => exact ⟨earlier, other, between, same, parentheses, isOperand⟩
    | false =>
        cases between using List.reverseRecOn with
        | nil =>
            obtain ⟨rfl, sameToken⟩ := List.append_inj' same rfl
            cases sameToken
            simp [Token.ends, isOperand, Token.ne_closeGroup_of_not_isParenthesis notParenthesis]
              at ended
        | append_singleton between last =>
            have regrouped : front ++ [token] = earlier ++ other :: between ++ [last] := by
              simpa using same
            obtain ⟨rfl, sameToken⟩ := List.append_inj' regrouped rfl
            cases sameToken
            cases Token.eq_closeGroup_of_ends ended (parentheses token (by simp))
            have shape : earlier ++ other :: between ++ Token.closeGroup :: back =
                earlier ++ [other] ++ (between ++ [.closeGroup] ++ back) := by simp
            have atPlace : (earlier ++ other :: between ++ Token.closeGroup :: back)[
                earlier.length]? = some other := by
              simp
            obtain ⟨opened, closed, leaf, innermost, inOrigin, behind, before⟩ :=
              readAs.leaf_behind allInfix atPlace
                (Token.isOperator_of_not_isOperand notParenthesis isOperand)
            have pastAll : (earlier ++ [other]).length + (between ++ [Token.closeGroup]).length ≤
                leaf := by
              by_contra notPast
              refine readAs.not_mem_leaves shape parentheses ?_ (Nat.lt_of_not_le notPast) inOrigin
              rw [List.length_append]
              exact behind
            obtain ⟨inner, balanced, isPrefix⟩ := (shape ▸ innermost).exists_behind (by simp)
              (Nat.le_trans pastAll (Nat.le_of_lt before))
            have empty := balanced.empty_of_front isPrefix fun token member =>
              parentheses token (List.mem_append_left _ member)
            exact absurd (empty.trans ⟨earlier ++ [other], back, by simp⟩) noneEmpty

theorem ReadAs.not_adjacent {earlier between later : List Token} {operand leaf : Token}
    (readAs : ReadAs start found shared origin after) (allInfix : Token.AllInfix found origin)
    (shape : found = earlier ++ [operand] ++ (between ++ leaf :: later))
    (parentheses : ∀ token ∈ between, token.isParenthesis = true)
    (isOperand : operand.isOperand = true) : leaf.isLeaf = false := by
  by_contra isLeaf
  rw [Bool.not_eq_false] at isLeaf
  have atOperand : found[earlier.length]? = some operand := by simp [shape]
  have atLeaf : found[(earlier ++ [operand]).length + between.length]? = some leaf := by
    rw [shape, List.getElem?_append_right (by omega)]
    simp
  have operandMember : earlier.length ∈ origin.leaves :=
    readAs.mem_leaves_iff.2 ⟨operand, atOperand, by simp [Token.isLeaf, isOperand]⟩
  have leafMember : (earlier ++ [operand]).length + between.length ∈ origin.leaves :=
    readAs.mem_leaves_iff.2 ⟨leaf, atLeaf, isLeaf⟩
  have order : earlier.length < (earlier ++ [operand]).length + between.length := by
    rw [List.length_append]
    simp
    omega
  obtain ⟨place, left, right, applies, cuts⟩ := Origin.exists_cut readAs.ascending
    ⟨_, operandMember, Nat.le_refl _⟩ ⟨_, leafMember, order⟩
  obtain ⟨last, inLeft, fromOperand⟩ := cuts.last _ operandMember (Nat.le_refl _)
  obtain ⟨first, inRight, upToLeaf⟩ := cuts.first _ leafMember order
  have placement := readAs.placement applies
  obtain ⟨token, atPlace, isOperator⟩ := placement.operator
  by_cases isNegation : token.waits? = some .not
  · obtain ⟨rfl, _⟩ := placement.negation token atPlace isNegation
    have upTo := cuts.upTo last inLeft
    rw [List.mem_singleton.1 inLeft] at upTo fromOperand
    have same : place = earlier.length := by omega
    rw [same, atOperand] at atPlace
    cases atPlace
    rw [Token.isOperand_of_waits? isNegation] at isOperand
    cases isOperand
  · have isBinary : token.isBinary = true := by simp [Token.isBinary, isOperator, isNegation]
    obtain ⟨_, _, _, before, behind⟩ := allInfix place token left right atPlace isBinary applies
    have afterOperand := (before last (left.leaves_subset_places inLeft)).2
    have beforeLeaf := (behind first (right.leaves_subset_places inRight)).1
    have inBetween : token ∈ between := by
      rw [shape] at atPlace
      refine mem_of_getElem?_between atPlace ?_ (by omega)
      rw [List.length_append]
      simp
      omega
    rw [Token.isOperator_of_isParenthesis (parentheses token inBetween)] at isOperator
    cases isOperator

theorem ReadAs.apart (readAs : ReadAs start found shared origin after)
    (allInfix : Token.AllInfix found origin)
    (noneEmpty : ¬[.openGroup, .closeGroup] <:+: found) : Token.Apart found := by
  rintro first second ⟨front, back, same⟩ ended
  by_contra notApart
  have begun : second.begins = true := by simpa using notApart
  have fromFirst : found = front ++ first :: second :: back := by simp [← same]
  have fromSecond : found = front ++ [first] ++ second :: back := by simp [← same]
  obtain ⟨earlier, operand, between, upToFirst, allBetween, isOperand⟩ :=
    (fromFirst ▸ readAs).exists_operand_behind (fromFirst ▸ allInfix) (fromFirst ▸ noneEmpty) ended
  obtain ⟨ahead, leaf, later, behindFirst, allAhead, isLeaf⟩ :=
    (fromSecond ▸ readAs).exists_leaf_ahead (fromSecond ▸ allInfix) (fromSecond ▸ noneEmpty) begun
  have shape : found = earlier ++ [operand] ++ (between ++ ahead ++ leaf :: later) := by
    rw [fromSecond, upToFirst, behindFirst]
    simp
  have notLeaf := readAs.not_adjacent allInfix shape (by
    intro token member
    rcases List.mem_append.1 member with inBetween | inAhead
    · exact allBetween token inBetween
    · exact allAhead token inAhead) isOperand
  rw [isLeaf] at notLeaf
  cases notLeaf

end

end SharedCondition

end FactRules
