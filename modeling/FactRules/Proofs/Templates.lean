import FactRules.Template

/-!
Templates that take no bindings. A text with every percent sign doubled is written as it was, and a
text that is written without any binding is plain or loses percent signs.
-/

namespace FactRules.Template

def doubledCharacter (character : Char) : List Char :=
  if character = '%' then ['%', '%'] else [character]

def doubled (text : String) : String :=
  String.ofList (text.toList.flatMap doubledCharacter)

theorem expandFrom_of_ne {character : Char} (differs : character ≠ '%') (index : Nat)
    (bindings : List Value) (rest : List Char) :
    expandFrom index bindings (character :: rest) =
      (character :: ·) <$> expandFrom index bindings rest := by
  rw [expandFrom]
  · rintro _ same _
    exact differs same
  · rintro _ _ same _
    exact differs same

theorem expandFrom_conversion {letter : Char} {conversion : Conversion}
    (isConversion : Conversion.ofLetter? letter = some conversion) (index : Nat) (binding : Value)
    (later : List Value) (rest : List Char) :
    expandFrom index (binding :: later) ('%' :: letter :: rest) =
      (write conversion binding).bind fun text =>
        (text.toList ++ ·) <$> expandFrom (index + 1) later rest := by
  have single : letter ≠ '%' := by
    rintro rfl
    cases isConversion
  rw [expandFrom]
  · simp only [isConversion]
    rfl
  · exact single

theorem expandFrom_doubled (index : Nat) (bindings : List Value) (characters : List Char) :
    expandFrom index bindings (characters.flatMap doubledCharacter) = .ok characters := by
  induction characters with
  | nil => rfl
  | cons character rest ih =>
      rw [List.flatMap_cons]
      by_cases percent : character = '%'
      · subst percent
        have shape : doubledCharacter '%' = ['%', '%'] := rfl
        rw [shape, List.cons_append, List.cons_append, List.nil_append, expandFrom, ih]
        rfl
      · have shape : doubledCharacter character = [character] := if_neg percent
        rw [shape, List.singleton_append, expandFrom_of_ne percent, ih]
        rfl

theorem expand_doubled (text : String) (bindings : List Value) :
    expand (doubled text) bindings = .ok text := by
  rw [expand, doubled, String.toList_ofList, expandFrom_doubled]
  exact congrArg Except.ok String.ofList_toList

/-- No percent sign stands before another one or before the letter of a conversion. -/
def Plain (text : List Char) : Prop :=
  ∀ before letter after, text = before ++ '%' :: letter :: after →
    letter ≠ '%' ∧ Conversion.ofLetter? letter = none

theorem plain_nil : Plain [] := by
  intro before letter after same
  simp at same

theorem plain_cons_iff {character : Char} {rest : List Char} :
    Plain (character :: rest) ↔
      (character = '%' → ∀ letter ∈ rest.head?,
        letter ≠ '%' ∧ Conversion.ofLetter? letter = none) ∧ Plain rest := by
  constructor
  · intro plain
    refine ⟨?_, fun before letter after same =>
      plain (character :: before) letter after (by rw [same]; rfl)⟩
    rintro rfl letter isHead
    obtain ⟨after, rfl⟩ := List.head?_eq_some_iff.1 isHead
    exact plain [] letter after rfl
  · rintro ⟨atHead, plain⟩ before letter after same
    cases before with
    | nil =>
        obtain ⟨isPercent, isRest⟩ := List.cons.inj same
        exact atHead isPercent letter (by simp [isRest])
    | cons first before => exact plain before letter after (List.cons.inj same).2

theorem expandFrom_of_plain (index : Nat) (bindings : List Value) {text : List Char}
    (plain : Plain text) : expandFrom index bindings text = .ok text := by
  induction text with
  | nil => rfl
  | cons character rest ih =>
      obtain ⟨atHead, plainRest⟩ := plain_cons_iff.1 plain
      have written := ih plainRest
      have kept : expandFrom index bindings (character :: rest) =
          (character :: ·) <$> expandFrom index bindings rest := by
        by_cases percent : character = '%'
        · subst percent
          cases rest with
          | nil => rfl
          | cons letter later =>
              obtain ⟨single, noConversion⟩ := atHead rfl letter rfl
              rw [expandFrom]
              · simp only [noConversion]
              · exact single
        · exact expandFrom_of_ne percent index bindings rest
      rw [kept, written]
      rfl

theorem expand_of_plain {text : String} (plain : Plain text.toList) (bindings : List Value) :
    expand text bindings = .ok text := by
  rw [expand, expandFrom_of_plain 0 bindings plain]
  exact congrArg Except.ok String.ofList_toList

theorem plain_of_not_mem {text : List Char} (noPercent : '%' ∉ text) : Plain text := by
  rintro before letter after rfl
  simp at noPercent

theorem plain_or_count_lt {index : Nat} {bindings : List Value} {text expanded : List Char}
    (noBindings : bindings = []) (written : expandFrom index bindings text = .ok expanded) :
    Plain text ∨ expanded.count '%' < text.count '%' := by
  induction index, bindings, text using expandFrom.induct generalizing expanded with
  | case1 => exact Or.inl plain_nil
  | case2 index bindings rest ih =>
      rw [expandFrom] at written
      obtain ⟨later, writtenRest, rfl⟩ := map_eq_ok_iff.1 written
      refine Or.inr ?_
      simp only [List.count_cons_self]
      rcases ih noBindings writtenRest with plain | lost
      · rw [expandFrom_of_plain index bindings plain] at writtenRest
        rw [Except.ok.inj writtenRest]
        omega
      · omega
  | case3 index bindings letter rest single noConversion ih =>
      rw [expandFrom] at written
      · simp only [noConversion] at written
        obtain ⟨later, writtenRest, rfl⟩ := map_eq_ok_iff.1 written
        rcases ih noBindings writtenRest with plain | lost
        · refine Or.inl (plain_cons_iff.2 ⟨?_, plain⟩)
          rintro _ _ ⟨⟩
          exact ⟨single, noConversion⟩
        · refine Or.inr ?_
          simp only [List.count_cons_self]
          omega
      · exact single
  | case4 index letter rest single conversion isConversion =>
      rw [expandFrom] at written
      · simp [isConversion] at written
      · exact single
  | case5 => cases noBindings
  | case6 index bindings character rest notDouble notLetter ih =>
      rw [expandFrom] at written
      · obtain ⟨later, writtenRest, rfl⟩ := map_eq_ok_iff.1 written
        rcases ih noBindings writtenRest with plain | lost
        · refine Or.inl (plain_cons_iff.2 ⟨?_, plain⟩)
          intro percent letter isHead
          obtain ⟨others, rfl⟩ := List.head?_eq_some_iff.1 isHead
          exact (notLetter letter others percent rfl).elim
        · refine Or.inr ?_
          simp only [List.count_cons]
          omega
      · exact notDouble
      · exact notLetter

end FactRules.Template
