import FactRules.Proofs.Junction

/-!
Conditions as they are read. An AND on the right of an AND gives its own terms, so that no AND ends
with an AND; OR likewise.
-/

namespace FactRules.Condition

mutual

/-- No AND ends with an AND, and no OR with an OR. -/
def Flat : Condition → Prop
  | .leaf _ => True
  | .all terms => (∀ last ∈ terms.getLast?, Junction.all.isNode last = false) ∧ AllFlat terms
  | .any terms => (∀ last ∈ terms.getLast?, Junction.any.isNode last = false) ∧ AllFlat terms
  | .not inner => Flat inner

def AllFlat : List Condition → Prop
  | [] => True
  | term :: terms => Flat term ∧ AllFlat terms

end

structure WellFormed (condition : Condition) : Prop where
  printable : condition.Printable
  flat : condition.Flat

theorem flat_node (junction : Junction) {list : List Condition} :
    (junction.node list).Flat ↔
      (∀ last ∈ list.getLast?, junction.isNode last = false) ∧ AllFlat list := by
  cases junction <;> exact Iff.rfl

theorem getLast?_cons_of_several {first : Condition} {terms : List Condition}
    (several : 2 ≤ terms.length) : (first :: terms).getLast? = terms.getLast? := by
  cases terms with
  | nil => simp at several
  | cons second terms => rw [List.getLast?_cons_cons]

theorem WellFormed.join (junction : Junction) {left right : Condition}
    (leftFormed : left.WellFormed) (rightFormed : right.WellFormed) :
    (junction.node (junction.terms left right)).WellFormed := by
  refine ⟨junction.printable_terms leftFormed.printable rightFormed.printable, ?_⟩
  rw [flat_node]
  rcases junction.terms_cases left right with ⟨list, rfl, same⟩ | ⟨apart, same⟩
  · obtain ⟨lastApart, allFlat⟩ := (flat_node junction).1 rightFormed.flat
    have several := (junction.printable_node.1 rightFormed.printable).1
    rw [same, getLast?_cons_of_several several]
    exact ⟨lastApart, leftFormed.flat, allFlat⟩
  · rw [same]
    refine ⟨?_, leftFormed.flat, rightFormed.flat, trivial⟩
    intro last isLast
    cases isLast
    exact apart

end FactRules.Condition
