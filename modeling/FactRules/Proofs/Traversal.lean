import FactRules.Proofs.Dependencies

/-!
What a walk through a condition visits. A place of the tree is the way to a node, by the child to go
on to at each node. Every place is visited once, after all places below it and all places to the
left of it. So the visits at and below one place are a run of the walk that nothing interrupts.
-/

namespace FactRules

inductive Comparison.Mentions (key : String) : Comparison → Prop
  | keyLiteral (operator : Operator) (literal : Literal) :
      Mentions key (.keyLiteral key operator literal)
  | left (operator : Operator) (right : String) : Mentions key (.keyKey key operator right)
  | right (left : String) (operator : Operator) : Mentions key (.keyKey left operator key)

theorem Comparison.mem_keys_iff {comparison : Comparison} {key : String} :
    key ∈ comparison.keys ↔ comparison.Mentions key := by
  constructor
  · intro member
    cases comparison with
    | keyLiteral other operator literal =>
        obtain rfl := List.mem_singleton.1 member
        exact .keyLiteral operator literal
    | keyKey left operator right =>
        rcases List.mem_cons.1 member with rfl | later
        · exact .left operator right
        · obtain rfl := List.mem_singleton.1 later
          exact .right left operator
    | literalLiteral left operator right => cases member
  · intro mentions
    cases mentions with
    | keyLiteral operator literal => exact List.mem_singleton_self key
    | left operator right => exact List.mem_cons_self
    | right left operator => exact List.mem_cons_of_mem left List.mem_cons_self

namespace Condition

def children : Condition → List Condition
  | .leaf _ => []
  | .all terms => terms
  | .any terms => terms
  | .not inner => [inner]

def at? : Condition → List Nat → Option Condition
  | condition, [] => some condition
  | condition, index :: place => condition.children[index]?.bind fun child => child.at? place

def among? (first : Nat) (terms : List Condition) : List Nat → Option Condition
  | [] => none
  | index :: place =>
      if first ≤ index then terms[index - first]?.bind fun term => term.at? place else none

/-- The first place is visited before the second one: it lies below it or to the left of it. -/
inductive Before : List Nat → List Nat → Prop
  | under (index : Nat) (place : List Nat) : Before (index :: place) []
  | left {index other : Nat} (place further : List Nat) :
      index < other → Before (index :: place) (other :: further)
  | within (index : Nat) {place further : List Nat} :
      Before place further → Before (index :: place) (index :: further)

theorem Before.irrefl (place : List Nat) : ¬ Before place place := by
  intro before
  induction place with
  | nil => cases before
  | cons index place ih =>
      cases before with
      | left _ _ less => exact Nat.lt_irrefl index less
      | within _ inside => exact ih inside

def Together (node? : List Nat → Option Condition) (places : List (List Nat)) (place : List Nat)
    (node : Condition) : Prop :=
  ∃ front inner back, places = front ++ inner ++ back ∧ inner.map node? = node.walk.map some ∧
    (∀ other ∈ inner, place <+: other) ∧ ∀ other ∈ front ++ back, ¬ place <+: other

/-- The nodes are visited at these places one after another. -/
structure Postorder (node? : List Nat → Option Condition) (nodes : List Condition)
    (places : List (List Nat)) : Prop where
  visited : places.map node? = nodes.map some
  complete : ∀ place node, node? place = some node → place ∈ places
  ordered : places.Pairwise Before
  together : ∀ place node, node? place = some node → Together node? places place node

theorem walk_eq_children (condition : Condition) :
    condition.walk = walkTerms condition.children ++ [condition] := by
  cases condition with
  | leaf comparison => rfl
  | all terms => rfl
  | any terms => rfl
  | not inner => rw [walk, children, walkTerms, walkTerms, List.append_nil]

theorem among?_children (condition : Condition) (index : Nat) (place : List Nat) :
    among? 0 condition.children (index :: place) = condition.at? (index :: place) := by
  rw [among?, if_pos index.zero_le, Nat.sub_zero, at?]

theorem among?_cons_self (first : Nat) (term : Condition) (terms : List Condition)
    (place : List Nat) : among? first (term :: terms) (first :: place) = term.at? place := by
  rw [among?, if_pos (Nat.le_refl first), Nat.sub_self, List.getElem?_cons_zero, Option.bind_some]

theorem among?_cons_of_ne {first index : Nat} (differs : index ≠ first) (term : Condition)
    (terms : List Condition) (place : List Nat) :
    among? first (term :: terms) (index :: place) =
      among? (first + 1) terms (index :: place) := by
  rcases Nat.lt_or_gt_of_ne differs with less | greater
  · rw [among?, among?, if_neg (by omega), if_neg (by omega)]
  · rw [among?, among?, if_pos (by omega), if_pos (by omega),
      show index - first = index - (first + 1) + 1 by omega, List.getElem?_cons_succ]

namespace Together

variable {node? other? : List Nat → Option Condition} {places more : List (List Nat)}
  {place : List Nat} {node : Condition}

theorem congr (together : Together node? places place node)
    (same : ∀ place ∈ places, other? place = node? place) :
    Together other? places place node := by
  obtain ⟨front, inner, back, rfl, own, below, beside⟩ := together
  refine ⟨front, inner, back, rfl, ?_, below, beside⟩
  rw [← own]
  refine List.map_congr_left fun place member => same place ?_
  exact List.mem_append_left _ (List.mem_append_right _ member)

theorem append_right (together : Together node? places place node)
    (apart : ∀ other ∈ more, ¬ place <+: other) : Together node? (places ++ more) place node := by
  obtain ⟨front, inner, back, rfl, own, below, beside⟩ := together
  refine ⟨front, inner, back ++ more, by simp only [List.append_assoc], own, below, ?_⟩
  rw [← List.append_assoc]
  exact List.forall_mem_append.2 ⟨beside, apart⟩

theorem append_left (together : Together node? places place node)
    (apart : ∀ other ∈ more, ¬ place <+: other) : Together node? (more ++ places) place node := by
  obtain ⟨front, inner, back, rfl, own, below, beside⟩ := together
  refine ⟨more ++ front, inner, back, by simp only [List.append_assoc], own, below, ?_⟩
  rw [List.append_assoc]
  exact List.forall_mem_append.2 ⟨apart, beside⟩

theorem map_cons (together : Together node? places place node) (index : Nat)
    (same : ∀ place, other? (index :: place) = node? place) :
    Together other? (places.map (index :: ·)) (index :: place) node := by
  obtain ⟨front, inner, back, rfl, own, below, beside⟩ := together
  refine ⟨front.map (index :: ·), inner.map (index :: ·), back.map (index :: ·), ?_, ?_, ?_, ?_⟩
  · simp only [List.map_append]
  · rw [List.map_map, ← own]
    exact List.map_congr_left fun place _ => same place
  · exact List.forall_mem_map.2 fun other inside =>
      List.cons_prefix_cons.2 ⟨rfl, below other inside⟩
  · rw [← List.map_append]
    exact List.forall_mem_map.2 fun other outside belowToo =>
      beside other outside (List.cons_prefix_cons.1 belowToo).2

end Together

namespace Postorder

variable {node? : List Nat → Option Condition} {nodes : List Condition} {places : List (List Nat)}

theorem exists_of_mem (postorder : Postorder node? nodes places) {place : List Nat}
    (member : place ∈ places) : ∃ node ∈ nodes, node? place = some node := by
  have found := List.mem_map_of_mem (f := node?) member
  rw [postorder.visited] at found
  obtain ⟨node, visited, same⟩ := List.mem_map.1 found
  exact ⟨node, visited, same.symm⟩

theorem mem_iff (postorder : Postorder node? nodes places) {node : Condition} :
    node ∈ nodes ↔ ∃ place, node? place = some node := by
  constructor
  · intro visited
    have found := List.mem_map_of_mem (f := some) visited
    rw [← postorder.visited] at found
    obtain ⟨place, -, same⟩ := List.mem_map.1 found
    exact ⟨place, same⟩
  · rintro ⟨place, found⟩
    obtain ⟨other, visited, same⟩ := postorder.exists_of_mem (postorder.complete place node found)
    obtain rfl := Option.some.inj (found.symm.trans same)
    exact visited

theorem nil (first : Nat) : Postorder (among? first []) (walkTerms []) [] where
  visited := rfl
  complete := by
    rintro (_ | ⟨index, place⟩) node found <;> simp [among?] at found
  ordered := .nil
  together := by
    rintro (_ | ⟨index, place⟩) node found <;> simp [among?] at found

theorem head {first : Nat} {terms : List Condition}
    (postorder : Postorder (among? first terms) nodes places) {place : List Nat}
    (member : place ∈ places) : ∃ index further, place = index :: further ∧ first ≤ index := by
  obtain ⟨node, -, found⟩ := postorder.exists_of_mem member
  cases place with
  | nil => cases found
  | cons index further =>
      refine ⟨index, further, rfl, ?_⟩
      by_contra less
      rw [among?, if_neg less] at found
      cases found

theorem cons {first : Nat} {term : Condition} {terms : List Condition}
    {laterPlaces : List (List Nat)} (inTerm : Postorder term.at? term.walk places)
    (later : Postorder (among? (first + 1) terms) (walkTerms terms) laterPlaces) :
    Postorder (among? first (term :: terms)) (walkTerms (term :: terms))
      (places.map (first :: ·) ++ laterPlaces) := by
  have onTerm := among?_cons_self first term terms
  have onLater : ∀ place ∈ laterPlaces,
      among? first (term :: terms) place = among? (first + 1) terms place := by
    intro place member
    obtain ⟨index, further, rfl, greater⟩ := later.head member
    exact among?_cons_of_ne (by omega) term terms further
  refine ⟨?visited, ?complete, ?ordered, ?together⟩
  case visited =>
    rw [List.map_append, List.map_map, List.map_congr_left onLater, later.visited, walkTerms,
      List.map_append, ← inTerm.visited]
    exact congrArg (· ++ _) (List.map_congr_left fun place _ => onTerm place)
  case complete =>
    rintro (_ | ⟨index, place⟩) node found
    · cases found
    · by_cases same : index = first
      · subst same
        rw [onTerm] at found
        exact List.mem_append_left _ (List.mem_map_of_mem (inTerm.complete place node found))
      · rw [among?_cons_of_ne same] at found
        exact List.mem_append_right _ (later.complete _ node found)
  case ordered =>
    refine List.pairwise_append.2 ⟨?_, later.ordered, ?_⟩
    · exact List.pairwise_map.2 (inTerm.ordered.imp (Before.within first))
    · intro place member other memberToo
      obtain ⟨place, -, rfl⟩ := List.mem_map.1 member
      obtain ⟨index, further, rfl, greater⟩ := later.head memberToo
      exact .left place further greater
  case together =>
    rintro (_ | ⟨index, place⟩) node found
    · cases found
    · by_cases same : index = first
      · subst same
        rw [onTerm] at found
        refine ((inTerm.together place node found).map_cons index onTerm).append_right ?_
        intro other member below
        obtain ⟨another, further, rfl, greater⟩ := later.head member
        have same := (List.cons_prefix_cons.1 below).1
        omega
      · rw [among?_cons_of_ne same] at found
        refine ((later.together _ node found).congr onLater).append_left ?_
        refine List.forall_mem_map.2 fun other _ below => same ?_
        exact (List.cons_prefix_cons.1 below).1

theorem ofChildren {condition : Condition}
    (postorder : Postorder (among? 0 condition.children) (walkTerms condition.children) places) :
    Postorder condition.at? condition.walk (places ++ [[]]) := by
  have onPlaces : ∀ place ∈ places, condition.at? place = among? 0 condition.children place := by
    intro place member
    obtain ⟨index, further, rfl, -⟩ := postorder.head member
    exact (among?_children condition index further).symm
  have visited : (places ++ [[]]).map condition.at? = condition.walk.map some := by
    rw [List.map_append, List.map_congr_left onPlaces, postorder.visited, walk_eq_children,
      List.map_append]
    rfl
  refine ⟨visited, ?complete, ?ordered, ?together⟩
  case complete =>
    rintro (_ | ⟨index, place⟩) node found
    · exact List.mem_append_right _ (List.mem_singleton_self [])
    · rw [← among?_children] at found
      exact List.mem_append_left _ (postorder.complete _ node found)
  case ordered =>
    refine List.pairwise_append.2 ⟨postorder.ordered, List.pairwise_singleton _ _, ?_⟩
    intro place member other root
    obtain rfl := List.mem_singleton.1 root
    obtain ⟨index, further, rfl, -⟩ := postorder.head member
    exact .under index further
  case together =>
    rintro (_ | ⟨index, place⟩) node found
    · obtain rfl := Option.some.inj found
      exact ⟨[], places ++ [[]], [], by simp, visited, fun other _ => List.nil_prefix, by simp⟩
    · rw [← among?_children] at found
      refine ((postorder.together _ node found).congr onPlaces).append_right ?_
      simp

end Postorder

mutual

theorem exists_postorder : (condition : Condition) →
    ∃ places, Postorder condition.at? condition.walk places
  | .leaf _ => ⟨_, .ofChildren (.nil 0)⟩
  | .all terms =>
      have ⟨_, postorder⟩ := exists_postorderTerms 0 terms
      ⟨_, .ofChildren postorder⟩
  | .any terms =>
      have ⟨_, postorder⟩ := exists_postorderTerms 0 terms
      ⟨_, .ofChildren postorder⟩
  | .not inner =>
      have ⟨_, postorder⟩ := exists_postorder inner
      ⟨_, .ofChildren (.cons postorder (.nil 1))⟩

theorem exists_postorderTerms (first : Nat) : (terms : List Condition) →
    ∃ places, Postorder (among? first terms) (walkTerms terms) places
  | [] => ⟨_, .nil first⟩
  | term :: terms =>
      have ⟨_, postorder⟩ := exists_postorder term
      have ⟨_, later⟩ := exists_postorderTerms (first + 1) terms
      ⟨_, .cons postorder later⟩

end

theorem mem_walk_iff {condition node : Condition} :
    node ∈ condition.walk ↔ ∃ place, condition.at? place = some node := by
  obtain ⟨places, postorder⟩ := exists_postorder condition
  exact postorder.mem_iff

theorem mem_keys_iff_mentions {condition : Condition} {key : String} :
    key ∈ condition.keys ↔ ∃ place comparison, condition.at? place = some (.leaf comparison) ∧
      comparison.Mentions key := by
  simp only [mem_keys, mem_walk_iff]
  constructor
  · rintro ⟨node, ⟨place, found⟩, own⟩
    cases node with
    | leaf comparison => exact ⟨place, comparison, found, Comparison.mem_keys_iff.1 own⟩
    | all terms => cases own
    | any terms => cases own
    | not inner => cases own
  · rintro ⟨place, comparison, found, mentions⟩
    exact ⟨.leaf comparison, ⟨place, found⟩, Comparison.mem_keys_iff.2 mentions⟩

/-- A walk visits every place of the tree once and in postorder, as many places as the size says,
and the tree itself last. The key paths are those that the comparisons at its places mention, in
ascending order and once each. -/
theorem walk_in_postorder (condition : Condition) :
    (∃ places, Postorder condition.at? condition.walk places ∧ places.Nodup ∧
      places.length = condition.size) ∧
    condition.walk.length = condition.size ∧
    condition.walk.getLast? = some condition ∧
    (∀ key, key ∈ condition.keys ↔ ∃ place comparison,
      condition.at? place = some (.leaf comparison) ∧ comparison.Mentions key) ∧
    condition.keys.Pairwise (· < ·) := by
  obtain ⟨places, postorder⟩ := exists_postorder condition
  have count : places.length = condition.walk.length := by
    simpa using congrArg List.length postorder.visited
  have once : places.Nodup := by
    refine postorder.ordered.imp ?_
    rintro place _ before rfl
    exact Before.irrefl place before
  refine ⟨⟨places, postorder, once, count.trans (length_walk condition)⟩, length_walk condition,
    ?_, fun key => mem_keys_iff_mentions, Table.ascending_ofList _⟩
  rw [walk_eq_children, List.getLast?_concat]

end Condition

end FactRules
