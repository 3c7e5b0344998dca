import FactRules.Proofs.EqualityTexts
import FactRules.Proofs.KeyPaths
import FactRules.Proofs.Requests

/-!
What it means to match pairs of keys and values. The comparisons of the pairs are interned, but
their texts tell them apart, so that each is asked for as it was made. It compares with what the
literal of its value stands for. Most values come back from their literals, while lists, maps and
objects come back as what the constructor of their type makes of their text.
-/

namespace FactRules

def equality (pair : String × Value) : Condition :=
  .leaf (.keyLiteral pair.1 .equal (.ofValue pair.2))

theorem Literal.unequated_ofValue {value : Value}
    (unequated : ¬ equalsSign <:+: value.typeName.toList) : (Literal.ofValue value).Unequated := by
  cases value with
  | null | bool | int | float | string => trivial
  | list | map | object => exact unequated

namespace Junction

variable {pairs : List (String × Value)}

theorem length_text_le_inner (junction : Junction) {terms : List Condition} {term : Condition}
    (member : term ∈ terms) : term.text.toList.length ≤ (junction.node terms).inner.length := by
  induction terms with
  | nil => cases member
  | cons first terms ih =>
      cases terms with
      | nil => rw [List.mem_singleton.1 member, Condition.inner_single]
      | cons second terms =>
          rw [Condition.inner_cons_cons, List.length_append]
          rcases List.mem_cons.1 member with rfl | later
          · omega
          · have shorter := ih later
            simp only [List.length_cons, List.length_append]
            omega

theorem text_ne_of_mem (junction : Junction) {terms : List Condition} {term : Condition}
    (member : term ∈ terms) : (junction.node terms).text ≠ term.text := by
  intro same
  have le := junction.length_text_le_inner member
  rw [← same, Condition.text_eq_inner] at le
  simp only [List.length_cons, List.length_append] at le
  omega

def Draws (junction : Junction) (pairs : List (String × Value)) (condition : Condition) : Prop :=
  condition ∈ pairs.map equality ∨ condition = junction.node (pairs.map equality)

theorem textDetermines_draws (junction : Junction)
    (unequated : ∀ pair ∈ pairs, ¬ equalsSign <:+: pair.2.typeName.toList) :
    Condition.TextDetermines (junction.Draws pairs) := by
  intro left right leftDrawn rightDrawn same
  rcases leftDrawn with leftMember | rfl <;> rcases rightDrawn with rightMember | rfl
  · obtain ⟨one, member, rfl⟩ := List.mem_map.1 leftMember
    obtain ⟨other, otherMember, rfl⟩ := List.mem_map.1 rightMember
    obtain ⟨keys, literals⟩ := equality_text_inj
      (Literal.unequated_ofValue (unequated one member))
      (Literal.unequated_ofValue (unequated other otherMember)) same
    rw [equality, equality, keys, literals]
  · exact absurd same.symm (junction.text_ne_of_mem leftMember)
  · exact absurd same (junction.text_ne_of_mem rightMember)
  · rfl

end Junction

namespace SharedCondition

open Interner

theorem conditions_equalities {family : Condition → Prop}
    (determines : Condition.TextDetermines family) :
    (pairs : List (String × Value)) → {interner : Interner} → interner.Within family →
    (∀ pair ∈ pairs, family (equality pair)) →
    conditions (equalities pairs interner).1 = pairs.map equality ∧
      (equalities pairs interner).2.Within family
  | [], _, within, _ => ⟨rfl, within⟩
  | (key, value) :: pairs, interner, within, drawn => by
      obtain ⟨first, others⟩ := List.forall_mem_cons.1 drawn
      let draft : SharedCondition := .leaf 0 (.keyLiteral key .equal (.ofValue value))
      have like : (intern draft interner).1.condition = equality (key, value) :=
        within.condition_intern determines first
      have after : (intern draft interner).2.Within family := within.intern first
      obtain ⟨rest, final⟩ := conditions_equalities determines pairs after others
      refine ⟨?_, final⟩
      change (intern draft interner).1.condition :: _ = _
      rw [like]
      exact congrArg _ rest

theorem evaluate_gathered (junction : Junction) {nothing : StateM Interner SharedCondition}
    {interner : Interner} (empty : interner.known = []) (pairs : List (String × Value))
    (unequated : ∀ pair ∈ pairs, ¬ equalsSign <:+: pair.2.typeName.toList)
    {σ : Type} (types : TypeTable) (source : Source σ)
    (ofNothing : (nothing interner).1.condition.evaluateFrom types source =
      junction.evaluate types source []) :
    ((equalities pairs >>= gathered junction nothing) interner).1.condition.evaluateFrom types
      source = junction.evaluate types source (pairs.map equality) := by
  have determines := junction.textDetermines_draws unequated
  have drawn : ∀ pair ∈ pairs, junction.Draws pairs (equality pair) :=
    fun _ member => .inl (List.mem_map_of_mem member)
  obtain ⟨like, within⟩ := conditions_equalities determines pairs (within_of_empty _ empty) drawn
  cases pairs with
  | nil => exact ofNothing
  | cons pair pairs =>
      change (gathered junction nothing (equalities (pair :: pairs) interner).1
        (equalities (pair :: pairs) interner).2).1.condition.evaluateFrom types source = _
      generalize (equalities (pair :: pairs) interner).1 = terms at like ⊢
      generalize (equalities (pair :: pairs) interner).2 = after at within ⊢
      match terms, like with
      | [term], like =>
          rw [← like]
          exact (junction.evaluate_single types source term.condition).symm
      | first :: second :: terms, like =>
          have node : (junction.shared 0 (first :: second :: terms)).condition =
              junction.node ((pair :: pairs).map equality) := by
            rw [junction.condition_shared, like]
          change (intern (junction.shared 0 (first :: second :: terms))
            after).1.condition.evaluateFrom types source = _
          rw [within.condition_intern determines (.inr node), node, junction.evaluate_node]

theorem evaluate_matchAll {interner : Interner} (empty : interner.known = [])
    {pairs : List (String × Value)}
    (unequated : ∀ pair ∈ pairs, ¬ equalsSign <:+: pair.2.typeName.toList)
    {σ : Type} (types : TypeTable) (source : Source σ) :
    (matchAll pairs interner).1.condition.evaluateFrom types source =
      Junction.all.evaluate types source (pairs.map equality) := by
  rw [matchAll_eq]
  apply evaluate_gathered .all empty pairs unequated types source
  have like : (always interner).1.condition = Condition.always :=
    (faithful_of_empty empty).condition_intern ⟨trivial, trivial⟩
  rw [like]
  rfl

theorem evaluate_matchAny {interner : Interner} (empty : interner.known = [])
    {pairs : List (String × Value)}
    (unequated : ∀ pair ∈ pairs, ¬ equalsSign <:+: pair.2.typeName.toList)
    {σ : Type} (types : TypeTable) (source : Source σ) :
    (matchAny pairs interner).1.condition.evaluateFrom types source =
      Junction.any.evaluate types source (pairs.map equality) := by
  rw [matchAny_eq]
  apply evaluate_gathered .any empty pairs unequated types source
  have like : (never interner).1.condition = Condition.never :=
    (faithful_of_empty empty).condition_intern ⟨trivial, trivial⟩
  rw [like]
  rfl

end SharedCondition

def literallyEquals (types : TypeTable) (pair : String × Value) (found : Value) :
    Except EvalError Bool := do
  let expected ← (Literal.ofValue pair.2).resolve types
  .ok (found.equals expected)

variable {σ : Type} {types : TypeTable}

theorem evaluate_equality {source : Source σ} {pair : String × Value} {state after : σ}
    {found : Value} (resolved : source.resolvePath pair.1 state = (.ok found, after)) :
    (equality pair).evaluateFrom types source state =
      match literallyEquals types pair found with
      | .ok answer => (.ok answer, after)
      | .error error => (.error error, state) := by
  rw [equality, Condition.evaluateFrom, literallyEquals]
  cases resolves : (Literal.ofValue pair.2).resolve types with
  | error error =>
      rw [Comparison.evaluateFrom, bind_apply, resolves]
      rfl
  | ok expected =>
      rw [Comparison.evaluateFrom_of_not_meetsList resolves
        (Comparison.not_meetsList_of_resolvePath resolved), resolved]
      rfl

namespace Junction

/-- The first decisive answer or error, and the other answer where there is none. -/
def decides {α ε : Type} (junction : Junction) (question : α → Except ε Bool) (items : List α) :
    Except ε Bool :=
  match junction with
  | .all => items.allM question
  | .any => items.anyM question

theorem decides_cons {α ε : Type} (junction : Junction) (question : α → Except ε Bool) (first : α)
    (items : List α) : junction.decides question (first :: items) =
      match question first with
      | .ok answer => if answer = junction.decisive then .ok answer
          else junction.decides question items
      | .error error => .error error := by
  cases junction with
  | all =>
      rw [decides, List.allM]
      rcases question first with _ | (_ | _) <;> rfl
  | any =>
      rw [decides, List.anyM]
      rcases question first with _ | (_ | _) <;> rfl

theorem evaluate_equalities (junction : Junction) {source : Source σ}
    {pairs : List (String × Value)} {founds : List Value} {state final : σ}
    (resolved : (pairs.map Prod.fst).mapM source.resolvePath state = (.ok founds, final)) :
    (junction.evaluate types source (pairs.map equality) state).1 =
      junction.decides (fun entry => literallyEquals types entry.1 entry.2)
        (pairs.zip founds) := by
  induction pairs generalizing founds state with
  | nil =>
      cases resolved
      rw [List.map_nil, junction.evaluate_nil]
      cases junction <;> rfl
  | cons pair pairs ih =>
      rw [List.map_cons, List.mapM_cons, bind_eq_ok_iff] at resolved
      obtain ⟨found, after, first, later⟩ := resolved
      obtain ⟨rest, last, others, ends⟩ := bind_eq_ok_iff.1 later
      cases ends
      rw [List.map_cons, junction.evaluate_cons, evaluate_equality first, List.zip_cons_cons,
        junction.decides_cons]
      cases literallyEquals types pair found with
      | error error => rfl
      | ok answer =>
          by_cases decisive : answer = junction.decisive
          · simp only [if_pos decisive]
          · simp only [if_neg decisive]
            exact ih others

def tests {α : Type} (junction : Junction) (test : α → Bool) (items : List α) : Bool :=
  match junction with
  | .all => items.all test
  | .any => items.any test

theorem tests_cons {α : Type} (junction : Junction) (test : α → Bool) (first : α)
    (items : List α) : junction.tests test (first :: items) =
      if test first = junction.decisive then test first else junction.tests test items := by
  cases junction <;> cases answer : test first <;> simp [tests, decisive, answer]

theorem tests_map {α β : Type} (junction : Junction) (test : β → Bool) (make : α → β)
    (items : List α) :
    junction.tests test (items.map make) = junction.tests (test ∘ make) items := by
  cases junction with
  | all => exact List.all_map
  | any => exact List.any_map

theorem decides_eq_ok {α ε : Type} (junction : Junction) {question : α → Except ε Bool}
    {test : α → Bool} {items : List α} (answers : ∀ item ∈ items, question item = .ok (test item)) :
    junction.decides question items = .ok (junction.tests test items) := by
  induction items with
  | nil => cases junction <;> rfl
  | cons item items ih =>
      obtain ⟨first, others⟩ := List.forall_mem_cons.1 answers
      rw [junction.decides_cons, first, junction.tests_cons]
      by_cases decisive : test item = junction.decisive
      · simp only [if_pos decisive]
      · simp only [if_neg decisive, ih others]

end Junction

theorem Value.resolvePath_source (object : Value) (path : String) (state : σ) :
    (object.source : Source σ).resolvePath path state = (object.resolvePath path, state) := by
  rw [Source.resolvePath, bind_apply, Source.read, bind_apply, Value.resolvePath, Value.read]
  simp only [Value.source, Reading.lift]
  rcases object.read? (Text.firstPiece '.' path) with error | none | found <;> rfl

theorem mapM_resolvePath {object : Value} {found : String → Value} {keys : List String}
    (resolved : ∀ key ∈ keys, object.resolvePath key = .ok (found key)) (state : σ) :
    keys.mapM (object.source : Source σ).resolvePath state = (.ok (keys.map found), state) := by
  induction keys with
  | nil => rfl
  | cons key keys ih =>
      obtain ⟨first, others⟩ := List.forall_mem_cons.1 resolved
      rw [List.mapM_cons, bind_eq_ok_iff]
      refine ⟨found key, state, ?_, ?_⟩
      · rw [object.resolvePath_source, first]
      · exact bind_eq_ok_iff.2 ⟨_, _, ih others, rfl⟩

theorem Junction.evaluate_restored (junction : Junction) {pairs : List (String × Value)}
    (restored : ∀ pair ∈ pairs, (Literal.ofValue pair.2).resolve types = .ok pair.2)
    {object : Value} {found : String → Value}
    (resolved : ∀ pair ∈ pairs, object.resolvePath pair.1 = .ok (found pair.1)) :
    (junction.evaluate types (object.source : Source Unit) (pairs.map equality) ()).1 =
      .ok (junction.tests (fun pair => (found pair.1).equals pair.2) pairs) := by
  have paths : ∀ key ∈ pairs.map Prod.fst, object.resolvePath key = .ok (found key) := by
    intro key member
    obtain ⟨pair, belongs, rfl⟩ := List.mem_map.1 member
    exact resolved pair belongs
  have zipped : (pairs.map id).zip (pairs.map (found ∘ Prod.fst)) =
      pairs.map fun pair => (pair, found pair.1) := List.zip_map'
  rw [List.map_id, ← List.map_map] at zipped
  have answers : ∀ entry ∈ pairs.map fun pair => (pair, found pair.1),
      literallyEquals types entry.1 entry.2 = .ok (entry.2.equals entry.1.2) := by
    intro entry member
    obtain ⟨pair, belongs, rfl⟩ := List.mem_map.1 member
    rw [literallyEquals, restored pair belongs]
    rfl
  rw [junction.evaluate_equalities (mapM_resolvePath paths ()), zipped,
    junction.decides_eq_ok answers, junction.tests_map]
  rfl

theorem Condition.filter_eq_ok {α : Type} {condition : Condition} {object : α → Value}
    {test : α → Bool} {items : List α}
    (answers : ∀ item ∈ items, condition.evaluate types (object item) = .ok (test item)) :
    condition.filter types object items = .ok (items.filter test) := by
  induction items with
  | nil => rfl
  | cons item items ih =>
      obtain ⟨first, others⟩ := List.forall_mem_cons.1 answers
      rw [Condition.filter, first, ih others, List.filter_cons]
      rfl

namespace SharedCondition

/-- From where nothing is known yet, matching pairs means that the values at the ends of the keys
equal the values of the pairs, where these come back from their literals: every value does that has
a literal of its own. What is filtered is then what matches, in its order. Any other value stands
for what the constructor of its type makes of its text, so that it is compared with that, and where
there is no such thing the error decides. -/
theorem matching_means_equality (types : TypeTable) {interner : Interner}
    (empty : interner.known = []) {pairs : List (String × Value)}
    (unequated : ∀ pair ∈ pairs, ¬ equalsSign <:+: pair.2.typeName.toList) :
    let everyPair := (matchAll pairs interner).1.condition
    let somePair := (matchAny pairs interner).1.condition
    ((∀ pair ∈ pairs, (Literal.ofValue pair.2).resolve types = .ok pair.2) →
      (∀ (object : Value) (found : String → Value),
        (∀ pair ∈ pairs, object.resolvePath pair.1 = .ok (found pair.1)) →
        everyPair.evaluate types object = .ok (pairs.all fun pair => (found pair.1).equals pair.2) ∧
        somePair.evaluate types object = .ok (pairs.any fun pair => (found pair.1).equals pair.2)) ∧
      ∀ {α : Type} (object : α → Value) (found : α → String → Value) (items : List α),
        (∀ item ∈ items, ∀ pair ∈ pairs,
          (object item).resolvePath pair.1 = .ok (found item pair.1)) →
        everyPair.filter types object items = .ok (items.filter fun item =>
          pairs.all fun pair => (found item pair.1).equals pair.2) ∧
        somePair.filter types object items = .ok (items.filter fun item =>
          pairs.any fun pair => (found item pair.1).equals pair.2)) ∧
    (∀ value : Value, (Literal.ofValue value).resolve types =
      match value with
      | .list _ | .map _ | .object .. => types.construct value.typeName value.text
      | _ => .ok value) ∧
    ∀ {σ : Type} (source : Source σ) (state final : σ) (founds : List Value),
      (pairs.map Prod.fst).mapM source.resolvePath state = (.ok founds, final) →
      (everyPair.evaluateFrom types source state).1 =
        (pairs.zip founds).allM (fun (pair, found) => literallyEquals types pair found) ∧
      (somePair.evaluateFrom types source state).1 =
        (pairs.zip founds).anyM (fun (pair, found) => literallyEquals types pair found) := by
  intro everyPair somePair
  have allOf {σ : Type} (source : Source σ) : everyPair.evaluateFrom types source =
      Junction.all.evaluate types source (pairs.map equality) :=
    evaluate_matchAll empty unequated types source
  have anyOf {σ : Type} (source : Source σ) : somePair.evaluateFrom types source =
      Junction.any.evaluate types source (pairs.map equality) :=
    evaluate_matchAny empty unequated types source
  refine ⟨fun restored => ⟨?_, ?_⟩, ?_, ?_⟩
  · intro object found resolved
    rw [Condition.evaluate, Condition.evaluate, allOf, anyOf]
    exact ⟨Junction.all.evaluate_restored restored resolved,
      Junction.any.evaluate_restored restored resolved⟩
  · intro α object found items resolved
    constructor
    · apply Condition.filter_eq_ok
      intro item member
      rw [Condition.evaluate, allOf]
      exact Junction.all.evaluate_restored restored (resolved item member)
    · apply Condition.filter_eq_ok
      intro item member
      rw [Condition.evaluate, anyOf]
      exact Junction.any.evaluate_restored restored (resolved item member)
  · intro value
    cases value <;> rfl
  · intro σ source state final founds resolved
    rw [allOf, anyOf]
    exact ⟨Junction.all.evaluate_equalities resolved, Junction.any.evaluate_equalities resolved⟩

def book (author : String) (size : Int64) : Value :=
  .map [("author", .map [("name", .string author)]), ("size", .int size)]

theorem matching_means_equality_books :
    let pairs := [("size", Value.int 2), ("author.name", .string "Ada")]
    let books := [book "Ada" 2, book "Bob" 2, book "Ada" 3, book "Bob" 3]
    let shelf := Value.map [("books", .list books)]
    (matchAll pairs {}).1.condition.filter .standard id books = .ok [book "Ada" 2] ∧
    (matchAny pairs {}).1.condition.filter .standard id books =
      .ok [book "Ada" 2, book "Bob" 2, book "Ada" 3] ∧
    ((matchAll [("books", .list books)] {}).1.condition.evaluateFrom .standard
      (shelf.source : Source Unit) ()).1 = .error (.unknownType "List") := by
  intro pairs books shelf
  let found (item : Value) (key : String) : Value := (item.resolvePath key).toOption.getD .null
  have restored : ∀ pair ∈ pairs, (Literal.ofValue pair.2).resolve .standard = .ok pair.2 :=
    List.forall_mem_cons.2 ⟨rfl, List.forall_mem_singleton.2 rfl⟩
  have resolved : ∀ item ∈ books, ∀ pair ∈ pairs,
      item.resolvePath pair.1 = .ok (found item pair.1) := by
    have each (author : String) (size : Int64) : ∀ pair ∈ pairs,
        (book author size).resolvePath pair.1 = .ok (found (book author size) pair.1) :=
      List.forall_mem_cons.2 ⟨rfl, List.forall_mem_singleton.2 rfl⟩
    simp only [books, List.forall_mem_cons]
    exact ⟨each _ _, each _ _, each _ _, each _ _, nofun⟩
  have known : (Interner.mk 0 []).known = [] := rfl
  have named : ∀ pair ∈ pairs, ¬ equalsSign <:+: pair.2.typeName.toList :=
    List.forall_mem_cons.2 ⟨no_equalsSign_of_no_blank (by decide),
      List.forall_mem_singleton.2 (no_equalsSign_of_no_blank (by decide))⟩
  have listed : ∀ pair ∈ [("books", Value.list books)],
      ¬ equalsSign <:+: pair.2.typeName.toList :=
    List.forall_mem_singleton.2 (no_equalsSign_of_no_blank (by decide))
  obtain ⟨equality, -, -⟩ := matching_means_equality .standard known named
  obtain ⟨-, -, general⟩ := matching_means_equality .standard known listed
  obtain ⟨every, some⟩ := (equality restored).2 id found books resolved
  have path : ∀ key ∈ ["books"], shelf.resolvePath key = .ok (Value.list books) :=
    List.forall_mem_singleton.2 rfl
  exact ⟨every, some,
    (general (shelf.source : Source Unit) () () _ (mapM_resolvePath path ())).1⟩

/-- No constructor makes lists. And where the name of a type looks like the end of one equality and
the beginning of another, two pairs have one text. -/
theorem matching_fails_on_lists :
    let object := Value.map [("k", .list [.int 1])]
    let one := ("k", Value.object 0 "A) = (B" "" fun _ => .ok none)
    let other := ("k = (A)", Value.object 1 "B" "" fun _ => .ok none)
    object.resolvePath "k" = .ok (.list [.int 1]) ∧
    (Value.list [.int 1]).equals (.list [.int 1]) = true ∧
    (matchAll [("k", .list [.int 1])] {}).1.condition.evaluate .standard object =
      .error (.unknownType "List") ∧
    conditions (equalities [one, other] {}).1 = [equality one, equality one] :=
  ⟨rfl, rfl, rfl, rfl⟩

end SharedCondition

end FactRules
