import FactRules.Model
import Mathlib.Data.List.Forall2
import Mathlib.Data.List.Nodup
import Mathlib.Data.List.Perm.Basic

/-!
The spellings of a rule record. A member of an object gives a field under any of the field's names,
and a record is what its fields read as, whatever their order, the names chosen and the members
beside them. An array gives the fields in their order.
-/

namespace FactRules

namespace Record

theorem Field.mem_all (field : Field) : field ∈ Field.all := by
  cases field <;> decide

theorem Field.ofName?_eq_some_iff {name : String} {field : Field} :
    Field.ofName? name = some field ↔ name ∈ field.names := by
  constructor
  · intro found
    simpa using List.find?_some found
  · intro member
    have own : ∀ field ∈ Field.all, ∀ name ∈ field.names, Field.ofName? name = some field := by
      decide
    exact own field field.mem_all name member

def Gives (field : Field) (member : List Json.Piece × Json.Tree) : Prop :=
  ∃ name ∈ field.names, Json.Piece.text? member.1 = some name

instance (field : Field) : DecidablePred (Gives field) := fun member =>
  inferInstanceAs (Decidable (∃ name ∈ field.names, Json.Piece.text? member.1 = some name))

def Named (member : List Json.Piece × Json.Tree) : Prop :=
  ∃ name, Json.Piece.text? member.1 = some name

section

variable {members others : List (List Json.Piece × Json.Tree)} {field : Field}

theorem Gives.named {member : List Json.Piece × Json.Tree} (gives : Gives field member) :
    Named member := by
  obtain ⟨name, -, read⟩ := gives
  exact ⟨name, read⟩

def given? (member : List Json.Piece × Json.Tree) : Option (Field × Json.Tree) :=
  ((Json.Piece.text? member.1).bind Field.ofName?).map (·, member.2)

theorem given?_eq_some_iff {member : List Json.Piece × Json.Tree} {entry : Field × Json.Tree} :
    given? member = some entry ↔ Gives entry.1 member ∧ member.2 = entry.2 := by
  obtain ⟨field, tree⟩ := entry
  simp only [given?, Gives, Option.map_eq_some_iff, Option.bind_eq_some_iff, Prod.mk.injEq,
    Field.ofName?_eq_some_iff]
  constructor
  · rintro ⟨_, ⟨name, read, named⟩, rfl, held⟩
    exact ⟨⟨name, named, read⟩, held⟩
  · rintro ⟨⟨name, named, read⟩, held⟩
    exact ⟨field, ⟨name, read, named⟩, rfl, held⟩

theorem fieldsOfMembers?_eq_some_iff {fields : List (Field × Json.Tree)} :
    fieldsOfMembers? members = some fields ↔
      (∀ member ∈ members, Named member) ∧ members.filterMap given? = fields := by
  induction members generalizing fields with
  | nil => simp [fieldsOfMembers?]
  | cons member members ih =>
      obtain ⟨pieces, tree⟩ := member
      cases read : Json.Piece.text? pieces with
      | none => simp [fieldsOfMembers?, Named, read]
      | some name =>
          cases field : Field.ofName? name <;>
            simp [fieldsOfMembers?, given?, Named, read, field, Option.bind_eq_some_iff, ih,
              and_assoc]

theorem mem_filterMap_given? {tree : Json.Tree} : (field, tree) ∈ members.filterMap given? ↔
    ∃ member ∈ members, Gives field member ∧ member.2 = tree := by
  simp only [List.mem_filterMap, given?_eq_some_iff]

def Once (members : List (List Json.Piece × Json.Tree)) : Prop :=
  members.Pairwise fun first second => ∀ field, Gives field first → ¬ Gives field second

theorem nodup_iff_once :
    ((members.filterMap given?).map Prod.fst).Nodup ↔ Once members := by
  rw [List.Nodup, List.pairwise_map, List.pairwise_filterMap]
  refine List.Pairwise.iff fun first second => ?_
  simp only [given?_eq_some_iff]
  constructor
  · intro apart field gives givesToo
    exact apart (field, first.2) ⟨gives, rfl⟩ (field, second.2) ⟨givesToo, rfl⟩ rfl
  · rintro apart entry ⟨gives, -⟩ other ⟨givesToo, -⟩ same
    exact apart entry.1 gives (same ▸ givesToo)

/-- What a field is: what the member that gives it reads as, or the default where none does. -/
def Holds {α : Type} (members : List (List Json.Piece × Json.Tree)) (field : Field)
    (standard : Option α) (read? : Json.Tree → Option α) (value : α) : Prop :=
  (∃ member ∈ members, Gives field member ∧ read? member.2 = some value) ∨
    (∀ member ∈ members, ¬ Gives field member) ∧ standard = some value

theorem fieldOr?_eq_some_iff {α : Type} (once : Once members) {standard : Option α}
    {read? : Json.Tree → Option α} {value : α} :
    fieldOr? (members.filterMap given?) field standard read? = some value ↔
      Holds members field standard read? value := by
  rw [fieldOr?]
  split
  case h_1 found tree first =>
    obtain rfl : found = field := by simpa using List.find?_some first
    obtain ⟨member, belongs, gives, rfl⟩ :=
      mem_filterMap_given?.1 (List.mem_of_find?_eq_some first)
    constructor
    · intro read
      exact .inl ⟨member, belongs, gives, read⟩
    · rintro (⟨other, belongsToo, givesToo, read⟩ | ⟨none, -⟩)
      · have same := List.inj_on_of_nodup_map (nodup_iff_once.2 once)
          (List.mem_of_find?_eq_some first)
          (mem_filterMap_given?.2 ⟨other, belongsToo, givesToo, rfl⟩) rfl
        rw [(Prod.mk.inj same).2, read]
      · exact absurd gives (none member belongs)
  case h_2 missing =>
    have none : ∀ member ∈ members, ¬ Gives field member := by
      intro member belongs gives
      have absent := List.find?_eq_none.1 missing (field, member.2)
        (mem_filterMap_given?.2 ⟨member, belongs, gives, rfl⟩)
      exact absent (decide_eq_true rfl)
    constructor
    · intro default
      exact .inr ⟨none, default⟩
    · rintro (⟨member, belongs, gives, -⟩ | ⟨-, default⟩)
      · exact absurd gives (none member belongs)
      · exact default

/-- The members spell the record: every name is a text, no field is given twice, and each field of
the record is what the members say. -/
structure Spells (members : List (List Json.Piece × Json.Tree)) (record : Record) : Prop where
  named : ∀ member ∈ members, Named member
  once : Once members
  condition : Holds members .condition none text? record.condition
  bindings : Holds members .bindings (some []) bindings? record.bindings
  target : Holds members .target none text? record.target
  value : Holds members .value (some .null) (Json.Datum.ofTree? valueDepth) record.value
  action : Holds members .action (some none) action? record.action
  priority : Holds members .priority (some 0) priority? record.priority

theorem ofTree?_object_eq_some_iff {record : Record} :
    ofTree? (.object members) = some record ↔ Spells members record := by
  simp only [ofTree?, Option.bind_eq_some_iff, fieldsOfMembers?_eq_some_iff, ofFields?]
  constructor
  · rintro ⟨_, ⟨named, rfl⟩, made⟩
    split at made
    case isFalse => cases made
    case isTrue apart =>
      have once := nodup_iff_once.1 apart
      simp only [Option.bind_eq_bind, Option.bind_eq_some_iff, fieldOr?_eq_some_iff once,
        Option.some.injEq] at made
      obtain ⟨_, condition, _, bindings, _, target, _, value, _, action, _, priority, rfl⟩ := made
      exact ⟨named, once, condition, bindings, target, value, action, priority⟩
  · rintro ⟨named, once, condition, bindings, target, value, action, priority⟩
    refine ⟨_, ⟨named, rfl⟩, ?_⟩
    rw [if_pos (nodup_iff_once.2 once)]
    simp only [Option.bind_eq_bind, Option.bind_eq_some_iff, fieldOr?_eq_some_iff once]
    exact ⟨_, condition, _, bindings, _, target, _, value, _, action, _, priority, rfl⟩

theorem Holds.given {α : Type} {read? : Json.Tree → Option α} {value : α}
    (holds : Holds members field none read? value) : ∃ member ∈ members, Gives field member := by
  rcases holds with ⟨member, belongs, gives, -⟩ | ⟨-, default⟩
  · exact ⟨member, belongs, gives⟩
  · cases default

theorem Holds.of_perm {α : Type}
    (given : (members.filterMap given?).Perm (others.filterMap given?))
    {standard : Option α} {read? : Json.Tree → Option α} {value : α}
    (holds : Holds members field standard read? value) :
    Holds others field standard read? value := by
  rcases holds with ⟨member, belongs, gives, read⟩ | ⟨none, default⟩
  · have moved := given.mem_iff.1 (mem_filterMap_given?.2 ⟨member, belongs, gives, rfl⟩)
    obtain ⟨other, belongsToo, givesToo, same⟩ := mem_filterMap_given?.1 moved
    exact .inl ⟨other, belongsToo, givesToo, same ▸ read⟩
  · refine .inr ⟨?_, default⟩
    intro other belongs gives
    have moved := given.mem_iff.2 (mem_filterMap_given?.2 ⟨other, belongs, gives, rfl⟩)
    obtain ⟨member, belongsToo, givesToo, -⟩ := mem_filterMap_given?.1 moved
    exact none member belongsToo givesToo

theorem Spells.of_perm {record : Record} (spells : Spells members record)
    (named : ∀ member ∈ others, Named member)
    (given : (members.filterMap given?).Perm (others.filterMap given?)) :
    Spells others record where
  named
  once := nodup_iff_once.1 ((given.map Prod.fst).nodup_iff.1 (nodup_iff_once.2 spells.once))
  condition := spells.condition.of_perm given
  bindings := spells.bindings.of_perm given
  target := spells.target.of_perm given
  value := spells.value.of_perm given
  action := spells.action.of_perm given
  priority := spells.priority.of_perm given

theorem ofTree?_object_congr
    (named : (∀ member ∈ members, Named member) ↔ ∀ member ∈ others, Named member)
    (given : (members.filterMap given?).Perm (others.filterMap given?)) :
    ofTree? (.object members) = ofTree? (.object others) := by
  refine Option.ext fun record => ?_
  rw [ofTree?_object_eq_some_iff, ofTree?_object_eq_some_iff]
  constructor
  · intro spells
    exact spells.of_perm (named.1 spells.named) given
  · intro spells
    exact spells.of_perm (named.2 spells.named) given.symm

end

/-- Two spellings of one record, right or wrong. -/
inductive Respelled : Json.Tree → Json.Tree → Prop
  | refl (tree : Json.Tree) : Respelled tree tree
  | symm {left right : Json.Tree} : Respelled left right → Respelled right left
  | trans {left middle right : Json.Tree} :
      Respelled left middle → Respelled middle right → Respelled left right
  | reordered {members others : List (List Json.Piece × Json.Tree)} :
      members.Perm others → Respelled (.object members) (.object others)
  | renamed (front back : List (List Json.Piece × Json.Tree)) {field : Field}
      {name other : List Json.Piece} {tree : Json.Tree} :
      Gives field (name, tree) → Gives field (other, tree) →
      Respelled (.object (front ++ (name, tree) :: back)) (.object (front ++ (other, tree) :: back))
  | extended (front back : List (List Json.Piece × Json.Tree)) {pieces : List Json.Piece}
      {tree : Json.Tree} {name : String} :
      Json.Piece.text? pieces = some name → (∀ field : Field, name ∉ field.names) →
      Respelled (.object (front ++ back)) (.object (front ++ (pieces, tree) :: back))
  | listed (items : List Json.Tree) (name : Field → List Json.Piece) :
      (∀ field tree, Gives field (name field, tree)) → items.length ≤ Field.all.length →
      Respelled (.array items)
        (.object ((Field.all.zip items).map fun entry => (name entry.1, entry.2)))

theorem ofTree?_array_eq {items : List Json.Tree} {name : Field → List Json.Piece}
    (names : ∀ field tree, Gives field (name field, tree))
    (short : items.length ≤ Field.all.length) :
    ofTree? (.array items) =
      ofTree? (.object ((Field.all.zip items).map fun entry => (name entry.1, entry.2))) := by
  have given : ((Field.all.zip items).map fun entry => (name entry.1, entry.2)).filterMap given? =
      Field.all.zip items := by
    rw [List.filterMap_map]
    have each : given? ∘ (fun entry : Field × Json.Tree => (name entry.1, entry.2)) = some := by
      funext entry
      exact given?_eq_some_iff.2 ⟨names entry.1 entry.2, rfl⟩
    rw [each, List.filterMap_some]
  have named : ∀ member ∈ (Field.all.zip items).map fun entry => (name entry.1, entry.2),
      Named member := by
    intro member belongs
    obtain ⟨entry, -, rfl⟩ := List.mem_map.1 belongs
    exact (names entry.1 entry.2).named
  simp only [ofTree?, if_pos short, fieldsOfMembers?_eq_some_iff.2 ⟨named, given⟩,
    Option.bind_some]

theorem Respelled.ofTree?_eq {left right : Json.Tree} (respelled : Respelled left right) :
    ofTree? left = ofTree? right := by
  induction respelled with
  | refl tree => rfl
  | symm _ ih => exact ih.symm
  | trans _ _ first second => exact first.trans second
  | reordered moved =>
      refine ofTree?_object_congr ?_ (moved.filterMap given?)
      simp only [moved.mem_iff]
  | @renamed front back field name other tree gives givesToo =>
      have given : given? (name, tree) = some (field, tree) := given?_eq_some_iff.2 ⟨gives, rfl⟩
      have givenToo : given? (other, tree) = some (field, tree) :=
        given?_eq_some_iff.2 ⟨givesToo, rfl⟩
      refine ofTree?_object_congr ?_ ?_
      · simp only [List.forall_mem_append, List.forall_mem_cons, gives.named, givesToo.named]
      · rw [List.filterMap_append, List.filterMap_append, List.filterMap_cons_some given,
          List.filterMap_cons_some givenToo]
  | @extended front back pieces tree name read unknown =>
      have given : given? (pieces, tree) = none := by
        refine Option.eq_none_iff_forall_ne_some.2 fun entry found => ?_
        obtain ⟨⟨word, named, readToo⟩, -⟩ := given?_eq_some_iff.1 found
        obtain rfl : name = word := Option.some.inj (read.symm.trans readToo)
        exact unknown _ named
      have named : Named (pieces, tree) := ⟨name, read⟩
      refine ofTree?_object_congr ?_ ?_
      · simp only [List.forall_mem_append, List.forall_mem_cons, named, true_and]
      · rw [List.filterMap_append, List.filterMap_append, List.filterMap_cons_none given]
  | listed items name names short => exact ofTree?_array_eq names short

theorem ofTree?_eq_none_of_twice {members : List (List Json.Piece × Json.Tree)} {field : Field}
    {first second : List Json.Piece × Json.Tree} (both : [first, second].Sublist members)
    (gives : Gives field first) (givesToo : Gives field second) :
    ofTree? (.object members) = none := by
  refine Option.eq_none_iff_forall_ne_some.2 fun record made => ?_
  have once := (ofTree?_object_eq_some_iff.1 made).once
  exact List.pairwise_pair.1 (once.sublist both) field gives givesToo

theorem ofTree?_eq_none_of_missing {members : List (List Json.Piece × Json.Tree)} {field : Field}
    (required : field = .condition ∨ field = .target)
    (missing : ∀ member ∈ members, ¬ Gives field member) :
    ofTree? (.object members) = none := by
  refine Option.eq_none_iff_forall_ne_some.2 fun record made => ?_
  have spells := ofTree?_object_eq_some_iff.1 made
  have given : ∃ member ∈ members, Gives field member := by
    rcases required with rfl | rfl
    · exact spells.condition.given
    · exact spells.target.given
  obtain ⟨member, belongs, gives⟩ := given
  exact missing member belongs gives

end Record

namespace Model

theorem ofText?_eq_some_iff {text : String} {items : List Json.Tree}
    (read : Json.Tree.ofText? text = some (.array items)) {model : Model} :
    ofText? text = some model ↔
      List.Forall₂ (fun item record => Record.ofTree? item = some record) items model.records := by
  obtain ⟨records⟩ := model
  simp only [ofText?, read, Option.map_eq_some_iff, mk.injEq, exists_eq_right]
  clear read
  induction items generalizing records with
  | nil =>
      rw [List.mapM_nil, List.forall₂_nil_left_iff]
      exact ⟨fun same => (Option.some.inj same).symm, fun same => congrArg some same.symm⟩
  | cons item items ih =>
      simp only [List.mapM_cons, Option.bind_eq_bind, Option.bind_eq_some_iff,
        List.forall₂_cons_left_iff, ih, Option.pure_def, Option.some.injEq]
      constructor
      · rintro ⟨record, made, later, rest, rfl⟩
        exact ⟨record, later, made, rest, rfl⟩
      · rintro ⟨record, later, made, rest, rfl⟩
        exact ⟨record, made, later, rest, rfl⟩

theorem ofText?_eq_of_respelled {text other : String} {items others : List Json.Tree}
    (read : Json.Tree.ofText? text = some (.array items))
    (readToo : Json.Tree.ofText? other = some (.array others))
    (respelled : List.Forall₂ Record.Respelled items others) : ofText? text = ofText? other := by
  have same : items.mapM Record.ofTree? = others.mapM Record.ofTree? := by
    clear read readToo
    induction respelled with
    | nil => rfl
    | cons first _ ih => rw [List.mapM_cons, List.mapM_cons, first.ofTree?_eq, ih]
  simp only [ofText?, read, readToo, same]

/-- A record means the same in every spelling. Texts of records that are respelled one by one are
the same model or none, and a text is a model exactly when each of its items is a record. An object
is a record exactly when its members spell it: it is none if a field is given twice under whatever
names, or if the condition or the target is missing. -/
theorem spellings_agree :
    (∀ {text other : String} {items others : List Json.Tree},
      Json.Tree.ofText? text = some (.array items) →
      Json.Tree.ofText? other = some (.array others) →
      List.Forall₂ Record.Respelled items others → ofText? text = ofText? other) ∧
    (∀ {text : String} {items : List Json.Tree}, Json.Tree.ofText? text = some (.array items) →
      ∀ model : Model, ofText? text = some model ↔
        List.Forall₂ (fun item record => Record.ofTree? item = some record) items model.records) ∧
    (∀ {left right : Json.Tree}, Record.Respelled left right →
      Record.ofTree? left = Record.ofTree? right) ∧
    (∀ (members : List (List Json.Piece × Json.Tree)) (record : Record),
      Record.ofTree? (.object members) = some record ↔ Record.Spells members record) ∧
    (∀ {members : List (List Json.Piece × Json.Tree)} {field : Record.Field}
      {first second : List Json.Piece × Json.Tree}, [first, second].Sublist members →
      Record.Gives field first → Record.Gives field second →
      Record.ofTree? (.object members) = none) ∧
    ∀ {members : List (List Json.Piece × Json.Tree)} {field : Record.Field},
      field = .condition ∨ field = .target → (∀ member ∈ members, ¬ Record.Gives field member) →
      Record.ofTree? (.object members) = none :=
  ⟨ofText?_eq_of_respelled, ofText?_eq_some_iff, Record.Respelled.ofTree?_eq,
    fun _ _ => Record.ofTree?_object_eq_some_iff, Record.ofTree?_eq_none_of_twice,
    Record.ofTree?_eq_none_of_missing⟩

def plainPieces (text : String) : List Json.Piece :=
  text.toList.map .plain

theorem text?_plainPieces (text : String) : Json.Piece.text? (plainPieces text) = some text := by
  have decoded (characters : List Char) :
      Json.Piece.decode? (characters.map .plain) = some characters := by
    induction characters with
    | nil => rfl
    | cons character rest ih => simp only [List.map_cons, Json.Piece.decode?, ih, Option.map_some]
  rw [Json.Piece.text?, plainPieces, decoded, Option.map_some, String.ofList_toList]

theorem gives_plainPieces (field : Record.Field) (name : String) (tree : Json.Tree)
    (named : name ∈ field.names) : Record.Gives field (plainPieces name, tree) :=
  ⟨name, named, text?_plainPieces name⟩

def greetingMembers : List (List Json.Piece × Json.Tree) :=
  [(plainPieces "key", .string (plainPieces "t")), (plainPieces "x", .array []),
    (plainPieces "lhs", .string (plainPieces "a")), (plainPieces "bindings", .array [])]

theorem respelled_greeting : Record.Respelled (.object greetingMembers)
    (.array [.string (plainPieces "a"), .array [], .string (plainPieces "t")]) := by
  refine .trans (.symm (.extended [_] [_, _] rfl ?_)) ?_
  · intro field
    cases field <;> decide
  refine .trans (.reordered (List.perm_append_singleton _ [_, _]).symm) ?_
  refine .trans (.renamed [] [_, _] (gives_plainPieces .condition "lhs" _ (by decide))
    (gives_plainPieces .condition "condition" _ (by decide))) ?_
  refine .trans (.renamed [_, _] [] (gives_plainPieces .target "key" _ (by decide))
    (gives_plainPieces .target "target" _ (by decide))) ?_
  refine .symm (.listed _ (fun field => plainPieces (field.names.headD "")) ?_ (by decide))
  intro field tree
  cases field <;> exact gives_plainPieces _ _ tree (by decide)

theorem spellings_agree_greeting :
    ofText? "[\x7b\"key\":\"t\",\"x\":[],\"lhs\":\"a\",\"bindings\":[]\x7d]" =
      ofText? "[[\"a\",[],\"t\"]]" ∧
    ofText? "[[\"a\",[],\"t\"]]" = some ⟨[{ condition := "a", target := "t" }]⟩ ∧
    Record.ofTree? (.object ((plainPieces "target", .null) :: greetingMembers)) = none ∧
    Record.ofTree? (.object greetingMembers.tail) = none := by
  have named : Json.Tree.ofText?
      "[\x7b\"key\":\"t\",\"x\":[],\"lhs\":\"a\",\"bindings\":[]\x7d]" =
      some (.array [.object greetingMembers]) := by
    cbv
  have listed : Json.Tree.ofText? "[[\"a\",[],\"t\"]]" =
      some (.array [.array [.string (plainPieces "a"), .array [], .string (plainPieces "t")]]) := by
    cbv
  obtain ⟨texts, models, -, -, twice, missing⟩ := spellings_agree
  refine ⟨texts named listed (.cons respelled_greeting .nil), ?_, ?_, ?_⟩
  · exact (models listed _).2 (.cons rfl .nil)
  · exact twice (.cons_cons _ (List.singleton_sublist.2 List.mem_cons_self))
      (gives_plainPieces .target "target" _ (by decide)) (gives_plainPieces _ "key" _ (by decide))
  · have targetless : ∀ member ∈ greetingMembers.tail, ¬ Record.Gives .target member := by decide
    exact missing (.inr rfl) targetless

end Model

end FactRules
