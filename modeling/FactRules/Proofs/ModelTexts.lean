import FactRules.Proofs.JsonData
import FactRules.Proofs.Spellings

/-!
A model that is written is read as itself, as long as no value in it lies deeper than a reader goes.
-/

namespace FactRules

open Json (Datum Tree)
open Json.Datum (Written WrittenMember)

namespace Record

def data (record : Record) : List Datum :=
  [.array record.bindings, record.value]

def Valid (record : Record) : Prop :=
  ∀ datum ∈ record.data, datum.Valid

def FloatFree (record : Record) : Prop :=
  ∀ datum ∈ record.data, datum.FloatFree

/-- The bindings and the value are no deeper than a reader of records goes. -/
def Shallow (record : Record) : Prop :=
  ∀ datum ∈ record.data, datum.depth ≤ valueDepth

instance (record : Record) : Decidable record.Shallow :=
  inferInstanceAs (Decidable (∀ datum ∈ record.data, datum.depth ≤ valueDepth))

theorem forall_data_iff {holds : Datum → Prop} {record : Record} :
    (∀ datum ∈ record.data, holds datum) ↔ holds (.array record.bindings) ∧ holds record.value := by
  rw [data, List.forall_mem_cons, List.forall_mem_singleton]

theorem exists_written_text (text : String) :
    ∃ tree, Written (.string text) tree ∧ text? tree = some text := by
  obtain ⟨pieces, spelled⟩ := Json.exists_spelled text.toList
  exact ⟨.string pieces, Datum.written_string spelled, spelled.text?_eq⟩

theorem exists_written_action (action : Option String) :
    ∃ tree, Written (actionDatum action) tree ∧ action? tree = some action := by
  cases action with
  | none => exact ⟨.null, Datum.written_null, rfl⟩
  | some name =>
      obtain ⟨pieces, spelled⟩ := Json.exists_spelled name.toList
      exact ⟨.string pieces, Datum.written_string spelled,
        congrArg (Option.map some) spelled.text?_eq⟩

theorem exists_written_priority (priority : Int32) :
    ∃ tree, Written (.number (.integer priority.toInt)) tree ∧ priority? tree = some priority := by
  have lower := Int32.minValue_le_toInt priority
  have upper := Int32.toInt_le priority
  have fits : Json.Number.Fits priority.toInt := by
    have least : Int64.minValue.toInt = -9223372036854775808 := rfl
    have size : UInt64.size = 18446744073709551616 := rfl
    have narrowLeast : Int32.minValue.toInt = -2147483648 := rfl
    have narrowGreatest : Int32.maxValue.toInt = 2147483647 := rfl
    exact ⟨by omega, by omega⟩
  obtain ⟨numeral, reads, meaning⟩ := Json.Number.exists_numeral fits
  refine ⟨.number numeral, Datum.written_integer reads meaning, ?_⟩
  rw [priority?, meaning]
  simp only [lower, upper, decide_true, Bool.and_self, if_true, Int32.ofInt_toInt]

theorem exists_written_bindings {bindings : List Datum} (valid : (Datum.array bindings).Valid)
    (floatFree : (Datum.array bindings).FloatFree) :
    ∃ tree, Written (.array bindings) tree ∧ bindings? tree =
      if (Datum.array bindings).depth ≤ valueDepth then some bindings else none := by
  obtain ⟨trees, each⟩ := Datum.exists_writtenItems bindings (Datum.valid_array.1 valid)
    (Datum.floatFree_array.1 floatFree)
  refine ⟨.array trees, Datum.written_array each, ?_⟩
  have bound : (Datum.array bindings).depth ≤ valueDepth ↔
      Datum.itemsDepth bindings ≤ valueDepth - 1 :=
    Nat.succ_le_succ_iff
  simp only [bindings?, Datum.ofItems?_of_written each, bound]

/-- The record is written as the tree, and the tree is read as it if it is shallow. -/
structure WrittenRecord (record : Record) (tree : Tree) : Prop where
  reads : Json.ReadAs (Datum.text (.object record.members)) tree.lexemes
  meaning : ofTree? tree = if record.Shallow then some record else none

theorem ofTree?_array_all (condition bindings target value action priority : Tree) :
    ofTree? (.array [condition, bindings, target, value, action, priority]) =
      (do
        let condition ← text? condition
        let bindings ← bindings? bindings
        let target ← text? target
        let value ← Datum.ofTree? valueDepth value
        let action ← action? action
        let priority ← priority? priority
        some { condition, bindings, target, value, action, priority }) := by
  have apart : ((Field.all.zip [condition, bindings, target, value, action, priority]).map
      Prod.fst).Nodup :=
    (by decide : Field.all.Nodup)
  have short : [condition, bindings, target, value, action, priority].length ≤ Field.all.length :=
    Nat.le_refl 6
  rw [ofTree?, if_pos short, ofFields?, if_pos apart]
  rfl

theorem exists_writtenRecord {record : Record} (valid : record.Valid)
    (floatFree : record.FloatFree) : ∃ tree, WrittenRecord record tree := by
  obtain ⟨validBindings, validValue⟩ := forall_data_iff.1 valid
  obtain ⟨freeBindings, freeValue⟩ := forall_data_iff.1 floatFree
  obtain ⟨condition, conditionWritten, conditionRead⟩ := exists_written_text record.condition
  obtain ⟨bindings, bindingsWritten, bindingsRead⟩ :=
    exists_written_bindings validBindings freeBindings
  obtain ⟨target, targetWritten, targetRead⟩ := exists_written_text record.target
  obtain ⟨value, valueWritten⟩ := Datum.exists_written record.value validValue freeValue
  obtain ⟨action, actionWritten, actionRead⟩ := exists_written_action record.action
  obtain ⟨priority, priorityWritten, priorityRead⟩ := exists_written_priority record.priority
  choose name spelled using fun field : Field => Json.exists_spelled (field.names.headD "").toList
  have names (field : Field) (tree : Tree) : Gives field (name field, tree) := by
    refine ⟨field.names.headD "", ?_, (spelled field).text?_eq⟩
    cases field <;> exact List.mem_cons_self
  have members : List.Forall₂ WrittenMember record.members
      ((Field.all.zip [condition, bindings, target, value, action, priority]).map fun entry =>
        (name entry.1, entry.2)) :=
    .cons ⟨spelled .condition, conditionWritten⟩ <|
      .cons ⟨spelled .bindings, bindingsWritten⟩ <|
      .cons ⟨spelled .target, targetWritten⟩ <|
      .cons ⟨spelled .value, valueWritten⟩ <|
      .cons ⟨spelled .action, actionWritten⟩ <|
      .cons ⟨spelled .priority, priorityWritten⟩ .nil
  refine ⟨.object _, Datum.readAs_object members, ?_⟩
  rw [← ofTree?_array_eq names (by simp [Field.all]), ofTree?_array_all, conditionRead,
    bindingsRead, targetRead, valueWritten.meaning, actionRead, priorityRead]
  simp only [Shallow, forall_data_iff]
  by_cases shallowBindings : (Datum.array record.bindings).depth ≤ valueDepth
  · by_cases shallowValue : record.value.depth ≤ valueDepth <;>
      simp [shallowBindings, shallowValue]
  · simp [shallowBindings]

theorem mapM_of_written {records : List Record} {trees : List Tree}
    (each : List.Forall₂ WrittenRecord records trees) :
    trees.mapM ofTree? = if ∀ record ∈ records, record.Shallow then some records else none := by
  induction each with
  | nil => rfl
  | @cons record tree records trees written _ ih =>
      rw [List.mapM_cons, written.meaning, ih]
      by_cases first : record.Shallow
      · by_cases later : ∀ record ∈ records, record.Shallow
        · rw [if_pos first, if_pos later, if_pos (List.forall_mem_cons.2 ⟨first, later⟩)]
          rfl
        · rw [if_pos first, if_neg later, if_neg fun all => later (List.forall_mem_cons.1 all).2]
          rfl
      · rw [if_neg first, if_neg fun all => first (List.forall_mem_cons.1 all).1]
        rfl

theorem fieldOr?_eq_some {α : Type} {fields : List (Field × Tree)} {field : Field}
    {standard : Option α} {read? : Tree → Option α} {value : α}
    (found : fieldOr? fields field standard read? = some value) :
    (∃ tree, read? tree = some value) ∨ standard = some value := by
  unfold fieldOr? at found
  split at found
  · exact .inl ⟨_, found⟩
  · exact .inr found

theorem ofFields?_bounds {fields : List (Field × Tree)} {record : Record}
    (made : ofFields? fields = some record) : record.Valid ∧ record.Shallow := by
  unfold ofFields? at made
  split at made
  case isFalse => cases made
  case isTrue =>
    simp only [Option.bind_eq_bind, Option.bind_eq_some_iff, Option.some.injEq] at made
    obtain ⟨condition, -, bindings, bindingsMade, target, -, value, valueMade, action, -, priority,
      -, rfl⟩ := made
    have ofBindings : (Datum.array bindings).Valid ∧ (Datum.array bindings).depth ≤ valueDepth := by
      rcases fieldOr?_eq_some bindingsMade with ⟨tree, read⟩ | default
      · cases tree with
        | array items =>
            obtain ⟨valid, bound⟩ := Datum.valid_of_ofItems? _ items read
            exact ⟨Datum.valid_array.2 valid, Nat.succ_le_succ bound⟩
        | _ => cases read
      · cases default
        exact ⟨Datum.valid_array.2 (List.forall_mem_nil _), by decide⟩
    have ofValue : value.Valid ∧ value.depth ≤ valueDepth := by
      rcases fieldOr?_eq_some valueMade with ⟨tree, read⟩ | default
      · exact Datum.valid_of_ofTree? valueDepth tree read
      · cases default
        exact ⟨by simp [Datum.Valid], Nat.zero_le _⟩
    exact ⟨forall_data_iff.2 ⟨ofBindings.1, ofValue.1⟩, forall_data_iff.2 ⟨ofBindings.2, ofValue.2⟩⟩

theorem ofTree?_bounds {tree : Tree} {record : Record} (made : ofTree? tree = some record) :
    record.Valid ∧ record.Shallow := by
  cases tree with
  | object members =>
      obtain ⟨fields, -, made⟩ := Option.bind_eq_some_iff.1 made
      exact ofFields?_bounds made
  | array items =>
      rw [ofTree?] at made
      split at made
      · exact ofFields?_bounds made
      · cases made
  | _ => cases made

theorem equals_self {record : Record} (floatFree : record.FloatFree) :
    record.equals record = true := by
  obtain ⟨freeBindings, freeValue⟩ := forall_data_iff.1 floatFree
  have bindings := Datum.equalItems_self record.bindings (Datum.floatFree_array.1 freeBindings)
  have value := Datum.equals_self record.value freeValue
  simp [equals, bindings, value]

end Record

namespace Model

def Valid (model : Model) : Prop :=
  ∀ record ∈ model.records, record.Valid

def FloatFree (model : Model) : Prop :=
  ∀ record ∈ model.records, record.FloatFree

def Shallow (model : Model) : Prop :=
  ∀ record ∈ model.records, record.Shallow

instance (model : Model) : Decidable model.Shallow :=
  inferInstanceAs (Decidable (∀ record ∈ model.records, record.Shallow))

theorem exists_writtenRecords : {records : List Record} → (∀ record ∈ records, record.Valid) →
    (∀ record ∈ records, record.FloatFree) →
    ∃ trees, List.Forall₂ Record.WrittenRecord records trees
  | [], _, _ => ⟨_, .nil⟩
  | _ :: _, valid, floatFree =>
      have ⟨validRecord, validRecords⟩ := List.forall_mem_cons.1 valid
      have ⟨freeRecord, freeRecords⟩ := List.forall_mem_cons.1 floatFree
      have ⟨_, first⟩ := Record.exists_writtenRecord validRecord freeRecord
      have ⟨_, later⟩ := exists_writtenRecords validRecords freeRecords
      ⟨_, .cons first later⟩

theorem ofText?_text {model : Model} (valid : model.Valid) (floatFree : model.FloatFree) :
    ofText? model.text = if model.Shallow then some model else none := by
  obtain ⟨trees, each⟩ := exists_writtenRecords valid floatFree
  have reads : Json.ReadAs
      (Datum.text (.array (model.records.map fun record => .object record.members)))
      (Tree.lexemes (.array trees)) := by
    refine Datum.readAs_array (List.forall₂_map_left_iff.2 ?_)
    exact each.imp fun _ _ written => written.reads
  rw [ofText?, text, Tree.ofText?_of_readAs reads]
  simp only [Record.mapM_of_written each]
  by_cases shallow : ∀ record ∈ model.records, record.Shallow
  · rw [if_pos shallow, if_pos (show model.Shallow from shallow)]
    rfl
  · rw [if_neg shallow, if_neg (show ¬ model.Shallow from shallow)]
    rfl

theorem ofText?_bounds {text : String} {model : Model} (read : ofText? text = some model) :
    model.Valid ∧ model.Shallow := by
  obtain ⟨items, isArray⟩ : ∃ items, Tree.ofText? text = some (.array items) := by
    unfold ofText? at read
    split at read
    · next items isArray => exact ⟨items, isArray⟩
    · cases read
  have each := (ofText?_eq_some_iff isArray).1 read
  have bounds : ∀ record ∈ model.records, record.Valid ∧ record.Shallow := by
    clear read isArray
    generalize model.records = records at each
    induction each with
    | nil => exact List.forall_mem_nil _
    | cons made _ ih => exact List.forall_mem_cons.2 ⟨Record.ofTree?_bounds made, ih⟩
  exact ⟨fun record member => (bounds record member).1,
    fun record member => (bounds record member).2⟩

theorem equals_self {model : Model} (floatFree : model.FloatFree) :
    model.equals model = true := by
  have pairs : model.records.zip model.records = model.records.map fun record => (record, record) :=
    List.zipWith_self
  rw [equals, pairs, List.all_map, decide_eq_true rfl, Bool.true_and, List.all_eq_true]
  exact fun record member => Record.equals_self (floatFree record member)

/-- A model without floating-point numbers is written to a text that is read as that model, exactly
if its bindings and values are no deeper than a reader goes, and is equal to itself. A model that
was read from a text is no deeper, and so is read again from the text it is written to. -/
theorem written_reads_back :
    (∀ model : Model, model.Valid → model.FloatFree →
      ofText? model.text = (if model.Shallow then some model else none) ∧
        model.equals model = true) ∧
    ∀ (text : String) (model : Model), ofText? text = some model →
      model.Valid ∧ model.Shallow ∧ (model.FloatFree → ofText? model.text = some model) := by
  constructor
  · intro model valid floatFree
    exact ⟨ofText?_text valid floatFree, equals_self floatFree⟩
  · intro text model read
    obtain ⟨valid, shallow⟩ := ofText?_bounds read
    refine ⟨valid, shallow, fun floatFree => ?_⟩
    rw [ofText?_text valid floatFree, if_pos shallow]

def cargoModel : Model :=
  ⟨[{ condition := "name = %@", bindings := [.string "\"\\\x01\n"], target := "t"
      value := .object [("least", .number (.integer (-9223372036854775808))),
        ("lists", .array [.array [], .null, .bool true])]
      action := some "shout", priority := -2147483648 },
    { condition := "true = true", target := "t" }]⟩

def listModel : Model :=
  ⟨[{ condition := "a", target := "t", value := .array [.bool true] }]⟩

theorem written_reads_back_cargo :
    cargoModel.Valid ∧ cargoModel.FloatFree ∧ cargoModel.Shallow ∧
      ofText? cargoModel.text = some cargoModel ∧ cargoModel.equals cargoModel = true ∧
    ofText? "[[\"a\",[],\"t\",[true]]]" = some listModel ∧ listModel.FloatFree ∧
      ofText? listModel.text = some listModel := by
  have fits : Json.Number.Fits (-9223372036854775808) := ⟨by decide, by decide⟩
  have ascending : Table.Ascending [("least", Datum.number (.integer (-9223372036854775808))),
      ("lists", .array [.array [], .null, .bool true])] :=
    List.pairwise_pair.2 (by decide)
  have valid : cargoModel.Valid := by
    simp [cargoModel, Valid, Record.Valid, Record.data, Datum.Valid, fits, ascending]
  have floatFree : cargoModel.FloatFree := by
    simp [cargoModel, FloatFree, Record.FloatFree, Record.data, Datum.FloatFree]
  have shallow : cargoModel.Shallow := by decide
  have listed : Tree.ofText? "[[\"a\",[],\"t\",[true]]]" =
      some (.array [.array [.string (plainPieces "a"), .array [], .string (plainPieces "t"),
        .array [.bool true]]]) := by
    cbv
  have read : ofText? "[[\"a\",[],\"t\",[true]]]" = some listModel :=
    (ofText?_eq_some_iff listed).2 (.cons rfl .nil)
  have listFloatFree : listModel.FloatFree := by
    simp [listModel, FloatFree, Record.FloatFree, Record.data, Datum.FloatFree]
  obtain ⟨writing, reading⟩ := written_reads_back
  obtain ⟨back, equal⟩ := writing cargoModel valid floatFree
  rw [if_pos shallow] at back
  obtain ⟨-, -, again⟩ := reading _ listModel read
  exact ⟨valid, floatFree, shallow, back, equal, read, listFloatFree, again listFloatFree⟩

def nested : Nat → Datum
  | 0 => .null
  | count + 1 => .array [nested count]

theorem depth_nested (count : Nat) : (nested count).depth = count := by
  induction count with
  | zero => rfl
  | succ count ih => rw [nested, Datum.depth, Datum.itemsDepth, Datum.itemsDepth, ih, Nat.max_zero]

theorem valid_nested (count : Nat) : (nested count).Valid := by
  induction count with
  | zero => simp [nested, Datum.Valid]
  | succ count ih => exact Datum.valid_array.2 (List.forall_mem_singleton.2 ih)

theorem floatFree_nested (count : Nat) : (nested count).FloatFree := by
  induction count with
  | zero => simp [nested, Datum.FloatFree]
  | succ count ih => exact Datum.floatFree_array.2 (List.forall_mem_singleton.2 ih)

def deepModel : Model :=
  ⟨[{ condition := "a = 1", target := "t", value := nested (Record.valueDepth + 1) }]⟩

theorem deepModel_is_refused :
    deepModel.Valid ∧ deepModel.FloatFree ∧ ofText? deepModel.text = none := by
  have valid : deepModel.Valid := by
    refine List.forall_mem_singleton.2 (Record.forall_data_iff.2 ⟨?_, valid_nested _⟩)
    exact Datum.valid_array.2 (List.forall_mem_nil _)
  have floatFree : deepModel.FloatFree := by
    refine List.forall_mem_singleton.2 (Record.forall_data_iff.2 ⟨?_, floatFree_nested _⟩)
    exact Datum.floatFree_array.2 (List.forall_mem_nil _)
  have deep : ¬ deepModel.Shallow := by
    intro shallow
    have bound := (Record.forall_data_iff.1 (List.forall_mem_singleton.1 shallow)).2
    rw [depth_nested] at bound
    exact Nat.not_succ_le_self _ bound
  exact ⟨valid, floatFree, by rw [ofText?_text valid floatFree, if_neg deep]⟩

end Model

end FactRules
