/-!
Tables from names to values, kept in the order of their names. The laws of `find?` after `insert`
hold for every list of entries; `Ascending` says that the names are in order and differ.
-/

namespace FactRules

/-- Entries in ascending order of their names, by code point. -/
abbrev Table (α : Type) := List (String × α)

namespace Table

variable {α : Type}

def find? : Table α → String → Option α
  | [], _ => none
  | (entry, value) :: later, name => if name = entry then some value else find? later name

def contains (table : Table α) (name : String) : Bool :=
  (find? table name).isSome

def insert : Table α → String → α → Table α
  | [], name, value => [(name, value)]
  | (entry, old) :: later, name, value =>
      if name = entry then (name, value) :: later
      else if name < entry then (name, value) :: (entry, old) :: later
      else (entry, old) :: insert later name value

def ofList (entries : List (String × α)) : Table α :=
  entries.foldl (fun table entry => insert table entry.1 entry.2) []

def names (table : Table α) : List String :=
  table.map Prod.fst

def mapValues {β : Type} (change : α → β) (table : Table α) : Table β :=
  table.map fun entry => (entry.1, change entry.2)

def Ascending (table : Table α) : Prop :=
  table.names.Pairwise (· < ·)

@[simp] theorem find?_nil (name : String) : find? ([] : Table α) name = none := rfl

@[simp] theorem find?_insert_self (table : Table α) (name : String) (value : α) :
    find? (insert table name value) name = some value := by
  induction table with
  | nil => simp [insert, find?]
  | cons entry later ih =>
      obtain ⟨entryName, old⟩ := entry
      simp only [insert]
      split
      · simp [find?]
      · next differs => split <;> simp [find?, differs, ih]

theorem find?_insert_of_ne (table : Table α) {name other : String} (value : α)
    (differs : other ≠ name) : find? (insert table name value) other = find? table other := by
  induction table with
  | nil => simp [insert, find?, differs]
  | cons entry later ih =>
      obtain ⟨entryName, old⟩ := entry
      simp only [insert]
      split
      · next same => subst same; simp [find?, differs]
      · split
        · simp [find?, differs]
        · simp [find?, ih]

theorem find?_mapValues {β : Type} (change : α → β) (table : Table α) (name : String) :
    find? (mapValues change table) name = (find? table name).map change := by
  induction table with
  | nil => rfl
  | cons entry later ih =>
      obtain ⟨entryName, value⟩ := entry
      by_cases same : name = entryName
      · simp [mapValues, find?, same]
      · simpa [mapValues, find?, same] using ih

theorem mapValues_insert {β : Type} (change : α → β) (table : Table α) (name : String)
    (value : α) :
    mapValues change (insert table name value) =
      insert (mapValues change table) name (change value) := by
  induction table with
  | nil => rfl
  | cons entry later ih =>
      obtain ⟨entryName, old⟩ := entry
      simp only [mapValues, insert, List.map_cons] at ih ⊢
      split
      · rfl
      · split
        · rfl
        · rw [List.map_cons, ih]

theorem mem_names_insert (table : Table α) (name other : String) (value : α) :
    other ∈ names (insert table name value) ↔ other = name ∨ other ∈ names table := by
  induction table with
  | nil => simp [insert, names]
  | cons entry later ih =>
      obtain ⟨entryName, old⟩ := entry
      simp only [names] at ih
      simp only [insert]
      split
      · next same => subst same; simp [names]
      · split
        · simp [names]
        · simp only [names, List.map_cons, List.mem_cons, ih]
          grind

theorem mem_names_ofList (entries : List (String × α)) (name : String) :
    name ∈ names (.ofList entries) ↔ name ∈ entries.map Prod.fst := by
  have step (table : Table α) :
      name ∈ names (entries.foldl (fun table entry => table.insert entry.1 entry.2) table) ↔
        name ∈ table.names ∨ name ∈ entries.map Prod.fst := by
    induction entries generalizing table with
    | nil => simp
    | cons entry later ih =>
        rw [List.foldl_cons, ih, mem_names_insert, List.map_cons, List.mem_cons, or_assoc,
          or_left_comm]
  simpa [ofList, names] using step []

theorem mem_of_mem_insert {table : Table α} {name : String} {value : α} {entry : String × α}
    (member : entry ∈ insert table name value) : entry = (name, value) ∨ entry ∈ table := by
  induction table with
  | nil => exact .inl (List.mem_singleton.1 member)
  | cons first later ih =>
      simp only [insert] at member
      split at member
      · exact (List.mem_cons.1 member).imp_right (List.mem_cons_of_mem _)
      · split at member
        · exact List.mem_cons.1 member
        · rcases List.mem_cons.1 member with rfl | inLater
          · exact .inr List.mem_cons_self
          · exact (ih inLater).imp_right (List.mem_cons_of_mem _)

theorem mem_of_mem_ofList {entries : List (String × α)} {entry : String × α}
    (member : entry ∈ ofList entries) : entry ∈ entries := by
  have step (entries : List (String × α)) (table : Table α)
      (member : entry ∈ entries.foldl (fun table entry => insert table entry.1 entry.2) table) :
      entry ∈ table ∨ entry ∈ entries := by
    induction entries generalizing table with
    | nil => exact .inl member
    | cons first later ih =>
        rcases ih _ member with inTable | inLater
        · rcases mem_of_mem_insert inTable with same | old
          · exact .inr (List.mem_cons.2 (.inl same))
          · exact .inl old
        · exact .inr (List.mem_cons_of_mem _ inLater)
  exact (step entries [] member).resolve_left List.not_mem_nil

theorem mem_of_find? {table : Table α} {name : String} {value : α}
    (found : table.find? name = some value) : (name, value) ∈ table := by
  induction table with
  | nil => cases found
  | cons entry later ih =>
      simp only [find?] at found
      split at found
      · next same =>
          cases found
          exact same ▸ List.mem_cons_self
      · exact List.mem_cons_of_mem _ (ih found)

theorem find?_eq_some_iff {table : Table α} (distinct : table.names.Nodup) {name : String}
    {value : α} : table.find? name = some value ↔ (name, value) ∈ table := by
  refine ⟨mem_of_find?, fun member => ?_⟩
  induction table with
  | nil => cases member
  | cons entry later ih =>
      obtain ⟨notLater, distinct⟩ := List.nodup_cons.1 distinct
      rcases List.mem_cons.1 member with rfl | inLater
      · exact if_pos rfl
      · have differs : name ≠ entry.1 := fun same =>
          notLater (same ▸ List.mem_map_of_mem inLater)
        exact (if_neg differs).trans (ih distinct inLater)

theorem nodup_insert {table : Table α} (distinct : table.names.Nodup) {name : String}
    (missing : name ∉ table.names) {value : α} : (insert table name value).names.Nodup := by
  induction table with
  | nil => exact List.nodup_cons.2 ⟨missing, .nil⟩
  | cons entry later ih =>
      obtain ⟨differs, notLater⟩ := List.ne_and_not_mem_of_not_mem_cons missing
      obtain ⟨entryNotLater, laterDistinct⟩ := List.nodup_cons.1 distinct
      simp only [insert, if_neg differs]
      split
      · exact List.nodup_cons.2 ⟨missing, distinct⟩
      · refine List.nodup_cons.2 ⟨fun member => ?_, ih laterDistinct notLater⟩
        rcases (mem_names_insert later name entry.1 value).1 member with same | inLater
        · exact differs same.symm
        · exact entryNotLater inLater

theorem ascending_insert (table : Table α) (name : String) (value : α)
    (ascending : Ascending table) : Ascending (insert table name value) := by
  induction table with
  | nil => simp [Ascending, insert, names]
  | cons entry later ih =>
      obtain ⟨entryName, old⟩ := entry
      have parts := List.pairwise_cons.1 ascending
      simp only [insert]
      split
      · next same => subst same; exact ascending
      · next differs =>
          split
          · next less =>
              refine List.pairwise_cons.2 ⟨fun other member => ?_, ascending⟩
              rcases List.mem_cons.1 member with rfl | inLater
              · exact less
              · exact String.lt_trans less (parts.1 other inLater)
          · next notLess =>
              refine List.pairwise_cons.2 ⟨fun other member => ?_, ih parts.2⟩
              rcases (mem_names_insert later name other value).1 member with rfl | inLater
              · exact Std.lt_of_le_of_ne (String.not_lt.1 notLess) (Ne.symm differs)
              · exact parts.1 other inLater

theorem ascending_ofList (entries : List (String × α)) : Ascending (ofList entries) := by
  have step : ∀ table : Table α, Ascending table →
      Ascending (entries.foldl (fun table entry => insert table entry.1 entry.2) table) := by
    induction entries with
    | nil => exact fun _ ascending => ascending
    | cons entry later ih =>
        exact fun table ascending => ih _ (ascending_insert table entry.1 entry.2 ascending)
  exact step [] List.Pairwise.nil

theorem nodup_names {table : Table α} (ascending : Ascending table) : table.names.Nodup := by
  refine List.Pairwise.imp ?_ ascending
  rintro name _ less rfl
  exact String.lt_irrefl name less

theorem insert_behind (table : Table α) {name : String} (value : α)
    (behind : ∀ other ∈ names table, other < name) :
    insert table name value = table ++ [(name, value)] := by
  induction table with
  | nil => rfl
  | cons entry later ih =>
      have before : entry.1 < name := behind entry.1 (by simp [names])
      have inLater := ih fun other member => behind other (List.mem_cons_of_mem _ member)
      have differs : name ≠ entry.1 := fun same => String.lt_irrefl name (same ▸ before)
      simp [insert, differs, String.lt_asymm before, inLater]

theorem ofList_of_ascending {table : Table α} (ascending : Ascending table) :
    ofList table = table := by
  have step : ∀ done rest : Table α, Ascending (done ++ rest) →
      rest.foldl (fun table entry => insert table entry.1 entry.2) done = done ++ rest := by
    intro done rest
    induction rest generalizing done with
    | nil => simp
    | cons entry later ih =>
        intro ascending
        have behind : ∀ other ∈ names done, other < entry.1 := by
          intro other member
          simp only [Ascending, names, List.map_append, List.pairwise_append] at ascending
          exact ascending.2.2 other member entry.1 (by simp)
        simp only [List.foldl_cons, insert_behind done entry.2 behind]
        rw [ih (done ++ [entry]) (by simpa using ascending)]
        simp
  simpa [ofList] using step [] table (by simpa using ascending)

end Table

end FactRules
