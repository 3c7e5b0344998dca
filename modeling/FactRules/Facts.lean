import FactRules.Value

/-!
Facts are given under names, and they are listed in an order that does not follow from what they are:
the same facts may be listed in one order here and in another there, and a fact that is added may put
all of them in a new one.
-/

namespace FactRules

/-- Facts in the order in which they are listed, no two under one name. -/
structure Facts where
  entries : List (String × Value) := []
  distinct : (Table.names entries).Nodup := by decide

structure Arrangement where
  arrange : Facts → Facts
  perm : ∀ facts, (arrange facts).entries.Perm facts.entries

def Arrangement.unchanged : Arrangement :=
  ⟨id, fun _ => .refl _⟩

namespace Facts

def find? (facts : Facts) (name : String) : Option Value :=
  Table.find? facts.entries name

def contains (facts : Facts) (name : String) : Bool :=
  Table.contains facts.entries name

def map {α : Type} (facts : Facts) (change : String × Value → α) : List α :=
  facts.entries.map change

def ofList (facts : List (String × Value)) : Facts where
  entries := Table.ofList facts
  distinct := Table.nodup_names (Table.ascending_ofList facts)

def insert (facts : Facts) (name : String) (value : Value) : Facts where
  entries := Table.insert (facts.entries.filter fun entry => entry.1 ≠ name) name value
  distinct := by
    refine Table.nodup_insert (facts.distinct.sublist (List.filter_sublist.map Prod.fst)) ?_
    intro member
    obtain ⟨entry, stays, rfl⟩ := List.mem_map.1 member
    simpa using (List.mem_filter.1 stays).2

def SameAs (left right : Facts) : Prop :=
  left.entries.Perm right.entries

theorem find?_eq_of_sameAs {left right : Facts} (same : left.SameAs right) (name : String) :
    left.find? name = right.find? name := by
  refine Option.ext fun value => ?_
  rw [find?, find?, Table.find?_eq_some_iff left.distinct, Table.find?_eq_some_iff right.distinct]
  exact same.mem_iff

end Facts

end FactRules
