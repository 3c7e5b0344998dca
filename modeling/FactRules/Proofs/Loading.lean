import FactRules.Engine
import Mathlib.Data.List.Induction

/-!
The index that loads build up. A load appends its rules and sorts every bucket; that comes to
putting each rule in its place in sorted buckets, one after another. So the rules of an attribute
stand in descending priority, then in descending size of their conditions, and then as they were
loaded, over all loads together.
-/

namespace FactRules

namespace Rule

def hasRank (priority : Int32) (size : Nat) (rule : Rule) : Bool :=
  rule.priority = priority && rule.size = size

theorem hasRank_iff {priority : Int32} {size : Nat} {rule : Rule} :
    rule.hasRank priority size = true ↔ rule.priority = priority ∧ rule.size = size := by
  simp [hasRank]

def Below (rule other : Rule) : Prop :=
  rule.priority < other.priority ∨ rule.priority = other.priority ∧ rule.size < other.size

def NotAbove (rule other : Rule) : Prop :=
  rule.priority < other.priority ∨ rule.priority = other.priority ∧ rule.size ≤ other.size

/-- The loaded rules by descending priority, then by descending size of their conditions, and then
as they were loaded. -/
structure Dispatched (rules loaded : List Rule) : Prop where
  descending : rules.Pairwise fun first later => later.NotAbove first
  loadOrder : ∀ priority size,
    rules.filter (·.hasRank priority size) = loaded.filter (·.hasRank priority size)

/-- The rule before which the eligible ones are all below it, and after which none is above it. -/
def Wins (eligible : List Rule) (chosen : Rule) : Prop :=
  ∃ earlier later, eligible = earlier ++ chosen :: later ∧
    (∀ other ∈ earlier, other.Below chosen) ∧ ∀ other ∈ later, other.NotAbove chosen

namespace Dispatched

variable {rules loaded : List Rule}

theorem mem_iff (dispatched : Dispatched rules loaded) {rule : Rule} :
    rule ∈ rules ↔ rule ∈ loaded := by
  have same : rule ∈ rules.filter (·.hasRank rule.priority rule.size) ↔
      rule ∈ loaded.filter (·.hasRank rule.priority rule.size) := by
    rw [dispatched.loadOrder]
  simpa [hasRank] using same

theorem filter (dispatched : Dispatched rules loaded) (keep : Rule → Bool) :
    Dispatched (rules.filter keep) (loaded.filter keep) := by
  refine ⟨dispatched.descending.filter keep, fun priority size => ?_⟩
  have commute : ∀ rules : List Rule, (rules.filter keep).filter (·.hasRank priority size) =
      (rules.filter (·.hasRank priority size)).filter keep := by
    intro rules
    simp only [List.filter_filter, Bool.and_comm]
  rw [commute, commute, dispatched.loadOrder]

theorem wins {chosen : Rule} (dispatched : Dispatched (chosen :: rules) loaded) :
    Wins loaded chosen := by
  have notAbove : ∀ other ∈ loaded, other.NotAbove chosen := by
    intro other member
    rcases List.mem_cons.1 (dispatched.mem_iff.2 member) with rfl | behind
    · exact Or.inr ⟨rfl, Nat.le_refl _⟩
    · exact (List.pairwise_cons.1 dispatched.descending).1 other behind
  have order := dispatched.loadOrder chosen.priority chosen.size
  rw [List.filter_cons_of_pos (hasRank_iff.2 ⟨rfl, rfl⟩)] at order
  obtain ⟨earlier, later, split, others, _, _⟩ := List.filter_eq_cons_iff.1 order.symm
  refine ⟨earlier, later, split, ?_, ?_⟩
  · intro other member
    have notRanked := others other member
    rcases notAbove other (by simp [split, member]) with lower | ⟨same, smaller⟩
    · exact Or.inl lower
    · refine Or.inr ⟨same, Nat.lt_of_le_of_ne smaller fun sameSize => notRanked ?_⟩
      exact hasRank_iff.2 ⟨same, sameSize⟩
  · intro other member
    exact notAbove other (by simp [split, member])

end Dispatched

end Rule

namespace Bucket

def insertByPriority (rule : Rule) : List Bucket → List Bucket
  | [] => [⟨rule.priority, [rule]⟩]
  | bucket :: later =>
      if bucket.priority = rule.priority then
        { bucket with rules := insertRule rule bucket.rules } :: later
      else if bucket.priority < rule.priority then ⟨rule.priority, [rule]⟩ :: bucket :: later
      else bucket :: insertByPriority rule later

structure Ordered (buckets : List Bucket) : Prop where
  priorities : buckets.Pairwise fun first later => later.priority < first.priority
  placed : ∀ bucket ∈ buckets, ∀ rule ∈ bucket.rules, rule.priority = bucket.priority
  sizes : ∀ bucket ∈ buckets, bucket.rules.Pairwise fun first later => later.size ≤ first.size

theorem mem_insertRule {rule other : Rule} {rules : List Rule} :
    other ∈ insertRule rule rules ↔ other = rule ∨ other ∈ rules := by
  induction rules with
  | nil => simp [insertRule]
  | cons first later ih =>
      by_cases smaller : first.size < rule.size
      · simp [insertRule, smaller]
      · simp only [insertRule, smaller, if_false, List.mem_cons, ih]
        exact or_left_comm

theorem descending_insertRule (rule : Rule) {rules : List Rule}
    (descending : rules.Pairwise fun first later => later.size ≤ first.size) :
    (insertRule rule rules).Pairwise fun first later => later.size ≤ first.size := by
  induction rules with
  | nil => simp [insertRule]
  | cons first later ih =>
      obtain ⟨least, rest⟩ := List.pairwise_cons.1 descending
      by_cases smaller : first.size < rule.size
      · simp only [insertRule, smaller, if_true]
        refine List.pairwise_cons.2 ⟨?_, descending⟩
        intro other member
        rcases List.mem_cons.1 member with rfl | inLater
        · omega
        · have := least other inLater
          omega
      · simp only [insertRule, smaller, if_false]
        refine List.pairwise_cons.2 ⟨?_, ih rest⟩
        intro other member
        rcases mem_insertRule.1 member with rfl | inLater
        · omega
        · exact least other inLater

theorem sortRules_append (front back : List Rule) :
    sortRules (front ++ back) =
      back.foldl (fun sorted rule => insertRule rule sorted) (sortRules front) := by
  rw [sortRules, List.foldl_append, ← sortRules]

theorem sortRules_concat (rules : List Rule) (rule : Rule) :
    sortRules (rules ++ [rule]) = insertRule rule (sortRules rules) :=
  sortRules_append rules [rule]

theorem descending_sortRules (rules : List Rule) :
    (sortRules rules).Pairwise fun first later => later.size ≤ first.size := by
  induction rules using List.reverseRecOn with
  | nil => exact .nil
  | append_singleton rules rule ih =>
      rw [sortRules_concat]
      exact descending_insertRule rule ih

theorem insertRule_of_least {rule : Rule} {rules : List Rule}
    (least : ∀ other ∈ rules, rule.size ≤ other.size) : insertRule rule rules = rules ++ [rule] := by
  induction rules with
  | nil => rfl
  | cons first later ih =>
      obtain ⟨notLess, rest⟩ := List.forall_mem_cons.1 least
      rw [insertRule, if_neg (Nat.not_lt.2 notLess), ih rest, List.cons_append]

theorem sortRules_of_descending {rules : List Rule}
    (descending : rules.Pairwise fun first later => later.size ≤ first.size) :
    sortRules rules = rules := by
  induction rules using List.reverseRecOn with
  | nil => rfl
  | append_singleton rules rule ih =>
      obtain ⟨before, _, least⟩ := List.pairwise_append.1 descending
      rw [sortRules_concat, ih before]
      exact insertRule_of_least fun other member => least other member rule List.mem_cons_self

theorem sorted_sorted (bucket : Bucket) : bucket.sorted.sorted = bucket.sorted := by
  simp only [sorted, sortRules_of_descending (descending_sortRules bucket.rules)]

/-- A rule that is appended before the buckets are sorted comes to where it is inserted after. -/
theorem map_sorted_append (rule : Rule) (buckets : List Bucket) :
    (append rule buckets).map sorted = insertByPriority rule (buckets.map sorted) := by
  induction buckets with
  | nil => rfl
  | cons bucket later ih =>
      simp only [append, List.map_cons, insertByPriority]
      split
      · next same =>
          rw [if_pos (show bucket.sorted.priority = rule.priority from same), List.map_cons]
          simp only [sorted, sortRules_concat]
      · next differs =>
          rw [if_neg (show bucket.sorted.priority ≠ rule.priority from differs)]
          split
          · next higher =>
              rw [if_pos (show bucket.sorted.priority < rule.priority from higher)]
              rfl
          · next notHigher =>
              rw [if_neg (show ¬bucket.sorted.priority < rule.priority from notHigher),
                List.map_cons, ih]

theorem map_sorted_of_ordered {buckets : List Bucket} (ordered : Ordered buckets) :
    buckets.map sorted = buckets := by
  have same : ∀ bucket ∈ buckets, bucket.sorted = bucket := by
    intro bucket member
    simp only [sorted, sortRules_of_descending (ordered.sizes bucket member)]
  rw [List.map_congr_left same, List.map_id']

theorem filter_insertRule (rule : Rule) {rules : List Rule}
    (descending : rules.Pairwise fun first later => later.size ≤ first.size) (priority : Int32)
    (size : Nat) : (insertRule rule rules).filter (·.hasRank priority size) =
      rules.filter (·.hasRank priority size) ++ [rule].filter (·.hasRank priority size) := by
  induction rules with
  | nil => rfl
  | cons first later ih =>
      obtain ⟨least, rest⟩ := List.pairwise_cons.1 descending
      by_cases smaller : first.size < rule.size
      · simp only [insertRule, smaller, if_true]
        by_cases ranked : rule.hasRank priority size = true
        · have none : (first :: later).filter (·.hasRank priority size) = [] := by
            rw [List.filter_eq_nil_iff]
            intro other member same
            have size := (Rule.hasRank_iff.1 ranked).2
            have otherSize := (Rule.hasRank_iff.1 same).2
            rcases List.mem_cons.1 member with rfl | inLater
            · omega
            · have := least other inLater
              omega
          rw [List.filter_cons_of_pos ranked, none]
          simp [ranked]
        · simp [ranked]
      · simp only [insertRule, smaller, if_false]
        rw [List.filter_cons, List.filter_cons, ih rest]
        split <;> rfl

theorem priorities_insertByPriority (rule : Rule) {buckets : List Bucket} {bucket : Bucket}
    (member : bucket ∈ insertByPriority rule buckets) :
    bucket.priority = rule.priority ∨ ∃ old ∈ buckets, bucket.priority = old.priority := by
  induction buckets with
  | nil =>
      simp only [insertByPriority, List.mem_singleton] at member
      exact Or.inl (member ▸ rfl)
  | cons first later ih =>
      simp only [insertByPriority] at member
      split at member
      · rcases List.mem_cons.1 member with rfl | inLater
        · exact Or.inr ⟨first, List.mem_cons_self, rfl⟩
        · exact Or.inr ⟨bucket, List.mem_cons_of_mem _ inLater, rfl⟩
      · split at member
        · rcases List.mem_cons.1 member with rfl | old
          · exact Or.inl rfl
          · exact Or.inr ⟨bucket, old, rfl⟩
        · rcases List.mem_cons.1 member with rfl | inLater
          · exact Or.inr ⟨bucket, List.mem_cons_self, rfl⟩
          · rcases ih inLater with same | ⟨old, inOld, same⟩
            · exact Or.inl same
            · exact Or.inr ⟨old, List.mem_cons_of_mem _ inOld, same⟩

theorem ordered_cons {first : Bucket} {later : List Bucket} :
    Ordered (first :: later) ↔
      (∀ bucket ∈ later, bucket.priority < first.priority) ∧
      (∀ rule ∈ first.rules, rule.priority = first.priority) ∧
      (first.rules.Pairwise fun first later => later.size ≤ first.size) ∧ Ordered later := by
  constructor
  · rintro ⟨priorities, placed, sizes⟩
    obtain ⟨lower, rest⟩ := List.pairwise_cons.1 priorities
    exact ⟨lower, placed first List.mem_cons_self, sizes first List.mem_cons_self, rest,
      fun bucket member => placed bucket (List.mem_cons_of_mem _ member),
      fun bucket member => sizes bucket (List.mem_cons_of_mem _ member)⟩
  · rintro ⟨lower, placed, sizes, ordered⟩
    exact ⟨List.pairwise_cons.2 ⟨lower, ordered.priorities⟩,
      List.forall_mem_cons.2 ⟨placed, ordered.placed⟩,
      List.forall_mem_cons.2 ⟨sizes, ordered.sizes⟩⟩

theorem ordered_insertByPriority (rule : Rule) {buckets : List Bucket}
    (ordered : Ordered buckets) : Ordered (insertByPriority rule buckets) := by
  induction buckets with
  | nil => simp [insertByPriority, ordered_cons, ordered]
  | cons first later ih =>
      obtain ⟨lower, placed, sizes, rest⟩ := ordered_cons.1 ordered
      simp only [insertByPriority]
      split
      · next same =>
          refine ordered_cons.2 ⟨lower, ?_, descending_insertRule rule sizes, rest⟩
          intro other member
          rcases mem_insertRule.1 member with rfl | old
          · exact same.symm
          · exact placed other old
      · next differs =>
          split
          · next higher =>
              refine ordered_cons.2 ⟨?_, by simp, by simp, ordered⟩
              intro bucket member
              rcases List.mem_cons.1 member with rfl | inLater
              · exact higher
              · exact Int32.lt_trans (lower bucket inLater) higher
          · next notHigher =>
              refine ordered_cons.2 ⟨?_, placed, sizes, ih rest⟩
              intro bucket member
              rcases priorities_insertByPriority rule member with same | ⟨old, inLater, same⟩
              · rw [same]
                exact Int32.lt_of_le_of_ne (Int32.not_lt.1 notHigher) (Ne.symm differs)
              · rw [same]
                exact lower old inLater

theorem filter_eq_nil_of_lower {buckets : List Bucket} (ordered : Ordered buckets)
    {priority : Int32} (lower : ∀ bucket ∈ buckets, bucket.priority < priority) (size : Nat) :
    (buckets.flatMap rules).filter (·.hasRank priority size) = [] := by
  rw [List.filter_eq_nil_iff]
  intro rule member ranked
  obtain ⟨bucket, inBuckets, inRules⟩ := List.mem_flatMap.1 member
  have less := lower bucket inBuckets
  rw [← ordered.placed bucket inBuckets rule inRules, (Rule.hasRank_iff.1 ranked).1] at less
  exact Int32.lt_irrefl less

theorem filter_insertByPriority (rule : Rule) {buckets : List Bucket} (ordered : Ordered buckets)
    (priority : Int32) (size : Nat) :
    ((insertByPriority rule buckets).flatMap rules).filter (·.hasRank priority size) =
      (buckets.flatMap rules).filter (·.hasRank priority size) ++
        [rule].filter (·.hasRank priority size) := by
  induction buckets with
  | nil => simp [insertByPriority]
  | cons first later ih =>
      obtain ⟨lower, _, sizes, rest⟩ := ordered_cons.1 ordered
      have behind : ∀ buckets, Ordered buckets →
          (∀ bucket ∈ buckets, bucket.priority < rule.priority) →
          [rule].filter (·.hasRank priority size) ++
              (buckets.flatMap rules).filter (·.hasRank priority size) =
            (buckets.flatMap rules).filter (·.hasRank priority size) ++
              [rule].filter (·.hasRank priority size) := by
        intro buckets ordered lower
        by_cases ranked : rule.hasRank priority size = true
        · rw [(Rule.hasRank_iff.1 ranked).1] at lower
          simp [filter_eq_nil_of_lower ordered lower size]
        · simp [ranked]
      simp only [insertByPriority]
      split
      · next same =>
          rw [same] at lower
          simp only [List.flatMap_cons, List.filter_append, filter_insertRule rule sizes,
            List.append_assoc, behind later rest lower]
      · split
        · next higher =>
            have allLower : ∀ bucket ∈ first :: later, bucket.priority < rule.priority := by
              intro bucket member
              rcases List.mem_cons.1 member with rfl | inLater
              · exact higher
              · exact Int32.lt_trans (lower bucket inLater) higher
            rw [← behind _ ordered allLower, List.flatMap_cons, List.filter_append]
        · rw [List.flatMap_cons, List.flatMap_cons, List.filter_append, List.filter_append, ih rest,
            List.append_assoc]

theorem Ordered.descending {buckets : List Bucket} (ordered : Ordered buckets) :
    (buckets.flatMap rules).Pairwise fun first later => later.NotAbove first := by
  induction buckets with
  | nil => exact .nil
  | cons bucket buckets ih =>
      obtain ⟨lower, placed, sizes, rest⟩ := ordered_cons.1 ordered
      rw [List.flatMap_cons, List.pairwise_append]
      refine ⟨?_, ih rest, ?_⟩
      · refine sizes.imp_of_mem ?_
        intro first later first_mem later_mem smaller
        exact Or.inr ⟨(placed later later_mem).trans (placed first first_mem).symm, smaller⟩
      · intro first first_mem later later_mem
        obtain ⟨other, inBuckets, inRules⟩ := List.mem_flatMap.1 later_mem
        have less := lower other inBuckets
        rw [← placed first first_mem, ← rest.placed other inBuckets later inRules] at less
        exact Or.inl less

end Bucket

namespace Engine

def insertRule (engine : Engine) (rule : Rule) : Engine :=
  { engine with
    index := engine.index.insert rule.target
      (Bucket.insertByPriority rule (engine.buckets rule.target)) }

/-- The index holds the loaded rules: in order, and those of one rank as they were loaded. -/
structure Indexes (engine : Engine) (loaded : List Rule) : Prop where
  ordered : ∀ target, Bucket.Ordered (engine.buckets target)
  loadOrder : ∀ target priority size,
    (engine.rulesFor target).filter (·.hasRank priority size) =
      (loaded.filter (·.target = target)).filter (·.hasRank priority size)

def loadAll (engine : Engine) (loads : List (List Rule)) : Engine :=
  loads.foldl (fun engine rules => (engine.load rules).1) engine

theorem buckets_insertRule (engine : Engine) (rule : Rule) (target : String) :
    (engine.insertRule rule).buckets target =
      if target = rule.target then Bucket.insertByPriority rule (engine.buckets target)
      else engine.buckets target := by
  simp only [buckets, insertRule]
  split
  · next same => simp [same]
  · next differs => rw [Table.find?_insert_of_ne _ _ differs]

theorem buckets_sorted (engine : Engine) (target : String) :
    engine.sorted.buckets target = (engine.buckets target).map Bucket.sorted := by
  simp only [buckets, sorted, Table.find?_mapValues]
  cases engine.index.find? target <;> rfl

theorem sorted_append (engine : Engine) (rule : Rule) :
    (engine.append rule).sorted = engine.sorted.insertRule rule := by
  rw [insertRule, buckets_sorted, ← Bucket.map_sorted_append]
  simp only [append, sorted, Table.mapValues_insert]

theorem sorted_sorted (engine : Engine) : engine.sorted.sorted = engine.sorted := by
  simp only [sorted, Table.mapValues, List.map_map]
  congr 1
  refine List.map_congr_left fun entry _ => ?_
  simp only [Function.comp_apply, List.map_map]
  refine congrArg (Prod.mk entry.1) (List.map_congr_left fun bucket _ => ?_)
  exact bucket.sorted_sorted

/-- To append all rules and then to sort is to insert them one after another. -/
theorem load_eq_insertRules (engine : Engine) (rules : List Rule) :
    (engine.load rules).1 = rules.foldl insertRule engine.sorted := by
  change (rules.foldl append engine).sorted = _
  induction rules generalizing engine with
  | nil => rfl
  | cons rule rules ih => rw [List.foldl_cons, List.foldl_cons, ih, sorted_append]

namespace Indexes

variable {engine : Engine} {loaded : List Rule}

theorem of_empty (empty : engine.index = []) : engine.Indexes [] where
  ordered target := by
    simp only [buckets, empty]
    exact ⟨.nil, by simp, by simp⟩
  loadOrder target priority size := by simp [rulesFor, buckets, empty]

theorem insertRule (indexes : engine.Indexes loaded) (rule : Rule) :
    (engine.insertRule rule).Indexes (loaded ++ [rule]) where
  ordered target := by
    rw [buckets_insertRule]
    split
    · exact Bucket.ordered_insertByPriority rule (indexes.ordered target)
    · exact indexes.ordered target
  loadOrder target priority size := by
    have before := indexes.loadOrder target priority size
    simp only [rulesFor] at before ⊢
    rw [buckets_insertRule, List.filter_append, List.filter_append, ← before]
    by_cases same : target = rule.target
    · subst same
      rw [if_pos rfl, Bucket.filter_insertByPriority rule (indexes.ordered rule.target)]
      simp
    · simp [same, Ne.symm same]

theorem insertRules (indexes : engine.Indexes loaded) (rules : List Rule) :
    (rules.foldl Engine.insertRule engine).Indexes (loaded ++ rules) := by
  induction rules generalizing engine loaded with
  | nil => simpa using indexes
  | cons rule rules ih => simpa using ih (indexes.insertRule rule)

theorem sorted (indexes : engine.Indexes loaded) : engine.sorted.Indexes loaded := by
  have same (target : String) : engine.sorted.buckets target = engine.buckets target :=
    (buckets_sorted engine target).trans (Bucket.map_sorted_of_ordered (indexes.ordered target))
  constructor
  · intro target
    rw [same]
    exact indexes.ordered target
  · intro target
    rw [rulesFor, same]
    exact indexes.loadOrder target

theorem load (indexes : engine.Indexes loaded) (rules : List Rule) :
    (engine.load rules).1.Indexes (loaded ++ rules) := by
  rw [load_eq_insertRules]
  exact indexes.sorted.insertRules rules

theorem loadAll (indexes : engine.Indexes loaded) (loads : List (List Rule)) :
    (engine.loadAll loads).Indexes (loaded ++ loads.flatten) := by
  induction loads generalizing engine loaded with
  | nil =>
      rw [List.flatten_nil, List.append_nil]
      exact indexes
  | cons rules loads ih =>
      rw [List.flatten_cons, ← List.append_assoc]
      exact ih (indexes.load rules)

theorem dispatched (indexes : engine.Indexes loaded) (target : String) :
    Rule.Dispatched (engine.rulesFor target) (loaded.filter (·.target = target)) :=
  ⟨(indexes.ordered target).descending, indexes.loadOrder target⟩

theorem mem_rulesFor (indexes : engine.Indexes loaded) {target : String} {rule : Rule} :
    rule ∈ engine.rulesFor target ↔ rule ∈ loaded ∧ rule.target = target := by
  simp [(indexes.dispatched target).mem_iff]

end Indexes

theorem mem_of_load {engine : Engine} (empty : engine.index = []) {rules : List Rule}
    {target : String} {rule : Rule} (member : rule ∈ (engine.load rules).1.rulesFor target) :
    rule ∈ rules :=
  (((Indexes.of_empty empty).load rules).mem_rulesFor.1 member).1

end Engine

end FactRules
