import FactRules.Proofs.History

/-!
Which rule answers for an attribute. Conditions are tried in order, bucket by bucket, and whole
buckets at a time; the first bucket with a match ends the search, and so does the first failure.
-/

namespace FactRules

open Resolution

namespace Engine

def tried (engine : Engine) (rules : List Rule) (context : Context) : Context :=
  rules.foldl (fun context rule => (engine.evaluate rule.condition context).2) context

/-- Whichever of the rules have been tried before, the condition of a rule has this outcome. -/
def FixedOutcomes (engine : Engine) (rules : List Rule)
    (outcome : SharedCondition → Except RuleError Bool) (context : Context) : Prop :=
  ∀ earlier ⊆ rules, ∀ rule ∈ rules,
    (engine.evaluate rule.condition (engine.tried earlier context)).1 = outcome rule.condition

end Engine

def Rule.applies (outcome : SharedCondition → Except RuleError Bool) (rule : Rule) : Bool :=
  match outcome rule.condition with
  | .ok verdict => verdict
  | .error _ => false

section

variable {engine : Engine} {rules tier : List Rule} {context : Context}
variable {outcome : SharedCondition → Except RuleError Bool}

theorem Engine.tried_append (first later : List Rule) :
    engine.tried (first ++ later) context = engine.tried later (engine.tried first context) := by
  simp only [Engine.tried, List.foldl_append]

theorem Engine.FixedOutcomes.after (fixed : engine.FixedOutcomes rules outcome context)
    (inside : tier ⊆ rules) : engine.FixedOutcomes rules outcome (engine.tried tier context) := by
  intro earlier earlierInside rule member
  rw [← Engine.tried_append]
  exact fixed (tier ++ earlier) (List.append_subset.2 ⟨inside, earlierInside⟩) rule member

theorem Engine.FixedOutcomes.now (fixed : engine.FixedOutcomes rules outcome context) {rule : Rule}
    (member : rule ∈ rules) : (engine.evaluate rule.condition context).1 = outcome rule.condition :=
  fixed [] (List.nil_subset rules) rule member

theorem holds_apply (fixed : engine.FixedOutcomes rules outcome context) {rule : Rule}
    (member : rule ∈ rules) :
    holds engine engine.get rule context = (outcome rule.condition, engine.tried [rule] context) :=
  Prod.ext (fixed.now member) rfl

theorem matching_of_decided (fixed : engine.FixedOutcomes rules outcome context)
    (inside : tier ⊆ rules) (decided : ∀ rule ∈ tier, ∃ verdict, outcome rule.condition = .ok verdict) :
    matching (holds engine engine.get) tier context =
      (.ok (tier.filter (Rule.applies outcome)), engine.tried tier context) := by
  induction tier generalizing context with
  | nil => rfl
  | cons rule tier ih =>
      have member : rule ∈ rules := inside List.mem_cons_self
      obtain ⟨verdict, ok⟩ := decided rule List.mem_cons_self
      have later := ih (fixed.after (List.cons_subset.2 ⟨member, List.nil_subset _⟩))
        (fun other inTier => inside (List.mem_cons_of_mem _ inTier))
        (fun other inTier => decided other (List.mem_cons_of_mem _ inTier))
      simp only [matching, bind_apply, holds_apply fixed member, ok, later]
      cases verdict <;> simp [Rule.applies, ok] <;> rfl

theorem matching_of_failure (fixed : engine.FixedOutcomes rules outcome context)
    {before after : List Rule} {failing : Rule} {error : RuleError}
    (inside : before ++ failing :: after ⊆ rules)
    (decided : ∀ rule ∈ before, ∃ verdict, outcome rule.condition = .ok verdict)
    (failed : outcome failing.condition = .error error) :
    matching (holds engine engine.get) (before ++ failing :: after) context =
      (.error error, engine.tried (before ++ [failing]) context) := by
  induction before generalizing context with
  | nil =>
      have member : failing ∈ rules := inside List.mem_cons_self
      simp only [List.nil_append, matching, bind_apply, holds_apply fixed member, failed]
  | cons rule before ih =>
      have member : rule ∈ rules := inside List.mem_cons_self
      obtain ⟨verdict, ok⟩ := decided rule List.mem_cons_self
      have later := ih (fixed.after (List.cons_subset.2 ⟨member, List.nil_subset _⟩))
        (fun other inTier => inside (List.mem_cons_of_mem _ inTier))
        (fun other inTier => decided other (List.mem_cons_of_mem _ inTier))
      simp only [List.cons_append, matching, bind_apply, holds_apply fixed member, ok, later]
      rfl

theorem firstMatching_skip (fixed : engine.FixedOutcomes rules outcome context)
    {skipped : List Bucket} (inside : skipped.flatMap Bucket.rules ⊆ rules)
    (allFalse : ∀ rule ∈ skipped.flatMap Bucket.rules, outcome rule.condition = .ok false)
    (buckets : List Bucket) :
    firstMatching (holds engine engine.get) (skipped ++ buckets) context =
      firstMatching (holds engine engine.get) buckets
        (engine.tried (skipped.flatMap Bucket.rules) context) := by
  induction skipped generalizing context with
  | nil => rfl
  | cons bucket skipped ih =>
      rw [List.flatMap_cons] at inside allFalse ⊢
      obtain ⟨bucketInside, laterInside⟩ := List.append_subset.1 inside
      have bucketFalse := fun rule member => allFalse rule (List.mem_append_left _ member)
      have none : bucket.rules.filter (Rule.applies outcome) = [] := by
        rw [List.filter_eq_nil_iff]
        intro rule member
        simp [Rule.applies, bucketFalse rule member]
      rw [List.cons_append, firstMatching, bind_apply,
        matching_of_decided fixed bucketInside fun rule member => ⟨_, bucketFalse rule member⟩,
        none, Engine.tried_append]
      exact ih (fixed.after bucketInside) laterInside
        fun rule member => allFalse rule (List.mem_append_right _ member)

variable {target : String} {skipped later : List Bucket} {bucket : Bucket}

theorem rulesFor_of_split (split : engine.buckets target = skipped ++ bucket :: later) :
    engine.rulesFor target =
      skipped.flatMap Bucket.rules ++ (bucket.rules ++ later.flatMap Bucket.rules) := by
  rw [Engine.rulesFor, split, List.flatMap_append, List.flatMap_cons]

theorem candidates_of_failure
    (fixed : engine.FixedOutcomes (engine.rulesFor target) outcome context)
    (split : engine.buckets target = skipped ++ bucket :: later) {before after : List Rule}
    {failing : Rule} {error : RuleError} (inBucket : bucket.rules = before ++ failing :: after)
    (allFalse : ∀ rule ∈ skipped.flatMap Bucket.rules, outcome rule.condition = .ok false)
    (decided : ∀ rule ∈ before, ∃ verdict, outcome rule.condition = .ok verdict)
    (failed : outcome failing.condition = .error error) :
    engine.candidates target context = (.error error,
      engine.tried (skipped.flatMap Bucket.rules ++ before ++ [failing]) context) := by
  rw [rulesFor_of_split split] at fixed
  have skippedInside := List.subset_append_left (skipped.flatMap Bucket.rules)
    (bucket.rules ++ later.flatMap Bucket.rules)
  have bucketInside := List.subset_append_of_subset_right (skipped.flatMap Bucket.rules)
    (List.subset_append_left bucket.rules (later.flatMap Bucket.rules))
  simp only [Engine.candidates, candidates]
  rw [split, firstMatching_skip fixed skippedInside allFalse, firstMatching, bind_apply]
  rw [inBucket] at bucketInside ⊢
  rw [matching_of_failure (inBucket ▸ fixed.after skippedInside) bucketInside decided failed,
    List.append_assoc, ← Engine.tried_append]

theorem candidates_of_match
    (fixed : engine.FixedOutcomes (engine.rulesFor target) outcome context)
    (split : engine.buckets target = skipped ++ bucket :: later)
    (allFalse : ∀ rule ∈ skipped.flatMap Bucket.rules, outcome rule.condition = .ok false)
    (decided : ∀ rule ∈ bucket.rules, ∃ verdict, outcome rule.condition = .ok verdict)
    {chosen : Rule} {others : List Rule}
    (found : bucket.rules.filter (Rule.applies outcome) = chosen :: others) :
    engine.candidates target context = (.ok (chosen :: others),
      engine.tried (skipped.flatMap Bucket.rules ++ bucket.rules) context) := by
  rw [rulesFor_of_split split] at fixed
  have skippedInside := List.subset_append_left (skipped.flatMap Bucket.rules)
    (bucket.rules ++ later.flatMap Bucket.rules)
  have bucketInside := List.subset_append_of_subset_right (skipped.flatMap Bucket.rules)
    (List.subset_append_left bucket.rules (later.flatMap Bucket.rules))
  simp only [Engine.candidates, candidates]
  rw [split, firstMatching_skip fixed skippedInside allFalse, firstMatching, bind_apply,
    matching_of_decided (fixed.after skippedInside) bucketInside decided, found,
    ← Engine.tried_append]
  rfl

theorem candidates_of_none
    (fixed : engine.FixedOutcomes (engine.rulesFor target) outcome context)
    (allFalse : ∀ rule ∈ engine.rulesFor target, outcome rule.condition = .ok false) :
    engine.candidates target context = (.ok [], engine.tried (engine.rulesFor target) context) := by
  simp only [Engine.candidates, candidates]
  rw [← List.append_nil (engine.buckets target),
    firstMatching_skip fixed (List.Subset.refl _) allFalse]
  rfl

theorem split_at_priority {buckets : List Bucket} (ordered : Bucket.Ordered buckets) {rule : Rule}
    (member : rule ∈ buckets.flatMap Bucket.rules) :
    ∃ skipped bucket later, buckets = skipped ++ bucket :: later ∧ rule ∈ bucket.rules ∧
      (∀ other ∈ skipped.flatMap Bucket.rules, rule.priority < other.priority) ∧
      (∀ other ∈ bucket.rules, other.priority = rule.priority) ∧
      ∀ other ∈ later.flatMap Bucket.rules, other.priority < rule.priority := by
  obtain ⟨bucket, inBuckets, inRules⟩ := List.mem_flatMap.1 member
  obtain ⟨skipped, later, split⟩ := List.append_of_mem inBuckets
  have same := ordered.placed bucket inBuckets rule inRules
  have priorities := split ▸ ordered.priorities
  obtain ⟨_, belowBucket, aboveBucket⟩ := List.pairwise_append.1 priorities
  refine ⟨skipped, bucket, later, split, inRules, ?_, ?_, ?_⟩
  · intro other otherMember
    obtain ⟨higher, inSkipped, inHigher⟩ := List.mem_flatMap.1 otherMember
    rw [same, ordered.placed higher (by simp [split, inSkipped]) other inHigher]
    exact aboveBucket higher inSkipped bucket List.mem_cons_self
  · intro other otherMember
    rw [same, ordered.placed bucket inBuckets other otherMember]
  · intro other otherMember
    obtain ⟨lower, inLater, inLower⟩ := List.mem_flatMap.1 otherMember
    rw [same, ordered.placed lower (by simp [split, inLater]) other inLower]
    exact (List.pairwise_cons.1 belowBucket).1 lower inLater

theorem first_failure {tier : List Rule}
    (failing : ∃ rule ∈ tier, ∃ error, outcome rule.condition = .error error) :
    ∃ before rule after error, tier = before ++ rule :: after ∧
      outcome rule.condition = .error error ∧
      ∀ other ∈ before, ∃ verdict, outcome other.condition = .ok verdict := by
  induction tier with
  | nil => simp at failing
  | cons first tier ih =>
      cases tried : outcome first.condition with
      | error error => exact ⟨[], first, tier, error, rfl, tried, by simp⟩
      | ok verdict =>
          obtain ⟨rule, member, error, failed⟩ := failing
          rcases List.mem_cons.1 member with rfl | inTier
          · rw [tried] at failed
            cases failed
          · obtain ⟨before, other, after, cause, split, otherFailed, decided⟩ :=
              ih ⟨rule, inTier, error, failed⟩
            refine ⟨first :: before, other, after, cause, by rw [split, List.cons_append],
              otherFailed, ?_⟩
            exact List.forall_mem_cons.2 ⟨⟨verdict, tried⟩, decided⟩

end

def Engine.result (engine : Engine) (rule : Rule) : Resolving (Option Value) := do
  let value ← engine.fire rule
  pure (if value.isNull then none else some value)

theorem lookup_apply (engine : Engine) (target : String) (context : Context) :
    engine.lookup target context =
      match engine.candidates target context with
      | (.ok [], after) => (.ok none, after)
      | (.ok (rule :: _), after) => engine.result rule after
      | (.error error, after) => (.error error, after) := by
  rw [Engine.lookup, lookup, bind_apply, Engine.candidates]
  obtain ⟨error | found, after⟩ := candidates engine engine.get target context
  · rfl
  · cases found <;> rfl

section

variable {engine : Engine} {target : String} {context : Context} {given : List Rule}
variable {outcome : SharedCondition → Except RuleError Bool}

theorem false_of_not_applies {rule : Rule} (decided : ∃ verdict, outcome rule.condition = .ok verdict)
    (rejected : ¬rule.applies outcome = true) : outcome rule.condition = .ok false := by
  obtain ⟨verdict, ok⟩ := decided
  simpa [Rule.applies, ok] using rejected

/-- The highest priority with a match decides, unless a condition fails that is tried before. -/
theorem dispatch_of_match (ordered : Bucket.Ordered (engine.buckets target))
    (dispatched : Rule.Dispatched (engine.rulesFor target) given)
    (fixed : engine.FixedOutcomes (engine.rulesFor target) outcome context) {rule : Rule}
    (eligible : rule ∈ given.filter (Rule.applies outcome))
    (highest : ∀ other ∈ given.filter (Rule.applies outcome), other.priority ≤ rule.priority)
    (decided : ∀ other ∈ given, rule.priority ≤ other.priority →
      ∃ verdict, outcome other.condition = .ok verdict) :
    ∃ found chosen,
      Rule.Dispatched (chosen :: found)
        ((given.filter (Rule.applies outcome)).filter (·.priority = rule.priority)) ∧
      Rule.Wins (given.filter (Rule.applies outcome)) chosen ∧
      engine.candidates target context = (.ok (chosen :: found),
        engine.tried ((engine.rulesFor target).filter (rule.priority ≤ ·.priority)) context) := by
  obtain ⟨isGiven, applies⟩ := List.mem_filter.1 eligible
  obtain ⟨skipped, bucket, later, split, inBucket, above, same, below⟩ :=
    split_at_priority ordered (dispatched.mem_iff.2 isGiven)
  have order_eq := rulesFor_of_split split
  have skippedFalse : ∀ other ∈ skipped.flatMap Bucket.rules,
      outcome other.condition = .ok false := by
    intro other member
    have otherGiven := dispatched.mem_iff.1 (order_eq ▸ List.mem_append_left _ member)
    have higher := above other member
    refine false_of_not_applies (decided other otherGiven (Int32.le_of_lt higher)) ?_
    intro otherApplies
    exact Int32.not_lt.2 (highest other (List.mem_filter.2 ⟨otherGiven, otherApplies⟩)) higher
  have bucketDecided : ∀ other ∈ bucket.rules,
      ∃ verdict, outcome other.condition = .ok verdict := by
    intro other member
    refine decided other (dispatched.mem_iff.1 ?_) (same other member ▸ Int32.le_refl _)
    rw [order_eq]
    exact List.mem_append_right _ (List.mem_append_left _ member)
  have visited : (engine.rulesFor target).filter (rule.priority ≤ ·.priority) =
      skipped.flatMap Bucket.rules ++ bucket.rules := by
    have higher : (skipped.flatMap Bucket.rules).filter (rule.priority ≤ ·.priority) =
        skipped.flatMap Bucket.rules :=
      List.filter_eq_self.2 fun other member => by simpa using Int32.le_of_lt (above other member)
    have level : bucket.rules.filter (rule.priority ≤ ·.priority) = bucket.rules :=
      List.filter_eq_self.2 fun other member => by simp [same other member]
    have lower : (later.flatMap Bucket.rules).filter (rule.priority ≤ ·.priority) = [] :=
      List.filter_eq_nil_iff.2 fun other member => by simpa using below other member
    rw [order_eq, List.filter_append, List.filter_append, higher, level, lower, List.append_nil]
  have ranked := dispatched.filter (Rule.applies outcome)
  have skippedNone : (skipped.flatMap Bucket.rules).filter (Rule.applies outcome) = [] :=
    List.filter_eq_nil_iff.2 fun other member => by
      simp [Rule.applies, skippedFalse other member]
  rw [order_eq, List.filter_append, List.filter_append, skippedNone, List.nil_append] at ranked
  have level := ranked.filter (·.priority = rule.priority)
  have levelBucket : (bucket.rules.filter (Rule.applies outcome)).filter
      (·.priority = rule.priority) = bucket.rules.filter (Rule.applies outcome) :=
    List.filter_eq_self.2 fun other member => by
      simpa using same other (List.mem_filter.1 member).1
  have levelLater : ((later.flatMap Bucket.rules).filter (Rule.applies outcome)).filter
      (·.priority = rule.priority) = [] :=
    List.filter_eq_nil_iff.2 fun other member => by
      simpa using Int32.ne_of_lt (below other (List.mem_filter.1 member).1)
  rw [List.filter_append, levelBucket, levelLater, List.append_nil] at level
  cases found : bucket.rules.filter (Rule.applies outcome) with
  | nil => exact absurd applies (List.filter_eq_nil_iff.1 found rule inBucket)
  | cons chosen others =>
      rw [found] at level ranked
      rw [visited]
      exact ⟨others, chosen, level, ranked.wins,
        candidates_of_match fixed split skippedFalse bucketDecided found⟩

theorem dispatch_of_failure (ordered : Bucket.Ordered (engine.buckets target))
    (dispatched : Rule.Dispatched (engine.rulesFor target) given)
    (fixed : engine.FixedOutcomes (engine.rulesFor target) outcome context) {rule : Rule}
    (isGiven : rule ∈ given) (failed : ∃ error, outcome rule.condition = .error error)
    (higherFalse : ∀ other ∈ given, rule.priority < other.priority →
      outcome other.condition = .ok false) :
    ∃ before failing after error, engine.rulesFor target = before ++ failing :: after ∧
      (∀ other ∈ before, ∃ verdict, outcome other.condition = .ok verdict) ∧
      failing.priority = rule.priority ∧ outcome failing.condition = .error error ∧
      engine.candidates target context =
        (.error error, engine.tried (before ++ [failing]) context) := by
  obtain ⟨skipped, bucket, later, split, inBucket, above, same, _⟩ :=
    split_at_priority ordered (dispatched.mem_iff.2 isGiven)
  have order_eq := rulesFor_of_split split
  have skippedFalse : ∀ other ∈ skipped.flatMap Bucket.rules,
      outcome other.condition = .ok false := by
    intro other member
    refine higherFalse other (dispatched.mem_iff.1 ?_) (above other member)
    exact order_eq ▸ List.mem_append_left _ member
  obtain ⟨before, failing, after, error, inOrder, failingFailed, decided⟩ :=
    first_failure ⟨rule, inBucket, failed⟩
  refine ⟨skipped.flatMap Bucket.rules ++ before, failing, after ++ later.flatMap Bucket.rules,
    error, ?_, ?_, same failing (by simp [inOrder]), failingFailed,
    candidates_of_failure fixed split inOrder skippedFalse decided failingFailed⟩
  · rw [order_eq, inOrder]
    simp
  · intro other member
    rcases List.mem_append.1 member with higher | level
    · exact ⟨false, skippedFalse other higher⟩
    · exact decided other level

end

/-- For an index that loads have built up: the highest priority with a match decides, unless a
failure is met before. -/
theorem dispatch_loaded (start : Engine) (empty : start.index = []) (loads : List (List Rule))
    (target : String) (context : Context) (outcome : SharedCondition → Except RuleError Bool)
    (fixed : (start.loadAll loads).FixedOutcomes ((start.loadAll loads).rulesFor target) outcome
      context) :
    let engine := start.loadAll loads
    let order := engine.rulesFor target
    let given := loads.flatten.filter (·.target = target)
    let eligible := given.filter (Rule.applies outcome)
    Rule.Dispatched order given ∧
      (∀ priority, (∃ rule ∈ eligible, rule.priority = priority) →
        (∀ rule ∈ eligible, rule.priority ≤ priority) →
        (∀ rule ∈ given, priority ≤ rule.priority →
          ∃ verdict, outcome rule.condition = .ok verdict) →
        ∃ found chosen, Rule.Dispatched (chosen :: found)
            (eligible.filter (·.priority = priority)) ∧ Rule.Wins eligible chosen ∧
          (let after := engine.tried (order.filter (priority ≤ ·.priority)) context
          engine.candidates target context = (.ok (chosen :: found), after) ∧
            engine.lookup target context = engine.result chosen after)) ∧
      (∀ priority,
        (∀ rule ∈ given, priority < rule.priority → outcome rule.condition = .ok false) →
        (∃ rule ∈ given, rule.priority = priority ∧
          ∃ error, outcome rule.condition = .error error) →
        ∃ before failing after error, order = before ++ failing :: after ∧
          (∀ rule ∈ before, ∃ verdict, outcome rule.condition = .ok verdict) ∧
          failing.priority = priority ∧ outcome failing.condition = .error error ∧
          (let after := engine.tried (before ++ [failing]) context
          engine.candidates target context = (.error error, after) ∧
            engine.lookup target context = (.error error, after))) ∧
      ((∀ rule ∈ given, outcome rule.condition = .ok false) →
        engine.candidates target context = (.ok [], engine.tried order context) ∧
          engine.lookup target context = (.ok none, engine.tried order context)) := by
  intro engine order given eligible
  have indexes : engine.Indexes ([] ++ loads.flatten) := (Engine.Indexes.of_empty empty).loadAll loads
  have ordered : Bucket.Ordered (engine.buckets target) := indexes.ordered target
  have dispatched : Rule.Dispatched order given := indexes.dispatched target
  refine ⟨dispatched, ?_, ?_, ?_⟩
  · rintro priority ⟨rule, isEligible, rfl⟩ highest decided
    obtain ⟨found, chosen, level, wins, candidates⟩ :=
      dispatch_of_match ordered dispatched fixed isEligible highest decided
    refine ⟨found, chosen, level, wins, candidates, ?_⟩
    rw [lookup_apply, candidates]
  · rintro priority higherFalse ⟨rule, isGiven, rfl, failed⟩
    obtain ⟨before, failing, after, error, split, decided, same, failingFailed, candidates⟩ :=
      dispatch_of_failure ordered dispatched fixed isGiven failed higherFalse
    refine ⟨before, failing, after, error, split, decided, same, failingFailed, candidates, ?_⟩
    rw [lookup_apply, candidates]
  · intro allFalse
    have none := candidates_of_none fixed fun rule member =>
      allFalse rule (dispatched.mem_iff.1 member)
    refine ⟨none, ?_⟩
    rw [lookup_apply, none]

def Inquiry.Answered {α : Type} (known : Known) : Inquiry α → Prop
  | .done _ => True
  | .ask name next => ∃ answer, known name = some answer ∧ (next answer).Answered known

open Inquiry

theorem perform_of_answered {engine : Engine} {facts : Facts} {interner : Interner}
    (remaining : Nat) {α : Type} {inquiry : Inquiry α} {context : Context}
    (answered : inquiry.Answered context.recall) :
    (perform (askWithin engine facts interner remaining) inquiry context).2 = context := by
  induction inquiry with
  | done outcome => rfl
  | ask name next ih =>
      obtain ⟨answer, known, later⟩ := answered
      simp only [perform, askWithin_of_recall remaining known]
      exact ih answer later

theorem fixedOutcomes_of_answered {engine : Engine} {interner : Interner} {kept : Interner → Prop}
    {context : Context} (settled : context.Settled engine interner kept) (owned : kept interner)
    (repeatable : engine.Repeatable kept) {rules : List Rule}
    (answered : ∀ rule ∈ rules,
      (ofCondition engine.types rule.condition.condition).Answered context.recall) :
    engine.FixedOutcomes rules (fun condition =>
      (perform (askWithin engine context.facts interner engine.settings.maxLookupDepth)
        (ofCondition engine.types condition.condition) context).1) context := by
  have evaluated : ∀ full, Mirrors engine context.facts interner kept full context →
      ∀ rule ∈ rules, (engine.evaluate rule.condition full).1 =
          (perform (askWithin engine context.facts interner engine.settings.maxLookupDepth)
            (ofCondition engine.types rule.condition.condition) context).1 ∧
        Mirrors engine context.facts interner kept (engine.evaluate rule.condition full).2
          context := by
    intro full mirrors rule member
    have asks : AsksShow engine context.facts interner kept engine.settings.maxLookupDepth
        (within engine engine.settings.maxLookupDepth) := asksShow_within owned repeatable _
    have same := (agreeAt_evaluate (Context.Settled.agreeAt_idle engine) engine.types
      rule.condition full (mirrors.sameStack.trans settled.idle)).1
    have shown := shows_evaluate asks rule.condition full context mirrors
    rw [perform_of_answered _ (answered rule member), ← same] at shown
    exact shown
  have tried : ∀ earlier ⊆ rules, ∀ full,
      Mirrors engine context.facts interner kept full context →
      Mirrors engine context.facts interner kept (engine.tried earlier full) context := by
    intro earlier
    induction earlier with
    | nil => exact fun _ _ mirrors => mirrors
    | cons rule earlier ih =>
        intro inside full mirrors
        refine ih (fun other member => inside (List.mem_cons_of_mem _ member)) _ ?_
        exact (evaluated full mirrors rule (inside List.mem_cons_self)).2
  intro earlier inside rule member
  exact (evaluated _ (tried earlier inside context settled.mirrors) rule member).1

def greetingRule (condition : SharedCondition) (words : String) (priority : Int32) : Rule :=
  { condition, target := "greeting", value := .string words, priority }

def adult : SharedCondition := .leaf 0 (.keyLiteral "age" .greaterOrEqual (.integer 18))

def working : SharedCondition :=
  .all 2 [adult, .leaf 1 (.keyLiteral "age" .less (.integer 67))]

def young : SharedCondition := .leaf 3 (.keyLiteral "age" .less (.integer 18))

def modern : SharedCondition := .leaf 4 (.keyLiteral "age" .equal (.typed "Era" "modern"))

def greetingLoads : List (List Rule) :=
  [[greetingRule adult "hello" 0, greetingRule young "hi" 5],
   [greetingRule working "good day" 0, greetingRule modern "hey" (-1)]]

def greetingEngine : Engine := Engine.loadAll {} greetingLoads

theorem mem_greetingLoads {target : String} {rule : Rule}
    (member : rule ∈ greetingEngine.rulesFor target) :
    rule = greetingRule adult "hello" 0 ∨ rule = greetingRule young "hi" 5 ∨
      rule = greetingRule working "good day" 0 ∨ rule = greetingRule modern "hey" (-1) := by
  have indexes : greetingEngine.Indexes ([] ++ greetingLoads.flatten) :=
    (Engine.Indexes.of_empty rfl).loadAll greetingLoads
  simpa [greetingLoads] using (indexes.mem_rulesFor.1 member).1

def thirtyYears : Context := .ofFacts [("age", .int 30)]

def outcomeAtThirty (condition : SharedCondition) : Except RuleError Bool :=
  (perform (askWithin greetingEngine thirtyYears.facts {} greetingEngine.settings.maxLookupDepth)
    (ofCondition greetingEngine.types condition.condition) thirtyYears).1

theorem fixedOutcomes_greeting : greetingEngine.FixedOutcomes
    (greetingEngine.rulesFor "greeting") outcomeAtThirty thirtyYears := by
  have settled : thirtyYears.Settled greetingEngine {} fun _ => True := .fresh trivial _
  refine fixedOutcomes_of_answered settled trivial ?_ ?_
  · intro target rule member action chosen
    rcases mem_greetingLoads member with rfl | rfl | rfl | rfl <;> cases chosen
  · intro rule member
    rcases mem_greetingLoads member with rfl | rfl | rfl | rfl
    · exact ⟨_, rfl, trivial⟩
    · exact ⟨_, rfl, trivial⟩
    · exact ⟨_, rfl, ⟨_, rfl, trivial⟩⟩
    · exact trivial

theorem dispatch_loaded_greeting :
    greetingEngine.FixedOutcomes (greetingEngine.rulesFor "greeting") outcomeAtThirty thirtyYears ∧
      ∃ found chosen,
        Rule.Wins [greetingRule adult "hello" 0, greetingRule working "good day" 0] chosen ∧
        (greetingEngine.candidates "greeting" thirtyYears).1 = .ok (chosen :: found) := by
  refine ⟨fixedOutcomes_greeting, ?_⟩
  obtain ⟨_, matched, _⟩ := dispatch_loaded {} rfl greetingLoads "greeting" thirtyYears
    outcomeAtThirty fixedOutcomes_greeting
  have given : greetingLoads.flatten.filter (·.target = "greeting") =
      [greetingRule adult "hello" 0, greetingRule young "hi" 5,
        greetingRule working "good day" 0, greetingRule modern "hey" (-1)] := rfl
  have adultApplies : (greetingRule adult "hello" 0).applies outcomeAtThirty = true := by
    decide +kernel
  have youngFails : (greetingRule young "hi" 5).applies outcomeAtThirty = false := by
    decide +kernel
  have workingApplies : (greetingRule working "good day" 0).applies outcomeAtThirty = true := by
    decide +kernel
  have modernFails : (greetingRule modern "hey" (-1)).applies outcomeAtThirty = false := by
    decide +kernel
  have eligible : (greetingLoads.flatten.filter (·.target = "greeting")).filter
      (Rule.applies outcomeAtThirty) =
        [greetingRule adult "hello" 0, greetingRule working "good day" 0] := by
    rw [given]
    simp [adultApplies, youngFails, workingApplies, modernFails]
  have highest : ∀ rule ∈ [greetingRule adult "hello" 0, greetingRule working "good day" 0],
      rule.priority ≤ 0 := by
    intro rule member
    simp only [List.mem_cons, List.not_mem_nil, or_false] at member
    rcases member with rfl | rfl <;> decide
  have answered : ∀ {condition : SharedCondition}, (outcomeAtThirty condition).isOk = true →
      ∃ verdict, outcomeAtThirty condition = .ok verdict := by
    intro condition isOk
    cases outcome : outcomeAtThirty condition with
    | ok verdict => exact ⟨verdict, rfl⟩
    | error error =>
        rw [outcome] at isOk
        cases isOk
  have decided : ∀ rule ∈ greetingLoads.flatten.filter (·.target = "greeting"),
      0 ≤ rule.priority → ∃ verdict, outcomeAtThirty rule.condition = .ok verdict := by
    intro rule member notLower
    rw [given] at member
    simp only [List.mem_cons, List.not_mem_nil, or_false] at member
    rcases member with rfl | rfl | rfl | rfl
    · exact answered (by decide +kernel)
    · exact answered (by decide +kernel)
    · exact answered (by decide +kernel)
    · exact absurd notLower (by decide)
  rw [eligible] at matched
  obtain ⟨found, chosen, _, wins, candidates, _⟩ :=
    matched 0 ⟨_, List.mem_cons_self, rfl⟩ highest decided
  exact ⟨found, chosen, wins, congrArg Prod.fst candidates⟩

end FactRules
