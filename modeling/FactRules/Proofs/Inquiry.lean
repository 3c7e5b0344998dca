import FactRules.Resolution

/-!
What answering an attribute amounts to when nothing is remembered: an inquiry is the tree of the
attributes that are asked for on the way. It is performed in a context, or evaluated under answers
that are known beforehand.
-/

namespace FactRules

/-- An inquiry ends, or asks for an attribute and goes on with its answer. A failure ends it. -/
inductive Inquiry (α : Type) : Type where
  | done (outcome : Except RuleError α)
  | ask (name : String) (next : Option Value → Inquiry α)

abbrev Known := String → Option (Option Value)

def Known.Within (known more : Known) : Prop :=
  ∀ name answer, known name = some answer → more name = some answer

namespace Known.Within

theorem refl (known : Known) : known.Within known :=
  fun _ _ found => found

theorem trans {first second third : Known} (left : first.Within second)
    (right : second.Within third) : first.Within third :=
  fun name answer found => right name answer (left name answer found)

end Known.Within

namespace Inquiry

variable {α β : Type}

protected def bind (inquiry : Inquiry α) (following : α → Inquiry β) : Inquiry β :=
  match inquiry with
  | .done (.ok value) => following value
  | .done (.error error) => .done (.error error)
  | .ask name next => .ask name fun answer => (next answer).bind following

instance : Monad Inquiry where
  pure value := .done (.ok value)
  bind := Inquiry.bind

def lift (outcome : Except EvalError α) : Inquiry α :=
  .done (outcome.mapError .ofEval)

def read (name : String) : Inquiry Value :=
  .ask name fun found => pure (found.getD .null)

def follow (path : String) : Inquiry Value := do
  let first ← read (Text.firstPiece '.' path)
  lift (first.follow (Text.laterPieces '.' path))

def ofComparison (types : TypeTable) : Comparison → Inquiry Bool
  | .keyLiteral key operator literal => do
      let expected ← lift (literal.resolve types)
      let first ← read (Text.firstPiece '.' key)
      lift (Value.satisfiesAlong operator expected first (Text.laterPieces '.' key))
  | .keyKey leftKey operator rightKey => do
      let left ← follow leftKey
      let right ← follow rightKey
      lift (left.satisfies operator right)
  | .literalLiteral leftLiteral operator rightLiteral => do
      let left ← lift (leftLiteral.resolve types)
      let right ← lift (rightLiteral.resolve types)
      lift (left.satisfies operator right)

mutual

def ofCondition (types : TypeTable) : Condition → Inquiry Bool
  | .leaf comparison => ofComparison types comparison
  | .all terms => ofAll types terms
  | .any terms => ofAny types terms
  | .not inner => do
      let outcome ← ofCondition types inner
      pure !outcome

def ofAll (types : TypeTable) : List Condition → Inquiry Bool
  | [] => pure true
  | term :: terms => do
      if ← ofCondition types term then ofAll types terms else pure false

def ofAny (types : TypeTable) : List Condition → Inquiry Bool
  | [] => pure false
  | term :: terms => do
      if ← ofCondition types term then pure true else ofAny types terms

end

def ofCandidates (engine : Engine) (target : String) : Inquiry (List Rule) :=
  Resolution.firstMatching (fun rule => ofCondition engine.types rule.condition.condition)
    (engine.buckets target)

/-- What a program asks for in a context with these facts, when this interner is the one that it
shares conditions and makes values with. Its branches for failed requests are left out. -/
def ofProgram (engine : Engine) (facts : Facts) (interner : Interner) :
    Program α → Inquiry α
  | .done outcome => .done outcome
  | .get name next => .ask name fun answer => ofProgram engine facts interner (next (.ok answer))
  | .evaluate condition next => do
      let outcome ← ofCondition engine.types condition.condition
      ofProgram engine facts interner (next (.ok outcome))
  | .candidates target next => do
      let rules ← ofCandidates engine target
      ofProgram engine facts interner (next (.ok (rules.map Rule.toRuleHead)))
  | .facts next => ofProgram engine facts interner (next facts)
  | .clear next => ofProgram engine facts interner next
  | .share make next => ofProgram engine facts interner (next (make interner).1)
  | .create make next => ofProgram engine facts interner (next (make interner).1)

def ofFiring (engine : Engine) (facts : Facts) (interner : Interner) (rule : Rule) :
    Inquiry Value :=
  match rule.action with
  | none => pure rule.value
  | some action => ofProgram engine facts interner (action rule.toRuleHead)

def ofLookup (engine : Engine) (facts : Facts) (interner : Interner) (target : String) :
    Inquiry (Option Value) := do
  match ← ofCandidates engine target with
  | [] => pure none
  | rule :: _ =>
      let value ← ofFiring engine facts interner rule
      pure (if value.isNull then none else some value)

def perform (ask : Ask) : Inquiry α → Resolving α
  | .done outcome => fun context => (outcome, context)
  | .ask name next => fun context =>
      match ask name context with
      | (.ok answer, after) => perform ask (next answer) after
      | (.error error, after) => (.error error, after)

/-- The result under known answers, if they suffice and nothing fails. -/
def result? (known : Known) : Inquiry α → Option α
  | .done (.ok value) => some value
  | .done (.error _) => none
  | .ask name next =>
      match known name with
      | some answer => (next answer).result? known
      | none => none

theorem perform_bind (ask : Ask) (inquiry : Inquiry α) (following : α → Inquiry β)
    (context : Context) : perform ask (inquiry >>= following) context =
      match perform ask inquiry context with
      | (.ok value, after) => perform ask (following value) after
      | (.error error, after) => (.error error, after) := by
  induction inquiry generalizing context with
  | done outcome => cases outcome <;> rfl
  | ask name next ih =>
      change perform ask (.ask name fun answer => (next answer).bind following) context = _
      simp only [perform]
      obtain ⟨_ | answer, after⟩ := ask name context
      · rfl
      · exact ih answer after

theorem result?_of_within {known more : Known} (within : known.Within more) {inquiry : Inquiry α}
    {value : α} (found : inquiry.result? known = some value) :
    inquiry.result? more = some value := by
  induction inquiry with
  | done outcome => cases outcome <;> exact found
  | ask name next ih =>
      simp only [result?] at found ⊢
      cases answered : known name with
      | none => simp [answered] at found
      | some answer =>
          rw [within name answer answered]
          exact ih answer (by simpa [answered] using found)

@[simp] theorem result?_pure (known : Known) (value : α) :
    (pure value : Inquiry α).result? known = some value := rfl

theorem result?_bind (known : Known) (inquiry : Inquiry α) (following : α → Inquiry β) :
    (inquiry >>= following).result? known =
      (inquiry.result? known).bind fun value => (following value).result? known := by
  induction inquiry with
  | done outcome => cases outcome <;> rfl
  | ask name next ih =>
      change result? known (.ask name fun answer => (next answer).bind following) = _
      simp only [result?]
      cases known name with
      | none => rfl
      | some answer => exact ih answer

theorem subset_of_matching {holds : Rule → Inquiry Bool} {known : Known} {rules found : List Rule}
    (result : (Resolution.matching holds rules).result? known = some found) : found ⊆ rules := by
  induction rules generalizing found with
  | nil =>
      simp only [Resolution.matching, result?_pure, Option.some.injEq] at result
      simp [← result]
  | cons rule rules ih =>
      simp only [Resolution.matching, result?_bind, Option.bind_eq_some_iff] at result
      obtain ⟨matched, _, others, othersFound, result⟩ := result
      simp only [result?_pure, Option.some.injEq] at result
      have inside := ih othersFound
      rw [← result]
      cases matched
      · exact List.subset_cons_of_subset _ inside
      · exact List.cons_subset_cons _ inside

theorem mem_of_candidates {engine : Engine} {target : String} {known : Known} {found : List Rule}
    (result : (ofCandidates engine target).result? known = some found) :
    found ⊆ engine.rulesFor target := by
  simp only [ofCandidates, Engine.rulesFor] at result ⊢
  generalize engine.buckets target = buckets at result ⊢
  induction buckets with
  | nil =>
      simp only [Resolution.firstMatching, result?_pure, Option.some.injEq] at result
      simp [← result]
  | cons bucket buckets ih =>
      simp only [Resolution.firstMatching, result?_bind, Option.bind_eq_some_iff] at result
      obtain ⟨matched, inside, result⟩ := result
      cases matched with
      | nil => exact fun rule member => List.mem_append_right _ (ih result member)
      | cons rule rules =>
          simp only [result?_pure, Option.some.injEq] at result
          rw [← result]
          exact fun rule member => List.mem_append_left _ (subset_of_matching inside member)

end Inquiry

end FactRules
