import FactRules.Proofs.Dependencies
import FactRules.Proofs.Inquiry.Verdicts

/-!
Whatever a context has been used for, it answers as a new one with its facts, as long as actions are
repeatable and make nothing of the order in which facts are listed. What it remembers can only spare
it lookups, so that it also answers where a new context would nest them too deeply.
-/

namespace FactRules

open Resolution Inquiry

/-- A use of a context from outside. Conditions may be made meanwhile. -/
inductive Step where
  | get (name : String)
  | evaluate (condition : SharedCondition)
  | candidates (target : String)
  | lookup (target : String)
  | set (name : String) (value : Value) (arrangement : Arrangement := .unchanged)
  | clear
  | share (interner : Interner)

namespace Step

def after (engine : Engine) : Step → Context → Context
  | .get name, context => (engine.get name context).2
  | .evaluate condition, context => (engine.evaluate condition context).2
  | .candidates target, context => (engine.candidates target context).2
  | .lookup target, context => (engine.lookup target context).2
  | .set name value arrangement, context => context.set name value arrangement
  | .clear, context => context.clear
  | .share interner, context => { context with interner }

def Keeps (kept : Interner → Prop) : Step → Prop
  | .share interner => kept interner
  | _ => True

end Step

def Engine.history (engine : Engine) (steps : List Step) (context : Context) : Context :=
  steps.foldl (fun context step => step.after engine context) context

/-- A context between its uses: what it remembers is right, and nothing is in progress. -/
structure Context.Settled (engine : Engine) (interner : Interner) (kept : Interner → Prop)
    (context : Context) : Prop where
  mirrors : Mirrors engine context.facts interner kept context context
  idle : context.resolving = {}

namespace Context.Settled

variable {engine : Engine} {interner : Interner} {kept : Interner → Prop} {context : Context}

theorem of_forgotten (interned : kept context.interner) (idle : context.resolving = {})
    (noAnswers : context.answers = []) (noVerdicts : context.verdicts = []) :
    context.Settled engine interner kept where
  idle := idle
  mirrors := {
    coherent := coherent_of_forgotten (fun _ => rfl) noAnswers
    sameFacts := rfl
    sameAnswers := rfl
    sameStack := rfl
    kept := interned
    verdicts := fun condition verdict known => by simp [Context.verdict?, noVerdicts] at known }

theorem of_shows (settled : context.Settled engine interner kept) {remaining : Nat} {α : Type}
    {work : Resolving α} {inquiry : Inquiry α}
    (showing : Shows engine context.facts interner kept remaining work inquiry) :
    (work context).2.Settled engine interner kept := by
  obtain ⟨_, mirrors⟩ := showing context context settled.mirrors
  have advances := ((remembers_askWithin remaining).perform inquiry settled.mirrors.coherent).1
  constructor
  · rw [mirrors.sameFacts]
    exact mirrors.itself
  · rw [mirrors.sameStack, advances.resolving]
    exact settled.idle

theorem agreeAt_idle (engine : Engine) :
    AsksAgreeAt {} engine.get (within engine engine.settings.maxLookupDepth) :=
  fun name => agreeAt_get engine name (by omega)

theorem after (settled : context.Settled engine interner kept) (owned : kept interner)
    (repeatable : engine.Repeatable kept) {step : Step} (keeps : step.Keeps kept) :
    (step.after engine context).Settled engine interner kept := by
  have asks : AsksShow engine context.facts interner kept engine.settings.maxLookupDepth
      (within engine engine.settings.maxLookupDepth) := asksShow_within owned repeatable _
  cases step with
  | get name =>
      have same := (agreeAt_idle engine name context settled.idle).1
      simp only [Step.after, same]
      exact settled.of_shows (.asked asks name)
  | evaluate condition =>
      have same := (agreeAt_evaluate (agreeAt_idle engine) engine.types condition context
        settled.idle).1
      simp only [Step.after, Engine.evaluate, same]
      exact settled.of_shows (shows_evaluate asks condition)
  | candidates target =>
      have same := (agreeAt_candidates (agreeAt_idle engine) engine target context
        settled.idle).1
      simp only [Step.after, Engine.candidates, same]
      exact settled.of_shows (shows_candidates asks target)
  | lookup target =>
      have same := (agreeAt_lookup (agreeAt_idle engine) engine target context settled.idle).1
      simp only [Step.after, Engine.lookup, same]
      exact settled.of_shows (shows_lookup asks owned repeatable target)
  | set name value => exact of_forgotten settled.mirrors.kept settled.idle rfl rfl
  | clear => exact of_forgotten settled.mirrors.kept settled.idle rfl rfl
  | share interner =>
      exact { settled with mirrors := (settled.mirrors.share keeps).itself }

theorem history (settled : context.Settled engine interner kept) (owned : kept interner)
    (repeatable : engine.Repeatable kept) {steps : List Step}
    (keeps : ∀ step ∈ steps, step.Keeps kept) :
    (engine.history steps context).Settled engine interner kept := by
  induction steps generalizing context with
  | nil => exact settled
  | cons step steps ih =>
      refine ih (settled.after owned repeatable (keeps step List.mem_cons_self)) ?_
      exact fun later member => keeps later (List.mem_cons_of_mem _ member)

theorem get_eq (settled : context.Settled engine interner kept) (owned : kept interner)
    (repeatable : engine.Repeatable kept) (name : String) :
    (engine.get name context).1 =
      (askWithin engine context.facts interner engine.settings.maxLookupDepth name context).1 := by
  rw [(agreeAt_idle engine name context settled.idle).1]
  exact (asksShow_within owned repeatable _ name context context settled.mirrors).1

theorem fresh {given : Interner} (interned : kept given) (facts : Facts) :
    (Context.fresh facts given).Settled engine interner kept :=
  of_forgotten interned rfl rfl rfl

end Context.Settled

namespace Inquiry

variable {engine : Engine} {kept : Interner → Prop} {facts others : Facts}

theorem ofProgram_eq {α : Type} {program again : Program α}
    (alike : Program.Alike kept Facts.SameAs program again) (same : facts.SameAs others)
    {interner other : Interner} (owned : kept interner) (otherOwned : kept other) :
    ofProgram engine facts interner program = ofProgram engine others other again := by
  induction alike with
  | done outcome => rfl
  | get name _ _ _ ih => exact congrArg (Inquiry.ask name) (funext ih)
  | evaluate equals _ _ _ ih => simp only [ofProgram, equals, ih]
  | candidates target _ _ _ ih => simp only [ofProgram, ih]
  | facts _ ih => exact ih facts others same
  | share _ _ _ ih => exact ih interner other owned otherOwned
  | create _ _ _ ih => exact ih interner other owned otherOwned

theorem ofLookup_eq_of_orderless (orderless : engine.Orderless kept) (same : facts.SameAs others)
    {interner other : Interner} (owned : kept interner) (otherOwned : kept other) (target : String) :
    ofLookup engine facts interner target = ofLookup engine others other target := by
  apply candidates_bind_congr
  intro found inside
  cases found with
  | nil => rfl
  | cons rule rules =>
      have firing : ofFiring engine facts interner rule = ofFiring engine others other rule := by
        unfold ofFiring
        cases chosen : rule.action with
        | none => rfl
        | some action =>
            have member := inside List.mem_cons_self
            exact ofProgram_eq (orderless target rule member action chosen) same owned otherOwned
      simp only [firing]

end Inquiry

/-- A used context gives the answers of a new one, whose facts may be listed in another order. The
other way round, the new one answers likewise or nests lookups too deeply. -/
theorem get_after_history (engine : Engine) (kept : Interner → Prop)
    (orderless : engine.Orderless kept) (facts : Facts) (interner other : Interner)
    (interned : kept interner) (otherInterned : kept other) (steps : List Step)
    (keeps : ∀ step ∈ steps, step.Keeps kept) (name : String) :
    let used := engine.history steps (.fresh facts interner)
    ∀ listed : Facts, listed.SameAs used.facts →
      let fresh := Context.fresh listed other
      (∀ answer, (engine.get name fresh).1 = .ok answer → (engine.get name used).1 = .ok answer) ∧
        ∀ answer, (engine.get name used).1 = .ok answer →
          (engine.get name fresh).1 = .ok answer ∨
            ∃ target, (engine.get name fresh).1 =
              .error (.depthExceeded engine.settings.maxLookupDepth target) := by
  intro used listed relisted fresh
  have same : fresh.facts.SameAs used.facts := relisted
  have repeatable := orderless.repeatable
  have settled : used.Settled engine interner kept :=
    (Context.Settled.fresh interned facts).history interned repeatable keeps
  have freshSettled : fresh.Settled engine other kept := .fresh otherInterned listed
  have usedCoherent := settled.mirrors.coherent
  have sameFact (known : String) : fresh.facts.find? known = used.facts.find? known :=
    Facts.find?_eq_of_sameAs same known
  have freshCoherent : Coherent engine used.facts interner fresh :=
    coherent_of_forgotten sameFact rfl
  have usedGet := settled.get_eq interned repeatable name
  have freshGet := freshSettled.get_eq otherInterned repeatable name
  rw [askWithin_congr (ofLookup_eq_of_orderless orderless same otherInterned interned)] at freshGet
  have within : fresh.recall.Within used.recall := by
    intro known answer found
    cases fact : used.facts.find? known with
    | some value =>
        rwa [recall_of_fact ((sameFact known).trans fact), ← recall_of_fact fact] at found
    | none =>
        rw [recall_of_notFact ((sameFact known).trans fact)] at found
        cases found
  refine ⟨fun answer succeeded => ?_, fun answer succeeded => ?_⟩
  · rw [freshGet] at succeeded
    rw [usedGet]
    exact (follows_askWithin _ freshCoherent usedCoherent within
      (settled.idle.trans freshSettled.idle.symm) succeeded).1
  · rw [usedGet] at succeeded
    rw [freshGet]
    obtain ⟨advances, known⟩ := remembers_askWithin engine.settings.maxLookupDepth name used
      usedCoherent
    obtain ⟨rounds, grounded⟩ := advances.coherent.grounded
    have answered := grounded name answer (known answer succeeded)
    refine reaches_askWithin rounds _ freshCoherent answered ?_
    intro resolved inProgress
    rw [freshSettled.idle] at inProgress
    cases inProgress

def taxRules : List Rule :=
  let condition : SharedCondition := .leaf 0 (.literalLiteral (.bool true) .equal (.bool true))
  [{ condition, target := "tax", value := .int 7, priority := 0 },
   { condition, target := "total", value := .null, priority := 0,
     action := some (Script.action (.get "tax")) }]

def taxEngine : Engine :=
  (Engine.load { settings := { maxLookupDepth := 1 } } taxRules).1

theorem orderless_taxEngine (kept : Interner → Prop) : taxEngine.Orderless kept := by
  intro target rule member action chosen
  have indexes : taxEngine.Indexes ([] ++ taxRules) :=
    (Engine.Indexes.of_empty rfl).load taxRules
  have loaded : rule ∈ taxRules := (indexes.mem_rulesFor.1 member).1
  simp only [taxRules, List.mem_cons, List.not_mem_nil, or_false] at loaded
  rcases loaded with rfl | rfl
  · cases chosen
  · cases chosen
    exact Script.orderless_program _ (.get "tax") trivial

theorem get_after_history_of_total :
    let steps := [.get "total", .get "tax", .set "price" (.int 3), .get "tax"]
    let used := taxEngine.history steps (.ofFacts [("region", .string "north")])
    let fresh := Context.fresh ⟨[("region", .string "north"), ("price", .int 3)], by decide⟩
    fresh.facts.SameAs used.facts ∧ fresh.facts.entries ≠ used.facts.entries ∧
      (taxEngine.get "tax" used).1 = .ok (some (.int 7)) ∧
      ((taxEngine.get "total" fresh).1 = .ok (some (.int 7)) ∨
        ∃ target, (taxEngine.get "total" fresh).1 = .error (.depthExceeded 1 target)) := by
  intro steps used fresh
  have listed : used.facts.entries = [("price", .int 3), ("region", .string "north")] := rfl
  have same : fresh.facts.SameAs used.facts := by
    rw [Facts.SameAs, listed]
    exact .swap _ _ []
  have differs : fresh.facts.entries ≠ used.facts.entries := by
    intro equal
    have names : ["region", "price"] = ["price", "region"] := congrArg Table.names equal
    exact absurd names (by decide)
  have transparent (name : String) := get_after_history taxEngine (fun _ => True)
    (orderless_taxEngine _) (.ofList [("region", .string "north")]) {} {} trivial trivial steps
    (by simp [steps, Step.Keeps]) name fresh.facts same
  exact ⟨same, differs, (transparent "tax").1 _ rfl, (transparent "total").2 _ rfl⟩

end FactRules
