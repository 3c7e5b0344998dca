import FactRules.Proofs.Refusals
import FactRules.Proofs.Repetition
import Mathlib.Data.List.Chain

/-!
Reported cycles. Where no rule has an action, a reported chain is cut out of the path on which each
attribute is read by a rule of the one before it, so that it is a cycle of the rules.
-/

namespace FactRules

open Inquiry Resolution

/-- A way from an attribute back to itself, by attributes that are not facts and that a rule of the
one before them reads. -/
structure Engine.Circle (engine : Engine) (facts : Facts) (chain : List String) : Prop where
  long : 2 ≤ chain.length
  closed : chain.head? = chain.getLast?
  distinct : chain.dropLast.Nodup
  missing : ∀ name ∈ chain, facts.find? name = none
  reads : chain.IsChain engine.Reads

theorem ResolvingStack.chainTo_eq {stack : ResolvingStack} {name : String}
    (member : name ∈ stack.names) :
    ∃ inside outside, stack.names = inside ++ name :: outside ∧
      stack.chainTo name = name :: inside.reverse ++ [name] := by
  obtain ⟨outer, inner, split, outermost⟩ := List.eq_append_cons_of_mem (List.mem_reverse.2 member)
  refine ⟨inner.reverse, outer.reverse, ?_, ?_⟩
  · rw [← List.reverse_reverse stack.names, split]
    simp
  · have dropped : ∀ other ∈ outer, decide (other ≠ name) = true := by
      intro other isOuter
      exact decide_eq_true fun same => outermost (same ▸ isOuter)
    rw [chainTo, split, List.dropWhile_append_of_pos dropped]
    simp

section

variable {engine : Engine} {facts : Facts}

theorem Engine.Refuses.circle {error : RuleError} {stack : ResolvingStack} {name : String}
    {chain : List String} (refuses : engine.Refuses facts error stack name)
    (reported : error = .cycle chain) (within : stack.Within engine.settings)
    (missing : ∀ other ∈ stack.names, facts.find? other = none)
    (path : (name :: stack.names).IsChain fun read target => engine.Reads target read) :
    engine.Circle facts chain := by
  induction refuses with
  | @here stack name _ refused =>
      subst reported
      obtain ⟨detects, again, rfl⟩ := ResolvingStack.enter_eq_cycle refused
      obtain ⟨inside, outside, split, chain_eq⟩ := ResolvingStack.chainTo_eq again
      have distinct := within.distinct detects
      rw [split] at missing path distinct
      rw [chain_eq]
      refine ⟨by simp, ?_, ?_, fun other member => missing other ?_, ?_⟩
      · rw [List.getLast?_concat]
        rfl
      · obtain ⟨fresh, distinct⟩ := List.nodup_cons.1 (List.nodup_middle.1 distinct)
        rw [List.dropLast_concat, List.nodup_cons, List.mem_reverse, List.nodup_reverse]
        exact ⟨fun member => fresh (List.mem_append_left _ member), distinct.of_append_left⟩
      · simp only [List.mem_append, List.mem_cons, List.mem_reverse] at member ⊢
        grind
      · have inwards : (name :: inside ++ [name]).IsChain fun read target =>
            engine.Reads target read := path.prefix ⟨outside, by simp⟩
        rw [← List.isChain_reverse]
        simpa using inwards
  | @inside stack entered name read unknown enters reads later ih =>
      have stillWithin := within.enter enters
      obtain rfl := ResolvingStack.enter_eq_ok enters
      have stillMissing : ∀ other ∈ name :: stack.names, facts.find? other = none :=
        List.forall_mem_cons.2 ⟨unknown, missing⟩
      exact ih stillWithin stillMissing
        (List.isChain_cons_cons.2 ⟨reads, path⟩)

end

/-- A reported cycle is one of the rules, and is reported again when the call is repeated. -/
theorem circle_of_cycle {engine : Engine} {kept : Interner → Prop} {context : Context}
    (simple : engine.Simple context.facts) (reachable : context.Reachable engine kept)
    (chain : List String) :
    (∀ name, (engine.get name context).1 = .error (.cycle chain) →
      engine.Circle context.facts chain ∧
        (engine.get name (engine.get name context).2).1 = .error (.cycle chain)) ∧
    ∀ condition, (engine.evaluate condition context).1 = .error (.cycle chain) →
      engine.Circle context.facts chain ∧
        (engine.evaluate condition (engine.evaluate condition context).2).1 =
          .error (.cycle chain) := by
  have repeatable := simple.passive.repeatable kept
  obtain ⟨interner, owned, settled⟩ := reachable.settled repeatable
  have idle := Context.Settled.agreeAt_idle engine
  have asks := asksShow_idle owned repeatable context.facts
  have circle {name : String} (refuses : engine.Refuses context.facts (.cycle chain) {} name) :
      engine.Circle context.facts chain :=
    refuses.circle rfl ⟨Nat.zero_le _, fun _ => .nil⟩ nofun (.singleton _)
  have notOwn {failure : EvalError} (own : failure.Own) :
      RuleError.ofEval failure ≠ .cycle chain := by
    rw [RuleError.ofEval_of_own own]
    exact nofun
  refine ⟨fun name failed => ⟨?_, ?_⟩, fun condition failed => ⟨?_, ?_⟩⟩
  · obtain ⟨failure, own, same⟩ | refuses := settled.failed_get owned simple failed
    · exact absurd same (notOwn own)
    · exact circle refuses
  · exact settled.fails_again (idle name) (.asked asks name) failed
  · have agree := agreeAt_evaluate idle engine.types condition
    have confined := Confined.condition Value.family_own engine.types condition.condition
      fun name (reads : condition.condition.Reads name) => reads
    obtain ⟨failure, own, same⟩ | ⟨name, _, refuses⟩ :=
      settled.failed simple agree (shows_evaluate asks condition) confined failed
    · exact absurd same (notOwn own)
    · exact circle refuses
  · exact settled.fails_again (agreeAt_evaluate idle engine.types condition)
      (shows_evaluate asks condition) failed

def circularRules : List Rule :=
  [{ condition := .leaf 0 (.keyLiteral "a" .equal (.integer 1)), target := "total",
     value := .int 1, priority := 0 },
   { condition := .leaf 1 (.keyLiteral "b.rate" .equal (.integer 1)), target := "a",
     value := .int 1, priority := 0 },
   { condition := .leaf 2 (.keyLiteral "a" .equal (.integer 1)), target := "b",
     value := .int 1, priority := 0 }]

def circularEngine : Engine :=
  (Engine.load {} circularRules).1

theorem circle_of_cycle_total :
    let context := Context.ofFacts [("c", .int 1)]
    let condition : SharedCondition := .leaf 3 (.keyLiteral "total" .equal (.integer 1))
    let chain := ["a", "b", "a"]
    (circularEngine.get "total" context).1 = .error (.cycle chain) ∧
      circularEngine.Circle context.facts chain ∧
      (circularEngine.evaluate condition (circularEngine.evaluate condition context).2).1 =
        .error (.cycle chain) := by
  intro context condition chain
  have simple : circularEngine.Simple context.facts := {
    passive := Engine.passive_of_load rfl (by simp [circularRules])
    facts := by
      intro name value found
      have entry : (name, value) ∈ [("c", Value.int 1)] := Table.mem_of_find? found
      obtain ⟨_, rfl⟩ := Prod.mk.inj (List.mem_singleton.1 entry)
      exact .int 1
    values := Engine.holds_of_load rfl (by simp [circularRules, Value.FailsOnly.int]) }
  have reachable : context.Reachable circularEngine fun _ => True := .fresh _ trivial
  obtain ⟨ofGet, ofEvaluate⟩ := circle_of_cycle simple reachable chain
  exact ⟨rfl, (ofGet "total" rfl).1, (ofEvaluate condition rfl).2⟩

end FactRules
