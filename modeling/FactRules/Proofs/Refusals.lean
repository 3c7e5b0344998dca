import FactRules.Proofs.Dependencies
import FactRules.Proofs.Moves
import FactRules.Proofs.PlainEvaluation
import Mathlib.Data.Finset.Card

/-!
Why a lookup is refused. Where no rule has an action, what is in progress is a path on which each
attribute is read by a rule of the one before it, and the refused attribute is the end of that path.
So no cycle is reported where the attributes can be ranked, and the depth that is allowed is never
exceeded where the ranks, or the number of names that there are, do not allow such a path.
-/

namespace FactRules

open Inquiry Resolution

/-- Asking for the attribute, while these are in progress, leads along a path of attributes that
rules read to one whose lookup is refused. -/
inductive Engine.Refuses (engine : Engine) (facts : Facts) (error : RuleError) :
    ResolvingStack → String → Prop
  | here {stack : ResolvingStack} {name : String} (missing : facts.find? name = none)
      (refused : stack.enter engine.settings name = .error error) :
      Refuses engine facts error stack name
  | inside {stack entered : ResolvingStack} {name read : String} (missing : facts.find? name = none)
      (enters : stack.enter engine.settings name = .ok entered) (reads : engine.Reads name read)
      (later : Refuses engine facts error entered read) : Refuses engine facts error stack name

/-- No rule has an action, and no object among the facts or the values of rules fails with the
failure of a lookup. -/
structure Engine.Simple (engine : Engine) (facts : Facts) : Prop where
  passive : engine.Passive
  facts : ∀ name value, facts.find? name = some value → value.FailsOnly EvalError.Own
  values : engine.Holds (Value.FailsOnly EvalError.Own)

section

variable {engine : Engine} {facts : Facts} {interner : Interner} {good : Value → Prop}
  {allowed : EvalError → Prop} {α : Type}

theorem failed_perform {ask : Ask} (remembers : Remembers engine facts interner ask)
    (holds : ∀ context, Coherent engine facts interner context → context.Holds good)
    {asks : String → Prop} {ends : α → Prop} {inquiry : Inquiry α}
    (confined : inquiry.Confined asks good allowed ends) {context : Context}
    (coherent : Coherent engine facts interner context) {error : RuleError}
    (failed : (perform ask inquiry context).1 = .error error) :
    (∃ failure, allowed failure ∧ .ofEval failure = error) ∨
      ∃ name middle, asks name ∧ Coherent engine facts interner middle ∧
        middle.resolving = context.resolving ∧ (ask name middle).1 = .error error := by
  induction inquiry generalizing context with
  | done outcome =>
      obtain rfl : outcome = .error error := failed
      exact .inl confined
  | ask name next ih =>
      obtain ⟨advances, known⟩ := remembers name context coherent
      cases asked : ask name context with
      | mk outcome after =>
          rw [asked] at advances known
          simp only [perform, asked] at failed
          cases outcome with
          | error other =>
              obtain rfl : other = error := Except.error.inj failed
              exact .inr ⟨name, context, confined.1, coherent, rfl, congrArg Prod.fst asked⟩
          | ok answer =>
              have held : ∀ value ∈ answer, good value := by
                rintro value rfl
                exact holds after advances.coherent name value (known _ rfl)
              obtain own | ⟨read, middle, reads, coherent, same, refused⟩ :=
                ih answer (confined.2 answer held) advances.coherent failed
              · exact .inl own
              · exact .inr
                  ⟨read, middle, reads, coherent, same.trans advances.resolving, refused⟩

theorem failed_answer {lookup : Ask} {name : String} {context : Context} {error : RuleError}
    (failed : (answer engine.settings lookup name context).1 = .error error) :
    context.facts.find? name = none ∧
      (context.resolving.enter engine.settings name = .error error ∨
        ∃ entered, context.resolving.enter engine.settings name = .ok entered ∧
          (lookup name (entering context entered)).1 = .error error) := by
  cases known : context.recall name with
  | some found =>
      rw [answer_of_recall known] at failed
      cases failed
  | none =>
      refine ⟨notFact_of_recall_none known, ?_⟩
      cases entered : context.resolving.enter engine.settings name with
      | error other =>
          rw [answer_of_refused known entered] at failed
          exact .inl (congrArg Except.error (Except.error.inj failed))
      | ok resolving =>
          rw [answer_of_entered known entered, finish_fst] at failed
          exact .inr ⟨resolving, rfl, failed⟩

theorem Engine.Simple.holds (simple : engine.Simple facts) (context : Context)
    (coherent : Coherent engine facts interner context) :
    context.Holds (Value.FailsOnly EvalError.Own) :=
  coherent.holds simple.passive simple.facts simple.values

theorem failed_askWithin (simple : engine.Simple facts) {remaining : Nat} {name : String}
    {context : Context} (coherent : Coherent engine facts interner context)
    (room : engine.settings.maxLookupDepth ≤ context.resolving.depth + remaining)
    {error : RuleError}
    (failed : (askWithin engine facts interner remaining name context).1 = .error error) :
    (∃ failure : EvalError, failure.Own ∧ .ofEval failure = error) ∨
      engine.Refuses facts error context.resolving name := by
  induction remaining generalizing name context with
  | zero =>
      obtain ⟨missing, refused | ⟨entered, enters, _⟩⟩ := failed_answer failed
      · exact .inr (.here ((coherent.sameFacts _).symm.trans missing) refused)
      · have below := ResolvingStack.depth_lt_of_enter enters
        omega
  | succ remaining ih =>
      obtain ⟨missing, refused | ⟨entered, enters, failed⟩⟩ := failed_answer failed
      · exact .inr (.here ((coherent.sameFacts _).symm.trans missing) refused)
      · have deeper : entered.depth = context.resolving.depth + 1 := by
          rw [ResolvingStack.enter_eq_ok enters]
          rfl
        have confined := Confined.lookup Value.family_own simple.passive facts interner
          (fun read (reads : engine.Reads name read) => reads)
        obtain own | ⟨read, middle, reads, middleCoherent, same, refused⟩ :=
          failed_perform (remembers_askWithin remaining) simple.holds confined
            (coherent_entering coherent entered) failed
        · exact .inl own
        · have deep : middle.resolving = entered := same
          obtain own | later := ih middleCoherent (by rw [deep]; omega) refused
          · exact .inl own
          · exact .inr (.inside ((coherent.sameFacts _).symm.trans missing) enters reads (deep ▸ later))

namespace Engine

theorem Passive.repeatable (passive : engine.Passive) (kept : Interner → Prop) :
    engine.Repeatable kept := by
  intro target rule member action chosen
  rw [passive target rule member] at chosen
  cases chosen

def readNames (engine : Engine) : List String :=
  engine.targets.flatMap fun target => (engine.rulesFor target).flatMap fun rule =>
    rule.condition.condition.keys.map (Text.firstPiece '.')

theorem mem_readNames {name : String} :
    name ∈ engine.readNames ↔ ∃ target, engine.Reads target name := by
  have known {target : String} {rule : Rule} (member : rule ∈ engine.rulesFor target) :
      target ∈ engine.targets := by
    cases found : engine.index.find? target with
    | none => simp [rulesFor, buckets, found] at member
    | some buckets => exact List.mem_map_of_mem (Table.mem_of_find? found)
  simp only [readNames, List.mem_flatMap, List.mem_map, Reads, Condition.Reads]
  constructor
  · rintro ⟨target, _, reads⟩
    exact ⟨target, reads⟩
  · rintro ⟨target, rule, member, reads⟩
    exact ⟨target, known member, rule, member, reads⟩

namespace Refuses

variable {error : RuleError} {stack : ResolvingStack} {name : String}

theorem exceeded_of_ranked (refuses : engine.Refuses facts error stack name) {rank : String → Nat}
    (ranked : ∀ target read, engine.Reads target read → rank read < rank target)
    (above : ∀ other ∈ stack.names, rank name < rank other) :
    ∃ limit target, error = .depthExceeded limit target ∧
      engine.settings.maxLookupDepth ≤ stack.depth + rank name := by
  induction refuses with
  | here missing refused =>
      obtain ⟨again, _⟩ | rfl := ResolvingStack.enter_eq_error refused
      · exact absurd (above _ again) (Nat.lt_irrefl _)
      · have full := (ResolvingStack.enter_eq_exceeded refused).1
        exact ⟨_, _, rfl, Nat.le_add_right_of_le full⟩
  | @inside stack entered name read missing enters reads later ih =>
      obtain rfl := ResolvingStack.enter_eq_ok enters
      have less := ranked name read reads
      obtain ⟨limit, target, exceeded, bound⟩ := ih (List.forall_mem_cons.2
        ⟨less, fun other member => less.trans (above other member)⟩)
      refine ⟨limit, target, exceeded, ?_⟩
      simp only [ResolvingStack.depth, List.length_cons] at bound ⊢
      omega

theorem exceeded_of_detected (refuses : engine.Refuses facts error stack name)
    (detects : engine.settings.detectCycles = true) {limit : Nat} {target : String}
    (exceeded : error = .depthExceeded limit target) {names : Finset String}
    (closed : ∀ target read, engine.Reads target read → read ∈ names)
    (inside : ∀ other ∈ name :: stack.names, other ∈ names) (distinct : stack.names.Nodup) :
    engine.settings.maxLookupDepth < names.card := by
  induction refuses with
  | @here stack name missing refused =>
      subst exceeded
      obtain ⟨full, fresh⟩ := ResolvingStack.enter_eq_exceeded refused
      have nodup : (name :: stack.names).Nodup := List.nodup_cons.2 ⟨fresh detects, distinct⟩
      have subset : (name :: stack.names).toFinset ⊆ names := fun other member =>
        inside other (List.mem_toFinset.1 member)
      have few := Finset.card_le_card subset
      rw [List.toFinset_card_of_nodup nodup, List.length_cons] at few
      exact Nat.lt_of_le_of_lt full few
  | @inside stack entered name read missing enters reads later ih =>
      have fresh := ResolvingStack.not_mem_of_enter detects enters
      obtain rfl := ResolvingStack.enter_eq_ok enters
      have stillInside := List.forall_mem_cons.2 ⟨closed name read reads, inside⟩
      exact ih stillInside (List.nodup_cons.2 ⟨fresh, distinct⟩)

end Refuses

end Engine

end

section

variable {engine : Engine} {interner : Interner} {kept : Interner → Prop} {context : Context}
  {error : RuleError}

theorem Context.Settled.failed (settled : context.Settled engine interner kept)
    (simple : engine.Simple context.facts) {α : Type} {work other : Resolving α}
    {inquiry : Inquiry α} {asks : String → Prop} {ends : α → Prop} (agree : AgreeAt {} work other)
    (showing : Shows engine context.facts interner kept engine.settings.maxLookupDepth other inquiry)
    (confined : inquiry.Confined asks (Value.FailsOnly EvalError.Own) EvalError.Own ends)
    (failed : (work context).1 = .error error) :
    (∃ failure : EvalError, failure.Own ∧ .ofEval failure = error) ∨
      ∃ name, asks name ∧ engine.Refuses context.facts error {} name := by
  rw [(agree context settled.idle).1, (showing context context settled.mirrors).1] at failed
  obtain own | ⟨name, middle, asked, coherent, same, failed⟩ :=
    failed_perform (remembers_askWithin _) simple.holds confined settled.mirrors.coherent failed
  · exact .inl own
  · have refused := failed_askWithin simple coherent (Nat.le_add_left _ _) failed
    rw [same, settled.idle] at refused
    exact refused.imp_right fun refuses => ⟨name, asked, refuses⟩

theorem Context.Settled.failed_get (settled : context.Settled engine interner kept)
    (owned : kept interner) (simple : engine.Simple context.facts) {name : String}
    (failed : (engine.get name context).1 = .error error) :
    (∃ failure : EvalError, failure.Own ∧ .ofEval failure = error) ∨
      engine.Refuses context.facts error {} name := by
  have asks := asksShow_idle owned (simple.passive.repeatable kept) context.facts
  have confined : (Inquiry.ask name fun answer => .done (.ok answer)).Confined (· = name)
      (Value.FailsOnly EvalError.Own) EvalError.Own fun _ => True := ⟨rfl, fun _ _ => trivial⟩
  obtain own | ⟨_, rfl, refuses⟩ := settled.failed simple (Settled.agreeAt_idle engine name)
    (.asked asks name) confined failed
  · exact .inl own
  · exact .inr refuses

end

/-- Lookups are refused only where they have to be. Where attributes are ranked above those that
their rules read there is no cycle, and lookups nest no deeper than the rank; where cycles are
detected they nest no deeper than there are names. -/
theorem get_within_limits {engine : Engine} {kept : Interner → Prop} {context : Context}
    (simple : engine.Simple context.facts) (reachable : context.Reachable engine kept)
    (name : String) :
    (∀ rank : String → Nat, (∀ target read, engine.Reads target read → rank read < rank target) →
      (∀ chain, (engine.get name context).1 ≠ .error (.cycle chain)) ∧
        (rank name < engine.settings.maxLookupDepth →
          ∀ limit target, (engine.get name context).1 ≠ .error (.depthExceeded limit target))) ∧
    (engine.settings.detectCycles = true →
      (name :: engine.readNames).toFinset.card ≤ engine.settings.maxLookupDepth →
        ∀ limit target, (engine.get name context).1 ≠ .error (.depthExceeded limit target)) := by
  have refused {error : RuleError} (failed : (engine.get name context).1 = .error error)
      (notOwn : ∀ failure, error ≠ .eval failure) : engine.Refuses context.facts error {} name := by
    obtain ⟨interner, owned, settled⟩ := reachable.settled (simple.passive.repeatable kept)
    obtain ⟨failure, own, same⟩ | refuses := settled.failed_get owned simple failed
    · rw [RuleError.ofEval_of_own own] at same
      exact absurd same.symm (notOwn failure)
    · exact refuses
  refine ⟨fun rank ranked => ⟨fun chain failed => ?_, fun less limit target failed => ?_⟩,
    fun detects few limit target failed => ?_⟩
  · obtain ⟨limit, target, exceeded, _⟩ := (refused failed nofun).exceeded_of_ranked ranked nofun
    cases exceeded
  · obtain ⟨_, _, _, bound⟩ := (refused failed nofun).exceeded_of_ranked ranked nofun
    simp only [ResolvingStack.depth, List.length_nil] at bound
    omega
  · have closed (target read : String) (reads : engine.Reads target read) :
        read ∈ (name :: engine.readNames).toFinset :=
      List.mem_toFinset.2 (List.mem_cons_of_mem _ (Engine.mem_readNames.2 ⟨target, reads⟩))
    have first : ∀ other ∈ [name], other ∈ (name :: engine.readNames).toFinset := by simp
    have many := (refused failed nofun).exceeded_of_detected detects rfl closed first .nil
    omega

def totalRules : List Rule :=
  [{ condition := .leaf 0 (.literalLiteral (.bool true) .equal (.bool true)), target := "price",
     value := .int 3, priority := 0 },
   { condition := .leaf 1 (.keyLiteral "price" .equal (.integer 3)), target := "net",
     value := .int 5, priority := 0 },
   { condition := .leaf 2 (.keyLiteral "net" .equal (.integer 5)), target := "total",
     value := .int 7, priority := 0 }]

def totalEngine : Engine :=
  (Engine.load { settings := { maxLookupDepth := 3 } } totalRules).1

theorem passive_totalEngine : totalEngine.Passive :=
  Engine.passive_of_load rfl (by simp [totalRules])

theorem reads_totalEngine {target name : String} (reads : totalEngine.Reads target name) :
    (target = "net" ∧ name = "price") ∨ (target = "total" ∧ name = "net") := by
  obtain ⟨rule, loaded, rfl, key, member, rfl⟩ := Engine.reads_of_load rfl reads
  simp only [totalRules, List.mem_cons, List.not_mem_nil, or_false] at loaded
  rcases loaded with rfl | rfl | rfl
  · cases member
  · obtain rfl := List.mem_singleton.1 member
    exact .inl ⟨rfl, rfl⟩
  · obtain rfl := List.mem_singleton.1 member
    exact .inr ⟨rfl, rfl⟩

theorem get_within_limits_of_total :
    let context := Context.ofFacts []
    (totalEngine.get "total" context).1 = .ok (some (.int 7)) ∧
      (∀ chain, (totalEngine.get "total" context).1 ≠ .error (.cycle chain)) ∧
      (∀ limit target,
        (totalEngine.get "total" context).1 ≠ .error (.depthExceeded limit target)) ∧
      ∀ limit target,
        (totalEngine.get "price" context).1 ≠ .error (.depthExceeded limit target) := by
  intro context
  have reachable : context.Reachable totalEngine fun _ => True := .fresh _ trivial
  have simple : totalEngine.Simple context.facts := {
    passive := passive_totalEngine
    facts := nofun
    values := Engine.holds_of_load rfl (by simp [totalRules, Value.FailsOnly.int]) }
  have within := get_within_limits simple reachable
  let rank (name : String) : Nat := if name = "total" then 2 else if name = "net" then 1 else 0
  have ranked (target read : String) (reads : totalEngine.Reads target read) :
      rank read < rank target := by
    obtain ⟨rfl, rfl⟩ | ⟨rfl, rfl⟩ := reads_totalEngine reads <;> decide
  obtain ⟨acyclic, shallow⟩ := (within "total").1 rank ranked
  exact ⟨rfl, acyclic, shallow (by decide), (within "price").2 rfl (by decide)⟩

end FactRules
