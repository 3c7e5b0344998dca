import FactRules.Proofs.Failures
import FactRules.Proofs.Inquiry.Memory
import FactRules.Proofs.Loading

/-!
Which attributes the rules of an attribute read. Their conditions ask for nothing but the first
names of their key paths, and fail only in ways in which the values fail that they are answered
with. Where no rule has an action that is all that is asked for on the way to an answer, and the
answer is the value of a rule.
-/

namespace FactRules

namespace Condition

def Reads (condition : Condition) (name : String) : Prop :=
  ∃ key ∈ condition.keys, Text.firstPiece '.' key = name

theorem mem_keys {condition : Condition} {key : String} :
    key ∈ condition.keys ↔ ∃ node ∈ condition.walk, key ∈ node.ownKeys := by
  rw [keys, Table.mem_names_ofList]
  simp

theorem Reads.of_walk {inner outer : Condition} {name : String} (reads : inner.Reads name)
    (subset : inner.walk ⊆ outer.walk) : outer.Reads name := by
  obtain ⟨key, isKey, first⟩ := reads
  obtain ⟨node, member, own⟩ := mem_keys.1 isKey
  exact ⟨key, mem_keys.2 ⟨node, subset member, own⟩, first⟩

theorem reads_leaf {comparison : Comparison} {key : String} (member : key ∈ comparison.keys) :
    (Condition.leaf comparison).Reads (Text.firstPiece '.' key) :=
  ⟨key, mem_keys.2 ⟨_, List.mem_singleton_self _, member⟩, rfl⟩

theorem walk_subset_walkTerms {terms : List Condition} {term : Condition} (member : term ∈ terms) :
    term.walk ⊆ walkTerms terms := by
  induction terms with
  | nil => cases member
  | cons first terms ih =>
      rw [walkTerms]
      rcases List.mem_cons.1 member with rfl | later
      · exact List.subset_append_left _ _
      · exact List.Subset.trans (ih later) (List.subset_append_right _ _)

theorem reads_all {terms : List Condition} {term : Condition} (member : term ∈ terms)
    {name : String} (reads : term.Reads name) : (Condition.all terms).Reads name :=
  reads.of_walk (List.Subset.trans (walk_subset_walkTerms member) (List.subset_append_left _ _))

theorem reads_any {terms : List Condition} {term : Condition} (member : term ∈ terms)
    {name : String} (reads : term.Reads name) : (Condition.any terms).Reads name :=
  reads.of_walk (List.Subset.trans (walk_subset_walkTerms member) (List.subset_append_left _ _))

theorem reads_not {inner : Condition} {name : String} (reads : inner.Reads name) :
    (Condition.not inner).Reads name :=
  reads.of_walk (List.subset_append_left _ _)

end Condition

namespace Engine

def Reads (engine : Engine) (target name : String) : Prop :=
  ∃ rule ∈ engine.rulesFor target, rule.condition.condition.Reads name

def Passive (engine : Engine) : Prop :=
  ∀ target, ∀ rule ∈ engine.rulesFor target, rule.action = none

def Holds (engine : Engine) (good : Value → Prop) : Prop :=
  ∀ target, ∀ rule ∈ engine.rulesFor target, good rule.value

section

variable {engine : Engine} {rules : List Rule}

theorem reads_of_load (empty : engine.index = []) {target name : String}
    (reads : (engine.load rules).1.Reads target name) :
    ∃ rule ∈ rules, rule.target = target ∧ rule.condition.condition.Reads name := by
  obtain ⟨rule, member, reads⟩ := reads
  have indexes := (Indexes.of_empty empty).load rules
  obtain ⟨loaded, same⟩ := indexes.mem_rulesFor.1 member
  exact ⟨rule, loaded, same, reads⟩

theorem passive_of_load (empty : engine.index = [])
    (noAction : ∀ rule ∈ rules, rule.action = none) : (engine.load rules).1.Passive :=
  fun _ rule member => noAction rule (mem_of_load empty member)

theorem holds_of_load (empty : engine.index = []) {good : Value → Prop}
    (held : ∀ rule ∈ rules, good rule.value) : (engine.load rules).1.Holds good :=
  fun _ rule member => held rule (mem_of_load empty member)

end

end Engine

def Context.Holds (context : Context) (good : Value → Prop) : Prop :=
  ∀ name value, context.recall name = some (some value) → good value

namespace Inquiry

variable {asks : String → Prop} {good : Value → Prop} {allowed : EvalError → Prop} {α β : Type}
  {ends : α → Prop}

/-- Whenever it is answered with such values, the inquiry asks for such attributes only, fails in
such ways only and ends with such results only. -/
def Confined (asks : String → Prop) (good : Value → Prop) (allowed : EvalError → Prop)
    (ends : α → Prop) : Inquiry α → Prop
  | .done (.ok value) => ends value
  | .done (.error error) => ∃ failure, allowed failure ∧ .ofEval failure = error
  | .ask name next => asks name ∧
      ∀ answer : Option Value, (∀ value ∈ answer, good value) →
        (next answer).Confined asks good allowed ends

namespace Confined

theorem mono {ends' : α → Prop} {inquiry : Inquiry α}
    (confined : inquiry.Confined asks good allowed ends)
    (weaker : ∀ value, ends value → ends' value) :
    inquiry.Confined asks good allowed ends' := by
  induction inquiry with
  | done outcome =>
      cases outcome with
      | ok value => exact weaker value confined
      | error error => exact confined
  | ask name next ih =>
      exact ⟨confined.1, fun answer held => ih answer (confined.2 answer held)⟩

theorem bind {inquiry : Inquiry α} {following : α → Inquiry β} {ends' : β → Prop}
    (first : inquiry.Confined asks good allowed ends)
    (later : ∀ value, ends value → (following value).Confined asks good allowed ends') :
    (inquiry >>= following).Confined asks good allowed ends' := by
  induction inquiry with
  | done outcome =>
      cases outcome with
      | ok value => exact later value first
      | error error => exact first
  | ask name next ih => exact ⟨first.1, fun answer held => ih answer (first.2 answer held)⟩

theorem lift {outcome : Except EvalError α}
    (fits : ∀ value, outcome = .ok value → ends value)
    (failures : ∀ error, outcome = .error error → allowed error) :
    (Inquiry.lift outcome).Confined asks good allowed ends := by
  cases outcome with
  | ok value => exact fits value rfl
  | error error => exact ⟨error, failures error rfl, rfl⟩

theorem read (family : Value.Family good allowed) {name : String} (asked : asks name) :
    (Inquiry.read name).Confined asks good allowed good := by
  refine ⟨asked, fun answer held => ?_⟩
  cases answer with
  | none => exact family.null
  | some value => exact held value rfl

theorem follow (family : Value.Family good allowed) {path : String}
    (asked : asks (Text.firstPiece '.' path)) :
    (Inquiry.follow path).Confined asks good allowed fun _ => True :=
  (read family asked).bind fun _ held =>
    lift (fun _ _ => trivial) fun _ failed => family.failed_follow held failed

theorem comparison (family : Value.Family good allowed) (types : TypeTable)
    (comparison : Comparison)
    (asked : ∀ key ∈ comparison.keys, asks (Text.firstPiece '.' key)) :
    (ofComparison types comparison).Confined asks good allowed fun _ => True := by
  have resolved (literal : Literal) :
      (Inquiry.lift (literal.resolve types)).Confined asks good allowed fun _ => True :=
    lift (fun _ _ => trivial) fun _ failed => family.own _ (Literal.own_of_resolve failed)
  have compared (left : Value) (operator : Operator) (right : Value) :
      (Inquiry.lift (left.satisfies operator right)).Confined asks good allowed fun _ => True :=
    lift (fun _ _ => trivial) fun _ failed => family.own _ (Value.own_of_satisfies failed)
  cases comparison with
  | keyLiteral key operator literal =>
      refine (resolved literal).bind fun expected _ => ?_
      refine (read family (asked key List.mem_cons_self)).bind fun first held => ?_
      exact lift (fun _ _ => trivial) fun _ failed => family.failed_along held failed
  | keyKey left operator right =>
      refine (follow family (asked left List.mem_cons_self)).bind fun _ _ => ?_
      refine (follow family (asked right (List.mem_cons_of_mem _ List.mem_cons_self))).bind
        fun _ _ => ?_
      exact compared _ _ _
  | literalLiteral left operator right =>
      exact (resolved left).bind fun _ _ => (resolved right).bind fun _ _ => compared _ _ _

mutual

theorem condition (family : Value.Family good allowed) (types : TypeTable) :
    (condition : Condition) →
    (∀ name, condition.Reads name → asks name) →
    (ofCondition types condition).Confined asks good allowed fun _ => True
  | .leaf own, asked =>
      comparison family types own fun _ member => asked _ (Condition.reads_leaf member)
  | .all terms, asked =>
      allTerms family types terms fun _ member name reads =>
        asked name (Condition.reads_all member reads)
  | .any terms, asked =>
      anyTerms family types terms fun _ member name reads =>
        asked name (Condition.reads_any member reads)
  | .not inner, asked =>
      (condition family types inner fun name reads => asked name (Condition.reads_not reads)).bind
        fun _ _ => trivial

theorem allTerms (family : Value.Family good allowed) (types : TypeTable) :
    (terms : List Condition) →
    (∀ term ∈ terms, ∀ name, term.Reads name → asks name) →
    (ofAll types terms).Confined asks good allowed fun _ => True
  | [], _ => trivial
  | term :: terms, asked => by
      refine (condition family types term (List.forall_mem_cons.1 asked).1).bind fun verdict _ => ?_
      cases verdict with
      | false => exact trivial
      | true => exact allTerms family types terms (List.forall_mem_cons.1 asked).2

theorem anyTerms (family : Value.Family good allowed) (types : TypeTable) :
    (terms : List Condition) →
    (∀ term ∈ terms, ∀ name, term.Reads name → asks name) →
    (ofAny types terms).Confined asks good allowed fun _ => True
  | [], _ => trivial
  | term :: terms, asked => by
      refine (condition family types term (List.forall_mem_cons.1 asked).1).bind fun verdict _ => ?_
      cases verdict with
      | false => exact anyTerms family types terms (List.forall_mem_cons.1 asked).2
      | true => exact trivial

end

theorem matching (family : Value.Family good allowed) (types : TypeTable) {rules : List Rule}
    (asked : ∀ rule ∈ rules, ∀ name, rule.condition.condition.Reads name → asks name) :
    (Resolution.matching (fun rule => ofCondition types rule.condition.condition) rules).Confined
      asks good allowed (· ⊆ rules) := by
  induction rules with
  | nil => exact List.Subset.refl []
  | cons rule rules ih =>
      refine (condition family types _ (asked rule List.mem_cons_self)).bind fun matched _ => ?_
      refine (ih fun other member => asked other (List.mem_cons_of_mem _ member)).bind
        fun others inside => ?_
      cases matched with
      | false => exact List.subset_cons_of_subset _ inside
      | true => exact List.cons_subset_cons _ inside

theorem candidates (family : Value.Family good allowed) (engine : Engine) {target : String}
    (asked : ∀ name, engine.Reads target name → asks name) :
    (ofCandidates engine target).Confined asks good allowed (· ⊆ engine.rulesFor target) := by
  have ruled : ∀ rule ∈ engine.rulesFor target, ∀ name,
      rule.condition.condition.Reads name → asks name :=
    fun rule member name reads => asked name ⟨rule, member, reads⟩
  simp only [ofCandidates, Engine.rulesFor] at ruled ⊢
  generalize engine.buckets target = buckets at ruled ⊢
  induction buckets with
  | nil => exact List.Subset.refl []
  | cons bucket buckets ih =>
      rw [List.flatMap_cons, List.forall_mem_append] at ruled
      refine (matching family engine.types ruled.1).bind fun found inside => ?_
      cases found with
      | nil => exact (ih ruled.2).mono fun _ later =>
          List.Subset.trans later (List.subset_append_right _ _)
      | cons rule rules => exact List.Subset.trans inside (List.subset_append_left _ _)

theorem lookup (family : Value.Family good allowed) {engine : Engine} (passive : engine.Passive)
    (facts : Facts) (interner : Interner) {target : String}
    (asked : ∀ name, engine.Reads target name → asks name) :
    (ofLookup engine facts interner target).Confined asks good allowed
      fun answer => ∀ value ∈ answer, ∃ rule ∈ engine.rulesFor target, rule.value = value := by
  refine (candidates family engine asked).bind fun found inside => ?_
  cases found with
  | nil => exact nofun
  | cons rule rules =>
      have member := inside List.mem_cons_self
      simp only [ofFiring, passive target rule member]
      intro value given
      refine ⟨rule, member, ?_⟩
      split at given
      · cases given
      · exact Option.some.inj given

theorem bind_congr {inquiry : Inquiry α}
    (confined : inquiry.Confined asks (fun _ => True) allowed ends) {next other : α → Inquiry β}
    (same : ∀ value, ends value → next value = other value) :
    inquiry >>= next = inquiry >>= other := by
  induction inquiry with
  | done outcome =>
      cases outcome with
      | ok value => exact same value confined
      | error error => rfl
  | ask name further ih =>
      apply congrArg (Inquiry.ask name)
      funext answer
      exact ih answer (confined.2 answer fun _ _ => trivial)

theorem ends_of_result {inquiry : Inquiry α} (confined : inquiry.Confined asks good allowed ends)
    {known : Known} (held : ∀ name value, known name = some (some value) → good value) {value : α}
    (result : inquiry.result? known = some value) : ends value := by
  induction inquiry with
  | done outcome =>
      cases outcome with
      | ok other =>
          cases result
          exact confined
      | error error => cases result
  | ask name next ih =>
      simp only [result?] at result
      cases answered : known name with
      | none => simp [answered] at result
      | some answer =>
          rw [answered] at result
          refine ih answer (confined.2 answer ?_) result
          rintro other rfl
          exact held name other answered

end Confined

theorem candidates_bind_congr {engine : Engine} {target : String} {next other : List Rule → Inquiry β}
    (same : ∀ found, found ⊆ engine.rulesFor target → next found = other found) :
    ofCandidates engine target >>= next = ofCandidates engine target >>= other := by
  have confined : (ofCandidates engine target).Confined (fun _ => True) (fun _ => True)
      (fun _ => True) (· ⊆ engine.rulesFor target) :=
    .candidates .always engine fun _ _ => trivial
  exact confined.bind_congr same

theorem Coherent.holds {engine : Engine} {facts : Facts} {interner : Interner}
    {context : Context} (coherent : Coherent engine facts interner context)
    (passive : engine.Passive)
    (factsHeld : ∀ name value, facts.find? name = some value → good value)
    (rulesHeld : engine.Holds good) : context.Holds good := by
  intro name value known
  cases fact : context.facts.find? name with
  | some found =>
      rw [recall_of_fact fact] at known
      cases known
      rw [coherent.sameFacts] at fact
      exact factsHeld name value fact
  | none =>
      rw [recall_of_notFact fact] at known
      have confined : (ofLookup engine facts interner name).Confined (fun _ => True)
          (fun _ => True) (fun _ => True) _ :=
        Confined.lookup Value.Family.always passive facts interner fun _ _ => trivial
      obtain ⟨rule, member, rfl⟩ := confined.ends_of_result (fun _ _ _ => trivial)
        (coherent.closed name _ known) value rfl
      exact rulesHeld name rule member

end Inquiry

end FactRules
