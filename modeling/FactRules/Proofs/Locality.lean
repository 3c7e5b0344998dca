import FactRules.Proofs.Refusals

/-!
Which facts an answer depends on. Where no rule has an action, a lookup asks for nothing but what
the rules of its attribute read. So on a set of attributes that contains with each one what its
rules read, two contexts that know the same go on to know the same, whatever else their facts are.
-/

namespace FactRules

open Inquiry Resolution

/-- The least set that has the attribute in it, and with each one whatever its rules read. -/
inductive Engine.Needs (engine : Engine) (name : String) : String → Prop
  | itself : Needs engine name name
  | read {target other : String} (needed : Needs engine name target)
      (reads : engine.Reads target other) : Needs engine name other

structure Context.AgreeOn (about : String → Prop) (left right : Context) : Prop where
  known : ∀ name, about name → left.recall name = right.recall name
  sameStack : left.resolving = right.resolving

section

variable {engine : Engine} {facts others : Facts} {interner otherInterner : Interner}

theorem ofLookup_eq (passive : engine.Passive) (target : String) :
    ofLookup engine facts interner target = ofLookup engine others otherInterner target := by
  apply candidates_bind_congr
  intro found inside
  cases found with
  | nil => rfl
  | cons rule rules =>
      have idle := passive target rule (inside List.mem_cons_self)
      simp only [ofFiring, idle]

variable (engine facts others interner otherInterner)

def AsksAlike (about : String → Prop) (ask : Ask) : Prop :=
  ∀ name left right, about name → Coherent engine facts interner left →
    Coherent engine others otherInterner right → left.AgreeOn about right →
    (ask name left).1 = (ask name right).1 ∧
      (ask name left).2.AgreeOn about (ask name right).2

variable {engine facts others interner otherInterner} {about : String → Prop}

theorem AsksAlike.perform {ask : Ask}
    (alike : AsksAlike engine facts others interner otherInterner about ask)
    (remembers : Remembers engine facts interner ask)
    (otherRemembers : Remembers engine others otherInterner ask) {α : Type} {inquiry : Inquiry α}
    {allowed : EvalError → Prop} {ends : α → Prop}
    (confined : inquiry.Confined about (fun _ => True) allowed ends) {left right : Context}
    (coherent : Coherent engine facts interner left)
    (otherCoherent : Coherent engine others otherInterner right)
    (agree : left.AgreeOn about right) :
    (perform ask inquiry left).1 = (perform ask inquiry right).1 ∧
      (Inquiry.perform ask inquiry left).2.AgreeOn about (Inquiry.perform ask inquiry right).2 := by
  induction inquiry generalizing left right with
  | done outcome => exact ⟨rfl, agree⟩
  | ask name next ih =>
      obtain ⟨equal, still⟩ := alike name left right confined.1 coherent otherCoherent agree
      have after := (remembers name left coherent).1.coherent
      have otherAfter := (otherRemembers name right otherCoherent).1.coherent
      simp only [Inquiry.perform]
      generalize ask name left = leftAsked at equal still after ⊢
      generalize ask name right = rightAsked at equal still otherAfter ⊢
      obtain ⟨outcome, leftAfter⟩ := leftAsked
      obtain ⟨_, rightAfter⟩ := rightAsked
      cases equal
      cases outcome with
      | error error => exact ⟨rfl, still⟩
      | ok answer => exact ih answer (confined.2 answer fun _ _ => trivial) after otherAfter still

theorem asksAlike_answer {lookup : Ask}
    (remembers : Remembers engine facts interner (answer engine.settings lookup))
    (otherRemembers : Remembers engine others otherInterner (answer engine.settings lookup))
    (lookups : AsksAlike engine facts others interner otherInterner about lookup) :
    AsksAlike engine facts others interner otherInterner about (answer engine.settings lookup) := by
  intro name left right isAbout coherent otherCoherent agree
  have remembered := (remembers name left coherent).2
  have otherRemembered := (otherRemembers name right otherCoherent).2
  have sameKnown := agree.known name isAbout
  cases known : left.recall name with
  | some found =>
      rw [answer_of_recall known, answer_of_recall (sameKnown ▸ known)]
      exact ⟨rfl, agree⟩
  | none =>
      have otherUnknown : right.recall name = none := sameKnown ▸ known
      cases entered : left.resolving.enter engine.settings name with
      | error error =>
          have refused := agree.sameStack ▸ entered
          rw [answer_of_refused known entered, answer_of_refused otherUnknown refused]
          exact ⟨rfl, agree.known, agree.sameStack⟩
      | ok resolving =>
          have enters := agree.sameStack ▸ entered
          rw [answer_of_entered known entered] at remembered ⊢
          rw [answer_of_entered otherUnknown enters] at otherRemembered ⊢
          obtain ⟨equal, still⟩ := lookups name (entering left resolving)
            (entering right resolving) isAbout (coherent_entering coherent resolving)
            (coherent_entering otherCoherent resolving) ⟨agree.known, rfl⟩
          generalize lookup name (entering left resolving) = leftAsked at *
          generalize lookup name (entering right resolving) = rightAsked at *
          obtain ⟨outcome, leftAfter⟩ := leftAsked
          obtain ⟨_, rightAfter⟩ := rightAsked
          cases equal
          refine ⟨by simp only [finish_fst], ?_, ?_⟩
          · intro other otherAbout
            cases outcome with
            | error error => exact still.known other otherAbout
            | ok answer =>
                by_cases same : other = name
                · subst other
                  exact (remembered answer rfl).trans (otherRemembered answer rfl).symm
                · rw [recall_finish_of_ne same, recall_finish_of_ne same]
                  exact still.known other otherAbout
          · rw [resolving_finish, resolving_finish, still.sameStack]

theorem asksAlike_askWithin (passive : engine.Passive)
    (closed : ∀ target read, about target → engine.Reads target read → about read)
    (remaining : Nat) :
    AsksAlike engine facts others interner otherInterner about
      (askWithin engine facts interner remaining) := by
  have otherRemembers (remaining : Nat) :
      Remembers engine others otherInterner (askWithin engine facts interner remaining) := by
    rw [← askWithin_congr (ofLookup_eq passive) remaining]
    exact remembers_askWithin remaining
  induction remaining with
  | zero =>
      apply asksAlike_answer (remembers_askWithin 0) (otherRemembers 0)
      intro name left right _ _ _ agree
      exact ⟨rfl, agree⟩
  | succ remaining ih =>
      apply asksAlike_answer (remembers_askWithin (remaining + 1)) (otherRemembers (remaining + 1))
      intro name left right isAbout coherent otherCoherent agree
      have confined := Confined.lookup .always passive facts interner
        (fun read (reads : engine.Reads name read) => closed name read isAbout reads)
      exact ih.perform (remembers_askWithin remaining) (otherRemembers remaining) confined coherent
        otherCoherent agree

end

/-- Two new contexts give an attribute the same value, or none, or the same error, when they have
the same facts among what it needs. -/
theorem get_eq_of_agree {engine : Engine} (passive : engine.Passive) {facts others : Facts}
    {interner otherInterner : Interner} {name : String}
    (agree : ∀ needed, engine.Needs name needed → facts.find? needed = others.find? needed) :
    (engine.get name (.fresh facts interner)).1 =
      (engine.get name (.fresh others otherInterner)).1 := by
  have repeatable := passive.repeatable fun _ => True
  have left : (Context.fresh facts interner).Settled engine interner fun _ => True :=
    .fresh trivial facts
  have right : (Context.fresh others otherInterner).Settled engine otherInterner fun _ => True :=
    .fresh trivial others
  have agreeOn : (Context.fresh facts interner).AgreeOn (engine.Needs name)
      (.fresh others otherInterner) := by
    constructor
    · intro needed needs
      rw [recall_of_forgotten rfl, recall_of_forgotten rfl]
      exact congrArg (Option.map some) (agree needed needs)
    · rfl
  have closed (target read : String) (needed : engine.Needs name target)
      (reads : engine.Reads target read) : engine.Needs name read := needed.read reads
  have same : askWithin engine others otherInterner engine.settings.maxLookupDepth =
      askWithin engine facts interner engine.settings.maxLookupDepth :=
    askWithin_congr (ofLookup_eq passive) _
  rw [left.get_eq trivial repeatable, right.get_eq trivial repeatable]
  simp only [Context.fresh, same]
  exact (asksAlike_askWithin passive closed _ name _ _ .itself left.mirrors.coherent
    right.mirrors.coherent agreeOn).1

theorem needs_totalEngine {needed : String} (needs : totalEngine.Needs "total" needed) :
    needed = "total" ∨ needed = "net" ∨ needed = "price" := by
  induction needs with
  | itself => exact .inl rfl
  | read _ reads _ =>
      obtain ⟨_, rfl⟩ | ⟨_, rfl⟩ := reads_totalEngine reads
      · exact .inr (.inr rfl)
      · exact .inr (.inl rfl)

theorem get_eq_of_agree_total :
    let facts := [("price", Value.int 3), ("weather", .string "dry")]
    let others := [("gross", Value.int 9), ("price", .int 3)]
    (totalEngine.get "total" (.ofFacts facts)).1 = (totalEngine.get "total" (.ofFacts others)).1 ∧
      (totalEngine.get "total" (.ofFacts facts)).1 = .ok (some (.int 7)) := by
  intro facts others
  have agree (needed : String) (needs : totalEngine.Needs "total" needed) :
      (Table.ofList facts).find? needed = (Table.ofList others).find? needed := by
    rcases needs_totalEngine needs with rfl | rfl | rfl <;> rfl
  exact ⟨get_eq_of_agree passive_totalEngine agree, rfl⟩

end FactRules
