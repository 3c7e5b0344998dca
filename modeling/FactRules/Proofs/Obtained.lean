import FactRules.Proofs.Requests

/-!
The conditions that can be had by parsing and from those by `positive`. All of them are legible, so
each of them is told from the others by its text.
-/

namespace FactRules

namespace SharedCondition

/-- What parsing and `positive` have given so far, where nothing was known at first, and the
interner that they have left. A failure gives nothing, but what was shared before it stays. -/
inductive Obtained : List SharedCondition → Interner → Prop where
  | start (nextIdentity : Nat) : Obtained [] { nextIdentity, known := [] }
  | parse {pool : List SharedCondition} {interner : Interner} (obtained : Obtained pool interner)
      (text : String) (bindings : List Value) :
      Obtained ((parse text bindings interner).1.toOption.toList ++ pool)
        (parse text bindings interner).2
  | positive {pool : List SharedCondition} {interner : Interner} (obtained : Obtained pool interner)
      {shared : SharedCondition} (member : shared ∈ pool) :
      Obtained ((shared.positive interner).1.toOption.toList ++ pool) (shared.positive interner).2

theorem eq_ok_of_mem_toOption {ε α : Type} {outcome : Except ε α} {value : α}
    (member : value ∈ outcome.toOption.toList) : outcome = .ok value := by
  cases outcome with
  | error error => cases member
  | ok own => rw [List.mem_singleton.1 member]

theorem Obtained.printable {pool : List SharedCondition} {interner : Interner}
    (obtained : Obtained pool interner) :
    interner.Faithful ∧ ∀ shared ∈ pool, shared.condition.Printable := by
  induction obtained with
  | start nextIdentity => exact ⟨Interner.faithful_of_empty rfl, nofun⟩
  | parse _ text bindings ih =>
      have interns := (invariant_interns True).parse (fun _ => ih.1) text bindings
      refine ⟨interns.faithful trivial, List.forall_mem_append.2 ⟨?_, ih.2⟩⟩
      intro parsed member
      have formed := interns.result parsed (eq_ok_of_mem_toOption member) trivial
      exact formed.printable
  | @positive pool interner _ shared held ih =>
      have interns : InternsOk True (Readably True) shared.positive interner :=
        interns_pushed shared (fun _ => ih.1) fun _ => ih.2 shared held
      refine ⟨interns.faithful trivial, List.forall_mem_append.2 ⟨?_, ih.2⟩⟩
      intro positive member
      exact interns.result positive (eq_ok_of_mem_toOption member) trivial

/-- Conditions that are printed alike are one, node for node, if their keys are single words. So it
is for all that is ever obtained. -/
theorem text_determines :
    (∀ left right : Condition, left.Legible → right.Legible →
      (left.text = right.text ↔ left = right)) ∧
    ∀ pool interner, Obtained pool interner → ∀ shared ∈ pool, shared.condition.Legible := by
  constructor
  · intro left right leftLegible rightLegible
    exact ⟨Condition.eq_of_legible leftLegible rightLegible, congrArg Condition.text⟩
  · intro pool interner obtained shared member
    exact (obtained.printable.2 shared member).legible

/-- A key may be named like a connective, and a string may hold what looks like a comparison. -/
theorem text_determines_quoted : ∃ shared interner, Obtained [shared] interner ∧
    shared.text = "((rate = 1) AND (rate < 2))" ∧
    shared.text ≠ (Condition.leaf (.keyLiteral "and" .equal (.string "(rate = 1)"))).text := by
  have isKey : IsKey "rate" := ⟨(Token.Scanned.step rfl rfl (.nil rfl)).scan_eq, rfl⟩
  have worded : IsWorded "and" := ⟨"and", (Token.Scanned.step rfl rfl (.nil rfl)).scan_eq⟩
  have wellFormed : (Condition.all [.leaf (.keyLiteral "rate" .equal (.integer 1)),
      .leaf (.keyLiteral "rate" .less (.integer 2))]).WellFormed := by
    refine ⟨⟨by decide, ⟨isKey, trivial⟩, ⟨isKey, trivial⟩, trivial⟩, ?_, trivial, trivial, trivial⟩
    rintro _ ⟨⟩
    rfl
  have faithful : Interner.Faithful { nextIdentity := 0, known := [] } :=
    Interner.faithful_of_empty rfl
  obtain ⟨shared, after, same, _, parsed⟩ := parse_text wellFormed [] faithful
  have text : Template.doubled (Condition.all [.leaf (.keyLiteral "rate" .equal (.integer 1)),
      .leaf (.keyLiteral "rate" .less (.integer 2))]).text = "((rate = 1) AND (rate < 2))" := by
    decide
  have obtained := (Obtained.start 0).parse "((rate = 1) AND (rate < 2))" []
  rw [text] at parsed
  rw [parsed] at obtained
  have legible := text_determines.2 _ _ obtained shared List.mem_cons_self
  have quoted : (Condition.leaf (.keyLiteral "and" .equal (.string "(rate = 1)"))).Legible :=
    ⟨worded, trivial⟩
  refine ⟨shared, after, obtained, (congrArg Condition.text same).trans (by decide), ?_⟩
  intro alike
  have equal := (text_determines.1 shared.condition _ legible quoted).1 alike
  rw [same] at equal
  cases equal

end SharedCondition

end FactRules
