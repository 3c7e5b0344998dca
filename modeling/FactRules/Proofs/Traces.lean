import FactRules.Proofs.Sharing

/-!
The steps of work that shares conditions: what it asks to be interned, and the answers. Each answer
is, but for identities, the first condition with the same text that has been asked for.
-/

namespace FactRules.Interner

structure Step where
  asked : SharedCondition
  answer : SharedCondition

/-- From this interner the work interns one draft after another and changes nothing else. -/
inductive Trace : {α : Type} → StateM Interner α → Interner → List Step → Prop where
  | pure {α : Type} (value : α) (interner : Interner) : Trace (pure value) interner []
  | intern (draft : SharedCondition) (interner : Interner) :
      Trace (intern draft) interner [⟨draft, (intern draft interner).1⟩]
  | bind {α β : Type} {work : StateM Interner α} {next : α → StateM Interner β}
      {interner : Interner} {front back : List Step} (first : Trace work interner front)
      (later : Trace (next (work interner).1) (work interner).2 back) :
      Trace (work >>= next) interner (front ++ back)

def first? (steps : List Step) (text : String) : Option Step :=
  steps.find? fun step => step.asked.text = text

/-- Each answer is like the first condition with the same text that has been asked for, up to the
answer. -/
def AnswersFirst (steps : List Step) : Prop :=
  ∀ front step back, steps = front ++ step :: back →
    ∃ first, first? (front ++ [step]) step.asked.text = some first ∧
      step.answer.condition = first.asked.condition

def Recalls (interner : Interner) (steps : List Step) : Prop :=
  ∀ name, (Table.find? interner.known name).map SharedCondition.condition =
    (first? steps name).map fun step => step.asked.condition

section

variable {interner : Interner} {steps : List Step}

theorem first?_concat (steps : List Step) (step : Step) (text : String) :
    first? (steps ++ [step]) text =
      (first? steps text).or (if step.asked.text = text then some step else none) := by
  rw [first?, first?, List.find?_append, List.find?_singleton]
  simp only [decide_eq_true_eq]

theorem Recalls.intern (recalls : interner.Recalls steps) (draft : SharedCondition) :
    (intern draft interner).2.Recalls (steps ++ [⟨draft, (intern draft interner).1⟩]) := by
  intro name
  have before := recalls name
  rw [first?_concat]
  by_cases same : draft.text = name
  · subst same
    rw [if_pos rfl]
    cases found : Table.find? interner.known draft.text with
    | some known =>
        rw [found] at before
        cases asked : first? steps draft.text with
        | none =>
            rw [asked] at before
            cases before
        | some first =>
            rw [intern_known found, found, before, asked]
            rfl
    | none =>
        rw [found] at before
        cases asked : first? steps draft.text with
        | none =>
            rw [intern_new found, Table.find?_insert_self]
            simp
        | some first =>
            rw [asked] at before
            cases before
  · rw [if_neg same, Option.or_none, ← before]
    cases found : Table.find? interner.known draft.text with
    | some known => rw [intern_known found]
    | none => rw [intern_new found, Table.find?_insert_of_ne _ _ (Ne.symm same)]

theorem answersFirst_concat (answers : AnswersFirst steps) {step : Step}
    (last : ∃ first, first? (steps ++ [step]) step.asked.text = some first ∧
      step.answer.condition = first.asked.condition) : AnswersFirst (steps ++ [step]) := by
  intro front other back same
  rcases List.eq_nil_or_concat back with rfl | ⟨between, final, rfl⟩
  · obtain ⟨rfl, single⟩ := List.append_inj' same rfl
    cases single
    exact last
  · have split : steps ++ [step] = (front ++ other :: between) ++ [final] := by
      rw [same, List.concat_eq_append, List.append_assoc, List.cons_append]
    exact answers front other between (List.append_inj' split rfl).1

theorem Recalls.answer (recalls : interner.Recalls steps) (draft : SharedCondition) :
    ∃ first, first? (steps ++ [⟨draft, (Interner.intern draft interner).1⟩]) draft.text =
        some first ∧
      (Interner.intern draft interner).1.condition = first.asked.condition := by
  have known := recalls.intern draft draft.text
  rw [find?_intern] at known
  obtain ⟨first, asked, like⟩ := Option.map_eq_some_iff.1 known.symm
  exact ⟨first, asked, like.symm⟩

theorem Trace.answers {α : Type} {work : StateM Interner α} {later : List Step}
    (trace : Trace work interner later) (recalls : interner.Recalls steps)
    (answers : AnswersFirst steps) :
    (work interner).2.Recalls (steps ++ later) ∧ AnswersFirst (steps ++ later) := by
  induction trace generalizing steps with
  | pure value interner =>
      rw [List.append_nil]
      exact ⟨recalls, answers⟩
  | intern draft interner =>
      exact ⟨recalls.intern draft, answersFirst_concat answers (recalls.answer draft)⟩
  | bind first later ihFirst ihLater =>
      obtain ⟨recallsFirst, answersFirst⟩ := ihFirst recalls answers
      rw [← List.append_assoc]
      exact ihLater recallsFirst answersFirst

theorem Trace.extends {α : Type} {work : StateM Interner α} (trace : Trace work interner steps) :
    (work interner).2.Extends interner := by
  induction trace with
  | pure value interner => exact Extends.refl interner
  | intern draft interner => exact intern_extends draft interner
  | bind first later ihFirst ihLater => exact ihLater.trans ihFirst

theorem Trace.keyed {α : Type} {work : StateM Interner α} (trace : Trace work interner steps)
    (keyed : interner.Keyed) : (work interner).2.Keyed := by
  induction trace with
  | pure value interner => exact keyed
  | intern draft interner => exact keyed.intern draft
  | bind first later ihFirst ihLater => exact ihLater (ihFirst keyed)

theorem recalls_of_empty (empty : interner.known = []) : interner.Recalls [] := by
  intro name
  rw [empty]
  rfl

theorem Trace.answersFirst {α : Type} {work : StateM Interner α} (trace : Trace work interner steps)
    (empty : interner.known = []) : AnswersFirst steps := by
  have nothing : AnswersFirst [] := by
    intro front step back same
    simp at same
  exact (trace.answers (recalls_of_empty empty) nothing).2

theorem AnswersFirst.alike {family : Condition → Prop} (answers : AnswersFirst steps)
    (determines : Condition.TextDetermines family)
    (members : ∀ step ∈ steps, family step.asked.condition) :
    ∀ step ∈ steps, step.answer.condition = step.asked.condition := by
  intro step member
  obtain ⟨front, back, rfl⟩ := List.append_of_mem member
  obtain ⟨first, found, like⟩ := answers front step back rfl
  have sameText := List.find?_some found
  have earlier : first ∈ front ++ step :: back := by
    rcases List.mem_append.1 (List.mem_of_find?_eq_some found) with before | isStep
    · exact List.mem_append_left _ before
    · rw [List.mem_singleton.1 isStep]
      exact member
  rw [like]
  exact determines _ _ (members first earlier) (members step member) (of_decide_eq_true sameText)

end

end FactRules.Interner
