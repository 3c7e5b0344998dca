import FactRules.Proofs.Unambiguous

/-!
What the interner keeps: each condition under its own text, and once known a condition stays. Where
all that is known is of one family, in which no two conditions are printed alike, a draft of that
family is answered with a condition like itself.
-/

namespace FactRules.Interner

def Keyed (interner : Interner) : Prop :=
  ∀ name known, Table.find? interner.known name = some known → known.text = name

def Extends (later earlier : Interner) : Prop :=
  ∀ name known, Table.find? earlier.known name = some known →
    Table.find? later.known name = some known

def Within (family : Condition → Prop) (interner : Interner) : Prop :=
  ∀ name known, Table.find? interner.known name = some known →
    known.text = name ∧ family known.condition

/-- Keyed, and every known condition can be read back from its text. -/
def Faithful (interner : Interner) : Prop :=
  ∀ name known, Table.find? interner.known name = some known →
    known.text = name ∧ known.condition.Printable

section

variable {interner : Interner} {draft known : SharedCondition}

theorem Extends.refl (interner : Interner) : interner.Extends interner :=
  fun _ _ found => found

theorem Extends.trans {first second third : Interner} (later : third.Extends second)
    (earlier : second.Extends first) : third.Extends first :=
  fun name known found => later name known (earlier name known found)

theorem intern_known (found : Table.find? interner.known draft.text = some known) :
    intern draft interner = (known, interner) := by
  simp [intern, found]

theorem intern_new (missing : Table.find? interner.known draft.text = none) :
    intern draft interner = (draft.withIdentity interner.nextIdentity,
      { nextIdentity := interner.nextIdentity + 1,
        known := Table.insert interner.known draft.text
          (draft.withIdentity interner.nextIdentity) }) := by
  simp only [intern, missing]
  rfl

theorem text_withIdentity (identity : Nat) (shared : SharedCondition) :
    (shared.withIdentity identity).text = shared.text := by
  simp [SharedCondition.text]

theorem find?_intern (draft : SharedCondition) (interner : Interner) :
    Table.find? (intern draft interner).2.known draft.text = some (intern draft interner).1 := by
  cases found : Table.find? interner.known draft.text with
  | some known => rw [intern_known found, found]
  | none =>
      rw [intern_new found]
      exact Table.find?_insert_self _ _ _

theorem find?_intern_cases {name : String}
    (found : Table.find? (intern draft interner).2.known name = some known) :
    Table.find? interner.known name = some known ∨
      name = draft.text ∧ known = draft.withIdentity interner.nextIdentity := by
  cases old : Table.find? interner.known draft.text with
  | some _ =>
      rw [intern_known old] at found
      exact Or.inl found
  | none =>
      rw [intern_new old] at found
      by_cases same : name = draft.text
      · rw [same, Table.find?_insert_self] at found
        exact Or.inr ⟨same, (Option.some.inj found).symm⟩
      · rw [Table.find?_insert_of_ne _ _ same] at found
        exact Or.inl found

theorem intern_extends (draft : SharedCondition) (interner : Interner) :
    (intern draft interner).2.Extends interner := by
  intro name known found
  cases old : Table.find? interner.known draft.text with
  | some _ =>
      rw [intern_known old]
      exact found
  | none =>
      have differs : name ≠ draft.text := by
        rintro rfl
        simp [old] at found
      rw [intern_new old]
      exact (Table.find?_insert_of_ne _ _ differs).trans found

theorem Keyed.intern (keyed : interner.Keyed) (draft : SharedCondition) :
    (intern draft interner).2.Keyed := by
  intro name known found
  rcases find?_intern_cases found with old | ⟨rfl, rfl⟩
  · exact keyed name known old
  · exact text_withIdentity _ _

theorem Keyed.text_intern (keyed : interner.Keyed) (draft : SharedCondition) :
    (Interner.intern draft interner).1.text = draft.text :=
  keyed.intern draft _ _ (find?_intern draft interner)

theorem Within.keyed {family : Condition → Prop} (within : interner.Within family) :
    interner.Keyed :=
  fun name known found => (within name known found).1

theorem Within.intern {family : Condition → Prop} (within : interner.Within family)
    (member : family draft.condition) : (intern draft interner).2.Within family := by
  intro name known found
  rcases find?_intern_cases found with old | ⟨rfl, rfl⟩
  · exact within name known old
  · exact ⟨text_withIdentity _ _, by simpa using member⟩

theorem Within.condition_intern {family : Condition → Prop} (within : interner.Within family)
    (determines : Condition.TextDetermines family) (member : family draft.condition) :
    (Interner.intern draft interner).1.condition = draft.condition := by
  have found := find?_intern draft interner
  have known := within.intern member _ _ found
  exact determines _ _ known.2 member known.1

theorem Faithful.within (faithful : interner.Faithful) : interner.Within Condition.Printable :=
  faithful

theorem Faithful.keyed (faithful : interner.Faithful) : interner.Keyed :=
  faithful.within.keyed

theorem Faithful.intern (faithful : interner.Faithful) (printable : draft.condition.Printable) :
    (intern draft interner).2.Faithful :=
  faithful.within.intern printable

theorem Faithful.condition_intern (faithful : interner.Faithful)
    (printable : draft.condition.Printable) :
    (Interner.intern draft interner).1.condition = draft.condition :=
  faithful.within.condition_intern Condition.textDetermines_printable printable

/-- What an interner comes to by sharing conditions and making new things, in any order. -/
inductive Reached (start : Interner) : Interner → Prop where
  | start : Reached start start
  | newIdentity {interner : Interner} (reached : Reached start interner) :
      Reached start (newIdentity interner).2
  | intern {interner : Interner} (reached : Reached start interner) (draft : SharedCondition) :
      Reached start (Interner.intern draft interner).2

theorem Reached.keyed {start : Interner} (reached : Reached start interner)
    (keyed : start.Keyed) : interner.Keyed := by
  induction reached with
  | start => exact keyed
  | newIdentity _ ih => exact ih
  | intern _ draft ih => exact ih.intern draft

theorem Reached.extends {start : Interner} (reached : Reached start interner) :
    interner.Extends start := by
  induction reached with
  | start => exact Extends.refl start
  | newIdentity _ ih => exact ih
  | intern _ draft ih => exact (intern_extends draft _).trans ih

theorem within_of_empty (family : Condition → Prop) (empty : interner.known = []) :
    interner.Within family := by
  intro name known found
  simp [empty] at found

theorem faithful_of_empty (empty : interner.known = []) : interner.Faithful :=
  within_of_empty _ empty

end

end FactRules.Interner
