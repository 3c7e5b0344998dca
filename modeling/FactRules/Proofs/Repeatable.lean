import FactRules.Resolution
import FactRules.Rule.Script

/-!
Actions that only depend on what they read in their context: what they make on the way may differ
in its identities but in nothing else, and a failed request ends them with its error. The order in
which facts are listed may count or not.
-/

namespace FactRules

namespace Program

def PassesErrors {α β : Type} (next : Except RuleError β → Program α) : Prop :=
  ∀ error, next (.error error) = .done (.error error)

/-- Two programs that make the same requests and end in the same way when they are given facts that
are the same in this sense, whatever they share and create with interners that are kept to. Neither
forgets what the context remembers. -/
inductive Alike (kept : Interner → Prop) (same : Facts → Facts → Prop) {α : Type} :
    Program α → Program α → Prop
  | done (outcome : Except RuleError α) : Alike kept same (.done outcome) (.done outcome)
  | get (name : String) {next other : Except RuleError (Option Value) → Program α}
      (answered : ∀ answer, Alike kept same (next (.ok answer)) (other (.ok answer)))
      (passes : PassesErrors next) (otherPasses : PassesErrors other) :
      Alike kept same (.get name next) (.get name other)
  | evaluate {condition equal : SharedCondition} (equals : condition.condition = equal.condition)
      {next other : Except RuleError Bool → Program α}
      (answered : ∀ verdict, Alike kept same (next (.ok verdict)) (other (.ok verdict)))
      (passes : PassesErrors next) (otherPasses : PassesErrors other) :
      Alike kept same (.evaluate condition next) (.evaluate equal other)
  | candidates (target : String) {next other : Except RuleError (List RuleHead) → Program α}
      (answered : ∀ heads, Alike kept same (next (.ok heads)) (other (.ok heads)))
      (passes : PassesErrors next) (otherPasses : PassesErrors other) :
      Alike kept same (.candidates target next) (.candidates target other)
  | facts {next other : Facts → Program α}
      (answered : ∀ left right, same left right → Alike kept same (next left) (other right)) :
      Alike kept same (.facts next) (.facts other)
  | share {make again : Sharing ParseError SharedCondition}
      {next other : Except ParseError SharedCondition → Program α}
      (keeps : ∀ interner, kept interner → kept (make interner).2)
      (keepsAgain : ∀ interner, kept interner → kept (again interner).2)
      (made : ∀ left right, kept left → kept right →
        Alike kept same (next (make left).1) (other (again right).1)) :
      Alike kept same (.share make next) (.share again other)
  | create {make again : StateM Interner Value} {next other : Value → Program α}
      (keeps : ∀ interner, kept interner → kept (make interner).2)
      (keepsAgain : ∀ interner, kept interner → kept (again interner).2)
      (made : ∀ left right, kept left → kept right →
        Alike kept same (next (make left).1) (other (again right).1)) :
      Alike kept same (.create make next) (.create again other)

def Repeatable (kept : Interner → Prop) {α : Type} (program : Program α) : Prop :=
  Alike kept Eq program program

/-- It does not even depend on the order in which facts are listed. -/
def Orderless (kept : Interner → Prop) {α : Type} (program : Program α) : Prop :=
  Alike kept Facts.SameAs program program

variable {kept : Interner → Prop} {same : Facts → Facts → Prop} {α β : Type}

theorem PassesErrors.bind {γ : Type} {next : Except RuleError γ → Program α}
    (passes : PassesErrors next) (following : α → Program β) :
    PassesErrors fun answer => (next answer).bind following := by
  intro error
  simp only [passes error]
  rfl

theorem Alike.bind {program again : Program α} {following other : α → Program β}
    (alike : Alike kept same program again)
    (later : ∀ value, Alike kept same (following value) (other value)) :
    Alike kept same (program.bind following) (again.bind other) := by
  induction alike with
  | done outcome =>
      cases outcome with
      | error error => exact .done _
      | ok value => exact later value
  | get name _ passes otherPasses ih =>
      exact .get name ih (passes.bind following) (otherPasses.bind other)
  | evaluate equals _ passes otherPasses ih =>
      exact .evaluate equals ih (passes.bind following) (otherPasses.bind other)
  | candidates target _ passes otherPasses ih =>
      exact .candidates target ih (passes.bind following) (otherPasses.bind other)
  | facts _ ih => exact .facts ih
  | share keeps keepsAgain _ ih => exact .share keeps keepsAgain ih
  | create keeps keepsAgain _ ih => exact .create keeps keepsAgain ih

theorem Alike.mono {program again : Program α} {less : Facts → Facts → Prop}
    (alike : Alike kept same program again) (implies : ∀ left right, less left right → same left right) :
    Alike kept less program again := by
  induction alike with
  | done outcome => exact .done outcome
  | get name _ passes otherPasses ih => exact .get name ih passes otherPasses
  | evaluate equals _ passes otherPasses ih => exact .evaluate equals ih passes otherPasses
  | candidates target _ passes otherPasses ih => exact .candidates target ih passes otherPasses
  | facts _ ih => exact .facts fun left right lessSame => ih left right (implies left right lessSame)
  | share keeps keepsAgain _ ih => exact .share keeps keepsAgain ih
  | create keeps keepsAgain _ ih => exact .create keeps keepsAgain ih

theorem Orderless.repeatable {program : Program α} (orderless : program.Orderless kept) :
    program.Repeatable kept := by
  apply orderless.mono
  rintro facts _ rfl
  exact .refl _

end Program

def Engine.Repeatable (engine : Engine) (kept : Interner → Prop) : Prop :=
  ∀ target, ∀ rule ∈ engine.rulesFor target, ∀ action, rule.action = some action →
    (action rule.toRuleHead).Repeatable kept

def Engine.Orderless (engine : Engine) (kept : Interner → Prop) : Prop :=
  ∀ target, ∀ rule ∈ engine.rulesFor target, ∀ action, rule.action = some action →
    (action rule.toRuleHead).Orderless kept

theorem Engine.Orderless.repeatable {engine : Engine} {kept : Interner → Prop}
    (orderless : engine.Orderless kept) : engine.Repeatable kept :=
  fun target rule member action chosen => (orderless target rule member action chosen).repeatable

namespace Script

open Program

mutual

def Steady (kept : Interner → Prop) : Script → Prop
  | .constant make => ∃ value, ∀ interner, kept interner →
      kept (make interner).2 ∧ (make interner).1 = value
  | .holds make => ∃ condition, ∀ interner, kept interner →
      kept (make interner).2 ∧ (make interner).1.map SharedCondition.condition = condition
  | .concat parts => AllSteady kept parts
  | .list parts => AllSteady kept parts
  | .sequence parts => AllSteady kept parts
  | .clear => False
  | .rescue _ => False
  | _ => True

def AllSteady (kept : Interner → Prop) : List Script → Prop
  | [] => True
  | part :: parts => Steady kept part ∧ AllSteady kept parts

end

variable {kept : Interner → Prop}

theorem orderless_read (name : String) : (Program.read name).Orderless kept :=
  .get name (fun _ => .done _) (fun _ => rfl) (fun _ => rfl)

theorem orderless_hasFact (name : String) : (Program.hasFact name).Orderless kept := by
  refine .facts fun left right same => ?_
  have sameAnswer : left.contains name = right.contains name :=
    congrArg Option.isSome (Facts.find?_eq_of_sameAs same name)
  simp only [sameAnswer]
  exact .done _

theorem orderless_follow (path : String) : (Program.follow path).Orderless kept := by
  refine (orderless_read _).bind fun first => ?_
  split <;> exact .done _

theorem orderless_holds {make : Sharing ParseError SharedCondition}
    (steady : (Script.holds make).Steady kept) (head : RuleHead) :
    ((Script.holds make).program head).Orderless kept := by
  obtain ⟨condition, same⟩ := steady
  refine .share (fun interner keeps => (same interner keeps).1)
    (fun interner keeps => (same interner keeps).1) fun left right leftKept rightKept => ?_
  have equal := (same left leftKept).2.trans (same right rightKept).2.symm
  generalize (make left).1 = first at equal ⊢
  generalize (make right).1 = second at equal ⊢
  cases first with
  | error error =>
      cases second with
      | error other =>
          simp only [Except.map, Except.error.injEq] at equal
          rw [equal]
          exact .done _
      | ok other => simp [Except.map] at equal
  | ok value =>
      cases second with
      | error other => simp [Except.map] at equal
      | ok other =>
          refine .evaluate ?_ (fun _ => .done _) (fun _ => rfl) (fun _ => rfl)
          simpa [Except.map] using equal

mutual

theorem orderless_program (head : RuleHead) : (script : Script) → script.Steady kept →
    (script.program head).Orderless kept
  | .constant make, steady => by
      obtain ⟨value, same⟩ := steady
      refine .create (fun interner keeps => (same interner keeps).1)
        (fun interner keeps => (same interner keeps).1) fun left right leftKept rightKept => ?_
      rw [(same left leftKept).2, (same right rightKept).2]
      exact .done _
  | .ruleValue, _ => .done _
  | .get name, _ => (orderless_read name).bind fun _ => .done _
  | .isAbsent name, _ => (orderless_read name).bind fun _ => .done _
  | .hasFact name, _ => (orderless_hasFact name).bind fun _ => .done _
  | .concat parts, steady => (orderless_programs head parts steady).bind fun _ => .done _
  | .list parts, steady => (orderless_programs head parts steady).bind fun _ => .done _
  | .sequence parts, steady => (orderless_programs head parts steady).bind fun _ => .done _
  | .path keyPath, _ => orderless_follow keyPath
  | .holds _, steady => orderless_holds steady head
  | .count target, _ => .candidates target (fun _ => .done _) (fun _ => rfl) (fun _ => rfl)
  | .describe, _ => .done _
  | .clear, steady => steady.elim
  | .fail _, _ => .done _
  | .rescue _, steady => steady.elim

theorem orderless_programs (head : RuleHead) : (parts : List Script) → AllSteady kept parts →
    Orderless kept (programs head parts)
  | [], _ => .done _
  | part :: parts, steady =>
      (orderless_program head part steady.1).bind fun _ =>
        (orderless_programs head parts steady.2).bind fun _ => .done _

end

end Script

end FactRules
