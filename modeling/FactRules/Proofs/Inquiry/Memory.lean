import FactRules.Proofs.Inquiry

/-!
Lookups that remember their answers, with conditions evaluated anew each time. Every remembered
answer is the result of its inquiry under the other remembered ones, and the memory can be rebuilt
from the facts in finitely many rounds. From this follows how two contexts with the same facts can
differ in the answers that they give: only in where the limit of nested lookups is met.
-/

namespace FactRules

def Context.recall (context : Context) : Known := fun name =>
  match context.facts.find? name with
  | some fact => some (some fact)
  | none => context.answers.find? name

namespace Inquiry

variable (engine : Engine) (facts : Facts) (interner : Interner)

/-- Answers attributes as `Resolution.within` does, but remembers no condition. -/
def askWithin : Nat → Ask
  | 0 => Resolution.answer engine.settings fun name =>
      throw (.depthExceeded engine.settings.maxLookupDepth name)
  | remaining + 1 => Resolution.answer engine.settings fun name =>
      perform (askWithin remaining) (ofLookup engine facts interner name)

def answeredIn : Nat → Known
  | 0 => fun name => (facts.find? name).map some
  | rounds + 1 => fun name =>
      match facts.find? name with
      | some fact => some (some fact)
      | none => (ofLookup engine facts interner name).result? (answeredIn rounds)

structure Coherent (context : Context) : Prop where
  sameFacts : ∀ name, context.facts.find? name = facts.find? name
  /-- Whatever a remembered answer was made from is known as well. -/
  closed : ∀ name answer, context.answers.find? name = some answer →
    (ofLookup engine facts interner name).result? context.recall = some answer
  grounded : ∃ rounds, context.recall.Within (answeredIn engine facts interner rounds)

variable {engine facts interner}

theorem askWithin_congr {others : Facts} {other : Interner}
    (same : ∀ target, ofLookup engine facts interner target = ofLookup engine others other target)
    (remaining : Nat) :
    askWithin engine facts interner remaining = askWithin engine others other remaining := by
  induction remaining with
  | zero => rfl
  | succ remaining ih => simp only [askWithin, ih, same]

theorem answeredIn_succ (rounds : Nat) :
    (answeredIn engine facts interner rounds).Within
      (answeredIn engine facts interner (rounds + 1)) := by
  induction rounds with
  | zero =>
      intro name answer found
      simp only [answeredIn] at found ⊢
      cases fact : facts.find? name with
      | none => simp [fact] at found
      | some value => simpa [fact] using found
  | succ rounds ih =>
      intro name answer found
      simp only [answeredIn] at found ⊢
      cases fact : facts.find? name with
      | none =>
          simp only [fact] at found
          exact result?_of_within ih found
      | some value => simpa [fact] using found

theorem answeredIn_mono {rounds more : Nat} (le : rounds ≤ more) :
    (answeredIn engine facts interner rounds).Within (answeredIn engine facts interner more) := by
  induction le with
  | refl => exact .refl _
  | step _ ih => exact ih.trans (answeredIn_succ _)

theorem answeredIn_unique {rounds more : Nat} {name : String} {answer other : Option Value}
    (found : answeredIn engine facts interner rounds name = some answer)
    (again : answeredIn engine facts interner more name = some other) : answer = other := by
  have left := answeredIn_mono (Nat.le_max_left rounds more) name answer found
  have right := answeredIn_mono (Nat.le_max_right rounds more) name other again
  exact Option.some.inj (left.symm.trans right)

theorem recall_of_fact {context : Context} {name : String} {fact : Value}
    (found : context.facts.find? name = some fact) : context.recall name = some (some fact) := by
  simp [Context.recall, found]

theorem recall_of_notFact {context : Context} {name : String}
    (missing : context.facts.find? name = none) :
    context.recall name = context.answers.find? name := by
  simp [Context.recall, missing]

theorem recall_of_forgotten {context : Context} (forgotten : context.answers = [])
    (name : String) : context.recall name = (context.facts.find? name).map some := by
  simp only [Context.recall, forgotten]
  cases context.facts.find? name <;> rfl

theorem coherent_of_forgotten {context : Context}
    (sameFacts : ∀ name, context.facts.find? name = facts.find? name)
    (forgotten : context.answers = []) : Coherent engine facts interner context where
  sameFacts := sameFacts
  closed name answer found := by simp [forgotten] at found
  grounded := by
    refine ⟨0, fun name answer found => ?_⟩
    simp only [Context.recall, forgotten, sameFacts] at found
    simp only [answeredIn]
    cases fact : facts.find? name with
    | none => simp [fact] at found
    | some value => simpa [fact] using found

namespace Coherent

theorem congr {context other : Context} (coherent : Coherent engine facts interner context)
    (sameFacts : ∀ name, other.facts.find? name = context.facts.find? name)
    (sameAnswers : other.answers = context.answers) : Coherent engine facts interner other := by
  have same : other.recall = context.recall := by
    funext name
    simp only [Context.recall, sameFacts, sameAnswers]
  constructor
  · exact fun name => (sameFacts name).trans (coherent.sameFacts name)
  · intro name answer found
    rw [same]
    exact coherent.closed name answer (sameAnswers ▸ found)
  · rw [same]
    exact coherent.grounded

theorem recall_unique {context other : Context}
    (coherent : Coherent engine facts interner context)
    (otherCoherent : Coherent engine facts interner other) {name : String}
    {answer different : Option Value} (found : context.recall name = some answer)
    (again : other.recall name = some different) : answer = different := by
  obtain ⟨rounds, within⟩ := coherent.grounded
  obtain ⟨more, otherWithin⟩ := otherCoherent.grounded
  exact answeredIn_unique (within name answer found) (otherWithin name different again)

theorem remember {context : Context} (coherent : Coherent engine facts interner context)
    (after : Context) {name : String} {answer : Option Value} (sameFacts : after.facts = context.facts)
    (inserted : after.answers = context.answers.insert name answer)
    (notFact : facts.find? name = none)
    (found : (ofLookup engine facts interner name).result? context.recall = some answer) :
    Coherent engine facts interner after ∧ context.recall.Within after.recall ∧
      after.recall name = some answer := by
  have missing : after.facts.find? name = none := by
    rw [sameFacts, coherent.sameFacts]
    exact notFact
  have recalled : after.recall name = some answer := by
    rw [recall_of_notFact missing, inserted, Table.find?_insert_self]
  have others : ∀ other, other ≠ name → after.recall other = context.recall other := by
    intro other differs
    simp only [Context.recall, sameFacts, inserted, Table.find?_insert_of_ne _ _ differs]
  have within : context.recall.Within after.recall := by
    intro other different known
    by_cases same : other = name
    · subst other
      rw [recall_of_notFact (sameFacts ▸ missing)] at known
      have again := coherent.closed name different known
      rw [recalled, Option.some.inj (found.symm.trans again)]
    · rw [others other same]
      exact known
  refine ⟨⟨sameFacts ▸ coherent.sameFacts, ?_, ?_⟩, within, recalled⟩
  · intro other different known
    by_cases same : other = name
    · subst other
      rw [inserted, Table.find?_insert_self] at known
      rw [← Option.some.inj known]
      exact result?_of_within within found
    · rw [inserted, Table.find?_insert_of_ne _ _ same] at known
      exact result?_of_within within (coherent.closed other different known)
  · obtain ⟨rounds, grounded⟩ := coherent.grounded
    refine ⟨rounds + 1, fun other different known => ?_⟩
    by_cases same : other = name
    · subst other
      simp only [answeredIn, notFact]
      rw [← Option.some.inj (recalled.symm.trans known)]
      exact result?_of_within grounded found
    · rw [others other same] at known
      exact answeredIn_succ rounds other different (grounded other different known)

end Coherent

section answers

variable {settings : Settings} {lookup : Ask} {name : String} {context : Context}

theorem answer_of_recall {answer : Option Value} (known : context.recall name = some answer) :
    Resolution.answer settings lookup name context = (.ok answer, context) := by
  simp only [Resolution.answer]
  cases fact : context.facts.find? name with
  | some value =>
      rw [recall_of_fact fact] at known
      rw [← Option.some.inj known]
  | none =>
      rw [recall_of_notFact fact] at known
      rw [known]

theorem notFact_of_recall_none (unknown : context.recall name = none) :
    context.facts.find? name = none := by
  cases fact : context.facts.find? name with
  | none => rfl
  | some value => simp [recall_of_fact fact] at unknown

theorem answer_of_refused {error : RuleError} (unknown : context.recall name = none)
    (refused : context.resolving.enter settings name = .error error) :
    Resolution.answer settings lookup name context =
      (.error error, context.note (.failed name error)) := by
  have notFact := notFact_of_recall_none unknown
  rw [recall_of_notFact notFact] at unknown
  simp only [Resolution.answer, notFact, unknown, refused]

def entering (context : Context) (resolving : ResolvingStack) : Context :=
  { context with resolving }.note (.entered resolving.names)

theorem answer_of_entered {resolving : ResolvingStack} (unknown : context.recall name = none)
    (entered : context.resolving.enter settings name = .ok resolving) :
    Resolution.answer settings lookup name context =
      Resolution.finish name (lookup name (entering context resolving)).1
        (lookup name (entering context resolving)).2 := by
  have notFact := notFact_of_recall_none unknown
  rw [recall_of_notFact notFact] at unknown
  simp only [Resolution.answer, notFact, unknown, entered]
  rfl

end answers

/-- What working in a context does to it: it remembers more and is otherwise as before. -/
structure Advances (engine : Engine) (facts : Facts) (interner : Interner)
    (before after : Context) : Prop where
  coherent : Coherent engine facts interner after
  resolving : after.resolving = before.resolving
  within : before.recall.Within after.recall

theorem Advances.trans {first second third : Context}
    (left : Advances engine facts interner first second)
    (right : Advances engine facts interner second third) :
    Advances engine facts interner first third where
  coherent := right.coherent
  resolving := right.resolving.trans left.resolving
  within := left.within.trans right.within

def Remembers (engine : Engine) (facts : Facts) (interner : Interner) (ask : Ask) : Prop :=
  ∀ name context, Coherent engine facts interner context →
    Advances engine facts interner context (ask name context).2 ∧
      ∀ answer, (ask name context).1 = .ok answer →
        (ask name context).2.recall name = some answer

theorem Remembers.perform {ask : Ask} (remembers : Remembers engine facts interner ask) {α : Type}
    (inquiry : Inquiry α) {context : Context} (coherent : Coherent engine facts interner context) :
    Advances engine facts interner context (perform ask inquiry context).2 ∧
      ∀ value, (Inquiry.perform ask inquiry context).1 = .ok value →
        inquiry.result? (Inquiry.perform ask inquiry context).2.recall = some value := by
  induction inquiry generalizing context with
  | done outcome =>
      refine ⟨⟨coherent, rfl, .refl _⟩, fun value succeeded => ?_⟩
      simp only [Inquiry.perform] at succeeded
      simp [succeeded, result?]
  | ask name next ih =>
      obtain ⟨advances, known⟩ := remembers name context coherent
      simp only [Inquiry.perform, result?]
      generalize ask name context = outcome at advances known
      obtain ⟨_ | answer, after⟩ := outcome
      · exact ⟨advances, by simp⟩
      · obtain ⟨later, found⟩ := ih answer advances.coherent
        refine ⟨advances.trans later, fun value succeeded => ?_⟩
        rw [later.within name answer (known answer rfl)]
        exact found value succeeded

theorem coherent_entering {context : Context} (coherent : Coherent engine facts interner context)
    (resolving : ResolvingStack) :
    Coherent engine facts interner (entering context resolving) :=
  coherent.congr (fun _ => rfl) rfl

theorem coherent_finish {after : Context} {name : String}
    {outcome : Except RuleError (Option Value)} (coherent : Coherent engine facts interner after)
    (notFact : facts.find? name = none)
    (found : ∀ answer, outcome = .ok answer →
      (ofLookup engine facts interner name).result? after.recall = some answer) :
    Coherent engine facts interner (Resolution.finish name outcome after).2 ∧
      after.recall.Within (Resolution.finish name outcome after).2.recall ∧
      ∀ answer, (Resolution.finish name outcome after).1 = .ok answer →
        (Resolution.finish name outcome after).2.recall name = some answer := by
  cases outcome with
  | error error => exact ⟨coherent.congr (fun _ => rfl) rfl, .refl _, by simp [Resolution.finish]⟩
  | ok answer =>
      obtain ⟨remembered, within, known⟩ := coherent.remember
        (Resolution.finish name (.ok answer) after).2 rfl rfl notFact (found answer rfl)
      refine ⟨remembered, within, fun other succeeded => ?_⟩
      rw [← Except.ok.inj succeeded]
      exact known

theorem resolving_finish {name : String} {outcome : Except RuleError (Option Value)}
    {after : Context} :
    (Resolution.finish name outcome after).2.resolving = after.resolving.leave.2 := by
  cases outcome <;> rfl

theorem notFact_of_unknown {context : Context} (coherent : Coherent engine facts interner context)
    {name : String} (unknown : context.recall name = none) : facts.find? name = none := by
  rw [← coherent.sameFacts]
  exact notFact_of_recall_none unknown

theorem remembers_answer {lookup : Ask}
    (lookups : ∀ name context, Coherent engine facts interner context →
      Advances engine facts interner context (lookup name context).2 ∧
        ∀ answer, (lookup name context).1 = .ok answer →
          (ofLookup engine facts interner name).result? (lookup name context).2.recall =
            some answer) :
    Remembers engine facts interner (Resolution.answer engine.settings lookup) := by
  intro name context coherent
  cases known : context.recall name with
  | some answer =>
      rw [answer_of_recall known]
      exact ⟨⟨coherent, rfl, .refl _⟩, fun other succeeded => by
        rw [← Except.ok.inj succeeded]
        exact known⟩
  | none =>
      cases entered : context.resolving.enter engine.settings name with
      | error error =>
          rw [answer_of_refused known entered]
          exact ⟨⟨coherent.congr (fun _ => rfl) rfl, rfl, .refl _⟩, by simp⟩
      | ok resolving =>
          rw [answer_of_entered known entered]
          obtain ⟨advances, found⟩ := lookups name _ (coherent_entering coherent resolving)
          obtain ⟨remembered, within, recalled⟩ := coherent_finish advances.coherent
            (notFact_of_unknown coherent known) found
          refine ⟨⟨remembered, ?_, advances.within.trans within⟩, recalled⟩
          rw [resolving_finish, advances.resolving]
          exact congrArg Prod.snd (ResolvingStack.leave_of_enter entered)

theorem remembers_askWithin (remaining : Nat) :
    Remembers engine facts interner (askWithin engine facts interner remaining) := by
  induction remaining with
  | zero =>
      refine remembers_answer fun name context coherent => ?_
      exact ⟨⟨coherent, rfl, .refl _⟩, fun answer succeeded => by cases succeeded⟩
  | succ remaining ih =>
      exact remembers_answer fun name context coherent => ih.perform _ coherent

theorem askWithin_of_recall (remaining : Nat) {name : String} {context : Context}
    {answer : Option Value} (known : context.recall name = some answer) :
    askWithin engine facts interner remaining name context = (.ok answer, context) := by
  cases remaining with
  | zero => exact answer_of_recall known
  | succ remaining => exact answer_of_recall known

theorem perform_of_result (remaining : Nat) {α : Type} {inquiry : Inquiry α} {context : Context}
    {value : α} (found : inquiry.result? context.recall = some value) :
    perform (askWithin engine facts interner remaining) inquiry context = (.ok value, context) := by
  induction inquiry with
  | done outcome =>
      cases outcome with
      | error error => simp [result?] at found
      | ok other =>
          simp only [result?, Option.some.injEq] at found
          rw [perform, found]
  | ask name next ih =>
      simp only [result?] at found
      cases known : context.recall name with
      | none => simp [known] at found
      | some answer =>
          simp only [perform, askWithin_of_recall remaining known]
          exact ih answer (by simpa [known] using found)

theorem recall_finish_of_ne {name other : String} {outcome : Except RuleError (Option Value)}
    {after : Context} (differs : other ≠ name) :
    (Resolution.finish name outcome after).2.recall other = after.recall other := by
  cases outcome with
  | error error => rfl
  | ok answer =>
      change (match after.facts.find? other with
        | some fact => some (some fact)
        | none => (after.answers.insert name answer).find? other) = _
      rw [Table.find?_insert_of_ne _ _ differs]
      rfl

theorem result_of_known {context : Context} (coherent : Coherent engine facts interner context)
    {name : String} {answer : Option Value} (notFact : facts.find? name = none)
    (known : context.recall name = some answer) :
    (ofLookup engine facts interner name).result? context.recall = some answer := by
  rw [← coherent.sameFacts] at notFact
  rw [recall_of_notFact notFact] at known
  exact coherent.closed name answer known

section

variable {poor rich : Context}

theorem within_answer {lookup : Ask} {name : String} {answer : Option Value}
    (remembers : Remembers engine facts interner (Resolution.answer engine.settings lookup))
    (poorCoherent : Coherent engine facts interner poor)
    (richCoherent : Coherent engine facts interner rich) (within : poor.recall.Within rich.recall)
    (known : rich.recall name = some answer)
    (inside : ∀ resolving, facts.find? name = none →
      (lookup name (entering poor resolving)).2.recall.Within rich.recall) :
    (Resolution.answer engine.settings lookup name poor).2.recall.Within rich.recall := by
  have coherent := (remembers name poor poorCoherent).1.coherent
  cases unknown : poor.recall name with
  | some found =>
      rw [answer_of_recall unknown]
      exact within
  | none =>
      cases entered : poor.resolving.enter engine.settings name with
      | error error =>
          rw [answer_of_refused unknown entered]
          exact within
      | ok resolving =>
          intro other different found
          by_cases same : other = name
          · subst other
            rw [coherent.recall_unique richCoherent found known]
            exact known
          · rw [answer_of_entered unknown entered, recall_finish_of_ne same] at found
            exact inside resolving (notFact_of_unknown poorCoherent unknown) other different found

theorem within_perform {ask : Ask} (remembers : Remembers engine facts interner ask)
    (richCoherent : Coherent engine facts interner rich)
    (asks : ∀ name answer poor, Coherent engine facts interner poor →
      poor.recall.Within rich.recall → rich.recall name = some answer →
      (ask name poor).2.recall.Within rich.recall)
    {α : Type} {inquiry : Inquiry α} {value : α} (poorCoherent : Coherent engine facts interner poor)
    (within : poor.recall.Within rich.recall) (found : inquiry.result? rich.recall = some value) :
    (perform ask inquiry poor).2.recall.Within rich.recall := by
  induction inquiry generalizing poor with
  | done outcome => exact within
  | ask name next ih =>
      simp only [result?] at found
      cases known : rich.recall name with
      | none => simp [known] at found
      | some answer =>
          simp only [known] at found
          have inside := asks name answer poor poorCoherent within known
          obtain ⟨advances, recalled⟩ := remembers name poor poorCoherent
          simp only [perform]
          generalize ask name poor = outcome at inside advances recalled
          obtain ⟨_ | other, after⟩ := outcome
          · exact inside
          · have same := advances.coherent.recall_unique richCoherent (recalled other rfl) known
            subst other
            exact ih answer advances.coherent inside found

theorem within_askWithin (remaining : Nat) {name : String} {answer : Option Value}
    (poorCoherent : Coherent engine facts interner poor)
    (richCoherent : Coherent engine facts interner rich) (within : poor.recall.Within rich.recall)
    (known : rich.recall name = some answer) :
    (askWithin engine facts interner remaining name poor).2.recall.Within rich.recall := by
  have remembers (remaining : Nat) :
      Remembers engine facts interner (askWithin engine facts interner remaining) :=
    remembers_askWithin remaining
  induction remaining generalizing name poor answer with
  | zero =>
      exact within_answer (remembers 0) poorCoherent richCoherent within known fun _ _ => within
  | succ remaining ih =>
      refine within_answer (remembers (remaining + 1)) poorCoherent richCoherent within known ?_
      intro resolving notFact
      exact within_perform (remembers remaining) richCoherent
        (fun _ _ _ coherent within known => ih coherent within known)
        (coherent_entering poorCoherent resolving) within
        (result_of_known richCoherent notFact known)

theorem finish_fst (name : String) (outcome : Except RuleError (Option Value)) (after : Context) :
    (Resolution.finish name outcome after).1 = outcome := by
  cases outcome <;> rfl

theorem follows_answer {lookup : Ask} {name : String} {answer : Option Value}
    (remembers : Remembers engine facts interner (Resolution.answer engine.settings lookup))
    (poorCoherent : Coherent engine facts interner poor)
    (richCoherent : Coherent engine facts interner rich) (within : poor.recall.Within rich.recall)
    (sameStack : rich.resolving = poor.resolving)
    (answered : (Resolution.answer engine.settings lookup name poor).1 = .ok answer)
    (inside : ∀ known, rich.recall name = some known →
      (Resolution.answer engine.settings lookup name poor).2.recall.Within rich.recall)
    (follows : ∀ resolving, (lookup name (entering poor resolving)).1 = .ok answer →
      (lookup name (entering rich resolving)).1 = .ok answer ∧
        (lookup name (entering poor resolving)).2.recall.Within
          (lookup name (entering rich resolving)).2.recall) :
    (Resolution.answer engine.settings lookup name rich).1 = .ok answer ∧
      (Resolution.answer engine.settings lookup name poor).2.recall.Within
        (Resolution.answer engine.settings lookup name rich).2.recall := by
  have poorKnows := (remembers name poor poorCoherent).2 answer answered
  cases richKnows : rich.recall name with
  | some known =>
      have again := inside known richKnows
      rw [answer_of_recall richKnows]
      have same := Option.some.inj (richKnows.symm.trans (again name answer poorKnows))
      exact ⟨by rw [same], again⟩
  | none =>
      have unknown : poor.recall name = none := by
        cases found : poor.recall name with
        | none => rfl
        | some known => simp [within name known found] at richKnows
      cases entered : poor.resolving.enter engine.settings name with
      | error error => simp [answer_of_refused unknown entered] at answered
      | ok resolving =>
          have richEntered : rich.resolving.enter engine.settings name = .ok resolving := by
            rw [sameStack]
            exact entered
          have richRemembers := (remembers name rich richCoherent).2
          rw [answer_of_entered unknown entered, finish_fst] at answered
          obtain ⟨richAnswered, richWithin⟩ := follows resolving answered
          rw [answer_of_entered richKnows richEntered, finish_fst] at richRemembers ⊢
          refine ⟨richAnswered, fun other different found => ?_⟩
          by_cases same : other = name
          · subst other
            rw [← Option.some.inj (poorKnows.symm.trans found)]
            exact richRemembers answer richAnswered
          · rw [answer_of_entered unknown entered, recall_finish_of_ne same] at found
            rw [recall_finish_of_ne same]
            exact richWithin other different found

theorem follows_perform {ask : Ask} (remembers : Remembers engine facts interner ask)
    (asks : ∀ name answer poor rich, Coherent engine facts interner poor →
      Coherent engine facts interner rich → poor.recall.Within rich.recall →
      rich.resolving = poor.resolving → (ask name poor).1 = .ok answer →
      (ask name rich).1 = .ok answer ∧ (ask name poor).2.recall.Within (ask name rich).2.recall)
    {α : Type} {inquiry : Inquiry α} {value : α} (poorCoherent : Coherent engine facts interner poor)
    (richCoherent : Coherent engine facts interner rich) (within : poor.recall.Within rich.recall)
    (sameStack : rich.resolving = poor.resolving)
    (succeeded : (perform ask inquiry poor).1 = .ok value) :
    (perform ask inquiry rich).1 = .ok value ∧
      (perform ask inquiry poor).2.recall.Within (perform ask inquiry rich).2.recall := by
  induction inquiry generalizing poor rich with
  | done outcome => exact ⟨succeeded, within⟩
  | ask name next ih =>
      have poorAdvances := (remembers name poor poorCoherent).1
      have richAdvances := (remembers name rich richCoherent).1
      have follows := fun answer => asks name answer poor rich poorCoherent richCoherent within
        sameStack
      simp only [perform] at succeeded ⊢
      generalize ask name poor = poorOutcome at succeeded follows poorAdvances ⊢
      generalize ask name rich = richOutcome at follows richAdvances ⊢
      obtain ⟨_ | answer, poorAfter⟩ := poorOutcome
      · simp at succeeded
      · obtain ⟨richAnswered, richWithin⟩ := follows answer rfl
        obtain ⟨richAnswer, richAfter⟩ := richOutcome
        simp only at richAnswered
        subst richAnswered
        exact ih answer poorAdvances.coherent richAdvances.coherent richWithin
          (by rw [richAdvances.resolving, poorAdvances.resolving, sameStack]) succeeded

/-- A context that knows more gives every answer that one gives which knows less. -/
theorem follows_askWithin (remaining : Nat) {name : String} {answer : Option Value}
    (poorCoherent : Coherent engine facts interner poor)
    (richCoherent : Coherent engine facts interner rich) (within : poor.recall.Within rich.recall)
    (sameStack : rich.resolving = poor.resolving)
    (answered : (askWithin engine facts interner remaining name poor).1 = .ok answer) :
    (askWithin engine facts interner remaining name rich).1 = .ok answer ∧
      (askWithin engine facts interner remaining name poor).2.recall.Within
        (askWithin engine facts interner remaining name rich).2.recall := by
  have remembers (remaining : Nat) :
      Remembers engine facts interner (askWithin engine facts interner remaining) :=
    remembers_askWithin remaining
  induction remaining generalizing name poor rich answer with
  | zero =>
      refine follows_answer (remembers 0) poorCoherent richCoherent within sameStack answered
        (fun _ known => within_askWithin 0 poorCoherent richCoherent within known) ?_
      intro resolving failed
      cases failed
  | succ remaining ih =>
      refine follows_answer (remembers (remaining + 1)) poorCoherent richCoherent within sameStack
        answered
        (fun _ known => within_askWithin (remaining + 1) poorCoherent richCoherent within known) ?_
      intro resolving succeeded
      exact follows_perform (remembers remaining)
        (fun _ _ _ _ coherent richCoherent within sameStack answered =>
          ih coherent richCoherent within sameStack answered)
        (coherent_entering poorCoherent resolving) (coherent_entering richCoherent resolving)
        within rfl succeeded

end

def Reaches {α : Type} (engine : Engine) (outcome : Except RuleError α) (value : α) : Prop :=
  outcome = .ok value ∨
    ∃ target, outcome = .error (.depthExceeded engine.settings.maxLookupDepth target)

theorem reaches_perform {ask : Ask} (remembers : Remembers engine facts interner ask)
    {known : Known} {stack : ResolvingStack}
    (asks : ∀ name answer context, Coherent engine facts interner context →
      context.resolving = stack → known name = some answer →
      Reaches engine (ask name context).1 answer)
    {α : Type} {inquiry : Inquiry α} {value : α} {context : Context}
    (coherent : Coherent engine facts interner context) (held : context.resolving = stack)
    (found : inquiry.result? known = some value) :
    Reaches engine (perform ask inquiry context).1 value := by
  induction inquiry generalizing context with
  | done outcome =>
      cases outcome with
      | error error => simp [result?] at found
      | ok other => exact Or.inl (congrArg Except.ok (Option.some.inj found))
  | ask name next ih =>
      simp only [result?] at found
      cases answered : known name with
      | none => simp [answered] at found
      | some answer =>
          simp only [answered] at found
          have reaches := asks name answer context coherent held answered
          have advances := (remembers name context coherent).1
          simp only [perform]
          generalize ask name context = outcome at reaches advances
          obtain ⟨result, after⟩ := outcome
          rcases reaches with succeeded | ⟨target, failed⟩
          · simp only at succeeded
            subst succeeded
            exact ih answer advances.coherent (advances.resolving.trans held) found
          · simp only at failed
            subst failed
            exact Or.inr ⟨target, rfl⟩

/-- No cycle is met on the way to an answer: whatever is in progress needs more rounds than what is
asked for. -/
theorem reaches_askWithin (rounds remaining : Nat) {name : String} {answer : Option Value}
    {context : Context} (coherent : Coherent engine facts interner context)
    (answered : answeredIn engine facts interner rounds name = some answer)
    (later : ∀ other ∈ context.resolving.names,
      answeredIn engine facts interner rounds other = none) :
    Reaches engine (askWithin engine facts interner remaining name context).1 answer := by
  induction rounds generalizing remaining name answer context with
  | zero =>
      have known : context.recall name = some answer := by
        simp only [answeredIn, Option.map_eq_some_iff] at answered
        obtain ⟨fact, found, rfl⟩ := answered
        rw [← coherent.sameFacts] at found
        exact recall_of_fact found
      rw [askWithin_of_recall remaining known]
      exact Or.inl rfl
  | succ rounds ih =>
      have before : ∀ other ∈ context.resolving.names,
          answeredIn engine facts interner rounds other = none := by
        intro other member
        cases found : answeredIn engine facts interner rounds other with
        | none => rfl
        | some early =>
            have := answeredIn_succ rounds other early found
            simp [later other member] at this
      cases early : answeredIn engine facts interner rounds name with
      | some known =>
          rw [answeredIn_unique answered early]
          exact ih remaining coherent early before
      | none =>
          cases known : context.recall name with
          | some other =>
              obtain ⟨more, grounded⟩ := coherent.grounded
              rw [askWithin_of_recall remaining known,
                answeredIn_unique (grounded name other known) answered]
              exact Or.inl rfl
          | none =>
              have notFact := notFact_of_unknown coherent known
              have found : (ofLookup engine facts interner name).result?
                  (answeredIn engine facts interner rounds) = some answer := by
                simpa [answeredIn, notFact] using answered
              cases entered : context.resolving.enter engine.settings name with
              | error error =>
                  have outcome : (askWithin engine facts interner remaining name context).1 =
                      .error error := by
                    cases remaining <;> exact congrArg Prod.fst (answer_of_refused known entered)
                  rcases ResolvingStack.enter_eq_error entered with ⟨member, _⟩ | full
                  · simp [later name member] at answered
                  · rw [outcome, full]
                    exact Or.inr ⟨name, rfl⟩
              | ok resolving =>
                  cases remaining with
                  | zero =>
                      refine Or.inr ⟨name, ?_⟩
                      simp only [askWithin, answer_of_entered known entered, finish_fst]
                      rfl
                  | succ remaining =>
                      simp only [askWithin, answer_of_entered known entered, finish_fst]
                      have held : (entering context resolving).resolving = resolving := rfl
                      refine reaches_perform (remembers_askWithin remaining) ?_
                        (coherent_entering coherent resolving) held found
                      intro inner innerAnswer innerContext innerCoherent held innerAnswered
                      refine ih remaining innerCoherent innerAnswered ?_
                      intro other member
                      rw [held, ResolvingStack.enter_eq_ok entered] at member
                      rcases List.mem_cons.1 member with same | outer
                      · rw [same]
                        exact early
                      · exact before other outer

end Inquiry

end FactRules
