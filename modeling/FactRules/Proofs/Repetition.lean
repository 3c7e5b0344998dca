import FactRules.Proofs.PlainEvaluation

/-!
Repeated failures. What is remembered when a call fails has been found before the failure, and the
attributes that failed on the way are still unknown. So the call fails again in the same way when it
is repeated at once.
-/

namespace FactRules

open Inquiry Resolution

section

variable {engine : Engine} {facts : Facts} {interner : Interner} {kept : Interner → Prop}

/-- A failed attempt to answer an attribute leaves it unknown. -/
def LeavesUnknown (engine : Engine) (facts : Facts) (interner : Interner) (ask : Ask) : Prop :=
  ∀ name context, Coherent engine facts interner context →
    ∀ error, (ask name context).1 = .error error → (ask name context).2.recall name = none

theorem LeavesUnknown.result?_perform {ask : Ask}
    (leaves : LeavesUnknown engine facts interner ask)
    (remembers : Remembers engine facts interner ask) {α : Type} {inquiry : Inquiry α}
    {context : Context} (coherent : Coherent engine facts interner context) {error : RuleError}
    (failed : (perform ask inquiry context).1 = .error error) :
    inquiry.result? (perform ask inquiry context).2.recall = none := by
  induction inquiry generalizing context with
  | done outcome =>
      obtain rfl : outcome = .error error := failed
      rfl
  | ask name next ih =>
      obtain ⟨advances, known⟩ := remembers name context coherent
      have unknown := leaves name context coherent
      simp only [perform, result?] at failed ⊢
      generalize ask name context = asked at failed advances known unknown ⊢
      obtain ⟨outcome, after⟩ := asked
      cases outcome with
      | error other => simp only [unknown other rfl]
      | ok answer =>
          have later := (remembers.perform (next answer) advances.coherent).1
          simp only [later.within name answer (known answer rfl)]
          exact ih answer advances.coherent failed

theorem leavesUnknown_answer {lookup : Ask}
    (lookups : ∀ name context, Coherent engine facts interner context →
      context.recall name = none → ∀ error, (lookup name context).1 = .error error →
        (lookup name context).2.recall name = none) :
    LeavesUnknown engine facts interner (answer engine.settings lookup) := by
  intro name context coherent error failed
  cases known : context.recall name with
  | some found =>
      rw [answer_of_recall known] at failed
      cases failed
  | none =>
      cases entered : context.resolving.enter engine.settings name with
      | error other =>
          rw [answer_of_refused known entered]
          exact known
      | ok resolving =>
          rw [answer_of_entered known entered, finish_fst] at failed
          rw [answer_of_entered known entered, failed]
          exact lookups name _ (coherent_entering coherent resolving) known error failed

theorem leavesUnknown_askWithin (remaining : Nat) :
    LeavesUnknown engine facts interner (askWithin engine facts interner remaining) := by
  induction remaining with
  | zero => exact leavesUnknown_answer fun _ _ _ unknown _ _ => unknown
  | succ remaining ih =>
      refine leavesUnknown_answer fun name context coherent unknown error failed => ?_
      have missing := notFact_of_unknown coherent unknown
      have remembers : Remembers engine facts interner _ := remembers_askWithin remaining
      have advances := (remembers.perform (ofLookup engine facts interner name) coherent).1
      have noResult := ih.result?_perform remembers coherent failed
      refine Option.eq_none_iff_forall_ne_some.2 fun answer known => ?_
      rw [result_of_known advances.coherent missing known] at noResult
      cases noResult

def FailsAgain (engine : Engine) (facts : Facts) (interner : Interner) (ask : Ask) : Prop :=
  ∀ name context again error, Coherent engine facts interner context →
    (ask name context).1 = .error error → again.recall = (ask name context).2.recall →
    again.resolving = context.resolving → (ask name again).1 = .error error

theorem FailsAgain.perform {remaining : Nat}
    (failsAgain : FailsAgain engine facts interner (askWithin engine facts interner remaining))
    {α : Type} {inquiry : Inquiry α} {context again : Context}
    (coherent : Coherent engine facts interner context) {error : RuleError}
    (failed : (perform (askWithin engine facts interner remaining) inquiry context).1 = .error error)
    (sameRecall : again.recall =
      (Inquiry.perform (askWithin engine facts interner remaining) inquiry context).2.recall)
    (sameStack : again.resolving = context.resolving) :
    (Inquiry.perform (askWithin engine facts interner remaining) inquiry again).1 =
      .error error := by
  induction inquiry generalizing context with
  | done outcome => exact failed
  | ask name next ih =>
      obtain ⟨advances, known⟩ := remembers_askWithin remaining name context coherent
      cases asked : askWithin engine facts interner remaining name context with
      | mk outcome after =>
          simp only [Inquiry.perform, asked] at failed sameRecall
          rw [asked] at advances known
          cases outcome with
          | error other =>
              obtain rfl : other = error := Except.error.inj failed
              have refused := failsAgain name context again other coherent
                (congrArg Prod.fst asked) (sameRecall.trans (by rw [asked])) sameStack
              simp only [Inquiry.perform]
              generalize askWithin engine facts interner remaining name again = repeated at refused ⊢
              obtain ⟨_, _⟩ := repeated
              cases refused
              rfl
          | ok answer =>
              have later := ((remembers_askWithin remaining).perform (next answer)
                advances.coherent).1
              have nowKnown : again.recall name = some answer :=
                sameRecall ▸ later.within name answer (known answer rfl)
              simp only [Inquiry.perform, askWithin_of_recall remaining nowKnown]
              exact ih answer advances.coherent failed sameRecall
                (sameStack.trans advances.resolving.symm)

theorem failsAgain_answer {lookup : Ask}
    (leaves : LeavesUnknown engine facts interner (answer engine.settings lookup))
    (lookups : FailsAgain engine facts interner lookup) :
    FailsAgain engine facts interner (answer engine.settings lookup) := by
  intro name context again error coherent failed sameRecall sameStack
  have unknown := leaves name context coherent error failed
  rw [← sameRecall] at unknown
  cases known : context.recall name with
  | some found =>
      rw [answer_of_recall known] at failed
      cases failed
  | none =>
      cases entered : context.resolving.enter engine.settings name with
      | error other =>
          rw [answer_of_refused known entered] at failed
          rw [answer_of_refused unknown (sameStack ▸ entered)]
          exact failed
      | ok resolving =>
          rw [answer_of_entered known entered] at failed sameRecall
          rw [finish_fst] at failed
          rw [failed] at sameRecall
          rw [answer_of_entered unknown (sameStack ▸ entered), finish_fst]
          exact lookups name _ _ error (coherent_entering coherent resolving) failed sameRecall rfl

theorem failsAgain_askWithin (remaining : Nat) :
    FailsAgain engine facts interner (askWithin engine facts interner remaining) := by
  induction remaining with
  | zero => exact failsAgain_answer (leavesUnknown_askWithin 0) fun _ _ _ _ _ failed _ _ => failed
  | succ remaining ih =>
      exact failsAgain_answer (leavesUnknown_askWithin (remaining + 1))
        fun _ _ _ _ coherent failed sameRecall sameStack =>
          ih.perform coherent failed sameRecall sameStack

theorem Context.Settled.fails_again {context : Context}
    (settled : context.Settled engine interner kept) {α : Type} {work other : Resolving α}
    {inquiry : Inquiry α} {remaining : Nat} (agree : AgreeAt {} work other)
    (showing : Shows engine context.facts interner kept remaining other inquiry)
    {error : RuleError} (failed : (work context).1 = .error error) :
    (work (work context).2).1 = .error error := by
  obtain ⟨same, idle⟩ := agree context settled.idle
  obtain ⟨shown, after⟩ := showing context context settled.mirrors
  have coherent := settled.mirrors.coherent
  have advances := ((remembers_askWithin remaining).perform inquiry coherent).1
  rw [(agree _ idle).1, same, (showing _ _ after).1]
  rw [same, shown] at failed
  exact (failsAgain_askWithin remaining).perform coherent failed rfl advances.resolving

end

end FactRules
