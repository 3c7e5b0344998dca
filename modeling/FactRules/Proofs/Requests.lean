import FactRules.Proofs.Positive
import FactRules.Proofs.RoundTrip
import FactRules.Proofs.Traces

/-!
Requests for shared conditions, of any kinds and in any order. All that they do is to intern one
draft after another. Where the keys and literals that they bring along can be read back, so can
every draft, and no answer differs from its draft.
-/

namespace FactRules

namespace SharedCondition

open Interner

section

variable {readable : Prop} {α β ε : Type} {interner : Interner}

/-- From this interner the work only interns, and its outcome has a property. Where what it is about
is readable, so is all that it asks for, and the interner stays faithful. -/
structure Interns (readable : Prop) (result : Interner → α → Prop) (work : StateM Interner α)
    (interner : Interner) : Prop where
  traced : ∃ steps, Trace work interner steps ∧
    (readable → ∀ step ∈ steps, step.asked.condition.Printable)
  faithful : readable → (work interner).2.Faithful
  result : result (work interner).2 (work interner).1

namespace Interns

variable {result : Interner → α → Prop} {final : Interner → β → Prop}

theorem pure {value : α} (faithful : readable → interner.Faithful)
    (isResult : result interner value) : Interns readable result (Pure.pure value) interner :=
  ⟨⟨[], .pure value interner, fun _ _ member => nomatch member⟩, faithful, isResult⟩

theorem intern {draft : SharedCondition} (faithful : readable → interner.Faithful)
    (printable : readable → draft.condition.Printable) :
    Interns readable (fun _ shared => readable → shared.condition = draft.condition)
      (intern draft) interner := by
  refine ⟨⟨_, .intern draft interner, ?_⟩, ?_, ?_⟩
  · intro isReadable step member
    rw [List.mem_singleton.1 member]
    exact printable isReadable
  · intro isReadable
    exact (faithful isReadable).intern (printable isReadable)
  · intro isReadable
    exact (faithful isReadable).condition_intern (printable isReadable)

theorem bind {work : StateM Interner α} {next : α → StateM Interner β}
    (first : Interns readable result work interner)
    (later : ∀ value after, after.Extends interner → (readable → after.Faithful) →
      result after value → Interns readable final (next value) after) :
    Interns readable final (work >>= next) interner := by
  obtain ⟨⟨front, trace, printable⟩, faithful, isResult⟩ := first
  obtain ⟨⟨back, traceLater, printableLater⟩, faithfulLater, isFinal⟩ :=
    later _ _ trace.extends faithful isResult
  refine ⟨⟨front ++ back, trace.bind traceLater, ?_⟩, faithfulLater, isFinal⟩
  intro isReadable
  exact List.forall_mem_append.2 ⟨printable isReadable, printableLater isReadable⟩

theorem imp {work : StateM Interner α} {other : Interner → α → Prop}
    (interns : Interns readable result work interner)
    (weaker : ∀ after value, result after value → other after value) :
    Interns readable other work interner :=
  ⟨interns.traced, interns.faithful, weaker _ _ interns.result⟩

end Interns

def InternsOk (readable : Prop) (result : Interner → α → Prop) (work : Sharing ε α)
    (interner : Interner) : Prop :=
  Interns readable (fun after outcome => ∀ value, outcome = .ok value → result after value) work
    interner

namespace InternsOk

variable {result : Interner → α → Prop} {final : Interner → β → Prop}

theorem pure {value : α} (faithful : readable → interner.Faithful)
    (isResult : result interner value) :
    InternsOk readable result (Pure.pure value : Sharing ε α) interner := by
  refine Interns.pure faithful ?_
  rintro _ ⟨⟩
  exact isResult

theorem throw (faithful : readable → interner.Faithful) (error : ε) :
    InternsOk readable result (MonadExcept.throw error : Sharing ε α) interner :=
  Interns.pure faithful nofun

theorem bind {work : Sharing ε α} {next : α → Sharing ε β}
    (first : InternsOk readable result work interner)
    (later : ∀ value after, after.Extends interner → (readable → after.Faithful) →
      result after value → InternsOk readable final (next value) after) :
    InternsOk readable final (work >>= next) interner := by
  change Interns readable _ ((work : StateM Interner (Except ε α)) >>= ExceptT.bindCont next) _
  refine Interns.bind first ?_
  intro outcome after grows faithful isResult
  cases outcome with
  | error error => exact Interns.pure faithful nofun
  | ok value => exact later value after grows faithful (isResult value rfl)

theorem lift {work : StateM Interner α} (interns : Interns readable result work interner) :
    InternsOk readable result (liftM work : Sharing ε α) interner := by
  change Interns readable _ (work >>= fun value => Pure.pure (Except.ok value)) _
  refine Interns.bind interns ?_
  intro value after _ faithful isResult
  refine Interns.pure faithful ?_
  rintro _ ⟨⟩
  exact isResult

theorem judges (readable : Prop) :
    Judges (fun interner => readable → interner.Faithful) (InternsOk readable) where
  pure faithful isResult := InternsOk.pure faithful isResult
  throw faithful error := InternsOk.throw faithful error
  bind first later := first.bind later

end InternsOk

theorem interns_combine (faithful : readable → interner.Faithful) {left right : Operand}
    (leftFormed : readable → WellFormedOperand left)
    (rightFormed : readable → WellFormedOperand right) (operator : Pending) :
    InternsOk readable (fun _ shared => readable → WellFormedOperand (.condition shared))
      (combine operator left right) interner := by
  rcases combine_cases operator left right with ⟨draft, drafts, interns⟩ | ⟨error, fails⟩
  · rw [interns]
    have wellFormed := fun isReadable =>
      drafts.wellFormed (leftFormed isReadable) (rightFormed isReadable)
    have asked := Interns.intern faithful fun isReadable => (wellFormed isReadable).printable
    refine InternsOk.lift (asked.imp ?_)
    intro _ shared like isReadable
    rw [WellFormedOperand, like isReadable]
    exact wellFormed isReadable
  · rw [fails]
    exact InternsOk.throw faithful error

theorem invariant_interns (readable : Prop) :
    Invariant (fun interner => readable → interner.Faithful) (InternsOk readable)
      fun _ operand => readable → WellFormedOperand operand where
  toJudges := InternsOk.judges readable
  grows _ _ formed := formed
  marker _ _ := trivial
  key _ _ isKey _ := isKey
  literal _ _ printable _ := printable
  combine faithful leftFormed rightFormed operator :=
    interns_combine faithful leftFormed rightFormed operator

def Readably (readable : Prop) (_ : Interner) (shared : SharedCondition) : Prop :=
  readable → shared.condition.Printable

theorem interns_draft {draft : SharedCondition} (faithful : readable → interner.Faithful)
    (printable : readable → draft.condition.Printable) :
    Interns readable (Readably readable) (intern draft) interner := by
  refine (Interns.intern faithful printable).imp ?_
  intro _ shared like isReadable
  rw [like isReadable]
  exact printable isReadable

def AllReadably (readable : Prop) (count : Nat) (_ : Interner) (terms : List SharedCondition) :
    Prop :=
  terms.length = count ∧ (readable → Condition.AllPrintable (conditions terms))

theorem interns_node (junction : Junction) (faithful : readable → interner.Faithful) {count : Nat}
    {terms : List SharedCondition} (several : readable → 2 ≤ count)
    (printable : AllReadably readable count interner terms) :
    Interns readable (Readably readable) (intern (junction.shared 0 terms)) interner := by
  refine interns_draft faithful ?_
  intro isReadable
  rw [junction.condition_shared, junction.printable_node, conditions_eq_map, List.length_map,
    printable.1, ← conditions_eq_map]
  exact ⟨several isReadable, printable.2 isReadable⟩

theorem interns_comparison {comparison : Comparison} (faithful : readable → interner.Faithful)
    (printable : readable → comparison.Printable) :
    Interns readable (Readably readable) (internLeaf comparison) interner :=
  interns_draft faithful printable

mutual

theorem interns_pushed {inverted : Bool} : (shared : SharedCondition) → {interner : Interner} →
    (readable → interner.Faithful) → (readable → shared.condition.Printable) →
    InternsOk readable (Readably readable) (shared.pushed inverted) interner
  | .leaf identity comparison, interner, faithful, printable => by
      cases inverted with
      | false => exact InternsOk.pure faithful printable
      | true =>
          rw [pushed]
          cases negates : comparison.negation with
          | error error => exact InternsOk.throw faithful error
          | ok negation =>
              exact InternsOk.lift (interns_comparison faithful fun isReadable =>
                (printable isReadable).negation negates)
  | .all identity terms, interner, faithful, printable =>
      interns_pushed_node .all identity terms faithful printable
  | .any identity terms, interner, faithful, printable =>
      interns_pushed_node .any identity terms faithful printable
  | .not identity inner, interner, faithful, printable => interns_pushed inner faithful printable

theorem interns_pushed_node {inverted : Bool} (junction : Junction) (identity : Nat)
    (terms : List SharedCondition) {interner : Interner} (faithful : readable → interner.Faithful)
    (printable : readable → (junction.node (conditions terms)).Printable) :
    InternsOk readable (Readably readable) ((junction.shared identity terms).pushed inverted)
      interner := by
  have parts := fun isReadable => junction.printable_node.1 (printable isReadable)
  rw [junction.pushed_shared]
  refine (interns_pushedTerms terms faithful fun isReadable => (parts isReadable).2).bind ?_
  intro pushed after _ faithfulAfter printableAfter
  refine InternsOk.lift (interns_node _ faithfulAfter ?_ printableAfter)
  intro isReadable
  have several := (parts isReadable).1
  rwa [conditions_eq_map, List.length_map] at several

theorem interns_pushedTerms {inverted : Bool} : (terms : List SharedCondition) →
    {interner : Interner} → (readable → interner.Faithful) →
    (readable → Condition.AllPrintable (conditions terms)) →
    InternsOk readable (AllReadably readable terms.length) (pushedTerms inverted terms) interner
  | [], interner, faithful, _ => InternsOk.pure faithful ⟨rfl, fun _ => trivial⟩
  | term :: terms, interner, faithful, printable => by
      rw [pushedTerms]
      refine (interns_pushed term faithful fun isReadable => (printable isReadable).1).bind ?_
      intro first after _ faithfulAfter firstPrintable
      refine (interns_pushedTerms terms faithfulAfter
        fun isReadable => (printable isReadable).2).bind ?_
      intro others final _ faithfulFinal othersPrintable
      refine InternsOk.pure faithfulFinal ⟨congrArg Nat.succ othersPrintable.1, ?_⟩
      intro isReadable
      exact ⟨firstPrintable isReadable, othersPrintable.2 isReadable⟩

end

def ReadablePair (pair : String × Value) : Prop :=
  IsKey pair.1 ∧ (Literal.ofValue pair.2).Printable

theorem interns_equalities : (pairs : List (String × Value)) → {interner : Interner} →
    (readable → interner.Faithful) → (readable → ∀ pair ∈ pairs, ReadablePair pair) →
    Interns readable (AllReadably readable pairs.length) (equalities pairs) interner
  | [], interner, faithful, _ => Interns.pure faithful ⟨rfl, fun _ => trivial⟩
  | (key, value) :: pairs, interner, faithful, readablePairs => by
      have printable : readable → (Comparison.keyLiteral key .equal (.ofValue value)).Printable :=
        fun isReadable => readablePairs isReadable _ List.mem_cons_self
      rw [equalities]
      refine (interns_comparison faithful printable).bind ?_
      intro term after _ faithfulAfter termPrintable
      refine (interns_equalities pairs faithfulAfter fun isReadable pair member =>
        readablePairs isReadable pair (List.mem_cons_of_mem _ member)).bind ?_
      intro terms final _ faithfulFinal termsPrintable
      refine Interns.pure faithfulFinal ⟨congrArg Nat.succ termsPrintable.1, ?_⟩
      intro isReadable
      exact ⟨termPrintable isReadable, termsPrintable.2 isReadable⟩

theorem interns_always (faithful : readable → interner.Faithful) :
    Interns readable (Readably readable) always interner :=
  interns_comparison faithful fun _ => ⟨trivial, trivial⟩

theorem interns_never (faithful : readable → interner.Faithful) :
    Interns readable (Readably readable) never interner :=
  interns_comparison faithful fun _ => ⟨trivial, trivial⟩

def gathered (junction : Junction) (nothing : StateM Interner SharedCondition) :
    List SharedCondition → StateM Interner SharedCondition
  | [] => nothing
  | [term] => Pure.pure term
  | terms => intern (junction.shared 0 terms)

theorem matchAll_eq (pairs : List (String × Value)) :
    matchAll pairs = equalities pairs >>= gathered .all always := rfl

theorem matchAny_eq (pairs : List (String × Value)) :
    matchAny pairs = equalities pairs >>= gathered .any never := rfl

theorem interns_gathered (junction : Junction) {nothing : StateM Interner SharedCondition}
    (internsNothing : ∀ after, (readable → after.Faithful) →
      Interns readable (Readably readable) nothing after)
    {pairs : List (String × Value)} (faithful : readable → interner.Faithful)
    (readablePairs : readable → ∀ pair ∈ pairs, ReadablePair pair) :
    Interns readable (Readably readable) (equalities pairs >>= gathered junction nothing)
      interner := by
  refine (interns_equalities pairs faithful readablePairs).bind ?_
  intro terms after _ faithfulAfter printable
  match terms with
  | [] => exact internsNothing after faithfulAfter
  | [term] => exact Interns.pure faithfulAfter fun isReadable => (printable.2 isReadable).1
  | first :: second :: terms =>
      refine interns_node junction faithfulAfter (fun _ => ?_) printable
      rw [← printable.1]
      simp

end

/-- A request for a shared condition: from a text, from keys and values, or from conditions. -/
inductive Request where
  | parse (text : String) (bindings : List Value)
  | matchAll (pairs : List (String × Value))
  | matchAny (pairs : List (String × Value))
  | always
  | never
  | positive (shared : SharedCondition)
  | intern (draft : SharedCondition)

namespace Request

def run : Request → StateM Interner (Option SharedCondition)
  | .parse text bindings => Except.toOption <$> (SharedCondition.parse text bindings).run
  | .matchAll pairs => some <$> SharedCondition.matchAll pairs
  | .matchAny pairs => some <$> SharedCondition.matchAny pairs
  | .always => some <$> SharedCondition.always
  | .never => some <$> SharedCondition.never
  | .positive shared => Except.toOption <$> shared.positive.run
  | .intern draft => some <$> Interner.intern draft

def runAll : List Request → StateM Interner (List (Option SharedCondition))
  | [] => pure []
  | request :: requests => do
      let answer ← request.run
      let answers ← runAll requests
      pure (answer :: answers)

def Readable : Request → Prop
  | .parse _ _ => True
  | .matchAll pairs => ∀ pair ∈ pairs, ReadablePair pair
  | .matchAny pairs => ∀ pair ∈ pairs, ReadablePair pair
  | .always => True
  | .never => True
  | .positive shared => shared.condition.Printable
  | .intern draft => draft.condition.Printable

section

variable {readable : Prop} {interner : Interner}

theorem interns_map {α β : Type} {result : Interner → α → Prop} {work : StateM Interner α}
    (interns : Interns readable result work interner) (change : α → β) :
    Interns readable (fun _ _ => True) (change <$> work) interner := by
  change Interns readable _ (work >>= fun value => Pure.pure (change value)) _
  exact interns.bind fun _ _ _ faithful _ => Interns.pure faithful trivial

theorem interns_run (request : Request) (faithful : readable → interner.Faithful)
    (isReadable : readable → request.Readable) :
    Interns readable (fun _ _ => True) request.run interner := by
  cases request with
  | parse text bindings =>
      have interns := (invariant_interns readable).parse faithful text bindings
      exact interns_map interns _
  | matchAll pairs =>
      have interns := interns_gathered .all (fun _ => interns_always) faithful isReadable
      exact interns_map (matchAll_eq pairs ▸ interns) _
  | matchAny pairs =>
      have interns := interns_gathered .any (fun _ => interns_never) faithful isReadable
      exact interns_map (matchAny_eq pairs ▸ interns) _
  | always => exact interns_map (interns_always faithful) _
  | never => exact interns_map (interns_never faithful) _
  | positive shared => exact interns_map (interns_pushed shared faithful isReadable) _
  | intern draft => exact interns_map (interns_draft faithful isReadable) _

theorem interns_runAll (requests : List Request) (faithful : readable → interner.Faithful)
    (areReadable : readable → ∀ request ∈ requests, request.Readable) :
    Interns readable (fun _ _ => True) (runAll requests) interner := by
  induction requests generalizing interner with
  | nil => exact Interns.pure faithful trivial
  | cons request requests ih =>
      refine (interns_run request faithful
        fun isReadable => areReadable isReadable _ List.mem_cons_self).bind ?_
      intro _ after _ faithfulAfter _
      refine (ih faithfulAfter fun isReadable other member =>
        areReadable isReadable other (List.mem_cons_of_mem _ member)).bind ?_
      intro _ final _ faithfulFinal _
      exact Interns.pure faithfulFinal trivial

end

/-- Whatever is requested where nothing is known yet, each draft that is interned on the way is
answered with the first condition of its text. Where all that is requested is readable, that is a
condition like the draft, and what always holds is still what is asked for as such. -/
theorem answersFirst_runAll (nextIdentity : Nat) (requests : List Request) :
    ∃ steps, Trace (runAll requests) { nextIdentity, known := [] } steps ∧ AnswersFirst steps ∧
      ((∀ request ∈ requests, request.Readable) →
        (∀ step ∈ steps, step.answer.condition = step.asked.condition) ∧
        (SharedCondition.always (runAll requests { nextIdentity, known := [] }).2).1.condition =
          Condition.always ∧
        ∀ types object, Condition.always.evaluate types object = .ok true) := by
  have empty : ({ nextIdentity, known := [] } : Interner).Faithful := faithful_of_empty rfl
  have interns : Interns (∀ request ∈ requests, request.Readable) (fun _ _ => True)
      (runAll requests) { nextIdentity, known := [] } :=
    interns_runAll requests (fun _ => empty) id
  obtain ⟨⟨steps, trace, printable⟩, faithful, _⟩ := interns
  have answers := trace.answersFirst rfl
  refine ⟨steps, trace, answers, ?_⟩
  intro areReadable
  have alike := answers.alike Condition.textDetermines_printable (printable areReadable)
  refine ⟨alike, ?_, fun _ _ => rfl⟩
  exact (faithful areReadable).condition_intern ⟨trivial, trivial⟩

theorem answersFirst_runAll_rate : ∃ steps,
    Trace (runAll [.parse "rate = 1" [], .matchAny [("rate", .int 2), ("size", .null)], .always])
      { nextIdentity := 0, known := [] } steps ∧
    ∀ step ∈ steps, step.answer.condition = step.asked.condition := by
  have rate : IsKey "rate" := ⟨(Token.Scanned.step rfl rfl (.nil rfl)).scan_eq, rfl⟩
  have size : IsKey "size" := ⟨(Token.Scanned.step rfl rfl (.nil rfl)).scan_eq, rfl⟩
  obtain ⟨steps, trace, _, alike⟩ := answersFirst_runAll 0
    [.parse "rate = 1" [], .matchAny [("rate", .int 2), ("size", .null)], .always]
  have pairs : ∀ pair ∈ [("rate", Value.int 2), ("size", .null)], ReadablePair pair :=
    List.forall_mem_cons.2 ⟨⟨rate, trivial⟩, List.forall_mem_singleton.2 ⟨size, trivial⟩⟩
  refine ⟨steps, trace, (alike ?_).1⟩
  exact List.forall_mem_cons.2 ⟨trivial, List.forall_mem_cons.2 ⟨pairs,
    List.forall_mem_singleton.2 trivial⟩⟩

example : (SharedCondition.always (runAll [.matchAll [("true", .bool true)]]
    { nextIdentity := 0, known := [] }).2).1.condition =
      .leaf (.keyLiteral "true" .equal (.bool true)) := rfl

end Request

end SharedCondition

end FactRules
