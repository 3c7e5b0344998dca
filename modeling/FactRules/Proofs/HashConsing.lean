import FactRules.Proofs.Requests

/-!
Hash-consing. Whatever is known is made of what is known, down to the leaves, and each known
condition has an identity of its own. So of everything that requests return, at any depth, there is
one instance for each text.
-/

namespace FactRules

namespace SharedCondition

theorem identity_withIdentity (identity : Nat) (shared : SharedCondition) :
    (shared.withIdentity identity).identity = identity := by
  cases shared <;> rfl

theorem children_withIdentity (identity : Nat) (shared : SharedCondition) :
    (shared.withIdentity identity).children = shared.children := by
  cases shared <;> rfl

inductive Contains (shared : SharedCondition) : SharedCondition → Prop where
  | itself : Contains shared shared
  | child {node child : SharedCondition} (contains : Contains shared node)
      (member : child ∈ node.children) : Contains shared child

end SharedCondition

namespace Interner

/-- This very condition is the one that is known for its text. -/
def Canonical (interner : Interner) (shared : SharedCondition) : Prop :=
  Table.find? interner.known shared.text = some shared

structure HashConsed (interner : Interner) : Prop where
  keyed : interner.Keyed
  children : ∀ name known, Table.find? interner.known name = some known →
    ∀ child ∈ known.children, interner.Canonical child
  recent : ∀ name known, Table.find? interner.known name = some known →
    known.identity < interner.nextIdentity
  apart : ∀ name known, Table.find? interner.known name = some known →
    ∀ other found, Table.find? interner.known other = some found →
      known.identity = found.identity → known = found

section

variable {interner : Interner} {shared : SharedCondition}

theorem hashConsed_of_empty (empty : interner.known = []) : interner.HashConsed := by
  constructor
  all_goals
    intro name known found
    simp [empty] at found

theorem Canonical.grows {later : Interner} (canonical : interner.Canonical shared)
    (grows : later.Extends interner) : later.Canonical shared :=
  grows _ _ canonical

theorem Keyed.canonical_intern (keyed : interner.Keyed) (draft : SharedCondition) :
    (Interner.intern draft interner).2.Canonical (Interner.intern draft interner).1 := by
  have found := find?_intern draft interner
  rw [← keyed.text_intern draft] at found
  exact found

namespace HashConsed

theorem contains (hashConsed : interner.HashConsed) (canonical : interner.Canonical shared)
    {node : SharedCondition} (contains : shared.Contains node) : interner.Canonical node := by
  induction contains with
  | itself => exact canonical
  | child _ member ih => exact hashConsed.children _ _ ih _ member

theorem identity_eq_iff (hashConsed : interner.HashConsed) {left right : SharedCondition}
    (leftCanonical : interner.Canonical left) (rightCanonical : interner.Canonical right) :
    left.identity = right.identity ↔ left.text = right.text := by
  constructor
  · intro same
    rw [hashConsed.apart _ _ leftCanonical _ _ rightCanonical same]
  · intro same
    rw [Canonical, same, rightCanonical] at leftCanonical
    rw [Option.some.inj leftCanonical]

theorem intern (hashConsed : interner.HashConsed) {draft : SharedCondition}
    (canonical : ∀ child ∈ draft.children, interner.Canonical child) :
    (Interner.intern draft interner).2.HashConsed := by
  have grows := intern_extends draft interner
  cases old : Table.find? interner.known draft.text with
  | some known =>
      rw [intern_known old]
      exact hashConsed
  | none =>
      have next : (Interner.intern draft interner).2.nextIdentity = interner.nextIdentity + 1 := by
        rw [intern_new old]
      constructor
      · exact hashConsed.keyed.intern draft
      · intro name known found child member
        rcases find?_intern_cases found with before | ⟨_, rfl⟩
        · exact (hashConsed.children name known before child member).grows grows
        · rw [SharedCondition.children_withIdentity] at member
          exact (canonical child member).grows grows
      · intro name known found
        rw [next]
        rcases find?_intern_cases found with before | ⟨_, rfl⟩
        · have recent := hashConsed.recent name known before
          omega
        · rw [SharedCondition.identity_withIdentity]
          omega
      · intro name known found other otherKnown otherFound same
        rcases find?_intern_cases found with before | ⟨_, rfl⟩ <;>
          rcases find?_intern_cases otherFound with otherBefore | ⟨_, rfl⟩
        · exact hashConsed.apart _ _ before _ _ otherBefore same
        · have recent := hashConsed.recent _ _ before
          rw [same, SharedCondition.identity_withIdentity] at recent
          omega
        · have recent := hashConsed.recent _ _ otherBefore
          rw [← same, SharedCondition.identity_withIdentity] at recent
          omega
        · rfl

end HashConsed

end

end Interner

namespace SharedCondition

open Interner

section

variable {ε α : Type} {held : Interner → Prop} {interner : Interner}

theorem Keeps.lift {result : Interner → α → Prop} {work : StateM Interner α}
    (grows : (work interner).2.Extends interner) (isHeld : held (work interner).2)
    (isResult : result (work interner).2 (work interner).1) :
    Keeps held result (liftM work : Sharing ε α) interner := by
  refine ⟨grows, isHeld, ?_⟩
  intro value same
  have isValue : (work interner).1 = value := Except.ok.inj same
  rw [← isValue]
  exact isResult

end

section

variable {ε : Type} {interner : Interner}

def AllCanonical (interner : Interner) (terms : List SharedCondition) : Prop :=
  ∀ term ∈ terms, interner.Canonical term

theorem canonical_draft (hashConsed : interner.HashConsed) {draft : SharedCondition}
    (canonical : AllCanonical interner draft.children) :
    Keeps HashConsed Canonical (liftM (intern draft) : Sharing ε SharedCondition) interner :=
  Keeps.lift (intern_extends draft interner) (hashConsed.intern canonical)
    (hashConsed.keyed.canonical_intern draft)

theorem canonical_leaf (hashConsed : interner.HashConsed) (comparison : Comparison) :
    Keeps HashConsed Canonical (liftM (internLeaf comparison) : Sharing ε SharedCondition)
      interner := by
  apply canonical_draft hashConsed
  intro child member
  cases member

theorem allCanonical_cons {after : Interner} {term : SharedCondition}
    {terms : List SharedCondition} (grows : after.Extends interner)
    (canonical : interner.Canonical term) (others : AllCanonical after terms) :
    AllCanonical after (term :: terms) :=
  List.forall_mem_cons.2 ⟨canonical.grows grows, others⟩

theorem children_shared (junction : Junction) (identity : Nat) (terms : List SharedCondition) :
    (junction.shared identity terms).children = terms := by
  cases junction <;> rfl

theorem children_draft (junction : Junction) (left right : SharedCondition) :
    ∀ child ∈ (junction.draft left right).children,
      child = left ∨ child = right ∨ child ∈ right.children := by
  intro child member
  cases junction <;> cases right <;>
    simp only [Junction.draft, allTerms, anyTerms, children, List.mem_cons, List.not_mem_nil,
      or_false] at member ⊢
  all_goals grind

def CanonicalOperand (interner : Interner) : Operand → Prop
  | .condition shared => interner.Canonical shared
  | _ => True

/-- What an operator interns is made of its operands, or of what the right one is made of. -/
theorem Drafts.children {operator : Pending} {left right : Operand} {draft : SharedCondition}
    (drafts : Drafts operator left right draft) : ∀ child ∈ draft.children,
      left = .condition child ∨ right = .condition child ∨
        ∃ shared, right = .condition shared ∧ child ∈ shared.children := by
  intro child member
  cases drafts with
  | keyLiteral | keyKey | literalLiteral => cases member
  | joined junction left right =>
      rcases children_draft junction left right child member with rfl | rfl | below
      · exact .inl rfl
      · exact .inr (.inl rfl)
      · exact .inr (.inr ⟨right, rfl, below⟩)
  | negated =>
      rw [List.mem_singleton.1 member]
      exact .inr (.inl rfl)

theorem invariant_canonical : Invariant HashConsed (Keeps HashConsed) CanonicalOperand where
  toJudges := Keeps.judges HashConsed
  grows {earlier later operand} grows _ canonical := by
    cases operand with
    | condition shared => exact Canonical.grows canonical grows
    | key | literal | marker => trivial
  marker _ := trivial
  key _ _ _ := trivial
  literal _ _ _ := trivial
  combine {interner left right} hashConsed leftCanonical rightCanonical operator := by
    rcases combine_cases operator left right with ⟨draft, drafts, interns⟩ | ⟨error, fails⟩
    · rw [interns]
      apply canonical_draft hashConsed
      intro child member
      rcases drafts.children child member with rfl | rfl | ⟨shared, rfl, below⟩
      · exact leftCanonical
      · exact rightCanonical
      · exact hashConsed.children _ _ rightCanonical child below
    · rw [fails]
      exact Keeps.throw hashConsed error

mutual

theorem canonical_pushed {inverted : Bool} : (shared : SharedCondition) → {interner : Interner} →
    interner.HashConsed → interner.Canonical shared →
    Keeps HashConsed Canonical (shared.pushed inverted) interner
  | .leaf identity comparison, interner, hashConsed, canonical => by
      cases inverted with
      | false => exact Keeps.pure hashConsed canonical
      | true =>
          rw [pushed]
          cases comparison.negation with
          | error error => exact Keeps.throw hashConsed error
          | ok negation => exact canonical_leaf hashConsed negation
  | .all identity terms, interner, hashConsed, canonical =>
      canonical_pushed_node .all identity terms hashConsed
        (hashConsed.children _ _ canonical)
  | .any identity terms, interner, hashConsed, canonical =>
      canonical_pushed_node .any identity terms hashConsed
        (hashConsed.children _ _ canonical)
  | .not identity inner, interner, hashConsed, canonical =>
      canonical_pushed inner hashConsed
        (hashConsed.children _ _ canonical inner List.mem_cons_self)

theorem canonical_pushed_node {inverted : Bool} (junction : Junction) (identity : Nat)
    (terms : List SharedCondition) {interner : Interner} (hashConsed : interner.HashConsed)
    (canonical : AllCanonical interner terms) :
    Keeps HashConsed Canonical ((junction.shared identity terms).pushed inverted) interner := by
  rw [junction.pushed_shared]
  refine (canonical_pushedTerms terms hashConsed canonical).bind ?_
  intro pushed after _ hashConsedAfter canonicalAfter
  apply canonical_draft hashConsedAfter
  rw [children_shared]
  exact canonicalAfter

theorem canonical_pushedTerms {inverted : Bool} : (terms : List SharedCondition) →
    {interner : Interner} → interner.HashConsed → AllCanonical interner terms →
    Keeps HashConsed AllCanonical (pushedTerms inverted terms) interner
  | [], interner, hashConsed, canonical => Keeps.pure hashConsed canonical
  | term :: terms, interner, hashConsed, canonical => by
      obtain ⟨first, others⟩ := List.forall_mem_cons.1 canonical
      rw [pushedTerms]
      refine (canonical_pushed term hashConsed first).bind ?_
      intro pushed after grows hashConsedAfter pushedCanonical
      have othersAfter : AllCanonical after terms := fun other member =>
        (others other member).grows grows
      refine (canonical_pushedTerms terms hashConsedAfter othersAfter).bind ?_
      intro pushedTerms final growsOn hashConsedFinal allCanonical
      exact Keeps.pure hashConsedFinal (allCanonical_cons growsOn pushedCanonical allCanonical)

end

theorem canonical_equalities : (pairs : List (String × Value)) → {interner : Interner} →
    interner.HashConsed →
    Keeps HashConsed AllCanonical
      (liftM (equalities pairs) : Sharing ε (List SharedCondition)) interner
  | [], interner, hashConsed => Keeps.pure hashConsed nofun
  | (key, value) :: pairs, interner, hashConsed => by
      change Keeps HashConsed AllCanonical
        ((liftM (internLeaf (.keyLiteral key .equal (.ofValue value))) :
          Sharing ε SharedCondition) >>= fun term =>
          (liftM (equalities pairs) : Sharing ε (List SharedCondition)) >>= fun terms =>
            Pure.pure (term :: terms)) interner
      refine (canonical_leaf hashConsed _).bind ?_
      intro term after _ hashConsedAfter canonical
      refine (canonical_equalities pairs hashConsedAfter).bind ?_
      intro terms final grows hashConsedFinal allCanonical
      exact Keeps.pure hashConsedFinal (allCanonical_cons grows canonical allCanonical)

theorem canonical_gathered (junction : Junction) {nothing : StateM Interner SharedCondition}
    (ofNothing : ∀ after : Interner, after.HashConsed →
      Keeps HashConsed Canonical (liftM nothing : Sharing ε SharedCondition) after)
    (hashConsed : interner.HashConsed) (pairs : List (String × Value)) :
    Keeps HashConsed Canonical
      (liftM (equalities pairs >>= gathered junction nothing) : Sharing ε SharedCondition)
      interner := by
  change Keeps HashConsed Canonical
    ((liftM (equalities pairs) : Sharing ε (List SharedCondition)) >>= fun terms =>
      liftM (gathered junction nothing terms)) interner
  refine (canonical_equalities pairs hashConsed).bind ?_
  intro terms after _ hashConsedAfter canonical
  match terms with
  | [] => exact ofNothing after hashConsedAfter
  | [term] => exact Keeps.pure hashConsedAfter (canonical term List.mem_cons_self)
  | first :: second :: terms =>
      apply canonical_draft hashConsedAfter
      rw [children_shared]
      exact canonical

end

namespace Request

/-- Nothing is asked for but texts, keys with values, and what has been returned before. -/
def OfEarlier (answers : List (Option SharedCondition)) : Request → Prop
  | .positive shared => some shared ∈ answers
  | .intern _ => False
  | _ => True

def SelfContained : List (Option SharedCondition) → List Request → Interner → Prop
  | _, [], _ => True
  | answers, request :: requests, interner =>
      request.OfEarlier answers ∧
        SelfContained ((request.run interner).1 :: answers) requests (request.run interner).2

def AnswersCanonical (interner : Interner) (answers : List (Option SharedCondition)) : Prop :=
  ∀ shared, some shared ∈ answers → interner.Canonical shared

section

variable {ε error : Type} {interner : Interner} {answers : List (Option SharedCondition)}

theorem AnswersCanonical.grows {later : Interner} (canonical : AnswersCanonical interner answers)
    (grows : later.Extends interner) : AnswersCanonical later answers :=
  fun shared member => (canonical shared member).grows grows

theorem answersCanonical_cons {answer : Option SharedCondition}
    (canonical : ∀ shared, answer = some shared → interner.Canonical shared)
    (others : AnswersCanonical interner answers) :
    AnswersCanonical interner (answer :: answers) := by
  intro shared member
  rcases List.mem_cons.1 member with same | earlier
  · exact canonical shared same.symm
  · exact others shared earlier

theorem canonical_answer {work : Sharing error SharedCondition}
    (keeps : Keeps HashConsed Canonical work interner)
    (canonical : AnswersCanonical interner answers) :
    Keeps HashConsed (fun after answer => AnswersCanonical after (answer :: answers))
      (liftM (Except.toOption <$> work.run) : Sharing ε (Option SharedCondition)) interner := by
  obtain ⟨grows, hashConsed, isResult⟩ := keeps
  refine Keeps.lift grows hashConsed ?_
  apply answersCanonical_cons
  · intro shared same
    change (work interner).1.toOption = some shared at same
    apply isResult
    cases outcome : (work interner).1 with
    | error error =>
        rw [outcome] at same
        cases same
    | ok found =>
        rw [outcome] at same
        rw [Option.some.inj same]
  · exact canonical.grows grows

theorem canonical_run {request : Request} (ofEarlier : request.OfEarlier answers)
    (hashConsed : interner.HashConsed) (canonical : AnswersCanonical interner answers) :
    Keeps HashConsed (fun after answer => AnswersCanonical after (answer :: answers))
      (liftM request.run : Sharing ε (Option SharedCondition)) interner := by
  have leaf : ∀ comparison, Keeps HashConsed Canonical
      (liftM (internLeaf comparison) : Sharing ε SharedCondition) interner :=
    canonical_leaf hashConsed
  cases request with
  | parse text bindings =>
      exact canonical_answer (invariant_canonical.parse hashConsed text bindings) canonical
  | matchAll pairs =>
      have keeps : Keeps HashConsed Canonical
          (liftM (SharedCondition.matchAll pairs) : Sharing ε SharedCondition) interner := by
        rw [matchAll_eq]
        exact canonical_gathered .all (fun _ held => canonical_leaf held _) hashConsed pairs
      exact canonical_answer keeps canonical
  | matchAny pairs =>
      have keeps : Keeps HashConsed Canonical
          (liftM (SharedCondition.matchAny pairs) : Sharing ε SharedCondition) interner := by
        rw [matchAny_eq]
        exact canonical_gathered .any (fun _ held => canonical_leaf held _) hashConsed pairs
      exact canonical_answer keeps canonical
  | always => exact canonical_answer (leaf _) canonical
  | never => exact canonical_answer (leaf _) canonical
  | positive shared =>
      have known := canonical shared ofEarlier
      exact canonical_answer (canonical_pushed shared hashConsed known) canonical
  | intern draft => cases ofEarlier

theorem canonical_runAll (requests : List Request)
    (selfContained : SelfContained answers requests interner)
    (hashConsed : interner.HashConsed) (canonical : AnswersCanonical interner answers) :
    Keeps HashConsed AnswersCanonical
      (liftM (runAll requests) : Sharing ε (List (Option SharedCondition))) interner := by
  induction requests generalizing answers interner with
  | nil => exact Keeps.pure hashConsed nofun
  | cons request requests ih =>
      obtain ⟨ofEarlier, later⟩ := selfContained
      have first : Keeps HashConsed
          (fun after answer => AnswersCanonical after (answer :: answers))
          (liftM request.run : Sharing ε (Option SharedCondition)) interner :=
        canonical_run ofEarlier hashConsed canonical
      have answered := first.result _ rfl
      have rest := ih later first.held answered
      refine Keeps.lift (rest.grows.trans first.grows) rest.held ?_
      apply answersCanonical_cons
      · intro shared same
        have known := answered shared (List.mem_cons.2 (.inl same.symm))
        exact known.grows rest.grows
      · exact rest.result _ rfl

theorem runAll_cons (request : Request) (requests : List Request) (interner : Interner) :
    runAll (request :: requests) interner =
      ((request.run interner).1 :: (runAll requests (request.run interner).2).1,
        (runAll requests (request.run interner).2).2) := rfl

theorem runAll_append (front back : List Request) (interner : Interner) :
    runAll (front ++ back) interner =
      ((runAll front interner).1 ++ (runAll back (runAll front interner).2).1,
        (runAll back (runAll front interner).2).2) := by
  induction front generalizing interner with
  | nil => rfl
  | cons request front ih =>
      rw [List.cons_append, runAll_cons, ih, runAll_cons]
      rfl

theorem runAll_extends (requests : List Request) (interner : Interner) :
    (runAll requests interner).2.Extends interner := by
  have interns : Interns False (fun _ _ => True) (runAll requests) interner :=
    interns_runAll requests nofun nofun
  obtain ⟨_, trace, _⟩ := interns.traced
  exact trace.extends

end

/-- A part, at any depth, of something that has been returned. -/
def Returned (answers : List (Option SharedCondition)) (node : SharedCondition) : Prop :=
  ∃ shared, some shared ∈ answers ∧ shared.Contains node

/-- Whatever is requested where nothing is known yet, also when requests fail: each known condition
stands under its own text and stays there, it is made of the known conditions for the texts of its
parts, and of all parts of what is returned those with one text are one instance. -/
theorem hashConsed_runAll (nextIdentity : Nat) (requests : List Request)
    (selfContained : SelfContained [] requests { nextIdentity, known := [] }) :
    let start : Interner := { nextIdentity, known := [] }
    let answers := (runAll requests start).1
    let final := (runAll requests start).2
    final.Keyed ∧
      (∀ front back, requests = front ++ back → final.Extends (runAll front start).2) ∧
      (∀ name known, Table.find? final.known name = some known →
        ∀ child ∈ known.children, final.Canonical child) ∧
      ∀ left right, Returned answers left → Returned answers right →
        (left.identity = right.identity ↔ left.text = right.text) ∧
          (left.text = right.text → left = right) := by
  intro start answers final
  have keeps : Keeps HashConsed AnswersCanonical
      (liftM (runAll requests) : Sharing EvalError (List (Option SharedCondition))) start :=
    canonical_runAll requests selfContained (hashConsed_of_empty rfl) nofun
  have hashConsed : final.HashConsed := keeps.held
  have canonical : ∀ node, Returned answers node → final.Canonical node := by
    rintro node ⟨shared, returned, contains⟩
    have known : final.Canonical shared := keeps.result _ rfl shared returned
    exact hashConsed.contains known contains
  refine ⟨hashConsed.keyed, ?_, hashConsed.children, ?_⟩
  · rintro front back rfl
    have last := runAll_extends back (runAll front start).2
    rw [← congrArg Prod.snd (runAll_append front back start)] at last
    exact last
  · intro left right ofLeft ofRight
    have leftCanonical := canonical left ofLeft
    have rightCanonical := canonical right ofRight
    refine ⟨hashConsed.identity_eq_iff leftCanonical rightCanonical, ?_⟩
    intro same
    rw [Canonical, same, rightCanonical] at leftCanonical
    exact (Option.some.inj leftCanonical).symm

theorem hashConsed_runAll_low :
    let low : SharedCondition := .leaf 0 (.keyKey "low" .less "rate")
    let requests : List Request :=
      [.parse "NOT (low < rate)" [], .parse "low = %@" [], .positive (.not 1 low)]
    SelfContained [] requests { nextIdentity := 0, known := [] } ∧
      ∀ node, Returned (runAll requests { nextIdentity := 0, known := [] }).1 node →
        node.text = low.text → node = low := by
  have scanned : Token.Scanned ('(' :: "NOT (low < rate)".toList ++ [')'])
      [.openGroup, .word "NOT", .openGroup, .word "low", .compare .less, .word "rate",
        .closeGroup, .closeGroup] := by
    repeat refine .step rfl rfl ?_
    exact .nil rfl
  have written : Template.expand "NOT (low < rate)" [] = .ok "NOT (low < rate)" := rfl
  have parsed : ∃ after, SharedCondition.parse "NOT (low < rate)" []
      { nextIdentity := 0, known := [] } =
        (.ok (.not 1 (.leaf 0 (.keyKey "low" .less "rate"))), after) := by
    rw [parse_of_tokens written (tokens_of_scan scanned.scan_eq)]
    exact ⟨_, rfl⟩
  obtain ⟨after, parsed⟩ := parsed
  have first : ((Request.parse "NOT (low < rate)" []).run { nextIdentity := 0, known := [] }).1 =
      some (.not 1 (.leaf 0 (.keyKey "low" .less "rate"))) :=
    congrArg (fun outcome => outcome.1.toOption) parsed
  intro low requests
  have selfContained : SelfContained [] requests { nextIdentity := 0, known := [] } := by
    refine ⟨trivial, trivial, ?_, trivial⟩
    rw [first]
    exact List.mem_cons_of_mem _ List.mem_cons_self
  have returned : Returned (runAll requests { nextIdentity := 0, known := [] }).1 low := by
    refine ⟨.not 1 low, ?_, .child .itself List.mem_cons_self⟩
    rw [runAll_cons, first]
    exact List.mem_cons_self
  obtain ⟨_, _, _, instances⟩ := hashConsed_runAll 0 requests selfContained
  refine ⟨selfContained, ?_⟩
  intro node ofNode same
  exact (instances node low ofNode returned).2 same

end Request

end SharedCondition

end FactRules
