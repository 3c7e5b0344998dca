import FactRules.Proofs.Dependencies

/-!
What a condition can notice. It asks a source for the first names of its key paths and for nothing
else, so that two sources which answer alike for those are told apart by no evaluation. A rule is
valid where its condition never asks for the attribute that the rule defines.
-/

namespace FactRules

variable {σ τ : Type}

/-- From related states both have one outcome, and they leave related states behind. -/
def Reading.Alike {α : Type} (related : σ → τ → Prop) (left : Reading σ α)
    (right : Reading τ α) : Prop :=
  ∀ state other, related state other →
    (left state).1 = (right other).1 ∧ related (left state).2 (right other).2

namespace Reading.Alike

variable {α β : Type} {related : σ → τ → Prop}

theorem lift (outcome : Except EvalError α) :
    Reading.Alike related (Reading.lift outcome) (Reading.lift outcome) :=
  fun _ _ states => ⟨rfl, states⟩

theorem pure (value : α) :
    Reading.Alike related (Pure.pure value : Reading σ α) (Pure.pure value : Reading τ α) :=
  fun _ _ states => ⟨rfl, states⟩

theorem bind {left : Reading σ α} {right : Reading τ α} {next : α → Reading σ β}
    {other : α → Reading τ β} (first : Reading.Alike related left right)
    (later : ∀ value, Reading.Alike related (next value) (other value)) :
    Reading.Alike related (left >>= next) (right >>= other) := by
  intro state otherState states
  obtain ⟨equal, statesAfter⟩ := first state otherState states
  rw [bind_apply, bind_apply]
  generalize left state = leftRan at equal statesAfter ⊢
  generalize right otherState = rightRan at equal statesAfter ⊢
  obtain ⟨outcome, after⟩ := leftRan
  obtain ⟨_, otherAfter⟩ := rightRan
  cases equal
  cases outcome with
  | error error => exact ⟨rfl, statesAfter⟩
  | ok value => exact later value after otherAfter statesAfter

end Reading.Alike

structure Source.AlikeOn (related : σ → τ → Prop) (names : String → Prop) (left : Source σ)
    (right : Source τ) : Prop where
  sameType : left.typeName = right.typeName
  answers : ∀ name, names name → Reading.Alike related (left.read? name) (right.read? name)

section

variable {related : σ → τ → Prop} {names : String → Prop} {left : Source σ} {right : Source τ}

theorem Source.AlikeOn.read (alike : left.AlikeOn related names right) {name : String}
    (member : names name) : Reading.Alike related (left.read name) (right.read name) := by
  refine (alike.answers name member).bind fun answer => ?_
  cases answer with
  | some found => exact .pure found
  | none =>
      simp only [alike.sameType]
      exact .lift (.error (.unknownKey right.typeName name))

theorem Source.AlikeOn.resolvePath (alike : left.AlikeOn related names right) {path : String}
    (member : names (Text.firstPiece '.' path)) :
    Reading.Alike related (left.resolvePath path) (right.resolvePath path) :=
  (alike.read member).bind fun _ => .lift _

theorem Comparison.alike_evaluateFrom (alike : left.AlikeOn related names right)
    (types : TypeTable) (comparison : Comparison)
    (named : ∀ key ∈ comparison.keys, names (Text.firstPiece '.' key)) :
    Reading.Alike related (comparison.evaluateFrom types left)
      (comparison.evaluateFrom types right) := by
  cases comparison with
  | keyLiteral key operator literal =>
      have first := alike.read (named key List.mem_cons_self)
      exact .bind (.lift _) fun _ => first.bind fun _ => .lift _
  | keyKey leftKey operator rightKey =>
      have one := alike.resolvePath (named leftKey List.mem_cons_self)
      have another := alike.resolvePath (named rightKey (List.mem_cons_of_mem _ List.mem_cons_self))
      exact one.bind fun _ => another.bind fun _ => .lift _
  | literalLiteral leftLiteral operator rightLiteral =>
      exact .bind (.lift _) fun _ => .bind (.lift _) fun _ => .lift _

namespace Condition

mutual

theorem alike_evaluateFrom (alike : left.AlikeOn related names right) (types : TypeTable) :
    (condition : Condition) → (∀ name, condition.Reads name → names name) →
    Reading.Alike related (condition.evaluateFrom types left) (condition.evaluateFrom types right)
  | .leaf comparison, named =>
      comparison.alike_evaluateFrom alike types fun _ member => named _ (reads_leaf member)
  | .all terms, named =>
      alike_evaluateAll alike types terms fun _ member name reads =>
        named name (reads_all member reads)
  | .any terms, named =>
      alike_evaluateAny alike types terms fun _ member name reads =>
        named name (reads_any member reads)
  | .not inner, named =>
      (alike_evaluateFrom alike types inner fun name reads => named name (reads_not reads)).bind
        fun _ => .pure _

theorem alike_evaluateAll (alike : left.AlikeOn related names right) (types : TypeTable) :
    (terms : List Condition) → (∀ term ∈ terms, ∀ name, term.Reads name → names name) →
    Reading.Alike related (evaluateAll types left terms) (evaluateAll types right terms)
  | [], _ => .pure true
  | term :: terms, named => by
      have parts := List.forall_mem_cons.1 named
      refine (alike_evaluateFrom alike types term parts.1).bind fun answer => ?_
      cases answer with
      | true => exact alike_evaluateAll alike types terms parts.2
      | false => exact .pure false

theorem alike_evaluateAny (alike : left.AlikeOn related names right) (types : TypeTable) :
    (terms : List Condition) → (∀ term ∈ terms, ∀ name, term.Reads name → names name) →
    Reading.Alike related (evaluateAny types left terms) (evaluateAny types right terms)
  | [], _ => .pure false
  | term :: terms, named => by
      have parts := List.forall_mem_cons.1 named
      refine (alike_evaluateFrom alike types term parts.1).bind fun answer => ?_
      cases answer with
      | true => exact .pure true
      | false => exact alike_evaluateAny alike types terms parts.2

end

end Condition

end

def Source.noting (source : Source σ) : Source (σ × List String) where
  typeName := source.typeName
  read? name := fun (state, asked) =>
    let (outcome, after) := source.read? name state
    (outcome, after, name :: asked)

theorem Source.alikeOn_noting (source : Source σ) (names : String → Prop) :
    source.AlikeOn (fun state noted => noted.1 = state ∧ ∀ name ∈ noted.2, names name) names
      source.noting where
  sameType := rfl
  answers := by
    rintro name member state ⟨_, asked⟩ ⟨rfl, named⟩
    exact ⟨rfl, rfl, List.forall_mem_cons.2 ⟨member, named⟩⟩

theorem RuleHead.not_reads_of_isValid {head : RuleHead} (valid : head.isValid = true) :
    ¬ head.condition.condition.Reads head.target := by
  rintro ⟨key, member, first⟩
  exact of_decide_eq_true (List.all_eq_true.1 valid key member) first

/-- Sources that answer alike for the first names of a condition's key paths give it one outcome,
and so do two values of one type. While it is evaluated nothing else is asked for; where it is the
condition of a valid rule, the attribute that the rule defines is not. -/
theorem keys_decide (types : TypeTable) :
    (∀ (condition : Condition) {σ τ : Type} (left : Source σ) (right : Source τ)
        (related : σ → τ → Prop), left.typeName = right.typeName →
      (∀ key ∈ condition.keys, Reading.Alike related (left.read? (Text.firstPiece '.' key))
        (right.read? (Text.firstPiece '.' key))) →
      Reading.Alike related (condition.evaluateFrom types left)
        (condition.evaluateFrom types right)) ∧
    (∀ (condition : Condition) (left right : Value), left.typeName = right.typeName →
      (∀ key ∈ condition.keys, left.read? (Text.firstPiece '.' key) =
        right.read? (Text.firstPiece '.' key)) →
      condition.evaluate types left = condition.evaluate types right) ∧
    ∀ (condition : Condition) {σ : Type} (source : Source σ) (state : σ), ∃ asked,
      condition.evaluateFrom types source.noting (state, []) =
        ((condition.evaluateFrom types source state).1,
          (condition.evaluateFrom types source state).2, asked) ∧
      (∀ name ∈ asked, ∃ key ∈ condition.keys, Text.firstPiece '.' key = name) ∧
      ∀ head : RuleHead, head.condition.condition = condition → head.isValid = true →
        head.target ∉ asked := by
  have general (condition : Condition) {σ τ : Type} (left : Source σ) (right : Source τ)
      (related : σ → τ → Prop) (sameType : left.typeName = right.typeName)
      (answers : ∀ key ∈ condition.keys, Reading.Alike related
        (left.read? (Text.firstPiece '.' key)) (right.read? (Text.firstPiece '.' key))) :
      Reading.Alike related (condition.evaluateFrom types left)
        (condition.evaluateFrom types right) := by
    have alike : left.AlikeOn related condition.Reads right := by
      refine ⟨sameType, ?_⟩
      rintro name ⟨key, member, rfl⟩
      exact answers key member
    exact condition.alike_evaluateFrom alike types fun _ reads => reads
  refine ⟨general, ?_, ?_⟩
  · intro condition left right sameType answers
    refine (general condition left.source right.source (fun _ _ => True) sameType ?_ () ()
      trivial).1
    intro key member _ _ _
    exact ⟨answers key member, trivial⟩
  · intro condition σ source state
    have noted := condition.alike_evaluateFrom (source.alikeOn_noting condition.Reads) types
      (fun _ reads => reads) state (state, []) ⟨rfl, nofun⟩
    obtain ⟨outcome, same, named⟩ := noted
    refine ⟨_, Prod.ext outcome.symm (Prod.ext same rfl), named, ?_⟩
    rintro head rfl valid asked
    exact head.not_reads_of_isValid valid (named _ asked)

def foreignReader : SharedCondition :=
  .all 3 [.leaf 0 (.keyLiteral "lang" .equal (.string "fr")),
    .not 2 (.leaf 1 (.keyKey "author.name" .equal "reader"))]

theorem keys_decide_foreignReader :
    let left := Value.map [("author", .map [("name", .string "Ada")]),
      ("greeting", .string "Hello"), ("lang", .string "fr"), ("reader", .string "Bob")]
    let right := Value.map [("author", .map [("name", .string "Ada")]), ("lang", .string "fr"),
      ("reader", .string "Bob"), ("weather", .string "dry")]
    let head : RuleHead := ⟨foreignReader, "greeting", .string "Bonjour", 0⟩
    foreignReader.condition.evaluate .standard left =
      foreignReader.condition.evaluate .standard right ∧
    Reading.Alike (fun _ _ => True)
      (foreignReader.condition.evaluateFrom .standard (left.source : Source Unit))
      (foreignReader.condition.evaluateFrom .standard (right.source : Source Nat)) ∧
    head.isValid = true ∧ ∃ asked, foreignReader.condition.evaluateFrom .standard
      (left.source : Source Unit).noting ((), []) = (.ok true, (), asked) ∧
      "greeting" ∉ asked := by
  intro left right head
  have keysAre : foreignReader.condition.keys = ["author.name", "lang", "reader"] := by decide
  have answers : ∀ key ∈ foreignReader.condition.keys,
      left.read? (Text.firstPiece '.' key) = right.read? (Text.firstPiece '.' key) := by
    rw [keysAre]
    simp only [List.forall_mem_cons]
    exact ⟨rfl, rfl, rfl, nofun⟩
  have valid : head.isValid = true := by decide
  obtain ⟨general, values, noted⟩ := keys_decide TypeTable.standard
  obtain ⟨asked, ran, _, unasked⟩ := noted foreignReader.condition (left.source : Source Unit) ()
  refine ⟨values _ left right rfl answers, ?_, valid, asked, ran, unasked head rfl valid⟩
  refine general _ (left.source : Source Unit) right.source _ rfl ?_
  intro key member _ _ _
  exact ⟨answers key member, trivial⟩

end FactRules
