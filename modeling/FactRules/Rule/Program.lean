import FactRules.Facts
import FactRules.Interner
import FactRules.Rule.Head
import FactRules.Value.Path

/-!
Programs that compute a rule's result. A program is finite: it ends with an outcome or makes one
request to the context that it runs in and goes on with the answer. It also receives the errors of
its requests, so that it may go on after a failure. Conditions and values that a program makes are
made anew in each run. Facts come in whatever order the context lists them. There are no requests to
look an attribute up past what is remembered, or to fire a rule, which an action could make of the
engine.
-/

namespace FactRules

inductive Program (α : Type) : Type where
  | done (outcome : Except RuleError α)
  | get (name : String) (next : Except RuleError (Option Value) → Program α)
  | evaluate (condition : SharedCondition) (next : Except RuleError Bool → Program α)
  | candidates (target : String) (next : Except RuleError (List RuleHead) → Program α)
  | facts (next : Facts → Program α)
  | clear (next : Program α)
  | share (make : Sharing ParseError SharedCondition)
      (next : Except ParseError SharedCondition → Program α)
  | create (make : StateM Interner Value) (next : Value → Program α)

namespace Program

variable {α β : Type}

protected def pure (value : α) : Program α :=
  .done (.ok value)

protected def bind (program : Program α) (following : α → Program β) : Program β :=
  match program with
  | .done (.ok value) => following value
  | .done (.error error) => .done (.error error)
  | .get name next => .get name fun answer => (next answer).bind following
  | .evaluate condition next => .evaluate condition fun answer => (next answer).bind following
  | .candidates target next => .candidates target fun answer => (next answer).bind following
  | .facts next => .facts fun answer => (next answer).bind following
  | .clear next => .clear (next.bind following)
  | .share make next => .share make fun answer => (next answer).bind following
  | .create make next => .create make fun answer => (next answer).bind following

instance : Monad Program where
  pure := Program.pure
  bind := Program.bind

def outcome : Program α → Program (Except RuleError α)
  | .done outcome => .done (.ok outcome)
  | .get name next => .get name fun answer => (next answer).outcome
  | .evaluate condition next => .evaluate condition fun answer => (next answer).outcome
  | .candidates target next => .candidates target fun answer => (next answer).outcome
  | .facts next => .facts fun answer => (next answer).outcome
  | .clear next => .clear next.outcome
  | .share make next => .share make fun answer => (next answer).outcome
  | .create make next => .create make fun answer => (next answer).outcome

def read (name : String) : Program (Option Value) :=
  .get name .done

def holds (condition : SharedCondition) : Program Bool :=
  .evaluate condition .done

def matching (target : String) : Program (List RuleHead) :=
  .candidates target .done

def hasFact (name : String) : Program Bool :=
  .facts fun facts => .done (.ok (facts.contains name))

def forget : Program Unit :=
  .clear (.done (.ok ()))

def shared (make : Sharing ParseError SharedCondition) : Program SharedCondition :=
  .share make fun made => .done (made.mapError .parse)

def created (make : StateM Interner Value) : Program Value :=
  .create make fun value => .done (.ok value)

/-- The value at the end of a key path, where an attribute without a value reads as null. -/
def follow (path : String) : Program Value := do
  let first ← read (Text.firstPiece '.' path)
  match (first.getD .null).follow (Text.laterPieces '.' path) with
  | .ok value => pure value
  | .error error => .done (.error (.ofEval error))

end Program

abbrev Action := RuleHead → Program Value

end FactRules
