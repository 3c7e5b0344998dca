import FactRules.Engine
import FactRules.Record

/-!
Models: lists of rule records, read from JSON and written to it, and the engines that they make.
-/

namespace FactRules

structure Model where
  records : List Record := []

namespace Model

def ofText? (text : String) : Option Model :=
  match Json.Tree.ofText? text with
  | some (.array items) => (items.mapM Record.ofTree?).map Model.mk
  | _ => none

def push (model : Model) (record : Record) : Model :=
  { model with records := model.records ++ [record] }

def text (model : Model) : String :=
  String.ofList (Json.Datum.text (.array (model.records.map fun record => .object record.members)))

def equals (left right : Model) : Bool :=
  left.records.length = right.records.length &&
    (left.records.zip right.records).all fun pair => pair.1.equals pair.2

def rules (actions : ActionTable) (model : Model) : Sharing RuleError (List Rule) :=
  model.records.mapM (Record.compile actions)

end Model

namespace Engine

/-- An engine with the rules of several models, each compiled and loaded in turn. -/
def ofModels (actions : ActionTable) (engine : Engine) (models : List Model) :
    Sharing RuleError (Engine × List Warning) :=
  models.foldlM (fun loaded model => do
    let rules ← model.rules actions
    let (engine, warnings) := loaded.1.load rules
    pure (engine, loaded.2 ++ warnings)) (engine, [])

end Engine

end FactRules
