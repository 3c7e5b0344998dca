import FactRules.Rule.Program

/-!
Scripts: actions put together from parts. Each part has a value; a part that fails ends the script
with its error, unless it is rescued. At the end are constructors to go with them. An engine takes
any action and any constructor; these are some that can be written down.
-/

namespace FactRules

inductive Script where
  /-- A value whose objects are other ones in each run. -/
  | constant (make : StateM Interner Value)
  | ruleValue
  | get (name : String)
  | isAbsent (name : String)
  | hasFact (name : String)
  | concat (parts : List Script)
  | list (parts : List Script)
  | sequence (parts : List Script)
  | path (keyPath : String)
  | holds (make : Sharing ParseError SharedCondition)
  /-- How many rules may answer for an attribute. -/
  | count (target : String)
  | describe
  | clear
  | fail (message : String)
  | rescue (part : Script)

namespace Script

mutual

def program (head : RuleHead) : Script → Program Value
  | .constant make => Program.created make
  | .ruleValue => pure head.value
  | .get name => do
      let found ← Program.read name
      pure (found.getD .null)
  | .isAbsent name => do
      let found ← Program.read name
      pure (.bool found.isNone)
  | .hasFact name => do
      let given ← Program.hasFact name
      pure (.bool given)
  | .concat parts => do
      let values ← programs head parts
      pure (.string (String.join (values.map Value.text)))
  | .list parts => do
      let values ← programs head parts
      pure (.list values)
  | .sequence parts => do
      let values ← programs head parts
      pure (values.getLastD .null)
  | .path keyPath => Program.follow keyPath
  | .holds make => do
      let condition ← Program.shared make
      let outcome ← Program.holds condition
      pure (.bool outcome)
  | .count target => do
      let found ← Program.matching target
      pure (.int (Int64.ofNat found.length))
  | .describe =>
      pure (.ofEntries [("target", .string head.target),
        ("priority", .int (Int64.ofInt head.priority.toInt)),
        ("condition", .string head.condition.text)])
  | .clear => do
      Program.forget
      pure .null
  | .fail message => .done (.error (.action head.target message))
  | .rescue part => do
      match ← (program head part).outcome with
      | .ok value => pure value
      | .error error => pure (.string ("rescued " ++ error.kind ++ ": " ++ error.message))

def programs (head : RuleHead) : List Script → Program (List Value)
  | [] => pure []
  | part :: parts => do
      let value ← program head part
      let values ← programs head parts
      pure (value :: values)

end

def action (script : Script) : Action := fun head =>
  script.program head

end Script

namespace Constructor

def upperCase : Constructor := fun text => .ok (.string (Text.upperAscii text))

def length : Constructor := fun text => .ok (.int (Int64.ofNat text.toList.length))

def commaSeparated : Constructor := fun text =>
  .ok (.list ((Text.pieces ',' text).map .string))

def absent : Constructor := fun _ => .ok .null

def refusing : Constructor := fun text => .error ("rejected " ++ text)

end Constructor

end FactRules
