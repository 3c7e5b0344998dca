import FactRules.Proofs.FailurePlaces

/-!
The two ways along a key path. A comparison with a literal goes into the items of the lists that it
meets, and the first outcome that is not a satisfied comparison decides it. A comparison of two keys
follows each of them to one value. The two part only where a list is met before the end of the path.
-/

namespace FactRules

section

variable {ε α : Type}

def FirstAnswer (question : α → Except ε Bool) (items : List α) (decision : Except ε Bool) : Prop :=
  (decision = .ok true ∧ ∀ item ∈ items, question item = .ok true) ∨
  (decision ≠ .ok true ∧ ∃ front item back, items = front ++ item :: back ∧
    (∀ earlier ∈ front, question earlier = .ok true) ∧ question item = decision)

theorem allM_eq_iff_of_ne {question : α → Except ε Bool} {items : List α}
    {decision : Except ε Bool} (negative : decision ≠ .ok true) :
    items.allM question = decision ↔ ∃ front item back, items = front ++ item :: back ∧
      (∀ earlier ∈ front, question earlier = .ok true) ∧ question item = decision := by
  constructor
  · intro decided
    induction items with
    | nil => exact absurd decided.symm negative
    | cons first items ih =>
        by_cases yes : question first = .ok true
        · rw [allM_cons_of_true yes] at decided
          obtain ⟨front, item, back, rfl, earlier, decides⟩ := ih decided
          exact ⟨first :: front, item, back, rfl, List.forall_mem_cons.2 ⟨yes, earlier⟩, decides⟩
        · rw [allM_cons_of_ne yes] at decided
          exact ⟨[], first, items, rfl, by simp, decided⟩
  · rintro ⟨front, item, back, rfl, earlier, rfl⟩
    rw [allM_append, (allM_eq_true_iff question front).2 earlier]
    exact allM_cons_of_ne negative back

theorem allM_eq_iff_firstAnswer {question : α → Except ε Bool} {items : List α}
    {decision : Except ε Bool} :
    items.allM question = decision ↔ FirstAnswer question items decision := by
  by_cases yes : decision = .ok true
  · rw [FirstAnswer, yes, allM_eq_true_iff]
    simp
  · rw [FirstAnswer, allM_eq_iff_of_ne yes]
    simp [yes]

end

/-- Why a name cannot be read: nothing has it, or the answer is an error already. -/
def Unread (typeName name : String) (answer : Except EvalError (Option Value))
    (error : EvalError) : Prop :=
  (answer = .ok none ∧ error = .unknownKey typeName name) ∨ answer = .error error

theorem unread_iff {typeName name : String} {answer : Except EvalError (Option Value)}
    {error : EvalError} :
    (answer >>= fun
      | some found => .ok found
      | none => .error (.unknownKey typeName name)) = .error error ↔
      Unread typeName name answer error := by
  rcases answer with failure | _ | found
  · constructor
    · intro failed
      cases failed
      exact .inr rfl
    · intro unread
      cases unread.resolve_left nofun
      rfl
  · constructor
    · intro failed
      cases failed
      exact .inl ⟨rfl, rfl⟩
    · intro unread
      obtain ⟨_, rfl⟩ := unread.resolve_right nofun
      rfl
  · refine iff_of_false nofun ?_
    rintro (⟨missing, _⟩ | failed)
    · cases missing
    · cases failed

namespace Value

theorem read_eq_error_iff {value : Value} {name : String} {error : EvalError} :
    value.read name = .error error ↔ Unread value.typeName name (value.read? name) error :=
  unread_iff

def onward (path : List String) : Except EvalError Value → List (Except EvalError Value)
  | .ok found => found.reachedAlong path
  | .error error => [.error error]

theorem reachedAlong_cons (value : Value) (name : String) (path : List String) :
    value.reachedAlong (name :: path) =
      value.branches.flatMap fun branch => onward path (branch.read name) := by
  rw [reachedAlong]
  congr 1

theorem onward_append (front back : List String) (reached : Except EvalError Value) :
    onward (front ++ back) reached = (onward front reached).flatMap (onward back) := by
  induction front generalizing reached with
  | nil =>
      cases reached with
      | error error => rfl
      | ok found => exact (List.append_nil _).symm
  | cons name front ih =>
      cases reached with
      | error error => rfl
      | ok found =>
          rw [onward, onward, List.cons_append, reachedAlong_cons, reachedAlong_cons,
            List.flatMap_assoc]
          simp only [ih]

theorem error_mem_reachedAlong {value : Value} {path : List String} {error : EvalError}
    (failed : .error error ∈ value.reachedAlong path) :
    ∃ front name back found, path = front ++ name :: back ∧ .ok found ∈ value.reachedAlong front ∧
      ∃ branch ∈ found.branches, branch.read name = .error error := by
  induction path generalizing value with
  | nil => simp [reachedAlong] at failed
  | cons name path ih =>
      rw [reachedAlong_cons] at failed
      obtain ⟨branch, member, failed⟩ := List.mem_flatMap.1 failed
      cases read : branch.read name with
      | error other =>
          rw [read] at failed
          cases List.mem_singleton.1 failed
          exact ⟨[], name, path, value, rfl, List.mem_singleton_self _, branch, member, read⟩
      | ok next =>
          rw [read] at failed
          obtain ⟨front, last, back, found, rfl, reached, inside⟩ := ih failed
          refine ⟨name :: front, last, back, found, rfl, ?_, inside⟩
          rw [reachedAlong_cons]
          refine List.mem_flatMap.2 ⟨branch, member, ?_⟩
          rwa [read]

theorem allM_onward (operator : Operator) (expected : Value) (path : List String)
    (reached : Except EvalError Value) :
    (onward path reached).allM (answer operator expected) =
      reached >>= fun first => satisfiesAlong operator expected first path := by
  cases reached with
  | error error => exact allM_single _ _
  | ok first => exact (satisfiesAlong_eq_allM operator expected first path).symm

end Value

variable {σ : Type}

namespace Source

theorem read_eq_error_iff {source : Source σ} {name : String} {state : σ} {error : EvalError} :
    (source.read name state).1 = .error error ↔
      Unread source.typeName name (source.read? name state).1 error := by
  rw [← unread_iff, read, bind_apply]
  obtain ⟨failure | _ | found, after⟩ := source.read? name state <;> exact Iff.rfl

/-- What a path leads to, in order. Of lists that are met while names remain it is what their items
lead to. -/
def outcomes (source : Source σ) (path : List String) (state : σ) :
    List (Except EvalError Value) :=
  match path with
  | [] => []
  | name :: path => Value.onward path (source.read name state).1

theorem outcomes_append {source : Source σ} {front back : List String} {state : σ}
    (begins : front ≠ []) :
    source.outcomes (front ++ back) state =
      (source.outcomes front state).flatMap (Value.onward back) := by
  cases front with
  | nil => exact absurd rfl begins
  | cons name front => exact Value.onward_append front back _

theorem error_mem_outcomes_iff {source : Source σ} {name : String} {path : List String} {state : σ}
    {error : EvalError} :
    .error error ∈ source.outcomes (name :: path) state ↔
      Unread source.typeName name (source.read? name state).1 error ∨
      ∃ front next back found, name :: path = front ++ next :: back ∧
        .ok found ∈ source.outcomes front state ∧
        ∃ branch ∈ found.branches, Unread branch.typeName next (branch.read? next) error := by
  simp only [← read_eq_error_iff, ← Value.read_eq_error_iff]
  constructor
  · intro failed
    rw [outcomes] at failed
    cases read : (source.read name state).1 with
    | error other =>
        rw [read] at failed
        cases List.mem_singleton.1 failed
        exact .inl rfl
    | ok first =>
        rw [read] at failed
        obtain ⟨front, next, back, found, rfl, reached, inside⟩ :=
          Value.error_mem_reachedAlong failed
        refine .inr ⟨name :: front, next, back, found, rfl, ?_, inside⟩
        rwa [outcomes, read]
  · rintro (failed | ⟨front, next, back, found, split, reached, branch, member, failed⟩)
    · rw [outcomes, failed]
      exact List.mem_singleton_self _
    · have begins : front ≠ [] := by
        rintro rfl
        cases reached
      rw [split, outcomes_append begins]
      refine List.mem_flatMap.2 ⟨_, reached, ?_⟩
      rw [Value.onward, Value.reachedAlong_cons]
      refine List.mem_flatMap.2 ⟨branch, member, ?_⟩
      rw [failed]
      exact List.mem_singleton_self _

theorem nested_mem_outcomes {source : Source σ} {front back : List String} {name : String}
    {state : σ} {items inner : List Value}
    (reached : .ok (.list items) ∈ source.outcomes front state)
    (member : .list inner ∈ items) :
    .error (.unknownKey "List" name) ∈ source.outcomes (front ++ name :: back) state := by
  cases front with
  | nil => cases reached
  | cons first front =>
      refine error_mem_outcomes_iff.2 (.inr ⟨first :: front, name, back, _, rfl, reached, ?_⟩)
      exact ⟨_, member, .inl ⟨rfl, rfl⟩⟩

end Source

namespace Comparison

/-- A comparison of a key with a literal is decided by the outcomes of the key path, one after the
other. Those that are not values tell where the path has ended early. -/
theorem evaluateFrom_keyLiteral (types : TypeTable) (source : Source σ) (key : String)
    (operator : Operator) (literal : Literal) (state : σ) :
    (∀ error, literal.resolve types = .error error →
      (keyLiteral key operator literal).evaluateFrom types source state = (.error error, state)) ∧
    (∀ expected, literal.resolve types = .ok expected → ∃ decision,
      (keyLiteral key operator literal).evaluateFrom types source state =
        (decision, (source.read (Text.firstPiece '.' key) state).2) ∧
      FirstAnswer (Value.answer operator expected)
        (source.outcomes (Text.pieces '.' key) state) decision) ∧
    (∀ error, .error error ∈ source.outcomes (Text.pieces '.' key) state ↔
      Unread source.typeName (Text.firstPiece '.' key)
        (source.read? (Text.firstPiece '.' key) state).1 error ∨
      ∃ front name back found, Text.pieces '.' key = front ++ name :: back ∧
        .ok found ∈ source.outcomes front state ∧
        ∃ branch ∈ found.branches, Unread branch.typeName name (branch.read? name) error) ∧
    (∀ front name back items inner, Text.pieces '.' key = front ++ name :: back →
      .ok (.list items) ∈ source.outcomes front state → .list inner ∈ items →
      .error (.unknownKey "List" name) ∈ source.outcomes (Text.pieces '.' key) state) := by
  refine ⟨?_, ?_, fun error => Source.error_mem_outcomes_iff, ?_⟩
  · intro error unresolved
    rw [evaluateFrom, bind_apply, unresolved]
    rfl
  · intro expected resolves
    refine ⟨(source.outcomes (Text.pieces '.' key) state).allM (Value.answer operator expected),
      ?_, allM_eq_iff_firstAnswer.1 rfl⟩
    rw [evaluateFrom, bind_apply, resolves, Text.pieces, Source.outcomes, Value.allM_onward]
    simp only [Reading.lift, bind_apply]
    rcases source.read (Text.firstPiece '.' key) state with ⟨error | first, after⟩ <;> rfl
  · intro front name back items inner split reached member
    rw [split]
    exact Source.nested_mem_outcomes reached member

def crates : Value :=
  .map [("count", .int 2), ("items", .list [.map [("size", .int 2)], .list []])]

theorem evaluateFrom_keyLiteral_crates :
    (keyLiteral "items.size" .greater (.integer 1)).evaluateFrom TypeTable.standard
      (crates.source : Source Unit) () = (.error (.unknownKey "List" "size"), ()) ∧
    FirstAnswer (Value.answer .greater (.int 1))
      ((crates.source : Source Unit).outcomes (Text.pieces '.' "items.size") ())
      (.error (.unknownKey "List" "size")) ∧
    .error (.unknownKey "List" "size") ∈
      (crates.source : Source Unit).outcomes (Text.pieces '.' "items.size") () ∧
    (keyLiteral "items.size" .greater (.typed "Crate" "")).evaluateFrom TypeTable.standard
      (crates.source : Source Unit) () = (.error (.unknownType "Crate"), ()) := by
  obtain ⟨_, decided, _, nested⟩ := evaluateFrom_keyLiteral TypeTable.standard
    (crates.source : Source Unit) "items.size" .greater (.integer 1) ()
  obtain ⟨unresolved, _⟩ := evaluateFrom_keyLiteral TypeTable.standard
    (crates.source : Source Unit) "items.size" .greater (.typed "Crate" "") ()
  obtain ⟨decision, evaluates, first⟩ := decided (.int 1) rfl
  cases evaluates
  refine ⟨rfl, first, ?_, unresolved _ rfl⟩
  exact nested ["items"] "size" [] _ [] rfl (List.mem_singleton_self _) (by simp)

end Comparison

namespace Value

def MeetsList (value : Value) (path : List String) : Prop :=
  ∃ front name back items, path = front ++ name :: back ∧ value.follow front = .ok (.list items)

theorem follow_cons (value : Value) (name : String) (path : List String) :
    value.follow (name :: path) = value.read name >>= fun found => found.follow path := rfl

theorem straight_of_not_meetsList {value : Value} {path : List String}
    (meetsNone : ¬ value.MeetsList path) : value.Straight path := by
  induction path generalizing value with
  | nil => trivial
  | cons name path ih =>
      constructor
      · rintro items rfl
        exact meetsNone ⟨[], name, path, items, rfl, rfl⟩
      · intro found read
        refine ih ?_
        rintro ⟨front, last, back, items, rfl, followed⟩
        refine meetsNone ⟨name :: front, last, back, items, rfl, ?_⟩
        rw [follow_cons, read]
        exact followed

theorem not_meetsList_of_follow {value found : Value} {path : List String}
    (followed : value.follow path = .ok found) : ¬ value.MeetsList path := by
  rintro ⟨front, name, back, items, rfl, reached⟩
  rw [follow, List.foldlM_append] at followed
  rw [follow] at reached
  rw [reached] at followed
  cases followed

end Value

def Source.MeetsList (source : Source σ) (path : String) (state : σ) : Prop :=
  ∃ first after, source.read (Text.firstPiece '.' path) state = (.ok first, after) ∧
    first.MeetsList (Text.laterPieces '.' path)

namespace Comparison

variable {types : TypeTable} {literal : Literal} {expected : Value}

theorem evaluateFrom_of_not_meetsList (resolves : literal.resolve types = .ok expected)
    {source : Source σ} {key : String} {state : σ} (meetsNone : ¬ source.MeetsList key state)
    (operator : Operator) :
    (keyLiteral key operator literal).evaluateFrom types source state =
      match source.resolvePath key state with
      | (.ok value, after) => (value.satisfies operator expected, after)
      | (.error error, after) => (.error error, after) := by
  rw [evaluateFrom, bind_apply, resolves, Source.resolvePath]
  simp only [Reading.lift, bind_apply]
  cases read : source.read (Text.firstPiece '.' key) state with
  | mk outcome after =>
      cases outcome with
      | error error => rfl
      | ok first =>
          have straight : first.Straight (Text.laterPieces '.' key) :=
            Value.straight_of_not_meetsList fun meets => meetsNone ⟨first, after, read, meets⟩
          simp only [Value.satisfiesAlong_of_straight straight]
          cases first.follow (Text.laterPieces '.' key) <;> rfl

theorem not_meetsList_of_resolvePath {source : Source σ} {key : String} {state after : σ}
    {value : Value} (resolved : source.resolvePath key state = (.ok value, after)) :
    ¬ source.MeetsList key state := by
  rintro ⟨first, between, read, meets⟩
  obtain ⟨other, _, readOther, followed⟩ := bind_eq_ok_iff.1 resolved
  cases read.symm.trans readOther
  exact Value.not_meetsList_of_follow (congrArg Prod.fst followed) meets

/-- Where a key path meets no list before its end, a comparison with a literal is one of the value
at its end, and so is a comparison with another key that leads to what the literal stands for. -/
theorem agrees_off_lists (resolves : literal.resolve types = .ok expected) (source : Source σ)
    (key : String) (operator : Operator) (state : σ) :
    (∀ value after, source.resolvePath key state = (.ok value, after) →
      (keyLiteral key operator literal).evaluateFrom types source state =
        (value.satisfies operator expected, after)) ∧
    (∀ error after, source.resolvePath key state = (.error error, after) →
      ¬ source.MeetsList key state →
      (keyLiteral key operator literal).evaluateFrom types source state = (.error error, after)) ∧
    ∀ other, (source.resolvePath other (source.resolvePath key state).2).1 = .ok expected →
      ((keyLiteral key operator literal).evaluateFrom types source state).1 ≠
        ((keyKey key operator other).evaluateFrom types source state).1 →
      source.MeetsList key state := by
  refine ⟨?_, ?_, ?_⟩
  · intro value after resolved
    rw [evaluateFrom_of_not_meetsList resolves (not_meetsList_of_resolvePath resolved), resolved]
  · intro error after failed meetsNone
    rw [evaluateFrom_of_not_meetsList resolves meetsNone, failed]
  · intro other leads differ
    by_contra meetsNone
    apply differ
    rw [evaluateFrom_of_not_meetsList resolves meetsNone, evaluateFrom, bind_apply]
    rcases resolved : source.resolvePath key state with ⟨error | value, after⟩
    · rfl
    · rw [resolved] at leads
      simp only [bind_apply]
      rcases ran : source.resolvePath other after with ⟨error | found, final⟩
      · rw [ran] at leads
        cases leads
      · rw [ran] at leads
        cases leads
        rfl

theorem agrees_off_lists_crates :
    (Literal.integer 2).resolve TypeTable.standard = .ok (.int 2) ∧
    (keyLiteral "count" .equal (.integer 2)).evaluateFrom TypeTable.standard
      (crates.source : Source Unit) () = (.ok true, ()) ∧
    (keyLiteral "count.size" .equal (.integer 2)).evaluateFrom TypeTable.standard
      (crates.source : Source Unit) () = (.error (.unknownKey "Integer" "size"), ()) ∧
    (crates.source : Source Unit).MeetsList "items.size" () := by
  have resolves : (Literal.integer 2).resolve TypeTable.standard = .ok (.int 2) := rfl
  have agrees := agrees_off_lists resolves (crates.source : Source Unit)
  refine ⟨resolves, (agrees "count" .equal ()).1 (.int 2) () rfl, ?_, ?_⟩
  · refine (agrees "count.size" .equal ()).2.1 _ () rfl ?_
    rintro ⟨_, _, ⟨⟩, front, name, back, items, _, followed⟩
    cases front with
    | nil | cons => cases followed
  · exact (agrees "items.size" .greater ()).2.2 "count" rfl nofun

end Comparison

end FactRules
