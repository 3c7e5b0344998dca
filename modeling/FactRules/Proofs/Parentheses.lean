import FactRules.Proofs.Enclosed
import FactRules.Proofs.Groups
import FactRules.Proofs.Parsing

/-!
The parentheses of a text that is parsed. Together with the pair that is put around the text they
are balanced. By themselves they need not be: the text may end the added group and begin another
one in its place, but only where an operand or a group follows the end of a group directly.
-/

namespace FactRules

namespace Token

/-- Up to no place more groups have ended than have begun, and in the end they are as many. -/
structure Balanced (tokens : List Token) : Prop where
  upTo : ∀ front, front <+: tokens → front.count .closeGroup ≤ front.count .openGroup
  total : tokens.count .closeGroup = tokens.count .openGroup

def isOperator : Token → Bool
  | .compare _ => true
  | .word text => (Pending.ofWord? text).isSome
  | _ => false

/-- Behind the end of a group stands an operator or the end of another group, if anything. -/
def Separated (tokens : List Token) : Prop :=
  ∀ next, [.closeGroup, next] <:+: tokens → next = .closeGroup ∨ next.isOperator = true

theorem Separated.later {token : Token} {tokens : List Token}
    (separated : Separated (token :: tokens)) : Separated tokens :=
  fun next found => separated next (List.infix_cons found)

end Token

namespace SharedCondition

inductive Waits : Token → List Pending → List Pending → Prop where
  | openGroup (pending : List Pending) : Waits .openGroup pending (.openGroup :: pending)
  | closeGroup {inside : List Pending} (noGroup : .openGroup ∉ inside) (pending : List Pending) :
      Waits .closeGroup (inside ++ .openGroup :: pending) pending
  | operator {token : Token} {operator : Pending} (isOperator : token.isOperator = true)
      (notGroup : operator ≠ .openGroup) (pending : List Pending) :
      Waits token pending (operator :: pending)
  | operand {token : Token} (notOpen : token ≠ .openGroup) (notClose : token ≠ .closeGroup)
      (notOperator : token.isOperator = false) (pending : List Pending) :
      Waits token pending pending

inductive WaitsAlong : List Token → List Pending → List Pending → Prop where
  | nil (pending : List Pending) : WaitsAlong [] pending pending
  | cons {token : Token} {tokens : List Token} {before between after : List Pending}
      (waits : Waits token before between) (along : WaitsAlong tokens between after) :
      WaitsAlong (token :: tokens) before after

section

variable {interner later : Interner} {before after : Stacks}

theorem pending_of_closeGroup {pending : List Pending} {operands : List Operand}
    (closed : Stacks.closeGroup pending operands interner = (.ok after, later)) :
    ∃ inside, .openGroup ∉ inside ∧ pending = inside ++ .openGroup :: after.pending := by
  induction pending generalizing operands interner with
  | nil =>
      rw [Stacks.closeGroup] at closed
      cases closed
  | cons operator pending ih =>
      by_cases isGroup : operator = .openGroup
      · subst isGroup
        cases closed
        exact ⟨[], by simp, rfl⟩
      · rcases operands with _ | ⟨right, _ | ⟨left, operands⟩⟩
        · cases operator <;> first | exact absurd rfl isGroup | cases closed
        · cases operator <;> first | exact absurd rfl isGroup | cases closed
        · rw [closeGroup_operator isGroup] at closed
          obtain ⟨condition, _, _, closed⟩ := bind_eq_ok_iff.1 closed
          obtain ⟨inside, noGroup, rfl⟩ := ih closed
          exact ⟨operator :: inside, by simp [noGroup, Ne.symm isGroup], rfl⟩

theorem notGroup_of_ofWord? {word : String} {operator : Pending}
    (connective : Pending.ofWord? word = some operator) : operator ≠ .openGroup := by
  rintro rfl
  unfold Pending.ofWord? at connective
  split at connective
  · cases connective
  · split at connective
    · cases connective
    · split at connective <;> cases connective

theorem waits_of_shift {token : Token}
    (shifted : before.shift token interner = (.ok after, later)) :
    Waits token before.pending after.pending := by
  cases token with
  | openGroup =>
      cases shifted
      exact .openGroup _
  | closeGroup =>
      obtain ⟨inside, noGroup, same⟩ := pending_of_closeGroup shifted
      rw [same]
      exact .closeGroup noGroup _
  | compare operator =>
      cases shifted
      exact .operator rfl (by simp) _
  | constant literal =>
      cases shifted
      exact .operand (by simp) (by simp) rfl _
  | number text =>
      cases inRange : Stacks.literalOfNumber? text with
      | some literal =>
          simp only [Stacks.shift, inRange] at shifted
          cases shifted
          exact .operand (by simp) (by simp) rfl _
      | none =>
          simp only [Stacks.shift, inRange] at shifted
          cases shifted
  | word word =>
      cases waits : Pending.ofWord? word with
      | none =>
          simp only [Stacks.shift, waits] at shifted
          cases shifted
          exact .operand (by simp) (by simp) (by simp [Token.isOperator, waits]) _
      | some connective =>
          have isOperator : (Token.word word).isOperator = true := by
            simp [Token.isOperator, waits]
          have pushed : after.pending = connective :: before.pending := by
            cases connective with
            | not | and | or | openGroup | compare =>
                simp only [Stacks.shift, waits] at shifted
                cases shifted
                rfl
          rw [pushed]
          exact .operator isOperator (notGroup_of_ofWord? waits) _

theorem waitsAlong_of_foldlM {tokens : List Token}
    (folded : tokens.foldlM Stacks.shift before interner = (.ok after, later)) :
    WaitsAlong tokens before.pending after.pending := by
  induction tokens generalizing before interner with
  | nil =>
      cases folded
      exact .nil _
  | cons token tokens ih =>
      rw [List.foldlM_cons] at folded
      obtain ⟨between, _, shifted, later⟩ := bind_eq_ok_iff.1 folded
      exact .cons (waits_of_shift shifted) (ih later)

theorem waitsAlong_of_ofTokens {tokens : List Token} {shared : SharedCondition}
    (reduced : ofTokens tokens interner = (.ok shared, later)) : WaitsAlong tokens [] [] := by
  obtain ⟨held, between, folded, reduced⟩ := bind_eq_ok_iff.1 reduced
  have along := waitsAlong_of_foldlM folded
  cases outcome : held.result with
  | ok condition => rwa [Stacks.pending_of_result outcome] at along
  | error error =>
      simp only [outcome] at reduced
      cases reduced

end

theorem WaitsAlong.split {front back : List Token} {before after : List Pending}
    (along : WaitsAlong (front ++ back) before after) :
    ∃ between, WaitsAlong front before between ∧ WaitsAlong back between after := by
  induction front generalizing before with
  | nil => exact ⟨before, .nil before, along⟩
  | cons token front ih =>
      cases along with
      | cons waits later =>
          obtain ⟨between, first, rest⟩ := ih later
          exact ⟨between, .cons waits first, rest⟩

theorem Waits.count {token : Token} {before after : List Pending}
    (waits : Waits token before after) :
    before.count .openGroup + [token].count .openGroup =
      after.count .openGroup + [token].count .closeGroup := by
  cases waits with
  | openGroup => simp
  | closeGroup noGroup => simp [List.count_eq_zero.2 noGroup]
  | operator isOperator notGroup =>
      have notOpen : token ≠ .openGroup := by
        rintro rfl
        cases isOperator
      have notClose : token ≠ .closeGroup := by
        rintro rfl
        cases isOperator
      simp [notGroup, notOpen, notClose]
  | operand notOpen notClose => simp [notOpen, notClose]

theorem WaitsAlong.count {tokens : List Token} {before after : List Pending}
    (along : WaitsAlong tokens before after) :
    before.count .openGroup + tokens.count .openGroup =
      after.count .openGroup + tokens.count .closeGroup := by
  induction along with
  | nil => rfl
  | @cons token tokens before between after waits _ ih =>
      have one := waits.count
      rw [← List.singleton_append, List.count_append, List.count_append]
      omega

theorem WaitsAlong.balanced {tokens : List Token} (along : WaitsAlong tokens [] []) :
    Token.Balanced tokens := by
  refine ⟨?_, ?_⟩
  · rintro front ⟨back, rfl⟩
    obtain ⟨between, first, _⟩ := along.split
    have count := first.count
    rw [List.count_nil, Nat.zero_add] at count
    omega
  · have count := along.count
    rw [List.count_nil, Nat.zero_add, Nat.zero_add] at count
    exact count.symm

theorem Waits.outside {token : Token} {top ground after : List Pending}
    (noGroup : .openGroup ∉ ground) (waits : Waits token (top ++ ground) after) :
    ∃ later, after = later ++ ground := by
  generalize same : top ++ ground = before at waits
  cases waits with
  | openGroup => exact ⟨.openGroup :: top, by rw [← same]; rfl⟩
  | @closeGroup inside _ pending =>
      rcases List.append_eq_append_iff.1 same with ⟨others, _, isGround⟩ | ⟨others, _, isRest⟩
      · have member : .openGroup ∈ ground := by simp [isGround]
        exact absurd member noGroup
      · cases others with
        | nil =>
            have member : .openGroup ∈ ground := by simp [← isRest.trans (List.nil_append _)]
            exact absurd member noGroup
        | cons other others => exact ⟨others, (List.cons.inj isRest).2⟩
  | operator => exact ⟨_ :: top, by rw [← same]; rfl⟩
  | operand => exact ⟨top, same.symm⟩

theorem WaitsAlong.outside {tokens : List Token} {top ground after : List Pending}
    (noGroup : .openGroup ∉ ground) (along : WaitsAlong tokens (top ++ ground) after) :
    ∃ later, after = later ++ ground := by
  generalize same : top ++ ground = before at along
  induction along generalizing top with
  | nil => exact ⟨top, same.symm⟩
  | cons waits _ ih =>
      rw [← same] at waits
      obtain ⟨later, between⟩ := waits.outside noGroup
      exact ih between.symm

theorem WaitsAlong.next_outside {next : Token} {tokens : List Token} {before : List Pending}
    (noGroup : .openGroup ∉ before) (along : WaitsAlong (next :: tokens) before []) :
    next ≠ .closeGroup ∧ next.isOperator = false := by
  cases along with
  | cons waits along =>
      cases waits with
      | openGroup => exact ⟨by simp, rfl⟩
      | closeGroup _ pending => exact absurd (by simp) noGroup
      | @operator _ operator _ notGroup =>
          have outside : .openGroup ∉ operator :: before := by simp [noGroup, Ne.symm notGroup]
          have waiting : WaitsAlong tokens ([] ++ operator :: before) [] := along
          obtain ⟨later, ended⟩ := waiting.outside outside
          simp at ended
      | operand _ notClose notOperator => exact ⟨notClose, notOperator⟩

theorem Waits.inGroup {token : Token} {tokens : List Token} {before between : List Pending}
    (waits : Waits token before between) (inGroup : .openGroup ∈ before)
    (along : WaitsAlong (tokens ++ [.closeGroup]) between [])
    (separated : Token.Separated (token :: tokens)) : .openGroup ∈ between := by
  cases waits with
  | openGroup => exact List.mem_cons_self
  | operator => exact List.mem_cons_of_mem _ inGroup
  | operand => exact inGroup
  | closeGroup =>
      by_cases outside : .openGroup ∈ between
      · exact outside
      · cases tokens with
        | nil => exact absurd rfl (along.next_outside outside).1
        | cons next later =>
            obtain ⟨notClose, notOperator⟩ := along.next_outside outside
            have found := (List.prefix_append [.closeGroup, next] later).isInfix
            rcases separated next found with isClose | isOperator
            · exact absurd isClose notClose
            · rw [isOperator] at notOperator
              cases notOperator

theorem WaitsAlong.inGroup {tokens : List Token} {before : List Pending}
    (along : WaitsAlong (tokens ++ [.closeGroup]) before []) (separated : Token.Separated tokens)
    (inGroup : .openGroup ∈ before) :
    ∀ front, front <+: tokens →
      front.count .closeGroup < before.count .openGroup + front.count .openGroup := by
  have positive := List.count_pos_iff.2 inGroup
  induction tokens generalizing before with
  | nil =>
      intro front isPrefix
      rw [List.prefix_nil.1 isPrefix]
      simpa using positive
  | cons token tokens ih =>
      rintro (_ | ⟨first, front⟩) isPrefix
      · simpa using positive
      · obtain ⟨rfl, later⟩ := List.cons_prefix_cons.1 isPrefix
        cases along with
        | cons waits along =>
            have count := waits.count
            have still := waits.inGroup inGroup along separated
            have fewer := ih along separated.later still (List.count_pos_iff.2 still) front later
            rw [← List.singleton_append, List.count_append, List.count_append]
            omega

structure NearlyBalanced (tokens : List Token) : Prop where
  upTo : ∀ front, front <+: tokens →
    front.count .closeGroup ≤ front.count .openGroup + 1
  total : tokens.count .closeGroup = tokens.count .openGroup

theorem nearlyBalanced_of_group {own : List Token}
    (balanced : Token.Balanced (.openGroup :: (own ++ [.closeGroup]))) : NearlyBalanced own := by
  refine ⟨?_, by simpa using balanced.total⟩
  intro front isPrefix
  have longer : .openGroup :: front <+: .openGroup :: (own ++ [.closeGroup]) :=
    List.cons_prefix_cons.2 ⟨rfl, isPrefix.trans (List.prefix_append _ _)⟩
  simpa using balanced.upTo _ longer

/-- The tokens in front are counted one by one; behind them stands what the pair is put around. -/
theorem nearlyBalanced_of_typed {first : Token} {name content : String} {later : List Token}
    (notOpen : first ≠ .openGroup) (notClose : first ≠ .closeGroup)
    (balanced : Token.Balanced (.constant (.typed name content) :: (later ++ [.closeGroup]))) :
    NearlyBalanced (first :: .closeGroup :: .constant (.string content) :: later) := by
  have total : later.count .closeGroup + 1 = later.count .openGroup := by
    simpa using balanced.total
  refine ⟨?_, by simpa [notOpen, notClose] using total⟩
  rintro (_ | ⟨one, _ | ⟨two, _ | ⟨three, front⟩⟩⟩) isPrefix
  · simp
  · obtain ⟨rfl, _⟩ := List.cons_prefix_cons.1 isPrefix
    simp [notClose]
  · obtain ⟨rfl, rest⟩ := List.cons_prefix_cons.1 isPrefix
    obtain ⟨rfl, _⟩ := List.cons_prefix_cons.1 rest
    simp [notOpen, notClose]
  · obtain ⟨rfl, behindOne⟩ := List.cons_prefix_cons.1 isPrefix
    obtain ⟨rfl, behindTwo⟩ := List.cons_prefix_cons.1 behindOne
    obtain ⟨rfl, inLater⟩ := List.cons_prefix_cons.1 behindTwo
    have longer : .constant (.typed name content) :: front <+:
        .constant (.typed name content) :: (later ++ [.closeGroup]) :=
      List.cons_prefix_cons.2 ⟨rfl, inLater.trans (List.prefix_append _ _)⟩
    simpa [notOpen, notClose] using balanced.upTo _ longer

theorem WaitsAlong.nearlyBalanced {own found : List Token} (along : WaitsAlong found [] [])
    (encloses : Token.Encloses own found) : NearlyBalanced own := by
  cases encloses with
  | group => exact nearlyBalanced_of_group along.balanced
  | typed notOpen notClose shape =>
      rw [shape]
      exact nearlyBalanced_of_typed notOpen notClose along.balanced

theorem WaitsAlong.balanced_of_separated {own found : List Token} (along : WaitsAlong found [] [])
    (encloses : Token.Encloses own found) (separated : Token.Separated own) :
    Token.Balanced own := by
  refine ⟨?_, (along.nearlyBalanced encloses).total⟩
  cases encloses with
  | typed notOpen notClose shape =>
      have found : [.closeGroup, .constant (.string _)] <:+: own := ⟨[_], _, shape.symm⟩
      rcases separated _ found with isClose | isOperator
      · cases isClose
      · cases isOperator
  | group =>
      cases along with
      | cons waits along =>
          cases waits with
          | openGroup =>
              intro front isPrefix
              have fewer := along.inGroup separated List.mem_cons_self front isPrefix
              rw [List.count_singleton_self] at fewer
              omega
          | operator isOperator => cases isOperator
          | operand notOpen => exact absurd rfl notOpen

/-- The parentheses of a text that is parsed are as many at both ends, and at most one more has
ended than has begun. They are balanced where the ends of groups are followed by operators. -/
theorem parentheses_of_parse {text : String} {bindings : List Value} {interner after : Interner}
    {shared : SharedCondition} (parsed : parse text bindings interner = (.ok shared, after)) :
    ∃ expanded own, Template.expand text bindings = .ok expanded ∧
      Token.scan expanded.toList = .ok own ∧
      own.count .closeGroup = own.count .openGroup ∧
      (∀ front, front <+: own → front.count .closeGroup ≤ front.count .openGroup + 1) ∧
      (Token.Separated own → Token.Balanced own) := by
  obtain ⟨expanded, found, written, read, reduced⟩ := exists_tokens_of_parse parsed
  have along := waitsAlong_of_ofTokens reduced
  rcases Token.scan_enclosed expanded.toList with
    ⟨own, enclosed, scanned, scannedEnclosed, encloses⟩ | ⟨_, _, _, stuck⟩
  · rw [scan_of_tokens read] at scannedEnclosed
    cases scannedEnclosed
    have nearly := along.nearlyBalanced encloses
    exact ⟨expanded, own, written, scanned, nearly.total, nearly.upTo,
      along.balanced_of_separated encloses⟩
  · rw [scan_of_tokens read] at stuck
    cases stuck

theorem parentheses_of_parse_low : ∃ shared after own,
    parse "(low = 1) and high = 2" [] { nextIdentity := 0, known := [] } = (.ok shared, after) ∧
    Token.scan "(low = 1) and high = 2".toList = .ok own ∧ Token.Separated own ∧
    Token.Balanced own := by
  have scanned : Token.Scanned "(low = 1) and high = 2".toList
      [.openGroup, .word "low", .compare .equal, .number "1", .closeGroup, .word "and",
        .word "high", .compare .equal, .number "2"] := by
    repeat refine .step rfl rfl ?_
    exact .nil rfl
  have enclosed : Token.Scanned ('(' :: "(low = 1) and high = 2".toList ++ [')'])
      [.openGroup, .openGroup, .word "low", .compare .equal, .number "1", .closeGroup,
        .word "and", .word "high", .compare .equal, .number "2", .closeGroup] := by
    repeat refine .step rfl rfl ?_
    exact .nil rfl
  have written : Template.expand "(low = 1) and high = 2" [] = .ok "(low = 1) and high = 2" := rfl
  have parsed : ∃ shared after, parse "(low = 1) and high = 2" []
      { nextIdentity := 0, known := [] } = (.ok shared, after) := by
    rw [parse_of_tokens written (tokens_of_scan enclosed.scan_eq)]
    exact ⟨_, _, rfl⟩
  obtain ⟨shared, after, parsed⟩ := parsed
  obtain ⟨expanded, own, sameText, sameTokens, _, _, balanced⟩ := parentheses_of_parse parsed
  rw [written] at sameText
  cases sameText
  rw [scanned.scan_eq] at sameTokens
  cases sameTokens
  have separated : Token.Separated [.openGroup, .word "low", .compare .equal, .number "1",
      .closeGroup, .word "and", .word "high", .compare .equal, .number "2"] := by
    intro next found
    have isAnd : next = .word "and" := by simpa [List.infix_cons_iff] using found
    rw [isAnd]
    exact .inr rfl
  exact ⟨shared, after, _, parsed, scanned.scan_eq, separated, balanced separated⟩

theorem parse_unbalanced : ∃ shared after own,
    parse "low = 1) (and high = 2" [] { nextIdentity := 0, known := [] } = (.ok shared, after) ∧
    Token.scan "low = 1) (and high = 2".toList = .ok own ∧ ¬Token.Balanced own := by
  have scanned : Token.Scanned "low = 1) (and high = 2".toList
      [.word "low", .compare .equal, .number "1", .closeGroup, .openGroup, .word "and",
        .word "high", .compare .equal, .number "2"] := by
    repeat refine .step rfl rfl ?_
    exact .nil rfl
  have enclosed : Token.Scanned ('(' :: "low = 1) (and high = 2".toList ++ [')'])
      [.openGroup, .word "low", .compare .equal, .number "1", .closeGroup, .openGroup,
        .word "and", .word "high", .compare .equal, .number "2", .closeGroup] := by
    repeat refine .step rfl rfl ?_
    exact .nil rfl
  have written : Template.expand "low = 1) (and high = 2" [] = .ok "low = 1) (and high = 2" := rfl
  have parsed : ∃ shared after, parse "low = 1) (and high = 2" []
      { nextIdentity := 0, known := [] } = (.ok shared, after) := by
    rw [parse_of_tokens written (tokens_of_scan enclosed.scan_eq)]
    exact ⟨_, _, rfl⟩
  obtain ⟨shared, after, parsed⟩ := parsed
  refine ⟨shared, after, _, parsed, scanned.scan_eq, ?_⟩
  intro balanced
  have fewer := balanced.upTo [.word "low", .compare .equal, .number "1", .closeGroup] (by simp)
  exact absurd fewer (by decide)

end SharedCondition

end FactRules
