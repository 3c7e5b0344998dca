import FactRules.Proofs.Sharing

/-!
Invariants of parsing. What is true of keys and literals that can be read, and stays true when
operators are applied, is true of whatever is parsed; it may depend on what the interner knows.
-/

namespace FactRules

theorem Token.Legal.printable {literal : Literal} (legal : (Token.constant literal).Legal) :
    literal.Printable := by
  cases literal with
  | float value => cases legal
  | typed name text => exact legal
  | string | integer | bool | null => trivial

theorem Token.Legal.isKey {word : String} (legal : (Token.word word).Legal)
    (notConnective : Pending.ofWord? word = none) : IsKey word :=
  ⟨scan_of_isWord legal, notConnective⟩

namespace SharedCondition

theorem Stacks.printable_of_literalOfNumber? {text : String} {literal : Literal}
    (read : literalOfNumber? text = some literal) : literal.Printable := by
  unfold literalOfNumber? at read
  split at read
  · obtain ⟨value, finite, rfl⟩ := Option.map_eq_some_iff.1 read
    exact (Option.filter_eq_some_iff.1 finite).2
  · split at read
    · cases read
      trivial
    · cases read

theorem Stacks.operands_of_result {shifted : Stacks} {shared : SharedCondition}
    (reduced : shifted.result = .ok shared) : shifted.operands = [.condition shared] := by
  unfold result at reduced
  split at reduced
  · cases reduced
  · split at reduced
    · next same _ =>
        cases reduced
        exact same
    · cases reduced
    · cases reduced
    · cases reduced

theorem Stacks.pending_of_result {shifted : Stacks} {shared : SharedCondition}
    (reduced : shifted.result = .ok shared) : shifted.pending = [] := by
  unfold result at reduced
  split at reduced
  · cases reduced
  · split at reduced
    · next nothing => exact nothing
    · cases reduced
    · cases reduced
    · cases reduced

theorem tokens_of_scan {text : String} {found : List Token}
    (scanned : Token.scan ('(' :: text.toList ++ [')']) = .ok found) :
    tokens text = .ok found := by
  simp only [tokens, scanned]

theorem scan_of_tokens {text : String} {found : List Token} (read : tokens text = .ok found) :
    Token.scan ('(' :: text.toList ++ [')']) = .ok found := by
  unfold tokens at read
  simp only at read
  split at read
  · next scanned =>
      cases read
      exact scanned
  · cases read

theorem parse_of_tokens {text expanded : String} {bindings : List Value} {found : List Token}
    (written : Template.expand text bindings = .ok expanded) (read : tokens expanded = .ok found) :
    parse text bindings = ofTokens found := by
  simp only [parse, written, read]

theorem exists_tokens_of_parse {text : String} {bindings : List Value} {interner after : Interner}
    {shared : SharedCondition} (parsed : parse text bindings interner = (.ok shared, after)) :
    ∃ expanded found, Template.expand text bindings = .ok expanded ∧
      tokens expanded = .ok found ∧ ofTokens found interner = (.ok shared, after) := by
  cases written : Template.expand text bindings with
  | error error =>
      simp only [parse, written] at parsed
      cases parsed
  | ok expanded =>
      cases read : tokens expanded with
      | error error =>
          simp only [parse, written, read] at parsed
          cases parsed
      | ok found =>
          rw [parse_of_tokens written read] at parsed
          exact ⟨expanded, found, rfl, read, parsed⟩

open Interner

/-- From this interner the work ends in one that knows as much and is held, with the result. -/
structure Keeps {ε α : Type} (held : Interner → Prop) (result : Interner → α → Prop)
    (work : Sharing ε α) (interner : Interner) : Prop where
  grows : (work interner).2.Extends interner
  held : held (work interner).2
  result : ∀ value, (work interner).1 = .ok value → result (work interner).2 value

namespace Keeps

variable {ε α β : Type} {held : Interner → Prop} {result : Interner → α → Prop}
  {interner : Interner}

theorem of_ok {work : Sharing ε α} (keeps : Keeps held result work interner) {value : α}
    {after : Interner} (ran : work interner = (.ok value, after)) : held after ∧ result after value := by
  obtain ⟨_, isHeld, isResult⟩ := keeps
  rw [ran] at isHeld isResult
  exact ⟨isHeld, isResult value rfl⟩

theorem imp {work : Sharing ε α} (keeps : Keeps held result work interner)
    {other : Interner → α → Prop} (weaker : ∀ after value, result after value → other after value) :
    Keeps held other work interner :=
  ⟨keeps.grows, keeps.held, fun value same => weaker _ value (keeps.result value same)⟩

theorem pure {value : α} (isHeld : held interner) (isResult : result interner value) :
    Keeps held result (Pure.pure value : Sharing ε α) interner := by
  refine ⟨Extends.refl interner, isHeld, ?_⟩
  rintro _ same
  cases same
  exact isResult

theorem throw (isHeld : held interner) (error : ε) :
    Keeps held result (MonadExcept.throw error : Sharing ε α) interner := by
  refine ⟨Extends.refl interner, isHeld, ?_⟩
  rintro _ same
  cases same

theorem bind {work : Sharing ε α} {next : α → Sharing ε β} {final : Interner → β → Prop}
    (first : Keeps held result work interner)
    (later : ∀ value after, after.Extends interner → held after → result after value →
      Keeps held final (next value) after) :
    Keeps held final (work >>= next) interner := by
  obtain ⟨grows, isHeld, isResult⟩ := first
  cases outcome : work interner with
  | mk value? after =>
      rw [outcome] at grows isHeld isResult
      cases value? with
      | error error =>
          have applied : (work >>= next) interner = (.error error, after) := by
            rw [bind_apply, outcome]
          refine ⟨applied ▸ grows, applied ▸ isHeld, ?_⟩
          intro value same
          rw [applied] at same
          cases same
      | ok value =>
          have applied : (work >>= next) interner = next value after := by
            rw [bind_apply, outcome]
          obtain ⟨growsOn, stillHeld, isFinal⟩ :=
            later value after grows isHeld (isResult value rfl)
          rw [← applied] at growsOn stillHeld isFinal
          exact ⟨growsOn.trans grows, stillHeld, isFinal⟩

end Keeps

/-- Judgements about work that shares conditions, and what its results satisfy: they follow the
work, part by part. -/
structure Judges (held : Interner → Prop)
    (judged : {α : Type} → (Interner → α → Prop) → Sharing ParseError α → Interner → Prop) :
    Prop where
  pure : ∀ {α : Type} {result : Interner → α → Prop} {interner : Interner} {value : α},
    held interner → result interner value → judged result (Pure.pure value) interner
  throw : ∀ {α : Type} {result : Interner → α → Prop} {interner : Interner},
    held interner → ∀ error, judged result (MonadExcept.throw error) interner
  bind : ∀ {α β : Type} {result : Interner → α → Prop} {final : Interner → β → Prop}
    {work : Sharing ParseError α} {next : α → Sharing ParseError β} {interner : Interner},
    judged result work interner →
    (∀ value after, after.Extends interner → held after → result after value →
      judged final (next value) after) →
    judged final (work >>= next) interner

theorem Keeps.judges (held : Interner → Prop) : Judges held (Keeps held) where
  pure isHeld isResult := Keeps.pure isHeld isResult
  throw isHeld error := Keeps.throw isHeld error
  bind first later := first.bind later

/-- A property of operands that the keys and literals of a text have, that stays when more is known,
and that operators hand on to the conditions they make. -/
structure Invariant (held : Interner → Prop)
    (judged : {α : Type} → (Interner → α → Prop) → Sharing ParseError α → Interner → Prop)
    (sound : Interner → Operand → Prop) : Prop extends Judges held judged where
  grows : ∀ {earlier later : Interner} {operand : Operand}, later.Extends earlier → held later →
    sound earlier operand → sound later operand
  marker : ∀ interner, sound interner .marker
  key : ∀ interner {path : String}, IsKey path → sound interner (.key path)
  literal : ∀ interner {literal : Literal}, literal.Printable → sound interner (.literal literal)
  combine : ∀ {interner : Interner} {left right : Operand}, held interner →
    sound interner left → sound interner right → ∀ operator,
      judged (fun after shared => sound after (.condition shared)) (combine operator left right)
        interner

namespace Invariant

variable {held : Interner → Prop}
  {judged : {α : Type} → (Interner → α → Prop) → Sharing ParseError α → Interner → Prop}
  {sound : Interner → Operand → Prop} {interner : Interner}

def Sound (sound : Interner → Operand → Prop) (interner : Interner) (shifted : Stacks) : Prop :=
  ∀ operand ∈ shifted.operands, sound interner operand

theorem sound_push {shifted : Stacks} {operand : Operand} (all : Sound sound interner shifted)
    (one : sound interner operand) : Sound sound interner (shifted.push operand) := by
  intro other member
  rcases List.mem_cons.1 member with rfl | later
  · exact one
  · exact all other later

theorem closeGroup (invariant : Invariant held judged sound) (isHeld : held interner) :
    ∀ (pending : List Pending) {operands : List Operand},
      (∀ operand ∈ operands, sound interner operand) →
      judged (Sound sound) (Stacks.closeGroup pending operands) interner := by
  intro pending
  induction pending generalizing interner with
  | nil =>
      intro operands _
      rw [Stacks.closeGroup]
      exact invariant.throw isHeld _
  | cons operator pending ih =>
      intro operands all
      unfold Stacks.closeGroup
      split
      · next missing => cases missing
      · next same =>
          cases same
          exact invariant.pure isHeld all
      · next same =>
          cases same
          refine invariant.bind (invariant.combine isHeld (all _ (by simp)) (all _ (by simp)) _) ?_
          intro shared after grows heldAfter isSound
          refine ih heldAfter ?_
          intro operand member
          rcases List.mem_cons.1 member with rfl | later
          · exact isSound
          · exact invariant.grows grows heldAfter (all operand (by simp [later]))
      · exact invariant.throw isHeld _

theorem shift (invariant : Invariant held judged sound) (isHeld : held interner) {shifted : Stacks}
    (all : Sound sound interner shifted) {token : Token} (legal : token.Legal) :
    judged (Sound sound) (shifted.shift token) interner := by
  cases token with
  | openGroup => exact invariant.pure isHeld all
  | closeGroup => exact invariant.closeGroup isHeld _ all
  | compare operator => exact invariant.pure isHeld all
  | constant literal =>
      exact invariant.pure isHeld (sound_push all (invariant.literal interner legal.printable))
  | number text =>
      simp only [Stacks.shift]
      split
      · next read =>
          have printable := Stacks.printable_of_literalOfNumber? read
          exact invariant.pure isHeld (sound_push all (invariant.literal interner printable))
      · exact invariant.throw isHeld _
  | word word =>
      simp only [Stacks.shift]
      split
      · exact invariant.pure isHeld (sound_push all (invariant.marker interner))
      · exact invariant.pure isHeld all
      · next notConnective =>
          have isKey := legal.isKey notConnective
          exact invariant.pure isHeld (sound_push all (invariant.key interner isKey))

theorem foldlM_shift (invariant : Invariant held judged sound) (isHeld : held interner)
    {shifted : Stacks} (all : Sound sound interner shifted) {tokens : List Token}
    (legal : ∀ token ∈ tokens, token.Legal) :
    judged (Sound sound) (tokens.foldlM Stacks.shift shifted) interner := by
  induction tokens generalizing shifted interner with
  | nil => exact invariant.pure isHeld all
  | cons token tokens ih =>
      rw [List.foldlM_cons]
      refine invariant.bind (invariant.shift isHeld all (legal token List.mem_cons_self)) ?_
      intro between after _ heldAfter allAfter
      exact ih heldAfter allAfter fun other member => legal other (List.mem_cons_of_mem _ member)

theorem ofTokens (invariant : Invariant held judged sound) (isHeld : held interner)
    {tokens : List Token} (legal : ∀ token ∈ tokens, token.Legal) :
    judged (fun after shared => sound after (.condition shared)) (ofTokens tokens) interner := by
  have nothing : Sound sound interner {} := by simp [Sound]
  refine invariant.bind (invariant.foldlM_shift isHeld nothing legal) ?_
  intro shifted after _ heldAfter all
  split
  · next reduced =>
      refine invariant.pure heldAfter (all _ ?_)
      rw [Stacks.operands_of_result reduced]
      exact List.mem_cons_self
  · exact invariant.throw heldAfter _

theorem parse (invariant : Invariant held judged sound) (isHeld : held interner) (text : String)
    (bindings : List Value) :
    judged (fun after shared => sound after (.condition shared)) (parse text bindings)
      interner := by
  unfold SharedCondition.parse
  split
  · exact invariant.throw isHeld _
  · next expanded _ =>
      split
      · exact invariant.throw isHeld _
      · next read =>
          have scanned := Token.scanned_of_scan (scan_of_tokens read)
          exact invariant.ofTokens isHeld scanned.legal

end Invariant

end SharedCondition

end FactRules
