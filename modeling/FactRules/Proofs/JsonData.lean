import FactRules.Proofs.JsonUnits

/-!
JSON data survive being written and read. The units of a tree build the tree again, and a datum is
written as a tree that means it to every reader who may go as deep as the datum does.
-/

namespace FactRules.Json

namespace Tree

mutual

def lexemes : Tree → List Lexeme
  | .null => [.null]
  | .bool value => [.bool value]
  | .number numeral => [.number numeral]
  | .string pieces => [.string pieces]
  | .array items => .openArray :: [Lexeme.comma].intercalate (itemLexemes items) ++ [.closeArray]
  | .object members =>
      .openObject :: [Lexeme.comma].intercalate (memberLexemes members) ++ [.closeObject]

def itemLexemes : List Tree → List (List Lexeme)
  | [] => []
  | item :: items => lexemes item :: itemLexemes items

def memberLexemes : List (List Piece × Tree) → List (List Lexeme)
  | [] => []
  | (name, tree) :: members => (.string name :: .colon :: lexemes tree) :: memberLexemes members

end

end Tree

namespace Builder

theorem foldlM_cons {builder next : Builder} {lexeme : Lexeme}
    (steps : step builder lexeme = some next) (rest : List Lexeme) :
    (lexeme :: rest).foldlM step builder = rest.foldlM step next := by
  rw [List.foldlM_cons, steps, Option.bind_eq_bind, Option.bind_some]

theorem foldlM_firstItem (tree : Tree) (frames : List Frame) (rest : List Lexeme) :
    (tree.lexemes ++ rest).foldlM step (.atFirstItem frames) =
      (tree.lexemes ++ rest).foldlM step (.atValue (.array [] :: frames)) := by
  cases tree <;> rfl

mutual

theorem foldlM_lexemes : (tree : Tree) → ∀ (frames : List Frame) (rest : List Lexeme),
    (tree.lexemes ++ rest).foldlM step (.atValue frames) = rest.foldlM step (deliver tree frames)
  | .null, frames, rest => foldlM_cons rfl rest
  | .bool _, frames, rest => foldlM_cons rfl rest
  | .number _, frames, rest => foldlM_cons rfl rest
  | .string _, frames, rest => foldlM_cons rfl rest
  | .array [], frames, rest => by
      rw [Tree.lexemes, Tree.itemLexemes, List.append_assoc, List.cons_append, foldlM_cons rfl]
      exact foldlM_cons rfl rest
  | .array (item :: items), frames, rest => by
      rw [Tree.lexemes, Tree.itemLexemes, List.append_assoc, List.cons_append, foldlM_cons rfl,
        intercalate_cons, List.append_assoc, foldlM_firstItem, foldlM_lexemes item]
      exact foldlM_items items [item] frames rest
  | .object [], frames, rest => by
      rw [Tree.lexemes, Tree.memberLexemes, List.append_assoc, List.cons_append, foldlM_cons rfl]
      exact foldlM_cons rfl rest
  | .object ((name, tree) :: members), frames, rest => by
      rw [Tree.lexemes, Tree.memberLexemes, List.append_assoc, List.cons_append, foldlM_cons rfl,
        intercalate_cons, List.append_assoc, List.cons_append, foldlM_cons rfl, List.cons_append,
        foldlM_cons rfl, foldlM_lexemes tree]
      exact foldlM_members members [(name, tree)] frames rest

theorem foldlM_items : (items before : List Tree) → ∀ (frames : List Frame) (rest : List Lexeme),
    ((Tree.itemLexemes items).flatMap (Lexeme.comma :: ·) ++
        ([Lexeme.closeArray] ++ rest)).foldlM step (.afterItem before frames) =
      rest.foldlM step (deliver (.array (before.reverse ++ items)) frames)
  | [], before, frames, rest => by
      rw [List.append_nil]
      exact foldlM_cons rfl rest
  | item :: items, before, frames, rest => by
      rw [Tree.itemLexemes, List.flatMap_cons, List.append_assoc, List.cons_append, foldlM_cons rfl,
        foldlM_lexemes item, deliver, foldlM_items items, List.reverse_cons, List.append_assoc,
        List.singleton_append]

theorem foldlM_members : (members before : List (List Piece × Tree)) →
    ∀ (frames : List Frame) (rest : List Lexeme),
    ((Tree.memberLexemes members).flatMap (Lexeme.comma :: ·) ++
        ([Lexeme.closeObject] ++ rest)).foldlM step (.afterMember before frames) =
      rest.foldlM step (deliver (.object (before.reverse ++ members)) frames)
  | [], before, frames, rest => by
      rw [List.append_nil]
      exact foldlM_cons rfl rest
  | (name, tree) :: members, before, frames, rest => by
      rw [Tree.memberLexemes, List.flatMap_cons, List.append_assoc, List.cons_append,
        foldlM_cons rfl, List.cons_append, foldlM_cons rfl, List.cons_append, foldlM_cons rfl,
        foldlM_lexemes tree, deliver, foldlM_members members, List.reverse_cons, List.append_assoc,
        List.singleton_append]

end

end Builder

theorem Tree.ofLexemes?_lexemes (tree : Tree) : ofLexemes? tree.lexemes = some tree := by
  have built := Builder.foldlM_lexemes tree [] []
  rw [List.append_nil] at built
  rw [ofLexemes?, built]
  rfl

theorem Tree.ofText?_of_readAs {text : List Char} {tree : Tree} (reads : ReadAs text tree.lexemes) :
    ofText? (String.ofList text) = some tree := by
  have nothing : Lexeme.scan [] = some [] := by
    rw [Lexeme.scan]
    rfl
  have read := reads [] (by simp [Follows])
  rw [List.append_nil, nothing, Option.map_some, List.append_nil] at read
  rw [ofText?, String.toList_ofList, read, Option.bind_some, ofLexemes?_lexemes]

namespace Number

def Fits (value : Int) : Prop :=
  Int64.minValue.toInt ≤ value ∧ value < UInt64.size

theorem significantDigits_of_fits {digits : List Char} {start : Nat}
    (fits : Nat.ofDigitChars 10 digits start < UInt64.size) :
    significantDigits start digits = (Nat.ofDigitChars 10 digits start, []) := by
  induction digits generalizing start with
  | nil => rfl
  | cons digit digits ih =>
      rw [Nat.ofDigitChars_cons] at fits ⊢
      have below : 10 * start + Text.digitValue digit < UInt64.size :=
        Nat.lt_of_le_of_lt (Text.le_ofDigitChars digits _) fits
      rw [significantDigits, if_pos below]
      exact ih fits

theorem significantDigits_lt (digits : List Char) {start : Nat} (fits : start < UInt64.size) :
    (significantDigits start digits).1 < UInt64.size := by
  induction digits generalizing start with
  | nil => exact fits
  | cons digit digits ih =>
      rw [significantDigits]
      split
      · next below => exact ih below
      · exact fits

theorem ofNumeral?_toDigits (negative : Bool) {magnitude : Nat}
    (fits : magnitude < UInt64.size) :
    ofNumeral? ⟨negative, Nat.toDigits 10 magnitude, [], none⟩ =
      some (ofInteger negative magnitude) := by
  have same := Nat.ofDigitChars_ten_toDigits (n := magnitude)
  have digits := significantDigits_of_fits (same.symm ▸ fits)
  rw [same] at digits
  simp [ofNumeral?, digits]

theorem ofInteger_negative {magnitude : Nat} (positive : 0 < magnitude)
    (fits : Fits (-magnitude)) : ofInteger true magnitude = .integer (-magnitude) := by
  have inside : Text.inInt64 (-magnitude) = true := by
    have greatest : Int64.maxValue.toInt = 9223372036854775807 := rfl
    simp only [Text.inInt64, greatest, Bool.and_eq_true, decide_eq_true_eq]
    exact ⟨fits.1, by omega⟩
  rw [ofInteger, if_pos rfl, if_pos (by simp [positive, inside])]

theorem fits_of_ofInteger {negative : Bool} {magnitude : Nat} (bound : magnitude < UInt64.size)
    {value : Int} (made : ofInteger negative magnitude = .integer value) : Fits value := by
  have least : Int64.minValue.toInt = -9223372036854775808 := rfl
  unfold ofInteger at made
  split at made
  · split at made
    · next inside =>
        cases made
        simp only [Text.inInt64, Bool.and_eq_true, decide_eq_true_eq] at inside
        exact ⟨inside.2.1, by omega⟩
    · cases made
  · cases made
    exact ⟨by rw [least]; omega, Int.ofNat_lt.2 bound⟩

theorem fits_of_ofNumeral? {numeral : Numeral} {value : Int}
    (read : ofNumeral? numeral = some (.integer value)) : Fits value := by
  unfold ofNumeral? at read
  simp only at read
  split at read
  · obtain ⟨_, _, made⟩ := Option.map_eq_some_iff.1 read
    cases made
  · split at read
    · exact fits_of_ofInteger (significantDigits_lt numeral.whole (by decide))
        (Option.some.inj read)
    · obtain ⟨_, _, made⟩ := Option.map_eq_some_iff.1 read
      cases made

theorem exists_numeral {value : Int} (fits : Fits value) : ∃ numeral,
    ReadAs (Number.integer value).text [.number numeral] ∧
      ofNumeral? numeral = some (.integer value) := by
  cases value with
  | ofNat magnitude =>
      refine ⟨_, readAs_natural magnitude, ?_⟩
      rw [ofNumeral?_toDigits false (Int.ofNat_lt.1 fits.2)]
      rfl
  | negSucc magnitude =>
      refine ⟨_, readAs_negative (magnitude + 1), ?_⟩
      have least : Int64.minValue.toInt = -9223372036854775808 := rfl
      have size : UInt64.size = 18446744073709551616 := rfl
      have bound := fits.1
      rw [ofNumeral?_toDigits true (by omega), ofInteger_negative (Nat.succ_pos magnitude) fits]
      rfl

end Number

namespace Datum

mutual

def depth : Datum → Nat
  | .array items => itemsDepth items + 1
  | .object members => membersDepth members + 1
  | _ => 0

def itemsDepth : List Datum → Nat
  | [] => 0
  | item :: items => max (depth item) (itemsDepth items)

def membersDepth : List (String × Datum) → Nat
  | [] => 0
  | (_, datum) :: members => max (depth datum) (membersDepth members)

end

theorem membersDepth_le_iff {members : List (String × Datum)} {bound : Nat} :
    membersDepth members ≤ bound ↔ ∀ member ∈ members, member.2.depth ≤ bound := by
  induction members with
  | nil => simp [membersDepth]
  | cons member members ih => rw [membersDepth, Nat.max_le, ih, List.forall_mem_cons]

inductive Within (part : Datum) : Datum → Prop
  | self : Within part part
  | item {items : List Datum} {item : Datum} :
      item ∈ items → Within part item → Within part (.array items)
  | member {members : List (String × Datum)} {member : String × Datum} :
      member ∈ members → Within part member.2 → Within part (.object members)

def Throughout (holds : Datum → Prop) (datum : Datum) : Prop :=
  ∀ part, Within part datum → holds part

def FloatFree (datum : Datum) : Prop :=
  datum.Throughout fun part => ∀ value, part ≠ .number (.float value)

/-- What a datum can be at all: integers fit, and the names in an object ascend. -/
def Valid (datum : Datum) : Prop :=
  datum.Throughout fun part =>
    (∀ value, part = .number (.integer value) → Number.Fits value) ∧
      ∀ members, part = .object members → Table.Ascending members

section

variable {holds : Datum → Prop}

theorem throughout_leaf {datum : Datum} (leaf : datum.depth = 0) :
    Throughout holds datum ↔ holds datum := by
  constructor
  · intro all
    exact all datum .self
  · intro own part within
    cases within with
    | self => exact own
    | item => cases leaf
    | member => cases leaf

@[simp] theorem throughout_null : Throughout holds .null ↔ holds .null :=
  throughout_leaf rfl

@[simp] theorem throughout_bool {value : Bool} :
    Throughout holds (.bool value) ↔ holds (.bool value) :=
  throughout_leaf rfl

@[simp] theorem throughout_number {number : Number} :
    Throughout holds (.number number) ↔ holds (.number number) :=
  throughout_leaf rfl

@[simp] theorem throughout_string {text : String} :
    Throughout holds (.string text) ↔ holds (.string text) :=
  throughout_leaf rfl

@[simp] theorem throughout_array {items : List Datum} :
    Throughout holds (.array items) ↔
      holds (.array items) ∧ ∀ item ∈ items, Throughout holds item := by
  constructor
  · intro all
    exact ⟨all _ .self, fun item member part within => all part (.item member within)⟩
  · rintro ⟨own, each⟩ part within
    cases within with
    | self => exact own
    | item member within => exact each _ member part within

@[simp] theorem throughout_object {members : List (String × Datum)} :
    Throughout holds (.object members) ↔
      holds (.object members) ∧ ∀ member ∈ members, Throughout holds member.2 := by
  constructor
  · intro all
    exact ⟨all _ .self, fun member belongs part within => all part (.member belongs within)⟩
  · rintro ⟨own, each⟩ part within
    cases within with
    | self => exact own
    | member belongs within => exact each _ belongs part within

end

theorem floatFree_array {items : List Datum} :
    FloatFree (.array items) ↔ ∀ item ∈ items, item.FloatFree := by
  simp [FloatFree]

theorem floatFree_object {members : List (String × Datum)} :
    FloatFree (.object members) ↔ ∀ member ∈ members, member.2.FloatFree := by
  simp [FloatFree]

theorem valid_integer {value : Int} : Valid (.number (.integer value)) ↔ Number.Fits value := by
  simp [Valid]

theorem valid_array {items : List Datum} :
    Valid (.array items) ↔ ∀ item ∈ items, item.Valid := by
  simp [Valid]

theorem valid_object {members : List (String × Datum)} :
    Valid (.object members) ↔
      Table.Ascending members ∧ ∀ member ∈ members, member.2.Valid := by
  simp [Valid]

/-- The datum is written as the tree, and the tree means the datum to those who go deep enough. -/
structure Written (datum : Datum) (tree : Tree) : Prop where
  reads : ReadAs datum.text tree.lexemes
  meaning : ∀ depth, ofTree? depth tree = if datum.depth ≤ depth then some datum else none

structure WrittenMember (member : String × Datum) (given : List Piece × Tree) : Prop where
  name : Spelled member.1.toList given.1
  datum : Written member.2 given.2

theorem written_null : Written .null .null :=
  ⟨fun _ _ => Lexeme.scan_cons rfl rfl, fun _ => (if_pos (Nat.zero_le _)).symm⟩

theorem written_bool (value : Bool) : Written (.bool value) (.bool value) := by
  refine ⟨?_, fun _ => (if_pos (Nat.zero_le _)).symm⟩
  cases value <;> exact fun _ _ => Lexeme.scan_cons rfl rfl

theorem written_string {text : String} {pieces : List Piece}
    (spelled : Spelled text.toList pieces) :
    Written (.string text) (.string pieces) := by
  refine ⟨spelled.readAs, fun depth => ?_⟩
  rw [ofTree?, spelled.text?_eq, Option.map_some]
  exact (if_pos (Nat.zero_le _)).symm

theorem written_integer {value : Int} {numeral : Numeral}
    (reads : ReadAs (Number.integer value).text [.number numeral])
    (meaning : Number.ofNumeral? numeral = some (.integer value)) :
    Written (.number (.integer value)) (.number numeral) := by
  refine ⟨reads, fun depth => ?_⟩
  rw [ofTree?, meaning, Option.map_some]
  exact (if_pos (Nat.zero_le _)).symm

section

variable {items : List Datum} {trees : List Tree}

theorem readAs_array
    (each : List.Forall₂ (fun item tree => ReadAs item.text tree.lexemes) items trees) :
    ReadAs (text (.array items)) (Tree.lexemes (.array trees)) := by
  have parts : List.Forall₂ ReadAs (itemTexts items) (Tree.itemLexemes trees) := by
    induction each with
    | nil => exact .nil
    | cons reads _ ih => exact .cons reads ih
  exact readAs_enclosed parts (Lexeme.scan_mark rfl fun _ => rfl)
    (Lexeme.scan_mark rfl fun _ => rfl) fun _ _ first => .inr (.inl (Option.some.inj first).symm)

theorem ofItems?_of_written (each : List.Forall₂ Written items trees) (depth : Nat) :
    ofItems? depth trees = if itemsDepth items ≤ depth then some items else none := by
  induction each with
  | nil => exact (if_pos (Nat.zero_le _)).symm
  | @cons item tree items trees written _ ih =>
      simp only [ofItems?, written.meaning, ih, itemsDepth, Nat.max_le]
      by_cases first : item.depth ≤ depth
      · by_cases later : itemsDepth items ≤ depth <;> simp [first, later]
      · simp [first]

theorem written_array (each : List.Forall₂ Written items trees) :
    Written (.array items) (.array trees) := by
  refine ⟨readAs_array (each.imp fun _ _ written => written.reads), fun depth => ?_⟩
  cases depth with
  | zero => rfl
  | succ depth =>
      rw [ofTree?, ofItems?_of_written each, Datum.depth]
      by_cases bound : itemsDepth items ≤ depth <;> simp [bound]

end

section

variable {members : List (String × Datum)} {given : List (List Piece × Tree)}

theorem WrittenMember.readAs {member : String × Datum} {given : List Piece × Tree}
    (written : WrittenMember member given) :
    ReadAs (stringText member.1 ++ ':' :: member.2.text)
      (.string given.1 :: .colon :: given.2.lexemes) := by
  intro rest follows
  rw [List.append_assoc, written.name.scan_stringText, List.cons_append,
    Lexeme.scan_mark rfl fun _ => rfl, written.datum.reads rest follows]
  simp [Function.comp_def]

theorem readAs_object (each : List.Forall₂ WrittenMember members given) :
    ReadAs (text (.object members)) (Tree.lexemes (.object given)) := by
  have parts : List.Forall₂ ReadAs (memberTexts members) (Tree.memberLexemes given) := by
    induction each with
    | nil => exact .nil
    | cons written _ ih => exact .cons written.readAs ih
  exact readAs_enclosed parts (Lexeme.scan_mark rfl fun _ => rfl)
    (Lexeme.scan_mark rfl fun _ => rfl) fun _ _ first => .inr (.inr (Option.some.inj first).symm)

theorem ofMembers?_of_written (each : List.Forall₂ WrittenMember members given) (depth : Nat) :
    ofMembers? depth given = if membersDepth members ≤ depth then some members else none := by
  induction each with
  | nil => exact (if_pos (Nat.zero_le _)).symm
  | @cons member given members _ written _ ih =>
      obtain ⟨name, datum⟩ := member
      simp only [ofMembers?, written.name.text?_eq, written.datum.meaning, ih, membersDepth,
        Nat.max_le]
      by_cases first : datum.depth ≤ depth
      · by_cases later : membersDepth members ≤ depth <;> simp [first, later]
      · simp [first]

theorem written_object (ascending : Table.Ascending members)
    (each : List.Forall₂ WrittenMember members given) :
    Written (.object members) (.object given) := by
  refine ⟨readAs_object each, fun depth => ?_⟩
  cases depth with
  | zero => rfl
  | succ depth =>
      rw [ofTree?, ofMembers?_of_written each, Datum.depth]
      by_cases bound : membersDepth members ≤ depth <;>
        simp [bound, Table.ofList_of_ascending ascending]

end

mutual

theorem exists_written : (datum : Datum) → datum.Valid → datum.FloatFree →
    ∃ tree, Written datum tree
  | .null, _, _ => ⟨_, written_null⟩
  | .bool value, _, _ => ⟨_, written_bool value⟩
  | .number (.integer _), valid, _ =>
      have ⟨_, reads, meaning⟩ := Number.exists_numeral (valid_integer.1 valid)
      ⟨_, written_integer reads meaning⟩
  | .number (.float value), _, floatFree => absurd rfl (floatFree _ .self value)
  | .string text, _, _ =>
      have ⟨_, spelled⟩ := exists_spelled text.toList
      ⟨_, written_string spelled⟩
  | .array items, valid, floatFree =>
      have ⟨_, each⟩ :=
        exists_writtenItems items (valid_array.1 valid) (floatFree_array.1 floatFree)
      ⟨_, written_array each⟩
  | .object members, valid, floatFree =>
      have ⟨ascending, eachValid⟩ := valid_object.1 valid
      have ⟨_, each⟩ := exists_writtenMembers members eachValid (floatFree_object.1 floatFree)
      ⟨_, written_object ascending each⟩

theorem exists_writtenItems : (items : List Datum) → (∀ item ∈ items, item.Valid) →
    (∀ item ∈ items, item.FloatFree) → ∃ trees, List.Forall₂ Written items trees
  | [], _, _ => ⟨_, .nil⟩
  | item :: items, valid, floatFree =>
      have ⟨validItem, validItems⟩ := List.forall_mem_cons.1 valid
      have ⟨freeItem, freeItems⟩ := List.forall_mem_cons.1 floatFree
      have ⟨_, first⟩ := exists_written item validItem freeItem
      have ⟨_, later⟩ := exists_writtenItems items validItems freeItems
      ⟨_, .cons first later⟩

theorem exists_writtenMembers : (members : List (String × Datum)) →
    (∀ member ∈ members, member.2.Valid) → (∀ member ∈ members, member.2.FloatFree) →
    ∃ given, List.Forall₂ WrittenMember members given
  | [], _, _ => ⟨_, .nil⟩
  | (name, datum) :: members, valid, floatFree =>
      have ⟨validDatum, validMembers⟩ := List.forall_mem_cons.1 valid
      have ⟨freeDatum, freeMembers⟩ := List.forall_mem_cons.1 floatFree
      have ⟨_, spelled⟩ := exists_spelled name.toList
      have ⟨_, first⟩ := exists_written datum validDatum freeDatum
      have ⟨_, later⟩ := exists_writtenMembers members validMembers freeMembers
      ⟨(_, _) :: _, .cons ⟨spelled, first⟩ later⟩

end

mutual

theorem valid_of_ofTree? : (depth : Nat) → (tree : Tree) → {datum : Datum} →
    ofTree? depth tree = some datum → datum.Valid ∧ datum.depth ≤ depth
  | _, .null, _, read => by
      cases read
      exact ⟨by simp [Valid], Nat.zero_le _⟩
  | _, .bool _, _, read => by
      cases read
      exact ⟨by simp [Valid], Nat.zero_le _⟩
  | _, .number _, _, read => by
      obtain ⟨number, isNumber, rfl⟩ := Option.map_eq_some_iff.1 read
      cases number with
      | integer value => exact ⟨valid_integer.2 (Number.fits_of_ofNumeral? isNumber), Nat.zero_le _⟩
      | float value => exact ⟨by simp [Valid], Nat.zero_le _⟩
  | _, .string _, _, read => by
      obtain ⟨text, -, rfl⟩ := Option.map_eq_some_iff.1 read
      exact ⟨by simp [Valid], Nat.zero_le _⟩
  | 0, .array _, _, read => nomatch read
  | depth + 1, .array trees, _, read => by
      obtain ⟨items, areItems, rfl⟩ := Option.map_eq_some_iff.1 read
      have ⟨valid, bound⟩ := valid_of_ofItems? depth trees areItems
      exact ⟨valid_array.2 valid, Nat.succ_le_succ bound⟩
  | 0, .object _, _, read => nomatch read
  | depth + 1, .object given, _, read => by
      obtain ⟨members, areMembers, rfl⟩ := Option.map_eq_some_iff.1 read
      have each : ∀ member ∈ Table.ofList members, member.2.Valid ∧ member.2.depth ≤ depth :=
        fun member belongs =>
          valid_of_ofMembers? depth given areMembers member (Table.mem_of_mem_ofList belongs)
      have bound := membersDepth_le_iff.2 fun member belongs => (each member belongs).2
      have valid := fun member belongs => (each member belongs).1
      exact ⟨valid_object.2 ⟨Table.ascending_ofList members, valid⟩, Nat.succ_le_succ bound⟩

theorem valid_of_ofItems? : (depth : Nat) → (trees : List Tree) → {items : List Datum} →
    ofItems? depth trees = some items → (∀ item ∈ items, item.Valid) ∧ itemsDepth items ≤ depth
  | _, [], _, read => by
      cases read
      exact ⟨List.forall_mem_nil _, Nat.zero_le _⟩
  | depth, tree :: trees, _, read => by
      rw [ofItems?] at read
      simp only [Option.bind_eq_bind, Option.bind_eq_some_iff, Option.some.injEq] at read
      obtain ⟨item, isItem, items, areItems, rfl⟩ := read
      have ⟨valid, bound⟩ := valid_of_ofTree? depth tree isItem
      have ⟨laterValid, laterBound⟩ := valid_of_ofItems? depth trees areItems
      exact ⟨List.forall_mem_cons.2 ⟨valid, laterValid⟩, Nat.max_le.2 ⟨bound, laterBound⟩⟩

theorem valid_of_ofMembers? : (depth : Nat) → (given : List (List Piece × Tree)) →
    {members : List (String × Datum)} → ofMembers? depth given = some members →
    ∀ member ∈ members, member.2.Valid ∧ member.2.depth ≤ depth
  | _, [], _, read => by
      cases read
      exact List.forall_mem_nil _
  | depth, (pieces, tree) :: given, _, read => by
      rw [ofMembers?] at read
      simp only [Option.bind_eq_bind, Option.bind_eq_some_iff, Option.some.injEq] at read
      obtain ⟨name, -, datum, isDatum, members, areMembers, rfl⟩ := read
      exact List.forall_mem_cons.2 ⟨valid_of_ofTree? depth tree isDatum,
        valid_of_ofMembers? depth given areMembers⟩

end

mutual

theorem equals_self : (datum : Datum) → datum.FloatFree → datum.equals datum = true
  | .null, _ => rfl
  | .bool _, _ => decide_eq_true rfl
  | .number (.integer _), _ => decide_eq_true rfl
  | .number (.float value), floatFree => absurd rfl (floatFree _ .self value)
  | .string _, _ => decide_eq_true rfl
  | .array items, floatFree => equalItems_self items (floatFree_array.1 floatFree)
  | .object members, floatFree => equalMembers_self members (floatFree_object.1 floatFree)

theorem equalItems_self : (items : List Datum) → (∀ item ∈ items, item.FloatFree) →
    equalItems items items = true
  | [], _ => rfl
  | item :: items, floatFree => by
      have ⟨first, later⟩ := List.forall_mem_cons.1 floatFree
      rw [equalItems, equals_self item first, equalItems_self items later, Bool.and_self]

theorem equalMembers_self : (members : List (String × Datum)) →
    (∀ member ∈ members, member.2.FloatFree) → equalMembers members members = true
  | [], _ => rfl
  | (name, datum) :: members, floatFree => by
      have ⟨first, later⟩ := List.forall_mem_cons.1 floatFree
      rw [equalMembers, equals_self datum first, equalMembers_self members later,
        decide_eq_true rfl]
      rfl

end

end Datum

end FactRules.Json
