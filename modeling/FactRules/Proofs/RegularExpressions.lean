import FactRules.Regex
import Mathlib.Data.List.Basic

/-!
What regular expressions match. The search for a match keeps the places of the text that the parts of
the expression reach one after the other, and it finds a match exactly if there is a run of characters
somewhere in the text that consists of one run for each part.
-/

namespace FactRules

namespace Regex

def Part.units : Part → List Unit
  | .start => [.start]
  | .one symbol => [.symbol symbol]
  | .many symbol => [.symbol symbol, .star]

theorem parts?_units (parts : List Part) : parts? (parts.flatMap Part.units) = some parts := by
  induction parts with
  | nil => rfl
  | cons part parts ih =>
      cases part with
      | start => rw [List.flatMap_cons, Part.units, List.singleton_append, parts?, ih, Option.map_some]
      | many symbol =>
          rw [List.flatMap_cons, Part.units, List.cons_append, List.singleton_append, parts?, ih,
            Option.map_some]
      | one symbol =>
          rw [List.flatMap_cons, Part.units, List.singleton_append, parts?, ih, Option.map_some]
          intro rest starts
          cases parts with
          | nil => cases starts
          | cons next parts => cases next <;> cases starts

variable {regex : Regex} {text before after : List Char} {reached : List Bool}

/-- The part takes this run of characters, behind those that come before it in the text. -/
inductive Part.Spans (regex : Regex) : Part → List Char → List Char → Prop where
  | start : Spans regex .start [] []
  | one {symbol : Symbol} {character : Char} (before : List Char)
      (taken : regex.takes symbol character = true) : Spans regex (.one symbol) before [character]
  | many {symbol : Symbol} {run : List Char} (before : List Char)
      (taken : ∀ character ∈ run, regex.takes symbol character = true) :
      Spans regex (.many symbol) before run

inductive Spans (regex : Regex) : List Part → List Char → List Char → Prop where
  | nil (before : List Char) : Spans regex [] before []
  | cons {part : Part} {parts : List Part} {before first later : List Char}
      (spans : part.Spans regex before first) (rest : Spans regex parts (before ++ first) later) :
      Spans regex (part :: parts) before (first ++ later)

def Matches (regex : Regex) (text : List Char) : Prop :=
  ∃ before run after, text = before ++ run ++ after ∧ regex.Spans regex.parts before run

def Reached (reached : List Bool) (before : List Char) : Prop :=
  reached[before.length]? = some true

theorem reached_nil : Reached reached [] ↔ reached.headD false = true := by
  cases reached <;> simp [Reached]

theorem reached_cons {character : Char} :
    Reached reached (character :: before) ↔ Reached reached.tail before := by
  cases reached <;> simp [Reached]

section

variable {taken : Char → Bool} {carried : Bool}

theorem reached_shift_nil : Reached (shift taken carried after reached) [] ↔ carried = true := by
  cases after <;> simp [shift, Reached]

theorem reached_shift {character : Char} :
    Reached (shift taken carried (before ++ character :: after) reached) (before ++ [character]) ↔
      Reached reached before ∧ taken character = true := by
  induction before generalizing carried reached with
  | nil =>
      rw [List.nil_append, List.nil_append, shift, reached_cons, List.tail_cons, reached_shift_nil,
        reached_nil, Bool.and_eq_true]
  | cons first before ih =>
      rw [List.cons_append, List.cons_append, shift, reached_cons, List.tail_cons, ih, reached_cons]

theorem reached_spread :
    Reached (spread taken carried (before ++ after) reached) before ↔
      (carried = true ∧ ∀ character ∈ before, taken character = true) ∨
        ∃ first run, before = first ++ run ∧ Reached reached first ∧
          ∀ character ∈ run, taken character = true := by
  induction before generalizing carried reached with
  | nil =>
      have here : Reached (spread taken carried after reached) [] ↔
          reached.headD false = true ∨ carried = true := by
        cases after <;> simp [spread, Reached]
      rw [List.nil_append, here]
      simp only [List.nil_eq, List.append_eq_nil_iff]
      constructor
      · rintro (already | comes)
        · exact .inr ⟨[], [], ⟨rfl, rfl⟩, reached_nil.2 already, List.forall_mem_nil _⟩
        · exact .inl ⟨comes, List.forall_mem_nil _⟩
      · rintro (⟨comes, _⟩ | ⟨first, run, ⟨rfl, rfl⟩, already, _⟩)
        · exact .inr comes
        · exact .inl (reached_nil.1 already)
  | cons next before ih =>
      rw [List.cons_append, spread, reached_cons, List.tail_cons, ih]
      simp only [Bool.and_eq_true, Bool.or_eq_true, List.forall_mem_cons]
      constructor
      · rintro (⟨⟨already | comes, takesNext⟩, takesAll⟩ | ⟨first, run, rfl, already, takesRun⟩)
        · exact .inr ⟨[], next :: before, rfl, reached_nil.2 already,
            List.forall_mem_cons.2 ⟨takesNext, takesAll⟩⟩
        · exact .inl ⟨comes, takesNext, takesAll⟩
        · exact .inr ⟨next :: first, run, rfl, reached_cons.2 already, takesRun⟩
      · rintro (⟨comes, takesNext, takesAll⟩ | ⟨first, run, split, already, takesRun⟩)
        · exact .inl ⟨⟨.inr comes, takesNext⟩, takesAll⟩
        · cases first with
          | nil =>
              subst split
              obtain ⟨takesNext, takesAll⟩ := List.forall_mem_cons.1 takesRun
              exact .inl ⟨⟨.inl (reached_nil.1 already), takesNext⟩, takesAll⟩
          | cons _ first =>
              obtain ⟨rfl, rfl⟩ := List.cons.inj split
              exact .inr ⟨first, run, rfl, reached_cons.1 already, takesRun⟩

end

theorem reached_step (inside : before <+: text) (part : Part) :
    Reached (regex.step text reached part) before ↔
      ∃ first run, before = first ++ run ∧ Reached reached first ∧ part.Spans regex first run := by
  obtain ⟨after, rfl⟩ := inside
  cases part with
  | start =>
      have here : Reached (regex.step (before ++ after) reached .start) before ↔
          before = [] ∧ Reached reached [] := by
        cases before <;> cases reached <;> simp [step, Reached]
      rw [here]
      constructor
      · rintro ⟨rfl, already⟩
        exact ⟨[], [], rfl, already, .start⟩
      · rintro ⟨first, run, rfl, already, ⟨⟩⟩
        exact ⟨rfl, already⟩
  | one symbol =>
      rw [step]
      constructor
      · intro arrives
        rcases List.eq_nil_or_concat before with rfl | ⟨first, character, rfl⟩
        · cases reached_shift_nil.1 arrives
        · rw [List.concat_eq_append] at arrives ⊢
          rw [List.append_assoc, List.singleton_append, reached_shift] at arrives
          exact ⟨first, [character], rfl, arrives.1, .one first arrives.2⟩
      · rintro ⟨first, run, rfl, already, spans⟩
        cases spans with
        | one _ taken =>
            rw [List.append_assoc, List.singleton_append, reached_shift]
            exact ⟨already, taken⟩
  | many symbol =>
      rw [step, reached_spread]
      constructor
      · rintro (⟨⟨⟩, _⟩ | ⟨first, run, rfl, already, taken⟩)
        exact ⟨first, run, rfl, already, .many first taken⟩
      · rintro ⟨first, run, rfl, already, spans⟩
        cases spans with
        | many _ taken => exact .inr ⟨first, run, rfl, already, taken⟩

theorem reached_foldl (inside : before <+: text) (parts : List Part) :
    Reached (parts.foldl (regex.step text) reached) before ↔
      ∃ first run, before = first ++ run ∧ Reached reached first ∧ regex.Spans parts first run := by
  induction parts generalizing reached with
  | nil =>
      constructor
      · intro already
        exact ⟨before, [], (List.append_nil before).symm, already, .nil before⟩
      · rintro ⟨first, run, rfl, already, ⟨⟩⟩
        rwa [List.append_nil]
  | cons part parts ih =>
      rw [List.foldl_cons, ih]
      constructor
      · rintro ⟨middle, later, rfl, arrives, rest⟩
        have front : middle <+: text := (List.prefix_append middle later).trans inside
        obtain ⟨first, run, rfl, already, spans⟩ := (reached_step front part).1 arrives
        exact ⟨first, run ++ later, List.append_assoc .., already, .cons spans rest⟩
      · rintro ⟨first, run, rfl, already, spans⟩
        cases spans with
        | @cons _ _ _ run later spans rest =>
            rw [← List.append_assoc] at inside
            have front : first ++ run <+: text := (List.prefix_append _ later).trans inside
            have arrives := (reached_step front part).2 ⟨first, run, rfl, already, spans⟩
            exact ⟨first ++ run, later, (List.append_assoc ..).symm, arrives, rest⟩

theorem length_shift (taken : Char → Bool) (carried : Bool) :
    (shift taken carried text reached).length = text.length + 1 := by
  induction text generalizing carried reached with
  | nil => rfl
  | cons character text ih => rw [shift, List.length_cons, ih, List.length_cons]

theorem length_spread (taken : Char → Bool) (carried : Bool) :
    (spread taken carried text reached).length = text.length + 1 := by
  induction text generalizing carried reached with
  | nil => rfl
  | cons character text ih => rw [spread, List.length_cons, ih, List.length_cons]

theorem length_step_le (part : Part) :
    (regex.step text reached part).length ≤ text.length + 1 := by
  cases part with
  | start => exact Nat.le_trans (List.length_take_le 1 reached) (Nat.le_add_left 1 _)
  | one symbol => exact Nat.le_of_eq (length_shift _ _)
  | many symbol => exact Nat.le_of_eq (length_spread _ _)

theorem length_foldl_le (bounded : reached.length ≤ text.length + 1) (parts : List Part) :
    (parts.foldl (regex.step text) reached).length ≤ text.length + 1 := by
  induction parts generalizing reached with
  | nil => exact bounded
  | cons part parts ih => exact ih (length_step_le part)

theorem exists_reached (bounded : reached.length ≤ text.length + 1) :
    reached.contains true = true ↔ ∃ before, before <+: text ∧ Reached reached before := by
  rw [List.contains_iff_mem, List.mem_iff_getElem?]
  constructor
  · rintro ⟨place, found⟩
    have below := (List.getElem?_eq_some_iff.1 found).1
    refine ⟨text.take place, List.take_prefix place text, ?_⟩
    rwa [Reached, List.length_take, Nat.min_eq_left (by omega)]
  · rintro ⟨before, _, already⟩
    exact ⟨before.length, already⟩

theorem isMatch_iff : regex.isMatch text = true ↔ regex.Matches text := by
  have everywhere {first : List Char} (inside : first <+: text) :
      Reached (true :: text.map fun _ => true) first := by
    have bound := inside.length_le
    cases first with
    | nil => rfl
    | cons character first =>
        rw [List.length_cons] at bound
        rw [reached_cons, List.tail_cons, Reached, List.getElem?_map,
          List.getElem?_eq_getElem (by omega)]
        rfl
  have bounded : (true :: text.map fun _ => true).length ≤ text.length + 1 := by simp
  rw [isMatch, exists_reached (length_foldl_le bounded regex.parts)]
  constructor
  · rintro ⟨_, inside, arrives⟩
    obtain ⟨before, run, rfl, _, spans⟩ := (reached_foldl inside _).1 arrives
    obtain ⟨after, rfl⟩ := inside
    exact ⟨before, run, after, rfl, spans⟩
  · rintro ⟨before, run, after, rfl, spans⟩
    have front : before <+: before ++ run ++ after :=
      (List.prefix_append before run).trans (List.prefix_append _ after)
    refine ⟨before ++ run, List.prefix_append _ after, ?_⟩
    exact (reached_foldl (List.prefix_append _ after) _).2
      ⟨before, run, rfl, everywhere front, spans⟩

end Regex

end FactRules
