/-!
Texts cut at a separator. There is always a first piece, be it empty; every separator begins
another one.
-/

namespace FactRules.Text

def cut (separator : Char) : List Char → List Char × List (List Char)
  | [] => ([], [])
  | character :: rest =>
      let pieces := cut separator rest
      if character = separator then ([], pieces.1 :: pieces.2)
      else (character :: pieces.1, pieces.2)

def firstPiece (separator : Char) (text : String) : String :=
  String.ofList (cut separator text.toList).1

def laterPieces (separator : Char) (text : String) : List String :=
  (cut separator text.toList).2.map String.ofList

def pieces (separator : Char) (text : String) : List String :=
  firstPiece separator text :: laterPieces separator text

theorem intercalate_cut (separator : Char) (characters : List Char) :
    [separator].intercalate ((cut separator characters).1 :: (cut separator characters).2) =
      characters := by
  induction characters with
  | nil => rfl
  | cons character rest ih =>
      simp only [cut]
      split
      · next same =>
          subst same
          rw [List.intercalate_cons_cons, ih]
          rfl
      · revert ih
        rcases cut separator rest with ⟨first, later⟩
        intro ih
        cases later with
        | nil => simpa using ih
        | cons second later =>
            simp only [List.intercalate_cons_cons] at ih ⊢
            simp only [List.cons_append, ih]

theorem separator_not_mem_cut (separator : Char) (characters : List Char) :
    ∀ piece ∈ (cut separator characters).1 :: (cut separator characters).2,
      separator ∉ piece := by
  induction characters with
  | nil => simp [cut]
  | cons character rest ih =>
      simp only [cut]
      split
      · simpa using ih
      · next differs =>
          simp only [List.mem_cons, forall_eq_or_imp] at ih ⊢
          exact ⟨by simp [Ne.symm differs, ih.1], ih.2⟩

end FactRules.Text
