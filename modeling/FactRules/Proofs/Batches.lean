import FactRules.Model
import FactRules.Proofs.Loading

/-!
Rules that come in batches. To load one batch after another is to load all of them at once, and an
engine of several models is the engine of all their records in a row, compiled one after another up
to the first that fails.
-/

namespace FactRules

section

variable {ε σ α β : Type}

theorem bind_apply_eq_error_iff {work : ExceptT ε (StateM σ) α} {next : α → ExceptT ε (StateM σ) β}
    {state final : σ} {error : ε} :
    (work >>= next) state = (.error error, final) ↔
      work state = (.error error, final) ∨
        ∃ value after, work state = (.ok value, after) ∧ next value after = (.error error, final) := by
  rw [bind_apply]
  rcases work state with ⟨other | value, after⟩
  · constructor
    · rintro ⟨⟩
      exact .inl rfl
    · rintro (failed | ⟨_, _, succeeded, _⟩)
      · cases failed
        rfl
      · cases succeeded
  · constructor
    · intro failed
      exact .inr ⟨value, after, rfl, failed⟩
    · rintro (failed | ⟨_, _, succeeded, failed⟩)
      · cases failed
      · cases succeeded
        exact failed

theorem map_apply_eq_error_iff {work : ExceptT ε (StateM σ) α} {change : α → β} {state final : σ}
    {error : ε} :
    (change <$> work) state = (.error error, final) ↔ work state = (.error error, final) := by
  rw [map_eq_pure_bind, bind_apply_eq_error_iff]
  exact or_iff_left fun ⟨_, _, _, returned⟩ => nomatch returned

theorem mapM_eq_error_iff {work : α → ExceptT ε (StateM σ) β} {items : List α} {state final : σ}
    {error : ε} :
    items.mapM work state = (.error error, final) ↔
      ∃ before failing later values between, items = before ++ failing :: later ∧
        before.mapM work state = (.ok values, between) ∧
        work failing between = (.error error, final) := by
  induction items generalizing state with
  | nil =>
      refine iff_of_false nofun ?_
      rintro ⟨before, failing, later, _, _, split, _⟩
      simp at split
  | cons first items ih =>
      rw [List.mapM_cons, bind_apply_eq_error_iff]
      constructor
      · rintro (failed | ⟨value, after, succeeded, failed⟩)
        · exact ⟨[], first, items, [], state, rfl, rfl, failed⟩
        · rcases bind_apply_eq_error_iff.1 failed with failedLater | ⟨_, _, _, returned⟩
          · obtain ⟨before, failing, later, values, between, rfl, ran, failed⟩ :=
              ih.1 failedLater
            refine ⟨first :: before, failing, later, value :: values, between, rfl, ?_, failed⟩
            rw [List.mapM_cons]
            exact bind_eq_ok_iff.2 ⟨value, after, succeeded,
              bind_eq_ok_iff.2 ⟨values, between, ran, rfl⟩⟩
          · cases returned
      · rintro ⟨before, failing, later, values, between, split, ran, failed⟩
        cases before with
        | nil =>
            obtain ⟨rfl, rfl⟩ := List.cons.inj split
            cases ran
            exact .inl failed
        | cons head before =>
            obtain ⟨rfl, rfl⟩ := List.cons.inj split
            rw [List.mapM_cons] at ran
            obtain ⟨value, after, succeeded, ran⟩ := bind_eq_ok_iff.1 ran
            obtain ⟨others, _, ranLater, returned⟩ := bind_eq_ok_iff.1 ran
            cases returned
            refine .inr ⟨value, after, succeeded, bind_apply_eq_error_iff.2 (.inl ?_)⟩
            exact ih.2 ⟨before, failing, later, others, _, rfl, ranLater, failed⟩

end

namespace Rule

theorem Dispatched.perm {rules loaded : List Rule} (dispatched : Dispatched rules loaded) :
    rules.Perm loaded := by
  classical
  rw [List.perm_iff_count]
  intro rule
  have ranked : rule.hasRank rule.priority rule.size = true := hasRank_iff.2 ⟨rfl, rfl⟩
  rw [← List.count_filter ranked, dispatched.loadOrder, List.count_filter ranked]

end Rule

namespace Engine

theorem sorted_load (engine : Engine) (rules : List Rule) :
    (engine.load rules).1.sorted = (engine.load rules).1 :=
  sorted_sorted _

theorem load_append (engine : Engine) (front back : List Rule) :
    ((engine.load front).1.load back).1 = (engine.load (front ++ back)).1 := by
  rw [load_eq_insertRules, sorted_load, load_eq_insertRules, load_eq_insertRules,
    List.foldl_append]

theorem loadWarnings_append (front back : List Rule) :
    loadWarnings (front ++ back) = loadWarnings front ++ loadWarnings back := by
  rw [loadWarnings, List.filter_append, List.map_append, ← loadWarnings, ← loadWarnings]

theorem load_concat (engine : Engine) (front back : List Rule) :
    (((engine.load front).1.load back).1,
      (engine.load front).2 ++ ((engine.load front).1.load back).2) =
        engine.load (front ++ back) :=
  Prod.ext (engine.load_append front back) (loadWarnings_append front back).symm

theorem foldlM_load (actions : ActionTable) (start : Engine) (done : List Rule)
    (models : List Model) :
    models.foldlM (fun loaded model => do
      let rules ← model.rules actions
      let (engine, warnings) := loaded.1.load rules
      pure (engine, loaded.2 ++ warnings)) (start.load done) =
    (do
      let rules ← (models.flatMap Model.records).mapM (Record.compile actions)
      pure (start.load (done ++ rules)) : Sharing RuleError (Engine × List Warning)) := by
  induction models generalizing done with
  | nil => simp
  | cons model models ih =>
      rw [List.foldlM_cons, List.flatMap_cons, List.mapM_append]
      simp only [bind_assoc, pure_bind, load_concat, ih, List.append_assoc]
      rfl

theorem ofModels_eq_load (actions : ActionTable) {start : Engine} (empty : start.index = [])
    (models : List Model) :
    start.ofModels actions models =
      start.load <$> (models.flatMap Model.records).mapM (Record.compile actions) := by
  have nothing : start.load [] = (start, []) := by
    cases start
    cases empty
    rfl
  rw [ofModels, ← nothing, foldlM_load, map_eq_pure_bind]
  rfl

/-- Loads may be split anywhere: the index is that of one load, in which the rules of an attribute
are those loaded, by descending priority, then by descending size, and then as they were loaded.
Models are compiled record by record, up to the first that fails, and loaded likewise. -/
theorem load_in_batches (settings : Settings) (types : TypeTable) (loads : List (List Rule))
    (front back : List Rule) (target : String) (actions : ActionTable) (models : List Model) :
    let start : Engine := { settings, types }
    let engine := start.loadAll loads
    let together := (engine.load (front ++ back)).1
    let given := (loads.flatten ++ (front ++ back)).filter (·.target = target)
    let records := models.flatMap Model.records
    ((engine.load front).1.load back).1 = together ∧
      (together.rulesFor target).Perm given ∧
      Rule.Dispatched (together.rulesFor target) given ∧
      start.ofModels actions models = start.load <$> records.mapM (Record.compile actions) ∧
      ∀ interner error final,
        start.ofModels actions models interner = (.error error, final) ↔
          ∃ before failing later rules between, records = before ++ failing :: later ∧
            before.mapM (Record.compile actions) interner = (.ok rules, between) ∧
            failing.compile actions between = (.error error, final) := by
  intro start engine together given records
  have reached : engine.Indexes ([] ++ loads.flatten) := (Indexes.of_empty rfl).loadAll loads
  have dispatched : Rule.Dispatched (together.rulesFor target) given :=
    (reached.load (front ++ back)).dispatched target
  have compiled : start.ofModels actions models =
      start.load <$> records.mapM (Record.compile actions) := ofModels_eq_load actions rfl models
  refine ⟨engine.load_append front back, dispatched.perm, dispatched, compiled, ?_⟩
  intro interner error final
  rw [compiled, map_apply_eq_error_iff, mapM_eq_error_iff]

end Engine

end FactRules
