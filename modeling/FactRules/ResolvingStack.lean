import FactRules.Error
import FactRules.Settings

/-!
The attributes whose lookup is in progress. A name is refused when it is in progress already, or
when as many names are as the settings allow; the first of the two reasons counts.
-/

namespace FactRules

/-- The names are listed from the innermost lookup to the outermost. -/
structure ResolvingStack where
  names : List String := []
  deriving DecidableEq

namespace ResolvingStack

def depth (stack : ResolvingStack) : Nat :=
  stack.names.length

def current? (stack : ResolvingStack) : Option String :=
  stack.names.head?

def isResolving (stack : ResolvingStack) (name : String) : Bool :=
  stack.names.contains name

def chainTo (stack : ResolvingStack) (name : String) : List String :=
  stack.names.reverse.dropWhile (· ≠ name) ++ [name]

def enter (stack : ResolvingStack) (settings : Settings) (name : String) :
    Except RuleError ResolvingStack :=
  if settings.detectCycles && stack.isResolving name then .error (.cycle (stack.chainTo name))
  else if settings.maxLookupDepth ≤ stack.depth then
    .error (.depthExceeded settings.maxLookupDepth name)
  else .ok ⟨name :: stack.names⟩

def leave (stack : ResolvingStack) : Option String × ResolvingStack :=
  (stack.current?, ⟨stack.names.tail⟩)

theorem enter_eq_ok {stack entered : ResolvingStack} {settings : Settings} {name : String}
    (succeeded : stack.enter settings name = .ok entered) : entered = ⟨name :: stack.names⟩ := by
  simp only [enter] at succeeded
  split at succeeded
  · simp at succeeded
  · split at succeeded
    · simp at succeeded
    · exact (Except.ok.inj succeeded).symm

theorem enter_eq_error {stack : ResolvingStack} {settings : Settings} {name : String}
    {error : RuleError} (failed : stack.enter settings name = .error error) :
    (name ∈ stack.names ∧ error = .cycle (stack.chainTo name)) ∨
      error = .depthExceeded settings.maxLookupDepth name := by
  simp only [enter] at failed
  split at failed
  · next again =>
      refine Or.inl ⟨?_, (Except.error.inj failed).symm⟩
      simp only [Bool.and_eq_true, isResolving, List.contains_iff_mem] at again
      exact again.2
  · split at failed
    · exact Or.inr (Except.error.inj failed).symm
    · simp at failed

theorem enter_eq_cycle {stack : ResolvingStack} {settings : Settings} {name : String}
    {chain : List String} (failed : stack.enter settings name = .error (.cycle chain)) :
    settings.detectCycles = true ∧ name ∈ stack.names ∧ chain = stack.chainTo name := by
  simp only [enter] at failed
  split at failed
  · next again =>
      simp only [Bool.and_eq_true, isResolving, List.contains_iff_mem] at again
      exact ⟨again.1, again.2, (RuleError.cycle.inj (Except.error.inj failed)).symm⟩
  · split at failed <;> cases failed

theorem enter_eq_exceeded {stack : ResolvingStack} {settings : Settings} {name target : String}
    {limit : Nat} (failed : stack.enter settings name = .error (.depthExceeded limit target)) :
    settings.maxLookupDepth ≤ stack.depth ∧
      (settings.detectCycles = true → name ∉ stack.names) := by
  simp only [enter] at failed
  split at failed
  · cases failed
  · next notAgain =>
      split at failed
      · next full =>
          refine ⟨full, fun detects member => notAgain ?_⟩
          simp [detects, isResolving, member]
      · cases failed

theorem leave_of_enter {stack entered : ResolvingStack} {settings : Settings} {name : String}
    (succeeded : stack.enter settings name = .ok entered) :
    entered.leave = (some name, stack) := by
  rw [enter_eq_ok succeeded]
  rfl

theorem depth_lt_of_enter {stack entered : ResolvingStack} {settings : Settings} {name : String}
    (succeeded : stack.enter settings name = .ok entered) :
    stack.depth < settings.maxLookupDepth := by
  simp only [enter] at succeeded
  split at succeeded
  · simp at succeeded
  · split at succeeded
    · simp at succeeded
    · next below => exact Nat.lt_of_not_le below

end ResolvingStack

end FactRules
