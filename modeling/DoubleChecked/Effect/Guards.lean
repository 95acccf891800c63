import Mathlib.Logic.Function.Basic

/-!
# The guards of one lock

A lock is seen through its live guards only: who holds one, and in which mode. A
guard is granted when it is compatible with every live one, and dropping it removes
it. All that is known of the lock is that exclusive guards exclude all others.
-/

namespace Effect

inductive Mode
  | shared
  | exclusive
  deriving DecidableEq

abbrev Guards (κ : Type) : Type := κ → Option Mode

namespace Guards
variable {κ : Type}

def grants (g : Guards κ) (x : κ) : Mode → Prop
  | .shared => g x = none ∧ ∀ y, g y ≠ some .exclusive
  | .exclusive => ∀ y, g y = none

def Exclusive (g : Guards κ) : Prop := ∀ x y, g x = some .exclusive → g y ≠ none → y = x

theorem exclusive_none : Exclusive (fun _ : κ => none) := nofun

variable [DecidableEq κ] {g : Guards κ} {x : κ} {m : Mode}

theorem exclusive_of_grants (hg : g.grants x m) :
    Exclusive (Function.update g x (some m)) := by
  intro y z hy hz
  by_cases hyx : y = x
  · subst hyx
    rw [Function.update_self] at hy
    cases hy
    by_cases hzy : z = y
    · exact hzy
    · rw [Function.update_of_ne hzy] at hz
      exact absurd (hg z) hz
  · rw [Function.update_of_ne hyx] at hy
    cases m with
    | shared => exact absurd hy (hg.2 y)
    | exclusive => exact nomatch (hg y).symm.trans hy

theorem Exclusive.release (h : g.Exclusive) : Exclusive (Function.update g x none) := by
  intro y z hy hz
  have hyx : y ≠ x := by
    intro hyx
    subst hyx
    rw [Function.update_self] at hy
    exact nomatch hy
  have hzx : z ≠ x := by
    intro hzx
    subst hzx
    exact hz (Function.update_self ..)
  rw [Function.update_of_ne hyx] at hy
  rw [Function.update_of_ne hzx] at hz
  exact h y z hy hz

end Guards
end Effect
