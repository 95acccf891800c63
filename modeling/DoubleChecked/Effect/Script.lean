import Mathlib.Logic.Function.Basic

/-!
# Scripts of lock users

A `Script` is code that shares a memory and one lock with others. Every branch ends,
with a value; what the code does next may depend on the memory it finds. `Balanced`
is a script that keeps no lock when it ends, `Obeys` one that also never waits for a lock
it holds.
-/

namespace Effect

inductive Script (μ α : Type)
  | done (a : α)
  | work (update : μ → μ) (next : μ → Script μ α)
  | acquire (k : Script μ α)
  | release (k : Script μ α)

namespace Script
variable {μ α : Type}

/-- Started with or without the lock, the script takes it only if it `may` and does not
hold it already, and ends without it and with a value in `post`. -/
def Obeys (may : Bool) (post : α → Prop) : Bool → Script μ α → Prop
  | holding, .done a => holding = false ∧ post a
  | holding, .work _ next => ∀ m, (next m).Obeys may post holding
  | holding, .acquire k => may = true ∧ holding = false ∧ k.Obeys may post true
  | holding, .release k => holding = true ∧ k.Obeys may post false

def Balanced (post : α → Prop) : Bool → Script μ α → Prop
  | holding, .done a => holding = false ∧ post a
  | holding, .work _ next => ∀ m, (next m).Balanced post holding
  | _, .acquire k => k.Balanced post true
  | holding, .release k => holding = true ∧ k.Balanced post false

theorem balanced_of_obeys {may holding : Bool} {post : α → Prop} {x : Script μ α}
    (h : x.Obeys may post holding) : x.Balanced post holding := by
  induction x generalizing holding with
  | done a => exact h
  | work update next ih => exact fun m => ih m (h m)
  | acquire k ih => exact ih h.2.2
  | release k ih => exact ⟨h.1, ih h.2⟩

end Script
end Effect
