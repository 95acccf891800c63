import Mathlib.Logic.Function.Basic

/-!
# Bodies of critical sections

A `Body` reads and writes a gate and other data, one access at a time, and ends with a
result that the state it finds determines. A body that writes the gate at most once is
silent after the write.
-/

namespace Effect

structure Shared (δ : Type) where
  gate : Bool
  data : δ

inductive Body (δ α : Type)
  | done (a : α)
  | access (update : Shared δ → δ) (next : Shared δ → Body δ α)
  | setGate (b : Bool) (next : Body δ α)

namespace Body
variable {δ α : Type}

def run : Body δ α → Shared δ → α × Shared δ
  | .done a, s => (a, s)
  | .access update next, s => (next s).run { s with data := update s }
  | .setGate b next, s => next.run { s with gate := b }

def Silent : Body δ α → Prop
  | .done _ => True
  | .access _ next => ∀ s, (next s).Silent
  | .setGate _ _ => False

def WritesOnce : Body δ α → Prop
  | .done _ => True
  | .access _ next => ∀ s, (next s).WritesOnce
  | .setGate _ next => next.Silent

inductive Step : Body δ α → Shared δ → Body δ α → Shared δ → Prop
  | access {update : Shared δ → δ} {next : Shared δ → Body δ α} {s : Shared δ} :
      Step (.access update next) s (next s) { s with data := update s }
  | setGate {b : Bool} {next : Body δ α} {s : Shared δ} :
      Step (.setGate b next) s next { s with gate := b }

/-- Run from `s` on its own, the body makes each access as `guarantee` says and ends with
`post`. -/
def Guarantees (guarantee : Shared δ → Shared δ → Prop) (post : α → Shared δ → Prop) :
    Body δ α → Shared δ → Prop
  | .done a, s => post a s
  | .access update next, s => guarantee s { s with data := update s } ∧
      (next s).Guarantees guarantee post { s with data := update s }
  | .setGate b next, s => guarantee s { s with gate := b } ∧
      next.Guarantees guarantee post { s with gate := b }

theorem Guarantees.step {guarantee : Shared δ → Shared δ → Prop} {post : α → Shared δ → Prop}
    {b b' : Body δ α} {s s' : Shared δ} (h : b.Guarantees guarantee post s)
    (hs : Step b s b' s') : guarantee s s' ∧ b'.Guarantees guarantee post s' := by
  cases hs with
  | access => exact h
  | setGate => exact h

theorem Silent.gate_run {b : Body δ α} (h : b.Silent) (s : Shared δ) :
    (b.run s).2.gate = s.gate := by
  induction b generalizing s with
  | done a => rfl
  | access update next ih => exact ih s (h s) _
  | setGate v next ih => exact h.elim

/-- How far a body has come that was started as `whole` in the state `seq`: before its
point the state `seq` is still to be changed, afterwards it is the final state. -/
structure Underway (whole b : Body δ α) (seq shared : Shared δ) (pointed : Prop)
    (emitted : α → Prop) : Prop where
  before : ¬pointed → b.run shared = whole.run seq ∧ b.WritesOnce
  after : pointed → (b.run shared).2 = seq ∧ b.Silent ∧ emitted (b.run shared).1

variable {whole b b' : Body δ α} {seq shared shared' : Shared δ} {pointed : Prop}
  {emitted : α → Prop}

theorem underway_start (h : whole.WritesOnce) (hp : ¬pointed) :
    Underway whole whole shared shared pointed emitted where
  before _ := ⟨rfl, h⟩
  after hp' := absurd hp' hp

theorem Underway.step (h : Underway whole b seq shared pointed emitted)
    (hs : Step b shared b' shared') :
    shared'.gate = shared.gate ∧ Underway whole b' seq shared' pointed emitted ∨
    ¬pointed ∧ b'.Silent ∧ b'.run shared' = whole.run seq := by
  cases hs with
  | access =>
    refine .inl ⟨rfl, fun hp => ?_, fun hp => ?_⟩
    · obtain ⟨hrun, hw⟩ := h.before hp
      exact ⟨hrun, hw _⟩
    · obtain ⟨hrun, hsilent, hemitted⟩ := h.after hp
      exact ⟨hrun, hsilent _, hemitted⟩
  | setGate =>
    have hp : ¬pointed := fun hp => (h.after hp).2.1.elim
    obtain ⟨hrun, hw⟩ := h.before hp
    exact .inr ⟨hp, hw, hrun⟩

theorem underway_pointed (hrun : b.run shared = whole.run seq) (hsilent : b.Silent)
    (hp : pointed) (hemitted : emitted (whole.run seq).1) :
    Underway whole b (whole.run seq).2 shared pointed emitted where
  before hp' := absurd hp hp'
  after _ := by
    rw [hrun]
    exact ⟨rfl, hsilent, hemitted⟩

end Body
end Effect
