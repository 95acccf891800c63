import DoubleChecked.Effect.Body
import DoubleChecked.Effect.Linearization
import DoubleChecked.Invocations

/-!
# Tasks and sections on shared state

The predicate reads the gate; the gate and the data are written by tasks and by external
sections that hold the executor's lock, one access at a time, and nothing panics. The
reference executes the same members one at a time, lock first.
-/

namespace DoubleChecked
open Effect

variable {P R E C π ι κ δ : Type}

structure Workload (R E ι κ δ : Type) where
  tasks : ι → Body δ (Except E R)
  sections : κ → Body δ Unit

inductive SectionPhase (δ : Type)
  | pending
  | inside (b : Body δ Unit)
  | finished

structure WorkState (R E ι κ δ : Type) where
  shared : Shared δ
  holder : Option (ι ⊕ κ)
  running : ι → Option (Body δ (Except E R))
  sections : κ → SectionPhase δ

inductive WorkAct (ι κ : Type)
  | task (i : ι)
  | acquire (k : κ)
  | sectionStep (k : κ)
  | release (k : κ)

def WorkState.initial (s : Shared δ) : WorkState R E ι κ δ where
  shared := s
  holder := none
  running _ := none
  sections _ := .pending

namespace Workload
variable [DecidableEq ι] [DecidableEq κ] (W : Workload R E ι κ δ)

inductive Acts : WorkAct ι κ → WorkState R E ι κ δ → WorkState R E ι κ δ → Prop
  | task {i : ι} {s : WorkState R E ι κ δ} {b b' : Body δ (Except E R)} {shared : Shared δ} :
      s.running i = some b → b.Step s.shared b' shared → Acts (.task i) s
        { s with
          shared := shared
          running := Function.update s.running i (some b') }
  | acquire {k : κ} {s : WorkState R E ι κ δ} : s.sections k = .pending → s.holder = none →
      Acts (.acquire k) s
        { s with
          holder := some (.inr k)
          sections := Function.update s.sections k (.inside (W.sections k)) }
  | sectionStep {k : κ} {s : WorkState R E ι κ δ} {b b' : Body δ Unit} {shared : Shared δ} :
      s.sections k = .inside b → b.Step s.shared b' shared → Acts (.sectionStep k) s
        { s with
          shared := shared
          sections := Function.update s.sections k (.inside b') }
  | release {k : κ} {s : WorkState R E ι κ δ} : s.sections k = .inside (.done ()) →
      Acts (.release k) s
        { s with
          holder := none
          sections := Function.update s.sections k .finished }

/-- Replies without a panic, to the calls that `run` makes. -/
def world : World (Calls P R E C π) ι (WorkState R E ι κ δ) (WorkAct ι κ) where
  enter i o s s' := match o with
    | .task => s' = { s with running := Function.update s.running i (some (W.tasks i)) }
    | _ => s' = s
  leave i o r s s' := match o, r with
    | .predicate, .ret b => b = s.shared.gate ∧ s' = s
    | .lock, .ret _ => s.holder = none ∧ s' = { s with holder := some (.inl i) }
    | .task, .ret result => s.running i = some (.done result) ∧
      s' = { s with running := Function.update s.running i none }
    | .dropGuard _, .ret _ => s' = { s with holder := none }
    | .dropTask _, .ret _ => s' = s
    | _, _ => False
  act x s s' := W.Acts x s s'

theorem admits_of_leave (i : ι) (o : Call P R E C π) (r : o.Answer)
    (s s' : WorkState R E ι κ δ) (h : W.world.leave i o r s s') : o.admits r := by
  match o, r with
  | .predicate, _ | .prepare, _ | .lock, _ | .task, _ | .taskWithToken _, _ => exact trivial
  | .commit _, _ | .rollback _ _, _ => exact trivial
  | .dropGuard _, .ret _ | .dropTask _, .ret _ => exact fun _ => rfl
  | .dropGuard _, .panic _ | .dropTask _, .panic _ => exact h.elim
  | .dropToken _ _, _ | .discard _ _, _ => exact h.elim

end Workload

structure Progress (R E ι δ : Type) where
  outcomes : List (ι × ExecutionOutcome R E)
  shared : Shared δ

namespace Workload
variable (W : Workload R E ι κ δ)

/-- Under the lock: if the gate is open the task runs, otherwise the condition is not met. -/
def lockFirst (i : ι) (s : Shared δ) : ExecutionOutcome R E × Shared δ :=
  if s.gate then
    let x := (W.tasks i).run s
    ((LockedExecution.task x.1).intoOutcome, x.2)
  else (.conditionNotMet, s)

def advance (p : Progress R E ι δ) : ι ⊕ κ → Progress R E ι δ
  | .inl i => ⟨p.outcomes ++ [(i, (W.lockFirst i p.shared).1)], (W.lockFirst i p.shared).2⟩
  | .inr k => ⟨p.outcomes, ((W.sections k).run p.shared).2⟩

/-- The members one at a time, each in a single step. -/
def reference (s : Shared δ) (order : List (ι ⊕ κ)) : Progress R E ι δ :=
  order.foldl W.advance ⟨[], s⟩

variable {W} {s : Shared δ} {order : List (ι ⊕ κ)}

theorem reference_snoc (x : ι ⊕ κ) :
    W.reference s (order ++ [x]) = W.advance (W.reference s order) x := by
  simp [reference]

theorem reference_reject {i : ι} (h : (W.reference s order).shared.gate = false) :
    W.reference s (order ++ [.inl i]) = ⟨(W.reference s order).outcomes ++
      [(i, .conditionNotMet)], (W.reference s order).shared⟩ := by
  simp [reference_snoc, advance, lockFirst, h]

theorem reference_task {i : ι} {result : Except E R} {s' : Shared δ}
    (h : (W.reference s order).shared.gate = true)
    (hrun : (W.tasks i).run (W.reference s order).shared = (result, s')) :
    W.reference s (order ++ [.inl i]) = ⟨(W.reference s order).outcomes ++
      [(i, (LockedExecution.task result).intoOutcome)], s'⟩ := by
  simp [reference_snoc, advance, lockFirst, h, hrun]

theorem reference_section {k : κ} {s' : Shared δ}
    (hrun : ((W.sections k).run (W.reference s order).shared).2 = s') :
    W.reference s (order ++ [.inr k]) = ⟨(W.reference s order).outcomes, s'⟩ := by
  simp [reference_snoc, advance, hrun]

theorem mem_outcomes_snoc {x : ι ⊕ κ} {y : ι × ExecutionOutcome R E}
    (h : y ∈ (W.reference s order).outcomes) : y ∈ (W.reference s (order ++ [x])).outcomes := by
  rw [reference_snoc]
  cases x with
  | inl i => exact List.mem_append_left _ h
  | inr k => exact h

end Workload

def Label.begins (l : InvocationLabel P R E C π ι (WorkAct ι κ)) : Option (ι ⊕ κ) :=
  match l with
  | .invoke i => some (.inl i)
  | .act (.acquire k) => some (.inr k)
  | _ => none

def Label.ends (l : InvocationLabel P R E C π ι (WorkAct ι κ)) : Option (ι ⊕ κ) :=
  match l with
  | .finish i _ => some (.inl i)
  | .act (.release k) => some (.inr k)
  | _ => none

end DoubleChecked
