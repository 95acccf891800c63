import Mathlib.Logic.Function.Iterate
import DoubleChecked.Outcome

/-!
# The shared core and the basic executor

`DclCore` owns the predicate. `executeLocked` leaves the guard and an unstarted
task to the ends of their scopes; `executeLockedCatching` runs the same phase
behind one boundary and keeps the phase in a cell that the boundary reads. In
both, `unstarted` is the drop flag of the task: the call moves the task out.
-/

namespace DoubleChecked
open Effect Effect.Routine

structure Lock (S : Signature) (π : Type) where
  lock : Program S (Exit π Unit)
  dropGuard : Bool → Program S (Exit π Unit)

structure DclCore (S : Signature) (π : Type) where
  predicate : Program S (Exit π Bool)

variable {S : Signature} {π τ R E : Type}

def dropUnstarted {α : Type} (unwinding : Bool) : Option (FnOnce S π τ α) → Routine S π τ Unit
  | some task => lift (task.drop unwinding)
  | none => pure ()

namespace DclCore

def clone (self : DclCore S π) : DclCore S π := ⟨self.predicate⟩

@[simp] theorem clone_eq (self : DclCore S π) : self.clone = self := rfl

def checkInitial (self : DclCore S π) : Routine S π τ Bool := lift self.predicate

def checkInitialCatching [PanicPayload π] (self : DclCore S π) :
    Routine S π τ (Except (PanicInfo π) Bool) :=
  catchPhase .initialConditionCheck self.checkInitial

/-- A result that is in the return place when a destructor unwinds is leaked. -/
def executeLocked (self : DclCore S π) (lock : Lock S π) (task : FnOnce S π τ (Except E R)) :
    Routine S π τ (LockedExecution R E) := do
  (lift lock.lock).onUnwind (lift (task.drop true))
  let met ← (lift self.predicate).onUnwind (do
    lift (lock.dropGuard true)
    lift (task.drop true))
  let (result, unstarted) ←
    if !met then
      pure (LockedExecution.conditionNotMet, some task)
    else do
      let result ← task.call.onUnwind (lift (lock.dropGuard true))
      pure (LockedExecution.task result, none)
  -- the local `_guard` is dropped before the parameter `task`
  (lift (lock.dropGuard false)).onUnwind (dropUnstarted true unstarted)
  dropUnstarted false unstarted
  pure result

def executeLockedCatching [PanicPayload π] [Drop S π R] [Drop S π E] (self : DclCore S π)
    (lock : Lock S π) (task : FnOnce S π τ (Except E R)) :
    Routine S π τ (Except (PanicInfo π) (LockedExecution R E)) :=
  withCell PanicPhase.lockAcquisition do
    let caught ← catchUnwind (do
      (lift lock.lock).onUnwind (lift (task.drop true))
      set .secondConditionCheck
      let met ← (lift self.predicate).onUnwind (do
        lift (lock.dropGuard true)
        lift (task.drop true))
      let (outcome, unstarted) ←
        if !met then
          pure (LockedExecution.conditionNotMet, some task)
        else do
          set .task
          let result ← (outer task.call).onUnwind (lift (lock.dropGuard true))
          pure (LockedExecution.task result, none)
      set .lockRelease
      -- the local `outcome` is dropped before the task the closure has captured
      (lift (lock.dropGuard false)).onUnwind (do
        Drop.drop .unwinding outcome
        outer (dropUnstarted true unstarted))
      set .taskCleanup
      outer (dropUnstarted false unstarted)
      pure outcome)
    match caught with
    | .ok outcome => pure (.ok outcome)
    | .error payload => do
      let phase ← get
      pure (.error (PanicInfo.fromPayload phase payload))

end DclCore

structure DclExecutor (S : Signature) (π : Type) where
  core : DclCore S π

namespace DclExecutor

def new (predicate : Program S (Exit π Bool)) : DclExecutor S π := ⟨⟨predicate⟩⟩

def clone (self : DclExecutor S π) : DclExecutor S π := ⟨self.core.clone⟩

@[simp] theorem clone_eq (self : DclExecutor S π) : self.clone = self := rfl

@[simp] theorem clones_eq (self : DclExecutor S π) (clones : ℕ) : clone^[clones] self = self :=
  Function.iterate_fixed self.clone_eq clones

def run (self : DclExecutor S π) (lock : Lock S π) (task : FnOnce S π τ (Except E R)) :
    Routine S π τ (ExecutionOutcome R E) := do
  let met ← self.core.checkInitial.onUnwind (lift (task.drop true))
  if !met then
    lift (task.drop false)
    pure .conditionNotMet
  else
    let locked ← self.core.executeLocked lock task
    pure locked.intoOutcome

def runCatching [PanicPayload π] [Drop S π R] [Drop S π E] [Drop S π π] (self : DclExecutor S π)
    (lock : Lock S π) (task : FnOnce S π τ (Except E R)) :
    Routine S π τ (Except (PanicInfo π) (ExecutionOutcome R E)) := do
  match ← self.core.checkInitialCatching with
  | .ok true =>
    match ← self.core.executeLockedCatching lock task with
    | .ok locked => pure (.ok locked.intoOutcome)
    | .error panic => pure (.error panic)
  | .ok false =>
    match ← dropTaskCatching task with
    | .ok () => pure (.ok .conditionNotMet)
    | .error panic => pure (.error panic)
  | .error panic =>
    let cleanup ← dropTaskCatching task
    Drop.drop .scope cleanup
    pure (.error panic)

end DclExecutor
end DoubleChecked
