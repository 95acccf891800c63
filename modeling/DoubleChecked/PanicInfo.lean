import DoubleChecked.Effect.Unwind

/-!
# Captured panics

`PanicInfo` keeps the payload of a caught panic with the phase in which it was
caught. Its destructor discards the payload behind a boundary of its own, and
forgets the payload of a panic raised while doing so. `catchPhase` and
`dropTaskCatching` are the boundaries the executors share.
-/

namespace DoubleChecked
open Effect Effect.Routine

inductive PanicPhase
  | initialConditionCheck
  | prepare
  | lockAcquisition
  | secondConditionCheck
  | task
  | lockRelease
  | commit
  | rollback
  | taskCleanup
  deriving DecidableEq

/-- What is observed of a panic payload `Box<dyn Any + Send>`: its two downcasts
to text, and the payload of a failed `expect`. -/
class PanicPayload (π : Type) where
  downcastStr : π → Option String
  downcastString : π → Option String
  expectFailed : String → π

instance : PanicPayload String where
  downcastStr := some
  downcastString _ := none
  expectFailed := id

structure PanicInfo (π : Type) where
  phase : PanicPhase
  message : Option String
  payload : Option π

variable {S : Signature} {π τ α : Type} [PanicPayload π]

def PanicInfo.fromPayload (phase : PanicPhase) (payload : π) : PanicInfo π where
  phase := phase
  message := (PanicPayload.downcastStr payload).or (PanicPayload.downcastString payload)
  payload := some payload

/-- The payload is taken out, so the destructor that follows finds none. -/
def PanicInfo.intoPayload (self : PanicInfo π) : Routine S π τ π :=
  match self.payload with
  | some payload => pure payload
  | none => raise (PanicPayload.expectFailed "PanicInfo payload must exist before it is consumed")

def PanicInfo.resumeUnwind (self : PanicInfo π) : Routine S π τ α := do
  let payload ← self.intoPayload
  raise payload

instance [Drop S π π] : Drop S π (PanicInfo π) where
  drop mode self := match self.payload with
    | none => pure ()
    | some payload => do
      match ← catchUnwind (Drop.drop mode payload) with
      | .ok () => pure ()
      -- `mem::forget`: this payload never meets its destructor
      | .error _ => pure ()

theorem PanicInfo.drop_fromPayload [Drop S π π] (mode : DropMode) (phase : PanicPhase)
    (payload : π) : (Drop.drop mode (fromPayload phase payload) : Routine S π τ Unit) = (do
      match ← catchUnwind (Drop.drop mode payload) with
      | .ok () => pure ()
      | .error _ => pure ()) := rfl

def catchPhase (phase : PanicPhase) (operation : Routine S π τ α) :
    Routine S π τ (Except (PanicInfo π) α) := do
  match ← catchUnwind operation with
  | .ok a => pure (.ok a)
  | .error payload => pure (.error (PanicInfo.fromPayload phase payload))

def dropTaskCatching {κ β : Type} (task : FnOnce S π κ β) :
    Routine S π τ (Except (PanicInfo π) Unit) :=
  catchPhase .taskCleanup (lift (task.drop false))

end DoubleChecked
