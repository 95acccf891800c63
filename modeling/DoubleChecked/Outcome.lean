import DoubleChecked.PanicInfo

/-!
# Outcomes

The structured results of both executors and the private states they are built
from. A task result `Result<R, E>` is an `Except E R`, a callback result
`Result<(), C>` an `Except C Unit`.
-/

namespace DoubleChecked
open Effect

inductive ExecutionOutcome (R E : Type)
  | success (value : R)
  | conditionNotMet
  | taskFailed (error : E)

def ExecutionOutcome.intoResult {R E : Type} : ExecutionOutcome R E → Except E (Option R)
  | .success value => .ok (some value)
  | .conditionNotMet => .ok none
  | .taskFailed error => .error error

inductive FinalizationOutcome (C : Type)
  | notRequired
  | succeeded
  | failed (error : C)

inductive CapturedFinalizationOutcome (C π : Type)
  | notRequired
  | succeeded
  | failed (error : C)
  | panicked (panic : PanicInfo π)

inductive LifecycleOutcome (R E C : Type)
  | initialConditionNotMet
  | prepareFailed (error : C)
  | taskSucceeded (value : R) (commit : FinalizationOutcome C)
  | secondConditionNotMet (rollback : FinalizationOutcome C)
  | taskFailed (error : E) (rollback : FinalizationOutcome C)

inductive CapturedLifecycleOutcome (R E C π : Type)
  | initialConditionNotMet
  | initialConditionCheckPanicked (panic : PanicInfo π)
  | taskCleanupPanicked (panic : PanicInfo π)
  | prepareFailed (error : C)
  | preparePanicked (panic : PanicInfo π)
  | taskSucceeded (value : R) (commit : CapturedFinalizationOutcome C π)
  | secondConditionNotMet (rollback : CapturedFinalizationOutcome C π)
  | taskFailed (error : E) (rollback : CapturedFinalizationOutcome C π)
  | executionPanicked (panic : PanicInfo π) (rollback : CapturedFinalizationOutcome C π)

inductive RollbackCause (E π : Type)
  | conditionNotMet
  | taskFailed (error : E)
  | panicked (panic : PanicInfo π)

inductive LockedExecution (R E : Type)
  | conditionNotMet
  | task (result : Except E R)

instance {S : Signature} {π R E : Type} [Drop S π R] [Drop S π E] :
    Drop S π (LockedExecution R E) where
  drop mode
    | .conditionNotMet => pure ()
    | .task result => Drop.drop mode result

def LockedExecution.intoOutcome {R E : Type} : LockedExecution R E → ExecutionOutcome R E
  | .conditionNotMet => .conditionNotMet
  | .task (.ok value) => .success value
  | .task (.error error) => .taskFailed error

inductive RollbackExecution (E : Type)
  | conditionNotMet
  | taskFailed (error : E)

instance {S : Signature} {π E : Type} [Drop S π E] : Drop S π (RollbackExecution E) where
  drop mode
    | .conditionNotMet => pure ()
    | .taskFailed error => Drop.drop mode error

namespace RollbackExecution
variable {R E C π : Type}

def cause : RollbackExecution E → RollbackCause E π
  | .conditionNotMet => .conditionNotMet
  | .taskFailed error => .taskFailed error

def intoOutcome (self : RollbackExecution E) (rollback : FinalizationOutcome C) :
    LifecycleOutcome R E C :=
  match self with
  | .conditionNotMet => .secondConditionNotMet rollback
  | .taskFailed error => .taskFailed error rollback

end RollbackExecution

inductive CapturedRollbackExecution (E π : Type)
  | conditionNotMet
  | taskFailed (error : E)
  | panicked (panic : PanicInfo π)

namespace CapturedRollbackExecution
variable {R E C π : Type}

def cause : CapturedRollbackExecution E π → RollbackCause E π
  | .conditionNotMet => .conditionNotMet
  | .taskFailed error => .taskFailed error
  | .panicked panic => .panicked panic

def intoOutcome (self : CapturedRollbackExecution E π)
    (rollback : CapturedFinalizationOutcome C π) : CapturedLifecycleOutcome R E C π :=
  match self with
  | .conditionNotMet => .secondConditionNotMet rollback
  | .taskFailed error => .taskFailed error rollback
  | .panicked panic => .executionPanicked panic rollback

end CapturedRollbackExecution
end DoubleChecked
