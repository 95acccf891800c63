import DoubleChecked.DclCore

/-!
# The lifecycle executor

Prepare makes a token before the lock is taken; commit or rollback consumes it
after the guard is gone. The token is a local variable of the invocation, lent to
the task and moved into exactly one finalizer. A finalizer that is not configured
drops the token in its place. The builder stages allow every choice of finalizers
but the empty one, which the executor keeps as a field.
-/

namespace DoubleChecked
open Effect Effect.Routine

variable {S : Signature} {π τ R E C P : Type}

abbrev PrepareCallback (S : Signature) (π P C : Type) := Program S (Exit π (Except C P))

abbrev CommitCallback (S : Signature) (π P C : Type) := P → Program S (Exit π (Except C Unit))

abbrev RollbackCallback (S : Signature) (π P E C : Type) :=
  P → RollbackCause E π → Program S (Exit π (Except C Unit))

section Finalization
variable [Drop S π P]

def finalizeCommit (commit : Option (CommitCallback S π P C)) (token : P) :
    Routine S π τ (FinalizationOutcome C) :=
  match commit with
  | some commit => do
    match ← lift (commit token) with
    | .ok () => pure .succeeded
    | .error error => pure (.failed error)
  | none => do
    Drop.drop .scope token
    pure .notRequired

def finalizeRollback (rollback : Option (RollbackCallback S π P E C)) (token : P)
    (cause : RollbackCause E π) : Routine S π τ (FinalizationOutcome C) :=
  match rollback with
  | some rollback => do
    match ← lift (rollback token cause) with
    | .ok () => pure .succeeded
    | .error error => pure (.failed error)
  | none => do
    Drop.drop .scope token
    pure .notRequired

variable [PanicPayload π]

def finalizeCommitCatching (commit : Option (CommitCallback S π P C)) (token : P) :
    Routine S π τ (CapturedFinalizationOutcome C π) :=
  match commit with
  | some commit => do
    match ← catchPhase .commit (lift (commit token)) with
    | .ok (.ok ()) => pure .succeeded
    | .ok (.error error) => pure (.failed error)
    | .error panic => pure (.panicked panic)
  | none => do
    match ← catchPhase .commit (Drop.drop .scope token) with
    | .ok () => pure .notRequired
    | .error panic => pure (.panicked panic)

def finalizeRollbackCatching (rollback : Option (RollbackCallback S π P E C)) (token : P)
    (cause : RollbackCause E π) : Routine S π τ (CapturedFinalizationOutcome C π) :=
  match rollback with
  | some rollback => do
    match ← catchPhase .rollback (lift (rollback token cause)) with
    | .ok (.ok ()) => pure .succeeded
    | .ok (.error error) => pure (.failed error)
    | .error panic => pure (.panicked panic)
  | none => do
    match ← catchPhase .rollback (Drop.drop .scope token) with
    | .ok () => pure .notRequired
    | .error panic => pure (.panicked panic)

end Finalization

structure LifecycleDclExecutor (S : Signature) (π P E C : Type) where
  core : DclCore S π
  prepare : PrepareCallback S π P C
  commit : Option (CommitCallback S π P C)
  rollback : Option (RollbackCallback S π P E C)
  configured : commit.isSome ∨ rollback.isSome

namespace LifecycleDclExecutor

def clone (self : LifecycleDclExecutor S π P E C) : LifecycleDclExecutor S π P E C where
  core := self.core.clone
  prepare := self.prepare
  commit := self.commit
  rollback := self.rollback
  configured := self.configured

@[simp] theorem clone_eq (self : LifecycleDclExecutor S π P E C) : self.clone = self := rfl

@[simp] theorem clones_eq (self : LifecycleDclExecutor S π P E C) (clones : ℕ) :
    clone^[clones] self = self :=
  Function.iterate_fixed self.clone_eq clones

section Finish
variable [Drop S π P] (self : LifecycleDclExecutor S π P E C)

def finishCommit [Drop S π R] (token : P) (value : R) :
    Routine S π τ (LifecycleOutcome R E C) := do
  let commit ← (finalizeCommit self.commit token).onUnwind (Drop.drop .unwinding value)
  pure (.taskSucceeded value commit)

def finishRollback [Drop S π E] (token : P) (execution : RollbackExecution E) :
    Routine S π τ (LifecycleOutcome R E C) := do
  let rollback ← (finalizeRollback self.rollback token execution.cause).onUnwind
    (Drop.drop .unwinding execution)
  pure (execution.intoOutcome rollback)

def finishCommitCatching [PanicPayload π] (token : P) (value : R) :
    Routine S π τ (CapturedLifecycleOutcome R E C π) := do
  let commit ← finalizeCommitCatching self.commit token
  pure (.taskSucceeded value commit)

def finishRollbackCatching [PanicPayload π] (token : P)
    (execution : CapturedRollbackExecution E π) :
    Routine S π τ (CapturedLifecycleOutcome R E C π) := do
  let rollback ← finalizeRollbackCatching self.rollback token execution.cause
  pure (execution.intoOutcome rollback)

/-- The two boundaries contain the operation and the disposal of what the inner one
caught; a payload caught by the outer one is forgotten. -/
def discardSecondary [Drop S π π] (operation : Routine S π τ Unit) : Routine S π τ Unit := do
  let secondary ← catchUnwind (do
    match ← catchUnwind operation with
    | .ok () => pure ()
    | .error payload => Drop.drop .scope payload)
  match secondary with
  | .ok () => pure ()
  | .error _ => pure ()

def rollbackThenResume [PanicPayload π] [Drop S π C] [Drop S π π] {α : Type} (token : P)
    (panic : PanicInfo π) : Routine S π τ α := do
  match self.rollback with
  | some rollback =>
    discardSecondary (do
      let result ← lift (rollback token (.panicked panic))
      Drop.drop .scope result)
  | none => discardSecondary (Drop.drop .scope token)
  panic.resumeUnwind

end Finish

section Run
variable [PanicPayload π] [Drop S π P] [Drop S π R] [Drop S π E] [Drop S π C] [Drop S π π]
variable (self : LifecycleDclExecutor S π P E C) (lock : Lock S π)

/-- `|| task(&mut token)`: the call borrows the innermost variable. -/
def lendToken (task : FnOnce S π P (Except E R)) : FnOnce S π (τ × P) (Except E R) where
  call := inner task.call
  drop := task.drop

/-- `move |_| task()`: the token is not looked at. -/
def ignoreToken (task : FnOnce S π Unit (Except E R)) : FnOnce S π P (Except E R) where
  call := lift task.call.start
  drop := task.drop

/-- An error of prepare that is in the return place when the task's destructor unwinds is
leaked. -/
def runWithToken (task : FnOnce S π P (Except E R)) : Routine S π τ (LifecycleOutcome R E C) := do
  let met ← self.core.checkInitial.onUnwind (lift (task.drop true))
  if !met then
    lift (task.drop false)
    pure .initialConditionNotMet
  else
    match ← (lift self.prepare).onUnwind (lift (task.drop true)) with
    | .error error =>
      lift (task.drop false)
      pure (.prepareFailed error)
    | .ok token =>
      withCell token do
        let locked ← self.core.executeLockedCatching lock (lendToken task)
        let token ← get
        match locked with
        | .ok .conditionNotMet => self.finishRollback token .conditionNotMet
        | .ok (.task (.ok value)) => self.finishCommit token value
        | .ok (.task (.error error)) => self.finishRollback token (.taskFailed error)
        | .error panic => self.rollbackThenResume token panic

def run (task : FnOnce S π Unit (Except E R)) : Routine S π τ (LifecycleOutcome R E C) :=
  self.runWithToken lock (ignoreToken task)

def runWithTokenCatching (task : FnOnce S π P (Except E R)) :
    Routine S π τ (CapturedLifecycleOutcome R E C π) := do
  match ← self.core.checkInitialCatching with
  | .ok false =>
    match ← dropTaskCatching task with
    | .ok () => pure .initialConditionNotMet
    | .error panic => pure (.taskCleanupPanicked panic)
  | .error panic =>
    let cleanup ← dropTaskCatching task
    Drop.drop .scope cleanup
    pure (.initialConditionCheckPanicked panic)
  | .ok true =>
    match ← catchPhase .prepare (lift self.prepare) with
    | .ok (.error error) =>
      let cleanup ← dropTaskCatching task
      Drop.drop .scope cleanup
      pure (.prepareFailed error)
    | .error panic =>
      let cleanup ← dropTaskCatching task
      Drop.drop .scope cleanup
      pure (.preparePanicked panic)
    | .ok (.ok token) =>
      withCell token do
        let locked ← self.core.executeLockedCatching lock (lendToken task)
        let token ← get
        match locked with
        | .ok .conditionNotMet => self.finishRollbackCatching token .conditionNotMet
        | .ok (.task (.ok value)) => self.finishCommitCatching token value
        | .ok (.task (.error error)) => self.finishRollbackCatching token (.taskFailed error)
        | .error panic => self.finishRollbackCatching token (.panicked panic)

def runCatching (task : FnOnce S π Unit (Except E R)) :
    Routine S π τ (CapturedLifecycleOutcome R E C π) :=
  self.runWithTokenCatching lock (ignoreToken task)

end Run
end LifecycleDclExecutor

structure LifecycleDclExecutorBuilder

structure LifecyclePredicateBuilder (S : Signature) (π : Type) where
  core : DclCore S π

structure LifecyclePrepareBuilder (S : Signature) (π P C : Type) where
  core : DclCore S π
  prepare : PrepareCallback S π P C

structure LifecycleCommitBuilder (S : Signature) (π P C : Type) where
  core : DclCore S π
  prepare : PrepareCallback S π P C
  commit : CommitCallback S π P C

structure LifecycleRollbackBuilder (S : Signature) (π P C : Type) where
  core : DclCore S π
  prepare : PrepareCallback S π P C

structure LifecycleReadyBuilder (S : Signature) (π P E C : Type) where
  core : DclCore S π
  prepare : PrepareCallback S π P C
  commit : Option (CommitCallback S π P C)
  rollback : Option (RollbackCallback S π P E C)
  configured : commit.isSome ∨ rollback.isSome

def LifecycleDclExecutor.builder : LifecycleDclExecutorBuilder := ⟨⟩

def LifecycleDclExecutorBuilder.when (_ : LifecycleDclExecutorBuilder)
    (predicate : Program S (Exit π Bool)) : LifecyclePredicateBuilder S π :=
  ⟨⟨predicate⟩⟩

def LifecyclePredicateBuilder.prepare (self : LifecyclePredicateBuilder S π)
    (prepare : PrepareCallback S π P C) : LifecyclePrepareBuilder S π P C :=
  ⟨self.core, prepare⟩

def LifecyclePrepareBuilder.withCommit (self : LifecyclePrepareBuilder S π P C)
    (commit : CommitCallback S π P C) : LifecycleCommitBuilder S π P C :=
  ⟨self.core, self.prepare, commit⟩

def LifecyclePrepareBuilder.noCommit (self : LifecyclePrepareBuilder S π P C) :
    LifecycleRollbackBuilder S π P C :=
  ⟨self.core, self.prepare⟩

def LifecycleCommitBuilder.withRollback (self : LifecycleCommitBuilder S π P C)
    (rollback : RollbackCallback S π P E C) : LifecycleReadyBuilder S π P E C :=
  ⟨self.core, self.prepare, some self.commit, some rollback, .inl rfl⟩

def LifecycleCommitBuilder.noRollback (self : LifecycleCommitBuilder S π P C) :
    LifecycleReadyBuilder S π P E C :=
  ⟨self.core, self.prepare, some self.commit, none, .inl rfl⟩

def LifecycleRollbackBuilder.withRollback (self : LifecycleRollbackBuilder S π P C)
    (rollback : RollbackCallback S π P E C) : LifecycleReadyBuilder S π P E C :=
  ⟨self.core, self.prepare, none, some rollback, .inr rfl⟩

def LifecycleReadyBuilder.build (self : LifecycleReadyBuilder S π P E C) :
    LifecycleDclExecutor S π P E C :=
  ⟨self.core, self.prepare, self.commit, self.rollback, self.configured⟩

end DoubleChecked
