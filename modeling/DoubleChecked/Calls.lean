import DoubleChecked.LifecycleExecutor

/-!
# Calls into foreign code

Everything an invocation does outside its own control flow is one of the calls
below: the predicate, the callbacks, the lock and its guard, the task, and the
destructors of the task, of the token and of the values that never reach the
caller. Executors whose callbacks are these calls show every interaction, and
nothing is assumed of the replies.
-/

namespace DoubleChecked
open Effect

/-- A value whose destructor the executors run themselves. -/
inductive Discarded (R E C π : Type)
  | value (r : R)
  | error (e : E)
  | callbackError (c : C)
  | payload (p : π)

def Discarded.ofResult {R E C π : Type} : Except E R → Discarded R E C π
  | .ok r => .value r
  | .error e => .error e

inductive Call (P R E C π : Type)
  | predicate
  | prepare
  | lock
  | dropGuard (unwinding : Bool)
  | task
  | taskWithToken (token : P)
  | dropTask (unwinding : Bool)
  | commit (token : P)
  | rollback (token : P) (cause : RollbackCause E π)
  | dropToken (mode : DropMode) (token : P)
  | discard (mode : DropMode) (v : Discarded R E C π)

/-- A task that borrows the token answers with the token it leaves behind, also
when it panics. -/
abbrev Call.Answer {P R E C π : Type} : Call P R E C π → Type
  | .predicate => Reply π Bool
  | .prepare => Reply π (Except C P)
  | .lock => Reply π Unit
  | .dropGuard _ => Reply π Unit
  | .task => Reply π (Except E R)
  | .taskWithToken _ => Reply π (Except E R) × P
  | .dropTask _ => Reply π Unit
  | .commit _ => Reply π (Except C Unit)
  | .rollback _ _ => Reply π (Except C Unit)
  | .dropToken _ _ => Reply π Unit
  | .discard _ _ => Reply π Unit

abbrev Calls (P R E C π : Type) : Signature := ⟨Call P R E C π, Call.Answer⟩

abbrev CallEvent (P R E C π : Type) := Event (Calls P R E C π)

namespace Call
variable {P R E C π : Type}

def isPredicate : Call P R E C π → Bool
  | .predicate => true
  | _ => false

def isDropGuard : Call P R E C π → Bool
  | .dropGuard _ => true
  | _ => false

def startsTask : Call P R E C π → Bool
  | .task | .taskWithToken _ => true
  | _ => false

def isDropTask : Call P R E C π → Bool
  | .dropTask _ => true
  | _ => false

def isDiscard : Call P R E C π → Bool
  | .discard _ _ => true
  | _ => false

def returnsOk : (o : Call P R E C π) → o.Answer → Bool
  | .task, .ret (.ok _) => true
  | .taskWithToken _, (.ret (.ok _), _) => true
  | _, _ => false

def handsOver : Call P R E C π → Bool
  | .commit _ | .rollback _ _ | .dropToken _ _ => true
  | _ => false

end Call

namespace Calls
variable {P R E C π τ : Type}

def predicate : Program (Calls P R E C π) (Exit π Bool) :=
  .call (S := Calls P R E C π) .predicate fun r => .pure r.exit

def prepare : PrepareCallback (Calls P R E C π) π P C :=
  .call (S := Calls P R E C π) .prepare fun r => .pure r.exit

def commit : CommitCallback (Calls P R E C π) π P C := fun token =>
  .call (S := Calls P R E C π) (.commit token) fun r => .pure r.exit

def rollback : RollbackCallback (Calls P R E C π) π P E C := fun token cause =>
  .call (S := Calls P R E C π) (.rollback token cause) fun r => .pure r.exit

def lock : Lock (Calls P R E C π) π where
  lock := .call (S := Calls P R E C π) .lock fun r => .pure r.exit
  dropGuard unwinding := .call (S := Calls P R E C π) (.dropGuard unwinding) fun r => .pure r.exit

def task : FnOnce (Calls P R E C π) π Unit (Except E R) where
  call t := .call (S := Calls P R E C π) .task fun r => .pure (r.exit, t)
  drop unwinding := .call (S := Calls P R E C π) (.dropTask unwinding) fun r => .pure r.exit

def taskWithToken : FnOnce (Calls P R E C π) π P (Except E R) where
  call token := .call (S := Calls P R E C π) (.taskWithToken token) fun r => .pure (r.1.exit, r.2)
  drop unwinding := .call (S := Calls P R E C π) (.dropTask unwinding) fun r => .pure r.exit

def discard (mode : DropMode) (v : Discarded R E C π) : Routine (Calls P R E C π) π τ Unit :=
  Routine.lift (.call (S := Calls P R E C π) (.discard mode v) fun r => .pure r.exit)

end Calls

section Destructors
variable {P R E C π : Type}

instance : Drop (Calls P R E C π) π P where
  drop mode token := Routine.lift
    (.call (S := Calls P R E C π) (.dropToken mode token) fun r => .pure r.exit)

instance : Drop (Calls P R E C π) π R where
  drop mode r := Calls.discard mode (.value r)

instance : Drop (Calls P R E C π) π E where
  drop mode e := Calls.discard mode (.error e)

instance : Drop (Calls P R E C π) π C where
  drop mode c := Calls.discard mode (.callbackError c)

instance : Drop (Calls P R E C π) π π where
  drop mode p := Calls.discard mode (.payload p)

end Destructors

inductive Finalizers
  | commitAndRollback
  | commitOnly
  | rollbackOnly
  deriving DecidableEq

namespace Finalizers
variable {P R E C π : Type}

def hasCommit : Finalizers → Bool
  | .commitAndRollback | .commitOnly => true
  | .rollbackOnly => false

def hasRollback : Finalizers → Bool
  | .commitAndRollback | .rollbackOnly => true
  | .commitOnly => false

def executor (f : Finalizers) : LifecycleDclExecutor (Calls P R E C π) π P E C :=
  let prepared := (LifecycleDclExecutor.builder.when (Calls.predicate (P := P) (R := R) (E := E)
    (C := C) (π := π))).prepare Calls.prepare
  match f with
  | .commitAndRollback => ((prepared.withCommit Calls.commit).withRollback Calls.rollback).build
  | .commitOnly => (prepared.withCommit Calls.commit).noRollback.build
  | .rollbackOnly => (prepared.noCommit.withRollback Calls.rollback).build

end Finalizers

/-- One invocation of a public entry point, on the executor cloned `clones` times. -/
inductive Invocation
  | basic (catching : Bool) (clones : ℕ)
  | lifecycle (finalizers : Finalizers) (withToken catching : Bool) (clones : ℕ)
  deriving DecidableEq

inductive Answer (R E C π : Type)
  | outcome (x : Exit π (ExecutionOutcome R E))
  | captured (x : Exit π (Except (PanicInfo π) (ExecutionOutcome R E)))
  | lifecycle (x : Exit π (LifecycleOutcome R E C))
  | lifecycleCaptured (x : Exit π (CapturedLifecycleOutcome R E C π))

namespace Invocation
variable {P R E C π : Type} [PanicPayload π]

def program : Invocation → Program (Calls P R E C π) (Answer R E C π)
  | .basic catching clones =>
    let executor := DclExecutor.clone^[clones] (DclExecutor.new Calls.predicate)
    if catching then
      ((executor.runCatching Calls.lock Calls.task).start).bind fun x => .pure (.captured x)
    else
      ((executor.run Calls.lock Calls.task).start).bind fun x => .pure (.outcome x)
  | .lifecycle finalizers withToken catching clones =>
    let executor := LifecycleDclExecutor.clone^[clones] (finalizers.executor (R := R))
    match withToken, catching with
    | false, false =>
      ((executor.run Calls.lock Calls.task).start).bind fun x => .pure (.lifecycle x)
    | true, false =>
      ((executor.runWithToken Calls.lock Calls.taskWithToken).start).bind fun x =>
        .pure (.lifecycle x)
    | false, true =>
      ((executor.runCatching Calls.lock Calls.task).start).bind fun x =>
        .pure (.lifecycleCaptured x)
    | true, true =>
      ((executor.runWithTokenCatching Calls.lock Calls.taskWithToken).start).bind fun x =>
        .pure (.lifecycleCaptured x)

end Invocation
end DoubleChecked
