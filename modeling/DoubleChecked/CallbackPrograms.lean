import DoubleChecked.Effect.Interpret
import DoubleChecked.CallLaw

/-!
# Callbacks that are programs

The executors are generic in the signature of their callbacks. Carrying out the calls of
an executor by programs over another signature gives the executor that was built from
those programs.
-/

namespace DoubleChecked
open Effect Effect.Routine

variable {S T : Signature} {P R E C π τ α : Type} {f : Interpretation S T}

section Values
variable [Drop S π R] [Drop T π R] [Drop.Interprets f π R] [Drop S π E] [Drop T π E]
  [Drop.Interprets f π E]

instance : Drop.Interprets f π (LockedExecution R E) where
  interpret_drop mode x := by
    cases x with
    | conditionNotMet => rfl
    | task result => exact Drop.Interprets.interpret_drop mode result

omit [Drop S π R] [Drop T π R] [Drop.Interprets f π R] in
instance : Drop.Interprets f π (RollbackExecution E) where
  interpret_drop mode x := by
    cases x with
    | conditionNotMet => rfl
    | taskFailed error => exact Drop.Interprets.interpret_drop mode error

end Values

instance [Drop S π π] [Drop T π π] [Drop.Interprets f π π] :
    Drop.Interprets f π (PanicInfo π) where
  interpret_drop mode info := by
    obtain ⟨phase, message, _ | payload⟩ := info
    · rfl
    · refine (interpret_bind _ _).trans ?_
      rw [interpret_catchUnwind, Drop.Interprets.interpret_drop]
      refine bind_congr fun caught => ?_
      cases caught <;> rfl

section Capture
variable [PanicPayload π]

@[simp] theorem interpret_catchPhase (phase : PanicPhase) (operation : Routine S π τ α) :
    (catchPhase phase operation).interpret f = catchPhase phase (operation.interpret f) := by
  refine (interpret_bind _ _).trans ?_
  rw [interpret_catchUnwind]
  refine bind_congr fun caught => ?_
  cases caught <;> rfl

@[simp] theorem interpret_dropTaskCatching {κ β : Type} (task : FnOnce S π κ β) :
    (dropTaskCatching task : Routine S π τ _).interpret f =
      dropTaskCatching (task.interpret f) := by
  simp only [dropTaskCatching, interpret_catchPhase, interpret_lift, FnOnce.interpret]

@[simp] theorem interpret_resumeUnwind (info : PanicInfo π) :
    (info.resumeUnwind : Routine S π τ α).interpret f = info.resumeUnwind := by
  obtain ⟨phase, message, _ | payload⟩ := info <;> rfl

end Capture

def Lock.interpret (f : Interpretation S T) (lock : Lock S π) : Lock T π where
  lock := lock.lock.interpret f
  dropGuard unwinding := (lock.dropGuard unwinding).interpret f

def DclCore.interpret (f : Interpretation S T) (core : DclCore S π) : DclCore T π :=
  ⟨core.predicate.interpret f⟩

@[simp] theorem interpret_dropUnstarted (unwinding : Bool) (unstarted : Option (FnOnce S π τ α)) :
    (dropUnstarted unwinding unstarted).interpret f =
      dropUnstarted unwinding (unstarted.map (FnOnce.interpret f)) := by
  cases unstarted with
  | none => rfl
  | some task => exact interpret_lift _

section Core
variable (core : DclCore S π) (lock : Lock S π) (task : FnOnce S π τ (Except E R))

@[simp] theorem interpret_executeLocked : (core.executeLocked lock task).interpret f =
    (core.interpret f).executeLocked (lock.interpret f) (task.interpret f) := by
  simp only [DclCore.executeLocked, interpret_bind, interpret_onUnwind, interpret_lift]
  refine bind_congr fun _ => bind_congr fun met => ?_
  cases met with
  | false =>
    simp only [Bool.not_false, if_true, interpret_bind, interpret_onUnwind, interpret_lift,
      interpret_dropUnstarted, interpret_pure]
    rfl
  | true =>
    simp only [Bool.not_true, Bool.false_eq_true, if_false, interpret_bind, interpret_onUnwind,
      interpret_lift, interpret_dropUnstarted, interpret_pure]
    rfl

variable [Drop S π R] [Drop T π R] [Drop.Interprets f π R] [Drop S π E] [Drop T π E]
  [Drop.Interprets f π E] [PanicPayload π]

@[simp] theorem interpret_executeLockedCatching :
    (core.executeLockedCatching lock task).interpret f =
      (core.interpret f).executeLockedCatching (lock.interpret f) (task.interpret f) := by
  simp only [DclCore.executeLockedCatching, interpret_withCell, interpret_bind,
    interpret_catchUnwind, interpret_onUnwind, interpret_lift, interpret_set]
  congr 1
  apply congrArg₂
  · congr 1
    refine bind_congr fun _ => bind_congr fun _ => bind_congr fun met => ?_
    cases met with
    | false =>
      simp only [Bool.not_false, if_true, interpret_bind, interpret_onUnwind, interpret_lift,
        interpret_set, interpret_outer, interpret_dropUnstarted, Drop.Interprets.interpret_drop,
        interpret_pure]
      rfl
    | true =>
      simp only [Bool.not_true, Bool.false_eq_true, if_false, interpret_bind, interpret_onUnwind,
        interpret_lift, interpret_set, interpret_outer, interpret_dropUnstarted,
        Drop.Interprets.interpret_drop, interpret_pure]
      rfl
  · funext caught
    cases caught <;> rfl

end Core

def DclExecutor.interpret (f : Interpretation S T) (executor : DclExecutor S π) :
    DclExecutor T π :=
  ⟨executor.core.interpret f⟩

section Basic
variable (executor : DclExecutor S π) (lock : Lock S π) (task : FnOnce S π τ (Except E R))

theorem interpret_run : (executor.run lock task).interpret f =
    (executor.interpret f).run (lock.interpret f) (task.interpret f) := by
  simp only [DclExecutor.run, DclCore.checkInitial, interpret_bind, interpret_onUnwind,
    interpret_lift]
  refine bind_congr fun met => ?_
  cases met with
  | false =>
    simp only [Bool.not_false, if_true, interpret_bind, interpret_lift, interpret_pure]
    rfl
  | true =>
    simp only [Bool.not_true, Bool.false_eq_true, if_false, interpret_bind,
      interpret_executeLocked, interpret_pure]
    rfl

variable [PanicPayload π] [Drop S π R] [Drop T π R] [Drop.Interprets f π R] [Drop S π E]
  [Drop T π E] [Drop.Interprets f π E] [Drop S π π] [Drop T π π] [Drop.Interprets f π π]

theorem interpret_runCatching : (executor.runCatching lock task).interpret f =
    (executor.interpret f).runCatching (lock.interpret f) (task.interpret f) := by
  simp only [DclExecutor.runCatching, DclCore.checkInitialCatching, DclCore.checkInitial,
    interpret_bind, interpret_catchPhase, interpret_lift]
  refine bind_congr fun checked => ?_
  rcases checked with panic | (_ | _)
  · simp only [interpret_bind, interpret_dropTaskCatching, Drop.Interprets.interpret_drop,
      interpret_pure]
  · simp only [interpret_bind, interpret_dropTaskCatching]
    refine bind_congr fun cleanup => ?_
    cases cleanup <;> rfl
  · simp only [interpret_bind, interpret_executeLockedCatching]
    refine bind_congr fun locked => ?_
    cases locked <;> rfl

end Basic

def CommitCallback.interpret (f : Interpretation S T) (commit : CommitCallback S π P C) :
    CommitCallback T π P C :=
  fun token => (commit token).interpret f

def RollbackCallback.interpret (f : Interpretation S T) (rollback : RollbackCallback S π P E C) :
    RollbackCallback T π P E C :=
  fun token cause => (rollback token cause).interpret f

def LifecycleDclExecutor.interpret (f : Interpretation S T)
    (executor : LifecycleDclExecutor S π P E C) : LifecycleDclExecutor T π P E C where
  core := executor.core.interpret f
  prepare := executor.prepare.interpret f
  commit := executor.commit.map (CommitCallback.interpret f)
  rollback := executor.rollback.map (RollbackCallback.interpret f)
  configured := by simpa using executor.configured

section Finalization
variable [Drop S π P] [Drop T π P] [Drop.Interprets f π P]
  (commit : Option (CommitCallback S π P C)) (rollback : Option (RollbackCallback S π P E C))
  (token : P) (cause : RollbackCause E π)

@[simp] theorem interpret_finalizeCommit :
    (finalizeCommit commit token : Routine S π τ _).interpret f =
      finalizeCommit (commit.map (CommitCallback.interpret f)) token := by
  cases commit with
  | none =>
    simp only [finalizeCommit, Option.map, interpret_bind, Drop.Interprets.interpret_drop,
      interpret_pure]
  | some commit =>
    simp only [finalizeCommit, Option.map, CommitCallback.interpret, interpret_bind,
      interpret_lift]
    refine bind_congr fun result => ?_
    cases result <;> rfl

@[simp] theorem interpret_finalizeRollback :
    (finalizeRollback rollback token cause : Routine S π τ _).interpret f =
      finalizeRollback (rollback.map (RollbackCallback.interpret f)) token cause := by
  cases rollback with
  | none =>
    simp only [finalizeRollback, Option.map, interpret_bind, Drop.Interprets.interpret_drop,
      interpret_pure]
  | some rollback =>
    simp only [finalizeRollback, Option.map, RollbackCallback.interpret, interpret_bind,
      interpret_lift]
    refine bind_congr fun result => ?_
    cases result <;> rfl

variable [PanicPayload π]

@[simp] theorem interpret_finalizeCommitCatching :
    (finalizeCommitCatching commit token : Routine S π τ _).interpret f =
      finalizeCommitCatching (commit.map (CommitCallback.interpret f)) token := by
  cases commit with
  | none =>
    simp only [finalizeCommitCatching, Option.map, interpret_bind, interpret_catchPhase,
      Drop.Interprets.interpret_drop]
    refine bind_congr fun result => ?_
    cases result <;> rfl
  | some commit =>
    simp only [finalizeCommitCatching, Option.map, CommitCallback.interpret, interpret_bind,
      interpret_catchPhase, interpret_lift]
    refine bind_congr fun result => ?_
    rcases result with panic | (c | u) <;> rfl

@[simp] theorem interpret_finalizeRollbackCatching :
    (finalizeRollbackCatching rollback token cause : Routine S π τ _).interpret f =
      finalizeRollbackCatching (rollback.map (RollbackCallback.interpret f)) token cause := by
  cases rollback with
  | none =>
    simp only [finalizeRollbackCatching, Option.map, interpret_bind, interpret_catchPhase,
      Drop.Interprets.interpret_drop]
    refine bind_congr fun result => ?_
    cases result <;> rfl
  | some rollback =>
    simp only [finalizeRollbackCatching, Option.map, RollbackCallback.interpret, interpret_bind,
      interpret_catchPhase, interpret_lift]
    refine bind_congr fun result => ?_
    rcases result with panic | (c | u) <;> rfl

end Finalization

@[simp] theorem interpret_discardSecondary [Drop S π π] [Drop T π π] [Drop.Interprets f π π]
    (operation : Routine S π τ Unit) :
    (LifecycleDclExecutor.discardSecondary operation).interpret f =
      LifecycleDclExecutor.discardSecondary (operation.interpret f) := by
  unfold LifecycleDclExecutor.discardSecondary
  simp only [interpret_bind, interpret_catchUnwind]
  refine congrArg₂ _ (congrArg _ (bind_congr fun caught => ?_)) (funext fun secondary => ?_)
  · cases caught with
    | ok u => rfl
    | error payload => exact Drop.Interprets.interpret_drop _ _
  · cases secondary <;> rfl

theorem interpret_lendToken (task : FnOnce S π P (Except E R)) :
    (LifecycleDclExecutor.lendToken task : FnOnce S π (τ × P) _).interpret f =
      LifecycleDclExecutor.lendToken (task.interpret f) := by
  simp only [FnOnce.interpret, LifecycleDclExecutor.lendToken, interpret_inner]

theorem interpret_ignoreToken (task : FnOnce S π Unit (Except E R)) :
    (LifecycleDclExecutor.ignoreToken task : FnOnce S π P _).interpret f =
      LifecycleDclExecutor.ignoreToken (task.interpret f) := by
  simp only [FnOnce.interpret, LifecycleDclExecutor.ignoreToken, interpret_lift, interpret_start]

section Lifecycle
variable [PanicPayload π] [Drop S π P] [Drop T π P] [Drop.Interprets f π P]
  [Drop S π C] [Drop T π C] [Drop.Interprets f π C] [Drop S π π] [Drop T π π]
  [Drop.Interprets f π π] (executor : LifecycleDclExecutor S π P E C)

@[simp] theorem interpret_rollbackThenResume (token : P) (panic : PanicInfo π) :
    (executor.rollbackThenResume token panic : Routine S π τ α).interpret f =
      (executor.interpret f).rollbackThenResume token panic := by
  obtain ⟨core, prepare, commit, rollback, configured⟩ := executor
  unfold LifecycleDclExecutor.rollbackThenResume
  cases rollback with
  | none =>
    simp only [LifecycleDclExecutor.interpret, Option.map, interpret_bind,
      interpret_discardSecondary, Drop.Interprets.interpret_drop, interpret_resumeUnwind]
  | some rollback =>
    simp only [LifecycleDclExecutor.interpret, Option.map, RollbackCallback.interpret,
      interpret_bind, interpret_discardSecondary, interpret_lift,
      Drop.Interprets.interpret_drop, interpret_resumeUnwind]

variable [Drop S π R] [Drop T π R] [Drop.Interprets f π R] [Drop S π E] [Drop T π E]
  [Drop.Interprets f π E] (lock : Lock S π) (task : FnOnce S π P (Except E R))

theorem interpret_runWithToken :
    (executor.runWithToken lock task : Routine S π τ _).interpret f =
      (executor.interpret f).runWithToken (lock.interpret f) (task.interpret f) := by
  simp only [LifecycleDclExecutor.runWithToken, DclCore.checkInitial, interpret_bind,
    interpret_onUnwind, interpret_lift]
  refine bind_congr fun met => ?_
  cases met with
  | false =>
    simp only [Bool.not_false, if_true, interpret_bind, interpret_lift, interpret_pure]
    rfl
  | true =>
  simp only [Bool.not_true, Bool.false_eq_true, if_false, interpret_bind, interpret_onUnwind,
    interpret_lift]
  refine bind_congr fun prepared => ?_
  cases prepared with
  | error c =>
    simp only [interpret_bind, interpret_lift, interpret_pure]
    rfl
  | ok token =>
  simp only [interpret_withCell, interpret_bind, interpret_get, interpret_executeLockedCatching,
    interpret_lendToken]
  refine congrArg _ (bind_congr fun locked => bind_congr fun token => ?_)
  rcases locked with panic | (_ | (error | value))
  · exact interpret_rollbackThenResume executor token panic
  · simp only [LifecycleDclExecutor.finishRollback, interpret_bind, interpret_onUnwind,
      interpret_finalizeRollback, Drop.Interprets.interpret_drop, interpret_pure]
    rfl
  · simp only [LifecycleDclExecutor.finishRollback, interpret_bind, interpret_onUnwind,
      interpret_finalizeRollback, Drop.Interprets.interpret_drop, interpret_pure]
    rfl
  · simp only [LifecycleDclExecutor.finishCommit, interpret_bind, interpret_onUnwind,
      interpret_finalizeCommit, Drop.Interprets.interpret_drop, interpret_pure]
    rfl

omit [Drop S π C] [Drop T π C] [Drop.Interprets f π C] in
theorem interpret_runWithTokenCatching :
    (executor.runWithTokenCatching lock task : Routine S π τ _).interpret f =
      (executor.interpret f).runWithTokenCatching (lock.interpret f) (task.interpret f) := by
  simp only [LifecycleDclExecutor.runWithTokenCatching, DclCore.checkInitialCatching,
    DclCore.checkInitial, interpret_bind, interpret_catchPhase, interpret_lift]
  refine bind_congr fun checked => ?_
  rcases checked with panic | (_ | _)
  · simp only [interpret_bind, interpret_dropTaskCatching, Drop.Interprets.interpret_drop,
      interpret_pure]
  · simp only [interpret_bind, interpret_dropTaskCatching]
    refine bind_congr fun cleanup => ?_
    cases cleanup <;> rfl
  simp only [interpret_bind, interpret_catchPhase, interpret_lift]
  refine bind_congr fun prepared => ?_
  rcases prepared with panic | (c | token)
  · simp only [interpret_bind, interpret_dropTaskCatching, Drop.Interprets.interpret_drop,
      interpret_pure]
  · simp only [interpret_bind, interpret_dropTaskCatching, Drop.Interprets.interpret_drop,
      interpret_pure]
  simp only [interpret_withCell, interpret_bind, interpret_get, interpret_executeLockedCatching,
    interpret_lendToken]
  refine congrArg _ (bind_congr fun locked => bind_congr fun token => ?_)
  rcases locked with panic | (_ | (error | value))
  · simp only [LifecycleDclExecutor.finishRollbackCatching, interpret_bind,
      interpret_finalizeRollbackCatching, interpret_pure]
    rfl
  · simp only [LifecycleDclExecutor.finishRollbackCatching, interpret_bind,
      interpret_finalizeRollbackCatching, interpret_pure]
    rfl
  · simp only [LifecycleDclExecutor.finishRollbackCatching, interpret_bind,
      interpret_finalizeRollbackCatching, interpret_pure]
    rfl
  · simp only [LifecycleDclExecutor.finishCommitCatching, interpret_bind,
      interpret_finalizeCommitCatching, interpret_pure]
    rfl

end Lifecycle

section Build
variable (f : Interpretation (Calls P R E C π) T)

def answering (p : Program T (Reply π α)) : Program T (Exit π α) := p.bind fun r => .pure r.exit

namespace CallbackPrograms

def predicate : Program T (Exit π Bool) := answering (f .predicate)

def prepare : PrepareCallback T π P C := answering (f .prepare)

def commit : CommitCallback T π P C := fun token => answering (f (.commit token))

def rollback : RollbackCallback T π P E C := fun token cause =>
  answering (f (.rollback token cause))

def lock : Lock T π where
  lock := answering (f .lock)
  dropGuard unwinding := answering (f (.dropGuard unwinding))

def task : FnOnce T π Unit (Except E R) where
  call t := (f .task).bind fun r => .pure (r.exit, t)
  drop unwinding := answering (f (.dropTask unwinding))

def taskWithToken : FnOnce T π P (Except E R) where
  call token := (f (.taskWithToken token)).bind fun r => .pure (r.1.exit, r.2)
  drop unwinding := answering (f (.dropTask unwinding))

@[reducible] def dropToken : Drop T π P where
  drop mode token := lift (answering (f (.dropToken mode token)))

@[reducible] def dropDiscarded (wrap : α → Discarded R E C π) : Drop T π α where
  drop mode a := lift (answering (f (.discard mode (wrap a))))

def executor (finalizers : Finalizers) : LifecycleDclExecutor T π P E C :=
  let prepared := (LifecycleDclExecutor.builder.when (predicate f)).prepare (prepare f)
  match finalizers with
  | .commitAndRollback => ((prepared.withCommit (commit f)).withRollback (rollback f)).build
  | .commitOnly => (prepared.withCommit (commit f)).noRollback.build
  | .rollbackOnly => (prepared.noCommit.withRollback (rollback f)).build

end CallbackPrograms

open CallbackPrograms

variable [PanicPayload π]

def Invocation.programWith (i : Invocation) : Program T (Answer R E C π) :=
  letI : Drop T π P := dropToken f
  letI : Drop T π R := dropDiscarded f .value
  letI : Drop T π E := dropDiscarded f .error
  letI : Drop T π C := dropDiscarded f .callbackError
  letI : Drop T π π := dropDiscarded f .payload
  match i with
  | .basic catching clones =>
    let executor := DclExecutor.clone^[clones] (DclExecutor.new (predicate f))
    if catching then
      ((executor.runCatching (lock f) (task f)).start).bind fun x => .pure (.captured x)
    else
      ((executor.run (lock f) (task f)).start).bind fun x => .pure (.outcome x)
  | .lifecycle finalizers withToken catching clones =>
    let executor := LifecycleDclExecutor.clone^[clones] (executor f finalizers)
    match withToken, catching with
    | false, false =>
      ((executor.run (lock f) (task f)).start).bind fun x => .pure (.lifecycle x)
    | true, false =>
      ((executor.runWithToken (lock f) (taskWithToken f)).start).bind fun x =>
        .pure (.lifecycle x)
    | false, true =>
      ((executor.runCatching (lock f) (task f)).start).bind fun x =>
        .pure (.lifecycleCaptured x)
    | true, true =>
      ((executor.runWithTokenCatching (lock f) (taskWithToken f)).start).bind fun x =>
        .pure (.lifecycleCaptured x)

omit [PanicPayload π] in
theorem interpret_answer {m : Routine (Calls P R E C π) π Unit α} {g : Exit π α → Answer R E C π}
    {m' : Routine T π Unit α} (hm : m.interpret f = m') :
    (m'.start.bind fun x => .pure (g x)) = (m.start.bind fun x => .pure (g x)).interpret f := by
  rw [Program.interpret_map, interpret_start, hm]

theorem programWith_eq (i : Invocation) : i.programWith f = i.program.interpret f := by
  let _ : Drop T π P := dropToken f
  let _ : Drop T π R := dropDiscarded f .value
  let _ : Drop T π E := dropDiscarded f .error
  let _ : Drop T π C := dropDiscarded f .callbackError
  let _ : Drop T π π := dropDiscarded f .payload
  have : Drop.Interprets f π P := ⟨fun _ _ => interpret_lift _⟩
  have : Drop.Interprets f π R := ⟨fun _ _ => interpret_lift _⟩
  have : Drop.Interprets f π E := ⟨fun _ _ => interpret_lift _⟩
  have : Drop.Interprets f π C := ⟨fun _ _ => interpret_lift _⟩
  have : Drop.Interprets f π π := ⟨fun _ _ => interpret_lift _⟩
  cases i with
  | basic catching clones =>
    simp only [Invocation.program, Invocation.programWith, DclExecutor.clones_eq]
    cases catching with
    | false => exact interpret_answer f (interpret_run _ _ _)
    | true => exact interpret_answer f (interpret_runCatching _ _ _)
  | lifecycle finalizers withToken catching clones =>
    have hexecutor : (finalizers.executor (R := R)).interpret f = executor f finalizers := by
      cases finalizers <;> rfl
    have hignore : (LifecycleDclExecutor.ignoreToken Calls.task : FnOnce _ π P _).interpret f =
        LifecycleDclExecutor.ignoreToken (task f) := interpret_ignoreToken _
    simp only [Invocation.program, Invocation.programWith, LifecycleDclExecutor.clones_eq,
      ← hexecutor]
    cases catching with
    | false =>
      cases withToken with
      | false =>
        refine interpret_answer f ((interpret_runWithToken _ _ _).trans ?_)
        rw [hignore]
        rfl
      | true => exact interpret_answer f (interpret_runWithToken _ _ _)
    | true =>
      cases withToken with
      | false =>
        refine interpret_answer f ((interpret_runWithTokenCatching _ _ _).trans ?_)
        rw [hignore]
        rfl
      | true => exact interpret_answer f (interpret_runWithTokenCatching _ _ _)

/-- Whatever programs the callbacks, the lock and the destructors are, the entry point
runs them one after the other in a lawful order, and does nothing else. -/
theorem exec_callbacks {σ : Type} {ρ : σ → (o : T.Op) → T.Res o → σ → Prop} (i : Invocation)
    (admitted : ∀ s es o r s', Program.Exec ρ (f o) s es r s' → o.admits r) {s s' : σ}
    {es : List (Event T)} {a : Answer R E C π} (hx : Program.Exec ρ (i.programWith f) s es a s') :
    ∃ cs, Program.Exec (Program.CarriesOut f ρ) i.program (s, []) cs a (s', es) ∧ CallLaw i cs := by
  rw [programWith_eq] at hx
  obtain ⟨cs, hcs⟩ := Program.exec_interpret.mp hx
  have hadmitted (x o r x') (hr : Program.CarriesOut f ρ x o r x') : o.admits r := by
    obtain ⟨es', he, -⟩ := hr
    exact admitted _ _ _ _ _ he
  obtain ⟨q, hpath, ⟨v, cleanup, f', rfl, -⟩, -⟩ := hcs.follows (J := fun _ _ _ => True)
    (program_wp i) trivial hadmitted (fun _ _ _ _ _ _ _ _ _ _ => trivial)
  exact ⟨cs, hcs, callLaw_of_path hpath⟩

end Build

abbrev Clock : Signature := ⟨Unit, fun _ => ℕ⟩

def ticks (s : ℕ) (_ : Unit) (r : ℕ) (s' : ℕ) : Prop := r = s ∧ s' = s + 1

def readsClock : Interpretation (Calls ℕ ℕ ℕ ℕ String) Clock
  | .predicate => .call (S := Clock) () fun m => .call (S := Clock) () fun n =>
    .pure (.ret (decide (m < n)))
  | .task => .call (S := Clock) () fun n => .pure (.ret (.ok n))
  | .lock => .pure (.ret ())
  | .dropGuard _ => .pure (.ret ())
  | .dropTask _ => .pure (.ret ())
  | .prepare => .pure (.ret (.ok 0))
  | .taskWithToken token => .pure (.ret (.ok 1), token)
  | .commit _ => .pure (.ret (.ok ()))
  | .rollback _ _ => .pure (.ret (.ok ()))
  | .dropToken _ _ => .pure (.ret ())
  | .discard _ _ => .pure (.ret ())

theorem exec_callbacks_readsClock :
    ∃ cs, Program.Exec (Program.CarriesOut readsClock ticks)
        (Invocation.basic false 1).program (0, []) cs (.outcome (.ret (.success 4)))
        (5, [⟨(), 0⟩, ⟨(), 1⟩, ⟨(), 2⟩, ⟨(), 3⟩, ⟨(), 4⟩]) ∧
      CallLaw (.basic false 1) cs := by
  refine exec_callbacks readsClock (ρ := ticks) (.basic false 1) ?_ ?_
  · intro s es o r s' hx
    cases o with
    | dropGuard u => cases hx; exact fun _ => rfl
    | dropTask u => cases hx; exact fun _ => rfl
    | dropToken mode token => cases hx; exact fun _ => rfl
    | discard mode v => cases hx; exact fun _ => rfl
    | _ => trivial
  · exact .call ⟨rfl, rfl⟩ (.call ⟨rfl, rfl⟩ (.call ⟨rfl, rfl⟩ (.call ⟨rfl, rfl⟩
      (.call ⟨rfl, rfl⟩ (.pure _ _)))))

end DoubleChecked
