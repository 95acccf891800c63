import DoubleChecked.Effect.Abort
import DoubleChecked.Transcripts

/-!
# What gets out of the entry points

An invocation aborts exactly when a destructor panics during an unwind, whatever else
its calls answer. The capturing entry points let no panic out: every foreign call and
every destructor they run is behind a boundary.
-/

namespace DoubleChecked
open Effect Effect.Routine
open Effect.Program (run)

variable {P R E C π τ σ : Type}

/-- A destructor panics while another panic is unwinding. -/
def CallEvent.Fatal (e : CallEvent P R E C π) : Prop := ¬e.op.admits e.res

theorem admitted_iff {es : List (CallEvent P R E C π)} :
    Admitted es ↔ ¬∃ e ∈ es, CallEvent.Fatal e := by
  simp [Admitted, CallEvent.Fatal]

def Answer.exit : Answer R E C π → Exit π Unit
  | .outcome x => x.map fun _ => ()
  | .captured x => x.map fun _ => ()
  | .lifecycle x => x.map fun _ => ()
  | .lifecycleCaptured x => x.map fun _ => ()

section Calls

theorem abortsOn_free {α : Type} {o : Call P R E C π} {f : o.Answer → Reply π α}
    (ho : ∀ r, o.admits r) :
    (lift (.call (S := Calls P R E C π) o fun r => .pure (f r).exit) :
      Routine (Calls P R E C π) π τ α).AbortsOn CallEvent.Fatal :=
  abortsOn_call fun r hf => hf (ho r)

theorem abortsOn_predicate : (lift Calls.predicate :
    Routine (Calls P R E C π) π τ Bool).AbortsOn CallEvent.Fatal :=
  abortsOn_free (o := .predicate) (f := id) fun _ => trivial

theorem abortsOn_prepare : (lift Calls.prepare :
    Routine (Calls P R E C π) π τ (Except C P)).AbortsOn CallEvent.Fatal :=
  abortsOn_free (o := .prepare) (f := id) fun _ => trivial

theorem abortsOn_lock : (lift Calls.lock.lock :
    Routine (Calls P R E C π) π τ Unit).AbortsOn CallEvent.Fatal :=
  abortsOn_free (o := .lock) (f := id) fun _ => trivial

theorem abortsOn_commit {token : P} : (lift (Calls.commit token) :
    Routine (Calls P R E C π) π τ (Except C Unit)).AbortsOn CallEvent.Fatal :=
  abortsOn_free (o := .commit token) (f := id) fun _ => trivial

theorem abortsOn_rollback {token : P} {cause : RollbackCause E π} :
    (lift (Calls.rollback token cause) :
      Routine (Calls P R E C π) π τ (Except C Unit)).AbortsOn CallEvent.Fatal :=
  abortsOn_free (o := .rollback token cause) (f := id) fun _ => trivial

theorem abortsOn_dropGuard : (lift (Calls.lock.dropGuard false) :
    Routine (Calls P R E C π) π τ Unit).AbortsOn CallEvent.Fatal :=
  abortsOn_free (o := .dropGuard false) (f := id) fun _ => nofun

theorem abortsOn_dropTask : (lift (Calls.task.drop false) :
    Routine (Calls P R E C π) π τ Unit).AbortsOn CallEvent.Fatal :=
  abortsOn_free (o := .dropTask false) (f := id) fun _ => nofun

theorem abortsOn_dropToken {token : P} : (Drop.drop .scope token :
    Routine (Calls P R E C π) π τ Unit).AbortsOn CallEvent.Fatal :=
  abortsOn_free (o := .dropToken .scope token) (f := id) fun _ h => absurd rfl h

theorem abortsOn_discard {v : Discarded R E C π} : (Calls.discard .scope v :
    Routine (Calls P R E C π) π τ Unit).AbortsOn CallEvent.Fatal :=
  abortsOn_free (o := .discard .scope v) (f := id) fun _ h => absurd rfl h

theorem abortsOn_task : (Calls.task : FnOnce (Calls P R E C π) π Unit (Except E R)).call.AbortsOn
    CallEvent.Fatal :=
  abortsOn_free (o := .task) (f := id) fun _ => trivial

theorem abortsOn_ignoreToken : (LifecycleDclExecutor.ignoreToken Calls.task :
    FnOnce (Calls P R E C π) π P (Except E R)).call.AbortsOn CallEvent.Fatal :=
  abortsOn_free (o := .task) (f := id) fun _ => trivial

theorem abortsOn_taskWithToken : (Calls.taskWithToken :
    FnOnce (Calls P R E C π) π P (Except E R)).call.AbortsOn CallEvent.Fatal := by
  intro t r
  refine ⟨fun hf => absurd trivial hf, fun _ => ?_⟩
  obtain ⟨r, t'⟩ := r
  cases r <;> exact nofun

theorem failsOn_unwinding {o : Call P R E C π} {f : o.Answer → Reply π Unit}
    (ho : ∀ r, o.admits r ↔ (f r).panicked = false) :
    (lift (.call (S := Calls P R E C π) o fun r => .pure (f r).exit) :
      Routine (Calls P R E C π) π τ Unit).FailsOn CallEvent.Fatal :=
  failsOn_call fun r => by simp [CallEvent.Fatal, ho]

theorem failsOn_dropGuard : (lift (Calls.lock.dropGuard true) :
    Routine (Calls P R E C π) π τ Unit).FailsOn CallEvent.Fatal :=
  failsOn_unwinding (o := .dropGuard true) (f := id) fun _ => ⟨fun h => h rfl, fun h _ => h⟩

theorem failsOn_dropTask : (lift (Calls.task.drop true) :
    Routine (Calls P R E C π) π τ Unit).FailsOn CallEvent.Fatal :=
  failsOn_unwinding (o := .dropTask true) (f := id) fun _ => ⟨fun h => h rfl, fun h _ => h⟩

theorem failsOn_discard {v : Discarded R E C π} :
    (Calls.discard .unwinding v : Routine (Calls P R E C π) π τ Unit).FailsOn CallEvent.Fatal :=
  failsOn_unwinding (o := .discard .unwinding v) (f := id) fun _ =>
    ⟨fun h => h nofun, fun h _ => h⟩

end Calls

section Locked
variable {core : DclCore (Calls P R E C π) π} {task : FnOnce (Calls P R E C π) π τ (Except E R)}

theorem failsOn_drop_locked (x : LockedExecution R E) :
    (Drop.drop .unwinding x : Routine (Calls P R E C π) π τ Unit).FailsOn CallEvent.Fatal := by
  rcases x with _ | (error | value)
  · exact failsOn_pure
  · exact failsOn_discard
  · exact failsOn_discard

theorem abortsOn_dropUnstarted (hdrop : task.drop = (Calls.task (P := P) (C := C)).drop)
    {unstarted : Option (FnOnce (Calls P R E C π) π τ (Except E R))}
    (hu : unstarted = some task ∨ unstarted = none) :
    (dropUnstarted false unstarted : Routine (Calls P R E C π) π τ Unit).AbortsOn
      CallEvent.Fatal := by
  rcases hu with rfl | rfl
  · rw [dropUnstarted, hdrop]
    exact abortsOn_dropTask
  · exact abortsOn_pure ()

theorem failsOn_dropUnstarted (hdrop : task.drop = (Calls.task (P := P) (C := C)).drop)
    {unstarted : Option (FnOnce (Calls P R E C π) π τ (Except E R))}
    (hu : unstarted = some task ∨ unstarted = none) :
    (dropUnstarted true unstarted : Routine (Calls P R E C π) π τ Unit).FailsOn
      CallEvent.Fatal := by
  rcases hu with rfl | rfl
  · rw [dropUnstarted, hdrop]
    exact failsOn_dropTask
  · exact failsOn_pure

theorem abortsOn_executeLocked (hcore : core.predicate = Calls.predicate)
    (hdrop : task.drop = (Calls.task (P := P) (C := C)).drop)
    (hcall : task.call.AbortsOn CallEvent.Fatal) :
    (core.executeLocked Calls.lock task).AbortsOn CallEvent.Fatal := by
  unfold DclCore.executeLocked
  rw [hcore]
  refine .bind (.onUnwind abortsOn_lock (hdrop ▸ failsOn_dropTask)) fun _ => ?_
  refine .bind (.onUnwind abortsOn_predicate
    (.bind failsOn_dropGuard (hdrop ▸ failsOn_dropTask))) fun met => ?_
  have hrest (result : LockedExecution R E) {unstarted : Option (FnOnce (Calls P R E C π) π τ _)}
      (hu : unstarted = some task ∨ unstarted = none) :
      (do
        (lift (Calls.lock.dropGuard false)).onUnwind (dropUnstarted true unstarted)
        dropUnstarted false unstarted
        pure result : Routine (Calls P R E C π) π τ (LockedExecution R E)).AbortsOn
          CallEvent.Fatal :=
    .bind (.onUnwind abortsOn_dropGuard (failsOn_dropUnstarted hdrop hu)) fun _ =>
      .bind (abortsOn_dropUnstarted hdrop hu) fun _ => abortsOn_pure result
  cases met with
  | false => exact hrest .conditionNotMet (.inl rfl)
  | true =>
    exact .bind (.onUnwind hcall failsOn_dropGuard) fun result =>
      hrest (.task result) (.inr rfl)

theorem abortsOn_executeLockedCatching [PanicPayload π] (hcore : core.predicate = Calls.predicate)
    (hdrop : task.drop = (Calls.task (P := P) (C := C)).drop)
    (hcall : task.call.AbortsOn CallEvent.Fatal) :
    (core.executeLockedCatching Calls.lock task).AbortsOn CallEvent.Fatal := by
  unfold DclCore.executeLockedCatching
  rw [hcore]
  have hrest (outcome : LockedExecution R E)
      {unstarted : Option (FnOnce (Calls P R E C π) π τ _)}
      (hu : unstarted = some task ∨ unstarted = none) :
      (do
        set .lockRelease
        (lift (Calls.lock.dropGuard false)).onUnwind (do
          Drop.drop .unwinding outcome
          outer (dropUnstarted true unstarted))
        set .taskCleanup
        outer (dropUnstarted false unstarted)
        pure outcome : Routine (Calls P R E C π) π (τ × PanicPhase) (LockedExecution R E)).AbortsOn
          CallEvent.Fatal :=
    .bind (abortsOn_set _) fun _ =>
      .bind (.onUnwind abortsOn_dropGuard (.bind (failsOn_drop_locked outcome)
        (.outer (failsOn_dropUnstarted hdrop hu)))) fun _ =>
      .bind (abortsOn_set _) fun _ =>
      .bind (.outer (abortsOn_dropUnstarted hdrop hu)) fun _ => abortsOn_pure outcome
  refine .withCell (.bind (.catchUnwind ?_) fun caught => ?_)
  · refine .bind (.onUnwind abortsOn_lock (hdrop ▸ failsOn_dropTask)) fun _ => ?_
    refine .bind (abortsOn_set _) fun _ => ?_
    refine .bind (.onUnwind abortsOn_predicate
      (.bind failsOn_dropGuard (hdrop ▸ failsOn_dropTask))) fun met => ?_
    cases met with
    | false => exact hrest .conditionNotMet (.inl rfl)
    | true =>
        exact .bind (abortsOn_set _) fun _ =>
        .bind (.onUnwind (.outer hcall) failsOn_dropGuard) fun result =>
        hrest (.task result) (.inr rfl)
  · cases caught with
    | ok outcome => exact abortsOn_pure _
    | error payload => exact .bind abortsOn_get fun _ => abortsOn_pure _

end Locked

section Capture
variable [PanicPayload π]

omit [PanicPayload π] in
theorem abortsOn_drop_panicInfo (info : PanicInfo π) : (Drop.drop .scope info :
    Routine (Calls P R E C π) π τ Unit).AbortsOn CallEvent.Fatal := by
  obtain ⟨phase, message, _ | payload⟩ := info
  · exact abortsOn_pure ()
  · refine .bind (.catchUnwind abortsOn_discard) fun caught => ?_
    cases caught with
    | ok u => exact abortsOn_pure ()
    | error p => exact abortsOn_pure ()

theorem abortsOn_catchPhase {α : Type} {operation : Routine (Calls P R E C π) π τ α}
    (ho : operation.AbortsOn CallEvent.Fatal) (phase : PanicPhase) :
    (catchPhase phase operation).AbortsOn CallEvent.Fatal := by
  refine .bind ho.catchUnwind fun caught => ?_
  cases caught with
  | ok a => exact abortsOn_pure _
  | error p => exact abortsOn_pure _

theorem abortsOn_dropTaskCatching {κ : Type} {task : FnOnce (Calls P R E C π) π κ (Except E R)}
    (hdrop : task.drop = (Calls.task (P := P) (C := C)).drop) :
    (dropTaskCatching task : Routine (Calls P R E C π) π τ _).AbortsOn CallEvent.Fatal := by
  refine abortsOn_catchPhase ?_ _
  rw [hdrop]
  exact abortsOn_dropTask

omit [PanicPayload π] in
theorem abortsOn_drop_cleanup (cleanup : Except (PanicInfo π) Unit) : (Drop.drop .scope cleanup :
    Routine (Calls P R E C π) π τ Unit).AbortsOn CallEvent.Fatal := by
  cases cleanup with
  | ok u => exact abortsOn_pure ()
  | error info => exact abortsOn_drop_panicInfo info

end Capture

section Entry
variable [PanicPayload π] {core : DclCore (Calls P R E C π) π}

omit [PanicPayload π] in
theorem abortsOn_run (hcore : core.predicate = Calls.predicate) :
    ((DclExecutor.mk core).run Calls.lock Calls.task).AbortsOn CallEvent.Fatal := by
  unfold DclExecutor.run DclCore.checkInitial
  rw [hcore]
  refine .bind (.onUnwind abortsOn_predicate failsOn_dropTask) fun met => ?_
  cases met with
  | false => exact .bind abortsOn_dropTask fun _ => abortsOn_pure _
  | true =>
    exact .bind (abortsOn_executeLocked hcore rfl (abortsOn_task)) fun _ => abortsOn_pure _

theorem abortsOn_runCatching (hcore : core.predicate = Calls.predicate) :
    ((DclExecutor.mk core).runCatching Calls.lock Calls.task).AbortsOn CallEvent.Fatal := by
  unfold DclExecutor.runCatching DclCore.checkInitialCatching DclCore.checkInitial
  rw [hcore]
  refine .bind (abortsOn_catchPhase abortsOn_predicate _) fun checked => ?_
  rcases checked with panic | (_ | _)
  · exact .bind (abortsOn_dropTaskCatching rfl) fun cleanup =>
      .bind (abortsOn_drop_cleanup cleanup) fun _ => abortsOn_pure _
  · refine .bind (abortsOn_dropTaskCatching rfl) fun cleanup => ?_
    cases cleanup with
    | ok u => exact abortsOn_pure _
    | error panic => exact abortsOn_pure _
  · refine .bind (abortsOn_executeLockedCatching hcore rfl abortsOn_task) fun locked => ?_
    cases locked with
    | ok locked => exact abortsOn_pure _
    | error panic => exact abortsOn_pure _

section Lifecycle
variable {i : Invocation} {executor : LifecycleDclExecutor (Calls P R E C π) π P E C} {token : P}

omit [PanicPayload π] in
theorem abortsOn_finalizeCommit (hex : Observes i executor) :
    (finalizeCommit executor.commit token :
      Routine (Calls P R E C π) π τ _).AbortsOn CallEvent.Fatal := by
  rw [hex.commit]
  cases i.hasCommit with
  | true =>
    refine .bind abortsOn_commit fun result => ?_
    cases result with
    | error c => exact abortsOn_pure _
    | ok u => exact abortsOn_pure _
  | false => exact .bind abortsOn_dropToken fun _ => abortsOn_pure _

omit [PanicPayload π] in
theorem abortsOn_finalizeRollback (hex : Observes i executor) {cause : RollbackCause E π} :
    (finalizeRollback executor.rollback token cause :
      Routine (Calls P R E C π) π τ _).AbortsOn CallEvent.Fatal := by
  rw [hex.rollback]
  cases i.hasRollback with
  | true =>
    refine .bind abortsOn_rollback fun result => ?_
    cases result with
    | error c => exact abortsOn_pure _
    | ok u => exact abortsOn_pure _
  | false => exact .bind abortsOn_dropToken fun _ => abortsOn_pure _

theorem abortsOn_finalizeCommitCatching (hex : Observes i executor) :
    (finalizeCommitCatching executor.commit token :
      Routine (Calls P R E C π) π τ _).AbortsOn CallEvent.Fatal := by
  rw [hex.commit]
  cases i.hasCommit with
  | true =>
    refine .bind (abortsOn_catchPhase abortsOn_commit _) fun result => ?_
    rcases result with panic | (c | u) <;> exact abortsOn_pure _
  | false =>
    refine .bind (abortsOn_catchPhase abortsOn_dropToken _) fun result => ?_
    cases result <;> exact abortsOn_pure _

theorem abortsOn_finalizeRollbackCatching (hex : Observes i executor)
    {cause : RollbackCause E π} : (finalizeRollbackCatching executor.rollback token cause :
      Routine (Calls P R E C π) π τ _).AbortsOn CallEvent.Fatal := by
  rw [hex.rollback]
  cases i.hasRollback with
  | true =>
    refine .bind (abortsOn_catchPhase abortsOn_rollback _) fun result => ?_
    rcases result with panic | (c | u) <;> exact abortsOn_pure _
  | false =>
    refine .bind (abortsOn_catchPhase abortsOn_dropToken _) fun result => ?_
    cases result <;> exact abortsOn_pure _

omit [PanicPayload π] in
theorem abortsOn_discardSecondary {operation : Routine (Calls P R E C π) π τ Unit}
    (ho : operation.AbortsOn CallEvent.Fatal) :
    (LifecycleDclExecutor.discardSecondary operation).AbortsOn CallEvent.Fatal := by
  refine .bind (.catchUnwind (.bind ho.catchUnwind fun caught => ?_)) fun secondary => ?_
  · cases caught with
    | ok u => exact abortsOn_pure ()
    | error payload => exact abortsOn_discard
  · cases secondary with
    | ok u => exact abortsOn_pure ()
    | error payload => exact abortsOn_pure ()

theorem abortsOn_resumeUnwind {α : Type} (info : PanicInfo π) :
    (info.resumeUnwind : Routine (Calls P R E C π) π τ α).AbortsOn CallEvent.Fatal := by
  obtain ⟨phase, message, _ | payload⟩ := info
  · exact .bind (abortsOn_raise _) fun _ => abortsOn_raise _
  · exact .bind (abortsOn_pure _) fun _ => abortsOn_raise _

theorem abortsOn_rollbackThenResume {α : Type} (hex : Observes i executor) (info : PanicInfo π) :
    (executor.rollbackThenResume token info :
      Routine (Calls P R E C π) π τ α).AbortsOn CallEvent.Fatal := by
  rw [LifecycleDclExecutor.rollbackThenResume, hex.rollback]
  cases i.hasRollback with
  | true =>
    refine .bind (abortsOn_discardSecondary (.bind abortsOn_rollback fun result => ?_))
      fun _ => abortsOn_resumeUnwind info
    cases result with
    | error c => exact abortsOn_discard
    | ok u => exact abortsOn_pure ()
  | false =>
    exact .bind (abortsOn_discardSecondary abortsOn_dropToken) fun _ => abortsOn_resumeUnwind info

variable {task : FnOnce (Calls P R E C π) π P (Except E R)}

theorem abortsOn_runWithToken (hex : Observes i executor)
    (hdrop : task.drop = (Calls.task (P := P) (C := C)).drop)
    (hcall : task.call.AbortsOn CallEvent.Fatal) :
    (executor.runWithToken Calls.lock task :
      Routine (Calls P R E C π) π τ _).AbortsOn CallEvent.Fatal := by
  unfold LifecycleDclExecutor.runWithToken DclCore.checkInitial
  rw [hex.predicate, hex.prepare, hdrop]
  refine .bind (.onUnwind abortsOn_predicate failsOn_dropTask) fun met => ?_
  cases met with
  | false => exact .bind abortsOn_dropTask fun _ => abortsOn_pure _
  | true =>
  refine .bind (.onUnwind abortsOn_prepare failsOn_dropTask) fun prepared => ?_
  cases prepared with
  | error c =>
    exact .bind abortsOn_dropTask fun _ => abortsOn_pure _
  | ok token =>
  refine .withCell (.bind (abortsOn_executeLockedCatching hex.predicate hdrop (.inner hcall))
    fun locked => .bind abortsOn_get fun token => ?_)
  rcases locked with panic | (_ | (error | value))
  · exact abortsOn_rollbackThenResume hex panic
  · exact .bind (.onUnwind (abortsOn_finalizeRollback hex) failsOn_pure) fun _ => abortsOn_pure _
  · exact .bind (.onUnwind (abortsOn_finalizeRollback hex) failsOn_discard) fun _ =>
      abortsOn_pure _
  · exact .bind (.onUnwind (abortsOn_finalizeCommit hex) failsOn_discard) fun _ =>
      abortsOn_pure _

theorem abortsOn_runWithTokenCatching (hex : Observes i executor)
    (hdrop : task.drop = (Calls.task (P := P) (C := C)).drop)
    (hcall : task.call.AbortsOn CallEvent.Fatal) :
    (executor.runWithTokenCatching Calls.lock task :
      Routine (Calls P R E C π) π τ _).AbortsOn CallEvent.Fatal := by
  unfold LifecycleDclExecutor.runWithTokenCatching DclCore.checkInitialCatching
    DclCore.checkInitial
  rw [hex.predicate, hex.prepare]
  have hfail (x : CapturedLifecycleOutcome R E C π) : (do
      let cleanup ← dropTaskCatching task
      Drop.drop .scope cleanup
      pure x : Routine (Calls P R E C π) π τ _).AbortsOn CallEvent.Fatal :=
    .bind (abortsOn_dropTaskCatching hdrop) fun cleanup =>
      .bind (abortsOn_drop_cleanup cleanup) fun _ => abortsOn_pure x
  refine .bind (abortsOn_catchPhase abortsOn_predicate _) fun checked => ?_
  rcases checked with panic | (_ | _)
  · exact hfail _
  · refine .bind (abortsOn_dropTaskCatching hdrop) fun cleanup => ?_
    cases cleanup <;> exact abortsOn_pure _
  refine .bind (abortsOn_catchPhase abortsOn_prepare _) fun prepared => ?_
  rcases prepared with panic | (c | token)
  · exact hfail _
  · exact hfail _
  refine .withCell (.bind (abortsOn_executeLockedCatching hex.predicate hdrop (.inner hcall))
    fun locked => .bind abortsOn_get fun token => ?_)
  rcases locked with panic | (_ | (error | value))
  · exact .bind (abortsOn_finalizeRollbackCatching hex) fun _ => abortsOn_pure _
  · exact .bind (abortsOn_finalizeRollbackCatching hex) fun _ => abortsOn_pure _
  · exact .bind (abortsOn_finalizeRollbackCatching hex) fun _ => abortsOn_pure _
  · exact .bind (abortsOn_finalizeCommitCatching hex) fun _ => abortsOn_pure _

end Lifecycle

theorem program_dies (i : Invocation) :
    (i.program (P := P) (R := R) (E := E) (C := C) (π := π)).Dies CallEvent.Fatal
      fun a => a.exit = .abort := by
  cases i with
  | basic catching clones =>
    cases catching with
    | false =>
      simp only [Invocation.program, DclExecutor.clones_eq, Bool.false_eq_true, if_false]
      exact (abortsOn_run rfl).start.map fun x => x.map_eq_abort
    | true =>
      simp only [Invocation.program, DclExecutor.clones_eq, if_true]
      exact (abortsOn_runCatching rfl).start.map fun x => x.map_eq_abort
  | lifecycle finalizers withToken catching clones =>
    have hex := observes_executor (P := P) (R := R) (E := E) (C := C) (π := π) finalizers
      withToken catching clones
    cases catching with
    | false =>
      cases withToken with
      | false =>
        exact (abortsOn_runWithToken hex rfl abortsOn_ignoreToken).start.map
          fun x => x.map_eq_abort
      | true =>
        exact (abortsOn_runWithToken hex rfl abortsOn_taskWithToken).start.map
          fun x => x.map_eq_abort
    | true =>
      cases withToken with
      | false =>
        exact (abortsOn_runWithTokenCatching hex rfl abortsOn_ignoreToken).start.map
          fun x => x.map_eq_abort
      | true =>
        exact (abortsOn_runWithTokenCatching hex rfl abortsOn_taskWithToken).start.map
          fun x => x.map_eq_abort

theorem admitted_iff_exit {i : Invocation} {h : (o : Call P R E C π) → σ → o.Answer × σ} {s : σ} :
    Admitted (run h i.program s).events ↔ (run h i.program s).result.exit ≠ .abort := by
  rw [admitted_iff, ← (program_dies i).run h s]

end Entry

section Contained
variable {S : Signature} [PanicPayload π] {token : P}

theorem contained_catchPhase {α : Type} (phase : PanicPhase) (operation : Routine S π τ α) :
    (catchPhase phase operation).Contained :=
  .bind (contained_catchUnwind operation) fun caught => by
    cases caught with
    | ok a => exact contained_pure _
    | error payload => exact contained_pure _

omit [PanicPayload π] in
theorem contained_drop_panicInfo [Drop S π π] (mode : DropMode) (info : PanicInfo π) :
    (Drop.drop mode info : Routine S π τ Unit).Contained := by
  obtain ⟨phase, message, _ | payload⟩ := info
  · exact contained_pure ()
  · refine .bind (contained_catchUnwind _) fun caught => ?_
    cases caught with
    | ok u => exact contained_pure ()
    | error q => exact contained_pure ()

theorem contained_discardCleanup [Drop S π π] {κ α : Type} (task : FnOnce S π κ (Except E R))
    (x : α) :
    (do
      let cleanup ← dropTaskCatching task
      Drop.drop .scope cleanup
      pure x : Routine S π τ α).Contained := by
  refine .bind (contained_catchPhase _ _) fun cleanup => .bind ?_ fun _ => contained_pure x
  cases cleanup with
  | ok u => exact contained_pure ()
  | error info => exact contained_drop_panicInfo _ info

theorem contained_executeLockedCatching [Drop S π R] [Drop S π E] (core : DclCore S π)
    (lock : Lock S π) (task : FnOnce S π τ (Except E R)) :
    (core.executeLockedCatching lock task).Contained :=
  .withCell (.bind (contained_catchUnwind _) fun caught => by
    cases caught with
    | ok outcome => exact contained_pure _
    | error payload => exact .bind contained_get fun _ => contained_pure _)

theorem contained_runCatching [Drop S π R] [Drop S π E] [Drop S π π]
    (executor : DclExecutor S π) (lock : Lock S π) (task : FnOnce S π τ (Except E R)) :
    (executor.runCatching lock task).Contained := by
  refine .bind (contained_catchPhase _ _) fun checked => ?_
  rcases checked with panic | (_ | _)
  · exact contained_discardCleanup task _
  · refine .bind (contained_catchPhase _ _) fun cleanup => ?_
    cases cleanup <;> exact contained_pure _
  · refine .bind (contained_executeLockedCatching _ lock _) fun locked => ?_
    cases locked <;> exact contained_pure _

theorem contained_finalizeCommitCatching [Drop S π P] (commit : Option (CommitCallback S π P C)) :
    (finalizeCommitCatching commit token : Routine S π τ _).Contained := by
  cases commit with
  | none => exact .bind (contained_catchPhase _ _) fun x => by cases x <;> exact contained_pure _
  | some commit =>
    refine .bind (contained_catchPhase _ _) fun x => ?_
    rcases x with panic | (c | u) <;> exact contained_pure _

theorem contained_finalizeRollbackCatching [Drop S π P]
    (rollback : Option (RollbackCallback S π P E C)) {cause : RollbackCause E π} :
    (finalizeRollbackCatching rollback token cause : Routine S π τ _).Contained := by
  cases rollback with
  | none => exact .bind (contained_catchPhase _ _) fun x => by cases x <;> exact contained_pure _
  | some rollback =>
    refine .bind (contained_catchPhase _ _) fun x => ?_
    rcases x with panic | (c | u) <;> exact contained_pure _

theorem contained_runWithTokenCatching [Drop S π P] [Drop S π R] [Drop S π E] [Drop S π π]
    (executor : LifecycleDclExecutor S π P E C) (lock : Lock S π)
    (task : FnOnce S π P (Except E R)) :
    (executor.runWithTokenCatching lock task : Routine S π τ _).Contained := by
  refine .bind (contained_catchPhase _ _) fun checked => ?_
  rcases checked with panic | (_ | _)
  · exact contained_discardCleanup task _
  · refine .bind (contained_catchPhase _ _) fun cleanup => ?_
    cases cleanup <;> exact contained_pure _
  refine .bind (contained_catchPhase _ _) fun prepared => ?_
  rcases prepared with panic | (c | token)
  · exact contained_discardCleanup task _
  · exact contained_discardCleanup task _
  refine .withCell (.bind (contained_executeLockedCatching _ lock _) fun locked =>
    .bind contained_get fun token => ?_)
  rcases locked with panic | (_ | (error | value))
  · exact .bind (contained_finalizeRollbackCatching _) fun _ => contained_pure _
  · exact .bind (contained_finalizeRollbackCatching _) fun _ => contained_pure _
  · exact .bind (contained_finalizeRollbackCatching _) fun _ => contained_pure _
  · exact .bind (contained_finalizeCommitCatching _) fun _ => contained_pure _

end Contained

section Returns
variable [PanicPayload π] {h : (o : Call P R E C π) → σ → o.Answer × σ} {s : σ}

omit [PanicPayload π] in
theorem result_call {α : Type} {o : Call P R E C π} {k : o.Answer → Program (Calls P R E C π) α}
    {r : o.Answer} {t : σ} (ho : h o s = (r, t)) :
    (run h (.call (S := Calls P R E C π) o k) s).result = (run h (k r) t).result := by
  rw [Program.run_call, ho]

theorem result_discardCleanup {κ α : Type} {task : FnOnce (Calls P R E C π) π κ (Except E R)}
    (hdrop : task.drop = (Calls.task (P := P) (C := C)).drop) (x : α) (t : τ) :
    (run h ((do
      let cleanup ← dropTaskCatching task
      Drop.drop .scope cleanup
      pure x : Routine (Calls P R E C π) π τ α) t) s).result = (.ret x, t) := by
  unfold dropTaskCatching
  rw [hdrop]
  rcases hd : h (.dropTask false) s with ⟨_ | q, s'⟩
  · exact result_call hd
  · apply (result_call hd).trans
    rcases hq : h (.discard .scope (.payload q)) s' with ⟨_ | _, s''⟩
    · exact result_call hq
    · exact result_call hq

/-- How a capturing entry point reports a failure before the locked phase. -/
def Invocation.earlyFailure (i : Invocation) (h : (o : Call P R E C π) → σ → o.Answer × σ)
    (s : σ) : Option (Answer R E C π) :=
  let checked := h .predicate s
  match i, checked.1 with
  | .basic _ _, .panic p => some (.captured (.ret (.error (.fromPayload .initialConditionCheck p))))
  | .lifecycle _ _ _ _, .panic p => some (.lifecycleCaptured (.ret
      (.initialConditionCheckPanicked (.fromPayload .initialConditionCheck p))))
  | .lifecycle _ _ _ _, .ret true => match (h .prepare checked.2).1 with
    | .ret (.error c) => some (.lifecycleCaptured (.ret (.prepareFailed c)))
    | .panic p => some (.lifecycleCaptured (.ret (.preparePanicked (.fromPayload .prepare p))))
    | .ret (.ok _) => none
  | _, _ => none

theorem result_runCatching {executor : DclExecutor (Calls P R E C π) π}
    (hcore : executor.core.predicate = Calls.predicate) {p : π} {s' : σ}
    (hp : h .predicate s = (.panic p, s')) :
    (run h (executor.runCatching Calls.lock Calls.task ()) s).result =
      (.ret (.error (.fromPayload .initialConditionCheck p)), ()) := by
  unfold DclExecutor.runCatching DclCore.checkInitialCatching DclCore.checkInitial
  rw [hcore]
  exact (result_call hp).trans (result_discardCleanup rfl _ ())

theorem result_runWithTokenCatching {i : Invocation}
    {executor : LifecycleDclExecutor (Calls P R E C π) π P E C} (hex : Observes i executor)
    (task : FnOnce (Calls P R E C π) π P (Except E R))
    (hdrop : task.drop = (Calls.task (P := P) (C := C)).drop) {finalizers : Finalizers}
    {withToken catching : Bool} {clones : ℕ} {a : Answer R E C π}
    (ha : (Invocation.lifecycle finalizers withToken catching clones).earlyFailure h s = some a) :
    ∃ o, a = .lifecycleCaptured (.ret o) ∧
      (run h (executor.runWithTokenCatching Calls.lock task ()) s).result = (.ret o, ()) := by
  unfold LifecycleDclExecutor.runWithTokenCatching DclCore.checkInitialCatching
    DclCore.checkInitial
  rw [hex.predicate, hex.prepare]
  unfold Invocation.earlyFailure at ha
  rcases hc : h .predicate s with ⟨(_ | _) | p, s₁⟩
  · simp [hc] at ha
  · simp only [hc] at ha
    rcases hp : h .prepare s₁ with ⟨(c | token) | p, s₂⟩
    · simp only [hp] at ha
      cases ha
      exact ⟨_, rfl, (result_call hc).trans
        ((result_call hp).trans (result_discardCleanup hdrop _ ()))⟩
    · simp [hp] at ha
    · simp only [hp] at ha
      cases ha
      exact ⟨_, rfl, (result_call hc).trans
        ((result_call hp).trans (result_discardCleanup hdrop _ ()))⟩
  · simp only [hc] at ha
    cases ha
    exact ⟨_, rfl, (result_call hc).trans (result_discardCleanup hdrop _ ())⟩

omit [PanicPayload π] in
theorem result_start {α β : Type} {m : Routine (Calls P R E C π) π Unit α} {f : Exit π α → β}
    {x : Exit π α} (hm : (run h (m ()) s).result = (x, ())) :
    (run h (m.start.bind fun x => .pure (f x)) s).result = f x := by
  simp [Routine.start, Program.run_bind, hm]

theorem result_earlyFailure {i : Invocation} (hi : i.catching = true) {a : Answer R E C π}
    (ha : i.earlyFailure h s = some a) : (run h i.program s).result = a := by
  cases i with
  | basic catching clones =>
    obtain rfl : catching = true := hi
    simp only [Invocation.program, DclExecutor.clones_eq, if_true]
    unfold Invocation.earlyFailure at ha
    rcases hc : h .predicate s with ⟨_ | p, s₁⟩
    · simp [hc] at ha
    · simp only [hc] at ha
      cases ha
      exact result_start (result_runCatching rfl hc)
  | lifecycle finalizers withToken catching clones =>
    obtain rfl : catching = true := hi
    have hex := observes_executor (P := P) (R := R) (E := E) (C := C) (π := π) finalizers
      withToken true clones
    cases withToken with
    | false =>
      obtain ⟨o, rfl, ho⟩ := result_runWithTokenCatching hex
        (LifecycleDclExecutor.ignoreToken Calls.task) rfl ha
      exact result_start ho
    | true =>
      obtain ⟨o, rfl, ho⟩ := result_runWithTokenCatching hex Calls.taskWithToken rfl ha
      exact result_start ho

omit [PanicPayload π] in
theorem exit_start {α : Type} {m : Routine (Calls P R E C π) π Unit α} (hm : m.Contained)
    {f : Exit π α → Answer R E C π} (hf : ∀ x, (f x).exit = x.map fun _ => ()) (p : π) :
    (run h (m.start.bind fun x => .pure (f x)) s).result.exit ≠ .unwind p := by
  intro hp
  simp only [Routine.start, Program.run_bind, Program.run_pure, hf, Exit.map_eq_unwind] at hp
  exact hm σ h () s p hp

theorem exit_program {i : Invocation} (hi : i.catching = true) (p : π) :
    (run h i.program s).result.exit ≠ .unwind p := by
  cases i with
  | basic catching clones =>
    obtain rfl : catching = true := hi
    exact exit_start (contained_runCatching _ Calls.lock Calls.task) (fun _ => rfl) p
  | lifecycle finalizers withToken catching clones =>
    obtain rfl : catching = true := hi
    cases withToken with
    | false => exact exit_start (contained_runWithTokenCatching _ Calls.lock _) (fun _ => rfl) p
    | true => exact exit_start (contained_runWithTokenCatching _ Calls.lock _) (fun _ => rfl) p

theorem catching_returns (i : Invocation) (hi : i.catching = true)
    (h : (o : Call P R E C π) → σ → o.Answer × σ) (s : σ) :
    ((run h i.program s).result.exit = .ret () ∨ (run h i.program s).result.exit = .abort ∧
      ∃ e ∈ (run h i.program s).events, CallEvent.Fatal e) ∧
    (∀ a, i.earlyFailure h s = some a → (run h i.program s).result = a) ∧
    ∀ (info : PanicInfo π) (mode : DropMode),
      (Drop.drop mode info : Routine (Calls P R E C π) π Unit Unit).Contained := by
  refine ⟨?_, fun a => result_earlyFailure hi, fun info mode => contained_drop_panicInfo mode info⟩
  have hdies := (program_dies i).run h s
  have hcontained := exit_program (h := h) (s := s) hi
  cases hx : (run h i.program s).result.exit with
  | ret u => exact .inl rfl
  | unwind p => exact absurd hx (hcontained p)
  | abort => exact .inr ⟨rfl, hdies.mp hx⟩

end Returns

def Call.quiet : (o : Call ℕ ℕ ℕ ℕ String) → o.Answer
  | .predicate => .ret true
  | .prepare => .ret (.ok 0)
  | .lock => .ret ()
  | .dropGuard _ => .ret ()
  | .task => .ret (.ok 1)
  | .taskWithToken token => (.ret (.ok 1), token + 1)
  | .dropTask _ => .ret ()
  | .commit _ => .ret (.ok ())
  | .rollback _ _ => .ret (.ok ())
  | .dropToken _ _ => .ret ()
  | .discard _ _ => .ret ()

def destructorsPanic : (o : Call ℕ ℕ ℕ ℕ String) → ℕ → o.Answer × ℕ
  | .prepare, n => (.ret (.error 2), n + 1)
  | .dropTask _, n => (.panic "task", n + 1)
  | .discard _ _, n => (.panic "payload", n + 1)
  | o, n => (o.quiet, n + 1)

theorem catching_returns_destructorsPanic :
    (run destructorsPanic (Invocation.lifecycle .commitOnly true true 0).program 0).result =
      .lifecycleCaptured (.ret (.prepareFailed 2)) :=
  (catching_returns _ rfl destructorsPanic 0).2.1 _ rfl

end DoubleChecked
