import DoubleChecked.Protocol

/-!
# Every entry point follows the protocol

One rule for each call, one specification for each function of the executors. A
function's specification says from which station it may be entered and at which
station it leaves, by return or by unwind, so its callers never look inside.
-/

namespace DoubleChecked
open Effect Effect.Routine

variable {P R E C π τ : Type} [PanicPayload π] {i : Invocation} {t : τ} {q : Station P R E C π}
  {unwind : π → τ → Station P R E C π → Prop}

namespace Calls
attribute [local simp] Call.admits

section Unit
variable {ret : Unit → τ → Station P R E C π → Prop}

theorem wp_lock :
    (lift Calls.lock.lock : Routine (Calls P R E C π) π τ Unit).wp i.monitor t q ret unwind ↔
      i.allows q .lock ∧ (∀ u, ret u t (i.next q .lock (.ret u))) ∧
        ∀ p, unwind p t (i.next q .lock (.panic p)) := by
  refine (wp_reply (S := Calls P R E C π) .lock id id (fun _ => rfl) (fun _ => rfl)).trans ?_
  simp [Invocation.monitor, Call.admits]

theorem wp_dropGuard {w : Bool} :
    (lift (Calls.lock.dropGuard w) : Routine (Calls P R E C π) π τ Unit).wp i.monitor t q ret
      unwind ↔ i.allows q (.dropGuard w) ∧ (∀ u, ret u t (i.next q (.dropGuard w) (.ret u))) ∧
        (w = false → ∀ p, unwind p t (i.next q (.dropGuard w) (.panic p))) := by
  refine (wp_reply (S := Calls P R E C π) (.dropGuard w) id id (fun _ => rfl)
    (fun _ => rfl)).trans ?_
  cases w <;> simp [Invocation.monitor, Call.admits, Reply.panicked]

theorem wp_dropTask {w : Bool} :
    (lift (Calls.task.drop w) : Routine (Calls P R E C π) π τ Unit).wp i.monitor t q ret
      unwind ↔ i.allows q (.dropTask w) ∧ (∀ u, ret u t (i.next q (.dropTask w) (.ret u))) ∧
        (w = false → ∀ p, unwind p t (i.next q (.dropTask w) (.panic p))) := by
  refine (wp_reply (S := Calls P R E C π) (.dropTask w) id id (fun _ => rfl)
    (fun _ => rfl)).trans ?_
  cases w <;> simp [Invocation.monitor, Call.admits, Reply.panicked]

theorem wp_dropToken {token : P} :
    (Drop.drop .scope token : Routine (Calls P R E C π) π τ Unit).wp i.monitor t q ret
      unwind ↔ i.allows q (.dropToken .scope token) ∧
        (∀ u, ret u t (i.next q (.dropToken .scope token) (.ret u))) ∧
        ∀ p, unwind p t (i.next q (.dropToken .scope token) (.panic p)) := by
  refine (wp_reply (S := Calls P R E C π) (.dropToken .scope token) id id (fun _ => rfl)
    (fun _ => rfl)).trans ?_
  simp [Invocation.monitor, Call.admits]

theorem wp_discard {mode : DropMode} {v : Discarded R E C π} :
    (Calls.discard mode v : Routine (Calls P R E C π) π τ Unit).wp i.monitor t q ret unwind ↔
      i.allows q (.discard mode v) ∧ (∀ u, ret u t (i.next q (.discard mode v) (.ret u))) ∧
        (mode = .scope → ∀ p, unwind p t (i.next q (.discard mode v) (.panic p))) := by
  refine (wp_reply (S := Calls P R E C π) (.discard mode v) id id (fun _ => rfl)
    (fun _ => rfl)).trans ?_
  cases mode <;> simp [Invocation.monitor, Call.admits, Reply.panicked]

theorem wp_discard_unwinding {v : Discarded R E C π} :
    (Calls.discard .unwinding v : Routine (Calls P R E C π) π τ Unit).wp i.monitor t q ret
      unwind ↔ i.allows q (.discard .unwinding v) ∧
        ∀ u, ret u t (i.next q (.discard .unwinding v) (.ret u)) := by
  rw [wp_discard]
  simp

end Unit

theorem wp_predicate {ret : Bool → τ → Station P R E C π → Prop} :
    (lift Calls.predicate : Routine (Calls P R E C π) π τ Bool).wp i.monitor t q ret unwind ↔
      i.allows q .predicate ∧ (∀ b, ret b t (i.next q .predicate (.ret b))) ∧
        ∀ p, unwind p t (i.next q .predicate (.panic p)) := by
  refine (wp_reply (S := Calls P R E C π) .predicate id id (fun _ => rfl) (fun _ => rfl)).trans ?_
  simp [Invocation.monitor, Call.admits]

theorem wp_prepare {ret : Except C P → τ → Station P R E C π → Prop} :
    (lift Calls.prepare : Routine (Calls P R E C π) π τ (Except C P)).wp i.monitor t q ret
      unwind ↔ i.allows q .prepare ∧ (∀ x, ret x t (i.next q .prepare (.ret x))) ∧
        ∀ p, unwind p t (i.next q .prepare (.panic p)) := by
  refine (wp_reply (S := Calls P R E C π) .prepare id id (fun _ => rfl) (fun _ => rfl)).trans ?_
  simp [Invocation.monitor, Call.admits]

section Finalizers
variable {ret : Except C Unit → τ → Station P R E C π → Prop} {token : P}

theorem wp_commit :
    (lift (Calls.commit token) : Routine (Calls P R E C π) π τ (Except C Unit)).wp i.monitor t q
      ret unwind ↔ i.allows q (.commit token) ∧
        (∀ x, ret x t (i.next q (.commit token) (.ret x))) ∧
        ∀ p, unwind p t (i.next q (.commit token) (.panic p)) := by
  refine (wp_reply (S := Calls P R E C π) (.commit token) id id (fun _ => rfl)
    (fun _ => rfl)).trans ?_
  simp [Invocation.monitor, Call.admits]

theorem wp_rollback {cause : RollbackCause E π} :
    (lift (Calls.rollback token cause) : Routine (Calls P R E C π) π τ (Except C Unit)).wp
      i.monitor t q ret unwind ↔ i.allows q (.rollback token cause) ∧
        (∀ x, ret x t (i.next q (.rollback token cause) (.ret x))) ∧
        ∀ p, unwind p t (i.next q (.rollback token cause) (.panic p)) := by
  refine (wp_reply (S := Calls P R E C π) (.rollback token cause) id id (fun _ => rfl)
    (fun _ => rfl)).trans ?_
  simp [Invocation.monitor, Call.admits]

end Finalizers
end Calls

inductive Verdict.Locked : Verdict R E C π → Prop
  | conditionNotMet : Locked .conditionNotMet
  | returned (result : Except E R) : Locked (.returned result)
  | panicked (phase : PanicPhase) (p : π) : Locked (.panicked phase p)

def Verdict.locked : Verdict R E C π → Except (PanicInfo π) (LockedExecution R E)
  | .returned result => .ok (.task result)
  | .panicked phase p => .error (.fromPayload phase p)
  | _ => .ok .conditionNotMet

/-- A task that makes one task call, reading and leaving the token that `slot` finds
in its frame, and that is dropped by one call. -/
structure RunsTask (i : Invocation) (slot : τ → Option P)
    (task : FnOnce (Calls P R E C π) π τ (Except E R)) : Prop where
  dropped : task.drop = (Calls.task (P := P) (R := R) (E := E) (C := C) (π := π)).drop
  called : ∀ t ret unwind,
    (∀ result t', ret result t' (.releasing (slot t') (.returned result))) →
    (∀ p t', unwind p t' (.releasing (slot t') (.panicked .task p))) →
    task.call.wp i.monitor t (.cleared (slot t)) ret unwind

theorem wp_drop_locked {token : Option P} {v : Verdict R E C π} (x : LockedExecution R E)
    {ret : Unit → τ → Station P R E C π → Prop} (hret : ret () t (.settle token v)) :
    (Drop.drop .unwinding x : Routine (Calls P R E C π) π τ Unit).wp i.monitor t (.settle token v)
      ret unwind := by
  have hd (w : Discarded R E C π) : (Calls.discard .unwinding w).wp i.monitor t (.settle token v)
      ret unwind := by
    rw [Calls.wp_discard_unwinding]
    cases token with
    | none => exact ⟨trivial, fun _ => hret⟩
    | some token => exact ⟨trivial, fun _ => hret⟩
  rcases x with _ | (error | value)
  · exact hret
  · exact hd _
  · exact hd _

theorem executeLockedCatching_wp {slot : τ → Option P}
    {task : FnOnce (Calls P R E C π) π τ (Except E R)} (htask : RunsTask i slot task)
    {core : DclCore (Calls P R E C π) π} (hcore : core.predicate = Calls.predicate)
    {ret : Except (PanicInfo π) (LockedExecution R E) → τ → Station P R E C π → Prop}
    (hret : ∀ v t', v.Locked → ret v.locked t' (.settle (slot t') v)) :
    (core.executeLockedCatching Calls.lock task).wp i.monitor t (.acquiring (slot t)) ret
      unwind := by
  unfold DclCore.executeLockedCatching
  rw [htask.dropped, hcore]
  simp only [wp_withCell, wp_bind, wp_catchUnwind, wp_onUnwind, Calls.wp_lock, Calls.wp_predicate,
    Calls.wp_dropGuard, Calls.wp_dropTask, wp_set, wp_get, wp_pure, Bool.true_eq_false,
    false_imp_iff, and_true]
  refine ⟨trivial, fun _ => ⟨trivial, ?_, fun p => ⟨rfl, fun _ => ⟨rfl, fun _ => ?_⟩⟩⟩,
    fun p => ⟨rfl, fun _ => ?_⟩⟩
  · intro b
    cases b with
    | false =>
      -- the second check rejects: the guard goes first, then the unstarted task
      simp only [Bool.not_false, if_true, wp_bind, wp_onUnwind, wp_pure, wp_set, wp_outer,
        dropUnstarted, htask.dropped, Calls.wp_dropGuard, Calls.wp_dropTask, Bool.true_eq_false,
        false_imp_iff, and_true]
      refine ⟨rfl, fun _ => ⟨rfl, fun _ => ?_, fun _ p => ?_⟩, fun _ p => ⟨rfl, fun _ => ?_⟩⟩
      · exact hret _ _ .conditionNotMet
      · exact hret _ _ (.panicked _ _)
      · exact hret _ _ (.panicked _ _)
    | true =>
      -- the task runs, and its result may meet a guard that panics
      simp only [Bool.not_true, Bool.false_eq_true, if_false, wp_bind, wp_onUnwind, wp_pure,
        wp_set, wp_outer, dropUnstarted, Calls.wp_dropGuard, Bool.true_eq_false, false_imp_iff,
        and_true]
      refine htask.called _ _ _ (fun result t' => ⟨rfl, fun _ => ?_, fun _ p => ?_⟩)
        (fun p t' => ⟨rfl, fun _ => ?_⟩)
      · exact hret _ _ (.returned _)
      · exact wp_drop_locked _ (hret _ _ (.panicked _ _))
      · exact hret _ _ (.panicked _ _)
  · exact hret _ _ (.panicked _ _)
  · exact hret _ _ (.panicked _ _)

theorem executeLocked_wp {slot : τ → Option P}
    {task : FnOnce (Calls P R E C π) π τ (Except E R)} (htask : RunsTask i slot task)
    {core : DclCore (Calls P R E C π) π} (hcore : core.predicate = Calls.predicate)
    {ret : LockedExecution R E → τ → Station P R E C π → Prop}
    (hnot : ∀ t', ret .conditionNotMet t' (.settle (slot t') .conditionNotMet))
    (hret : ∀ result t', ret (.task result) t' (.settle (slot t') (.returned result)))
    (hpanic : ∀ phase p t', unwind p t' (.settle (slot t') (.panicked phase p))) :
    (core.executeLocked Calls.lock task).wp i.monitor t (.acquiring (slot t)) ret unwind := by
  unfold DclCore.executeLocked
  rw [htask.dropped, hcore]
  simp only [wp_bind, wp_onUnwind, Calls.wp_lock, Calls.wp_predicate, Calls.wp_dropGuard,
    Calls.wp_dropTask, Bool.true_eq_false, false_imp_iff, and_true]
  refine ⟨trivial, fun _ => ⟨trivial, ?_, fun p => ⟨rfl, fun _ => ⟨rfl, fun _ => ?_⟩⟩⟩,
    fun p => ⟨rfl, fun _ => ?_⟩⟩
  · intro b
    cases b with
    | false =>
      simp only [Bool.not_false, if_true, wp_bind, wp_onUnwind, wp_pure, dropUnstarted,
        htask.dropped, Calls.wp_dropGuard, Calls.wp_dropTask, Bool.true_eq_false, false_imp_iff,
        and_true]
      refine ⟨rfl, fun _ => ⟨rfl, fun _ => ?_, fun _ p => ?_⟩, fun _ p => ⟨rfl, fun _ => ?_⟩⟩
      · exact hnot _
      · exact hpanic _ _ _
      · exact hpanic _ _ _
    | true =>
      simp only [Bool.not_true, Bool.false_eq_true, if_false, wp_bind, wp_onUnwind, wp_pure,
        dropUnstarted, Calls.wp_dropGuard, Bool.true_eq_false, false_imp_iff, and_true]
      refine htask.called _ _ _ (fun result t' => ⟨rfl, fun _ => ?_, fun _ p => ?_⟩)
        (fun p t' => ⟨rfl, fun _ => ?_⟩)
      · exact hret _ _
      · exact hpanic _ _ _
      · exact hpanic _ _ _
  · exact hpanic _ _ _
  · exact hpanic _ _ _

theorem runsTask_task : RunsTask i (fun _ : Unit => (none : Option P))
    (Calls.task (P := P) (R := R) (E := E) (C := C) (π := π)) where
  dropped := rfl
  called t ret unwind hret hpanic := by
    refine ⟨trivial, ?_⟩
    intro r _
    cases r with
    | ret result => exact hret _ _
    | panic p => exact hpanic _ _

theorem runsTask_lendToken {σ : Type} : RunsTask i (fun t : σ × P => some t.2)
    (LifecycleDclExecutor.lendToken (Calls.taskWithToken (P := P) (R := R) (E := E) (C := C)
      (π := π))) where
  dropped := rfl
  called t ret unwind hret hpanic := by
    refine wp_inner.mpr ⟨rfl, ?_⟩
    intro r _
    obtain ⟨r, token⟩ := r
    cases r with
    | ret result => exact hret _ (t.1, token)
    | panic p => exact hpanic _ (t.1, token)

theorem runsTask_ignoreToken {σ : Type} : RunsTask i (fun t : σ × P => some t.2)
    (LifecycleDclExecutor.lendToken (LifecycleDclExecutor.ignoreToken
      (Calls.task (P := P) (R := R) (E := E) (C := C) (π := π)))) where
  dropped := rfl
  called t ret unwind hret hpanic := by
    refine wp_inner.mpr ⟨trivial, ?_⟩
    intro r _
    cases r with
    | ret result => exact hret _ t
    | panic p => exact hpanic _ t

structure Observes (i : Invocation)
    (executor : LifecycleDclExecutor (Calls P R E C π) π P E C) : Prop where
  predicate : executor.core.predicate = Calls.predicate
  prepare : executor.prepare = Calls.prepare
  commit : executor.commit = if i.hasCommit then some Calls.commit else none
  rollback : executor.rollback = if i.hasRollback then some Calls.rollback else none

section Finalization
variable {token : P} {v : Verdict R E C π}
  {executor : LifecycleDclExecutor (Calls P R E C π) π P E C}

theorem finalizeCommit_wp (hex : Observes i executor) (hv : v.commits = true)
    {ret : FinalizationOutcome C → τ → Station P R E C π → Prop}
    (hret : ∀ f x, f.outcome = .ret x → ret x t (.ended v none f))
    (hunwind : ∀ f p, f.outcome = .unwind p → unwind p t (.ended v none f)) :
    (finalizeCommit executor.commit token).wp i.monitor t (.finalizing token v) ret unwind := by
  rw [hex.commit]
  cases hc : i.hasCommit with
  | true =>
    simp only [finalizeCommit, if_true, wp_bind, Calls.wp_commit]
    refine ⟨⟨rfl, hv, hc⟩, ?_, fun p => hunwind (.called (.panic p)) p rfl⟩
    intro x
    cases x with
    | error c => exact hret (.called (.ret (.error c))) _ rfl
    | ok u => exact hret (.called (.ret (.ok u))) _ rfl
  | false =>
    simp only [finalizeCommit, Bool.false_eq_true, if_false, wp_bind, wp_pure, Calls.wp_dropToken]
    have hf := (Invocation.hasFinalizer_of_commits hv).trans hc
    exact ⟨⟨rfl, rfl, hf⟩, fun _ => hret (.dropped (.ret ())) _ rfl,
      fun p => hunwind (.dropped (.panic p)) p rfl⟩

theorem finalizeRollback_wp (hex : Observes i executor) {cause : RollbackCause E π}
    (hv : v.cause = some cause) {ret : FinalizationOutcome C → τ → Station P R E C π → Prop}
    (hret : ∀ f x, f.outcome = .ret x → ret x t (.ended v none f))
    (hunwind : ∀ f p, f.outcome = .unwind p → unwind p t (.ended v none f)) :
    (finalizeRollback executor.rollback token cause).wp i.monitor t (.finalizing token v) ret
      unwind := by
  rw [hex.rollback]
  cases hr : i.hasRollback with
  | true =>
    simp only [finalizeRollback, if_true, wp_bind, Calls.wp_rollback]
    refine ⟨⟨rfl, hv, hr⟩, ?_, fun p => hunwind (.called (.panic p)) p rfl⟩
    intro x
    cases x with
    | error c => exact hret (.called (.ret (.error c))) _ rfl
    | ok u => exact hret (.called (.ret (.ok u))) _ rfl
  | false =>
    simp only [finalizeRollback, Bool.false_eq_true, if_false, wp_bind, wp_pure,
      Calls.wp_dropToken]
    exact ⟨⟨rfl, rfl, (Invocation.hasFinalizer_of_cause hv).trans hr⟩,
      fun _ => hret (.dropped (.ret ())) _ rfl, fun p => hunwind (.dropped (.panic p)) p rfl⟩

theorem finalizeCommitCatching_wp (hex : Observes i executor) (hv : v.commits = true)
    {ret : CapturedFinalizationOutcome C π → τ → Station P R E C π → Prop}
    (hret : ∀ f, ret (f.captured .commit) t (.ended v none f)) :
    (finalizeCommitCatching executor.commit token).wp i.monitor t (.finalizing token v) ret
      unwind := by
  rw [hex.commit]
  cases hc : i.hasCommit with
  | true =>
    simp only [finalizeCommitCatching, if_true, catchPhase, wp_bind, wp_catchUnwind,
      Calls.wp_commit]
    refine ⟨⟨rfl, hv, hc⟩, ?_, fun p => hret (.called (.panic p))⟩
    intro x
    cases x with
    | error c => exact hret (.called (.ret (.error c)))
    | ok u => exact hret (.called (.ret (.ok u)))
  | false =>
    simp only [finalizeCommitCatching, Bool.false_eq_true, if_false, catchPhase, wp_bind,
      wp_catchUnwind, Calls.wp_dropToken]
    have hf := (Invocation.hasFinalizer_of_commits hv).trans hc
    exact ⟨⟨rfl, rfl, hf⟩, fun _ => hret (.dropped (.ret ())), fun p => hret (.dropped (.panic p))⟩

theorem finalizeRollbackCatching_wp (hex : Observes i executor) {cause : RollbackCause E π}
    (hv : v.cause = some cause)
    {ret : CapturedFinalizationOutcome C π → τ → Station P R E C π → Prop}
    (hret : ∀ f, ret (f.captured .rollback) t (.ended v none f)) :
    (finalizeRollbackCatching executor.rollback token cause).wp i.monitor t (.finalizing token v)
      ret unwind := by
  rw [hex.rollback]
  cases hr : i.hasRollback with
  | true =>
    simp only [finalizeRollbackCatching, if_true, catchPhase, wp_bind, wp_catchUnwind,
      Calls.wp_rollback]
    refine ⟨⟨rfl, hv, hr⟩, ?_, fun p => hret (.called (.panic p))⟩
    intro x
    cases x with
    | error c => exact hret (.called (.ret (.error c)))
    | ok u => exact hret (.called (.ret (.ok u)))
  | false =>
    simp only [finalizeRollbackCatching, Bool.false_eq_true, if_false, catchPhase, wp_bind,
      wp_catchUnwind, Calls.wp_dropToken]
    exact ⟨⟨rfl, rfl, (Invocation.hasFinalizer_of_cause hv).trans hr⟩,
      fun _ => hret (.dropped (.ret ())), fun p => hret (.dropped (.panic p))⟩

theorem discardSecondary_wp {operation : Routine (Calls P R E C π) π τ Unit}
    {ret : Unit → τ → Station P R E C π → Prop}
    (hop : operation.wp i.monitor t q (fun _ _ q' => ∃ f, q' = .ended v none f)
      (fun _ _ q' => ∃ f, q' = .ended v none f))
    (hret : ∀ t' f, ret () t' (.ended v none f)) :
    (LifecycleDclExecutor.discardSecondary operation).wp i.monitor t q ret unwind := by
  simp only [LifecycleDclExecutor.discardSecondary, wp_bind, wp_catchUnwind]
  refine wp_mono hop ?_ ?_
  · intro _ t' q' hq
    obtain ⟨f, rfl⟩ := hq
    exact hret t' f
  · intro p t' q' hq
    obtain ⟨f, rfl⟩ := hq
    exact Calls.wp_discard.mpr ⟨trivial, fun _ => hret t' f, fun _ _ => hret t' f⟩

theorem rollbackThenResume_wp {α : Type} (hex : Observes i executor) {phase : PanicPhase} {p : π}
    {ret : α → τ → Station P R E C π → Prop}
    (hunwind : ∀ t' f, unwind p t' (.ended (.panicked phase p) none f)) :
    (executor.rollbackThenResume token (.fromPayload phase p)).wp i.monitor t
      (.finalizing token (.panicked phase p)) ret unwind := by
  rw [LifecycleDclExecutor.rollbackThenResume, hex.rollback]
  cases hr : i.hasRollback with
  | true =>
    simp only [if_true, wp_bind]
    refine discardSecondary_wp ?_ hunwind
    simp only [wp_bind, Calls.wp_rollback]
    refine ⟨⟨rfl, rfl, hr⟩, ?_, fun _ => ⟨_, rfl⟩⟩
    intro x
    cases x with
    | error c => exact Calls.wp_discard.mpr ⟨trivial, fun _ => ⟨_, rfl⟩, fun _ _ => ⟨_, rfl⟩⟩
    | ok u => exact ⟨_, rfl⟩
  | false =>
    simp only [Bool.false_eq_true, if_false, wp_bind]
    refine discardSecondary_wp (Calls.wp_dropToken.mpr ?_) hunwind
    exact ⟨⟨rfl, rfl, (Invocation.hasFinalizer_of_cause rfl).trans hr⟩,
      fun _ => ⟨_, rfl⟩, fun _ => ⟨_, rfl⟩⟩

end Finalization

theorem wp_drop_panicInfo {v : Verdict R E C π} {c : Option π} {f : Finalization C π}
    {mode : DropMode} {phase : PanicPhase} {p : π} {ret : Unit → τ → Station P R E C π → Prop}
    (hret : ret () t (.ended v c f)) :
    (Drop.drop mode (PanicInfo.fromPayload phase p) : Routine (Calls P R E C π) π τ Unit).wp
      i.monitor t (.ended v c f) ret unwind := by
  rw [PanicInfo.drop_fromPayload, wp_bind, wp_catchUnwind]
  exact Calls.wp_discard.mpr ⟨trivial, fun _ => hret, fun _ _ => hret⟩

theorem dropCleanup_wp {κ : Type} {v : Verdict R E C π}
    {task : FnOnce (Calls P R E C π) π κ (Except E R)}
    (hdrop : task.drop = (Calls.task (P := P) (R := R) (E := E) (C := C) (π := π)).drop)
    (hv : v.dropsUnwinding i.catching = false)
    (hskip : ∀ c, Station.afterSkip (P := P) none v c = .ended v c .notReached)
    {ret : Unit → τ → Station P R E C π → Prop} (hret : ∀ c, ret () t (.ended v c .notReached)) :
    (dropTaskCatching task).wp i.monitor t (.skipping none v)
      (fun cleanup t' q' => (Drop.drop .scope cleanup).wp i.monitor t' q' ret unwind) unwind := by
  simp only [dropTaskCatching, catchPhase, hdrop, wp_bind, wp_catchUnwind, Calls.wp_dropTask]
  refine ⟨hv.symm, fun _ => ?_, fun _ p => ?_⟩
  · change ret () t (Station.afterSkip none v none)
    exact hskip none ▸ hret none
  · change Routine.wp i.monitor (Drop.drop .scope (PanicInfo.fromPayload .taskCleanup p)) t
      (Station.afterSkip none v (some p)) ret unwind
    rw [hskip]
    exact wp_drop_panicInfo (hret _)

section Entry

theorem run_wp {clones : ℕ} {core : DclCore (Calls P R E C π) π}
    (hcore : core.predicate = Calls.predicate) :
    ((DclExecutor.mk core).run Calls.lock Calls.task).wp (Invocation.basic false clones).monitor ()
      .fresh
      (fun a _ q => ∃ v cleanup f, q = .ended v cleanup f ∧ v.outcome cleanup = .ret a)
      (fun p _ q => ∃ v cleanup f, q = .ended v cleanup f ∧ v.outcome cleanup = .unwind p) := by
  simp only [DclExecutor.run, DclCore.checkInitial, hcore, wp_bind, wp_onUnwind,
    Calls.wp_predicate, Calls.wp_dropTask, Bool.true_eq_false, false_imp_iff, and_true]
  refine ⟨trivial, ?_, fun p => ⟨rfl, fun _ => ⟨_, _, _, rfl, rfl⟩⟩⟩
  intro b
  cases b with
  | false =>
    simp only [Bool.not_false, if_true, wp_bind, wp_pure, Calls.wp_dropTask]
    exact ⟨rfl, fun _ => ⟨_, _, _, rfl, rfl⟩, fun _ p => ⟨_, _, _, rfl, rfl⟩⟩
  | true =>
    simp only [Bool.not_true, Bool.false_eq_true, if_false, wp_bind, wp_pure]
    refine executeLocked_wp runsTask_task hcore (fun _ => ⟨_, _, _, rfl, rfl⟩) ?_
      (fun _ _ _ => ⟨_, _, _, rfl, rfl⟩)
    intro result _
    cases result with
    | error error => exact ⟨_, _, _, rfl, rfl⟩
    | ok value => exact ⟨_, _, _, rfl, rfl⟩

theorem runCatching_wp {clones : ℕ} {core : DclCore (Calls P R E C π) π}
    (hcore : core.predicate = Calls.predicate)
    (unwind : π → Unit → Station P R E C π → Prop) :
    ((DclExecutor.mk core).runCatching Calls.lock Calls.task).wp
      (Invocation.basic true clones).monitor () .fresh
      (fun a _ q => ∃ v cleanup f, q = .ended v cleanup f ∧ v.capturedOutcome cleanup = .ret a)
      unwind := by
  simp only [DclExecutor.runCatching, DclCore.checkInitialCatching, DclCore.checkInitial, hcore,
    catchPhase, wp_bind, wp_catchUnwind, Calls.wp_predicate]
  refine ⟨trivial, ?_, fun p => ?_⟩
  · intro b
    cases b with
    | false =>
      simp only [dropTaskCatching, catchPhase, wp_bind, wp_pure, wp_catchUnwind, Calls.wp_dropTask]
      exact ⟨rfl, fun _ => ⟨_, _, _, rfl, rfl⟩, fun _ p => ⟨_, _, _, rfl, rfl⟩⟩
    | true =>
      simp only [wp_bind, wp_pure]
      apply executeLockedCatching_wp runsTask_task hcore
      intro v _ hv
      cases hv with
      | conditionNotMet => exact ⟨_, _, _, rfl, rfl⟩
      | returned result =>
        cases result with
        | error error => exact ⟨_, _, _, rfl, rfl⟩
        | ok value => exact ⟨_, _, _, rfl, rfl⟩
      | panicked phase p => exact ⟨_, _, _, rfl, rfl⟩
  · simp only [wp_pure, wp_bind]
    exact dropCleanup_wp rfl rfl (fun _ => rfl) (fun c => ⟨_, _, _, rfl, rfl⟩)

section Lifecycle
variable {executor : LifecycleDclExecutor (Calls P R E C π) π P E C}
  {task : FnOnce (Calls P R E C π) π P (Except E R)}

theorem runWithToken_wp (hex : Observes i executor) (hprep : i.prepares = true)
    (hcatch : i.catching = false)
    (htask : RunsTask i (fun t : Unit × P => some t.2) (LifecycleDclExecutor.lendToken task)) :
    (executor.runWithToken (R := R) Calls.lock task).wp i.monitor () .fresh
      (fun a _ q => ∃ v cleanup f, q = .ended v cleanup f ∧
        v.lifecycleOutcome cleanup f = .ret a)
      (fun p _ q => ∃ v cleanup f, q = .ended v cleanup f ∧
        v.lifecycleOutcome cleanup f = .unwind p) := by
  have hdrop : task.drop = (Calls.task (P := P) (R := R) (E := E) (C := C) (π := π)).drop :=
    htask.dropped
  have hadmitted : i.next (P := P) (R := R) (E := E) (C := C) (π := π) .fresh .predicate
      (.ret true) = .admitted := by simp [Invocation.next, hprep]
  have hdrops : (!i.catching) = true := by simp [hcatch]
  simp only [LifecycleDclExecutor.runWithToken, DclCore.checkInitial, hex.predicate, hex.prepare,
    hdrop, wp_bind, wp_onUnwind, Calls.wp_predicate, Calls.wp_dropTask, Bool.true_eq_false,
    false_imp_iff, and_true]
  refine ⟨trivial, ?_, fun p => ⟨hdrops.symm, fun _ => ⟨_, _, _, rfl, rfl⟩⟩⟩
  intro b
  cases b with
  | false =>
    simp only [Bool.not_false, if_true, wp_bind, wp_pure, Calls.wp_dropTask]
    exact ⟨rfl, fun _ => ⟨_, _, _, rfl, rfl⟩, fun _ p => ⟨_, _, _, rfl, rfl⟩⟩
  | true =>
    rw [hadmitted]
    simp only [Bool.not_true, Bool.false_eq_true, if_false, wp_bind, wp_onUnwind, Calls.wp_prepare,
      Calls.wp_dropTask, Bool.true_eq_false, false_imp_iff, and_true]
    refine ⟨trivial, ?_, fun p => ⟨hdrops.symm, fun _ => ⟨_, _, _, rfl, rfl⟩⟩⟩
    intro prepared
    cases prepared with
    | error c =>
      -- the prepare error waits in the return place while the task is dropped
      simp only [wp_bind, wp_pure, Calls.wp_dropTask]
      exact ⟨rfl, fun _ => ⟨_, _, _, rfl, rfl⟩, fun _ p => ⟨_, _, _, rfl, rfl⟩⟩
    | ok token =>
      simp only [wp_withCell, wp_bind]
      apply executeLockedCatching_wp htask hex.predicate
      intro v t hv
      cases hv with
      | conditionNotMet =>
        simp only [Verdict.locked, wp_get, LifecycleDclExecutor.finishRollback, wp_bind,
          wp_onUnwind]
        refine finalizeRollback_wp hex rfl (fun f x hx => ⟨_, _, f, rfl, ?_⟩)
          (fun f p hp => ⟨_, _, f, rfl, ?_⟩)
        · simp [Verdict.lifecycleOutcome, hx, Exit.map, RollbackExecution.intoOutcome]
        · simp [Verdict.lifecycleOutcome, hp, Exit.map]
      | returned result =>
        cases result with
        | error error =>
          simp only [Verdict.locked, wp_get, LifecycleDclExecutor.finishRollback, wp_bind,
            wp_onUnwind]
          refine finalizeRollback_wp hex rfl (fun f x hx => ⟨_, _, f, rfl, ?_⟩) (fun f p hp =>
            Calls.wp_discard_unwinding.mpr ⟨trivial, fun _ => ⟨_, _, f, rfl, ?_⟩⟩)
          · simp [Verdict.lifecycleOutcome, hx, Exit.map, RollbackExecution.intoOutcome]
          · simp [Verdict.lifecycleOutcome, hp, Exit.map]
        | ok value =>
          simp only [Verdict.locked, wp_get, LifecycleDclExecutor.finishCommit, wp_bind,
            wp_onUnwind]
          refine finalizeCommit_wp hex rfl (fun f x hx => ⟨_, _, f, rfl, ?_⟩) (fun f p hp =>
            Calls.wp_discard_unwinding.mpr ⟨trivial, fun _ => ⟨_, _, f, rfl, ?_⟩⟩)
          · simp [Verdict.lifecycleOutcome, hx, Exit.map]
          · simp [Verdict.lifecycleOutcome, hp, Exit.map]
      | panicked phase p =>
        simp only [Verdict.locked, wp_get]
        exact rollbackThenResume_wp hex (fun _ f => ⟨_, _, f, rfl, rfl⟩)

theorem runWithTokenCatching_wp (hex : Observes i executor) (hprep : i.prepares = true)
    (hcatch : i.catching = true)
    (htask : RunsTask i (fun t : Unit × P => some t.2) (LifecycleDclExecutor.lendToken task)) :
    (executor.runWithTokenCatching (R := R) Calls.lock task).wp i.monitor () .fresh
      (fun a _ q => ∃ v cleanup f, q = .ended v cleanup f ∧
        v.capturedLifecycleOutcome cleanup f = a)
      (fun _ _ _ => False) := by
  have hdrop : task.drop = (Calls.task (P := P) (R := R) (E := E) (C := C) (π := π)).drop :=
    htask.dropped
  have hadmitted : i.next (P := P) (R := R) (E := E) (C := C) (π := π) .fresh .predicate
      (.ret true) = .admitted := by simp [Invocation.next, hprep]
  have hdrops : (!i.catching) = false := by simp [hcatch]
  simp only [LifecycleDclExecutor.runWithTokenCatching, DclCore.checkInitialCatching,
    DclCore.checkInitial, hex.predicate, hex.prepare, catchPhase, wp_bind, wp_catchUnwind,
    Calls.wp_predicate]
  refine ⟨trivial, ?_, fun p => ?_⟩
  · intro b
    cases b with
    | false =>
      simp only [dropTaskCatching, catchPhase, hdrop, wp_bind, wp_pure, wp_catchUnwind,
        Calls.wp_dropTask]
      exact ⟨rfl, fun _ => ⟨_, _, _, rfl, rfl⟩, fun _ p => ⟨_, _, _, rfl, rfl⟩⟩
    | true =>
      rw [hadmitted]
      simp only [wp_bind, wp_pure, wp_catchUnwind, Calls.wp_prepare]
      refine ⟨trivial, ?_, fun p => dropCleanup_wp (v := .preparePanicked p) hdrop hdrops
        (fun _ => rfl) (fun c => ⟨_, _, _, rfl, rfl⟩)⟩
      intro prepared
      cases prepared with
      | error c =>
        simp only [wp_bind, wp_pure]
        exact dropCleanup_wp (v := .prepareFailed c) hdrop rfl (fun _ => rfl)
          (fun c => ⟨_, _, _, rfl, rfl⟩)
      | ok token =>
        simp only [wp_withCell, wp_bind]
        apply executeLockedCatching_wp htask hex.predicate
        intro v t hv
        cases hv with
        | conditionNotMet | panicked phase p =>
          exact wp_bind.mpr (finalizeRollbackCatching_wp hex rfl fun f => ⟨_, _, f, rfl, rfl⟩)
        | returned result =>
          cases result with
          | error error =>
            exact wp_bind.mpr (finalizeRollbackCatching_wp hex rfl fun f => ⟨_, _, f, rfl, rfl⟩)
          | ok value =>
            exact wp_bind.mpr (finalizeCommitCatching_wp hex rfl fun f => ⟨_, _, f, rfl, rfl⟩)
  · simp only [wp_pure, wp_bind]
    exact dropCleanup_wp (v := .checkPanicked p) hdrop hdrops (fun _ => rfl)
      (fun c => ⟨_, _, _, rfl, rfl⟩)

omit [PanicPayload π] in
theorem observes_executor (finalizers : Finalizers) (withToken catching : Bool) (clones : ℕ) :
    Observes (.lifecycle finalizers withToken catching clones)
      (LifecycleDclExecutor.clone^[clones]
        (finalizers.executor (P := P) (R := R) (E := E) (C := C) (π := π))) := by
  rw [LifecycleDclExecutor.clones_eq]
  cases finalizers <;> exact ⟨rfl, rfl, rfl, rfl⟩

end Lifecycle

/-- Every invocation keeps to the protocol, never aborts while no destructor panics
during an unwind, and ends with the answer its last station determines. -/
theorem program_wp (i : Invocation) :
    (i.program (P := P) (R := R) (E := E) (C := C) (π := π)).wp i.monitor .fresh i.returns := by
  cases i with
  | basic catching clones =>
    cases catching with
    | false =>
      simp only [Invocation.program, DclExecutor.clones_eq, Program.wp_bind, Bool.false_eq_true,
        if_false]
      refine wp_start (wp_mono (run_wp rfl) ?_ ?_)
      all_goals
        intro x _ q hq
        obtain ⟨v, cleanup, f, rfl, hx⟩ := hq
        exact ⟨v, cleanup, f, rfl, congrArg Answer.outcome hx.symm⟩
    | true =>
      simp only [Invocation.program, DclExecutor.clones_eq, Program.wp_bind, if_true]
      refine wp_start (wp_mono (runCatching_wp rfl fun _ _ _ => False) ?_ fun _ _ _ => False.elim)
      intro x _ q hq
      obtain ⟨v, cleanup, f, rfl, hx⟩ := hq
      exact ⟨v, cleanup, f, rfl, congrArg Answer.captured hx.symm⟩
  | lifecycle finalizers withToken catching clones =>
    have hex := observes_executor (P := P) (R := R) (E := E) (C := C) (π := π) finalizers
      withToken catching clones
    cases catching with
    | false =>
      cases withToken with
      | false =>
        simp only [Invocation.program, Program.wp_bind]
        refine wp_start (wp_mono (runWithToken_wp hex rfl rfl runsTask_ignoreToken) ?_ ?_)
        all_goals
          intro x _ q hq
          obtain ⟨v, cleanup, f, rfl, hx⟩ := hq
          exact ⟨v, cleanup, f, rfl, congrArg Answer.lifecycle hx.symm⟩
      | true =>
        simp only [Invocation.program, Program.wp_bind]
        refine wp_start (wp_mono (runWithToken_wp hex rfl rfl runsTask_lendToken) ?_ ?_)
        all_goals
          intro x _ q hq
          obtain ⟨v, cleanup, f, rfl, hx⟩ := hq
          exact ⟨v, cleanup, f, rfl, congrArg Answer.lifecycle hx.symm⟩
    | true =>
      have hx {a} {q : Station P R E C π} (h : ∃ v cleanup f, q = .ended v cleanup f ∧
          v.capturedLifecycleOutcome cleanup f = a) :
          (Invocation.lifecycle finalizers withToken true clones).returns
            (.lifecycleCaptured (.ret a) : Answer R E C π) q := by
        obtain ⟨v, cleanup, f, rfl, rfl⟩ := h
        exact ⟨v, cleanup, f, rfl, rfl⟩
      cases withToken with
      | false =>
        simp only [Invocation.program, Program.wp_bind]
        exact wp_start (wp_mono (runWithTokenCatching_wp hex rfl rfl runsTask_ignoreToken)
          (fun _ _ _ => hx) fun _ _ _ => False.elim)
      | true =>
        simp only [Invocation.program, Program.wp_bind]
        exact wp_start (wp_mono (runWithTokenCatching_wp hex rfl rfl runsTask_lendToken)
          (fun _ _ _ => hx) fun _ _ _ => False.elim)

end Entry
end DoubleChecked
