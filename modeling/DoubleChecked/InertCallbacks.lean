import DoubleChecked.Agreement

/-!
# Callbacks that do nothing

With a prepare that makes the token `()` and finalizers that only return `Ok(())`, the
lifecycle executor is compared with the basic one: the same handler, the same starting
state, once through each. The calls that both know are the same, and so are the ends.
-/

namespace DoubleChecked
open Effect
open Effect.Program (Coupled run)

variable {R E C π σ τ : Type}

/-- Prepare and the finalizers return `Ok(())` and do nothing; `()` has no destructor. -/
structure Inert (h : (o : Call Unit R E C π) → σ → o.Answer × σ) : Prop where
  prepare : ∀ s, h .prepare s = (.ret (.ok ()), s)
  commit : ∀ s, h (.commit ()) s = (.ret (.ok ()), s)
  rollback : ∀ cause s, h (.rollback () cause) s = (.ret (.ok ()), s)
  dropToken : ∀ mode s, h (.dropToken mode ()) s = (.ret (), s)

def shared {P : Type} : Event (Calls P R E C π) → Option (Event (Calls P R E C π))
  | ⟨.prepare, _⟩ | ⟨.commit _, _⟩ | ⟨.rollback _ _, _⟩ | ⟨.dropToken _ _, _⟩
  | ⟨.discard _ _, _⟩ => none
  | e => some e

def LifecycleOutcome.read : LifecycleOutcome R E C → Option (ExecutionOutcome R E)
  | .initialConditionNotMet => some .conditionNotMet
  | .prepareFailed _ => none
  | .taskSucceeded value _ => some (.success value)
  | .secondConditionNotMet _ => some .conditionNotMet
  | .taskFailed error _ => some (.taskFailed error)

def CapturedLifecycleOutcome.read :
    CapturedLifecycleOutcome R E C π → Option (Except (PanicInfo π) (ExecutionOutcome R E))
  | .initialConditionNotMet => some (.ok .conditionNotMet)
  | .initialConditionCheckPanicked panic => some (.error panic)
  | .taskCleanupPanicked panic => some (.error panic)
  | .prepareFailed _ => none
  | .preparePanicked _ => none
  | .taskSucceeded value _ => some (.ok (.success value))
  | .secondConditionNotMet _ => some (.ok .conditionNotMet)
  | .taskFailed error _ => some (.ok (.taskFailed error))
  | .executionPanicked panic _ => some (.error panic)

/-- The states are the same but where the guard's destructor panics on the task's result:
the basic executor leaks that result, the other one drops it in the unwind. -/
def StatesAlike {P α : Type} (h : (o : Call P R E C π) → σ → o.Answer × σ) (s : σ) (x : Exit π α)
    (t t' : σ) : Prop :=
  t = t' ∨ ∃ result p, ReleasePanics h s result p t ∧ x = .unwind p ∧
    t' = (h (.discard .unwinding (.ofResult result)) t).2

theorem StatesAlike.eq {P α : Type} {h : (o : Call P R E C π) → σ → o.Answer × σ} {s : σ}
    {x : Exit π α} {t t' : σ} (ht : StatesAlike h s x t t')
    (hresult : ∀ v, (h (.discard .unwinding v) t).2 = t) : t = t' := by
  rcases ht with rfl | ⟨result, p, -, -, rfl⟩
  · rfl
  · exact (hresult _).symm

section Lent
variable {P : Type} [PanicPayload π] {core : DclCore (Calls P R E C π) π}

theorem executeLockedCatching_lent (hcore : core.predicate = Calls.predicate) (u : τ) (token : P) :
    core.executeLockedCatching Calls.lock
        (LifecycleDclExecutor.lendToken (LifecycleDclExecutor.ignoreToken Calls.task)) (u, token) =
      (core.executeLockedCatching Calls.lock Calls.task ()).bind fun x =>
        .pure (x.1, (u, token)) := by
  unfold DclCore.executeLockedCatching
  rw [hcore]
  refine Program.call_congr fun locked => ?_
  cases locked with
  | panic p =>
    refine Program.call_congr fun dropped => ?_
    cases dropped <;> rfl
  | ret w =>
  refine Program.call_congr fun met => ?_
  rcases met with (_ | _) | p
  · refine Program.call_congr fun released => ?_
    cases released with
    | panic p =>
      refine Program.call_congr fun dropped => ?_
      cases dropped <;> rfl
    | ret w =>
      refine Program.call_congr fun dropped => ?_
      cases dropped <;> rfl
  · refine Program.call_congr fun ran => ?_
    cases ran with
    | panic p =>
      refine Program.call_congr fun released => ?_
      cases released <;> rfl
    | ret result =>
      refine Program.call_congr fun released => ?_
      cases released with
      | ret w => rfl
      | panic p =>
        rcases result with error | value
        · refine Program.call_congr fun dropped => ?_
          cases dropped <;> rfl
        · refine Program.call_congr fun dropped => ?_
          cases dropped <;> rfl
  · refine Program.call_congr fun released => ?_
    cases released with
    | panic p => rfl
    | ret w =>
      refine Program.call_congr fun dropped => ?_
      cases dropped <;> rfl

end Lent

section Runs
variable [PanicPayload π] {h : (o : Call Unit R E C π) → σ → o.Answer × σ} {s s' : σ}
  {i : Invocation} {executor : LifecycleDclExecutor (Calls Unit R E C π) π Unit E C}

omit [PanicPayload π] in
theorem inert_right {α β : Type} {p : Program (Calls Unit R E C π) α}
    {post : α → σ → β → σ → Prop} {o : Call Unit R E C π} {r : o.Answer}
    (ho : ∀ r, shared ⟨o, r⟩ = none) (hr : ∀ s, h o s = (r, s))
    {k : o.Answer → Program (Calls Unit R E C π) β} (hk : Coupled h shared p (k r) s s' post) :
    Coupled h shared p (.call o k) s s' post := by
  refine .call_right ho fun r' t hr' => ?_
  rw [hr] at hr'
  cases hr'
  exact hk

def resumed (locked : Except (PanicInfo π) (LockedExecution R E)) : Exit π (ExecutionOutcome R E) :=
  match locked with
  | .ok execution => .ret execution.intoOutcome
  | .error panic => panic.exit

theorem resumed_error {panic : PanicInfo π} {p : π} (hp : panic.payload = some p) :
    (resumed (.error panic) : Exit π (ExecutionOutcome R E)) = .unwind p := by
  rw [resumed, PanicInfo.exit, hp]
  rfl

def Finishes (h : (o : Call Unit R E C π) → σ → o.Answer × σ)
    (k : Except (PanicInfo π) (LockedExecution R E) →
      Routine (Calls Unit R E C π) π (Unit × Unit) (LifecycleOutcome R E C)) : Prop :=
  ∀ (locked : Except (PanicInfo π) (LockedExecution R E))
    (a : Exit π (ExecutionOutcome R E) × Unit) (t t' : σ)
    (post : Exit π (ExecutionOutcome R E) × Unit → σ →
      Exit π (LifecycleOutcome R E C) × Unit → σ → Prop),
    (∀ y, y.map LifecycleOutcome.read = (resumed locked).map some → post a t (y, ()) t') →
    Coupled h shared (.pure a) ((k locked ((), ())).bind fun x => .pure (x.1, x.2.1)) t t' post

theorem lockedPhase_inert {core : DclCore (Calls Unit R E C π) π} {s₀ : σ}
    (hcore : core.predicate = Calls.predicate) (h₀ : h .predicate s₀ = (.ret true, s))
    {k : Except (PanicInfo π) (LockedExecution R E) →
      Routine (Calls Unit R E C π) π (Unit × Unit) (LifecycleOutcome R E C)} (hk : Finishes h k) :
    Coupled h shared
      ((do
        let locked ← core.executeLocked Calls.lock Calls.task
        pure locked.intoOutcome) ())
      (Routine.withCell () (do
        k (← core.executeLockedCatching Calls.lock (LifecycleDclExecutor.lendToken
          (LifecycleDclExecutor.ignoreToken Calls.task)))) ()) s s
      (fun x t y t' => x.1 ≠ .abort → y.1 ≠ .abort →
        y.1.map LifecycleOutcome.read = x.1.map some ∧ StatesAlike h s₀ x.1 t t') := by
  change Coupled h shared (Program.bind (core.executeLocked Calls.lock Calls.task ()) _)
    (Program.bind (Program.bind (core.executeLockedCatching Calls.lock
      (LifecycleDclExecutor.lendToken (LifecycleDclExecutor.ignoreToken Calls.task)) ((), ())) _) _)
    _ _ _
  rw [executeLockedCatching_lent hcore, Program.bind_assoc, Program.bind_assoc]
  refine .bind (executeLocked_coupled (fun _ _ _ => rfl) hcore h₀) ?_
  intro a t b t' hx
  obtain ⟨x, ⟨⟩⟩ := a
  obtain ⟨y, ⟨⟩⟩ := b
  cases x with
  | abort =>
    cases y with
    | ret locked => exact hk locked _ _ _ _ fun y _ ha => absurd rfl ha
    | unwind p => exact .pure fun ha => absurd rfl ha
    | abort => exact .pure fun ha => absurd rfl ha
  | ret execution =>
    cases hx nofun with
    | returned => exact hk (.ok execution) _ _ _ _ fun y hy _ _ => ⟨hy, .inl rfl⟩
  | unwind p =>
    cases hx nofun with
    | unwound _ info _ hp =>
      exact hk (.error info) _ _ _ _ fun y hy _ _ =>
        ⟨hy.trans (congrArg _ (resumed_error hp)), .inl rfl⟩
    | discarded result _ info _ _ _ hrelease hp ht hy =>
      obtain rfl : y = _ := hy
      cases (h (.discard .unwinding (.ofResult result)) t).1.panicked with
      | true => exact .pure fun _ hb => absurd rfl hb
      | false =>
        exact hk (.error info) _ _ _ _ fun y hy _ _ =>
          ⟨hy.trans (congrArg _ (resumed_error hp)), .inr ⟨result, p, hrelease, rfl, ht⟩⟩

section Finish
variable {a : Exit π (ExecutionOutcome R E) × Unit} {t t' : σ}
  {post : Exit π (ExecutionOutcome R E) × Unit → σ → Exit π (LifecycleOutcome R E C) × Unit → σ →
    Prop}

omit [PanicPayload π] in
theorem finishCommit_inert (hinert : Inert h) (hex : Observes i executor) (value : R)
    (hpost : ∀ f, post a t (.ret (.taskSucceeded value f), ()) t') :
    Coupled h shared (.pure a) ((executor.finishCommit () value ((), ())).bind fun x =>
      .pure (x.1, x.2.1)) t t' post := by
  unfold LifecycleDclExecutor.finishCommit finalizeCommit
  rw [hex.commit]
  cases i.hasCommit with
  | true => exact inert_right (fun _ => rfl) hinert.commit (.pure (hpost _))
  | false => exact inert_right (fun _ => rfl) (hinert.dropToken _) (.pure (hpost _))

omit [PanicPayload π] in
theorem finishRollback_inert (hinert : Inert h) (hex : Observes i executor)
    (execution : RollbackExecution E)
    (hpost : ∀ f, post a t (.ret (execution.intoOutcome f), ()) t') :
    Coupled h shared (.pure a) ((executor.finishRollback () execution ((), ())).bind fun x =>
      .pure (x.1, x.2.1)) t t' post := by
  unfold LifecycleDclExecutor.finishRollback finalizeRollback
  rw [hex.rollback]
  cases i.hasRollback with
  | true => exact inert_right (fun _ => rfl) (hinert.rollback _) (.pure (hpost _))
  | false => exact inert_right (fun _ => rfl) (hinert.dropToken _) (.pure (hpost _))

theorem rollbackThenResume_inert (hinert : Inert h) (hex : Observes i executor)
    (panic : PanicInfo π) (hpost : post a t (panic.exit, ()) t') :
    Coupled h shared (.pure a) ((executor.rollbackThenResume () panic ((), ())).bind fun x =>
      .pure (x.1, x.2.1)) t t' post := by
  have hresume := congrArg (Program.bind · fun x => .pure (x.1, x.2.1))
    (resumeUnwind_apply (P := Unit) (R := R) (E := E) (C := C) (u := ((), ()))
      (α := LifecycleOutcome R E C) panic)
  unfold LifecycleDclExecutor.rollbackThenResume
  rw [hex.rollback]
  cases i.hasRollback with
  | true => exact inert_right (fun _ => rfl) (hinert.rollback _) (.pure_of rfl hresume hpost)
  | false => exact inert_right (fun _ => rfl) (hinert.dropToken _) (.pure_of rfl hresume hpost)

end Finish

theorem run_inert (hinert : Inert h) (hex : Observes i executor) :
    Coupled h shared ((DclExecutor.mk executor.core).run Calls.lock Calls.task ())
      (executor.run Calls.lock Calls.task ()) s s
      (fun x t y t' => x.1 ≠ .abort → y.1 ≠ .abort →
        y.1.map LifecycleOutcome.read = x.1.map some ∧ StatesAlike h s x.1 t t') := by
  unfold DclExecutor.run LifecycleDclExecutor.run LifecycleDclExecutor.runWithToken
    DclCore.checkInitial
  rw [hex.predicate, hex.prepare]
  refine .call fun admitted s₁ h₁ => ?_
  rcases admitted with (_ | _) | p
  · refine .call fun dropped s₂ _ => ?_
    cases dropped with
    | ret u => exact .pure fun _ _ => ⟨rfl, .inl rfl⟩
    | panic p => exact .pure fun _ _ => ⟨rfl, .inl rfl⟩
  · refine inert_right (fun _ => rfl) hinert.prepare ?_
    refine lockedPhase_inert hex.predicate h₁ fun locked a t t' post hpost => ?_
    rcases locked with panic | (_ | (error | value))
    · exact rollbackThenResume_inert hinert hex panic (hpost _ rfl)
    · exact finishRollback_inert hinert hex .conditionNotMet fun f => hpost _ rfl
    · exact finishRollback_inert hinert hex (.taskFailed error) fun f => hpost _ rfl
    · exact finishCommit_inert hinert hex value fun f => hpost _ rfl
  · refine .call fun dropped s₂ _ => ?_
    cases dropped with
    | ret u => exact .pure fun _ _ => ⟨rfl, .inl rfl⟩
    | panic q => exact .pure fun _ _ => ⟨rfl, .inl rfl⟩

section FinishCatching
variable {a : Exit π (Except (PanicInfo π) (ExecutionOutcome R E)) × Unit} {t t' : σ}
  {post : Exit π (Except (PanicInfo π) (ExecutionOutcome R E)) × Unit → σ →
    Exit π (CapturedLifecycleOutcome R E C π) × Unit → σ → Prop}

theorem finishCommitCatching_inert (hinert : Inert h) (hex : Observes i executor) (value : R)
    (hpost : ∀ f, post a t (.ret (.taskSucceeded value f), ()) t') :
    Coupled h shared (.pure a) ((executor.finishCommitCatching () value ((), ())).bind fun x =>
      .pure (x.1, x.2.1)) t t' post := by
  unfold LifecycleDclExecutor.finishCommitCatching finalizeCommitCatching
  rw [hex.commit]
  cases i.hasCommit with
  | true => exact inert_right (fun _ => rfl) hinert.commit (.pure (hpost _))
  | false => exact inert_right (fun _ => rfl) (hinert.dropToken _) (.pure (hpost _))

theorem finishRollbackCatching_inert (hinert : Inert h) (hex : Observes i executor)
    (execution : CapturedRollbackExecution E π)
    (hpost : ∀ f, post a t (.ret (execution.intoOutcome f), ()) t') :
    Coupled h shared (.pure a)
      ((executor.finishRollbackCatching () execution ((), ())).bind fun x =>
        .pure (x.1, x.2.1)) t t' post := by
  unfold LifecycleDclExecutor.finishRollbackCatching finalizeRollbackCatching
  rw [hex.rollback]
  cases i.hasRollback with
  | true => exact inert_right (fun _ => rfl) (hinert.rollback _) (.pure (hpost _))
  | false => exact inert_right (fun _ => rfl) (hinert.dropToken _) (.pure (hpost _))

end FinishCatching

theorem runCatching_inert (hinert : Inert h) (hex : Observes i executor) :
    Coupled h shared ((DclExecutor.mk executor.core).runCatching Calls.lock Calls.task ())
      (executor.runCatching Calls.lock Calls.task ()) s s
      (fun x t y t' => y.1.map CapturedLifecycleOutcome.read = x.1.map some ∧ t = t') := by
  unfold DclExecutor.runCatching LifecycleDclExecutor.runCatching
    LifecycleDclExecutor.runWithTokenCatching DclCore.checkInitialCatching DclCore.checkInitial
    dropTaskCatching
  rw [hex.predicate, hex.prepare]
  refine .call fun admitted s₁ _ => ?_
  rcases admitted with (_ | _) | p
  · refine .call fun dropped s₂ _ => ?_
    cases dropped with
    | ret u => exact .pure ⟨rfl, rfl⟩
    | panic p => exact .pure ⟨rfl, rfl⟩
  · refine inert_right (fun _ => rfl) hinert.prepare ?_
    change Coupled h shared
      (Program.bind (executor.core.executeLockedCatching Calls.lock Calls.task ()) _)
      (Program.bind (Program.bind (executor.core.executeLockedCatching Calls.lock
        (LifecycleDclExecutor.lendToken (LifecycleDclExecutor.ignoreToken Calls.task)) ((), ())) _)
        _) _ _ _
    rw [executeLockedCatching_lent hex.predicate, Program.bind_assoc, Program.bind_assoc]
    refine .same fun x t _ => ?_
    obtain ⟨x, ⟨⟩⟩ := x
    cases x with
    | unwind p => exact .pure ⟨rfl, rfl⟩
    | abort => exact .pure ⟨rfl, rfl⟩
    | ret locked =>
      rcases locked with panic | (_ | (error | value))
      · exact finishRollbackCatching_inert hinert hex (.panicked panic) fun f => ⟨rfl, rfl⟩
      · exact finishRollbackCatching_inert hinert hex .conditionNotMet fun f => ⟨rfl, rfl⟩
      · exact finishRollbackCatching_inert hinert hex (.taskFailed error) fun f => ⟨rfl, rfl⟩
      · exact finishCommitCatching_inert hinert hex value fun f => ⟨rfl, rfl⟩
  · refine .call fun dropped s₂ _ => ?_
    cases dropped with
    | ret u => exact .pure ⟨rfl, rfl⟩
    | panic q =>
      refine .call fun discarded s₃ _ => ?_
      cases discarded <;> exact .pure ⟨rfl, rfl⟩

theorem run_programs_inert (finalizers : Finalizers) (clones clones' : ℕ) (hinert : Inert h) :
    Coupled h shared (Invocation.basic false clones).program
      (Invocation.lifecycle finalizers false false clones').program s s (fun a t b t' =>
        ∃ x y, a = .outcome x ∧ b = .lifecycle y ∧ (x ≠ .abort → y ≠ .abort →
          y.map LifecycleOutcome.read = x.map some ∧ StatesAlike h s x t t')) := by
  have hcore : (finalizers.executor (P := Unit) (R := R) (E := E) (C := C) (π := π)).core =
      ⟨Calls.predicate⟩ := by
    cases finalizers <;> rfl
  simp only [Invocation.program, DclExecutor.clones_eq, LifecycleDclExecutor.clones_eq,
    Bool.false_eq_true, if_false, DclExecutor.new, ← hcore]
  refine .map (.start ((run_inert hinert (observes_executor finalizers false false 0)).mono
    fun x t y t' hx => ?_))
  exact ⟨x.1, y.1, rfl, rfl, hx⟩

theorem runCatching_programs_inert (finalizers : Finalizers) (clones clones' : ℕ)
    (hinert : Inert h) :
    Coupled h shared (Invocation.basic true clones).program
      (Invocation.lifecycle finalizers false true clones').program s s (fun a t b t' =>
        ∃ x y, a = .captured x ∧ b = .lifecycleCaptured y ∧
          y.map CapturedLifecycleOutcome.read = x.map some ∧ t = t') := by
  have hcore : (finalizers.executor (P := Unit) (R := R) (E := E) (C := C) (π := π)).core =
      ⟨Calls.predicate⟩ := by
    cases finalizers <;> rfl
  simp only [Invocation.program, DclExecutor.clones_eq, LifecycleDclExecutor.clones_eq, if_true,
    DclExecutor.new, ← hcore]
  refine .map (.start ((runCatching_inert hinert (observes_executor finalizers false true 0)).mono
    fun x t y t' hx => ?_))
  exact ⟨x.1, y.1, rfl, rfl, hx⟩

/-- The lifecycle executor with callbacks that do nothing, against the basic one on the same
behaviour: the same ends, read as those of the basic executor, the same states and the
same calls. In the propagating pair a guard's panic may make them differ by the destructor
of the task's result. -/
theorem inert_agrees (finalizers : Finalizers) (clones clones' : ℕ) (hinert : Inert h) :
    (Admitted (run h (Invocation.basic false clones).program s).events →
      Admitted (run h (Invocation.lifecycle finalizers false false clones').program s).events →
      ∃ x y,
        (run h (Invocation.basic false clones).program s).result = .outcome x ∧
        (run h (Invocation.lifecycle finalizers false false clones').program s).result =
          .lifecycle y ∧
        y.map LifecycleOutcome.read = x.map some ∧
        StatesAlike h s x (run h (Invocation.basic false clones).program s).state
          (run h (Invocation.lifecycle finalizers false false clones').program s).state ∧
        (run h (Invocation.basic false clones).program s).events.filterMap shared =
          (run h (Invocation.lifecycle finalizers false false clones').program s).events.filterMap
            shared) ∧
    ∃ x y,
      (run h (Invocation.basic true clones).program s).result = .captured x ∧
      (run h (Invocation.lifecycle finalizers false true clones').program s).result =
        .lifecycleCaptured y ∧
      y.map CapturedLifecycleOutcome.read = x.map some ∧
      (run h (Invocation.basic true clones).program s).state =
        (run h (Invocation.lifecycle finalizers false true clones').program s).state ∧
      (run h (Invocation.basic true clones).program s).events.filterMap shared =
        (run h (Invocation.lifecycle finalizers false true clones').program s).events.filterMap
          shared := by
  constructor
  · intro hbasic hlifecycle
    have hc := run_programs_inert (s := s) finalizers clones clones' hinert
    obtain ⟨x, y, hx, hy, hxy⟩ := hc.ends
    rw [admitted_iff_exit, hx] at hbasic
    rw [admitted_iff_exit, hy] at hlifecycle
    obtain ⟨hread, hstate⟩ := hxy (fun ha => hbasic (ha ▸ rfl)) fun ha => hlifecycle (ha ▸ rfl)
    exact ⟨x, y, hx, hy, hread, hstate, hc.calls⟩
  · have hc := runCatching_programs_inert (s := s) finalizers clones clones' hinert
    obtain ⟨x, y, hx, hy, hread, hstate⟩ := hc.ends
    exact ⟨x, y, hx, hy, hread, hstate, hc.calls⟩

end Runs

def inertRelease : (o : Call Unit ℕ ℕ ℕ String) → ℕ → o.Answer × ℕ
  | .predicate, n => (.ret true, n + 1)
  | .prepare, n => (.ret (.ok ()), n)
  | .lock, n => (.ret (), n + 1)
  | .dropGuard _, n => (.panic "release", n + 1)
  | .task, n => (.ret (.ok 1), n + 1)
  | .taskWithToken token, n => ((.ret (.ok 1), token), n + 1)
  | .dropTask _, n => (.ret (), n + 1)
  | .commit _, n => (.ret (.ok ()), n)
  | .rollback _ _, n => (.ret (.ok ()), n)
  | .dropToken _ _, n => (.ret (), n)
  | .discard _ _, n => (.ret (), n)

theorem inert_agrees_inertRelease :
    ∃ x y,
      (run inertRelease (Invocation.basic false 0).program 0).result = .outcome x ∧
      (run inertRelease (Invocation.lifecycle .rollbackOnly false false 1).program 0).result =
        .lifecycle y ∧
      y.map LifecycleOutcome.read = x.map some ∧
      (run inertRelease (Invocation.basic false 0).program 0).state =
        (run inertRelease (Invocation.lifecycle .rollbackOnly false false 1).program 0).state ∧
      (run inertRelease (Invocation.basic false 0).program 0).events.filterMap shared =
        (run inertRelease (Invocation.lifecycle .rollbackOnly false false 1).program
          0).events.filterMap shared := by
  have hinert : Inert inertRelease := ⟨fun _ => rfl, fun _ => rfl, fun _ _ => rfl, fun _ _ => rfl⟩
  obtain ⟨x, y, hx, hy, hread, hstate, hcalls⟩ :=
    (inert_agrees (s := 0) .rollbackOnly 0 1 hinert).1 (admitted_iff_exit.mpr nofun)
      (admitted_iff_exit.mpr nofun)
  exact ⟨x, y, hx, hy, hread, hstate.eq fun _ => rfl, hcalls⟩

end DoubleChecked
