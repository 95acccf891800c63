import DoubleChecked.Effect.Coupling
import DoubleChecked.Containment

/-!
# The propagating and the capturing entry points agree

Both kinds of entry point are run from one state against one handler, which is any
behaviour of the callbacks, the lock and the destructors. What is compared are the
calls with their replies, the final states and the answers. The destructors of
discarded values are left out of the calls, and the destructor of an unstarted task
does not tell whether a panic is unwinding.
-/

namespace DoubleChecked
open Effect
open Effect.Routine (lift)
open Effect.Program (Coupled run)

variable {P R E C π σ : Type}

def observe : Event (Calls P R E C π) → Option (Event (Calls P R E C π))
  | ⟨.discard _ _, _⟩ => none
  | ⟨.dropTask _, r⟩ => some ⟨.dropTask false, r⟩
  | e => some e

/-- The destructor of an unstarted task does not observe whether a panic unwinds. -/
def DropsTaskBlindly (h : (o : Call P R E C π) → σ → o.Answer × σ) : Prop :=
  ∀ s, h (.dropTask true) s = h (.dropTask false) s

def HidesDiscards {V : Type} (view : Event (Calls P R E C π) → Option V) : Prop :=
  ∀ mode v r, view ⟨.discard mode v, r⟩ = none

/-- Both checks hold and the task returns `result`; then the guard's destructor panics with
`p` and leaves `t`. -/
inductive ReleasePanics (h : (o : Call P R E C π) → σ → o.Answer × σ) (s : σ) (result : Except E R)
    (p : π) (t : σ) : Prop
  | intro (s₁ s₂ s₃ s₄ : σ) (admitted : h .predicate s = (.ret true, s₁))
      (locked : h .lock s₁ = (.ret (), s₂)) (met : h .predicate s₂ = (.ret true, s₃))
      (ran : h .task s₃ = (.ret result, s₄)) (panicked : h (.dropGuard false) s₄ = (.panic p, t))

/-- How a propagating and a capturing call from `s` end alike. In the last case the
propagating call leaks the task's result and the capturing one drops it in the unwind. -/
inductive EndAlike (h : (o : Call P R E C π) → σ → o.Answer × σ) (s : σ) {α : Type} :
    Exit π α → σ → Exit π (Except (PanicInfo π) α) → σ → Prop
  | returned (a : α) (t : σ) : EndAlike h s (.ret a) t (.ret (.ok a)) t
  | unwound (p : π) (info : PanicInfo π) (t : σ) : info.payload = some p →
      EndAlike h s (.unwind p) t (.ret (.error info)) t
  | discarded (result : Except E R) (p : π) (info : PanicInfo π) (t t' : σ)
      (y : Exit π (Except (PanicInfo π) α)) : ReleasePanics h s result p t →
      info.payload = some p → t' = (h (.discard .unwinding (.ofResult result)) t).2 →
      y = (if (h (.discard .unwinding (.ofResult result)) t).1.panicked then .abort
        else .ret (.error info)) →
      EndAlike h s (.unwind p) t y t'

section Basic
variable [PanicPayload π] {h : (o : Call P R E C π) → σ → o.Answer × σ} {s : σ}
  {core : DclCore (Calls P R E C π) π} {V : Type} {view : Event (Calls P R E C π) → Option V}

omit [PanicPayload π] in
theorem discard_coupled (hview : HidesDiscards view) {α : Type} {result : Except E R} {p : π}
    {info : PanicInfo π} {t : σ} (hrelease : ReleasePanics h s result p t)
    (hp : info.payload = some p)
    {k : Reply π Unit → Program (Calls P R E C π) (Exit π (Except (PanicInfo π) α) × Unit)}
    (hret : ∀ u, k (.ret u) = .pure (.ret (.error info), ()))
    (hpanic : ∀ q, k (.panic q) = .pure (.abort, ())) :
    Coupled h view (.pure (.unwind p, ())) (.call (.discard .unwinding (.ofResult result)) k) t t
      (fun x t y t' => x.1 ≠ .abort → EndAlike h s x.1 t y.1 t') := by
  refine .call_right (hview _ _) fun r t' hr => ?_
  have ht' : t' = (h (.discard .unwinding (.ofResult result)) t).2 := (congrArg Prod.snd hr).symm
  cases r with
  | ret u =>
    rw [hret]
    exact .pure fun _ => .discarded result p info t t' _ hrelease hp ht' (by rw [hr]; rfl)
  | panic q =>
    rw [hpanic]
    exact .pure fun _ => .discarded result p info t t' _ hrelease hp ht' (by rw [hr]; rfl)

theorem executeLocked_coupled {s₀ : σ} (hview : HidesDiscards view)
    (hcore : core.predicate = Calls.predicate) (h₀ : h .predicate s₀ = (.ret true, s)) :
    Coupled h view (core.executeLocked Calls.lock Calls.task ())
      (core.executeLockedCatching Calls.lock Calls.task ()) s s
      (fun x t y t' => x.1 ≠ .abort → EndAlike h s₀ x.1 t y.1 t') := by
  unfold DclCore.executeLocked DclCore.executeLockedCatching
  rw [hcore]
  refine .call fun locked s₁ h₁ => ?_
  cases locked with
  | panic p =>
    refine .call fun dropped s₂ _ => ?_
    cases dropped with
    | panic p' => exact .pure fun ha => absurd rfl ha
    | ret u => exact .pure fun _ => .unwound p _ _ rfl
  | ret u =>
  refine .call fun met s₂ h₂ => ?_
  rcases met with (_ | _) | p
  · refine .call fun released s₃ _ => ?_
    cases released with
    | panic p =>
      refine .call fun dropped s₄ _ => ?_
      cases dropped with
      | panic p' => exact .pure fun ha => absurd rfl ha
      | ret u => exact .pure fun _ => .unwound p _ _ rfl
    | ret u =>
      refine .call fun dropped s₄ _ => ?_
      cases dropped with
      | panic p => exact .pure fun _ => .unwound p _ _ rfl
      | ret u => exact .pure fun _ => .returned _ _
  · refine .call fun ran s₃ h₃ => ?_
    cases ran with
    | panic p =>
      refine .call fun released s₄ _ => ?_
      cases released with
      | panic p' => exact .pure fun ha => absurd rfl ha
      | ret u => exact .pure fun _ => .unwound p _ _ rfl
    | ret result =>
      refine .call fun released s₄ h₄ => ?_
      cases released with
      | ret u => exact .pure fun _ => .returned _ _
      | panic p =>
        have hrelease : ReleasePanics h s₀ result p s₄ := .intro s s₁ s₂ s₃ h₀ h₁ h₂ h₃ h₄
        rcases result with error | value
        · exact discard_coupled hview hrelease rfl (fun _ => rfl) fun _ => rfl
        · exact discard_coupled hview hrelease rfl (fun _ => rfl) fun _ => rfl
  · refine .call fun released s₃ _ => ?_
    cases released with
    | panic p' => exact .pure fun ha => absurd rfl ha
    | ret u =>
      refine .call fun dropped s₄ _ => ?_
      cases dropped with
      | panic p' => exact .pure fun ha => absurd rfl ha
      | ret u => exact .pure fun _ => .unwound p _ _ rfl

omit [PanicPayload π] in
theorem EndAlike.map {α β : Type} {x : Exit π α} {t t' : σ}
    {y : Exit π (Except (PanicInfo π) α)} (f : α → β) (hx : EndAlike h s x t y t') :
    EndAlike h s (x.map f) t (y.map (Except.map f)) t' := by
  cases hx with
  | returned a _ => exact .returned _ _
  | unwound p info _ hp => exact .unwound p info _ hp
  | discarded result p info _ _ _ hrelease hp ht hy =>
    refine .discarded result p info _ _ _ hrelease hp ht ?_
    rw [hy]
    split <;> rfl

omit [PanicPayload π] in
theorem dropTask_coupled {α β : Type} (hblind : DropsTaskBlindly h) {u u' : Bool}
    {k : Reply π Unit → Program (Calls P R E C π) α}
    {k' : Reply π Unit → Program (Calls P R E C π) β}
    {post : α → σ → β → σ → Prop} (hk : ∀ r t, Coupled h observe (k r) (k' r) t t post) :
    Coupled h observe (.call (.dropTask u) k) (.call (.dropTask u') k') s s post := by
  have hu (w : Bool) : h (.dropTask w) s = h (.dropTask false) s := by
    cases w with
    | true => exact hblind s
    | false => rfl
  have hs : h (.dropTask u) s = h (.dropTask u') s := (hu u).trans (hu u').symm
  have hv : observe ⟨.dropTask u, (h (.dropTask u) s).1⟩ =
      observe ⟨.dropTask u', (h (.dropTask u') s).1⟩ :=
    congrArg (fun x : Reply π Unit × σ =>
      some (⟨.dropTask false, x.1⟩ : Event (Calls P R E C π))) hs
  refine .calls_alike hv ?_
  rw [hs]
  exact hk _ _

theorem run_coupled (hblind : DropsTaskBlindly h) (hcore : core.predicate = Calls.predicate) :
    Coupled h observe ((DclExecutor.mk core).run Calls.lock Calls.task ())
      ((DclExecutor.mk core).runCatching Calls.lock Calls.task ()) s s
      (fun x t y t' => x.1 ≠ .abort → EndAlike h s x.1 t y.1 t') := by
  unfold DclExecutor.run DclExecutor.runCatching DclCore.checkInitialCatching DclCore.checkInitial
  rw [hcore]
  refine .call fun admitted s₁ h₁ => ?_
  rcases admitted with (_ | _) | p
  · refine .call fun dropped s₂ _ => ?_
    cases dropped with
    | ret u => exact .pure fun _ => .returned _ _
    | panic p => exact .pure fun _ => .unwound p _ _ rfl
  · change Coupled h observe (Program.bind (core.executeLocked Calls.lock Calls.task ()) _)
      (Program.bind (core.executeLockedCatching Calls.lock Calls.task ()) _) _ _ _
    refine .bind (executeLocked_coupled (fun _ _ _ => rfl) hcore h₁) ?_
    intro a t b t' hx
    obtain ⟨x, ⟨⟩⟩ := a
    obtain ⟨y, ⟨⟩⟩ := b
    refine .pure_of (a := (x.map LockedExecution.intoOutcome, ()))
      (b := (y.map (Except.map LockedExecution.intoOutcome), ())) ?_ ?_
      (fun ha => (hx fun hn => ha (congrArg (Exit.map _) hn)).map _)
    · cases x <;> rfl
    · rcases y with (_ | _) | _ | _ <;> rfl
  · refine dropTask_coupled hblind fun dropped s₂ => ?_
    cases dropped with
    | ret u => exact .pure fun _ => .unwound p _ _ rfl
    | panic q =>
      refine .call_right (fun _ => rfl) fun r t _ => ?_
      cases r with
      | ret u => exact .pure fun ha => absurd rfl ha
      | panic q' => exact .pure fun ha => absurd rfl ha

/-- `DclExecutor::run` and `DclExecutor::run_catching`, on any clones, from one state: the
same calls, with the guard dropped during an unwind in one exactly when in the other, the
same state, and `Ok` and `Err` for a return and an unwind. Only where the guard's destructor
panics on the task's result does `run_catching` run the destructor of that result besides,
and abort if it panics in that unwind. -/
theorem run_agrees (clones clones' : ℕ) (hblind : DropsTaskBlindly h)
    (hrun : (run h (Invocation.basic false clones).program s).result ≠ .outcome .abort) :
    ∃ x y,
      (run h (Invocation.basic false clones).program s).result = .outcome x ∧
      (run h (Invocation.basic true clones').program s).result = .captured y ∧
      EndAlike h s x (run h (Invocation.basic false clones).program s).state
        y (run h (Invocation.basic true clones').program s).state ∧
      (run h (Invocation.basic false clones).program s).events.filterMap observe =
        (run h (Invocation.basic true clones').program s).events.filterMap observe := by
  have hc : Coupled h observe (Invocation.basic false clones).program
      (Invocation.basic true clones').program s s (fun a t b t' => ∃ x y, a = .outcome x ∧
        b = .captured y ∧ (x ≠ .abort → EndAlike h s x t y t')) := by
    simp only [Invocation.program, DclExecutor.clones_eq, Bool.false_eq_true, if_false, if_true]
    refine .map (.start ((run_coupled hblind rfl).mono fun x t y t' hx => ?_))
    exact ⟨x.1, y.1, rfl, rfl, hx⟩
  obtain ⟨x, y, hx, hy, hxy⟩ := hc.ends
  exact ⟨x, y, hx, hy, hxy fun ha => hrun (hx.trans (congrArg _ ha)), hc.calls⟩

end Basic

def releasePanics : (o : Call ℕ ℕ ℕ ℕ String) → ℕ → o.Answer × ℕ
  | .dropGuard _, n => (.panic "release", n + 1)
  | o, n => (o.quiet, n + 1)

theorem run_agrees_releasePanics :
    ∃ x y, (run releasePanics (Invocation.basic false 0).program 0).result = .outcome x ∧
      (run releasePanics (Invocation.basic true 1).program 0).result = .captured y ∧
      EndAlike releasePanics 0 x (run releasePanics (Invocation.basic false 0).program 0).state
        y (run releasePanics (Invocation.basic true 1).program 0).state ∧
      (run releasePanics (Invocation.basic false 0).program 0).events.filterMap observe =
        (run releasePanics (Invocation.basic true 1).program 0).events.filterMap observe :=
  run_agrees 0 1 (fun _ => rfl) nofun

def PanicInfo.exit [PanicPayload π] {α : Type} (self : PanicInfo π) : Exit π α :=
  .unwind (self.payload.getD
    (PanicPayload.expectFailed "PanicInfo payload must exist before it is consumed"))

def CapturedFinalizationOutcome.erase [PanicPayload π] :
    CapturedFinalizationOutcome C π → Exit π (FinalizationOutcome C)
  | .notRequired => .ret .notRequired
  | .succeeded => .ret .succeeded
  | .failed error => .ret (.failed error)
  | .panicked panic => panic.exit

/-- The captured outcome as the propagating entry point would end. -/
def CapturedLifecycleOutcome.erase [PanicPayload π] :
    CapturedLifecycleOutcome R E C π → Exit π (LifecycleOutcome R E C)
  | .initialConditionNotMet => .ret .initialConditionNotMet
  | .initialConditionCheckPanicked panic => panic.exit
  | .taskCleanupPanicked panic => panic.exit
  | .prepareFailed error => .ret (.prepareFailed error)
  | .preparePanicked panic => panic.exit
  | .taskSucceeded value commit => commit.erase.map (.taskSucceeded value)
  | .secondConditionNotMet rollback => rollback.erase.map .secondConditionNotMet
  | .taskFailed error rollback => rollback.erase.map (.taskFailed error)
  | .executionPanicked panic _ => panic.exit

def CapturedFinalizationOutcome.unwindPast (h : (o : Call P R E C π) → σ → o.Answer × σ)
    (v : Discarded R E C π) : CapturedFinalizationOutcome C π → σ → σ
  | .panicked _, t => (h (.discard .unwinding v) t).2
  | _, t => t

def CapturedFinalizationOutcome.discard (h : (o : Call P R E C π) → σ → o.Answer × σ) :
    CapturedFinalizationOutcome C π → σ → σ
  | .failed c, t => match h (.discard .scope (.callbackError c)) t with
    | (.ret _, t') => t'
    | (.panic q, t') => (h (.discard .scope (.payload q)) t').2
  | .panicked info, t => match info.payload with
    | some p => (h (.discard .scope (.payload p)) t).2
    | none => t
  | _, t => t

/-- The destructors of what the capturing call carries in its answer and the propagating
call, which unwinds, does not. -/
def CapturedLifecycleOutcome.discard (h : (o : Call P R E C π) → σ → o.Answer × σ) :
    CapturedLifecycleOutcome R E C π → σ → σ
  | .taskSucceeded value commit, t => commit.unwindPast h (.value value) t
  | .taskFailed error rollback, t => rollback.unwindPast h (.error error) t
  | .executionPanicked _ rollback, t => rollback.discard h t
  | _, t => t

/-- Prepare returns the error `c`, and the destructor of the unstarted task panics. -/
structure CleanupPanics (h : (o : Call P R E C π) → σ → o.Answer × σ) (s : σ) (c : C) (q : π) :
    Prop where
  admitted : (h .predicate s).1 = .ret true
  failed : (h .prepare (h .predicate s).2).1 = .ret (.error c)
  panicked : (h (.dropTask false) (h .prepare (h .predicate s).2).2).1 = .panic q

section Lifecycle
variable [PanicPayload π] {h : (o : Call P R E C π) → σ → o.Answer × σ} {s t : σ} {τ : Type} {u : τ}
  {i : Invocation} {executor : LifecycleDclExecutor (Calls P R E C π) π P E C} {token : P}

def FinalizedAlike (u : τ) : Exit π (FinalizationOutcome C) × τ → σ →
    Exit π (CapturedFinalizationOutcome C π) × τ → σ → Prop := fun x t y t' =>
  t = t' ∧ ∃ f : CapturedFinalizationOutcome C π, x = (f.erase, u) ∧ y = (.ret f, u)

theorem finalizeCommit_coupled (hex : Observes i executor) :
    Coupled h observe (finalizeCommit executor.commit token u)
      (finalizeCommitCatching executor.commit token u) s s (FinalizedAlike u) := by
  rw [hex.commit]
  cases i.hasCommit with
  | true =>
    refine .call fun r t _ => ?_
    rcases r with (c | ⟨⟨⟩⟩) | p
    · exact .pure ⟨rfl, .failed c, rfl, rfl⟩
    · exact .pure ⟨rfl, .succeeded, rfl, rfl⟩
    · exact .pure ⟨rfl, .panicked (.fromPayload .commit p), rfl, rfl⟩
  | false =>
    refine .call fun r t _ => ?_
    rcases r with ⟨⟨⟩⟩ | p
    · exact .pure ⟨rfl, .notRequired, rfl, rfl⟩
    · exact .pure ⟨rfl, .panicked (.fromPayload .commit p), rfl, rfl⟩

theorem finalizeRollback_coupled (hex : Observes i executor) {cause : RollbackCause E π} :
    Coupled h observe (finalizeRollback executor.rollback token cause u)
      (finalizeRollbackCatching executor.rollback token cause u) s s (FinalizedAlike u) := by
  rw [hex.rollback]
  cases i.hasRollback with
  | true =>
    refine .call fun r t _ => ?_
    rcases r with (c | ⟨⟨⟩⟩) | p
    · exact .pure ⟨rfl, .failed c, rfl, rfl⟩
    · exact .pure ⟨rfl, .succeeded, rfl, rfl⟩
    · exact .pure ⟨rfl, .panicked (.fromPayload .rollback p), rfl, rfl⟩
  | false =>
    refine .call fun r t _ => ?_
    rcases r with ⟨⟨⟩⟩ | p
    · exact .pure ⟨rfl, .notRequired, rfl, rfl⟩
    · exact .pure ⟨rfl, .panicked (.fromPayload .rollback p), rfl, rfl⟩

def Agree (h : (o : Call P R E C π) → σ → o.Answer × σ) : Exit π (LifecycleOutcome R E C) × τ → σ →
    Exit π (CapturedLifecycleOutcome R E C π) × τ → σ → Prop := fun x t y t' =>
  x.1 ≠ .abort → ∃ o : CapturedLifecycleOutcome R E C π,
    y.1 = .ret o ∧ x.1 = o.erase ∧ t = o.discard h t'

theorem finish_coupled {finish : Routine (Calls P R E C π) π τ (FinalizationOutcome C)}
    {finish' : Routine (Calls P R E C π) π τ (CapturedFinalizationOutcome C π)}
    (hf : Coupled h observe (finish u) (finish' u) s s (FinalizedAlike u))
    {drop : Routine (Calls P R E C π) π τ Unit} {g : FinalizationOutcome C → LifecycleOutcome R E C}
    {g' : CapturedFinalizationOutcome C π → CapturedLifecycleOutcome R E C π}
    (hd : drop = pure () ∧ (∀ f t, (g' f).discard h t = t) ∨
      ∃ v, drop = Calls.discard .unwinding v ∧ ∀ f t, (g' f).discard h t = f.unwindPast h v t)
    (hg : ∀ f, (g' f).erase = f.erase.map g) :
    Coupled h observe ((do return g (← finish.onUnwind drop)) u) ((do return g' (← finish')) u)
      s s (Agree h) := by
  change Coupled h observe (Program.bind (Program.bind (finish u) _) _)
    (Program.bind (finish' u) _) s s _
  rw [Program.bind_assoc]
  refine .bind hf ?_
  intro a t b t' hab
  obtain ⟨rfl, f, rfl, rfl⟩ := hab
  have hend {t' : σ} (ht : t' = (g' f).discard h t) {x : Exit π (LifecycleOutcome R E C)}
      (hx : f.erase.map g = x) : Agree h (x, u) t' (.ret (g' f), u) t :=
    fun _ => ⟨g' f, rfl, hx.symm.trans (hg f).symm, ht⟩
  have hquiet (hf : ∀ v, f.unwindPast h v t = t) : t = (g' f).discard h t := by
    obtain ⟨-, hd⟩ | ⟨v, -, hd⟩ := hd
    · exact (hd f t).symm
    · exact ((hd f t).trans (hf v)).symm
  cases f with
  | notRequired => exact .pure (hend (hquiet fun _ => rfl) rfl)
  | succeeded => exact .pure (hend (hquiet fun _ => rfl) rfl)
  | failed error => exact .pure (hend (hquiet fun _ => rfl) rfl)
  | panicked panic =>
    obtain ⟨rfl, hd⟩ | ⟨v, rfl, hd⟩ := hd
    · exact .pure (hend (hd (.panicked panic) t).symm rfl)
    · refine .call_left (fun _ => rfl) fun r t' hr => ?_
      cases r with
      | panic q => exact .pure fun ha => absurd rfl ha
      | ret w =>
        have ht' : (h (.discard .unwinding v) t).2 = t' := congrArg Prod.snd hr
        exact .pure (hend (ht'.symm.trans (hd (.panicked panic) t).symm) rfl)

def DisposedAlike (h : (o : Call P R E C π) → σ → o.Answer × σ) (u : τ) : Exit π Unit × τ → σ →
    Exit π (CapturedFinalizationOutcome C π) × τ → σ → Prop := fun x t y t' =>
  x = (.ret (), u) ∧ ∃ f, y = (.ret f, u) ∧ t = f.discard h t'

omit [PanicPayload π] in
theorem discardPayload_coupled {f : CapturedFinalizationOutcome C π}
    {k : Reply π Unit → Program (Calls P R E C π) (Exit π Unit × τ)}
    (hk : ∀ r, k r = .pure (.ret (), u)) {p : π}
    (ht : (h (.discard .scope (.payload p)) s).2 = f.discard h t) :
    Coupled h observe (.call (.discard .scope (.payload p)) k) (.pure (.ret f, u)) s t
      (DisposedAlike h u) := by
  refine .call_left (fun _ => rfl) fun r t' hr => ?_
  rw [hk]
  exact .pure ⟨rfl, f, rfl, (congrArg Prod.snd hr).symm.trans ht⟩

theorem discardRollback_coupled {cause : RollbackCause E π} :
    Coupled h observe
      (LifecycleDclExecutor.discardSecondary (do
        let result ← lift (Calls.rollback token cause)
        Drop.drop .scope result) u)
      (finalizeRollbackCatching (some Calls.rollback) token cause u) s s (DisposedAlike h u) := by
  refine .call fun r t _ => ?_
  rcases r with (c | ⟨⟨⟩⟩) | p
  · refine .call_left (fun _ => rfl) fun r t' hr => ?_
    cases r with
    | ret w => exact .pure ⟨rfl, .failed c, rfl, by rw [CapturedFinalizationOutcome.discard, hr]⟩
    | panic p =>
      refine discardPayload_coupled ?_ (by rw [CapturedFinalizationOutcome.discard, hr])
      intro r
      cases r <;> rfl
  · exact .pure ⟨rfl, _, rfl, rfl⟩
  · refine discardPayload_coupled ?_ rfl
    intro r
    cases r <;> rfl

theorem discardToken_coupled {cause : RollbackCause E π} :
    Coupled h observe (LifecycleDclExecutor.discardSecondary (Drop.drop .scope token) u)
      (finalizeRollbackCatching (none : Option (RollbackCallback (Calls P R E C π) π P E C)) token
        cause u) s s (DisposedAlike h u) := by
  refine .call fun r t _ => ?_
  rcases r with ⟨⟨⟩⟩ | p
  · exact .pure ⟨rfl, _, rfl, rfl⟩
  · refine discardPayload_coupled ?_ rfl
    intro r
    cases r <;> rfl

theorem resumeUnwind_apply {α : Type} (panic : PanicInfo π) :
    (panic.resumeUnwind : Routine (Calls P R E C π) π τ α) u = .pure (panic.exit, u) := by
  obtain ⟨phase, message, _ | payload⟩ := panic <;> rfl

theorem resume_coupled {dispose : Routine (Calls P R E C π) π τ Unit}
    {finish : Routine (Calls P R E C π) π τ (CapturedFinalizationOutcome C π)} {panic : PanicInfo π}
    (hd : Coupled h observe (dispose u) (finish u) s s (DisposedAlike h u)) :
    Coupled h observe
      ((do dispose; panic.resumeUnwind : Routine (Calls P R E C π) π τ (LifecycleOutcome R E C)) u)
      ((do return CapturedLifecycleOutcome.executionPanicked panic (← finish)) u) s s
      (Agree h) := by
  change Coupled h observe (Program.bind (dispose u) _) (Program.bind (finish u) _) s s _
  refine .bind hd ?_
  intro a t b t' hab
  obtain ⟨rfl, f, rfl, ht⟩ := hab
  exact .pure_of (resumeUnwind_apply panic) rfl fun _ => ⟨_, rfl, rfl, ht⟩

theorem rollbackThenResume_coupled (hex : Observes i executor) {panic : PanicInfo π} :
    Coupled h observe (executor.rollbackThenResume (α := LifecycleOutcome R E C) token panic u)
      (executor.finishRollbackCatching (R := R) token (.panicked panic) u) s s (Agree h) := by
  unfold LifecycleDclExecutor.rollbackThenResume LifecycleDclExecutor.finishRollbackCatching
  rw [hex.rollback]
  cases i.hasRollback with
  | true => exact resume_coupled discardRollback_coupled
  | false => exact resume_coupled discardToken_coupled

/-- How the two entry points end: alike, except where prepare fails and the destructor of
the unstarted task panics. Then the propagating call leaks the error of prepare and unwinds
with that panic, and the capturing one returns the error and drops the payload. -/
def LifecycleAlike (h : (o : Call P R E C π) → σ → o.Answer × σ) (s : σ)
    (x : Exit π (LifecycleOutcome R E C)) (t : σ) (o : CapturedLifecycleOutcome R E C π) (t' : σ) :
    Prop :=
  (∀ c q, CleanupPanics h s c q → x = .unwind q ∧ o = .prepareFailed c ∧
    t' = (h (.discard .scope (.payload q)) t).2) ∧
    ((∀ c q, ¬CleanupPanics h s c q) → x = o.erase ∧ t = o.discard h t')

theorem LifecycleAlike.agree {x : Exit π (LifecycleOutcome R E C)} {t t' : σ}
    {o : CapturedLifecycleOutcome R E C π} (hn : ∀ c q, ¬CleanupPanics h s c q)
    (hx : x = o.erase) (ht : t = o.discard h t') : LifecycleAlike h s x t o t' :=
  ⟨fun c q hc => absurd hc (hn c q), fun _ => ⟨hx, ht⟩⟩

theorem skip_coupled (hblind : DropsTaskBlindly h) {s₀ : σ} (hn : ∀ c q, ¬CleanupPanics h s₀ c q)
    {o : CapturedLifecycleOutcome R E C π} {p : π} (ho : o.erase = .unwind p)
    (hquiet : ∀ t, o.discard h t = t)
    {k : Reply π Unit → Program (Calls P R E C π) (Exit π (LifecycleOutcome R E C) × Unit)}
    {k' : Reply π Unit →
      Program (Calls P R E C π) (Exit π (CapturedLifecycleOutcome R E C π) × Unit)}
    (hret : ∀ u, k (.ret u) = .pure (.unwind p, ()))
    (hpanic : ∀ q, k (.panic q) = .pure (.abort, ()))
    (hret' : ∀ u, k' (.ret u) = .pure (.ret o, ()))
    (hpanic' : ∀ q, ∃ k₁ : Reply π Unit → Program (Calls P R E C π) _,
      k' (.panic q) = .call (.discard .scope (.payload q)) k₁ ∧ ∀ r, k₁ r = .pure (.ret o, ())) :
    Coupled h observe (.call (.dropTask true) k) (.call (.dropTask false) k') s s
      (fun x t y t' => x.1 ≠ .abort → ∃ o, y.1 = .ret o ∧ LifecycleAlike h s₀ x.1 t o t') := by
  refine dropTask_coupled hblind fun dropped t => ?_
  cases dropped with
  | ret u => exact .pure_of (hret u) (hret' u) fun _ => ⟨o, rfl, .agree hn ho.symm (hquiet t).symm⟩
  | panic q =>
    obtain ⟨k₁, hk, hk₁⟩ := hpanic' q
    rw [hpanic, hk]
    refine .call_right (fun _ => rfl) fun r t' _ => ?_
    exact .pure_of rfl (hk₁ r) fun ha => absurd rfl ha

theorem lockedPhase_coupled {s₀ : σ} (hn : ∀ c q, ¬CleanupPanics h s₀ c q)
    {core : DclCore (Calls P R E C π) π} {task : FnOnce (Calls P R E C π) π P (Except E R)}
    {k : Except (PanicInfo π) (LockedExecution R E) →
      Routine (Calls P R E C π) π (Unit × P) (LifecycleOutcome R E C)}
    {k' : Except (PanicInfo π) (LockedExecution R E) →
      Routine (Calls P R E C π) π (Unit × P) (CapturedLifecycleOutcome R E C π)}
    (hk : ∀ locked u t, Coupled h observe (k locked u) (k' locked u) t t (Agree h)) :
    Coupled h observe
      (Routine.withCell token (do
        k (← core.executeLockedCatching Calls.lock (LifecycleDclExecutor.lendToken task))) ())
      (Routine.withCell token (do
        k' (← core.executeLockedCatching Calls.lock (LifecycleDclExecutor.lendToken task))) ()) s s
      (fun x t y t' => x.1 ≠ .abort → ∃ o, y.1 = .ret o ∧ LifecycleAlike h s₀ x.1 t o t') := by
  refine .map ?_
  change Coupled h observe (Program.bind (core.executeLockedCatching Calls.lock
    (LifecycleDclExecutor.lendToken task) ((), token)) _)
    (Program.bind (core.executeLockedCatching Calls.lock
      (LifecycleDclExecutor.lendToken task) ((), token)) _) s s _
  refine .same fun x t hx => ?_
  obtain ⟨x, u⟩ := x
  cases x with
  | ret locked =>
    refine (hk locked u t).mono fun x t y t' ha hx => ?_
    obtain ⟨o, hy, hxo, ht⟩ := ha hx
    exact ⟨o, hy, .agree hn hxo ht⟩
  | unwind p =>
    exact absurd (congrArg Prod.fst hx).symm
      (contained_executeLockedCatching core Calls.lock _ _ h _ _ p)
  | abort => exact .pure fun ha => absurd rfl ha

theorem runWithToken_coupled (hblind : DropsTaskBlindly h) (hex : Observes i executor)
    {task : FnOnce (Calls P R E C π) π P (Except E R)}
    (htask : task.drop = (Calls.task (P := P) (R := R) (E := E) (C := C) (π := π)).drop) :
    Coupled h observe (executor.runWithToken Calls.lock task ())
      (executor.runWithTokenCatching Calls.lock task ()) s s
      (fun x t y t' => x.1 ≠ .abort → ∃ o, y.1 = .ret o ∧ LifecycleAlike h s x.1 t o t') := by
  unfold LifecycleDclExecutor.runWithToken LifecycleDclExecutor.runWithTokenCatching
    DclCore.checkInitialCatching DclCore.checkInitial dropTaskCatching
  rw [hex.predicate, hex.prepare, htask]
  refine .call fun admitted s₁ h₁ => ?_
  have hrejected (hr : admitted ≠ .ret true) (c : C) (q : π) : ¬CleanupPanics h s c q :=
    fun hc => hr ((congrArg Prod.fst h₁).symm.trans hc.admitted)
  rcases admitted with (_ | _) | p
  · refine .call fun dropped s₂ _ => ?_
    cases dropped with
    | ret u => exact .pure fun _ => ⟨_, rfl, .agree (hrejected nofun) rfl rfl⟩
    | panic p => exact .pure fun _ => ⟨_, rfl, .agree (hrejected nofun) rfl rfl⟩
  · refine .call fun prepared s₂ h₂ => ?_
    have hprepared (hr : ∀ c, prepared ≠ .ret (.error c)) (c : C) (q : π) :
        ¬CleanupPanics h s c q := by
      intro hc
      have hf := hc.failed
      rw [h₁, h₂] at hf
      exact hr c hf
    rcases prepared with (c | token) | p
    · refine .call fun dropped s₃ h₃ => ?_
      have hcleanup (c' : C) (q' : π) (hc : CleanupPanics h s c' q') :
          c = c' ∧ dropped = .panic q' := by
        have hf := hc.failed
        have hq := hc.panicked
        rw [h₁, h₂] at hf
        rw [h₁, h₂, h₃] at hq
        cases hf
        exact ⟨rfl, hq⟩
      cases dropped with
      | ret u =>
        exact .pure fun _ => ⟨.prepareFailed c, rfl,
          .agree (fun c' q' hc => nomatch (hcleanup c' q' hc).2) rfl rfl⟩
      | panic q =>
        refine .call_right (fun _ => rfl) fun r t' hr => ?_
        have hx : LifecycleAlike h s (.unwind q) s₃ (.prepareFailed c) t' := by
          refine ⟨fun c' q' hc => ?_, fun hn => absurd ⟨?_, ?_, ?_⟩ (hn c q)⟩
          · obtain ⟨rfl, ⟨⟩⟩ := hcleanup c' q' hc
            exact ⟨rfl, rfl, (congrArg Prod.snd hr).symm⟩
          · rw [h₁]
          · rw [h₁, h₂]
          · rw [h₁, h₂, h₃]
        cases r <;> exact .pure fun _ => ⟨_, rfl, hx⟩
    · refine lockedPhase_coupled (hprepared nofun) fun locked u t => ?_
      rcases locked with panic | (_ | (error | value))
      · exact rollbackThenResume_coupled hex
      · exact finish_coupled (finalizeRollback_coupled hex) (.inl ⟨rfl, fun _ _ => rfl⟩)
          fun f => rfl
      · exact finish_coupled (finalizeRollback_coupled hex) (.inr ⟨_, rfl, fun _ _ => rfl⟩)
          fun f => rfl
      · exact finish_coupled (finalizeCommit_coupled hex) (.inr ⟨_, rfl, fun _ _ => rfl⟩)
          fun f => rfl
    · refine skip_coupled hblind (hprepared nofun) (o := .preparePanicked (.fromPayload _ p)) rfl
        (fun _ => rfl) (fun _ => rfl) (fun _ => rfl) (fun _ => rfl) (fun _ => ⟨_, rfl, ?_⟩)
      intro r
      cases r <;> rfl
  · refine skip_coupled hblind (hrejected nofun)
      (o := .initialConditionCheckPanicked (.fromPayload _ p)) rfl
      (fun _ => rfl) (fun _ => rfl) (fun _ => rfl) (fun _ => rfl) (fun _ => ⟨_, rfl, ?_⟩)
    intro r
    cases r <;> rfl

/-- The two lifecycle entry points on one behaviour, for a task with or without the token
and on any clones, from one state: the same calls, and the same ends and states, the
destructors of what only the capturing call returns apart, but for the one exception. -/
theorem runWithToken_agrees (finalizers : Finalizers) (withToken : Bool) (clones clones' : ℕ)
    (hblind : DropsTaskBlindly h)
    (hrun : (run h (Invocation.lifecycle finalizers withToken false clones).program s).result ≠
      .lifecycle .abort) :
    ∃ x o,
      (run h (Invocation.lifecycle finalizers withToken false clones).program s).result =
        .lifecycle x ∧
      (run h (Invocation.lifecycle finalizers withToken true clones').program s).result =
        .lifecycleCaptured (.ret o) ∧
      LifecycleAlike h s
        x (run h (Invocation.lifecycle finalizers withToken false clones).program s).state
        o (run h (Invocation.lifecycle finalizers withToken true clones').program s).state ∧
      (run h (Invocation.lifecycle finalizers withToken false clones).program s).events.filterMap
        observe =
      (run h (Invocation.lifecycle finalizers withToken true clones').program s).events.filterMap
        observe := by
  have hex : Observes (.lifecycle finalizers withToken false 0) (finalizers.executor (P := P)
      (R := R) (E := E) (C := C) (π := π)) := observes_executor finalizers withToken false 0
  have hc : Coupled h observe (Invocation.lifecycle finalizers withToken false clones).program
      (Invocation.lifecycle finalizers withToken true clones').program s s
      (fun a t b t' => ∃ x y, a = .lifecycle x ∧ b = .lifecycleCaptured y ∧
        (x ≠ .abort → ∃ o, y = .ret o ∧ LifecycleAlike h s x t o t')) := by
    cases withToken with
    | false =>
      simp only [Invocation.program, LifecycleDclExecutor.clones_eq]
      exact .map (.start ((runWithToken_coupled hblind hex rfl).mono
        fun x t y t' hx => ⟨x.1, y.1, rfl, rfl, hx⟩))
    | true =>
      simp only [Invocation.program, LifecycleDclExecutor.clones_eq]
      exact .map (.start ((runWithToken_coupled hblind hex rfl).mono
        fun x t y t' hx => ⟨x.1, y.1, rfl, rfl, hx⟩))
  obtain ⟨x, y, hx, hy, hxy⟩ := hc.ends
  obtain ⟨o, rfl, ho⟩ := hxy fun ha => hrun (hx.trans (congrArg _ ha))
  exact ⟨x, o, hx, hy, ho, hc.calls⟩

end Lifecycle

def cleanupPanics : (o : Call ℕ ℕ ℕ ℕ String) → ℕ → o.Answer × ℕ
  | .prepare, n => (.ret (.error 2), n + 1)
  | .dropTask _, n => (.panic "task", n + 1)
  | o, n => (o.quiet, n + 1)

theorem runWithToken_agrees_cleanupPanics :
    ∃ x o, (run cleanupPanics (Invocation.lifecycle .commitOnly true false 0).program 0).result =
        .lifecycle x ∧
      (run cleanupPanics (Invocation.lifecycle .commitOnly true true 1).program 0).result =
        .lifecycleCaptured (.ret o) ∧
      LifecycleAlike cleanupPanics 0
        x (run cleanupPanics (Invocation.lifecycle .commitOnly true false 0).program 0).state
        o (run cleanupPanics (Invocation.lifecycle .commitOnly true true 1).program 0).state ∧
      (run cleanupPanics
          (Invocation.lifecycle .commitOnly true false 0).program 0).events.filterMap observe =
        (run cleanupPanics
          (Invocation.lifecycle .commitOnly true true 1).program 0).events.filterMap observe :=
  runWithToken_agrees .commitOnly true 0 1 (fun _ => rfl) nofun

end DoubleChecked
