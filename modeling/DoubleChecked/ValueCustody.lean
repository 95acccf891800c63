import DoubleChecked.Effect.Ledger
import DoubleChecked.Containment

/-!
# What becomes of results, errors and panic payloads

The replies hand values to an invocation: the task's result, the errors of the callbacks,
the payloads of panics. Each goes to the caller with the answer or to its destructor, once.
Two are lost to both: what the destructor of a payload panics with is forgotten, and what
waits in the return place of a propagating call is leaked when a destructor unwinds past it.
-/

namespace DoubleChecked
open Effect Effect.Routine
open Effect.Program (run)

variable {P R E C π τ α : Type}

def replyContents (contents : α → Multiset (Discarded R E C π)) :
    Reply π α → Multiset (Discarded R E C π)
  | .ret a => contents a
  | .panic p => {.payload p}

def taskContents (result : Except E R) : Multiset (Discarded R E C π) := {.ofResult result}

def callbackContents : Except C α → Multiset (Discarded R E C π)
  | .ok _ => 0
  | .error c => {.callbackError c}

namespace Call

def gives : (o : Call P R E C π) → o.Answer → Multiset (Discarded R E C π)
  | .prepare, r => replyContents callbackContents r
  | .task, r => replyContents taskContents r
  | .taskWithToken _, (r, _) => replyContents taskContents r
  | .commit _, r | .rollback _ _, r => replyContents callbackContents r
  | .predicate, r => replyContents (fun _ => 0) r
  | .lock, r | .dropGuard _, r | .dropTask _, r | .dropToken _ _, r | .discard _ _, r =>
    replyContents (fun _ => 0) r

def takes : Call P R E C π → Multiset (Discarded R E C π)
  | .discard _ v => {v}
  | _ => 0

/-- `mem::forget`: the payload of a panic out of a payload's destructor. -/
def forgets : (o : Call P R E C π) → o.Answer → Multiset (Discarded R E C π)
  | .discard _ (.payload _), .panic p => {.payload p}
  | _, _ => 0

def retains : (o : Call P R E C π) → o.Answer → Multiset (Discarded R E C π)
  | .discard _ (.payload _), _ => 0
  | o, r => o.gives r

theorem retains_add_forgets (o : Call P R E C π) (r : o.Answer) :
    o.retains r + o.forgets r = o.gives r := by
  cases o with
  | discard mode v =>
    cases v with
    | payload p =>
      cases r with
      | ret u => rfl
      | panic q => exact zero_add _
    | _ => exact add_zero _
  | _ => exact add_zero _

end Call

def valueLedger : Ledger (Calls P R E C π) (Discarded R E C π) where
  takes := Call.takes
  gives := Call.retains
  admits := Call.admits

def handedOver (es : List (CallEvent P R E C π)) : Multiset (Discarded R E C π) :=
  (es.map fun e => e.op.gives e.res).sum

def destroyed (es : List (CallEvent P R E C π)) : Multiset (Discarded R E C π) :=
  (es.map fun e => e.op.takes).sum

def forgotten (es : List (CallEvent P R E C π)) : Multiset (Discarded R E C π) :=
  (es.map fun e => e.op.forgets e.res).sum

/-- `DclExecutor::run` leaks the task's result when the guard's destructor panics, and
`LifecycleDclExecutor::run_with_token` the error of prepare when that of the task does. -/
def leaked : Invocation → List (CallEvent P R E C π) → Multiset (Discarded R E C π)
  | .basic false _, [⟨.predicate, _⟩, ⟨.lock, _⟩, ⟨.predicate, _⟩, ⟨.task, .ret result⟩,
      ⟨.dropGuard _, .panic _⟩] => taskContents result
  | .lifecycle _ _ false _, [⟨.predicate, _⟩, ⟨.prepare, .ret (.error c)⟩,
      ⟨.dropTask _, .panic _⟩] => {.callbackError c}
  | _, _ => 0

theorem received_add_forgotten (es : List (CallEvent P R E C π)) :
    valueLedger.received es + forgotten es = handedOver es := by
  induction es with
  | nil => rfl
  | cons e es ih =>
    have he : valueLedger.gives e.op e.res + e.op.forgets e.res = e.op.gives e.res :=
      e.op.retains_add_forgets e.res
    simp only [Ledger.received, forgotten, handedOver, List.map_cons, List.sum_cons] at ih ⊢
    rw [add_add_add_comm, he, ih]

def PanicInfo.contents (info : PanicInfo π) : Multiset (Discarded R E C π) :=
  match info.payload with
  | some p => {.payload p}
  | none => 0

def LockedExecution.contents : LockedExecution R E → Multiset (Discarded R E C π)
  | .conditionNotMet => 0
  | .task result => taskContents result

def ExecutionOutcome.contents : ExecutionOutcome R E → Multiset (Discarded R E C π)
  | .success value => {.value value}
  | .conditionNotMet => 0
  | .taskFailed error => {.error error}

def FinalizationOutcome.contents : FinalizationOutcome C → Multiset (Discarded R E C π)
  | .notRequired | .succeeded => 0
  | .failed c => {.callbackError c}

def CapturedFinalizationOutcome.contents :
    CapturedFinalizationOutcome C π → Multiset (Discarded R E C π)
  | .notRequired | .succeeded => 0
  | .failed c => {.callbackError c}
  | .panicked info => info.contents

def LifecycleOutcome.contents : LifecycleOutcome R E C → Multiset (Discarded R E C π)
  | .initialConditionNotMet => 0
  | .prepareFailed c => {.callbackError c}
  | .taskSucceeded value commit => commit.contents + {.value value}
  | .secondConditionNotMet rollback => rollback.contents
  | .taskFailed error rollback => rollback.contents + {.error error}

def CapturedLifecycleOutcome.contents :
    CapturedLifecycleOutcome R E C π → Multiset (Discarded R E C π)
  | .initialConditionNotMet => 0
  | .initialConditionCheckPanicked info | .taskCleanupPanicked info | .preparePanicked info =>
    info.contents
  | .prepareFailed c => {.callbackError c}
  | .taskSucceeded value commit => commit.contents + {.value value}
  | .secondConditionNotMet rollback => rollback.contents
  | .taskFailed error rollback => rollback.contents + {.error error}
  | .executionPanicked info rollback => rollback.contents + info.contents

def exceptContents (contents : α → Multiset (Discarded R E C π)) :
    Except (PanicInfo π) α → Multiset (Discarded R E C π)
  | .ok a => contents a
  | .error info => info.contents

def exitContents (contents : α → Multiset (Discarded R E C π)) :
    Exit π α → Multiset (Discarded R E C π)
  | .ret a => contents a
  | .unwind p => {.payload p}
  | .abort => 0

def Answer.contents : Answer R E C π → Multiset (Discarded R E C π)
  | .outcome x => exitContents ExecutionOutcome.contents x
  | .captured x => exitContents (exceptContents ExecutionOutcome.contents) x
  | .lifecycle x => exitContents LifecycleOutcome.contents x
  | .lifecycleCaptured x => exitContents CapturedLifecycleOutcome.contents x

/-- A routine whose panics hold their payload and nothing else. -/
abbrev Holds (m : Routine (Calls P R E C π) π τ α) (held : Multiset (Discarded R E C π))
    (ret : α → Multiset (Discarded R E C π)) : Prop :=
  m.Keeps valueLedger held ret fun p => some {.payload p}

abbrev Conserves (m : Routine (Calls P R E C π) π τ α) (held : Multiset (Discarded R E C π))
    (ret : α → Multiset (Discarded R E C π)) : Prop :=
  m.Keeps valueLedger held ret fun _ => none

abbrev Destroys (c : Routine (Calls P R E C π) π τ Unit)
    (held : Multiset (Discarded R E C π)) : Prop :=
  c.Clears valueLedger held

section Calls

theorem keeps_reply {o : Call P R E C π} {f : o.Answer → Reply π α} {g : Reply π α → o.Answer}
    (hg : ∀ r, g (f r) = r) (hf : ∀ r, f (g r) = r) {ret : α → Multiset (Discarded R E C π)}
    {unwind : π → Option (Multiset (Discarded R E C π))}
    (hret : ∀ a, o.retains (g (.ret a)) = ret a)
    (hpanic : ∀ p, o.admits (g (.panic p)) → unwind p = some (o.retains (g (.panic p)))) :
    (lift (.call (S := Calls P R E C π) o fun r => .pure (f r).exit) :
      Routine (Calls P R E C π) π τ α).Keeps valueLedger o.takes ret unwind :=
  keeps_call hg hf rfl hret hpanic

theorem holds_predicate : Holds (lift Calls.predicate : Routine (Calls P R E C π) π τ Bool) 0
    fun _ => 0 :=
  keeps_reply (o := .predicate) (f := id) (g := id) (fun _ => rfl) (fun _ => rfl) (fun _ => rfl)
    fun _ _ => rfl

theorem holds_prepare : Holds (lift Calls.prepare : Routine (Calls P R E C π) π τ (Except C P)) 0
    callbackContents :=
  keeps_reply (o := .prepare) (f := id) (g := id) (fun _ => rfl) (fun _ => rfl) (fun _ => rfl)
    fun _ _ => rfl

theorem holds_lock : Holds (lift Calls.lock.lock : Routine (Calls P R E C π) π τ Unit) 0
    fun _ => 0 :=
  keeps_reply (o := .lock) (f := id) (g := id) (fun _ => rfl) (fun _ => rfl) (fun _ => rfl)
    fun _ _ => rfl

theorem holds_dropGuard :
    Holds (lift (Calls.lock.dropGuard false) : Routine (Calls P R E C π) π τ Unit) 0 fun _ => 0 :=
  keeps_reply (o := .dropGuard false) (f := id) (g := id) (fun _ => rfl) (fun _ => rfl)
    (fun _ => rfl) fun _ _ => rfl

theorem holds_dropTask :
    Holds (lift (Calls.task.drop false) : Routine (Calls P R E C π) π τ Unit) 0 fun _ => 0 :=
  keeps_reply (o := .dropTask false) (f := id) (g := id) (fun _ => rfl) (fun _ => rfl)
    (fun _ => rfl) fun _ _ => rfl

theorem holds_commit {token : P} :
    Holds (lift (Calls.commit token) : Routine (Calls P R E C π) π τ (Except C Unit)) 0
      callbackContents :=
  keeps_reply (o := .commit token) (f := id) (g := id) (fun _ => rfl) (fun _ => rfl)
    (fun _ => rfl) fun _ _ => rfl

theorem holds_rollback {token : P} {cause : RollbackCause E π} :
    Holds (lift (Calls.rollback token cause) : Routine (Calls P R E C π) π τ (Except C Unit)) 0
      callbackContents :=
  keeps_reply (o := .rollback token cause) (f := id) (g := id) (fun _ => rfl) (fun _ => rfl)
    (fun _ => rfl) fun _ _ => rfl

theorem holds_dropToken {token : P} :
    Holds (Drop.drop .scope token : Routine (Calls P R E C π) π τ Unit) 0 fun _ => 0 :=
  keeps_reply (o := .dropToken .scope token) (f := id) (g := id) (fun _ => rfl) (fun _ => rfl)
    (fun _ => rfl) fun _ _ => rfl

theorem holds_discard_callbackError (c : C) :
    Holds (Calls.discard .scope (.callbackError c) : Routine (Calls P R E C π) π τ Unit)
      {.callbackError c} fun _ => 0 :=
  keeps_reply (o := .discard .scope (.callbackError c)) (f := id) (g := id) (fun _ => rfl)
    (fun _ => rfl) (fun _ => rfl) fun _ _ => rfl

theorem keeps_discard_payload (mode : DropMode) (p : π) :
    (Calls.discard mode (.payload p) : Routine (Calls P R E C π) π τ Unit).Keeps valueLedger
      {.payload p} (fun _ => 0) fun _ => some 0 :=
  keeps_reply (o := .discard mode (.payload p)) (f := id) (g := id) (fun _ => rfl)
    (fun _ => rfl) (fun _ => rfl) fun _ _ => rfl

theorem holds_task : Holds (Calls.task : FnOnce (Calls P R E C π) π Unit (Except E R)).call 0
    taskContents :=
  keeps_reply (o := .task) (f := id) (g := id) (fun _ => rfl) (fun _ => rfl) (fun _ => rfl)
    fun _ _ => rfl

theorem holds_ignoreToken : Holds (LifecycleDclExecutor.ignoreToken Calls.task :
    FnOnce (Calls P R E C π) π P (Except E R)).call 0 taskContents :=
  keeps_reply (o := .task) (f := id) (g := id) (fun _ => rfl) (fun _ => rfl) (fun _ => rfl)
    fun _ _ => rfl

theorem holds_taskWithToken :
    Holds (Calls.taskWithToken : FnOnce (Calls P R E C π) π P (Except E R)).call 0
      taskContents := by
  intro t es others hb
  have hb : valueLedger.Hold es (others + valueLedger.takes (.taskWithToken t)) := hb
  refine ⟨hb.allows, fun r _ => ?_⟩
  obtain ⟨result | p, t'⟩ := r
  · exact Ledger.Hold.next (S := Calls P R E C π) (o := .taskWithToken t) hb (.ret result, t')
  · exact ⟨_, rfl, Ledger.Hold.next (S := Calls P R E C π) (o := .taskWithToken t) hb
      (.panic p, t')⟩

theorem destroys_discard (v : Discarded R E C π) :
    Destroys (Calls.discard .unwinding v : Routine (Calls P R E C π) π τ Unit) {v} := by
  refine keeps_reply (o := .discard .unwinding v) (f := id) (g := id) (fun _ => rfl)
    (fun _ => rfl) (fun _ => ?_) fun _ hp => nomatch hp nofun
  cases v <;> rfl

theorem destroys_dropGuard :
    Destroys (lift (Calls.lock.dropGuard true) : Routine (Calls P R E C π) π τ Unit) 0 :=
  keeps_reply (o := .dropGuard true) (f := id) (g := id) (fun _ => rfl) (fun _ => rfl)
    (fun _ => rfl) fun _ hp => nomatch hp rfl

theorem destroys_dropTask :
    Destroys (lift (Calls.task.drop true) : Routine (Calls P R E C π) π τ Unit) 0 :=
  keeps_reply (o := .dropTask true) (f := id) (g := id) (fun _ => rfl) (fun _ => rfl)
    (fun _ => rfl) fun _ hp => nomatch hp rfl

end Calls

section Locked
variable {core : DclCore (Calls P R E C π) π} {task : FnOnce (Calls P R E C π) π τ (Except E R)}

theorem destroys_locked (x : LockedExecution R E) :
    Destroys (Drop.drop .unwinding x : Routine (Calls P R E C π) π τ Unit) x.contents := by
  rcases x with _ | (error | value)
  · exact keeps_pure () rfl
  · exact destroys_discard (.error error)
  · exact destroys_discard (.value value)

theorem holds_dropUnstarted (hdrop : task.drop = (Calls.task (P := P) (C := C)).drop)
    {unstarted : Option (FnOnce (Calls P R E C π) π τ (Except E R))}
    (hu : unstarted = some task ∨ unstarted = none) :
    Holds (dropUnstarted false unstarted : Routine (Calls P R E C π) π τ Unit) 0 fun _ => 0 := by
  rcases hu with rfl | rfl
  · rw [dropUnstarted, hdrop]
    exact holds_dropTask
  · exact keeps_pure () rfl

theorem destroys_dropUnstarted (hdrop : task.drop = (Calls.task (P := P) (C := C)).drop)
    {unstarted : Option (FnOnce (Calls P R E C π) π τ (Except E R))}
    (hu : unstarted = some task ∨ unstarted = none) :
    Destroys (dropUnstarted true unstarted : Routine (Calls P R E C π) π τ Unit) 0 := by
  rcases hu with rfl | rfl
  · rw [dropUnstarted, hdrop]
    exact destroys_dropTask
  · exact keeps_pure () rfl

theorem destroys_guardAndTask {κ : Type}
    (hdrop : task.drop = (Calls.task (P := P) (C := C)).drop) : Destroys (do
      lift (Calls.lock.dropGuard true)
      lift (task.drop true) : Routine (Calls P R E C π) π κ Unit) 0 := by
  rw [hdrop]
  simpa only [add_zero] using Clears.andThen destroys_dropGuard destroys_dropTask

variable (task) in
theorem keeps_lockedCatching_bind [PanicPayload π] (hcore : core.predicate = Calls.predicate)
    (hdrop : task.drop = (Calls.task (P := P) (C := C)).drop)
    (hcall : Holds task.call 0 taskContents)
    {f : Except (PanicInfo π) (LockedExecution R E) → Routine (Calls P R E C π) π τ α}
    {ret : α → Multiset (Discarded R E C π)} {unwind : π → Option (Multiset (Discarded R E C π))}
    (hok : ∀ x, (f (.ok x)).Keeps valueLedger x.contents ret unwind)
    (herror : ∀ phase p,
      (f (.error (.fromPayload phase p))).Keeps valueLedger {.payload p} ret unwind) :
    (core.executeLockedCatching Calls.lock task >>= f).Keeps valueLedger 0 ret unwind := by
  unfold DclCore.executeLockedCatching
  rw [hcore]
  have hrest (outcome : LockedExecution R E)
      {unstarted : Option (FnOnce (Calls P R E C π) π τ _)}
      (hu : outcome = .conditionNotMet ∧ unstarted = some task ∨ unstarted = none) : Holds (do
        set .lockRelease
        (lift (Calls.lock.dropGuard false)).onUnwind (do
          Drop.drop .unwinding outcome
          outer (dropUnstarted true unstarted))
        set .taskCleanup
        outer (dropUnstarted false unstarted)
        pure outcome : Routine (Calls P R E C π) π (τ × PanicPhase) (LockedExecution R E))
          outcome.contents LockedExecution.contents := by
    have hclear : Destroys (do
        Drop.drop .unwinding outcome
        outer (dropUnstarted true unstarted) :
          Routine (Calls P R E C π) π (τ × PanicPhase) Unit) outcome.contents := by
      have hlocked : Destroys (Drop.drop .unwinding outcome :
          Routine (Calls P R E C π) π (τ × PanicPhase) Unit) outcome.contents :=
        destroys_locked outcome
      simpa only [add_zero] using
        Clears.andThen hlocked (destroys_dropUnstarted hdrop (hu.imp_left And.right)).outer
    -- a task that is left over has no result beside it
    have hskip : Holds (outer (dropUnstarted false unstarted) :
        Routine (Calls P R E C π) π (τ × PanicPhase) Unit) outcome.contents
          fun _ => outcome.contents := by
      rcases hu with ⟨rfl, hu⟩ | rfl
      · exact (holds_dropUnstarted hdrop (.inl hu)).outer
      · exact .outer (keeps_pure () rfl)
    exact .bind (keeps_set _) fun _ => .bind (.owned holds_dropGuard hclear) fun _ =>
      .bind (keeps_set _) fun _ => .bind hskip fun _ => keeps_pure outcome rfl
  refine .withCellBind (.bindAssoc (.bind (q := fun
    | .ok outcome => outcome.contents
    | .error payload => {.payload payload}) (.catchUnwind ?_) fun caught => ?_))
  · refine .bind (.bare holds_lock (hdrop ▸ destroys_dropTask)) fun _ => ?_
    refine .bind (keeps_set _) fun _ => ?_
    refine .bind (.bare holds_predicate (destroys_guardAndTask hdrop)) fun met => ?_
    cases met with
    | false => exact hrest .conditionNotMet (.inl ⟨rfl, rfl⟩)
    | true =>
      exact .bind (keeps_set _) fun _ => .bind (.bare hcall.outer destroys_dropGuard)
        fun result => hrest (.task result) (.inr rfl)
  · cases caught with
    | ok outcome => exact (hok outcome).outer
    | error payload =>
      exact .bindAssoc (.bind keeps_get fun phase => (herror phase payload).outer)

end Locked

section Capture
variable {held : Multiset (Discarded R E C π)} {contents : α → Multiset (Discarded R E C π)}

theorem conserves_drop_panicInfo (info : PanicInfo π) :
    Conserves (Drop.drop .scope info : Routine (Calls P R E C π) π τ Unit) info.contents
      fun _ => 0 := by
  obtain ⟨phase, message, _ | payload⟩ := info
  · exact keeps_pure () rfl
  · refine .bind (q := fun _ => 0) (.catchUnwind (keeps_discard_payload _ _)) fun caught => ?_
    cases caught with
    | ok u => exact keeps_pure () rfl
    | error p => exact keeps_pure () rfl

variable [PanicPayload π]

theorem conserves_catchPhase {operation : Routine (Calls P R E C π) π τ α}
    (ho : Holds operation held contents) (phase : PanicPhase) :
    Conserves (catchPhase phase operation) held (exceptContents contents) := by
  refine .bind (q := fun
    | .ok a => contents a
    | .error payload => {.payload payload}) ho.catchUnwind fun caught => ?_
  cases caught with
  | ok a => exact keeps_pure _ rfl
  | error payload => exact keeps_pure _ rfl

theorem conserves_dropTaskCatching {κ : Type} {task : FnOnce (Calls P R E C π) π κ (Except E R)}
    (hdrop : task.drop = (Calls.task (P := P) (C := C)).drop) :
    Conserves (dropTaskCatching task : Routine (Calls P R E C π) π τ _) 0
      (exceptContents fun _ => 0) := by
  refine conserves_catchPhase ?_ _
  rw [hdrop]
  exact holds_dropTask

theorem conserves_discardCleanup {κ : Type} {task : FnOnce (Calls P R E C π) π κ (Except E R)}
    (hdrop : task.drop = (Calls.task (P := P) (C := C)).drop) (x : α) :
    Conserves (do
      let cleanup ← dropTaskCatching task
      Drop.drop .scope cleanup
      pure x : Routine (Calls P R E C π) π τ α) (contents x) contents := by
  have hcleanup : Conserves (dropTaskCatching task : Routine (Calls P R E C π) π τ _)
      (0 + contents x) fun cleanup => exceptContents (fun _ => 0) cleanup + contents x :=
    (conserves_dropTaskCatching hdrop).beside (contents x)
  rw [zero_add] at hcleanup
  refine .bind hcleanup fun cleanup => .bind (q := fun _ => contents x) ?_ fun _ => keeps_pure x rfl
  have hdropped : Conserves (Drop.drop .scope cleanup : Routine (Calls P R E C π) π τ Unit)
      (exceptContents (fun _ => 0) cleanup) fun _ => 0 := by
    cases cleanup with
    | ok u => exact keeps_pure () rfl
    | error info => exact conserves_drop_panicInfo info
  simpa only [zero_add] using hdropped.beside (contents x)

end Capture

section Entry
variable {core : DclCore (Calls P R E C π) π}

theorem hold_ends {m : Routine (Calls P R E C π) π τ α} {i : Invocation} {t : τ}
    {contents : α → Multiset (Discarded R E C π)} {es : List (CallEvent P R E C π)}
    (hm : Holds m 0 contents) (hes : valueLedger.Hold es 0)
    (hleaked : ∀ new, leaked (C := C) i (es ++ new) = 0) :
    (m t).wp valueLedger.monitor es fun x es' =>
      valueLedger.Hold es' (exitContents contents x.1 + leaked i es') := by
  refine Program.wp_mono (hm.ends hes) fun x es' hx => ?_
  obtain ⟨⟨new, rfl⟩, hx⟩ := hx
  rw [hleaked, add_zero]
  obtain ⟨a | p | _, t'⟩ := x
  · exact hx
  · obtain ⟨u, hu, hx⟩ := hx
    cases hu
    exact hx
  · exact hx.elim

theorem wp_unspent {o : Call P R E C π} {k : o.Answer → Program (Calls P R E C π) α}
    {es : List (CallEvent P R E C π)} {post : α → List (CallEvent P R E C π) → Prop}
    (hes : valueLedger.spent es = 0) (ho : o.takes = 0)
    (hk : ∀ r, o.admits r → (k r).wp valueLedger.monitor (es ++ [⟨o, r⟩]) post) :
    (Program.call (S := Calls P R E C π) o k).wp valueLedger.monitor es post := by
  refine ⟨?_, hk⟩
  change valueLedger.spent es + o.takes ≤ valueLedger.received es
  rw [hes, ho]
  exact Multiset.zero_le _

theorem wp_dropTask_unwinding {k : Reply π Unit → Program (Calls P R E C π) α}
    {es : List (CallEvent P R E C π)} {post : α → List (CallEvent P R E C π) → Prop}
    (hes : valueLedger.spent es = 0)
    (hk : (k (.ret ())).wp valueLedger.monitor (es ++ [⟨.dropTask true, .ret ()⟩]) post) :
    (Program.call (S := Calls P R E C π) (.dropTask true) k).wp valueLedger.monitor es post := by
  refine wp_unspent hes rfl fun dropped hdropped => ?_
  cases dropped with
  | ret u => exact hk
  | panic q => cases hdropped rfl

theorem wp_dropGuard_unwinding {k : Reply π Unit → Program (Calls P R E C π) α}
    {es : List (CallEvent P R E C π)} {post : α → List (CallEvent P R E C π) → Prop}
    (hes : valueLedger.spent es = 0)
    (hk : (k (.ret ())).wp valueLedger.monitor (es ++ [⟨.dropGuard true, .ret ()⟩]) post) :
    (Program.call (S := Calls P R E C π) (.dropGuard true) k).wp valueLedger.monitor es post := by
  refine wp_unspent hes rfl fun released hreleased => ?_
  cases released with
  | ret u => exact hk
  | panic q => cases hreleased rfl

theorem run_holds (clones : ℕ) (hcore : core.predicate = Calls.predicate) :
    ((DclExecutor.mk core).run Calls.lock Calls.task ()).wp valueLedger.monitor []
      fun x es => valueLedger.Hold es
        (exitContents ExecutionOutcome.contents x.1 + leaked (.basic false clones) es) := by
  unfold DclExecutor.run DclCore.checkInitial DclCore.executeLocked
  rw [hcore]
  refine wp_unspent rfl rfl fun admitted _ => ?_
  rcases admitted with (_ | _) | p
  · refine wp_unspent rfl rfl fun dropped _ => ?_
    cases dropped <;> rfl
  · refine wp_unspent rfl rfl fun locked _ => ?_
    cases locked with
    | panic p => exact wp_dropTask_unwinding rfl rfl
    | ret u =>
    refine wp_unspent rfl rfl fun met _ => ?_
    rcases met with (_ | _) | p
    · refine wp_unspent rfl rfl fun released _ => ?_
      cases released with
      | panic p => exact wp_dropTask_unwinding rfl rfl
      | ret u =>
        refine wp_unspent rfl rfl fun dropped _ => ?_
        cases dropped <;> rfl
    · refine wp_unspent rfl rfl fun ran _ => ?_
      cases ran with
      | panic p => exact wp_dropGuard_unwinding rfl rfl
      | ret result =>
        refine wp_unspent rfl rfl fun released _ => ?_
        cases released with
        | ret u => rcases result with error | value <;> rfl
        | panic p => exact add_comm ({.ofResult result} : Multiset (Discarded R E C π)) {.payload p}
    · exact wp_dropGuard_unwinding rfl (wp_dropTask_unwinding rfl rfl)
  · exact wp_dropTask_unwinding rfl rfl

theorem conserves_runCatching [PanicPayload π] (hcore : core.predicate = Calls.predicate) :
    Conserves ((DclExecutor.mk core).runCatching Calls.lock Calls.task) 0
      (exceptContents ExecutionOutcome.contents) := by
  unfold DclExecutor.runCatching DclCore.checkInitialCatching DclCore.checkInitial
  rw [hcore]
  have hfail (x : Except (PanicInfo π) (ExecutionOutcome R E)) : Conserves (do
      let cleanup ← dropTaskCatching (Calls.task (P := P) (R := R) (E := E) (C := C))
      Drop.drop .scope cleanup
      pure x : Routine (Calls P R E C π) π Unit _) (exceptContents ExecutionOutcome.contents x)
        (exceptContents ExecutionOutcome.contents) :=
    conserves_discardCleanup rfl x
  refine .bind (conserves_catchPhase holds_predicate _) fun checked => ?_
  rcases checked with panic | (_ | _)
  · exact hfail (.error panic)
  · refine .bind (conserves_dropTaskCatching rfl) fun cleanup => ?_
    cases cleanup with
    | ok u => exact keeps_pure _ rfl
    | error panic => exact keeps_pure _ rfl
  · refine keeps_lockedCatching_bind Calls.task hcore rfl holds_task (fun locked => ?_) ?_
    · rcases locked with _ | (error | value) <;> exact keeps_pure _ rfl
    · exact fun phase p => keeps_pure _ rfl

section Lifecycle
variable {i : Invocation} {executor : LifecycleDclExecutor (Calls P R E C π) π P E C} {token : P}

theorem holds_finalizeCommit (hex : Observes i executor) :
    Holds (finalizeCommit executor.commit token : Routine (Calls P R E C π) π τ _) 0
      FinalizationOutcome.contents := by
  rw [hex.commit]
  cases i.hasCommit with
  | true =>
    refine .bind holds_commit fun result => ?_
    cases result with
    | error c => exact keeps_pure _ rfl
    | ok u => exact keeps_pure _ rfl
  | false => exact .bind holds_dropToken fun _ => keeps_pure _ rfl

theorem holds_finalizeRollback (hex : Observes i executor) {cause : RollbackCause E π} :
    Holds (finalizeRollback executor.rollback token cause : Routine (Calls P R E C π) π τ _) 0
      FinalizationOutcome.contents := by
  rw [hex.rollback]
  cases i.hasRollback with
  | true =>
    refine .bind holds_rollback fun result => ?_
    cases result with
    | error c => exact keeps_pure _ rfl
    | ok u => exact keeps_pure _ rfl
  | false => exact .bind holds_dropToken fun _ => keeps_pure _ rfl

theorem holds_finishCommit (hex : Observes i executor) (value : R) :
    Holds (executor.finishCommit token value : Routine (Calls P R E C π) π τ _) {.value value}
      LifecycleOutcome.contents :=
  .bind (.beyond (holds_finalizeCommit hex) (destroys_discard (.value value)))
    fun _ => keeps_pure _ rfl

theorem holds_finishRollback (hex : Observes i executor) (execution : RollbackExecution E)
    {held : Multiset (Discarded R E C π)}
    (hdrop : Destroys (Drop.drop .unwinding execution : Routine (Calls P R E C π) π τ Unit) held)
    (hintoOutcome : ∀ rollback : FinalizationOutcome C,
      (execution.intoOutcome rollback : LifecycleOutcome R E C).contents =
        (rollback.contents + held : Multiset (Discarded R E C π))) :
    Holds (executor.finishRollback token execution : Routine (Calls P R E C π) π τ _) held
      LifecycleOutcome.contents :=
  .bind (.beyond (holds_finalizeRollback hex) hdrop)
    fun rollback => keeps_pure _ (hintoOutcome rollback)

theorem conserves_discardSecondary {operation : Routine (Calls P R E C π) π τ Unit}
    (ho : Holds operation 0 fun _ => 0) :
    Conserves (LifecycleDclExecutor.discardSecondary operation) 0 fun _ => 0 := by
  refine .bind (q := fun _ => 0) (.catchUnwind (.bind (q := fun
    | .ok _ => 0
    | .error payload => {.payload payload}) ho.catchUnwind fun caught => ?_)) fun secondary => ?_
  · cases caught with
    | ok u => exact keeps_pure () rfl
    | error payload => exact keeps_discard_payload .scope payload
  · cases secondary with
    | ok u => exact keeps_pure () rfl
    | error payload => exact keeps_pure () rfl

variable [PanicPayload π]

theorem holds_rollbackThenResume (hex : Observes i executor) (phase : PanicPhase) (p : π)
    {contents : α → Multiset (Discarded R E C π)} :
    Holds (executor.rollbackThenResume token (.fromPayload phase p) :
      Routine (Calls P R E C π) π τ α) {.payload p} contents := by
  rw [LifecycleDclExecutor.rollbackThenResume, hex.rollback]
  have hdiscard {operation : Routine (Calls P R E C π) π τ Unit}
      (ho : Holds operation 0 fun _ => 0) :
      Holds (do
        LifecycleDclExecutor.discardSecondary operation
        (PanicInfo.fromPayload phase p).resumeUnwind : Routine (Calls P R E C π) π τ α)
          {.payload p} contents :=
    .bind ((conserves_discardSecondary ho).holding _) fun _ => keeps_raise p rfl
  cases i.hasRollback with
  | true =>
    refine hdiscard (.bind holds_rollback fun result => ?_)
    cases result with
    | error c => exact holds_discard_callbackError c
    | ok u => exact keeps_pure () rfl
  | false => exact hdiscard holds_dropToken

variable {task : FnOnce (Calls P R E C π) π P (Except E R)}

theorem runWithToken_holds (hex : Observes i executor)
    (hdrop : task.drop = (Calls.task (P := P) (C := C)).drop)
    (hcall : Holds task.call 0 taskContents) (finalizers : Finalizers) (withToken : Bool)
    (clones : ℕ) :
    (executor.runWithToken Calls.lock task ()).wp valueLedger.monitor []
      fun x es => valueLedger.Hold es (exitContents LifecycleOutcome.contents x.1 +
        leaked (.lifecycle finalizers withToken false clones) es) := by
  unfold LifecycleDclExecutor.runWithToken DclCore.checkInitial
  rw [hex.predicate, hex.prepare, hdrop]
  refine wp_unspent rfl rfl fun admitted _ => ?_
  rcases admitted with (_ | _) | p
  · refine wp_unspent rfl rfl fun dropped _ => ?_
    cases dropped <;> rfl
  · refine wp_unspent rfl rfl fun prepared _ => ?_
    rcases prepared with (c | token) | p
    · refine wp_unspent rfl rfl fun dropped _ => ?_
      cases dropped with
      | ret u => rfl
      | panic q => exact add_comm ({.callbackError c} : Multiset (Discarded R E C π)) {.payload q}
    · refine hold_ends (m := Routine.withCell token _) (.withCell (keeps_lockedCatching_bind
        (LifecycleDclExecutor.lendToken task) hex.predicate hdrop (.inner hcall)
          (fun locked => ?_) fun phase p => ?_)) rfl fun new => rfl
      · refine .bind keeps_get fun token => ?_
        rcases locked with _ | (error | value)
        · exact holds_finishRollback hex .conditionNotMet (keeps_pure () rfl)
            fun rollback => (add_zero _).symm
        · exact holds_finishRollback hex (.taskFailed error) (destroys_discard (.error error))
            fun _ => rfl
        · exact holds_finishCommit hex value
      · exact .bind keeps_get fun token => holds_rollbackThenResume hex phase p
    · exact wp_dropTask_unwinding rfl rfl
  · exact wp_dropTask_unwinding rfl rfl

theorem conserves_finalizeCommitCatching (hex : Observes i executor) :
    Conserves (finalizeCommitCatching executor.commit token : Routine (Calls P R E C π) π τ _) 0
      CapturedFinalizationOutcome.contents := by
  rw [hex.commit]
  cases i.hasCommit with
  | true =>
    refine .bind (conserves_catchPhase holds_commit _) fun result => ?_
    rcases result with panic | (c | u) <;> exact keeps_pure _ rfl
  | false =>
    refine .bind (conserves_catchPhase holds_dropToken _) fun result => ?_
    cases result <;> exact keeps_pure _ rfl

theorem conserves_finalizeRollbackCatching (hex : Observes i executor)
    {cause : RollbackCause E π} : Conserves (finalizeRollbackCatching executor.rollback token
      cause : Routine (Calls P R E C π) π τ _) 0 CapturedFinalizationOutcome.contents := by
  rw [hex.rollback]
  cases i.hasRollback with
  | true =>
    refine .bind (conserves_catchPhase holds_rollback _) fun result => ?_
    rcases result with panic | (c | u) <;> exact keeps_pure _ rfl
  | false =>
    refine .bind (conserves_catchPhase holds_dropToken _) fun result => ?_
    cases result <;> exact keeps_pure _ rfl

omit [PanicPayload π] in
theorem conserves_finish {finalize : Routine (Calls P R E C π) π τ
      (CapturedFinalizationOutcome C π)}
    {f : CapturedFinalizationOutcome C π → CapturedLifecycleOutcome R E C π}
    {held : Multiset (Discarded R E C π)}
    (hfinalize : Conserves finalize 0 CapturedFinalizationOutcome.contents)
    (hf : ∀ x, (f x).contents = x.contents + held) :
    Conserves (finalize >>= fun x => pure (f x)) held CapturedLifecycleOutcome.contents := by
  have h : Conserves finalize (0 + held) fun x => x.contents + held := hfinalize.beside held
  rw [zero_add] at h
  exact .bind h fun x => keeps_pure (f x) (hf x)

theorem conserves_runWithTokenCatching (hex : Observes i executor)
    (hdrop : task.drop = (Calls.task (P := P) (C := C)).drop)
    (hcall : Holds task.call 0 taskContents) :
    Conserves (executor.runWithTokenCatching Calls.lock task : Routine (Calls P R E C π) π τ _) 0
      CapturedLifecycleOutcome.contents := by
  unfold LifecycleDclExecutor.runWithTokenCatching DclCore.checkInitialCatching
    DclCore.checkInitial
  rw [hex.predicate, hex.prepare]
  have hfail (x : CapturedLifecycleOutcome R E C π) : Conserves (do
      let cleanup ← dropTaskCatching task
      Drop.drop .scope cleanup
      pure x : Routine (Calls P R E C π) π τ _) x.contents CapturedLifecycleOutcome.contents :=
    conserves_discardCleanup hdrop x
  refine .bind (conserves_catchPhase holds_predicate _) fun checked => ?_
  rcases checked with panic | (_ | _)
  · exact hfail (.initialConditionCheckPanicked panic)
  · refine .bind (conserves_dropTaskCatching hdrop) fun cleanup => ?_
    cases cleanup <;> exact keeps_pure _ rfl
  refine .bind (conserves_catchPhase holds_prepare _) fun prepared => ?_
  rcases prepared with panic | (c | token)
  · exact hfail (.preparePanicked panic)
  · exact hfail (.prepareFailed c)
  refine .withCell (keeps_lockedCatching_bind (LifecycleDclExecutor.lendToken task) hex.predicate
    hdrop (.inner hcall) (fun locked => ?_) fun phase p => ?_)
  · refine .bind keeps_get fun token => ?_
    rcases locked with _ | (error | value)
    · exact conserves_finish (conserves_finalizeRollbackCatching hex) fun _ => (add_zero _).symm
    · exact conserves_finish (conserves_finalizeRollbackCatching hex) fun _ => rfl
    · exact conserves_finish (conserves_finalizeCommitCatching hex) fun _ => rfl
  · exact .bind keeps_get fun token =>
      conserves_finish (conserves_finalizeRollbackCatching hex) fun _ => rfl

end Lifecycle

section Program
variable [PanicPayload π]

theorem program_holds (i : Invocation) :
    (i.program (P := P) (R := R) (E := E) (C := C) (π := π)).wp valueLedger.monitor []
      fun a es => valueLedger.Hold es (a.contents + leaked i es) := by
  cases i with
  | basic catching clones =>
    cases catching with
    | false =>
      simp only [Invocation.program, DclExecutor.clones_eq, Bool.false_eq_true, if_false,
        Routine.start, Program.wp_bind, Program.wp_pure]
      exact run_holds clones rfl
    | true =>
      simp only [Invocation.program, DclExecutor.clones_eq, if_true, Routine.start,
        Program.wp_bind, Program.wp_pure]
      exact hold_ends (conserves_runCatching rfl).ofNone rfl fun new => rfl
  | lifecycle finalizers withToken catching clones =>
    have hex := observes_executor (P := P) (R := R) (E := E) (C := C) (π := π) finalizers
      withToken catching clones
    cases catching with
    | false =>
      cases withToken with
      | false =>
        simp only [Invocation.program, Routine.start, Program.wp_bind, Program.wp_pure]
        exact runWithToken_holds hex rfl holds_ignoreToken finalizers false clones
      | true =>
        simp only [Invocation.program, Routine.start, Program.wp_bind, Program.wp_pure]
        exact runWithToken_holds hex rfl holds_taskWithToken finalizers true clones
    | true =>
      cases withToken with
      | false =>
        simp only [Invocation.program, Routine.start, Program.wp_bind, Program.wp_pure]
        exact hold_ends (conserves_runWithTokenCatching hex rfl holds_ignoreToken).ofNone rfl
          fun new => rfl
      | true =>
        simp only [Invocation.program, Routine.start, Program.wp_bind, Program.wp_pure]
        exact hold_ends (conserves_runWithTokenCatching hex rfl holds_taskWithToken).ofNone rfl
          fun new => rfl

/-- Nothing is destroyed that was not handed over before and not destroyed since, and all
that was handed over is in the answer, destroyed, forgotten or leaked. -/
theorem values_accounted (i : Invocation) {σ : Type} (h : (o : Call P R E C π) → σ → o.Answer × σ)
    (s : σ) (hexit : (run h i.program s).result.exit ≠ .abort) :
    (∀ pre e post, (run h i.program s).events = pre ++ e :: post →
      destroyed pre + e.op.takes ≤ handedOver pre) ∧
    handedOver (run h i.program s).events = (run h i.program s).result.contents +
      destroyed (run h i.program s).events + forgotten (run h i.program s).events +
      leaked i (run h i.program s).events := by
  obtain ⟨es, hpath, hes⟩ := Program.run_follows (program_holds i) (admitted_iff_exit.mpr hexit)
  obtain rfl : es = (run h i.program s).events := Ledger.eq_append_of_path hpath
  constructor
  · intro pre e post heq
    calc destroyed pre + e.op.takes
      _ ≤ valueLedger.received pre := Ledger.spent_le_of_path hpath heq
      _ ≤ valueLedger.received pre + forgotten pre := Multiset.le_add_right _ _
      _ = handedOver pre := received_add_forgotten pre
  · have hreceived : valueLedger.received (run h i.program s).events =
        destroyed (run h i.program s).events + ((run h i.program s).result.contents +
          leaked i (run h i.program s).events) := hes
    rw [← received_add_forgotten, hreceived, add_left_comm, ← add_assoc, add_right_comm]

end Program
end Entry

def lossyCleanup : (o : Call ℕ ℕ ℕ ℕ String) → ℕ → o.Answer × ℕ
  | .taskWithToken token, n => ((.panic "task", token + 1), n + 1)
  | .rollback _ _, n => (.ret (.error 2), n + 1)
  | .discard .scope (.callbackError _), n => (.panic "callback error", n + 1)
  | .discard .scope (.payload _), n => (.panic "payload", n + 1)
  | o, n => (o.quiet, n + 1)

def leakyRelease : (o : Call ℕ ℕ ℕ ℕ String) → ℕ → o.Answer × ℕ
  | .dropGuard _, n => (.panic "release", n + 1)
  | o, n => (o.quiet, n + 1)

theorem values_accounted_lossyCleanup :
    (let es := (run lossyCleanup (Invocation.lifecycle .rollbackOnly true false 1).program 0).events
    destroyed es = {.callbackError 2, .payload "callback error"} ∧
      forgotten es = {.payload "payload"} ∧
      handedOver es = {.payload "task"} + destroyed es + forgotten es) ∧
    let es := (run leakyRelease (Invocation.basic false 0).program 0).events
    leaked (.basic false 0) es = {.value 1} ∧
      handedOver es = {.payload "release"} + leaked (.basic false 0) es :=
  ⟨⟨rfl, rfl, (values_accounted (.lifecycle .rollbackOnly true false 1) lossyCleanup 0 nofun).2⟩,
    rfl, (values_accounted (.basic false 0) leakyRelease 0 nofun).2⟩

end DoubleChecked
