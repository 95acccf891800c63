import DoubleChecked.Effect.Monitor
import DoubleChecked.Calls

/-!
# The call protocol of one invocation

A `Station` is how far an invocation has come, as its calls tell: which call must
come next, who owns the token, and the `Verdict` that decides the rest. The
monitor built from them accepts exactly the calls that the stations allow. All six
entry points follow it, and each ends with the answer that its last station
determines.
-/

namespace DoubleChecked
open Effect

/-- What decided the course of an invocation. -/
inductive Verdict (R E C π : Type)
  | notAdmitted
  | checkPanicked (p : π)
  | prepareFailed (c : C)
  | preparePanicked (p : π)
  | conditionNotMet
  | returned (result : Except E R)
  | panicked (phase : PanicPhase) (p : π)

/-- What became of the token in the end, with the reply that the finalizer or the
token's destructor gave. -/
inductive Finalization (C π : Type)
  | notReached
  | called (r : Reply π (Except C Unit))
  | dropped (r : Reply π Unit)

inductive Station (P R E C π : Type)
  | fresh
  | admitted
  | acquiring (token : Option P)
  | guarded (token : Option P)
  | cleared (token : Option P)
  | releasing (token : Option P) (v : Verdict R E C π)
  | skipping (token : Option P) (v : Verdict R E C π)
  | finalizing (token : P) (v : Verdict R E C π)
  | ended (v : Verdict R E C π) (cleanup : Option π) (f : Finalization C π)

namespace Verdict
variable {R E C π : Type}

def started : Verdict R E C π → Bool
  | .returned _ | .panicked .task _ => true
  | _ => false

def unwinding : Verdict R E C π → Bool
  | .panicked _ _ => true
  | _ => false

/-- An unstarted task is dropped during an unwind. Before the locked phase this is
so in the propagating entry points only: the others have caught the panic. -/
def dropsUnwinding (catching : Bool) : Verdict R E C π → Bool
  | .panicked _ _ => true
  | .checkPanicked _ | .preparePanicked _ => !catching
  | _ => false

def commits : Verdict R E C π → Bool
  | .returned (.ok _) => true
  | _ => false

def cause [PanicPayload π] : Verdict R E C π → Option (RollbackCause E π)
  | .conditionNotMet => some .conditionNotMet
  | .returned (.error e) => some (.taskFailed e)
  | .panicked phase p => some (.panicked (.fromPayload phase p))
  | _ => none

theorem started_of_commits {v : Verdict R E C π} (h : v.commits = true) : v.started = true := by
  cases v with
  | returned result => rfl
  | _ => exact nomatch h

theorem not_commits_of_cause [PanicPayload π] {v : Verdict R E C π} {cause : RollbackCause E π}
    (h : v.cause = some cause) : v.commits = false := by
  cases v with
  | returned result =>
    cases result with
    | error error => rfl
    | ok value => exact nomatch h
  | _ => rfl

end Verdict

namespace Station
variable {P R E C π : Type}

def settle (token : Option P) (v : Verdict R E C π) : Station P R E C π :=
  match token with
  | some t => .finalizing t v
  | none => .ended v none .notReached

def afterSkip (token : Option P) (v : Verdict R E C π) (cleanup : Option π) : Station P R E C π :=
  match v, cleanup with
  | .conditionNotMet, some p => settle token (.panicked .taskCleanup p)
  | .conditionNotMet, none => settle token v
  | .panicked _ _, _ => settle token v
  | _, _ => .ended v cleanup .notReached

def afterRelease (token : Option P) (v : Verdict R E C π) (started : Bool) : Station P R E C π :=
  if started then settle token v else .skipping token v

end Station

namespace Invocation
variable {P R E C π : Type}

def catching : Invocation → Bool
  | .basic catching _ => catching
  | .lifecycle _ _ catching _ => catching

def prepares : Invocation → Bool
  | .basic _ _ => false
  | .lifecycle _ _ _ _ => true

def hasCommit : Invocation → Bool
  | .basic _ _ => false
  | .lifecycle finalizers _ _ _ => finalizers.hasCommit

def hasRollback : Invocation → Bool
  | .basic _ _ => false
  | .lifecycle finalizers _ _ _ => finalizers.hasRollback

def hasFinalizer (i : Invocation) (v : Verdict R E C π) : Bool :=
  if v.commits then i.hasCommit else i.hasRollback

theorem hasFinalizer_of_commits {i : Invocation} {v : Verdict R E C π} (hv : v.commits = true) :
    i.hasFinalizer v = i.hasCommit := by
  simp [hasFinalizer, hv]

theorem hasFinalizer_of_cause [PanicPayload π] {i : Invocation} {v : Verdict R E C π}
    {cause : RollbackCause E π} (hv : v.cause = some cause) :
    i.hasFinalizer v = i.hasRollback := by
  simp [hasFinalizer, Verdict.not_commits_of_cause hv]

def next (i : Invocation) :
    Station P R E C π → (o : Call P R E C π) → o.Answer → Station P R E C π
  | .fresh, .predicate, .ret true => if i.prepares then .admitted else .acquiring none
  | .fresh, .predicate, .ret false => .skipping none .notAdmitted
  | .fresh, .predicate, .panic p => .skipping none (.checkPanicked p)
  | .admitted, .prepare, .ret (.ok t) => .acquiring (some t)
  | .admitted, .prepare, .ret (.error c) => .skipping none (.prepareFailed c)
  | .admitted, .prepare, .panic p => .skipping none (.preparePanicked p)
  | .acquiring token, .lock, .ret _ => .guarded token
  | .acquiring token, .lock, .panic p => .skipping token (.panicked .lockAcquisition p)
  | .guarded token, .predicate, .ret true => .cleared token
  | .guarded token, .predicate, .ret false => .releasing token .conditionNotMet
  | .guarded token, .predicate, .panic p => .releasing token (.panicked .secondConditionCheck p)
  | .cleared token, .task, .ret result => .releasing token (.returned result)
  | .cleared token, .task, .panic p => .releasing token (.panicked .task p)
  | .cleared _, .taskWithToken _, (.ret result, t) => .releasing (some t) (.returned result)
  | .cleared _, .taskWithToken _, (.panic p, t) => .releasing (some t) (.panicked .task p)
  | .releasing token v, .dropGuard _, .ret _ => .afterRelease token v v.started
  | .releasing token v, .dropGuard _, .panic p =>
    .afterRelease token (.panicked .lockRelease p) v.started
  | .skipping token v, .dropTask _, .ret _ => .afterSkip token v none
  | .skipping token v, .dropTask _, .panic p => .afterSkip token v (some p)
  | .finalizing _ v, .commit _, r => .ended v none (.called r)
  | .finalizing _ v, .rollback _ _, r => .ended v none (.called r)
  | .finalizing _ v, .dropToken _ _, r => .ended v none (.dropped r)
  | q, _, _ => q

variable [PanicPayload π]

def allows (i : Invocation) : Station P R E C π → Call P R E C π → Prop
  | .fresh, .predicate => True
  | .admitted, .prepare => True
  | .acquiring _, .lock => True
  | .guarded _, .predicate => True
  | .cleared _, .task => True
  | .cleared token, .taskWithToken t => token = some t
  | .releasing _ v, .dropGuard unwinding => unwinding = v.unwinding
  | .skipping _ v, .dropTask unwinding => unwinding = v.dropsUnwinding i.catching
  | .finalizing t v, .commit t' => t' = t ∧ v.commits = true ∧ i.hasCommit = true
  | .finalizing t v, .rollback t' cause =>
    t' = t ∧ v.cause = some cause ∧ i.hasRollback = true
  | .finalizing t v, .dropToken mode t' => t' = t ∧ mode = .scope ∧ i.hasFinalizer v = false
  | .finalizing _ _, .discard _ _ => True
  | .ended _ _ _, .discard _ _ => True
  | _, _ => False

end Invocation

/-- No destructor panics while another panic is unwinding. -/
def Call.admits {P R E C π : Type} : (o : Call P R E C π) → o.Answer → Prop
  | .dropGuard unwinding, r => unwinding = true → r.panicked = false
  | .dropTask unwinding, r => unwinding = true → r.panicked = false
  | .dropToken mode _, r => mode ≠ .scope → r.panicked = false
  | .discard mode _, r => mode ≠ .scope → r.panicked = false
  | _, _ => True

namespace Invocation
variable {P R E C π : Type} [PanicPayload π]

def monitor (i : Invocation) : Monitor (Calls P R E C π) (Station P R E C π) where
  admits := Call.admits
  allows := i.allows
  next := i.next

inductive Step (i : Invocation) :
    Station P R E C π → (o : Call P R E C π) → o.Answer → Station P R E C π → Prop
  | accept : Step i .fresh .predicate (.ret true)
      (if i.prepares then .admitted else .acquiring none)
  | reject : Step i .fresh .predicate (.ret false) (.skipping none .notAdmitted)
  | checkPanic (p : π) : Step i .fresh .predicate (.panic p) (.skipping none (.checkPanicked p))
  | prepare (t : P) : Step i .admitted .prepare (.ret (.ok t)) (.acquiring (some t))
  | prepareFail (c : C) :
      Step i .admitted .prepare (.ret (.error c)) (.skipping none (.prepareFailed c))
  | preparePanic (p : π) :
      Step i .admitted .prepare (.panic p) (.skipping none (.preparePanicked p))
  | acquire (token : Option P) (u : Unit) :
      Step i (.acquiring token) .lock (.ret u) (.guarded token)
  | acquirePanic (token : Option P) (p : π) :
      Step i (.acquiring token) .lock (.panic p) (.skipping token (.panicked .lockAcquisition p))
  | recheck (token : Option P) : Step i (.guarded token) .predicate (.ret true) (.cleared token)
  | recheckReject (token : Option P) :
      Step i (.guarded token) .predicate (.ret false) (.releasing token .conditionNotMet)
  | recheckPanic (token : Option P) (p : π) : Step i (.guarded token) .predicate (.panic p)
      (.releasing token (.panicked .secondConditionCheck p))
  | taskReturn (token : Option P) (result : Except E R) :
      Step i (.cleared token) .task (.ret result) (.releasing token (.returned result))
  | taskPanic (token : Option P) (p : π) :
      Step i (.cleared token) .task (.panic p) (.releasing token (.panicked .task p))
  | tokenTaskReturn (t t' : P) (result : Except E R) : Step i (.cleared (some t))
      (.taskWithToken t) (.ret result, t') (.releasing (some t') (.returned result))
  | tokenTaskPanic (t t' : P) (p : π) : Step i (.cleared (some t)) (.taskWithToken t)
      (.panic p, t') (.releasing (some t') (.panicked .task p))
  | release (token : Option P) (v : Verdict R E C π) (u : Unit) : Step i (.releasing token v)
      (.dropGuard v.unwinding) (.ret u) (.afterRelease token v v.started)
  | releasePanic (token : Option P) (v : Verdict R E C π) (p : π) : v.unwinding = false →
      Step i (.releasing token v) (.dropGuard v.unwinding) (.panic p)
        (.afterRelease token (.panicked .lockRelease p) v.started)
  | skip (token : Option P) (v : Verdict R E C π) (u : Unit) : Step i (.skipping token v)
      (.dropTask (v.dropsUnwinding i.catching)) (.ret u) (.afterSkip token v none)
  | skipPanic (token : Option P) (v : Verdict R E C π) (p : π) :
      v.dropsUnwinding i.catching = false → Step i (.skipping token v)
        (.dropTask (v.dropsUnwinding i.catching)) (.panic p) (.afterSkip token v (some p))
  | commit (t : P) (v : Verdict R E C π) (r : Reply π (Except C Unit)) : v.commits = true →
      i.hasCommit = true → Step i (.finalizing t v) (.commit t) r (.ended v none (.called r))
  | rollback (t : P) (v : Verdict R E C π) (cause : RollbackCause E π)
      (r : Reply π (Except C Unit)) : v.cause = some cause → i.hasRollback = true →
      Step i (.finalizing t v) (.rollback t cause) r (.ended v none (.called r))
  | dropToken (t : P) (v : Verdict R E C π) (r : Reply π Unit) : i.hasFinalizer v = false →
      Step i (.finalizing t v) (.dropToken .scope t) r (.ended v none (.dropped r))
  | discardEarly (t : P) (v : Verdict R E C π) (mode : DropMode) (w : Discarded R E C π)
      (r : Reply π Unit) : Step i (.finalizing t v) (.discard mode w) r (.finalizing t v)
  | discardLate (v : Verdict R E C π) (cleanup : Option π) (f : Finalization C π)
      (mode : DropMode) (w : Discarded R E C π) (r : Reply π Unit) :
      Step i (.ended v cleanup f) (.discard mode w) r (.ended v cleanup f)

theorem step_of_allows {i : Invocation} {q : Station P R E C π} {o : Call P R E C π}
    {r : o.Answer} (ha : i.allows q o) (hr : o.admits r) : i.Step q o r (i.next q o r) := by
  match q, o, r, ha with
  | .fresh, .predicate, .ret true, _ => exact .accept
  | .fresh, .predicate, .ret false, _ => exact .reject
  | .fresh, .predicate, .panic p, _ => exact .checkPanic p
  | .admitted, .prepare, .ret (.ok t), _ => exact .prepare t
  | .admitted, .prepare, .ret (.error c), _ => exact .prepareFail c
  | .admitted, .prepare, .panic p, _ => exact .preparePanic p
  | .acquiring token, .lock, .ret u, _ => exact .acquire token u
  | .acquiring token, .lock, .panic p, _ => exact .acquirePanic token p
  | .guarded token, .predicate, .ret true, _ => exact .recheck token
  | .guarded token, .predicate, .ret false, _ => exact .recheckReject token
  | .guarded token, .predicate, .panic p, _ => exact .recheckPanic token p
  | .cleared token, .task, .ret result, _ => exact .taskReturn token result
  | .cleared token, .task, .panic p, _ => exact .taskPanic token p
  | .cleared _, .taskWithToken t, (.ret result, t'), rfl => exact .tokenTaskReturn t t' result
  | .cleared _, .taskWithToken t, (.panic p, t'), rfl => exact .tokenTaskPanic t t' p
  | .releasing token v, .dropGuard _, .ret u, rfl => exact .release token v u
  | .releasing token v, .dropGuard _, .panic p, rfl =>
    exact .releasePanic token v p (Bool.eq_false_iff.mpr fun h => Bool.noConfusion (hr h))
  | .skipping token v, .dropTask _, .ret u, rfl => exact .skip token v u
  | .skipping token v, .dropTask _, .panic p, rfl =>
    exact .skipPanic token v p (Bool.eq_false_iff.mpr fun h => Bool.noConfusion (hr h))
  | .finalizing t v, .commit _, r, ⟨rfl, hv, hc⟩ => exact .commit t v r hv hc
  | .finalizing t v, .rollback _ cause, r, ⟨rfl, hv, hc⟩ => exact .rollback t v cause r hv hc
  | .finalizing t v, .dropToken _ _, r, ⟨rfl, rfl, hf⟩ => exact .dropToken t v r hf
  | .finalizing t v, .discard mode w, r, _ => exact .discardEarly t v mode w r
  | .ended v cleanup f, .discard mode w, r, _ => exact .discardLate v cleanup f mode w r

end Invocation

section Guard
variable {P R E C π : Type}

def Station.holds : Station P R E C π → Bool
  | .guarded _ | .cleared _ | .releasing _ _ => true
  | _ => false

def Station.isCleared : Station P R E C π → Bool
  | .cleared _ => true
  | _ => false

theorem Station.holds_of_isCleared {q : Station P R E C π} (h : q.isCleared = true) :
    q.holds = true := by
  cases q with
  | cleared token => rfl
  | _ => exact nomatch h

structure Station.Outside (q : Station P R E C π) : Prop where
  notFresh : q ≠ .fresh
  notReleasing : ∀ token v, q ≠ .releasing token v
  holds : q.holds = false
  isCleared : q.isCleared = false

variable {token : Option P} {v : Verdict R E C π}

theorem outside_settle : (Station.settle token v).Outside := by
  cases token with
  | none => exact ⟨nofun, nofun, rfl, rfl⟩
  | some t => exact ⟨nofun, nofun, rfl, rfl⟩

theorem outside_afterRelease (b : Bool) : (Station.afterRelease token v b).Outside := by
  cases b with
  | false => exact ⟨nofun, nofun, rfl, rfl⟩
  | true => exact outside_settle

theorem outside_afterSkip (cleanup : Option π) :
    (Station.afterSkip token v cleanup).Outside := by
  unfold Station.afterSkip
  split
  · exact outside_settle
  · exact outside_settle
  · exact outside_settle
  · exact ⟨nofun, nofun, rfl, rfl⟩

end Guard

namespace Station
variable {P R E C π : Type} {token : Option P} {v : Verdict R E C π}

def verdict : Station P R E C π → Option (Verdict R E C π)
  | .releasing _ v | .skipping _ v | .finalizing _ v | .ended v _ _ => some v
  | _ => none

@[simp] theorem verdict_settle : (settle token v).verdict = some v := by
  cases token <;> rfl

@[simp] theorem verdict_afterRelease (b : Bool) : (afterRelease token v b).verdict = some v := by
  cases b with
  | false => rfl
  | true => exact verdict_settle

@[simp] theorem verdict_afterSkip : (afterSkip token v none).verdict = some v := by
  cases v with
  | conditionNotMet | panicked => exact verdict_settle
  | _ => rfl

end Station

section Paths
variable {P R E C π : Type} [PanicPayload π] {i : Invocation} {es : List (Event (Calls P R E C π))}
  {q : Station P R E C π} {v : Verdict R E C π}

theorem path_ended {cleanup : Option π} {f : Finalization C π}
    (h : i.monitor.Path (.ended v cleanup f) es q) : q = .ended v cleanup f := by
  generalize hs : Station.ended v cleanup f = s at h
  induction h with
  | nil => rfl
  | @cons s q' o r es allowed hr _ ih =>
    subst hs
    cases o with
    | discard mode w => exact ih rfl
    | _ => exact allowed.elim

inductive Invocation.Finalizes (i : Invocation) (t : P) (v : Verdict R E C π) :
    Event (Calls P R E C π) → Finalization C π → Prop
  | commit (r : Reply π (Except C Unit)) : v.commits = true → i.hasCommit = true →
      Finalizes i t v ⟨.commit t, r⟩ (.called r)
  | rollback (cause : RollbackCause E π) (r : Reply π (Except C Unit)) : v.cause = some cause →
      i.hasRollback = true → Finalizes i t v ⟨.rollback t cause, r⟩ (.called r)
  | dropToken (r : Reply π Unit) : i.hasFinalizer v = false →
      Finalizes i t v ⟨.dropToken .scope t, r⟩ (.dropped r)

end Paths

section Answers
variable {R E C π : Type}

def Finalization.outcome : Finalization C π → Exit π (FinalizationOutcome C)
  | .notReached => .abort
  | .called (.ret (.ok ())) => .ret .succeeded
  | .called (.ret (.error c)) => .ret (.failed c)
  | .called (.panic p) => .unwind p
  | .dropped (.ret ()) => .ret .notRequired
  | .dropped (.panic p) => .unwind p

variable [PanicPayload π]

def Finalization.captured (phase : PanicPhase) : Finalization C π → CapturedFinalizationOutcome C π
  | .notReached => .notRequired
  | .called (.ret (.ok ())) => .succeeded
  | .called (.ret (.error c)) => .failed c
  | .called (.panic p) => .panicked (.fromPayload phase p)
  | .dropped (.ret ()) => .notRequired
  | .dropped (.panic p) => .panicked (.fromPayload phase p)

namespace Verdict

def outcome (v : Verdict R E C π) (cleanup : Option π) : Exit π (ExecutionOutcome R E) :=
  match v, cleanup with
  | .notAdmitted, none => .ret .conditionNotMet
  | .notAdmitted, some p => .unwind p
  | .checkPanicked p, _ => .unwind p
  | .conditionNotMet, _ => .ret .conditionNotMet
  | .returned (.ok value), _ => .ret (.success value)
  | .returned (.error error), _ => .ret (.taskFailed error)
  | .panicked _ p, _ => .unwind p
  | .prepareFailed _, _ => .abort
  | .preparePanicked _, _ => .abort

def capturedOutcome (v : Verdict R E C π) (cleanup : Option π) :
    Exit π (Except (PanicInfo π) (ExecutionOutcome R E)) :=
  match v, cleanup with
  | .notAdmitted, none => .ret (.ok .conditionNotMet)
  | .notAdmitted, some p => .ret (.error (.fromPayload .taskCleanup p))
  | .checkPanicked p, _ => .ret (.error (.fromPayload .initialConditionCheck p))
  | .conditionNotMet, _ => .ret (.ok .conditionNotMet)
  | .returned (.ok value), _ => .ret (.ok (.success value))
  | .returned (.error error), _ => .ret (.ok (.taskFailed error))
  | .panicked phase p, _ => .ret (.error (.fromPayload phase p))
  | .prepareFailed _, _ => .abort
  | .preparePanicked _, _ => .abort

def lifecycleOutcome (v : Verdict R E C π) (cleanup : Option π) (f : Finalization C π) :
    Exit π (LifecycleOutcome R E C) :=
  match v, cleanup with
  | .notAdmitted, none => .ret .initialConditionNotMet
  | .notAdmitted, some p => .unwind p
  | .checkPanicked p, _ => .unwind p
  | .prepareFailed c, none => .ret (.prepareFailed c)
  | .prepareFailed _, some p => .unwind p
  | .preparePanicked p, _ => .unwind p
  | .conditionNotMet, _ => f.outcome.map .secondConditionNotMet
  | .returned (.ok value), _ => f.outcome.map (.taskSucceeded value)
  | .returned (.error error), _ => f.outcome.map (.taskFailed error)
  | .panicked _ p, _ => .unwind p

def capturedLifecycleOutcome (v : Verdict R E C π) (cleanup : Option π) (f : Finalization C π) :
    CapturedLifecycleOutcome R E C π :=
  match v, cleanup with
  | .notAdmitted, none => .initialConditionNotMet
  | .notAdmitted, some p => .taskCleanupPanicked (.fromPayload .taskCleanup p)
  | .checkPanicked p, _ => .initialConditionCheckPanicked (.fromPayload .initialConditionCheck p)
  | .prepareFailed c, _ => .prepareFailed c
  | .preparePanicked p, _ => .preparePanicked (.fromPayload .prepare p)
  | .conditionNotMet, _ => .secondConditionNotMet (f.captured .rollback)
  | .returned (.ok value), _ => .taskSucceeded value (f.captured .commit)
  | .returned (.error error), _ => .taskFailed error (f.captured .rollback)
  | .panicked phase p, _ => .executionPanicked (.fromPayload phase p) (f.captured .rollback)

end Verdict

def Invocation.answer (i : Invocation) (v : Verdict R E C π) (cleanup : Option π)
    (f : Finalization C π) : Answer R E C π :=
  match i with
  | .basic false _ => .outcome (v.outcome cleanup)
  | .basic true _ => .captured (v.capturedOutcome cleanup)
  | .lifecycle _ _ false _ => .lifecycle (v.lifecycleOutcome cleanup f)
  | .lifecycle _ _ true _ => .lifecycleCaptured (.ret (v.capturedLifecycleOutcome cleanup f))

def Invocation.returns {P : Type} (i : Invocation) (a : Answer R E C π)
    (q : Station P R E C π) : Prop :=
  ∃ v cleanup f, q = .ended v cleanup f ∧ a = i.answer v cleanup f

end Answers
end DoubleChecked
