import DoubleChecked.Containment

/-!
# What the captured outcome tells

`report` reads the outcome off the calls of a capturing lifecycle invocation and their
replies, without looking at how the invocation came to it: which check or callback
failed first decides, and the last use of the token decides the finalization.
-/

namespace DoubleChecked
open Effect
open Effect.Program (run)

variable {P R E C π : Type}

namespace CallEvent

def lockedPanic : CallEvent P R E C π → Option (PanicPhase × π)
  | ⟨.lock, .panic p⟩ => some (.lockAcquisition, p)
  | ⟨.predicate, .panic p⟩ => some (.secondConditionCheck, p)
  | ⟨.task, .panic p⟩ => some (.task, p)
  | ⟨.taskWithToken _, (.panic p, _)⟩ => some (.task, p)
  | ⟨.dropGuard _, .panic p⟩ => some (.lockRelease, p)
  | ⟨.dropTask _, .panic p⟩ => some (.taskCleanup, p)
  | _ => none

def cleanupPanic : CallEvent P R E C π → Option π
  | ⟨.dropTask _, .panic p⟩ => some p
  | _ => none

def checked : CallEvent P R E C π → Option Bool
  | ⟨.predicate, .ret met⟩ => some met
  | _ => none

def taskResult : CallEvent P R E C π → Option (Except E R)
  | ⟨.task, .ret result⟩ => some result
  | ⟨.taskWithToken _, (.ret result, _)⟩ => some result
  | _ => none

end CallEvent

section Report
variable [PanicPayload π]

namespace CapturedFinalizationOutcome

def ofCallback (phase : PanicPhase) : Reply π (Except C Unit) → CapturedFinalizationOutcome C π
  | .ret (.ok ()) => .succeeded
  | .ret (.error c) => .failed c
  | .panic p => .panicked (.fromPayload phase p)

def ofTokenDrop (phase : PanicPhase) : Reply π Unit → CapturedFinalizationOutcome C π
  | .ret () => .notRequired
  | .panic p => .panicked (.fromPayload phase p)

end CapturedFinalizationOutcome

def reportCommit (finalizers : Finalizers) (es : List (CallEvent P R E C π)) :
    Option (CapturedFinalizationOutcome C π) :=
  match finalizers.hasCommit, es.filter (·.op.handsOver) with
  | true, [⟨.commit _, r⟩] => some (.ofCallback .commit r)
  | false, [⟨.dropToken _ _, r⟩] => some (.ofTokenDrop .commit r)
  | _, _ => none

def reportRollback (finalizers : Finalizers) (es : List (CallEvent P R E C π)) :
    Option (CapturedFinalizationOutcome C π) :=
  match finalizers.hasRollback, es.filter (·.op.handsOver) with
  | true, [⟨.rollback _ _, r⟩] => some (.ofCallback .rollback r)
  | false, [⟨.dropToken _ _, r⟩] => some (.ofTokenDrop .rollback r)
  | _, _ => none

/-- The calls from the acquisition on: the first panic of the locked phase decides, else
the second check and the task. -/
def reportLocked (finalizers : Finalizers) (es : List (CallEvent P R E C π)) :
    Option (CapturedLifecycleOutcome R E C π) :=
  match es.findSome? CallEvent.lockedPanic with
  | some (phase, p) =>
    (reportRollback finalizers es).map (.executionPanicked (.fromPayload phase p))
  | none => match es.findSome? CallEvent.checked, es.findSome? CallEvent.taskResult with
    | some false, none => (reportRollback finalizers es).map .secondConditionNotMet
    | some true, some (.ok value) => (reportCommit finalizers es).map (.taskSucceeded value)
    | some true, some (.error error) => (reportRollback finalizers es).map (.taskFailed error)
    | _, _ => none

/-- A failure before the locked phase decides whatever the task's destructor does later. -/
def report (finalizers : Finalizers) :
    List (CallEvent P R E C π) → Option (CapturedLifecycleOutcome R E C π)
  | ⟨.predicate, .panic p⟩ :: _ =>
    some (.initialConditionCheckPanicked (.fromPayload .initialConditionCheck p))
  | ⟨.predicate, .ret false⟩ :: es => match es.findSome? CallEvent.cleanupPanic with
    | some p => some (.taskCleanupPanicked (.fromPayload .taskCleanup p))
    | none => some .initialConditionNotMet
  | ⟨.predicate, .ret true⟩ :: ⟨.prepare, .ret (.error c)⟩ :: _ => some (.prepareFailed c)
  | ⟨.predicate, .ret true⟩ :: ⟨.prepare, .panic p⟩ :: _ =>
    some (.preparePanicked (.fromPayload .prepare p))
  | ⟨.predicate, .ret true⟩ :: ⟨.prepare, .ret (.ok _)⟩ :: es => reportLocked finalizers es
  | _ => none

end Report

section Later
variable {es : List (CallEvent P R E C π)} {α : Type}

def Later (es : List (CallEvent P R E C π)) : Prop :=
  ∀ e ∈ es, e.op.isDiscard = true ∨ e.op.handsOver = true

theorem Later.findSome? (h : Later es) {f : CallEvent P R E C π → Option α}
    (hf : ∀ e, e.op.isDiscard = true ∨ e.op.handsOver = true → f e = none) :
    es.findSome? f = none :=
  List.findSome?_eq_none_iff.mpr fun e he => hf e (h e he)

theorem filter_discarding (h : Discarding es) : es.filter (·.op.handsOver) = [] := by
  apply List.filter_eq_nil_iff.mpr
  intro e he hh
  have hd := h e he
  obtain ⟨o, r⟩ := e
  cases o with
  | discard mode v => exact nomatch hh
  | _ => exact nomatch hd

theorem filter_handsOver_append {mid : List (CallEvent P R E C π)}
    (hmid : ∀ e ∈ mid, e.op.handsOver = false) :
    (mid ++ es).filter (·.op.handsOver) = es.filter (·.op.handsOver) := by
  rw [List.filter_append, List.filter_eq_nil_iff.mpr, List.nil_append]
  intro e he
  rw [hmid e he]
  exact nofun

end Later

section Ending
variable [PanicPayload π] {i : Invocation} {v : Verdict R E C π} {t : P}
  {es : List (CallEvent P R E C π)} {e : CallEvent P R E C π} {f : Finalization C π}

theorem handsOver_of_finalizes (h : i.Finalizes t v e f) : e.op.handsOver = true := by
  cases h <;> rfl

theorem ending_some (h : Ending i v (some t) es f) :
    ∃ e, i.Finalizes t v e f ∧ es.filter (·.op.handsOver) = [e] ∧ Later es := by
  cases h with
  | @finalized t pre post e f hpre hf hpost =>
    have he := handsOver_of_finalizes hf
    refine ⟨e, hf, ?_, ?_⟩
    · simp [he, filter_discarding hpre, filter_discarding hpost]
    · intro d hd
      rcases List.mem_append.mp hd with hd | hd
      · exact .inl (hpre d hd)
      · rcases List.mem_cons.mp hd with rfl | hd
        · exact .inr he
        · exact .inl (hpost d hd)

theorem ofCallback_eq_captured (phase : PanicPhase) (r : Reply π (Except C Unit)) :
    CapturedFinalizationOutcome.ofCallback phase r = (Finalization.called r).captured phase := by
  rcases r with (c | u) | p <;> rfl

theorem ofTokenDrop_eq_captured (phase : PanicPhase) (r : Reply π Unit) :
    (CapturedFinalizationOutcome.ofTokenDrop phase r : CapturedFinalizationOutcome C π) =
      (Finalization.dropped r).captured phase := by
  cases r <;> rfl

variable {finalizers : Finalizers} {withToken catching : Bool} {clones : ℕ}

theorem reportCommit_of_finalizes
    (hf : (Invocation.lifecycle finalizers withToken catching clones).Finalizes t v e f)
    (hv : v.commits = true) (hes : es.filter (·.op.handsOver) = [e]) :
    reportCommit finalizers es = some (f.captured .commit) := by
  cases hf with
  | commit r _ hc =>
    rw [reportCommit, hes, show finalizers.hasCommit = true from hc]
    exact congrArg some (ofCallback_eq_captured .commit r)
  | rollback cause r hcause => exact nomatch (Verdict.not_commits_of_cause hcause).symm.trans hv
  | dropToken r hc =>
    rw [Invocation.hasFinalizer_of_commits hv] at hc
    rw [reportCommit, hes, show finalizers.hasCommit = false from hc]
    exact congrArg some (ofTokenDrop_eq_captured .commit r)

theorem reportRollback_of_finalizes
    (hf : (Invocation.lifecycle finalizers withToken catching clones).Finalizes t v e f)
    (hv : v.commits = false) (hes : es.filter (·.op.handsOver) = [e]) :
    reportRollback finalizers es = some (f.captured .rollback) := by
  cases hf with
  | commit r hc => exact nomatch hv.symm.trans hc
  | rollback cause r _ hc =>
    rw [reportRollback, hes, show finalizers.hasRollback = true from hc]
    exact congrArg some (ofCallback_eq_captured .rollback r)
  | dropToken r hc =>
    simp only [Invocation.hasFinalizer, hv, Bool.false_eq_true, if_false] at hc
    rw [reportRollback, hes, show finalizers.hasRollback = false from hc]
    exact congrArg some (ofTokenDrop_eq_captured .rollback r)

omit [PanicPayload π] in
theorem later_silent {e : CallEvent P R E C π}
    (he : e.op.isDiscard = true ∨ e.op.handsOver = true) :
    e.lockedPanic = none ∧ e.checked = none ∧ e.taskResult = none ∧ e.cleanupPanic = none := by
  obtain ⟨o, r⟩ := e
  cases o with
  | commit | rollback | dropToken | discard => exact ⟨rfl, rfl, rfl, rfl⟩
  | _ => simp [Call.isDiscard, Call.handsOver] at he

theorem reportLocked_of_lockedPhase {mid post : List (CallEvent P R E C π)} {token' : Option P}
    (hmid : LockedPhase (some t) mid token' v)
    (hend : Ending (.lifecycle finalizers withToken catching clones) v token' post f) :
    reportLocked finalizers (mid ++ post) = some (v.capturedLifecycleOutcome none f) := by
  obtain ⟨htoken, hhands⟩ := hmid.keeps_token
  obtain ⟨t', rfl⟩ := Option.isSome_iff_exists.mp htoken
  obtain ⟨e, hfin, hfilter, hlater⟩ := ending_some hend
  rw [← filter_handsOver_append hhands] at hfilter
  have hcommit (hv : v.commits = true) : reportCommit finalizers (mid ++ post) =
      some (f.captured .commit) := reportCommit_of_finalizes hfin hv hfilter
  have hrollback (hv : v.commits = false) : reportRollback finalizers (mid ++ post) =
      some (f.captured .rollback) := reportRollback_of_finalizes hfin hv hfilter
  simp only [reportLocked, List.findSome?_append, hlater.findSome? fun e he => (later_silent he).1,
    hlater.findSome? fun e he => (later_silent he).2.1,
    hlater.findSome? fun e he => (later_silent he).2.2.1, Option.or_none]
  cases hmid with
  | lockPanic p | checkPanic p | cleanupPanic p | releasePanic p =>
    exact congrArg (Option.map _) (hrollback rfl)
  | rejected => exact congrArg (Option.map _) (hrollback rfl)
  | @ran _ result _ he =>
    cases he with
    | task | withToken =>
      cases result with
      | ok value => exact congrArg (Option.map _) (hcommit rfl)
      | error error => exact congrArg (Option.map _) (hrollback rfl)
  | ranReleasePanic p he | taskPanic p he =>
    cases he with
    | task | withToken => exact congrArg (Option.map _) (hrollback rfl)

theorem report_of_transcript {cleanup : Option π}
    (h : Transcript (.lifecycle finalizers withToken catching clones) es v cleanup f) :
    report finalizers es = some (v.capturedLifecycleOutcome cleanup f) := by
  cases h with
  | notAdmitted x hes =>
    have hc := Later.findSome? (fun e he => .inl (hes e he)) fun e he => (later_silent he).2.2.2
    rw [report, List.findSome?_cons]
    cases x with
    | ret u => simp only [CallEvent.cleanupPanic, hc]; rfl
    | panic p => rfl
  | checkPanicked p u x => rfl
  | prepareFailed c x => rfl
  | preparePanicked p u x => rfl
  | locked hopen hmid hend =>
    cases hopen with
    | unprepared hp => exact nomatch hp
    | prepared t hp => exact reportLocked_of_lockedPhase hmid hend

end Ending

/-- Whatever the callbacks, the lock and the destructors do, the outcome that a capturing
lifecycle call returns is the one its calls report. -/
theorem captured_outcome [PanicPayload π] {σ : Type} (finalizers : Finalizers) (withToken : Bool)
    (clones : ℕ) (h : (o : Call P R E C π) → σ → o.Answer × σ) (s : σ)
    (o : CapturedLifecycleOutcome R E C π)
    (hrun : (run h (Invocation.lifecycle finalizers withToken true clones).program s).result =
      .lifecycleCaptured (.ret o)) :
    report finalizers
      (run h (Invocation.lifecycle finalizers withToken true clones).program s).events =
        some o := by
  have hadmitted : Admitted
      (run h (Invocation.lifecycle finalizers withToken true clones).program s).events := by
    rw [admitted_iff_exit, hrun]
    exact nofun
  obtain ⟨v, cleanup, f, hpath, ha⟩ := run_path hadmitted
  rw [report_of_transcript (transcript_of_path hpath)]
  rw [hrun] at ha
  cases ha
  rfl

def releaseAndRollbackPanic : (o : Call ℕ ℕ ℕ ℕ String) → ℕ → o.Answer × ℕ
  | .dropGuard _, n => (.panic "release", n + 1)
  | .rollback _ _, n => (.panic "rollback", n + 1)
  | o, n => (o.quiet, n + 1)

theorem captured_outcome_releaseAndRollbackPanic :
    report .commitAndRollback (run releaseAndRollbackPanic
      (Invocation.lifecycle .commitAndRollback true true 1).program 0).events =
        some (.executionPanicked (.fromPayload .lockRelease "release")
          (.panicked (.fromPayload .rollback "rollback"))) :=
  captured_outcome .commitAndRollback true 1 releaseAndRollbackPanic 0 _ rfl

end DoubleChecked
