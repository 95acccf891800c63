import DoubleChecked.Phases

/-!
# The first panic gets out

Whatever panics after it, the first panic of an invocation is the one its caller gets:
the call unwinds with it, or the outcome has captured it.
-/

namespace DoubleChecked
open Effect
open Effect.Program (run)

variable {P R E C π : Type}

def Verdict.panic : Verdict R E C π → Option π
  | .checkPanicked p | .preparePanicked p | .panicked _ p => some p
  | _ => none

def Answer.panic (a : Answer R E C π) : Option π :=
  match a.exit with
  | .unwind p => some p
  | _ => a.panics.head?.bind PanicInfo.payload

section Transcripts
variable [PanicPayload π] {i : Invocation} {es mid : List (CallEvent P R E C π)}
  {v : Verdict R E C π} {cleanup : Option π} {f : Finalization C π} {token token' : Option P}
  {pre post : List (CallEvent P R E C π)}

omit [PanicPayload π] in
theorem findSome?_of_discarding (h : Discarding es) : es.findSome? CallEvent.panic = none := by
  apply List.findSome?_eq_none_iff.mpr
  intro e he
  have hd := h e he
  obtain ⟨o, r⟩ := e
  cases o with
  | discard mode v => rfl
  | _ => exact nomatch hd

theorem Ending.findSome?_panic (h : Ending i v token es f) :
    es.findSome? CallEvent.panic = f.panic := by
  cases h with
  | unprepared hes => exact findSome?_of_discarding hes
  | finalized hpre hf hpost =>
    rw [List.findSome?_append, findSome?_of_discarding hpre, List.findSome?_cons,
      panic_of_finalizes hf, findSome?_of_discarding hpost]
    cases f.panic <;> rfl

omit [PanicPayload π] in
theorem LockedPhase.findSome?_panic (h : LockedPhase token mid token' v) :
    mid.findSome? CallEvent.panic = v.panic := by
  cases h with
  | ran he | ranReleasePanic p he | taskPanic p he => cases he <;> rfl
  | _ => rfl

omit [PanicPayload π] in
theorem Opening.findSome?_panic (h : Opening i token es) : es.findSome? CallEvent.panic = none := by
  cases h <;> rfl

omit [PanicPayload π] in
theorem LockedPhase.locked (h : LockedPhase token mid token' v) : v.Locked := by
  cases h <;> constructor

omit [PanicPayload π] in
theorem panic_of_finalization (o : FinalizationOutcome C → LifecycleOutcome R E C)
    (hf : f ≠ .notReached) :
    (Answer.lifecycle (f.outcome.map o) : Answer R E C π).panic = f.panic := by
  cases f with
  | notReached => exact absurd rfl hf
  | called r => rcases r with (c | u) | p <;> rfl
  | dropped r => cases r <;> rfl

theorem payload_of_captured (phase : PanicPhase) :
    (f.captured phase).panics.head?.bind PanicInfo.payload = f.panic := by
  cases f with
  | notReached => rfl
  | called r => rcases r with (c | u) | p <;> rfl
  | dropped r => cases r <;> rfl

omit [PanicPayload π] in
theorem panic_of_lifecycle (hv : v.Locked) (hf : f ≠ .notReached) :
    (Answer.lifecycle (v.lifecycleOutcome none f)).panic = v.panic.or f.panic := by
  cases hv with
  | conditionNotMet => exact panic_of_finalization .secondConditionNotMet hf
  | returned result =>
    cases result with
    | ok value => exact panic_of_finalization (.taskSucceeded value) hf
    | error error => exact panic_of_finalization (.taskFailed error) hf
  | panicked phase p => rfl

theorem panic_of_lifecycleCaptured (hv : v.Locked) :
    (Answer.lifecycleCaptured (.ret (v.capturedLifecycleOutcome none f))).panic =
      v.panic.or f.panic := by
  cases hv with
  | conditionNotMet => exact payload_of_captured .rollback
  | returned result =>
    cases result with
    | ok value => exact payload_of_captured .commit
    | error error => exact payload_of_captured .rollback
  | panicked phase p => rfl

theorem panic_of_locked (hopen : Opening i token pre) (hmid : LockedPhase token mid token' v)
    (hend : Ending i v token' post f) : (i.answer v none f).panic = v.panic.or f.panic := by
  have htoken := hmid.keeps_token.1
  cases i with
  | basic catching clones =>
    obtain hprep | ⟨t, hprep⟩ := hopen
    · cases hend with
      | finalized => exact nomatch htoken
      | unprepared hes =>
        cases hmid.locked with
        | returned result => cases catching <;> cases result <;> rfl
        | _ => cases catching <;> rfl
    · exact nomatch hprep
  | lifecycle finalizers withToken catching clones =>
    cases catching with
    | true => exact panic_of_lifecycleCaptured hmid.locked
    | false =>
      obtain hprep | ⟨t, hprep⟩ := hopen
      · exact nomatch hprep
      · cases hend with
        | unprepared => exact nomatch htoken
        | finalized hpre hf hpost =>
          exact panic_of_lifecycle hmid.locked (by cases hf <;> exact nofun)

theorem panic_of_transcript (h : Transcript i es v cleanup f) :
    (i.answer v cleanup f).panic = es.findSome? CallEvent.panic ∨
      ∃ c, i.answer v cleanup f = .lifecycleCaptured (.ret (.prepareFailed c)) := by
  cases h with
  | notAdmitted x hes =>
    refine .inl ?_
    have hnone := findSome?_of_discarding hes
    cases i with
    | basic catching clones =>
      cases x with
      | ret u => cases catching <;> exact hnone.symm
      | panic p => cases catching <;> rfl
    | lifecycle finalizers withToken catching clones =>
      cases x with
      | ret u => cases catching <;> exact hnone.symm
      | panic p => cases catching <;> rfl
  | checkPanicked p u x hes =>
    refine .inl ?_
    cases i with
    | basic catching clones => cases catching <;> rfl
    | lifecycle finalizers withToken catching clones => cases catching <;> rfl
  | prepareFailed c x hprep hes =>
    cases i with
    | basic => exact nomatch hprep
    | lifecycle finalizers withToken catching clones =>
      cases catching with
      | true => exact .inr ⟨c, rfl⟩
      | false =>
        refine .inl ?_
        cases x with
        | ret u => exact (findSome?_of_discarding hes).symm
        | panic p => rfl
  | preparePanicked p u x hprep hes =>
    refine .inl ?_
    cases i with
    | basic => exact nomatch hprep
    | lifecycle finalizers withToken catching clones => cases catching <;> rfl
  | locked hopen hmid hend =>
    refine .inl ?_
    rw [panic_of_locked hopen hmid hend, List.findSome?_append, List.findSome?_append,
      hopen.findSome?_panic, hmid.findSome?_panic, hend.findSome?_panic]
    rfl

end Transcripts

/-- In every run of every entry point that does not abort, the caller gets the first panic
among the calls, whatever panics after it, and none if nothing has panicked. Only a
capturing lifecycle call whose prepare failed keeps the panic of the task's destructor to
itself. -/
theorem first_panic [PanicPayload π] {σ : Type} (i : Invocation)
    (h : (o : Call P R E C π) → σ → o.Answer × σ) (s : σ)
    (hexit : (run h i.program s).result.exit ≠ .abort) :
    (run h i.program s).result.panic = (run h i.program s).events.findSome? CallEvent.panic ∨
      ∃ c, (run h i.program s).result = .lifecycleCaptured (.ret (.prepareFailed c)) := by
  obtain ⟨v, cleanup, f, hpath, hresult⟩ := run_path (admitted_iff_exit.mpr hexit)
  rw [hresult]
  exact panic_of_transcript (transcript_of_path hpath)

theorem first_panic_releaseAndRollbackPanic :
    let t := run releaseAndRollbackPanic
      (Invocation.lifecycle .commitAndRollback true false 1).program 0
    t.result.panic = t.events.findSome? CallEvent.panic ∨
      ∃ c, t.result = .lifecycleCaptured (.ret (.prepareFailed c)) :=
  first_panic (.lifecycle .commitAndRollback true false 1) releaseAndRollbackPanic 0 nofun

end DoubleChecked
