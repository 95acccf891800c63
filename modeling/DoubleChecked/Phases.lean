import DoubleChecked.Resumption

/-!
# Where a captured panic comes from

Every `PanicInfo` that an invocation hands out, in its outcome or as the cause of a
rollback, holds the payload of a panic among its calls. The phase tells which call it
was and what had been called before it, and no other call fits.
-/

namespace DoubleChecked
open Effect
open Effect.Program (run)

variable {P R E C π : Type}

namespace CallEvent

def panic : CallEvent P R E C π → Option π
  | ⟨.predicate, r⟩ => r.payload
  | ⟨.prepare, r⟩ => r.payload
  | ⟨.lock, r⟩ => r.payload
  | ⟨.dropGuard _, r⟩ => r.payload
  | ⟨.task, r⟩ => r.payload
  | ⟨.taskWithToken _, r⟩ => r.1.payload
  | ⟨.dropTask _, r⟩ => r.payload
  | ⟨.commit _, r⟩ => r.payload
  | ⟨.rollback _ _, r⟩ => r.payload
  | ⟨.dropToken _ _, r⟩ => r.payload
  | ⟨.discard _ _, _⟩ => none

def causePanic : CallEvent P R E C π → Option (PanicInfo π)
  | ⟨.rollback _ (.panicked info), _⟩ => some info
  | _ => none

end CallEvent

def CapturedFinalizationOutcome.panics : CapturedFinalizationOutcome C π → List (PanicInfo π)
  | .panicked info => [info]
  | _ => []

def CapturedLifecycleOutcome.panics : CapturedLifecycleOutcome R E C π → List (PanicInfo π)
  | .initialConditionNotMet | .prepareFailed _ => []
  | .initialConditionCheckPanicked info | .taskCleanupPanicked info | .preparePanicked info =>
    [info]
  | .taskSucceeded _ f | .secondConditionNotMet f | .taskFailed _ f => f.panics
  | .executionPanicked info f => info :: f.panics

def Answer.panics : Answer R E C π → List (PanicInfo π)
  | .captured (.ret (.error info)) => [info]
  | .lifecycleCaptured (.ret o) => o.panics
  | _ => []

/-- What a phase says of the call `o` that panicked after the calls `pre`. -/
def ComesFrom (pre : List (CallEvent P R E C π)) (o : Call P R E C π) : PanicPhase → Prop
  | .initialConditionCheck => o = .predicate ∧ pre = []
  | .prepare => o = .prepare
  | .lockAcquisition => o = .lock ∧ (tally pre).acquired = 0
  | .secondConditionCheck => o = .predicate ∧ GuardHeld pre
  | .task => o.startsTask = true ∧
      ∃ before, pre = before ++ [⟨.predicate, .ret true⟩] ∧ GuardHeld before
  | .lockRelease => o.isDropGuard = true ∧ (tally pre).checked = 2 ∧
      ∀ d ∈ pre, d.op.startsTask = true → d.panic = none
  | .commit => ((∃ t, o = .commit t) ∨ ∃ t, o = .dropToken .scope t) ∧
      (account pre).commitPath = true
  | .rollback => ((∃ t cause, o = .rollback t cause) ∨ ∃ t, o = .dropToken .scope t) ∧
      (account pre).commitPath = false
  | .taskCleanup => o.isDropTask = true ∧ ¬GuardHeld pre ∧ (tally pre).started = 0

/-- Among the calls `es` one raised `p`, and it is the one that the phase names. Only a
finalizer that rolls back may come after another panic, which then has been caught. -/
def RaisedIn (es : List (CallEvent P R E C π)) (phase : PanicPhase) (p : π) : Prop :=
  ∃ pre e post, es = pre ++ e :: post ∧ e.panic = some p ∧
    (phase ≠ .rollback → ∀ d ∈ pre, d.panic = none) ∧
    ∀ phase', phase = phase' ↔ ComesFrom pre e.op phase'

section Phases
variable {pre post : List (CallEvent P R E C π)} {o : Call P R E C π} {phase phase' : PanicPhase}
  {e : CallEvent P R E C π} {p : π}

def phaseOf (pre : List (CallEvent P R E C π)) : Call P R E C π → PanicPhase
  | .predicate => if pre.isEmpty then .initialConditionCheck else .secondConditionCheck
  | .prepare => .prepare
  | .lock => .lockAcquisition
  | .task | .taskWithToken _ => .task
  | .dropGuard _ => .lockRelease
  | .dropTask _ => .taskCleanup
  | .commit _ => .commit
  | .rollback _ _ => .rollback
  | .dropToken _ _ | .discard _ _ => if (account pre).commitPath then .commit else .rollback

theorem phaseOf_of_comesFrom (h : ComesFrom pre o phase) : phaseOf pre o = phase := by
  cases phase with
  | initialConditionCheck =>
    obtain ⟨rfl, rfl⟩ := h
    rfl
  | secondConditionCheck =>
    obtain ⟨rfl, hheld⟩ := h
    cases pre with
    | nil => exact absurd hheld (Nat.lt_irrefl 0)
    | cons d pre => rfl
  | prepare =>
    obtain rfl := h
    rfl
  | lockAcquisition =>
    obtain ⟨rfl, -⟩ := h
    rfl
  | task =>
    cases o with
    | task | taskWithToken => rfl
    | _ => exact nomatch h.1
  | lockRelease =>
    cases o with
    | dropGuard => rfl
    | _ => exact nomatch h.1
  | taskCleanup =>
    cases o with
    | dropTask => rfl
    | _ => exact nomatch h.1
  | commit =>
    obtain ⟨⟨t, rfl⟩ | ⟨t, rfl⟩, hpath⟩ := h
    · rfl
    · exact if_pos hpath
  | rollback =>
    obtain ⟨⟨t, cause, rfl⟩ | ⟨t, rfl⟩, hpath⟩ := h
    · rfl
    · exact if_neg (Bool.eq_false_iff.mp hpath)

theorem raisedIn_of (pre : List (CallEvent P R E C π)) (he : e.panic = some p)
    (hphase : ComesFrom pre e.op phase) (hearlier : phase ≠ .rollback → ∀ d ∈ pre, d.panic = none) :
    RaisedIn (pre ++ e :: post) phase p := by
  refine ⟨pre, e, post, rfl, he, hearlier, fun phase' => ⟨fun h => h ▸ hphase, fun h => ?_⟩⟩
  exact (phaseOf_of_comesFrom hphase).symm.trans (phaseOf_of_comesFrom h)

end Phases

section Locked
variable {i : Invocation} {token token' : Option P} {v : Verdict R E C π}
  {pre mid : List (CallEvent P R E C π)} {e : CallEvent P R E C π} {phase : PanicPhase} {p : π}

theorem LockedPhase.panic_eq (h : LockedPhase token mid token' v) :
    ∀ e ∈ mid, e.panic = e.lockedPanic.map Prod.snd := by
  rw [← List.map_inj_left]
  cases h with
  | ran he | ranReleasePanic p he | taskPanic p he =>
    cases he with
    | task | withToken => rfl
  | _ => rfl

theorem LockedPhase.raised (h : LockedPhase token mid token' (.panicked phase p)) :
    ∃ before e after, mid = before ++ e :: after ∧ e.lockedPanic = some (phase, p) ∧
      e.panic = some p ∧ ∀ d ∈ before, d.panic = none := by
  obtain ⟨before, e, after, rfl, hbefore, he, -⟩ := List.filterMap_eq_cons_iff.mp h.lockedPanics
  refine ⟨before, e, after, rfl, he, ?_, fun d hd => ?_⟩
  · rw [h.panic_eq e (List.mem_append_right _ List.mem_cons_self), he]
    rfl
  · rw [h.panic_eq d (List.mem_append_left _ hd), hbefore d hd]
    rfl

theorem Opening.silent (h : Opening i token pre) : ∀ d ∈ pre, d.panic = none := by
  cases h with
  | unprepared | prepared => simp [CallEvent.panic, Reply.payload]

theorem comesFrom_of_lawful (hlaw : Lawful i pre e.op) (hpre : pre ≠ [])
    (hearlier : ∀ d ∈ pre, d.panic = none) (he : e.lockedPanic = some (phase, p)) :
    ComesFrom pre e.op phase := by
  obtain ⟨o, r⟩ := e
  cases o with
  | predicate =>
    cases r with
    | ret met => exact nomatch he
    | panic q =>
      cases he
      exact ⟨rfl, (hlaw.resolve_left hpre).1⟩
  | lock =>
    cases r with
    | ret u => exact nomatch he
    | panic q =>
      cases he
      obtain ⟨token, hopen⟩ := hlaw
      exact ⟨rfl, congrArg Tally.acquired hopen.tally⟩
  | task =>
    cases r with
    | ret result => exact nomatch he
    | panic q =>
      cases he
      exact ⟨rfl, hlaw.2⟩
  | taskWithToken t =>
    obtain ⟨_ | q, t'⟩ := r
    · exact nomatch he
    · cases he
      exact ⟨rfl, hlaw.2⟩
  | dropGuard u =>
    cases r with
    | ret u => exact nomatch he
    | panic q =>
      cases he
      -- nothing has panicked before, so a task that was started has returned
      exact ⟨rfl, hlaw.2.1, fun d hd _ => hearlier d hd⟩
  | dropTask u =>
    cases r with
    | ret u => exact nomatch he
    | panic q =>
      cases he
      exact ⟨rfl, hlaw.1, hlaw.2.2.1⟩
  | _ => exact nomatch he

theorem raisedIn_of_lockedPhase {post : List (CallEvent P R E C π)}
    (hlaw : CallLaw i (pre ++ mid ++ post)) (hopen : Opening i token pre)
    (hmid : LockedPhase token mid token' (.panicked phase p)) :
    RaisedIn (pre ++ mid ++ post) phase p := by
  obtain ⟨before, e, after, rfl, he, hpanic, hbefore⟩ := hmid.raised
  have hsplit : pre ++ (before ++ e :: after) ++ post =
      (pre ++ before) ++ e :: (after ++ post) := by simp
  have hearlier : ∀ d ∈ pre ++ before, d.panic = none :=
    List.forall_mem_append.mpr ⟨hopen.silent, hbefore⟩
  have hpre : pre ++ before ≠ [] := by
    cases hopen with
    | unprepared | prepared => exact nofun
  rw [hsplit]
  exact raisedIn_of _ hpanic (comesFrom_of_lawful (hlaw.lawful _ e _ hsplit) hpre hearlier he)
    fun _ => hearlier

end Locked

def Finalization.panic : Finalization C π → Option π
  | .notReached => none
  | .called r => r.payload
  | .dropped r => r.payload

def Verdict.finalizing (v : Verdict R E C π) : PanicPhase :=
  if v.commits then .commit else .rollback

section Finalizer
variable [PanicPayload π] {i : Invocation} {v : Verdict R E C π} {cleanup : Option π}
  {f : Finalization C π} {token token' : Option P} {t : P}
  {pre mid post before after : List (CallEvent P R E C π)} {e : CallEvent P R E C π} {p : π}

theorem panic_of_finalizes (h : i.Finalizes t v e f) : e.panic = f.panic := by
  cases h <;> rfl

theorem comesFrom_of_allows (hpath : i.monitor.Path .fresh pre (.finalizing t v))
    (h : i.allows (.finalizing t v) e.op) (he : e.op.handsOver = true) :
    ComesFrom pre e.op v.finalizing := by
  have hcommit := (accounted_of_path hpath).2.2.1
  obtain ⟨o, r⟩ := e
  cases o with
  | commit t' =>
    obtain ⟨-, hv, -⟩ := h
    rw [Verdict.finalizing, hv]
    exact ⟨.inl ⟨t', rfl⟩, hcommit.trans hv⟩
  | rollback t' cause =>
    have hv := Verdict.not_commits_of_cause h.2.1
    rw [Verdict.finalizing, hv]
    exact ⟨.inl ⟨t', cause, rfl⟩, hcommit.trans hv⟩
  | dropToken mode t' =>
    obtain ⟨-, rfl, -⟩ := h
    rw [Verdict.finalizing]
    cases hv : v.commits with
    | true => exact ⟨.inr ⟨t', rfl⟩, hcommit.trans hv⟩
    | false => exact ⟨.inr ⟨t', rfl⟩, hcommit.trans hv⟩
  | _ => exact nomatch he

omit [PanicPayload π] in
theorem LockedPhase.silent (h : LockedPhase token mid token' v) (hv : v.commits = true) :
    ∀ d ∈ mid, d.panic = none := by
  have hnone : mid.filterMap CallEvent.lockedPanic = [] := by
    rw [h.lockedPanics]
    cases v with
    | panicked phase p => exact nomatch hv
    | _ => rfl
  intro d hd
  rw [h.panic_eq d hd, List.filterMap_eq_nil_iff.mp hnone d hd]
  rfl

theorem raisedIn_of_finalizes (hpath : i.monitor.Path .fresh (pre ++ mid ++ post)
      (.ended v cleanup f)) (hopen : Opening i token pre)
    (hmid : LockedPhase token mid (some t) v) (hend : Ending i v (some t) post f)
    (hf : f.panic = some p) : RaisedIn (pre ++ mid ++ post) v.finalizing p := by
  cases hend with
  | @finalized _ before after e _ hbefore hfin hafter =>
    rw [← List.append_assoc] at hpath ⊢
    have he := handsOver_of_finalizes hfin
    obtain ⟨t', hfinalizing, hallowed⟩ := path_handsOver hpath he
    refine raisedIn_of _ ((panic_of_finalizes hfin).trans hf)
      (comesFrom_of_allows hfinalizing hallowed he) fun hphase => ?_
    have hv : v.commits = true := by
      cases hv : v.commits with
      | true => rfl
      | false => exact absurd (by rw [Verdict.finalizing, hv]; rfl) hphase
    have hdiscards (d : CallEvent P R E C π) (hd : d ∈ before) : d.panic = none := by
      have hdiscard := hbefore d hd
      obtain ⟨o, r⟩ := d
      cases o with
      | discard mode x => rfl
      | _ => exact nomatch hdiscard
    exact List.forall_mem_append.mpr
      ⟨List.forall_mem_append.mpr ⟨hopen.silent, hmid.silent hv⟩, hdiscards⟩

end Finalizer

section Handed
variable [PanicPayload π] {i : Invocation} {v : Verdict R E C π} {cleanup : Option π}
  {f : Finalization C π} {es : List (CallEvent P R E C π)} {info : PanicInfo π}

inductive Caught (v : Verdict R E C π) (cleanup : Option π) (f : Finalization C π) :
    PanicPhase → π → Prop
  | check (p : π) : v = .checkPanicked p → Caught v cleanup f .initialConditionCheck p
  | prepare (p : π) : v = .preparePanicked p → Caught v cleanup f .prepare p
  | locked (phase : PanicPhase) (p : π) : v = .panicked phase p → Caught v cleanup f phase p
  | cleanup (p : π) : v = .notAdmitted → cleanup = some p → Caught v cleanup f .taskCleanup p
  | finalizer (p : π) : f.panic = some p → Caught v cleanup f v.finalizing p

def Handed (v : Verdict R E C π) (cleanup : Option π) (f : Finalization C π)
    (info : PanicInfo π) : Prop :=
  ∃ phase p, info = .fromPayload phase p ∧ Caught v cleanup f phase p

theorem Caught.handed {phase : PanicPhase} {p : π} (h : Caught v cleanup f phase p)
    (hinfo : info ∈ [PanicInfo.fromPayload phase p]) : Handed v cleanup f info :=
  ⟨phase, p, List.mem_singleton.mp hinfo, h⟩

theorem handed_of_captured (h : info ∈ (f.captured v.finalizing).panics) :
    Handed v cleanup f info := by
  cases f with
  | notReached => exact nomatch h
  | called r =>
    rcases r with (c | u) | p
    · exact nomatch h
    · exact nomatch h
    · exact (Caught.finalizer p rfl).handed h
  | dropped r =>
    cases r with
    | ret u => exact nomatch h
    | panic p => exact (Caught.finalizer p rfl).handed h

theorem handed_of_basic
    (h : info ∈ (Answer.captured (C := C) (v.capturedOutcome cleanup)).panics) :
    Handed v cleanup f info := by
  cases v with
  | notAdmitted =>
    cases cleanup with
    | none => exact nomatch h
    | some p => exact (Caught.cleanup p rfl rfl).handed h
  | checkPanicked p => exact (Caught.check p rfl).handed h
  | returned result => cases result <;> exact nomatch h
  | panicked phase p => exact (Caught.locked phase p rfl).handed h
  | _ => exact nomatch h

theorem handed_of_lifecycle (h : info ∈ (v.capturedLifecycleOutcome cleanup f).panics) :
    Handed v cleanup f info := by
  cases v with
  | notAdmitted =>
    cases cleanup with
    | none => exact nomatch h
    | some p => exact (Caught.cleanup p rfl rfl).handed h
  | checkPanicked p => exact (Caught.check p rfl).handed h
  | prepareFailed c => exact nomatch h
  | preparePanicked p => exact (Caught.prepare p rfl).handed h
  | conditionNotMet => exact handed_of_captured h
  | returned result =>
    cases result with
    | ok value => exact handed_of_captured h
    | error error => exact handed_of_captured h
  | panicked phase p =>
    rcases List.mem_cons.mp h with rfl | h
    · exact ⟨phase, p, rfl, .locked phase p rfl⟩
    · exact handed_of_captured h

theorem handed_of_answer (h : info ∈ (i.answer v cleanup f).panics) :
    Handed v cleanup f info := by
  cases i with
  | basic catching clones =>
    cases catching with
    | false => exact nomatch h
    | true => exact handed_of_basic h
  | lifecycle finalizers withToken catching clones =>
    cases catching with
    | false => exact nomatch h
    | true => exact handed_of_lifecycle h

theorem raisedIn_of_caught {phase : PanicPhase} {p : π}
    (hpath : i.monitor.Path .fresh es (.ended v cleanup f))
    (h : Caught v cleanup f phase p) : RaisedIn es phase p := by
  have hlaw := callLaw_of_path hpath
  have htranscript := transcript_of_path hpath
  cases h with
  | check p hv =>
    subst hv
    cases htranscript with
    | checkPanicked p u x hes => exact raisedIn_of [] rfl ⟨rfl, rfl⟩ fun _ => List.forall_mem_nil _
    | locked hopen hmid hend => exact nomatch hmid
  | prepare p hv =>
    subst hv
    cases htranscript with
    | preparePanicked p u x _ hes =>
      exact raisedIn_of [⟨.predicate, .ret true⟩] rfl rfl
        fun _ d hd => List.mem_singleton.mp hd ▸ rfl
    | locked hopen hmid hend => exact nomatch hmid
  | locked phase p hv =>
    subst hv
    cases htranscript with
    | locked hopen hmid hend => exact raisedIn_of_lockedPhase hlaw hopen hmid
  | cleanup p hv hc =>
    subst hv
    cases htranscript with
    | notAdmitted x hes =>
      cases x with
      | ret u => exact nomatch hc
      | panic p =>
        cases hc
        exact raisedIn_of [⟨.predicate, .ret false⟩] rfl ⟨rfl, Nat.lt_irrefl 0, rfl⟩
          fun _ d hd => List.mem_singleton.mp hd ▸ rfl
    | locked hopen hmid hend => exact nomatch hmid
  | finalizer p hf =>
    cases htranscript with
    | locked hopen hmid hend =>
      obtain _ | ⟨_, _, _⟩ := id hend
      · exact nomatch hf
      · exact raisedIn_of_finalizes hpath hopen hmid hend hf
    | _ => exact nomatch hf

theorem handed_of_cause (hpath : i.monitor.Path .fresh es (.ended v cleanup f))
    (h : info ∈ es.filterMap CallEvent.causePanic) : Handed v cleanup f info := by
  obtain ⟨⟨o, r⟩, hmem, he⟩ := List.mem_filterMap.mp h
  obtain ⟨before, after, rfl⟩ := List.append_of_mem hmem
  cases o with
  | rollback t cause =>
    obtain ⟨t', -, -, hcause, -⟩ := path_handsOver hpath rfl
    cases cause with
    | panicked info' =>
      cases he
      cases v with
      | panicked phase p =>
        cases hcause
        exact ⟨phase, p, rfl, .locked phase p rfl⟩
      | returned result => cases result <;> exact nomatch hcause
      | _ => exact nomatch hcause
    | _ => exact nomatch he
  | _ => exact nomatch he

end Handed

/-- In every run of every entry point in which no destructor panics during an unwind: what
an outcome or a rollback is told of a panic is its payload and the call it came from. -/
theorem panic_phases [PanicPayload π] {σ : Type} (i : Invocation)
    (h : (o : Call P R E C π) → σ → o.Answer × σ) (s : σ)
    (hadmitted : Admitted (run h i.program s).events) (info : PanicInfo π)
    (hinfo : info ∈ (run h i.program s).result.panics ++
      (run h i.program s).events.filterMap CallEvent.causePanic) :
    ∃ p, info = .fromPayload info.phase p ∧
      RaisedIn (run h i.program s).events info.phase p := by
  obtain ⟨v, cleanup, f, hpath, hresult⟩ := run_path hadmitted
  have hhanded : Handed v cleanup f info := by
    rcases List.mem_append.mp hinfo with hinfo | hinfo
    · rw [hresult] at hinfo
      exact handed_of_answer hinfo
    · exact handed_of_cause hpath hinfo
  obtain ⟨phase, p, rfl, hcaught⟩ := hhanded
  exact ⟨p, rfl, raisedIn_of_caught hpath hcaught⟩

theorem panic_phases_releaseAndRollbackPanic :
    ∃ p, (.fromPayload .rollback "rollback" : PanicInfo String) = .fromPayload .rollback p ∧
      RaisedIn (run releaseAndRollbackPanic
        (Invocation.lifecycle .commitAndRollback true true 1).program 0).events .rollback p :=
  panic_phases (.lifecycle .commitAndRollback true true 1) releaseAndRollbackPanic 0
    (admitted_iff_exit.mpr nofun) (.fromPayload .rollback "rollback")
    (List.mem_append_left _ (List.mem_cons_of_mem _ List.mem_cons_self))

end DoubleChecked
