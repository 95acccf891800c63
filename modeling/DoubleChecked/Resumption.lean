import DoubleChecked.Reporting
import DoubleChecked.TokenCustody

/-!
# A panic in the locked phase

Once prepare has made a token, a panic in the locked phase of a propagating call ends
the call, after the token has been used once: rolled back with the panic as the cause,
or dropped where no rollback is configured. What that clean-up does, and what the
destructors of its remains do, changes nothing.
-/

namespace DoubleChecked
open Effect
open Effect.Program (run)

variable {P R E C π : Type}

/-- Of the calls `es`, one uses the token: after the call `e` that panicked with `p` in the
given phase, and after the guard is gone. -/
def CleansUp [PanicPayload π] (finalizers : Finalizers) (es : List (CallEvent P R E C π))
    (e : CallEvent P R E C π) (phase : PanicPhase) (p : π) : Prop :=
  ∃ before x after t, es = before ++ x :: after ∧ e ∈ before ∧ ¬GuardHeld before ∧
    (account before).slot = some t ∧ es.filter (·.op.handsOver) = [x] ∧
    if finalizers.hasRollback then ∃ r, x = ⟨.rollback t (.panicked (.fromPayload phase p)), r⟩
    else ∃ r, x = ⟨.dropToken .scope t, r⟩

section Locked
variable {i : Invocation} {token token' : Option P} {v : Verdict R E C π}
  {mid post es : List (CallEvent P R E C π)} {e : CallEvent P R E C π} {phase : PanicPhase} {p : π}

def Verdict.lockedPanic : Verdict R E C π → Option (PanicPhase × π)
  | .panicked phase p => some (phase, p)
  | _ => none

theorem TaskCall.lockedPanic {r : Reply π (Except E R)} (h : TaskCall token e r token') :
    e.lockedPanic = r.payload.map (.task, ·) := by
  cases h with
  | task r | withToken t t' r ht => cases r <;> rfl

theorem LockedPhase.lockedPanics (h : LockedPhase token mid token' v) :
    mid.filterMap CallEvent.lockedPanic = v.lockedPanic.toList := by
  cases h with
  | ran he | ranReleasePanic p he | taskPanic p he =>
    simp only [List.filterMap_cons, he.lockedPanic]
    rfl
  | _ => rfl

theorem LockedPhase.verdict_of_mem (h : LockedPhase token mid token' v) (hmem : e ∈ mid)
    (he : e.lockedPanic = some (phase, p)) : v = .panicked phase p := by
  have hpanic := List.mem_filterMap.mpr ⟨e, hmem, he⟩
  rw [h.lockedPanics] at hpanic
  cases v with
  | panicked phase p =>
    cases List.mem_singleton.mp hpanic
    rfl
  | _ => exact nomatch hpanic

end Locked

section Cleanup
variable [PanicPayload π] {finalizers : Finalizers} {withToken catching : Bool} {clones : ℕ}
  {v : Verdict R E C π} {es : List (CallEvent P R E C π)} {cleanup : Option π}
  {f : Finalization C π} {e : CallEvent P R E C π} {phase : PanicPhase} {p : π} {t : P}

theorem Transcript.prepared
    (h : Transcript (.lifecycle finalizers withToken catching clones) es v cleanup f)
    (ht : ⟨.prepare, .ret (.ok t)⟩ ∈ es) :
    ∃ t₀ mid token' post,
      es = ⟨.predicate, .ret true⟩ :: ⟨.prepare, .ret (.ok t₀)⟩ :: mid ++ post ∧
      LockedPhase (some t₀) mid token' v ∧
      Ending (.lifecycle finalizers withToken catching clones) v token' post f := by
  have hnot {es : List (CallEvent P R E C π)} (hes : Discarding es) :
      ⟨.prepare, .ret (.ok t)⟩ ∉ es := fun h => nomatch hes _ h
  cases h with
  | notAdmitted x hes | checkPanicked p u x hes => simp [hnot hes] at ht
  | prepareFailed c x hp hes | preparePanicked p u x hp hes => simp [hnot hes] at ht
  | locked hopen hmid hend =>
    cases hopen with
    | unprepared hp => exact nomatch hp
    | prepared t₀ hp => exact ⟨t₀, _, _, _, rfl, hmid, hend⟩

theorem path_handsOver {i : Invocation} {before after : List (CallEvent P R E C π)}
    {x : CallEvent P R E C π}
    (h : i.monitor.Path .fresh (before ++ x :: after) (.ended v cleanup f))
    (hx : x.op.handsOver = true) :
    ∃ t, i.monitor.Path .fresh before (.finalizing t v) ∧ i.allows (.finalizing t v) x.op := by
  obtain ⟨q, hbefore, hrest⟩ := Monitor.path_append.mp h
  cases hrest with
  | cons allowed hr hafter =>
    obtain ⟨t, w, rfl⟩ := finalizing_of_allows allowed hx
    obtain ⟨rfl, -⟩ := ending_of_path_finalizing (.cons allowed hr hafter)
    exact ⟨t, hbefore, allowed⟩

theorem cleansUp_of_path {before after : List (CallEvent P R E C π)} {x : CallEvent P R E C π}
    (hpath : (Invocation.lifecycle finalizers withToken catching clones).monitor.Path .fresh
      (before ++ x :: after) (.ended (.panicked phase p) cleanup f))
    (honce : (before ++ x :: after).filter (·.op.handsOver) = [x]) (hmem : e ∈ before) :
    CleansUp finalizers (before ++ x :: after) e phase p := by
  have hx : x.op.handsOver = true := by
    have hmem := List.mem_singleton_self x
    rw [← honce, List.mem_filter] at hmem
    exact hmem.2
  obtain ⟨t, hbefore, hallowed⟩ := path_handsOver hpath hx
  have hguard := (lawful_finalizing (reached_of_path hbefore)).1
  have hslot := (accounted_of_path hbefore).2.1
  refine ⟨before, x, after, t, rfl, hmem, hguard, hslot, honce, ?_⟩
  obtain ⟨o, r⟩ := x
  cases o with
  | commit t' => exact nomatch hallowed.2.1
  | rollback t' cause =>
    obtain ⟨rfl, hcause, hr⟩ := hallowed
    cases hcause
    rw [if_pos (show finalizers.hasRollback = true from hr)]
    exact ⟨r, rfl⟩
  | dropToken mode t' =>
    obtain ⟨rfl, rfl, hf⟩ := hallowed
    rw [if_neg (Bool.eq_false_iff.mp (show finalizers.hasRollback = false from hf))]
    exact ⟨r, rfl⟩
  | _ => exact nomatch hx

theorem cleansUp_of_transcript
    (hpath : (Invocation.lifecycle finalizers withToken catching clones).monitor.Path .fresh es
      (.ended v cleanup f))
    (h : Transcript (.lifecycle finalizers withToken catching clones) es v cleanup f)
    (ht : ⟨.prepare, .ret (.ok t)⟩ ∈ es) (hmem : e ∈ es)
    (he : e.lockedPanic = some (phase, p)) :
    v = .panicked phase p ∧ CleansUp finalizers es e phase p := by
  obtain ⟨t₀, mid, token', post, rfl, hmid, hend⟩ := h.prepared ht
  obtain ⟨htoken, hhands⟩ := hmid.keeps_token
  obtain ⟨t', rfl⟩ := Option.isSome_iff_exists.mp htoken
  obtain ⟨x, -, hfilter, hlater⟩ := ending_some hend
  have hin : e ∈ mid := by
    rcases List.mem_append.mp hmem with hin | hin
    · rcases List.mem_cons.mp hin with rfl | hin
      · exact nomatch he
      · rcases List.mem_cons.mp hin with rfl | hin
        · exact nomatch he
        · exact hin
    · exact nomatch (later_silent (hlater e hin)).1.symm.trans he
  obtain rfl := hmid.verdict_of_mem hin he
  have honce : (⟨.predicate, .ret true⟩ :: ⟨.prepare, .ret (.ok t₀)⟩ :: mid ++ post).filter
      (·.op.handsOver) = [x] := by
    refine (filter_handsOver_append ?_).trans hfilter
    exact List.forall_mem_cons.mpr ⟨rfl, List.forall_mem_cons.mpr ⟨rfl, hhands⟩⟩
  obtain ⟨pre, after, rfl, -⟩ := List.filter_eq_cons_iff.mp hfilter
  rw [← List.append_assoc] at hpath honce ⊢
  exact ⟨rfl, cleansUp_of_path hpath honce (by simp [hin])⟩

end Cleanup

/-- Whatever the rollback and the destructors do afterwards, a panic in the locked phase
of a propagating call reaches the caller as it is, and the token is used up once. -/
theorem lockedPanic_resumes [PanicPayload π] {σ : Type} (finalizers : Finalizers)
    (withToken : Bool) (clones : ℕ) (h : (o : Call P R E C π) → σ → o.Answer × σ) (s : σ)
    (hadmitted : Admitted
      (run h (Invocation.lifecycle finalizers withToken false clones).program s).events)
    (e : CallEvent P R E C π) (t : P) (phase : PanicPhase) (p : π)
    (ht : ⟨.prepare, .ret (.ok t)⟩ ∈
      (run h (Invocation.lifecycle finalizers withToken false clones).program s).events)
    (hmem : e ∈ (run h (Invocation.lifecycle finalizers withToken false clones).program s).events)
    (he : e.lockedPanic = some (phase, p)) :
    (run h (Invocation.lifecycle finalizers withToken false clones).program s).result =
        .lifecycle (.unwind p) ∧
      CleansUp finalizers
        (run h (Invocation.lifecycle finalizers withToken false clones).program s).events
        e phase p := by
  obtain ⟨v, cleanup, f, hpath, hresult⟩ := run_path hadmitted
  obtain ⟨rfl, hcleans⟩ :=
    cleansUp_of_transcript hpath (transcript_of_path hpath) ht hmem he
  exact ⟨hresult, hcleans⟩

def hostileCleanup : (o : Call ℕ ℕ ℕ ℕ String) → ℕ → o.Answer × ℕ
  | .taskWithToken token, n => ((.panic "task", token + 1), n + 1)
  | .rollback _ _, n => (.ret (.error 2), n + 1)
  | .discard .scope _, n => (.panic "destructor", n + 1)
  | o, n => (o.quiet, n + 1)

theorem lockedPanic_resumes_hostileCleanup :
    (run hostileCleanup (Invocation.lifecycle .rollbackOnly true false 1).program 0).result =
        .lifecycle (.unwind "task") ∧
      CleansUp .rollbackOnly
        (run hostileCleanup (Invocation.lifecycle .rollbackOnly true false 1).program 0).events
        ⟨.taskWithToken 0, (.panic "task", 1)⟩ .task "task" := by
  have hevents : (run hostileCleanup
      (Invocation.lifecycle .rollbackOnly true false 1).program 0).events =
      [⟨.predicate, .ret true⟩, ⟨.prepare, .ret (.ok 0)⟩, ⟨.lock, .ret ()⟩,
        ⟨.predicate, .ret true⟩, ⟨.taskWithToken 0, (.panic "task", 1)⟩,
        ⟨.dropGuard true, .ret ()⟩,
        ⟨.rollback 1 (.panicked (.fromPayload .task "task")), .ret (.error 2)⟩,
        ⟨.discard .scope (.callbackError 2), .panic "destructor"⟩,
        ⟨.discard .scope (.payload "destructor"), .panic "destructor"⟩] := rfl
  refine lockedPanic_resumes .rollbackOnly true 1 hostileCleanup 0 (admitted_iff_exit.mpr nofun)
    _ 0 _ _ ?_ ?_ rfl
  · simp [hevents]
  · simp [hevents]

end DoubleChecked
