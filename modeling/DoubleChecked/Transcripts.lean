import DoubleChecked.CallLaw

/-!
# Complete transcripts

All that the calls of a finished invocation can look like, from the first check to the
last destructor, with the verdict that each transcript leads to. What the callbacks,
the lock and the destructors answered is read off the transcript; the verdict is what
the invocation made of it.
-/

namespace DoubleChecked
open Effect

variable {P R E C π : Type}

inductive TaskCall (token : Option P) :
    CallEvent P R E C π → Reply π (Except E R) → Option P → Prop
  | task (r : Reply π (Except E R)) : TaskCall token ⟨.task, r⟩ r token
  | withToken (t t' : P) (r : Reply π (Except E R)) : token = some t →
      TaskCall token ⟨.taskWithToken t, (r, t')⟩ r (some t')

inductive LockedPhase (token : Option P) :
    List (CallEvent P R E C π) → Option P → Verdict R E C π → Prop
  | lockPanic (p : π) : LockedPhase token [⟨.lock, .panic p⟩, ⟨.dropTask true, .ret ()⟩]
      token (.panicked .lockAcquisition p)
  | checkPanic (p : π) : LockedPhase token [⟨.lock, .ret ()⟩, ⟨.predicate, .panic p⟩,
      ⟨.dropGuard true, .ret ()⟩, ⟨.dropTask true, .ret ()⟩]
      token (.panicked .secondConditionCheck p)
  | rejected : LockedPhase token [⟨.lock, .ret ()⟩, ⟨.predicate, .ret false⟩,
      ⟨.dropGuard false, .ret ()⟩, ⟨.dropTask false, .ret ()⟩] token .conditionNotMet
  | cleanupPanic (p : π) : LockedPhase token [⟨.lock, .ret ()⟩, ⟨.predicate, .ret false⟩,
      ⟨.dropGuard false, .ret ()⟩, ⟨.dropTask false, .panic p⟩]
      token (.panicked .taskCleanup p)
  | releasePanic (p : π) : LockedPhase token [⟨.lock, .ret ()⟩, ⟨.predicate, .ret false⟩,
      ⟨.dropGuard false, .panic p⟩, ⟨.dropTask true, .ret ()⟩]
      token (.panicked .lockRelease p)
  | ran {e : CallEvent P R E C π} {result : Except E R} {token' : Option P} :
      TaskCall token e (.ret result) token' →
      LockedPhase token [⟨.lock, .ret ()⟩, ⟨.predicate, .ret true⟩, e,
        ⟨.dropGuard false, .ret ()⟩] token' (.returned result)
  | ranReleasePanic {e : CallEvent P R E C π} {result : Except E R} {token' : Option P} (p : π) :
      TaskCall token e (.ret result) token' →
      LockedPhase token [⟨.lock, .ret ()⟩, ⟨.predicate, .ret true⟩, e,
        ⟨.dropGuard false, .panic p⟩] token' (.panicked .lockRelease p)
  | taskPanic {e : CallEvent P R E C π} {token' : Option P} (p : π) :
      TaskCall token e (.panic p) token' →
      LockedPhase token [⟨.lock, .ret ()⟩, ⟨.predicate, .ret true⟩, e,
        ⟨.dropGuard true, .ret ()⟩] token' (.panicked .task p)

theorem LockedPhase.keeps_token {token token' : Option P} {mid : List (CallEvent P R E C π)}
    {v : Verdict R E C π} (h : LockedPhase token mid token' v) :
    token'.isSome = token.isSome ∧ ∀ e ∈ mid, e.op.handsOver = false := by
  have hcall {e : CallEvent P R E C π} {r : Reply π (Except E R)} {token' : Option P}
      (h : TaskCall token e r token') :
      token'.isSome = token.isSome ∧ e.op.handsOver = false := by
    cases h with
    | task r => exact ⟨rfl, rfl⟩
    | withToken t t' r ht => exact ⟨ht ▸ rfl, rfl⟩
  cases h with
  | ran he | ranReleasePanic _ he | taskPanic _ he =>
    obtain ⟨ht, hh⟩ := hcall he
    simp only [List.forall_mem_cons]
    exact ⟨ht, rfl, rfl, hh, rfl, List.forall_mem_nil _⟩
  | _ => exact ⟨rfl, by simp [Call.handsOver]⟩

def Discarding (es : List (CallEvent P R E C π)) : Prop := ∀ e ∈ es, e.op.isDiscard = true

variable [PanicPayload π]

/-- After the locked phase: the last use of the token, if there is one, among the
destructors of discarded values. -/
inductive Ending (i : Invocation) (v : Verdict R E C π) :
    Option P → List (CallEvent P R E C π) → Finalization C π → Prop
  | unprepared {es : List (CallEvent P R E C π)} : Discarding es → Ending i v none es .notReached
  | finalized {t : P} {pre post : List (CallEvent P R E C π)} {e : CallEvent P R E C π}
      {f : Finalization C π} : Discarding pre → i.Finalizes t v e f → Discarding post →
      Ending i v (some t) (pre ++ e :: post) f

inductive Transcript (i : Invocation) :
    List (CallEvent P R E C π) → Verdict R E C π → Option π → Finalization C π → Prop
  | notAdmitted (x : Reply π Unit) {es : List (CallEvent P R E C π)} : Discarding es →
      Transcript i (⟨.predicate, .ret false⟩ :: ⟨.dropTask false, x⟩ :: es) .notAdmitted x.payload
        .notReached
  | checkPanicked (p : π) (u : Bool) (x : Reply π Unit) {es : List (CallEvent P R E C π)} :
      Discarding es → Transcript i (⟨.predicate, .panic p⟩ :: ⟨.dropTask u, x⟩ :: es)
        (.checkPanicked p) x.payload .notReached
  | prepareFailed (c : C) (x : Reply π Unit) {es : List (CallEvent P R E C π)} :
      i.prepares = true → Discarding es →
      Transcript i (⟨.predicate, .ret true⟩ :: ⟨.prepare, .ret (.error c)⟩ ::
        ⟨.dropTask false, x⟩ :: es) (.prepareFailed c) x.payload .notReached
  | preparePanicked (p : π) (u : Bool) (x : Reply π Unit) {es : List (CallEvent P R E C π)} :
      i.prepares = true → Discarding es →
      Transcript i (⟨.predicate, .ret true⟩ :: ⟨.prepare, .panic p⟩ :: ⟨.dropTask u, x⟩ :: es)
        (.preparePanicked p) x.payload .notReached
  | locked {token token' : Option P} {pre mid post : List (CallEvent P R E C π)}
      {v : Verdict R E C π} {f : Finalization C π} : Opening i token pre →
      LockedPhase token mid token' v → Ending i v token' post f →
      Transcript i (pre ++ mid ++ post) v none f

section Paths
variable {i : Invocation} {es : List (CallEvent P R E C π)} {q : Station P R E C π}
  {token : Option P} {v w : Verdict R E C π} {cleanup : Option π} {f : Finalization C π}

theorem path_step (h : i.monitor.Path q es (.ended v cleanup f))
    (hq : q ≠ .ended v cleanup f) :
    ∃ o r rest q', es = ⟨o, r⟩ :: rest ∧ i.Step q o r q' ∧
      i.monitor.Path q' rest (.ended v cleanup f) := by
  cases h with
  | nil => exact absurd rfl hq
  | cons allowed hr hrest =>
    exact ⟨_, _, _, _, rfl, Invocation.step_of_allows allowed hr, hrest⟩

theorem discarding_of_path_ended (h : i.monitor.Path (.ended v cleanup f) es q) :
    Discarding es := by
  generalize hs : Station.ended v cleanup f = s at h
  induction h with
  | nil => exact List.forall_mem_nil _
  | @cons s q' o r es allowed hr _ ih =>
    subst hs
    cases o with
    | discard mode x => exact List.forall_mem_cons.mpr ⟨rfl, ih rfl⟩
    | _ => exact allowed.elim

theorem ending_of_path_finalizing {t : P}
    (h : i.monitor.Path (.finalizing t v) es (.ended w cleanup f)) :
    w = v ∧ cleanup = none ∧ Ending i v (some t) es f := by
  generalize hs : Station.finalizing t v = s, he : Station.ended w cleanup f = q at h
  induction h with
  | nil =>
    subst hs
    cases he
  | @cons s q' o r es allowed hr hpath ih =>
    subst hs he
    have hend {f' : Finalization C π} (hf : i.Finalizes t v ⟨o, r⟩ f')
        (hp : i.monitor.Path (.ended v none f') es (.ended w cleanup f)) :
        w = v ∧ cleanup = none ∧ Ending i v (some t) (⟨o, r⟩ :: es) f := by
      cases path_ended hp
      have hend : Ending i v (some t) ([] ++ ⟨o, r⟩ :: es) f :=
        .finalized (List.forall_mem_nil _) hf (discarding_of_path_ended hp)
      exact ⟨rfl, rfl, hend⟩
    cases o with
    | discard mode x =>
      obtain ⟨hw, hc, hes⟩ := ih rfl rfl
      cases hes with
      | @finalized _ pre post e _ hpre hf hpost =>
        have hend : Ending i v (some t) ((⟨.discard mode x, r⟩ :: pre) ++ e :: post) f :=
          .finalized (List.forall_mem_cons.mpr ⟨rfl, hpre⟩) hf hpost
        exact ⟨hw, hc, hend⟩
    | commit t' =>
      obtain ⟨rfl, hv, hc⟩ := allowed
      exact hend (.commit r hv hc) hpath
    | rollback t' cause =>
      obtain ⟨rfl, hv, hc⟩ := allowed
      exact hend (.rollback cause r hv hc) hpath
    | dropToken mode t' =>
      obtain ⟨rfl, rfl, hf⟩ := allowed
      exact hend (.dropToken r hf) hpath
    | _ => exact allowed.elim

theorem ending_of_path_settle (h : i.monitor.Path (.settle token v) es (.ended w cleanup f)) :
    w = v ∧ cleanup = none ∧ Ending i v token es f := by
  cases token with
  | some t => exact ending_of_path_finalizing h
  | none =>
    cases path_ended h
    exact ⟨rfl, rfl, .unprepared (discarding_of_path_ended h)⟩

theorem path_skipping (h : i.monitor.Path (.skipping token v) es (.ended w cleanup f)) :
    ∃ x rest, es = ⟨.dropTask (v.dropsUnwinding i.catching), x⟩ :: rest ∧
      (v.dropsUnwinding i.catching = true → x.panicked = false) ∧
      i.monitor.Path (.afterSkip token v x.payload) rest (.ended w cleanup f) := by
  obtain ⟨o, r, rest, q', rfl, hs, hrest⟩ := path_step h nofun
  cases hs with
  | skip token v u => exact ⟨.ret u, rest, rfl, fun _ => rfl, hrest⟩
  | skipPanic token v p hv =>
    exact ⟨.panic p, rest, rfl, fun hu => absurd (hv.symm.trans hu) nofun, hrest⟩

theorem path_unwinding {phase : PanicPhase} {p : π}
    (h : i.monitor.Path (.skipping token (.panicked phase p)) es (.ended w cleanup f)) :
    ∃ rest, es = ⟨.dropTask true, .ret ()⟩ :: rest ∧
      i.monitor.Path (.settle token (.panicked phase p)) rest (.ended w cleanup f) := by
  obtain ⟨x, rest, rfl, hx, hrest⟩ := path_skipping h
  cases x with
  | panic q => exact nomatch hx rfl
  | ret u => exact ⟨rest, rfl, hrest⟩

def Locks (i : Invocation) (token : Option P) (es : List (CallEvent P R E C π))
    (s : Station P R E C π) : Prop :=
  ∃ mid rest token' v, es = mid ++ rest ∧ LockedPhase token mid token' v ∧
    i.monitor.Path (.settle token' v) rest s

theorem locks_acquiring (h : i.monitor.Path (.acquiring token) es (.ended w cleanup f)) :
    Locks i token es (.ended w cleanup f) := by
  obtain ⟨o, r, es, q, rfl, hs, h⟩ := path_step h nofun
  cases hs with
  | acquirePanic token p =>
    obtain ⟨rest, rfl, hrest⟩ := path_unwinding h
    exact ⟨_, rest, _, _, rfl, .lockPanic p, hrest⟩
  | acquire token u =>
  obtain ⟨o, r, es, q, rfl, hs, h⟩ := path_step h nofun
  cases hs with
  | recheckPanic token p =>
    obtain ⟨o, r, es, q, rfl, hs, h⟩ := path_step h nofun
    cases hs with
    | releasePanic _ _ _ hv => exact nomatch hv
    | release =>
      obtain ⟨rest, rfl, hrest⟩ := path_unwinding h
      exact ⟨_, rest, _, _, rfl, .checkPanic p, hrest⟩
  | recheckReject token =>
    obtain ⟨o, r, es, q, rfl, hs, h⟩ := path_step h nofun
    cases hs with
    | releasePanic _ _ p hv =>
      obtain ⟨rest, rfl, hrest⟩ := path_unwinding h
      exact ⟨_, rest, _, _, rfl, .releasePanic p, hrest⟩
    | release =>
      obtain ⟨x, rest, rfl, -, h⟩ := path_skipping h
      cases x with
      | ret u => exact ⟨_, rest, _, _, rfl, .rejected, h⟩
      | panic p => exact ⟨_, rest, _, _, rfl, .cleanupPanic p, h⟩
  | recheck token =>
  have hran {e : CallEvent P R E C π} {token' : Option P} {result : Except E R}
      {es : List (CallEvent P R E C π)} (he : TaskCall token e (.ret result) token')
      (h : i.monitor.Path (.releasing token' (.returned result)) es (.ended w cleanup f)) :
      Locks i token (⟨.lock, .ret u⟩ :: ⟨.predicate, .ret true⟩ :: e :: es)
        (.ended w cleanup f) := by
    obtain ⟨o, r, es, q, rfl, hs, h⟩ := path_step h nofun
    cases hs with
    | release => exact ⟨_, es, _, _, rfl, .ran he, h⟩
    | releasePanic _ _ p hv => exact ⟨_, es, _, _, rfl, .ranReleasePanic p he, h⟩
  have hpanicked {e : CallEvent P R E C π} {token' : Option P} {p : π}
      {es : List (CallEvent P R E C π)} (he : TaskCall token e (.panic p) token')
      (h : i.monitor.Path (.releasing token' (.panicked .task p)) es (.ended w cleanup f)) :
      Locks i token (⟨.lock, .ret u⟩ :: ⟨.predicate, .ret true⟩ :: e :: es)
        (.ended w cleanup f) := by
    obtain ⟨o, r, es, q, rfl, hs, h⟩ := path_step h nofun
    cases hs with
    | releasePanic _ _ _ hv => exact nomatch hv
    | release => exact ⟨_, es, _, _, rfl, .taskPanic p he, h⟩
  obtain ⟨o, r, es, q, rfl, hs, h⟩ := path_step h nofun
  cases hs with
  | taskReturn _ result => exact hran (.task _) h
  | taskPanic _ p => exact hpanicked (.task _) h
  | tokenTaskReturn t t' result => exact hran (.withToken t t' _ rfl) h
  | tokenTaskPanic t t' p => exact hpanicked (.withToken t t' _ rfl) h

theorem locked_of_path {pre : List (CallEvent P R E C π)} (hpre : Opening i token pre)
    (h : i.monitor.Path (.acquiring token) es (.ended v cleanup f)) :
    Transcript i (pre ++ es) v cleanup f := by
  obtain ⟨mid, rest, token', v', rfl, hmid, hrest⟩ := locks_acquiring h
  obtain ⟨rfl, rfl, hend⟩ := ending_of_path_settle hrest
  rw [← List.append_assoc]
  exact .locked hpre hmid hend

theorem transcript_of_path (h : i.monitor.Path .fresh es (.ended v cleanup f)) :
    Transcript i es v cleanup f := by
  obtain ⟨o, r, es, q, rfl, hs, h⟩ := path_step h nofun
  cases hs with
  | reject =>
    obtain ⟨x, rest, rfl, -, h⟩ := path_skipping h
    cases path_ended h
    exact .notAdmitted x (discarding_of_path_ended h)
  | checkPanic p =>
    obtain ⟨x, rest, rfl, -, h⟩ := path_skipping h
    cases path_ended h
    exact .checkPanicked p _ x (discarding_of_path_ended h)
  | accept =>
  cases hp : i.prepares with
  | false =>
    rw [hp] at h
    exact locked_of_path (.unprepared hp) h
  | true =>
  rw [hp] at h
  obtain ⟨o, r, es, q, rfl, hs, h⟩ := path_step h nofun
  cases hs with
  | prepare t => exact locked_of_path (.prepared t hp) h
  | prepareFail c =>
    obtain ⟨x, rest, rfl, -, h⟩ := path_skipping h
    cases path_ended h
    exact .prepareFailed c x hp (discarding_of_path_ended h)
  | preparePanic p =>
    obtain ⟨x, rest, rfl, -, h⟩ := path_skipping h
    cases path_ended h
    exact .preparePanicked p _ x hp (discarding_of_path_ended h)

end Paths

def Admitted (es : List (CallEvent P R E C π)) : Prop := ∀ e ∈ es, e.op.admits e.res

theorem run_path {σ : Type} {i : Invocation} {h : (o : Call P R E C π) → σ → o.Answer × σ}
    {s : σ} (hes : Admitted (Program.run h i.program s).events) :
    ∃ v cleanup f, i.monitor.Path .fresh (Program.run h i.program s).events (.ended v cleanup f) ∧
      (Program.run h i.program s).result = i.answer v cleanup f := by
  obtain ⟨q, hpath, v, cleanup, f, rfl, ha⟩ := Program.run_follows (program_wp i) hes
  exact ⟨v, cleanup, f, hpath, ha⟩

end DoubleChecked
