import DoubleChecked.FirstPanic
import DoubleChecked.InertCallbacks
import DoubleChecked.LifecycleWork

/-!
# Lifecycle executions are refined

The total order that explains a run of basic invocations in which nothing panics explains a
run of any invocations: those that give up before they have made their second check have no
place in it, all others report the outcome of the reference, and tokens, finalizers and
panics change nothing.
-/

namespace DoubleChecked
open Effect

variable {P R E C π ι κ δ : Type}

def Answer.read : Answer R E C π → Option (ExecutionOutcome R E)
  | .outcome (.ret x) | .captured (.ret (.ok x)) => some x
  | .lifecycle (.ret x) => x.read
  | .lifecycleCaptured (.ret x) => x.read.bind Except.toOption
  | _ => none

def ExecutionOutcome.widen : ExecutionOutcome R E → ExecutionOutcome R (E ⊕ π)
  | .success value => .success value
  | .conditionNotMet => .conditionNotMet
  | .taskFailed error => .taskFailed (.inl error)

/-- The answer tells the outcome, or nothing in place of a panic. A panic of the task always
gets out. -/
structure Answer.Reports (a : Answer R E C π) (o : ExecutionOutcome R (E ⊕ π)) : Prop where
  read : a.read.map .widen = some o ∨ a.read = none ∧ a.panic.isSome = true
  panic : ∀ p, o = .taskFailed (.inr p) → a.panic = some p

section Reading
variable {i : Invocation} {v : Verdict R E C π} {v' : Verdict R (E ⊕ π) C π} {cleanup : Option π}
  {f : Finalization C π} {es : List (CallEvent P R E C π)} {x : ExecutionOutcome R E}
  {o : ExecutionOutcome R (E ⊕ π)} {a : Answer R E C π}

theorem widen_ne_panic (p : π) :
    x.widen ≠ (.taskFailed (.inr p) : ExecutionOutcome R (E ⊕ π)) := by
  cases x with
  | _ => exact nofun

theorem reports_of_read (h : a.read = some x ∨ a.read = none ∧ a.panic.isSome = true) :
    a.Reports x.widen where
  read := h.imp_left fun h => by rw [h, Option.map_some]
  panic p hp := absurd hp (widen_ne_panic p)

theorem reports_of_panic {p : π} (hread : a.read = none) (h : a.panic = some p)
    (ho : ∀ p', o = .taskFailed (.inr p') → p' = p) : a.Reports o where
  read := .inr ⟨hread, by rw [h, Option.isSome_some]⟩
  panic p' hp := by rw [h, ho p' hp]

theorem outcome_of_means (h : v.Means v') (ho : v'.outcome none = .ret o) :
    (∃ x, v.outcome none = .ret x ∧ o = x.widen) ∨
      ∃ p, v = .panicked .task p ∧ o = .taskFailed (.inr p) := by
  cases h with
  | conditionNotMet =>
    cases ho
    exact .inl ⟨_, rfl, rfl⟩
  | returned result =>
    cases result with
    | ok value =>
      cases ho
      exact .inl ⟨_, rfl, rfl⟩
    | error error =>
      cases ho
      exact .inl ⟨_, rfl, rfl⟩
  | panicked p =>
    cases ho
    exact .inr ⟨p, rfl, rfl⟩

theorem read_of_finalization {outcome : FinalizationOutcome C → LifecycleOutcome R E C}
    (ho : ∀ y, (outcome y).read = some x) (hf : f ≠ .notReached) :
    (Answer.lifecycle (f.outcome.map outcome) : Answer R E C π).read = some x ∨
      (Answer.lifecycle (f.outcome.map outcome) : Answer R E C π).read = none ∧
      (Answer.lifecycle (f.outcome.map outcome) : Answer R E C π).panic.isSome = true := by
  rcases f with _ | (r | p) | (u | p)
  · exact absurd rfl hf
  · cases r <;> exact .inl (ho _)
  · exact .inr ⟨rfl, rfl⟩
  · exact .inl (ho _)
  · exact .inr ⟨rfl, rfl⟩

variable [PanicPayload π]

theorem read_of_locked {token token' : Option P} {pre mid post : List (CallEvent P R E C π)}
    (hopen : Opening i token pre) (hmid : LockedPhase token mid token' v)
    (hend : Ending i v token' post f) (hv : v.outcome none = .ret x) :
    (i.answer v none f).read = some x ∨
      (i.answer v none f).read = none ∧ (i.answer v none f).panic.isSome = true := by
  have htoken := hmid.keeps_token.1
  cases i with
  | basic catching clones =>
    cases hmid.locked with
    | conditionNotMet => cases hv; cases catching <;> exact .inl rfl
    | returned result => cases result <;> cases hv <;> cases catching <;> exact .inl rfl
    | panicked phase p => exact nomatch hv
  | lifecycle finalizers withToken catching clones =>
    have hf : f ≠ .notReached := by
      obtain hprep | ⟨t, hprep⟩ := hopen
      · exact nomatch hprep
      · cases hend with
        | unprepared => exact nomatch htoken
        | finalized hpre hf hpost => cases hf <;> exact nofun
    cases hmid.locked with
    | conditionNotMet =>
      cases hv
      cases catching with
      | true => exact .inl rfl
      | false => exact read_of_finalization (fun _ => rfl) hf
    | returned result =>
      cases result <;> cases hv <;> cases catching
      · exact read_of_finalization (fun _ => rfl) hf
      · exact .inl rfl
      · exact read_of_finalization (fun _ => rfl) hf
      · exact .inl rfl
    | panicked phase p => exact nomatch hv

theorem read_of_panicked (i : Invocation) (phase : PanicPhase) (p : π) (f : Finalization C π) :
    (i.answer (.panicked phase p : Verdict R E C π) none f).read = none := by
  rcases i with ⟨_ | _, _⟩ | ⟨_, _, _ | _, _⟩ <;> rfl

theorem reports_of_locked {token token' : Option P} {pre mid post : List (CallEvent P R E C π)}
    (hopen : Opening i token pre) (hmid : LockedPhase token mid token' v)
    (hend : Ending i v token' post f) (ht : v.Tells v') (ho : v'.outcome none = .ret o) :
    (i.answer v none f).Reports o := by
  have hpanic := panic_of_locked hopen hmid hend
  cases ht with
  | notAdmitted => exact nomatch hmid.locked
  | means hm =>
    rcases outcome_of_means hm ho with ⟨x, hv, rfl⟩ | ⟨p, rfl, rfl⟩
    · exact reports_of_read (read_of_locked hopen hmid hend hv)
    · refine reports_of_panic (read_of_panicked ..) hpanic fun p' hp => ?_
      cases hp
      rfl
  | @released w _ p hm hw =>
    refine reports_of_panic (read_of_panicked ..) hpanic fun p' hp => ?_
    rcases outcome_of_means hm ho with ⟨x, -, rfl⟩ | ⟨p'', rfl, -⟩
    · exact absurd hp (widen_ne_panic p')
    · exact absurd hw.symm Bool.false_ne_true
  | cleaned p =>
    refine reports_of_panic (read_of_panicked ..) hpanic fun p' hp => ?_
    cases ho
    exact nomatch hp

theorem reports_of_transcript (h : Transcript i es v cleanup f) (ht : v.Tells v')
    (ho : v'.outcome none = .ret o) : (i.answer v cleanup f).Reports o := by
  cases h with
  | notAdmitted y hes =>
    have ho' : o = ExecutionOutcome.conditionNotMet.widen := by
      cases ht with
      | notAdmitted =>
        cases ho
        rfl
      | means hm => exact nomatch hm
    rw [ho']
    apply reports_of_read
    cases y with
    | ret u => rcases i with ⟨_ | _, _⟩ | ⟨_, _, _ | _, _⟩ <;> exact .inl rfl
    | panic p => rcases i with ⟨_ | _, _⟩ | ⟨_, _, _ | _, _⟩ <;> exact .inr ⟨rfl, rfl⟩
  | locked hopen hmid hend => exact reports_of_locked hopen hmid hend ht ho
  | _ =>
    cases ht with
    | means hm => exact nomatch hm

end Reading

def Verdict.lost : Verdict R E C π → Bool
  | .checkPanicked _ | .prepareFailed _ | .preparePanicked _ => true
  | .panicked .lockAcquisition _ | .panicked .secondConditionCheck _ => true
  | _ => false

def Station.lost : Station P R E C π → Bool
  | .releasing _ v => v.lost && v.unwinding
  | .skipping _ v | .finalizing _ v | .ended v _ _ => v.lost
  | _ => false

section Lost
variable {token : Option P} {v : Verdict R E C π}

theorem lost_settle : (Station.settle token v).lost = v.lost := by
  cases token <;> rfl

theorem lost_afterRelease (b : Bool) : (Station.afterRelease token v b).lost = v.lost := by
  cases b with
  | false => rfl
  | true => exact lost_settle

theorem lost_afterSkip (cleanup : Option π) :
    (Station.afterSkip token v cleanup).lost = v.lost := by
  cases v with
  | conditionNotMet => cases cleanup <;> exact lost_settle
  | panicked phase p => exact lost_settle
  | _ => rfl

variable [PanicPayload π] {i : Invocation} {q q' : Station P R E C π} {o : Call P R E C π}
  {r : o.Answer} {es : List (CallEvent P R E C π)}

theorem lost_step (h : i.Step q o r q') (hq : q.lost = true) : q'.lost = true := by
  cases h with
  | release token v u =>
    rw [lost_afterRelease]
    exact (Bool.and_eq_true_iff.mp hq).1
  | releasePanic token v p hv =>
    exact absurd (hv.symm.trans (Bool.and_eq_true_iff.mp hq).2) Bool.false_ne_true
  | skip token v u => rwa [lost_afterSkip]
  | skipPanic token v p hv => rwa [lost_afterSkip]
  | commit | rollback | dropToken | discardEarly | discardLate => exact hq
  | _ => exact absurd hq Bool.false_ne_true

theorem lost_of_loses {j : ι} (h : i.Step q o r q')
    (hl : Loses j (.leave j o r : InvocationLabel P R E C π ι (WorkAct ι κ))) :
    q'.lost = true := by
  cases hl with
  | check p =>
    cases h with
    | checkPanic => rfl
    | recheckPanic token => rfl
  | prepare _ hr =>
    cases h with
    | prepare t => exact absurd rfl (hr t)
    | prepareFail c => rfl
    | preparePanic p => rfl
  | lock p =>
    cases h with
    | acquirePanic token => rfl

theorem lost_origin (hr : q.Reached i es) (h : i.Step q o r q') (hq' : q'.lost = true) :
    o.startsTask = false ∧ (q.lost = true ∨ q.verdict = none) := by
  cases h with
  | taskReturn | taskPanic | tokenTaskReturn | tokenTaskPanic =>
    exact absurd hq' Bool.false_ne_true
  | release token v u =>
    rw [lost_afterRelease] at hq'
    refine ⟨rfl, .inl ?_⟩
    cases v with
    | checkPanicked | prepareFailed | preparePanicked =>
      rcases (hr.2 rfl).1 with hv | hv
      · cases hv
      · exact hv
    | panicked phase p => exact Bool.and_eq_true_iff.mpr ⟨hq', rfl⟩
    | _ => exact absurd hq' Bool.false_ne_true
  | releasePanic token v p hv =>
    rw [lost_afterRelease] at hq'
    exact absurd hq' Bool.false_ne_true
  | skip token v u => exact ⟨rfl, .inl ((lost_afterSkip none).symm.trans hq')⟩
  | skipPanic token v p hv => exact ⟨rfl, .inl ((lost_afterSkip (some p)).symm.trans hq')⟩
  | commit | rollback | dropToken | discardEarly | discardLate => exact ⟨rfl, .inl hq'⟩
  | _ => exact ⟨rfl, .inr rfl⟩

theorem lost_of_path {j : ι} (h : i.monitor.Path .fresh es q)
    (hl : Loses j (.leave j o r : InvocationLabel P R E C π ι (WorkAct ι κ)))
    (hmem : ⟨o, r⟩ ∈ es) : q.lost = true := by
  refine h.invariant (I := fun es q => (⟨o, r⟩ : CallEvent P R E C π) ∈ es → q.lost = true)
    nofun ?_ hmem
  intro es q o' r' hq ha hr' hmem
  have hstep := Invocation.step_of_allows ha hr'
  rcases List.mem_append.mp hmem with hmem | hmem
  · exact lost_step hstep (hq hmem)
  · cases List.mem_singleton.mp hmem
    exact lost_of_loses hstep hl

omit [PanicPayload π] in
theorem started_of_reached (h : q.Reached i es) :
    (tally es).started ≤ 1 ∧ (q.verdict = none → (tally es).started = 0) := by
  cases q with
  | fresh =>
    cases h
    exact ⟨Nat.zero_le 1, fun _ => rfl⟩
  | admitted =>
    obtain ⟨-, rfl⟩ := h
    exact ⟨Nat.zero_le 1, fun _ => rfl⟩
  | acquiring token =>
    rw [Opening.tally h]
    exact ⟨Nat.zero_le 1, fun _ => rfl⟩
  | guarded token =>
    rw [h]
    exact ⟨Nat.zero_le 1, fun _ => rfl⟩
  | cleared token =>
    obtain ⟨before, rfl, ht⟩ := h
    rw [tally_snoc ht]
    exact ⟨Nat.zero_le 1, fun _ => rfl⟩
  | releasing token v =>
    rw [h.1]
    exact ⟨Bool.toNat_le _, nofun⟩
  | skipping token v =>
    obtain ⟨-, c, a, -, -, -, ht⟩ := h
    rw [ht]
    exact ⟨Nat.zero_le 1, nofun⟩
  | finalizing t v =>
    obtain ⟨c, a, s, d, -, ha, hs, -, -, ht⟩ := h
    rw [ht]
    exact ⟨Nat.le_trans hs ha, nofun⟩
  | ended v cleanup f =>
    obtain ⟨c, a, s, d, m, -, ha, hs, -, -, ht⟩ := h
    rw [ht]
    exact ⟨Nat.le_trans hs ha, nofun⟩

theorem started_of_lost (h : i.monitor.Path .fresh es q) (hq : q.lost = true) :
    (tally es).started = 0 := by
  refine (h.invariant (I := fun es q => q.Reached i es ∧
    (q.lost = true → (tally es).started = 0)) ⟨rfl, fun _ => rfl⟩ ?_).2 hq
  intro es q o r hq ha hr
  obtain ⟨hreached, hlost⟩ := hq
  have hstep := Invocation.step_of_allows ha hr
  refine ⟨reached_step hreached hstep, fun hq' => ?_⟩
  obtain ⟨ho, hbefore⟩ := lost_origin hreached hstep hq'
  have hnone : (tally es).started = 0 := hbefore.elim hlost (started_of_reached hreached).2
  have hcount : (tally (es ++ [⟨o, r⟩])).started =
      (tally es).started + (tally [(⟨o, r⟩ : CallEvent P R E C π)]).started :=
    congrArg Tally.started (tally_snoc rfl _)
  rw [hcount, hnone]
  simp [tally, ho]

end Lost

def Call.token : Call P R E C π → Option P
  | .taskWithToken t => some t
  | _ => none

/-- The invocation gives up in the course of the run. -/
def GivesUp (ls : List (InvocationLabel P R E C π ι (WorkAct ι κ))) (i : ι) : Prop :=
  ∃ l ∈ ls, Loses i l

section Slots
variable [DecidableEq ι] {ls : List (InvocationLabel P R E C π ι (WorkAct ι κ))}

def slotOf (ls : List (InvocationLabel P R E C π ι (WorkAct ι κ))) (i : ι) : Option P :=
  (callsOf i ls).findSome? Call.token

theorem slotOf_eq {i : ι} {o : Call P R E C π} (hstarts : (callsOf i ls).countP Call.startsTask ≤ 1)
    (ho : o.startsTask = true) (hmem : .enter i o ∈ ls) : slotOf ls i = o.token := by
  have hcall := mem_callsOf.mpr hmem
  rw [List.countP_eq_length_filter] at hstarts
  have hone := eq_singleton_of_mem (List.mem_filter.mpr ⟨hcall, ho⟩) hstarts
  have hsame {o' : Call P R E C π} {t : P} (hmem' : o' ∈ callsOf i ls) (ht : o'.token = some t) :
      o'.token = o.token := by
    have hstart : o'.startsTask = true := by
      cases o' with
      | taskWithToken t => rfl
      | _ => exact nomatch ht
    have hin : o' ∈ (callsOf i ls).filter Call.startsTask := List.mem_filter.mpr ⟨hmem', hstart⟩
    rw [hone] at hin
    rw [List.mem_singleton.mp hin]
  cases hfound : slotOf ls i with
  | none => exact (List.findSome?_eq_none_iff.mp hfound o hcall).symm
  | some t =>
    obtain ⟨o', hmem', ht⟩ := List.exists_of_findSome?_eq_some hfound
    exact ht.symm.trans (hsame hmem' ht)

theorem fits_slotOf (hstarts : ∀ i, (callsOf i ls).countP Call.startsTask ≤ 1)
    {l : InvocationLabel P R E C π ι (WorkAct ι κ)} (hl : l ∈ ls) : Fits (slotOf ls) l := by
  cases l with
  | enter i o =>
    cases o with
    | task => exact slotOf_eq (hstarts i) rfl hl
    | taskWithToken t => exact slotOf_eq (hstarts i) rfl hl
    | _ => exact trivial
  | _ => exact trivial

end Slots

section Runs
variable [DecidableEq ι] [DecidableEq κ] [PanicPayload π] {W : LifecycleWorkload P R E π ι κ δ}
  {invocations : ι → Invocation} {s₀ : Shared δ}
  {ls : List (InvocationLabel P R E C π ι (WorkAct ι κ))}
  {c : StationPool P R E C π ι (WorkState R (E ⊕ π) ι κ δ)}

theorem startsTask_of_run
    (h : Pool.Run W.world (stations invocations) (startStations (.initial s₀)) ls c) (i : ι) :
    (callsOf i ls).countP Call.startsTask ≤ 1 ∧
      ((c.phases i).body.lost = true → (callsOf i ls).countP Call.startsTask = 0) := by
  have hlegal := h.legal (fun _ => trivial) i
  have hpath := station_path h i
  have hzero := started_of_lost hpath
  obtain ⟨hone, hnone⟩ := started_of_reached (reached_of_path hpath)
  have hbefore : ((eventsOf i ls).map Event.op).countP Call.startsTask =
      (tally (eventsOf i ls)).started := List.countP_map
  rw [h.callsOf_eq (i := i) rfl, List.countP_append, hbefore]
  have hquiet (hcurrent : (c.phases i).current.toList.countP Call.startsTask = 0) :
      (tally (eventsOf i ls)).started + (c.phases i).current.toList.countP Call.startsTask ≤ 1 ∧
      ((c.phases i).body.lost = true → (tally (eventsOf i ls)).started +
        (c.phases i).current.toList.countP Call.startsTask = 0) := by
    rw [hcurrent]
    exact ⟨hone, hzero⟩
  cases hp : c.phases i with
  | inside q o =>
    cases ho : o.startsTask with
    | true =>
      rw [hp] at hlegal hnone
      cases q with
      | cleared token =>
        rw [hnone rfl]
        exact ⟨by simp [Phase.current, ho], fun hlost => absurd hlost Bool.false_ne_true⟩
      | _ => exact absurd (isCleared_of_allows hlegal ho) Bool.false_ne_true
    | false => exact hp ▸ hquiet (by simp [hp, Phase.current, ho])
  | _ => exact hp ▸ hquiet (by rw [hp]; rfl)

theorem lost_of_run
    (h : Pool.Run W.world (stations invocations) (startStations (.initial s₀)) ls c) {i : ι}
    (hi : GivesUp ls i) : (c.phases i).body.lost = true := by
  obtain ⟨l, hmem, hl⟩ := hi
  have hevent := hl
  cases hl with
  | check p => exact lost_of_path (station_path h i) hevent (mem_eventsOf.mpr hmem)
  | prepare r hr => exact lost_of_path (station_path h i) hevent (mem_eventsOf.mpr hmem)
  | lock p => exact lost_of_path (station_path h i) hevent (mem_eventsOf.mpr hmem)

theorem shows_of_run
    (h : Pool.Run W.world (stations invocations) (startStations (.initial s₀)) ls c) :
    ∃ (zs : List (InvocationLabel P R E C π ι (WorkAct ι κ) ×
        List (InvocationLabel P R (E ⊕ π) C π ι (WorkAct ι κ))))
      (d : StationPool P R (E ⊕ π) C π ι _),
      zs.map Prod.fst = ls ∧ (∀ z ∈ zs, KeepsMembers (GivesUp ls) z.1 z.2) ∧
      Pool.Run (W.fixed (slotOf ls)).world (stations fun i => (invocations i).plain)
        (startStations (.initial s₀)) (zs.flatMap Prod.snd) d ∧
      PoolShows invocations (GivesUp ls) c d := by
  have hfits (l : InvocationLabel P R E C π ι (WorkAct ι κ)) (hl : l ∈ ls) : Fits (slotOf ls) l :=
    fits_slotOf (fun i => (startsTask_of_run h i).1) hl
  have hquiet (i : ι) (o : Call P R E C π) (hi : GivesUp ls i) (hl : .enter i o ∈ ls) :
      o.startsTask = false := by
    have hnone := (startsTask_of_run h i).2 (lost_of_run h hi)
    exact Bool.eq_false_iff.mpr (List.countP_eq_zero.mp hnone o (mem_callsOf.mpr hl))
  refine h.project ⟨fun _ => .pending, .same nofun, fun _ _ => nofun, inStep_start s₀⟩ ?_
  intro c l c' d hl hc hs
  exact shows_step (hfits l hl) (fun i hi => ⟨l, hl, hi⟩) (fun i o hi ho => hquiet i o hi (ho ▸ hl))
    hc hs

omit [DecidableEq ι] [DecidableEq κ] in
theorem decided_of_shows {V : Workload R (E ⊕ π) ι κ δ} {order : List (ι ⊕ κ)}
    {p : Progress R (E ⊕ π) ι δ} {shared : Shared δ} {i : ι} {gone : Prop}
    {q : Station P R E C π} {a : Answer R E C π} {phase : StationPhase P R (E ⊕ π) C π}
    {code : Option (Body δ (Except (E ⊕ π) R))}
    (hq : (stations invocations i).returns q a)
    (hp : PhaseShows (invocations i) gone (.finished q a) phase)
    (hm : MemberOk V order p shared i phase code) :
    Phase.inTask phase = false ∧ (gone ∧ .inl i ∉ order ∨
      ¬gone ∧ .inl i ∈ order ∧ ∃ v v' cleanup f o, q = .ended v cleanup f ∧
        a = (invocations i).answer v cleanup f ∧ v.Tells v' ∧ v'.outcome none = .ret o ∧
        (i, o) ∈ p.outcomes) := by
  obtain ⟨v, cleanup, f, rfl, rfl⟩ := ended_of_returns hq
  cases hp with
  | finished _ a' hn hshows =>
    cases hshows with
    | @ended _ v' _ _ ht =>
      obtain ⟨hin, o, ho, hmem⟩ := hm.decided v' rfl
      exact ⟨rfl, .inr ⟨hn, hin, v, v', cleanup, f, o, rfl, rfl, ht, ho, hmem⟩⟩
  | gone hg _ _ => exact ⟨rfl, .inl ⟨hg, hm.undecided rfl rfl⟩⟩

/-- When all invocations and all sections have completed, some total order of the sections
and of all invocations but those that gave up before they had made their second check
respects real time. The reference executed in that order, each task with the token it was
started with, leaves the same shared state and gives every one of them the outcome that its
answer reports. -/
theorem lifecycle_refines_lockFirst (htasks : ∀ i slot, (W.tasks i slot).WritesOnce)
    (hsections : ∀ k, (W.sections k).WritesOnce)
    {c : InvocationPool P R E C π ι (WorkState R (E ⊕ π) ι κ δ)}
    (h : Pool.Run W.world (programs ι) (start invocations (.initial s₀)) ls c)
    (ht : c.Terminal) (hfinished : ∀ k, c.state.sections k = .finished) :
    ∃ order : List (ι ⊕ κ), order.Nodup ∧ (∀ k, .inr k ∈ order) ∧
      (∀ i, .inl i ∈ order ↔ ¬GivesUp ls i) ∧
      (∀ x ∈ order, ∀ y ∈ order, EndedBefore Label.begins Label.ends ls x y →
        [x, y].Sublist order) ∧
      (∀ i, .inl i ∈ order → ∃ p a o, c.phases i = .finished p a ∧
        (i, o) ∈ ((W.fixed (slotOf ls)).reference s₀ order).outcomes ∧ a.Reports o) ∧
      ((W.fixed (slotOf ls)).reference s₀ order).shared = c.state.shared := by
  obtain ⟨d, hrun, hm⟩ := h.simulate start_matches station_simulation W.admits_of_leave
  have hterminal := hm.terminal ht
  obtain ⟨zs, d', hls, hzs, hrun', hshows⟩ := shows_of_run hrun
  obtain ⟨order, hl, hreal⟩ := linear_of_run (fun _ => rfl) (fun i => htasks i _) hsections hrun'
  have hsections' : d'.state.sections = c.state.sections := by
    rw [hshows.state.sections, hm.state]
  have hended (i : ι) : Phase.inTask (d'.phases i) = false ∧ (GivesUp ls i ∧ .inl i ∉ order ∨
      ¬GivesUp ls i ∧ .inl i ∈ order ∧ ∃ p a o, c.phases i = .finished p a ∧
        (i, o) ∈ ((W.fixed (slotOf ls)).reference s₀ order).outcomes ∧ a.Reports o) := by
    obtain ⟨q, a, hq⟩ := hterminal i
    have hlegal := hrun.legal (fun _ => trivial) i
    have hpath := station_path hrun i
    have hp := hshows.phases i
    rw [hq] at hlegal hpath hp
    obtain ⟨hidle, hcase⟩ := decided_of_shows hlegal hp (hl.member i)
    refine ⟨hidle, hcase.imp_right ?_⟩
    rintro ⟨hn, hin, v, v', cleanup, f, o, rfl, rfl, ht, ho, hmem⟩
    obtain ⟨p, hp⟩ := hm.finished_iff.mpr ⟨_, hq⟩
    have hreports := reports_of_transcript (transcript_of_path hpath) ht ho
    exact ⟨hn, hin, p, _, o, hp, hmem, hreports⟩
  have hmem_iff (i : ι) : .inl i ∈ order ↔ ¬GivesUp ls i := by
    rcases (hended i).2 with ⟨hg, hn⟩ | ⟨hn, hin, -⟩
    · exact ⟨fun hin => absurd hin hn, fun hn => absurd hg hn⟩
    · exact ⟨fun _ => hn, fun _ => hin⟩
  refine ⟨order, hreal.nodup, fun k => ?_, hmem_iff, fun x hx y hy hxy => ?_, fun i hin => ?_, ?_⟩
  · apply (hl.section_ok k).finished
    rw [hsections']
    exact hfinished k
  · subst hls
    refine hreal.ordered x y (hxy.shown (fun z hz hend => ?_) fun z hz => (hzs z hz).begins y) hy
    rcases (hzs z hz).ends x hend with hkept | ⟨i, rfl, hg⟩
    · exact hkept
    · exact absurd hg ((hmem_iff i).mp hx)
  · rcases (hended i).2 with ⟨-, hn⟩ | ⟨-, -, hanswer⟩
    · exact absurd hin hn
    · exact hanswer
  · rw [hm.state, ← hshows.state.shared]
    refine hl.settled (fun i => hshows.inStep.not_running (hended i).1) fun k b hb => ?_
    rw [hsections', hfinished k] at hb
    exact nomatch hb

end Runs

def adding : LifecycleWorkload ℕ ℕ ℕ String Bool Unit ℕ where
  tasks _ slot := .setGate false (.access (fun s => s.data + slot.getD 0)
    fun s => .done (slot.elim (.ok s.data) fun _ => .error (.inr "task")))
  sections _ := .setGate true (.done ())

def addingInvocations : Bool → Invocation
  | true => .lifecycle .commitOnly true false 0
  | false => .lifecycle .commitOnly false true 0

def failedPrepare : List (InvocationLabel ℕ ℕ ℕ ℕ String Bool (WorkAct Bool Unit)) :=
  [.invoke true, .enter true .predicate, .leave true .predicate (.ret true),
    .enter true .prepare, .leave true .prepare (.ret (.ok 5)),
    .invoke false, .enter false .predicate, .leave false .predicate (.ret true),
    .enter false .prepare, .leave false .prepare (.panic "prepare"),
    .enter true .lock, .leave true .lock (.ret ()), .enter true .predicate,
    .leave true .predicate (.ret true), .enter true (.taskWithToken 5), .act (.task true),
    .enter false (.dropTask false), .leave false (.dropTask false) (.ret ()),
    .finish false (.lifecycleCaptured (.ret (.preparePanicked (.fromPayload .prepare "prepare")))),
    .act (.task true), .leave true (.taskWithToken 5) (.panic "task", 6),
    .enter true (.dropGuard true), .leave true (.dropGuard true) (.ret ()),
    .enter true (.dropToken .scope 6), .leave true (.dropToken .scope 6) (.panic "token"),
    .enter true (.discard .scope (.payload "token")),
    .leave true (.discard .scope (.payload "token")) (.ret ()),
    .finish true (.lifecycle (.unwind "task")),
    .act (.acquire ()), .act (.sectionStep ()), .act (.release ())]

theorem failedPrepare_run :
    ∃ c : InvocationPool ℕ ℕ ℕ ℕ String Bool (WorkState ℕ (ℕ ⊕ String) Bool Unit ℕ),
      Pool.Run adding.world (programs Bool) (start addingInvocations (.initial ⟨true, 0⟩))
        failedPrepare c ∧
      c.Terminal ∧ (∀ k, c.state.sections k = .finished) ∧ c.state.shared = ⟨true, 5⟩ := by
  refine ⟨_, .head (.invoke rfl) (.head (.enter rfl ⟨_, rfl⟩ rfl)
    (.head (.leave rfl ⟨_, rfl, rfl⟩ ⟨trivial, rfl, rfl⟩) (.head (.enter rfl ⟨_, rfl⟩ rfl)
    (.head (.leave rfl ⟨_, rfl, rfl⟩ ⟨trivial, rfl⟩) (.head (.invoke rfl)
    (.head (.enter rfl ⟨_, rfl⟩ rfl)
    (.head (.leave rfl ⟨_, rfl, rfl⟩ ⟨trivial, rfl, rfl⟩) (.head (.enter rfl ⟨_, rfl⟩ rfl)
    (.head (.leave rfl ⟨_, rfl, rfl⟩ ⟨trivial, rfl⟩) (.head (.enter rfl ⟨_, rfl⟩ rfl)
    (.head (.leave rfl ⟨_, rfl, rfl⟩ ⟨trivial, rfl, rfl⟩) (.head (.enter rfl ⟨_, rfl⟩ rfl)
    (.head (.leave rfl ⟨_, rfl, rfl⟩ ⟨trivial, rfl, rfl⟩) (.head (.enter rfl ⟨_, rfl⟩ rfl)
    (.head (.act (.task rfl .setGate)) (.head (.enter rfl ⟨_, rfl⟩ rfl)
    (.head (.leave rfl ⟨_, rfl, rfl⟩ ⟨fun _ => rfl, rfl⟩) (.head (.finish rfl rfl)
    (.head (.act (.task rfl .access)) (.head (.leave rfl ⟨_, rfl, rfl⟩ ⟨trivial, rfl, rfl⟩)
    (.head (.enter rfl ⟨_, rfl⟩ rfl) (.head (.leave rfl ⟨_, rfl, rfl⟩ ⟨fun _ => rfl, rfl⟩)
    (.head (.enter rfl ⟨_, rfl⟩ rfl) (.head (.leave rfl ⟨_, rfl, rfl⟩ ⟨nofun, rfl⟩)
    (.head (.enter rfl ⟨_, rfl⟩ rfl) (.head (.leave rfl ⟨_, rfl, rfl⟩ ⟨nofun, rfl⟩)
    (.head (.finish rfl rfl) (.head (.act (.acquire rfl rfl))
    (.head (.act (.sectionStep rfl .setGate)) (.head (.act (.release rfl))
    .refl)))))))))))))))))))))))))))))), ?_, fun _ => rfl, rfl⟩
  intro i
  cases i with
  | false => exact ⟨_, _, rfl⟩
  | true => exact ⟨_, _, rfl⟩

theorem lifecycle_refines_lockFirst_failedPrepare :
    ∃ order : List (Bool ⊕ Unit), order.Nodup ∧ .inl false ∉ order ∧
      ((adding.fixed (slotOf failedPrepare)).reference ⟨true, 0⟩ order).shared = ⟨true, 5⟩ := by
  obtain ⟨c, hrun, ht, hfinished, hshared⟩ := failedPrepare_run
  have htasks (i : Bool) (slot : Option ℕ) : (adding.tasks i slot).WritesOnce := fun _ => trivial
  have hsections (k : Unit) : (adding.sections k).WritesOnce := trivial
  obtain ⟨order, hnodup, -, hmem, -, -, href⟩ :=
    lifecycle_refines_lockFirst htasks hsections hrun ht hfinished
  have hgivesUp : GivesUp failedPrepare false :=
    ⟨.leave false .prepare (.panic "prepare"), by simp [failedPrepare], .prepare _ fun _ => nofun⟩
  exact ⟨order, hnodup, fun hin => (hmem false).mp hin hgivesUp, href.trans hshared⟩

end DoubleChecked
