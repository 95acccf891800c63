import DoubleChecked.Openings

/-!
# Runs without failures

Nothing fails or panics and the gate is written inside tasks only. Then an invocation
keeps its first verdict, whoever is rejected has seen the gate closed, and the gate is
closed by a task that returns `Ok`. When everyone has finished, one invocation has
succeeded and all others were rejected.
-/

namespace DoubleChecked
open Effect

variable {P R E C π ι κ : Type}

def Call.fails : (o : Call P R E C π) → o.Answer → Bool
  | .predicate, r => r.panicked
  | .prepare, .ret (.ok _) => false
  | .lock, r => r.panicked
  | .dropGuard _, r => r.panicked
  | .task, .ret (.ok _) => false
  | .taskWithToken _, (.ret (.ok _), _) => false
  | .dropTask _, r => r.panicked
  | .commit _, .ret (.ok _) => false
  | .rollback _ _, .ret (.ok _) => false
  | .dropToken _ _, r => r.panicked
  | .discard _ _, r => r.panicked
  | _, _ => true

theorem commit_succeeded {t : P} {r : (Call.commit t : Call P R E C π).Answer}
    (h : (Call.commit t).fails r = false) : r = .ret (.ok ()) := by
  rcases r with (error | ⟨⟨⟩⟩) | p
  · exact nomatch h
  · rfl
  · exact nomatch h

theorem rollback_succeeded {t : P} {cause : RollbackCause E π}
    {r : (Call.rollback t cause : Call P R E C π).Answer}
    (h : (Call.rollback t cause).fails r = false) : r = .ret (.ok ()) := by
  rcases r with (error | ⟨⟨⟩⟩) | p
  · exact nomatch h
  · rfl
  · exact nomatch h

theorem dropToken_succeeded {mode : DropMode} {t : P}
    {r : (Call.dropToken mode t : Call P R E C π).Answer}
    (h : (Call.dropToken mode t).fails r = false) : r = .ret () := by
  cases r with
  | ret u => rfl
  | panic p => exact nomatch h

/-- No failure, and no gate write outside the tasks. -/
def Label.Quiet (l : InvocationLabel P R E C π ι (Outside ι κ)) : Prop :=
  match l with
  | .leave _ o r => o.fails r = false
  | .act (.write _) | .act (.sectionWrite _ _) => False
  | _ => True

def Verdict.rejects : Verdict R E C π → Bool
  | .notAdmitted | .conditionNotMet => true
  | _ => false

def Station.rejected (q : Station P R E C π) : Bool := q.verdict.any Verdict.rejects

variable [PanicPayload π] {i : Invocation} {q q' : Station P R E C π} {o : Call P R E C π}
  {r : o.Answer}

inductive Settles (q : Station P R E C π) (o : Call P R E C π) (r : o.Answer)
    (q' : Station P R E C π) : Prop
  | kept : o.startsTask = false → q'.verdict = q.verdict → Settles q o r q'
  | succeeded : o.returnsOk r = true → q.verdict = none → q'.succeeded = true →
      q'.rejected = false → Settles q o r q'
  | rejected : (⟨o, r⟩ : CallEvent P R E C π) = ⟨.predicate, .ret false⟩ → q.verdict = none →
      q'.succeeded = false → Settles q o r q'

theorem settles_of_step (h : i.Step q o r q') (hr : o.fails r = false) : Settles q o r q' := by
  cases h with
  | accept => cases i <;> exact .kept rfl rfl
  | reject => exact .rejected rfl rfl rfl
  | recheckReject token => exact .rejected rfl rfl rfl
  | taskReturn token result =>
    cases result with
    | ok value => exact .succeeded rfl rfl rfl rfl
    | error error => exact nomatch hr
  | tokenTaskReturn t t' result =>
    cases result with
    | ok value => exact .succeeded rfl rfl rfl rfl
    | error error => exact nomatch hr
  | release token v u => exact .kept rfl (Station.verdict_afterRelease _)
  | skip token v u => exact .kept rfl Station.verdict_afterSkip
  | prepare | acquire | recheck | commit | rollback | dropToken | discardEarly | discardLate =>
    exact .kept rfl rfl
  | _ => exact nomatch hr

def Invocation.finalized (i : Invocation) (v : Verdict R E C π) : Finalization C π :=
  if i.hasFinalizer v then .called (.ret (.ok ())) else .dropped (.ret ())

omit [PanicPayload π] in
theorem finalized_of_hasFinalizer {v : Verdict R E C π} (h : i.hasFinalizer v = true) :
    i.finalized v = .called (.ret (.ok ())) := if_pos h

omit [PanicPayload π] in
theorem finalized_of_not_hasFinalizer {v : Verdict R E C π} (h : i.hasFinalizer v = false) :
    i.finalized v = .dropped (.ret ()) := by
  rw [Invocation.finalized, h, if_neg Bool.false_ne_true]

def Station.Calm (i : Invocation) : Station P R E C π → Prop
  | .fresh => True
  | .admitted => i.prepares = true
  | .acquiring token | .guarded token | .cleared token => token.isSome = i.prepares
  | .releasing token v => token.isSome = i.prepares ∧ (v = .conditionNotMet ∨ v.commits = true)
  | .skipping token v => v = .notAdmitted ∨ token.isSome = i.prepares ∧ v = .conditionNotMet
  | .finalizing _ v => v = .conditionNotMet ∨ v.commits = true
  | .ended v cleanup f => cleanup = none ∧ (v = .notAdmitted ∨
      (v = .conditionNotMet ∨ v.commits = true) ∧ (i.prepares = true → f = i.finalized v))

omit [PanicPayload π] in
theorem calm_settle {token : Option P} {v : Verdict R E C π} (ht : token.isSome = i.prepares)
    (hv : v = .conditionNotMet ∨ v.commits = true) : (Station.settle token v).Calm i := by
  cases token with
  | none => exact ⟨rfl, .inr ⟨hv, fun hp => nomatch ht.trans hp⟩⟩
  | some t => exact hv

theorem calm_step (h : i.Step q o r q') (hr : o.fails r = false) (hq : q.Calm i) : q'.Calm i := by
  cases h with
  | accept =>
    cases i with
    | basic catching clones => exact rfl
    | lifecycle finalizers withToken catching clones => exact rfl
  | reject => exact .inl rfl
  | prepare t => exact hq.symm
  | acquire token u => exact hq
  | recheck token => exact hq
  | recheckReject token => exact ⟨hq, .inl rfl⟩
  | taskReturn token result =>
    cases result with
    | ok value => exact ⟨hq, .inr rfl⟩
    | error error => exact nomatch hr
  | tokenTaskReturn t t' result =>
    cases result with
    | ok value => exact ⟨hq, .inr rfl⟩
    | error error => exact nomatch hr
  | release token v u =>
    obtain ⟨ht, rfl | hv⟩ := hq
    · exact .inr ⟨ht, rfl⟩
    · rw [Verdict.started_of_commits hv]
      exact calm_settle ht (.inr hv)
  | skip token v u =>
    obtain rfl | ⟨ht, rfl⟩ := hq
    · exact ⟨rfl, .inl rfl⟩
    · exact calm_settle ht (.inl rfl)
  | commit t v r hv hc =>
    obtain rfl := commit_succeeded hr
    have hf := (Invocation.hasFinalizer_of_commits hv).trans hc
    exact ⟨rfl, .inr ⟨hq, fun _ => (finalized_of_hasFinalizer hf).symm⟩⟩
  | rollback t v cause r hv hc =>
    obtain rfl := rollback_succeeded hr
    have hf := (Invocation.hasFinalizer_of_cause hv).trans hc
    exact ⟨rfl, .inr ⟨hq, fun _ => (finalized_of_hasFinalizer hf).symm⟩⟩
  | dropToken t v r hf =>
    obtain rfl := dropToken_succeeded hr
    exact ⟨rfl, .inr ⟨hq, fun _ => (finalized_of_not_hasFinalizer hf).symm⟩⟩
  | discardEarly => exact hq
  | discardLate => exact hq
  | _ => exact nomatch hr

structure Undisturbed (invocations : ι → Invocation)
    (c : StationPool P R E C π ι (GateState ι κ)) : Prop where
  calm : ∀ i, (c.phases i).body.Calm (invocations i)
  rejected : ∀ i, (c.phases i).body.rejected = true → c.state.gate = false
  closed : c.state.gate = false → ∃ i, (c.phases i).body.succeeded = true ∨
    Phase.inTask (c.phases i) = true ∧ c.state.wrote i = true

section Steps
variable [DecidableEq ι] [DecidableEq κ] {invocations : ι → Invocation}
  {c c' : StationPool P R E C π ι (GateState ι κ)}
  {l : InvocationLabel P R E C π ι (Outside ι κ)}

omit [DecidableEq κ] [PanicPayload π] in
theorem Undisturbed.move (h : Undisturbed invocations c) {i : ι} {p : StationPhase P R E C π}
    {s : GateState ι κ} (hgate : s.gate = c.state.gate)
    (hwrote : ∀ j, j ≠ i → s.wrote j = c.state.wrote j) (hcalm : p.body.Calm (invocations i))
    (hrejected : p.body.rejected = true → c.state.gate = false)
    (hclosed : (c.phases i).body.succeeded = true ∨
      Phase.inTask (c.phases i) = true ∧ c.state.wrote i = true →
      p.body.succeeded = true ∨ Phase.inTask p = true ∧ s.wrote i = true) :
    Undisturbed invocations (c.move i p s) where
  calm := c.forall_move s (motive := fun j p => p.body.Calm (invocations j)) hcalm
    fun j _ => h.calm j
  rejected := by
    rw [Pool.move_state, hgate]
    exact c.forall_move s (motive := fun _ p => p.body.rejected = true → c.state.gate = false)
      hrejected fun j _ => h.rejected j
  closed hg := by
    obtain ⟨j, hj⟩ := h.closed (hgate.symm.trans hg)
    refine ⟨j, ?_⟩
    by_cases hji : j = i
    · subst hji
      rw [Pool.move_phases_self]
      exact hclosed hj
    · rw [Pool.move_phases_of_ne _ hji, Pool.move_state, hwrote j hji]
      exact hj

theorem Undisturbed.leave (h : Undisturbed invocations c) {i : ι} {q q' : Station P R E C π}
    {o : Call P R E C π} {r : o.Answer} {s : GateState ι κ} (hq : c.phases i = .inside q o)
    (hstep : (invocations i).Step q o r q') (hw : (claiming ι).world.leave i o r c.state s)
    (hr : o.fails r = false) : Undisturbed invocations (c.move i (.idle q') s) := by
  have hcalm := h.calm i
  have hrejected := h.rejected i
  rw [hq] at hcalm hrejected
  obtain ⟨hgate, hwrote⟩ := (Setting.leaves_of_step hstep hw).kept
  refine h.move hgate (fun j _ => congrFun hwrote j) (calm_step hstep hr hcalm) ?_ ?_
  · intro hv'
    cases settles_of_step hstep hr with
    | kept ho hv => exact hrejected ((congrArg (Option.any Verdict.rejects) hv).symm.trans hv')
    | succeeded hok hv hs hno => exact nomatch hno.symm.trans hv'
    | rejected ho hv hs =>
      cases ho
      exact hw.2.1.symm
  · rw [hq]
    intro hi
    cases settles_of_step hstep hr with
    | kept ho hv =>
      rcases hi with hi | hi
      · exact .inl ((congrArg (Option.any Verdict.commits) hv).trans hi)
      · exact nomatch ho.symm.trans hi.1
    | succeeded hok hv hs hno => exact .inl hs
    | rejected ho hv hs =>
      cases ho
      rcases hi with hi | hi
      · exact nomatch (congrArg (Option.any Verdict.commits) hv).symm.trans hi
      · exact nomatch hi.1

theorem undisturbed_step (hc : (claiming ι).Coherent c) (h : Undisturbed invocations c)
    (hs : Pool.Step (claiming ι).world (stations invocations) c l c') (hl : Label.Quiet l) :
    Undisturbed invocations c' := by
  cases hs with
  | @invoke i q hq =>
    have hcalm := h.calm i
    have hrejected := h.rejected i
    rw [hq] at hcalm hrejected
    refine h.move rfl (fun _ _ => rfl) hcalm hrejected ?_
    rw [hq]
    exact fun hi => hi.imp_right fun hin => nomatch hin.1
  | @enter i q o s hq ha hw =>
    have hcalm := h.calm i
    have hrejected := h.rejected i
    rw [hq] at hcalm hrejected
    have hclosed (w : ι → Bool) : (c.phases i).body.succeeded = true ∨
        Phase.inTask (c.phases i) = true ∧ c.state.wrote i = true →
        q.succeeded = true ∨ o.startsTask = true ∧ w i = true := by
      rw [hq]
      exact fun hi => hi.imp_right fun hin => nomatch hin.1
    change s = if o.startsTask then _ else _ at hw
    split at hw
    · subst hw
      exact h.move rfl (fun j hj => Function.update_of_ne hj ..) hcalm hrejected (hclosed _)
    · subst hw
      exact h.move rfl (fun _ _ => rfl) hcalm hrejected (hclosed _)
  | leave hq ha hw => exact h.leave hq (step_of_replies ha) hw hl
  | @finish i q a hq ha =>
    have hcalm := h.calm i
    have hrejected := h.rejected i
    rw [hq] at hcalm hrejected
    refine h.move rfl (fun _ _ => rfl) hcalm hrejected ?_
    rw [hq]
    exact fun hi => hi.imp_right fun hin => nomatch hin.1
  | @act x s hw =>
    cases x with
    | write b => exact hl.elim
    | taskWrite i b =>
      obtain ⟨hrunning, rfl, rfl⟩ := hw
      have hin : Phase.inTask (c.phases i) = true := (hc.running i).symm.trans hrunning
      exact ⟨h.calm, fun _ _ => rfl, fun _ => ⟨i, .inr ⟨hin, Function.update_self ..⟩⟩⟩
    | acquire k m =>
      obtain ⟨-, rfl⟩ := hw
      exact ⟨h.calm, h.rejected, h.closed⟩
    | release k =>
      obtain ⟨-, rfl⟩ := hw
      exact ⟨h.calm, h.rejected, h.closed⟩
    | sectionWrite k b => exact hl.elim

theorem undisturbed_of_run {ls : List (InvocationLabel P R E C π ι (Outside ι κ))}
    (h : Pool.Run (claiming ι).world (stations invocations) (startStations (.initial true)) ls c)
    (hls : ∀ l ∈ ls, Label.Quiet l) : Undisturbed invocations c := by
  suffices hi : (claiming ι).Coherent c ∧ Undisturbed invocations c from hi.2
  induction h with
  | refl => exact ⟨coherent_start true, fun _ => trivial, nofun, nofun⟩
  | @snoc ls l c₁ c₂ _ hs ih =>
    obtain ⟨hc, hu⟩ := ih fun l hl => hls l (List.mem_append_left _ hl)
    have hl := hls l (List.mem_append_right _ (List.mem_singleton_self l))
    exact ⟨coherent_step hc hs, undisturbed_step hc hu hs hl⟩

theorem openings_le_one {ls : List (InvocationLabel P R E C π ι (Outside ι κ))}
    (h : Pool.Run (claiming ι).world (stations invocations) (startStations (.initial true)) ls c)
    (hls : ∀ l ∈ ls, Label.Quiet l) : openings true ls ≤ 1 := by
  induction h with
  | refl => exact Nat.le_refl 1
  | @snoc ls l c₁ c₂ _ hs ih =>
    have hle := ih fun l hl => hls l (List.mem_append_left _ hl)
    have hl := hls l (List.mem_append_right _ (List.mem_singleton_self l))
    have hw : Label.written l ≠ some true := by
      cases hs with
      | @act x s hw =>
        cases x with
        | write b | sectionWrite k b => exact hl.elim
        | taskWrite i b =>
          obtain ⟨-, rfl, -⟩ := hw
          exact nofun
        | _ => exact nofun
      | _ => exact nofun
    rw [openings, gateHistory_snoc]
    cases hl' : Label.written l with
    | none => exact hle
    | some b =>
      cases b with
      | false => exact hle
      | true => exact absurd hl' hw

def Invocation.Complete (i : Invocation) : Prop :=
  i.prepares = true → i.hasCommit = true ∧ i.hasRollback = true

def Answer.succeeds : Answer R E C π → Bool
  | .outcome (.ret (.success _)) | .captured (.ret (.ok (.success _))) => true
  | .lifecycle (.ret (.taskSucceeded _ .succeeded)) => true
  | .lifecycleCaptured (.ret (.taskSucceeded _ .succeeded)) => true
  | _ => false

def Answer.rejects : Answer R E C π → Bool
  | .outcome (.ret .conditionNotMet) | .captured (.ret (.ok .conditionNotMet)) => true
  | .lifecycle (.ret .initialConditionNotMet) => true
  | .lifecycle (.ret (.secondConditionNotMet .succeeded)) => true
  | .lifecycleCaptured (.ret .initialConditionNotMet) => true
  | .lifecycleCaptured (.ret (.secondConditionNotMet .succeeded)) => true
  | _ => false

omit [PanicPayload π] in
theorem finalized_of_complete {i : Invocation} (hi : i.Complete) (hp : i.prepares = true)
    (v : Verdict R E C π) : i.finalized v = .called (.ret (.ok ())) := by
  obtain ⟨hc, hr⟩ := hi hp
  apply finalized_of_hasFinalizer
  cases hv : v.commits <;> simp [Invocation.hasFinalizer, hv, hc, hr]

theorem answer_succeeds {i : Invocation} (hi : i.Complete) {v : Verdict R E C π}
    {cleanup : Option π} {f : Finalization C π}
    (h : (Station.ended v cleanup f : Station P R E C π).Calm i) (hv : v.commits = true) :
    (i.answer v cleanup f).succeeds = true := by
  obtain ⟨rfl, rfl | ⟨-, hf⟩⟩ := h
  · exact nomatch hv
  · match v with
    | .returned (.ok value) =>
      cases i with
      | basic catching clones => cases catching <;> rfl
      | lifecycle finalizers withToken catching clones =>
        obtain rfl := (hf rfl).trans (finalized_of_complete hi rfl _)
        cases catching <;> rfl

theorem answer_rejects {i : Invocation} (hi : i.Complete) {v : Verdict R E C π}
    {cleanup : Option π} {f : Finalization C π}
    (h : (Station.ended v cleanup f : Station P R E C π).Calm i) (hv : v.rejects = true) :
    (i.answer v cleanup f).rejects = true := by
  obtain ⟨rfl, rfl | ⟨hv', hf⟩⟩ := h
  · cases i with
    | basic catching clones => cases catching <;> rfl
    | lifecycle finalizers withToken catching clones => cases catching <;> rfl
  · match v with
    | .conditionNotMet =>
      cases i with
      | basic catching clones => cases catching <;> rfl
      | lifecycle finalizers withToken catching clones =>
        obtain rfl := (hf rfl).trans (finalized_of_complete hi rfl _)
        cases catching <;> rfl

theorem one_succeeds [Nonempty ι] (hi : ∀ i, (invocations i).Complete)
    {ls : List (InvocationLabel P R E C π ι (Outside ι κ))}
    (h : Pool.Run (claiming ι).world (stations invocations) (startStations (.initial true)) ls c)
    (hls : ∀ l ∈ ls, Label.Quiet l) (ht : c.Terminal) :
    ∃ i, successes ls = [i] ∧ (∃ q a, c.phases i = .finished q a ∧ a.succeeds = true ∧
        q.succeeded = true) ∧
      ∀ j, j ≠ i → ∃ q a, c.phases j = .finished q a ∧ a.rejects = true ∧
        q.succeeded = false := by
  have hu := undisturbed_of_run h hls
  have hended (j : ι) : ∃ v cleanup f a, c.phases j = .finished (.ended v cleanup f) a ∧
      a = (invocations j).answer v cleanup f ∧ (v.commits = true ∨ v.rejects = true) := by
    obtain ⟨q, a, hj⟩ := ht j
    have hreturns := h.legal (fun _ => trivial) j
    rw [hj] at hreturns
    obtain ⟨v, cleanup, f, rfl, rfl⟩ := ended_of_returns hreturns
    refine ⟨v, cleanup, f, _, hj, rfl, ?_⟩
    have hcalm := hu.calm j
    rw [hj] at hcalm
    obtain ⟨-, rfl | ⟨rfl | hv, -⟩⟩ := hcalm
    · exact .inr rfl
    · exact .inr rfl
    · exact .inl hv
  -- whoever is rejected has seen the gate closed, so somebody has closed it
  obtain ⟨i, hsucceeded⟩ : ∃ i, (c.phases i).body.succeeded = true := by
    have j : ι := Classical.arbitrary ι
    obtain ⟨v, cleanup, f, a, hj, -, hv | hv⟩ := hended j
    · refine ⟨j, ?_⟩
      rw [hj]
      exact hv
    · obtain ⟨i, hi | ⟨hin, -⟩⟩ := hu.closed (hu.rejected j (by rw [hj]; exact hv))
      · exact ⟨i, hi⟩
      · obtain ⟨q, a, hi⟩ := ht i
        rw [hi] at hin
        exact nomatch hin
  have hall (j : ι) (hj : j ∈ successes ls) : successes ls = [j] :=
    eq_singleton_of_mem hj (Nat.le_trans (length_successes_le h) (openings_le_one h hls))
  have hsi := hall i (mem_successes_of_run h hsucceeded)
  refine ⟨i, hsi, ?_, fun j hji => ?_⟩
  · obtain ⟨v, cleanup, f, a, hj, rfl, -⟩ := hended i
    have hcalm := hu.calm i
    rw [hj] at hcalm hsucceeded
    exact ⟨_, _, hj, answer_succeeds (hi i) hcalm hsucceeded, hsucceeded⟩
  · obtain ⟨v, cleanup, f, a, hj, rfl, hv | hv⟩ := hended j
    · have hs : (c.phases j).body.succeeded = true := by
        rw [hj]
        exact hv
      have hsj := hall j (mem_successes_of_run h hs)
      exact absurd (List.head_eq_of_cons_eq (hsj.symm.trans hsi)) hji
    · have hcalm := hu.calm j
      rw [hj] at hcalm
      refine ⟨_, _, hj, answer_rejects (hi j) hcalm hv, ?_⟩
      match v with
      | .notAdmitted | .conditionNotMet => rfl

/-- No more tasks have returned `Ok` than the gate has been opened. Without failures
and writes outside the tasks, when everyone has finished with the gate open at first,
one invocation has succeeded and all others report that the condition was not met. -/
theorem success_per_opening {catching : ι → Bool} {clones : ι → ℕ} {gate : Bool}
    {ls : List (InvocationLabel P R E C π ι (Outside ι κ))}
    {c : InvocationPool P R E C π ι (GateState ι κ)}
    (h : Pool.Run (claiming ι).world (programs ι)
      (start (fun i => .basic (catching i) (clones i)) (.initial gate)) ls c) :
    (successes ls).length ≤ openings gate ls ∧
    (Nonempty ι → gate = true → (∀ l ∈ ls, Label.Quiet l) → c.Terminal →
      ∃ i, successes ls = [i] ∧ (∃ p a, c.phases i = .finished p a ∧ a.succeeds = true) ∧
        ∀ j, j ≠ i → ∃ p a, c.phases j = .finished p a ∧ a.rejects = true) := by
  obtain ⟨d, hrun, hm⟩ := run_stations h
  refine ⟨length_successes_le hrun, fun hn hgate hls ht => ?_⟩
  subst hgate
  obtain ⟨i, hs, ⟨q, a, hi, ha, -⟩, hothers⟩ :=
    one_succeeds (fun _ => Bool.noConfusion) hrun hls (hm.terminal ht)
  obtain ⟨p, hp⟩ := hm.finished_iff.mpr ⟨q, hi⟩
  refine ⟨i, hs, ⟨p, a, hp, ha⟩, fun j hj => ?_⟩
  obtain ⟨q, a, hi, ha, -⟩ := hothers j hj
  obtain ⟨p, hp⟩ := hm.finished_iff.mpr ⟨q, hi⟩
  exact ⟨p, a, hp, ha⟩

end Steps

def contended : List (InvocationLabel ℕ ℕ ℕ ℕ String Bool (Outside Bool Unit)) :=
  [.invoke true, .enter true .predicate, .leave true .predicate (.ret true),
    .invoke false, .enter false .predicate, .leave false .predicate (.ret true),
    .enter true .lock, .leave true .lock (.ret ()), .enter true .predicate,
    .leave true .predicate (.ret true), .enter true .task, .enter false .lock,
    .act (.taskWrite true false), .leave true .task (.ret (.ok 7)),
    .enter true (.dropGuard false), .leave true (.dropGuard false) (.ret ()),
    .finish true (.outcome (.ret (.success 7))), .leave false .lock (.ret ()),
    .enter false .predicate, .leave false .predicate (.ret false),
    .enter false (.dropGuard false), .leave false (.dropGuard false) (.ret ()),
    .enter false (.dropTask false), .leave false (.dropTask false) (.ret ()),
    .finish false (.captured (.ret (.ok .conditionNotMet)))]

theorem contended_run : ∃ c : InvocationPool ℕ ℕ ℕ ℕ String Bool (GateState Bool Unit),
    Pool.Run (claiming Bool).world (programs Bool)
      (start (fun i => .basic (!i) 1) (.initial true)) contended c ∧ c.Terminal := by
  refine ⟨_, .head (.invoke rfl) (.head (.enter rfl ⟨_, rfl⟩ rfl)
    (.head (.leave rfl ⟨_, rfl, rfl⟩ ⟨trivial, rfl, rfl⟩) (.head (.invoke rfl)
    (.head (.enter rfl ⟨_, rfl⟩ rfl) (.head (.leave rfl ⟨_, rfl, rfl⟩ ⟨trivial, rfl, rfl⟩)
    (.head (.enter rfl ⟨_, rfl⟩ rfl)
    (.head (.leave rfl ⟨_, rfl, rfl⟩ ⟨trivial, by rintro (_ | _) <;> rfl, rfl⟩)
    (.head (.enter rfl ⟨_, rfl⟩ rfl) (.head (.leave rfl ⟨_, rfl, rfl⟩ ⟨trivial, rfl, rfl⟩)
    (.head (.enter rfl ⟨_, rfl⟩ rfl) (.head (.enter rfl ⟨_, rfl⟩ rfl)
    (.head (.act ⟨rfl, rfl, rfl⟩)
    (.head (.leave rfl ⟨_, rfl, rfl⟩ ⟨trivial, fun _ _ => rfl, rfl⟩)
    (.head (.enter rfl ⟨_, rfl⟩ rfl) (.head (.leave rfl ⟨_, rfl, rfl⟩ ⟨nofun, rfl⟩)
    (.head (.finish rfl rfl)
    (.head (.leave rfl ⟨_, rfl, rfl⟩ ⟨trivial, by rintro ((_ | _) | _) <;> rfl, rfl⟩)
    (.head (.enter rfl ⟨_, rfl⟩ rfl) (.head (.leave rfl ⟨_, rfl, rfl⟩ ⟨trivial, rfl, rfl⟩)
    (.head (.enter rfl ⟨_, rfl⟩ rfl) (.head (.leave rfl ⟨_, rfl, rfl⟩ ⟨nofun, rfl⟩)
    (.head (.enter rfl ⟨_, rfl⟩ rfl) (.head (.leave rfl ⟨_, rfl, rfl⟩ ⟨nofun, rfl⟩)
    (.head (.finish rfl rfl) .refl)))))))))))))))))))))))), ?_⟩
  intro i
  cases i with
  | false => exact ⟨_, _, rfl⟩
  | true => exact ⟨_, _, rfl⟩

theorem success_per_opening_contended :
    ∃ c : InvocationPool ℕ ℕ ℕ ℕ String Bool (GateState Bool Unit),
      Pool.Run (claiming Bool).world (programs Bool)
        (start (fun i => .basic (!i) 1) (.initial true)) contended c ∧
      ∃ i, successes contended = [i] ∧ (∃ p a, c.phases i = .finished p a ∧ a.succeeds = true) ∧
        ∀ j, j ≠ i → ∃ p a, c.phases j = .finished p a ∧ a.rejects = true := by
  obtain ⟨c, hrun, ht⟩ := contended_run
  refine ⟨c, hrun, (success_per_opening hrun).2 inferInstance rfl ?_ ht⟩
  simp [contended, Label.Quiet, Call.fails, Reply.panicked]

end DoubleChecked
