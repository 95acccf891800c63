import DoubleChecked.LifecycleOrder

/-!
# What answers assert

Rely-guarantee reasoning for executions on shared state. Tasks and sections are looked at
one by one, each as if it were alone; the tasks may assume that the gate is open. What
they guarantee then holds in every run, and what an answer asserts holds ever after.
-/

namespace DoubleChecked
open Effect

variable {P R E C π ι κ δ : Type}

/-- What every access guarantees, what holds between the accesses, and what an outcome
asserts. -/
structure Regime (R E δ : Type) where
  guarantee : Shared δ → Shared δ → Prop
  inv : Shared δ → Prop
  asserts : ExecutionOutcome R E → Shared δ → Prop
  inv_kept : ∀ s s', inv s → guarantee s s' → inv s'
  asserts_kept : ∀ o s s', inv s → asserts o s → guarantee s s' → asserts o s'
  closed : ∀ s, inv s → s.gate = false → asserts .conditionNotMet s

def Regime.post (K : Regime R E δ) (result : Except E R) : Shared δ → Prop :=
  K.asserts (LockedExecution.task result).intoOutcome

structure Workload.Obeys (W : Workload R E ι κ δ) (K : Regime R E δ) : Prop where
  tasks : ∀ i s, K.inv s → s.gate = true → (W.tasks i).Guarantees K.guarantee K.post s
  sections : ∀ k s, K.inv s → (W.sections k).Guarantees K.guarantee (fun _ _ => True) s

structure Kept (K : Regime R E δ) (c : StationPool P R E C π ι (WorkState R E ι κ δ)) : Prop where
  inv : K.inv c.state.shared
  task : ∀ i b, c.state.running i = some b → b.Guarantees K.guarantee K.post c.state.shared
  inside : ∀ k b, c.state.sections k = .inside b →
    b.Guarantees K.guarantee (fun _ _ => True) c.state.shared
  open_gate : ∀ i, Phase.isCleared (c.phases i) = true → Phase.inTask (c.phases i) = false →
    c.state.shared.gate = true
  decided : ∀ i v, (c.phases i).body.verdict = some v →
    ∃ o, v.outcome none = .ret o ∧ K.asserts o c.state.shared

section Steps
variable [DecidableEq ι] {K : Regime R E δ} {W : Workload R E ι κ δ}
  {invocations : ι → Invocation} {c c' : StationPool P R E C π ι (WorkState R E ι κ δ)}
  {l : InvocationLabel P R E C π ι (WorkAct ι κ)}

theorem Kept.move (h : Kept K c) {i : ι} {p : StationPhase P R E C π} {s : WorkState R E ι κ δ}
    (hshared : s.shared = c.state.shared) (hsections : s.sections = c.state.sections)
    (hrunnings : ∀ j, j ≠ i → s.running j = c.state.running j)
    (htask : ∀ b, s.running i = some b → b.Guarantees K.guarantee K.post c.state.shared)
    (hopen : Phase.isCleared p = true → Phase.inTask p = false → c.state.shared.gate = true)
    (hdecided : ∀ v, p.body.verdict = some v →
      ∃ o, v.outcome none = .ret o ∧ K.asserts o c.state.shared) : Kept K (c.move i p s) where
  inv := by
    rw [Pool.move_state, hshared]
    exact h.inv
  task j b hb := by
    rw [Pool.move_state] at hb ⊢
    rw [hshared]
    by_cases hj : j = i
    · subst hj
      exact htask b hb
    · rw [hrunnings j hj] at hb
      exact h.task j b hb
  inside k b hb := by
    rw [Pool.move_state] at hb ⊢
    rw [hsections] at hb
    rw [hshared]
    exact h.inside k b hb
  open_gate := by
    rw [Pool.move_state, hshared]
    exact c.forall_move s (motive := fun _ p => Phase.isCleared p = true →
      Phase.inTask p = false → c.state.shared.gate = true) hopen fun j _ => h.open_gate j
  decided := by
    rw [Pool.move_state, hshared]
    exact c.forall_move s (motive := fun _ p => ∀ v, p.body.verdict = some v →
      ∃ o, v.outcome none = .ret o ∧ K.asserts o c.state.shared) hdecided fun j _ => h.decided j

theorem Kept.stay (h : Kept K c) {i : ι} {p : StationPhase P R E C π}
    {s : WorkState R E ι κ δ} (hshared : s.shared = c.state.shared)
    (hsections : s.sections = c.state.sections) (hrunning : s.running = c.state.running)
    (hopen : Phase.isCleared p = true → Phase.inTask p = false → c.state.shared.gate = true)
    (hdecided : ∀ v, p.body.verdict = some v →
      ∃ o, v.outcome none = .ret o ∧ K.asserts o c.state.shared) : Kept K (c.move i p s) :=
  h.move hshared hsections (fun j _ => by rw [hrunning]) (fun b hb => h.task i b (hrunning ▸ hb))
    hopen hdecided

theorem Kept.leave (h : Kept K c) {i : ι} {q q' : Station P R E C π} {o : Call P R E C π}
    {r : o.Answer} {s : WorkState R E ι κ δ} (hq : c.phases i = .inside q o)
    (hr : Replies i c.state q o r q' s) : Kept K (c.move i (.idle q') s) := by
  have hdecided := h.decided i
  rw [hq] at hdecided
  have hclosed (hgate : c.state.shared.gate = false) {v v' : Verdict R E C π}
      (hv : v.outcome none = .ret .conditionNotMet) (hv' : some v = some v') :
      ∃ o, v'.outcome none = .ret o ∧ K.asserts o c.state.shared := by
    cases hv'
    exact ⟨_, hv, K.closed _ h.inv hgate⟩
  cases hr with
  | accept | acquire => exact h.stay rfl rfl rfl nofun nofun
  | recheck hgate => exact h.stay rfl rfl rfl (fun _ _ => hgate) nofun
  | reject hgate | recheckReject hgate =>
    exact h.stay rfl rfl rfl nofun fun v hv => hclosed hgate rfl hv
  | taskEnd result hdone =>
    have hpost : K.post result c.state.shared := h.task i _ hdone
    refine h.move rfl rfl (fun j hj => Function.update_of_ne hj ..) (fun b hb => ?_) nofun
      fun v hv => ?_
    · exact nomatch (Function.update_self ..).symm.trans hb
    · cases hv
      cases result <;> exact ⟨_, rfl, hpost⟩
  | release v u x q hv ho hb =>
    refine h.stay rfl rfl rfl (fun hc => ?_) fun v' hv' => hdecided v' (hv.symm.trans hv')
    exact absurd (ho.isCleared.symm.trans hc) Bool.false_ne_true
  | skip v u x => exact h.stay rfl rfl rfl nofun hdecided

variable [DecidableEq κ]

theorem Kept.act (hW : W.Obeys K) (hc : InStep c) (h : Kept K c) {x : WorkAct ι κ}
    {s : WorkState R E ι κ δ} (hw : W.Acts x c.state s) : Kept K ⟨c.phases, s⟩ := by
  have hopen {x : ι ⊕ κ} (hx : c.state.holder = some x) {j : ι} (hj : x ≠ .inl j) :
      Phase.isCleared (c.phases j) ≠ true := by
    intro hcleared
    have hheld := (hc.guard j).mpr (Phase.holds_of_isCleared hcleared)
    exact hj (Option.some.inj (hx.symm.trans hheld))
  have hdecided {shared : Shared δ} (hG : K.guarantee c.state.shared shared) (j : ι)
      (v : Verdict R E C π) (hv : (c.phases j).body.verdict = some v) :
      ∃ o, v.outcome none = .ret o ∧ K.asserts o shared := by
    obtain ⟨o, ho, hasserts⟩ := h.decided j v hv
    exact ⟨o, ho, K.asserts_kept o _ _ h.inv hasserts hG⟩
  cases hw with
  | @task i _ b b' shared hb hstep =>
    obtain ⟨hG, hb'⟩ := (h.task i b hb).step hstep
    have hheld := hc.holder_of_running hb
    refine ⟨K.inv_kept _ _ h.inv hG, fun j b₁ hj => ?_, fun k b₁ hk => ?_, fun j hj ht => ?_,
      hdecided hG⟩
    · by_cases hji : j = i
      · subst hji
        cases (Function.update_self ..).symm.trans hj
        exact hb'
      · have hnone := hc.running_eq_none hheld fun he => hji (Sum.inl.inj (Option.some.inj he)).symm
        exact nomatch hnone.symm.trans ((Function.update_of_ne hji ..).symm.trans hj)
    · exact absurd hk (hc.sections_ne_inside hheld nofun b₁)
    · by_cases hji : j = i
      · subst hji
        have hin := hc.running j
        rw [hb, ht] at hin
        exact absurd hin.symm Bool.false_ne_true
      · exact absurd hj (hopen hheld fun he => hji (Sum.inl.inj he).symm)
  | @acquire k _ hpending hfree =>
    refine ⟨h.inv, h.task, fun k' b hk => ?_, h.open_gate, h.decided⟩
    by_cases hkk : k' = k
    · subst hkk
      cases (Function.update_self ..).symm.trans hk
      exact hW.sections k' _ h.inv
    · exact h.inside k' b ((Function.update_of_ne hkk ..).symm.trans hk)
  | @sectionStep k _ b b' shared hb hstep =>
    obtain ⟨hG, hb'⟩ := (h.inside k b hb).step hstep
    have hheld := (hc.section_iff k).mpr ⟨b, hb⟩
    refine ⟨K.inv_kept _ _ h.inv hG, fun j b₁ hj => ?_, fun k' b₁ hk => ?_, fun j hj _ => ?_,
      hdecided hG⟩
    · exact nomatch (hc.running_eq_none hheld nofun).symm.trans hj
    · by_cases hkk : k' = k
      · subst hkk
        cases (Function.update_self ..).symm.trans hk
        exact hb'
      · have hk' := (Function.update_of_ne hkk ..).symm.trans hk
        have hne : some (.inr k : ι ⊕ κ) ≠ some (.inr k') :=
          fun he => hkk (Sum.inr.inj (Option.some.inj he)).symm
        exact absurd hk' (hc.sections_ne_inside hheld hne b₁)
    · exact absurd hj (hopen hheld nofun)
  | @release k _ hdone =>
    refine ⟨h.inv, h.task, fun k' b hk => ?_, h.open_gate, h.decided⟩
    by_cases hkk : k' = k
    · subst hkk
      exact nomatch (Function.update_self ..).symm.trans hk
    · exact h.inside k' b ((Function.update_of_ne hkk ..).symm.trans hk)

variable [PanicPayload π]

theorem kept_step (hW : W.Obeys K) (hi : ∀ i, (invocations i).prepares = false) (hc : InStep c)
    (h : Kept K c) (hs : Pool.Step W.world (stations invocations) c l c') : Kept K c' := by
  cases hs with
  | @invoke i q hq =>
    obtain rfl := hc.pending i q hq
    exact h.stay rfl rfl rfl nofun nofun
  | @enter i q o s hq ha hw =>
    have hdecided := h.decided i
    have hopen := h.open_gate i
    rw [hq] at hdecided hopen
    cases o with
    | task =>
      obtain rfl := hw
      have hgate := hopen (isCleared_of_allows ha rfl) rfl
      refine h.move rfl rfl (fun j hj => Function.update_of_ne hj ..) (fun b hb => ?_)
        (fun _ _ => hgate) hdecided
      cases (Function.update_self ..).symm.trans hb
      exact hW.tasks i _ h.inv hgate
    | _ =>
      obtain rfl := hw
      exact h.stay rfl rfl rfl (fun hcleared _ => hopen hcleared rfl) hdecided
  | @leave i q q' o r s hq ha hw =>
    have hbare := hc.bare i
    rw [hq] at hbare
    exact h.leave hq (replies_of_step (hi i) hbare (step_of_replies ha) hw)
  | @finish i q a hq ha =>
    have hdecided := h.decided i
    rw [hq] at hdecided
    exact h.stay rfl rfl rfl nofun hdecided
  | act hw => exact h.act hW hc hw

theorem kept_of_run (hW : W.Obeys K) (hi : ∀ i, (invocations i).prepares = false) {s₀ : Shared δ}
    (h₀ : K.inv s₀) {ls : List (InvocationLabel P R E C π ι (WorkAct ι κ))}
    (h : Pool.Run W.world (stations invocations) (startStations (.initial s₀)) ls c) :
    Kept K c := by
  have hstart : Kept K (startStations (P := P) (R := R) (E := E) (C := C) (π := π)
      (WorkState.initial (ι := ι) (κ := κ) s₀)) := ⟨h₀, nofun, nofun, nofun, nofun⟩
  exact (h.invariant (I := fun _ c => InStep c ∧ Kept K c) ⟨inStep_start s₀, hstart⟩
    fun _ _ _ _ hc hs => ⟨inStep_step hi hc.1 hs, kept_step hW hi hc.1 hc.2 hs⟩).2

end Steps

section Answers
variable [PanicPayload π] {invocations : ι → Invocation} {i : ι} {K : Regime R (E ⊕ π) δ}

theorem read_of_lost {v : Verdict R E C π} (h : v.lost = true) (i : Invocation)
    (cleanup : Option π) (f : Finalization C π) : (i.answer v cleanup f).read = none := by
  cases v with
  | checkPanicked | prepareFailed | preparePanicked =>
    rcases i with ⟨_ | _, _⟩ | ⟨_, _, _ | _, _⟩ <;> cases cleanup <;> rfl
  | panicked phase p => rcases i with ⟨_ | _, _⟩ | ⟨_, _, _ | _, _⟩ <;> rfl
  | _ => exact absurd h Bool.false_ne_true

omit [PanicPayload π] in
theorem Answer.Reports.eq_widen {a : Answer R E C π} {o : ExecutionOutcome R (E ⊕ π)}
    (h : a.Reports o) {x : ExecutionOutcome R E} (hx : a.read = some x) : o = x.widen := by
  rcases h.read with hread | ⟨hread, -⟩
  · rw [hx] at hread
    exact (Option.some.inj hread).symm
  · exact nomatch hx.symm.trans hread

theorem asserts_of_shows {q : Station P R E C π} {a : Answer R E C π} {gone : Prop}
    {phase : StationPhase P R (E ⊕ π) C π} {es : List (CallEvent P R E C π)} {shared : Shared δ}
    (hq : (stations invocations i).returns q a) (hpath : (invocations i).monitor.Path .fresh es q)
    (hp : PhaseShows (invocations i) gone (.finished q a) phase) (hgone : gone → q.lost = true)
    (hdecided : ∀ v, phase.body.verdict = some v →
      ∃ o, v.outcome none = .ret o ∧ K.asserts o shared)
    {x : ExecutionOutcome R E} (hx : a.read = some x) : K.asserts x.widen shared := by
  obtain ⟨v, cleanup, f, rfl, rfl⟩ := ended_of_returns hq
  cases hp with
  | finished _ a' _ hshows =>
    cases hshows with
    | @ended _ v' _ _ ht =>
      obtain ⟨o, ho, hasserts⟩ := hdecided v' rfl
      have hreports := reports_of_transcript (transcript_of_path hpath) ht ho
      rw [← hreports.eq_widen hx]
      exact hasserts
  | gone hg _ _ => exact nomatch hx.symm.trans (read_of_lost (hgone hg) (invocations i) cleanup f)

end Answers

section Runs
variable [DecidableEq ι] [DecidableEq κ] [PanicPayload π] {W : LifecycleWorkload P R E π ι κ δ}
  {K : Regime R (E ⊕ π) δ} {invocations : ι → Invocation} {s₀ : Shared δ}
  {ls : List (InvocationLabel P R E C π ι (WorkAct ι κ))}

/-- In every state of every run the invariant holds, and so does what the answers of the
invocations that have finished assert of the condition and of the task. -/
theorem answers_assert (hW : ∀ slots, (W.fixed slots).Obeys K) (h₀ : K.inv s₀)
    {c : InvocationPool P R E C π ι (WorkState R (E ⊕ π) ι κ δ)}
    (h : Pool.Run W.world (programs ι) (start invocations (.initial s₀)) ls c) :
    K.inv c.state.shared ∧ ∀ i p a, c.phases i = .finished p a →
      ∀ x, a.read = some x → K.asserts x.widen c.state.shared := by
  obtain ⟨d, hrun, hm⟩ := h.simulate start_matches station_simulation W.admits_of_leave
  obtain ⟨zs, d', -, -, hrun', hshows⟩ := shows_of_run hrun
  have hkept := kept_of_run (hW _) (fun _ => rfl) h₀ hrun'
  rw [hm.state, ← hshows.state.shared]
  refine ⟨hkept.inv, fun i p a hp x hx => ?_⟩
  obtain ⟨q, hq⟩ := hm.finished_iff.mp ⟨p, hp⟩
  have hlegal := hrun.legal (fun _ => trivial) i
  have hpath := station_path hrun i
  have hphase := hshows.phases i
  have hlost := lost_of_run hrun (i := i)
  rw [hq] at hlegal hpath hphase hlost
  exact asserts_of_shows hlegal hpath hphase hlost (hkept.decided i) hx

end Runs

def publication (init : δ → Prop) : Regime R E δ where
  guarantee s s' := (init s.data → init s'.data) ∧ (s'.gate = false → s.gate = false ∨ init s'.data)
  inv s := s.gate = false → init s.data
  asserts o s := match o with
    | .success _ | .conditionNotMet => init s.data
    | .taskFailed _ => True
  inv_kept s s' h hG hgate := (hG.2 hgate).elim (fun hs => hG.1 (h hs)) id
  asserts_kept o s s' _ ho hG := by
    cases o with
    | success | conditionNotMet => exact hG.1 ho
    | taskFailed => trivial
  closed s h hgate := h hgate

def storing : LifecycleWorkload ℕ ℕ ℕ String Bool Unit (Option ℕ) where
  tasks _ slot := .access (fun _ => some (slot.getD 0)) fun _ => .setGate false (.done (.ok 7))
  sections _ := .done ()

theorem storing_obeys (slots : Bool → Option ℕ) :
    (storing.fixed slots).Obeys (publication fun data => data.isSome = true) where
  tasks _ _ _ _ := ⟨⟨fun _ => rfl, fun _ => .inr rfl⟩, ⟨fun _ => rfl, fun _ => .inr rfl⟩, rfl⟩
  sections _ _ _ := trivial

def turnedAway : List (InvocationLabel ℕ ℕ ℕ ℕ String Bool (WorkAct Bool Unit)) :=
  [.invoke true, .enter true .predicate, .leave true .predicate (.ret true),
    .enter true .prepare, .leave true .prepare (.ret (.ok 5)), .enter true .lock,
    .leave true .lock (.ret ()), .enter true .predicate, .leave true .predicate (.ret true),
    .enter true (.taskWithToken 5), .act (.task true), .act (.task true), .invoke false,
    .enter false .predicate, .leave false .predicate (.ret false), .enter false (.dropTask false),
    .leave false (.dropTask false) (.ret ()), .finish false (.outcome (.ret .conditionNotMet))]

theorem answers_assert_turnedAway :
    ∃ c : InvocationPool ℕ ℕ ℕ ℕ String Bool
        (WorkState ℕ (ℕ ⊕ String) Bool Unit (Option ℕ)),
      Pool.Run storing.world (programs Bool)
        (start (fun i => if i then .lifecycle .commitOnly true true 0 else .basic false 0)
          (.initial ⟨true, none⟩)) turnedAway c ∧
      (∃ p, c.phases false = .finished p (.outcome (.ret .conditionNotMet))) ∧
      (∃ p, c.phases true = .inside p (.taskWithToken 5)) ∧ c.state.shared.data.isSome = true := by
  obtain ⟨c, hrun, ⟨p, hp⟩, htask⟩ :
      ∃ c : InvocationPool ℕ ℕ ℕ ℕ String Bool
          (WorkState ℕ (ℕ ⊕ String) Bool Unit (Option ℕ)),
        Pool.Run storing.world (programs Bool)
          (start (fun i => if i then .lifecycle .commitOnly true true 0 else .basic false 0)
            (.initial ⟨true, none⟩)) turnedAway c ∧
        (∃ p, c.phases false = .finished p (.outcome (.ret .conditionNotMet))) ∧
        ∃ p, c.phases true = .inside p (.taskWithToken 5) := by
    refine ⟨_, .head (.invoke rfl) (.head (.enter rfl ⟨_, rfl⟩ rfl)
      (.head (.leave rfl ⟨_, rfl, rfl⟩ ⟨trivial, rfl, rfl⟩) (.head (.enter rfl ⟨_, rfl⟩ rfl)
      (.head (.leave rfl ⟨_, rfl, rfl⟩ ⟨trivial, rfl⟩) (.head (.enter rfl ⟨_, rfl⟩ rfl)
      (.head (.leave rfl ⟨_, rfl, rfl⟩ ⟨trivial, rfl, rfl⟩) (.head (.enter rfl ⟨_, rfl⟩ rfl)
      (.head (.leave rfl ⟨_, rfl, rfl⟩ ⟨trivial, rfl, rfl⟩) (.head (.enter rfl ⟨_, rfl⟩ rfl)
      (.head (.act (.task rfl .access)) (.head (.act (.task rfl .setGate)) (.head (.invoke rfl)
      (.head (.enter rfl ⟨_, rfl⟩ rfl) (.head (.leave rfl ⟨_, rfl, rfl⟩ ⟨trivial, rfl, rfl⟩)
      (.head (.enter rfl ⟨_, rfl⟩ rfl) (.head (.leave rfl ⟨_, rfl, rfl⟩ ⟨fun _ => rfl, rfl⟩)
      (.head (.finish rfl rfl) .refl))))))))))))))))), ⟨_, rfl⟩, _, rfl⟩
  have hinv : (publication fun data : Option ℕ => data.isSome = true : Regime ℕ (ℕ ⊕ String) _).inv
      ⟨true, none⟩ := fun hgate => absurd hgate.symm Bool.false_ne_true
  exact ⟨c, hrun, ⟨p, hp⟩, htask, (answers_assert storing_obeys hinv hrun).2 false p _ hp _ rfl⟩

end DoubleChecked
