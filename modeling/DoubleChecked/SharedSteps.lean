import DoubleChecked.SharedWork

/-!
# Steps on shared state

What a reply can do when nothing panics, and who may work on the shared state: the lock
is held where the stations and the sections say, and work is in progress under it only.
-/

namespace DoubleChecked
open Effect

variable {P R E C π ι κ δ : Type}

def Station.Bare : Station P R E C π → Prop
  | .fresh => True
  | .acquiring token | .guarded token | .cleared token => token = none
  | .releasing token _ | .skipping token _ => token = none
  | .ended _ cleanup _ => cleanup = none
  | _ => False

section Moves
variable [DecidableEq ι]

inductive Replies (i : ι) (s : WorkState R E ι κ δ) : Station P R E C π → (o : Call P R E C π) →
    o.Answer → Station P R E C π → WorkState R E ι κ δ → Prop
  | accept : s.shared.gate = true → Replies i s .fresh .predicate (.ret true) (.acquiring none) s
  | reject : s.shared.gate = false →
      Replies i s .fresh .predicate (.ret false) (.skipping none .notAdmitted) s
  | acquire (u : Unit) : s.holder = none → Replies i s (.acquiring none) .lock (.ret u)
      (.guarded none) { s with holder := some (.inl i) }
  | recheck : s.shared.gate = true →
      Replies i s (.guarded none) .predicate (.ret true) (.cleared none) s
  | recheckReject : s.shared.gate = false →
      Replies i s (.guarded none) .predicate (.ret false) (.releasing none .conditionNotMet) s
  | taskEnd (result : Except E R) : s.running i = some (.done result) →
      Replies i s (.cleared none) .task (.ret result) (.releasing none (.returned result))
        { s with running := Function.update s.running i none }
  | release (v : Verdict R E C π) (u : Bool) (x : Reply π Unit) (q : Station P R E C π) :
      q.verdict = some v → q.Outside → q.Bare →
      Replies i s (.releasing none v) (.dropGuard u) x q { s with holder := none }
  | skip (v : Verdict R E C π) (u : Bool) (x : Reply π Unit) :
      Replies i s (.skipping none v) (.dropTask u) x (.ended v none .notReached) s

omit [DecidableEq ι] in
theorem bare_afterRelease {v : Verdict R E C π} (b : Bool) :
    (Station.afterRelease (P := P) none v b).Bare := by
  cases b <;> rfl

omit [DecidableEq ι] in
theorem afterSkip_bare {v : Verdict R E C π} :
    Station.afterSkip (P := P) none v none = .ended v none .notReached := by
  cases v <;> rfl

variable [DecidableEq κ] [PanicPayload π] {W : Workload R E ι κ δ}

theorem replies_of_step {invocation : Invocation} {i : ι} {q q' : Station P R E C π}
    {o : Call P R E C π} {r : o.Answer} {s s' : WorkState R E ι κ δ}
    (hi : invocation.prepares = false) (hq : q.Bare) (h : invocation.Step q o r q')
    (hw : W.world.leave i o r s s') : Replies i s q o r q' s' := by
  cases h with
  | accept =>
    obtain ⟨hgate, rfl⟩ := hw
    rw [hi, if_neg nofun]
    exact .accept hgate.symm
  | reject =>
    obtain ⟨hgate, rfl⟩ := hw
    exact .reject hgate.symm
  | acquire token u =>
    obtain rfl := hq
    obtain ⟨hfree, rfl⟩ := hw
    exact .acquire u hfree
  | recheck token =>
    obtain rfl := hq
    obtain ⟨hgate, rfl⟩ := hw
    exact .recheck hgate.symm
  | recheckReject token =>
    obtain rfl := hq
    obtain ⟨hgate, rfl⟩ := hw
    exact .recheckReject hgate.symm
  | taskReturn token result =>
    obtain rfl := hq
    obtain ⟨hdone, rfl⟩ := hw
    exact .taskEnd result hdone
  | release token v u =>
    obtain rfl := hq
    obtain rfl := hw
    exact .release v _ _ _ (Station.verdict_afterRelease _) (outside_afterRelease _)
      (bare_afterRelease _)
  | skip token v u =>
    obtain rfl := hq
    obtain rfl := hw
    rw [afterSkip_bare]
    exact .skip v _ _
  | tokenTaskReturn t t' result => exact nomatch hq
  | tokenTaskPanic t t' p => exact nomatch hq
  | discardLate | discardEarly => exact hw.elim
  | _ => exact hw.elim

structure InStep (c : StationPool P R E C π ι (WorkState R E ι κ δ)) : Prop where
  bare : ∀ i, (c.phases i).body.Bare
  guard : ∀ i, c.state.holder = some (.inl i) ↔ Phase.holds (c.phases i) = true
  section_iff : ∀ k, c.state.holder = some (.inr k) ↔ ∃ b, c.state.sections k = .inside b
  running : ∀ i, (c.state.running i).isSome = Phase.inTask (c.phases i)
  pending : ∀ i q, c.phases i = .pending q → q = .fresh
  inTask : ∀ i, Phase.inTask (c.phases i) = true → Phase.isCleared (c.phases i) = true

variable {invocations : ι → Invocation} {c c' : StationPool P R E C π ι (WorkState R E ι κ δ)}
  {l : InvocationLabel P R E C π ι (WorkAct ι κ)}

omit [DecidableEq κ] [PanicPayload π] in
theorem InStep.move (h : InStep c) {i : ι} {p : StationPhase P R E C π}
    {s : WorkState R E ι κ δ} (hp : ∀ q, p ≠ .pending q) (hbare : p.body.Bare)
    (hguard : s.holder = some (.inl i) ↔ Phase.holds p = true)
    (hrunning : (s.running i).isSome = Phase.inTask p)
    (hinTask : Phase.inTask p = true → Phase.isCleared p = true)
    (hothers : ∀ x, x ≠ .inl i → (s.holder = some x ↔ c.state.holder = some x))
    (hrunnings : ∀ j, j ≠ i → s.running j = c.state.running j)
    (hsections : s.sections = c.state.sections) : InStep (c.move i p s) where
  bare := c.forall_move s (motive := fun _ p => p.body.Bare) hbare fun j _ => h.bare j
  guard := c.forall_move s (motive := fun j p => s.holder = some (.inl j) ↔ Phase.holds p = true)
    hguard fun j hj => (hothers (.inl j) fun he => hj (Sum.inl.inj he)).trans (h.guard j)
  section_iff k := by
    rw [Pool.move_state, hsections]
    exact (hothers (.inr k) nofun).trans (h.section_iff k)
  running := by
    refine c.forall_move s (motive := fun j p => (s.running j).isSome = Phase.inTask p) hrunning ?_
    intro j hj
    rw [hrunnings j hj]
    exact h.running j
  pending j q := c.forall_move s (motive := fun _ p => p = .pending q → q = .fresh)
    (fun hq => absurd hq (hp q)) (fun j _ => h.pending j q) j
  inTask := c.forall_move s (motive := fun _ p => Phase.inTask p = true → Phase.isCleared p = true)
    hinTask fun j _ => h.inTask j

omit [DecidableEq κ] [PanicPayload π] in
theorem InStep.stay (h : InStep c) {i : ι} {p : StationPhase P R E C π} (hp : ∀ q, p ≠ .pending q)
    (hbare : p.body.Bare) (hguard : c.state.holder = some (.inl i) ↔ Phase.holds p = true)
    (hrunning : (c.state.running i).isSome = Phase.inTask p)
    (hinTask : Phase.inTask p = true → Phase.isCleared p = true) : InStep (c.move i p c.state) :=
  h.move hp hbare hguard hrunning hinTask (fun _ _ => Iff.rfl) (fun _ _ => rfl) rfl

omit [DecidableEq κ] [PanicPayload π] in
theorem InStep.leave (h : InStep c) {i : ι} {q q' : Station P R E C π} {o : Call P R E C π}
    {r : o.Answer} {s : WorkState R E ι κ δ} (hq : c.phases i = .inside q o)
    (hr : Replies i c.state q o r q' s) : InStep (c.move i (.idle q') s) := by
  have hguard := h.guard i
  have hrunning := h.running i
  rw [hq] at hguard hrunning
  cases hr with
  | accept | reject | recheck | recheckReject | skip =>
    exact h.stay (fun _ => nofun) rfl hguard hrunning nofun
  | acquire u hfree =>
    refine h.move (fun _ => nofun) rfl ⟨fun _ => rfl, fun _ => rfl⟩ hrunning nofun
      (fun x hx => ?_) (fun _ _ => rfl) rfl
    simp [hfree, Ne.symm hx]
  | taskEnd result hdone =>
    exact h.move (fun _ => nofun) rfl hguard (by simp [Phase.inTask]) nofun (fun _ _ => Iff.rfl)
      (fun j hj => Function.update_of_ne hj ..) rfl
  | release v u x q hv ho hb =>
    have hheld := hguard.mpr rfl
    refine h.move (fun _ => nofun) hb ?_ hrunning nofun (fun x hx => ?_) (fun _ _ => rfl) rfl
    · simp [Phase.holds, ho.holds]
    · simp [hheld, Ne.symm hx]

omit [PanicPayload π] in
theorem InStep.act (h : InStep c) {x : WorkAct ι κ} {s : WorkState R E ι κ δ}
    (hw : W.Acts x c.state s) : InStep ⟨c.phases, s⟩ := by
  cases hw with
  | @task i _ b b' shared hb hstep =>
    have hin : Phase.inTask (c.phases i) = true := by
      rw [← h.running i, hb]
      rfl
    rw [← Pool.move_self c i]
    refine h.move ?_ (h.bare i) (h.guard i) ?_ (h.inTask i) (fun _ _ => Iff.rfl)
      (fun j hj => Function.update_of_ne hj ..) rfl
    · intro q hq
      rw [hq] at hin
      exact nomatch hin
    · simp [hin]
  | @acquire k _ hpending hfree =>
    refine ⟨h.bare, fun i => ?_, fun k' => ?_, h.running, h.pending, h.inTask⟩
    · rw [← h.guard i, hfree]
      simp
    · by_cases hk : k' = k
      · subst hk
        simp
      · have hn := h.section_iff k'
        rw [hfree] at hn
        simpa [hk, Ne.symm hk] using hn
  | @sectionStep k _ b b' shared hb hstep =>
    refine ⟨h.bare, h.guard, fun k' => ?_, h.running, h.pending, h.inTask⟩
    by_cases hk : k' = k
    · subst hk
      simpa using (h.section_iff k').mpr ⟨b, hb⟩
    · simpa [hk] using h.section_iff k'
  | @release k _ hdone =>
    have hheld := (h.section_iff k).mpr ⟨_, hdone⟩
    refine ⟨h.bare, fun i => ?_, fun k' => ?_, h.running, h.pending, h.inTask⟩
    · rw [← h.guard i, hheld]
      simp
    · by_cases hk : k' = k
      · subst hk
        simp
      · have hn := h.section_iff k'
        rw [hheld] at hn
        simpa [hk, Ne.symm hk] using hn

theorem inStep_step (hi : ∀ i, (invocations i).prepares = false) (h : InStep c)
    (hs : Pool.Step W.world (stations invocations) c l c') : InStep c' := by
  cases hs with
  | @invoke i q hq =>
    obtain rfl := h.pending i q hq
    have hguard := h.guard i
    have hrunning := h.running i
    rw [hq] at hguard hrunning
    exact h.stay (fun _ => nofun) trivial hguard hrunning nofun
  | @enter i q o s hq ha hw =>
    have hguard := h.guard i
    have hrunning := h.running i
    have hbare := h.bare i
    rw [hq] at hguard hrunning hbare
    cases o with
    | task =>
      obtain rfl := hw
      exact h.move (fun _ => nofun) hbare hguard (by simp [Phase.inTask, Call.startsTask])
        (isCleared_of_allows ha) (fun _ _ => Iff.rfl) (fun j hj => Function.update_of_ne hj ..) rfl
    | taskWithToken t =>
      cases q with
      | cleared token =>
        obtain rfl := hbare
        exact nomatch ha
      | _ => exact ha.elim
    | _ =>
      obtain rfl := hw
      exact h.stay (fun _ => nofun) hbare hguard hrunning nofun
  | @leave i q q' o r s hq ha hw =>
    have hbare := h.bare i
    rw [hq] at hbare
    exact h.leave hq (replies_of_step (hi i) hbare (step_of_replies ha) hw)
  | @finish i q a hq ha =>
    have hguard := h.guard i
    have hrunning := h.running i
    have hbare := h.bare i
    rw [hq] at hguard hrunning hbare
    obtain ⟨v, cleanup, f, rfl, -⟩ := ended_of_returns ha
    exact h.stay (fun _ => nofun) hbare hguard hrunning nofun
  | act hw => exact h.act hw

omit [DecidableEq ι] [DecidableEq κ] [PanicPayload π] in
theorem inStep_start (s : Shared δ) :
    InStep (startStations (P := P) (R := R) (E := E) (C := C) (π := π)
      (WorkState.initial (ι := ι) (κ := κ) s)) where
  bare _ := trivial
  guard _ := ⟨nofun, nofun⟩
  section_iff _ := ⟨nofun, fun h => nomatch h.choose_spec⟩
  running _ := rfl
  pending _ _ h := by cases h; rfl
  inTask _ h := nomatch h

theorem inStep_of_run (hi : ∀ i, (invocations i).prepares = false) {s : Shared δ}
    {ls : List (InvocationLabel P R E C π ι (WorkAct ι κ))}
    (h : Pool.Run W.world (stations invocations) (startStations (.initial s)) ls c) : InStep c :=
  h.invariant (I := fun _ c => InStep c) (inStep_start s)
    fun _ _ _ _ hc hs => inStep_step hi hc hs

omit [DecidableEq ι] [DecidableEq κ] [PanicPayload π] in
theorem InStep.not_running (h : InStep c) {i : ι} (hi : Phase.inTask (c.phases i) = false) :
    c.state.running i = none := by
  have hr := h.running i
  rw [hi] at hr
  exact Option.isNone_iff_eq_none.mp (Option.isSome_eq_false_iff.mp hr)

omit [DecidableEq ι] [DecidableEq κ] [PanicPayload π] in
theorem InStep.holder_of_running (h : InStep c) {i : ι} {b : Body δ (Except E R)}
    (hb : c.state.running i = some b) : c.state.holder = some (.inl i) := by
  have hin : Phase.inTask (c.phases i) = true := by
    rw [← h.running i, hb]
    rfl
  exact (h.guard i).mpr (Phase.holds_of_isCleared (h.inTask i hin))

omit [DecidableEq ι] [DecidableEq κ] [PanicPayload π] in
theorem InStep.running_eq_none (h : InStep c) {x : Option (ι ⊕ κ)} (hx : c.state.holder = x)
    {i : ι} (hi : x ≠ some (.inl i)) : c.state.running i = none := by
  cases hb : c.state.running i with
  | none => rfl
  | some b => exact absurd (hx.symm.trans (h.holder_of_running hb)) hi

omit [DecidableEq ι] [DecidableEq κ] [PanicPayload π] in
theorem InStep.sections_ne_inside (h : InStep c) {x : Option (ι ⊕ κ)} (hx : c.state.holder = x)
    {k : κ} (hk : x ≠ some (.inr k)) (b : Body δ Unit) : c.state.sections k ≠ .inside b :=
  fun hb => hk (hx.symm.trans ((h.section_iff k).mpr ⟨b, hb⟩))

end Moves
end DoubleChecked
