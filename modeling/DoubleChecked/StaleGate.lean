import DoubleChecked.Gate

/-!
# No task runs on a stale gate

Shared and exclusive invocations on one lock, where only exclusive tasks and outsiders
that hold the exclusive mode write the gate. A task that runs finds the gate open as
long as it has not written it, and once an outsider has closed the gate and released
the lock, nothing runs until the gate is opened again.
-/

namespace DoubleChecked
open Effect

variable {P R E C π ι κ α B : Type}

/-- Gate writes need the exclusive mode, inside a task or outside. -/
def transitions (mode : ι → Mode) : Setting ι where
  mode := mode
  taskWrites i _ := mode i = .exclusive
  freeWrites := False
  claims := False

def Current (mode : ι → Mode) (c : StationPool P R E C π ι (GateState ι κ)) : Prop :=
  ∀ i, Phase.isCleared (c.phases i) = true →
    (Phase.inTask (c.phases i) = true → mode i = .exclusive → c.state.wrote i = false) →
    c.state.gate = true

def Quiescent (c : StationPool P R E C π ι (GateState ι κ)) : Prop :=
  c.state.gate = false ∧ ∀ i, Phase.isCleared (c.phases i) = false

def Label.opens (l : InvocationLabel P R E C π ι (Outside ι κ)) : Prop :=
  ∃ x, l = .act x ∧ x.written = some true

section Steps
variable [DecidableEq ι] [DecidableEq κ] [PanicPayload π] {mode : ι → Mode}
  {invocations : ι → Invocation} {c c' : StationPool P R E C π ι (GateState ι κ)}
  {l : InvocationLabel P R E C π ι (Outside ι κ)}

omit [PanicPayload π] [DecidableEq κ] in
theorem Current.move (h : Current mode c) {i : ι} {p : StationPhase P R E C π}
    {s : GateState ι κ} (hgate : s.gate = c.state.gate)
    (hwrote : ∀ j, j ≠ i → s.wrote j = c.state.wrote j)
    (hp : Phase.isCleared p = true → c.state.gate = true) : Current mode (c.move i p s) := by
  intro j hj hw
  rw [Pool.move_state, hgate]
  by_cases hji : j = i
  · subst hji
    rw [Pool.move_phases_self] at hj
    exact hp hj
  · rw [Pool.move_phases_of_ne _ hji] at hj hw
    rw [Pool.move_state, hwrote j hji] at hw
    exact h j hj hw

theorem current_step (hc : (transitions mode).Coherent c) (h : Current mode c)
    (hs : Pool.Step (transitions mode).world (stations invocations) c l c') :
    Current mode c' := by
  cases hs with
  | @invoke i q hq =>
    obtain rfl := hc.pending i q hq
    exact h.move rfl (fun _ _ => rfl) nofun
  | @enter i q o s hq ha hw =>
    have hopen (hcl : q.isCleared = true) : c.state.gate = true := by
      refine h i ?_ ?_
      · rw [hq]
        exact hcl
      · rw [hq]
        exact nofun
    change s = if o.startsTask then _ else _ at hw
    split at hw
    · subst hw
      exact h.move rfl (fun j hj => Function.update_of_ne hj ..) hopen
    · subst hw
      exact h.move rfl (fun _ _ => rfl) hopen
  | @leave i q q' o r s hq ha hw =>
    cases Setting.leaves_of_step (step_of_replies ha) hw with
    | acquire token u hg => exact h.move rfl (fun _ _ => rfl) nofun
    | recheck token hg => exact h.move rfl (fun _ _ => rfl) fun _ => hg
    | taskEnd token token' o r v ho hok => exact h.move rfl (fun _ _ => rfl) nofun
    | release token v u x q hq =>
      exact h.move rfl (fun _ _ => rfl) fun hcl => nomatch hq.isCleared.symm.trans hcl
    | other q q' o r hq hq' hh ho =>
      exact h.move rfl (fun _ _ => rfl) fun hcl => nomatch hq'.symm.trans hcl
  | @finish i q a hq ha =>
    obtain ⟨v, cleanup, f, rfl, -⟩ := ended_of_returns ha
    exact h.move rfl (fun _ _ => rfl) nofun
  | @act x s hw =>
    cases x with
    | write b => exact hw.1.elim
    | taskWrite i b =>
      obtain ⟨hrunning, hmode, rfl⟩ := hw
      have hin : Phase.inTask (c.phases i) = true := (hc.running i).symm.trans hrunning
      intro j hj hwrote
      have hji : j = i := hc.alone hmode (Phase.holds_of_isCleared (hc.inTask i hin))
        (Phase.holds_of_isCleared hj)
      subst hji
      have hw : Function.update c.state.wrote j true j = false := hwrote hin hmode
      rw [Function.update_self] at hw
      exact nomatch hw
    | acquire k m =>
      obtain ⟨-, rfl⟩ := hw
      exact h
    | release k =>
      obtain ⟨-, rfl⟩ := hw
      exact h
    | sectionWrite k b =>
      obtain ⟨hk, rfl⟩ := hw
      intro j hj _
      exact nomatch (hc.outside_section hk j).symm.trans (Phase.holds_of_isCleared hj)

omit [PanicPayload π] [DecidableEq κ] in
theorem Quiescent.move (h : Quiescent c) {i : ι} {p : StationPhase P R E C π} {s : GateState ι κ}
    (hgate : s.gate = c.state.gate) (hp : Phase.isCleared p = false) :
    Quiescent (c.move i p s) := by
  exact ⟨hgate.trans h.1, c.forall_move s (motive := fun _ p => Phase.isCleared p = false) hp
    fun j _ => h.2 j⟩

theorem quiescent_step (hc : (transitions mode).Coherent c) (h : Quiescent c)
    (hs : Pool.Step (transitions mode).world (stations invocations) c l c')
    (hl : ¬Label.opens l) :
    Quiescent c' ∧ ∀ i o, l = .enter i o → o.startsTask = false := by
  cases hs with
  | @invoke i q hq =>
    obtain rfl := hc.pending i q hq
    exact ⟨h.move rfl rfl, nofun⟩
  | @enter i q o s hq ha hw =>
    have hi := h.2 i
    rw [hq] at hi
    have ho : o.startsTask = false := by
      cases ho : o.startsTask with
      | false => rfl
      | true => exact nomatch hi.symm.trans (isCleared_of_allows ha ho)
    change s = if o.startsTask then _ else _ at hw
    rw [ho, if_neg nofun] at hw
    subst hw
    refine ⟨h.move rfl hi, ?_⟩
    intro j o' hl
    cases hl
    exact ho
  | @leave i q q' o r s hq ha hw =>
    refine ⟨?_, nofun⟩
    cases Setting.leaves_of_step (step_of_replies ha) hw with
    | acquire token u hg => exact h.move rfl rfl
    | recheck token hg => exact nomatch h.1.symm.trans hg
    | taskEnd token token' o r v ho hok => exact h.move rfl rfl
    | release token v u x q hq => exact h.move rfl hq.isCleared
    | other q q' o r hq hq' hh ho => exact h.move rfl hq'
  | @finish i q a hq ha =>
    obtain ⟨v, cleanup, f, rfl, -⟩ := ended_of_returns ha
    exact ⟨h.move rfl rfl, nofun⟩
  | @act x s hw =>
    refine ⟨⟨?_, h.2⟩, nofun⟩
    have hx : x.written ≠ some true := fun hx => hl ⟨x, rfl, hx⟩
    cases x with
    | write b => exact hw.1.elim
    | taskWrite i b =>
      obtain ⟨-, -, rfl⟩ := hw
      exact Bool.eq_false_iff.mpr fun hb => hx (congrArg some hb)
    | acquire k m =>
      obtain ⟨-, rfl⟩ := hw
      exact h.1
    | release k =>
      obtain ⟨-, rfl⟩ := hw
      exact h.1
    | sectionWrite k b =>
      obtain ⟨-, rfl⟩ := hw
      exact Bool.eq_false_iff.mpr fun hb => hx (congrArg some hb)

theorem quiescent_run {ls : List (InvocationLabel P R E C π ι (Outside ι κ))}
    (hc : (transitions mode).Coherent c) (h : Quiescent c)
    (hrun : Pool.Run (transitions mode).world (stations invocations) c ls c')
    (hls : ∀ l ∈ ls, ¬Label.opens l) :
    Quiescent c' ∧ ∀ i o, .enter i o ∈ ls → o.startsTask = false := by
  suffices hi : (transitions mode).Coherent c' ∧ Quiescent c' ∧
      ∀ i o, .enter i o ∈ ls → o.startsTask = false from hi.2
  induction hrun with
  | refl => exact ⟨hc, h, nofun⟩
  | @snoc ls l c₁ c₂ _ hs ih =>
    obtain ⟨hc₁, hq₁, hin⟩ := ih fun l hl => hls l (List.mem_append_left _ hl)
    obtain ⟨hq₂, hl⟩ := quiescent_step hc₁ hq₁ hs
      (hls l (List.mem_append_right _ (List.mem_singleton_self l)))
    refine ⟨coherent_step hc₁ hs, hq₂, fun i o hmem => ?_⟩
    rcases List.mem_append.mp hmem with hmem | hmem
    · exact hin i o hmem
    · exact hl i o (List.mem_singleton.mp hmem).symm

theorem current_of_run {gate : Bool} {ls : List (InvocationLabel P R E C π ι (Outside ι κ))}
    (h : Pool.Run (transitions mode).world (stations invocations)
      (startStations (.initial gate)) ls c) :
    (transitions mode).Coherent c ∧ Current mode c :=
  h.invariant (I := fun _ c => (transitions mode).Coherent c ∧ Current mode c)
    ⟨coherent_start gate, fun _ hi => nomatch hi⟩
    (fun _ _ _ _ hc hs => ⟨coherent_step hc.1 hs, current_step hc.1 hc.2 hs⟩)

omit [DecidableEq ι] [DecidableEq κ] in
theorem inTask_of_matches {c : InvocationPool P R E C π ι (GateState ι κ)}
    {d : StationPool P R E C π ι (GateState ι κ)} (h : Pool.Matches (Tracks invocations) c d)
    (i : ι) : Phase.inTask (c.phases i) = Phase.inTask (d.phases i) := by
  have hp := h.phases i
  generalize c.phases i = p at hp
  generalize d.phases i = p' at hp
  cases hp <;> rfl

/-- In every run: a running task has the gate open unless it is an exclusive one that has
written it; an exclusive task is alone, and so is an outsider in the exclusive mode.
After an outsider has closed the gate and released the lock, no task runs and none is
started before a write opens the gate. -/
theorem no_stale_task {gate : Bool} {ls : List (InvocationLabel P R E C π ι (Outside ι κ))}
    {c : InvocationPool P R E C π ι (GateState ι κ)}
    (h : Pool.Run (transitions mode).world (programs ι) (start invocations (.initial gate)) ls c) :
    (∀ i, Phase.inTask (c.phases i) = true →
      (mode i = .exclusive → c.state.wrote i = false) → c.state.gate = true) ∧
    (∀ i j, Phase.inTask (c.phases i) = true → mode i = .exclusive →
      Phase.inTask (c.phases j) = true → j = i) ∧
    (∀ k, c.state.guards (.inr k) = some .exclusive → ∀ i, Phase.inTask (c.phases i) = false) ∧
    ∀ k c₁ ls' c', c.state.guards (.inr k) = some .exclusive → c.state.gate = false →
      Pool.Step (transitions mode).world (programs ι) c (.act (.release k)) c₁ →
      Pool.Run (transitions mode).world (programs ι) c₁ ls' c' →
      (∀ l ∈ ls', ¬Label.opens l) →
      (∀ i, Phase.inTask (c'.phases i) = false) ∧
        ∀ i o, .enter i o ∈ ls' → o.startsTask = false := by
  obtain ⟨d, hrun, hm⟩ := run_stations h
  obtain ⟨hc, hcurrent⟩ := current_of_run hrun
  have hin (i : ι) (hi : Phase.inTask (c.phases i) = true) :
      Phase.isCleared (d.phases i) = true :=
    hc.inTask i ((inTask_of_matches hm i).symm.trans hi)
  have houtside (k : κ) (hk : c.state.guards (.inr k) = some .exclusive) (i : ι) :
      Phase.isCleared (d.phases i) = false := by
    rw [hm.state] at hk
    cases hi : Phase.isCleared (d.phases i) with
    | false => rfl
    | true => exact nomatch (hc.outside_section hk i).symm.trans (Phase.holds_of_isCleared hi)
  refine ⟨fun i hi hw => ?_, fun i j hi hmode hj => ?_, fun k hk i => ?_, ?_⟩
  · rw [hm.state] at hw ⊢
    exact hcurrent i (hin i hi) fun _ => hw
  · exact hc.alone hmode (Phase.holds_of_isCleared (hin i hi)) (Phase.holds_of_isCleared (hin j hj))
  · exact Bool.eq_false_iff.mpr fun hi => nomatch (houtside k hk i).symm.trans (hin i hi)
  · intro k c₁ ls' c' hk hgate hs hrun' hls
    obtain ⟨d₁, hs₁, hm₁⟩ := hs.simulate hm station_simulation
      (transitions mode).admits_of_leave
    obtain ⟨d', hrun₁, hm'⟩ := hrun'.simulate hm₁ station_simulation
      (transitions mode).admits_of_leave
    have hq : Quiescent d := ⟨hm.state ▸ hgate, houtside k hk⟩
    have hclosed : ¬Label.opens (P := P) (R := R) (E := E) (C := C) (π := π)
        (.act (Outside.release (ι := ι) k)) := by
      intro hopens
      obtain ⟨x, ⟨⟩, hx⟩ := hopens
      exact nomatch hx
    have hc₁ := coherent_step hc hs₁
    obtain ⟨hq', hstarts⟩ := quiescent_run hc₁ (quiescent_step hc hq hs₁ hclosed).1 hrun₁ hls
    refine ⟨fun i => Bool.eq_false_iff.mpr fun hi => ?_, hstarts⟩
    have hi' := (coherent_of_steps hc₁ hrun₁).inTask i ((inTask_of_matches hm' i).symm.trans hi)
    exact nomatch (hq'.2 i).symm.trans hi'

end Steps

def upToTask : List (InvocationLabel ℕ ℕ ℕ ℕ String Bool (Outside Bool Unit)) :=
  [.invoke true, .enter true .predicate, .leave true .predicate (.ret true), .enter true .lock,
    .leave true .lock (.ret ()), .enter true .predicate, .leave true .predicate (.ret true),
    .enter true .task]

def upToClosing : List (InvocationLabel ℕ ℕ ℕ ℕ String Bool (Outside Bool Unit)) :=
  [.invoke false, .enter false .predicate, .leave false .predicate (.ret true),
    .act (.acquire () .exclusive), .act (.sectionWrite () false)]

def afterClosing : List (InvocationLabel ℕ ℕ ℕ ℕ String Bool (Outside Bool Unit)) :=
  [.enter false .lock, .leave false .lock (.ret ()), .enter false .predicate,
    .leave false .predicate (.ret false)]

theorem no_stale_task_shared :
    (∃ c : InvocationPool ℕ ℕ ℕ ℕ String Bool (GateState Bool Unit),
      Pool.Run (transitions fun i => if i then .shared else .exclusive).world (programs Bool)
        (start (fun i => .basic i 1) (.initial true)) upToTask c ∧
      Phase.inTask (c.phases true) = true ∧ c.state.gate = true) ∧
    ∃ c c₁ c' : InvocationPool ℕ ℕ ℕ ℕ String Bool (GateState Bool Unit),
      Pool.Run (transitions fun i => if i then .shared else .exclusive).world (programs Bool)
        (start (fun i => .basic i 1) (.initial true)) upToClosing c ∧
      Pool.Step (transitions fun i => if i then .shared else .exclusive).world (programs Bool) c
        (.act (.release ())) c₁ ∧
      Pool.Run (transitions fun i => if i then .shared else .exclusive).world (programs Bool) c₁
        afterClosing c' ∧
      (∀ i, Phase.inTask (c.phases i) = false) ∧ (∀ i, Phase.inTask (c'.phases i) = false) ∧
      ∀ i o, .enter i o ∈ afterClosing → o.startsTask = false := by
  constructor
  · obtain ⟨c, hrun, hin⟩ : ∃ c : InvocationPool ℕ ℕ ℕ ℕ String Bool (GateState Bool Unit),
        Pool.Run (transitions fun i => if i then .shared else .exclusive).world (programs Bool)
          (start (fun i => .basic i 1) (.initial true)) upToTask c ∧
        Phase.inTask (c.phases true) = true := by
      refine ⟨_, .head (.invoke rfl) (.head (.enter rfl ⟨_, rfl⟩ rfl)
        (.head (.leave rfl ⟨_, rfl, rfl⟩ ⟨trivial, rfl, rfl⟩) (.head (.enter rfl ⟨_, rfl⟩ rfl)
        (.head (.leave rfl ⟨_, rfl, rfl⟩ ⟨trivial, ⟨rfl, nofun⟩, rfl⟩)
        (.head (.enter rfl ⟨_, rfl⟩ rfl)
        (.head (.leave rfl ⟨_, rfl, rfl⟩ ⟨trivial, rfl, rfl⟩) (.head (.enter rfl ⟨_, rfl⟩ rfl)
        .refl))))))), rfl⟩
    exact ⟨c, hrun, hin, (no_stale_task hrun).1 true hin nofun⟩
  · obtain ⟨c, hrun, c₁, hstep, c', hrun', hguard, hgate⟩ :
        ∃ c : InvocationPool ℕ ℕ ℕ ℕ String Bool (GateState Bool Unit),
          Pool.Run (transitions fun i => if i then .shared else .exclusive).world (programs Bool)
            (start (fun i => .basic i 1) (.initial true)) upToClosing c ∧
          ∃ c₁, Pool.Step (transitions fun i => if i then .shared else .exclusive).world
              (programs Bool) c (.act (.release ())) c₁ ∧
            ∃ c', Pool.Run (transitions fun i => if i then .shared else .exclusive).world
                (programs Bool) c₁ afterClosing c' ∧
              c.state.guards (.inr ()) = some .exclusive ∧ c.state.gate = false := by
      have hfree : Guards.grants (Function.update (Function.update (fun _ => none) (.inr ())
          (some .exclusive)) (.inr ()) none) (.inl false : Bool ⊕ Unit) .exclusive := by
        intro y
        rcases y with b | ⟨⟩ <;> rfl
      refine ⟨_, .head (.invoke rfl) (.head (.enter rfl ⟨_, rfl⟩ rfl)
        (.head (.leave rfl ⟨_, rfl, rfl⟩ ⟨trivial, rfl, rfl⟩)
        (.head (.act ⟨fun _ => rfl, rfl⟩) (.head (.act ⟨rfl, rfl⟩) .refl)))),
        _, .act ⟨nofun, rfl⟩, _, .head (.enter rfl ⟨_, rfl⟩ rfl)
        (.head (.leave rfl ⟨_, rfl, rfl⟩ ⟨trivial, hfree, rfl⟩)
        (.head (.enter rfl ⟨_, rfl⟩ rfl)
        (.head (.leave rfl ⟨_, rfl, rfl⟩ ⟨trivial, rfl, rfl⟩) .refl))), rfl, rfl⟩
    have hclosed (l : InvocationLabel ℕ ℕ ℕ ℕ String Bool (Outside Bool Unit))
        (hl : l ∈ afterClosing) : ¬Label.opens l := by
      intro hopens
      obtain ⟨x, rfl, -⟩ := hopens
      simp [afterClosing] at hl
    obtain ⟨hquiet, hstarts⟩ :=
      (no_stale_task hrun).2.2.2 () c₁ afterClosing c' hguard hgate hstep hrun' hclosed
    exact ⟨c, c₁, c', hrun, hstep, hrun', (no_stale_task hrun).2.2.1 () hguard, hquiet, hstarts⟩

end DoubleChecked
