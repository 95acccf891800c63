import DoubleChecked.Commits
import DoubleChecked.StaleGate

/-!
# The unlocked check is only a hint

A check made without the guard may read an old value of the gate, or be wrong in any
other way. It decides who tries, and nothing that the lock guarantees rests on it: only
the second check must be right.
-/

namespace DoubleChecked
open Effect

variable {P R E C π ι κ : Type}

/-- The world in which a check may report anything unless its invocation holds a guard. -/
def Setting.relaxed [DecidableEq ι] [DecidableEq κ] (D : Setting ι) :
    World (Calls P R E C π) ι (GateState ι κ) (Outside ι κ) :=
  { D.world with
    leave i o r s s' := D.world.leave i o r s s' ∨
      o.isPredicate = true ∧ s.guards (.inl i) = none ∧ s' = s }

section Steps
variable [DecidableEq ι] [DecidableEq κ] [PanicPayload π] {D : Setting ι}
  {invocations : ι → Invocation} {c c' : StationPool P R E C π ι (GateState ι κ)}
  {l : InvocationLabel P R E C π ι (Outside ι κ)}
  {ls : List (InvocationLabel P R E C π ι (Outside ι κ))} {gate : Bool}

omit [PanicPayload π] in
theorem Setting.admits_of_relaxed (i : ι) (o : Call P R E C π) (r : o.Answer)
    (s s' : GateState ι κ) (h : D.relaxed.leave i o r s s') : o.admits r := by
  rcases h with h | ⟨ho, -⟩
  · exact h.1
  · cases o with
    | predicate => exact trivial
    | _ => exact nomatch ho

theorem Setting.simulate_relaxed {c c' : InvocationPool P R E C π ι (GateState ι κ)}
    {d : StationPool P R E C π ι (GateState ι κ)} (h : Pool.Run D.relaxed (programs ι) c ls c')
    (hm : Pool.Matches (Tracks invocations) c d) :
    ∃ d', Pool.Run D.relaxed (stations invocations) d ls d' ∧
      Pool.Matches (Tracks invocations) c' d' :=
  h.simulate hm station_simulation D.admits_of_relaxed

structure FirstCheck (i : Invocation) (r : Reply π Bool) (q : Station P R E C π) : Prop where
  step : i.Step .fresh .predicate r q
  holds : q.holds = false
  isCleared : q.isCleared = false

theorem firstCheck_of_step {i : Invocation} {r : Reply π Bool} {q : Station P R E C π}
    (h : i.Step .fresh .predicate r q) : FirstCheck i r q where
  step := h
  holds := by
    cases h with
    | accept => cases i.prepares <;> rfl
    | _ => rfl
  isCleared := by
    cases h with
    | accept => cases i.prepares <;> rfl
    | _ => rfl

theorem relaxed_step (hc : D.Coherent c)
    (hs : Pool.Step D.relaxed (stations invocations) c l c') :
    Pool.Step D.world (stations invocations) c l c' ∨
      ∃ i r q, c.phases i = .inside .fresh .predicate ∧ FirstCheck (invocations i) r q ∧
        l = .leave i .predicate r ∧ c' = c.move i (.idle q) c.state := by
  cases hs with
  | invoke hi => exact .inl (.invoke hi)
  | enter hi ha hw => exact .inl (.enter hi ha hw)
  | finish hi ha => exact .inl (.finish hi ha)
  | act hw => exact .inl (.act hw)
  | @leave i q q' o r s hi ha hw =>
    rcases hw with hw | ⟨ho, hguard, rfl⟩
    · exact .inl (.leave hi ha hw)
    · cases o with
      | predicate =>
        have hheld := hc.held i
        rw [hguard, hi] at hheld
        have hstep := step_of_replies ha
        have hfresh : q = .fresh := by
          cases hstep with
          | accept | reject | checkPanic => rfl
          | recheck | recheckReject | recheckPanic => exact nomatch hheld
        subst hfresh
        exact .inr ⟨i, r, q', hi, firstCheck_of_step hstep, rfl, rfl⟩
      | _ => exact nomatch ho

theorem coherent_check (hc : D.Coherent c) {i : ι} {r : Reply π Bool} {q : Station P R E C π}
    (hi : c.phases i = .inside .fresh .predicate) (hq : FirstCheck (invocations i) r q) :
    D.Coherent (c.move i (.idle q) c.state) :=
  hc.leave (o := .predicate) (r := r) hi (.other _ _ _ _ rfl hq.isCleared hq.holds rfl)

theorem invariant_of_relaxed {I : List (InvocationLabel P R E C π ι (Outside ι κ)) →
      StationPool P R E C π ι (GateState ι κ) → Prop}
    (h : Pool.Run D.relaxed (stations invocations) c ls c') (hc : D.Coherent c) (init : I [] c)
    (step : ∀ ls c l c', D.Coherent c → I ls c →
      Pool.Step D.world (stations invocations) c l c' → I (ls ++ [l]) c')
    (check : ∀ ls c i r q, I ls c → c.phases i = .inside .fresh .predicate →
      FirstCheck (invocations i) r q →
      I (ls ++ [.leave i .predicate r]) (c.move i (.idle q) c.state)) :
    D.Coherent c' ∧ I ls c' := by
  refine h.invariant (I := fun ls c => D.Coherent c ∧ I ls c) ⟨hc, init⟩ ?_
  intro ls c l c' hI hs
  obtain ⟨hc, hI⟩ := hI
  rcases relaxed_step hc hs with hs | ⟨i, r, q, hi, hq, rfl, rfl⟩
  · exact ⟨coherent_step hc hs, step ls c l c' hc hI hs⟩
  · exact ⟨coherent_check hc hi hq, check ls c i r q hI hi hq⟩

omit [DecidableEq κ] in
theorem current_check {mode : ι → Mode} (h : Current mode c) {i : ι} {r : Reply π Bool}
    {q : Station P R E C π} (hq : FirstCheck (invocations i) r q) :
    Current mode (c.move i (.idle q) c.state) :=
  h.move rfl (fun _ _ => rfl) fun hcl => nomatch hq.isCleared.symm.trans hcl

theorem counts_check (h : Counts gate ls c) {i : ι} {r : Reply π Bool} {q : Station P R E C π}
    (hi : c.phases i = .inside .fresh .predicate) (hq : FirstCheck (invocations i) r q) :
    Counts gate (ls ++ [.leave i .predicate r]) (c.move i (.idle q) c.state) := by
  have hsuccesses : successes (ls ++ [.leave i .predicate r]) = successes ls := by
    rw [successes, List.filterMap_append]
    exact List.append_nil _
  have hhistory : gateHistory gate (ls ++ [.leave i .predicate r]) = gateHistory gate ls := by
    rw [gateHistory_snoc]
    rfl
  refine ⟨coherent_check h.coherent hi hq, ?_, ?_⟩
  · rw [hsuccesses, openings, hhistory]
    refine h.counted.move rfl (fun _ _ => rfl) (fun hcl => ?_) fun hin => ?_
    · exact absurd (hq.isCleared.symm.trans hcl) Bool.false_ne_true
    · exact absurd hin Bool.false_ne_true
  · rw [hhistory]
    exact h.gate

/-- Whatever the checks without the guard report: no more tasks have returned `Ok`, and no
more commits have begun, than the gate has been opened. -/
theorem claims_unlocked {c : InvocationPool P R E C π ι (GateState ι κ)}
    (h : Pool.Run (claiming ι).relaxed (programs ι) (start invocations (.initial gate)) ls c) :
    (successes ls).length ≤ openings gate ls ∧ (commits ls).length ≤ openings gate ls := by
  obtain ⟨d, hrun, -⟩ := Setting.simulate_relaxed h start_matches
  obtain ⟨-, hcounts⟩ := invariant_of_relaxed (I := Counts gate) hrun (coherent_start gate)
    (counts_start gate) (fun _ _ _ _ _ hc hs => counts_step hc hs)
    fun _ _ _ _ _ hc hi hq => counts_check hc hi hq
  have hsuccesses := Nat.le_trans (Nat.le_add_right ..) hcounts.counted.open_gate
  exact ⟨hsuccesses, Nat.le_trans (commits_le_successes hrun) hsuccesses⟩

/-- Whatever the checks without the guard report: a running task has the gate open unless
it is an exclusive one that has written it, an exclusive task is alone, and no task runs
while an outsider has the exclusive mode. -/
theorem tasks_unlocked {mode : ι → Mode} {c : InvocationPool P R E C π ι (GateState ι κ)}
    (h : Pool.Run (transitions mode).relaxed (programs ι)
      (start invocations (.initial gate)) ls c) :
    (∀ i, Phase.inTask (c.phases i) = true →
      (mode i = .exclusive → c.state.wrote i = false) → c.state.gate = true) ∧
    (∀ i j, Phase.inTask (c.phases i) = true → mode i = .exclusive →
      Phase.inTask (c.phases j) = true → j = i) ∧
    ∀ k, c.state.guards (.inr k) = some .exclusive → ∀ i, Phase.inTask (c.phases i) = false := by
  obtain ⟨d, hrun, hm⟩ := Setting.simulate_relaxed h start_matches
  obtain ⟨hc, hcurrent⟩ := invariant_of_relaxed (I := fun _ c => Current mode c) hrun
    (coherent_start gate) (fun _ hi => nomatch hi) (fun _ _ _ _ hc hI hs => current_step hc hI hs)
    fun _ _ _ _ _ hI _ hq => current_check hI hq
  have hin (i : ι) (hi : Phase.inTask (c.phases i) = true) : Phase.isCleared (d.phases i) = true :=
    hc.inTask i ((inTask_of_matches hm i).symm.trans hi)
  refine ⟨fun i hi hw => ?_, fun i j hi hmode hj => ?_, fun k hk i => ?_⟩
  · rw [hm.state] at hw ⊢
    exact hcurrent i (hin i hi) fun _ => hw
  · exact hc.alone hmode (Phase.holds_of_isCleared (hin i hi)) (Phase.holds_of_isCleared (hin j hj))
  · rw [hm.state] at hk
    exact Bool.eq_false_iff.mpr fun hi =>
      nomatch (hc.outside_section hk i).symm.trans (Phase.holds_of_isCleared (hin i hi))

end Steps

def misled : List (InvocationLabel ℕ ℕ ℕ ℕ String Bool (Outside Bool Unit)) :=
  [.invoke true, .enter true .predicate, .leave true .predicate (.ret true),
    .act (.acquire () .exclusive), .act (.sectionWrite () true), .act (.release ()),
    .enter true .lock, .leave true .lock (.ret ()), .enter true .predicate,
    .leave true .predicate (.ret true), .enter true .task, .act (.taskWrite true false),
    .leave true .task (.ret (.ok 7))]

theorem misled_run :
    ∃ c : InvocationPool ℕ ℕ ℕ ℕ String Bool (GateState Bool Unit),
      Pool.Run (claiming Bool).relaxed (programs Bool)
        (start (fun _ => .basic false 1) (.initial false)) misled c := by
  refine ⟨_, .head (.invoke rfl) (.head (.enter rfl ⟨_, rfl⟩ rfl)
    (.head (.leave rfl ⟨_, rfl, rfl⟩ (.inr ⟨rfl, rfl, rfl⟩))
    (.head (.act ⟨by rintro (_ | _) <;> rfl, rfl⟩) (.head (.act ⟨rfl, rfl⟩)
    (.head (.act ⟨nofun, rfl⟩) (.head (.enter rfl ⟨_, rfl⟩ rfl)
    (.head (.leave rfl ⟨_, rfl, rfl⟩ (.inl ⟨trivial, ?_, rfl⟩))
    (.head (.enter rfl ⟨_, rfl⟩ rfl) (.head (.leave rfl ⟨_, rfl, rfl⟩ (.inl ⟨trivial, rfl, rfl⟩))
    (.head (.enter rfl ⟨_, rfl⟩ rfl) (.head (.act ⟨rfl, rfl, rfl⟩)
    (.head (.leave rfl ⟨_, rfl, rfl⟩ (.inl ⟨trivial, fun _ _ => rfl, rfl⟩)) .refl))))))))))))⟩
  rintro ((_ | _) | _) <;> rfl

theorem claims_unlocked_misled : (successes misled).length = 1 ∧ openings false misled = 1 ∧
    (successes misled).length ≤ openings false misled := by
  obtain ⟨c, hrun⟩ := misled_run
  exact ⟨rfl, rfl, (claims_unlocked hrun).1⟩

theorem tasks_unlocked_misled :
    ∃ c : InvocationPool ℕ ℕ ℕ ℕ String Bool (GateState Bool Unit),
      Pool.Run (transitions fun _ => .exclusive).relaxed (programs Bool)
        (start (fun _ => .basic false 1) (.initial false)) (misled.take 11) c ∧
      Phase.inTask (c.phases true) = true ∧ c.state.gate = true := by
  obtain ⟨c, hrun, hin, hwrote⟩ : ∃ c : InvocationPool ℕ ℕ ℕ ℕ String Bool (GateState Bool Unit),
      Pool.Run (transitions fun _ => .exclusive).relaxed (programs Bool)
        (start (fun _ => .basic false 1) (.initial false)) (misled.take 11) c ∧
      Phase.inTask (c.phases true) = true ∧ c.state.wrote true = false := by
    refine ⟨_, .head (.invoke rfl) (.head (.enter rfl ⟨_, rfl⟩ rfl)
      (.head (.leave rfl ⟨_, rfl, rfl⟩ (.inr ⟨rfl, rfl, rfl⟩))
      (.head (.act ⟨by rintro (_ | _) <;> rfl, rfl⟩) (.head (.act ⟨rfl, rfl⟩)
      (.head (.act ⟨nofun, rfl⟩) (.head (.enter rfl ⟨_, rfl⟩ rfl)
      (.head (.leave rfl ⟨_, rfl, rfl⟩ (.inl ⟨trivial, ?_, rfl⟩))
      (.head (.enter rfl ⟨_, rfl⟩ rfl)
      (.head (.leave rfl ⟨_, rfl, rfl⟩ (.inl ⟨trivial, rfl, rfl⟩))
      (.head (.enter rfl ⟨_, rfl⟩ rfl) .refl)))))))))), rfl, rfl⟩
    rintro ((_ | _) | _) <;> rfl
  exact ⟨c, hrun, hin, (tasks_unlocked hrun).1 true hin fun _ => hwrote⟩

end DoubleChecked
