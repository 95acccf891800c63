import DoubleChecked.Gate

/-!
# One success for each opening of the gate

All invocations use the exclusive mode, no task opens the gate, and a task that
returns `Ok` has closed it. Code outside the tasks writes the gate whenever it likes.
An admitted task claims one opening: the invariant says what is left of the openings
while an invocation is stalled, while its task runs, and after the task has closed
the gate but not yet returned.
-/

namespace DoubleChecked
open Effect

variable {P R E C π ι κ : Type}

def claiming (ι : Type) : Setting ι where
  mode _ := .exclusive
  taskWrites _ b := b = false
  freeWrites := True
  claims := True

theorem Call.returnsOk_of_not_startsTask {o : Call P R E C π} {r : o.Answer}
    (h : o.startsTask = false) : o.returnsOk r = false := by
  cases o with
  | task => exact nomatch h
  | taskWithToken t => exact nomatch h
  | _ => rfl

namespace Label

def succeeds (l : InvocationLabel P R E C π ι (Outside ι κ)) : Option ι :=
  match l with
  | .leave i o r => if o.returnsOk r then some i else none
  | _ => none

def commits (l : InvocationLabel P R E C π ι (Outside ι κ)) : Option ι :=
  match l with
  | .enter i (.commit _) => some i
  | _ => none

def written (l : InvocationLabel P R E C π ι (Outside ι κ)) : Option Bool :=
  match l with
  | .act x => x.written
  | _ => none

theorem length_succeeds_leave (i : ι) (o : Call P R E C π) (r : o.Answer) :
    (succeeds (.leave i o r : InvocationLabel P R E C π ι (Outside ι κ))).toList.length =
      if o.returnsOk r then 1 else 0 := by
  rw [succeeds]
  split <;> rfl

end Label

def successes (ls : List (InvocationLabel P R E C π ι (Outside ι κ))) : List ι :=
  ls.filterMap Label.succeeds

def commits (ls : List (InvocationLabel P R E C π ι (Outside ι κ))) : List ι :=
  ls.filterMap Label.commits

def opened (n : ℕ × Bool) : Option Bool → ℕ × Bool
  | some true => (if n.2 then n.1 else n.1 + 1, true)
  | some false => (n.1, false)
  | none => n

def gateHistory (gate : Bool) (ls : List (InvocationLabel P R E C π ι (Outside ι κ))) : ℕ × Bool :=
  ls.foldl (fun n l => opened n (Label.written l)) (gate.toNat, gate)

/-- One if the gate starts open, and one for each write that turns it from false to
true. -/
def openings (gate : Bool) (ls : List (InvocationLabel P R E C π ι (Outside ι κ))) : ℕ :=
  (gateHistory gate ls).1

@[simp] theorem gateHistory_snoc (gate : Bool)
    (ls : List (InvocationLabel P R E C π ι (Outside ι κ)))
    (l : InvocationLabel P R E C π ι (Outside ι κ)) :
    gateHistory gate (ls ++ [l]) = opened (gateHistory gate ls) (Label.written l) := by
  simp [gateHistory]

theorem le_opened {m n : ℕ} {g : Bool} (w : Option Bool) (h : m ≤ n) : m ≤ (opened (n, g) w).1 := by
  match w, g with
  | none, _ => exact h
  | some false, _ => exact h
  | some true, true => exact h
  | some true, false => exact Nat.le_succ_of_le h

theorem add_gate_le_opened {m n : ℕ} {g : Bool} (w : Option Bool) (h : m + g.toNat ≤ n) :
    m + (opened (n, g) w).2.toNat ≤ (opened (n, g) w).1 := by
  match w, g with
  | none, _ => exact h
  | some false, _ => exact Nat.le_trans (Nat.le_add_right ..) h
  | some true, true => exact h
  | some true, false => exact Nat.succ_le_succ h

structure Counted (ok op : ℕ) (c : StationPool P R E C π ι (GateState ι κ)) : Prop where
  open_gate : ok + c.state.gate.toNat ≤ op
  cleared : ∀ i, Phase.isCleared (c.phases i) = true → ok + 1 ≤ op
  wrote : ∀ i, Phase.inTask (c.phases i) = true → c.state.wrote i = true →
    ok + 1 + c.state.gate.toNat ≤ op

section Steps
variable [DecidableEq ι] [DecidableEq κ] [PanicPayload π] {invocations : ι → Invocation}
  {c c' : StationPool P R E C π ι (GateState ι κ)} {ok op : ℕ}
  {l : InvocationLabel P R E C π ι (Outside ι κ)}

omit [DecidableEq κ] [PanicPayload π] in
theorem Counted.move (h : Counted ok op c) {i : ι} {p : StationPhase P R E C π}
    {s : GateState ι κ} (hgate : s.gate = c.state.gate)
    (hwrote : ∀ j, j ≠ i → s.wrote j = c.state.wrote j)
    (hcleared : Phase.isCleared p = true → ok + 1 ≤ op)
    (hp : Phase.inTask p = true → s.wrote i = false) : Counted ok op (c.move i p s) where
  open_gate := by
    rw [Pool.move_state, hgate]
    exact h.open_gate
  cleared := c.forall_move s (motive := fun _ p => Phase.isCleared p = true → ok + 1 ≤ op)
    hcleared fun j _ => h.cleared j
  wrote := by
    rw [Pool.move_state, hgate]
    refine c.forall_move s (motive := fun j p => Phase.inTask p = true → s.wrote j = true →
      ok + 1 + c.state.gate.toNat ≤ op) (fun hj hw => ?_) fun j hji hj hw => ?_
    · exact nomatch (hp hj).symm.trans hw
    · exact h.wrote j hj ((hwrote j hji).symm.trans hw)

omit [DecidableEq ι] [DecidableEq κ] [PanicPayload π] in
theorem Counted.write (h : Counted ok op c) (b : Bool) :
    Counted ok (opened (op, c.state.gate) (some b)).1
      ⟨c.phases, { c.state with gate := b }⟩ := by
  have hb : (opened (op, c.state.gate) (some b)).2 = b := by
    cases b <;> rfl
  refine ⟨?_, fun i hi => le_opened _ (h.cleared i hi), fun i hi hw => ?_⟩
  · have hn := add_gate_le_opened (some b) h.open_gate
    rwa [hb] at hn
  · have hn := add_gate_le_opened (some b) (h.wrote i hi hw)
    rwa [hb] at hn

omit [DecidableEq κ] [PanicPayload π] in
theorem Counted.returned (h : Counted ok op c) {i : ι} {p : StationPhase P R E C π}
    (hi : Phase.inTask (c.phases i) = true) (hw : c.state.wrote i = true)
    (halone : ∀ j, Phase.isCleared (c.phases j) = true → j = i) {s : GateState ι κ}
    (hgate : s.gate = c.state.gate) (hp : Phase.isCleared p = false)
    (hin : Phase.inTask p = false) (htask : ∀ j, Phase.inTask (c.phases j) = true →
      Phase.isCleared (c.phases j) = true) : Counted (ok + 1) op (c.move i p s) := by
  have hcleared := c.forall_move s (motive := fun _ p => Phase.isCleared p = false) hp
    fun j hji => Bool.eq_false_iff.mpr fun hj => hji (halone j hj)
  have hinTask := c.forall_move s (motive := fun _ p => Phase.inTask p = false) hin
    fun j hji => Bool.eq_false_iff.mpr fun hj => hji (halone j (htask j hj))
  refine ⟨?_, fun j hj => (nomatch (hcleared j).symm.trans hj),
    fun j hj _ => (nomatch (hinTask j).symm.trans hj)⟩
  rw [Pool.move_state, hgate]
  exact h.wrote i hi hw

omit [PanicPayload π] in
theorem Counted.leave (hc : (claiming ι).Coherent c) (h : Counted ok op c) {i : ι}
    {q q' : Station P R E C π} {o : Call P R E C π} {r : o.Answer} {s : GateState ι κ}
    (hq : c.phases i = .inside q o) (hl : (claiming ι).Leaves i c.state q o r q' s) :
    Counted (ok + if o.returnsOk r then 1 else 0) op (c.move i (.idle q') s) ∧
      s.gate = c.state.gate := by
  cases hl with
  | acquire token u hg => exact ⟨h.move rfl (fun _ _ => rfl) nofun nofun, rfl⟩
  | recheck token hg =>
    have hop : ok + 1 ≤ op := by
      have hop := h.open_gate
      rwa [hg] at hop
    exact ⟨h.move rfl (fun _ _ => rfl) (fun _ => hop) nofun, rfl⟩
  | taskEnd token token' o r v ho hok =>
    refine ⟨?_, rfl⟩
    have hin : Phase.inTask (c.phases i) = true := by
      rw [hq]
      exact ho
    cases hr : o.returnsOk r with
    | false => exact h.move rfl (fun _ _ => rfl) nofun nofun
    | true =>
      have halone (j : ι) (hj : Phase.isCleared (c.phases j) = true) : j = i :=
        hc.alone rfl (Phase.holds_of_isCleared (hc.inTask i hin)) (Phase.holds_of_isCleared hj)
      exact h.returned hin (hok trivial hr) halone rfl rfl rfl hc.inTask
  | release token v u x q hq' =>
    exact ⟨h.move rfl (fun _ _ => rfl) (fun hcl => nomatch hq'.isCleared.symm.trans hcl) nofun,
      rfl⟩
  | other q q' o r hq' hq'' hh ho =>
    rw [Call.returnsOk_of_not_startsTask ho]
    exact ⟨h.move rfl (fun _ _ => rfl) (fun hcl => nomatch hq''.symm.trans hcl) nofun, rfl⟩

theorem counted_step (hc : (claiming ι).Coherent c) (h : Counted ok op c)
    (hs : Pool.Step (claiming ι).world (stations invocations) c l c') :
    Counted (ok + (Label.succeeds l).toList.length)
        (opened (op, c.state.gate) (Label.written l)).1 c' ∧
      (opened (op, c.state.gate) (Label.written l)).2 = c'.state.gate := by
  cases hs with
  | @invoke i q hq =>
    obtain rfl := hc.pending i q hq
    exact ⟨h.move rfl (fun _ _ => rfl) nofun nofun, rfl⟩
  | @enter i q o s hq ha hw =>
    have hcleared (hcl : q.isCleared = true) : ok + 1 ≤ op := h.cleared i (by rw [hq]; exact hcl)
    change s = if o.startsTask then _ else _ at hw
    cases ho : o.startsTask with
    | true =>
      rw [ho, if_pos rfl] at hw
      subst hw
      exact ⟨h.move rfl (fun j hj => Function.update_of_ne hj ..) hcleared
        fun _ => Function.update_self .., rfl⟩
    | false =>
      rw [ho, if_neg nofun] at hw
      subst hw
      exact ⟨h.move rfl (fun _ _ => rfl) hcleared (fun hin => nomatch ho.symm.trans hin), rfl⟩
  | @leave i q q' o r s hq ha hw =>
    obtain ⟨hcount, hgate⟩ := h.leave hc hq (Setting.leaves_of_step (step_of_replies ha) hw)
    rw [Label.length_succeeds_leave]
    exact ⟨hcount, hgate.symm⟩
  | @finish i q a hq ha =>
    obtain ⟨v, cleanup, f, rfl, -⟩ := ended_of_returns ha
    exact ⟨h.move rfl (fun _ _ => rfl) nofun nofun, rfl⟩
  | @act x s hw =>
    cases x with
    | write b =>
      obtain ⟨-, rfl⟩ := hw
      exact ⟨h.write b, by cases b <;> rfl⟩
    | taskWrite i b =>
      obtain ⟨-, rfl, rfl⟩ := hw
      refine ⟨⟨?_, h.cleared, fun j hj _ => h.cleared j (hc.inTask j hj)⟩, rfl⟩
      exact Nat.le_trans (Nat.le_add_right ..) h.open_gate
    | acquire k m =>
      obtain ⟨-, rfl⟩ := hw
      exact ⟨⟨h.open_gate, h.cleared, h.wrote⟩, rfl⟩
    | release k =>
      obtain ⟨-, rfl⟩ := hw
      exact ⟨⟨h.open_gate, h.cleared, h.wrote⟩, rfl⟩
    | sectionWrite k b =>
      obtain ⟨-, rfl⟩ := hw
      exact ⟨h.write b, by cases b <;> rfl⟩

end Steps

namespace Station

/-- The task has returned `Ok` and nothing has gone wrong since. -/
def succeeded (q : Station P R E C π) : Bool := q.verdict.any Verdict.commits

theorem succeeded_afterSkip {token : Option P} {v : Verdict R E C π} {cleanup : Option π}
    (h : (afterSkip token v cleanup).succeeded = true) : v.commits = true := by
  cases v with
  | conditionNotMet => cases cleanup <;> simp [afterSkip, succeeded, Verdict.commits] at h
  | panicked phase p => simp [afterSkip, succeeded, Verdict.commits] at h
  | _ => exact h

end Station

theorem succeeded_of_step [PanicPayload π] {i : Invocation} {q q' : Station P R E C π}
    {o : Call P R E C π} {r : o.Answer} (h : i.Step q o r q') (hs : q'.succeeded = true) :
    q.succeeded = true ∨ o.returnsOk r = true := by
  cases h with
  | accept => cases i <;> exact nomatch hs
  | taskReturn token result =>
    cases result with
    | ok value => exact .inr rfl
    | error error => exact nomatch hs
  | tokenTaskReturn t t' result =>
    cases result with
    | ok value => exact .inr rfl
    | error error => exact nomatch hs
  | release token v u =>
    rw [Station.succeeded, Station.verdict_afterRelease] at hs
    exact .inl hs
  | releasePanic token v p hv =>
    rw [Station.succeeded, Station.verdict_afterRelease] at hs
    exact nomatch hs
  | skip token v u => exact .inl (Station.succeeded_afterSkip hs)
  | skipPanic token v p hv => exact .inl (Station.succeeded_afterSkip hs)
  | commit | rollback | dropToken | discardEarly | discardLate => exact .inl hs
  | _ => exact nomatch hs

section Runs
variable [DecidableEq ι] [DecidableEq κ] [PanicPayload π] {invocations : ι → Invocation}
  {c c' : StationPool P R E C π ι (GateState ι κ)} {gate : Bool}
  {ls : List (InvocationLabel P R E C π ι (Outside ι κ))}

structure Counts (gate : Bool) (ls : List (InvocationLabel P R E C π ι (Outside ι κ)))
    (c : StationPool P R E C π ι (GateState ι κ)) : Prop where
  coherent : (claiming ι).Coherent c
  counted : Counted (successes ls).length (openings gate ls) c
  gate : (gateHistory gate ls).2 = c.state.gate

omit [DecidableEq ι] [DecidableEq κ] [PanicPayload π] in
theorem counts_start (gate : Bool) :
    Counts gate [] (startStations (P := P) (R := R) (E := E) (C := C) (π := π)
      (GateState.initial (ι := ι) (κ := κ) gate)) where
  coherent := coherent_start gate
  counted := ⟨Nat.le_of_eq (Nat.zero_add _), nofun, nofun⟩
  gate := rfl

theorem counts_step (hc : Counts gate ls c) {l : InvocationLabel P R E C π ι (Outside ι κ)}
    (hs : Pool.Step (claiming ι).world (stations invocations) c l c') :
    Counts gate (ls ++ [l]) c' := by
  have hstep := counted_step hc.coherent hc.counted hs
  rw [openings, ← hc.gate, ← gateHistory_snoc] at hstep
  refine ⟨coherent_step hc.coherent hs, ?_, hstep.2⟩
  have hlength : (successes (ls ++ [l])).length =
      (successes ls).length + (Label.succeeds l).toList.length := by
    cases hl : Label.succeeds l <;> simp [successes, hl]
  rw [hlength]
  exact hstep.1

theorem counts_of_run
    (h : Pool.Run (claiming ι).world (stations invocations) (startStations (.initial gate)) ls c) :
    Counts gate ls c :=
  h.invariant (I := Counts gate) (counts_start gate) fun _ _ _ _ hc hs => counts_step hc hs

theorem length_successes_le
    (h : Pool.Run (claiming ι).world (stations invocations) (startStations (.initial gate)) ls c) :
    (successes ls).length ≤ openings gate ls :=
  Nat.le_trans (Nat.le_add_right ..) (counts_of_run h).counted.open_gate

omit [DecidableEq κ] in
theorem mem_successes_of_run
    {W : World (Calls P R E C π) ι (GateState ι κ) (Outside ι κ)} {s : GateState ι κ}
    (h : Pool.Run W (stations invocations) (startStations s) ls c) {i : ι}
    (hi : (c.phases i).body.succeeded = true) : i ∈ successes ls := by
  refine h.invariant (I := fun ls c => ∀ i, (c.phases i).body.succeeded = true →
    i ∈ successes ls) (fun _ hi => nomatch hi) ?_ i hi
  intro ls c l c' hc hs j hj
  have hold (hj : (c.phases j).body.succeeded = true) : j ∈ successes (ls ++ [l]) := by
    rw [successes, List.filterMap_append]
    exact List.mem_append_left _ (hc j hj)
  rcases hs.bodies j with ⟨-, hb⟩ | ⟨o, r, rfl, ha⟩
  · exact hold (hb ▸ hj)
  · rcases succeeded_of_step (step_of_replies ha) hj with hs | hr
    · exact hold hs
    · simp [successes, Label.succeeds, hr]

end Runs
end DoubleChecked
