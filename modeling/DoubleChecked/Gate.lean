import DoubleChecked.Effect.Guards
import DoubleChecked.Invocations

/-!
# One gate under one lock

The predicate reads a single gate. Invocations take the lock in a mode of their own,
tasks may write the gate while they run, and so may code outside the invocations,
with or without the lock, as the `Setting` says. Gate reads and writes are atomic and
anything may happen between two of them.
-/

namespace DoubleChecked
open Effect

variable {P R E C π ι κ α B : Type}

structure GateState (ι κ : Type) where
  gate : Bool
  guards : Guards (ι ⊕ κ)
  running : ι → Bool
  wrote : ι → Bool

/-- The discipline of a run: the mode of each invocation, the values its task may
write, whether code outside may write without the lock, and whether a task must have
written the gate before it returns `Ok`. -/
structure Setting (ι : Type) where
  mode : ι → Mode
  taskWrites : ι → Bool → Prop
  freeWrites : Prop
  claims : Prop

/-- What happens besides the calls of the invocations: gate writes of anybody, and the
guards of outsiders. -/
inductive Outside (ι κ : Type)
  | write (b : Bool)
  | taskWrite (i : ι) (b : Bool)
  | acquire (k : κ) (m : Mode)
  | release (k : κ)
  | sectionWrite (k : κ) (b : Bool)

def Outside.written : Outside ι κ → Option Bool
  | .write b | .taskWrite _ b | .sectionWrite _ b => some b
  | _ => none

namespace Setting
variable [DecidableEq ι] [DecidableEq κ] (D : Setting ι)

def world : World (Calls P R E C π) ι (GateState ι κ) (Outside ι κ) where
  enter i o s s' := s' =
    if o.startsTask then
      { s with
        running := Function.update s.running i true
        wrote := Function.update s.wrote i false }
    else s
  leave i o r s s' := o.admits r ∧ match o, r with
    | .predicate, .ret b => b = s.gate ∧ s' = s
    | .lock, .ret _ => s.guards.grants (.inl i) (D.mode i) ∧
      s' = { s with guards := Function.update s.guards (.inl i) (some (D.mode i)) }
    | .dropGuard _, _ => s' = { s with guards := Function.update s.guards (.inl i) none }
    | .task, _ | .taskWithToken _, _ => (D.claims → o.returnsOk r = true → s.wrote i = true) ∧
      s' = { s with running := Function.update s.running i false }
    | _, _ => s' = s
  act x s s' := match x with
    | .write b => D.freeWrites ∧ s' = { s with gate := b }
    | .taskWrite i b => s.running i = true ∧ D.taskWrites i b ∧
      s' = { s with gate := b, wrote := Function.update s.wrote i true }
    | .acquire k m => s.guards.grants (.inr k) m ∧
      s' = { s with guards := Function.update s.guards (.inr k) (some m) }
    | .release k => s.guards (.inr k) ≠ none ∧
      s' = { s with guards := Function.update s.guards (.inr k) none }
    | .sectionWrite k b => s.guards (.inr k) = some .exclusive ∧ s' = { s with gate := b }

theorem admits_of_leave (i : ι) (o : Call P R E C π) (r : o.Answer) (s s' : GateState ι κ)
    (h : D.world.leave i o r s s') : o.admits r :=
  h.1

end Setting

def GateState.initial (gate : Bool) : GateState ι κ where
  gate := gate
  guards _ := none
  running _ := false
  wrote _ := false

section Steps
variable [DecidableEq ι] [DecidableEq κ] [PanicPayload π] {D : Setting ι}
  {invocations : ι → Invocation}

inductive Setting.Leaves (D : Setting ι) (i : ι) (s : GateState ι κ) :
    Station P R E C π → (o : Call P R E C π) → o.Answer → Station P R E C π → GateState ι κ → Prop
  | acquire (token : Option P) (u : Unit) : s.guards.grants (.inl i) (D.mode i) →
      Leaves D i s (.acquiring token) .lock (.ret u) (.guarded token)
        { s with guards := Function.update s.guards (.inl i) (some (D.mode i)) }
  | recheck (token : Option P) : s.gate = true →
      Leaves D i s (.guarded token) .predicate (.ret true) (.cleared token) s
  | taskEnd (token token' : Option P) (o : Call P R E C π) (r : o.Answer) (v : Verdict R E C π) :
      o.startsTask = true → (D.claims → o.returnsOk r = true → s.wrote i = true) →
      Leaves D i s (.cleared token) o r (.releasing token' v)
        { s with running := Function.update s.running i false }
  | release (token : Option P) (v : Verdict R E C π) (u : Bool) (x : Reply π Unit)
      (q : Station P R E C π) : q.Outside →
      Leaves D i s (.releasing token v) (.dropGuard u) x q
        { s with guards := Function.update s.guards (.inl i) none }
  | other (q q' : Station P R E C π) (o : Call P R E C π) (r : o.Answer) :
      q.isCleared = false → q'.isCleared = false → q'.holds = q.holds → o.startsTask = false →
      Leaves D i s q o r q' s

theorem Setting.leaves_of_step {i : ι} {q q' : Station P R E C π} {o : Call P R E C π}
    {r : o.Answer} {s s' : GateState ι κ} (h : (invocations i).Step q o r q')
    (hw : D.world.leave i o r s s') : D.Leaves i s q o r q' s' := by
  obtain ⟨-, hw⟩ := hw
  cases h with
  | accept =>
    obtain ⟨-, rfl⟩ := hw
    cases hp : (invocations i).prepares with
    | true => exact .other _ _ _ _ rfl rfl rfl rfl
    | false => exact .other _ _ _ _ rfl rfl rfl rfl
  | reject => obtain ⟨-, rfl⟩ := hw; exact .other _ _ _ _ rfl rfl rfl rfl
  | checkPanic p => obtain rfl := hw; exact .other _ _ _ _ rfl rfl rfl rfl
  | prepare t => obtain rfl := hw; exact .other _ _ _ _ rfl rfl rfl rfl
  | prepareFail c => obtain rfl := hw; exact .other _ _ _ _ rfl rfl rfl rfl
  | preparePanic p => obtain rfl := hw; exact .other _ _ _ _ rfl rfl rfl rfl
  | acquire token u => obtain ⟨hg, rfl⟩ := hw; exact .acquire token u hg
  | acquirePanic token p => obtain rfl := hw; exact .other _ _ _ _ rfl rfl rfl rfl
  | recheck token => obtain ⟨hg, rfl⟩ := hw; exact .recheck token hg.symm
  | recheckReject token => obtain ⟨-, rfl⟩ := hw; exact .other _ _ _ _ rfl rfl rfl rfl
  | recheckPanic token p => obtain rfl := hw; exact .other _ _ _ _ rfl rfl rfl rfl
  | taskReturn token result => obtain ⟨hc, rfl⟩ := hw; exact .taskEnd _ _ _ _ _ rfl hc
  | taskPanic token p => obtain ⟨hc, rfl⟩ := hw; exact .taskEnd _ _ _ _ _ rfl hc
  | tokenTaskReturn t t' result => obtain ⟨hc, rfl⟩ := hw; exact .taskEnd _ _ _ _ _ rfl hc
  | tokenTaskPanic t t' p => obtain ⟨hc, rfl⟩ := hw; exact .taskEnd _ _ _ _ _ rfl hc
  | release token v u => obtain rfl := hw; exact .release _ _ _ _ _ (outside_afterRelease _)
  | releasePanic token v p hv =>
    obtain rfl := hw; exact .release _ _ _ _ _ (outside_afterRelease _)
  | skip token v u =>
    obtain rfl := hw
    exact .other _ _ _ _ rfl (outside_afterSkip _).isCleared (outside_afterSkip _).holds rfl
  | skipPanic token v p hv =>
    obtain rfl := hw
    exact .other _ _ _ _ rfl (outside_afterSkip _).isCleared (outside_afterSkip _).holds rfl
  | commit t v r hv hc => obtain rfl := hw; exact .other _ _ _ _ rfl rfl rfl rfl
  | rollback t v cause r hv hc => obtain rfl := hw; exact .other _ _ _ _ rfl rfl rfl rfl
  | dropToken t v r hf => obtain rfl := hw; exact .other _ _ _ _ rfl rfl rfl rfl
  | discardEarly t v mode w r => obtain rfl := hw; exact .other _ _ _ _ rfl rfl rfl rfl
  | discardLate v cleanup f mode w r => obtain rfl := hw; exact .other _ _ _ _ rfl rfl rfl rfl

omit [PanicPayload π] in
theorem Setting.Leaves.kept {i : ι} {q q' : Station P R E C π} {o : Call P R E C π}
    {r : o.Answer} {s s' : GateState ι κ} (h : D.Leaves i s q o r q' s') :
    s'.gate = s.gate ∧ s'.wrote = s.wrote := by
  cases h <;> exact ⟨rfl, rfl⟩

structure Setting.Coherent (D : Setting ι) (c : StationPool P R E C π ι (GateState ι κ)) :
    Prop where
  exclusive : c.state.guards.Exclusive
  held : ∀ i, c.state.guards (.inl i) = if Phase.holds (c.phases i) then some (D.mode i) else none
  running : ∀ i, c.state.running i = Phase.inTask (c.phases i)
  pending : ∀ i q, c.phases i = .pending q → q = .fresh
  inTask : ∀ i, Phase.inTask (c.phases i) = true → Phase.isCleared (c.phases i) = true

variable {c c' : StationPool P R E C π ι (GateState ι κ)}
  {l : InvocationLabel P R E C π ι (Outside ι κ)}

omit [PanicPayload π] [DecidableEq ι] [DecidableEq κ] in
theorem coherent_start (gate : Bool) :
    D.Coherent (startStations (P := P) (R := R) (E := E) (C := C) (π := π)
      (GateState.initial (κ := κ) gate)) where
  exclusive := Guards.exclusive_none
  held _ := rfl
  running _ := rfl
  pending _ _ h := by cases h; rfl
  inTask _ h := nomatch h

omit [PanicPayload π] [DecidableEq κ] in
theorem Setting.Coherent.move (h : D.Coherent c) {i : ι}
    {p : StationPhase P R E C π} {s : GateState ι κ} (hp : ∀ q, p ≠ .pending q)
    (hexclusive : s.guards.Exclusive)
    (hheld : s.guards (.inl i) = if Phase.holds p then some (D.mode i) else none)
    (hrunning : s.running i = Phase.inTask p)
    (hinTask : Phase.inTask p = true → Phase.isCleared p = true)
    (hguards : ∀ j, j ≠ i → s.guards (.inl j) = c.state.guards (.inl j))
    (hothers : ∀ j, j ≠ i → s.running j = c.state.running j) : D.Coherent (c.move i p s) where
  exclusive := hexclusive
  held := by
    refine c.forall_move s
      (motive := fun j p => s.guards (.inl j) = if Phase.holds p then some (D.mode j) else none)
      hheld fun j hj => ?_
    rw [hguards j hj, h.held j]
  running := by
    refine c.forall_move s (motive := fun j p => s.running j = Phase.inTask p) hrunning ?_
    intro j hj
    rw [hothers j hj, h.running j]
  pending j q := c.forall_move s (motive := fun _ p => p = .pending q → q = .fresh)
    (fun hq => absurd hq (hp q)) (fun j _ => h.pending j q) j
  inTask := c.forall_move s (motive := fun _ p => Phase.inTask p = true → Phase.isCleared p = true)
    hinTask fun j _ => h.inTask j

omit [PanicPayload π] [DecidableEq κ] in
theorem Setting.Coherent.stay (h : D.Coherent c) {i : ι} {p : StationPhase P R E C π}
    (hp : ∀ q, p ≠ .pending q)
    (hheld : c.state.guards (.inl i) = if Phase.holds p then some (D.mode i) else none)
    (hrunning : c.state.running i = Phase.inTask p)
    (hinTask : Phase.inTask p = true → Phase.isCleared p = true) :
    D.Coherent (c.move i p c.state) :=
  h.move hp h.exclusive hheld hrunning hinTask (fun _ _ => rfl) (fun _ _ => rfl)

omit [PanicPayload π] [DecidableEq ι] [DecidableEq κ] in
theorem update_outsider [DecidableEq (ι ⊕ κ)] (g : Guards (ι ⊕ κ)) (k : κ) (x : Option Mode)
    (i : ι) : Function.update g (.inr k) x (.inl i) = g (.inl i) :=
  Function.update_of_ne Sum.inl_ne_inr x g

omit [PanicPayload π] in
theorem Setting.Coherent.leave (h : D.Coherent c) {i : ι} {q q' : Station P R E C π}
    {o : Call P R E C π} {r : o.Answer} {s : GateState ι κ} (hc : c.phases i = .inside q o)
    (hl : D.Leaves i c.state q o r q' s) : D.Coherent (c.move i (.idle q') s) := by
  have hheld := h.held i
  have hrunning := h.running i
  rw [hc] at hheld hrunning
  cases hl with
  | acquire token u hg =>
    exact h.move (fun _ => nofun) (Guards.exclusive_of_grants hg) (Function.update_self ..)
      hrunning nofun (fun j hj => Function.update_of_ne (fun he => hj (Sum.inl.inj he)) ..)
      (fun _ _ => rfl)
  | recheck token hg => exact h.stay (fun _ => nofun) hheld hrunning nofun
  | taskEnd token token' o r v ho hok =>
    exact h.move (fun _ => nofun) h.exclusive hheld (Function.update_self ..) nofun
      (fun _ _ => rfl) (fun j hj => Function.update_of_ne hj ..)
  | release token v u x q hq =>
    refine h.move (fun _ => nofun) h.exclusive.release ?_ hrunning nofun
      (fun j hj => Function.update_of_ne (fun he => hj (Sum.inl.inj he)) ..) (fun _ _ => rfl)
    simp only [Phase.holds, hq.holds]
    exact Function.update_self ..
  | other q q' o r hq hq' hh ho =>
    have hp : (if q.holds then some (D.mode i) else none) =
        if q'.holds then some (D.mode i) else none := by rw [hh]
    exact h.stay (fun _ => nofun) (hheld.trans hp) (hrunning.trans ho) nofun

omit [PanicPayload π] in
theorem Setting.Coherent.act (h : D.Coherent c) {x : Outside ι κ} {s : GateState ι κ}
    (hw : (D.world (P := P) (R := R) (E := E) (C := C) (π := π)).act x c.state s) :
    D.Coherent (⟨c.phases, s⟩ : StationPool P R E C π ι (GateState ι κ)) := by
  cases x with
  | write b =>
    obtain ⟨-, rfl⟩ := hw
    exact ⟨h.exclusive, h.held, h.running, h.pending, h.inTask⟩
  | taskWrite i b =>
    obtain ⟨-, -, rfl⟩ := hw
    exact ⟨h.exclusive, h.held, h.running, h.pending, h.inTask⟩
  | acquire k m =>
    obtain ⟨hg, rfl⟩ := hw
    have hg' (i : ι) := update_outsider c.state.guards k (some m) i
    exact ⟨Guards.exclusive_of_grants hg, fun i => (hg' i).trans (h.held i), h.running,
      h.pending, h.inTask⟩
  | release k =>
    obtain ⟨-, rfl⟩ := hw
    have hg' (i : ι) := update_outsider c.state.guards k none i
    exact ⟨h.exclusive.release, fun i => (hg' i).trans (h.held i), h.running, h.pending,
      h.inTask⟩
  | sectionWrite k b =>
    obtain ⟨-, rfl⟩ := hw
    exact ⟨h.exclusive, h.held, h.running, h.pending, h.inTask⟩

theorem coherent_step (h : D.Coherent c) (hs : Pool.Step D.world (stations invocations) c l c') :
    D.Coherent c' := by
  cases hs with
  | @invoke i q hc =>
    obtain rfl := h.pending i q hc
    refine h.stay (fun _ => nofun) ?_ ?_ nofun
    · rw [h.held i, hc]
      rfl
    · rw [h.running i, hc]
      rfl
  | @enter i q o s hc ha hw =>
    have hheld := h.held i
    have hrunning := h.running i
    rw [hc] at hheld hrunning
    change s = if o.startsTask then _ else _ at hw
    cases ho : o.startsTask with
    | true =>
      rw [ho, if_pos rfl] at hw
      subst hw
      exact h.move (fun _ => nofun) h.exclusive hheld ((Function.update_self ..).trans ho.symm)
        (isCleared_of_allows ha) (fun _ _ => rfl) (fun j hj => Function.update_of_ne hj ..)
    | false =>
      rw [ho, if_neg nofun] at hw
      subst hw
      exact h.stay (fun _ => nofun) hheld (hrunning.trans ho.symm) (isCleared_of_allows ha)
  | leave hc ha hw => exact h.leave hc (Setting.leaves_of_step (step_of_replies ha) hw)
  | @finish i q a hc ha =>
    obtain ⟨v, cleanup, f, rfl, -⟩ := ended_of_returns ha
    refine h.stay (fun _ => nofun) ?_ ?_ nofun
    · rw [h.held i, hc]
      rfl
    · rw [h.running i, hc]
      rfl
  | act hw => exact h.act hw

omit [PanicPayload π] [DecidableEq ι] [DecidableEq κ] in
theorem Setting.Coherent.guard_ne_none (h : D.Coherent c) {i : ι}
    (hi : Phase.holds (c.phases i) = true) : c.state.guards (.inl i) = some (D.mode i) := by
  rw [h.held i, if_pos hi]

omit [PanicPayload π] [DecidableEq ι] [DecidableEq κ] in
theorem Setting.Coherent.alone (h : D.Coherent c) {i j : ι} (hm : D.mode j = .exclusive)
    (hj : Phase.holds (c.phases j) = true) (hi : Phase.holds (c.phases i) = true) : i = j := by
  have hne : c.state.guards (.inl i) ≠ none := by
    rw [h.guard_ne_none hi]
    exact nofun
  exact Sum.inl.inj (h.exclusive _ _ ((h.guard_ne_none hj).trans (congrArg some hm)) hne)

omit [PanicPayload π] [DecidableEq ι] [DecidableEq κ] in
theorem Setting.Coherent.outside_section (h : D.Coherent c) {k : κ}
    (hk : c.state.guards (.inr k) = some .exclusive) (i : ι) :
    Phase.holds (c.phases i) = false := by
  cases hi : Phase.holds (c.phases i) with
  | false => rfl
  | true =>
    have hne : c.state.guards (.inl i) ≠ none := by
      rw [h.guard_ne_none hi]
      exact nofun
    exact nomatch h.exclusive _ _ hk hne

theorem run_stations {gate : Bool} {ls : List (InvocationLabel P R E C π ι (Outside ι κ))}
    {c : InvocationPool P R E C π ι (GateState ι κ)}
    (h : Pool.Run D.world (programs ι) (start invocations (.initial gate)) ls c) :
    ∃ d, Pool.Run D.world (stations invocations) (startStations (.initial gate)) ls d ∧
      Pool.Matches (Tracks invocations) c d :=
  h.simulate start_matches station_simulation D.admits_of_leave

theorem coherent_of_steps {ls : List (InvocationLabel P R E C π ι (Outside ι κ))}
    (h : D.Coherent c) (hrun : Pool.Run D.world (stations invocations) c ls c') : D.Coherent c' :=
  hrun.invariant (I := fun _ c => D.Coherent c) h (fun _ _ _ _ hc hs => coherent_step hc hs)

end Steps
end DoubleChecked
