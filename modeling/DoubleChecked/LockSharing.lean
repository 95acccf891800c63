import DoubleChecked.Effect.Script
import DoubleChecked.Invocations

/-!
# Callbacks that use the executor's lock

One exclusive lock that is neither reentrant nor poisoning serves the executor and its
callbacks. The predicate and started tasks leave it alone, everything else may take it
as long as it gives it back. No invocation waits for the lock while it holds it, so
whoever holds it can move.
-/

namespace DoubleChecked
open Effect

variable {P R E C π ι μ : Type}

/-- The predicate and a started task run under the guard and must not take the lock. -/
def Call.mayLock : Call P R E C π → Bool
  | .predicate | .lock | .dropGuard _ | .task | .taskWithToken _ => false
  | _ => true

def Call.runsCode : Call P R E C π → Bool
  | .lock | .dropGuard _ => false
  | _ => true

inductive Holder (ι : Type)
  | guard (i : ι)
  | callback (i : ι)
  deriving DecidableEq

structure LockState (P R E C π ι μ : Type) where
  holder : Option (Holder ι)
  code : ι → Option (Σ o : Call P R E C π, Script μ o.Answer)
  memory : μ

abbrev Callbacks (P R E C π ι μ : Type) : Type :=
  ι → (o : Call P R E C π) → Script μ o.Answer → Prop

/-- Every callback has something to do, and obeys the contract: it keeps no lock, and
under the guard it takes none. -/
structure Contract (callbacks : Callbacks P R E C π ι μ) : Prop where
  total : ∀ i o, ∃ x, callbacks i o x
  obeys : ∀ i o x, callbacks i o x → x.Obeys o.mayLock o.admits false

section Worlds
variable [DecidableEq ι]

inductive LockState.Acts (i : ι) (s : LockState P R E C π ι μ) : LockState P R E C π ι μ → Prop
  | work {o : Call P R E C π} {update : μ → μ} {next : μ → Script μ o.Answer} :
      s.code i = some ⟨o, .work update next⟩ → Acts i s
        { s with
          code := Function.update s.code i (some ⟨o, next s.memory⟩)
          memory := update s.memory }
  | acquire {o : Call P R E C π} {k : Script μ o.Answer} : s.code i = some ⟨o, .acquire k⟩ →
      s.holder = none → Acts i s
        { s with
          code := Function.update s.code i (some ⟨o, k⟩)
          holder := some (.callback i) }
  | release {o : Call P R E C π} {k : Script μ o.Answer} : s.code i = some ⟨o, .release k⟩ →
      s.holder = some (.callback i) → Acts i s
        { s with
          code := Function.update s.code i (some ⟨o, k⟩)
          holder := none }

/-- The executor waits for the lock, and neither acquiring nor dropping it panics. -/
def lockWorld (callbacks : Callbacks P R E C π ι μ) :
    World (Calls P R E C π) ι (LockState P R E C π ι μ) ι where
  enter i o s s' := if o.runsCode then
      ∃ x, callbacks i o x ∧ s' = { s with code := Function.update s.code i (some ⟨o, x⟩) }
    else s' = s
  leave i o r s s' := o.admits r ∧ match o, r with
    | .lock, r => r = .ret () ∧ s.holder = none ∧ s' = { s with holder := some (.guard i) }
    | .dropGuard _, r => r = .ret () ∧ s' = { s with holder := none }
    | o, r => s.code i = some ⟨o, .done r⟩ ∧ s' = { s with code := Function.update s.code i none }
  act i s s' := s.Acts i s'

end Worlds

def LockState.initial (memory : μ) : LockState P R E C π ι μ where
  holder := none
  code _ := none
  memory := memory

def LockState.holding [DecidableEq ι] (s : LockState P R E C π ι μ) (i : ι) : Bool :=
  decide (s.holder = some (.callback i))

abbrev Discipline (P R E C π μ : Type) : Type :=
  (o : Call P R E C π) → Bool → Script μ o.Answer → Prop

def obeying (o : Call P R E C π) (holding : Bool) (x : Script μ o.Answer) : Prop :=
  x.Obeys o.mayLock o.admits holding

structure Disciplined (callbacks : Callbacks P R E C π ι μ) (D : Discipline P R E C π μ) :
    Prop where
  start : ∀ i o x, callbacks i o x → D o false x
  done : ∀ o holding a, D o holding (.done a) → holding = false
  work : ∀ o holding update next, D o holding (.work update next) → ∀ m, D o holding (next m)
  acquire : ∀ o holding k, D o holding (.acquire k) → D o true k
  release : ∀ o holding k, D o holding (.release k) → D o false k

def Phase.Follows (D : Discipline P R E C π μ) (p : StationPhase P R E C π) (holding : Bool)
    (code : Option (Σ o : Call P R E C π, Script μ o.Answer)) : Prop :=
  match p with
  | .inside _ o => if o.runsCode then ∃ x, code = some ⟨o, x⟩ ∧ D o holding x
    else code = none ∧ holding = false
  | _ => code = none ∧ holding = false

structure Following [DecidableEq ι] (D : Discipline P R E C π μ)
    (c : StationPool P R E C π ι (LockState P R E C π ι μ)) : Prop where
  guard : ∀ i, c.state.holder = some (.guard i) ↔ Phase.holds (c.phases i) = true
  follows : ∀ i, Phase.Follows D (c.phases i) (c.state.holding i) (c.state.code i)
  pending : ∀ i q, c.phases i = .pending q → q = .fresh

section Steps
variable [DecidableEq ι] [PanicPayload π] {invocations : ι → Invocation}
  {callbacks : Callbacks P R E C π ι μ} {D : Discipline P R E C π μ}
  {c c' : StationPool P R E C π ι (LockState P R E C π ι μ)} {l : InvocationLabel P R E C π ι ι}

theorem holds_of_step {i : Invocation} {q q' : Station P R E C π} {o : Call P R E C π}
    {r : o.Answer} (h : i.Step q o r q') (ho : o.runsCode = true) : q'.holds = q.holds := by
  cases h with
  | accept => cases i <;> rfl
  | skip token v u => exact (outside_afterSkip _).holds
  | skipPanic token v p hv => exact (outside_afterSkip _).holds
  | acquire | release | releasePanic => exact nomatch ho
  | _ => rfl

omit [PanicPayload π] in
theorem Following.move (h : Following D c) {i : ι} {p : StationPhase P R E C π}
    {s : LockState P R E C π ι μ} (hp : ∀ q, p ≠ .pending q)
    (hguard : s.holder = some (.guard i) ↔ Phase.holds p = true)
    (hfollows : Phase.Follows D p (s.holding i) (s.code i))
    (hothers : ∀ j, j ≠ i → (s.holder = some (.guard j) ↔ c.state.holder = some (.guard j)) ∧
      s.holding j = c.state.holding j ∧ s.code j = c.state.code j) :
    Following D (c.move i p s) where
  guard := c.forall_move s
    (motive := fun j p => s.holder = some (.guard j) ↔ Phase.holds p = true) hguard
    fun j hj => (hothers j hj).1.trans (h.guard j)
  follows := by
    refine c.forall_move s (motive := fun j p => Phase.Follows D p (s.holding j) (s.code j))
      hfollows ?_
    intro j hj
    obtain ⟨-, hh, hc⟩ := hothers j hj
    rw [hh, hc]
    exact h.follows j
  pending j q := c.forall_move s (motive := fun _ p => p = .pending q → q = .fresh)
    (fun hq => absurd hq (hp q)) (fun j _ => h.pending j q) j

omit [PanicPayload π] in
theorem code_of_leave {i : ι} {o : Call P R E C π} {r : o.Answer}
    {s s' : LockState P R E C π ι μ} (ho : o.runsCode = true)
    (hw : (lockWorld callbacks).leave i o r s s') : s.code i = some ⟨o, .done r⟩ ∧
      s' = { s with code := Function.update s.code i none } := by
  cases o with
  | lock | dropGuard => exact nomatch ho
  | _ => exact hw.2

omit [PanicPayload π] in
theorem Following.running (h : Following D c) {i : ι} {o : Call P R E C π}
    {x : Script μ o.Answer} (hcode : c.state.code i = some ⟨o, x⟩) :
    (∃ q, c.phases i = .inside q o) ∧ o.runsCode = true ∧ D o (c.state.holding i) x := by
  have hfollows := h.follows i
  rw [hcode] at hfollows
  cases hp : c.phases i with
  | inside q o' =>
    rw [hp, Phase.Follows] at hfollows
    split at hfollows
    case isTrue ho =>
      obtain ⟨x', hx, hD⟩ := hfollows
      cases hx
      exact ⟨⟨q, rfl⟩, ho, hD⟩
    case isFalse ho => exact nomatch hfollows.1
  | _ =>
    rw [hp] at hfollows
    exact nomatch hfollows.1

omit [PanicPayload π] in
theorem Following.act (h : Following D c) {i : ι} {o : Call P R E C π} {x : Script μ o.Answer}
    {s : LockState P R E C π ι μ} (hphase : ∃ q, c.phases i = .inside q o)
    (ho : o.runsCode = true) (hx : s.code i = some ⟨o, x⟩) (hD : D o (s.holding i) x)
    (hguard : ∀ j, s.holder = some (.guard j) ↔ c.state.holder = some (.guard j))
    (hothers : ∀ j, j ≠ i → s.holding j = c.state.holding j ∧ s.code j = c.state.code j) :
    Following D ⟨c.phases, s⟩ := by
  obtain ⟨q, hq⟩ := hphase
  rw [← Pool.move_self c i]
  refine h.move ?_ ((hguard i).trans (h.guard i)) ?_ fun j hj => ⟨hguard j, hothers j hj⟩
  · rw [hq]
    exact fun _ => nofun
  · rw [hq, Phase.Follows, if_pos ho]
    exact ⟨x, hx, hD⟩

theorem Following.leave (hD : Disciplined callbacks D) (h : Following D c) {i : ι}
    {q q' : Station P R E C π} {o : Call P R E C π} {r : o.Answer} {s : LockState P R E C π ι μ}
    (hq : c.phases i = .inside q o) (hstep : (invocations i).Step q o r q')
    (hw : (lockWorld callbacks).leave i o r c.state s) :
    Following D (c.move i (.idle q') s) := by
  have hguard := h.guard i
  have hfollows := h.follows i
  rw [hq] at hguard hfollows
  cases ho : o.runsCode with
  | true =>
    obtain ⟨hcode, rfl⟩ := code_of_leave ho hw
    rw [Phase.Follows, ho, if_pos rfl] at hfollows
    obtain ⟨x, hx, hx'⟩ := hfollows
    obtain rfl : x = .done r := by
      rw [hcode] at hx
      cases hx
      rfl
    refine h.move (fun _ => nofun) ?_ ⟨Function.update_self .., hD.done o _ r hx'⟩ fun j hj =>
      ⟨Iff.rfl, rfl, Function.update_of_ne hj ..⟩
    simp only [Phase.holds, holds_of_step hstep ho]
    exact hguard
  | false =>
    rw [Phase.Follows, ho, if_neg nofun] at hfollows
    cases o with
    | lock =>
      obtain ⟨-, rfl, hfree, rfl⟩ := hw
      have hq' : q'.holds = true := by
        cases hstep with
        | acquire token u => rfl
      refine h.move (fun _ => nofun) ⟨fun _ => hq', fun _ => rfl⟩
        ⟨hfollows.1, by simp [LockState.holding]⟩ fun j hj => ⟨?_, ?_, rfl⟩
      · simp [hfree, Ne.symm hj]
      · simp [LockState.holding, hfree]
    | dropGuard u =>
      obtain ⟨-, rfl, rfl⟩ := hw
      have hq' : q.holds = true ∧ q'.holds = false := by
        cases hstep with
        | release token v u => exact ⟨rfl, (outside_afterRelease _).holds⟩
      have hheld := hguard.mpr hq'.1
      refine h.move (fun _ => nofun) ⟨nofun, fun hp => nomatch hq'.2.symm.trans hp⟩
        ⟨hfollows.1, by simp [LockState.holding]⟩ fun j hj => ⟨?_, ?_, rfl⟩
      · simp [hheld, Ne.symm hj]
      · simp [LockState.holding, hheld]
    | _ => exact nomatch ho

omit [PanicPayload π] in
theorem Following.acts (hD : Disciplined callbacks D) (h : Following D c) {i : ι}
    {s : LockState P R E C π ι μ} (hw : c.state.Acts i s) : Following D ⟨c.phases, s⟩ := by
  cases hw with
  | work hcode =>
    obtain ⟨hphase, ho, hx⟩ := h.running hcode
    exact h.act hphase ho (Function.update_self ..) (hD.work _ _ _ _ hx _) (fun _ => Iff.rfl)
      fun j hj => ⟨rfl, Function.update_of_ne hj ..⟩
  | acquire hcode hfree =>
    obtain ⟨hphase, ho, hx⟩ := h.running hcode
    refine h.act hphase ho (Function.update_self ..) ?_ ?_ fun j hj => ⟨?_, ?_⟩
    · simpa [LockState.holding] using hD.acquire _ _ _ hx
    · simp [hfree]
    · simp [LockState.holding, hfree, Ne.symm hj]
    · exact Function.update_of_ne hj ..
  | release hcode hheld =>
    obtain ⟨hphase, ho, hx⟩ := h.running hcode
    refine h.act hphase ho (Function.update_self ..) ?_ ?_ fun j hj => ⟨?_, ?_⟩
    · simpa [LockState.holding] using hD.release _ _ _ hx
    · simp [hheld]
    · simp [LockState.holding, hheld, Ne.symm hj]
    · exact Function.update_of_ne hj ..

theorem following_step (hD : Disciplined callbacks D) (h : Following D c)
    (hs : Pool.Step (lockWorld callbacks) (stations invocations) c l c') : Following D c' := by
  cases hs with
  | @invoke i q hq =>
    obtain rfl := h.pending i q hq
    have hguard := h.guard i
    have hfollows := h.follows i
    rw [hq] at hguard hfollows
    exact h.move (fun _ => nofun) hguard hfollows fun j _ => ⟨Iff.rfl, rfl, rfl⟩
  | @enter i q o s hq ha hw =>
    have hguard := h.guard i
    have hfollows := h.follows i
    rw [hq] at hguard hfollows
    change if o.runsCode then _ else _ at hw
    cases ho : o.runsCode with
    | true =>
      rw [ho, if_pos rfl] at hw
      obtain ⟨x, hx, rfl⟩ := hw
      refine h.move (fun _ => nofun) hguard ?_ fun j hj =>
        ⟨Iff.rfl, rfl, Function.update_of_ne hj ..⟩
      rw [Phase.Follows, ho, if_pos rfl]
      refine ⟨x, Function.update_self .., ?_⟩
      have hstart := hD.start i o x hx
      rwa [← hfollows.2] at hstart
    | false =>
      rw [ho, if_neg nofun] at hw
      subst hw
      refine h.move (fun _ => nofun) hguard ?_ fun j hj => ⟨Iff.rfl, rfl, rfl⟩
      rw [Phase.Follows, ho, if_neg nofun]
      exact hfollows
  | leave hq ha hw => exact h.leave hD hq (step_of_replies ha) hw
  | @finish i q a hq ha =>
    obtain ⟨v, cleanup, f, rfl, -⟩ := ended_of_returns ha
    have hguard := h.guard i
    have hfollows := h.follows i
    rw [hq] at hguard hfollows
    exact h.move (fun _ => nofun) hguard hfollows fun j _ => ⟨Iff.rfl, rfl, rfl⟩
  | act hw => exact h.acts hD hw

omit [PanicPayload π] in
theorem following_start (memory : μ) :
    Following D (startStations (P := P) (R := R) (E := E) (C := C) (π := π)
      (LockState.initial (ι := ι) memory)) where
  guard _ := ⟨nofun, nofun⟩
  follows _ := ⟨rfl, rfl⟩
  pending _ _ h := by cases h; rfl

theorem following_of_run (hD : Disciplined callbacks D) {memory : μ}
    {ls : List (InvocationLabel P R E C π ι ι)}
    (h : Pool.Run (lockWorld callbacks) (stations invocations)
      (startStations (.initial memory)) ls c) : Following D c :=
  h.invariant (I := fun _ c => Following D c) (following_start memory)
    fun _ _ _ _ hc hs => following_step hD hc hs

omit [DecidableEq ι] [PanicPayload π] in
theorem disciplined_of_contract (contract : Contract callbacks) :
    Disciplined callbacks obeying where
  start := contract.obeys
  done _ _ _ h := h.1
  work _ _ _ _ h := h
  acquire _ _ _ h := h.2.2
  release _ _ _ h := h.2

theorem orderly_of_run (contract : Contract callbacks) {memory : μ}
    {ls : List (InvocationLabel P R E C π ι ι)}
    (h : Pool.Run (lockWorld callbacks) (stations invocations)
      (startStations (.initial memory)) ls c) : Following obeying c :=
  following_of_run (disciplined_of_contract contract) h

end Steps

section Held
variable [PanicPayload π] {i : Invocation} {q q' : Station P R E C π} {o : Call P R E C π}
  {r : o.Answer} {es : List (CallEvent P R E C π)}

def HeldSince (es : List (CallEvent P R E C π)) : Prop :=
  ∃ pre post, es = pre ++ ⟨.lock, .ret ()⟩ :: post ∧
    ∀ e ∈ post, e.op.isPredicate = true ∨ e.op.startsTask = true

omit [PanicPayload π] in
theorem HeldSince.snoc (h : HeldSince es) {e : CallEvent P R E C π}
    (he : e.op.isPredicate = true ∨ e.op.startsTask = true) : HeldSince (es ++ [e]) := by
  obtain ⟨pre, post, rfl, hpost⟩ := h
  refine ⟨pre, post ++ [e], by simp, fun e' he' => ?_⟩
  rcases List.mem_append.mp he' with he' | he'
  · exact hpost e' he'
  · rw [List.mem_singleton.mp he']
    exact he

theorem heldSince_step (h : i.Step q o r q') (hq : q.holds = true → HeldSince es)
    (hq' : q'.holds = true) : HeldSince (es ++ [⟨o, r⟩]) := by
  cases h with
  | accept => cases i <;> exact nomatch hq'
  | acquire token u => exact ⟨es, [], rfl, fun _ => nofun⟩
  | recheck | recheckReject | recheckPanic => exact (hq rfl).snoc (.inl rfl)
  | taskReturn | taskPanic | tokenTaskReturn | tokenTaskPanic => exact (hq rfl).snoc (.inr rfl)
  | release token v u => exact nomatch (outside_afterRelease _).holds.symm.trans hq'
  | releasePanic token v p hv => exact nomatch (outside_afterRelease _).holds.symm.trans hq'
  | skip token v u => exact nomatch (outside_afterSkip _).holds.symm.trans hq'
  | skipPanic token v p hv => exact nomatch (outside_afterSkip _).holds.symm.trans hq'
  | _ => exact nomatch hq'

theorem heldSince_of_path (h : i.monitor.Path .fresh es q) (hq : q.holds = true) : HeldSince es :=
  h.invariant (I := fun es q => q.holds = true → HeldSince es) nofun
    (fun _ _ _ _ hc ha hr => heldSince_step (Invocation.step_of_allows ha hr) hc) hq

theorem call_of_holds (hq : q.holds = true) (h : i.allows q o) :
    o.isPredicate = true ∨ o.startsTask = true ∨ o.isDropGuard = true := by
  cases q with
  | guarded token | cleared token | releasing token v =>
    cases o with
    | predicate => exact .inl rfl
    | task | taskWithToken t => exact .inr (.inl rfl)
    | dropGuard u => exact .inr (.inr rfl)
    | _ => exact h.elim
  | _ => exact nomatch hq

end Held

def Label.mover (l : InvocationLabel P R E C π ι ι) : Option ι :=
  match l with
  | .invoke _ => none
  | .enter i _ | .leave i _ _ | .finish i _ | .act i => some i

section Progress
variable [DecidableEq ι] {callbacks : Callbacks P R E C π ι μ}
  {c : InvocationPool P R E C π ι (LockState P R E C π ι μ)} {i : ι}
  {p : Program (Calls P R E C π) (Answer R E C π)} {o : Call P R E C π}

def Moves (callbacks : Callbacks P R E C π ι μ)
    (c : InvocationPool P R E C π ι (LockState P R E C π ι μ)) (i : ι) : Prop :=
  ∃ l c', Label.mover l = some i ∧ Pool.Step (lockWorld callbacks) (programs ι) c l c'

theorem moves_of_idle (total : ∀ i o, ∃ x, callbacks i o x) (hi : c.phases i = .idle p) :
    Moves callbacks c i := by
  cases p with
  | pure a => exact ⟨.finish i a, _, rfl, .finish hi rfl⟩
  | call o k =>
    have henter : ∃ s, (lockWorld callbacks).enter i o c.state s := by
      change ∃ s, if o.runsCode then _ else _
      split
      · obtain ⟨x, hx⟩ := total i o
        exact ⟨_, x, hx, rfl⟩
      · exact ⟨_, rfl⟩
    obtain ⟨s, hs⟩ := henter
    exact ⟨.enter i o, _, rfl, .enter hi ⟨k, rfl⟩ hs⟩

theorem moves_of_lock (hi : c.phases i = .inside p .lock)
    (hp : Phase.Legal Program.agent (c.phases i)) (hfree : c.state.holder = none) :
    Moves callbacks c i := by
  rw [hi] at hp
  obtain ⟨k, rfl⟩ := hp
  exact ⟨.leave i .lock (.ret ()), _, rfl,
    .leave hi ⟨k, rfl, rfl⟩ ⟨trivial, rfl, hfree, rfl⟩⟩

theorem moves_of_dropGuard {u : Bool} (hi : c.phases i = .inside p (.dropGuard u))
    (hp : Phase.Legal Program.agent (c.phases i)) : Moves callbacks c i := by
  rw [hi] at hp
  obtain ⟨k, rfl⟩ := hp
  exact ⟨.leave i (.dropGuard u) (.ret ()), _, rfl,
    .leave hi ⟨k, rfl, rfl⟩ ⟨fun _ => rfl, rfl, rfl⟩⟩

theorem moves_of_code (hi : c.phases i = .inside p o)
    (hp : Phase.Legal Program.agent (c.phases i)) (ho : o.runsCode = true)
    {x : Script μ o.Answer} (hcode : c.state.code i = some ⟨o, x⟩)
    (hbalanced : x.Balanced o.admits (c.state.holding i))
    (hfree : ∀ k, x = .acquire k → c.state.holder = none) : Moves callbacks c i := by
  cases x with
  | done r =>
    rw [hi] at hp
    obtain ⟨k, rfl⟩ := hp
    have hleave : (lockWorld callbacks).leave i o r c.state
        { c.state with code := Function.update c.state.code i none } := by
      refine ⟨hbalanced.2, ?_⟩
      cases o with
      | lock | dropGuard => exact nomatch ho
      | _ => exact ⟨hcode, rfl⟩
    exact ⟨.leave i o r, _, rfl, .leave hi ⟨k, rfl, rfl⟩ hleave⟩
  | work update next => exact ⟨.act i, _, rfl, .act (.work hcode)⟩
  | acquire k => exact ⟨.act i, _, rfl, .act (.acquire hcode (hfree k rfl))⟩
  | release k => exact ⟨.act i, _, rfl, .act (.release hcode (of_decide_eq_true hbalanced.1))⟩

def Holder.owner : Holder ι → ι
  | .guard i | .callback i => i

variable [PanicPayload π] {invocations : ι → Invocation}
  {d : StationPool P R E C π ι (LockState P R E C π ι μ)}

theorem moves_of_holder (contract : Contract callbacks) (hm : Pool.Matches (Tracks invocations) c d)
    (hd : Following obeying d) (hc : ∀ i, Phase.Legal Program.agent (c.phases i))
    (hlegal : ∀ i, Phase.Legal (stations invocations i) (d.phases i)) {x : Holder ι}
    (hx : c.state.holder = some x) :
    (c.phases x.owner).UnderWay ∧ Moves callbacks c x.owner := by
  have hinside {i : ι} {q : Station P R E C π} {o : Call P R E C π}
      (hi : d.phases i = .inside q o) : ∃ p, c.phases i = .inside p o := hm.inside_iff.mpr ⟨q, hi⟩
  rw [hm.state] at hx
  cases x with
  | guard i =>
    have hholds := (hd.guard i).mp hx
    have hfollows := hd.follows i
    have hcall := hlegal i
    cases hi : d.phases i with
    | idle q =>
      obtain ⟨p, hp⟩ := hm.idle_iff.mpr ⟨q, hi⟩
      exact ⟨hp ▸ trivial, moves_of_idle contract.total hp⟩
    | inside q o =>
      obtain ⟨p, hp⟩ := hinside hi
      rw [hi] at hholds hfollows hcall
      refine ⟨hp ▸ trivial, ?_⟩
      have hcode (ho : o.runsCode = true) (hlock : o.mayLock = false) : Moves callbacks c i := by
        rw [Phase.Follows, if_pos ho] at hfollows
        obtain ⟨x, hx, hobeys⟩ := hfollows
        rw [← hm.state] at hx hobeys
        apply moves_of_code hp (hc i) ho hx (Script.balanced_of_obeys hobeys)
        intro k hk
        subst hk
        exact nomatch hlock.symm.trans hobeys.1
      cases o with
      | predicate | task | taskWithToken t => exact hcode rfl rfl
      | dropGuard u => exact moves_of_dropGuard hp (hc i)
      | _ => rcases call_of_holds hholds hcall with h | h | h <;> exact nomatch h
    | _ =>
      rw [hi] at hholds
      exact nomatch hholds
  | callback i =>
    have hholding : d.state.holding i = true := decide_eq_true hx
    have hfollows := hd.follows i
    rw [hholding] at hfollows
    cases hi : d.phases i with
    | inside q o =>
      obtain ⟨p, hp⟩ := hinside hi
      rw [hi, Phase.Follows] at hfollows
      split at hfollows
      case isTrue ho =>
        obtain ⟨x, hx, hobeys⟩ := hfollows
        have hcode : c.state.code i = some ⟨o, x⟩ := by rw [hm.state, hx]
        have hbalanced : x.Balanced o.admits (c.state.holding i) := by
          rw [hm.state, hholding]
          exact Script.balanced_of_obeys hobeys
        refine ⟨hp ▸ trivial, moves_of_code hp (hc i) ho hcode hbalanced ?_⟩
        intro k hk
        subst hk
        exact nomatch hobeys.2.1
      case isFalse ho => exact nomatch hfollows.2
    | _ =>
      rw [hi] at hfollows
      exact nomatch hfollows.2

theorem progress (contract : Contract callbacks) (hm : Pool.Matches (Tracks invocations) c d)
    (hd : Following obeying d) (hc : ∀ i, Phase.Legal Program.agent (c.phases i))
    (hlegal : ∀ i, Phase.Legal (stations invocations i) (d.phases i)) {i : ι}
    (hi : (c.phases i).UnderWay) : ∃ j, (c.phases j).UnderWay ∧ Moves callbacks c j := by
  cases hx : c.state.holder with
  | some x => exact ⟨_, moves_of_holder contract hm hd hc hlegal hx⟩
  | none =>
    refine ⟨i, hi, ?_⟩
    cases hp : c.phases i with
    | idle p => exact moves_of_idle contract.total hp
    | inside p o =>
      cases ho : o.runsCode with
      | true =>
        obtain ⟨q, hq⟩ := hm.inside_iff.mp ⟨p, hp⟩
        have hfollows := hd.follows i
        rw [hq, Phase.Follows, if_pos ho, ← hm.state] at hfollows
        obtain ⟨x, hcode, hobeys⟩ := hfollows
        exact moves_of_code hp (hc i) ho hcode (Script.balanced_of_obeys hobeys) fun _ _ => hx
      | false =>
        cases o with
        | lock => exact moves_of_lock hp (hc i) hx
        | dropGuard u => exact moves_of_dropGuard hp (hc i)
        | _ => exact nomatch ho
    | _ =>
      rw [hp] at hi
      exact hi.elim

/-- In every reachable state the executor's guard is held only between an acquisition and
the drop of that guard, with nothing but the second check and the task in between, and
whenever an invocation is under way, one of those under way can move; so no state is stuck
before everyone has finished. -/
theorem lock_progress (contract : Contract callbacks) {memory : μ}
    {ls : List (InvocationLabel P R E C π ι ι)}
    (h : Pool.Run (lockWorld callbacks) (programs ι) (start invocations (.initial memory)) ls c) :
    (∀ i, c.state.holder = some (.guard i) → HeldSince (eventsOf i ls) ∧
      ∀ p o, c.phases i = .inside p o →
        o.isPredicate = true ∨ o.startsTask = true ∨ o.isDropGuard = true) ∧
    (∀ i, (c.phases i).UnderWay → ∃ j, (c.phases j).UnderWay ∧ Moves callbacks c j) ∧
    (¬c.Terminal → ∃ l c', Pool.Step (lockWorld callbacks) (programs ι) c l c') := by
  obtain ⟨d, hrun, hm⟩ := h.simulate start_matches station_simulation fun _ _ _ _ _ hw => hw.1
  have hd := orderly_of_run contract hrun
  have hc := h.legal fun _ => trivial
  have hlegal := hrun.legal fun _ => trivial
  have hmoves (i : ι) (hi : (c.phases i).UnderWay) := progress contract hm hd hc hlegal hi
  refine ⟨fun i hi => ?_, hmoves, fun ht => ?_⟩
  · rw [hm.state] at hi
    have hholds := (hd.guard i).mp hi
    have hcall := hlegal i
    have hpath := station_path hrun i
    cases hp : d.phases i with
    | idle q =>
      rw [hp] at hholds hpath
      refine ⟨heldSince_of_path hpath hholds, fun p o hi => ?_⟩
      obtain ⟨q', hq'⟩ := hm.inside_iff.mp ⟨p, hi⟩
      exact nomatch hp.symm.trans hq'
    | inside q o =>
      rw [hp] at hholds hpath hcall
      refine ⟨heldSince_of_path hpath hholds, fun p o' hi => ?_⟩
      obtain ⟨q', hq'⟩ := hm.inside_iff.mp ⟨p, hi⟩
      cases hp.symm.trans hq'
      exact call_of_holds hholds hcall
    | _ =>
      rw [hp] at hholds
      exact nomatch hholds
  · obtain ⟨i, hi⟩ := not_forall.mp ht
    cases hp : c.phases i with
    | pending p => exact ⟨_, _, .invoke hp⟩
    | finished p a => exact absurd ⟨p, a, hp⟩ hi
    | idle p =>
      obtain ⟨j, -, l, c', -, hs⟩ := hmoves i (by rw [hp]; trivial)
      exact ⟨l, c', hs⟩
    | inside p o =>
      obtain ⟨j, -, l, c', -, hs⟩ := hmoves i (by rw [hp]; trivial)
      exact ⟨l, c', hs⟩

end Progress

def scripts : (o : Call ℕ ℕ ℕ ℕ String) → Script Bool o.Answer
  | .predicate => .work id fun gate => .done (.ret gate)
  | .prepare => .acquire (.release (.done (.ret (.ok 1))))
  | .lock | .dropGuard _ => .done (.ret ())
  | .task => .work (fun _ => false) fun _ => .done (.ret (.ok 7))
  | .taskWithToken t => .work (fun _ => false) fun _ => .done (.ret (.ok 7), t)
  | .dropTask _ | .dropToken _ _ | .discard _ _ => .acquire (.release (.done (.ret ())))
  | .commit _ | .rollback _ _ => .acquire (.release (.done (.ret (.ok ()))))

theorem scripts_contract :
    Contract (P := ℕ) (R := ℕ) (E := ℕ) (C := ℕ) (π := String) (ι := Bool)
      fun _ o x => x = scripts o where
  total _ o := ⟨scripts o, rfl⟩
  obeys i o x hx := by
    subst hx
    cases o with
    | predicate => exact fun _ => ⟨rfl, trivial⟩
    | task | taskWithToken t => exact fun _ => ⟨rfl, trivial⟩
    | prepare | commit t | rollback t cause => exact ⟨rfl, rfl, rfl, rfl, trivial⟩
    | lock => exact ⟨rfl, trivial⟩
    | dropGuard u => exact ⟨rfl, fun _ => rfl⟩
    | dropTask | dropToken | discard => exact ⟨rfl, rfl, rfl, rfl, fun _ => rfl⟩

def waiting : List (InvocationLabel ℕ ℕ ℕ ℕ String Bool Bool) :=
  [.invoke true, .enter true .predicate, .act true, .leave true .predicate (.ret true),
    .enter true .lock, .leave true .lock (.ret ()), .invoke false, .enter false .predicate,
    .act false, .leave false .predicate (.ret true), .enter false .prepare]

theorem lock_progress_waiting :
    ∃ c : InvocationPool ℕ ℕ ℕ ℕ String Bool (LockState ℕ ℕ ℕ ℕ String Bool Bool),
      Pool.Run (lockWorld fun _ o x => x = scripts o) (programs Bool) (start (fun i => if i then
        .basic false 1 else .lifecycle .commitAndRollback true false 1) (.initial true)) waiting c ∧
      HeldSince (eventsOf true waiting) ∧
      ∃ j, (c.phases j).UnderWay ∧ Moves (fun _ o x => x = scripts o) c j := by
  obtain ⟨c, hrun, hholder, hfalse⟩ :
      ∃ c : InvocationPool ℕ ℕ ℕ ℕ String Bool (LockState ℕ ℕ ℕ ℕ String Bool Bool),
        Pool.Run (lockWorld fun _ o x => x = scripts o) (programs Bool) (start (fun i => if i then
          .basic false 1 else .lifecycle .commitAndRollback true false 1) (.initial true))
          waiting c ∧
        c.state.holder = some (.guard true) ∧ (c.phases false).UnderWay := by
    refine ⟨_, .head (.invoke rfl) (.head (.enter rfl ⟨_, rfl⟩ ⟨_, rfl, rfl⟩)
      (.head (.act (.work rfl)) (.head (.leave rfl ⟨_, rfl, rfl⟩ ⟨trivial, rfl, rfl⟩)
      (.head (.enter rfl ⟨_, rfl⟩ rfl)
      (.head (.leave rfl ⟨_, rfl, rfl⟩ ⟨trivial, rfl, rfl, rfl⟩) (.head (.invoke rfl)
      (.head (.enter rfl ⟨_, rfl⟩ ⟨_, rfl, rfl⟩) (.head (.act (.work rfl))
      (.head (.leave rfl ⟨_, rfl, rfl⟩ ⟨trivial, rfl, rfl⟩)
      (.head (.enter rfl ⟨_, rfl⟩ ⟨_, rfl, rfl⟩) .refl)))))))))), rfl, trivial⟩
  have hprogress := lock_progress scripts_contract hrun
  exact ⟨c, hrun, (hprogress.1 true hholder).1, hprogress.2.1 false hfalse⟩

end DoubleChecked
