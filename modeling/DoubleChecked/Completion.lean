import DoubleChecked.Effect.Termination
import DoubleChecked.LockSharing

/-!
# Every invocation finishes

Where callbacks share the executor's lock and keep to the contract, there is no schedule
under which finitely many invocations run forever or get stuck: whoever goes on as long
as anybody can go on sees all of them finish.
-/

namespace DoubleChecked
open Effect

variable {P R E C π ι μ : Type} [DecidableEq ι]

noncomputable def LockState.effort (s : LockState P R E C π ι μ) (i : ι) : Ordinal.{0} :=
  match s.code i with
  | some ⟨_, x⟩ => x.rank
  | none => 0

section Effort
variable {callbacks : Callbacks P R E C π ι μ} {s s' : LockState P R E C π ι μ} {i j : ι}

omit [DecidableEq ι] in
theorem LockState.effort_congr (h : s'.code j = s.code j) : s'.effort j = s.effort j := by
  rw [effort, effort, h]

omit [DecidableEq ι] in
theorem LockState.effort_code {o : Call P R E C π} {x : Script μ o.Answer}
    (h : s.code i = some ⟨o, x⟩) : s.effort i = x.rank := by
  rw [effort, h]

theorem LockState.effort_lt {o : Call P R E C π} {x x' : Script μ o.Answer}
    (hx : s.code i = some ⟨o, x⟩) (hcode : s'.code = Function.update s.code i (some ⟨o, x'⟩))
    (hlt : x'.rank < x.rank) : s'.effort < s.effort := by
  have hx' : s'.code i = some ⟨o, x'⟩ := by rw [hcode, Function.update_self]
  have hself : s'.effort i < s.effort i := by rwa [effort_code hx, effort_code hx']
  refine Pi.lt_def.mpr ⟨fun j => ?_, i, hself⟩
  by_cases hj : j = i
  · subst hj
    exact hself.le
  · exact le_of_eq (effort_congr (by rw [hcode, Function.update_of_ne hj]))

theorem lockWorld_wears : (lockWorld callbacks).Wears LockState.effort where
  enter i o s s' hw j hj := by
    change if o.runsCode then _ else _ at hw
    split at hw
    · obtain ⟨x, -, rfl⟩ := hw
      exact LockState.effort_congr (Function.update_of_ne hj ..)
    · rw [hw]
  leave i o r s s' hw j hj := by
    cases ho : o.runsCode with
    | true =>
      obtain ⟨-, rfl⟩ := code_of_leave ho hw
      exact LockState.effort_congr (Function.update_of_ne hj ..)
    | false =>
      cases o with
      | lock =>
        obtain ⟨-, -, -, rfl⟩ := hw
        exact LockState.effort_congr rfl
      | dropGuard u =>
        obtain ⟨-, -, rfl⟩ := hw
        exact LockState.effort_congr rfl
      | _ => exact nomatch ho
  act i s s' hw := by
    cases hw with
    | work hcode => exact LockState.effort_lt hcode rfl (Script.rank_work _ _ _)
    | acquire hcode hfree => exact LockState.effort_lt hcode rfl (lt_add_one _)
    | release hcode hheld => exact LockState.effort_lt hcode rfl (lt_add_one _)

end Effort

section Runs
variable [PanicPayload π] {invocations : ι → Invocation} {callbacks : Callbacks P R E C π ι μ}
  {memory : μ} {ls : List (InvocationLabel P R E C π ι ι)}
  {c : InvocationPool P R E C π ι (LockState P R E C π ι μ)}

theorem terminal_of_stuck (contract : Contract callbacks)
    (h : Pool.Run (lockWorld callbacks) (programs ι) (start invocations (.initial memory)) ls c)
    (hstuck : Pool.Stuck (lockWorld callbacks) (programs ι) c) : c.Terminal := by
  obtain ⟨d, hrun, hm⟩ := h.simulate start_matches station_simulation fun _ _ _ _ _ hw => hw.1
  have hidle (i : ι) : ¬(c.phases i).UnderWay := by
    intro hi
    obtain ⟨j, -, l, c', -, hs⟩ := progress contract hm (orderly_of_run contract hrun)
      (h.legal fun _ => trivial) (hrun.legal fun _ => trivial) hi
    exact hstuck l c' hs
  intro i
  cases hp : c.phases i with
  | pending p => exact absurd (.invoke hp) (hstuck _ _)
  | finished p a => exact ⟨p, a, rfl⟩
  | idle p | inside p o => exact absurd (by rw [hp]; trivial) (hidle i)

/-- With a lock that does not panic, callbacks that end and give it back, and no panic in an
unwind, finitely many invocations can finish from every reachable state, and they do in every
execution that goes on as long as anybody can take a step, whatever the scheduler does. -/
theorem runs_complete [Finite ι] (contract : Contract callbacks)
    (h : Pool.Run (lockWorld callbacks) (programs ι) (start invocations (.initial memory)) ls c) :
    (∀ f : ℕ → InvocationPool P R E C π ι (LockState P R E C π ι μ), f 0 = c →
      (∀ n, (∃ l, Pool.Step (lockWorld callbacks) (programs ι) (f n) l (f (n + 1))) ∨
        Pool.Stuck (lockWorld callbacks) (programs ι) (f n)) → ∃ n, (f n).Terminal) ∧
    ∃ ls' c', Pool.Run (lockWorld callbacks) (programs ι) c ls' c' ∧ c'.Terminal := by
  refine ⟨fun f h₀ hmaximal => ?_, ?_⟩
  · obtain ⟨n, ls', hrun, hstuck⟩ := Pool.stuck_of_maximal lockWorld_wears f hmaximal
    rw [h₀] at hrun
    exact ⟨n, terminal_of_stuck contract (h.append hrun) hstuck⟩
  · obtain ⟨ls', c', hrun, hstuck⟩ := Pool.exists_stuck lockWorld_wears c
    exact ⟨ls', c', hrun, terminal_of_stuck contract (h.append hrun) hstuck⟩

end Runs

theorem runs_complete_contending :
    ∃ ls c, Pool.Run (lockWorld fun _ o x => x = scripts o) (programs Bool)
      (start (fun i => if i then .basic false 1 else .lifecycle .commitAndRollback true false 1)
        (.initial true)) ls c ∧ c.Terminal :=
  (runs_complete scripts_contract .refl).2

end DoubleChecked
