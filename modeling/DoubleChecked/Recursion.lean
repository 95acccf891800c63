import DoubleChecked.Completion

/-!
# Deadlocks are recursions

Callbacks that take the lock under the guard, or twice, wait for themselves. There is no
other way in which invocations get stuck, and there is no way out of it.
-/

namespace DoubleChecked
open Effect

variable {P R E C π ι μ : Type}

/-- Callbacks give back the lock that they take, whenever and however often they take it. -/
structure GivesBack (callbacks : Callbacks P R E C π ι μ) : Prop where
  total : ∀ i o, ∃ x, callbacks i o x
  balanced : ∀ i o x, callbacks i o x → x.Balanced o.admits false

/-- A callback of `i` waits for the lock while `i` holds it. -/
structure LockState.Recurs (s : LockState P R E C π ι μ) (i : ι) : Prop where
  holds : ∃ x, s.holder = some x ∧ x.owner = i
  waits : ∃ o k, s.code i = some ⟨o, .acquire k⟩

def Waits (c : InvocationPool P R E C π ι (LockState P R E C π ι μ)) (i : ι) : Prop :=
  (∃ p, c.phases i = .inside p .lock) ∨ ∃ o k, c.state.code i = some ⟨o, .acquire k⟩

def givingBack (o : Call P R E C π) (holding : Bool) (x : Script μ o.Answer) : Prop :=
  x.Balanced o.admits holding

theorem disciplined_of_givesBack {callbacks : Callbacks P R E C π ι μ}
    (gives : GivesBack callbacks) : Disciplined callbacks givingBack where
  start := gives.balanced
  done _ _ _ h := h.1
  work _ _ _ _ h := h
  acquire _ _ _ h := h
  release _ _ _ h := h.2

theorem LockState.Recurs.frame {s s' : LockState P R E C π ι μ} {i : ι} (h : s.Recurs i)
    (hholder : s'.holder = s.holder) (hcode : s'.code i = s.code i) : s'.Recurs i where
  holds := by
    rw [hholder]
    exact h.holds
  waits := by
    rw [hcode]
    exact h.waits

section Steps
variable [DecidableEq ι] [PanicPayload π] {invocations : ι → Invocation}
  {callbacks : Callbacks P R E C π ι μ} {D : Discipline P R E C π μ}
  {c c' : StationPool P R E C π ι (LockState P R E C π ι μ)} {l : InvocationLabel P R E C π ι ι}
  {i : ι}

theorem recurs_leave (hf : Following D c) (h : c.state.Recurs i) {j : ι} {q q' : Station P R E C π}
    {o : Call P R E C π} {r : o.Answer} {s : LockState P R E C π ι μ}
    (hq : c.phases j = .inside q o) (hstep : (invocations j).Step q o r q')
    (hw : (lockWorld callbacks).leave j o r c.state s) :
    s.Recurs i ∧ s.holder = c.state.holder := by
  obtain ⟨⟨x, hx, hi⟩, o', k, hcode⟩ := id h
  obtain ⟨⟨q', hq'⟩, ho', -⟩ := hf.running hcode
  cases ho : o.runsCode with
  | true =>
    obtain ⟨hdone, rfl⟩ := code_of_leave ho hw
    have hij : i ≠ j := by
      rintro rfl
      exact nomatch hcode.symm.trans hdone
    exact ⟨h.frame rfl (Function.update_of_ne hij ..), rfl⟩
  | false =>
    cases o with
    | lock =>
      obtain ⟨-, -, hfree, -⟩ := hw
      exact nomatch hx.symm.trans hfree
    | dropGuard u =>
      have hholds : q.holds = true := by
        cases hstep with
        | release | releasePanic => rfl
      have hguard := hf.guard j
      rw [hq] at hguard
      obtain rfl : j = i := by
        rw [← hi, Option.some.inj (hx.symm.trans (hguard.mpr hholds))]
        rfl
      cases hq.symm.trans hq'
      exact absurd ho' Bool.false_ne_true
    | _ => exact nomatch ho

theorem recurs_step (hf : Following D c) (h : c.state.Recurs i)
    (hs : Pool.Step (lockWorld callbacks) (stations invocations) c l c') :
    c'.state.Recurs i ∧ c'.state.holder = c.state.holder := by
  obtain ⟨⟨x, hx, hi⟩, o, k, hcode⟩ := id h
  obtain ⟨⟨q, hq⟩, ho, -⟩ := hf.running hcode
  cases hs with
  | invoke | finish => exact ⟨h, rfl⟩
  | @enter j q' o' s hq' ha hw =>
    have hij : i ≠ j := by
      rintro rfl
      exact nomatch hq.symm.trans hq'
    change if o'.runsCode then _ else _ at hw
    split at hw
    · obtain ⟨x, -, rfl⟩ := hw
      exact ⟨h.frame rfl (Function.update_of_ne hij ..), rfl⟩
    · subst hw
      exact ⟨h, rfl⟩
  | leave hq' ha hw => exact recurs_leave hf h hq' (step_of_replies ha) hw
  | @act j s hw =>
    cases hw with
    | work hcode' =>
      have hij : i ≠ j := by
        rintro rfl
        exact nomatch hcode.symm.trans hcode'
      exact ⟨h.frame rfl (Function.update_of_ne hij ..), rfl⟩
    | acquire hcode' hfree => exact nomatch hx.symm.trans hfree
    | release hcode' hheld =>
      obtain rfl : j = i := by
        rw [← hi, Option.some.inj (hx.symm.trans hheld)]
        rfl
      exact nomatch hcode.symm.trans hcode'

theorem recurs_run (hD : Disciplined callbacks D) (hf : Following D c) (h : c.state.Recurs i)
    {ls : List (InvocationLabel P R E C π ι ι)}
    (hrun : Pool.Run (lockWorld callbacks) (stations invocations) c ls c') :
    Following D c' ∧ c'.state.Recurs i ∧ c'.state.holder = c.state.holder := by
  refine hrun.invariant (I := fun _ c' => Following D c' ∧ c'.state.Recurs i ∧
    c'.state.holder = c.state.holder) ⟨hf, h, rfl⟩ ?_
  intro ls c₁ l c₂ hc hs
  obtain ⟨hf₁, hr₁, hh₁⟩ := hc
  obtain ⟨hr₂, hh₂⟩ := recurs_step hf₁ hr₁ hs
  exact ⟨following_step hD hf₁ hs, hr₂, hh₂.trans hh₁⟩

end Steps

section Stuck
variable [DecidableEq ι] [PanicPayload π] {invocations : ι → Invocation}
  {callbacks : Callbacks P R E C π ι μ}
  {c : InvocationPool P R E C π ι (LockState P R E C π ι μ)}
  {d : StationPool P R E C π ι (LockState P R E C π ι μ)} {i : ι}

theorem waits_of_stuck (gives : GivesBack callbacks) (hm : Pool.Matches (Tracks invocations) c d)
    (hf : Following givingBack d) (hc : ∀ i, Phase.Legal Program.agent (c.phases i))
    (hstuck : Pool.Stuck (lockWorld callbacks) (programs ι) c) (i : ι) :
    (∃ p a, c.phases i = .finished p a) ∨ Waits c i := by
  have hstays : ¬Moves callbacks c i := by
    rintro ⟨l, c', -, hs⟩
    exact hstuck l c' hs
  cases hp : c.phases i with
  | pending p => exact absurd (.invoke hp) (hstuck _ _)
  | finished p a => exact .inl ⟨p, a, rfl⟩
  | idle p => exact absurd (moves_of_idle gives.total hp) hstays
  | inside p o =>
    refine .inr ?_
    obtain ⟨q, hq⟩ := hm.inside_iff.mp ⟨p, hp⟩
    have hfollows := hf.follows i
    rw [hq, Phase.Follows, ← hm.state] at hfollows
    cases ho : o.runsCode with
    | true =>
      rw [if_pos ho] at hfollows
      obtain ⟨x, hcode, hbalanced⟩ := hfollows
      cases x with
      | acquire k => exact .inr ⟨o, k, hcode⟩
      | _ =>
        refine absurd (moves_of_code hp (hc i) ho hcode hbalanced fun k hk => ?_) hstays
        cases hk
    | false =>
      cases o with
      | lock => exact .inl ⟨p, hp⟩
      | dropGuard u => exact absurd (moves_of_dropGuard hp (hc i)) hstays
      | _ => exact absurd ho.symm Bool.false_ne_true

omit [PanicPayload π] in
theorem holder_of_stuck (hc : ∀ i, Phase.Legal Program.agent (c.phases i))
    (hstuck : Pool.Stuck (lockWorld callbacks) (programs ι) c) (hi : Waits c i) :
    ∃ x, c.state.holder = some x := by
  apply Option.ne_none_iff_exists'.mp
  intro hfree
  rcases hi with ⟨p, hp⟩ | ⟨o, k, hcode⟩
  · obtain ⟨l, c', -, hs⟩ := moves_of_lock hp (hc i) hfree
    exact hstuck l c' hs
  · exact hstuck _ _ (.act (.acquire hcode hfree))

theorem owner_underWay {D : Discipline P R E C π μ} (hf : Following D d)
    (hlegal : ∀ i, Phase.Legal (stations invocations i) (d.phases i)) {x : Holder ι}
    (hx : d.state.holder = some x) : (∀ q a, d.phases x.owner ≠ .finished q a) ∧
      ∀ q, d.phases x.owner ≠ .inside q .lock := by
  cases x with
  | guard i =>
    have hholds := (hf.guard i).mp hx
    have hcall := hlegal i
    refine ⟨fun q a hq => ?_, fun q hq => ?_⟩
    · change d.phases i = _ at hq
      rw [hq] at hholds
      exact absurd hholds Bool.false_ne_true
    · change d.phases i = _ at hq
      rw [hq] at hholds hcall
      rcases call_of_holds hholds hcall with h | h | h <;> exact absurd h Bool.false_ne_true
  | callback i =>
    have hholding : d.state.holding i = true := decide_eq_true hx
    have hfollows := hf.follows i
    rw [hholding] at hfollows
    refine ⟨fun q a hq => ?_, fun q hq => ?_⟩
    all_goals
      change d.phases i = _ at hq
      rw [hq] at hfollows
      exact absurd hfollows.2.symm Bool.false_ne_true

theorem recurs_of_holder (hm : Pool.Matches (Tracks invocations) c d)
    (hf : Following givingBack d) (hlegal : ∀ i, Phase.Legal (stations invocations i) (d.phases i))
    {x : Holder ι} (hx : c.state.holder = some x)
    (hwaits : (∃ p a, c.phases x.owner = .finished p a) ∨ Waits c x.owner) :
    c.state.Recurs x.owner := by
  obtain ⟨hfinished, hlock⟩ := owner_underWay hf hlegal (hm.state ▸ hx)
  rcases hwaits with ⟨p, a, hp⟩ | ⟨p, hp⟩ | hcode
  · obtain ⟨q, hq⟩ := hm.finished_iff.mp ⟨p, hp⟩
    exact absurd hq (hfinished q a)
  · obtain ⟨q, hq⟩ := hm.inside_iff.mp ⟨p, hp⟩
    exact absurd hq (hlock q)
  · exact ⟨⟨x, hx, rfl⟩, hcode⟩

theorem recurs_of_stuck (gives : GivesBack callbacks) {memory : μ}
    {ls : List (InvocationLabel P R E C π ι ι)}
    (h : Pool.Run (lockWorld callbacks) (programs ι) (start invocations (.initial memory)) ls c)
    (hstuck : Pool.Stuck (lockWorld callbacks) (programs ι) c) :
    c.Terminal ∨ ∃ i, c.state.Recurs i ∧
      ∀ j, (∃ p a, c.phases j = .finished p a) ∨ Waits c j := by
  obtain ⟨d, hrun, hm⟩ := h.simulate start_matches station_simulation fun _ _ _ _ _ hw => hw.1
  have hf := following_of_run (disciplined_of_givesBack gives) hrun
  have hc := h.legal fun _ => trivial
  have hwaits := waits_of_stuck gives hm hf hc hstuck
  by_cases ht : c.Terminal
  · exact .inl ht
  · obtain ⟨i, hi⟩ := not_forall.mp ht
    obtain ⟨x, hx⟩ := holder_of_stuck hc hstuck ((hwaits i).resolve_left hi)
    have hrecurs := recurs_of_holder hm hf (hrun.legal fun _ => trivial) hx (hwaits _)
    exact .inr ⟨x.owner, hrecurs, hwaits⟩

end Stuck

section Runs
variable [DecidableEq ι] [PanicPayload π] {invocations : ι → Invocation}
  {callbacks : Callbacks P R E C π ι μ} {memory : μ} {ls : List (InvocationLabel P R E C π ι ι)}
  {c : InvocationPool P R E C π ι (LockState P R E C π ι μ)}

/-- An invocation that waits for itself does so for ever, and the lock is lost to everyone.
An execution that goes on as long as anybody can take a step comes to such a state or sees
all of them finish. -/
theorem deadlock_is_recursion [Finite ι] (gives : GivesBack callbacks)
    (h : Pool.Run (lockWorld callbacks) (programs ι) (start invocations (.initial memory)) ls c) :
    (∀ i, c.state.Recurs i → ∀ ls' c', Pool.Run (lockWorld callbacks) (programs ι) c ls' c' →
      c'.state.Recurs i ∧ c'.state.holder = c.state.holder ∧ ¬c'.Terminal) ∧
    ∀ f : ℕ → InvocationPool P R E C π ι (LockState P R E C π ι μ), f 0 = c →
      (∀ n, (∃ l, Pool.Step (lockWorld callbacks) (programs ι) (f n) l (f (n + 1))) ∨
        Pool.Stuck (lockWorld callbacks) (programs ι) (f n)) →
      ∃ n, (f n).Terminal ∨ ∃ i, (f n).state.Recurs i ∧
        ∀ j, (∃ p a, (f n).phases j = .finished p a) ∨ Waits (f n) j := by
  refine ⟨fun i hi ls' c' hrun' => ?_, fun f h₀ hmaximal => ?_⟩
  · obtain ⟨d, hrun, hm⟩ := h.simulate start_matches station_simulation fun _ _ _ _ _ hw => hw.1
    obtain ⟨d', hrun', hm'⟩ := hrun'.simulate hm station_simulation fun _ _ _ _ _ hw => hw.1
    have hD := disciplined_of_givesBack gives
    obtain ⟨hf', hr', hh'⟩ := recurs_run hD (following_of_run hD hrun) (hm.state ▸ hi) hrun'
    refine ⟨hm'.state ▸ hr', by rw [hm.state, hm'.state, hh'], fun ht => ?_⟩
    obtain ⟨o, k, hcode⟩ := hr'.waits
    obtain ⟨q, hq⟩ := (hf'.running hcode).1
    obtain ⟨q', a, hq'⟩ := hm'.terminal ht i
    exact nomatch hq.symm.trans hq'
  · obtain ⟨n, ls', hrun, hstuck⟩ := Pool.stuck_of_maximal lockWorld_wears f hmaximal
    rw [h₀] at hrun
    exact ⟨n, recurs_of_stuck gives (h.append hrun) hstuck⟩

end Runs

def recursive : (o : Call ℕ ℕ ℕ ℕ String) → Script Bool o.Answer
  | .task => .acquire (.release (.done (.ret (.ok 7))))
  | .taskWithToken t => .acquire (.release (.done (.ret (.ok 7), t)))
  | o => scripts o

theorem recursive_givesBack :
    GivesBack (P := ℕ) (R := ℕ) (E := ℕ) (C := ℕ) (π := String) (ι := Unit)
      fun _ o x => x = recursive o where
  total _ o := ⟨recursive o, rfl⟩
  balanced i o x hx := by
    subst hx
    have hscripts := Script.balanced_of_obeys (scripts_contract.obeys true o _ rfl)
    cases o with
    | task | taskWithToken t => exact ⟨rfl, rfl, trivial⟩
    | _ => exact hscripts

def recursing : List (InvocationLabel ℕ ℕ ℕ ℕ String Unit Unit) :=
  [.invoke (), .enter () .predicate, .act (), .leave () .predicate (.ret true), .enter () .lock,
    .leave () .lock (.ret ()), .enter () .predicate, .act (), .leave () .predicate (.ret true),
    .enter () .task]

theorem deadlock_is_recursion_recursing :
    ∃ c : InvocationPool ℕ ℕ ℕ ℕ String Unit (LockState ℕ ℕ ℕ ℕ String Unit Bool),
      Pool.Run (lockWorld fun _ o x => x = recursive o) (programs Unit)
        (start (fun _ => .basic false 0) (.initial true)) recursing c ∧
      ¬∃ ls c', Pool.Run (lockWorld fun _ o x => x = recursive o) (programs Unit) c ls c' ∧
        c'.Terminal := by
  obtain ⟨c, hrun, hrecurs⟩ :
      ∃ c : InvocationPool ℕ ℕ ℕ ℕ String Unit (LockState ℕ ℕ ℕ ℕ String Unit Bool),
        Pool.Run (lockWorld fun _ o x => x = recursive o) (programs Unit)
          (start (fun _ => .basic false 0) (.initial true)) recursing c ∧ c.state.Recurs () := by
    refine ⟨_, .head (.invoke rfl) (.head (.enter rfl ⟨_, rfl⟩ ⟨_, rfl, rfl⟩)
      (.head (.act (.work rfl)) (.head (.leave rfl ⟨_, rfl, rfl⟩ ⟨trivial, rfl, rfl⟩)
      (.head (.enter rfl ⟨_, rfl⟩ rfl)
      (.head (.leave rfl ⟨_, rfl, rfl⟩ ⟨trivial, rfl, rfl, rfl⟩)
      (.head (.enter rfl ⟨_, rfl⟩ ⟨_, rfl, rfl⟩) (.head (.act (.work rfl))
      (.head (.leave rfl ⟨_, rfl, rfl⟩ ⟨trivial, rfl, rfl⟩)
      (.head (.enter rfl ⟨_, rfl⟩ ⟨_, rfl, rfl⟩) .refl))))))))), ⟨_, rfl, rfl⟩, _, _, rfl⟩
  refine ⟨c, hrun, ?_⟩
  rintro ⟨ls, c', hrun', ht⟩
  have hforever := (deadlock_is_recursion recursive_givesBack hrun).1 () hrecurs
  exact (hforever ls c' hrun').2.2 ht

end DoubleChecked
