import DoubleChecked.FirstPanic
import DoubleChecked.Truthfulness

/-!
# The fast path

Once the gate is closed and stays closed, newcomers leave by their first check: they
prepare nothing, never touch the lock and start no task.
-/

namespace DoubleChecked
open Effect

variable {P R E C π ι κ : Type}

def Call.cheap : Call P R E C π → Bool
  | .predicate | .dropTask _ | .discard _ _ => true
  | _ => false

section Stations
variable [PanicPayload π] {i : Invocation} {q q' : Station P R E C π} {o : Call P R E C π}
  {r : o.Answer} {es : List (CallEvent P R E C π)}

inductive Station.Early : Station P R E C π → Prop
  | fresh : Early .fresh
  | rejected : Early (.skipping none .notAdmitted)
  | panicked (p : π) : Early (.skipping none (.checkPanicked p))
  | ended (v : Verdict R E C π) (cleanup : Option π) :
      v = .notAdmitted ∨ (∃ p, v = .checkPanicked p) → Early (.ended v cleanup .notReached)

theorem cheap_of_early (hq : q.Early) (h : i.allows q o) : o.cheap = true := by
  cases hq with
  | fresh | rejected | panicked | ended =>
    cases o with
    | predicate | dropTask u | discard mode v => rfl
    | _ => exact h.elim

theorem early_step (hq : q.Early) (h : i.Step q o r q')
    (hr : (⟨o, r⟩ : CallEvent P R E C π) ≠ ⟨.predicate, .ret true⟩) : q'.Early := by
  cases hq with
  | fresh =>
    cases h with
    | accept => exact absurd rfl hr
    | reject => exact .rejected
    | checkPanic p => exact .panicked p
  | rejected =>
    cases h with
    | skip token v u => exact .ended _ _ (.inl rfl)
    | skipPanic token v p hv => exact .ended _ _ (.inl rfl)
  | panicked p =>
    cases h with
    | skip token v u => exact .ended _ _ (.inr ⟨p, rfl⟩)
    | skipPanic token v p hv => exact .ended _ _ (.inr ⟨_, rfl⟩)
  | ended v cleanup hv =>
    cases h with
    | discardLate => exact .ended v cleanup hv

theorem early_of_path (h : i.monitor.Path .fresh es q)
    (hes : ⟨.predicate, .ret true⟩ ∉ es) : q.Early :=
  h.invariant (I := fun es q => ⟨.predicate, .ret true⟩ ∉ es → q.Early) (fun _ => .fresh)
    (fun _ _ _ _ hq ha hr hes => early_step
      (hq fun hmem => hes (List.mem_append_left _ hmem)) (Invocation.step_of_allows ha hr)
      fun he => hes (he ▸ List.mem_append_right _ (List.mem_singleton_self _))) hes

theorem answer_of_early {v : Verdict R E C π} {cleanup : Option π}
    (hv : v = .notAdmitted ∨ ∃ p, v = .checkPanicked p) :
    (i.answer v cleanup .notReached).notMet = true ∨
      ((i.answer v cleanup .notReached : Answer R E C π).panic).isSome = true := by
  cases i with
  | basic catching clones =>
    rcases hv with rfl | ⟨p, rfl⟩
    · cases cleanup with
      | none => cases catching <;> exact .inl rfl
      | some p => cases catching <;> exact .inr rfl
    · cases catching <;> exact .inr rfl
  | lifecycle finalizers withToken catching clones =>
    rcases hv with rfl | ⟨p, rfl⟩
    · cases cleanup with
      | none => cases catching <;> exact .inl rfl
      | some p => cases catching <;> exact .inr rfl
    · cases catching <;> exact .inr rfl

end Stations

theorem gateAfter_of_closed {gate : Bool}
    {pre mid : List (InvocationLabel P R E C π ι (Outside ι κ))}
    (hgate : gateAfter gate pre = false) (hmid : ∀ l ∈ mid, Label.written l ≠ some true) :
    gateAfter gate (pre ++ mid) = false := by
  induction mid using List.reverseRecOn with
  | nil => simpa using hgate
  | append_singleton mid l ih =>
    have hclosed := ih fun l hl => hmid l (List.mem_append_left _ hl)
    have hl := hmid l (by simp)
    rw [gateAfter] at hclosed
    rw [gateAfter, ← List.append_assoc, gateHistory_snoc]
    generalize gateHistory gate (pre ++ mid) = x at hclosed ⊢
    cases hw : Label.written l with
    | none => exact hclosed
    | some b =>
      cases b with
      | false => rfl
      | true => exact absurd hw hl

section Runs
variable [DecidableEq ι] [DecidableEq κ] [PanicPayload π] {D : Setting ι}
  {invocations : ι → Invocation} {gate : Bool}
  {pre post : List (InvocationLabel P R E C π ι (Outside ι κ))}
  {c : InvocationPool P R E C π ι (GateState ι κ)}

/-- After `pre` the gate is closed and nobody opens it again: of those that are invoked
then, each makes its first check and runs destructors, and finishes with an unmet condition
or with a panic out of these calls. -/
theorem closed_gate_turns_away
    (h : Pool.Run D.world (programs ι) (start invocations (.initial gate)) (pre ++ post) c)
    (hgate : gateAfter gate pre = false) (hpost : ∀ l ∈ post, Label.written l ≠ some true)
    {i : ι} (hi : .invoke i ∉ pre) :
    (∀ o, .enter i o ∈ pre ++ post → o.cheap = true) ∧
    ∀ x a, c.phases i = .finished x a → a.notMet = true ∨ a.panic.isSome = true := by
  have hno : ⟨.predicate, .ret true⟩ ∉ eventsOf i (pre ++ post) := by
    intro hmem
    obtain ⟨pre₁, post₁, hsplit⟩ := List.append_of_mem (mem_eventsOf.mp hmem)
    obtain ⟨hopen, hinvoked, -⟩ := gate_of_check h hsplit
    rcases List.append_eq_append_iff.mp hsplit with ⟨mid, rfl, rfl⟩ | ⟨rest, rfl, -⟩
    · have hclosed := gateAfter_of_closed hgate fun l hl => hpost l (List.mem_append_left _ hl)
      exact nomatch hclosed.symm.trans hopen
    · exact hi (List.mem_append_left _ hinvoked)
  refine ⟨fun o hmem => ?_, fun x a hx => ?_⟩
  · obtain ⟨before, after, hsplit⟩ := List.append_of_mem hmem
    rw [hsplit] at h hno
    obtain ⟨c₁, c₂, hrun, hs, -⟩ := h.split_at
    obtain ⟨d, hrun', hm⟩ := run_stations hrun
    obtain ⟨d', hs', -⟩ := hs.simulate hm station_simulation D.admits_of_leave
    have hearly := early_of_path (station_path hrun' i) fun hes =>
      hno (mem_eventsOf.mpr (List.mem_append_left _ (mem_eventsOf.mp hes)))
    cases hs' with
    | enter hq hallows hw =>
      rw [hq] at hearly
      exact cheap_of_early hearly hallows
  · obtain ⟨d, hrun, hm⟩ := run_stations h
    have hearly := early_of_path (station_path hrun i) hno
    have hlegal := hrun.legal (fun _ => trivial) i
    obtain ⟨q, hq⟩ := hm.finished_iff.mp ⟨x, hx⟩
    rw [hq] at hearly hlegal
    obtain ⟨v, cleanup, f, rfl, rfl⟩ := ended_of_returns hlegal
    cases hearly with
    | ended _ _ hv => exact answer_of_early hv

end Runs

theorem closed_gate_turns_away_closedByTask :
    gateAfter true (closedByTask.take 9) = false ∧
      ∀ o, .enter false o ∈ closedByTask → o.cheap = true := by
  obtain ⟨c, hrun, -⟩ := closedByTask_run
  have hrun' : Pool.Run (claiming Bool).world (programs Bool)
      (start (fun _ => .basic false 1) (.initial true))
      (closedByTask.take 9 ++ closedByTask.drop 9) c := hrun
  have hgate : gateAfter true (closedByTask.take 9) = false := rfl
  have hpost : ∀ l ∈ closedByTask.drop 9, Label.written l ≠ some true := by
    simp [closedByTask, Label.written]
  have hlate : .invoke false ∉ closedByTask.take 9 := by simp [closedByTask]
  exact ⟨hgate, (closed_gate_turns_away hrun' hgate hpost hlate).1⟩

end DoubleChecked
