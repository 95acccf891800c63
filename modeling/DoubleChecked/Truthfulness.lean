import DoubleChecked.Openings
import DoubleChecked.Transcripts

/-!
# Answers tell the truth about the gate

Whatever the discipline of gate writes and the modes of the lock: an invocation that
answers that the condition was not met has seen the gate closed during its own call, and
a task is only started by an invocation that has seen it open under the guard it still
holds.
-/

namespace DoubleChecked
open Effect

variable {P R E C π ι κ : Type}

def Answer.notMet : Answer R E C π → Bool
  | .outcome (.ret .conditionNotMet) | .captured (.ret (.ok .conditionNotMet)) => true
  | .lifecycle (.ret .initialConditionNotMet) => true
  | .lifecycle (.ret (.secondConditionNotMet _)) => true
  | .lifecycleCaptured (.ret .initialConditionNotMet) => true
  | .lifecycleCaptured (.ret (.secondConditionNotMet _)) => true
  | _ => false

def gateAfter (gate : Bool) (ls : List (InvocationLabel P R E C π ι (Outside ι κ))) : Bool :=
  (gateHistory gate ls).2

section Blame
variable [PanicPayload π] {i : Invocation} {v : Verdict R E C π} {cleanup : Option π}
  {f : Finalization C π} {es : List (CallEvent P R E C π)}

theorem verdict_of_notMet (h : (i.answer v cleanup f).notMet = true) :
    v = .notAdmitted ∨ v = .conditionNotMet := by
  cases v with
  | notAdmitted => exact .inl rfl
  | conditionNotMet => exact .inr rfl
  | returned result =>
    cases i with
    | basic catching clones => cases catching <;> cases result <;> exact nomatch h
    | lifecycle finalizers withToken catching clones =>
      cases catching with
      | true => cases result <;> exact nomatch h
      | false =>
        rcases f with _ | (⟨_ | _⟩ | _) | (_ | _) <;> cases result <;> exact nomatch h
  | prepareFailed c =>
    cases i with
    | basic catching clones => cases catching <;> exact nomatch h
    | lifecycle finalizers withToken catching clones =>
      cases catching <;> cases cleanup <;> exact nomatch h
  | _ =>
    cases i with
    | basic catching clones => cases catching <;> exact nomatch h
    | lifecycle finalizers withToken catching clones => cases catching <;> exact nomatch h

theorem rejected_of_notMet (h : Transcript i es v cleanup f)
    (ha : (i.answer v cleanup f).notMet = true) : ⟨.predicate, .ret false⟩ ∈ es := by
  have hv := verdict_of_notMet ha
  cases h with
  | notAdmitted x hes => exact List.mem_cons_self
  | checkPanicked | prepareFailed | preparePanicked => exact absurd hv nofun
  | locked hopen hmid hend =>
    cases hmid with
    | rejected => simp
    | _ => exact absurd hv nofun

end Blame

section Gate
variable [DecidableEq ι] [DecidableEq κ] {D : Setting ι} {α B : Type} {gate : Bool}

theorem gate_of_leave {i : ι} {o : Call P R E C π} {r : o.Answer} {s s' : GateState ι κ}
    (h : D.world.leave i o r s s') : s'.gate = s.gate := by
  obtain ⟨-, h⟩ := h
  match o, r, h with
  | .predicate, .ret _, h => rw [h.2]
  | .lock, .ret _, h => rw [h.2]
  | .task, _, h => rw [h.2]
  | .taskWithToken _, _, h => rw [h.2]
  | .predicate, .panic _, h | .lock, .panic _, h => rw [h]
  | .prepare, _, h | .commit _, _, h | .rollback _ _, _, h => rw [h]
  | .dropGuard _, _, h | .dropTask _, _, h | .dropToken _ _, _, h => rw [h]
  | .discard _ _, _, h => rw [h]

theorem gate_of_act {x : Outside ι κ} {s s' : GateState ι κ}
    (h : (D.world (P := P) (R := R) (E := E) (C := C) (π := π)).act x s s') (n : ℕ) :
    (opened (n, s.gate) x.written).2 = s'.gate := by
  cases x with
  | write b =>
    obtain ⟨-, rfl⟩ := h
    cases b <;> rfl
  | taskWrite i b =>
    obtain ⟨-, -, rfl⟩ := h
    cases b <;> rfl
  | acquire k m =>
    obtain ⟨-, rfl⟩ := h
    rfl
  | release k =>
    obtain ⟨-, rfl⟩ := h
    rfl
  | sectionWrite k b =>
    obtain ⟨-, rfl⟩ := h
    cases b <;> rfl

theorem gateAfter_of_run {A : ι → Agent (Calls P R E C π) (Answer R E C π) B}
    {c₀ c : Pool (Calls P R E C π) ι (GateState ι κ) (Answer R E C π) B}
    {ls : List (InvocationLabel P R E C π ι (Outside ι κ))} (h : Pool.Run D.world A c₀ ls c) :
    gateAfter c₀.state.gate ls = c.state.gate := by
  refine h.invariant (I := fun ls c => gateAfter c₀.state.gate ls = c.state.gate) rfl ?_
  intro ls c l c' hc hs
  rw [gateAfter] at hc ⊢
  rw [gateHistory_snoc]
  generalize gateHistory c₀.state.gate ls = x at hc ⊢
  obtain ⟨n, g⟩ := x
  obtain rfl : g = c.state.gate := hc
  cases hs with
  | invoke | finish => rfl
  | @enter i b o s hi ha hw =>
    change s = if o.startsTask then _ else _ at hw
    split at hw <;> rw [hw] <;> rfl
  | leave hi ha hw => exact (gate_of_leave hw).symm
  | act hw => exact gate_of_act hw n

end Gate

section Runs
variable [DecidableEq ι] [DecidableEq κ] [PanicPayload π] {D : Setting ι}
  {invocations : ι → Invocation} {gate : Bool}
  {ls : List (InvocationLabel P R E C π ι (Outside ι κ))}
  {c : InvocationPool P R E C π ι (GateState ι κ)}

theorem gate_of_check {i : ι} {met : Bool}
    (h : Pool.Run D.world (programs ι) (start invocations (.initial gate)) ls c)
    {pre post : List (InvocationLabel P R E C π ι (Outside ι κ))}
    (hls : ls = pre ++ .leave i .predicate (.ret met) :: post) :
    gateAfter gate pre = met ∧ .invoke i ∈ pre ∧ ∀ a, .finish i a ∉ pre := by
  subst hls
  obtain ⟨c₁, c₂, hrun, hs, -⟩ := h.split_at
  cases hs with
  | @leave _ b _ _ _ s hi ha hw =>
    obtain ⟨-, hmet, -⟩ := hw
    refine ⟨(gateAfter_of_run hrun).trans hmet.symm, hrun.invoke_mem ⟨_, rfl⟩ ?_, fun a ha => ?_⟩
    · rw [hi]
      exact fun _ => nofun
    · obtain ⟨b', hb'⟩ := hrun.finished_of_mem ha
      exact nomatch hi.symm.trans hb'

/-- Whatever the modes of the lock and the discipline of gate writes: an answer that the
condition was not met is true of some moment of that call, and whenever a task is started,
its invocation has seen the gate open under the guard that it has held since. -/
theorem answers_truthful
    (h : Pool.Run D.world (programs ι) (start invocations (.initial gate)) ls c) :
    (∀ i x a, c.phases i = .finished x a → a.notMet = true →
      ∃ pre post, ls = pre ++ post ∧ .invoke i ∈ pre ∧ (∀ a, .finish i a ∉ pre) ∧
        gateAfter gate pre = false) ∧
    ∀ i o pre post, ls = pre ++ .enter i o :: post → o.startsTask = true →
      ∃ before mid, pre = before ++ .leave i .predicate (.ret true) :: mid ∧
        gateAfter gate before = true ∧ GuardHeld (eventsOf i before) ∧ eventsOf i mid = [] := by
  refine ⟨fun i x a hx ha => ?_, fun i o pre post hls ho => ?_⟩
  · obtain ⟨d, hrun, hm⟩ := run_stations h
    have hpath := station_path hrun i
    have hlegal := hrun.legal (fun _ => trivial) i
    obtain ⟨q, hq⟩ := hm.finished_iff.mp ⟨x, hx⟩
    rw [hq] at hpath hlegal
    obtain ⟨v, cleanup, f, rfl, rfl⟩ := ended_of_returns hlegal
    have hmem := mem_eventsOf.mp (rejected_of_notMet (transcript_of_path hpath) ha)
    obtain ⟨pre, post, hls⟩ := List.append_of_mem hmem
    obtain ⟨hgate, hinvoked, hopen⟩ := gate_of_check h hls
    exact ⟨pre, _, hls, hinvoked, hopen, hgate⟩
  · subst hls
    obtain ⟨c₁, c₂, hrun, hs, -⟩ := h.split_at
    obtain ⟨d, hrun', hm⟩ := run_stations hrun
    obtain ⟨d', hs', -⟩ := hs.simulate hm station_simulation D.admits_of_leave
    have hreached := reached_of_path (station_path hrun' i)
    cases hs' with
    | @enter _ q _ _ hi hallows hw =>
      rw [hi] at hreached
      cases q with
      | cleared token =>
        obtain ⟨before, hevents, hbefore⟩ := hreached
        obtain ⟨before, mid, rfl, rfl, hmid⟩ := split_of_eventsOf hevents
        exact ⟨before, mid, rfl, (gate_of_check hrun rfl).1, guardHeld_of hbefore Nat.one_pos, hmid⟩
      | _ => exact nomatch isCleared_of_allows hallows ho

end Runs

def closedByTask : List (InvocationLabel ℕ ℕ ℕ ℕ String Bool (Outside Bool Unit)) :=
  [.invoke true, .enter true .predicate, .leave true .predicate (.ret true), .enter true .lock,
    .leave true .lock (.ret ()), .enter true .predicate, .leave true .predicate (.ret true),
    .enter true .task, .act (.taskWrite true false), .invoke false, .enter false .predicate,
    .leave false .predicate (.ret false), .enter false (.dropTask false),
    .leave false (.dropTask false) (.ret ()), .finish false (.outcome (.ret .conditionNotMet))]

theorem closedByTask_run : ∃ c : InvocationPool ℕ ℕ ℕ ℕ String Bool (GateState Bool Unit),
    Pool.Run (claiming Bool).world (programs Bool)
      (start (fun _ => .basic false 1) (.initial true)) closedByTask c ∧
    ∃ x, c.phases false = .finished x (.outcome (.ret .conditionNotMet)) := by
  refine ⟨_, .head (.invoke rfl) (.head (.enter rfl ⟨_, rfl⟩ rfl)
    (.head (.leave rfl ⟨_, rfl, rfl⟩ ⟨trivial, rfl, rfl⟩) (.head (.enter rfl ⟨_, rfl⟩ rfl)
    (.head (.leave rfl ⟨_, rfl, rfl⟩ ⟨trivial, fun _ => rfl, rfl⟩)
    (.head (.enter rfl ⟨_, rfl⟩ rfl)
    (.head (.leave rfl ⟨_, rfl, rfl⟩ ⟨trivial, rfl, rfl⟩) (.head (.enter rfl ⟨_, rfl⟩ rfl)
    (.head (.act ⟨rfl, rfl, rfl⟩) (.head (.invoke rfl) (.head (.enter rfl ⟨_, rfl⟩ rfl)
    (.head (.leave rfl ⟨_, rfl, rfl⟩ ⟨trivial, rfl, rfl⟩) (.head (.enter rfl ⟨_, rfl⟩ rfl)
    (.head (.leave rfl ⟨_, rfl, rfl⟩ ⟨fun _ => rfl, rfl⟩) (.head (.finish rfl rfl)
    .refl)))))))))))))), _, rfl⟩

theorem answers_truthful_closedByTask :
    ∃ pre post, closedByTask = pre ++ post ∧ .invoke false ∈ pre ∧
      (∀ a, .finish false a ∉ pre) ∧ gateAfter true pre = false := by
  obtain ⟨c, hrun, x, hx⟩ := closedByTask_run
  exact (answers_truthful hrun).1 false x _ hx rfl

end DoubleChecked
