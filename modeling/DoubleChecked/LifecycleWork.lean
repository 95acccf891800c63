import DoubleChecked.Effect.Projection
import DoubleChecked.LockFirst

/-!
# Failing executions on shared state

Tasks and sections work on the shared state under the lock; a task may depend on its token
and may end with a panic. The predicate reads the gate or panics, and everything else may
fail or panic too: prepare, the finalizers, the acquisition of the lock, the destructors. A
run of such invocations shows as a run of basic ones in which nothing panics: a task's panic
shows as an error, a panic after the task does not show, and of an invocation that gives up
before it has made its second check nothing shows but that it was invoked.
-/

namespace DoubleChecked
open Effect

variable {P R E C π ι κ δ : Type}

/-- How a task ends, with a panic as a second kind of error. -/
def taskEnd : Reply π (Except E R) → Except (E ⊕ π) R
  | .ret (.ok value) => .ok value
  | .ret (.error error) => .error (.inl error)
  | .panic p => .error (.inr p)

structure LifecycleWorkload (P R E π ι κ δ : Type) where
  tasks : ι → Option P → Body δ (Except (E ⊕ π) R)
  sections : κ → Body δ Unit

namespace LifecycleWorkload
variable (W : LifecycleWorkload P R E π ι κ δ)

def fixed (slots : ι → Option P) : Workload R (E ⊕ π) ι κ δ where
  tasks i := W.tasks i (slots i)
  sections := W.sections

variable [DecidableEq ι] [DecidableEq κ]

def world : World (Calls P R E C π) ι (WorkState R (E ⊕ π) ι κ δ) (WorkAct ι κ) where
  enter i o s s' := match o with
    | .task => s' = { s with running := Function.update s.running i (some (W.tasks i none)) }
    | .taskWithToken t =>
      s' = { s with running := Function.update s.running i (some (W.tasks i (some t))) }
    | _ => s' = s
  leave i o r s s' := o.admits r ∧ match o, r with
    | .predicate, .ret b => b = s.shared.gate ∧ s' = s
    | .lock, .ret _ => s.holder = none ∧ s' = { s with holder := some (.inl i) }
    | .task, r | .taskWithToken _, (r, _) => s.running i = some (.done (taskEnd r)) ∧
      s' = { s with running := Function.update s.running i none }
    | .dropGuard _, _ => s' = { s with holder := none }
    | _, _ => s' = s
  act x s s' := (W.fixed fun _ => none).Acts x s s'

theorem admits_of_leave (i : ι) (o : Call P R E C π) (r : o.Answer)
    (s s' : WorkState R (E ⊕ π) ι κ δ) (h : W.world.leave i o r s s') : o.admits r :=
  h.1

theorem acts_fixed {slots slots' : ι → Option P} {x : WorkAct ι κ}
    {s s' : WorkState R (E ⊕ π) ι κ δ} (h : (W.fixed slots).Acts x s s') :
    (W.fixed slots').Acts x s s' := by
  cases h with
  | task hb hstep => exact .task hb hstep
  | acquire hpending hfree => exact .acquire hpending hfree
  | sectionStep hb hstep => exact .sectionStep hb hstep
  | release hdone => exact .release hdone

end LifecycleWorkload

/-- The invocation `i` gives up: its predicate or the acquisition panics, or its prepare makes
no token. -/
inductive Loses (i : ι) : InvocationLabel P R E C π ι (WorkAct ι κ) → Prop
  | check (p : π) : Loses i (.leave i .predicate (.panic p))
  | prepare (r : Reply π (Except C P)) : (∀ t, r ≠ .ret (.ok t)) → Loses i (.leave i .prepare r)
  | lock (p : π) : Loses i (.leave i .lock (.panic p))

def Fits (slots : ι → Option P) (l : InvocationLabel P R E C π ι (WorkAct ι κ)) : Prop :=
  match l with
  | .enter i .task => slots i = none
  | .enter i (.taskWithToken t) => slots i = some t
  | _ => True

def Invocation.plain (i : Invocation) : Invocation := .basic i.catching 0

inductive Call.Shows : Call P R E C π → Call P R (E ⊕ π) C π → Prop
  | predicate : Shows .predicate .predicate
  | lock : Shows .lock .lock
  | task : Shows .task .task
  | taskWithToken (t : P) : Shows (.taskWithToken t) .task
  | dropGuard (u u' : Bool) : Shows (.dropGuard u) (.dropGuard u')
  | dropTask (u u' : Bool) : Shows (.dropTask u) (.dropTask u')

def Call.hidden : Call P R E C π → Bool
  | .prepare | .commit _ | .rollback _ _ | .dropToken _ _ | .discard _ _ => true
  | _ => false

inductive Verdict.Means : Verdict R E C π → Verdict R (E ⊕ π) C π → Prop
  | conditionNotMet : Means .conditionNotMet .conditionNotMet
  | returned (result : Except E R) : Means (.returned result) (.returned (taskEnd (.ret result)))
  | panicked (p : π) : Means (.panicked .task p) (.returned (taskEnd (.panic p)))

inductive Verdict.Tells : Verdict R E C π → Verdict R (E ⊕ π) C π → Prop
  | notAdmitted : Tells .notAdmitted .notAdmitted
  | means {v : Verdict R E C π} {v' : Verdict R (E ⊕ π) C π} : v.Means v' → Tells v v'
  | released {v : Verdict R E C π} {v' : Verdict R (E ⊕ π) C π} (p : π) : v.Means v' →
      v.unwinding = false → Tells (.panicked .lockRelease p) v'
  | cleaned (p : π) : Tells (.panicked .taskCleanup p) .conditionNotMet

/-- The station of a basic invocation that a station shows as. -/
inductive Station.Shows : Station P R E C π → Station P R (E ⊕ π) C π → Prop
  | fresh : Shows .fresh .fresh
  | admitted : Shows .admitted (.acquiring none)
  | acquiring (token : Option P) : Shows (.acquiring token) (.acquiring none)
  | guarded (token : Option P) : Shows (.guarded token) (.guarded none)
  | cleared (token : Option P) : Shows (.cleared token) (.cleared none)
  | releasing (token : Option P) {v : Verdict R E C π} {v' : Verdict R (E ⊕ π) C π} :
      v.Means v' → Shows (.releasing token v) (.releasing none v')
  | skipping (token : Option P) {v : Verdict R E C π} {v' : Verdict R (E ⊕ π) C π} :
      v.Tells v' → Shows (.skipping token v) (.skipping none v')
  | finalizing (t : P) {v : Verdict R E C π} {v' : Verdict R (E ⊕ π) C π} :
      v.Tells v' → Shows (.finalizing t v) (.ended v' none .notReached)
  | ended {v : Verdict R E C π} {v' : Verdict R (E ⊕ π) C π} (cleanup : Option π)
      (f : Finalization C π) : v.Tells v' → Shows (.ended v cleanup f) (.ended v' none .notReached)

section Stations
variable {token : Option P} {v : Verdict R E C π} {v' : Verdict R (E ⊕ π) C π}

theorem Verdict.Means.started (h : v.Means v') : v'.started = v.started := by
  cases h <;> rfl

theorem afterSkip_plain : Station.afterSkip (P := P) none v' none = .ended v' none .notReached := by
  cases v' <;> rfl

theorem shows_settle (h : v.Tells v') :
    (Station.settle token v).Shows (.ended v' none .notReached) := by
  cases token with
  | none => exact .ended none .notReached h
  | some t => exact .finalizing t h

theorem shows_afterRelease (h : v.Tells v') (b : Bool) :
    (Station.afterRelease token v b).Shows (.afterRelease none v' b) := by
  cases b with
  | false => exact .skipping token h
  | true => exact shows_settle h

theorem shows_afterSkip (h : v.Tells v') (cleanup : Option π) :
    (Station.afterSkip token v cleanup).Shows (.ended v' none .notReached) := by
  cases v with
  | conditionNotMet =>
    cases cleanup with
    | none => exact shows_settle h
    | some p =>
      apply shows_settle
      cases h with
      | means hm =>
        cases hm
        exact .cleaned p
  | panicked phase p => exact shows_settle h
  | _ => exact .ended cleanup .notReached h

variable [PanicPayload π] {invocation : Invocation} {q q₁ : Station P R E C π}
  {q' : Station P R (E ⊕ π) C π} {o : Call P R E C π} {r : o.Answer}
variable [DecidableEq ι] [DecidableEq κ] {W : LifecycleWorkload P R E π ι κ δ}
  {slots : ι → Option P} {i : ι} {s s' : WorkState R (E ⊕ π) ι κ δ}

theorem leave_hidden (hq : q.Shows q') (ho : o.hidden = true) (h : invocation.Step q o r q₁)
    (hn : ¬Loses i (.leave i o r : InvocationLabel P R E C π ι (WorkAct ι κ)))
    (hw : W.world.leave i o r s s') : s' = s ∧ q₁.Shows q' := by
  cases h with
  | prepare t =>
    cases hq
    exact ⟨hw.2, .acquiring _⟩
  | prepareFail c => exact absurd (.prepare _ fun _ => nofun) hn
  | preparePanic p => exact absurd (.prepare _ fun _ => nofun) hn
  | commit | rollback | dropToken =>
    cases hq with
    | finalizing _ hv => exact ⟨hw.2, .ended _ _ hv⟩
  | discardEarly => exact ⟨hw.2, hq⟩
  | discardLate => exact ⟨hw.2, hq⟩
  | _ => exact nomatch ho

theorem leave_shown {o' : Call P R (E ⊕ π) C π} (hq : q.Shows q') (ho : o.Shows o')
    (ha : invocation.plain.allows q' o') (h : invocation.Step q o r q₁)
    (hn : ¬Loses i (.leave i o r : InvocationLabel P R E C π ι (WorkAct ι κ)))
    (hw : W.world.leave i o r s s') :
    ∃ r' q₁', q₁.Shows q₁' ∧ (W.fixed slots).world.leave i o' r' s s' ∧
      (invocation.plain.monitor.agent invocation.plain.returns).replies q' o' r' q₁' := by
  have htask {token : Option P} {x : Reply π (Except E R)} {v : Verdict R E C π}
      (hv : v.Means (.returned (taskEnd x))) (hx : s.running i = some (.done (taskEnd x)) ∧
        s' = { s with running := Function.update s.running i none }) :
      ∃ r' q₁', (Station.releasing token v).Shows q₁' ∧
        (W.fixed slots).world.leave i .task r' s s' ∧
        (invocation.plain.monitor.agent invocation.plain.returns).replies (.cleared none)
          (.task : Call P R (E ⊕ π) C π) r' q₁' :=
    ⟨.ret (taskEnd x), _, .releasing token hv, hx, trivial, trivial, rfl⟩
  cases h with
  | accept =>
    cases hq
    cases ho
    refine ⟨.ret true, .acquiring none, ?_, hw.2, trivial, trivial, rfl⟩
    cases invocation.prepares with
    | false => exact .acquiring none
    | true => exact .admitted
  | reject =>
    cases hq
    cases ho
    exact ⟨.ret false, _, .skipping none .notAdmitted, hw.2, trivial, trivial, rfl⟩
  | checkPanic p => exact absurd (.check p) hn
  | acquire token u =>
    cases hq
    cases ho
    exact ⟨.ret u, _, .guarded token, hw.2, trivial, trivial, rfl⟩
  | acquirePanic token p => exact absurd (.lock p) hn
  | recheck token =>
    cases hq
    cases ho
    exact ⟨.ret true, _, .cleared token, hw.2, trivial, trivial, rfl⟩
  | recheckReject token =>
    cases hq
    cases ho
    exact ⟨.ret false, _, .releasing token .conditionNotMet, hw.2, trivial, trivial, rfl⟩
  | recheckPanic token p => exact absurd (.check p) hn
  | taskReturn token result =>
    cases hq
    cases ho
    exact htask (.returned result) hw.2
  | taskPanic token p =>
    cases hq
    cases ho
    exact htask (.panicked p) hw.2
  | tokenTaskReturn t t' result =>
    cases hq
    cases ho
    exact htask (.returned result) hw.2
  | tokenTaskPanic t t' p =>
    cases hq
    cases ho
    exact htask (.panicked p) hw.2
  | release token v u =>
    cases hq with
    | releasing _ hm =>
      cases ho
      refine ⟨.ret (), _, ?_, hw.2, ha, fun _ => rfl, rfl⟩
      rw [← hm.started]
      exact shows_afterRelease (.means hm) _
  | releasePanic token v p hv =>
    cases hq with
    | releasing _ hm =>
      cases ho
      refine ⟨.ret (), _, ?_, hw.2, ha, fun _ => rfl, rfl⟩
      rw [← hm.started]
      exact shows_afterRelease (.released p hm hv) _
  | skip token v u =>
    cases hq with
    | skipping _ ht =>
      cases ho
      exact ⟨.ret (), _, shows_afterSkip ht none, hw.2, ha, fun _ => rfl, afterSkip_plain.symm⟩
  | skipPanic token v p hv =>
    cases hq with
    | skipping _ ht =>
      cases ho
      exact ⟨.ret (), _, shows_afterSkip ht (some p), hw.2, ha, fun _ => rfl,
        afterSkip_plain.symm⟩
  | _ => exact nomatch ho

theorem enter_shows (hq : q.Shows q') (ha : invocation.allows q o)
    (hfits : Fits slots (.enter i o : InvocationLabel P R E C π ι (WorkAct ι κ)))
    (hw : W.world.enter i o s s') : o.hidden = true ∧ s' = s ∨
      ∃ o', o.Shows o' ∧ invocation.plain.allows q' o' ∧
        (W.fixed slots).world.enter i o' s s' := by
  cases hq with
  | fresh =>
    cases o with
    | predicate => exact .inr ⟨_, .predicate, trivial, hw⟩
    | _ => exact ha.elim
  | admitted =>
    cases o with
    | prepare => exact .inl ⟨rfl, hw⟩
    | _ => exact ha.elim
  | acquiring token =>
    cases o with
    | lock => exact .inr ⟨_, .lock, trivial, hw⟩
    | _ => exact ha.elim
  | guarded token =>
    cases o with
    | predicate => exact .inr ⟨_, .predicate, trivial, hw⟩
    | _ => exact ha.elim
  | cleared token =>
    have hstart {slot : Option P} (hs : slots i = slot) :
        { s with running := Function.update s.running i (some (W.tasks i slot)) } =
          { s with running := Function.update s.running i (some ((W.fixed slots).tasks i)) } := by
      rw [← hs]
      rfl
    cases o with
    | task => exact .inr ⟨_, .task, trivial, hw.trans (hstart hfits)⟩
    | taskWithToken t => exact .inr ⟨_, .taskWithToken t, trivial, hw.trans (hstart hfits)⟩
    | _ => exact ha.elim
  | releasing token hm =>
    cases o with
    | dropGuard unwinding => exact .inr ⟨_, .dropGuard unwinding _, rfl, hw⟩
    | _ => exact ha.elim
  | skipping token ht =>
    cases o with
    | dropTask unwinding => exact .inr ⟨_, .dropTask unwinding _, rfl, hw⟩
    | _ => exact ha.elim
  | finalizing t ht =>
    cases o with
    | commit | rollback | dropToken | discard => exact .inl ⟨rfl, hw⟩
    | _ => exact ha.elim
  | ended cleanup f ht =>
    cases o with
    | discard mode w => exact .inl ⟨rfl, hw⟩
    | _ => exact ha.elim

theorem holds_of_dropGuard (ha : invocation.allows q o) (ho : o.isDropGuard = true) :
    q.holds = true := by
  cases o with
  | dropGuard u =>
    cases q with
    | releasing token v => rfl
    | _ => exact ha.elim
  | _ => exact absurd ho Bool.false_ne_true

end Stations

section States
variable {gone : ι → Prop} {s s₁ d : WorkState R E ι κ δ}

/-- The other state does not show the lock in the hands of somebody who is gone. -/
inductive StateShows (gone : ι → Prop) (s : WorkState R E ι κ δ) : WorkState R E ι κ δ → Prop
  | same : (∀ i, s.holder = some (.inl i) → ¬gone i) → StateShows gone s s
  | free (i : ι) : s.holder = some (.inl i) → gone i → StateShows gone s { s with holder := none }

inductive Touches (step : WorkState R E ι κ δ → WorkState R E ι κ δ → Prop)
    (who : ι ⊕ κ → Prop) (held : Prop) (s s₁ : WorkState R E ι κ δ) : Prop
  | stays : s₁.holder = s.holder → (∀ h, step { s with holder := h } { s₁ with holder := h }) →
      Touches step who held s s₁
  | acquires (x : ι ⊕ κ) : s.holder = none → s₁.holder = some x → who x →
      Touches step who held s s₁
  | releases : held → s₁.holder = none → Touches step who held s s₁

theorem StateShows.sections (h : StateShows gone s d) : d.sections = s.sections := by
  cases h <;> rfl

theorem StateShows.shared (h : StateShows gone s d) : d.shared = s.shared := by
  cases h <;> rfl

theorem StateShows.step {step : WorkState R E ι κ δ → WorkState R E ι κ δ → Prop}
    {who : ι ⊕ κ → Prop} {held : Prop} (h : StateShows gone s d) (hs : step s s₁)
    (ht : Touches step who held s s₁) (hwho : ∀ i, who (.inl i) → ¬gone i)
    (hheld : held → ∃ x, d.holder = some x) : (∃ d₁, step d d₁ ∧ StateShows gone s₁ d₁) ∧
      ∀ j, gone j → s.holder = some (.inl j) → s₁.holder = some (.inl j) := by
  cases h with
  | same hn =>
    refine ⟨⟨s₁, hs, .same fun i hi => ?_⟩, fun j hj hh => absurd hj (hn j hh)⟩
    cases ht with
    | stays hh _ => exact hn i (hh ▸ hi)
    | acquires x _ hx hw => exact hwho i (Option.some.inj (hx.symm.trans hi) ▸ hw)
    | releases _ hnone => exact nomatch hnone.symm.trans hi
  | free i hi hg =>
    cases ht with
    | stays hh hframe =>
      exact ⟨⟨_, hframe none, .free i (hh.trans hi) hg⟩, fun j _ hj => hh.trans hj⟩
    | acquires x hfree _ _ => exact nomatch hfree.symm.trans hi
    | releases hx _ => exact nomatch (hheld hx).choose_spec

variable [DecidableEq ι] [DecidableEq κ] {V : Workload R E ι κ δ} {i : ι}

theorem touches_enter {o : Call P R E C π} (hw : V.world.enter i o s s₁) :
    Touches (V.world.enter i o) (fun _ => False) False s s₁ := by
  cases o with
  | _ =>
    obtain rfl := hw
    exact .stays rfl fun _ => rfl

theorem touches_leave {o : Call P R E C π} {r : o.Answer} (hw : V.world.leave i o r s s₁) :
    Touches (V.world.leave i o r) (· = .inl i) (o.isDropGuard = true) s s₁ := by
  cases o with
  | predicate =>
    cases r with
    | ret b =>
      obtain ⟨hb, rfl⟩ := hw
      exact .stays rfl fun _ => ⟨hb, rfl⟩
    | panic p => exact hw.elim
  | lock =>
    cases r with
    | ret u =>
      obtain ⟨hfree, rfl⟩ := hw
      exact .acquires _ hfree rfl rfl
    | panic p => exact hw.elim
  | task =>
    cases r with
    | ret result =>
      obtain ⟨hdone, rfl⟩ := hw
      exact .stays rfl fun _ => ⟨hdone, rfl⟩
    | panic p => exact hw.elim
  | dropGuard u =>
    cases r with
    | ret x =>
      obtain rfl := hw
      exact .releases rfl rfl
    | panic p => exact hw.elim
  | dropTask u =>
    cases r with
    | ret x =>
      obtain rfl := hw
      exact .stays rfl fun _ => rfl
    | panic p => exact hw.elim
  | _ => exact hw.elim

theorem touches_acts {x : WorkAct ι κ} (hw : V.Acts x s s₁) :
    Touches (V.Acts x) (fun x => ∃ k, x = .inr k) (∃ k b, s.sections k = .inside b) s s₁ := by
  cases hw with
  | task hb hstep => exact .stays rfl fun _ => .task hb hstep
  | acquire hpending hfree => exact .acquires _ hfree rfl ⟨_, rfl⟩
  | sectionStep hb hstep => exact .stays rfl fun _ => .sectionStep hb hstep
  | release hdone => exact .releases ⟨_, _, hdone⟩ rfl

end States

section Gone
variable [DecidableEq ι] [DecidableEq κ] [PanicPayload π] {W : LifecycleWorkload P R E π ι κ δ}
  {gone : ι → Prop} {i : ι} {s s₁ d : WorkState R (E ⊕ π) ι κ δ} {invocation : Invocation}
  {q q₁ : Station P R E C π} {o : Call P R E C π} {r : o.Answer}

theorem leave_gone (hstate : StateShows gone s d) (hg : gone i)
    (hguard : q.holds = true → s.holder = some (.inl i)) (ho : o.startsTask = false)
    (h : invocation.Step q o r q₁) (hw : W.world.leave i o r s s₁) : StateShows gone s₁ d ∧
      (q₁.holds = true → s₁.holder = some (.inl i)) ∧
      ∀ j, j ≠ i → s.holder = some (.inl j) → s₁.holder = some (.inl j) := by
  have hsame (hs : s₁ = s) (hq : q₁.holds = true → q.holds = true) : StateShows gone s₁ d ∧
      (q₁.holds = true → s₁.holder = some (.inl i)) ∧
      ∀ j, j ≠ i → s.holder = some (.inl j) → s₁.holder = some (.inl j) := by
    subst hs
    exact ⟨hstate, fun hh => hguard (hq hh), fun _ _ hj => hj⟩
  have hdrop (hs : s₁ = { s with holder := none }) (hq : q.holds = true)
      (hq₁ : q₁.holds = false) : StateShows gone s₁ d ∧
      (q₁.holds = true → s₁.holder = some (.inl i)) ∧
      ∀ j, j ≠ i → s.holder = some (.inl j) → s₁.holder = some (.inl j) := by
    subst hs
    have hheld := hguard hq
    refine ⟨?_, fun hh => absurd (hq₁.symm.trans hh) Bool.false_ne_true, fun j hj hh => ?_⟩
    · cases hstate with
      | same hn => exact absurd hg (hn i hheld)
      | free => exact .same nofun
    · exact absurd (Sum.inl.inj (Option.some.inj (hh.symm.trans hheld))) hj
  cases h with
  | accept =>
    refine hsame hw.2.2 ?_
    cases invocation.prepares <;> exact id
  | acquire token u =>
    obtain ⟨-, hfree, rfl⟩ := hw
    have hfree' : { s with holder := none } = s := by rw [← hfree]
    refine ⟨?_, fun _ => rfl, fun j _ hj => nomatch hfree.symm.trans hj⟩
    cases hstate with
    | same hn => exact hfree' ▸ .free i rfl hg
    | free j hj _ => exact nomatch hfree.symm.trans hj
  | reject | recheck | recheckReject => exact hsame hw.2.2 id
  | taskReturn | taskPanic | tokenTaskReturn | tokenTaskPanic =>
    exact absurd ho.symm Bool.false_ne_true
  | release => exact hdrop hw.2 rfl (outside_afterRelease _).holds
  | releasePanic => exact hdrop hw.2 rfl (outside_afterRelease _).holds
  | skip => exact hsame hw.2 (outside_afterSkip _).holds.symm.trans
  | skipPanic => exact hsame hw.2 (outside_afterSkip _).holds.symm.trans
  | _ => exact hsame hw.2 id

end Gone

section Pools
variable [PanicPayload π]

inductive PhaseShows (i : Invocation) (gone : Prop) :
    StationPhase P R E C π → StationPhase P R (E ⊕ π) C π → Prop
  | pending : PhaseShows i gone (.pending .fresh) (.pending .fresh)
  | idle {q : Station P R E C π} {q' : Station P R (E ⊕ π) C π} : ¬gone → q.Shows q' →
      PhaseShows i gone (.idle q) (.idle q')
  | calling {q : Station P R E C π} {q' : Station P R (E ⊕ π) C π} {o : Call P R E C π}
      {o' : Call P R (E ⊕ π) C π} : ¬gone → q.Shows q' → o.Shows o' → i.plain.allows q' o' →
      PhaseShows i gone (.inside q o) (.inside q' o')
  | hidden {q : Station P R E C π} {q' : Station P R (E ⊕ π) C π} {o : Call P R E C π} :
      ¬gone → q.Shows q' → o.hidden = true → PhaseShows i gone (.inside q o) (.idle q')
  | finished {q : Station P R E C π} {q' : Station P R (E ⊕ π) C π} (a : Answer R E C π)
      (a' : Answer R (E ⊕ π) C π) : ¬gone → q.Shows q' →
      PhaseShows i gone (.finished q a) (.finished q' a')
  | gone {p : StationPhase P R E C π} : gone → (∀ q, p ≠ .pending q) → Phase.inTask p = false →
      PhaseShows i gone p (.idle .fresh)

/-- The other pool is in the same state but for the lock in the hands of those who are gone. -/
structure PoolShows [DecidableEq ι] (invocations : ι → Invocation) (gone : ι → Prop)
    (c : StationPool P R E C π ι (WorkState R (E ⊕ π) ι κ δ))
    (d : StationPool P R (E ⊕ π) C π ι (WorkState R (E ⊕ π) ι κ δ)) : Prop where
  phases : ∀ i, PhaseShows (invocations i) (gone i) (c.phases i) (d.phases i)
  state : StateShows gone c.state d.state
  guards : ∀ i, gone i → Phase.holds (c.phases i) = true → c.state.holder = some (.inl i)
  inStep : InStep d

structure KeepsMembers (gone : ι → Prop) (l : InvocationLabel P R E C π ι (WorkAct ι κ))
    (m : List (InvocationLabel P R (E ⊕ π) C π ι (WorkAct ι κ))) : Prop where
  begins : ∀ y, Label.begins l = some y → ∃ l' ∈ m, Label.begins l' = some y
  ends : ∀ x, Label.ends l = some x →
    (∃ l' ∈ m, Label.ends l' = some x) ∨ ∃ i, x = .inl i ∧ gone i

variable [DecidableEq ι] {invocations : ι → Invocation} {gone : ι → Prop} {slots : ι → Option P}
  {c c' : StationPool P R E C π ι (WorkState R (E ⊕ π) ι κ δ)}
  {d : StationPool P R (E ⊕ π) C π ι (WorkState R (E ⊕ π) ι κ δ)}
  {l : InvocationLabel P R E C π ι (WorkAct ι κ)}

theorem PoolShows.move (h : PoolShows invocations gone c d) {i : ι} {p : StationPhase P R E C π}
    {p' : StationPhase P R (E ⊕ π) C π} {s s' : WorkState R (E ⊕ π) ι κ δ}
    (hp : PhaseShows (invocations i) (gone i) p p') (hstate : StateShows gone s s')
    (hguard : gone i → Phase.holds p = true → s.holder = some (.inl i))
    (hothers : ∀ j, j ≠ i → gone j → c.state.holder = some (.inl j) → s.holder = some (.inl j))
    (hd : InStep (d.move i p' s')) :
    PoolShows invocations gone (c.move i p s) (d.move i p' s') where
  phases j := by
    by_cases hj : j = i
    · subst hj
      simpa using hp
    · simpa [Pool.move_phases_of_ne _ hj] using h.phases j
  state := hstate
  guards := c.forall_move s
    (motive := fun i p => gone i → Phase.holds p = true → s.holder = some (.inl i)) hguard
    fun j hj hg hh => hothers j hj hg (h.guards j hg hh)
  inStep := hd

variable [DecidableEq κ] {W : LifecycleWorkload P R E π ι κ δ}

def Answers (W : LifecycleWorkload P R E π ι κ δ) (invocations : ι → Invocation)
    (gone : ι → Prop) (slots : ι → Option P) (l : InvocationLabel P R E C π ι (WorkAct ι κ))
    (c' : StationPool P R E C π ι (WorkState R (E ⊕ π) ι κ δ))
    (d : StationPool P R (E ⊕ π) C π ι (WorkState R (E ⊕ π) ι κ δ)) : Prop :=
  ∃ m d', KeepsMembers gone l m ∧
    Pool.Run (W.fixed slots).world (stations fun i => (invocations i).plain) d m d' ∧
    PoolShows invocations gone c' d'

theorem PoolShows.seen (h : PoolShows invocations gone c d) {i : ι} {p : StationPhase P R E C π}
    {p' : StationPhase P R (E ⊕ π) C π} {s s' : WorkState R (E ⊕ π) ι κ δ}
    {l' : InvocationLabel P R (E ⊕ π) C π ι (WorkAct ι κ)} (hkeeps : KeepsMembers gone l [l'])
    (hs : Pool.Step (W.fixed slots).world (stations fun i => (invocations i).plain) d l'
      (d.move i p' s'))
    (hp : PhaseShows (invocations i) (gone i) p p') (hstate : StateShows gone s s')
    (hguard : gone i → Phase.holds p = true → s.holder = some (.inl i))
    (hothers : ∀ j, gone j → c.state.holder = some (.inl j) → s.holder = some (.inl j)) :
    Answers W invocations gone slots l (c.move i p s) d :=
  ⟨[l'], _, hkeeps, .single hs, h.move hp hstate hguard (fun j _ => hothers j)
    (inStep_step (fun _ => rfl) h.inStep hs)⟩

theorem PoolShows.unseen (h : PoolShows invocations gone c d) {i : ι} {p : StationPhase P R E C π}
    {s : WorkState R (E ⊕ π) ι κ δ} (hkeeps : KeepsMembers gone l [])
    (hp : PhaseShows (invocations i) (gone i) p (d.phases i))
    (hstate : StateShows gone s d.state)
    (hguard : gone i → Phase.holds p = true → s.holder = some (.inl i))
    (hothers : ∀ j, j ≠ i → gone j → c.state.holder = some (.inl j) → s.holder = some (.inl j)) :
    Answers W invocations gone slots l (c.move i p s) d := by
  have hd : d.move i (d.phases i) d.state = d := Pool.move_self d i d.state
  have hmoved := h.move hp hstate hguard hothers (hd.symm ▸ h.inStep)
  rw [hd] at hmoved
  exact ⟨[], d, hkeeps, .refl, hmoved⟩

theorem enter_answered (hfits : Fits slots l)
    (hquiet : ∀ i o, gone i → l = .enter i o → o.startsTask = false)
    (h : PoolShows invocations gone c d) {i : ι} {q : Station P R E C π} {o : Call P R E C π}
    {s : WorkState R (E ⊕ π) ι κ δ} (hl : l = .enter i o) (hq : c.phases i = .idle q)
    (ha : (invocations i).allows q o) (hw : W.world.enter i o c.state s) :
    Answers W invocations gone slots l (c.move i (.inside q o) s) d := by
  have hkeeps (m : List (InvocationLabel P R (E ⊕ π) C π ι (WorkAct ι κ))) :
      KeepsMembers gone l m := by
    subst hl
    exact ⟨nofun, nofun⟩
  have hp := h.phases i
  have hguard := h.guards i
  rw [hq] at hp hguard
  generalize hd : d.phases i = p at hp
  cases hp with
  | idle hn hshows =>
    rcases enter_shows hshows ha (hl ▸ hfits) hw with ⟨ho, rfl⟩ | ⟨o', ho, ha', hw'⟩
    · exact h.unseen (hkeeps _) (hd ▸ .hidden hn hshows ho) h.state (fun hg => absurd hg hn)
        fun _ _ _ hj => hj
    · obtain ⟨⟨s', hs', hstate⟩, hothers⟩ :=
        h.state.step hw' (touches_enter hw') (fun _ hf => hf.elim) fun hf => hf.elim
      exact h.seen (hkeeps _) (.enter hd ha' hs') (.calling hn hshows ho ha') hstate
        (fun hg => absurd hg hn) hothers
  | gone hg hp ht =>
    have ho := hquiet i o hg hl
    have hs : s = c.state := by
      cases o with
      | task | taskWithToken t => exact absurd ho.symm Bool.false_ne_true
      | _ => exact hw
    subst hs
    exact h.unseen (hkeeps _) (hd ▸ .gone hg (fun _ => nofun) ho) h.state hguard fun _ _ _ hj => hj

theorem leave_answered (hgone : ∀ i, Loses i l → gone i) (h : PoolShows invocations gone c d)
    {i : ι} {q q₁ : Station P R E C π} {o : Call P R E C π} {r : o.Answer}
    {s : WorkState R (E ⊕ π) ι κ δ} (hl : l = .leave i o r) (hq : c.phases i = .inside q o)
    (hstep : (invocations i).Step q o r q₁) (hw : W.world.leave i o r c.state s) :
    Answers W invocations gone slots l (c.move i (.idle q₁) s) d := by
  have hkeeps (m : List (InvocationLabel P R (E ⊕ π) C π ι (WorkAct ι κ))) :
      KeepsMembers gone l m := by
    subst hl
    exact ⟨nofun, nofun⟩
  have hp := h.phases i
  have hguard := h.guards i
  rw [hq] at hp hguard
  generalize hd : d.phases i = p at hp
  have hkept (hn : ¬gone i) :
      ¬Loses i (.leave i o r : InvocationLabel P R E C π ι (WorkAct ι κ)) :=
    fun hloses => hn (hgone i (hl ▸ hloses))
  cases hp with
  | @calling _ _ _ o' hn hshows ho ha =>
    obtain ⟨r', q', hshows', hw', ha'⟩ := leave_shown hshows ho ha hstep (hkept hn) hw
    have hheld (hdrop : o'.isDropGuard = true) : ∃ x, d.state.holder = some x := by
      refine ⟨_, (h.inStep.guard i).mpr ?_⟩
      rw [hd]
      exact holds_of_dropGuard ha hdrop
    have hwho (j : ι) (hj : (.inl j : ι ⊕ κ) = .inl i) : ¬gone j := Sum.inl.inj hj ▸ hn
    obtain ⟨⟨s', hs', hstate⟩, hothers⟩ := h.state.step hw' (touches_leave hw') hwho hheld
    exact h.seen (hkeeps _) (.leave hd ha' hs') (.idle hn hshows') hstate (fun hg => absurd hg hn)
      hothers
  | hidden hn hshows ho =>
    obtain ⟨rfl, hshows'⟩ := leave_hidden hshows ho hstep (hkept hn) hw
    exact h.unseen (hkeeps _) (hd ▸ .idle hn hshows') h.state (fun hg => absurd hg hn)
      fun _ _ _ hj => hj
  | gone hg _ ht =>
    obtain ⟨hstate, hheld, hothers⟩ := leave_gone h.state hg (hguard hg) ht hstep hw
    exact h.unseen (hkeeps _) (hd ▸ .gone hg (fun _ => nofun) rfl) hstate (fun _ => hheld)
      fun j hj _ => hothers j hj

theorem shows_step (hfits : Fits slots l) (hgone : ∀ i, Loses i l → gone i)
    (hquiet : ∀ i o, gone i → l = .enter i o → o.startsTask = false)
    (h : PoolShows invocations gone c d)
    (hs : Pool.Step W.world (stations invocations) c l c') :
    Answers W invocations gone slots l c' d := by
  cases hs with
  | @invoke i b hb =>
    have hp := h.phases i
    rw [hb] at hp
    generalize hd : d.phases i = p at hp
    cases hp with
    | pending =>
      have hp' : PhaseShows (invocations i) (gone i) (.idle .fresh : StationPhase P R E C π)
          (.idle .fresh) := by
        by_cases hg : gone i
        · exact .gone hg (fun _ => nofun) rfl
        · exact .idle hg .fresh
      exact h.seen ⟨fun y hy => ⟨_, List.mem_singleton_self _, hy⟩, nofun⟩ (.invoke hd) hp' h.state
        (fun _ => nofun) fun _ _ hj => hj
    | gone _ hp => exact absurd rfl (hp b)
  | @enter i q o s hq ha hw => exact enter_answered hfits hquiet h rfl hq ha hw
  | @leave i q q₁ o r s hq ha hw =>
    exact leave_answered hgone h rfl hq (step_of_replies ha) hw
  | @finish i q a hq ha =>
    have hp := h.phases i
    rw [hq] at hp
    generalize hd : d.phases i = p at hp
    cases hp with
    | idle hn hshows =>
      obtain ⟨v, cleanup, f, rfl, -⟩ := ended_of_returns ha
      cases hshows with
      | @ended _ v' _ _ ht =>
        exact h.seen ⟨nofun, fun x hx => .inl ⟨_, List.mem_singleton_self _, hx⟩⟩
          (.finish hd ⟨v', none, .notReached, rfl, rfl⟩) (.finished a _ hn (.ended cleanup f ht))
          h.state (fun _ => nofun) fun _ _ hj => hj
    | gone hg _ _ =>
      refine h.unseen ⟨nofun, fun x hx => .inr ⟨i, ?_, hg⟩⟩ (hd ▸ .gone hg (fun _ => nofun) rfl)
        h.state (fun _ => nofun) fun _ _ _ hj => hj
      cases hx
      rfl
  | @act x s hw =>
    have hw' : (W.fixed slots).Acts x c.state s := W.acts_fixed hw
    have hheld (hk : ∃ k b, c.state.sections k = .inside b) : ∃ x, d.state.holder = some x := by
      obtain ⟨k, b, hb⟩ := hk
      exact ⟨_, (h.inStep.section_iff k).mpr ⟨b, by rw [h.state.sections, hb]⟩⟩
    obtain ⟨⟨s', hs', hstate⟩, hothers⟩ :=
      h.state.step hw' (touches_acts hw') (fun _ hk => nomatch hk.choose_spec) hheld
    have hstep : Pool.Step (W.fixed slots).world (stations fun i => (invocations i).plain) d
        (.act x) ⟨d.phases, s'⟩ := .act hs'
    have hshows : PoolShows invocations gone ⟨c.phases, s⟩ ⟨d.phases, s'⟩ :=
      ⟨h.phases, hstate, fun i hg hh => hothers i hg (h.guards i hg hh),
        inStep_step (fun _ => rfl) h.inStep hstep⟩
    cases x <;> exact ⟨[.act _], _, ⟨fun y hy => ⟨_, List.mem_singleton_self _, hy⟩,
      fun y hy => .inl ⟨_, List.mem_singleton_self _, hy⟩⟩, .single hstep, hshows⟩

end Pools
end DoubleChecked
