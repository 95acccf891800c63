import DoubleChecked.Transcripts

/-!
# A poisoning mutex over a sequence of invocations

The mutex is poisoned by a guard dropped during an unwind, and a poisoned mutex
panics instead of being acquired. Invocations of any executors follow one another on
one such mutex; everything else they call answers as it likes.
-/

namespace DoubleChecked
open Effect

variable {P R E C π : Type}

structure Mutex where
  held : Bool
  poisoned : Bool
  deriving DecidableEq

/-- The lock calls of an invocation as the mutex answers them. A guard's destructor
frees the mutex also if it panics. -/
def Mutex.Reacts (m : Mutex) (o : Call P R E C π) (r : o.Answer) (m' : Mutex) : Prop :=
  o.admits r ∧ match o, r with
    | .lock, .ret _ => m.held = false ∧ m.poisoned = false ∧ m' = { m with held := true }
    | .lock, .panic _ => m.held = false ∧ m.poisoned = true ∧ m' = m
    | .dropGuard unwinding, _ =>
      m.held = true ∧ m' = { held := false, poisoned := m.poisoned || unwinding }
    | _, _ => m' = m

def CallEvent.poisons : CallEvent P R E C π → Bool
  | ⟨.predicate, .panic _⟩ => true
  | ⟨.task, .panic _⟩ => true
  | ⟨.taskWithToken _, (.panic _, _)⟩ => true
  | _ => false

def panickedInside (es : List (CallEvent P R E C π)) : Bool := es.tail.any CallEvent.poisons

def Answer.endsWith [PanicPayload π] (phase : PanicPhase) (p : π) : Answer R E C π → Prop
  | .outcome x => x = .unwind p
  | .captured x => x = .ret (.error (.fromPayload phase p))
  | .lifecycle x => x = .unwind p
  | .lifecycleCaptured x =>
    ∃ rollback, x = .ret (.executionPanicked (.fromPayload phase p) rollback)

/-- The calls of an invocation that met a poisoned mutex. -/
structure Repelled [PanicPayload π] (i : Invocation) (es : List (CallEvent P R E C π))
    (a : Answer R E C π) (p : π) : Prop where
  notChecked : (tally es).checked = 1
  notStarted : (tally es).started = 0
  ends : a.endsWith .lockAcquisition p
  rolledBack : ∀ t, ⟨.prepare, .ret (.ok t)⟩ ∈ es →
    if i.hasRollback then
      ∃ r, ⟨.rollback t (.panicked (.fromPayload .lockAcquisition p)), r⟩ ∈ es
    else ∃ r, ⟨.dropToken .scope t, r⟩ ∈ es

structure Record (π : Type) where
  P : Type
  R : Type
  E : Type
  C : Type
  invocation : Invocation
  events : List (CallEvent P R E C π)
  answer : Answer R E C π

inductive Session [PanicPayload π] : List (Record π) → Mutex → Prop
  | nil : Session [] ⟨false, false⟩
  | snoc {records : List (Record π)} {m m' : Mutex} (x : Record π) : Session records m →
      Program.Exec Mutex.Reacts x.invocation.program m x.events x.answer m' →
      Session (records ++ [x]) m'

def Verdict.poisons : Verdict R E C π → Bool
  | .panicked .secondConditionCheck _ | .panicked .task _ => true
  | _ => false

def Station.poisons : Station P R E C π → Bool
  | .releasing _ v | .skipping _ v | .finalizing _ v | .ended v _ _ => v.poisons
  | _ => false

section Poisons
variable {token : Option P} {v : Verdict R E C π}

theorem Station.poisons_settle : (settle token v).poisons = v.poisons := by
  cases token <;> rfl

theorem Station.poisons_afterRelease (b : Bool) :
    (afterRelease token v b).poisons = v.poisons := by
  cases b with
  | false => rfl
  | true => exact poisons_settle

theorem Station.poisons_afterSkip (cleanup : Option π) :
    (afterSkip token v cleanup).poisons = v.poisons := by
  unfold afterSkip
  split
  · exact poisons_settle
  · exact poisons_settle
  · exact poisons_settle
  · rfl

end Poisons

theorem panickedInside_snoc {es : List (CallEvent P R E C π)} (hes : es ≠ [])
    (e : CallEvent P R E C π) :
    panickedInside (es ++ [e]) = (panickedInside es || e.poisons) := by
  rw [panickedInside, List.tail_append_of_ne_nil hes]
  simp [panickedInside]

structure Station.Traced (q : Station P R E C π) (es : List (CallEvent P R E C π)) : Prop where
  fresh : q = .fresh ↔ es = []
  inside : panickedInside es = q.poisons
  aligned : ∀ token v, q = .releasing token v → v.unwinding = v.poisons

namespace Station.Traced
variable {q q' : Station P R E C π} {es : List (CallEvent P R E C π)} {e : CallEvent P R E C π}

theorem first (hq : Station.fresh.Traced es) (hne : q' ≠ .fresh) (hp : q'.poisons = false)
    (ha : ∀ token v, q' ≠ .releasing token v) : q'.Traced (es ++ [e]) := by
  obtain rfl := hq.fresh.mp rfl
  exact ⟨⟨fun h => absurd h hne, nofun⟩, hp.symm, fun token v h => absurd h (ha token v)⟩

theorem snoc (hq : q.Traced es) (hne : q ≠ .fresh) (hne' : q' ≠ .fresh)
    (hp : q'.poisons = (q.poisons || e.poisons))
    (ha : ∀ token v, q' = .releasing token v → v.unwinding = v.poisons) :
    q'.Traced (es ++ [e]) := by
  refine ⟨⟨fun h => absurd h hne', fun h => ?_⟩, ?_, ha⟩
  · simp at h
  · rw [panickedInside_snoc (fun h => hne (hq.fresh.mpr h)), hq.inside, hp]

theorem outside (hq : q.Traced es) (hne : q ≠ .fresh) (he : e.poisons = false)
    (ho : q'.Outside) (hp : q'.poisons = q.poisons) : q'.Traced (es ++ [e]) :=
  hq.snoc hne ho.notFresh (by rw [hp, he, Bool.or_false])
    (fun token v h => absurd h (ho.notReleasing token v))

end Station.Traced

section Step
variable [PanicPayload π] {i : Invocation} {m₀ m m' : Mutex} {q q' : Station P R E C π}
  {o : Call P R E C π} {r : o.Answer} {es : List (CallEvent P R E C π)} {a : Answer R E C π}

theorem traced_step (hq : q.Traced es) (h : i.Step q o r q') : q'.Traced (es ++ [⟨o, r⟩]) := by
  cases h with
  | accept =>
    cases hp : i.prepares with
    | true => exact hq.first nofun rfl nofun
    | false => exact hq.first nofun rfl nofun
  | reject | checkPanic => exact hq.first nofun rfl nofun
  | prepare | prepareFail | preparePanic | acquire | acquirePanic | recheck =>
    exact hq.snoc nofun nofun rfl nofun
  | recheckReject | recheckPanic | taskReturn | taskPanic | tokenTaskReturn | tokenTaskPanic =>
    refine hq.snoc nofun nofun rfl ?_
    intro token v hv
    cases hv
    rfl
  | release token v u =>
    exact hq.outside nofun rfl (outside_afterRelease _) (Station.poisons_afterRelease _)
  | releasePanic token v p hv =>
    have hp : v.poisons = false := (hq.aligned token v rfl).symm.trans hv
    exact hq.outside nofun rfl (outside_afterRelease _)
      ((Station.poisons_afterRelease _).trans hp.symm)
  | skip | skipPanic =>
    exact hq.outside nofun rfl (outside_afterSkip _) (Station.poisons_afterSkip _)
  | commit | rollback | dropToken | discardEarly | discardLate =>
    exact hq.outside nofun rfl ⟨nofun, nofun, rfl, rfl⟩ rfl

structure Mutex.Tracks (m₀ : Mutex) (es : List (CallEvent P R E C π)) (q : Station P R E C π)
    (m : Mutex) : Prop where
  traced : q.Traced es
  held : m.held = q.holds
  poisoned : m.poisoned = (m₀.poisoned || (!q.holds && q.poisons))
  repelled : m₀.poisoned = true → ∀ r, ⟨.lock, r⟩ ∈ es → r.panicked = true

theorem Mutex.Tracks.stay (ht : m₀.Tracks es q m) (hs : i.Step q o r q') (hm : m' = m)
    (ho : o ≠ .lock) (hh : q'.holds = q.holds) (hp : q.holds = false → q'.poisons = q.poisons) :
    m₀.Tracks (es ++ [⟨o, r⟩]) q' m' := by
  subst hm
  refine ⟨traced_step ht.traced hs, ht.held.trans hh.symm, ?_, fun h₀ r' hr' => ?_⟩
  · rw [ht.poisoned, hh]
    cases hq : q.holds with
    | true => rfl
    | false => rw [hp hq]
  · rcases List.mem_append.mp hr' with hr' | hr'
    · exact ht.repelled h₀ r' hr'
    · exact absurd (congrArg Event.op (List.mem_singleton.mp hr')).symm ho

omit [PanicPayload π] in
theorem Mutex.Tracks.release {token : Option P} {v w : Verdict R E C π} {x : Reply π Unit}
    (ht : m₀.Tracks es (.releasing token v) m)
    (htraced : (Station.afterRelease token w v.started).Traced
      (es ++ [⟨.dropGuard v.unwinding, x⟩]))
    (hw : w.poisons = v.unwinding)
    (hm : m' = { held := false, poisoned := m.poisoned || v.unwinding }) :
    m₀.Tracks (es ++ [⟨.dropGuard v.unwinding, x⟩]) (.afterRelease token w v.started) m' := by
  have ho : (Station.afterRelease token w v.started).Outside := outside_afterRelease _
  refine ⟨htraced, ?_, ?_, fun h₀ r hr => ?_⟩
  · rw [hm, ho.holds]
  · have hp := ht.poisoned
    simp only [Station.holds, Bool.not_true, Bool.false_and, Bool.or_false] at hp
    simp only [hm, hp, ho.holds, Station.poisons_afterRelease, hw, Bool.not_false, Bool.true_and]
  · rcases List.mem_append.mp hr with hr | hr
    · exact ht.repelled h₀ r hr
    · exact nomatch List.mem_singleton.mp hr

theorem Mutex.tracks_step (ht : m₀.Tracks es q m) (hs : i.Step q o r q') (hr : m.Reacts o r m') :
    m₀.Tracks (es ++ [⟨o, r⟩]) q' m' := by
  have hs' := hs
  cases hs with
  | accept =>
    cases hp : i.prepares with
    | true => exact ht.stay (by rwa [hp] at hs') hr.2 nofun rfl fun _ => rfl
    | false => exact ht.stay (by rwa [hp] at hs') hr.2 nofun rfl fun _ => rfl
  | reject => exact ht.stay hs' hr.2 nofun rfl fun _ => rfl
  | checkPanic p => exact ht.stay hs' hr.2 nofun rfl fun _ => rfl
  | prepare t => exact ht.stay hs' hr.2 nofun rfl fun _ => rfl
  | prepareFail c => exact ht.stay hs' hr.2 nofun rfl fun _ => rfl
  | preparePanic p => exact ht.stay hs' hr.2 nofun rfl fun _ => rfl
  | acquire token u =>
    obtain ⟨-, -, hp, rfl⟩ := hr
    have hm := ht.poisoned
    simp only [hp, Station.poisons, Bool.and_false, Bool.or_false] at hm
    refine ⟨traced_step ht.traced hs', rfl, ?_, fun h₀ => nomatch hm.trans h₀⟩
    simp only [hp, ← hm, Station.poisons, Bool.and_false, Bool.or_false]
  | acquirePanic token p =>
    obtain ⟨-, -, -, rfl⟩ := hr
    refine ⟨traced_step ht.traced hs', ht.held, ht.poisoned, fun h₀ r' hr' => ?_⟩
    rcases List.mem_append.mp hr' with hr' | hr'
    · exact ht.repelled h₀ r' hr'
    · cases List.mem_singleton.mp hr'
      rfl
  | recheck token => exact ht.stay hs' hr.2 nofun rfl nofun
  | recheckReject token => exact ht.stay hs' hr.2 nofun rfl nofun
  | recheckPanic token p => exact ht.stay hs' hr.2 nofun rfl nofun
  | taskReturn token result => exact ht.stay hs' hr.2 nofun rfl nofun
  | taskPanic token p => exact ht.stay hs' hr.2 nofun rfl nofun
  | tokenTaskReturn t t' result => exact ht.stay hs' hr.2 nofun rfl nofun
  | tokenTaskPanic t t' p => exact ht.stay hs' hr.2 nofun rfl nofun
  | release token v u =>
    exact ht.release (traced_step ht.traced hs') (ht.traced.aligned token v rfl).symm hr.2.2
  | releasePanic token v p hv =>
    exact ht.release (traced_step ht.traced hs') hv.symm hr.2.2
  | skip token v u =>
    exact ht.stay hs' hr.2 nofun (outside_afterSkip _).holds fun _ => Station.poisons_afterSkip _
  | skipPanic token v p hv =>
    exact ht.stay hs' hr.2 nofun (outside_afterSkip _).holds fun _ => Station.poisons_afterSkip _
  | commit t v r hv hc => exact ht.stay hs' hr.2 nofun rfl fun _ => rfl
  | rollback t v cause r hv hc => exact ht.stay hs' hr.2 nofun rfl fun _ => rfl
  | dropToken t v r hf => exact ht.stay hs' hr.2 nofun rfl fun _ => rfl
  | discardEarly t v mode w r => exact ht.stay hs' hr.2 nofun rfl fun _ => rfl
  | discardLate v cleanup f mode w r => exact ht.stay hs' hr.2 nofun rfl fun _ => rfl

theorem endsWith_lockAcquisition {p : π} {f : Finalization C π} :
    (i.answer (.panicked .lockAcquisition p) none f : Answer R E C π).endsWith
      .lockAcquisition p := by
  match i with
  | .basic false _ => exact rfl
  | .basic true _ => exact rfl
  | .lifecycle _ _ false _ => exact rfl
  | .lifecycle _ _ true _ => exact ⟨_, rfl⟩

theorem path_repelled {token : Option P} {p : π} {v : Verdict R E C π} {cleanup : Option π}
    {f : Finalization C π}
    (h : i.monitor.Path (.skipping token (.panicked .lockAcquisition p)) es (.ended v cleanup f)) :
    v = .panicked .lockAcquisition p ∧ cleanup = none ∧
      ∀ t, token = some t → ∃ e ∈ es, i.Finalizes t v e f := by
  obtain ⟨rest, rfl, hrest⟩ := path_unwinding h
  obtain ⟨rfl, rfl, hend⟩ := ending_of_path_settle hrest
  refine ⟨rfl, rfl, fun t ht => ?_⟩
  subst ht
  cases hend with
  | @finalized _ before after e _ hbefore hf hafter => exact ⟨e, by simp, hf⟩

omit [PanicPayload π] in
theorem token_of_prepared {token : Option P} {t : P} {pre post : List (CallEvent P R E C π)}
    {x : Reply π Unit} (hlaw : CallLaw i (pre ++ ⟨.lock, x⟩ :: post)) (hopen : Opening i token pre)
    (ht : ⟨.prepare, .ret (.ok t)⟩ ∈ pre ++ ⟨.lock, x⟩ :: post) : token = some t := by
  rcases List.mem_append.mp ht with ht | ht
  · cases hopen with
    | unprepared => simp at ht
    | prepared t' =>
      rcases List.mem_cons.mp ht with ht | ht
      · cases ht
      · cases List.mem_singleton.mp ht
        rfl
  · rcases List.mem_cons.mp ht with ht | ht
    · cases ht
    · obtain ⟨before, after, rfl⟩ := List.append_of_mem ht
      have hl := (hlaw.lawful (pre ++ ⟨.lock, x⟩ :: before) ⟨.prepare, .ret (.ok t)⟩ after
        (by simp)).2
      cases hopen <;> cases hl

theorem repelled_of_path {v : Verdict R E C π} {cleanup : Option π} {f : Finalization C π}
    (h : i.monitor.Path .fresh es (.ended v cleanup f)) {p : π} (hp : ⟨.lock, .panic p⟩ ∈ es)
    (hall : ∀ r, ⟨.lock, r⟩ ∈ es → r.panicked = true) :
    Repelled i es (i.answer v cleanup f) p := by
  have hlaw := callLaw_of_path h
  have hacquired : (tally es).acquired = 0 := by
    apply List.countP_eq_zero.mpr
    intro e hmem ha
    obtain ⟨o, r⟩ := e
    match o, r, ha with
    | .lock, .ret u, _ => exact nomatch hall _ hmem
  have hchecked := hlaw.checkedOnce
  have hstarted := hlaw.startedInside
  obtain ⟨x, rest, hfirst⟩ := hlaw.first
  have hpos : 0 < (tally es).checked := by
    rw [hfirst]
    exact List.countP_pos_iff.mpr ⟨_, List.mem_cons_self, rfl⟩
  obtain ⟨pre, post, rfl⟩ := List.append_of_mem hp
  obtain ⟨q₁, hpre, hpost⟩ := Monitor.path_append.mp h
  cases hpost with
  | cons allowed hr hrest =>
    cases q₁ with
    | acquiring token =>
      have hopen : Opening i token pre := reached_of_path hpre
      obtain ⟨rfl, rfl, hlast⟩ := path_repelled hrest
      refine ⟨by omega, by omega, endsWith_lockAcquisition, fun t ht => ?_⟩
      obtain ⟨e, he, hf⟩ := hlast t (token_of_prepared hlaw hopen ht)
      have he' := List.mem_append_right pre (List.mem_cons_of_mem ⟨.lock, .panic p⟩ he)
      cases hf with
      | commit r hv => exact nomatch hv
      | rollback cause r hv hc =>
        cases hv
        rw [if_pos hc]
        exact ⟨r, he'⟩
      | dropToken r hn =>
        rw [if_neg (fun hc => nomatch hc.symm.trans hn)]
        exact ⟨r, he'⟩
    | _ => exact allowed.elim

theorem exec_mutex (hx : Program.Exec Mutex.Reacts i.program m₀ es a m) (hm : m₀.held = false) :
    m.held = false ∧ m.poisoned = (m₀.poisoned || panickedInside es) ∧
      (m₀.poisoned = true → ∀ r, ⟨.lock, r⟩ ∈ es → ∃ p, r = .panic p ∧ Repelled i es a p) := by
  obtain ⟨q, hpath, ⟨v, cleanup, f, rfl, rfl⟩, ht⟩ := hx.follows (J := m₀.Tracks) (program_wp i)
    ⟨⟨⟨fun _ => rfl, fun _ => rfl⟩, rfl, nofun⟩, hm, (Bool.or_false _).symm, nofun⟩
    (fun _ _ _ _ h => h.1)
    (fun _ _ _ _ _ _ ht ha hr hR => Mutex.tracks_step ht (Invocation.step_of_allows ha hr) hR)
  refine ⟨ht.held, ?_, fun h₀ r hr => ?_⟩
  · rw [ht.poisoned, ht.traced.inside]
    rfl
  · have hall := ht.repelled h₀
    cases r with
    | ret u => exact nomatch hall _ hr
    | panic p => exact ⟨p, rfl, repelled_of_path hpath hr hall⟩

end Step

/-- After every invocation the mutex is free, and poisoned exactly if a second check or
a task has panicked; from then on an invocation that tries to acquire it ends with
that panic. -/
theorem session_poisoning [PanicPayload π] {records : List (Record π)} {m : Mutex}
    (h : Session records m) :
    m.held = false ∧ (m.poisoned = true ↔ ∃ x ∈ records, panickedInside x.events = true) ∧
      ∀ before x after, records = before ++ x :: after →
        (∃ y ∈ before, panickedInside y.events = true) → ∀ r, ⟨.lock, r⟩ ∈ x.events →
          ∃ p, r = .panic p ∧ Repelled x.invocation x.events x.answer p := by
  induction h with
  | nil => exact ⟨rfl, by simp, by simp⟩
  | @snoc records m m' x _ hx ih =>
    obtain ⟨hheld, hpoisoned, hrepelled⟩ := ih
    obtain ⟨hheld', hpoisoned', hrepelled'⟩ := exec_mutex hx hheld
    refine ⟨hheld', ?_, ?_⟩
    · rw [hpoisoned', Bool.or_eq_true, hpoisoned]
      simp only [List.mem_append, List.mem_singleton, or_and_right, exists_or, exists_eq_left]
    · intro before y after hsplit hbefore r hr
      rcases List.eq_nil_or_concat after with rfl | ⟨after, z, rfl⟩
      · obtain ⟨rfl, ⟨⟩⟩ := List.append_inj' hsplit rfl
        exact hrepelled' (hpoisoned.mpr hbefore) r hr
      · have hsplit' : records ++ [x] = (before ++ y :: after) ++ [z] := by simpa using hsplit
        exact hrepelled before y after (List.append_inj' hsplit' rfl).1 hbefore r hr

def taskPanics : Record String where
  P := ℕ
  R := ℕ
  E := ℕ
  C := ℕ
  invocation := .basic false 0
  events := [⟨.predicate, .ret true⟩, ⟨.lock, .ret ()⟩, ⟨.predicate, .ret true⟩,
    ⟨.task, .panic "task"⟩, ⟨.dropGuard true, .ret ()⟩]
  answer := .outcome (.unwind "task")

def lockPanics : Record String where
  P := ℕ
  R := ℕ
  E := ℕ
  C := ℕ
  invocation := .lifecycle .rollbackOnly true true 1
  events := [⟨.predicate, .ret true⟩, ⟨.prepare, .ret (.ok 3)⟩, ⟨.lock, .panic "poisoned"⟩,
    ⟨.dropTask true, .ret ()⟩,
    ⟨.rollback 3 (.panicked (.fromPayload .lockAcquisition "poisoned")), .ret (.ok ())⟩]
  answer := .lifecycleCaptured (.ret (.executionPanicked
    (.fromPayload .lockAcquisition "poisoned") .succeeded))

theorem session_poisoning_taskPanics : Session [taskPanics, lockPanics] ⟨false, true⟩ ∧
    ∃ p, Repelled lockPanics.invocation lockPanics.events lockPanics.answer p := by
  have hfirst : Program.Exec Mutex.Reacts taskPanics.invocation.program ⟨false, false⟩
      taskPanics.events taskPanics.answer ⟨false, true⟩ :=
    .call ⟨trivial, rfl⟩ (.call ⟨trivial, rfl, rfl, rfl⟩ (.call ⟨trivial, rfl⟩
      (.call ⟨trivial, rfl⟩ (.call ⟨fun _ => rfl, rfl, rfl⟩ (.pure _ _)))))
  have hsecond : Program.Exec Mutex.Reacts lockPanics.invocation.program ⟨false, true⟩
      lockPanics.events lockPanics.answer ⟨false, true⟩ :=
    .call ⟨trivial, rfl⟩ (.call ⟨trivial, rfl⟩ (.call ⟨trivial, rfl, rfl, rfl⟩
      (.call ⟨fun _ => rfl, rfl⟩ (.call ⟨trivial, rfl⟩ (.pure _ _)))))
  have hsession : Session [taskPanics, lockPanics] ⟨false, true⟩ :=
    .snoc lockPanics (.snoc taskPanics .nil hfirst) hsecond
  obtain ⟨-, -, hrepelled⟩ := session_poisoning hsession
  obtain ⟨p, -, hp⟩ := hrepelled [taskPanics] lockPanics [] rfl
    ⟨taskPanics, List.mem_cons_self, rfl⟩ (.panic "poisoned") (.tail _ (.tail _ (.head _)))
  exact ⟨hsession, p, hp⟩

end DoubleChecked
