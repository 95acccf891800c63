import DoubleChecked.Poisoning
import DoubleChecked.Invocations

/-!
# A poisoning mutex under concurrent invocations

Any number of invocations wait for one mutex and interleave as they like; everything
else they call answers as it likes. One panic under the guard is all there ever is: it
poisons the mutex, and nobody gets in again.
-/

namespace DoubleChecked
open Effect

variable {P R E C π ι : Type}

def mutexWorld (ι : Type) : World (Calls P R E C π) ι Mutex Empty where
  enter _ _ m m' := m' = m
  leave _ o r m m' := m.Reacts o r m'
  act _ _ _ := False

inductive Mutex.Moves (m : Mutex) (q q' : Station P R E C π) : Mutex → Prop
  | acquire : m.held = false → m.poisoned = false → q'.poisons = false →
      Moves m q q' { m with held := true }
  | inside : q.holds = true → q'.holds = true → Moves m q q' m
  | release : q.holds = true → q'.holds = false → q'.poisons = q.poisons →
      Moves m q q' { held := false, poisoned := m.poisoned || q.poisons }
  | outside : q.holds = false → q'.holds = false → q'.poisons = q.poisons → Moves m q q' m

section Calls
variable [PanicPayload π] {i : Invocation} {m m' : Mutex} {q q' : Station P R E C π}
  {o : Call P R E C π} {r : o.Answer} {es : List (CallEvent P R E C π)}

theorem Mutex.moves_of_step (ht : q.Traced es) (h : i.Step q o r q') (hr : m.Reacts o r m') :
    m.Moves q q' m' := by
  obtain ⟨-, hr⟩ := hr
  cases h with
  | accept =>
    obtain rfl := hr
    cases hp : i.prepares with
    | true => exact .outside rfl rfl rfl
    | false => exact .outside rfl rfl rfl
  | acquire token u =>
    obtain ⟨hh, hp, rfl⟩ := hr
    exact .acquire hh hp rfl
  | acquirePanic token p =>
    obtain ⟨-, -, rfl⟩ := hr
    exact .outside rfl rfl rfl
  | recheck | recheckReject | recheckPanic | taskReturn | taskPanic | tokenTaskReturn
  | tokenTaskPanic =>
    obtain rfl := hr
    exact .inside rfl rfl
  | release token v u =>
    obtain ⟨-, rfl⟩ := hr
    rw [ht.aligned token v rfl]
    exact .release rfl (outside_afterRelease _).holds (Station.poisons_afterRelease _)
  | releasePanic token v p hv =>
    obtain ⟨-, rfl⟩ := hr
    have hp := ht.aligned token v rfl
    rw [hp]
    exact .release rfl (outside_afterRelease _).holds
      ((Station.poisons_afterRelease _).trans (hv.symm.trans hp))
  | skip | skipPanic =>
    obtain rfl := hr
    exact .outside rfl (outside_afterSkip _).holds (Station.poisons_afterSkip _)
  | reject | checkPanic | prepare | prepareFail | preparePanic =>
    obtain rfl := hr
    exact .outside rfl rfl rfl
  | commit | rollback | dropToken | discardEarly | discardLate =>
    obtain rfl := hr
    exact .outside rfl rfl rfl

theorem traced_of_path (h : i.monitor.Path .fresh es q) : q.Traced es :=
  h.invariant (I := fun es q => q.Traced es) ⟨⟨fun _ => rfl, fun _ => rfl⟩, rfl, nofun⟩
    fun _ _ _ _ hq ha hr => traced_step hq (Invocation.step_of_allows ha hr)

omit [PanicPayload π] in
theorem guardHeld_iff (h : q.Reached i es) : GuardHeld es ↔ q.holds = true := by
  have hnot (hn : ¬GuardHeld es) (hq : q.holds = false) : GuardHeld es ↔ q.holds = true :=
    ⟨fun hg => absurd hg hn, fun hh => nomatch hq.symm.trans hh⟩
  cases q with
  | fresh =>
    obtain rfl := h
    exact hnot (Nat.lt_irrefl 0) rfl
  | admitted =>
    obtain ⟨-, rfl⟩ := h
    exact hnot (Nat.lt_irrefl 0) rfl
  | acquiring token => exact hnot (not_guardHeld_of h.tally (Nat.le_refl 0)) rfl
  | guarded token => exact ⟨fun _ => rfl, fun _ => guardHeld_of h Nat.one_pos⟩
  | cleared token =>
    obtain ⟨before, rfl, hb⟩ := h
    exact ⟨fun _ => rfl, fun _ => guardHeld_of (tally_snoc hb _) Nat.one_pos⟩
  | releasing token v => exact ⟨fun _ => rfl, fun _ => guardHeld_of h.1 Nat.one_pos⟩
  | skipping token v =>
    obtain ⟨-, c, a, -, -, -, ht⟩ := h
    exact hnot (not_guardHeld_of ht (Nat.le_refl a)) rfl
  | finalizing t v => exact hnot (lawful_finalizing h).1 rfl
  | ended v cleanup f => exact hnot (lawful_ended h).1 rfl

end Calls

/-- Whoever holds the mutex is alone and found it clean; it is poisoned by the one that
has panicked inside, once that one is out. -/
structure Mutex.Serves (m : Mutex) (b : ι → Station P R E C π) : Prop where
  holder : ∀ i, (b i).holds = true → m.held = true ∧ m.poisoned = false ∧
    ∀ j, (b j).holds = true → j = i
  poisoned : m.poisoned = true ↔ ∃ i, (b i).poisons = true ∧ (b i).holds = false
  single : ∀ i j, (b i).poisons = true → (b j).poisons = true → j = i

section Stations
variable [DecidableEq ι] {m m' : Mutex} {b : ι → Station P R E C π} {i : ι}
  {q' : Station P R E C π}

theorem apply_update {γ : Type} {f : Station P R E C π → γ} (h : f q' = f (b i)) (j : ι) :
    f (Function.update b i q' j) = f (b j) := by
  by_cases hj : j = i
  · subst hj
    rwa [Function.update_self]
  · rw [Function.update_of_ne hj]

omit [DecidableEq ι] in
theorem Mutex.Serves.congr {b' : ι → Station P R E C π} (h : m.Serves b)
    (hholds : ∀ j, (b' j).holds = (b j).holds) (hpoisons : ∀ j, (b' j).poisons = (b j).poisons) :
    m.Serves b' where
  holder := by simpa only [hholds] using h.holder
  poisoned := by simpa only [hholds, hpoisons] using h.poisoned
  single := by simpa only [hpoisons] using h.single

omit [DecidableEq ι] in
theorem Mutex.Serves.eq_of_poisons (h : m.Serves b) (hi : (b i).holds = true) {j : ι}
    (hj : (b j).poisons = true) : j = i := by
  obtain ⟨-, hclean, halone⟩ := h.holder i hi
  cases hh : (b j).holds with
  | true => exact halone j hh
  | false => exact nomatch hclean.symm.trans (h.poisoned.mpr ⟨j, hj, hh⟩)

theorem Mutex.Serves.acquire (h : m.Serves b) (hfree : m.held = false)
    (hclean : m.poisoned = false) (hp : q'.poisons = false) :
    Mutex.Serves { m with held := true } (Function.update b i q') := by
  have hnobody (j : ι) : (b j).holds = false :=
    Bool.eq_false_iff.mpr fun hj => nomatch hfree.symm.trans (h.holder j hj).1
  have hpoisons (j : ι) : (b j).poisons = false := Bool.eq_false_iff.mpr fun hj =>
    nomatch hclean.symm.trans (h.poisoned.mpr ⟨j, hj, hnobody j⟩)
  have hnone (j : ι) : (Function.update b i q' j).poisons = false :=
    (apply_update (f := Station.poisons) (hp.trans (hpoisons i).symm) j).trans (hpoisons j)
  have honly (j : ι) (hj : (Function.update b i q' j).holds = true) : j = i := by
    by_contra hne
    rw [Function.update_of_ne hne] at hj
    exact nomatch (hnobody j).symm.trans hj
  refine ⟨fun j hj => ⟨rfl, hclean, fun k hk => ?_⟩,
    ⟨fun hm => (nomatch hclean.symm.trans hm), ?_⟩,
    fun j k hj => nomatch (hnone j).symm.trans hj⟩
  · rw [honly k hk, honly j hj]
  · intro hm
    obtain ⟨j, hj, -⟩ := hm
    exact nomatch (hnone j).symm.trans hj

theorem Mutex.Serves.inside (h : m.Serves b) (hi : (b i).holds = true) (hh : q'.holds = true) :
    m.Serves (Function.update b i q') := by
  have hholds (j : ι) : (Function.update b i q' j).holds = (b j).holds :=
    apply_update (f := Station.holds) (hh.trans hi.symm) j
  have hpoisons (j : ι) (hj : (Function.update b i q' j).poisons = true) : j = i := by
    by_contra hne
    rw [Function.update_of_ne hne] at hj
    exact hne (h.eq_of_poisons hi hj)
  refine ⟨by simpa only [hholds] using h.holder, ⟨fun hm => ?_, fun hm => ?_⟩, fun j k hj hk => ?_⟩
  · exact nomatch (h.holder i hi).2.1.symm.trans hm
  · obtain ⟨j, hj, hn⟩ := hm
    rw [hholds, hpoisons j hj, hi] at hn
    exact nomatch hn
  · rw [hpoisons j hj, hpoisons k hk]

theorem Mutex.Serves.release (h : m.Serves b) (hi : (b i).holds = true) (hh : q'.holds = false)
    (hp : q'.poisons = (b i).poisons) :
    Mutex.Serves { held := false, poisoned := m.poisoned || (b i).poisons }
      (Function.update b i q') := by
  obtain ⟨-, hclean, halone⟩ := h.holder i hi
  have hholds (j : ι) : (Function.update b i q' j).holds = false := by
    by_cases hj : j = i
    · subst hj
      rwa [Function.update_self]
    · rw [Function.update_of_ne hj]
      exact Bool.eq_false_iff.mpr fun hj' => hj (halone j hj')
  have hpoisons (j : ι) : (Function.update b i q' j).poisons = (b j).poisons :=
    apply_update (f := Station.poisons) hp j
  refine ⟨fun j hj => (nomatch (hholds j).symm.trans hj), ?_,
    by simpa only [hpoisons] using h.single⟩
  simp only [hclean, Bool.false_or, hholds, hpoisons, and_true]
  refine ⟨fun hq => ⟨i, hq⟩, fun hq => ?_⟩
  obtain ⟨j, hj⟩ := hq
  rwa [← h.eq_of_poisons hi hj]

theorem Mutex.Serves.moves (h : m.Serves b) (hm : m.Moves (b i) q' m') :
    m'.Serves (Function.update b i q') := by
  cases hm with
  | acquire hfree hclean hp => exact h.acquire hfree hclean hp
  | inside hi hh => exact h.inside hi hh
  | release hi hh hp => exact h.release hi hh hp
  | outside hi hh hp =>
    exact h.congr (apply_update (f := Station.holds) (hh.trans hi.symm))
      (apply_update (f := Station.poisons) hp)

end Stations

def Label.Repels (l : InvocationLabel P R E C π ι Empty) : Prop :=
  match l with
  | .enter _ o => o.startsTask = false
  | .leave _ .lock r => r.panicked = true
  | _ => True

section Runs
variable [DecidableEq ι] [PanicPayload π] {invocations : ι → Invocation}
  {c c' : StationPool P R E C π ι Mutex} {ls ls' : List (InvocationLabel P R E C π ι Empty)}
  {l : InvocationLabel P R E C π ι Empty}

omit [PanicPayload π] in
theorem bodies_move (i : ι) (p : StationPhase P R E C π) (m : Mutex) :
    (fun j => ((c.move i p m).phases j).body) =
      Function.update (fun j => (c.phases j).body) i p.body := by
  funext j
  exact c.forall_move m
    (motive := fun j p' => p'.body = Function.update (fun j => (c.phases j).body) i p.body j)
    (Function.update_self i p.body fun j => (c.phases j).body).symm
    (fun j hj => (Function.update_of_ne hj p.body fun j => (c.phases j).body).symm) j

theorem serves_of_run (h : Pool.Run (mutexWorld ι) (stations invocations)
      (startStations ⟨false, false⟩) ls c) : c.state.Serves fun i => (c.phases i).body := by
  induction h with
  | refl => exact ⟨nofun, ⟨nofun, fun hm => nomatch hm.choose_spec.1⟩, nofun⟩
  | @snoc ls l c c' hrun hs ih =>
    have hkeep {i : ι} {p : StationPhase P R E C π} (hp : p.body = (c.phases i).body) :
        (c.move i p c.state).state.Serves fun j => ((c.move i p c.state).phases j).body := by
      rw [bodies_move, hp, Function.update_eq_self]
      exact ih
    cases hs with
    | invoke hi => exact hkeep (by rw [hi]; rfl)
    | enter hi ha hw =>
      obtain rfl := hw
      exact hkeep (by rw [hi]; rfl)
    | @leave i q q' o r m hi ha hw =>
      have htraced := traced_of_path (station_path hrun i)
      rw [hi] at htraced
      rw [bodies_move]
      apply ih.moves
      rw [hi]
      exact Mutex.moves_of_step htraced (step_of_replies ha) hw
    | finish hi ha => exact hkeep (by rw [hi]; rfl)
    | act hw => exact hw.elim

theorem repels_step (h : c.state.Serves fun i => (c.phases i).body)
    (hpoisoned : c.state.poisoned = true)
    (hs : Pool.Step (mutexWorld ι) (stations invocations) c l c') :
    c'.state.poisoned = true ∧ Label.Repels l := by
  cases hs with
  | invoke hi => exact ⟨hpoisoned, trivial⟩
  | @enter i q o m hi ha hw =>
    obtain rfl := hw
    refine ⟨hpoisoned, ?_⟩
    cases ho : o.startsTask with
    | false => exact ho
    | true =>
      have hholds : (c.phases i).body.holds = true := by
        rw [hi]
        exact Station.holds_of_isCleared (isCleared_of_allows ha ho)
      exact nomatch (h.holder i hholds).2.1.symm.trans hpoisoned
  | @leave i q q' o r m hi ha hw =>
    obtain ⟨-, hw⟩ := hw
    cases o with
    | lock =>
      cases r with
      | ret u => exact nomatch hw.2.1.symm.trans hpoisoned
      | panic p =>
        obtain ⟨-, -, rfl⟩ := hw
        exact ⟨hpoisoned, rfl⟩
    | dropGuard u =>
      obtain ⟨-, rfl⟩ := hw
      exact ⟨by simp [hpoisoned], trivial⟩
    | _ =>
      obtain rfl := hw
      exact ⟨hpoisoned, trivial⟩
  | finish hi ha => exact ⟨hpoisoned, trivial⟩
  | act hw => exact hw.elim

theorem repels_run (h : Pool.Run (mutexWorld ι) (stations invocations)
      (startStations ⟨false, false⟩) ls c) (hpoisoned : c.state.poisoned = true)
    (h' : Pool.Run (mutexWorld ι) (stations invocations) c ls' c') :
    c'.state.poisoned = true ∧ ∀ l ∈ ls', Label.Repels l := by
  induction h' with
  | refl => exact ⟨hpoisoned, List.forall_mem_nil _⟩
  | @snoc ls' l c₁ c₂ hrun hs ih =>
    obtain ⟨hp, hls'⟩ := ih
    obtain ⟨hp', hl⟩ := repels_step (serves_of_run (h.append hrun)) hp hs
    exact ⟨hp', List.forall_mem_append.mpr ⟨hls', List.forall_mem_singleton.mpr hl⟩⟩

omit [DecidableEq ι] [PanicPayload π] in
theorem lock_unique {i : Invocation} {es : List (CallEvent P R E C π)} (h : CallLaw i es)
    {r r' : Reply π Unit} (hr : ⟨.lock, r⟩ ∈ es) (hr' : ⟨.lock, r'⟩ ∈ es) : r' = r := by
  have hopen {pre post : List (CallEvent P R E C π)} {x y : Reply π Unit}
      (he : es = pre ++ ⟨.lock, x⟩ :: post) : ⟨.lock, y⟩ ∉ pre := by
    obtain ⟨token, hopen⟩ := h.lawful pre _ post he
    cases hopen with
    | unprepared | prepared => simp
  obtain ⟨pre, post, he⟩ := List.append_of_mem hr
  rw [he] at hr'
  rcases List.mem_append.mp hr' with hr' | hr'
  · exact absurd hr' (hopen he)
  · rcases List.mem_cons.mp hr' with hr' | hr'
    · cases hr'
      rfl
    · obtain ⟨pre', post', rfl⟩ := List.append_of_mem hr'
      have he' : es = (pre ++ ⟨.lock, r⟩ :: pre') ++ ⟨.lock, r'⟩ :: post' := by simp [he]
      exact absurd (List.mem_append_right _ List.mem_cons_self) (hopen he' (y := r))

/-- Under every interleaving, one panic of a second check or a task is all there ever is
on one mutex, and the mutex is poisoned once the guard of that invocation is gone. From
then on no task is started, and whoever tries to acquire the mutex ends with the panic of
the acquisition, its token rolled back. -/
theorem poisoned_once {c : InvocationPool P R E C π ι Mutex}
    (h : Pool.Run (mutexWorld ι) (programs ι) (start invocations ⟨false, false⟩) ls c) :
    (∀ i j, panickedInside (eventsOf i ls) = true → panickedInside (eventsOf j ls) = true →
      j = i) ∧
    (c.state.poisoned = true ↔
      ∃ i, panickedInside (eventsOf i ls) = true ∧ ¬GuardHeld (eventsOf i ls)) ∧
    (c.state.poisoned = true → ∀ ls' c', Pool.Run (mutexWorld ι) (programs ι) c ls' c' →
      (∀ i o, .enter i o ∈ ls' → o.startsTask = false) ∧
      ∀ i r, .leave i .lock r ∈ ls' → ∃ p, r = .panic p ∧
        ∀ x a, c'.phases i = .finished x a →
          Repelled (invocations i) (eventsOf i (ls ++ ls')) a p) := by
  have hadmits (i : ι) (o : Call P R E C π) (r : o.Answer) (m m' : Mutex)
      (hw : (mutexWorld ι).leave i o r m m') : o.admits r := hw.1
  obtain ⟨d, hrun, hm⟩ := h.simulate start_matches station_simulation hadmits
  have hserves := serves_of_run hrun
  have hinside (i : ι) : panickedInside (eventsOf i ls) = (d.phases i).body.poisons :=
    (traced_of_path (station_path hrun i)).inside
  have hheld (i : ι) : GuardHeld (eventsOf i ls) ↔ (d.phases i).body.holds = true :=
    guardHeld_iff (reached_of_path (station_path hrun i))
  rw [hm.state]
  refine ⟨fun i j => ?_, ?_, fun hp ls' c' h' => ?_⟩
  · rw [hinside, hinside]
    exact hserves.single i j
  · simp only [hinside, hheld, Bool.not_eq_true]
    exact hserves.poisoned
  · obtain ⟨d', hrun', hm'⟩ := h'.simulate hm station_simulation hadmits
    obtain ⟨-, hrepels⟩ := repels_run hrun hp hrun'
    refine ⟨fun i o hl => hrepels _ hl, fun i r hl => ?_⟩
    cases r with
    | ret u => exact absurd (hrepels _ hl) Bool.false_ne_true
    | panic p =>
      refine ⟨p, rfl, fun x a hx => ?_⟩
      have hpath := station_path (hrun.append hrun') i
      obtain ⟨q, hq⟩ := hm'.finished_iff.mp ⟨x, hx⟩
      have hlegal := (hrun.append hrun').legal (fun _ => trivial) i
      rw [hq] at hpath hlegal
      obtain ⟨v, cleanup, f, rfl, rfl⟩ := ended_of_returns hlegal
      have hmem : ⟨.lock, .panic p⟩ ∈ eventsOf i (ls ++ ls') :=
        mem_eventsOf.mpr (List.mem_append_right _ hl)
      refine repelled_of_path hpath hmem fun r hr => ?_
      rw [lock_unique (callLaw_of_path hpath) hmem hr]
      rfl

end Runs

def taskPanic : List (InvocationLabel ℕ ℕ ℕ ℕ String Bool Empty) :=
  [.invoke true, .enter true .predicate, .leave true .predicate (.ret true), .enter true .lock,
    .leave true .lock (.ret ()), .enter true .predicate, .leave true .predicate (.ret true),
    .enter true .task, .invoke false, .enter false .predicate, .leave false .predicate (.ret true),
    .enter false .lock, .leave true .task (.panic "task"), .enter true (.dropGuard true),
    .leave true (.dropGuard true) (.ret ())]

def repelledWaiter : List (InvocationLabel ℕ ℕ ℕ ℕ String Bool Empty) :=
  [.leave false .lock (.panic "poisoned"), .enter false (.dropTask true),
    .leave false (.dropTask true) (.ret ()), .finish false (.outcome (.unwind "poisoned"))]

theorem poisoned_once_repelledWaiter :
    ∃ c c' : InvocationPool ℕ ℕ ℕ ℕ String Bool Mutex,
      Pool.Run (mutexWorld Bool) (programs Bool)
        (start (fun _ => .basic false 1) ⟨false, false⟩) taskPanic c ∧
      Pool.Run (mutexWorld Bool) (programs Bool) c repelledWaiter c' ∧
      ∃ p, Repelled (.basic false 1) (eventsOf false (taskPanic ++ repelledWaiter))
        (.outcome (.unwind "poisoned")) p := by
  obtain ⟨c, c', hrun, hrun', hpoisoned, x, hx⟩ :
      ∃ c c' : InvocationPool ℕ ℕ ℕ ℕ String Bool Mutex,
        Pool.Run (mutexWorld Bool) (programs Bool)
          (start (fun _ => .basic false 1) ⟨false, false⟩) taskPanic c ∧
        Pool.Run (mutexWorld Bool) (programs Bool) c repelledWaiter c' ∧
        c.state.poisoned = true ∧
        ∃ x, c'.phases false = .finished x (.outcome (.unwind "poisoned")) := by
    refine ⟨_, _, .head (.invoke rfl) (.head (.enter rfl ⟨_, rfl⟩ rfl)
      (.head (.leave rfl ⟨_, rfl, rfl⟩ ⟨trivial, rfl⟩) (.head (.enter rfl ⟨_, rfl⟩ rfl)
      (.head (.leave rfl ⟨_, rfl, rfl⟩ ⟨trivial, rfl, rfl, rfl⟩)
      (.head (.enter rfl ⟨_, rfl⟩ rfl) (.head (.leave rfl ⟨_, rfl, rfl⟩ ⟨trivial, rfl⟩)
      (.head (.enter rfl ⟨_, rfl⟩ rfl) (.head (.invoke rfl) (.head (.enter rfl ⟨_, rfl⟩ rfl)
      (.head (.leave rfl ⟨_, rfl, rfl⟩ ⟨trivial, rfl⟩) (.head (.enter rfl ⟨_, rfl⟩ rfl)
      (.head (.leave rfl ⟨_, rfl, rfl⟩ ⟨trivial, rfl⟩) (.head (.enter rfl ⟨_, rfl⟩ rfl)
      (.head (.leave rfl ⟨_, rfl, rfl⟩ ⟨fun _ => rfl, rfl, rfl⟩) .refl)))))))))))))),
      .head (.leave rfl ⟨_, rfl, rfl⟩ ⟨trivial, rfl, rfl, rfl⟩) (.head (.enter rfl ⟨_, rfl⟩ rfl)
      (.head (.leave rfl ⟨_, rfl, rfl⟩ ⟨fun _ => rfl, rfl⟩) (.head (.finish rfl rfl) .refl))),
      rfl, _, rfl⟩
  obtain ⟨p, -, hrepelled⟩ := ((poisoned_once hrun).2.2 hpoisoned _ _ hrun').2 false
    (.panic "poisoned") List.mem_cons_self
  exact ⟨c, c', hrun, hrun', p, hrepelled x _ hx⟩

end DoubleChecked
