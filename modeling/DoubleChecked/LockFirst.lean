import DoubleChecked.SharedSteps

/-!
# Lock-first execution is refined

A member takes its place in the sequential order when it writes the gate, or at its end
if it does not write it; a rejected invocation when it reads the closed gate. The order
grows as the run goes on, and the reference, executed in that order, is where the gate
is, and where the data is whenever nobody works on it.
-/

namespace DoubleChecked
open Effect

variable {P R E C π ι κ δ : Type}

/-- Where an invocation stands in the order, and what it still owes to the reference. -/
structure MemberOk (W : Workload R E ι κ δ) (order : List (ι ⊕ κ)) (p : Progress R E ι δ)
    (shared : Shared δ) (i : ι) (phase : StationPhase P R E C π)
    (code : Option (Body δ (Except E R))) : Prop where
  task : ∀ b, code = some b → Body.Underway (W.tasks i) b p.shared shared (.inl i ∈ order)
    fun result => (i, (LockedExecution.task result).intoOutcome) ∈ p.outcomes
  open_gate : Phase.isCleared phase = true → .inl i ∉ order → shared.gate = true
  undecided : phase.body.verdict = none → Phase.inTask phase = false → .inl i ∉ order
  decided : ∀ v, phase.body.verdict = some v → .inl i ∈ order ∧
    ∃ o, v.outcome none = .ret o ∧ (i, o) ∈ p.outcomes

structure SectionOk (W : Workload R E ι κ δ) (order : List (ι ⊕ κ)) (p : Progress R E ι δ)
    (shared : Shared δ) (k : κ) (phase : SectionPhase δ) : Prop where
  pending : phase = .pending → .inr k ∉ order
  inside : ∀ b, phase = .inside b →
    Body.Underway (W.sections k) b p.shared shared (.inr k ∈ order) fun _ => True
  finished : phase = .finished → .inr k ∈ order

/-- The order so far explains the state. -/
structure Linear (W : Workload R E ι κ δ) (s₀ : Shared δ) (order : List (ι ⊕ κ))
    (c : StationPool P R E C π ι (WorkState R E ι κ δ)) : Prop where
  gate : (W.reference s₀ order).shared.gate = c.state.shared.gate
  settled : (∀ i, c.state.running i = none) → (∀ k b, c.state.sections k ≠ .inside b) →
    (W.reference s₀ order).shared = c.state.shared
  member : ∀ i, MemberOk W order (W.reference s₀ order) c.state.shared i (c.phases i)
    (c.state.running i)
  section_ok : ∀ k, SectionOk W order (W.reference s₀ order) c.state.shared k (c.state.sections k)

section Frame
variable {W : Workload R E ι κ δ} {s₀ : Shared δ} {order order' : List (ι ⊕ κ)}
  {p p' : Progress R E ι δ} {shared shared' : Shared δ} {i : ι} {k : κ}
  {phase : StationPhase P R E C π} {code : Option (Body δ (Except E R))}

theorem MemberOk.frame (h : MemberOk W order p shared i phase code)
    (hmem : .inl i ∈ order' ↔ .inl i ∈ order) (hout : ∀ y ∈ p.outcomes, y ∈ p'.outcomes)
    (hcode : code.isSome = true → Phase.holds phase = true)
    (hheld : Phase.holds phase = true → p'.shared = p.shared ∧ shared' = shared) :
    MemberOk W order' p' shared' i phase code where
  task b hb := by
    obtain ⟨hp, hs⟩ := hheld (hcode (by rw [hb]; rfl))
    obtain ⟨hbefore, hafter⟩ := h.task b hb
    rw [hp, hs]
    refine ⟨fun hn => hbefore (mt hmem.mpr hn), fun hin => ?_⟩
    obtain ⟨hrun, hsilent, hemitted⟩ := hafter (hmem.mp hin)
    exact ⟨hrun, hsilent, hout _ hemitted⟩
  open_gate hc hn := by
    rw [(hheld (Phase.holds_of_isCleared hc)).2]
    exact h.open_gate hc (mt hmem.mpr hn)
  undecided hv ht := mt hmem.mp (h.undecided hv ht)
  decided v hv := by
    obtain ⟨hin, o, ho, hmemo⟩ := h.decided v hv
    exact ⟨hmem.mpr hin, o, ho, hout _ hmemo⟩

theorem SectionOk.frame {phase : SectionPhase δ} (h : SectionOk W order p shared k phase)
    (hmem : .inr k ∈ order' ↔ .inr k ∈ order)
    (hheld : ∀ b, phase = .inside b → p'.shared = p.shared ∧ shared' = shared) :
    SectionOk W order' p' shared' k phase where
  pending hp := mt hmem.mp (h.pending hp)
  inside b hb := by
    obtain ⟨hp, hs⟩ := hheld b hb
    obtain ⟨hbefore, hafter⟩ := h.inside b hb
    rw [hp, hs]
    exact ⟨fun hn => hbefore (mt hmem.mpr hn), fun hin => hafter (hmem.mp hin)⟩
  finished hp := hmem.mpr (h.finished hp)

inductive Grows (x : ι ⊕ κ) (order : List (ι ⊕ κ)) : List (ι ⊕ κ) → Prop
  | stays : Grows x order order
  | point : x ∉ order → Grows x order (order ++ [x])

theorem Grows.mem_iff {x y : ι ⊕ κ} (h : Grows x order order') (hy : y ≠ x) :
    y ∈ order' ↔ y ∈ order := by
  cases h with
  | stays => rfl
  | point hx => simp [hy]

theorem Grows.outcomes {x : ι ⊕ κ} (h : Grows x order order')
    (y : ι × ExecutionOutcome R E) (hy : y ∈ (W.reference s₀ order).outcomes) :
    y ∈ (W.reference s₀ order').outcomes := by
  cases h with
  | stays => exact hy
  | point hx => exact Workload.mem_outcomes_snoc hy

end Frame

section Steps
variable [DecidableEq ι] {W : Workload R E ι κ δ} {s₀ : Shared δ} {order order' : List (ι ⊕ κ)}
  {c c' : StationPool P R E C π ι (WorkState R E ι κ δ)} {s : WorkState R E ι κ δ}

theorem Linear.move (hc : InStep c) (h : Linear W s₀ order c) {i : ι} {p : StationPhase P R E C π}
    (hgrows : Grows (.inl i) order order') (hrunning : ∀ j, j ≠ i → s.running j = c.state.running j)
    (hsections : s.sections = c.state.sections)
    (hquiet : (W.reference s₀ order').shared = (W.reference s₀ order).shared ∧
      s.shared = c.state.shared ∨ c.state.holder = some (.inl i))
    (hgate : (W.reference s₀ order').shared.gate = s.shared.gate)
    (hsettled : (∀ j, s.running j = none) → (∀ k b, s.sections k ≠ .inside b) →
      (W.reference s₀ order').shared = s.shared)
    (hself : MemberOk W order' (W.reference s₀ order') s.shared i p (s.running i)) :
    Linear W s₀ order' (c.move i p s) where
  gate := hgate
  settled := hsettled
  member j := by
    by_cases hj : j = i
    · subst hj
      rwa [Pool.move_phases_self]
    · rw [Pool.move_phases_of_ne _ hj, Pool.move_state, hrunning j hj]
      refine (h.member j).frame (hgrows.mem_iff fun he => hj (Sum.inl.inj he)) hgrows.outcomes
        (fun hr => ?_) (fun hh => ?_)
      · rw [hc.running j] at hr
        exact Phase.holds_of_isCleared (hc.inTask j hr)
      · rcases hquiet with hq | hq
        · exact hq
        · have hji := hq.symm.trans ((hc.guard j).mpr hh)
          exact absurd (Sum.inl.inj (Option.some.inj hji)).symm hj
  section_ok k := by
    rw [Pool.move_state, hsections]
    refine (h.section_ok k).frame (hgrows.mem_iff nofun) fun b hb => ?_
    rcases hquiet with hq | hq
    · exact hq
    · exact absurd hb (hc.sections_ne_inside hq nofun b)

omit [DecidableEq ι] in
theorem Linear.moveSection [DecidableEq κ] (hc : InStep c) (h : Linear W s₀ order c) {k : κ}
    (hgrows : Grows (.inr k) order order') (hrunning : s.running = c.state.running)
    (hsections : ∀ k', k' ≠ k → s.sections k' = c.state.sections k')
    (hquiet : (W.reference s₀ order').shared = (W.reference s₀ order).shared ∧
      s.shared = c.state.shared ∨ c.state.holder = some (.inr k))
    (hgate : (W.reference s₀ order').shared.gate = s.shared.gate)
    (hsettled : (∀ j, s.running j = none) → (∀ k b, s.sections k ≠ .inside b) →
      (W.reference s₀ order').shared = s.shared)
    (hself : SectionOk W order' (W.reference s₀ order') s.shared k (s.sections k)) :
    Linear W s₀ order' ⟨c.phases, s⟩ where
  gate := hgate
  settled := hsettled
  member j := by
    change MemberOk W order' (W.reference s₀ order') s.shared j (c.phases j) (s.running j)
    rw [hrunning]
    refine (h.member j).frame (hgrows.mem_iff nofun) hgrows.outcomes (fun hr => ?_) (fun hh => ?_)
    · rw [hc.running j] at hr
      exact Phase.holds_of_isCleared (hc.inTask j hr)
    · rcases hquiet with hq | hq
      · exact hq
      · exact nomatch hq.symm.trans ((hc.guard j).mpr hh)
  section_ok k' := by
    by_cases hk : k' = k
    · subst hk
      exact hself
    · change SectionOk W order' (W.reference s₀ order') s.shared k' (s.sections k')
      rw [hsections k' hk]
      refine (h.section_ok k').frame (hgrows.mem_iff fun he => hk (Sum.inr.inj he)) fun b hb => ?_
      rcases hquiet with hq | hq
      · exact hq
      · have hkk := hq.symm.trans ((hc.section_iff k').mpr ⟨b, hb⟩)
        exact absurd (Sum.inr.inj (Option.some.inj hkk)).symm hk

theorem Linear.stay (hc : InStep c) (h : Linear W s₀ order c) {i : ι} {p : StationPhase P R E C π}
    (holder : Option (ι ⊕ κ))
    (hself : MemberOk W order (W.reference s₀ order) c.state.shared i p (c.state.running i)) :
    Linear W s₀ order (c.move i p { c.state with holder := holder }) :=
  h.move hc .stays (fun _ _ => rfl) rfl (.inl ⟨rfl, rfl⟩) h.gate h.settled hself

theorem Linear.reject (hc : InStep c) (h : Linear W s₀ order c) {i : ι}
    {p : StationPhase P R E C π} {v : Verdict R E C π} (hi : .inl i ∉ order)
    (hgate : c.state.shared.gate = false) (hrunning : c.state.running i = none)
    (hcleared : Phase.isCleared p = false) (hv : p.body.verdict = some v)
    (ho : v.outcome none = .ret .conditionNotMet) :
    Linear W s₀ (order ++ [.inl i]) (c.move i p c.state) := by
  have href := Workload.reference_reject (i := i) (h.gate.trans hgate)
  refine h.move hc (.point hi) (fun _ _ => rfl) rfl (.inl ⟨by rw [href], rfl⟩)
    (by rw [href, h.gate]) (fun hr hs => by rw [href, h.settled hr hs]) ?_
  rw [hrunning, href]
  refine ⟨nofun, fun hcl => (nomatch hcleared.symm.trans hcl),
    fun hn => (nomatch hv.symm.trans hn), fun w hw => ?_⟩
  cases hv.symm.trans hw
  exact ⟨by simp, _, ho, by simp⟩

omit [DecidableEq ι] in
theorem Linear.settled_of_holder (hc : InStep c) (h : Linear W s₀ order c) {i : ι}
    (hheld : c.state.holder = some (.inl i)) (hi : c.state.running i = none) :
    (W.reference s₀ order).shared = c.state.shared := by
  refine h.settled (fun j => ?_) fun k => hc.sections_ne_inside hheld nofun
  by_cases hj : j = i
  · rw [hj, hi]
  · exact hc.running_eq_none hheld fun he => hj (Sum.inl.inj (Option.some.inj he)).symm

theorem Linear.endTask (hc : InStep c) (h : Linear W s₀ order c) {i : ι} {q : Station P R E C π}
    {o : Call P R E C π} {result : Except E R} (hp : c.phases i = .inside q o)
    (hq : q.isCleared = true) (hdone : c.state.running i = some (.done result)) :
    ∃ order', Grows (.inl i) order order' ∧ Linear W s₀ order' (c.move i
      (.idle (.releasing none (.returned result)))
      { c.state with running := Function.update c.state.running i none }) := by
  have hm := h.member i
  have hheld := hc.holder_of_running hdone
  have hresult : (Verdict.returned (C := C) (π := π) result).outcome none =
      .ret (LockedExecution.task result).intoOutcome := by
    cases result <;> rfl
  have hrunning (j : ι) (hj : j ≠ i) : Function.update c.state.running i none j =
      c.state.running j := Function.update_of_ne hj ..
  have hself {order' : List (ι ⊕ κ)} (hin : .inl i ∈ order')
      (hmem : (i, (LockedExecution.task result).intoOutcome) ∈
        (W.reference s₀ order').outcomes) :
      MemberOk W order' (W.reference s₀ order') c.state.shared i
        (.idle (.releasing none (.returned result)) : StationPhase P R E C π)
        (Function.update c.state.running i none i) := by
    rw [Function.update_self]
    refine ⟨nofun, nofun, nofun, ?_⟩
    intro v hv
    cases hv
    exact ⟨hin, _, hresult, hmem⟩
  obtain ⟨hbefore, hafter⟩ := hm.task _ hdone
  by_cases hin : .inl i ∈ order
  · obtain ⟨hseq, -, hmem⟩ := hafter hin
    exact ⟨order, .stays, h.move hc .stays hrunning rfl (.inr hheld) h.gate
      (fun _ _ => hseq.symm) (hself hin hmem)⟩
  · have hopen : c.state.shared.gate = true := by
      refine hm.open_gate ?_ hin
      rw [hp]
      exact hq
    have href := Workload.reference_task (h.gate.trans hopen) (hbefore hin).1.symm
    refine ⟨_, .point hin, h.move hc (.point hin) hrunning rfl (.inr hheld) ?_ (fun _ _ => ?_)
      (hself (by simp) ?_)⟩
    · rw [href]
    · rw [href]
    · rw [href]
      simp

theorem Linear.stepTask (hc : InStep c) (h : Linear W s₀ order c) {i : ι}
    {b b' : Body δ (Except E R)} {shared : Shared δ} (hb : c.state.running i = some b)
    (hstep : b.Step c.state.shared b' shared) :
    ∃ order', Grows (.inl i) order order' ∧ Linear W s₀ order' ⟨c.phases,
      { c.state with
        shared := shared
        running := Function.update c.state.running i (some b') }⟩ := by
  have hm := h.member i
  have hheld := hc.holder_of_running hb
  have hin : Phase.inTask (c.phases i) = true := by
    rw [← hc.running i, hb]
    rfl
  have hrunning (j : ι) (hj : j ≠ i) : Function.update c.state.running i (some b') j =
      c.state.running j := Function.update_of_ne hj ..
  have hbusy (order' : List (ι ⊕ κ)) (s : Shared δ)
      (hr : ∀ j, Function.update c.state.running i (some b') j = none) :
      (W.reference s₀ order').shared = s := by
    have hi := hr i
    rw [Function.update_self] at hi
    exact nomatch hi
  have hcode : Function.update c.state.running i (some b') i = some b' := Function.update_self ..
  rw [← Pool.move_self c i]
  rcases (hm.task b hb).step hstep with ⟨hgate, hunderway⟩ | ⟨hn, hsilent, hrun⟩
  · refine ⟨order, .stays, h.move hc .stays hrunning rfl (.inr hheld) (h.gate.trans hgate.symm)
      (fun hr _ => hbusy _ _ hr) ⟨fun b'' hb'' => ?_,
      fun hcl hno => hgate.trans (hm.open_gate hcl hno), hm.undecided, hm.decided⟩⟩
    cases hcode.symm.trans hb''
    exact hunderway
  · have hopen := hm.open_gate (hc.inTask i hin) hn
    have href := Workload.reference_task (h.gate.trans hopen)
      (rfl : (W.tasks i).run (W.reference s₀ order).shared = (_, _))
    refine ⟨_, .point hn, h.move hc (.point hn) hrunning rfl (.inr hheld) ?_
      (fun hr _ => hbusy _ _ hr) ⟨fun b'' hb'' => ?_, fun _ hno => absurd (by simp) hno,
      fun _ ht => (nomatch hin.symm.trans ht), fun v hv => absurd (hm.decided v hv).1 hn⟩⟩
    · rw [href, ← hrun, hsilent.gate_run]
    · cases hcode.symm.trans hb''
      rw [href]
      exact Body.underway_pointed hrun hsilent (by simp) (by simp)

variable [DecidableEq κ]

omit [DecidableEq ι] in
theorem Linear.acquireSection (hw : ∀ k, (W.sections k).WritesOnce) (hc : InStep c)
    (h : Linear W s₀ order c) {k : κ} (hpending : c.state.sections k = .pending)
    (hfree : c.state.holder = none) : Linear W s₀ order ⟨c.phases,
      { c.state with
        holder := some (.inr k)
        sections := Function.update c.state.sections k (.inside (W.sections k)) }⟩ := by
  have hseq := h.settled (fun j => hc.running_eq_none hfree nofun)
    fun k => hc.sections_ne_inside hfree nofun
  have hcode : Function.update c.state.sections k (.inside (W.sections k)) k =
      .inside (W.sections k) := Function.update_self ..
  refine h.moveSection hc .stays rfl (fun k' hk => Function.update_of_ne hk ..)
    (.inl ⟨rfl, rfl⟩) h.gate (fun _ _ => hseq) ⟨fun hp => (nomatch hcode.symm.trans hp),
      fun b hb => ?_, fun hp => (nomatch hcode.symm.trans hp)⟩
  cases hcode.symm.trans hb
  rw [hseq]
  exact Body.underway_start (hw k) ((h.section_ok k).pending hpending)

omit [DecidableEq ι] in
theorem Linear.stepSection (hc : InStep c) (h : Linear W s₀ order c) {k : κ} {b b' : Body δ Unit}
    {shared : Shared δ} (hb : c.state.sections k = .inside b)
    (hstep : b.Step c.state.shared b' shared) :
    ∃ order', Grows (.inr k) order order' ∧ Linear W s₀ order' ⟨c.phases,
      { c.state with
        shared := shared
        sections := Function.update c.state.sections k (.inside b') }⟩ := by
  have hheld := (hc.section_iff k).mpr ⟨b, hb⟩
  have hsections (k' : κ) (hk : k' ≠ k) : Function.update c.state.sections k (.inside b') k' =
      c.state.sections k' := Function.update_of_ne hk ..
  have hcode : Function.update c.state.sections k (.inside b') k = .inside b' :=
    Function.update_self ..
  have hself (order' : List (ι ⊕ κ)) (h : Body.Underway (W.sections k) b'
      (W.reference s₀ order').shared shared (.inr k ∈ order') fun _ => True) :
      SectionOk W order' (W.reference s₀ order') shared k
        (Function.update c.state.sections k (.inside b') k) := by
    refine ⟨fun hp => (nomatch hcode.symm.trans hp), fun b'' hb'' => ?_,
      fun hp => (nomatch hcode.symm.trans hp)⟩
    cases hcode.symm.trans hb''
    exact h
  rcases ((h.section_ok k).inside b hb).step hstep with ⟨hgate, hunderway⟩ | ⟨hn, hsilent, hrun⟩
  · exact ⟨order, .stays, h.moveSection hc .stays rfl hsections (.inr hheld)
      (h.gate.trans hgate.symm) (fun _ hs => absurd hcode (hs k b')) (hself order hunderway)⟩
  · have href := Workload.reference_section
      (rfl : ((W.sections k).run (W.reference s₀ order).shared).2 = _)
    refine ⟨_, .point hn, h.moveSection hc (.point hn) rfl hsections (.inr hheld) ?_
      (fun _ hs => absurd hcode (hs k b')) (hself _ ?_)⟩
    · rw [href, ← hrun, hsilent.gate_run]
    · rw [href]
      exact Body.underway_pointed hrun hsilent (by simp) trivial

omit [DecidableEq ι] in
theorem Linear.releaseSection (hc : InStep c) (h : Linear W s₀ order c) {k : κ}
    (hdone : c.state.sections k = .inside (.done ())) :
    ∃ order', Grows (.inr k) order order' ∧ .inr k ∈ order' ∧ Linear W s₀ order' ⟨c.phases,
      { c.state with
        holder := none
        sections := Function.update c.state.sections k .finished }⟩ := by
  have hheld := (hc.section_iff k).mpr ⟨_, hdone⟩
  have hsections (k' : κ) (hk : k' ≠ k) : Function.update c.state.sections k .finished k' =
      c.state.sections k' := Function.update_of_ne hk ..
  have hcode : Function.update c.state.sections k .finished k = .finished :=
    Function.update_self ..
  have hself {order' : List (ι ⊕ κ)} (hin : .inr k ∈ order') :
      SectionOk W order' (W.reference s₀ order') c.state.shared k
        (Function.update c.state.sections k .finished k) :=
    ⟨fun hp => (nomatch hcode.symm.trans hp), fun _ hb => (nomatch hcode.symm.trans hb),
      fun _ => hin⟩
  obtain ⟨hbefore, hafter⟩ := (h.section_ok k).inside _ hdone
  by_cases hin : .inr k ∈ order
  · exact ⟨order, .stays, hin, h.moveSection hc .stays rfl hsections (.inr hheld) h.gate
      (fun _ _ => (hafter hin).1.symm) (hself hin)⟩
  · have href := Workload.reference_section (congrArg Prod.snd (hbefore hin).1.symm)
    refine ⟨_, .point hin, by simp, h.moveSection hc (.point hin) rfl hsections (.inr hheld) ?_
      (fun _ _ => ?_) (hself (by simp))⟩
    · rw [href]
      rfl
    · rw [href]
      rfl

variable [PanicPayload π] {invocations : ι → Invocation}
  {l : InvocationLabel P R E C π ι (WorkAct ι κ)}
  {ls : List (InvocationLabel P R E C π ι (WorkAct ι κ))}

omit [DecidableEq ι] [DecidableEq κ] [PanicPayload π] in
theorem Grows.realTime {x : ι ⊕ κ} (hgrows : Grows x order order')
    (h : RealTime Label.begins Label.ends ls order)
    (hb : ∀ y, Label.begins l = some y → y ∉ order')
    (he : ∀ y, Label.ends l = some y → y ∈ order') :
    RealTime Label.begins Label.ends (ls ++ [l]) order' := by
  cases hgrows with
  | stays => exact h.label hb he
  | point hx => exact (h.point hx).label hb he

omit [DecidableEq κ] [PanicPayload π] in
theorem linear_leave (hc : InStep c)
    (h : Linear W s₀ order c) {i : ι} {q q' : Station P R E C π} {o : Call P R E C π}
    {r : o.Answer} (hq : c.phases i = .inside q o) (hr : Replies i c.state q o r q' s) :
    ∃ order', Grows (.inl i) order order' ∧ Linear W s₀ order' (c.move i (.idle q') s) := by
  have hm := h.member i
  rw [hq] at hm
  cases hr with
  | accept hgate =>
    exact ⟨order, .stays, h.stay hc _ ⟨hm.task, nofun, fun _ _ => hm.undecided rfl rfl, nofun⟩⟩
  | reject hgate =>
    exact ⟨_, .point (hm.undecided rfl rfl), h.reject hc (hm.undecided rfl rfl) hgate
      (hc.not_running (hq ▸ rfl)) rfl rfl rfl⟩
  | acquire u hfree =>
    exact ⟨order, .stays, h.stay hc _ ⟨hm.task, nofun, fun _ _ => hm.undecided rfl rfl, nofun⟩⟩
  | recheck hgate =>
    exact ⟨order, .stays, h.stay hc _ ⟨hm.task, fun _ _ => hgate, fun _ _ => hm.undecided rfl rfl,
      nofun⟩⟩
  | recheckReject hgate =>
    exact ⟨_, .point (hm.undecided rfl rfl), h.reject hc (hm.undecided rfl rfl) hgate
      (hc.not_running (hq ▸ rfl)) rfl rfl rfl⟩
  | taskEnd result hdone => exact h.endTask hc hq rfl hdone
  | release v u x q hv ho hb =>
    exact ⟨order, .stays, h.stay hc _ ⟨hm.task, fun hcl => (nomatch ho.isCleared.symm.trans hcl),
      fun hn => (nomatch hv.symm.trans hn), fun w hw => hm.decided w (hv.symm.trans hw)⟩⟩
  | skip v u x =>
    exact ⟨order, .stays, h.stay hc _ ⟨hm.task, nofun, nofun, hm.decided⟩⟩

theorem linear_step (hi : ∀ i, (invocations i).prepares = false)
    (htasks : ∀ i, (W.tasks i).WritesOnce) (hsections : ∀ k, (W.sections k).WritesOnce)
    (hc : InStep c) (h : Linear W s₀ order c) (ht : RealTime Label.begins Label.ends ls order)
    (hs : Pool.Step W.world (stations invocations) c l c') :
    ∃ order', Linear W s₀ order' c' ∧ RealTime Label.begins Label.ends (ls ++ [l]) order' := by
  cases hs with
  | @invoke i q hq =>
    obtain rfl := hc.pending i q hq
    have hm := h.member i
    rw [hq] at hm
    refine ⟨order, h.stay hc _ ⟨hm.task, nofun, hm.undecided, hm.decided⟩, ht.label ?_ nofun⟩
    intro x hx
    cases hx
    exact hm.undecided rfl rfl
  | @enter i q o s hq ha hw =>
    have hm := h.member i
    have hbare := hc.bare i
    have hguard := hc.guard i
    rw [hq] at hm hbare hguard
    refine ⟨order, ?_, ht.label nofun nofun⟩
    cases o with
    | task =>
      obtain rfl := hw
      have hnone : c.state.running i = none := hc.not_running (hq ▸ rfl)
      have hcleared := isCleared_of_allows ha rfl
      have hheld := hguard.mpr (Station.holds_of_isCleared hcleared)
      have hseq := h.settled_of_holder hc hheld hnone
      have hcode : Function.update c.state.running i (some (W.tasks i)) i = some (W.tasks i) :=
        Function.update_self ..
      have hverdict : q.verdict = none := by
        cases q with
        | cleared token => rfl
        | _ => exact nomatch hcleared
      refine h.move hc .stays (fun j hj => Function.update_of_ne hj ..) rfl (.inl ⟨rfl, rfl⟩)
        h.gate (fun _ _ => hseq) ⟨fun b hb => ?_, hm.open_gate, nofun, hm.decided⟩
      cases hcode.symm.trans hb
      rw [hseq]
      exact Body.underway_start (htasks i) (hm.undecided hverdict rfl)
    | taskWithToken t =>
      cases q with
      | cleared token =>
        obtain rfl := hbare
        exact nomatch ha
      | _ => exact ha.elim
    | _ =>
      obtain rfl := hw
      exact h.stay hc _ ⟨hm.task, hm.open_gate, hm.undecided, hm.decided⟩
  | @leave i q q' o r s hq ha hw =>
    have hbare := hc.bare i
    rw [hq] at hbare
    obtain ⟨order', hgrows, hlinear⟩ := linear_leave hc h hq
      (replies_of_step (hi i) hbare (step_of_replies ha) hw)
    exact ⟨order', hlinear, hgrows.realTime ht nofun nofun⟩
  | @finish i q a hq ha =>
    have hm := h.member i
    rw [hq] at hm
    obtain ⟨v, cleanup, f, rfl, -⟩ := ended_of_returns ha
    refine ⟨order, h.stay hc _ ⟨hm.task, nofun, nofun, hm.decided⟩, ht.label nofun ?_⟩
    intro x hx
    cases hx
    exact (hm.decided v rfl).1
  | @act x s hw =>
    cases hw with
    | task hb hstep =>
      obtain ⟨order', hgrows, hlinear⟩ := h.stepTask hc hb hstep
      exact ⟨order', hlinear, hgrows.realTime ht nofun nofun⟩
    | @acquire k _ hpending hfree =>
      refine ⟨order, h.acquireSection hsections hc hpending hfree, ht.label ?_ nofun⟩
      intro x hx
      cases hx
      exact (h.section_ok k).pending hpending
    | sectionStep hb hstep =>
      obtain ⟨order', hgrows, hlinear⟩ := h.stepSection hc hb hstep
      exact ⟨order', hlinear, hgrows.realTime ht nofun nofun⟩
    | release hdone =>
      obtain ⟨order', hgrows, hin, hlinear⟩ := h.releaseSection hc hdone
      refine ⟨order', hlinear, hgrows.realTime ht nofun ?_⟩
      intro x hx
      cases hx
      exact hin

omit [DecidableEq ι] [DecidableEq κ] [PanicPayload π] in
theorem linear_start : Linear W s₀ [] (startStations (P := P) (C := C) (π := π)
    (WorkState.initial s₀)) where
  gate := rfl
  settled _ _ := rfl
  member _ := ⟨nofun, nofun, fun _ _ => nofun, nofun⟩
  section_ok _ := ⟨fun _ => nofun, nofun, nofun⟩

theorem linear_of_run (hi : ∀ i, (invocations i).prepares = false)
    (htasks : ∀ i, (W.tasks i).WritesOnce) (hsections : ∀ k, (W.sections k).WritesOnce)
    (h : Pool.Run W.world (stations invocations) (startStations (.initial s₀)) ls c) :
    ∃ order, Linear W s₀ order c ∧ RealTime Label.begins Label.ends ls order := by
  suffices hinv : InStep c ∧ ∃ order, Linear W s₀ order c ∧
      RealTime Label.begins Label.ends ls order from hinv.2
  refine h.invariant (I := fun ls c => InStep c ∧ ∃ order, Linear W s₀ order c ∧
    RealTime Label.begins Label.ends ls order) ⟨inStep_start s₀, [], linear_start, realTime_nil⟩ ?_
  intro ls c l c' h hs
  obtain ⟨hc, order, hl, ht⟩ := h
  exact ⟨inStep_step hi hc hs, linear_step hi htasks hsections hc hl ht hs⟩

/-- When all invocations of `run` and all sections have completed, some total order of
them respects real time, and the reference executed in that order gives every invocation
the same outcome and leaves the same shared state. -/
theorem run_refines_lockFirst {clones : ι → ℕ} (htasks : ∀ i, (W.tasks i).WritesOnce)
    (hsections : ∀ k, (W.sections k).WritesOnce)
    {c : InvocationPool P R E C π ι (WorkState R E ι κ δ)}
    (h : Pool.Run W.world (programs ι)
      (start (fun i => .basic false (clones i)) (.initial s₀)) ls c)
    (ht : c.Terminal) (hfinished : ∀ k, c.state.sections k = .finished) :
    ∃ order : List (ι ⊕ κ), order.Nodup ∧ (∀ x, x ∈ order) ∧
      (∀ x y, EndedBefore Label.begins Label.ends ls x y → [x, y].Sublist order) ∧
      (∀ i, ∃ p o, c.phases i = .finished p (.outcome (.ret o)) ∧
        (i, o) ∈ (W.reference s₀ order).outcomes) ∧
      (W.reference s₀ order).shared = c.state.shared := by
  obtain ⟨d, hrun, hm⟩ := h.simulate start_matches station_simulation W.admits_of_leave
  obtain ⟨order, hl, hreal⟩ := linear_of_run (fun _ => rfl) htasks hsections hrun
  have hc := inStep_of_run (fun _ => rfl) hrun
  have hended (i : ι) : .inl i ∈ order ∧ ∃ p o, c.phases i = .finished p (.outcome (.ret o)) ∧
      (i, o) ∈ (W.reference s₀ order).outcomes := by
    obtain ⟨q, a, hq⟩ := hm.terminal ht i
    have hlegal := hrun.legal (fun _ => trivial) i
    have hbare := hc.bare i
    have hmember := hl.member i
    rw [hq] at hlegal hbare hmember
    obtain ⟨v, cleanup, f, rfl, rfl⟩ := ended_of_returns hlegal
    obtain rfl : cleanup = none := hbare
    obtain ⟨hin, o, ho, hmem⟩ := hmember.decided v rfl
    obtain ⟨p, hp⟩ := hm.finished_iff.mpr ⟨_, hq⟩
    have ho' : c.phases i = .finished p (.outcome (.ret o)) := by
      rw [hp, ← ho]
      rfl
    exact ⟨hin, p, o, ho', hmem⟩
  have hsection (k : κ) : .inr k ∈ order := by
    apply (hl.section_ok k).finished
    rw [← hm.state]
    exact hfinished k
  have hall (x : ι ⊕ κ) : x ∈ order := by
    cases x with
    | inl i => exact (hended i).1
    | inr k => exact hsection k
  refine ⟨order, hreal.nodup, hall, fun x y hxy => hreal.ordered x y hxy (hall y),
    fun i => (hended i).2, ?_⟩
  rw [hm.state]
  refine hl.settled (fun i => ?_) fun k b hb => ?_
  · obtain ⟨q, a, hq⟩ := hm.terminal ht i
    exact hc.not_running (hq ▸ rfl)
  · rw [← hm.state, hfinished k] at hb
    exact nomatch hb

end Steps

def counting : Workload ℕ ℕ Bool Unit ℕ where
  tasks _ := .setGate false (.access (fun s => s.data + 1) fun s => .done (.ok s.data))
  sections _ := .setGate true (.done ())

def midSection : List (InvocationLabel ℕ ℕ ℕ ℕ String Bool (WorkAct Bool Unit)) :=
  [.invoke true, .enter true .predicate, .leave true .predicate (.ret true),
    .enter true .lock, .leave true .lock (.ret ()), .enter true .predicate,
    .leave true .predicate (.ret true), .enter true .task, .act (.task true),
    .invoke false, .enter false .predicate, .leave false .predicate (.ret false),
    .enter false (.dropTask false), .leave false (.dropTask false) (.ret ()),
    .finish false (.outcome (.ret .conditionNotMet)), .act (.task true),
    .leave true .task (.ret (.ok 0)), .enter true (.dropGuard false),
    .leave true (.dropGuard false) (.ret ()), .finish true (.outcome (.ret (.success 0))),
    .act (.acquire ()), .act (.sectionStep ()), .act (.release ())]

theorem midSection_run : ∃ c : InvocationPool ℕ ℕ ℕ ℕ String Bool (WorkState ℕ ℕ Bool Unit ℕ),
    Pool.Run counting.world (programs Bool)
      (start (fun _ => .basic false 1) (.initial ⟨true, 0⟩)) midSection c ∧
    c.Terminal ∧ (∀ k, c.state.sections k = .finished) ∧ c.state.shared = ⟨true, 1⟩ := by
  refine ⟨_, .head (.invoke rfl) (.head (.enter rfl ⟨_, rfl⟩ rfl)
    (.head (.leave rfl ⟨_, rfl, rfl⟩ ⟨rfl, rfl⟩) (.head (.enter rfl ⟨_, rfl⟩ rfl)
    (.head (.leave rfl ⟨_, rfl, rfl⟩ ⟨rfl, rfl⟩) (.head (.enter rfl ⟨_, rfl⟩ rfl)
    (.head (.leave rfl ⟨_, rfl, rfl⟩ ⟨rfl, rfl⟩) (.head (.enter rfl ⟨_, rfl⟩ rfl)
    (.head (.act (.task rfl .setGate)) (.head (.invoke rfl) (.head (.enter rfl ⟨_, rfl⟩ rfl)
    (.head (.leave rfl ⟨_, rfl, rfl⟩ ⟨rfl, rfl⟩) (.head (.enter rfl ⟨_, rfl⟩ rfl)
    (.head (.leave rfl ⟨_, rfl, rfl⟩ rfl) (.head (.finish rfl rfl)
    (.head (.act (.task rfl .access)) (.head (.leave rfl ⟨_, rfl, rfl⟩ ⟨rfl, rfl⟩)
    (.head (.enter rfl ⟨_, rfl⟩ rfl) (.head (.leave rfl ⟨_, rfl, rfl⟩ rfl)
    (.head (.finish rfl rfl) (.head (.act (.acquire rfl rfl))
    (.head (.act (.sectionStep rfl .setGate)) (.head (.act (.release rfl))
    .refl)))))))))))))))))))))), ?_, fun _ => rfl, rfl⟩
  intro i
  cases i with
  | false => exact ⟨_, _, rfl⟩
  | true => exact ⟨_, _, rfl⟩

theorem run_refines_lockFirst_midSection :
    ∃ order : List (Bool ⊕ Unit), order.Nodup ∧ (∀ x, x ∈ order) ∧
      (∀ x y, EndedBefore Label.begins Label.ends midSection x y → [x, y].Sublist order) ∧
      (counting.reference ⟨true, 0⟩ order).shared = ⟨true, 1⟩ := by
  obtain ⟨c, hrun, ht, hfinished, hshared⟩ := midSection_run
  have htasks (i : Bool) : (counting.tasks i).WritesOnce := fun _ => trivial
  have hsections (k : Unit) : (counting.sections k).WritesOnce := trivial
  obtain ⟨order, hnodup, hall, hreal, -, href⟩ :=
    run_refines_lockFirst htasks hsections hrun ht hfinished
  exact ⟨order, hnodup, hall, hreal, href.trans hshared⟩

end DoubleChecked
