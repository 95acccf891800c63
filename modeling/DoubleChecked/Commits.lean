import DoubleChecked.QuietRuns

/-!
# One commit for each opening of the gate

Tokens and commits in flight outlive the guard, so a commit may begin long after the
second check that admitted it. An invocation begins at most one commit, and only after
its own task has returned `Ok`; the openings therefore bound the commits as well.
-/

namespace DoubleChecked
open Effect

variable {P R E C π ι κ : Type}

def Station.committed : Station P R E C π → Bool
  | .ended v _ (.called _) => v.commits
  | _ => false

def Phase.committing (p : StationPhase P R E C π) : Bool :=
  match p with
  | .inside _ (.commit _) => true
  | p => p.body.committed

theorem Station.succeeded_of_committed {q : Station P R E C π} (h : q.committed = true) :
    q.succeeded = true := by
  match q with
  | .ended v cleanup (.called r) => exact h

section Steps
variable [PanicPayload π] {i : Invocation} {q q' : Station P R E C π} {o : Call P R E C π}
  {r : o.Answer}

omit [PanicPayload π] in
theorem committed_settle {token : Option P} {v : Verdict R E C π} :
    (Station.settle token v).committed = false := by
  cases token <;> rfl

theorem committed_of_step (h : i.Step q o r q') :
    q'.committed = Phase.committing (.inside q o : StationPhase P R E C π) := by
  cases h with
  | accept => cases i <;> rfl
  | release token v u =>
    cases hs : v.started with
    | false => rfl
    | true => exact committed_settle
  | releasePanic token v p hv =>
    cases hs : v.started with
    | false => rfl
    | true => exact committed_settle
  | skip token v u =>
    cases v with
    | conditionNotMet | panicked => exact committed_settle
    | _ => rfl
  | skipPanic token v p hv =>
    cases v with
    | conditionNotMet | panicked => exact committed_settle
    | _ => rfl
  | commit t v r hv hc => exact hv
  | rollback t v cause r hv hc => exact Verdict.not_commits_of_cause hv
  | _ => rfl

end Steps

section Runs
variable [DecidableEq ι] [DecidableEq κ] [PanicPayload π] {invocations : ι → Invocation}
  {c c' : StationPool P R E C π ι (GateState ι κ)}
  {l : InvocationLabel P R E C π ι (Outside ι κ)}
  {ls : List (InvocationLabel P R E C π ι (Outside ι κ))}

structure Committed (ls : List (InvocationLabel P R E C π ι (Outside ι κ)))
    (c : StationPool P R E C π ι (GateState ι κ)) : Prop where
  mem_iff : ∀ i, i ∈ commits ls ↔ Phase.committing (c.phases i) = true
  nodup : (commits ls).Nodup
  succeeded : ∀ i, Phase.committing (c.phases i) = true → (c.phases i).body.succeeded = true

omit [DecidableEq κ] [PanicPayload π] in
theorem Committed.move (h : Committed ls c) (hl : Label.commits l = none) {i : ι}
    {p : StationPhase P R E C π} {s : GateState ι κ}
    (hp : Phase.committing p = Phase.committing (c.phases i))
    (hb : Phase.committing p = true → p.body.succeeded = true) :
    Committed (ls ++ [l]) (c.move i p s) := by
  have hcommits : commits (ls ++ [l]) = commits ls := by
    simp [commits, hl]
  refine ⟨?_, hcommits ▸ h.nodup, ?_⟩
  · rw [hcommits]
    refine c.forall_move s (motive := fun j p => j ∈ commits ls ↔ Phase.committing p = true) ?_
      fun j _ => h.mem_iff j
    rw [hp]
    exact h.mem_iff i
  · exact c.forall_move s
      (motive := fun _ p => Phase.committing p = true → p.body.succeeded = true) hb
      fun j _ => h.succeeded j

omit [DecidableEq κ] [PanicPayload π] in
theorem Committed.enter (h : Committed ls c) {i : ι} {q : Station P R E C π} {t : P}
    {s : GateState ι κ} (hi : Phase.committing (c.phases i) = false) (hq : q.succeeded = true) :
    Committed (ls ++ [.enter i (.commit t)]) (c.move i (.inside q (.commit t)) s) := by
  have hcommits : commits (ls ++ [.enter i (.commit t)]) = commits ls ++ [i] := by
    simp [commits, Label.commits]
  refine ⟨?_, ?_, ?_⟩
  · rw [hcommits]
    refine c.forall_move s
      (motive := fun j p => j ∈ commits ls ++ [i] ↔ Phase.committing p = true)
      ⟨fun _ => rfl, fun _ => by simp⟩ ?_
    intro j hj
    rw [List.mem_append, List.mem_singleton, h.mem_iff]
    exact or_iff_left hj
  · have hn : i ∉ commits ls := fun hm => nomatch hi.symm.trans ((h.mem_iff i).mp hm)
    rw [hcommits]
    refine List.nodup_append.mpr ⟨h.nodup, List.nodup_cons.mpr ⟨nofun, List.nodup_nil⟩, ?_⟩
    intro j hj k hk hjk
    rw [List.mem_singleton.mp hk] at hjk
    exact hn (hjk ▸ hj)
  · exact c.forall_move s
      (motive := fun _ p => Phase.committing p = true → p.body.succeeded = true) (fun _ => hq)
      fun j _ => h.succeeded j

variable {W : World (Calls P R E C π) ι (GateState ι κ) (Outside ι κ)} {s₀ : GateState ι κ}

omit [DecidableEq κ] in
theorem committed_step (h : Committed ls c)
    (hs : Pool.Step W (stations invocations) c l c') : Committed (ls ++ [l]) c' := by
  cases hs with
  | @invoke i q hq =>
    refine h.move rfl ?_ fun hp => Station.succeeded_of_committed hp
    rw [hq]
    rfl
  | @enter i q o s hq ha hw =>
    cases o with
    | commit t =>
      match q, ha with
      | .finalizing t' v, ha =>
        obtain ⟨rfl, hv, hc⟩ : t = t' ∧ v.commits = true ∧ (invocations i).hasCommit = true := ha
        refine h.enter ?_ hv
        rw [hq]
        rfl
    | _ =>
      refine h.move rfl ?_ fun hp => Station.succeeded_of_committed hp
      rw [hq]
      rfl
  | @leave i q q' o r s hq ha hw =>
    refine h.move rfl ?_ fun hp => Station.succeeded_of_committed hp
    rw [hq]
    exact committed_of_step (step_of_replies ha)
  | @finish i q a hq ha =>
    refine h.move rfl ?_ fun hp => Station.succeeded_of_committed hp
    rw [hq]
    rfl
  | @act x s hw =>
    have hcommits : commits (ls ++ [.act x]) = commits ls := by
      simp [commits, Label.commits]
    exact ⟨fun i => hcommits ▸ h.mem_iff i, hcommits ▸ h.nodup, h.succeeded⟩

omit [DecidableEq κ] in
theorem committed_of_run (h : Pool.Run W (stations invocations) (startStations s₀) ls c) :
    Committed ls c :=
  h.invariant (I := Committed) ⟨fun _ => ⟨nofun, nofun⟩, List.nodup_nil, nofun⟩
    fun _ _ _ _ hc hs => committed_step hc hs

omit [DecidableEq κ] in
theorem commits_le_successes (h : Pool.Run W (stations invocations) (startStations s₀) ls c) :
    (commits ls).length ≤ (successes ls).length := by
  have hc := committed_of_run h
  have hsub : commits ls ⊆ successes ls := fun i hi =>
    mem_successes_of_run h (hc.succeeded i ((hc.mem_iff i).mp hi))
  exact hc.nodup.length_le_of_subset hsub

theorem length_commits_le {gate : Bool}
    (h : Pool.Run (claiming ι).world (stations invocations) (startStations (.initial gate)) ls c) :
    (commits ls).length ≤ openings gate ls :=
  Nat.le_trans (commits_le_successes h) (length_successes_le h)

omit [DecidableEq ι] [DecidableEq κ] in
theorem committed_of_calm {i : Invocation} (hi : i.Complete) (hp : i.prepares = true)
    {q : Station P R E C π} (hq : q.Calm i) (hs : q.succeeded = true) {a : Answer R E C π}
    (ha : i.returns a q) : q.committed = true := by
  obtain ⟨v, cleanup, f, rfl, rfl⟩ := ha
  obtain ⟨-, rfl | ⟨-, hf⟩⟩ := hq
  · exact nomatch hs
  · rw [hf hp, finalized_of_complete hi hp]
    exact hs

/-- No more commits have begun than the gate has been opened. Without failures and
writes outside the tasks, when everyone has finished with the gate open at first, one
invocation has committed, and all others have prepared nothing or rolled it back. -/
theorem commit_per_opening {withToken catching : ι → Bool} {clones : ι → ℕ} {gate : Bool}
    {c : InvocationPool P R E C π ι (GateState ι κ)}
    (h : Pool.Run (claiming ι).world (programs ι) (start (fun i =>
      .lifecycle .commitAndRollback (withToken i) (catching i) (clones i)) (.initial gate)) ls c) :
    (commits ls).length ≤ openings gate ls ∧
    (Nonempty ι → gate = true → (∀ l ∈ ls, Label.Quiet l) → c.Terminal →
      ∃ i, commits ls = [i] ∧ (∃ p a, c.phases i = .finished p a ∧ a.succeeds = true) ∧
        ∀ j, j ≠ i → ∃ p a, c.phases j = .finished p a ∧ a.rejects = true) := by
  obtain ⟨d, hrun, hm⟩ := run_stations h
  refine ⟨length_commits_le hrun, fun hn hgate hls ht => ?_⟩
  subst hgate
  have hcomplete (i : ι) :
      (Invocation.lifecycle .commitAndRollback (withToken i) (catching i) (clones i)).Complete :=
    fun _ => ⟨rfl, rfl⟩
  obtain ⟨i, -, ⟨q, a, hi, ha, hs⟩, hothers⟩ :=
    one_succeeds hcomplete hrun hls (hm.terminal ht)
  have hcommits : i ∈ commits ls := by
    have hcalm := (undisturbed_of_run hrun hls).calm i
    have hlegal := hrun.legal (fun _ => trivial) i
    apply ((committed_of_run hrun).mem_iff i).mpr
    rw [hi] at hcalm hlegal ⊢
    exact committed_of_calm (hcomplete i) rfl hcalm hs hlegal
  obtain ⟨p, hp⟩ := hm.finished_iff.mpr ⟨q, hi⟩
  refine ⟨i, ?_, ⟨p, a, hp, ha⟩, fun j hj => ?_⟩
  · exact eq_singleton_of_mem hcommits
      (Nat.le_trans (length_commits_le hrun) (openings_le_one hrun hls))
  · obtain ⟨q, a, hi, ha, -⟩ := hothers j hj
    obtain ⟨p, hp⟩ := hm.finished_iff.mpr ⟨q, hi⟩
    exact ⟨p, a, hp, ha⟩

end Runs

def overlapping : List (InvocationLabel ℕ ℕ ℕ ℕ String Bool (Outside Bool Unit)) :=
  [.invoke true, .enter true .predicate, .leave true .predicate (.ret true),
    .enter true .prepare, .leave true .prepare (.ret (.ok 1)),
    .enter true .lock, .leave true .lock (.ret ()), .enter true .predicate,
    .leave true .predicate (.ret true), .enter true (.taskWithToken 1),
    .invoke false, .enter false .predicate, .leave false .predicate (.ret true),
    .enter false .prepare, .leave false .prepare (.ret (.ok 2)), .enter false .lock,
    .act (.taskWrite true false), .leave true (.taskWithToken 1) (.ret (.ok 7), 3),
    .enter true (.dropGuard false), .leave true (.dropGuard false) (.ret ()),
    .enter true (.commit 3), .leave false .lock (.ret ()), .enter false .predicate,
    .leave false .predicate (.ret false), .enter false (.dropGuard false),
    .leave false (.dropGuard false) (.ret ()), .enter false (.dropTask false),
    .leave false (.dropTask false) (.ret ()), .enter false (.rollback 2 .conditionNotMet),
    .leave true (.commit 3) (.ret (.ok ())),
    .finish true (.lifecycle (.ret (.taskSucceeded 7 .succeeded))),
    .leave false (.rollback 2 .conditionNotMet) (.ret (.ok ())),
    .finish false (.lifecycleCaptured (.ret (.secondConditionNotMet .succeeded)))]

theorem overlapping_run : ∃ c : InvocationPool ℕ ℕ ℕ ℕ String Bool (GateState Bool Unit),
    Pool.Run (claiming Bool).world (programs Bool)
      (start (fun i => .lifecycle .commitAndRollback true (!i) 1) (.initial true)) overlapping c ∧
    c.Terminal := by
  refine ⟨_, .head (.invoke rfl) (.head (.enter rfl ⟨_, rfl⟩ rfl)
    (.head (.leave rfl ⟨_, rfl, rfl⟩ ⟨trivial, rfl, rfl⟩) (.head (.enter rfl ⟨_, rfl⟩ rfl)
    (.head (.leave rfl ⟨_, rfl, rfl⟩ ⟨trivial, rfl⟩) (.head (.enter rfl ⟨_, rfl⟩ rfl)
    (.head (.leave rfl ⟨_, rfl, rfl⟩ ⟨trivial, by rintro (_ | _) <;> rfl, rfl⟩)
    (.head (.enter rfl ⟨_, rfl⟩ rfl) (.head (.leave rfl ⟨_, rfl, rfl⟩ ⟨trivial, rfl, rfl⟩)
    (.head (.enter rfl ⟨_, rfl⟩ rfl) (.head (.invoke rfl) (.head (.enter rfl ⟨_, rfl⟩ rfl)
    (.head (.leave rfl ⟨_, rfl, rfl⟩ ⟨trivial, rfl, rfl⟩) (.head (.enter rfl ⟨_, rfl⟩ rfl)
    (.head (.leave rfl ⟨_, rfl, rfl⟩ ⟨trivial, rfl⟩) (.head (.enter rfl ⟨_, rfl⟩ rfl)
    (.head (.act ⟨rfl, rfl, rfl⟩)
    (.head (.leave rfl ⟨_, rfl, rfl⟩ ⟨trivial, fun _ _ => rfl, rfl⟩)
    (.head (.enter rfl ⟨_, rfl⟩ rfl) (.head (.leave rfl ⟨_, rfl, rfl⟩ ⟨nofun, rfl⟩)
    (.head (.enter rfl ⟨_, rfl⟩ rfl)
    (.head (.leave rfl ⟨_, rfl, rfl⟩ ⟨trivial, by rintro ((_ | _) | _) <;> rfl, rfl⟩)
    (.head (.enter rfl ⟨_, rfl⟩ rfl) (.head (.leave rfl ⟨_, rfl, rfl⟩ ⟨trivial, rfl, rfl⟩)
    (.head (.enter rfl ⟨_, rfl⟩ rfl) (.head (.leave rfl ⟨_, rfl, rfl⟩ ⟨nofun, rfl⟩)
    (.head (.enter rfl ⟨_, rfl⟩ rfl) (.head (.leave rfl ⟨_, rfl, rfl⟩ ⟨nofun, rfl⟩)
    (.head (.enter rfl ⟨_, rfl⟩ rfl) (.head (.leave rfl ⟨_, rfl, rfl⟩ ⟨trivial, rfl⟩)
    (.head (.finish rfl rfl) (.head (.leave rfl ⟨_, rfl, rfl⟩ ⟨trivial, rfl⟩)
    (.head (.finish rfl rfl) .refl)))))))))))))))))))))))))))))))), ?_⟩
  intro i
  cases i with
  | false => exact ⟨_, _, rfl⟩
  | true => exact ⟨_, _, rfl⟩

theorem commit_per_opening_overlapping :
    ∃ c : InvocationPool ℕ ℕ ℕ ℕ String Bool (GateState Bool Unit),
      Pool.Run (claiming Bool).world (programs Bool)
        (start (fun i => .lifecycle .commitAndRollback true (!i) 1) (.initial true)) overlapping c ∧
      ∃ i, commits overlapping = [i] ∧ (∃ p a, c.phases i = .finished p a ∧ a.succeeds = true) ∧
        ∀ j, j ≠ i → ∃ p a, c.phases j = .finished p a ∧ a.rejects = true := by
  obtain ⟨c, hrun, ht⟩ := overlapping_run
  refine ⟨c, hrun, (commit_per_opening hrun).2 inferInstance rfl ?_ ht⟩
  simp [overlapping, Label.Quiet, Call.fails, Reply.panicked]

end DoubleChecked
