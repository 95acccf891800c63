import DoubleChecked.Conformance

/-!
# The ordering law of one invocation

`CallLaw` says of a complete trace in which order and how often the calls of an
invocation come: the checks, prepare, the lock, the task, the guard, the
destructors and the finalizers. The station reached after a prefix of the trace
determines what that prefix looks like, and the law is read off at the station
that allows the next call.
-/

namespace DoubleChecked
open Effect

variable {P R E C π σ : Type}

def acquires : CallEvent P R E C π → Bool
  | ⟨.lock, .ret _⟩ => true
  | _ => false

def mints : CallEvent P R E C π → Bool
  | ⟨.prepare, .ret (.ok _)⟩ => true
  | _ => false

structure Tally where
  checked : ℕ
  acquired : ℕ
  released : ℕ
  started : ℕ
  dropped : ℕ
  minted : ℕ
  handed : ℕ

namespace Tally

instance : Add Tally where
  add a b := ⟨a.checked + b.checked, a.acquired + b.acquired, a.released + b.released,
    a.started + b.started, a.dropped + b.dropped, a.minted + b.minted, a.handed + b.handed⟩

theorem mk_add (a b c d e f g a' b' c' d' e' f' g' : ℕ) :
    (⟨a, b, c, d, e, f, g⟩ : Tally) + ⟨a', b', c', d', e', f', g'⟩ =
      ⟨a + a', b + b', c + c', d + d', e + e', f + f', g + g'⟩ := rfl

end Tally

def tally (es : List (CallEvent P R E C π)) : Tally where
  checked := es.countP (·.op.isPredicate)
  acquired := es.countP acquires
  released := es.countP (·.op.isDropGuard)
  started := es.countP (·.op.startsTask)
  dropped := es.countP (·.op.isDropTask)
  minted := es.countP mints
  handed := es.countP (·.op.handsOver)

theorem tally_append (es fs : List (CallEvent P R E C π)) :
    tally (es ++ fs) = tally es + tally fs := by
  simp [tally, Tally.mk_add]

def GuardHeld (es : List (CallEvent P R E C π)) : Prop :=
  (tally es).released < (tally es).acquired

inductive Opening (i : Invocation) : Option P → List (CallEvent P R E C π) → Prop
  | unprepared : i.prepares = false → Opening i none [⟨.predicate, .ret true⟩]
  | prepared (t : P) : i.prepares = true →
      Opening i (some t) [⟨.predicate, .ret true⟩, ⟨.prepare, .ret (.ok t)⟩]

/-- What must have happened before a call is made. -/
def Lawful (i : Invocation) (pre : List (CallEvent P R E C π)) : Call P R E C π → Prop
  | .predicate => pre = [] ∨ GuardHeld pre ∧ (tally pre).checked = 1
  | .prepare => i.prepares = true ∧ pre = [⟨.predicate, .ret true⟩]
  | .lock => ∃ token, Opening i token pre
  | .task | .taskWithToken _ => (tally pre).started = 0 ∧
      ∃ before, pre = before ++ [⟨.predicate, .ret true⟩] ∧ GuardHeld before
  | .dropGuard _ => GuardHeld pre ∧ (tally pre).checked = 2 ∧
      ((tally pre).started = 1 ∨ ∃ before r, r ≠ .ret true ∧ pre = before ++ [⟨.predicate, r⟩])
  | .dropTask _ => ¬GuardHeld pre ∧ 0 < (tally pre).checked ∧ (tally pre).started = 0 ∧
      (tally pre).dropped = 0
  | .commit _ => i.hasCommit = true ∧ ¬GuardHeld pre ∧ (tally pre).started = 1 ∧
      (tally pre).minted = 1 ∧ (tally pre).handed = 0
  | .rollback _ _ => i.hasRollback = true ∧ ¬GuardHeld pre ∧
      (tally pre).started + (tally pre).dropped = 1 ∧ (tally pre).minted = 1 ∧
      (tally pre).handed = 0
  | .dropToken _ _ => ¬GuardHeld pre ∧ (tally pre).started + (tally pre).dropped = 1 ∧
      (tally pre).minted = 1 ∧ (tally pre).handed = 0
  | .discard _ _ => ¬GuardHeld pre ∧ (tally pre).started + (tally pre).dropped = 1

structure CallLaw (i : Invocation) (es : List (CallEvent P R E C π)) : Prop where
  first : ∃ r rest, es = ⟨.predicate, r⟩ :: rest
  lawful : ∀ pre e post, es = pre ++ e :: post → Lawful i pre e.op
  checkedOnce : (tally es).checked ≤ 1 + (tally es).acquired
  acquiredOnce : (tally es).acquired ≤ 1
  startedInside : (tally es).started ≤ (tally es).acquired
  released : (tally es).released = (tally es).acquired
  taskOnce : (tally es).started + (tally es).dropped = 1
  mintedOnce : (tally es).minted ≤ 1
  handed : (tally es).handed = (tally es).minted

def Station.Reached (i : Invocation) : Station P R E C π → List (CallEvent P R E C π) → Prop
  | .fresh, es => es = []
  | .admitted, es => i.prepares = true ∧ es = [⟨.predicate, .ret true⟩]
  | .acquiring token, es => Opening i token es
  | .guarded token, es => tally es = ⟨1, 1, 0, 0, 0, token.toList.length, 0⟩
  | .cleared token, es => ∃ before, es = before ++ [⟨.predicate, .ret true⟩] ∧
      tally before = ⟨1, 1, 0, 0, 0, token.toList.length, 0⟩
  | .releasing token v, es => tally es = ⟨2, 1, 0, v.started.toNat, 0, token.toList.length, 0⟩ ∧
      (v.started = false → (v = .conditionNotMet ∨ v.unwinding = true) ∧
        ∃ before r, r ≠ .ret true ∧ es = before ++ [⟨.predicate, r⟩])
  | .skipping token v, es => (token = none ∨ v = .conditionNotMet ∨ v.unwinding = true) ∧
      ∃ c a, 0 < c ∧ c ≤ 1 + a ∧ a ≤ 1 ∧ tally es = ⟨c, a, a, 0, 0, token.toList.length, 0⟩
  | .finalizing _ v, es => ∃ c a s d, c ≤ 1 + a ∧ a ≤ 1 ∧ s ≤ a ∧ s + d = 1 ∧
      (v.commits = true → s = 1) ∧ tally es = ⟨c, a, a, s, d, 1, 0⟩
  | .ended _ _ _, es => ∃ c a s d m, c ≤ 1 + a ∧ a ≤ 1 ∧ s ≤ a ∧ s + d = 1 ∧ m ≤ 1 ∧
      tally es = ⟨c, a, a, s, d, m, m⟩

theorem Opening.tally {i : Invocation} {token : Option P} {es : List (CallEvent P R E C π)}
    (h : Opening i token es) : tally es = ⟨1, 0, 0, 0, 0, token.toList.length, 0⟩ := by
  cases h <;> rfl

theorem reached_settle {i : Invocation} {token : Option P} {v : Verdict R E C π}
    {es : List (CallEvent P R E C π)} {c a s d : ℕ} (hc : c ≤ 1 + a) (ha : a ≤ 1) (hsa : s ≤ a)
    (hs : s + d = 1) (hv : v.commits = true → s = 1)
    (h : tally es = ⟨c, a, a, s, d, token.toList.length, 0⟩) :
    (Station.settle token v).Reached i es := by
  cases token with
  | none => exact ⟨c, a, s, d, 0, hc, ha, hsa, hs, Nat.zero_le _, h⟩
  | some t => exact ⟨c, a, s, d, hc, ha, hsa, hs, hv, h⟩

theorem tally_snoc {es : List (CallEvent P R E C π)} {n : Tally} (h : tally es = n)
    (e : CallEvent P R E C π) : tally (es ++ [e]) = n + tally [e] := by
  rw [tally_append, h]

theorem guardHeld_of {es : List (CallEvent P R E C π)} {n : Tally} (h : tally es = n)
    (hn : n.released < n.acquired) : GuardHeld es := by
  rw [GuardHeld, h]
  exact hn

theorem not_guardHeld_of {es : List (CallEvent P R E C π)} {n : Tally} (h : tally es = n)
    (hn : n.acquired ≤ n.released) : ¬GuardHeld es := by
  rw [GuardHeld, h]
  exact Nat.not_lt.mpr hn

section Reached
variable {i : Invocation} {es : List (CallEvent P R E C π)} {v w : Verdict R E C π}
  {token : Option P} {u : Bool} {x : Reply π Unit}

theorem reached_early (h : tally es = ⟨1, 0, 0, 0, 0, 0, 0⟩) :
    (Station.skipping none v).Reached i es :=
  ⟨.inl rfl, 1, 0, by decide, by decide, by decide, h⟩

theorem reached_release (hw : w = v ∨ w.unwinding = true)
    (hq : (Station.releasing token v).Reached i es) :
    (Station.afterRelease token w v.started).Reached i (es ++ [⟨.dropGuard u, x⟩]) := by
  obtain ⟨ht, hv⟩ := hq
  have hn := tally_snoc ht ⟨.dropGuard u, x⟩
  cases hs : v.started with
  | true =>
    rw [hs] at hn
    exact reached_settle (Nat.le_refl 2) (Nat.le_refl 1) (Nat.le_refl 1) rfl (fun _ => rfl) hn
  | false =>
    rw [hs] at hn
    refine ⟨.inr ?_, 2, 1, by decide, by decide, by decide, hn⟩
    rcases hw with rfl | hw
    · exact (hv hs).1
    · exact .inr hw

theorem reached_skip {cleanup : Option π} (hq : (Station.skipping token v).Reached i es) :
    (Station.afterSkip token v cleanup).Reached i (es ++ [⟨.dropTask u, x⟩]) := by
  obtain ⟨hv, c, a, -, hc, ha, ht⟩ := hq
  have hn := tally_snoc ht ⟨.dropTask u, x⟩
  have hsettle (w : Verdict R E C π) (hw : w.commits = false) :
      (Station.settle token w).Reached i (es ++ [⟨.dropTask u, x⟩]) :=
    reached_settle hc ha (Nat.zero_le a) rfl (fun h => absurd h (by simp [hw])) hn
  have hended (h : token = none) (w : Verdict R E C π) (cleanup : Option π) :
      (Station.ended (P := P) w cleanup .notReached).Reached i (es ++ [⟨.dropTask u, x⟩]) := by
    subst h
    exact ⟨c, a, 0, 1, 0, hc, ha, Nat.zero_le a, rfl, Nat.zero_le _, hn⟩
  match v, cleanup with
  | .conditionNotMet, some p => exact hsettle _ rfl
  | .conditionNotMet, none => exact hsettle _ rfl
  | .panicked _ _, _ => exact hsettle _ rfl
  | .notAdmitted, _ => exact hended (by simpa [Verdict.unwinding] using hv) _ _
  | .checkPanicked _, _ => exact hended (by simpa [Verdict.unwinding] using hv) _ _
  | .prepareFailed _, _ => exact hended (by simpa [Verdict.unwinding] using hv) _ _
  | .preparePanicked _, _ => exact hended (by simpa [Verdict.unwinding] using hv) _ _
  | .returned _, _ => exact hended (by simpa [Verdict.unwinding] using hv) _ _

theorem lawful_guarded {token : Option P} (hq : (Station.guarded token).Reached i es) :
    Lawful i es .predicate :=
  .inr ⟨guardHeld_of hq Nat.one_pos, congrArg Tally.checked hq⟩

theorem lawful_cleared {token : Option P} (hq : (Station.cleared token).Reached i es) :
    (tally es).started = 0 ∧ ∃ before, es = before ++ [⟨.predicate, .ret true⟩] ∧
      GuardHeld before := by
  obtain ⟨before, rfl, hb⟩ := hq
  exact ⟨congrArg Tally.started (tally_snoc hb _), before, rfl, guardHeld_of hb Nat.one_pos⟩

theorem lawful_releasing {token : Option P} {v : Verdict R E C π} {u : Bool}
    (hq : (Station.releasing token v).Reached i es) : Lawful i es (.dropGuard u) := by
  obtain ⟨ht, hv⟩ := hq
  refine ⟨guardHeld_of ht Nat.one_pos, congrArg Tally.checked ht, ?_⟩
  cases hs : v.started with
  | true =>
    rw [hs] at ht
    exact .inl (congrArg Tally.started ht)
  | false => exact .inr (hv hs).2

theorem lawful_skipping {token : Option P} {v : Verdict R E C π} {u : Bool}
    (hq : (Station.skipping token v).Reached i es) : Lawful i es (.dropTask u) := by
  obtain ⟨-, c, a, hc, -, -, ht⟩ := hq
  exact ⟨not_guardHeld_of ht (Nat.le_refl a), (congrArg Tally.checked ht).symm ▸ hc,
    congrArg Tally.started ht, congrArg Tally.dropped ht⟩

theorem lawful_finalizing {t : P} {v : Verdict R E C π}
    (hq : (Station.finalizing t v).Reached i es) : ¬GuardHeld es ∧
      (tally es).started + (tally es).dropped = 1 ∧ (v.commits = true → (tally es).started = 1) ∧
      (tally es).minted = 1 ∧ (tally es).handed = 0 := by
  obtain ⟨c, a, s, d, -, -, -, hs, hv, ht⟩ := hq
  refine ⟨not_guardHeld_of ht (Nat.le_refl a), ?_⟩
  rw [ht]
  exact ⟨hs, hv, rfl, rfl⟩

theorem lawful_ended {v : Verdict R E C π} {cleanup : Option π} {f : Finalization C π}
    (hq : (Station.ended (P := P) v cleanup f).Reached i es) : ¬GuardHeld es ∧
      (tally es).started + (tally es).dropped = 1 := by
  obtain ⟨c, a, s, d, m, -, -, -, hs, -, ht⟩ := hq
  refine ⟨not_guardHeld_of ht (Nat.le_refl a), ?_⟩
  rw [ht]
  exact hs

end Reached

/-- Any reply but the panic of a destructor during an unwind; the state stays. -/
def Call.Reacts (s : σ) (o : Call P R E C π) (r : o.Answer) (s' : σ) : Prop :=
  o.admits r ∧ s' = s

theorem Call.admits_of_reacts (s : σ) (o : Call P R E C π) (r : o.Answer) (s' : σ)
    (h : Reacts s o r s') : o.admits r :=
  h.1

section Law
variable [PanicPayload π] {i : Invocation} {q q' : Station P R E C π} {o : Call P R E C π}
  {r : o.Answer} {es : List (CallEvent P R E C π)}

theorem reached_step (hq : q.Reached i es) (h : i.Step q o r q') :
    q'.Reached i (es ++ [⟨o, r⟩]) := by
  cases h with
  | accept =>
    cases hq
    cases hp : i.prepares with
    | true => exact ⟨hp, rfl⟩
    | false => exact .unprepared hp
  | reject =>
    cases hq
    exact reached_early rfl
  | checkPanic p =>
    cases hq
    exact reached_early rfl
  | prepare t =>
    obtain ⟨hp, rfl⟩ := hq
    exact .prepared t hp
  | prepareFail c =>
    obtain ⟨-, rfl⟩ := hq
    exact reached_early rfl
  | preparePanic p =>
    obtain ⟨-, rfl⟩ := hq
    exact reached_early rfl
  | acquire token u => exact tally_snoc hq.tally _
  | acquirePanic token p =>
    exact ⟨.inr (.inr rfl), 1, 0, by decide, by decide, by decide, tally_snoc hq.tally _⟩
  | recheck token => exact ⟨es, rfl, hq⟩
  | recheckReject token =>
    exact ⟨tally_snoc hq _, fun _ => ⟨.inl rfl, es, .ret false, nofun, rfl⟩⟩
  | recheckPanic token p =>
    exact ⟨tally_snoc hq _, fun _ => ⟨.inr rfl, es, .panic p, nofun, rfl⟩⟩
  | taskReturn token result =>
    obtain ⟨before, rfl, hb⟩ := hq
    exact ⟨tally_snoc (tally_snoc hb _) _, nofun⟩
  | taskPanic token p =>
    obtain ⟨before, rfl, hb⟩ := hq
    exact ⟨tally_snoc (tally_snoc hb _) _, nofun⟩
  | tokenTaskReturn t t' result =>
    obtain ⟨before, rfl, hb⟩ := hq
    exact ⟨tally_snoc (tally_snoc hb _) _, nofun⟩
  | tokenTaskPanic t t' p =>
    obtain ⟨before, rfl, hb⟩ := hq
    exact ⟨tally_snoc (tally_snoc hb _) _, nofun⟩
  | release token v u => exact reached_release (.inl rfl) hq
  | releasePanic token v p hv => exact reached_release (.inr rfl) hq
  | skip token v u => exact reached_skip hq
  | skipPanic token v p hv => exact reached_skip hq
  | commit t v r hv hc =>
    obtain ⟨c, a, s, d, hc, ha, hsa, hs, -, ht⟩ := hq
    exact ⟨c, a, s, d, 1, hc, ha, hsa, hs, by decide, tally_snoc ht _⟩
  | rollback t v cause r hv hc =>
    obtain ⟨c, a, s, d, hc, ha, hsa, hs, -, ht⟩ := hq
    exact ⟨c, a, s, d, 1, hc, ha, hsa, hs, by decide, tally_snoc ht _⟩
  | dropToken t v r hf =>
    obtain ⟨c, a, s, d, hc, ha, hsa, hs, -, ht⟩ := hq
    exact ⟨c, a, s, d, 1, hc, ha, hsa, hs, by decide, tally_snoc ht _⟩
  | discardEarly t v mode w r =>
    obtain ⟨c, a, s, d, hc, ha, hsa, hs, hv, ht⟩ := hq
    exact ⟨c, a, s, d, hc, ha, hsa, hs, hv, tally_snoc ht _⟩
  | discardLate v cleanup f mode w r =>
    obtain ⟨c, a, s, d, m, hc, ha, hsa, hs, hm, ht⟩ := hq
    exact ⟨c, a, s, d, m, hc, ha, hsa, hs, hm, tally_snoc ht _⟩

theorem lawful_of_reached (hq : q.Reached i es) (h : i.Step q o r q') : Lawful i es o := by
  cases h with
  | accept => exact .inl hq
  | reject => exact .inl hq
  | checkPanic p => exact .inl hq
  | prepare t => exact hq
  | prepareFail c => exact hq
  | preparePanic p => exact hq
  | acquire token u => exact ⟨token, hq⟩
  | acquirePanic token p => exact ⟨token, hq⟩
  | recheck token => exact lawful_guarded hq
  | recheckReject token => exact lawful_guarded hq
  | recheckPanic token p => exact lawful_guarded hq
  | taskReturn token result => exact lawful_cleared hq
  | taskPanic token p => exact lawful_cleared hq
  | tokenTaskReturn t t' result => exact lawful_cleared hq
  | tokenTaskPanic t t' p => exact lawful_cleared hq
  | release token v u => exact lawful_releasing hq
  | releasePanic token v p hv => exact lawful_releasing hq
  | skip token v u => exact lawful_skipping hq
  | skipPanic token v p hv => exact lawful_skipping hq
  | commit t v r hv hc =>
    obtain ⟨hg, -, hs, hm, hh⟩ := lawful_finalizing hq
    exact ⟨hc, hg, hs hv, hm, hh⟩
  | rollback t v cause r hv hc =>
    obtain ⟨hg, hs, -, hm, hh⟩ := lawful_finalizing hq
    exact ⟨hc, hg, hs, hm, hh⟩
  | dropToken t v r hf =>
    obtain ⟨hg, hs, -, hm, hh⟩ := lawful_finalizing hq
    exact ⟨hg, hs, hm, hh⟩
  | discardEarly t v mode w r =>
    obtain ⟨hg, hs, -⟩ := lawful_finalizing hq
    exact ⟨hg, hs⟩
  | discardLate v cleanup f mode w r => exact lawful_ended hq

theorem reached_of_path (h : i.monitor.Path .fresh es q) : q.Reached i es :=
  h.invariant (I := fun es q => q.Reached i es) rfl
    (fun _ _ _ _ hq ha hr => reached_step hq (Invocation.step_of_allows ha hr))

theorem callLaw_of_path {v : Verdict R E C π} {cleanup : Option π} {f : Finalization C π}
    (h : i.monitor.Path .fresh es (.ended v cleanup f)) : CallLaw i es := by
  obtain ⟨c, a, s, d, m, hc, ha, hsa, hs, hm, ht⟩ := reached_of_path h
  constructor
  case first =>
    cases h with
    | @cons _ _ o r rest allowed _ _ =>
      cases o with
      | predicate => exact ⟨r, rest, rfl⟩
      | _ => exact allowed.elim
  case lawful =>
    intro pre e post he
    subst he
    obtain ⟨q₁, hpre, hpost⟩ := Monitor.path_append.mp h
    cases hpost with
    | cons allowed hr _ =>
      exact lawful_of_reached (reached_of_path hpre) (Invocation.step_of_allows allowed hr)
  all_goals rw [ht]
  case checkedOnce => exact hc
  case acquiredOnce => exact ha
  case startedInside => exact hsa
  case taskOnce => exact hs
  case mintedOnce => exact hm

variable {ρ : σ → (o : Call P R E C π) → o.Answer → σ → Prop} {s s' : σ}
  {a : Answer R E C π}

/-- Every execution of every entry point obeys the law, whatever its callbacks, its
lock and its destructors do, as long as no destructor panics during an unwind. -/
theorem exec_callLaw (admitted : ∀ s o r s', ρ s o r s' → o.admits r)
    (hx : Program.Exec ρ i.program s es a s') : CallLaw i es := by
  obtain ⟨q, hpath, ⟨v, cleanup, f, rfl, -⟩, -⟩ := hx.follows
    (J := fun _ _ _ => True) (program_wp i) trivial admitted (fun _ _ _ _ _ _ _ _ _ _ => trivial)
  exact callLaw_of_path hpath

end Law

theorem exec_callLaw_rollback : CallLaw (P := ℕ) (R := ℕ) (E := ℕ) (C := ℕ) (π := String)
    (.lifecycle .commitAndRollback true false 1)
    [⟨.predicate, .ret true⟩, ⟨.prepare, .ret (.ok 3)⟩, ⟨.lock, .ret ()⟩, ⟨.predicate, .ret true⟩,
      ⟨.taskWithToken 3, (.ret (.error 5), 4)⟩, ⟨.dropGuard false, .ret ()⟩,
      ⟨.rollback 4 (.taskFailed 5), .ret (.ok ())⟩] :=
  exec_callLaw (s := ()) Call.admits_of_reacts
    (.call ⟨trivial, rfl⟩ (.call ⟨trivial, rfl⟩ (.call ⟨trivial, rfl⟩ (.call ⟨trivial, rfl⟩
      (.call ⟨trivial, rfl⟩ (.call ⟨nofun, rfl⟩ (.call ⟨trivial, rfl⟩ (.pure _ _))))))))

end DoubleChecked
