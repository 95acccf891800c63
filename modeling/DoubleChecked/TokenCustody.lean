import DoubleChecked.Commits

/-!
# Where the tokens are

The world may be any world at all: any lock, any gate, any interleaving, any replies but
the panic of a destructor during an unwind. At every moment a prepared token is still
owned by the invocation that prepared it, or it has been handed over once, in the state
in which that invocation's own task left it.
-/

namespace DoubleChecked
open Effect

variable {P R E C π ι σ χ : Type}

structure Account (P R E C π : Type) where
  minted : ℕ
  slot : Option P
  returnedOk : Bool
  releasePanicked : Bool
  handed : List (Call P R E C π)

namespace Account

def commitPath (a : Account P R E C π) : Bool := a.returnedOk && !a.releasePanicked

def after (a : Account P R E C π) : CallEvent P R E C π → Account P R E C π
  | ⟨.prepare, .ret (.ok t)⟩ => { a with minted := a.minted + 1, slot := some t }
  | ⟨.task, r⟩ => { a with returnedOk := a.returnedOk || (Call.task : Call P R E C π).returnsOk r }
  | ⟨.taskWithToken t, r⟩ =>
    { a with
      slot := some r.2
      returnedOk := a.returnedOk || (Call.taskWithToken t : Call P R E C π).returnsOk r }
  | ⟨.dropGuard _, r⟩ => { a with releasePanicked := a.releasePanicked || r.panicked }
  | ⟨.commit t, _⟩ => { a with handed := a.handed ++ [.commit t] }
  | ⟨.rollback t cause, _⟩ => { a with handed := a.handed ++ [.rollback t cause] }
  | ⟨.dropToken mode t, _⟩ => { a with handed := a.handed ++ [.dropToken mode t] }
  | _ => a

end Account

def account (es : List (CallEvent P R E C π)) : Account P R E C π :=
  es.foldl Account.after ⟨0, none, false, false, []⟩

theorem account_snoc {es : List (CallEvent P R E C π)} {a : Account P R E C π}
    (h : account es = a) (e : CallEvent P R E C π) : account (es ++ [e]) = a.after e := by
  rw [← h]
  simp [account]

theorem handed_account (es : List (CallEvent P R E C π)) :
    (account es).handed = (es.map Event.op).filter Call.handsOver := by
  suffices h : ∀ a : Account P R E C π, (es.foldl Account.after a).handed =
      a.handed ++ (es.map Event.op).filter Call.handsOver from h _
  induction es with
  | nil => intro a; simp
  | cons e es ih =>
    intro a
    rw [List.foldl_cons, ih, List.map_cons]
    match e with
    | ⟨.prepare, .ret (.ok t)⟩ | ⟨.prepare, .ret (.error c)⟩ | ⟨.prepare, .panic p⟩ => rfl
    | ⟨.predicate, r⟩ | ⟨.lock, r⟩ | ⟨.dropGuard u, r⟩ | ⟨.task, r⟩ => rfl
    | ⟨.taskWithToken t, r⟩ | ⟨.dropTask u, r⟩ | ⟨.discard mode w, r⟩ => rfl
    | ⟨.commit t, r⟩ | ⟨.rollback t cause, r⟩ | ⟨.dropToken mode t, r⟩ =>
      exact List.append_assoc a.handed [_] _

/-- Where the token is, by the hand-overs that have begun: nowhere before prepare has
returned one, with the invocation until it ends, or handed over once. -/
inductive TokenPlace (i : Invocation) (a : Account P R E C π) (finished : Prop) :
    List (Call P R E C π) → Prop
  | unminted : a.slot = none → TokenPlace i a finished []
  | owned (t : P) : a.slot = some t → ¬finished → TokenPlace i a finished []
  | committed (t : P) : a.slot = some t → a.commitPath = true → i.hasCommit = true →
      TokenPlace i a finished [.commit t]
  | rolledBack (t : P) (cause : RollbackCause E π) : a.slot = some t → a.commitPath = false →
      i.hasRollback = true → TokenPlace i a finished [.rollback t cause]
  | dropped (t : P) : a.slot = some t →
      (if a.commitPath then i.hasCommit else i.hasRollback) = false →
      TokenPlace i a finished [.dropToken .scope t]

def Station.Accounted (i : Invocation) : Station P R E C π → Account P R E C π → Prop
  | .fresh, a | .admitted, a => a = ⟨0, none, false, false, []⟩
  | .acquiring token, a | .guarded token, a | .cleared token, a =>
    a = ⟨token.toList.length, token, false, false, []⟩
  | .releasing token v, a => a = ⟨token.toList.length, token, v.commits, false, []⟩ ∧
      (v.started = false → v = .conditionNotMet ∨ v.unwinding = true)
  | .skipping token v, a => (token = none ∨ v = .conditionNotMet ∨ v.unwinding = true) ∧
      v.commits = false ∧ ∃ b, a = ⟨token.toList.length, token, false, b, []⟩
  | .finalizing t v, a => a.minted = 1 ∧ a.slot = some t ∧ a.commitPath = v.commits ∧ a.handed = []
  | .ended _ _ _, a => a.minted = a.slot.toList.length ∧ TokenPlace i a True a.handed

section Steps
variable {i : Invocation} {token : Option P} {v w : Verdict R E C π} {a : Account P R E C π}

theorem accounted_settle (hm : a.minted = token.toList.length) (hs : a.slot = token)
    (hp : a.commitPath = v.commits) (hh : a.handed = []) :
    (Station.settle token v).Accounted i a := by
  cases token with
  | none =>
    refine ⟨?_, ?_⟩
    · rw [hm, hs]
    · rw [hh]
      exact .unminted hs
  | some t => exact ⟨hm, hs, hp, hh⟩

theorem accounted_release {x : Reply π Unit} {u : Bool}
    (hw : w = v ∧ x.panicked = false ∨ w.unwinding = true ∧ x.panicked = true)
    (h : (Station.releasing token v).Accounted i a) :
    (Station.afterRelease token w v.started).Accounted i (a.after ⟨.dropGuard u, x⟩) := by
  obtain ⟨rfl, hv⟩ := h
  have hcommits : w.unwinding = true → w.commits = false := by
    intro hw
    match w with
    | .panicked phase p => rfl
  cases hs : v.started with
  | true =>
    refine accounted_settle rfl rfl ?_ rfl
    rcases hw with ⟨rfl, hx⟩ | ⟨hw, hx⟩
    · simp [Account.after, Account.commitPath, hx]
    · simp [Account.after, Account.commitPath, hx, hcommits hw]
  | false =>
    have hn : v.commits = false := by
      match v with
      | .notAdmitted | .checkPanicked _ | .prepareFailed _ | .preparePanicked _ => rfl
      | .conditionNotMet | .panicked _ _ => rfl
    rcases hw with ⟨rfl, hx⟩ | ⟨hw, hx⟩
    · exact ⟨.inr (hv hs), hn, _, by rw [hn]; rfl⟩
    · exact ⟨.inr (.inr hw), hcommits hw, _, by rw [hn]; rfl⟩

theorem accounted_skip {x : Reply π Unit} {u : Bool} {cleanup : Option π}
    (h : (Station.skipping token v).Accounted i a) :
    (Station.afterSkip token v cleanup).Accounted i (a.after ⟨.dropTask u, x⟩) := by
  obtain ⟨hv, hn, b, rfl⟩ := h
  have hsettle {w : Verdict R E C π} (hw : w.commits = false) :
      (Station.settle token w).Accounted i
        (⟨token.toList.length, token, false, b, []⟩ : Account P R E C π) :=
    accounted_settle rfl rfl hw.symm rfl
  have hended {w : Verdict R E C π} (hw : token = none) :
      (Station.ended w cleanup .notReached : Station P R E C π).Accounted i
        ⟨token.toList.length, token, false, b, []⟩ :=
    ⟨rfl, .unminted hw⟩
  match v, cleanup with
  | .conditionNotMet, some p => exact hsettle rfl
  | .conditionNotMet, none => exact hsettle rfl
  | .panicked _ _, _ => exact hsettle rfl
  | .notAdmitted, _ => exact hended (by simpa [Verdict.unwinding] using hv)
  | .checkPanicked _, _ => exact hended (by simpa [Verdict.unwinding] using hv)
  | .prepareFailed _, _ => exact hended (by simpa [Verdict.unwinding] using hv)
  | .preparePanicked _, _ => exact hended (by simpa [Verdict.unwinding] using hv)
  | .returned _, _ => exact hended (by simpa [Verdict.unwinding] using hv)

variable [PanicPayload π] {q q' : Station P R E C π} {o : Call P R E C π} {r : o.Answer}

theorem finalizing_of_allows (h : i.allows q o) (ho : o.handsOver = true) :
    ∃ t v, q = .finalizing t v := by
  cases o with
  | commit | rollback | dropToken =>
    cases q with
    | finalizing t v => exact ⟨t, v, rfl⟩
    | _ => exact h.elim
  | _ => exact nomatch ho

theorem tokenPlace_of_allows {t : P} {finished : Prop} (ho : o.handsOver = true)
    (h : i.allows (.finalizing t v) o) (ht : a.slot = some t) (hp : a.commitPath = v.commits) :
    TokenPlace i a finished [o] := by
  cases o with
  | commit t' =>
    obtain ⟨rfl, hv, hc⟩ := h
    exact .committed _ ht (hp.trans hv) hc
  | rollback t' cause =>
    obtain ⟨rfl, hv, hc⟩ := h
    exact .rolledBack _ cause ht (hp.trans (Verdict.not_commits_of_cause hv)) hc
  | dropToken mode t' =>
    obtain ⟨rfl, rfl, hf⟩ := h
    refine .dropped _ ht ?_
    rw [hp]
    exact hf
  | _ => exact nomatch ho

theorem accounted_ended {t : P} {cleanup : Option π} {f : Finalization C π}
    (h : (Station.finalizing t v).Accounted i a) (ho : o.handsOver = true)
    (ha : i.allows (.finalizing t v) o) : (Station.ended (P := P) v cleanup f).Accounted i
      { a with handed := a.handed ++ [o] } := by
  obtain ⟨hm, hs, hp, hh⟩ := h
  refine ⟨?_, ?_⟩
  · change a.minted = a.slot.toList.length
    rw [hm, hs]
    rfl
  · rw [hh]
    exact tokenPlace_of_allows ho ha hs hp

theorem accounted_step (hq : q.Accounted i a) (h : i.Step q o r q') :
    q'.Accounted i (a.after ⟨o, r⟩) := by
  cases h with
  | accept =>
    obtain rfl := hq
    cases i <;> rfl
  | reject =>
    obtain rfl := hq
    exact ⟨.inl rfl, rfl, _, rfl⟩
  | checkPanic p =>
    obtain rfl := hq
    exact ⟨.inl rfl, rfl, _, rfl⟩
  | prepare t =>
    obtain rfl := hq
    rfl
  | prepareFail c =>
    obtain rfl := hq
    exact ⟨.inl rfl, rfl, _, rfl⟩
  | preparePanic p =>
    obtain rfl := hq
    exact ⟨.inl rfl, rfl, _, rfl⟩
  | acquire token u => exact hq
  | acquirePanic token p => exact ⟨.inr (.inr rfl), rfl, _, hq⟩
  | recheck token => exact hq
  | recheckReject token => exact ⟨hq, fun _ => .inl rfl⟩
  | recheckPanic token p => exact ⟨hq, fun _ => .inr rfl⟩
  | taskReturn token result =>
    obtain rfl := hq
    cases result <;> exact ⟨rfl, nofun⟩
  | taskPanic token p =>
    obtain rfl := hq
    exact ⟨rfl, nofun⟩
  | tokenTaskReturn t t' result =>
    obtain rfl := hq
    cases result <;> exact ⟨rfl, nofun⟩
  | tokenTaskPanic t t' p =>
    obtain rfl := hq
    exact ⟨rfl, nofun⟩
  | release token v u => exact accounted_release (.inl ⟨rfl, rfl⟩) hq
  | releasePanic token v p hv => exact accounted_release (.inr ⟨rfl, rfl⟩) hq
  | skip token v u => exact accounted_skip hq
  | skipPanic token v p hv => exact accounted_skip hq
  | commit t v r hv hc => exact accounted_ended hq rfl ⟨rfl, hv, hc⟩
  | rollback t v cause r hv hc => exact accounted_ended hq rfl ⟨rfl, hv, hc⟩
  | dropToken t v r hf => exact accounted_ended hq rfl ⟨rfl, rfl, hf⟩
  | discardEarly => exact hq
  | discardLate => exact hq

theorem accounted_of_path {es : List (CallEvent P R E C π)} (h : i.monitor.Path .fresh es q) :
    q.Accounted i (account es) :=
  h.invariant (I := fun es q => q.Accounted i (account es)) rfl fun fs q o r hq ha hr => by
    rw [account_snoc rfl]
    exact accounted_step hq (Invocation.step_of_allows ha hr)

end Steps

section Runs
variable [DecidableEq ι] [PanicPayload π] {invocations : ι → Invocation}
  {W : World (Calls P R E C π) ι σ χ} {ls : List (InvocationLabel P R E C π ι χ)}

omit [DecidableEq ι] [PanicPayload π] in
theorem TokenPlace.mono {i : Invocation} {a : Account P R E C π} {finished finished' : Prop}
    {calls : List (Call P R E C π)} (h : TokenPlace i a finished calls)
    (hf : finished' → finished) : TokenPlace i a finished' calls := by
  cases h with
  | unminted hs => exact .unminted hs
  | owned t hs hn => exact .owned t hs fun hf' => hn (hf hf')
  | committed t hs hp hc => exact .committed t hs hp hc
  | rolledBack t cause hs hp hc => exact .rolledBack t cause hs hp hc
  | dropped t hs hc => exact .dropped t hs hc

omit [DecidableEq ι] [PanicPayload π] in
theorem tokenPlace_of_accounted {i : Invocation} {q : Station P R E C π}
    {a : Account P R E C π} (h : q.Accounted i a) :
    a.minted = a.slot.toList.length ∧ TokenPlace i a (∃ v cleanup f, q = .ended v cleanup f)
      a.handed := by
  have hplace {m : ℕ} {token : Option P} {b b' : Bool} {finished : Prop} (hf : ¬finished) :
      TokenPlace i (⟨m, token, b, b', []⟩ : Account P R E C π) finished [] := by
    cases token with
    | none => exact .unminted rfl
    | some t => exact .owned t rfl hf
  cases q with
  | fresh | admitted =>
    obtain rfl := h
    exact ⟨rfl, .unminted rfl⟩
  | acquiring token | guarded token | cleared token =>
    obtain rfl := h
    exact ⟨rfl, hplace nofun⟩
  | releasing token v =>
    obtain ⟨rfl, -⟩ := h
    exact ⟨rfl, hplace nofun⟩
  | skipping token v =>
    obtain ⟨-, -, b, rfl⟩ := h
    exact ⟨rfl, hplace nofun⟩
  | finalizing t v =>
    obtain ⟨hm, hs, -, hh⟩ := h
    rw [hm, hs, hh]
    exact ⟨rfl, .owned t hs nofun⟩
  | ended v cleanup f =>
    refine ⟨h.1, ?_⟩
    have hfinished : (∃ v' cleanup' f', Station.ended (P := P) v cleanup f =
        .ended v' cleanup' f') = True := eq_true ⟨v, cleanup, f, rfl⟩
    rw [hfinished]
    exact h.2

theorem tokenPlace_of_phase {i : Invocation} {p : StationPhase P R E C π}
    {a : Account P R E C π} (ha : p.body.Accounted i a)
    (hp : p.Legal (i.monitor.agent i.returns)) :
    TokenPlace i a (∃ q x, p = .finished q x)
      (a.handed ++ p.current.toList.filter Call.handsOver) := by
  have hplace := (tokenPlace_of_accounted ha).2
  cases p with
  | pending q | idle q =>
    change TokenPlace i a _ (a.handed ++ [])
    rw [List.append_nil]
    exact hplace.mono (by simp)
  | finished q x =>
    change TokenPlace i a _ (a.handed ++ [])
    rw [List.append_nil]
    obtain ⟨v, cleanup, f, rfl, -⟩ := hp
    exact hplace.mono fun _ => ⟨v, cleanup, f, rfl⟩
  | inside q o =>
    cases ho : o.handsOver with
    | false =>
      have hnone : [o].filter Call.handsOver = [] := by simp [ho]
      change TokenPlace i a _ (a.handed ++ [o].filter Call.handsOver)
      rw [hnone, List.append_nil]
      exact hplace.mono (by simp)
    | true =>
      have hsome : [o].filter Call.handsOver = [o] := by simp [ho]
      change TokenPlace i a _ (a.handed ++ [o].filter Call.handsOver)
      obtain ⟨t, v, rfl⟩ := finalizing_of_allows hp ho
      obtain ⟨-, hs, hc, hh⟩ := ha
      rw [hh, hsome]
      exact tokenPlace_of_allows ho hp hs hc

/-- In every run of any invocations in any world, where only a destructor's panic during
an unwind is excluded: prepare returns at most one token to an invocation, and that token
is in exactly one place. -/
theorem token_conservation (admitted : ∀ i o r s s', W.leave i o r s s' → o.admits r) {s : σ}
    {c : InvocationPool P R E C π ι σ}
    (h : Pool.Run W (programs ι) (start invocations s) ls c) (i : ι) :
    (account (eventsOf i ls)).minted = (account (eventsOf i ls)).slot.toList.length ∧
    TokenPlace (invocations i) (account (eventsOf i ls)) (∃ p x, c.phases i = .finished p x)
      ((callsOf i ls).filter Call.handsOver) := by
  obtain ⟨d, hrun, hm⟩ := h.simulate start_matches station_simulation admitted
  have ha : (d.phases i).body.Accounted (invocations i) (account (eventsOf i ls)) :=
    accounted_of_path (station_path hrun i)
  have hplace := tokenPlace_of_phase ha (hrun.legal (fun _ => trivial) i)
  refine ⟨(tokenPlace_of_accounted ha).1, ?_⟩
  rw [hrun.callsOf_eq rfl, List.filter_append, ← handed_account]
  apply hplace.mono
  intro hfinished
  obtain ⟨p, x, hp⟩ := hfinished
  obtain ⟨q, hq⟩ := hm.finished_iff.mp ⟨p, hp⟩
  exact ⟨q, x, hq⟩

end Runs

theorem token_conservation_overlapping :
    ∃ c : InvocationPool ℕ ℕ ℕ ℕ String Bool (GateState Bool Unit),
      Pool.Run (claiming Bool).world (programs Bool)
        (start (fun i => .lifecycle .commitAndRollback true (!i) 1) (.initial true)) overlapping c ∧
      TokenPlace (.lifecycle .commitAndRollback true true 1)
        (account (eventsOf false overlapping)) (∃ p x, c.phases false = .finished p x)
        [.rollback 2 .conditionNotMet] := by
  obtain ⟨c, hrun, -⟩ := overlapping_run
  exact ⟨c, hrun, (token_conservation (claiming Bool).admits_of_leave hrun false).2⟩

end DoubleChecked
