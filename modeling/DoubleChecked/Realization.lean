import DoubleChecked.Effect.Guidance
import DoubleChecked.CallbackPrograms

/-!
# The protocol is exact

Apart from the destructors of discarded values, an entry point does all that the protocol
allows it, and nothing else: no station of the protocol is out of reach, and no reply is
lost on the answer.
-/

namespace DoubleChecked
open Effect

variable {P R E C π : Type}

def Invocation.borrows : Invocation → Bool
  | .basic _ _ => false
  | .lifecycle _ withToken _ _ => withToken

def Invocation.speaks (i : Invocation) : Call P R E C π → Prop
  | .task => i.borrows = false
  | .taskWithToken _ => i.borrows = true
  | _ => True

/-- A call that nobody can answer may stand in the code, as it is never made. -/
def Invocation.makes (i : Invocation) (o : Call P R E C π) : Prop := i.speaks o ∨ ¬Nonempty o.Answer

def withoutToken : Interpretation (Calls P R E C π) (Calls P R E C π)
  | .taskWithToken token => .call (S := Calls P R E C π) .task fun r => .pure (r, token)
  | o => .call (S := Calls P R E C π) o .pure

open Classical in
noncomputable def withoutTask : Interpretation (Calls P R E C π) (Calls P R E C π)
  | .task => if h : Nonempty (Reply π (Except E R)) then .pure h.some else
    .call (S := Calls P R E C π) .task .pure
  | o => .call (S := Calls P R E C π) o .pure

theorem makes_withoutToken {i : Invocation} (hi : i.borrows = false) (o : Call P R E C π) :
    (withoutToken o).Makes i.makes := by
  cases o with
  | task => exact ⟨.inl hi, fun _ => trivial⟩
  | taskWithToken token => exact ⟨.inl hi, fun _ => trivial⟩
  | _ => exact ⟨.inl trivial, fun _ => trivial⟩

theorem makes_withoutTask {i : Invocation} (hi : i.borrows = true) (o : Call P R E C π) :
    (withoutTask o).Makes i.makes := by
  cases o with
  | task =>
    by_cases h : Nonempty (Reply π (Except E R))
    · rw [withoutTask, dif_pos h]
      trivial
    · rw [withoutTask, dif_neg h]
      exact ⟨.inr h, fun _ => trivial⟩
  | taskWithToken token => exact ⟨.inl hi, fun _ => trivial⟩
  | _ => exact ⟨.inl trivial, fun _ => trivial⟩

variable [PanicPayload π]

theorem program_makes (i : Invocation) :
    (i.program (P := P) (R := R) (E := E) (C := C) (π := π)).Makes i.makes := by
  have hplain (hi : i.borrows = false)
      (h : i.program (P := P) (R := R) (E := E) (C := C) (π := π) = i.programWith withoutToken) :
      (i.program (P := P) (R := R) (E := E) (C := C) (π := π)).Makes i.makes := by
    rw [h, programWith_eq]
    exact Program.makes_interpret (makes_withoutToken hi) _
  cases i with
  | basic catching clones => exact hplain rfl rfl
  | lifecycle finalizers withToken catching clones =>
    cases withToken with
    | false => cases finalizers <;> cases catching <;> exact hplain rfl rfl
    | true =>
      have h : (Invocation.lifecycle finalizers true catching clones).program
          (P := P) (R := R) (E := E) (C := C) (π := π) =
          (Invocation.lifecycle finalizers true catching clones).programWith withoutTask := by
        cases finalizers <;> cases catching <;> rfl
      rw [h, programWith_eq]
      exact Program.makes_interpret (makes_withoutTask rfl) _

inductive Invocation.Due (i : Invocation) : Station P R E C π → Call P R E C π → Prop
  | check : Due i .fresh .predicate
  | prepare : Due i .admitted .prepare
  | lock (token : Option P) : Due i (.acquiring token) .lock
  | recheck (token : Option P) : Due i (.guarded token) .predicate
  | task (token : Option P) : Due i (.cleared token) .task
  | tokenTask (t : P) : Due i (.cleared (some t)) (.taskWithToken t)
  | release (token : Option P) (v : Verdict R E C π) :
      Due i (.releasing token v) (.dropGuard v.unwinding)
  | skip (token : Option P) (v : Verdict R E C π) :
      Due i (.skipping token v) (.dropTask (v.dropsUnwinding i.catching))
  | commit (t : P) (v : Verdict R E C π) : v.commits = true → i.hasCommit = true →
      Due i (.finalizing t v) (.commit t)
  | rollback (t : P) (v : Verdict R E C π) (cause : RollbackCause E π) : v.cause = some cause →
      i.hasRollback = true → Due i (.finalizing t v) (.rollback t cause)
  | dropToken (t : P) (v : Verdict R E C π) : i.hasFinalizer v = false →
      Due i (.finalizing t v) (.dropToken .scope t)

theorem due_of_allows {i : Invocation} {q : Station P R E C π} {o : Call P R E C π}
    (h : i.allows q o) (ho : o.isDiscard = false) : i.Due q o := by
  cases q with
  | fresh =>
    cases o with
    | predicate => exact .check
    | _ => exact h.elim
  | admitted =>
    cases o with
    | prepare => exact .prepare
    | _ => exact h.elim
  | acquiring token =>
    cases o with
    | lock => exact .lock token
    | _ => exact h.elim
  | guarded token =>
    cases o with
    | predicate => exact .recheck token
    | _ => exact h.elim
  | cleared token =>
    cases o with
    | task => exact .task token
    | taskWithToken t =>
      obtain rfl : token = some t := h
      exact .tokenTask t
    | _ => exact h.elim
  | releasing token v =>
    cases o with
    | dropGuard u =>
      obtain rfl : u = v.unwinding := h
      exact .release token v
    | _ => exact h.elim
  | skipping token v =>
    cases o with
    | dropTask u =>
      obtain rfl : u = v.dropsUnwinding i.catching := h
      exact .skip token v
    | _ => exact h.elim
  | finalizing t v =>
    cases o with
    | commit t' =>
      obtain ⟨rfl, hv, hc⟩ : t' = t ∧ v.commits = true ∧ i.hasCommit = true := h
      exact .commit t' v hv hc
    | rollback t' cause =>
      obtain ⟨rfl, hv, hr⟩ : t' = t ∧ v.cause = some cause ∧ i.hasRollback = true := h
      exact .rollback t' v cause hv hr
    | dropToken mode t' =>
      obtain ⟨rfl, rfl, hf⟩ : t' = t ∧ mode = .scope ∧ i.hasFinalizer v = false := h
      exact .dropToken t' v hf
    | discard mode v => exact nomatch ho
    | _ => exact h.elim
  | ended v cleanup f =>
    cases o with
    | discard mode v => exact nomatch ho
    | _ => exact h.elim

theorem Invocation.Due.unique {i : Invocation} {q : Station P R E C π} {o o' : Call P R E C π}
    (h : i.Due q o) (h' : i.Due q o') (hm : i.makes o) (hm' : i.makes o') (r : o'.Answer) :
    o = o' := by
  have hspeaks' : i.speaks o' := hm'.resolve_right fun hn => hn ⟨r⟩
  cases h with
  | task token =>
    cases h' with
    | task => rfl
    | tokenTask t =>
      have hspeaks : i.borrows = false := hm.resolve_right fun hn => hn ⟨r.1⟩
      exact nomatch hspeaks.symm.trans hspeaks'
  | tokenTask t =>
    cases h' with
    | tokenTask => rfl
    | task =>
      have hspeaks : i.borrows = true := hm.resolve_right fun hn => hn ⟨(r, t)⟩
      exact nomatch hspeaks.symm.trans hspeaks'
  | commit t v hv hc =>
    cases h' with
    | commit => rfl
    | rollback _ _ cause hcause => exact nomatch hv.symm.trans (Verdict.not_commits_of_cause hcause)
    | dropToken _ _ hf =>
      rw [Invocation.hasFinalizer_of_commits hv] at hf
      exact nomatch hc.symm.trans hf
  | rollback t v cause hcause hr =>
    cases h' with
    | commit _ _ hv => exact nomatch hv.symm.trans (Verdict.not_commits_of_cause hcause)
    | rollback _ _ cause' hcause' =>
      cases hcause.symm.trans hcause'
      rfl
    | dropToken _ _ hf =>
      rw [Invocation.hasFinalizer_of_cause hcause] at hf
      exact nomatch hr.symm.trans hf
  | dropToken t v hf =>
    cases h' with
    | commit _ _ hv hc =>
      rw [Invocation.hasFinalizer_of_commits hv] at hf
      exact nomatch hc.symm.trans hf
    | rollback _ _ cause hcause hr =>
      rw [Invocation.hasFinalizer_of_cause hcause] at hf
      exact nomatch hr.symm.trans hf
    | dropToken => rfl
  | _ =>
    cases h'
    rfl

theorem monitor_guides (i : Invocation) :
    (i.monitor (P := P) (R := R) (E := E) (C := C) (π := π)).Guides i.makes Call.isDiscard
      fun q => ∃ v cleanup f, q = .ended v cleanup f where
  stays := by
    intro q o h ho r
    cases o with
    | discard mode v =>
      cases q with
      | finalizing t v => rfl
      | ended v cleanup f => rfl
      | _ => exact h.elim
    | _ => exact nomatch ho
  answered o ho := by
    cases o with
    | discard mode v => exact ⟨.ret (), fun _ => rfl⟩
    | _ => exact nomatch ho
  unique h h' ho ho' := (due_of_allows h ho).unique (due_of_allows h' ho')
  ends := by
    intro q o hq h
    obtain ⟨v, cleanup, f, rfl⟩ := hq
    cases o with
    | discard mode v => rfl
    | _ => exact h.elim

/-- Apart from discarding values, an entry point that does not abort behaves in the ways that
the protocol allows it, one and all. -/
theorem behaves_iff_path (i : Invocation) (es : List (CallEvent P R E C π))
    (a : Answer R E C π) :
    (∃ es', Program.Exec Call.Reacts i.program () es' a () ∧
      es'.filter (fun e => !e.op.isDiscard) = es) ↔
    ∃ v cleanup f, i.monitor.Path .fresh es (.ended v cleanup f) ∧ a = i.answer v cleanup f ∧
      ∀ e ∈ es, i.speaks e.op ∧ e.op.isDiscard = false := by
  have hmakes (e : CallEvent P R E C π) : i.makes e.op ↔ i.speaks e.op :=
    ⟨fun h => h.resolve_right fun hn => hn ⟨e.res⟩, .inl⟩
  have hreacts : (i.monitor (P := P) (R := R) (E := E) (C := C) (π := π)).Reacts =
      Call.Reacts := by
    funext s o r s'
    exact propext ⟨fun h => ⟨h, rfl⟩, fun h => h.1⟩
  have hanswer (a a' : Answer R E C π) (q : Station P R E C π) (ha : i.returns a q)
      (ha' : i.returns a' q) : a' = a := by
    obtain ⟨v, cleanup, f, rfl, rfl⟩ := ha
    obtain ⟨_, _, _, hq, rfl⟩ := ha'
    cases hq
    rfl
  have hended (a : Answer R E C π) (q : Station P R E C π) (hq : i.returns a q) :
      ∃ v cleanup f, q = .ended v cleanup f := by
    obtain ⟨v, cleanup, f, rfl, -⟩ := hq
    exact ⟨v, cleanup, f, rfl⟩
  rw [← hreacts]
  refine ((monitor_guides i).exec_iff_path hended hanswer (program_wp i)
    (program_makes i)).trans ⟨fun h => ?_, fun h => ?_⟩
  · obtain ⟨_, hpath, ⟨v, cleanup, f, rfl, ha⟩, hes⟩ := h
    exact ⟨v, cleanup, f, hpath, ha, fun e he => ⟨(hmakes e).mp (hes e he).1, (hes e he).2⟩⟩
  · obtain ⟨v, cleanup, f, hpath, ha, hes⟩ := h
    exact ⟨_, hpath, ⟨v, cleanup, f, rfl, ha⟩,
      fun e he => ⟨(hmakes e).mpr (hes e he).1, (hes e he).2⟩⟩

end DoubleChecked
