import DoubleChecked.Effect.Interpret
import DoubleChecked.Effect.Monitor

/-!
# Monitors that leave no choice

Some calls are silent: they leave the monitor where it is. A monitor guides a program if
at each of its states at most one other call is allowed, of those that the program may
make. Then the program can go every path of the monitor, and apart from its silent calls
it does nothing else.
-/

namespace Effect

variable {S : Signature} {Q α : Type}

namespace Monitor
variable (M : Monitor S Q)

structure Guides (makes : S.Op → Prop) (silent : S.Op → Bool) (final : Q → Prop) : Prop where
  stays : ∀ {q o}, M.allows q o → silent o = true → ∀ r, M.next q o r = q
  answered : ∀ o, silent o = true → ∃ r, M.admits o r
  unique : ∀ {q o o'}, M.allows q o → M.allows q o' → silent o = false → silent o' = false →
    makes o → makes o' → S.Res o' → o = o'
  ends : ∀ {q o}, final q → M.allows q o → silent o = true

def Reacts (_ : Unit) (o : S.Op) (r : S.Res o) (_ : Unit) : Prop := M.admits o r

end Monitor

variable {M : Monitor S Q} {makes : S.Op → Prop} {silent : S.Op → Bool} {final : Q → Prop}

namespace Monitor.Guides

theorem path_filter (hM : M.Guides makes silent final) {q q' : Q} {es : List (Event S)}
    (h : M.Path q es q') : M.Path q (es.filter fun e => !silent e.op) q' := by
  induction h with
  | nil q => exact .nil q
  | @cons q q' o r es allowed hr _ ih =>
    cases ho : silent o with
    | true =>
      rw [hM.stays allowed ho r] at ih
      rwa [List.filter_cons_of_neg (by simp [ho])]
    | false =>
      rw [List.filter_cons_of_pos (by simp [ho])]
      exact .cons allowed hr ih

theorem exec_of_path (hM : M.Guides makes silent final) {p : Program S α} {post : α → Q → Prop}
    (hpost : ∀ a q, post a q → final q) {q q' : Q} {es : List (Event S)} (hw : p.wp M q post)
    (hmakes : p.Makes makes) (h : M.Path q es q')
    (hes : ∀ e ∈ es, makes e.op ∧ silent e.op = false) (hq' : final q') :
    ∃ es' a, Program.Exec M.Reacts p () es' a () ∧ post a q' ∧
      es'.filter (fun e => !silent e.op) = es := by
  induction p generalizing q es with
  | pure a =>
    cases h with
    | nil => exact ⟨[], a, .pure a (), hw, rfl⟩
    | @cons _ _ o r es allowed hr hrest =>
      have ho := hM.ends (hpost a q hw) allowed
      exact nomatch ho.symm.trans (hes ⟨o, r⟩ (List.mem_cons_self ..)).2
  | call o k ih =>
    cases ho : silent o with
    | true =>
      obtain ⟨r, hr⟩ := hM.answered o ho
      have hrest := hw.2 r hr
      rw [hM.stays hw.1 ho r] at hrest
      obtain ⟨es', a, hx, ha, rfl⟩ := ih r hrest (hmakes.2 r) h hes
      refine ⟨⟨o, r⟩ :: es', a, .call hr hx, ha, List.filter_cons_of_neg (by simp [ho])⟩
    | false =>
      cases h with
      | nil => exact nomatch ho.symm.trans (hM.ends hq' hw.1)
      | @cons _ _ o' r es allowed hr hrest =>
        obtain ⟨⟨hmakes', ho'⟩, hes'⟩ := List.forall_mem_cons.mp hes
        obtain rfl := hM.unique hw.1 allowed ho ho' hmakes.1 hmakes' r
        obtain ⟨es', a, hx, ha, rfl⟩ := ih r (hw.2 r hr) (hmakes.2 r) hrest hes'
        exact ⟨⟨o, r⟩ :: es', a, .call hr hx, ha, List.filter_cons_of_pos (by simp [ho])⟩

/-- What a guided program does apart from its silent calls are the paths to a final state,
of calls that it may make. -/
theorem exec_iff_path (hM : M.Guides makes silent final) {p : Program S α} {post : α → Q → Prop}
    (hpost : ∀ a q, post a q → final q) (hanswer : ∀ a a' q, post a q → post a' q → a' = a)
    {q : Q} (hw : p.wp M q post) (hmakes : p.Makes makes) {es : List (Event S)} {a : α} :
    (∃ es', Program.Exec M.Reacts p () es' a () ∧ es'.filter (fun e => !silent e.op) = es) ↔
      ∃ q', M.Path q es q' ∧ post a q' ∧ ∀ e ∈ es, makes e.op ∧ silent e.op = false := by
  constructor
  · intro h
    obtain ⟨es', hx, rfl⟩ := h
    obtain ⟨q', hpath, ha, -⟩ := hx.follows (J := fun _ _ _ => True) hw trivial
      (fun _ _ _ _ hr => hr) (fun _ _ _ _ _ _ _ _ _ _ => trivial)
    refine ⟨q', hM.path_filter hpath, ha, fun e he => ?_⟩
    obtain ⟨he, hsilent⟩ := List.mem_filter.mp he
    exact ⟨hx.makes hmakes e he, by simpa using hsilent⟩
  · intro h
    obtain ⟨q', hpath, ha, hes⟩ := h
    obtain ⟨es', a', hx, ha', hfilter⟩ :=
      hM.exec_of_path hpost hw hmakes hpath hes (hpost a q' ha)
    obtain rfl := hanswer a a' q' ha ha'
    exact ⟨es', hx, hfilter⟩

end Monitor.Guides
end Effect
