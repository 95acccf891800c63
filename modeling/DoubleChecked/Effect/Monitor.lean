import DoubleChecked.Effect.Unwind

/-!
# Monitors and weakest preconditions

A `Monitor` watches the calls of a program: `allows` says which calls may come
next, `next` moves on the reply, and `admits` is what the monitor assumes of the
replies. `Program.wp` is the condition under which a program started in a monitor
state only makes allowed calls and ends in the postcondition. `Routine.wp` is its
form for routines, with one postcondition for a return and one for an unwind; an
abort has none. The rules below compute both through every construct.
-/

namespace Effect

structure Monitor (S : Signature) (Q : Type) where
  admits : (o : S.Op) → S.Res o → Prop
  allows : Q → S.Op → Prop
  next : Q → (o : S.Op) → S.Res o → Q

variable {S : Signature} {Q α β σ : Type}

namespace Program

def wp (M : Monitor S Q) : Program S α → Q → (α → Q → Prop) → Prop
  | .pure a, q, post => post a q
  | .call o k, q, post => M.allows q o ∧ ∀ r, M.admits o r → (k r).wp M (M.next q o r) post

variable {M : Monitor S Q}

@[simp] theorem wp_pure (a : α) (q : Q) (post : α → Q → Prop) :
    (Program.pure a : Program S α).wp M q post ↔ post a q := Iff.rfl

@[simp] theorem wp_call (o : S.Op) (k : S.Res o → Program S α) (q : Q) (post : α → Q → Prop) :
    (Program.call o k).wp M q post ↔
      M.allows q o ∧ ∀ r, M.admits o r → (k r).wp M (M.next q o r) post := Iff.rfl

@[simp] theorem wp_bind (p : Program S α) (f : α → Program S β) (q : Q) (post : β → Q → Prop) :
    (p.bind f).wp M q post ↔ p.wp M q (fun a q' => (f a).wp M q' post) := by
  induction p generalizing q with
  | pure a => rfl
  | call o k ih => simp only [call_bind, wp_call, ih]

theorem wp_mono {p : Program S α} {q : Q} {post post' : α → Q → Prop}
    (h : p.wp M q post) (hp : ∀ a q', post a q' → post' a q') : p.wp M q post' := by
  induction p generalizing q with
  | pure a => exact hp a q h
  | call o k ih => exact ⟨h.1, fun r hr => ih r (h.2 r hr)⟩

theorem wp_congr {p : Program S α} {q : Q} {post post' : α → Q → Prop}
    (h : ∀ a q', post a q' ↔ post' a q') : p.wp M q post ↔ p.wp M q post' :=
  ⟨fun hw => wp_mono hw (fun a q' => (h a q').mp), fun hw => wp_mono hw (fun a q' => (h a q').mpr)⟩

theorem wp_bind_congr {p : Program S α} {f : α → Program S β} {q : Q} {post : β → Q → Prop}
    {mid : α → Q → Prop} (h : ∀ a q', (f a).wp M q' post ↔ mid a q') :
    (p.bind f).wp M q post ↔ p.wp M q mid :=
  (wp_bind p f q post).trans (wp_congr h)

end Program

namespace Monitor

inductive Path (M : Monitor S Q) : Q → List (Event S) → Q → Prop
  | nil (q : Q) : Path M q [] q
  | cons {q q' : Q} {o : S.Op} {r : S.Res o} {es : List (Event S)} :
      M.allows q o → M.admits o r → Path M (M.next q o r) es q' → Path M q (⟨o, r⟩ :: es) q'

variable {M : Monitor S Q}

theorem path_append {q q' : Q} {es fs : List (Event S)} :
    M.Path q (es ++ fs) q' ↔ ∃ q₁, M.Path q es q₁ ∧ M.Path q₁ fs q' := by
  constructor
  · intro h
    induction es generalizing q with
    | nil => exact ⟨q, .nil q, h⟩
    | cons e es ih =>
      cases h with
      | cons ha hr hrest =>
        obtain ⟨q₁, h₁, h₂⟩ := ih hrest
        exact ⟨q₁, .cons ha hr h₁, h₂⟩
  · intro h
    obtain ⟨q₁, h₁, h₂⟩ := h
    induction h₁ with
    | nil => exact h₂
    | cons ha hr _ ih => exact .cons ha hr (ih h₂)

theorem Path.invariant {I : List (Event S) → Q → Prop} {q₀ q : Q} {es : List (Event S)}
    (h : M.Path q₀ es q) (init : I [] q₀)
    (step : ∀ fs q o r, I fs q → M.allows q o → M.admits o r →
      I (fs ++ [⟨o, r⟩]) (M.next q o r)) : I es q := by
  suffices hs : ∀ fs, I fs q₀ → I (fs ++ es) q by simpa using hs [] init
  clear init
  induction h with
  | nil q => intro fs hfs; simpa using hfs
  | @cons q q' o r es ha hr _ ih =>
    intro fs hfs
    have hn := ih (fs ++ [⟨o, r⟩]) (step fs q o r hfs ha hr)
    simpa only [List.append_assoc, List.singleton_append] using hn

end Monitor

namespace Program
variable {M : Monitor S Q} {R : σ → (o : S.Op) → S.Res o → σ → Prop}

/-- An execution follows a path of the monitor, and what the calls so far, the monitor
state and the state of the execution have to do with each other holds at its end if
every call keeps it. -/
theorem Exec.follows {J : List (Event S) → Q → σ → Prop} {p : Program S α} {s s' : σ}
    {es : List (Event S)} {a : α} {q : Q} {post : α → Q → Prop} (hx : Exec R p s es a s')
    (hw : p.wp M q post) (init : J [] q s) (admitted : ∀ s o r s', R s o r s' → M.admits o r)
    (kept : ∀ fs q s o r s', J fs q s → M.allows q o → M.admits o r → R s o r s' →
      J (fs ++ [⟨o, r⟩]) (M.next q o r) s') :
    ∃ q', M.Path q es q' ∧ post a q' ∧ J es q' s' := by
  suffices hs : ∀ fs, J fs q s → ∃ q', M.Path q es q' ∧ post a q' ∧ J (fs ++ es) q' s' by
    simpa using hs [] init
  clear init
  induction hx generalizing q with
  | pure a s => exact fun fs hJ => ⟨q, .nil q, hw, by simpa using hJ⟩
  | @call o k s s' s'' r es a hR _ ih =>
    intro fs hJ
    have hr := admitted s o r s' hR
    obtain ⟨q', hpath, hpost, hJ'⟩ := ih (hw.2 r hr) _ (kept fs q s o r s' hJ hw.1 hr hR)
    rw [List.append_assoc] at hJ'
    exact ⟨q', .cons hw.1 hr hpath, hpost, hJ'⟩

theorem run_follows {h : (o : S.Op) → σ → S.Res o × σ} {p : Program S α} {q : Q}
    {post : α → Q → Prop} (hw : p.wp M q post) {s : σ}
    (admitted : ∀ e ∈ (run h p s).events, M.admits e.op e.res) :
    ∃ q', M.Path q (run h p s).events q' ∧ post (run h p s).result q' := by
  induction p generalizing q s with
  | pure a => exact ⟨q, .nil q, hw⟩
  | call o k ih =>
    obtain ⟨hr, hrest⟩ := List.forall_mem_cons.mp admitted
    obtain ⟨q', hpath, hpost⟩ := ih _ (hw.2 _ hr) hrest
    exact ⟨q', .cons hw.1 hr hpath, hpost⟩

end Program

@[simp] theorem Reply.forall {π : Type} {p : Reply π α → Prop} :
    (∀ r, p r) ↔ (∀ a, p (.ret a)) ∧ ∀ x, p (.panic x) :=
  ⟨fun h => ⟨fun a => h _, fun x => h _⟩, fun h r => by
    cases r with
    | ret a => exact h.1 a
    | panic x => exact h.2 x⟩

theorem Except.forall {ε : Type} {p : Except ε α → Prop} :
    (∀ r, p r) ↔ (∀ a, p (.ok a)) ∧ ∀ e, p (.error e) :=
  ⟨fun h => ⟨fun a => h _, fun e => h _⟩, fun h r => by
    cases r with
    | ok a => exact h.1 a
    | error e => exact h.2 e⟩

namespace Routine
variable {π τ κ : Type} (M : Monitor S Q)

def wp (m : Routine S π τ α) (t : τ) (q : Q) (ret : α → τ → Q → Prop)
    (unwind : π → τ → Q → Prop) : Prop :=
  (m t).wp M q fun x q' => match x with
    | (.ret a, t') => ret a t' q'
    | (.unwind p, t') => unwind p t' q'
    | (.abort, _) => False

variable {M} {t : τ} {q : Q} {ret : α → τ → Q → Prop} {unwind : π → τ → Q → Prop}

theorem wp_mono {m : Routine S π τ α} {ret' : α → τ → Q → Prop} {unwind' : π → τ → Q → Prop}
    (h : m.wp M t q ret unwind) (hret : ∀ a t' q', ret a t' q' → ret' a t' q')
    (hunwind : ∀ p t' q', unwind p t' q' → unwind' p t' q') : m.wp M t q ret' unwind' := by
  apply Program.wp_mono h
  intro x q' hx
  obtain ⟨x, t'⟩ := x
  cases x with
  | ret a => exact hret a t' q' hx
  | unwind p => exact hunwind p t' q' hx
  | abort => exact hx

@[simp] theorem wp_pure (a : α) : (pure a : Routine S π τ α).wp M t q ret unwind ↔ ret a t q :=
  Iff.rfl

@[simp] theorem wp_raise (p : π) :
    (raise p : Routine S π τ α).wp M t q ret unwind ↔ unwind p t q := Iff.rfl

@[simp] theorem wp_bind {m : Routine S π τ β} {f : β → Routine S π τ α} :
    (m >>= f).wp M t q ret unwind ↔
      m.wp M t q (fun b t' q' => (f b).wp M t' q' ret unwind) unwind := by
  change Program.wp M (Program.bind (m t) _) q _ ↔ Program.wp M (m t) q _
  apply Program.wp_bind_congr
  intro x q'
  obtain ⟨x, t'⟩ := x
  cases x <;> rfl

theorem wp_lift {p : Program S (Exit π α)} :
    (lift p : Routine S π τ α).wp M t q ret unwind ↔ p.wp M q (fun x q' => match x with
      | .ret a => ret a t q'
      | .unwind e => unwind e t q'
      | .abort => False) := by
  change Program.wp M (Program.bind p _) q _ ↔ _
  apply Program.wp_bind_congr
  intro x q'
  cases x <;> rfl

theorem wp_reply (o : S.Op) (f : S.Res o → Reply π α) (g : Reply π α → S.Res o)
    (hg : ∀ r, g (f r) = r) (hf : ∀ r, f (g r) = r) :
    (lift (.call o fun r => .pure (f r).exit) : Routine S π τ α).wp M t q ret unwind ↔
      M.allows q o ∧ (∀ a, M.admits o (g (.ret a)) → ret a t (M.next q o (g (.ret a)))) ∧
        ∀ p, M.admits o (g (.panic p)) → unwind p t (M.next q o (g (.panic p))) := by
  rw [wp_lift]
  constructor
  · intro h
    obtain ⟨ha, hr⟩ := h
    refine ⟨ha, fun a h => ?_, fun p h => ?_⟩
    · simpa [hf] using hr _ h
    · simpa [hf] using hr _ h
  · intro h
    obtain ⟨ha, hr, hp⟩ := h
    refine ⟨ha, fun r h => ?_⟩
    rw [← hg r] at h ⊢
    cases hfr : f r with
    | ret a =>
      rw [hfr] at h
      simpa [hf] using hr a h
    | panic p =>
      rw [hfr] at h
      simpa [hf] using hp p h

@[simp] theorem wp_catchUnwind {m : Routine S π τ α} {ret : Except π α → τ → Q → Prop} :
    (catchUnwind m).wp M t q ret unwind ↔
      m.wp M t q (fun a t' q' => ret (.ok a) t' q') (fun p t' q' => ret (.error p) t' q') := by
  change Program.wp M (Program.bind (m t) _) q _ ↔ Program.wp M (m t) q _
  apply Program.wp_bind_congr
  intro x q'
  obtain ⟨x, t'⟩ := x
  cases x <;> rfl

@[simp] theorem wp_onUnwind {m : Routine S π τ α} {cleanup : Routine S π τ Unit} :
    (m.onUnwind cleanup).wp M t q ret unwind ↔
      m.wp M t q ret (fun p t' q' =>
        cleanup.wp M t' q' (fun _ t'' q'' => unwind p t'' q'') (fun _ _ _ => False)) := by
  change Program.wp M (Program.bind (m t) _) q _ ↔ Program.wp M (m t) q _
  apply Program.wp_bind_congr
  intro x q'
  obtain ⟨x, t'⟩ := x
  cases x with
  | ret a => rfl
  | unwind p =>
    change Program.wp M (Program.bind (cleanup t') _) q' _ ↔ Program.wp M (cleanup t') q' _
    apply Program.wp_bind_congr
    intro y q''
    obtain ⟨y, t''⟩ := y
    cases y <;> rfl
  | abort => rfl

@[simp] theorem wp_withCell {init : κ} {body : Routine S π (τ × κ) α} :
    (withCell init body).wp M t q ret unwind ↔
      body.wp M (t, init) q (fun a t' q' => ret a t'.1 q') (fun p t' q' => unwind p t'.1 q') := by
  change Program.wp M (Program.bind (body (t, init)) _) q _ ↔ Program.wp M (body (t, init)) q _
  apply Program.wp_bind_congr
  intro x q'
  obtain ⟨x, t'⟩ := x
  cases x <;> rfl

theorem wp_start {m : Routine S π Unit α} {post : Exit π α → Q → Prop}
    (h : m.wp M () q (fun a _ q' => post (.ret a) q') (fun p _ q' => post (.unwind p) q')) :
    m.start.wp M q post := by
  refine (Program.wp_bind _ _ _ _).mpr (Program.wp_mono h ?_)
  intro x q' hx
  obtain ⟨x, t'⟩ := x
  cases x with
  | ret a => exact hx
  | unwind p => exact hx
  | abort => exact hx.elim

section Cell
variable {t : τ × κ} {ret : α → τ × κ → Q → Prop} {unwind : π → τ × κ → Q → Prop}

@[simp] theorem wp_get {ret : κ → τ × κ → Q → Prop} :
    (get : Routine S π (τ × κ) κ).wp M t q ret unwind ↔ ret t.2 t q := Iff.rfl

@[simp] theorem wp_set {c : κ} {ret : Unit → τ × κ → Q → Prop} :
    (set c : Routine S π (τ × κ) Unit).wp M t q ret unwind ↔ ret () (t.1, c) q := Iff.rfl

@[simp] theorem wp_outer {m : Routine S π τ α} :
    (outer m : Routine S π (τ × κ) α).wp M t q ret unwind ↔
      m.wp M t.1 q (fun a t' q' => ret a (t', t.2) q') (fun p t' q' => unwind p (t', t.2) q') := by
  change Program.wp M (Program.bind (m t.1) _) q _ ↔ Program.wp M (m t.1) q _
  apply Program.wp_bind_congr
  intro x q'
  obtain ⟨x, t'⟩ := x
  cases x <;> rfl

@[simp] theorem wp_inner {m : Routine S π κ α} :
    (inner m : Routine S π (τ × κ) α).wp M t q ret unwind ↔
      m.wp M t.2 q (fun a t' q' => ret a (t.1, t') q') (fun p t' q' => unwind p (t.1, t') q') := by
  change Program.wp M (Program.bind (m t.2) _) q _ ↔ Program.wp M (m t.2) q _
  apply Program.wp_bind_congr
  intro x q'
  obtain ⟨x, t'⟩ := x
  cases x <;> rfl

end Cell
end Routine
end Effect
