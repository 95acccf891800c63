import DoubleChecked.Effect.Unwind

/-!
# Calls carried out by programs

An `Interpretation` carries out each call of one signature by a program over another.
It goes through every construct of a routine, so a routine that is interpreted is the
same routine over the interpreted parts. An execution of an interpreted program is an
execution of the program itself, whose calls run one after the other.
-/

namespace Effect

abbrev Interpretation (S T : Signature) : Type := (o : S.Op) → Program T (S.Res o)

variable {S T : Signature} {π τ κ σ α β : Type} {f : Interpretation S T}

namespace Program

def interpret (f : Interpretation S T) : Program S α → Program T α
  | .pure a => .pure a
  | .call o k => (f o).bind fun r => (k r).interpret f

@[simp] theorem interpret_pure (a : α) : (Program.pure a : Program S α).interpret f = .pure a := rfl

theorem interpret_bind (p : Program S α) (g : α → Program S β) :
    (p.bind g).interpret f = (p.interpret f).bind fun a => (g a).interpret f := by
  induction p with
  | pure a => rfl
  | call o k ih => simp only [call_bind, interpret, bind_assoc, ih]

theorem interpret_map (p : Program S α) (g : α → β) :
    (p.bind fun a => .pure (g a)).interpret f = (p.interpret f).bind fun a => .pure (g a) :=
  interpret_bind p fun a => .pure (g a)

theorem bind_congr {p : Program T α} {g g' : α → Program T β} (h : ∀ a, g a = g' a) :
    p.bind g = p.bind g' :=
  congrArg p.bind (funext h)

def Makes (ok : S.Op → Prop) : Program S α → Prop
  | .pure _ => True
  | .call o k => ok o ∧ ∀ r, (k r).Makes ok

theorem makes_bind {ok : S.Op → Prop} {p : Program S α} {g : α → Program S β} (hp : p.Makes ok)
    (hg : ∀ a, (g a).Makes ok) : (p.bind g).Makes ok := by
  induction p with
  | pure a => exact hg a
  | call o k ih => exact ⟨hp.1, fun r => ih r (hp.2 r)⟩

theorem makes_interpret {ok : T.Op → Prop} (hf : ∀ o, (f o).Makes ok) (p : Program S α) :
    (p.interpret f).Makes ok := by
  induction p with
  | pure a => trivial
  | call o k ih => exact makes_bind (hf o) ih

section Exec
variable {R : σ → (o : T.Op) → T.Res o → σ → Prop}

theorem exec_bind {p : Program T α} {g : α → Program T β} {s s' : σ} {es : List (Event T)} {b : β} :
    Exec R (p.bind g) s es b s' ↔
      ∃ es₁ a s₁ es₂, es = es₁ ++ es₂ ∧ Exec R p s es₁ a s₁ ∧ Exec R (g a) s₁ es₂ b s' := by
  constructor
  · intro h
    induction p generalizing s es with
    | pure a => exact ⟨[], a, s, es, rfl, .pure a s, h⟩
    | call o k ih =>
      cases h with
      | @call _ _ _ s₀ _ r es₀ _ hr hrest =>
        obtain ⟨es₁, a, s₁, es₂, rfl, h₁, h₂⟩ := ih r hrest
        exact ⟨⟨o, r⟩ :: es₁, a, s₁, es₂, rfl, .call hr h₁, h₂⟩
  · intro h
    obtain ⟨es₁, a, s₁, es₂, rfl, h₁, h₂⟩ := h
    induction h₁ with
    | pure a s => exact h₂
    | call hr _ ih => exact .call hr (ih h₂)

theorem Exec.makes {ok : T.Op → Prop} {p : Program T α} {s s' : σ} {es : List (Event T)} {a : α}
    (hx : Exec R p s es a s') (hp : p.Makes ok) : ∀ e ∈ es, ok e.op := by
  induction hx with
  | pure a s => exact List.forall_mem_nil _
  | call hr _ ih => exact List.forall_mem_cons.mpr ⟨hp.1, ih (hp.2 _)⟩

/-- The call `o` is carried out to the reply `r`; the second part of the state is all that
has been done so far. -/
def CarriesOut (f : Interpretation S T) (R : σ → (o : T.Op) → T.Res o → σ → Prop)
    (s : σ × List (Event T)) (o : S.Op) (r : S.Res o) (s' : σ × List (Event T)) : Prop :=
  ∃ es, Exec R (f o) s.1 es r s'.1 ∧ s'.2 = s.2 ++ es

theorem carriesOut_of_exec {p : Program S α} {s s' : σ} {es : List (Event T)} {a : α}
    (h : Exec R (p.interpret f) s es a s') (pre : List (Event T)) :
    ∃ cs, Exec (CarriesOut f R) p (s, pre) cs a (s', pre ++ es) := by
  induction p generalizing s pre es with
  | pure a' =>
    cases h
    rw [List.append_nil]
    exact ⟨[], .pure _ _⟩
  | call o k ih =>
    obtain ⟨es₁, r, s₁, es₂, rfl, h₁, h₂⟩ := exec_bind.mp h
    obtain ⟨cs, hcs⟩ := ih r h₂ (pre ++ es₁)
    rw [List.append_assoc] at hcs
    exact ⟨⟨o, r⟩ :: cs, .call ⟨es₁, h₁, rfl⟩ hcs⟩

theorem exec_of_carriesOut {p : Program S α} {x x' : σ × List (Event T)}
    {cs : List (Event S)} {a : α} (h : Exec (CarriesOut f R) p x cs a x') :
    ∃ es, x'.2 = x.2 ++ es ∧ Exec R (p.interpret f) x.1 es a x'.1 := by
  induction h with
  | pure a x => exact ⟨[], (List.append_nil _).symm, .pure a x.1⟩
  | call hr _ ih =>
    obtain ⟨es₁, h₁, hes₁⟩ := hr
    obtain ⟨es₂, hes₂, h₂⟩ := ih
    refine ⟨es₁ ++ es₂, ?_, exec_bind.mpr ⟨es₁, _, _, es₂, rfl, h₁, h₂⟩⟩
    rw [hes₂, hes₁, List.append_assoc]

/-- The interpreted program does what the calls of the program do, in their order. -/
theorem exec_interpret {p : Program S α} {s s' : σ} {es : List (Event T)} {a : α} :
    Exec R (p.interpret f) s es a s' ↔
      ∃ cs, Exec (CarriesOut f R) p (s, []) cs a (s', es) := by
  constructor
  · exact fun h => carriesOut_of_exec h []
  · intro h
    obtain ⟨cs, h⟩ := h
    obtain ⟨es', hes, h'⟩ := exec_of_carriesOut h
    rw [show es = es' from hes]
    exact h'

end Exec
end Program

namespace Routine

def interpret (f : Interpretation S T) (m : Routine S π τ α) : Routine T π τ α :=
  fun t => (m t).interpret f

@[simp] theorem interpret_pure (a : α) :
    (pure a : Routine S π τ α).interpret f = pure a := rfl

@[simp] theorem interpret_raise (p : π) :
    (raise p : Routine S π τ α).interpret f = raise p := rfl

@[simp] theorem interpret_get : (get : Routine S π (τ × κ) κ).interpret f = get := rfl

@[simp] theorem interpret_set (c : κ) :
    (set c : Routine S π (τ × κ) Unit).interpret f = set c := rfl

@[simp] theorem interpret_bind (m : Routine S π τ α) (g : α → Routine S π τ β) :
    (m >>= g).interpret f = m.interpret f >>= fun a => (g a).interpret f := by
  funext t
  refine (Program.interpret_bind (m t) _).trans (Program.bind_congr fun x => ?_)
  obtain ⟨x, t'⟩ := x
  cases x <;> rfl

@[simp] theorem interpret_lift (p : Program S (Exit π α)) :
    (lift p : Routine S π τ α).interpret f = lift (p.interpret f) := by
  funext t
  exact Program.interpret_map p _

@[simp] theorem interpret_catchUnwind (m : Routine S π τ α) :
    (catchUnwind m).interpret f = catchUnwind (m.interpret f) := by
  funext t
  refine (Program.interpret_bind (m t) _).trans (Program.bind_congr fun x => ?_)
  obtain ⟨x, t'⟩ := x
  cases x <;> rfl

@[simp] theorem interpret_onUnwind (m : Routine S π τ α) (cleanup : Routine S π τ Unit) :
    (m.onUnwind cleanup).interpret f = (m.interpret f).onUnwind (cleanup.interpret f) := by
  funext t
  refine (Program.interpret_bind (m t) _).trans (Program.bind_congr fun x => ?_)
  obtain ⟨x, t'⟩ := x
  cases x with
  | unwind p =>
    refine (Program.interpret_bind (cleanup t') _).trans (Program.bind_congr fun y => ?_)
    obtain ⟨y, t''⟩ := y
    cases y <;> rfl
  | _ => rfl

@[simp] theorem interpret_withCell (init : κ) (body : Routine S π (τ × κ) α) :
    (withCell init body).interpret f = withCell init (body.interpret f) := by
  funext t
  exact Program.interpret_map (body (t, init)) _

@[simp] theorem interpret_outer (m : Routine S π τ α) :
    (outer m : Routine S π (τ × κ) α).interpret f = outer (m.interpret f) := by
  funext t
  exact Program.interpret_map (m t.1) _

@[simp] theorem interpret_inner (m : Routine S π κ α) :
    (inner m : Routine S π (τ × κ) α).interpret f = inner (m.interpret f) := by
  funext t
  exact Program.interpret_map (m t.2) _

theorem interpret_start (m : Routine S π Unit α) : m.start.interpret f = (m.interpret f).start :=
  Program.interpret_map (m ()) _

end Routine

def FnOnce.interpret (f : Interpretation S T) (task : FnOnce S π τ α) : FnOnce T π τ α where
  call := task.call.interpret f
  drop unwinding := (task.drop unwinding).interpret f

class Drop.Interprets (f : Interpretation S T) (π α : Type) [Drop S π α] [Drop T π α] : Prop where
  interpret_drop {τ : Type} (mode : DropMode) (a : α) :
    (Drop.drop mode a : Routine S π τ Unit).interpret f = Drop.drop mode a

attribute [simp] Drop.Interprets.interpret_drop

instance {ε : Type} [Drop S π ε] [Drop T π ε] [Drop.Interprets f π ε] [Drop S π α] [Drop T π α]
    [Drop.Interprets f π α] : Drop.Interprets f π (Except ε α) where
  interpret_drop mode x := by
    cases x with
    | ok a => exact Drop.Interprets.interpret_drop mode a
    | error e => exact Drop.Interprets.interpret_drop mode e

instance : Drop.Interprets f π Unit where
  interpret_drop _ _ := rfl

end Effect
