import Mathlib.Logic.Function.Basic

/-!
# Programs that make calls

A `Signature` lists the calls a program may make and the type of the reply to
each. A `Program` is a finite-depth tree: it either ends with a result or makes
one call and continues with whatever reply it gets. Nothing is said here about
what the calls do.

`Exec` executes a program against a relation that says which replies each call
may get in which state; `run` executes it against a function that gives the one
reply. Both keep the list of calls made, with their replies.
-/

namespace Effect

structure Signature where
  Op : Type
  Res : Op → Type

inductive Program (S : Signature) (α : Type)
  | pure (a : α)
  | call (o : S.Op) (k : S.Res o → Program S α)

structure Event (S : Signature) where
  op : S.Op
  res : S.Res op

namespace Program
variable {S : Signature} {α β γ σ : Type}

def bind : Program S α → (α → Program S β) → Program S β
  | .pure a, f => f a
  | .call o k, f => .call o (fun r => (k r).bind f)

@[simp] theorem pure_bind (a : α) (f : α → Program S β) : (Program.pure a).bind f = f a := rfl

@[simp] theorem call_bind (o : S.Op) (k : S.Res o → Program S α) (f : α → Program S β) :
    (Program.call o k).bind f = .call o (fun r => (k r).bind f) := rfl

theorem call_congr {o : S.Op} {k k' : S.Res o → Program S α} (hk : ∀ r, k r = k' r) :
    Program.call o k = .call o k' :=
  congrArg (Program.call o) (funext hk)

theorem bind_assoc (p : Program S α) (f : α → Program S β) (g : β → Program S γ) :
    (p.bind f).bind g = p.bind (fun a => (f a).bind g) := by
  induction p with
  | pure a => rfl
  | call o k ih => simp only [call_bind, ih]

/-- Execution against a relation `R s o r s'`: in state `s` the call `o` may be
answered by `r`, leaving the state `s'`. -/
inductive Exec (R : σ → (o : S.Op) → S.Res o → σ → Prop) :
    Program S α → σ → List (Event S) → α → σ → Prop
  | pure (a : α) (s : σ) : Exec R (.pure a) s [] a s
  | call {o : S.Op} {k : S.Res o → Program S α} {s s' s'' : σ} {r : S.Res o}
      {es : List (Event S)} {a : α} :
      R s o r s' → Exec R (k r) s' es a s'' → Exec R (.call o k) s (⟨o, r⟩ :: es) a s''

structure Execution (S : Signature) (σ α : Type) where
  result : α
  state : σ
  events : List (Event S)

def run (h : (o : S.Op) → σ → S.Res o × σ) : Program S α → σ → Execution S σ α
  | .pure a, s => ⟨a, s, []⟩
  | .call o k, s =>
    let x := h o s
    let e := run h (k x.1) x.2
    ⟨e.result, e.state, ⟨o, x.1⟩ :: e.events⟩

variable (h : (o : S.Op) → σ → S.Res o × σ)

@[simp] theorem run_pure (a : α) (s : σ) : run h (.pure a : Program S α) s = ⟨a, s, []⟩ := rfl

theorem run_call (o : S.Op) (k : S.Res o → Program S α) (s : σ) :
    run h (.call o k) s =
      ⟨(run h (k (h o s).1) (h o s).2).result, (run h (k (h o s).1) (h o s).2).state,
        ⟨o, (h o s).1⟩ :: (run h (k (h o s).1) (h o s).2).events⟩ := rfl

theorem run_bind (p : Program S α) (f : α → Program S β) (s : σ) :
    run h (p.bind f) s =
      ⟨(run h (f (run h p s).result) (run h p s).state).result,
        (run h (f (run h p s).result) (run h p s).state).state,
        (run h p s).events ++ (run h (f (run h p s).result) (run h p s).state).events⟩ := by
  induction p generalizing s with
  | pure a => rfl
  | call o k ih => simp only [call_bind, run_call, ih, List.cons_append]

end Program
end Effect
