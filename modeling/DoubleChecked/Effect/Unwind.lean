import DoubleChecked.Effect.Program

/-!
# Routines that may unwind

A `Routine` is a program that runs in a frame `τ` of local variables and leaves
in one of three ways: it returns, it unwinds with a payload, or the process
aborts. The frame outlives the exit, so a variable changed before a panic is
seen changed by the code that catches it.

Destructors are ordinary routines placed where the scopes end. `onUnwind` runs
the destructors that a panic meets on its way out: a destructor that panics
there aborts the process. `catchUnwind` stops an unwind and hands over its
payload.
-/

namespace Effect

inductive Reply (π α : Type)
  | ret (a : α)
  | panic (p : π)

inductive Exit (π α : Type)
  | ret (a : α)
  | unwind (p : π)
  | abort

def Exit.map {π α β : Type} (f : α → β) : Exit π α → Exit π β
  | .ret a => .ret (f a)
  | .unwind p => .unwind p
  | .abort => .abort

theorem Exit.map_eq_abort {π α β : Type} {f : α → β} (x : Exit π α) :
    x.map f = .abort ↔ x = .abort := by
  cases x <;> simp [Exit.map]

theorem Exit.map_eq_unwind {π α β : Type} {f : α → β} (x : Exit π α) {p : π} :
    x.map f = .unwind p ↔ x = .unwind p := by
  cases x <;> simp [Exit.map]

def Reply.exit {π α : Type} : Reply π α → Exit π α
  | .ret a => .ret a
  | .panic p => .unwind p

@[simp] theorem Reply.exit_ret {π α : Type} (a : α) : (Reply.ret a : Reply π α).exit = .ret a := rfl

@[simp] theorem Reply.exit_panic {π α : Type} (p : π) :
    (Reply.panic p : Reply π α).exit = .unwind p := rfl

def Reply.panicked {π α : Type} : Reply π α → Bool
  | .ret _ => false
  | .panic _ => true

def Reply.payload {π α : Type} : Reply π α → Option π
  | .ret _ => none
  | .panic p => some p

def Routine (S : Signature) (π τ α : Type) : Type := τ → Program S (Exit π α × τ)

namespace Routine
variable {S : Signature} {π τ κ α β : Type}

protected def pure (a : α) : Routine S π τ α := fun t => .pure (.ret a, t)

protected def bind (m : Routine S π τ α) (f : α → Routine S π τ β) : Routine S π τ β := fun t =>
  (m t).bind fun x => match x with
    | (.ret a, t') => f a t'
    | (.unwind p, t') => .pure (.unwind p, t')
    | (.abort, t') => .pure (.abort, t')

instance : Monad (Routine S π τ) where
  pure := Routine.pure
  bind := Routine.bind

def lift (p : Program S (Exit π α)) : Routine S π τ α := fun t => p.bind fun x => .pure (x, t)

def raise (p : π) : Routine S π τ α := fun t => .pure (.unwind p, t)

def catchUnwind (m : Routine S π τ α) : Routine S π τ (Except π α) := fun t =>
  (m t).bind fun x => match x with
    | (.ret a, t') => .pure (.ret (.ok a), t')
    | (.unwind p, t') => .pure (.ret (.error p), t')
    | (.abort, t') => .pure (.abort, t')

/-- If `m` unwinds, the destructors `cleanup` run before the unwind goes on; a
panic out of them aborts. -/
def onUnwind (m : Routine S π τ α) (cleanup : Routine S π τ Unit) : Routine S π τ α := fun t =>
  (m t).bind fun x => match x with
    | (.ret a, t') => .pure (.ret a, t')
    | (.unwind p, t') => (cleanup t').bind fun y => match y with
      | (.ret (), t'') => .pure (.unwind p, t'')
      | (.unwind _, t'') => .pure (.abort, t'')
      | (.abort, t'') => .pure (.abort, t'')
    | (.abort, t') => .pure (.abort, t')

def withCell (init : κ) (body : Routine S π (τ × κ) α) : Routine S π τ α := fun t =>
  (body (t, init)).bind fun x => .pure (x.1, x.2.1)

def get : Routine S π (τ × κ) κ := fun t => .pure (.ret t.2, t)

def set (c : κ) : Routine S π (τ × κ) Unit := fun t => .pure (.ret (), (t.1, c))

def outer (m : Routine S π τ α) : Routine S π (τ × κ) α := fun t =>
  (m t.1).bind fun x => .pure (x.1, (x.2, t.2))

def inner (m : Routine S π κ α) : Routine S π (τ × κ) α := fun t =>
  (m t.2).bind fun x => .pure (x.1, (t.1, x.2))

def start (m : Routine S π Unit α) : Program S (Exit π α) :=
  (m ()).bind fun x => .pure x.1

def Contained (m : Routine S π τ α) : Prop :=
  ∀ (σ : Type) (h : (o : S.Op) → σ → S.Res o × σ) (t : τ) (s : σ) (p : π),
    (Program.run h (m t) s).result.1 ≠ .unwind p

theorem contained_pure (a : α) : (pure a : Routine S π τ α).Contained := fun _ _ _ _ _ => nofun

theorem contained_get : (get : Routine S π (τ × κ) κ).Contained := fun _ _ _ _ _ => nofun

theorem contained_catchUnwind (m : Routine S π τ α) : (catchUnwind m).Contained := by
  intro σ h t s p
  change Prod.fst (Program.run h (Program.bind (m t) _) s).result ≠ _
  rw [Program.run_bind]
  rcases (Program.run h (m t) s).result with ⟨_ | _ | _, t'⟩ <;> exact nofun

theorem Contained.bind {m : Routine S π τ α} {f : α → Routine S π τ β} (hm : m.Contained)
    (hf : ∀ a, (f a).Contained) : (m >>= f).Contained := by
  intro σ h t s p
  have hp := hm σ h t s
  change Prod.fst (Program.run h (Program.bind (m t) _) s).result ≠ _
  rw [Program.run_bind]
  rcases hr : (Program.run h (m t) s).result with ⟨a | q | _, t'⟩
  · exact hf a σ h t' _ p
  · exact absurd (congrArg Prod.fst hr) (hp q)
  · exact nofun

theorem Contained.withCell {init : κ} {body : Routine S π (τ × κ) α} (hb : body.Contained) :
    (withCell init body).Contained := by
  intro σ h t s p
  change Prod.fst (Program.run h (Program.bind (body (t, init)) _) s).result ≠ _
  rw [Program.run_bind]
  exact hb σ h (t, init) s p

end Routine

/-- How a value meets its destructor: at the end of its scope or while a panic unwinds
through its scope. A value in the return place of a call is in no scope: where a
destructor at the end of the call unwinds, that value is leaked and nothing runs. -/
inductive DropMode
  | scope
  | unwinding
  deriving DecidableEq

class Drop (S : Signature) (π α : Type) where
  drop {τ : Type} : DropMode → α → Routine S π τ Unit

instance {S : Signature} {π ε α : Type} [Drop S π ε] [Drop S π α] : Drop S π (Except ε α) where
  drop mode
    | .ok a => Drop.drop mode a
    | .error e => Drop.drop mode e

instance {S : Signature} {π : Type} : Drop S π Unit where
  drop _ _ := pure ()

/-- A closure that may be called once: it runs in the frame it borrows from, or
it is dropped without having been called, during an unwind or not. -/
structure FnOnce (S : Signature) (π τ α : Type) where
  call : Routine S π τ α
  drop : Bool → Program S (Exit π Unit)

end Effect
