import DoubleChecked.Effect.Unwind

/-!
# What a routine aborts of

A process aborts when a destructor panics that runs during an unwind. The rules below
say of every construct that it aborts for no other reason: `AbortsOn` is for code, and
`FailsOn` is for the destructors that an unwind meets, where a panic is already fatal.
-/

namespace Effect

namespace Program
variable {S : Signature} {σ α β : Type} {fatal : Event S → Prop} {dead : α → Prop}

/-- A fatal call is the last one and ends in a dead result; nothing else does. -/
def Dies (fatal : Event S → Prop) (dead : α → Prop) : Program S α → Prop
  | .pure a => ¬dead a
  | .call o k => ∀ r, (fatal ⟨o, r⟩ → ∃ a, k r = .pure a ∧ dead a) ∧
      (¬fatal ⟨o, r⟩ → (k r).Dies fatal dead)

theorem Dies.run {p : Program S α} (hp : p.Dies fatal dead) (h : (o : S.Op) → σ → S.Res o × σ)
    (s : σ) : dead (run h p s).result ↔ ∃ e ∈ (run h p s).events, fatal e := by
  induction p generalizing s with
  | pure a => exact ⟨fun ha => absurd ha hp, nofun⟩
  | call o k ih =>
    obtain ⟨hfatal, hlive⟩ := hp (h o s).1
    rw [run_call]
    by_cases hf : fatal ⟨o, (h o s).1⟩
    · obtain ⟨a, hk, ha⟩ := hfatal hf
      rw [hk]
      exact ⟨fun _ => ⟨_, List.mem_cons_self, hf⟩, fun _ => ha⟩
    · simpa [hf] using ih _ (hlive hf) _

theorem Dies.bind {dead' : β → Prop} {p : Program S α} {f : α → Program S β}
    (hp : p.Dies fatal dead) (hlive : ∀ a, ¬dead a → (f a).Dies fatal dead')
    (hdead : ∀ a, dead a → ∃ b, f a = .pure b ∧ dead' b) : (p.bind f).Dies fatal dead' := by
  induction p with
  | pure a => exact hlive a hp
  | call o k ih =>
    intro r
    obtain ⟨hfatal, hrest⟩ := hp r
    refine ⟨fun hf => ?_, fun hf => ih r (hrest hf)⟩
    obtain ⟨a, hk, ha⟩ := hfatal hf
    change ∃ b, (k r).bind f = .pure b ∧ dead' b
    rw [hk]
    exact hdead a ha

theorem Dies.map {dead' : β → Prop} {p : Program S α} {f : α → β} (hp : p.Dies fatal dead)
    (hf : ∀ a, dead' (f a) ↔ dead a) : (p.bind fun a => .pure (f a)).Dies fatal dead' :=
  hp.bind (fun a ha => fun h => ha ((hf a).mp h)) fun a ha => ⟨f a, rfl, (hf a).mpr ha⟩

end Program

namespace Routine
variable {S : Signature} {π τ κ α β : Type} {fatal : Event S → Prop}

def AbortsOn (fatal : Event S → Prop) (m : Routine S π τ α) : Prop :=
  ∀ t, (m t).Dies fatal fun x => x.1 = .abort

def FailsOn (fatal : Event S → Prop) (m : Routine S π τ Unit) : Prop :=
  ∀ t, (m t).Dies fatal fun x => x.1 ≠ .ret ()

theorem abortsOn_pure (a : α) : (pure a : Routine S π τ α).AbortsOn fatal := fun _ => nofun

theorem abortsOn_raise (p : π) : (raise p : Routine S π τ α).AbortsOn fatal := fun _ => nofun

theorem abortsOn_get : (get : Routine S π (τ × κ) κ).AbortsOn fatal := fun _ => nofun

theorem abortsOn_set (c : κ) : (set c : Routine S π (τ × κ) Unit).AbortsOn fatal := fun _ => nofun

theorem AbortsOn.bind {m : Routine S π τ α} {f : α → Routine S π τ β} (hm : m.AbortsOn fatal)
    (hf : ∀ a, (f a).AbortsOn fatal) : (m >>= f).AbortsOn fatal := by
  intro t
  refine (hm t).bind ?_ ?_
  · intro x hx
    obtain ⟨x, t'⟩ := x
    cases x with
    | ret a => exact hf a t'
    | unwind p => exact nofun
    | abort => exact absurd rfl hx
  · intro x hx
    obtain ⟨x, t'⟩ := x
    cases hx
    exact ⟨_, rfl, rfl⟩

theorem AbortsOn.catchUnwind {m : Routine S π τ α} (hm : m.AbortsOn fatal) :
    (catchUnwind m).AbortsOn fatal := by
  intro t
  refine (hm t).bind ?_ ?_
  · intro x hx
    obtain ⟨x, t'⟩ := x
    cases x with
    | ret a => exact nofun
    | unwind p => exact nofun
    | abort => exact absurd rfl hx
  · intro x hx
    obtain ⟨x, t'⟩ := x
    cases hx
    exact ⟨_, rfl, rfl⟩

theorem AbortsOn.onUnwind {m : Routine S π τ α} {cleanup : Routine S π τ Unit}
    (hm : m.AbortsOn fatal) (hc : cleanup.FailsOn fatal) :
    (m.onUnwind cleanup).AbortsOn fatal := by
  intro t
  refine (hm t).bind ?_ ?_
  · intro x hx
    obtain ⟨x, t'⟩ := x
    cases x with
    | ret a => exact nofun
    | abort => exact absurd rfl hx
    | unwind p =>
      refine (hc t').bind ?_ ?_
      · intro y hy
        obtain ⟨y, t''⟩ := y
        obtain rfl := not_not.mp hy
        exact nofun
      · intro y hy
        obtain ⟨y, t''⟩ := y
        cases y with
        | ret u => exact absurd rfl hy
        | unwind q => exact ⟨_, rfl, rfl⟩
        | abort => exact ⟨_, rfl, rfl⟩
  · intro x hx
    obtain ⟨x, t'⟩ := x
    cases hx
    exact ⟨_, rfl, rfl⟩

theorem AbortsOn.withCell {init : κ} {body : Routine S π (τ × κ) α} (hb : body.AbortsOn fatal) :
    (withCell init body).AbortsOn fatal :=
  fun t => (hb (t, init)).map fun _ => Iff.rfl

theorem AbortsOn.outer {m : Routine S π τ α} (hm : m.AbortsOn fatal) :
    (outer m : Routine S π (τ × κ) α).AbortsOn fatal :=
  fun t => (hm t.1).map fun _ => Iff.rfl

theorem AbortsOn.inner {m : Routine S π κ α} (hm : m.AbortsOn fatal) :
    (inner m : Routine S π (τ × κ) α).AbortsOn fatal :=
  fun t => (hm t.2).map fun _ => Iff.rfl

theorem abortsOn_call {o : S.Op} {f : S.Res o → Reply π α} (ho : ∀ r, ¬fatal ⟨o, r⟩) :
    (lift (.call o fun r => .pure (f r).exit) : Routine S π τ α).AbortsOn fatal := by
  intro t r
  refine ⟨fun hf => absurd hf (ho r), fun _ => ?_⟩
  change ¬(f r).exit = .abort
  cases f r <;> exact nofun

theorem failsOn_pure : (pure () : Routine S π τ Unit).FailsOn fatal := fun _ h => h rfl

theorem failsOn_call {o : S.Op} {f : S.Res o → Reply π Unit}
    (ho : ∀ r, fatal ⟨o, r⟩ ↔ (f r).panicked = true) :
    (lift (.call o fun r => .pure (f r).exit) : Routine S π τ Unit).FailsOn fatal := by
  intro t r
  have hr := ho r
  change (_ → ∃ a, Program.pure ((f r).exit, t) = Program.pure a ∧ _) ∧
    (_ → ¬((f r).exit, t).1 ≠ .ret ())
  cases hf : f r with
  | ret u =>
    rw [hf] at hr
    exact ⟨fun h => absurd (hr.mp h) nofun, fun _ h => h rfl⟩
  | panic p =>
    rw [hf] at hr
    exact ⟨fun _ => ⟨_, rfl, nofun⟩, fun h => absurd (hr.mpr rfl) h⟩

theorem FailsOn.bind {c : Routine S π τ Unit} {c' : Unit → Routine S π τ Unit}
    (hc : c.FailsOn fatal) (hc' : (c' ()).FailsOn fatal) : (c >>= c').FailsOn fatal := by
  intro t
  refine (hc t).bind ?_ ?_
  · intro x hx
    obtain ⟨x, t'⟩ := x
    obtain rfl := not_not.mp hx
    exact hc' t'
  · intro x hx
    obtain ⟨x, t'⟩ := x
    cases x with
    | ret u => exact absurd rfl hx
    | unwind p => exact ⟨_, rfl, nofun⟩
    | abort => exact ⟨_, rfl, nofun⟩

theorem FailsOn.outer {c : Routine S π τ Unit} (hc : c.FailsOn fatal) :
    (outer c : Routine S π (τ × κ) Unit).FailsOn fatal :=
  fun t => (hc t.1).map fun _ => Iff.rfl

theorem AbortsOn.start {m : Routine S π Unit α} (hm : m.AbortsOn fatal) :
    m.start.Dies fatal fun x => x = .abort :=
  (hm ()).map fun _ => Iff.rfl

end Routine
end Effect
