import DoubleChecked.Effect.Monitor

/-!
# Agents that share a world

A `Pool` runs any number of agents in one world. A call takes time: an agent enters
it, leaves it with a reply, and in between everyone else may move. The world says
when a call may be entered and left and what it changes, and has actions of its own.

An `Agent` is a program or a monitor, or anything else that makes calls. Where every
program meets its monitor's weakest precondition, each run of the programs is a run
of the monitors with the same labels in the same world (`Run.simulate`), so what
holds in every run of the monitors holds for the programs.
-/

namespace Effect

structure Agent (S : Signature) (α B : Type) where
  calls : B → S.Op → Prop
  replies : B → (o : S.Op) → S.Res o → B → Prop
  returns : B → α → Prop

structure World (S : Signature) (ι σ χ : Type) where
  enter : ι → S.Op → σ → σ → Prop
  leave : ι → (o : S.Op) → S.Res o → σ → σ → Prop
  act : χ → σ → σ → Prop

inductive Label (S : Signature) (ι χ α : Type)
  | invoke (i : ι)
  | enter (i : ι) (o : S.Op)
  | leave (i : ι) (o : S.Op) (r : S.Res o)
  | finish (i : ι) (a : α)
  | act (x : χ)

inductive Phase (S : Signature) (α B : Type)
  | pending (b : B)
  | idle (b : B)
  | inside (b : B) (o : S.Op)
  | finished (b : B) (a : α)

def Phase.body {S : Signature} {α B : Type} : Phase S α B → B
  | .pending b | .idle b | .inside b _ | .finished b _ => b

def Phase.UnderWay {S : Signature} {α B : Type} : Phase S α B → Prop
  | .idle _ | .inside _ _ => True
  | _ => False

def Phase.Legal {S : Signature} {α B : Type} (A : Agent S α B) : Phase S α B → Prop
  | .inside b o => A.calls b o
  | .finished b a => A.returns b a
  | _ => True

structure Pool (S : Signature) (ι σ α B : Type) where
  phases : ι → Phase S α B
  state : σ

variable {S : Signature} {ι σ χ α B B' Q : Type}

def Program.agent : Agent S α (Program S α) where
  calls p o := ∃ k, p = .call o k
  replies p o r p' := ∃ k, p = .call o k ∧ p' = k r
  returns p a := p = .pure a

def Monitor.agent (M : Monitor S Q) (post : α → Q → Prop) : Agent S α Q where
  calls := M.allows
  replies q o r q' := M.allows q o ∧ M.admits o r ∧ q' = M.next q o r
  returns q a := post a q

namespace Pool
variable [DecidableEq ι]

def move (c : Pool S ι σ α B) (i : ι) (p : Phase S α B) (s : σ) : Pool S ι σ α B :=
  ⟨Function.update c.phases i p, s⟩

@[simp] theorem move_state (c : Pool S ι σ α B) (i : ι) (p : Phase S α B) (s : σ) :
    (c.move i p s).state = s := rfl

@[simp] theorem move_phases_self (c : Pool S ι σ α B) (i : ι) (p : Phase S α B) (s : σ) :
    (c.move i p s).phases i = p := by
  simp [move]

theorem move_phases_of_ne (c : Pool S ι σ α B) {i j : ι} (h : j ≠ i) (p : Phase S α B) (s : σ) :
    (c.move i p s).phases j = c.phases j := by
  simp [move, h]

theorem forall_move (c : Pool S ι σ α B) {i : ι} {p : Phase S α B} (s : σ)
    {motive : ι → Phase S α B → Prop} (hself : motive i p)
    (hothers : ∀ j, j ≠ i → motive j (c.phases j)) (j : ι) :
    motive j ((c.move i p s).phases j) := by
  by_cases hji : j = i
  · subst hji
    rwa [move_phases_self]
  · rw [move_phases_of_ne _ hji]
    exact hothers j hji

theorem move_self (c : Pool S ι σ α B) (i : ι) (s : σ) :
    c.move i (c.phases i) s = ⟨c.phases, s⟩ := by
  simp [move]

inductive Step (W : World S ι σ χ) (A : ι → Agent S α B) :
    Pool S ι σ α B → Label S ι χ α → Pool S ι σ α B → Prop
  | invoke {c : Pool S ι σ α B} {i : ι} {b : B} : c.phases i = .pending b →
      Step W A c (.invoke i) (c.move i (.idle b) c.state)
  | enter {c : Pool S ι σ α B} {i : ι} {b : B} {o : S.Op} {s : σ} : c.phases i = .idle b →
      (A i).calls b o → W.enter i o c.state s →
      Step W A c (.enter i o) (c.move i (.inside b o) s)
  | leave {c : Pool S ι σ α B} {i : ι} {b b' : B} {o : S.Op} {r : S.Res o} {s : σ} :
      c.phases i = .inside b o → (A i).replies b o r b' → W.leave i o r c.state s →
      Step W A c (.leave i o r) (c.move i (.idle b') s)
  | finish {c : Pool S ι σ α B} {i : ι} {b : B} {a : α} : c.phases i = .idle b →
      (A i).returns b a → Step W A c (.finish i a) (c.move i (.finished b a) c.state)
  | act {c : Pool S ι σ α B} {x : χ} {s : σ} : W.act x c.state s →
      Step W A c (.act x) ⟨c.phases, s⟩

theorem Step.bodies {W : World S ι σ χ} {A : ι → Agent S α B} {c c' : Pool S ι σ α B}
    {l : Label S ι χ α} (hs : Step W A c l c') (j : ι) :
    (∀ o r, l ≠ .leave j o r) ∧ (c'.phases j).body = (c.phases j).body ∨
      ∃ o r, l = .leave j o r ∧ (A j).replies (c.phases j).body o r (c'.phases j).body := by
  have hkeep {i : ι} {p p' : Phase S α B} {s : σ} (hi : c.phases i = p) (hb : p'.body = p.body) :
      ((c.move i p' s).phases j).body = (c.phases j).body := by
    refine c.forall_move s (motive := fun j p => p.body = (c.phases j).body) ?_ (fun _ _ => rfl) j
    rw [hi, hb]
  cases hs with
  | invoke hi => exact .inl ⟨nofun, hkeep hi rfl⟩
  | enter hi ha hw => exact .inl ⟨nofun, hkeep hi rfl⟩
  | @leave i b b' o r s hi ha hw =>
    by_cases hji : j = i
    · subst hji
      refine .inr ⟨o, r, rfl, ?_⟩
      rw [move_phases_self, hi]
      exact ha
    · refine .inl ⟨?_, by rw [move_phases_of_ne _ hji]⟩
      intro o r hl
      cases hl
      exact hji rfl
  | finish hi ha => exact .inl ⟨nofun, hkeep hi rfl⟩
  | act hw => exact .inl ⟨nofun, rfl⟩

inductive Run (W : World S ι σ χ) (A : ι → Agent S α B) (c₀ : Pool S ι σ α B) :
    List (Label S ι χ α) → Pool S ι σ α B → Prop
  | refl : Run W A c₀ [] c₀
  | snoc {ls : List (Label S ι χ α)} {l : Label S ι χ α} {c c' : Pool S ι σ α B} :
      Run W A c₀ ls c → Step W A c l c' → Run W A c₀ (ls ++ [l]) c'

def Terminal (c : Pool S ι σ α B) : Prop := ∀ i, ∃ b a, c.phases i = .finished b a

variable {W : World S ι σ χ} {A : ι → Agent S α B} {A' : ι → Agent S α B'}
  {c₀ c c' : Pool S ι σ α B} {ls : List (Label S ι χ α)} {l : Label S ι χ α}

theorem Run.invariant {I : List (Label S ι χ α) → Pool S ι σ α B → Prop} (h : Run W A c₀ ls c)
    (init : I [] c₀) (step : ∀ ls c l c', I ls c → Step W A c l c' → I (ls ++ [l]) c') :
    I ls c := by
  induction h with
  | refl => exact init
  | snoc _ hs ih => exact step _ _ _ _ ih hs

theorem Run.append {ls' : List (Label S ι χ α)} (h : Run W A c₀ ls c) (h' : Run W A c ls' c') :
    Run W A c₀ (ls ++ ls') c' := by
  induction h' with
  | refl => simpa using h
  | snoc _ hs ih =>
    rw [← List.append_assoc]
    exact ih.snoc hs

theorem Run.head (hs : Step W A c₀ l c) (h : Run W A c ls c') : Run W A c₀ (l :: ls) c' :=
  (Run.snoc .refl hs).append h

theorem Run.legal (h : Run W A c₀ ls c) (h₀ : ∀ i, (c₀.phases i).Legal (A i)) (i : ι) :
    (c.phases i).Legal (A i) := by
  refine h.invariant (I := fun _ c => ∀ i, (c.phases i).Legal (A i)) h₀ ?_ i
  intro ls c l c' hc hs j
  have hmove {i : ι} {p : Phase S α B} {s : σ} (hp : p.Legal (A i)) :
      ((c.move i p s).phases j).Legal (A j) :=
    c.forall_move s (motive := fun j p => p.Legal (A j)) hp (fun j _ => hc j) j
  cases hs with
  | invoke hi => exact hmove trivial
  | enter hi ha hw => exact hmove ha
  | leave hi ha hw => exact hmove trivial
  | finish hi ha => exact hmove ha
  | act hw => exact hc j

/-- The second agent can make the calls of the first, as long as the replies are `ok`. -/
structure Simulation (A : Agent S α B) (A' : Agent S α B') (ok : (o : S.Op) → S.Res o → Prop)
    (rel : B → B' → Prop) : Prop where
  calls : ∀ {b b' o}, rel b b' → A.calls b o → A'.calls b' o
  replies : ∀ {b b' o r b₁}, rel b b' → A.replies b o r b₁ → ok o r →
    ∃ b₁', A'.replies b' o r b₁' ∧ rel b₁ b₁'
  returns : ∀ {b b' a}, rel b b' → A.returns b a → A'.returns b' a

theorem program_simulation (M : Monitor S Q) (post : α → Q → Prop) :
    Simulation Program.agent (M.agent post) M.admits (fun p q => p.wp M q post) where
  calls := by
    intro p q o hw hp
    obtain ⟨k, rfl⟩ := hp
    exact hw.1
  replies := by
    intro p q o r p' hw hp hr
    obtain ⟨k, rfl, rfl⟩ := hp
    exact ⟨M.next q o r, ⟨hw.1, hr, rfl⟩, hw.2 r hr⟩
  returns := by
    intro p q a hw hp
    subst hp
    exact hw

inductive PhaseRel (rel : B → B' → Prop) : Phase S α B → Phase S α B' → Prop
  | pending {b : B} {b' : B'} : rel b b' → PhaseRel rel (.pending b) (.pending b')
  | idle {b : B} {b' : B'} : rel b b' → PhaseRel rel (.idle b) (.idle b')
  | inside {b : B} {b' : B'} (o : S.Op) : rel b b' → PhaseRel rel (.inside b o) (.inside b' o)
  | finished {b : B} {b' : B'} (a : α) : rel b b' → PhaseRel rel (.finished b a) (.finished b' a)

structure Matches (rel : ι → B → B' → Prop) (c : Pool S ι σ α B) (d : Pool S ι σ α B') : Prop where
  phases : ∀ i, PhaseRel (rel i) (c.phases i) (d.phases i)
  state : c.state = d.state

variable {rel : ι → B → B' → Prop} {d d' : Pool S ι σ α B'} {ok : (o : S.Op) → S.Res o → Prop}

theorem Matches.move (h : Matches rel c d) {i : ι} {p : Phase S α B} {p' : Phase S α B'}
    (hp : PhaseRel (rel i) p p') (s : σ) : Matches rel (c.move i p s) (d.move i p' s) where
  phases j := by
    by_cases hj : j = i
    · subst hj
      simpa using hp
    · simpa [move_phases_of_ne _ hj] using h.phases j
  state := rfl

omit [DecidableEq ι] in
theorem Matches.finished_iff (h : Matches rel c d) {i : ι} {a : α} :
    (∃ b, c.phases i = .finished b a) ↔ ∃ b', d.phases i = .finished b' a := by
  have hp := h.phases i
  generalize c.phases i = p at hp ⊢
  generalize d.phases i = p' at hp ⊢
  cases hp <;> simp

omit [DecidableEq ι] in
theorem Matches.idle_iff (h : Matches rel c d) {i : ι} :
    (∃ b, c.phases i = .idle b) ↔ ∃ b', d.phases i = .idle b' := by
  have hp := h.phases i
  generalize c.phases i = p at hp ⊢
  generalize d.phases i = p' at hp ⊢
  cases hp <;> simp

omit [DecidableEq ι] in
theorem Matches.inside_iff (h : Matches rel c d) {i : ι} {o : S.Op} :
    (∃ b, c.phases i = .inside b o) ↔ ∃ b', d.phases i = .inside b' o := by
  have hp := h.phases i
  generalize c.phases i = p at hp ⊢
  generalize d.phases i = p' at hp ⊢
  cases hp <;> simp

omit [DecidableEq ι] in
theorem Matches.terminal (h : Matches rel c d) (hc : c.Terminal) : d.Terminal := by
  intro i
  obtain ⟨b, a, hi⟩ := hc i
  obtain ⟨b', hi'⟩ := h.finished_iff.mp ⟨b, hi⟩
  exact ⟨b', a, hi'⟩

theorem Step.simulate (hs : Step W A c l c') (h : Matches rel c d)
    (hsim : ∀ i, Simulation (A i) (A' i) ok (rel i))
    (hok : ∀ i o r s s', W.leave i o r s s' → ok o r) :
    ∃ d', Step W A' d l d' ∧ Matches rel c' d' := by
  cases hs with
  | @invoke i b hc =>
    have hp := h.phases i
    rw [hc] at hp
    cases hd : d.phases i with
    | pending b' =>
      rw [hd] at hp
      cases hp with
      | pending hr => exact ⟨_, .invoke hd, h.state ▸ h.move (.idle hr) _⟩
    | _ => rw [hd] at hp; cases hp
  | @enter i b o s hc ha hw =>
    have hp := h.phases i
    rw [hc] at hp
    cases hd : d.phases i with
    | idle b' =>
      rw [hd] at hp
      cases hp with
      | idle hr =>
        exact ⟨_, .enter hd ((hsim i).calls hr ha) (h.state ▸ hw), h.move (.inside o hr) _⟩
    | _ => rw [hd] at hp; cases hp
  | @leave i b b₁ o r s hc ha hw =>
    have hp := h.phases i
    rw [hc] at hp
    cases hd : d.phases i with
    | inside b' o' =>
      rw [hd] at hp
      cases hp with
      | inside _ hr =>
        obtain ⟨b₁', ha', hr'⟩ := (hsim i).replies hr ha (hok _ _ _ _ _ hw)
        exact ⟨_, .leave hd ha' (h.state ▸ hw), h.move (.idle hr') _⟩
    | _ => rw [hd] at hp; cases hp
  | @finish i b a hc ha =>
    have hp := h.phases i
    rw [hc] at hp
    cases hd : d.phases i with
    | idle b' =>
      rw [hd] at hp
      cases hp with
      | idle hr =>
        exact ⟨_, .finish hd ((hsim i).returns hr ha), h.state ▸ h.move (.finished a hr) _⟩
    | _ => rw [hd] at hp; cases hp
  | @act x s hw =>
    rw [h.state] at hw
    exact ⟨_, .act hw, h.phases, rfl⟩

theorem Run.simulate (hrun : Run W A c ls c') (h : Matches rel c d)
    (hsim : ∀ i, Simulation (A i) (A' i) ok (rel i))
    (hok : ∀ i o r s s', W.leave i o r s s' → ok o r) :
    ∃ d', Run W A' d ls d' ∧ Matches rel c' d' := by
  induction hrun with
  | refl => exact ⟨d, .refl, h⟩
  | snoc _ hs ih =>
    obtain ⟨d₁, hrun₁, h₁⟩ := ih
    obtain ⟨d₂, hs₂, h₂⟩ := hs.simulate h₁ hsim hok
    exact ⟨d₂, hrun₁.snoc hs₂, h₂⟩

end Pool
end Effect
