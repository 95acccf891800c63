import Mathlib.Data.DFinsupp.WellFounded
import Mathlib.SetTheory.Ordinal.Family
import DoubleChecked.Effect.Pool
import DoubleChecked.Effect.Script

/-!
# Pools whose runs end

Programs and scripts branch without bound but go on forever on no branch, so each has
an ordinal rank that falls with every step. In a world that wears its agents down, the
ranks of finitely many agents bound every run of them, whatever the scheduler does.
-/

namespace Effect

variable {S : Signature} {ι σ χ α B μ : Type}

noncomputable def Program.rank : Program S α → Ordinal.{0}
  | .pure _ => 0
  | .call _ k => ⨆ r, ((k r).rank + 1) + 1

theorem Program.rank_lt (o : S.Op) (k : S.Res o → Program S α) (r : S.Res o) :
    (k r).rank + 1 < (Program.call o k).rank :=
  Ordinal.lt_iSup_add_one (fun r => (k r).rank + 1) r

noncomputable def Script.rank : Script μ α → Ordinal.{0}
  | .done _ => 0
  | .work _ next => ⨆ m, (next m).rank + 1
  | .acquire k | .release k => k.rank + 1

theorem Script.rank_work (update : μ → μ) (next : μ → Script μ α) (m : μ) :
    (next m).rank < (Script.work update next).rank :=
  Ordinal.lt_iSup_add_one (fun m => (next m).rank) m

/-- `effort` is the work that each agent has left inside its call. A call changes that of
its own agent only, and the world's own actions are such work. -/
structure World.Wears (W : World S ι σ χ) (effort : σ → ι → Ordinal.{0}) : Prop where
  enter : ∀ i o s s', W.enter i o s s' → ∀ j, j ≠ i → effort s' j = effort s j
  leave : ∀ i o r s s', W.leave i o r s s' → ∀ j, j ≠ i → effort s' j = effort s j
  act : ∀ x s s', W.act x s s' → effort s' < effort s

noncomputable def Phase.rank : Phase S α (Program S α) → Ordinal.{0}
  | .pending p => p.rank + 1 + 1
  | .idle p => p.rank + 1
  | .inside p _ | .finished p _ => p.rank

namespace Pool

def Stuck (W : World S ι σ χ) [DecidableEq ι] (A : ι → Agent S α B) (c : Pool S ι σ α B) : Prop :=
  ∀ l c', ¬Step W A c l c'

noncomputable def cost (effort : σ → ι → Ordinal.{0}) (c : Pool S ι σ α (Program S α)) (i : ι) :
    Ordinal.{0} ×ₗ Ordinal.{0} :=
  toLex ((c.phases i).rank, effort c.state i)

variable [DecidableEq ι] {W : World S ι σ χ} {effort : σ → ι → Ordinal.{0}}
  {c c' : Pool S ι σ α (Program S α)} {l : Label S ι χ α}

theorem cost_move {i : ι} {p : Phase S α (Program S α)} {s : σ}
    (hp : p.rank < (c.phases i).rank) (hothers : ∀ j, j ≠ i → effort s j = effort c.state j) :
    cost effort (c.move i p s) < cost effort c := by
  have hself : cost effort (c.move i p s) i < cost effort c i := by
    apply Prod.Lex.toLex_lt_toLex.mpr
    rw [move_phases_self]
    exact .inl hp
  refine Pi.lt_def.mpr ⟨fun j => ?_, i, hself⟩
  by_cases hj : j = i
  · subst hj
    exact hself.le
  · simp only [cost, move_phases_of_ne c hj, move_state, hothers j hj, le_refl]

theorem Step.cost_lt (hW : W.Wears effort)
    (hs : Step W (fun _ => Program.agent) c l c') : cost effort c' < cost effort c := by
  cases hs with
  | @invoke i p hi =>
    apply cost_move _ fun _ _ => rfl
    rw [hi]
    exact lt_add_one _
  | @enter i p o s hi ha hw =>
    apply cost_move _ (hW.enter i o _ _ hw)
    rw [hi]
    exact lt_add_one _
  | @leave i p p' o r s hi ha hw =>
    obtain ⟨k, rfl, rfl⟩ := ha
    apply cost_move _ (hW.leave i o r _ _ hw)
    rw [hi]
    exact Program.rank_lt o k r
  | @finish i p a hi ha =>
    apply cost_move _ fun _ _ => rfl
    rw [hi]
    exact lt_add_one _
  | @act x s hw =>
    obtain ⟨hle, i, hlt⟩ := Pi.lt_def.mp (hW.act x _ _ hw)
    refine Pi.lt_def.mpr ⟨fun j => ?_, i, Prod.Lex.toLex_lt_toLex.mpr (.inr ⟨rfl, hlt⟩)⟩
    exact Prod.Lex.toLex_le_toLex.mpr (.inr ⟨rfl, hle j⟩)

variable [Finite ι]

theorem wellFounded_step (hW : W.Wears effort) : WellFounded
    fun c' c : Pool S ι σ α (Program S α) => ∃ l, Step W (fun _ => Program.agent) c l c' := by
  refine Subrelation.wf (fun h => ?_) (InvImage.wf (cost effort) wellFounded_lt)
  obtain ⟨l, hs⟩ := h
  exact hs.cost_lt hW

/-- A sequence of steps that stops only where no step is left comes to such a place. -/
theorem stuck_of_maximal (hW : W.Wears effort) (f : ℕ → Pool S ι σ α (Program S α))
    (hmaximal : ∀ n, (∃ l, Step W (fun _ => Program.agent) (f n) l (f (n + 1))) ∨
      Stuck W (fun _ => Program.agent) (f n)) :
    ∃ n ls, Run W (fun _ => Program.agent) (f 0) ls (f n) ∧
      Stuck W (fun _ => Program.agent) (f n) := by
  classical
  have hends : ∃ n, Stuck W (fun _ => Program.agent) (f n) := by
    by_contra hnever
    refine (wellFounded_iff_isEmpty_descending_chain.mp (wellFounded_step hW)).false ⟨f, ?_⟩
    intro n
    exact (hmaximal n).resolve_right fun hstuck => hnever ⟨n, hstuck⟩
  have hrun (n : ℕ) (hn : n ≤ Nat.find hends) :
      ∃ ls, Run W (fun _ => Program.agent) (f 0) ls (f n) := by
    induction n with
    | zero => exact ⟨[], .refl⟩
    | succ n ih =>
      obtain ⟨ls, hls⟩ := ih (Nat.le_of_succ_le hn)
      obtain ⟨l, hs⟩ := (hmaximal n).resolve_right (Nat.find_min hends hn)
      exact ⟨ls ++ [l], hls.snoc hs⟩
  obtain ⟨ls, hls⟩ := hrun _ le_rfl
  exact ⟨_, ls, hls, Nat.find_spec hends⟩

theorem exists_stuck (hW : W.Wears effort) (c : Pool S ι σ α (Program S α)) :
    ∃ ls c', Run W (fun _ => Program.agent) c ls c' ∧ Stuck W (fun _ => Program.agent) c' := by
  induction c using (wellFounded_step hW).induction with
  | _ c ih =>
    by_cases hc : Stuck W (fun _ => Program.agent) c
    · exact ⟨[], c, .refl, hc⟩
    · simp only [Stuck, not_forall, not_not] at hc
      obtain ⟨l, c₁, hs⟩ := hc
      obtain ⟨ls, c₂, hrun, hstuck⟩ := ih c₁ ⟨l, hs⟩
      exact ⟨l :: ls, c₂, hrun.head hs, hstuck⟩

end Pool
end Effect
