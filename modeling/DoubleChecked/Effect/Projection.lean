import DoubleChecked.Effect.Linearization
import DoubleChecked.Effect.Pool

/-!
# Runs with hidden steps

A run of one pool shows as a run of another when each of its labels shows as some labels
of the other, or as none. The order in which members begin and end is not hidden.
-/

namespace Effect

namespace Pool
variable {S S' : Signature} {ι ι' σ σ' χ χ' α α' B B' : Type} [DecidableEq ι] [DecidableEq ι']
  {W : World S ι σ χ} {A : ι → Agent S α B} {W' : World S' ι' σ' χ'} {A' : ι' → Agent S' α' B'}
  {c₀ c : Pool S ι σ α B} {d₀ d d' : Pool S' ι' σ' α' B'} {ls : List (Label S ι χ α)}

theorem Run.single {l : Label S' ι' χ' α'} (h : Step W' A' d l d') : Run W' A' d [l] d' :=
  .head h .refl

theorem Run.project {rel : Pool S ι σ α B → Pool S' ι' σ' α' B' → Prop}
    {shows : Label S ι χ α → List (Label S' ι' χ' α') → Prop}
    (h : Run W A c₀ ls c) (h₀ : rel c₀ d₀)
    (step : ∀ c l c' d, l ∈ ls → rel c d → Step W A c l c' →
      ∃ m d', shows l m ∧ Run W' A' d m d' ∧ rel c' d') :
    ∃ (zs : List (Label S ι χ α × List (Label S' ι' χ' α'))) (d : Pool S' ι' σ' α' B'),
      zs.map Prod.fst = ls ∧ (∀ z ∈ zs, shows z.1 z.2) ∧
      Run W' A' d₀ (zs.flatMap Prod.snd) d ∧ rel c d := by
  induction h with
  | refl => exact ⟨[], d₀, rfl, List.forall_mem_nil _, .refl, h₀⟩
  | @snoc ls l c c' _ hs ih =>
    obtain ⟨zs, d, rfl, hzs, hrun, hrel⟩ :=
      ih fun c l c' d hl => step c l c' d (List.mem_append_left _ hl)
    obtain ⟨m, d', hm, hrun', hrel'⟩ := step c l c' d (by simp) hrel hs
    refine ⟨zs ++ [(l, m)], d', by simp, fun z hz => ?_, ?_, hrel'⟩
    · rcases List.mem_append.mp hz with hz | hz
      · exact hzs z hz
      · rw [List.mem_singleton.mp hz]
        exact hm
    · simpa using hrun.append hrun'

end Pool

section Members
variable {Λ Λ' X : Type} {begins ends : Λ → Option X} {begins' ends' : Λ' → Option X}
  {zs : List (Λ × List Λ')} {x y : X}

theorem EndedBefore.shown (h : EndedBefore begins ends (zs.map Prod.fst) x y)
    (he : ∀ z ∈ zs, ends z.1 = some x → ∃ l ∈ z.2, ends' l = some x)
    (hb : ∀ z ∈ zs, begins z.1 = some y → ∃ l ∈ z.2, begins' l = some y) :
    EndedBefore begins' ends' (zs.flatMap Prod.snd) x y := by
  obtain ⟨pre, post, hls, ⟨l, hl, hx⟩, l', hl', hy⟩ := h
  obtain ⟨zs₁, zs₂, rfl, rfl, rfl⟩ := List.map_eq_append_iff.mp hls
  obtain ⟨z, hz, rfl⟩ := List.mem_map.mp hl
  obtain ⟨z', hz', rfl⟩ := List.mem_map.mp hl'
  obtain ⟨m, hm, hmx⟩ := he z (List.mem_append_left _ hz) hx
  obtain ⟨m', hm', hmy⟩ := hb z' (List.mem_append_right _ hz') hy
  exact ⟨_, _, List.flatMap_append, ⟨m, List.mem_flatMap.mpr ⟨z, hz, hm⟩, hmx⟩,
    m', List.mem_flatMap.mpr ⟨z', hz', hm'⟩, hmy⟩

end Members
end Effect
