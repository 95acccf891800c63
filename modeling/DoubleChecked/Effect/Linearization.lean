import Mathlib.Data.List.Basic
import Mathlib.Data.List.Nodup

/-!
# Orders that respect real time

Members begin and end at labels of a run. An order that grows at the end, by a member
that has not ended yet, never contradicts the real-time order of the members.
-/

namespace Effect

variable {Λ X : Type} (begins ends : Λ → Option X)

def EndedBefore (ls : List Λ) (x y : X) : Prop :=
  ∃ pre post, ls = pre ++ post ∧ (∃ l ∈ pre, ends l = some x) ∧ ∃ l ∈ post, begins l = some y

/-- Whoever has ended is in the order, before whoever began later. -/
structure RealTime (ls : List Λ) (order : List X) : Prop where
  nodup : order.Nodup
  ended : ∀ l ∈ ls, ∀ x, ends l = some x → x ∈ order
  ordered : ∀ x y, EndedBefore begins ends ls x y → y ∈ order → [x, y].Sublist order

variable {begins ends} {ls : List Λ} {l : Λ} {order : List X} {x y : X}

theorem realTime_nil : RealTime begins ends [] ([] : List X) where
  nodup := List.nodup_nil
  ended := nofun
  ordered _ _ _ := nofun

theorem endedBefore_snoc (h : EndedBefore begins ends (ls ++ [l]) x y) :
    EndedBefore begins ends ls x y ∨ begins l = some y := by
  obtain ⟨pre, post, hls, hx, l', hl', hy⟩ := h
  rcases List.eq_nil_or_concat post with rfl | ⟨post', l'', rfl⟩
  · exact nomatch hl'
  · rw [List.concat_eq_append, ← List.append_assoc] at hls
    obtain ⟨rfl, hl⟩ := List.append_inj' hls rfl
    cases hl
    rw [List.concat_eq_append] at hl'
    rcases List.mem_append.mp hl' with hl' | hl'
    · exact .inl ⟨pre, post', rfl, hx, l', hl', hy⟩
    · rw [List.mem_singleton.mp hl'] at hy
      exact .inr hy

theorem RealTime.label (h : RealTime begins ends ls order) (hb : ∀ y, begins l = some y → y ∉ order)
    (he : ∀ x, ends l = some x → x ∈ order) : RealTime begins ends (ls ++ [l]) order where
  nodup := h.nodup
  ended l' hl' x hx := by
    rcases List.mem_append.mp hl' with hl' | hl'
    · exact h.ended l' hl' x hx
    · rw [List.mem_singleton.mp hl'] at hx
      exact he x hx
  ordered x y hxy hy := by
    rcases endedBefore_snoc hxy with hxy | hl
    · exact h.ordered x y hxy hy
    · exact absurd hy (hb y hl)

theorem RealTime.point (h : RealTime begins ends ls order) (hx : x ∉ order) :
    RealTime begins ends ls (order ++ [x]) where
  nodup := by
    refine List.nodup_append.mpr ⟨h.nodup, List.nodup_cons.mpr ⟨nofun, List.nodup_nil⟩, ?_⟩
    intro y hy z hz hyz
    rw [List.mem_singleton.mp hz] at hyz
    exact hx (hyz ▸ hy)
  ended l hl y hy := List.mem_append_left _ (h.ended l hl y hy)
  ordered y z hyz hz := by
    have hy : y ∈ order := by
      obtain ⟨pre, post, rfl, ⟨l, hl, hy⟩, -⟩ := hyz
      exact h.ended l (List.mem_append_left _ hl) y hy
    rcases List.mem_append.mp hz with hz | hz
    · exact (h.ordered y z hyz hz).trans (List.sublist_append_left order [x])
    · rw [List.mem_singleton.mp hz]
      exact (List.singleton_sublist.mpr hy).append (List.Sublist.refl [x])

end Effect
