import Mathlib.Data.List.Induction
import DoubleChecked.Effect.Pool

/-!
# One agent's part of a run

The calls that one agent has entered and the events it has completed are read off the
labels of a run. For a monitor the events are a path to where it stands.
-/

namespace Effect

variable {S : Signature} {ι σ χ α B Q : Type} [DecidableEq ι]

def Label.enteredBy (i : ι) : Label S ι χ α → Option S.Op
  | .enter j o => if j = i then some o else none
  | _ => none

def Label.completedBy (i : ι) : Label S ι χ α → Option (Event S)
  | .leave j o r => if j = i then some ⟨o, r⟩ else none
  | _ => none

def callsOf (i : ι) (ls : List (Label S ι χ α)) : List S.Op := ls.filterMap (Label.enteredBy i)

def eventsOf (i : ι) (ls : List (Label S ι χ α)) : List (Event S) :=
  ls.filterMap (Label.completedBy i)

variable {i : ι} {ls : List (Label S ι χ α)} {l : Label S ι χ α}

@[simp] theorem callsOf_snoc :
    callsOf i (ls ++ [l]) = callsOf i ls ++ (l.enteredBy i).toList := by
  cases hl : l.enteredBy i <;> simp [callsOf, hl]

@[simp] theorem eventsOf_snoc :
    eventsOf i (ls ++ [l]) = eventsOf i ls ++ (l.completedBy i).toList := by
  cases hl : l.completedBy i <;> simp [eventsOf, hl]

theorem enteredBy_eq_some {o : S.Op} : l.enteredBy i = some o ↔ l = .enter i o := by
  constructor
  · intro h
    cases l with
    | enter j o' =>
      rw [Label.enteredBy] at h
      split at h
      case isTrue hj =>
        subst hj
        cases h
        rfl
      case isFalse => exact nomatch h
    | _ => exact nomatch h
  · intro h
    rw [h]
    exact if_pos rfl

theorem mem_callsOf {o : S.Op} : o ∈ callsOf i ls ↔ .enter i o ∈ ls := by
  simp [callsOf, enteredBy_eq_some]

theorem completedBy_eq_some {e : Event S} :
    l.completedBy i = some e ↔ l = .leave i e.op e.res := by
  constructor
  · intro h
    cases l with
    | leave j o r =>
      rw [Label.completedBy] at h
      split at h
      case isTrue hj =>
        subst hj
        cases h
        rfl
      case isFalse => exact nomatch h
    | _ => exact nomatch h
  · intro h
    rw [h]
    exact if_pos rfl

theorem mem_eventsOf {e : Event S} : e ∈ eventsOf i ls ↔ .leave i e.op e.res ∈ ls := by
  simp [eventsOf, completedBy_eq_some]

theorem split_of_eventsOf {es : List (Event S)} {e : Event S} (h : eventsOf i ls = es ++ [e]) :
    ∃ before after, ls = before ++ .leave i e.op e.res :: after ∧ eventsOf i before = es ∧
      eventsOf i after = [] := by
  obtain ⟨l₁, l₂, rfl, rfl, h₂⟩ := List.filterMap_eq_append_iff.mp h
  obtain ⟨m₁, a, m₂, rfl, hm₁, ha, hm₂⟩ := List.filterMap_eq_cons_iff.mp h₂
  obtain rfl := completedBy_eq_some.mp ha
  refine ⟨l₁ ++ m₁, m₂, by simp, ?_, hm₂⟩
  rw [eventsOf, List.filterMap_append, List.filterMap_eq_nil_iff.mpr hm₁, List.append_nil]

omit [DecidableEq ι] in
theorem eq_singleton_of_mem {is : List ι} (hi : i ∈ is) (hlength : is.length ≤ 1) : is = [i] := by
  obtain ⟨j, rfl⟩ := List.length_eq_one_iff.mp (Nat.le_antisymm hlength (List.length_pos_of_mem hi))
  rw [List.mem_singleton.mp hi]

def Phase.current : Phase S α B → Option S.Op
  | .inside _ o => some o
  | _ => none

namespace Pool
variable {W : World S ι σ χ} {A : ι → Agent S α B} {c₀ c : Pool S ι σ α B}

theorem Run.callsOf_eq (h : Run W A c₀ ls c) (h₀ : (c₀.phases i).current = none) :
    callsOf i ls = (eventsOf i ls).map Event.op ++ (c.phases i).current.toList := by
  refine h.invariant (I := fun ls c =>
    callsOf i ls = (eventsOf i ls).map Event.op ++ (c.phases i).current.toList) ?_ ?_
  · rw [h₀]
    rfl
  intro ls c l c' hc hs
  have hkeep {j : ι} (p : Phase S α B) (s : σ) (hj : (c.phases j).current = p.current) :
      ((c.move j p s).phases i).current = (c.phases i).current :=
    c.forall_move s (motive := fun i p => p.current = (c.phases i).current) hj.symm
      (fun _ _ => rfl) i
  rw [callsOf_snoc, eventsOf_snoc, hc]
  cases hs with
  | @invoke j b hj =>
    rw [hkeep (.idle b) _ (by rw [hj]; rfl)]
    simp [Label.enteredBy, Label.completedBy]
  | @enter j b o s hj ha hw =>
    by_cases hij : i = j
    · subst hij
      simp [Label.enteredBy, Label.completedBy, hj, Phase.current]
    · simp [Label.enteredBy, Label.completedBy, move_phases_of_ne _ hij, Ne.symm hij]
  | @leave j b b' o r s hj ha hw =>
    by_cases hij : i = j
    · subst hij
      simp [Label.enteredBy, Label.completedBy, hj, Phase.current]
    · simp [Label.enteredBy, Label.completedBy, move_phases_of_ne _ hij, Ne.symm hij]
  | @finish j b a hj ha =>
    rw [hkeep (.finished b a) _ (by rw [hj]; rfl)]
    simp [Label.enteredBy, Label.completedBy]
  | act hw => simp [Label.enteredBy, Label.completedBy]

theorem Run.path {M : ι → Monitor S Q} {post : ι → α → Q → Prop} {c₀ c : Pool S ι σ α Q}
    (h : Run W (fun i => (M i).agent (post i)) c₀ ls c) (i : ι) :
    (M i).Path (c₀.phases i).body (eventsOf i ls) (c.phases i).body := by
  refine h.invariant (I := fun ls c =>
    (M i).Path (c₀.phases i).body (eventsOf i ls) (c.phases i).body) (.nil _) ?_
  intro ls c l c' hc hs
  rw [eventsOf_snoc]
  rcases hs.bodies i with ⟨hl, hb⟩ | ⟨o, r, rfl, ha, hr, hb⟩
  · have hn : l.completedBy i = none := by
      cases l with
      | leave j o r =>
        apply if_neg
        intro hj
        subst hj
        exact hl o r rfl
      | _ => rfl
    rw [hn, hb]
    simpa using hc
  · rw [Label.completedBy, if_pos rfl, hb]
    exact Monitor.path_append.mpr ⟨_, hc, .cons ha hr (.nil _)⟩

theorem Run.of_snoc (h : Run W A c₀ (ls ++ [l]) c) : ∃ c₁, Run W A c₀ ls c₁ ∧ Step W A c₁ l c := by
  generalize hx : ls ++ [l] = xs at h
  cases h with
  | refl => exact absurd hx (List.concat_ne_nil l ls)
  | snoc hrun hs =>
    obtain ⟨rfl, ⟨⟩⟩ := List.append_inj' hx rfl
    exact ⟨_, hrun, hs⟩

theorem Run.split {ls' : List (Label S ι χ α)} (h : Run W A c₀ (ls ++ ls') c) :
    ∃ c₁, Run W A c₀ ls c₁ ∧ Run W A c₁ ls' c := by
  induction ls' using List.reverseRecOn generalizing c with
  | nil => exact ⟨c, by simpa using h, .refl⟩
  | append_singleton ls' l ih =>
    rw [← List.append_assoc] at h
    obtain ⟨c', hrun, hs⟩ := h.of_snoc
    obtain ⟨c₁, hrun₁, hrun₂⟩ := ih hrun
    exact ⟨c₁, hrun₁, hrun₂.snoc hs⟩

theorem Run.split_at {ls' : List (Label S ι χ α)} (h : Run W A c₀ (ls ++ l :: ls') c) :
    ∃ c₁ c₂, Run W A c₀ ls c₁ ∧ Step W A c₁ l c₂ ∧ Run W A c₂ ls' c := by
  rw [List.append_cons] at h
  obtain ⟨c₂, hrun, hrun₂⟩ := h.split
  obtain ⟨c₁, hrun₁, hs⟩ := hrun.of_snoc
  exact ⟨c₁, c₂, hrun₁, hs, hrun₂⟩

theorem Run.invoke_mem (h : Run W A c₀ ls c) (h₀ : ∃ b, c₀.phases i = .pending b)
    (hi : ∀ b, c.phases i ≠ .pending b) : .invoke i ∈ ls := by
  suffices hinv : .invoke i ∈ ls ∨ ∃ b, c.phases i = .pending b by
    rcases hinv with hmem | ⟨b, hb⟩
    · exact hmem
    · exact absurd hb (hi b)
  refine h.invariant (I := fun ls c => .invoke i ∈ ls ∨ ∃ b, c.phases i = .pending b) (.inr h₀) ?_
  intro ls c l c' hc hs
  rcases hc with hmem | ⟨b, hb⟩
  · exact .inl (List.mem_append_left _ hmem)
  have hkeep {j : ι} {p : Phase S α B} {s : σ} (hj : c.phases j ≠ c.phases i) :
      ∃ b, (c.move j p s).phases i = .pending b := by
    refine ⟨b, (c.move_phases_of_ne (fun hij => hj ?_) p s).trans hb⟩
    rw [hij]
  cases hs with
  | @invoke j _ hj =>
    by_cases hij : i = j
    · subst hij
      exact .inl (by simp)
    · exact .inr ⟨b, (c.move_phases_of_ne hij _ _).trans hb⟩
  | enter hj | leave hj | finish hj =>
    refine .inr (hkeep ?_)
    rw [hj, hb]
    exact nofun
  | act hw => exact .inr ⟨b, hb⟩

theorem Run.finished_of_mem (h : Run W A c₀ ls c) {a : α} (hmem : .finish i a ∈ ls) :
    ∃ b, c.phases i = .finished b a := by
  refine h.invariant (I := fun ls c => .finish i a ∈ ls → ∃ b, c.phases i = .finished b a)
    nofun ?_ hmem
  intro ls c l c' hc hs hmem
  have hkeep {j : ι} {p : Phase S α B} {s : σ} (hl : .finish i a ∉ [l])
      (hj : ∀ b, c.phases j ≠ .finished b a) : ∃ b, (c.move j p s).phases i = .finished b a := by
    obtain ⟨b, hb⟩ := hc ((List.mem_append.mp hmem).resolve_right hl)
    refine ⟨b, (c.move_phases_of_ne (fun hij => hj b ?_) p s).trans hb⟩
    rw [← hij, hb]
  cases hs with
  | invoke hj | enter hj | leave hj => exact hkeep (by simp) (by rw [hj]; exact fun _ => nofun)
  | @finish j b a' hj ha =>
    by_cases hl : Label.finish i a ∈ [(Label.finish j a' : Label S ι χ α)]
    · cases List.mem_singleton.mp hl
      exact ⟨b, c.move_phases_self _ _ _⟩
    · exact hkeep hl (by rw [hj]; exact fun _ => nofun)
  | act hw => exact hc ((List.mem_append.mp hmem).resolve_right (by simp))

end Pool
end Effect
