import Mathlib.Algebra.Order.Group.Multiset
import DoubleChecked.Effect.Monitor

/-!
# Values that change hands

A `Ledger` says which values the reply to a call gives to a program and which values a
call takes from it. A program may only give away what its calls so far have brought it
and not taken since. `Keeps` follows the values that a routine holds to its return or
its unwind, in a frame of values that others hold; it has one rule for each construct.
-/

namespace Effect

structure Ledger (S : Signature) (V : Type) where
  takes : S.Op → Multiset V
  gives : (o : S.Op) → S.Res o → Multiset V
  admits : (o : S.Op) → S.Res o → Prop

variable {S : Signature} {V π τ κ α β : Type}

namespace Ledger
variable (L : Ledger S V)

def received (es : List (Event S)) : Multiset V := (es.map fun e => L.gives e.op e.res).sum

def spent (es : List (Event S)) : Multiset V := (es.map fun e => L.takes e.op).sum

/-- Of what the calls `es` have given, `held` is not taken yet. -/
def Hold (es : List (Event S)) (held : Multiset V) : Prop := L.received es = L.spent es + held

def monitor : Monitor S (List (Event S)) where
  admits := L.admits
  allows es o := L.spent es + L.takes o ≤ L.received es
  next es o r := es ++ [⟨o, r⟩]

variable {L} {es : List (Event S)} {held others : Multiset V} {o : S.Op}

theorem Hold.allows (h : L.Hold es (others + L.takes o)) : L.monitor.allows es o := by
  change L.spent es + L.takes o ≤ L.received es
  rw [show L.received es = L.spent es + (others + L.takes o) from h, add_left_comm]
  exact Multiset.le_add_left _ _

theorem Hold.next (h : L.Hold es (others + L.takes o)) (r : S.Res o) :
    L.Hold (L.monitor.next es o r) (others + L.gives o r) := by
  have h : L.received es = L.spent es + (others + L.takes o) := h
  simp only [Hold, monitor, received, spent, List.map_append, List.sum_append, List.map_singleton,
    List.sum_singleton] at h ⊢
  rw [h, add_comm others, add_assoc, add_assoc, add_assoc]

theorem eq_append_of_path {fs es' : List (Event S)} (h : L.monitor.Path es fs es') :
    es' = es ++ fs := by
  induction h with
  | nil es => exact (List.append_nil es).symm
  | @cons es es' o r fs _ _ _ ih =>
    rw [ih]
    exact List.append_cons es ⟨o, r⟩ fs |>.symm

theorem spent_le_of_path {es pre post : List (Event S)} {e : Event S} {es' : List (Event S)}
    (h : L.monitor.Path [] es es') (hes : es = pre ++ e :: post) :
    L.spent pre + L.takes e.op ≤ L.received pre := by
  subst hes
  obtain ⟨q, hpre, hpost⟩ := Monitor.path_append.mp h
  obtain rfl : q = pre := eq_append_of_path hpre
  cases hpost with
  | cons allowed _ _ => exact allowed

theorem wp_prefix {p : Program S α} {post : α → List (Event S) → Prop}
    (h : p.wp L.monitor es post) : p.wp L.monitor es fun a es' => es <+: es' ∧ post a es' := by
  induction p generalizing es with
  | pure a => exact ⟨List.prefix_rfl, h⟩
  | call o k ih =>
    refine ⟨h.1, fun r hr => Program.wp_mono (ih r (h.2 r hr)) fun a es' hes' => ?_⟩
    exact ⟨(List.prefix_append es [⟨o, r⟩]).trans hes'.1, hes'.2⟩

end Ledger

namespace Routine
variable {L : Ledger S V} {held extra : Multiset V} {ret : α → Multiset V}
  {unwind : π → Option (Multiset V)}

/-- Entered with `held`, the routine returns `a` with `ret a` or unwinds with `unwind p`, if
that is any, and it does not touch what others hold. -/
def Keeps (L : Ledger S V) (m : Routine S π τ α) (held : Multiset V) (ret : α → Multiset V)
    (unwind : π → Option (Multiset V)) : Prop :=
  ∀ (t : τ) (es : List (Event S)) (others : Multiset V), L.Hold es (others + held) →
    m.wp L.monitor t es (fun a _ es' => L.Hold es' (others + ret a))
      fun p _ es' => ∃ u ∈ unwind p, L.Hold es' (others + u)

abbrev Clears (L : Ledger S V) (c : Routine S π τ Unit) (held : Multiset V) : Prop :=
  c.Keeps L held (fun _ => 0) fun _ => none

theorem keeps_pure (a : α) (hret : ret a = held) :
    (pure a : Routine S π τ α).Keeps L held ret unwind := by
  intro t es others hb
  change L.Hold es (others + ret a)
  rwa [hret]

theorem keeps_raise (p : π) (hp : unwind p = some held) :
    (raise p : Routine S π τ α).Keeps L held ret unwind :=
  fun _ _ _ hb => ⟨held, hp, hb⟩

theorem keeps_get : (get : Routine S π (τ × κ) κ).Keeps L held (fun _ => held) unwind :=
  fun _ _ _ hb => hb

theorem keeps_set (c : κ) :
    (set c : Routine S π (τ × κ) Unit).Keeps L held (fun _ => held) unwind :=
  fun _ _ _ hb => hb

theorem Keeps.bind {m : Routine S π τ β} {f : β → Routine S π τ α} {q : β → Multiset V}
    (hm : m.Keeps L held q unwind) (hf : ∀ x, (f x).Keeps L (q x) ret unwind) :
    (m >>= f).Keeps L held ret unwind := by
  intro t es others hb
  rw [wp_bind]
  exact wp_mono (hm t es others hb) (fun x t' es' hx => hf x t' es' others hx) fun _ _ _ hp => hp

theorem Keeps.bindAssoc {γ : Type} {m : Routine S π τ β} {f : β → Routine S π τ γ}
    {g : γ → Routine S π τ α} (h : (m >>= fun x => f x >>= g).Keeps L held ret unwind) :
    (m >>= f >>= g).Keeps L held ret unwind := by
  intro t es others hb
  simpa only [wp_bind] using h t es others hb

theorem hold_frame {es : List (Event S)} {others : Multiset V} (extra held : Multiset V) :
    L.Hold es (others + (held + extra)) ↔ L.Hold es (others + extra + held) := by
  rw [add_comm held, add_assoc]

theorem Keeps.frame {m : Routine S π τ α} (hm : m.Keeps L held ret unwind)
    (extra : Multiset V) : m.Keeps L (held + extra) (fun a => ret a + extra)
      fun p => (unwind p).map (· + extra) := by
  intro t es others hb
  refine wp_mono (hm t es (others + extra) ((hold_frame _ _).mp hb)) ?_ ?_
  · intro a t' es' ha
    exact (hold_frame _ _).mpr ha
  · intro p t' es' hp
    obtain ⟨u, hu, hb'⟩ := hp
    exact ⟨u + extra, Option.mem_map_of_mem _ hu, (hold_frame _ _).mpr hb'⟩

theorem Keeps.ofNone {m : Routine S π τ α} (hm : m.Keeps L held ret fun _ => none) :
    m.Keeps L held ret unwind := by
  intro t es others hb
  apply wp_mono (hm t es others hb) (fun _ _ _ ha => ha)
  intro p t' es' hp
  obtain ⟨u, hu, -⟩ := hp
  exact nomatch hu

theorem Keeps.beside {m : Routine S π τ α} (hm : m.Keeps L held ret fun _ => none)
    (extra : Multiset V) : m.Keeps L (held + extra) (fun a => ret a + extra) unwind :=
  (hm.frame extra).ofNone

theorem Keeps.holding {m : Routine S π τ Unit} (hm : m.Keeps L 0 (fun _ => 0) fun _ => none)
    (extra : Multiset V) : m.Keeps L extra (fun _ => extra) unwind := by
  have h : m.Keeps L (0 + extra) (fun _ => 0 + extra) unwind := hm.beside extra
  rwa [zero_add] at h

theorem Clears.andThen {c d : Routine S π τ Unit} (hc : c.Clears L held)
    (hd : d.Clears L extra) : Clears L (do c; d) (held + extra) := by
  apply Keeps.bind (hc.beside extra)
  intro _
  rwa [zero_add]

theorem Keeps.catchUnwind {m : Routine S π τ α} {ret : Except π α → Multiset V}
    (hm : m.Keeps L held (fun a => ret (.ok a)) fun p => some (ret (.error p))) :
    (catchUnwind m).Keeps L held ret unwind := by
  intro t es others hb
  rw [wp_catchUnwind]
  refine wp_mono (hm t es others hb) (fun _ _ _ ha => ha) ?_
  intro p t' es' hp
  obtain ⟨u, hu, hb'⟩ := hp
  cases hu
  exact hb'

theorem Keeps.onUnwind {m : Routine S π τ α} {cleanup : Routine S π τ Unit}
    (hm : m.Keeps L held ret unwind) (hc : cleanup.Clears L extra) :
    (m.onUnwind cleanup).Keeps L (held + extra) (fun a => ret a + extra) unwind := by
  intro t es others hb
  rw [wp_onUnwind]
  refine wp_mono (hm.frame extra t es others hb) (fun _ _ _ ha => ha) ?_
  intro p t' es' hp
  obtain ⟨w, hw, hb'⟩ := hp
  obtain ⟨u, hu, rfl⟩ := Option.mem_map.mp hw
  rw [← add_assoc] at hb'
  refine wp_mono (hc t' es' (others + u) hb') (fun _ _ es'' h => ⟨u, hu, ?_⟩) ?_
  · simpa only [add_zero] using h
  · intro q t'' es'' hq
    obtain ⟨v, hv, -⟩ := hq
    exact nomatch hv

theorem Keeps.bare {m : Routine S π τ α} {cleanup : Routine S π τ Unit}
    (hm : m.Keeps L held ret unwind) (hc : cleanup.Clears L 0) :
    (m.onUnwind cleanup).Keeps L held ret unwind := by
  simpa only [add_zero] using hm.onUnwind hc

theorem Keeps.beyond {m : Routine S π τ α} {cleanup : Routine S π τ Unit}
    (hm : m.Keeps L 0 ret unwind) (hc : cleanup.Clears L extra) :
    (m.onUnwind cleanup).Keeps L extra (fun a => ret a + extra) unwind := by
  simpa only [zero_add] using hm.onUnwind hc

theorem Keeps.owned {m : Routine S π τ α} {cleanup : Routine S π τ Unit}
    (hm : m.Keeps L 0 (fun _ => 0) unwind) (hc : cleanup.Clears L extra) :
    (m.onUnwind cleanup).Keeps L extra (fun _ => extra) unwind := by
  simpa only [zero_add] using hm.beyond hc

theorem Keeps.withCell {init : κ} {body : Routine S π (τ × κ) α}
    (hb : body.Keeps L held ret unwind) : (withCell init body).Keeps L held ret unwind := by
  intro t es others hh
  rw [wp_withCell]
  exact hb (t, init) es others hh

theorem Keeps.withCellBind {init : κ} {body : Routine S π (τ × κ) β} {f : β → Routine S π τ α}
    (h : (body >>= fun x => Routine.outer (f x)).Keeps L held ret unwind) :
    (Routine.withCell init body >>= f).Keeps L held ret unwind := by
  intro t es others hb
  simpa only [wp_bind, wp_withCell, wp_outer] using h (t, init) es others hb

theorem Keeps.outer {m : Routine S π τ α} (hm : m.Keeps L held ret unwind) :
    (outer m : Routine S π (τ × κ) α).Keeps L held ret unwind := by
  intro t es others hb
  rw [wp_outer]
  exact hm t.1 es others hb

theorem Keeps.inner {m : Routine S π κ α} (hm : m.Keeps L held ret unwind) :
    (inner m : Routine S π (τ × κ) α).Keeps L held ret unwind := by
  intro t es others hb
  rw [wp_inner]
  exact hm t.2 es others hb

theorem keeps_call {o : S.Op} {f : S.Res o → Reply π α} {g : Reply π α → S.Res o}
    (hg : ∀ r, g (f r) = r) (hf : ∀ r, f (g r) = r) (htakes : L.takes o = held)
    (hret : ∀ a, L.gives o (g (.ret a)) = ret a)
    (hpanic : ∀ p, L.admits o (g (.panic p)) → unwind p = some (L.gives o (g (.panic p)))) :
    (lift (.call o fun r => .pure (f r).exit) : Routine S π τ α).Keeps L held ret unwind := by
  subst htakes
  intro t es others hb
  rw [wp_reply o f g hg hf]
  refine ⟨hb.allows, fun a _ => ?_, fun p hp => ⟨_, hpanic p hp, hb.next _⟩⟩
  rw [← hret]
  exact hb.next _

def Held (L : Ledger S V) (ret : α → Multiset V) (unwind : π → Option (Multiset V)) :
    Exit π α → List (Event S) → Prop
  | .ret a, es => L.Hold es (ret a)
  | .unwind p, es => ∃ u ∈ unwind p, L.Hold es u
  | .abort, _ => False

theorem Keeps.ends {m : Routine S π τ α} (hm : m.Keeps L held ret unwind) {t : τ}
    {es : List (Event S)} (hes : L.Hold es held) :
    (m t).wp L.monitor es fun x es' => es <+: es' ∧ Held L ret unwind x.1 es' := by
  apply Ledger.wp_prefix
  have hw := hm t es 0
  simp only [zero_add] at hw
  refine Program.wp_mono (hw hes) fun x es' hx => ?_
  obtain ⟨a | p | _, t'⟩ := x
  · exact hx
  · exact hx
  · exact hx

end Routine
end Effect
