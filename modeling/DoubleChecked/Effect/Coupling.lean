import DoubleChecked.Effect.Unwind

/-!
# Two programs side by side

`Coupled` runs two programs against one handler, each from its own state. The calls
that a `view` shows must be the same, in the same order and with the same replies,
and the two ends must be related. Hidden calls may be made on either side alone.
-/

namespace Effect.Program
variable {S : Signature} {σ V α β γ δ : Type}

structure Coupled (h : (o : S.Op) → σ → S.Res o × σ) (view : Event S → Option V)
    (p : Program S α) (p' : Program S β) (s s' : σ) (post : α → σ → β → σ → Prop) : Prop where
  calls : (run h p s).events.filterMap view = (run h p' s').events.filterMap view
  ends : post (run h p s).result (run h p s).state (run h p' s').result (run h p' s').state

namespace Coupled
variable {h : (o : S.Op) → σ → S.Res o × σ} {view : Event S → Option V}
  {p : Program S α} {p' : Program S β} {s s' : σ} {post : α → σ → β → σ → Prop}

theorem pure {a : α} {b : β} (hp : post a s b s') :
    Coupled h view (.pure a) (.pure b) s s' post :=
  ⟨rfl, hp⟩

theorem pure_of {a : α} {b : β} (hp : p = .pure a) (hp' : p' = .pure b) (ha : post a s b s') :
    Coupled h view p p' s s' post := by
  rw [hp, hp']
  exact pure ha

theorem mono {mid : α → σ → β → σ → Prop} (hp : Coupled h view p p' s s' mid)
    (hm : ∀ a t b t', mid a t b t' → post a t b t') : Coupled h view p p' s s' post :=
  ⟨hp.calls, hm _ _ _ _ hp.ends⟩

theorem bind {f : α → Program S γ} {f' : β → Program S δ} {mid : α → σ → β → σ → Prop}
    {post : γ → σ → δ → σ → Prop} (hp : Coupled h view p p' s s' mid)
    (hf : ∀ a t b t', mid a t b t' → Coupled h view (f a) (f' b) t t' post) :
    Coupled h view (p.bind f) (p'.bind f') s s' post := by
  have hk := hf _ _ _ _ hp.ends
  constructor
  case calls => rw [run_bind, run_bind, List.filterMap_append, List.filterMap_append, hp.calls,
    hk.calls]
  case ends =>
    rw [run_bind, run_bind]
    exact hk.ends

theorem map {f : α → γ} {f' : β → δ} {post : γ → σ → δ → σ → Prop}
    (hp : Coupled h view p p' s s' (fun a t b t' => post (f a) t (f' b) t')) :
    Coupled h view (p.bind fun a => .pure (f a)) (p'.bind fun b => .pure (f' b)) s s' post :=
  bind hp fun _ _ _ _ => pure

theorem start {π : Type} {m : Routine S π Unit α} {m' : Routine S π Unit β}
    {post : Exit π α → σ → Exit π β → σ → Prop}
    (hm : Coupled h view (m ()) (m' ()) s s' (fun x t y t' => post x.1 t y.1 t')) :
    Coupled h view m.start m'.start s s' post :=
  map hm

theorem same {p : Program S α} {f : α → Program S γ} {f' : α → Program S δ}
    {post : γ → σ → δ → σ → Prop}
    (hf : ∀ a t, a = (run h p s).result → Coupled h view (f a) (f' a) t t post) :
    Coupled h view (p.bind f) (p.bind f') s s post := by
  have hp : Coupled h view p p s s (fun a t b t' => a = (run h p s).result ∧ a = b ∧ t = t') :=
    ⟨rfl, rfl, rfl, rfl⟩
  apply bind hp
  intro a t b t' hab
  obtain ⟨ha, rfl, rfl⟩ := hab
  exact hf a t ha

theorem call {o : S.Op} {k : S.Res o → Program S α} {k' : S.Res o → Program S β}
    (hk : ∀ r t, h o s = (r, t) → Coupled h view (k r) (k' r) t t post) :
    Coupled h view (.call o k) (.call o k') s s post := by
  have hc := hk _ _ rfl
  constructor
  case calls => rw [run_call, run_call, List.filterMap_cons, List.filterMap_cons, hc.calls]
  case ends => exact hc.ends

theorem calls_alike {o o' : S.Op} {k : S.Res o → Program S α} {k' : S.Res o' → Program S β}
    (hv : view ⟨o, (h o s).1⟩ = view ⟨o', (h o' s').1⟩)
    (hk : Coupled h view (k (h o s).1) (k' (h o' s').1) (h o s).2 (h o' s').2 post) :
    Coupled h view (.call o k) (.call o' k') s s' post := by
  constructor
  case calls => rw [run_call, run_call, List.filterMap_cons, List.filterMap_cons, hk.calls, hv]
  case ends => exact hk.ends

theorem call_left {o : S.Op} {k : S.Res o → Program S α} (hv : ∀ r, view ⟨o, r⟩ = none)
    (hk : ∀ r t, h o s = (r, t) → Coupled h view (k r) p' t s' post) :
    Coupled h view (.call o k) p' s s' post := by
  have hc := hk _ _ rfl
  constructor
  case calls => rw [run_call, List.filterMap_cons, hv, hc.calls]
  case ends => exact hc.ends

theorem call_right {o : S.Op} {k : S.Res o → Program S β} (hv : ∀ r, view ⟨o, r⟩ = none)
    (hk : ∀ r t, h o s' = (r, t) → Coupled h view p (k r) s t post) :
    Coupled h view p (.call o k) s s' post := by
  have hc := hk _ _ rfl
  constructor
  case calls => rw [run_call, List.filterMap_cons, hv, hc.calls]
  case ends => exact hc.ends

end Coupled
end Effect.Program
