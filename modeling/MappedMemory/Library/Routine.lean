import Mathlib.Tactic

namespace Routine

variable {σ α β : Type} {x : StateT σ Option α} {f : α → StateT σ Option β} {s t u : σ} {a : α} {p : PUnit}
  {d : α → σ → Bool}

lemma bind_some {b : β} : (x >>= f) s = some (b,t) ↔ ∃ a u, x s = some (a,u) ∧ f a u = some (b,t) := by
  change (x s).bind (fun p => f p.1 p.2) = some (b,t) ↔ _
  rw [Option.bind_eq_some_iff]
  exact ⟨fun ⟨p,hx,hf⟩ => ⟨p.1,p.2,hx,hf⟩,fun ⟨a,u,hx,hf⟩ => ⟨(a,u),hx,hf⟩⟩

lemma unless_true {x y : α} : (if (!true) = true then x else y) = y := rfl

lemma pure_some {b : α} : (pure a : StateT σ Option α) s = some (b,t) ↔ b = a ∧ t = s := by
  change some (a,s) = some (b,t) ↔ _
  simp only [Option.some_inj,Prod.mk_inj]
  exact ⟨fun ⟨h,k⟩ => ⟨h.symm,k.symm⟩,fun ⟨h,k⟩ => ⟨h.symm,k.symm⟩⟩

lemma pure_apply : (pure a : StateT σ Option α) s = some (a,s) := rfl

lemma bind_of_some (h : x s = some (a,u)) : (x >>= f) s = f a u := by
  change (x s).bind (fun p => f p.1 p.2) = f a u
  rw [h,Option.bind_some]

lemma bind_of_none (h : x s = none) : (x >>= f) s = none := by
  change (x s).bind (fun p => f p.1 p.2) = none
  rw [h,Option.bind_none]

lemma get_bind {f : σ → StateT σ Option β} : ((get : StateT σ Option σ) >>= f) s = f s s := rfl

lemma set_bind {f : PUnit → StateT σ Option β} : ((set u : StateT σ Option PUnit) >>= f) s = f ⟨⟩ u := rfl

lemma modify_bind {g : σ → σ} {f : PUnit → StateT σ Option β} :
    ((modify g : StateT σ Option PUnit) >>= f) s = f ⟨⟩ (g s) := rfl

lemma set_some : (set u : StateT σ Option PUnit) s = some (p,t) ↔ t = u := by
  change some (PUnit.unit,u) = some (p,t) ↔ _
  simp only [Option.some_inj,Prod.mk_inj,true_and]
  exact eq_comm

lemma modify_some {f : σ → σ} : (modify f : StateT σ Option PUnit) s = some (p,t) ↔ t = f s := by
  change some (PUnit.unit,f s) = some (p,t) ↔ _
  simp only [Option.some_inj,Prod.mk_inj,true_and]
  exact eq_comm

def Returns (x : StateT σ Option α) (s : σ) : Prop := ∃ r, x s = some r

lemma Returns.bind (h : Returns x s) (hf : ∀ a u, x s = some (a,u) → Returns (f a) u) : Returns (x >>= f) s := by
  obtain ⟨⟨a,u⟩,hx⟩ := h
  obtain ⟨r,hr⟩ := hf a u hx
  exact ⟨r,by rw [bind_of_some hx,hr]⟩

lemma returns_pure : Returns (pure a : StateT σ Option α) s := ⟨(a,s),rfl⟩

lemma not_returns : ¬Returns x s ↔ x s = none := by
  rw [Returns,← Option.isSome_iff_exists,Bool.not_eq_true,Option.isSome_eq_false_iff,Option.isNone_iff_eq_none]

def after (x : StateT σ Option α) (d : α → σ → Bool) (s : σ) : Bool :=
  match x s with
  | some (r,t) => d r t
  | none => false

lemma after_of_some {r : α} (h : x s = some (r,t)) : after x d s = d r t := by rw [after,h]

lemma of_after (h : after x d s = true) : ∃ r t, x s = some (r,t) ∧ d r t = true := by
  unfold after at h
  split at h
  · rename_i r t hx
    exact ⟨r,t,hx,h⟩
  · cases h

end Routine
