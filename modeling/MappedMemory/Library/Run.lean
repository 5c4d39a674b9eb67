import Mathlib.Tactic

namespace Run

variable {σ ω : Type}

lemma bind_some {α β : Type} {x : Option α} {f : α → Option β} {b : β} :
    (x >>= f) = some b ↔ ∃ a, x = some a ∧ f a = some b := Option.bind_eq_some_iff

variable {step : σ → ω → Option σ} {o : ω} {os : List ω} {s t : σ} {P : σ → Prop} {ok : σ → ω → Bool}

lemma foldlM_cons_some : (o :: os).foldlM step s = some t ↔ ∃ u, step s o = some u ∧ os.foldlM step u = some t := by
  rw [List.foldlM_cons]
  cases step s o <;> simp

lemma invariant (hstep : ∀ s o t, P s → step s o = some t → P t) (hs : P s) (h : os.foldlM step s = some t) : P t := by
  induction os generalizing s with
  | nil =>
    have he : s = t := by simpa using h
    exact he ▸ hs
  | cons o os ih =>
    obtain ⟨u,hu,ht⟩ := foldlM_cons_some.mp h
    exact ih (hstep s o u hs hu) ht

def guarded (ok : σ → ω → Bool) (step : σ → ω → Option σ) (s : σ) (o : ω) : Option σ :=
  if ok s o then step s o else none

lemma guarded_some : guarded ok step s o = some t ↔ ok s o = true ∧ step s o = some t := by
  simp [guarded]

lemma foldlM_of_guarded (h : os.foldlM (guarded ok step) s = some t) : os.foldlM step s = some t := by
  induction os generalizing s with
  | nil => exact h
  | cons o os ih =>
    obtain ⟨u,hu,ht⟩ := foldlM_cons_some.mp h
    exact foldlM_cons_some.mpr ⟨u,(guarded_some.mp hu).2,ih ht⟩

def Along (ok : σ → ω → Prop) (step : σ → ω → Option σ) : List ω → σ → Prop
  | [], _ => True
  | o :: os, s => ok s o ∧ ∀ u, step s o = some u → Along ok step os u

instance decidableAlong {ok : σ → ω → Prop} [∀ s o, Decidable (ok s o)] {step : σ → ω → Option σ} :
    (os : List ω) → (s : σ) → Decidable (Along ok step os s)
  | [], _ => isTrue trivial
  | o :: os, s =>
    match hs : step s o with
    | none => decidable_of_iff (ok s o) ⟨fun h => ⟨h,fun _ hu => nomatch hs.symm.trans hu⟩,And.left⟩
    | some u =>
      haveI : Decidable (Along ok step os u) := decidableAlong os u
      decidable_of_iff (ok s o ∧ Along ok step os u)
        ⟨fun h => ⟨h.1,fun _ hv => Option.some.inj (hs.symm.trans hv) ▸ h.2⟩,fun h => ⟨h.1,h.2 u hs⟩⟩

lemma along_of_forall {ok : ω → Prop} (h : ∀ o ∈ os, ok o) (s : σ) : Along (fun _ o => ok o) step os s := by
  induction os generalizing s with
  | nil => trivial
  | cons o os ih => exact ⟨h o List.mem_cons_self,fun u _ => ih (fun p hp => h p (List.mem_cons_of_mem o hp)) u⟩

lemma invariant_along {ok : σ → ω → Prop} (hstep : ∀ s o t, P s → ok s o → step s o = some t → P t) (hs : P s) (hok : Along ok step os s) (h : os.foldlM step s = some t) : P t := by
  induction os generalizing s with
  | nil =>
    have he : s = t := by simpa using h
    exact he ▸ hs
  | cons o os ih =>
    obtain ⟨u,hu,ht⟩ := foldlM_cons_some.mp h
    exact ih (hstep s o u hs hok.1 hu) (hok.2 u hu) ht

lemma along_iff_prefixes {ok : σ → ω → Prop} {I : σ → Prop} (hP : ∀ s, I s → P s)
    (hgood : ∀ s o t, I s → ok s o → step s o = some t → I t)
    (hbad : ∀ s o t, I s → ¬ok s o → step s o = some t → ¬P t) (hs : I s) (h : os.foldlM step s = some t) :
    (∀ pre u, pre <+: os → pre.foldlM step s = some u → P u) ↔ Along ok step os s := by
  induction os generalizing s with
  | nil =>
    refine iff_of_true (fun pre u hpre hu => ?_) trivial
    obtain rfl := List.prefix_nil.mp hpre
    obtain rfl : s = u := by simpa using hu
    exact hP s hs
  | cons o os ih =>
    obtain ⟨u,hu,ht⟩ := foldlM_cons_some.mp h
    constructor
    · intro hall
      have hok : ok s o := by
        by_contra hno
        exact hbad s o u hs hno hu (hall [o] u (by simp) (foldlM_cons_some.mpr ⟨u,hu,rfl⟩))
      refine ⟨hok,fun v hv => ?_⟩
      cases hu.symm.trans hv
      exact (ih (hgood s o u hs hok hu) ht).mp fun pre w hpre hw =>
        hall (o :: pre) w (List.cons_prefix_cons.mpr ⟨rfl,hpre⟩) (foldlM_cons_some.mpr ⟨u,hu,hw⟩)
    · rintro ⟨hok,hrest⟩ pre w hpre hw
      cases pre with
      | nil =>
        obtain rfl : s = w := by simpa using hw
        exact hP s hs
      | cons p pre =>
        obtain ⟨rfl,hrestpre⟩ := List.cons_prefix_cons.mp hpre
        obtain ⟨v,hv,hw⟩ := foldlM_cons_some.mp hw
        cases hu.symm.trans hv
        exact (ih (hgood s _ u hs hok hu) ht).mpr (hrest u hu) pre w hrestpre hw

end Run
