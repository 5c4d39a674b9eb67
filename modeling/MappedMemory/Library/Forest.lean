import Mathlib.Tactic

namespace Forest

variable {α : Type} [DecidableEq α]

def Owns (kids : α → Option (List α)) (o c : α) : Prop := ∃ l, kids o = some l ∧ c ∈ l

end Forest

structure Forest {α : Type} (r : α) (kids : α → Option (List α)) : Prop where
  root : kids r ≠ none
  mem : ∀ o c, Forest.Owns kids o c → kids c ≠ none ∧ c ≠ r
  nodup : ∀ o l, kids o = some l → l.Nodup
  unique : ∀ o o' c, Forest.Owns kids o c → Forest.Owns kids o' c → o = o'
  owned : ∀ c, kids c ≠ none → c ≠ r → ∃ o, Forest.Owns kids o c

namespace Forest

variable {α : Type} [DecidableEq α] {root o o' c : α} {kids kids' : α → Option (List α)} {l l' : List α}

section
variable (h : Forest root kids) (ho : kids o = some l)
include h ho

lemma adopt (hc : kids c = none)
    (hk : kids' = Function.update (Function.update kids o (some (l ++ [c]))) c (some [])) : Forest root kids' := by
  have hoc : o ≠ c := fun he => by simp [he,hc] at ho
  have hfree : ∀ x, ¬Owns kids x c := fun x hx => (h.mem x c hx).1 hc
  have hself : kids' o = some (l ++ [c]) := by rw [hk,Function.update_of_ne hoc,Function.update_self]
  have hnew : kids' c = some [] := by rw [hk,Function.update_self]
  have hother : ∀ {x}, x ≠ o → x ≠ c → kids' x = kids x := fun ho hc => by
    rw [hk,Function.update_of_ne hc,Function.update_of_ne ho]
  have howns : ∀ x y, Owns kids' x y ↔ Owns kids x y ∨ x = o ∧ y = c := by
    intro x y
    by_cases hxo : x = o
    · subst hxo
      simp [Owns,hself,ho]
    · by_cases hxc : x = c
      · subst hxc
        simp [Owns,hnew,hc,hxo]
      · simp [Owns,hother hxo hxc,hxo]
  have hdom : ∀ {y}, kids y ≠ none → kids' y ≠ none := fun {y} hy => by
    by_cases hyo : y = o
    · simp [hyo,hself]
    · by_cases hyc : y = c
      · simp [hyc,hnew]
      · rwa [hother hyo hyc]
  refine ⟨hdom h.root,fun x y hxy => ?_,fun x m hx => ?_,fun x x' y hx hx' => ?_,fun y hy hr => ?_⟩
  · rcases (howns x y).mp hxy with hxy | ⟨-,rfl⟩
    · exact ⟨hdom (h.mem x y hxy).1,(h.mem x y hxy).2⟩
    · exact ⟨by simp [hnew],fun he => h.root (he ▸ hc)⟩
  · by_cases hxo : x = o
    · subst hxo
      cases hself.symm.trans hx
      refine List.Nodup.append (h.nodup _ l ho) (by simp) ?_
      simpa using fun hm => hfree _ ⟨l,ho,hm⟩
    · by_cases hxc : x = c
      · subst hxc
        cases hnew.symm.trans hx
        exact List.nodup_nil
      · exact h.nodup x m (hother hxo hxc ▸ hx)
  · rcases (howns x y).mp hx with hx | ⟨rfl,rfl⟩
    · rcases (howns x' y).mp hx' with hx' | ⟨rfl,rfl⟩
      · exact h.unique x x' y hx hx'
      · exact absurd hx (hfree x)
    · rcases (howns x' _).mp hx' with hx' | ⟨rfl,-⟩
      · exact absurd hx' (hfree x')
      · rfl
  · by_cases hyc : y = c
    · exact ⟨o,(howns o y).mpr (.inr ⟨rfl,hyc⟩)⟩
    · have hold : kids y ≠ none := by
        by_cases hyo : y = o
        · simp [hyo,ho]
        · rwa [hother hyo hyc] at hy
      obtain ⟨x,hx⟩ := h.owned y hold hr
      exact ⟨x,(howns x y).mpr (.inl hx)⟩

lemma owns_erase (hc : c ∈ l) (x y : α) :
    Owns (Function.update kids o (some (l.erase c))) x y ↔ Owns kids x y ∧ y ≠ c := by
  by_cases hx : x = o
  · subst hx
    simp only [Owns,Function.update_self,Option.some_inj,exists_eq_left',ho,(h.nodup _ l ho).mem_erase_iff]
    exact and_comm
  · have hxy : Owns kids x y → y ≠ c := fun hxy he => hx (h.unique x o y hxy ⟨l,ho,he ▸ hc⟩)
    simp only [Owns,Function.update_of_ne hx]
    exact ⟨fun hm => ⟨hm,hxy hm⟩,And.left⟩

lemma drop (hc : c ∈ l) (he : kids c = some [])
    (hk : kids' = Function.update (Function.update kids o (some (l.erase c))) c none) : Forest root kids' := by
  have hoc : o ≠ c := fun hoc => by
    rw [← hoc,ho,Option.some_inj] at he
    simp [he] at hc
  have howns : ∀ x y, Owns kids' x y ↔ Owns kids x y ∧ y ≠ c := by
    intro x y
    rw [← h.owns_erase ho hc,hk]
    by_cases hx : x = c
    · subst hx
      simp [Owns,Function.update_of_ne (Ne.symm hoc),he]
    · simp only [Owns,Function.update_of_ne hx]
  have hdom : ∀ {y}, y ≠ c → (kids' y ≠ none ↔ kids y ≠ none) := fun {y} hy => by
    rw [hk,Function.update_of_ne hy]
    by_cases hyo : y = o
    · simp [hyo,ho]
    · rw [Function.update_of_ne hyo]
  have hroot := (h.mem o c ⟨l,ho,hc⟩).2
  refine ⟨(hdom (Ne.symm hroot)).mpr h.root,fun x y hxy => ?_,fun x m hx => ?_,fun x x' y hx hx' => ?_,fun y hy hr => ?_⟩
  · obtain ⟨hxy,hyc⟩ := (howns x y).mp hxy
    exact ⟨(hdom hyc).mpr (h.mem x y hxy).1,(h.mem x y hxy).2⟩
  · have hxc : x ≠ c := fun he => by simp [hk,he] at hx
    rw [hk,Function.update_of_ne hxc] at hx
    by_cases hxo : x = o
    · subst hxo
      rw [Function.update_self] at hx
      cases hx
      exact (h.nodup _ l ho).erase c
    · exact h.nodup x m (by rwa [Function.update_of_ne hxo] at hx)
  · exact h.unique x x' y ((howns x y).mp hx).1 ((howns x' y).mp hx').1
  · have hyc : y ≠ c := fun he => by simp [hk,he] at hy
    obtain ⟨x,hx⟩ := h.owned y ((hdom hyc).mp hy) hr
    exact ⟨x,(howns x y).mpr ⟨hx,hyc⟩⟩

lemma move (hc : c ∈ l) (ho' : kids o' = some l') (hne : o ≠ o')
    (hk : kids' = Function.update (Function.update kids o (some (l.erase c))) o' (some (l' ++ [c]))) :
    Forest root kids' := by
  have howns : ∀ x y, Owns kids' x y ↔ Owns kids x y ∧ y ≠ c ∨ x = o' ∧ y = c := by
    intro x y
    rw [← h.owns_erase ho hc,hk]
    by_cases hx : x = o'
    · subst hx
      simp [Owns,Function.update_of_ne (Ne.symm hne),ho']
    · simp [Owns,hx]
  have hdom : ∀ y, kids' y ≠ none ↔ kids y ≠ none := fun y => by
    rw [hk]
    by_cases hyo : y = o'
    · simp [hyo,ho']
    · rw [Function.update_of_ne hyo]
      by_cases hyo : y = o
      · simp [hyo,ho]
      · rw [Function.update_of_ne hyo]
  refine ⟨(hdom root).mpr h.root,fun x y hxy => ?_,fun x m hx => ?_,fun x x' y hx hx' => ?_,fun y hy hr => ?_⟩
  · rw [hdom]
    rcases (howns x y).mp hxy with ⟨hxy,-⟩ | ⟨-,rfl⟩
    · exact h.mem x y hxy
    · exact h.mem o y ⟨l,ho,hc⟩
  · rw [hk] at hx
    by_cases hxo : x = o'
    · subst hxo
      rw [Function.update_self] at hx
      cases hx
      refine List.Nodup.append (h.nodup _ l' ho') (by simp) ?_
      simpa using fun hm => hne (h.unique o _ c ⟨l,ho,hc⟩ ⟨l',ho',hm⟩)
    · rw [Function.update_of_ne hxo] at hx
      by_cases hxo : x = o
      · subst hxo
        rw [Function.update_self] at hx
        cases hx
        exact (h.nodup _ l ho).erase c
      · exact h.nodup x m (by rwa [Function.update_of_ne hxo] at hx)
  · rcases (howns x y).mp hx with ⟨hx,hyc⟩ | ⟨rfl,rfl⟩
    · rcases (howns x' y).mp hx' with ⟨hx',-⟩ | ⟨-,he⟩
      · exact h.unique x x' y hx hx'
      · exact absurd he hyc
    · rcases (howns x' _).mp hx' with ⟨-,hyc⟩ | ⟨rfl,-⟩
      · exact absurd rfl hyc
      · rfl
  · obtain ⟨x,hx⟩ := h.owned y ((hdom y).mp hy) hr
    by_cases hyc : y = c
    · exact ⟨o',(howns o' y).mpr (.inr ⟨rfl,hyc⟩)⟩
    · exact ⟨x,(howns x y).mpr (.inl ⟨hx,hyc⟩)⟩

end

end Forest
