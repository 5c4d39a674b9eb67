import Mathlib.Tactic

namespace Slots

open Function (update update_of_ne update_self)
open Option (some_inj)
open Prod (mk_inj)

variable {K V : Type} {k k' : K} {v v' : V} {a : Nat}

abbrev Table (K V : Type) := Nat → Option (K × V)

def Maps (T : Table K V) (k : K) (v : V) : Prop := ∃ a, T a = some (k,v)

def Answers (T : Table K V) (k : K) : Option V → Prop
  | some v => Maps T k v
  | none => ∀ v, ¬Maps T k v

def Keyed (T : Table K V) : Prop := ∀ a b k v w, T a = some (k,v) → T b = some (k,w) → a = b

variable {T : Table K V}

lemma Keyed.unique (h : Keyed T) (hv : Maps T k v) (hw : Maps T k v') : v = v' := by
  obtain ⟨a,ha⟩ := hv
  obtain ⟨b,hb⟩ := hw
  obtain rfl := h a b k v v' ha hb
  rw [ha,some_inj,mk_inj] at hb
  exact hb.2

lemma answers_congr {T' : Table K V} (h : ∀ v, Maps T' k v ↔ Maps T k v) (r : Option V) :
    Answers T' k r ↔ Answers T k r := by
  cases r with
  | none => exact forall_congr' fun v => not_congr (h v)
  | some v => exact h v

lemma maps_put (hn : T a = none) : Maps (update T a (some (k,v))) k' v' ↔ (k' = k ∧ v' = v) ∨ Maps T k' v' := by
  constructor
  · rintro ⟨b,hb⟩
    by_cases hba : b = a
    · subst hba
      rw [update_self,some_inj,mk_inj] at hb
      exact .inl ⟨hb.1.symm,hb.2.symm⟩
    · rw [update_of_ne hba] at hb
      exact .inr ⟨b,hb⟩
  · rintro (⟨rfl,rfl⟩ | ⟨b,hb⟩)
    · exact ⟨a,update_self a _ T⟩
    · have hba : b ≠ a := by
        rintro rfl
        rw [hn] at hb
        cases hb
      exact ⟨b,by rw [update_of_ne hba,hb]⟩

lemma Keyed.put (h : Keyed T) (hno : ∀ w, ¬Maps T k w) : Keyed (update T a (some (k,v))) := by
  have hold : ∀ b k' w, update T a (some (k,v)) b = some (k',w) → b ≠ a → T b = some (k',w) ∧ k' ≠ k := by
    intro b k' w hb hba
    rw [update_of_ne hba] at hb
    refine ⟨hb,?_⟩
    rintro rfl
    exact hno w ⟨b,hb⟩
  have hnew : ∀ k' w, update T a (some (k,v)) a = some (k',w) → k' = k := by
    intro k' w hb
    rw [update_self,some_inj,mk_inj] at hb
    exact hb.1.symm
  intro b c k' w w' hb hc
  by_cases hba : b = a
  · by_cases hca : c = a
    · rw [hba,hca]
    · rw [hba] at hb
      exact absurd (hnew k' w hb) (hold c k' w' hc hca).2
  · by_cases hca : c = a
    · rw [hca] at hc
      exact absurd (hnew k' w' hc) (hold b k' w hb hba).2
    · exact h b c k' w w' (hold b k' w hb hba).1 (hold c k' w' hc hca).1

lemma maps_clear (h : Keyed T) (ha : T a = some (k,v)) : Maps (update T a none) k' v' ↔ Maps T k' v' ∧ k' ≠ k := by
  constructor
  · rintro ⟨b,hb⟩
    by_cases hba : b = a
    · rw [hba,update_self] at hb
      cases hb
    · rw [update_of_ne hba] at hb
      refine ⟨⟨b,hb⟩,?_⟩
      rintro rfl
      exact hba (h b a k' v' v hb ha)
  · rintro ⟨⟨b,hb⟩,hne⟩
    have hba : b ≠ a := by
      rintro rfl
      rw [ha,some_inj,mk_inj] at hb
      exact hne hb.1.symm
    exact ⟨b,by rw [update_of_ne hba,hb]⟩

lemma Keyed.clear (h : Keyed T) : Keyed (update T a none) := by
  have hold : ∀ b k' w, update T a none b = some (k',w) → T b = some (k',w) := by
    intro b k' w hb
    by_cases hba : b = a
    · rw [hba,update_self] at hb
      cases hb
    · rwa [update_of_ne hba] at hb
  intro b c k' w w' hb hc
  exact h b c k' w w' (hold b k' w hb) (hold c k' w' hc)

end Slots
