import MappedMemory.Library.Slots

namespace Naming

open Function (update)
open Slots

variable {N K : Type}

@[ext] structure Tree (N K : Type) where
  live : Set N
  entries : N → Table K N
  links : N → Nat

namespace Tree

variable [DecidableEq N] (T : Tree N K)

def birth (i : N) : Tree N K := { T with live := insert i T.live, links := update T.links i 1 }

def setEntry (d : N) (a : Nat) (e : Option (K × N)) : Tree N K :=
  { T with entries := update T.entries d (update (T.entries d) a e) }

def relink (i : N) (n : Nat) : Tree N K := { T with links := update T.links i n }

omit [DecidableEq N] in
def Refers (i : N) : Set (N × Nat) := {p | ∃ k, T.entries p.1 p.2 = some (k,i)}

omit [DecidableEq N] in
noncomputable def count (i : N) : Nat := (T.Refers i).ncard

omit [DecidableEq N] in
structure Counted (root : N) : Prop where
  finite : {p : N × Nat | T.entries p.1 p.2 ≠ none}.Finite
  named : ∀ d a k i, T.entries d a = some (k,i) → i ∈ T.live ∧ i ≠ root
  counts : ∀ i, i ∈ T.live → i ≠ root → T.count i = T.links i

variable {T} {d i j : N} {a : Nat} {e : Option (K × N)} {k : K} {root : N} {n : Nat} {p : N × Nat} {d' : N} {k' : K}

omit [DecidableEq N] in
lemma Counted.refers_finite (h : T.Counted root) : (T.Refers i).Finite :=
  h.finite.subset fun p ⟨k,hp⟩ => by simp [hp]

lemma setEntry_at : (T.setEntry d a e).entries d a = e := by
  simp [setEntry]

lemma setEntry_other (h : p ≠ (d,a)) : (T.setEntry d a e).entries p.1 p.2 = T.entries p.1 p.2 := by
  unfold setEntry
  by_cases hd : p.1 = d
  · have ha : p.2 ≠ a := fun ha => h (Prod.ext hd ha)
    simp [hd,ha]
  · simp [hd]

lemma setEntry_entries : (T.setEntry d a e).entries p.1 p.2 = if p = (d,a) then e else T.entries p.1 p.2 := by
  split
  · rename_i h
    subst h
    exact setEntry_at
  · rename_i h
    exact setEntry_other h

lemma entries_setEntry :
    (T.setEntry d a e).entries d' = if d' = d then update (T.entries d) a e else T.entries d' := by
  unfold setEntry
  split
  · rename_i h
    simp [h]
  · rename_i h
    simp [h]

lemma maps_enter (hfree : T.entries d a = none) : Maps ((T.setEntry d a (some (k,i))).entries d') k' j ↔
      (d' = d ∧ k' = k ∧ j = i) ∨ Maps (T.entries d') k' j := by
  rw [entries_setEntry]
  split
  · rename_i h
    subst h
    rw [maps_put hfree]
    simp
  · rename_i h
    simp [h]

lemma maps_erase (hk : Keyed (T.entries d)) (he : T.entries d a = some (k,i)) :
    Maps ((T.setEntry d a none).entries d') k' j ↔ Maps (T.entries d') k' j ∧ ¬(d' = d ∧ k' = k) := by
  rw [entries_setEntry]
  split
  · rename_i h
    subst h
    rw [maps_clear hk he]
    simp
  · rename_i h
    simp [h]

lemma keyed_enter (hk : ∀ d, Keyed (T.entries d)) (hno : ∀ j, ¬Maps (T.entries d) k j) (d' : N) :
    Keyed ((T.setEntry d a (some (k,i))).entries d') := by
  rw [entries_setEntry]
  split
  · exact (hk d).put hno
  · exact hk d'

lemma keyed_erase (hk : ∀ d, Keyed (T.entries d)) (d' : N) : Keyed ((T.setEntry d a none).entries d') := by
  rw [entries_setEntry]
  split
  · exact (hk d).clear
  · exact hk d'

lemma refers_enter (hfree : T.entries d a = none) :
    (T.setEntry d a (some (k,i))).Refers j = if j = i then insert (d,a) (T.Refers j) else T.Refers j := by
  ext p
  simp only [Refers,Set.mem_ofPred_eq,setEntry_entries]
  by_cases hp : p = (d,a)
  · subst hp
    by_cases hj : j = i
    · simp [hj]
    · simp [hj,hfree,Ne.symm hj]
  · by_cases hj : j = i <;> simp [hp,hj]

lemma refers_erase (he : T.entries d a = some (k,i)) :
    (T.setEntry d a none).Refers j = if j = i then T.Refers j \ {(d,a)} else T.Refers j := by
  ext p
  simp only [Refers,Set.mem_ofPred_eq,setEntry_entries]
  by_cases hp : p = (d,a)
  · subst hp
    by_cases hj : j = i
    · simp [hj]
    · simp [hj,he,Ne.symm hj]
  · by_cases hj : j = i <;> simp [hp,hj]

section
variable (h : T.Counted root)
include h

lemma count_enter (hfree : T.entries d a = none) :
    (T.setEntry d a (some (k,i))).count j = T.count j + if j = i then 1 else 0 := by
  rw [count,refers_enter hfree]
  split
  · rename_i hj
    have hnot : (d,a) ∉ T.Refers j := fun ⟨k,hk⟩ => by
      rw [hfree] at hk
      cases hk
    rw [Set.ncard_insert_of_notMem hnot h.refers_finite,count]
  · rfl

lemma count_erase (he : T.entries d a = some (k,i)) :
    (T.setEntry d a none).count j + (if j = i then 1 else 0) = T.count j := by
  rw [count,refers_erase he]
  split
  · rename_i hj
    have hmem : (d,a) ∈ T.Refers j := ⟨k,hj ▸ he⟩
    exact Set.ncard_sdiff_singleton_add_one hmem h.refers_finite
  · rfl

lemma finite_setEntry : {p : N × Nat | (T.setEntry d a e).entries p.1 p.2 ≠ none}.Finite := by
  refine (h.finite.insert (d,a)).subset fun p hp => ?_
  by_cases hpa : p = (d,a)
  · exact .inl hpa
  · rw [Set.mem_ofPred_eq,setEntry_other hpa] at hp
    exact .inr hp

lemma Counted.named_setEntry (he : ∀ k i, e = some (k,i) → i ∈ T.live ∧ i ≠ root) :
    ∀ d' a' k' j, (T.setEntry d a e).entries d' a' = some (k',j) → j ∈ T.live ∧ j ≠ root := by
  intro d' a' k' j hj
  rw [setEntry_entries (p := (d',a'))] at hj
  split at hj
  · exact he k' j hj
  · exact h.named _ _ k' j hj

lemma Counted.create (hi : i ∉ T.live) (hr : i ≠ root) (hfree : T.entries d a = none) :
    ((T.birth i).setEntry d a (some (k,i))).Counted root := by
  have hnone : T.count i = 0 := by
    have hempty : T.Refers i = ∅ := Set.eq_empty_of_forall_notMem fun p ⟨k,hp⟩ => hi (h.named _ _ k i hp).1
    rw [count,hempty,Set.ncard_empty]
  refine ⟨finite_setEntry (T := T) h,fun d' a' k' j hj => ?_,fun j hj hjr => ?_⟩
  · have hj' : (T.setEntry d a (some (k,i))).entries d' a' = some (k',j) := hj
    rw [setEntry_entries (p := (d',a'))] at hj'
    split at hj'
    · obtain ⟨rfl,rfl⟩ := Prod.mk.injEq .. ▸ Option.some.inj hj'
      exact ⟨.inl rfl,hr⟩
    · exact ⟨.inr (h.named _ _ k' j hj').1,(h.named _ _ k' j hj').2⟩
  · change (T.setEntry d a (some (k,i))).count j = update T.links i 1 j
    rw [count_enter h hfree]
    by_cases hji : j = i
    · subst hji
      simp [hnone]
    · simp [hji,h.counts j (hj.resolve_left hji) hjr]

lemma Counted.enter (hi : i ∈ T.live) (hr : i ≠ root) (hfree : T.entries d a = none) :
    ((T.setEntry d a (some (k,i))).relink i (T.links i + 1)).Counted root := by
  refine ⟨finite_setEntry (T := T) h,h.named_setEntry fun k' j hj => ?_,fun j hj hjr => ?_⟩
  · obtain ⟨rfl,rfl⟩ := Prod.mk.injEq .. ▸ Option.some.inj hj
    exact ⟨hi,hr⟩
  · change (T.setEntry d a (some (k,i))).count j = update T.links i (T.links i + 1) j
    rw [count_enter h hfree,h.counts j hj hjr]
    by_cases hji : j = i
    · subst hji
      simp
    · simp [hji]

lemma Counted.erase (he : T.entries d a = some (k,i)) :
    ((T.setEntry d a none).relink i (T.links i - 1)).Counted root := by
  refine ⟨finite_setEntry (T := T) h,h.named_setEntry fun k' j hj => (nomatch hj),fun j hj hjr => ?_⟩
  change (T.setEntry d a none).count j = update T.links i (T.links i - 1) j
  have hcount := count_erase (j := j) h he
  have hold := h.counts j hj hjr
  by_cases hji : j = i
  · subst hji
    rw [Function.update_self]
    simp only [if_true] at hcount
    omega
  · rw [Function.update_of_ne hji]
    simp only [hji,if_false] at hcount
    omega

end

omit [DecidableEq N] in
lemma Counted.linked (h : T.Counted root) (he : T.entries d a = some (k,i)) : 0 < T.links i := by
  obtain ⟨hi,hr⟩ := h.named d a k i he
  rw [← h.counts i hi hr,count,Set.ncard_pos h.refers_finite]
  exact ⟨(d,a),k,he⟩

end Tree

end Naming
