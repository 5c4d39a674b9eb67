import Mathlib.Data.List.GetD
import Mathlib.Data.List.TakeWhile
import MappedMemory.Library.Bytes

namespace MappedMemory

open Nat (not_lt_zero zero_le)
open Prod (mk_inj)

open Bytes

def cstr (s : List Byte) : Memory := fun k => s.getD k 0

def strncpyCopy (src : Memory) : Nat → Memory → Nat → Nat → Memory × Nat × Nat
  | 0, m, d, _ => (m,d,0)
  | n + 1, m, d, k =>
    let m := poke m d (src k)
    if src k = 0 then (m,d + 1,n + 1) else strncpyCopy src n m (d + 1) (k + 1)

def strncpyPad : Nat → Memory → Nat → Memory × Nat
  | 0, m, d => (m,d)
  | n + 1, m, d => strncpyPad n (poke m d 0) (d + 1)

def strncpy (m : Memory) (dest : Nat) (src : Memory) (n : Nat) : Memory × Nat :=
  let (m,d,n) := strncpyCopy src n m dest 0
  strncpyPad n m d

def strncmpFrom (s1 s2 : Memory) : Nat → Nat → Int
  | 0, _ => 0
  | n + 1, k =>
    if s1 k ≠ 0 ∧ s1 k = s2 k then strncmpFrom s1 s2 n (k + 1)
    else (s1 k).toInt - (s2 k).toInt

def strncmp (s1 s2 : Memory) (n : Nat) : Int := strncmpFrom s1 s2 n 0

def beforeNul (s : List Byte) : List Byte := s.takeWhile (· ≠ 0)

variable {m src : Memory} {d k n p : Nat} {name : List Byte}

lemma cstr_beforeNul_ne_zero (h : k < (beforeNul name).length) : cstr (beforeNul name) k ≠ 0 := by
  have hmem : (beforeNul name)[k] ∈ name.takeWhile (· ≠ 0) := List.getElem_mem h
  have := List.mem_takeWhile_imp hmem
  rw [cstr,List.getD_eq_getElem _ _ h]
  simpa using this

lemma cstr_beforeNul (h : k < (beforeNul name).length) : cstr name k = cstr (beforeNul name) k := by
  obtain ⟨rest,hr⟩ := List.takeWhile_prefix (fun b : Byte => b ≠ 0) (l := name)
  conv_lhs => rw [← hr]
  simp only [cstr]
  exact List.getD_append _ _ _ _ h

lemma cstr_end : cstr name (beforeNul name).length = 0 := by
  unfold cstr beforeNul
  induction name with
  | nil => rfl
  | cons b bs ih =>
    rw [List.takeWhile_cons]
    split
    · exact ih
    · rename_i hb
      simpa using hb

lemma strncpyCopy_eq (hk : k ≤ p) (hne : ∀ q, q < p → src q ≠ 0) (hz : src p = 0) :
    strncpyCopy src n m d k = if p - k < n then
        (fill m d (p - k + 1) (fun x => src (k + x)),d + (p - k + 1),n - (p - k))
      else (fill m d n (fun x => src (k + x)),d + n,0) := by
  induction n generalizing m d k with
  | zero =>
    rw [if_neg (not_lt_zero _)]
    have : fill m d 0 (fun x => src (k + x)) = m := by
      funext x
      exact fill_outside (by omega)
    rw [this]
    rfl
  | succ n ih =>
    have hpoke : ∀ l, fill (poke m d (src k)) (d + 1) l (fun x => src (k + 1 + x)) =
        fill m d (l + 1) fun x => src (k + x) := fun l => by
      rw [← fill_succ]
      simp only [Nat.add_zero,Nat.add_assoc,Nat.add_comm 1]
    rw [strncpyCopy]
    by_cases hkp : k = p
    · subst hkp
      rw [if_pos hz,if_pos (by omega),Nat.sub_self,← hpoke]
      have hnone : ∀ m' : Memory, fill m' (d + 1) 0 (fun x => src (k + 1 + x)) = m' := fun m' => by
        funext x
        exact fill_outside (by omega)
      rw [hnone]
      rfl
    · rw [if_neg (hne k (by omega)),ih (by omega)]
      by_cases hlt : p - (k + 1) < n
      · rw [if_pos hlt,if_pos (by omega),hpoke]
        simp only [mk_inj]
        refine ⟨?_,by omega,by omega⟩
        congr 1
        omega
      · rw [if_neg hlt,if_neg (by omega),hpoke]
        simp only [mk_inj,and_true,true_and]
        omega

lemma strncpyPad_eq : strncpyPad n m d = (fill m d n (fun _ => 0),d + n) := by
  induction n generalizing m d with
  | zero =>
    have : fill m d 0 (fun _ => 0) = m := by
      funext x
      exact fill_outside (by omega)
    rw [this]
    rfl
  | succ n ih =>
    rw [strncpyPad,ih,Nat.add_assoc,Nat.add_comm 1 n]
    exact congrArg (·,_) (fill_succ (f := fun _ => 0))

def strncpySpan (name : List Byte) (n : Nat) : Nat := if (beforeNul name).length < n then n + 1 else n

lemma strncpy_eq (m : Memory) (d : Nat) (name : List Byte) (n : Nat) : strncpy m d (cstr name) n =
      (fill m d (strncpySpan name n) (cstr (beforeNul name)),d + strncpySpan name n) := by
  have hcopy : ∀ l, l ≤ (beforeNul name).length + 1 →
      fill m d l (fun x => cstr name (0 + x)) = fill m d l (cstr (beforeNul name)) := fun l hl =>
    fill_congr fun k hk => by
      rw [Nat.zero_add]
      by_cases hlt : k < (beforeNul name).length
      · exact cstr_beforeNul hlt
      · obtain rfl : k = (beforeNul name).length := by omega
        rw [cstr_end,cstr,List.getD_eq_default _ _ (le_refl _)]
  have hlist := strncpyCopy_eq (m := m) (d := d) (n := n) (zero_le (beforeNul name).length)
    (fun q hq => cstr_beforeNul hq ▸ cstr_beforeNul_ne_zero hq) cstr_end
  rw [Nat.sub_zero] at hlist
  rw [strncpy,hlist,strncpySpan]
  by_cases hlt : (beforeNul name).length < n
  · simp only [if_pos hlt,strncpyPad_eq,hcopy _ (le_refl _)]
    have hpad : (fun _ : Nat => (0 : Byte)) = fun k => cstr (beforeNul name) ((beforeNul name).length + 1 + k) := by
      funext k
      rw [cstr,List.getD_eq_default _ _ (by omega)]
    rw [hpad,fill_append,mk_inj]
    exact ⟨by congr 1; omega,by omega⟩
  · simp only [if_neg hlt,strncpyPad_eq,hcopy _ (show n ≤ (beforeNul name).length + 1 by omega),mk_inj]
    refine ⟨?_,rfl⟩
    funext x
    exact fill_outside (by omega)

lemma strncmpFrom_congr {s₁ s1' s₂ : Memory} (h : ∀ x, x < k + n → s₁ x = s1' x) :
    strncmpFrom s₁ s₂ n k = strncmpFrom s1' s₂ n k := by
  induction n generalizing k with
  | zero => rfl
  | succ n ih => rw [strncmpFrom,strncmpFrom,h k (by omega),ih fun x hx => h x (by omega)]

lemma strncmpFrom_eq_zero {s₁ s₂ : Memory} : strncmpFrom s₁ s₂ n k = 0 ↔
    ∀ j, k ≤ j → j < k + n → (∀ l, k ≤ l → l < j → s₁ l ≠ 0) → s₁ j = s₂ j := by
  induction n generalizing k with
  | zero => exact ⟨fun _ j h1 h2 => absurd h2 (by omega),fun _ => rfl⟩
  | succ n ih =>
    rw [strncmpFrom]
    split
    · rename_i hc
      rw [ih]
      constructor
      · intro h j h1 h2 hl
        by_cases hj : j = k
        · exact hj ▸ hc.2
        · exact h j (by omega) (by omega) fun l hl1 hl2 => hl l (by omega) hl2
      · intro h j h1 h2 hl
        refine h j (by omega) (by omega) fun l hl1 hl2 => ?_
        by_cases hlk : l = k
        · exact hlk ▸ hc.1
        · exact hl l (by omega) hl2
    · rename_i hc
      rw [Int.sub_eq_zero]
      constructor
      · intro h j h1 h2 hl
        have he : s₁ k = s₂ k := BitVec.eq_of_toInt_eq h
        by_cases hj : j = k
        · exact hj ▸ he
        · exact absurd ⟨hl k (le_refl k) (by omega),he⟩ hc
      · intro h
        rw [h k (le_refl k) (by omega) fun l h1 h2 => absurd h2 (by omega)]

lemma beforeNul_eq_iff {xs : List Byte} (h0 : 0 ∉ name) (hl : name.length < xs.length) :
    beforeNul xs = name ↔ (∀ j, j < name.length → cstr xs j = cstr name j) ∧ cstr xs name.length = 0 := by
  induction xs generalizing name with
  | nil => exact absurd hl (not_lt_zero _)
  | cons x xs ih =>
    cases name with
    | nil =>
      simp only [beforeNul,List.takeWhile_cons,List.length_nil,not_lt_zero,false_implies,implies_true,true_and]
      change _ ↔ x = 0
      by_cases hx : x = 0 <;> simp [hx]
    | cons y ys =>
      rw [List.mem_cons,not_or] at h0
      have hih : beforeNul xs = ys ↔ (∀ j, j < ys.length → cstr xs j = cstr ys j) ∧ cstr xs ys.length = 0 :=
        ih h0.2 (by simpa using hl)
      have hshift : (∀ j, j < (y :: ys).length → cstr (x :: xs) j = cstr (y :: ys) j) ↔
          x = y ∧ ∀ j, j < ys.length → cstr xs j = cstr ys j := by
        constructor
        · intro h
          exact ⟨h 0 (by simp),fun j hj => h (j + 1) (by simpa using hj)⟩
        · rintro ⟨rfl,h⟩ j hj
          cases j with
          | zero => rfl
          | succ j => exact h j (by simpa using hj)
      rw [hshift,and_assoc]
      change _ ↔ x = y ∧ (_ ∧ cstr xs ys.length = 0)
      rw [← hih,beforeNul,List.takeWhile_cons]
      by_cases hx : x = 0
      · simp only [hx,ne_eq,not_true_eq_false,decide_false,Bool.false_eq_true,if_false]
        exact ⟨fun h => (nomatch h),fun h => absurd h.1 h0.1⟩
      · simp only [ne_eq,hx,not_false_eq_true,decide_true,if_true,List.cons.injEq]
        rfl

lemma strncmp_eq_zero {s₁ : Memory} (h0 : 0 ∉ name) (hl : name.length < n) :
    strncmp s₁ (cstr name) n = 0 ↔ (∀ j, j < name.length → s₁ j = cstr name j) ∧ s₁ name.length = 0 := by
  have hne : ∀ j, j < name.length → cstr name j ≠ 0 := fun j hj hz => by
    rw [cstr,List.getD_eq_getElem _ _ hj] at hz
    exact h0 (hz ▸ List.getElem_mem hj)
  have hend : cstr name name.length = 0 := List.getD_eq_default _ _ (le_refl _)
  rw [strncmp,strncmpFrom_eq_zero]
  constructor
  · intro h
    have hpre : ∀ j, j ≤ name.length → ∀ l, l < j → s₁ l = cstr name l := by
      intro j hj
      induction j with
      | zero => exact fun l hl => absurd hl (not_lt_zero l)
      | succ j ih =>
        intro l hlj
        by_cases hlast : l < j
        · exact ih (by omega) l hlast
        · obtain rfl : l = j := by omega
          exact h l (zero_le _) (by omega) fun l' _ hl' => by
            rw [ih (by omega) l' hl']
            exact hne l' (by omega)
    refine ⟨hpre _ (le_refl _),?_⟩
    rw [← hend]
    exact h _ (zero_le _) (by omega) fun l _ hl => by
      rw [hpre _ (le_refl _) l hl]
      exact hne l hl
  · rintro ⟨h1,h2⟩ j - - hl
    by_cases hj : j < name.length
    · exact h1 j hj
    · by_cases he : j = name.length
      · rw [he,h2,hend]
      · exact absurd h2 (hl _ (zero_le _) (by omega))

lemma beforeNul_self (h0 : 0 ∉ name) : beforeNul name = name :=
  List.takeWhile_eq_self_iff.mpr fun x hx => by
    simp only [ne_eq,decide_not,Bool.not_eq_true',decide_eq_false_iff_not]
    rintro rfl
    exact h0 hx

lemma beforeNul_range {f g : Nat → Byte} (h : ∀ j, j < n → (∀ l, l < j → f l ≠ 0) → f j = g j) :
    beforeNul ((List.range n).map f) = beforeNul ((List.range n).map g) := by
  induction n generalizing f g with
  | zero => rfl
  | succ n ih =>
    rw [List.range_succ_eq_map]
    simp only [List.map_cons,List.map_map,beforeNul,List.takeWhile_cons]
    have h0 : f 0 = g 0 := h 0 (Nat.succ_pos n) fun l hl => absurd hl (not_lt_zero l)
    rw [← h0]
    by_cases hz : f 0 = 0
    · simp [hz]
    · simp only [ne_eq,hz,not_false_eq_true,decide_true,if_true]
      congr 1
      refine ih (f := f ∘ Nat.succ) (g := g ∘ Nat.succ) fun j hj hl => h (j + 1) (by omega) fun l hlt => ?_
      cases l with
      | zero => exact hz
      | succ l => exact hl l (by omega)

end MappedMemory
