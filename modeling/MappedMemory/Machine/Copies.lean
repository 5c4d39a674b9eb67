import MappedMemory.Machine.Strings

namespace MappedMemory

open Bytes

def moveUp : Nat → Memory → Nat → Nat → Memory
  | 0, m, _, _ => m
  | n + 1, m, d, s => moveUp n (poke m d (m s)) (d + 1) (s + 1)

def moveDown (d s : Nat) : Nat → Memory → Memory
  | 0, m => m
  | n + 1, m => moveDown d s n (poke m (d + n) (m (s + n)))

def memmove (m : Memory) (dest src n : Nat) : Memory :=
  if src < dest ∧ src + n > dest then moveDown dest src n m else moveUp n m dest src

def copyWithin : Nat → Memory → Nat → Nat → Memory × Nat × Nat
  | 0, m, d, _ => (m,d,0)
  | n + 1, m, d, s => if m s = 0 then (poke m d (m s),d + 1,n + 1) else copyWithin n (poke m d (m s)) (d + 1) (s + 1)

def strncpyWithin (m : Memory) (dest src n : Nat) : Memory :=
  let (m,d,n) := copyWithin n m dest src
  (strncpyPad n m d).1

def replay (m : Memory) (d s i : Nat) : Byte := if s < d then m (s + i % (d - s)) else m (s + i)

def padded (m : Memory) (s i : Nat) : Byte := if ∀ j ≤ i, m (s + j) ≠ 0 then m (s + i) else 0

variable {m : Memory} {d s n l i : Nat}

lemma replay_zero : replay m d s 0 = m s := by simp [replay]

lemma replay_poke : replay (poke m d (m s)) (d + 1) (s + 1) i = replay m d s (i + 1) := by
  rw [replay,replay,Nat.add_sub_add_right]
  by_cases h : s < d
  · have hlt := Nat.mod_lt i (show 0 < d - s by omega)
    rw [if_pos (by omega),if_pos h,Nat.add_mod i 1]
    by_cases hlast : i % (d - s) + 1 = d - s
    · have hone : (i % (d - s) + 1 % (d - s)) % (d - s) = 0 := by
        rw [Nat.add_mod_mod,hlast,Nat.mod_self]
      rw [hone,show s + 1 + i % (d - s) = d by omega,poke_same,Nat.add_zero]
    · rw [Nat.add_mod_mod,Nat.mod_eq_of_lt (show i % (d - s) + 1 < d - s by omega),poke_other (by omega)]
      congr 1
      omega
  · rw [if_neg (by omega),if_neg h,poke_other (by omega)]
    congr 1
    omega

lemma fill_replay : fill (poke m d (m s)) (d + 1) n (replay (poke m d (m s)) (d + 1) (s + 1)) =
    fill m d (n + 1) (replay m d s) := by
  rw [← fill_succ,replay_zero]
  exact fill_congr fun k _ => replay_poke

lemma fill_none {f : Nat → Byte} : fill m d 0 f = m := funext fun _ => fill_outside (by omega)

lemma moveUp_eq : moveUp n m d s = fill m d n (replay m d s) := by
  induction n generalizing m d s with
  | zero => exact fill_none.symm
  | succ n ih => rw [moveUp,ih,fill_replay]

lemma moveDown_eq (h : s ≤ d) : moveDown d s n m = fill m d n fun k => m (s + k) := by
  induction n generalizing m with
  | zero => exact fill_none.symm
  | succ n ih =>
    rw [moveDown,ih]
    funext x
    by_cases hx : d ≤ x ∧ x < d + n
    · rw [fill_inside hx.1 hx.2,fill_inside hx.1 (by omega),poke_other (by omega)]
    · rw [fill_outside (by omega)]
      by_cases he : x = d + n
      · rw [he,poke_same,fill_inside (by omega) (by omega),Nat.add_sub_cancel_left]
      · rw [poke_other he,fill_outside (by omega)]

lemma replay_apart (h : d ≤ s ∨ s + i < d) : replay m d s i = m (s + i) := by
  rw [replay]
  split
  · rw [Nat.mod_eq_of_lt (by omega)]
  · rfl

lemma memmove_eq (m : Memory) (d s n : Nat) : memmove m d s n = fill m d n fun k => m (s + k) := by
  rw [memmove]
  split
  · exact moveDown_eq (by omega)
  · rw [moveUp_eq]
    exact fill_congr fun k hk => replay_apart (by omega)

lemma copyWithin_full (h : ∀ i < n, replay m d s i ≠ 0) : copyWithin n m d s = (fill m d n (replay m d s),d + n,0) := by
  induction n generalizing m d s with
  | zero => rw [fill_none]; rfl
  | succ n ih =>
    have hz := h 0 (Nat.succ_pos n)
    rw [replay_zero] at hz
    rw [copyWithin,if_neg hz,ih fun i hi => replay_poke ▸ h (i + 1) (by omega),fill_replay,Nat.add_assoc,Nat.add_comm 1]

lemma copyWithin_nul (hl : l < n) (h : ∀ i < l, replay m d s i ≠ 0) (hz : replay m d s l = 0) :
    copyWithin n m d s = (fill m d (l + 1) (replay m d s),d + (l + 1),n - l) := by
  induction n generalizing m d s l with
  | zero => omega
  | succ n ih =>
    cases l with
    | zero =>
      rw [replay_zero] at hz
      rw [copyWithin,if_pos hz,← fill_replay,fill_none]
      rfl
    | succ l =>
      have hne := h 0 (Nat.succ_pos l)
      rw [replay_zero] at hne
      rw [copyWithin,if_neg hne,ih (l := l) (by omega) (fun i hi => replay_poke ▸ h (i + 1) (by omega))
        (replay_poke.trans hz),fill_replay,Nat.add_sub_add_right,Nat.add_assoc d,Nat.add_comm 1]

lemma strncpyWithin_full (h : ∀ i < n, replay m d s i ≠ 0) : strncpyWithin m d s n = fill m d n (replay m d s) := by
  simp only [strncpyWithin,copyWithin_full h]
  rfl

lemma padded_full (h : ∀ j ≤ i, m (s + j) ≠ 0) : padded m s i = m (s + i) := if_pos h

lemma padded_nul (hz : m (s + l) = 0) (hi : l ≤ i) : padded m s i = 0 := if_neg fun h => h l hi hz

lemma fill_eq_iff {f g : Nat → Byte} : fill m d n f = fill m d n g ↔ ∀ i < n, f i = g i := by
  refine ⟨fun h i hi => ?_,fun h => fill_congr h⟩
  have hx := congrFun h (d + i)
  rwa [fill_inside (by omega) (by omega),fill_inside (by omega) (by omega),Nat.add_sub_cancel_left] at hx

lemma strncpyWithin_nul (hl : l < n) (hz : m (s + l) = 0) (h : ∀ i < l, m (s + i) ≠ 0) (ha : d ≤ s ∨ s + l < d) :
    strncpyWithin m d s n = fill m d (n + 1) (padded m s) := by
  have hre : ∀ i ≤ l, replay m d s i = m (s + i) := fun i hi => replay_apart (by omega)
  have hpad : ∀ i ≤ l, replay m d s i = padded m s i := fun i hi => by
    rcases Nat.lt_or_eq_of_le hi with hlt | rfl
    · rw [hre i hi,padded_full fun j hj => h j (by omega)]
    · rw [hre i le_rfl,hz,padded_nul hz le_rfl]
  have hcopy := copyWithin_nul hl (fun i hi => hre i hi.le ▸ h i hi) ((hre l le_rfl).trans hz)
  simp only [strncpyWithin,hcopy,strncpyPad_eq]
  rw [fill_congr fun i hi => hpad i (by omega),
    fill_congr (g := fun k => padded m s (l + 1 + k)) fun k _ => (padded_nul hz (by omega)).symm,fill_append]
  congr 1
  omega

def CopiesExactly (m : Memory) (d s n : Nat) : Prop :=
  (∀ i < n, m (s + i) ≠ 0) ∧ (∀ i < n, replay m d s i = m (s + i)) ∨
  ∃ l < n, m (s + l) = 0 ∧ (∀ i < l, m (s + i) ≠ 0) ∧ (d ≤ s ∨ s + l < d) ∧ m (d + n) = 0

lemma replay_ne_zero (h : ∀ j, (j ≤ i ∧ (s < d → j < d - s)) → m (s + j) ≠ 0) : replay m d s i ≠ 0 := by
  rw [replay]
  split
  · exact h _ ⟨Nat.mod_le _ _,fun _ => Nat.mod_lt _ (by omega)⟩
  · exact h i ⟨le_rfl,fun h => by omega⟩

lemma strncpyWithin_iff : strncpyWithin m d s n = fill m d n (padded m s) ↔ CopiesExactly m d s n := by
  by_cases hfree : ∀ i < n, m (s + i) ≠ 0
  · rw [strncpyWithin_full fun i hi => replay_ne_zero fun j hj => hfree j (by omega),fill_eq_iff]
    have hpad : ∀ i < n, padded m s i = m (s + i) := fun i hi => padded_full fun j hj => hfree j (by omega)
    constructor
    · exact fun h => .inl ⟨hfree,fun i hi => (h i hi).trans (hpad i hi)⟩
    · rintro (⟨-,h⟩ | ⟨l,hl,hz,-⟩) i hi
      · exact (h i hi).trans (hpad i hi).symm
      · exact absurd hz (hfree l hl)
  · push Not at hfree
    have hex : ∃ l, l < n ∧ m (s + l) = 0 := hfree
    obtain ⟨hl,hz⟩ := Nat.find_spec hex
    have hbefore : ∀ i < Nat.find hex, m (s + i) ≠ 0 := fun i hi hi0 =>
      Nat.find_min hex hi ⟨hi.trans hl,hi0⟩
    generalize Nat.find hex = l at hl hz hbefore
    by_cases ha : d ≤ s ∨ s + l < d
    · rw [strncpyWithin_nul hl hz hbefore ha]
      constructor
      · intro h
        have hx := congrFun h (d + n)
        rw [fill_inside (by omega) (by omega),Nat.add_sub_cancel_left,padded_nul hz hl.le,fill_outside (by omega)] at hx
        exact .inr ⟨l,hl,hz,hbefore,ha,hx.symm⟩
      · rintro (⟨h,-⟩ | ⟨-,-,-,-,-,hend⟩)
        · exact absurd hz (h l hl)
        · rw [← fill_append]
          funext x
          by_cases hx : x = d + n
          · rw [hx,fill_inside (by omega) (by omega),Nat.sub_self,padded_nul hz (by omega),fill_outside (by omega),hend]
          · exact fill_outside (by omega)
    · have hall : ∀ i, replay m d s i ≠ 0 := fun i => replay_ne_zero fun j hj => hbefore j (by have := hj.2; omega)
      rw [strncpyWithin_full fun i _ => hall i,fill_eq_iff]
      refine iff_of_false (fun h => hall l ((h l hl).trans (padded_nul hz le_rfl))) ?_
      rintro (⟨h,-⟩ | ⟨k,hk,hkz,hkb,hka,-⟩)
      · exact h l hl hz
      · rcases lt_trichotomy k l with h | rfl | h
        · exact hbefore k h hkz
        · exact ha hka
        · exact hkb l h hz

theorem copies_exact_iff (m : Memory) (d s n d' s' n' : Nat) :
    (strncpyWithin m d s n = fill m d n (padded m s) ∧ memmove m d' s' n' = fill m d' n' fun k => m (s' + k)) ↔
      CopiesExactly m d s n := by
  rw [strncpyWithin_iff,and_iff_left (memmove_eq m d' s' n')]

theorem strncpy_writes_behind : strncpyWithin (fun x => if x = 0 then 0 else 7) 1 0 1 2 = 0 ∧
    fill (fun x => if x = 0 then 0 else 7) 1 1 (padded (fun x => if x = 0 then 0 else 7) 0) 2 = 7 :=
  ⟨by decide,by decide⟩

end MappedMemory
