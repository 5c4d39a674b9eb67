import MappedMemory.Library.Naming
import MappedMemory.Sfs.Coherence

namespace MappedMemory.Sfs

open Function (update)
open Bytes

variable {i j k o a inum size : Nat} {m m' : Memory} {name : List Byte}

def direntField (m : Memory) (a : Nat) : List Byte := (List.range sfsDirentNamelen).map (direntName m a)

def recName (m : Memory) (a : Nat) : List Byte := beforeNul (direntField m a)

def storedName (name : List Byte) : List Byte := (beforeNul name).take (sfsDirentNamelen - 1)

def records (m : Memory) (size : Nat) : Slots.Table (List Byte) Nat := fun k =>
  if 32 * k < size ∧ direntInum m (32 * k) ≠ 0 then some (recName m (32 * k),direntInum m (32 * k)) else none

lemma cstr_direntField (hk : k < 28) : cstr (direntField m a) k = m (a + 4 + k) := by
  have hlen : k < (direntField m a).length := by simp [direntField,sfsDirentNamelen,hk]
  rw [cstr,List.getD_eq_getElem _ _ hlen]
  simp [direntField,direntName]

lemma recName_congr {a' : Nat} (h : ∀ x, x < 32 → m (a + x) = m' (a' + x)) : recName m a = recName m' a' := by
  have hfield : direntField m a = direntField m' a' := List.map_congr_left fun k hk => by
    have hk : k < 28 := List.mem_range.mp hk
    simp only [direntName,Nat.add_assoc]
    exact h (4 + k) (by omega)
  rw [recName,recName,hfield]

structure Fits (name : List Byte) : Prop where
  len : name.length < sfsDirentNamelen
  no_nul : 0 ∉ name

lemma Fits.stored (h : Fits name) : storedName name = name := by
  rw [storedName,beforeNul_self h.no_nul,List.take_of_length_le]
  exact Nat.le_sub_one_of_lt h.len

lemma matches_iff (h : Fits name) : direntMatches name m a = true ↔ direntInum m a ≠ 0 ∧ recName m a = name := by
  have hlen := h.len
  rw [direntMatches,Bool.and_eq_true,decide_eq_true_eq,decide_eq_true_eq,gt_iff_lt,Nat.pos_iff_ne_zero,
    strncmp_eq_zero h.no_nul hlen,recName,beforeNul_eq_iff h.no_nul (by simpa [direntField] using hlen)]
  simp only [sfsDirentNamelen] at hlen
  rw [cstr_direntField hlen]
  refine and_congr_right fun _ => and_congr_left fun _ => forall₂_congr fun j hj => ?_
  rw [cstr_direntField (by omega)]
  rfl

lemma recName_direntBytes (h : ∀ x, x < 32 → m (a + x) = direntBytes inum (beforeNul name) x) :
    recName m a = storedName name := by
  have hbyte : ∀ j, j < 28 → cstr (direntField m a) j = if j = 27 then 0 else cstr (beforeNul name) j := by
    intro j hj
    rw [cstr_direntField hj,Nat.add_assoc,h _ (by omega),direntBytes,if_neg (by omega)]
    simp only [sfsDirentNamelen,Nat.add_sub_cancel_left,Nat.add_left_cancel_iff]
  have hlen : (storedName name).length ≤ 27 := by simp [storedName,sfsDirentNamelen]
  have hno : 0 ∉ storedName name := fun hmem => by
    obtain ⟨k,hk,hget⟩ := List.mem_iff_getElem.mp (List.mem_of_mem_take hmem)
    exact cstr_beforeNul_ne_zero hk (by rw [cstr,List.getD_eq_getElem _ _ hk,hget])
  have hsame : ∀ j, j < 27 → cstr (storedName name) j = cstr (beforeNul name) j := fun j hj => by
    simp only [cstr,storedName,List.getD_eq_getElem?_getD,sfsDirentNamelen]
    rw [List.getElem?_take_of_lt (by omega)]
  refine (beforeNul_eq_iff hno (by simp [direntField,sfsDirentNamelen]; omega)).mpr ⟨fun j hj => ?_,?_⟩
  · rw [hbyte j (by omega),if_neg (by omega),hsame j (by omega)]
  · rw [hbyte _ (by omega)]
    split
    · rfl
    · rw [← hsame _ (by omega)]
      exact List.getD_eq_default _ _ (le_refl _)

lemma records_some {nm : List Byte} (h : records m size k = some (nm,i)) :
    32 * k < size ∧ i ≠ 0 ∧ direntInum m (32 * k) = i ∧ recName m (32 * k) = nm := by
  rw [records] at h
  split at h
  · rename_i hc
    simp only [Option.some_inj,Prod.mk_inj] at h
    exact ⟨hc.1,h.2 ▸ hc.2,h.2,h.1⟩
  · cases h

lemma records_at (ho : o % 32 = 0) (hlt : o < size) (hne : direntInum m o ≠ 0) :
    records m size (o / 32) = some (recName m o,direntInum m o) := by
  have ho' : 32 * (o / 32) = o := by omega
  rw [records,ho',if_pos ⟨hlt,hne⟩]

lemma records_update {e : Option (List Byte × Nat)} {size' : Nat} (ho : o % 32 = 0)
    (hm : ∀ x, x < o ∨ o + 32 ≤ x → m' x = m x) (hsize : ∀ k, 32 * k ≠ o → (32 * k < size' ↔ 32 * k < size))
    (he : records m' size' (o / 32) = e) : records m' size' = update (records m size) (o / 32) e := by
  funext k
  by_cases hk : k = o / 32
  · subst hk
    rw [Function.update_self,he]
  · have hko : 32 * k ≠ o := by omega
    have hrec : ∀ x, x < 32 → m' (32 * k + x) = m (32 * k + x) := fun x hx => hm _ (by omega)
    rw [Function.update_of_ne hk,records,records,direntInum_local hrec,recName_congr hrec]
    simp only [hsize k hko]

lemma FirstFree.le_size (h : FirstFree m size o) (hal : size % 32 = 0) : o ≤ size := by
  have ho := h.aligned
  by_contra hlt
  have := (h.before (o - 32) (by omega) (by omega)).1
  omega

lemma FirstFree.slot (h : FirstFree m size o) : records m size (o / 32) = none := by
  have ho : 32 * (o / 32) = o := by
    have := h.aligned
    omega
  rw [records,if_neg]
  rintro ⟨h1,h2⟩
  rw [ho] at h1 h2
  rcases h.free with hf | hf
  · omega
  · exact h2 hf

lemma records_put (hfree : FirstFree m size o) (hal : size % 32 = 0) (hi : inum ≠ 0) (hlt : inum < 2^32)
    (hm : ∀ x, m' x = if o ≤ x ∧ x < o + 32 then direntBytes inum (beforeNul name) (x - o) else m x) :
    records m' (newSize size o) = update (records m size) (o / 32) (some (storedName name,inum)) := by
  have ho := hfree.aligned
  have hle := hfree.le_size hal
  have hrec : ∀ x, x < 32 → m' (o + x) = direntBytes inum (beforeNul name) x := fun x hx => by
    rw [hm,if_pos ⟨by omega,by omega⟩,Nat.add_sub_cancel_left]
  have hnum : direntInum m' o = inum := by
    have hword : direntInum m' o = inum % 256^4 := word_of_bytes fun x hx => by
      rw [hrec x (by omega),direntBytes,if_pos hx]
    rw [hword]
    exact Nat.mod_eq_of_lt hlt
  refine records_update ho (fun x hx => by rw [hm,if_neg (by omega)]) (fun k hk => ?_) ?_
  · unfold newSize sizeofSfsDirent
    split <;> omega
  · rw [records_at ho (by unfold newSize sizeofSfsDirent; split <;> omega) (by rwa [hnum]),hnum,
      recName_direntBytes hrec]

lemma records_clear (ho : o % 32 = 0) (hm : ∀ x, m' x = if o ≤ x ∧ x < o + 4 then 0 else m x) :
    records m' size = update (records m size) (o / 32) none := by
  have hz : direntInum m' o = 0 := word_zero fun x h1 h2 => by rw [hm,if_pos ⟨h1,h2⟩]
  have ho' : 32 * (o / 32) = o := by omega
  refine records_update ho (fun x hx => by rw [hm,if_neg (by omega)]) (fun _ _ => Iff.rfl) ?_
  rw [records,ho',if_neg (fun h => h.2 hz)]

end MappedMemory.Sfs
