import MappedMemory.Sfs.Mkfs

namespace MappedMemory.Mkfs

open Bytes Routine Sfs

variable {img : Image} {m : Memory} {a i j k n q : Nat} {s : Fs}

structure Packed (m : Memory) (n : Nat) : Prop where
  le : n ≤ fsSize
  bits : ∀ k, k < fsSize → dataBit mkfsSb m k = decide (k < n)

lemma firstClear_at (hset : ∀ l, l < k → bit m a (j + l) = true) (hfree : bit m a (j + k) = false) (hk : k < n) :
    firstClear m a n j = some (j + k) := by
  induction n generalizing j k with
  | zero => exact absurd hk (Nat.not_lt_zero k)
  | succ n ih =>
    rw [firstClear]
    cases k with
    | zero =>
      rw [Nat.add_zero] at hfree
      rw [hfree,if_neg (by decide),Nat.add_zero]
    | succ k =>
      have hj : bit m a j = true := hset 0 (Nat.succ_pos k)
      have hnext : firstClear m a n (j + 1) = some (j + 1 + k) := by
        refine ih (fun l hl => ?_) ?_ (by omega)
        · rw [show j + 1 + l = j + (l + 1) by omega]
          exact hset (l + 1) (by omega)
        · rwa [show j + 1 + k = j + (k + 1) by omega]
      rw [if_pos hj,hnext,show j + 1 + k = j + (k + 1) by omega]

lemma firstClear_full (hset : ∀ l, l < n → bit m a (j + l) = true) : firstClear m a n j = none := by
  induction n generalizing j with
  | zero => rfl
  | succ n ih =>
    have hj : bit m a j = true := hset 0 (Nat.succ_pos n)
    rw [firstClear,if_pos hj]
    refine ih fun l hl => ?_
    rw [show j + 1 + l = j + (l + 1) by omega]
    exact hset (l + 1) (by omega)

lemma bit_readBlk : bit (fun x => m (bdevBlkSize * (bmapStartBlk + q) + x)) 0 j = dataBit mkfsSb m (4096 * q + j) := by
  have h := bit_shift (m := m) (a := bdevBlkSize * bmapStartBlk) (n := 512 * q) (i := j)
  rw [dataBit,show 4096 * q + j = 8 * (512 * q) + j by omega]
  refine Eq.trans ?_ h
  simp only [bit,Nat.zero_add,bdevBlkSize]
  rw [Nat.mul_add]

lemma setBit_writeBlk (hj : j < 4096) : fill m (bdevBlkSize * (bmapStartBlk + q)) bdevBlkSize
      (setBit (fun x => m (bdevBlkSize * (bmapStartBlk + q) + x)) 0 j) =
    setBit m (bdevBlkSize * bmapStartBlk) (4096 * q + j) := by
  rw [setBit,fill_poke (by simp only [bdevBlkSize]; omega)]
  have h := setBit_shift (m := m) (a := bdevBlkSize * bmapStartBlk) (n := 512 * q) (i := j)
  rw [show 4096 * q + j = 8 * (512 * q) + j by omega,← h,setBit]
  simp only [Nat.zero_add,bdevBlkSize]
  rw [Nat.mul_add]

lemma allocFrom_eq (hp : Packed img.fs n) (hn : n < fsSize) (hq : q ≤ 32) (hlo : 4096 * q ≤ n) :
    allocFrom (32 - q) (bmapStartBlk + q) (fsSize - 4096 * q) img =
      some (dataStartBlk + n,{ img with fs := takeBlk mkfsSb img.fs (dataStartBlk + n) }) := by
  have hn' : n < 131072 := hn
  obtain ⟨d,hd⟩ : ∃ d, d = 32 - q := ⟨_,rfl⟩
  induction d generalizing q with
  | zero => omega
  | succ d ih =>
    rw [show 32 - q = d + 1 from hd.symm,allocFrom,readBlk,bind_assoc,get_bind]
    simp only [pure_bind]
    have hsize : min bdevBlkSize ((fsSize - 4096 * q) / 8) * 8 = 4096 := by
      simp only [bdevBlkSize,fsSize]
      omega
    by_cases hhit : n < 4096 * (q + 1)
    · have hfirst : firstClear (fun x => img.fs (bdevBlkSize * (bmapStartBlk + q) + x)) 0 4096 0 =
          some (0 + (n - 4096 * q)) := by
        refine firstClear_at (fun l hl => ?_) ?_ (by omega)
        · rw [bit_readBlk,hp.bits _ (by simp only [fsSize]; omega)]
          simp only [decide_eq_true_eq]
          omega
        · rw [bit_readBlk,hp.bits _ (by simp only [fsSize]; omega)]
          simp only [decide_eq_false_iff_not]
          omega
      have halloc : bmapAllocElement (fun x => img.fs (bdevBlkSize * (bmapStartBlk + q) + x))
          (min bdevBlkSize ((fsSize - 4096 * q) / 8)) =
          some (n - 4096 * q,setBit (fun x => img.fs (bdevBlkSize * (bmapStartBlk + q) + x)) 0 (n - 4096 * q)) := by
        rw [bmapAllocElement,hsize,hfirst,setBit]
        simp only [Option.map_some,Nat.zero_add]
      rw [halloc]
      simp only [writeBlk,modify_bind]
      rw [setBit_writeBlk (by omega),show 4096 * q + (n - 4096 * q) = n by omega]
      have hblk : dataStartBlk + bdevBlkSize * 8 * (bmapStartBlk + q - bmapStartBlk) + (n - 4096 * q) =
          dataStartBlk + n := by
        simp only [bdevBlkSize]
        omega
      rw [hblk,takeBlk]
      simp only [mkfsSb,Nat.add_sub_cancel_left]
      rfl
    · have hnone : bmapAllocElement (fun x => img.fs (bdevBlkSize * (bmapStartBlk + q) + x))
          (min bdevBlkSize ((fsSize - 4096 * q) / 8)) = none := by
        rw [bmapAllocElement,hsize,firstClear_full]
        · rfl
        · intro l hl
          rw [bit_readBlk,hp.bits _ (by simp only [fsSize]; omega)]
          simp only [decide_eq_true_eq]
          omega
      rw [hnone]
      simp only
      have hnext := ih (q := q + 1) (by omega) (by omega) (by omega)
      rw [show 32 - (q + 1) = d by omega,show bmapStartBlk + (q + 1) = bmapStartBlk + q + 1 by omega,
        show fsSize - 4096 * (q + 1) = fsSize - 4096 * q - bdevBlkSize * 8 by simp only [fsSize,bdevBlkSize]; omega] at hnext
      exact hnext

lemma allocDataBlock_eq (hp : Packed img.fs n) (hn : n < fsSize) :
    allocDataBlock img = some (dataStartBlk + n,{ img with fs := takeBlk mkfsSb img.fs (dataStartBlk + n) }) :=
  allocFrom_eq hp hn (q := 0) (by omega) (by omega)

lemma Packed.take (hp : Packed m n) (hn : n < fsSize) : Packed (takeBlk mkfsSb m (dataStartBlk + n)) (n + 1) := by
  refine ⟨hn,fun k hk => ?_⟩
  have hlow : mkfsSb.sDataStart ≤ dataStartBlk + n := Nat.le_add_right _ _
  rw [dataBit_takeBlk hlow hk,hp.bits k hk]
  change (decide (k = dataStartBlk + n - dataStartBlk) || decide (k < n)) = decide (k < n + 1)
  rw [Nat.add_sub_cancel_left,← Bool.decide_or]
  exact decide_eq_decide.mpr (by omega)

def slotBox (n : Nat) : Finset Slot :=
  ((Finset.range (n + 1) ×ˢ Finset.range 14).image fun p => .addr p.1 p.2) ∪
    (Finset.range (n + 1) ×ˢ Finset.range 2 ×ˢ Finset.range 128).image fun p => .entry p.1 (12 + p.2.1) p.2.2

lemma slotBox_card : (slotBox n).card ≤ (n + 1) * 270 := by
  refine le_trans (Finset.card_union_le _ _) (le_trans (Nat.add_le_add Finset.card_image_le Finset.card_image_le) ?_)
  simp only [Finset.card_product,Finset.card_range]
  omega

lemma mem_slotBox {p : Slot} (hi : p.inum ≤ n) (hp : p.Bounded) : p ∈ slotBox n := by
  rw [slotBox,Finset.mem_union,Finset.mem_image,Finset.mem_image]
  cases p with
  | addr i k =>
    have hk : k < 14 := hp
    have hi : i ≤ n := hi
    refine .inl ⟨(i,k),?_,rfl⟩
    simp only [Finset.mem_product,Finset.mem_range]
    omega
  | entry i k j =>
    have hk : 12 ≤ k ∧ k < 14 ∧ j < 128 := hp
    have hi : i ≤ n := hi
    refine .inr ⟨(i,k - 12,j),?_,?_⟩
    · simp only [Finset.mem_product,Finset.mem_range]
      omega
    · simp only [show 12 + (k - 12) = k by omega]

lemma Packed.room (hp : Packed s.disk n) (hs : Owned s) (hsb : s.sb = mkfsSb) : n ≤ 69390 := by
  have hex : ∀ k : Fin n, ∃ p, Holds s p (dataStartBlk + k) := fun k => by
    refine hs.exact.owner _ ⟨?_,?_,?_⟩
    · rw [hsb]
      exact Nat.le_add_right _ _
    · have := hp.le
      rw [hsb]
      change dataStartBlk + k < dataStartBlk + fsSize
      omega
    · have := hp.le
      rw [hsb]
      change dataBit mkfsSb s.disk (dataStartBlk + k - dataStartBlk) = true
      rw [Nat.add_sub_cancel_left,hp.bits k (by omega)]
      simp
  choose f hf using hex
  have hnum : s.sb.sNumInodes = 256 := by
    rw [hsb]
    rfl
  have hmem : ∀ k, f k ∈ slotBox s.sb.sNumInodes := fun k => mem_slotBox (hf k).1.2.1 (hf k).2.1
  have hinj : Function.Injective f := fun k l hkl => by
    have h1 := (hf k).2.2.1
    have h2 := (hf l).2.2.1
    rw [hkl] at h1
    exact Fin.ext (by omega)
  have hcard := Finset.card_le_card_of_injOn (s := Finset.univ) (t := slotBox s.sb.sNumInodes) f (fun k _ => hmem k) hinj.injOn
  rw [Finset.card_univ,Fintype.card_fin] at hcard
  exact le_trans hcard (le_trans slotBox_card (by rw [hnum]))

end MappedMemory.Mkfs
