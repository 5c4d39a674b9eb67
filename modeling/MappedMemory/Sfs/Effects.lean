import MappedMemory.Sfs.Operations

namespace MappedMemory.Sfs

open Bytes Routine

variable {s t u : Fs} {j k d o p size inum : Nat} {c c1 : Inode} {name : List Byte}

lemma Removed.wrote (h : Removed d name size s t o) (hs : Owned s) (ha : Allocated s d) :
    Wrote d o (o + 4) (fun _ => 0) s t := by
  have hal := h.at_match.aligned
  refine .chunk hs ha rfl h.blk ?_ h.sb h.disk h.icache
  simp only [bdevBlkSize]
  omega

lemma FirstFree.present {m : Memory} (h : FirstFree (content m d) size o) (ho : o % 512 ≠ 0) (hp : p ≤ o) :
    blkAt m d (p / bdevBlkSize) ≠ 0 := fun hz => by
  have hlt : 512 * (p / 512) < o := by omega
  refine (h.before (512 * (p / 512)) hlt (by omega)).2 (word_zero fun x h1 h2 => ?_)
  have hdiv : x / bdevBlkSize = p / bdevBlkSize := by
    simp only [bdevBlkSize]
    omega
  rw [content,hdiv,if_pos hz]

def Spills (o : Nat) (name : List Byte) : Prop := o % 512 = 480 ∧ (beforeNul name).length < 28

lemma span_fits (ha : o % 32 = 0) (h : ¬Spills o name) : o % bdevBlkSize + direntSpan name ≤ 512 := by
  simp only [Spills,bdevBlkSize] at h ⊢
  rw [direntSpan_eq]
  split <;> omega

section Added

variable {w : Fs} (h : Added d inum name c s t o u w c1)

include h

lemma Added.owned_resized (hs : Owned s) : Owned u ∧ Owned w ∧ Allocated w d := by
  have hu := (hs.grow h.grow).1
  exact ⟨hu,h.resized.owned,(h.resized.kept.allocated d).mpr (hu.cached d c1 h.cached)⟩

lemma Added.wrote (hs : Owned s) (hfit : ¬Spills o name) :
    Wrote d o (o + direntSpan name) (fun x => direntBytes inum (beforeNul name) (x - o)) w t := by
  obtain ⟨-,hw,ha⟩ := h.owned_resized hs
  refine .chunk hw ha rfl h.blk (span_fits h.free.aligned hfit) h.sb ?_ h.icache
  rw [h.disk]
  simp only [Nat.add_sub_cancel_left]

lemma Added.spilled (hs : Owned s) (hsp : Spills o name) :
    ∃ x, Wrote d o (o + 32) (fun y => direntBytes inum (beforeNul name) (y - o)) w x ∧ LowSame w x ∧
      (∀ y, 512 * (blkAt w.disk d (o / bdevBlkSize) + 1) ≤ y → x.disk y = w.disk y) ∧
      t.sb = x.sb ∧ t.icache = x.icache ∧
      t.disk = poke x.disk (512 * (blkAt w.disk d (o / bdevBlkSize) + 1)) 0 := by
  obtain ⟨-,hw,ha⟩ := h.owned_resized hs
  have hspan : direntSpan name = 32 + 1 := by rw [direntSpan_eq,if_pos hsp.2]
  have hend : bdevBlkSize * blkAt w.disk d (o / bdevBlkSize) + o % bdevBlkSize + 32 =
      512 * (blkAt w.disk d (o / bdevBlkSize) + 1) := by
    have := hsp.1
    simp only [bdevBlkSize]
    omega
  have hfit : o % bdevBlkSize + 32 ≤ 512 := by
    have := hsp.1
    simp only [bdevBlkSize]
    omega
  have hlast : direntBytes inum (beforeNul name) 32 = 0 := by
    rw [direntBytes,if_neg (by omega),if_neg (by simp [sfsDirentNamelen]),cstr,
      List.getD_eq_default _ _ (by have := hsp.2; omega)]
  obtain ⟨m,hm⟩ : ∃ m, m = fill w.disk (bdevBlkSize * blkAt w.disk d (o / bdevBlkSize) + o % bdevBlkSize) 32
      fun k => (fun y => direntBytes inum (beforeNul name) (y - o)) (o + k) := ⟨_,rfl⟩
  refine ⟨{ w with disk := m },.chunk hw ha rfl h.blk hfit rfl hm rfl,
    chunk_lowSame (f := fun y => direntBytes inum (beforeNul name) (y - o)) hw ha rfl h.blk hfit rfl hm,
    fun y hy => ?_,h.sb,h.icache,?_⟩
  · simp only [hm]
    exact fill_outside (.inr (by rw [hend]; exact hy))
  · rw [h.disk,hspan,← fill_append,hend]
    simp only [hm,Nat.add_sub_cancel_left]
    funext y
    by_cases hy : y = 512 * (blkAt w.disk d (o / bdevBlkSize) + 1)
    · subst hy
      rw [poke_same,fill_inside (le_refl _) (Nat.lt_succ_self _),Nat.sub_self,Nat.add_zero,hlast]
    · rw [poke_other hy,fill_outside (by omega)]

end Added

def Clear (s : Fs) (d size : Nat) (name : List Byte) : Prop :=
  ∀ o, FirstFree (content s.disk d) size o → Spills o name → ∀ j k, Allocated s j → 12 ≤ k → k < 14 →
    addrOf s.disk j k = blkAt s.disk d (o / bdevBlkSize) + 1 →
      s.disk (512 * (blkAt s.disk d (o / bdevBlkSize) + 1)) = 0

lemma Owned.poke_zero {b : Nat} (hs : Owned s) (hb : s.sb.sDataStart ≤ b) (hsb : t.sb = s.sb)
    (hic : t.icache = s.icache) (hd : t.disk = poke s.disk (512 * b) 0)
    (hz : ∀ j k, Allocated s j → 12 ≤ k → k < 14 → addrOf s.disk j k = b → s.disk (512 * b) = 0) : Owned t := by
  have hlow := dataAt_le hb
  have hl : LowSame s t := ⟨hsb,fun x hx => by rw [hd]; exact poke_other (by omega)⟩
  refine hs.same_slots hl hic fun q ha hq => ?_
  cases q with
  | addr j k => exact hl.addrOf ha hq
  | entry j k l =>
    have hk : addrOf t.disk j k = addrOf s.disk j k := hl.addrOf ha hq.2.1
    simp only [slotVal,hk]
    split
    · rfl
    · refine word_congr fun x h1 h2 => ?_
      rw [hd]
      by_cases hx : x = 512 * b
      · subst hx
        have hl128 : l < 128 := hq.2.2
        have hblk : addrOf s.disk j k = b := by
          simp only [bdevBlkSize] at h1 h2
          omega
        rw [poke_same,hz j k ha hq.1 hq.2.1 hblk]
      · exact poke_other hx

lemma Added.owned {w : Fs} (h : Added d inum name c s t o u w c1) (hs : Owned s) (hclear : Clear s d c.iSize name) :
    Owned t := by
  by_cases hsp : Spills o name
  · obtain ⟨x,hx,hlow,hsame,hsb,hic,hd⟩ := h.spilled hs hsp
    obtain ⟨hu,hw,ha⟩ := h.owned_resized hs
    have hq := h.present fun p hp => h.free.present (by have := hsp.1; omega) hp
    have hk := h.resized.kept
    have hblk : blkAt w.disk d (o / bdevBlkSize) = blkAt s.disk d (o / bdevBlkSize) := by
      rw [hk.blkAt (hu.cached d c1 h.cached),hq.disk]
    have hused := hw.used_blkAt ha h.blk
    have hdata : dataAt w.sb ≤ 512 * (blkAt w.disk d (o / bdevBlkSize) + 1) :=
      dataAt_le (Nat.le_succ_of_le hused.1)
    refine hx.owned.poke_zero (b := blkAt w.disk d (o / bdevBlkSize) + 1)
      (by rw [hx.sb]; exact Nat.le_succ_of_le hused.1) hsb hic hd fun j k hj h1 h2 hjk => ?_
    have hjw : Allocated w j := (hx.allocated j).mp hj
    have hju : Allocated u j := (hk.allocated j).mp hjw
    have hjs : Allocated s j := ((hs.grow h.grow).2.allocated j).mp hju
    have haddr : addrOf s.disk j k = addrOf x.disk j k := by
      have hslot : addrOf w.disk j k = addrOf u.disk j k := hk.slots (.addr j k) hju h2
      rw [hlow.addrOf hjw h2,hslot,hq.disk]
    rw [hsame _ (le_refl _),hk.data _ (by rw [← hk.sb]; exact hdata),hq.disk,hblk]
    exact hclear o h.free hsp j k hjs h1 h2 (by rw [haddr,hjk,hblk])
  · exact (h.wrote hs hsp).owned

end MappedMemory.Sfs
