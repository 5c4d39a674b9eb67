import MappedMemory.Sfs.Contents

namespace MappedMemory.Sfs

open Bytes Routine

variable {s t : Fs} {i j k b x idx ofs : Nat} {l : Bool} {c : Inode}

lemma kassert_true {p : Bool} (h : p = true) : kassert p s = some ((),s) := if_pos h

lemma inode_of (h : s.icache i = some c) : inode i s = some (c,s) := by
  simp [inode,h]

lemma acquire_ok (h : s.supply = []) : acquire l b s = some (true,{ s with held := (b,l) :: s.held }) := by
  have hf : fetch b s = some (true,s) := by
    unfold fetch
    split
    · rfl
    · simp [grant,h]
  rw [acquire,bind_of_some hf]
  rfl

lemma release_ok {h : List (Nat × Bool)} (hh : s.held = (b,l) :: h) :
    release l b s = some ((),{ s with held := h }) := by
  rw [release,get_bind,bind_of_some (kassert_true (by simp [hh]))]
  change some (PUnit.unit,{ s with held := s.held.erase (b,l) }) = _
  rw [hh,List.erase_cons_head]

lemma addrSlot_read (hc : s.icache i = some c) :
    addrSlot i k false s = some (if c.iAddrs k ≠ 0 then .ok (c.iAddrs k) else .error .notExist,s) := by
  rw [addrSlot,bind_of_some (inode_of hc)]
  split <;> rfl

lemma entrySlot_read {a : Nat} : entrySlot a j false s = some (if word s.disk (bdevBlkSize * a + 4 * j) 4 ≠ 0 then
      .ok (word s.disk (bdevBlkSize * a + 4 * j) 4) else .error .notExist,s) := by
  rw [entrySlot,get_bind]
  split <;> rfl

def readResult (blk : Nat) (s : Fs) : Except SfsErr Nat × Fs :=
  if blk = 0 then (.error .notExist,s) else (.ok blk,{ s with held := (blk,true) :: s.held })

section
variable (hs : Owned s) (hc : s.icache i = some c) (hsup : s.supply = [])
include hs hc hsup

lemma findBlk_absent (hm : idx < maxBlks) (hz : blkAt s.disk i idx = 0) : ∃ ibh, findBlk i idx false s =
      some ((ibh,.error .notExist),{ s with held := ibh.toList.map (·,true) ++ s.held }) := by
  rw [findBlk]
  by_cases hd : idx < sfsNdirect
  · rw [if_pos hd,bind_of_some (addrSlot_read hc)]
    rw [blkAt_of_addr hs hc hd] at hz
    rw [hz]
    exact ⟨none,rfl⟩
  · have hbd := dataSlot_bounded (i := i) hm
    rw [dataSlot,if_neg hd] at hbd
    rw [if_neg hd,bind_of_some (kassert_true (by simpa using hbd.2.1)),bind_of_some (addrSlot_read hc)]
    by_cases hnz : c.iAddrs (sfsNdirect + (idx - sfsNdirect) / ptrsPerBlk) = 0
    · rw [hnz]
      exact ⟨none,rfl⟩
    · rw [blkAt_of_entry hs hc hd hm hnz] at hz
      rw [if_pos hnz]
      simp only
      rw [bind_of_some (kassert_true (by simpa using Nat.pos_of_ne_zero hnz)),bdevGetBlk,bind_of_some (acquire_ok hsup)]
      simp only [unless_true]
      rw [bind_of_some entrySlot_read]
      simp only [hz]
      exact ⟨some _,rfl⟩

lemma findBlk_present (hm : idx < maxBlks)
    (hnz : blkAt s.disk i idx ≠ 0) : ∃ ibh, findBlk i idx false s = some ((ibh,.ok (blkAt s.disk i idx)),s) := by
  rw [findBlk]
  by_cases hd : idx < sfsNdirect
  · rw [if_pos hd,bind_of_some (addrSlot_read hc)]
    rw [blkAt_of_addr hs hc hd] at hnz ⊢
    rw [if_pos hnz]
    exact ⟨none,rfl⟩
  · have hbd := dataSlot_bounded (i := i) hm
    rw [dataSlot,if_neg hd] at hbd
    rw [if_neg hd,bind_of_some (kassert_true (by simpa using hbd.2.1)),bind_of_some (addrSlot_read hc)]
    have ha := iAddrs_ne_zero hs hc hd hm hnz
    rw [blkAt_of_entry hs hc hd hm ha] at hnz ⊢
    rw [if_pos ha]
    simp only
    rw [bind_of_some (kassert_true (by simpa using Nat.pos_of_ne_zero ha)),bdevGetBlk,bind_of_some (acquire_ok hsup)]
    simp only [unless_true]
    rw [bind_of_some entrySlot_read]
    simp only [if_pos hnz]
    rw [bdevReleaseBlk,bind_of_some (release_ok rfl)]
    exact ⟨some _,rfl⟩

lemma getDataBlock_read (hofs : ofs < sfsMaxFileSize) :
    getDataBlock i ofs false s = some (readResult (blkAt s.disk i (ofs / bdevBlkSize)) s) := by
  have hm : ofs / bdevBlkSize < maxBlks := Nat.div_lt_of_lt_mul hofs
  have hq : Quiet s { s with held := (inumToBlk i,false) :: s.held } := ⟨rfl,rfl,rfl⟩
  rw [getDataBlock,bind_of_some (kassert_true (by simpa using hofs)),acquireInodeBh,bdevGetBlkUnlocked,
    bind_of_some (acquire_ok hsup)]
  simp only [unless_true]
  by_cases hz : blkAt s.disk i (ofs / bdevBlkSize) = 0
  · obtain ⟨ibh,hf⟩ := findBlk_absent (hs.quiet hq) hc hsup hm hz
    rw [bind_of_some hf,readResult,if_pos hz]
    cases ibh with
    | none =>
      simp only [getDataFail]
      rw [releaseInodeBh,bdevReleaseBlkUnlocked,bind_of_some (release_ok rfl)]
      rfl
    | some a =>
      simp only [getDataFail]
      rw [bdevReleaseBlk,bind_of_some (release_ok rfl),releaseInodeBh,bdevReleaseBlkUnlocked,
        bind_of_some (release_ok rfl)]
      rfl
  · obtain ⟨ibh,hf⟩ := findBlk_present (hs.quiet hq) hc hsup hm hz
    rw [bind_of_some hf,readResult,if_neg hz]
    simp only
    have hg := acquire_ok (s := { s with held := (inumToBlk i,false) :: s.held }) (l := true)
      (b := blkAt s.disk i (ofs / bdevBlkSize)) hsup
    rw [bind_of_some (kassert_true (by simpa using Nat.pos_of_ne_zero hz)),bdevGetBlk,bind_of_some hg]
    simp only [unless_true]
    rw [releaseInodeBh,bdevReleaseBlkUnlocked,release,bind_assoc,get_bind,bind_assoc,
      bind_of_some (kassert_true (by simp)),modify_bind]
    simp only [pure_apply,Option.some_inj,Prod.mk_inj,true_and]
    simp

end

lemma lt_max_of_blkAt {m : Memory} (h : blkAt m i (ofs / bdevBlkSize) ≠ 0) : ofs < sfsMaxFileSize := by
  unfold blkAt at h
  split at h
  · rename_i hm
    have hm : ofs / 512 < 268 := hm
    change ofs < 137216
    omega
  · exact absurd rfl h

lemma release_held : { { s with held := (b,true) :: s.held } with held := s.held } = s := rfl

lemma content_of_blkAt {m : Memory} (h : blkAt m i (x / bdevBlkSize) ≠ 0) :
    content m i x = m (bdevBlkSize * blkAt m i (x / bdevBlkSize) + x % bdevBlkSize) := if_neg h

lemma readLoop_read (buf : Memory) (count n ofs total : Nat) (hs : Owned s) (hc : s.icache i = some c)
    (hsup : s.supply = []) (hmap : ∀ y, y < c.iSize → blkAt s.disk i (y / bdevBlkSize) ≠ 0)
    (hn : count ≤ n + total) (ht : total ≤ count) :
    ∃ buf', readLoop i count n buf ofs total s = some ((total + min (count - total) (c.iSize - ofs),buf'),s) ∧
      ∀ y, buf' y = if total ≤ y ∧ y < total + min (count - total) (c.iSize - ofs) then
        content s.disk i (ofs + (y - total)) else buf y := by
  induction n generalizing buf ofs total with
  | zero =>
    have hz : count - total = 0 := by omega
    refine ⟨buf,?_,fun y => ?_⟩
    · rw [hz,Nat.zero_min]
      rfl
    · rw [hz,if_neg (by omega)]
  | succ n ih =>
    rw [readLoop,bind_of_some (inode_of hc)]
    by_cases hgo : total < count ∧ ofs < c.iSize
    · have hnz := hmap ofs hgo.2
      have hg := getDataBlock_read hs hc hsup (lt_max_of_blkAt hnz)
      rw [readResult,if_neg hnz] at hg
      rw [if_pos (by simpa using hgo),bind_of_some hg]
      simp only [get_bind]
      rw [bdevReleaseBlk,bind_of_some (release_ok rfl),release_held]
      generalize hk : min (min (bdevBlkSize - ofs % bdevBlkSize) (count - total)) (c.iSize - ofs) = k
      have hkb : 0 < k ∧ k ≤ count - total ∧ k ≤ c.iSize - ofs ∧ ofs % 512 + k ≤ 512 := by
        simp only [bdevBlkSize] at hk
        omega
      obtain ⟨buf',hrun,hbuf⟩ := ih (fill buf total k fun z =>
        s.disk (bdevBlkSize * blkAt s.disk i (ofs / bdevBlkSize) + ofs % bdevBlkSize + z)) (ofs + k) (total + k)
        (by omega) (by omega)
      refine ⟨buf',hrun.trans ?_,fun y => (hbuf y).trans ?_⟩
      · rw [show total + k + min (count - (total + k)) (c.iSize - (ofs + k)) =
          total + min (count - total) (c.iSize - ofs) by omega]
      · by_cases hlate : total + k ≤ y ∧ y < total + k + min (count - (total + k)) (c.iSize - (ofs + k))
        · rw [if_pos hlate,if_pos (by omega),show ofs + k + (y - (total + k)) = ofs + (y - total) by omega]
        · rw [if_neg hlate]
          by_cases hnow : total ≤ y ∧ y < total + k
          · have hblk : (ofs + (y - total)) / bdevBlkSize = ofs / bdevBlkSize := by
              simp only [bdevBlkSize]
              omega
            rw [fill_inside hnow.1 hnow.2,if_pos (by omega),content_of_blkAt (by rwa [hblk]),hblk]
            congr 1
            simp only [bdevBlkSize] at hblk ⊢
            omega
          · rw [fill_outside (by omega),if_neg (by omega)]
    · have hz : min (count - total) (c.iSize - ofs) = 0 := by omega
      rw [if_neg (by simpa using hgo),hz]
      exact ⟨buf,rfl,fun y => by rw [if_neg (by omega)]⟩

lemma readLoop_same (buf : Memory) (count n ofs total : Nat) (hs : Owned s) (ht : Owned t) (hc : s.icache i = some c)
    (hct : t.icache i = some c) (hsup : s.supply = []) (hsupt : t.supply = [])
    (hblk : ∀ idx, blkAt t.disk i idx = blkAt s.disk i idx) (hcon : ∀ x, content t.disk i x = content s.disk i x) :
    ∃ r : Option (Nat × Memory),
      readLoop i count n buf ofs total s = r.map (·,s) ∧ readLoop i count n buf ofs total t = r.map (·,t) := by
  induction n generalizing buf ofs total with
  | zero => exact ⟨some (total,buf),rfl,rfl⟩
  | succ n ih =>
    rw [readLoop,bind_of_some (inode_of hc),bind_of_some (inode_of hct)]
    by_cases hgo : total < count ∧ ofs < c.iSize
    · rw [if_pos (by simpa using hgo)]
      by_cases hofs : ofs < sfsMaxFileSize
      · have hg := getDataBlock_read hs hc hsup hofs
        have hgt := getDataBlock_read ht hct hsupt hofs
        rw [hblk] at hgt
        by_cases hz : blkAt s.disk i (ofs / bdevBlkSize) = 0
        · rw [readResult,if_pos hz] at hg hgt
          rw [bind_of_some hg,bind_of_some hgt]
          exact ⟨some (total,buf),rfl,rfl⟩
        · rw [readResult,if_neg hz] at hg hgt
          rw [bind_of_some hg,bind_of_some hgt]
          simp only [get_bind]
          rw [bdevReleaseBlk,bind_of_some (release_ok rfl),bind_of_some (release_ok rfl),release_held,release_held]
          generalize hk : min (min (bdevBlkSize - ofs % bdevBlkSize) (count - total)) (c.iSize - ofs) = k
          have hkb : ofs % 512 + k ≤ 512 := by
            simp only [bdevBlkSize] at hk
            omega
          have hfill : (fill buf total k fun z =>
              t.disk (bdevBlkSize * blkAt s.disk i (ofs / bdevBlkSize) + ofs % bdevBlkSize + z)) =
              fill buf total k fun z =>
                s.disk (bdevBlkSize * blkAt s.disk i (ofs / bdevBlkSize) + ofs % bdevBlkSize + z) := by
            funext y
            by_cases hy : total ≤ y ∧ y < total + k
            · have hdiv : (ofs + (y - total)) / bdevBlkSize = ofs / bdevBlkSize := by
                simp only [bdevBlkSize]
                omega
              have hmod : (ofs + (y - total)) % bdevBlkSize = ofs % bdevBlkSize + (y - total) := by
                simp only [bdevBlkSize]
                omega
              have hcx := hcon (ofs + (y - total))
              rw [content_of_blkAt (by rw [hblk,hdiv]; exact hz),content_of_blkAt (by rw [hdiv]; exact hz),hblk,hdiv,
                hmod,← Nat.add_assoc] at hcx
              rw [fill_inside hy.1 hy.2,fill_inside hy.1 hy.2,hcx]
            · rw [fill_outside (by omega),fill_outside (by omega)]
          rw [hfill]
          exact ih _ _ _
      · have hnone : ∀ u : Fs, getDataBlock i ofs false u = none := fun u => by
          simp [getDataBlock,kassert,hofs,bind,StateT.bind]
        simp only [bind,StateT.bind,hnone]
        exact ⟨none,rfl,rfl⟩
    · rw [if_neg (by simpa using hgo)]
      exact ⟨some (total,buf),rfl,rfl⟩

end MappedMemory.Sfs
