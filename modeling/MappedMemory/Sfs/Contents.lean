import MappedMemory.Sfs.Allocation

namespace MappedMemory.Sfs

open Function (update update_of_ne update_self)
open Bytes Routine

variable {s t u : Fs} {i j x idx lo mid hi : Nat} {c : Inode} {f : Nat → Byte}

lemma dataSlot_inj {idx' : Nat} (h : dataSlot i idx = dataSlot j idx') : i = j ∧ idx = idx' := by
  unfold dataSlot at h
  split at h <;> split at h
  · cases h
    exact ⟨rfl,rfl⟩
  · cases h
  · cases h
  · rename_i h1 h2
    simp only [Slot.entry.injEq,sfsNdirect,ptrsPerBlk,bdevBlkSize] at h h1 h2
    exact ⟨h.1,by omega⟩

lemma blkAt_eq_slotVal {n : Nat} (h : blkAt s.disk i n ≠ 0) :
    n < maxBlks ∧ blkAt s.disk i n = slotVal s.disk (dataSlot i n) := by
  unfold blkAt at h ⊢
  split at h
  · rename_i hm
    exact ⟨hm,if_pos hm⟩
  · exact absurd rfl h

lemma Owned.used_blkAt {n : Nat} (hs : Owned s) (ha : Allocated s i) (h : blkAt s.disk i n ≠ 0) :
    Used s (blkAt s.disk i n) := by
  obtain ⟨hm,he⟩ := blkAt_eq_slotVal h
  rw [he] at h ⊢
  exact hs.used (by rwa [dataSlot_inum]) (dataSlot_bounded hm) h

lemma blkAt_of_slots (h : ∀ p, p.inum = i → p.Bounded → slotVal t.disk p = slotVal s.disk p) :
    blkAt t.disk i idx = blkAt s.disk i idx := by
  unfold blkAt
  split
  · rename_i hm
    exact h _ (dataSlot_inum i idx) (dataSlot_bounded hm)
  · rfl

structure Stored (i lo hi : Nat) (f : Nat → Byte) (s t : Fs) : Prop where
  owned : Owned t
  sb : t.sb = s.sb
  allocated : ∀ j, Allocated t j ↔ Allocated s j
  own : ∀ x, content t.disk i x = if lo ≤ x ∧ x < hi then f x else content s.disk i x
  others : ∀ j x, Allocated s j → j ≠ i → content t.disk j x = content s.disk j x
  mapped : ∀ idx, blkAt s.disk i idx ≠ 0 → blkAt t.disk i idx ≠ 0
  covered : ∀ x, lo ≤ x → x < hi → blkAt t.disk i (x / bdevBlkSize) ≠ 0
  blks : ∀ j idx, Allocated s j → j ≠ i → blkAt t.disk j idx = blkAt s.disk j idx

structure Wrote (i lo hi : Nat) (f : Nat → Byte) (s t : Fs) : Prop extends Stored i lo hi f s t where
  icache : ∀ j, j ≠ i → t.icache j = s.icache j
  inode : ∀ c, s.icache i = some c → ∃ ad d, t.icache i = some { c with iAddrs := ad, dirty := d }

lemma Extends.blkAt (h : Extends i s t) (ha : Allocated s j) (hv : Sfs.blkAt s.disk j idx ≠ 0) :
    Sfs.blkAt t.disk j idx = Sfs.blkAt s.disk j idx := by
  obtain ⟨hm,he⟩ := blkAt_eq_slotVal hv
  rw [he] at hv ⊢
  rw [Sfs.blkAt,if_pos hm]
  exact h.slots _ (by rwa [dataSlot_inum]) (dataSlot_bounded hm) hv

lemma Wrote.of_grow (hs : Owned s) (hc : s.icache i = some c) (h : Grow i s t) : Wrote i lo lo f s t := by
  obtain ⟨ho,he⟩ := hs.grow h
  have ha := hs.cached i c hc
  exact {
    owned := ho
    sb := he.sb
    allocated := he.allocated
    own := fun x => by rw [if_neg (by omega),he.content i x ha]
    others := fun j x hj _ => he.content j x hj
    mapped := fun idx hv => by rwa [he.blkAt ha hv]
    covered := fun x h1 h2 => absurd h2 (by omega)
    blks := fun j idx hj hji =>
      blkAt_of_slots fun p hp hb => he.others p (by rwa [hp]) hb (by rwa [hp])
    icache := he.icache
    inode := he.own }

lemma Stored.trans (h : Stored i lo mid f s t) (h' : Stored i mid hi f t u) (h1 : lo ≤ mid) (h2 : mid ≤ hi) :
    Stored i lo hi f s u where
  owned := h'.owned
  sb := h'.sb.trans h.sb
  allocated j := (h'.allocated j).trans (h.allocated j)
  own x := by
    rw [h'.own x,h.own x]
    split
    · rw [if_pos (by omega)]
    · split
      · rw [if_pos (by omega)]
      · rw [if_neg (by omega)]
  others j x hj hji := by rw [h'.others j x ((h.allocated j).mpr hj) hji,h.others j x hj hji]
  mapped idx hv := h'.mapped idx (h.mapped idx hv)
  covered x hx1 hx2 := by
    by_cases hm : x < mid
    · exact h'.mapped _ (h.covered x hx1 hm)
    · exact h'.covered x (by omega) hx2
  blks j idx hj hji := by rw [h'.blks j idx ((h.allocated j).mpr hj) hji,h.blks j idx hj hji]

lemma Wrote.trans (h : Wrote i lo mid f s t) (h' : Wrote i mid hi f t u) (h1 : lo ≤ mid) (h2 : mid ≤ hi) :
    Wrote i lo hi f s u where
  toStored := h.toStored.trans h'.toStored h1 h2
  icache j hji := (h'.icache j hji).trans (h.icache j hji)
  inode c hc := by
    obtain ⟨_,_,hd⟩ := h.inode c hc
    obtain ⟨ad,d,hd'⟩ := h'.inode _ hd
    exact ⟨ad,d,hd'⟩

section Chunk

variable {b ofs n : Nat} (hs : Owned s) (ha : Allocated s i) (hb : blkAt s.disk i (ofs / bdevBlkSize) = b)
  (hnz : b ≠ 0) (hn : ofs % bdevBlkSize + n ≤ 512) (hsb : t.sb = s.sb)
  (hd : t.disk = fill s.disk (bdevBlkSize * b + ofs % bdevBlkSize) n fun k => f (ofs + k))

include hn hd

lemma chunk_outside (hx : x < 512 * b ∨ 512 * b + 512 ≤ x) : t.disk x = s.disk x := by
  rw [hd]
  refine fill_outside ?_
  simp only [bdevBlkSize] at hn ⊢
  omega

include hs ha hb hnz hsb

lemma chunk_lowSame : LowSame s t := by
  have hlow := dataAt_le (hb ▸ hs.used_blkAt ha (hb ▸ hnz)).1
  exact ⟨hsb,fun x hx => chunk_outside hn hd (by omega)⟩

lemma chunk_slotVal {p : Slot} (hp : Allocated s p.inum) (hbd : p.Bounded) : slotVal t.disk p = slotVal s.disk p := by
  obtain ⟨hm,he⟩ := blkAt_eq_slotVal (s := s) (i := i) (n := ofs / bdevBlkSize) (by rwa [hb])
  have hl := chunk_lowSame hs ha hb hnz hn hsb hd
  rw [hb] at he
  refine hs.slotVal_write hl (p := dataSlot i (ofs / bdevBlkSize)) (by rwa [dataSlot_inum]) (dataSlot_bounded hm)
    (dataSlot_data i _) (by rwa [← he]) (fun y hy => ?_) hp hbd
  exact chunk_outside hn hd (by rwa [← he] at hy)

lemma chunk_blkAt (haj : Allocated s j) : blkAt t.disk j idx = blkAt s.disk j idx :=
  blkAt_of_slots fun p hp hbd => chunk_slotVal hs ha hb hnz hn hsb hd (by rwa [hp]) hbd

lemma chunk_content (haj : Allocated s j) :
    content t.disk j x = if j = i ∧ ofs ≤ x ∧ x < ofs + n then f x else content s.disk j x := by
  have hblk : blkAt t.disk j (x / bdevBlkSize) = blkAt s.disk j (x / bdevBlkSize) :=
    chunk_blkAt hs ha hb hnz hn hsb hd haj
  unfold content
  rw [hblk]
  by_cases hz : blkAt s.disk j (x / bdevBlkSize) = 0
  · have hno : ¬(j = i ∧ ofs ≤ x ∧ x < ofs + n) := by
      rintro ⟨rfl,h1,h2⟩
      have he : x / bdevBlkSize = ofs / bdevBlkSize := by
        simp only [bdevBlkSize] at hn ⊢
        omega
      rw [he,hb] at hz
      exact hnz hz
    rw [if_neg hno,if_pos hz,if_pos hz]
  · rw [if_neg hz]
    by_cases hsame : j = i ∧ x / bdevBlkSize = ofs / bdevBlkSize
    · obtain ⟨rfl,hxo⟩ := hsame
      rw [hxo,hb,hd]
      by_cases hin : ofs ≤ x ∧ x < ofs + n
      · rw [if_pos ⟨rfl,hin⟩,fill_inside]
        · congr 1
          simp only [bdevBlkSize] at hxo ⊢
          omega
        all_goals
          simp only [bdevBlkSize] at hxo hn ⊢
          omega
      · rw [if_neg fun h => hin h.2,if_neg hnz,fill_outside]
        simp only [bdevBlkSize] at hxo hn ⊢
        omega
    · obtain ⟨hm,he⟩ := blkAt_eq_slotVal (s := s) (i := i) (n := ofs / bdevBlkSize) (by rwa [hb])
      obtain ⟨hm',he'⟩ := blkAt_eq_slotVal hz
      have hne : blkAt s.disk j (x / bdevBlkSize) ≠ b := fun hbb => by
        have hp := hs.slot_eq (p := dataSlot i (ofs / bdevBlkSize)) (q := dataSlot j (x / bdevBlkSize))
          (by rwa [dataSlot_inum]) (dataSlot_bounded hm) (by rwa [← he,hb]) (by rwa [dataSlot_inum])
          (dataSlot_bounded hm') (by rw [← he,← he',hb,hbb])
        obtain ⟨hij,hidx⟩ := dataSlot_inj hp
        exact hsame ⟨hij.symm,hidx.symm⟩
      have hx : x % bdevBlkSize < 512 := Nat.mod_lt _ (by decide)
      have hn' : ¬(j = i ∧ ofs ≤ x ∧ x < ofs + n) := by
        rintro ⟨hji,h1,h2⟩
        refine hsame ⟨hji,?_⟩
        simp only [bdevBlkSize] at hn ⊢
        omega
      rw [if_neg hn',if_neg hz]
      have hapart : ∀ v y, v ≠ b → y < 512 → 512 * v + y < 512 * b ∨ 512 * b + 512 ≤ 512 * v + y := by
        intro v y hv hy
        omega
      exact chunk_outside hn hd (hapart _ _ hne hx)

lemma Wrote.chunk (hic : t.icache = s.icache) : Wrote i ofs (ofs + n) f s t := by
  have hl := chunk_lowSame hs ha hb hnz hn hsb hd
  obtain ⟨hm,he⟩ := blkAt_eq_slotVal (s := s) (i := i) (n := ofs / bdevBlkSize) (by rwa [hb])
  rw [hb] at he
  exact {
    owned := hs.write hl hic (p := dataSlot i (ofs / bdevBlkSize)) (by rwa [dataSlot_inum]) (dataSlot_bounded hm)
      (dataSlot_data i _) (by rwa [← he])
      fun y hy => chunk_outside hn hd (by rwa [← he] at hy)
    sb := hsb
    allocated := hl.allocated
    own := fun x => by
      rw [chunk_content hs ha hb hnz hn hsb hd ha]
      simp only [true_and]
    others := fun j x hj hji => by rw [chunk_content hs ha hb hnz hn hsb hd hj,if_neg fun h => hji h.1]
    mapped := fun idx hv => by rwa [chunk_blkAt hs ha hb hnz hn hsb hd ha]
    covered := fun x h1 h2 => by
      rw [chunk_blkAt hs ha hb hnz hn hsb hd ha]
      have hxo : x / bdevBlkSize = ofs / bdevBlkSize := by
        simp only [bdevBlkSize] at hn ⊢
        omega
      rwa [hxo,hb]
    blks := fun j idx hj _ => chunk_blkAt hs ha hb hnz hn hsb hd hj
    icache := fun j _ => by rw [hic]
    inode := fun c hc => ⟨c.iAddrs,c.dirty,by rw [hic,hc]⟩ }

end Chunk

structure Kept (s t : Fs) : Prop where
  sb : t.sb = s.sb
  allocated : ∀ j, Allocated t j ↔ Allocated s j
  slots : ∀ p, Allocated s p.inum → p.Bounded → slotVal t.disk p = slotVal s.disk p
  data : ∀ x, dataAt s.sb ≤ x → t.disk x = s.disk x

lemma Kept.blkAt (h : Kept s t) (ha : Allocated s j) : Sfs.blkAt t.disk j idx = Sfs.blkAt s.disk j idx :=
  blkAt_of_slots fun p hp hb => h.slots p (by rwa [hp]) hb

lemma content_of_slots (hs : Owned s) (ha : Allocated s j)
    (hslots : ∀ p, p.inum = j → p.Bounded → slotVal t.disk p = slotVal s.disk p)
    (hdata : ∀ y, dataAt s.sb ≤ y → t.disk y = s.disk y) : content t.disk j x = content s.disk j x := by
  unfold content
  rw [blkAt_of_slots hslots]
  split
  · rfl
  · rename_i hz
    have hlow := dataAt_le (hs.used_blkAt ha hz).1
    exact hdata _ (Nat.le_trans hlow (Nat.le_add_right _ _))

lemma Kept.content (h : Kept s t) (hs : Owned s) (ha : Allocated s j) :
    Sfs.content t.disk j x = Sfs.content s.disk j x :=
  content_of_slots hs ha (fun p hp hb => h.slots p (by rwa [hp]) hb) h.data

lemma Kept.stored (h : Kept s t) (hs : Owned s) (ht : Owned t) (ha : Allocated s i) : Stored i lo lo f s t where
  owned := ht
  sb := h.sb
  allocated := h.allocated
  own x := by rw [if_neg (by omega),h.content hs ha]
  others j x hj _ := h.content hs hj
  mapped idx hv := by rwa [h.blkAt ha]
  covered x h1 h2 := absurd h2 (by omega)
  blks j idx hj _ := h.blkAt hj

lemma InodeWritten.kept (h : InodeWritten s t i c) (hs : Owned s) (hc : s.icache i = some c) : Kept s t := by
  have ha := hs.cached i c hc
  have haddr : ∀ j k, Allocated s j → k < 14 → addrOf t.disk j k = addrOf s.disk j k := by
    intro j k hj hk
    rw [h.disk]
    by_cases hji : j = i
    · subst hji
      rw [addrOf_putInode hk,hs.addrs j c hc k hk,Nat.mod_eq_of_lt (addrOf_lt _ _ _)]
    · exact addrOf_putInode_other ha.1 hj.1 hji hk
  have hdata : ∀ x, dataAt s.sb ≤ x → t.disk x = s.disk x := fun x hx => by
    rw [h.disk,putInode_data ha.1 ha.2.1 hx]
  refine ⟨h.sb,allocated_iff h.sb fun n hn => by rw [h.disk,inodeBit_putInode hn],fun p hp hb => ?_,hdata⟩
  cases p with
  | addr j k => exact haddr j k hp hb
  | entry j k l =>
    simp only [slotVal,haddr j k hp hb.2.1]
    split
    · rfl
    · rename_i hz
      have hu := hs.used (p := .addr j k) hp hb.addr_of_entry hz
      have hlow := dataAt_le hu.1
      refine word_congr fun x h1 h2 => hdata x ?_
      simp only [bdevBlkSize,slotVal] at h1 hlow
      omega

lemma InodeWritten.full (h : InodeWritten s t i c) (ha : Allocated s i) (hf : Full s) : Full t := fun n hn => by
  rw [h.sb] at hn ⊢
  rw [h.disk,dataBit_putInode (by omega) ha.1 ha.2.1]
  exact hf n hn

lemma InodeWritten.owned (h : InodeWritten s t i c) (hs : Owned s) (hc : s.icache i = some c) : Owned t := by
  have hk := h.kept hs hc
  have ha := hs.cached i c hc
  refine ⟨fun j d hj => ?_,fun j d hj k hk' => ?_,exact_same hs hk.allocated hk.slots fun b => ?_⟩
  · rw [h.icache] at hj
    by_cases hji : j = i
    · exact (hk.allocated j).mpr (hji ▸ ha)
    · rw [update_of_ne hji] at hj
      exact (hk.allocated j).mpr (hs.cached j d hj)
  · rw [h.icache] at hj
    by_cases hji : j = i
    · subst hji
      rw [update_self,Option.some_inj] at hj
      subst hj
      exact (hs.addrs j c hc k hk').trans (hk.slots (.addr j k) ha hk').symm
    · rw [update_of_ne hji] at hj
      exact (hs.addrs j d hj k hk').trans (hk.slots (.addr j k) (hs.cached j d hj) hk').symm
  · unfold Used
    rw [h.sb]
    refine and_congr_right fun h1 => and_congr_right fun h2 => ?_
    rw [h.disk,dataBit_putInode (by omega) ha.1 ha.2.1]

lemma Owned.load (hs : Owned s) (ha : Allocated s i) (hc : ∀ k, k < 14 → c.iAddrs k = addrOf s.disk i k) :
    Owned { s with icache := update s.icache i (some c) } := by
  refine ⟨fun j e hj => ?_,fun j e hj k hk => ?_,hs.exact⟩
  · by_cases hji : j = i
    · exact hji ▸ ha
    · simp only [update_of_ne hji] at hj
      exact hs.cached j e hj
  · by_cases hji : j = i
    · subst hji
      simp only [update_self,Option.some_inj] at hj
      subst hj
      exact hc k hk
    · simp only [update_of_ne hji] at hj
      exact hs.addrs j e hj k hk

lemma Owned.setInode {d : Inode} (hs : Owned s) (hc : s.icache i = some c) (hd : d.iAddrs = c.iAddrs) :
    Owned { s with icache := update s.icache i (some d) } :=
  hs.load (hs.cached i c hc) fun k hk => by rw [hd,hs.addrs i c hc k hk]

section WriteLoop

variable {buf : Memory} {count base n total total' ofs' : Nat}

lemma writeLoop_some (base : Nat) (hs : Owned s) (hc : s.icache i = some c) (hn : count ≤ n + total) (ht : total ≤ count)
    (h : writeLoop i buf count n (base + total) total s = some ((total',ofs'),t)) :
    total ≤ total' ∧ total' ≤ count ∧ ofs' = base + total' ∧
      Wrote i (base + total) ofs' (fun x => buf (x - base)) s t ∧ (total' < count → Starved s t) := by
  induction n generalizing s c total with
  | zero =>
    cases h
    exact ⟨le_refl _,ht,rfl,.of_grow hs hc .refl,fun hlt => absurd hlt (by omega)⟩
  | succ n ih =>
    unfold writeLoop at h
    split at h
    · rename_i hlt
      obtain ⟨r,u,hg,h⟩ := bind_some.mp h
      have hgot := getDataBlock_some hs hc hg
      have hw0 : Wrote i (base + total) (base + total) (fun x => buf (x - base)) s u := .of_grow hs hc hgot.grow
      cases r with
      | error e =>
        cases h
        exact ⟨le_refl _,ht,rfl,hw0,fun _ => hgot.starved e rfl rfl⟩
      | ok b =>
        obtain ⟨hnz,hb,-⟩ := hgot.blk b rfl
        simp only [modifyDisk,modify_bind] at h
        obtain ⟨_,v,hr,h⟩ := bind_some.mp h
        have hq := release_quiet hr
        have hsub : v.supply ⊆ s.supply := by
          obtain ⟨-,rfl⟩ := release_some hr
          exact hgot.supply
        generalize hk : min (bdevBlkSize - (base + total) % bdevBlkSize) (count - total) = k at h hr hq
        have hk0 : 0 < k ∧ k ≤ count - total ∧ (base + total) % bdevBlkSize + k ≤ 512 := by
          simp only [bdevBlkSize] at hk ⊢
          omega
        have hau := (hw0.allocated i).mpr (hs.cached i c hc)
        have hf : (fun k => buf (total + k)) = fun k => (fun x => buf (x - base)) (base + total + k) := by
          funext k
          simp only
          rw [show base + total + k - base = total + k by omega]
        rw [hf] at hq
        have hwc : Wrote i (base + total) (base + total + k) (fun x => buf (x - base)) u v :=
          .chunk hw0.owned hau hb hnz hk0.2.2 hq.sb hq.disk hq.icache
        have hw := hw0.trans hwc (le_refl _) (by omega)
        obtain ⟨ad,d,hcv⟩ := hw.inode c hc
        rw [Nat.add_assoc] at h
        obtain ⟨h1,h2,rfl,h3,h4⟩ := ih hwc.owned hcv (by omega) (by omega) h
        rw [← Nat.add_assoc] at h3
        exact ⟨by omega,h2,rfl,hw.trans h3 (by omega) (by omega),fun hlt => (h4 hlt).before hsub⟩
    · rename_i hge
      cases h
      exact ⟨le_refl _,ht,rfl,.of_grow hs hc .refl,fun hlt => absurd hlt hge⟩

end WriteLoop

lemma writeData_some {buf : Memory} {count ofs n : Nat} (hs : Owned s) (hc : s.icache i = some c)
    (h : writeData i buf count ofs s = some (n,t)) : n ≤ count ∧ (n < count → Starved s t) ∧
      Owned t ∧ ∃ u ad d, Wrote i ofs (ofs + n) (fun x => buf (x - ofs)) s u ∧ Kept u t ∧
        t.icache = update u.icache i (some { c with
          iSize := if 0 < count ∧ c.iSize < ofs + n then ofs + n else c.iSize, iAddrs := ad, dirty := d }) := by
  unfold writeData at h
  obtain ⟨⟨total,ofs'⟩,u,hl,h⟩ := bind_some.mp h
  obtain ⟨-,h2,rfl,hw,hfail⟩ := writeLoop_some ofs hs hc (by omega) (Nat.zero_le _) hl
  obtain ⟨ad,d,hcu⟩ := hw.inode c hc
  obtain ⟨c',hcu',h⟩ := inode_bind.mp h
  cases hcu.symm.trans hcu'
  split at h
  · rename_i hbig
    rw [Bool.and_eq_true,decide_eq_true_eq,decide_eq_true_eq] at hbig
    simp only [setInode,modify_bind] at h
    obtain ⟨r,v,hwi,h⟩ := bind_some.mp h
    cases h
    have hset := hw.owned.setInode hcu (d := { c with iSize := ofs + n, iAddrs := ad, dirty := true }) rfl
    rw [if_pos hbig]
    rcases sfsWriteInode_some (update_self i _ u.icache) hwi with ⟨-,hq,-⟩ | hwr
    · refine ⟨h2,fun hlt => (hfail hlt).imp_right fun hf => hf.congr hq.sb hq.disk,hset.quiet hq,u,ad,true,hw,
        ⟨hq.sb,?_,?_,?_⟩,?_⟩
      · exact allocated_iff hq.sb fun k _ => by rw [hq.disk]
      · exact fun p _ _ => by rw [hq.disk]
      · exact fun x _ => by rw [hq.disk]
      · rw [hq.icache]
    · have hk := hwr.kept hset (update_self i _ u.icache)
      refine ⟨h2,fun hlt => (hfail hlt).imp_right fun hf => hwr.full (hw.owned.cached i _ hcu) hf,
        hwr.owned hset (update_self i _ u.icache),u,ad,false,hw,⟨hk.sb,hk.allocated,hk.slots,hk.data⟩,?_⟩
      rw [hwr.icache,Function.update_idem]
  · rename_i hsmall
    rw [Bool.and_eq_true,decide_eq_true_eq,decide_eq_true_eq] at hsmall
    cases h
    refine ⟨h2,hfail,hw.owned,t,ad,d,hw,⟨rfl,fun _ => Iff.rfl,fun _ _ _ => rfl,fun _ _ => rfl⟩,?_⟩
    rw [if_neg hsmall]
    exact (Function.update_eq_self_iff.mpr hcu.symm).symm

end MappedMemory.Sfs
