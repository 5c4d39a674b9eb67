import MappedMemory.Sfs.Records
import MappedMemory.Sfs.Runs

namespace MappedMemory.Sfs

open Function (update update_of_ne update_self)
open Bytes Naming

variable {s t u v : Fs} {i j k d o a inum mode n lo hi size : Nat} {c c1 : Inode} {name : List Byte} {ft : Ftype}
  {f : Nat → Byte} {e : Option (List Byte × Nat)}

instance (s : Fs) (i : Nat) : Decidable (Allocated s i) :=
  inferInstanceAs (Decidable (1 ≤ i ∧ i ≤ s.sb.sNumInodes ∧ inodeBit s.disk (i - 1) = true))

def dirRecords (s : Fs) (d : Nat) : Slots.Table (List Byte) Nat := records (content s.disk d) (Sfs.sizeOf s.disk d)

def tree (s : Fs) : Tree Nat (List Byte) where
  live := {d | Allocated s d}
  entries d := if Allocated s d then dirRecords s d else fun _ => none
  links d := if Allocated s d then nlinkOf s.disk d else 0

lemma tree_entries (ha : Allocated s d) : (tree s).entries d = dirRecords s d := if_pos ha

lemma tree_links (ha : Allocated s d) : (tree s).links d = nlinkOf s.disk d := if_pos ha

lemma tree_some {nm : List Byte} (h : (tree s).entries d k = some (nm,i)) :
    Allocated s d ∧ dirRecords s d k = some (nm,i) := by
  by_cases ha : Allocated s d
  · exact ⟨ha,by rwa [tree_entries ha] at h⟩
  · simp only [tree,if_neg ha] at h
    cases h

lemma tree_same (hal : ∀ j, Allocated t j ↔ Allocated s j) (hrec : ∀ j, Allocated s j → dirRecords t j = dirRecords s j)
    (hl : ∀ j, Allocated s j → nlinkOf t.disk j = nlinkOf s.disk j) : tree t = tree s := by
  refine Tree.ext (Set.ext hal) ?_ ?_ <;> funext j <;> by_cases hj : Allocated s j
  · rw [tree_entries hj,tree_entries ((hal j).mpr hj),hrec j hj]
  · simp only [tree,if_neg hj,if_neg (mt (hal j).mp hj)]
  · rw [tree_links hj,tree_links ((hal j).mpr hj),hl j hj]
  · simp only [tree,if_neg hj,if_neg (mt (hal j).mp hj)]

structure Shaped (s : Fs) (d : Nat) : Prop where
  aligned : Sfs.sizeOf s.disk d % 32 = 0
  mapped : ∀ y, y < Sfs.sizeOf s.disk d → blkAt s.disk d (y / bdevBlkSize) ≠ 0

structure Tidy (s : Fs) : Prop extends Sound s where
  root_dir : ftypeOf s.disk sfsRootInum = .dir
  coherent : Coherent s
  shaped : ∀ d, Allocated s d → Shaped s d

lemma Tidy.quiet (hs : Tidy s) (hq : Quiet s t) : Tidy t ∧ tree t = tree s := by
  refine ⟨⟨⟨hs.owned.quiet hq,(hq.allocated _).mpr hs.root⟩,hq.disk ▸ hs.root_dir,hs.coherent.quiet hq,fun d hd => ?_⟩,?_⟩
  · have hsh := hs.shaped d ((hq.allocated d).mp hd)
    exact ⟨by rw [hq.disk]; exact hsh.aligned,by rw [hq.disk]; exact hsh.mapped⟩
  · exact tree_same hq.allocated (fun j _ => by rw [dirRecords,dirRecords,hq.disk]) fun j _ => by rw [hq.disk]

lemma dirRecords_congr (hcon : ∀ x, content t.disk j x = content s.disk j x)
    (hsz : Sfs.sizeOf t.disk j = Sfs.sizeOf s.disk j) : dirRecords t j = dirRecords s j := by
  rw [dirRecords,dirRecords,funext hcon,hsz]

structure Heads (d n : Nat) (s t : Fs) : Prop where
  coherent : Coherent t
  others : ∀ j, Allocated s j → j ≠ d → SameHead s.disk t.disk j
  ftype : ftypeOf t.disk d = ftypeOf s.disk d
  nlink : nlinkOf t.disk d = nlinkOf s.disk d
  size : Sfs.sizeOf t.disk d = n

lemma Heads.nlink_eq (h : Heads d n s t) (ha : Allocated s j) : nlinkOf t.disk j = nlinkOf s.disk j := by
  by_cases hj : j = d
  · exact hj ▸ h.nlink
  · exact (h.others j ha hj).nlink

lemma Heads.ftype_eq (h : Heads d n s t) (ha : Allocated s j) : ftypeOf t.disk j = ftypeOf s.disk j := by
  by_cases hj : j = d
  · exact hj ▸ h.ftype
  · exact (h.others j ha hj).ftype

lemma Tidy.stored (hs : Tidy s) (hst : Stored d lo hi f s t) (hh : Heads d n s t) (hd : Allocated s d)
    (hrec : records (content t.disk d) n = update (dirRecords s d) a e) (hal : n % 32 = 0)
    (hcov : ∀ y, y < n → y < Sfs.sizeOf s.disk d ∨ lo ≤ y ∧ y < hi) : Tidy t ∧ tree t = (tree s).setEntry d a e := by
  have hother : ∀ j, Allocated s j → j ≠ d → dirRecords t j = dirRecords s j := fun j hj hjd =>
    dirRecords_congr (fun x => hst.others j x hj hjd) (hh.others j hj hjd).size
  refine ⟨⟨⟨hst.owned,(hst.allocated _).mpr hs.root⟩,(hh.ftype_eq hs.root).trans hs.root_dir,hh.coherent,
    fun j hj => ?_⟩,?_⟩
  · have hjs := (hst.allocated j).mp hj
    have hsh := hs.shaped j hjs
    by_cases hjd : j = d
    · subst hjd
      refine ⟨by rw [hh.size]; exact hal,fun y hy => ?_⟩
      rw [hh.size] at hy
      rcases hcov y hy with h | h
      · exact hst.mapped _ (hsh.mapped y h)
      · exact hst.covered y h.1 h.2
    · have hsz := (hh.others j hjs hjd).size
      refine ⟨by rw [hsz]; exact hsh.aligned,fun y hy => ?_⟩
      rw [hst.blks j _ hjs hjd]
      exact hsh.mapped y (by rwa [hsz] at hy)
  · refine Tree.ext (Set.ext hst.allocated) (funext fun j => ?_) (funext fun j => ?_)
    · by_cases hjd : j = d
      · subst hjd
        simp only [Tree.setEntry,update_self]
        rw [tree_entries hd,tree_entries ((hst.allocated j).mpr hd),dirRecords,hh.size,hrec]
      · simp only [Tree.setEntry,update_of_ne hjd]
        by_cases hj : Allocated s j
        · rw [tree_entries hj,tree_entries ((hst.allocated j).mpr hj),hother j hj hjd]
        · simp only [tree,if_neg hj,if_neg (mt (hst.allocated j).mp hj)]
    · change (tree t).links j = (tree s).links j
      by_cases hj : Allocated s j
      · rw [tree_links hj,tree_links ((hst.allocated j).mpr hj),hh.nlink_eq hj]
      · simp only [tree,if_neg hj,if_neg (mt (hst.allocated j).mp hj)]

lemma Tidy.grow (hs : Tidy s) (h : Grow d s t) : Tidy t ∧ tree t = tree s := by
  obtain ⟨ho,hext⟩ := hs.owned.grow h
  obtain ⟨hco,hsame⟩ := hs.coherent.grow hs.owned h
  refine ⟨⟨⟨ho,(hext.allocated _).mpr hs.root⟩,(hsame _ hs.root).ftype.trans hs.root_dir,hco,fun j hj => ?_⟩,tree_same hext.allocated
    (fun j hj => dirRecords_congr (fun x => hext.content j x hj) (hsame j hj).size) fun j hj => (hsame j hj).nlink⟩
  have hjs := (hext.allocated j).mp hj
  have hsh := hs.shaped j hjs
  refine ⟨by rw [(hsame j hjs).size]; exact hsh.aligned,fun y hy => ?_⟩
  rw [(hsame j hjs).size] at hy
  rw [hext.blkAt hjs (hsh.mapped y hy)]
  exact hsh.mapped y hy

def Behind (s : Fs) (d size : Nat) (name : List Byte) : Prop :=
  ∀ o, FirstFree (content s.disk d) size o → (beforeNul name).length < sfsDirentNamelen →
    if o % 512 = 480 then s.disk (512 * (blkAt s.disk d (o / bdevBlkSize) + 1)) = 0
    else content s.disk d (o + 32) = 0

lemma Stored.quiet (h : Stored d lo hi f s t) (hq : Quiet t u) : Stored d lo hi f s u where
  owned := h.owned.quiet hq
  sb := hq.sb.trans h.sb
  allocated j := (hq.allocated j).trans (h.allocated j)
  own := hq.disk ▸ h.own
  others := hq.disk ▸ h.others
  mapped := hq.disk ▸ h.mapped
  covered := hq.disk ▸ h.covered
  blks := hq.disk ▸ h.blks

section Added

variable {w : Fs} (h : Added d inum name c s t o u w c1) (hs : Owned s) (hc : s.icache d = some c)

include h hs

lemma Added.used : Used w (blkAt w.disk d (o / bdevBlkSize)) := by
  obtain ⟨-,hw,ha⟩ := h.owned_resized hs
  exact hw.used_blkAt ha h.blk

lemma Added.lowSame : LowSame w t := ⟨h.sb,fun x hx => by
  have := dataAt_le (h.used hs).1
  rw [h.disk]
  exact fill_outside (.inl (by simp only [bdevBlkSize] at this ⊢; omega))⟩

include hc

lemma Added.extended : Stored d o o f s w := by
  obtain ⟨hu,hw,-⟩ := h.owned_resized hs
  exact (Wrote.of_grow hs hc h.grow).toStored.trans (h.resized.kept.stored hu hw (hu.cached d c1 h.cached))
    (le_refl _) (le_refl _)

lemma Added.stored (hb : Behind s d c.iSize name) :
    Stored d o (o + 32) (fun x => direntBytes inum (beforeNul name) (x - o)) s t := by
  refine (h.extended hs hc).trans ?_ (le_refl _) (Nat.le_add_right _ _)
  have hext : Stored d o o (fun _ => 0) s w := h.extended hs hc
  by_cases hsp : Spills o name
  · obtain ⟨x,hx,-,hsame,hsb,hic,hd⟩ := h.spilled hs hsp
    refine hx.toStored.quiet ⟨hsb,?_,hic⟩
    have hq := h.present fun p hp => h.free.present (by have := hsp.1; omega) hp
    have hk := h.resized.kept
    have hu := (h.owned_resized hs).1
    have hblk : blkAt w.disk d (o / bdevBlkSize) = blkAt s.disk d (o / bdevBlkSize) := by
      rw [hk.blkAt (hu.cached d c1 h.cached),hq.disk]
    have hdata : dataAt w.sb ≤ 512 * (blkAt w.disk d (o / bdevBlkSize) + 1) :=
      dataAt_le (Nat.le_succ_of_le (h.used hs).1)
    have hzero := hb o h.free hsp.2
    rw [if_pos hsp.1,← hblk] at hzero
    rw [hd]
    funext y
    by_cases hy : y = 512 * (blkAt w.disk d (o / bdevBlkSize) + 1)
    · subst hy
      rw [poke_same,hsame _ (le_refl _),hk.data _ (by rw [← hk.sb]; exact hdata),hq.disk,hzero]
    · exact poke_other hy
  · have hw := (h.wrote hs hsp).toStored
    have hspan : o + 32 ≤ o + direntSpan name := by
      rw [direntSpan_eq]
      split <;> omega
    refine { hw with own := fun x => ?_, covered := fun x h1 h2 => hw.covered x h1 (by omega) }
    rw [hw.own]
    by_cases hx : o ≤ x ∧ x < o + 32
    · rw [if_pos ⟨hx.1,by omega⟩,if_pos hx]
    · rw [if_neg hx]
      split
      · rename_i hin
        rw [direntSpan_eq] at hin
        by_cases hlen : (beforeNul name).length < 28
        · rw [if_pos hlen] at hin
          obtain rfl : x = o + 32 := by omega
          have hzero := hb o h.free hlen
          rw [if_neg fun h480 => hsp ⟨h480,hlen⟩] at hzero
          rw [hext.own,if_neg (by omega),hzero,Nat.add_sub_cancel_left,direntBytes,if_neg (by omega),
            if_neg (by simp [sfsDirentNamelen]),cstr,List.getD_eq_default _ _ (by omega)]
        · rw [if_neg hlen] at hin
          omega
      · rfl

lemma Added.heads (hco : Coherent s) : Heads d (newSize (Sfs.sizeOf s.disk d) o) s t := by
  obtain ⟨hu,hw,-⟩ := h.owned_resized hs
  have hext := (hs.grow h.grow).2
  have hd := hs.cached d c hc
  obtain ⟨hcou,hsame⟩ := hco.grow hs h.grow
  obtain ⟨hcow,hother,hft,hnl,hsz⟩ := h.resized.head hu hcou h.cached h.free.bound
  have hau : ∀ j, Allocated s j → Allocated u j := fun j => (hext.allocated j).mpr
  have haw : ∀ j, Allocated u j → Allocated w j := fun j => (h.resized.kept.allocated j).mpr
  have hlow : ∀ j, Allocated w j → SameHead w.disk t.disk j := fun j => (h.lowSame hs).sameHead
  have hdw := hlow d (haw d (hau d hd))
  refine ⟨hcow.of_same hw h.icache hlow,fun j hj hjd => ?_,?_,?_,?_⟩
  · exact ((hsame j hj).trans (hother j (hau j hj) hjd)).trans (hlow j (haw j (hau j hj)))
  · rw [hdw.ftype,hft,(hsame d hd).ftype]
  · rw [hdw.nlink,hnl,(hsame d hd).nlink]
  · rw [hdw.size,hsz,(hsame d hd).size]

end Added

lemma Tidy.added {w : Fs} (hs : Tidy s) (hc : s.icache d = some c) (h : Added d inum name c s t o u w c1)
    (hb : Behind s d c.iSize name) (hi : inum ≠ 0) (hlt : inum < 2^32) : (tree s).entries d (o / 32) = none ∧ Tidy t ∧
      tree t = (tree s).setEntry d (o / 32) (some (storedName name,inum)) := by
  have hd := hs.owned.cached d c hc
  have hst := h.stored hs.owned hc hb
  have hsize := (hs.coherent d c hc).size
  have hfree := hsize ▸ h.free
  have hal := (hs.shaped d hd).aligned
  have ho := hfree.aligned
  have hle := hfree.le_size hal
  refine ⟨by rw [tree_entries hd]; exact hfree.slot,hs.stored hst (h.heads hs.owned hc hs.coherent) hd
    (records_put hfree hal hi hlt hst.own) ?_ fun y hy => ?_⟩
  · unfold newSize sizeofSfsDirent
    split <;> omega
  · unfold newSize sizeofSfsDirent at hy
    split at hy <;> omega

lemma Removed.lowSame (h : Removed d name size s t o) (hs : Owned s) (hd : Allocated s d) : LowSame s t := by
  refine ⟨h.sb,fun x hx => ?_⟩
  have := dataAt_le (hs.used_blkAt hd h.blk).1
  rw [h.disk]
  exact fill_outside (.inl (by simp only [bdevBlkSize] at this ⊢; omega))

lemma Tidy.removed (hs : Tidy s) (hd : Allocated s d) (h : Removed d name size s t o) :
    Tidy t ∧ tree t = (tree s).setEntry d (o / 32) none := by
  have hlow := h.lowSame hs.owned hd
  have hw := h.wrote hs.owned hd
  have hheads : Heads d (Sfs.sizeOf s.disk d) s t :=
    ⟨hs.coherent.of_same hs.owned h.icache fun j => hlow.sameHead,fun j hj _ => hlow.sameHead hj,
      (hlow.sameHead hd).ftype,(hlow.sameHead hd).nlink,(hlow.sameHead hd).size⟩
  exact hs.stored hw.toStored hheads hd (records_clear h.at_match.aligned hw.own) (hs.shaped d hd).aligned
    fun y hy => .inl hy

lemma Tidy.relinked (hs : Tidy s) (h : Relinked s t i n) : Tidy t ∧ tree t = (tree s).relink i (n % 2^16) := by
  obtain ⟨c,hc,-,-⟩ := h.inode
  have ht := hs.owned.relinked h
  have hset := hs.owned.setInode hc (d := { c with iNlink := n, dirty := true }) rfl
  have hkept := (h.written hc).kept hset (update_self i _ s.icache)
  have hk : Kept s t := ⟨hkept.sb,hkept.allocated,hkept.slots,hkept.data⟩
  obtain ⟨hco,hother,hft,hnl,hsz⟩ := h.head hs.owned hs.coherent
  have hi := hs.owned.cached i c hc
  have hsize : ∀ j, Allocated s j → Sfs.sizeOf t.disk j = Sfs.sizeOf s.disk j := fun j hj => by
    by_cases hji : j = i
    · exact hji ▸ hsz
    · exact (hother j hj hji).size
  have hroot : ftypeOf t.disk sfsRootInum = ftypeOf s.disk sfsRootInum := by
    by_cases hri : sfsRootInum = i
    · rw [hri,hft]
    · exact (hother _ hs.root hri).ftype
  refine ⟨⟨⟨ht,(hk.allocated _).mpr hs.root⟩,hroot.trans hs.root_dir,hco,fun j hj => ?_⟩,Tree.ext (Set.ext hk.allocated) ?_ ?_⟩
  · have hjs := (hk.allocated j).mp hj
    have hsh := hs.shaped j hjs
    refine ⟨by rw [hsize j hjs]; exact hsh.aligned,fun y hy => ?_⟩
    rw [hk.blkAt hjs]
    exact hsh.mapped y (by rwa [hsize j hjs] at hy)
  · funext j
    change (tree t).entries j = (tree s).entries j
    by_cases hj : Allocated s j
    · rw [tree_entries hj,tree_entries ((hk.allocated j).mpr hj),
        dirRecords_congr (fun x => hk.content hs.owned hj) (hsize j hj)]
    · simp only [tree,if_neg hj,if_neg (mt (hk.allocated j).mp hj)]
  · funext j
    by_cases hji : j = i
    · subst hji
      simp only [Tree.relink,update_self]
      rw [tree_links ((hk.allocated j).mpr hi),hnl]
    · simp only [Tree.relink,update_of_ne hji]
      by_cases hj : Allocated s j
      · rw [tree_links hj,tree_links ((hk.allocated j).mpr hj),(hother j hj hji).nlink]
      · simp only [tree,if_neg hj,if_neg (mt (hk.allocated j).mp hj)]

lemma RowChange.dirRecords (h : RowChange s t inum) (hs : Owned s) (hj : Allocated s j) (hne : j ≠ inum) :
    dirRecords t j = dirRecords s j :=
  dirRecords_congr (fun _ => h.content hs hj hne) (h.sameHead hj.1 hne).size

lemma RowChange.shaped (h : RowChange s t inum) (hs : Owned s) (hj : Allocated s j) (hne : j ≠ inum)
    (hsh : Shaped s j) : Shaped t j := by
  have hsz := (h.sameHead hj.1 hne).size
  refine ⟨by rw [hsz]; exact hsh.aligned,fun y hy => ?_⟩
  rw [blkAt_of_slots fun p hp hb => h.slotVal hs (by rwa [hp]) (by rwa [hp]) hb]
  exact hsh.mapped y (by rwa [hsz] at hy)

lemma Tidy.born (hs : Tidy s) (h : NewInode s t inum ft mode) : Tidy t ∧ tree t = (tree s).birth inum := by
  have hch := h.change
  have hne : ∀ j, Allocated s j → j ≠ inum := fun j hj he => h.not_allocated (he ▸ hj)
  have hsize : Sfs.sizeOf t.disk inum = 0 := by
    rw [h.disk,sizeOf_putInode]
    rfl
  refine ⟨⟨⟨h.owned hs.owned,(h.allocated_iff _).mpr (.inr hs.root)⟩,
    (hch.sameHead hs.root.1 (hne _ hs.root)).ftype.trans hs.root_dir,
    hs.coherent.change hs.owned hch (h.not_cached hs.owned),fun j hj => ?_⟩,Tree.ext (Set.ext h.allocated_iff) ?_ ?_⟩
  · rcases (h.allocated_iff j).mp hj with rfl | hjs
    · exact ⟨by rw [hsize],fun y hy => absurd hy (by rw [hsize]; exact Nat.not_lt_zero y)⟩
    · exact hch.shaped hs.owned hjs (hne j hjs) (hs.shaped j hjs)
  · funext j
    change (tree t).entries j = (tree s).entries j
    by_cases hj : Allocated s j
    · rw [tree_entries hj,tree_entries ((h.allocated_iff j).mpr (.inr hj)),hch.dirRecords hs.owned hj (hne j hj)]
    · simp only [tree,if_neg hj]
      split
      · rename_i hjt
        obtain rfl := ((h.allocated_iff j).mp hjt).resolve_right hj
        funext k
        rw [dirRecords,hsize,records,if_neg fun h => absurd h.1 (Nat.not_lt_zero _)]
      · rfl
  · funext j
    by_cases hji : j = inum
    · subst hji
      simp only [Tree.birth,update_self]
      rw [tree_links ((h.allocated_iff j).mpr (.inl rfl)),h.disk,nlinkOf_putInode]
      rfl
    · simp only [Tree.birth,update_of_ne hji,tree,hch.allocated hji]
      split
      · rename_i hj
        exact (hch.sameHead hj.1 hji).nlink
      · rfl

lemma Tidy.undone (hs : Tidy s) (hc : s.icache d = some c) (new : NewInode s u inum ft mode) (grow : Grow d u v)
    (freed : FreedInode v t inum) : Tidy t ∧ tree t = tree s := by
  have hd := hs.owned.cached d c hc
  have hne : ∀ j, Allocated s j → j ≠ inum := fun j hj he => new.not_allocated (he ▸ hj)
  obtain ⟨hu,htu⟩ := hs.born new
  obtain ⟨hv,htv⟩ := hu.grow grow
  have hext := (hu.owned.grow grow).2
  have hupper : inum ≤ v.sb.sNumInodes := by rw [hext.sb,new.sb]; exact new.upper
  have hch := freed.change new.lower hupper
  have hau : ∀ j, Allocated s j → Allocated u j := fun j hj => (new.allocated_iff j).mpr (.inr hj)
  have hav : ∀ j, Allocated s j → Allocated v j := fun j hj => (hext.allocated j).mpr (hau j hj)
  have hal : ∀ j, Allocated t j ↔ Allocated s j := fun j => by
    by_cases hj : j = inum
    · subst hj
      refine ⟨fun ha => ?_,fun ha => absurd ha new.not_allocated⟩
      have := ha.2.2
      rw [freed.bit_freed] at this
      cases this
    · rw [hch.allocated hj,hext.allocated,new.change.allocated hj]
  have hnc : v.icache inum = none := by
    rw [hext.icache inum (hne d hd).symm,new.icache]
    exact new.not_cached hs.owned
  have hz : ∀ k, k < 14 → addrOf v.disk inum k = 0 := fun k hk =>
    (hext.others (.addr inum k) ((new.allocated_iff inum).mpr (.inl rfl)) hk (hne d hd).symm).trans (new.addrOf hk)
  have hrec : ∀ j, Allocated s j → dirRecords t j = dirRecords s j := fun j hj => by
    have hjv := congrFun (congrArg Tree.entries htv) j
    have hju := congrFun (congrArg Tree.entries htu) j
    rw [hch.dirRecords hv.owned (hav j hj) (hne j hj),← tree_entries (hav j hj),hjv,hju,← tree_entries hj]
    rfl
  have hlink : ∀ j, Allocated s j → nlinkOf t.disk j = nlinkOf s.disk j := fun j hj => by
    have hjv := congrFun (congrArg Tree.links htv) j
    have hju := congrFun (congrArg Tree.links htu) j
    rw [(hch.sameHead hj.1 (hne j hj)).nlink,← tree_links (hav j hj),hjv,hju,← tree_links hj]
    exact update_of_ne (hne j hj) _ _
  refine ⟨⟨⟨freed.owned hv.owned new.lower hupper hnc hz,(hal _).mpr hs.root⟩,
    (hch.sameHead hs.root.1 (hne _ hs.root)).ftype.trans hv.root_dir,hv.coherent.change hv.owned hch hnc,
    fun j hj => ?_⟩,tree_same hal hrec hlink⟩
  have hjs := (hal j).mp hj
  exact hch.shaped hv.owned (hav j hjs) (hne j hjs) (hv.shaped j (hav j hjs))

lemma tree_of_disk (hsb : t.sb = s.sb) (hd : t.disk = s.disk) : tree t = tree s :=
  tree_same (fun j => by rw [Allocated,Allocated,hsb,hd]) (fun j _ => by rw [dirRecords,dirRecords,hd])
    fun j _ => by rw [hd]

lemma Tidy.same_disk (hs : Tidy s) (hsound : Sound t) (hco : Coherent t) (hsb : t.sb = s.sb)
    (hd : t.disk = s.disk) : Tidy t ∧ tree t = tree s := by
  refine ⟨⟨hsound,hd ▸ hs.root_dir,hco,fun j hj => ?_⟩,tree_of_disk hsb hd⟩
  rw [Allocated,hsb,hd] at hj
  have hsh := hs.shaped j hj
  exact ⟨by rw [hd]; exact hsh.aligned,by rw [hd]; exact hsh.mapped⟩

lemma Tidy.opened (hs : Tidy s) (h : Opened s t i c) (ha : Allocated s i) : Tidy t ∧ tree t = tree s :=
  hs.same_disk (h.sound hs.toSound ha) (hs.coherent.opened h) h.sb h.disk

lemma Tidy.released (hs : Tidy s) (h : Released s t i) : Tidy t ∧ tree t = tree s :=
  hs.same_disk (h.sound hs.toSound) (hs.coherent.released h) h.sb h.disk

lemma NewInode.behind (h : NewInode s t inum ft mode) (hs : Owned s) (hd : Allocated s d)
    (hb : Behind s d size name) : Behind t d size name := by
  have hne : d ≠ inum := fun he => h.not_allocated (he ▸ hd)
  have hcon : content t.disk d = content s.disk d := funext fun x => h.change.content hs hd hne
  have hblk : ∀ idx, blkAt t.disk d idx = blkAt s.disk d idx := fun idx =>
    blkAt_of_slots fun p hp hb => h.change.slotVal hs (by rwa [hp]) (by rwa [hp]) hb
  intro o hfree hlen
  rw [hcon] at hfree ⊢
  have hz := hb o hfree hlen
  split at hz
  · rename_i h480
    have hused := hs.used_blkAt hd (hfree.present (p := o) (by omega) (le_refl _))
    rw [if_pos h480,hblk,h.change.data (dataAt_le (Nat.le_succ_of_le hused.1)),hz]
  · rename_i h480
    rw [if_neg h480,hz]

end MappedMemory.Sfs
