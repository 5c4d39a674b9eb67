import MappedMemory.Sfs.Packing

namespace MappedMemory.Mkfs

open Function (update update_idem update_self)
open Nat (add_assoc le_add_right mod_lt zero_add)
open Bytes Routine Sfs

variable {img img' : Image} {m m' : Memory} {a b i j k l n ofs : Nat} {f : Nat → Byte} {x x' y : SfsInode}
  {O : Memory → Memory} {ic : Nat → Option Inode} {x2 : SfsInode} {img2 : Image} {z : Nat} {s : Fs}

lemma dataStartBlk_eq : dataStartBlk = 324 := by decide

lemma bmapStartBlk_eq : bmapStartBlk = 36 := by decide

structure Overlay (O : Memory → Memory) : Prop where
  outside : ∀ m z, z < 2048 ∨ 18432 ≤ z → O m z = m z
  inside : ∀ m m' z, (∀ y, 2048 ≤ y → y < 18432 → m y = m' y) → 2048 ≤ z → z < 18432 → O m z = O m' z

lemma Overlay.id : Overlay fun m => m := ⟨fun _ _ _ => rfl,fun _ _ z h h1 h2 => h z h1 h2⟩

lemma Overlay.put (h1 : 1 ≤ i) (h2 : i ≤ 256) : Overlay fun m => x.put m i := by
  have ha := inodeAddr_eq i
  refine ⟨fun m z hz => putInode_outside (by omega),fun m m' z h hz1 hz2 => ?_⟩
  simp only [SfsInode.put,putInode]
  by_cases hz : inodeAddr i ≤ z ∧ z < inodeAddr i + sizeofSfsInode
  · rw [fill_inside hz.1 hz.2,fill_inside hz.1 hz.2]
  · rw [fill_outside (by omega),fill_outside (by omega),h z hz1 hz2]

lemma Overlay.fill (h : Overlay O) (ha : a + n ≤ 2048 ∨ 18432 ≤ a) : O (fill m a n f) = fill (O m) a n f := by
  funext z
  by_cases hz : a ≤ z ∧ z < a + n
  · rw [h.outside _ z (by omega),fill_inside hz.1 hz.2,fill_inside hz.1 hz.2]
  · rw [fill_outside (by omega)]
    by_cases ht : 2048 ≤ z ∧ z < 18432
    · exact h.inside _ _ z (fun y h1 h2 => fill_outside (by omega)) ht.1 ht.2
    · rw [h.outside _ z (by omega),h.outside _ z (by omega),fill_outside (by omega)]

lemma poke_eq_fill {v : Byte} : poke m a v = Bytes.fill m a 1 fun _ => v := by
  funext z
  by_cases hz : z = a
  · subst hz
    rw [poke_same,fill_inside (le_refl z) (Nat.lt_succ_self z)]
  · rw [poke_other hz,fill_outside (by omega)]

lemma Overlay.setBit (h : Overlay O) (ha : a + i / 8 < 2048 ∨ 18432 ≤ a + i / 8) :
    O (setBit m a i) = setBit (O m) a i := by
  rw [Bytes.setBit,Bytes.setBit,h.outside m _ ha,poke_eq_fill,poke_eq_fill,h.fill (by omega)]

lemma Overlay.takeBlk (h : Overlay O) (hb : dataStartBlk ≤ b) : O (takeBlk mkfsSb m b) = takeBlk mkfsSb (O m) b := by
  have hlow : 18432 ≤ bdevBlkSize * b := by
    rw [dataStartBlk_eq] at hb
    simp only [bdevBlkSize]
    omega
  have hbit : 18432 ≤ bdevBlkSize * mkfsSb.sDataBmapStart + (b - mkfsSb.sDataStart) / 8 := le_add_right 18432 _
  rw [Sfs.takeBlk,h.fill (.inr hlow),h.setBit (.inr hbit),Sfs.takeBlk]

def SfsInode.loaded (x : SfsInode) : Inode :=
  { iRef := 1, iNlink := x.iNlink, iFtype := x.iFtype, iMode := x.iMode, iSize := x.iSize, iAddrs := x.iAddrs,
    dirty := false }

def view (O : Memory → Memory) (ic : Nat → Option Inode) (i : Nat) (x : SfsInode) (m : Memory) : Fs :=
  { sb := mkfsSb, disk := x.put (O m) i, icache := update ic i (some x.loaded), held := [], supply := [] }

lemma view_cached : (view O ic i x m).icache i = some x.loaded := update_self _ _ _

lemma put_put : x.put (y.put m i) i = x.put m i := by
  funext z
  simp only [SfsInode.put,putInode,Bytes.fill]
  split <;> rfl

lemma view_bounds (h : Owned (view O ic i x m)) : 1 ≤ i ∧ i ≤ 256 := by
  have ha := h.cached i _ view_cached
  exact ⟨ha.1,ha.2.1⟩

section
variable (hO : Overlay O) (h : Owned (view O ic i x m))
include hO h

lemma view_overlay : Overlay fun m => x.put (O m) i := by
  obtain ⟨h1,h2⟩ := view_bounds h
  have hp := Overlay.put (x := x) h1 h2
  exact ⟨fun m z hz => (hp.outside _ z hz).trans (hO.outside m z hz),
    fun m m' z hm => hp.inside _ _ z fun y hy1 hy2 => hO.inside m m' y hm hy1 hy2⟩

lemma view_packed (hp : Packed m n) : Packed (view O ic i x m).disk n := by
  refine ⟨hp.le,fun k hk => ?_⟩
  rw [← hp.bits k hk]
  exact bit_congr ((view_overlay hO h).outside m _ (.inr (le_add_right 18432 _)))

lemma view_room (hp : Packed m n) : n + 1 < fsSize := by
  have := (view_packed hO h hp).room h rfl
  simp only [fsSize]
  omega

lemma view_spare (hp : Packed m n) : Spare (view O ic i x m) (dataStartBlk + n) := by
  have hroom := view_room hO h hp
  refine ⟨le_add_right _ _,?_,?_⟩
  · change dataStartBlk + n < dataStartBlk + fsSize
    omega
  · change dataBit mkfsSb (view O ic i x m).disk (dataStartBlk + n - dataStartBlk) = false
    rw [Nat.add_sub_cancel_left,(view_packed hO h hp).bits n (by omega)]
    simp

end

structure Ready (O : Memory → Memory) (ic : Nat → Option Inode) (i : Nat) (x : SfsInode) (img : Image) : Prop where
  overlay : Overlay O
  owned : Owned (view O ic i x img.fs)
  packed : ∃ n, Packed img.fs n

structure Grown (O : Memory → Memory) (ic : Nat → Option Inode) (i : Nat) (x : SfsInode) (img : Image) (x' : SfsInode)
    (img' : Image) : Prop where
  grow : Grow i (view O ic i x img.fs) (view O ic i x' img'.fs)
  packed : ∃ n, Packed img'.fs n
  bmap : img'.inodeBmap = img.inodeBmap
  fields : ∃ ad, x' = { x with iAddrs := ad }
  low : ∀ z, z < 18432 → img'.fs z = img.fs z

lemma Grown.refl (h : Ready O ic i x img) : Grown O ic i x img x img :=
  ⟨.refl,h.packed,rfl,⟨x.iAddrs,rfl⟩,fun _ _ => rfl⟩

lemma Grown.ready (h : Grown O ic i x img x' img') (hr : Ready O ic i x img) : Ready O ic i x' img' :=
  ⟨hr.overlay,(hr.owned.grow h.grow).1,h.packed⟩

lemma Grown.trans (h : Grown O ic i x img x' img')
    (h' : Grown O ic i x' img' x2 img2) : Grown O ic i x img x2 img2 where
  grow := h.grow.trans h'.grow
  packed := h'.packed
  bmap := h'.bmap.trans h.bmap
  fields := by
    obtain ⟨ad,rfl⟩ := h.fields
    obtain ⟨ad',rfl⟩ := h'.fields
    exact ⟨ad',rfl⟩
  low z hz := (h'.low z hz).trans (h.low z hz)

lemma takeBlk_table (hb : dataStartBlk ≤ b) (hz : z < 18432) : takeBlk mkfsSb m b z = m z :=
  takeBlk_low (g := mkfsSb) hb (by rw [dataAt_eq]; simp only [mkfsSb,dataStartBlk_eq]; omega)
    (by simp only [mkfsSb,bmapStartBlk_eq]; omega)

lemma addrSlot_view (hr : Ready O ic i x img) (hk : k < 14) :
    ∃ x' img', addrSlot x k img = some ((x'.iAddrs k,x'),img') ∧ x'.iAddrs k ≠ 0 ∧ Grown O ic i x img x' img' := by
  obtain ⟨n,hp⟩ := hr.packed
  unfold addrSlot
  split
  · rename_i hnz
    exact ⟨x,img,rfl,hnz,.refl hr⟩
  · rename_i hz
    have hroom := view_room hr.overlay hr.owned hp
    have hsp := view_spare hr.overlay hr.owned hp
    have hlow : dataStartBlk ≤ dataStartBlk + n := le_add_right _ _
    rw [bind_of_some (allocDataBlock_eq hp (by omega))]
    refine ⟨{ x with iAddrs := update x.iAddrs k (dataStartBlk + n) },
      { img with fs := takeBlk mkfsSb img.fs (dataStartBlk + n) },?_,?_,?_⟩
    · simp only [update_self]
      rfl
    · simp only [update_self]
      exact hsp.ne_zero
    · refine ⟨.single (.addr k (dataStartBlk + n) x.loaded hsp hk view_cached (not_not.mp hz) rfl ?_ ?_),
        ⟨n + 1,hp.take (by omega)⟩,rfl,⟨_,rfl⟩,fun z hz => takeBlk_table hlow hz⟩
      · simp only [view]
        rw [hr.overlay.takeBlk hlow,← (Overlay.put (x := x) (view_bounds hr.owned).1 (view_bounds hr.owned).2).takeBlk hlow]
        exact put_put.symm
      · simp only [view,update_idem]
        rfl

lemma view_data (hr : Ready O ic i x img) (hz : 18432 ≤ z) : (view O ic i x img.fs).disk z = img.fs z :=
  (view_overlay hr.overlay hr.owned).outside img.fs z (.inr hz)

lemma view_word {c : Nat} (hr : Ready O ic i x img) (hz : 18432 ≤ a) :
    word (view O ic i x img.fs).disk a c = word img.fs a c :=
  word_congr fun z h1 _ => view_data hr (by omega)

lemma used_low (hs : Used s b) (hsb : s.sb = mkfsSb) : 324 ≤ b := by
  have := hs.1
  rw [hsb] at this
  exact this

lemma entrySlot_view (hr : Ready O ic i x img) (hk : 12 ≤ k ∧ k < 14) (hl : l < 128) (hnz : x.iAddrs k ≠ 0) :
    ∃ b img', entrySlot (x.iAddrs k) l img = some (b,img') ∧ b ≠ 0 ∧ Grown O ic i x img x img' ∧
      slotVal (view O ic i x img'.fs).disk (.entry i k l) = b := by
  obtain ⟨n,hp⟩ := hr.packed
  have ha := hr.owned.cached i _ view_cached
  have haddr : x.iAddrs k = addrOf (view O ic i x img.fs).disk i k := hr.owned.addrs i _ view_cached k hk.2
  have hbound : (Slot.entry i k l).Bounded := ⟨hk.1,hk.2,hl⟩
  have hused : Used (view O ic i x img.fs) (x.iAddrs k) := by
    rw [haddr]
    exact hr.owned.used (p := .addr i k) ha hk.2 (by simpa only [slotVal,← haddr] using hnz)
  have hlow := used_low hused rfl
  have hval : slotVal (view O ic i x img.fs).disk (.entry i k l) = word img.fs (bdevBlkSize * x.iAddrs k + 4 * l) 4 := by
    rw [slotVal,← haddr,if_neg hnz,view_word hr (by simp only [bdevBlkSize]; omega)]
  have hread : word (fun z => img.fs (bdevBlkSize * x.iAddrs k + z)) (4 * l) 4 =
      word img.fs (bdevBlkSize * x.iAddrs k + 4 * l) 4 := word_shift_congr fun z _ => by rw [add_assoc]
  unfold entrySlot
  rw [readBlk,bind_assoc,get_bind]
  simp only [pure_bind,hread]
  split
  · rename_i hex
    exact ⟨_,img,rfl,hex,.refl hr,hval⟩
  · rename_i hz
    have hroom := view_room hr.overlay hr.owned hp
    have hsp := view_spare hr.overlay hr.owned hp
    have hblk : dataStartBlk ≤ dataStartBlk + n := le_add_right _ _
    have hne : x.iAddrs k ≠ dataStartBlk + n := fun he => hsp.not_used (he ▸ hused)
    rw [bind_of_some (allocDataBlock_eq hp (by omega)),writeBlk,modify_bind]
    have hold : ∀ z, z < 512 → takeBlk mkfsSb img.fs (dataStartBlk + n) (bdevBlkSize * x.iAddrs k + z) =
        img.fs (bdevBlkSize * x.iAddrs k + z) := fun z hz => by
      refine takeBlk_data (g := mkfsSb) hsp.upper hsp.lower ?_ ?_
      · rw [dataAt_eq]
        simp only [mkfsSb,dataStartBlk_eq,bdevBlkSize]
        omega
      · simp only [bdevBlkSize]
        omega
    obtain ⟨m',hm'⟩ : ∃ m', m' = putWord (takeBlk mkfsSb img.fs (dataStartBlk + n)) (bdevBlkSize * x.iAddrs k + 4 * l) 4
      (dataStartBlk + n) := ⟨_,rfl⟩
    have hfs : fill (takeBlk mkfsSb img.fs (dataStartBlk + n)) (bdevBlkSize * x.iAddrs k) bdevBlkSize
        (putWord (fun z => img.fs (bdevBlkSize * x.iAddrs k + z)) (4 * l) 4 (dataStartBlk + n)) = m' := by
      have hpart := fill_part (m := takeBlk mkfsSb img.fs (dataStartBlk + n)) (a := bdevBlkSize * x.iAddrs k)
        (b := 4 * l) (l := 4) (n := bdevBlkSize) (f := byteOf (dataStartBlk + n)) (by simp only [bdevBlkSize]; omega)
      rw [hm']
      refine Eq.trans (fill_congr fun z hz => ?_) hpart
      simp only [putWord,fill]
      split
      · rfl
      · exact (hold z hz).symm
    have hdisk : (view O ic i x m').disk = putWord (takeBlk mkfsSb (view O ic i x img.fs).disk (dataStartBlk + n))
        (bdevBlkSize * x.iAddrs k + 4 * l) 4 (dataStartBlk + n) := by
      have hov := view_overlay hr.overlay hr.owned
      have h1 := hov.fill (m := takeBlk mkfsSb img.fs (dataStartBlk + n)) (a := bdevBlkSize * x.iAddrs k + 4 * l) (n := 4)
        (f := byteOf (dataStartBlk + n)) (.inr (by simp only [bdevBlkSize]; omega))
      rw [hm']
      exact h1.trans (by rw [hov.takeBlk hblk]; rfl)
    have hstep : Assign i (view O ic i x img.fs) (view O ic i x m') :=
      .entry k l (dataStartBlk + n) x.loaded hsp hbound view_cached hnz
        (by rw [← hval,slotVal,← haddr,if_neg hnz] at hz; exact not_not.mp hz) rfl hdisk rfl
    have hown := (hr.owned.assign hstep).1
    have haddr' : x.iAddrs k = addrOf (view O ic i x m').disk i k := hown.addrs i _ view_cached k hk.2
    refine ⟨dataStartBlk + n,⟨m',img.inodeBmap⟩,?_,hsp.ne_zero,⟨.single hstep,⟨n + 1,?_⟩,rfl,⟨x.iAddrs,rfl⟩,
      fun z hz => ?_⟩,?_⟩
    · rw [hfs]
      rfl
    · refine ⟨(hp.take (by omega)).le,fun j hj => ?_⟩
      rw [← (hp.take (by omega)).bits j hj,hm']
      refine bit_fill_outside (.inl ?_)
      have hj' : j < 131072 := hj
      simp only [mkfsSb,bmapStartBlk_eq,bdevBlkSize]
      omega
    · simp only [hm']
      rw [putWord,fill_outside (.inl (by simp only [bdevBlkSize]; omega)),takeBlk_table hblk hz]
    · simp only [slotVal]
      rw [← haddr',if_neg hnz,hdisk,word_putWord]
      exact Nat.mod_eq_of_lt hsp.lt

lemma getDataBlock_view (ofs : Nat) (hr : Ready O ic i x img) (hofs : ofs < maxFileSize) :
    ∃ b x' img', getDataBlock x ofs img = some ((b,x'),img') ∧ b ≠ 0 ∧ Grown O ic i x img x' img' ∧
      blkAt (view O ic i x' img'.fs).disk i (ofs / bdevBlkSize) = b := by
  have hm : ofs / bdevBlkSize < maxBlks := by
    have hmax : maxFileSize = 512 * 268 := by decide
    have hblks : maxBlks = 268 := by decide
    rw [hblks]
    simp only [bdevBlkSize]
    omega
  rw [getDataBlock,if_neg (by omega)]
  simp only [blkAt,if_pos hm,dataSlot]
  split
  · rename_i hd
    obtain ⟨x',img',hrun,hnz,hg⟩ := addrSlot_view hr (k := ofs / bdevBlkSize) (by simp only [sfsNdirect] at hd; omega)
    refine ⟨_,x',img',hrun,hnz,hg,?_⟩
    exact ((hg.ready hr).owned.addrs i _ view_cached _ (by simp only [sfsNdirect,sfsNindirect] at hd ⊢; omega)).symm
  · rename_i hd
    have hblks : maxBlks = 268 := by decide
    rw [hblks] at hm
    have hk : 12 ≤ sfsNdirect + (ofs / bdevBlkSize - sfsNdirect) / ptrsPerBlk ∧
        sfsNdirect + (ofs / bdevBlkSize - sfsNdirect) / ptrsPerBlk < 14 := by
      have hptr : ptrsPerBlk = 128 := by decide
      rw [hptr]
      simp only [sfsNdirect] at hd ⊢
      omega
    obtain ⟨x',img',hrun,hnz,hg⟩ := addrSlot_view hr hk.2
    obtain ⟨b,img2,hrun2,hb,hg2,hslot⟩ := entrySlot_view (hg.ready hr) hk
      (l := (ofs / bdevBlkSize - sfsNdirect) % ptrsPerBlk) (mod_lt _ (by decide)) hnz
    refine ⟨b,x',img2,?_,hb,hg.trans hg2,hslot⟩
    have hrun' : addrSlot x (sfsNdirect + (ofs / bdevBlkSize - sfsNdirect) / (bdevBlkSize / 4)) img =
      some ((x'.iAddrs (sfsNdirect + (ofs / bdevBlkSize - sfsNdirect) / ptrsPerBlk),x'),img') := hrun
    rw [bind_of_some hrun']
    exact bind_of_some hrun2

structure Appended (O : Memory → Memory) (ic : Nat → Option Inode) (i : Nat) (x : SfsInode) (img : Image) (n : Nat)
    (f : Nat → Byte) (x' : SfsInode) (img' : Image) : Prop where
  stored : Stored i x.iSize (x.iSize + n) (fun z => f (z - x.iSize)) (view O ic i x img.fs) (view O ic i x' img'.fs)
  packed : ∃ n, Packed img'.fs n
  bmap : img'.inodeBmap = img.inodeBmap
  fields : ∃ ad, x' = { x with iSize := x.iSize + n, iAddrs := ad }
  low : ∀ z, z < 18432 → img'.fs z = img.fs z

lemma Appended.ready (h : Appended O ic i x img n f x' img') (hr : Ready O ic i x img) : Ready O ic i x' img' :=
  ⟨hr.overlay,h.stored.owned,h.packed⟩

lemma Stored.congr {t : Fs} {lo hi : Nat} {g : Nat → Byte} (h : Stored i lo hi f s t)
    (hfg : ∀ z, lo ≤ z → z < hi → f z = g z) : Stored i lo hi g s t :=
  { h with
    own := fun z => by
      rw [h.own]
      split
      · rename_i hz
        exact hfg z hz.1 hz.2
      · rfl }

lemma Appended.nil (hr : Ready O ic i x img) : Appended O ic i x img 0 f x img where
  stored := (Wrote.of_grow hr.owned view_cached .refl).toStored
  packed := hr.packed
  bmap := rfl
  fields := ⟨x.iAddrs,rfl⟩
  low _ _ := rfl

lemma Appended.trans (h : Appended O ic i x img n f x' img')
    (h' : Appended O ic i x' img' l (fun z => f (n + z)) x2 img2) : Appended O ic i x img (n + l) f x2 img2 := by
  obtain ⟨ad,hx⟩ := h.fields
  have hsize : x'.iSize = x.iSize + n := by rw [hx]
  have hst := h'.stored
  rw [hsize] at hst
  obtain ⟨ad',hx2⟩ := h'.fields
  refine ⟨?_,h'.packed,h'.bmap.trans h.bmap,⟨ad',?_⟩,fun z hz => (h'.low z hz).trans (h.low z hz)⟩
  · rw [← add_assoc]
    refine h.stored.trans (Stored.congr hst fun z h1 h2 => ?_) (le_add_right _ _) (le_add_right _ _)
    congr 1
    omega
  · rw [hx2,hx]
    simp only [add_assoc]

lemma view_resize (hr : Ready O ic i x img) : Owned (view O ic i { x with iSize := n } img.fs) ∧
    Kept (view O ic i x img.fs) (view O ic i { x with iSize := n } img.fs) := by
  have hset := hr.owned.setInode view_cached (d := SfsInode.loaded { x with iSize := n }) rfl
  have hw : InodeWritten { view O ic i x img.fs with
      icache := update (view O ic i x img.fs).icache i (some (SfsInode.loaded { x with iSize := n })) }
      (view O ic i { x with iSize := n } img.fs) i (SfsInode.loaded { x with iSize := n }) := by
    refine ⟨rfl,rfl,fun _ hx => hx,?_,?_⟩
    · exact (put_put (x := { x with iSize := n }) (y := x)).symm
    · simp only [view,update_idem]
      rfl
  have hk := hw.kept hset (update_self i _ _)
  exact ⟨hw.owned hset (update_self i _ _),⟨hk.sb,hk.allocated,hk.slots,hk.data⟩⟩

lemma append_chunk (hr : Ready O ic i x img) (hb : b ≠ 0) (hblk : blkAt (view O ic i x img.fs).disk i (x.iSize / bdevBlkSize) = b)
    (hn : x.iSize % bdevBlkSize + n ≤ 512) : Appended O ic i x img n f { x with iSize := x.iSize + n }
      { img with fs := fill img.fs (bdevBlkSize * b + x.iSize % bdevBlkSize) n f } := by
  obtain ⟨m',hm'⟩ : ∃ m', m' = fill img.fs (bdevBlkSize * b + x.iSize % bdevBlkSize) n f := ⟨_,rfl⟩
  have ha := hr.owned.cached i _ view_cached
  have hused := hblk ▸ hr.owned.used_blkAt ha (hblk ▸ hb)
  have hlow := used_low hused rfl
  have hdisk : (view O ic i x m').disk = fill (view O ic i x img.fs).disk (bdevBlkSize * b + x.iSize % bdevBlkSize) n
      fun z => (fun z => f (z - x.iSize)) (x.iSize + z) := by
    simp only [Nat.add_sub_cancel_left]
    rw [hm']
    exact (view_overlay hr.overlay hr.owned).fill (.inr (by simp only [bdevBlkSize]; omega))
  have hw : Wrote i x.iSize (x.iSize + n) (fun z => f (z - x.iSize)) (view O ic i x img.fs) (view O ic i x m') :=
    .chunk hr.owned ha hblk hb hn rfl hdisk rfl
  have hpacked : ∃ n, Packed m' n := by
    obtain ⟨c,hp⟩ := hr.packed
    refine ⟨c,hp.le,fun j hj => ?_⟩
    rw [← hp.bits j hj,hm']
    refine bit_fill_outside (.inl ?_)
    have hj' : j < 131072 := hj
    simp only [mkfsSb,bmapStartBlk_eq,bdevBlkSize]
    omega
  have hr' : Ready O ic i x { img with fs := m' } := ⟨hr.overlay,hw.owned,hpacked⟩
  obtain ⟨hown,hk⟩ := view_resize (n := x.iSize + n) hr'
  rw [← hm']
  refine ⟨hw.toStored.trans (hk.stored hw.owned hown ((hw.allocated i).mpr ha)) (le_add_right _ _) (le_refl _),
    hpacked,rfl,⟨x.iAddrs,rfl⟩,fun z hz => ?_⟩
  simp only [hm']
  exact fill_outside (.inl (by simp only [bdevBlkSize]; omega))

lemma appendLoop_view (data : Memory) (size n total : Nat) (hr : Ready O ic i x img) (hn : size ≤ n + total)
    (ht : total ≤ size) (hmax : x.iSize + (size - total) ≤ maxFileSize) :
    ∃ x' img', appendLoop data size n x total img = some (x',img') ∧
      Appended O ic i x img (size - total) (fun z => data (total + z)) x' img' := by
  induction n generalizing x img total with
  | zero =>
    obtain rfl : total = size := by omega
    rw [Nat.sub_self]
    exact ⟨x,img,rfl,.nil hr⟩
  | succ n ih =>
    rw [appendLoop]
    split
    · rename_i hlt
      obtain ⟨b,x1,img1,hrun,hb,hg,hblk⟩ := getDataBlock_view x.iSize hr (by omega)
      obtain ⟨ad,rfl⟩ := hg.fields
      have hr1 := hg.ready hr
      obtain ⟨k,hk⟩ : ∃ k, k = min (bdevBlkSize - x.iSize % bdevBlkSize) (size - total) := ⟨_,rfl⟩
      have hpos : 0 < k ∧ k ≤ size - total ∧ x.iSize % bdevBlkSize + k ≤ 512 := by
        have : x.iSize % bdevBlkSize < 512 := mod_lt _ (by decide)
        simp only [bdevBlkSize] at hk this ⊢
        omega
      have hch := append_chunk (f := fun z => data (total + z)) hr1 hb hblk hpos.2.2
      obtain ⟨x',img',hloop,happ⟩ := ih (total + k) (hch.ready hr1) (by omega) (by omega) (by simp only; omega)
      have hgrown : Appended O ic i x img 0 (fun z => data (total + z)) { x with iAddrs := ad } img1 :=
        ⟨(Wrote.of_grow hr.owned view_cached hg.grow).toStored,hg.packed,hg.bmap,⟨ad,rfl⟩,hg.low⟩
      refine ⟨x',img',?_,?_⟩
      · rw [bind_of_some hrun]
        simp only [readBlk,bind_assoc,get_bind,pure_bind,writeBlk,modify_bind]
        rw [← hk,fill_part (by simp only [bdevBlkSize] at hpos ⊢; omega)]
        exact hloop
      · have hall := hgrown.trans (n := 0) (l := k) (by simpa only [zero_add] using hch)
        rw [zero_add] at hall
        have hsum : size - total = k + (size - (total + k)) := by omega
        rw [hsum]
        exact hall.trans (by simpa only [add_assoc] using happ)
    · rename_i hge
      obtain rfl : total = size := by omega
      rw [Nat.sub_self]
      exact ⟨x,img,rfl,.nil hr⟩

lemma inodeAppend_view (data : Memory) (size : Nat) (hr : Ready O ic i x img) (hmax : x.iSize + size ≤ maxFileSize) :
    ∃ x' img', inodeAppend x data size img = some (x',img') ∧ Appended O ic i x img size data x' img' := by
  obtain ⟨x',img',hrun,happ⟩ := appendLoop_view data size size 0 hr (by omega) (by omega) (by simpa using hmax)
  exact ⟨x',img',hrun,by simpa only [Nat.sub_zero,zero_add] using happ⟩

lemma copyLoop_view (bytes : List Byte) (n pos : Nat) (hr : Ready O ic i x img) (hn : bytes.length < n + pos)
    (hp : pos ≤ bytes.length) (hmax : x.iSize + (bytes.length - pos) ≤ maxFileSize) :
    ∃ x' img', copyLoop bytes n pos x img = some (x',img') ∧
      Appended O ic i x img (bytes.length - pos) (fun z => bytes.getD (pos + z) 0) x' img' := by
  induction n generalizing x img pos with
  | zero => omega
  | succ n ih =>
    rw [copyLoop]
    obtain ⟨k,hk⟩ : ∃ k, k = min bdevBlkSize (bytes.length - pos) := ⟨_,rfl⟩
    simp only [← hk]
    split
    · rename_i hpos
      have hle : k ≤ bytes.length - pos := hk ▸ Nat.min_le_right _ _
      obtain ⟨x1,img1,hrun,happ⟩ := inodeAppend_view (fun z => bytes.getD (pos + z) 0) k hr (by omega)
      obtain ⟨ad,hx1⟩ := happ.fields
      have hsize : x1.iSize = x.iSize + k := by rw [hx1]
      obtain ⟨x',img',hloop,happ'⟩ := ih (pos + k) (happ.ready hr) (by omega) (by omega) (by rw [hsize]; omega)
      refine ⟨x',img',by rw [bind_of_some hrun]; exact hloop,?_⟩
      have hsum : bytes.length - pos = k + (bytes.length - (pos + k)) := by omega
      rw [hsum]
      exact happ.trans (by simpa only [add_assoc] using happ')
    · rename_i hzero
      have hend : bytes.length - pos = 0 := by
        simp only [bdevBlkSize] at hk
        omega
      rw [hend]
      exact ⟨x,img,rfl,.nil hr⟩

end MappedMemory.Mkfs
