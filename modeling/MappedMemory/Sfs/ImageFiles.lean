import MappedMemory.Sfs.Image
import MappedMemory.Sfs.Coherence

namespace MappedMemory.Mkfs

open Function (update update_of_ne update_self)
open Bytes Routine Sfs

variable {img img' : Image} {m : Memory} {i j k n inum index : Nat} {f : Nat → Byte} {x x' y root : SfsInode}
  {O : Memory → Memory} {ic : Nat → Option Inode} {s t u : Fs} {files : List HostFile} {g : HostFile}

structure Keeps (j : Nat) (s t : Fs) : Prop where
  head : SameHead s.disk t.disk j
  content : ∀ z, content t.disk j z = content s.disk j z
  blks : ∀ idx, blkAt t.disk j idx = blkAt s.disk j idx

lemma Keeps.trans (h : Keeps j s t) (h' : Keeps j t u) : Keeps j s u :=
  ⟨h.head.trans h'.head,fun z => (h'.content z).trans (h.content z),fun idx => (h'.blks idx).trans (h.blks idx)⟩

lemma Keeps.of_disk (h : t.disk = s.disk) : Keeps j s t :=
  ⟨h ▸ .refl _ _,fun _ => by rw [h],fun _ => by rw [h]⟩

lemma Appended.keeps (h : Appended O ic i x img n f x' img') (hr : Ready O ic i x img)
    (hj : Allocated (view O ic i x img.fs) j) (hne : j ≠ i) :
    Keeps j (view O ic i x img.fs) (view O ic i x' img'.fs) := by
  refine ⟨sameHead_of_bytes fun z hz => ?_,fun z => h.stored.others j z hj hne,fun idx => h.stored.blks j idx hj hne⟩
  have h1 := inodeAddr_eq i
  have h2 := inodeAddr_eq j
  have hi := view_bounds hr.owned
  have hlow := hj.1
  have hup : j ≤ 256 := hj.2.1
  simp only [view,SfsInode.put]
  rw [putInode_outside (by omega),putInode_outside (by omega)]
  exact hr.overlay.inside _ _ _ (fun y _ hy => h.low y hy) (by omega) (by omega)

lemma NewInode.keeps {ft : Ftype} {mode : Nat} (h : NewInode s t inum ft mode) (hs : Owned s) (hj : Allocated s j) :
    Keeps j s t := by
  have hne : j ≠ inum := fun he => h.not_allocated (he ▸ hj)
  exact ⟨h.change.sameHead hj.1 hne,fun z => h.change.content hs hj hne,
    fun idx => blkAt_of_slots fun p hp hb => h.change.slotVal hs (by rwa [hp]) (by rwa [hp]) hb⟩

lemma put_comm (hi : 1 ≤ i) (hj : 1 ≤ j) (hne : i ≠ j) : x.put (y.put m j) i = y.put (x.put m i) j := by
  have h1 := inodeAddr_eq i
  have h2 := inodeAddr_eq j
  have hsz : sizeofSfsInode = 64 := rfl
  funext z
  simp only [SfsInode.put,putInode]
  by_cases hz : inodeAddr i ≤ z ∧ z < inodeAddr i + sizeofSfsInode
  · rw [fill_inside hz.1 hz.2,fill_outside (by omega),fill_inside hz.1 hz.2]
  · rw [fill_outside (by omega)]
    by_cases hz' : inodeAddr j ≤ z ∧ z < inodeAddr j + sizeofSfsInode
    · rw [fill_inside hz'.1 hz'.2,fill_inside hz'.1 hz'.2]
    · rw [fill_outside (by omega),fill_outside (by omega),fill_outside (by omega)]

lemma Owned.shrink (hs : Owned s) (hsb : t.sb = s.sb) (hd : t.disk = s.disk)
    (hic : ∀ i c, t.icache i = some c → s.icache i = some c) : Owned t := by
  have hal : ∀ j, Allocated t j ↔ Allocated s j := fun j => by rw [Allocated,Allocated,hsb,hd]
  refine ⟨fun i c hc => (hal i).mpr (hs.cached i c (hic i c hc)),fun i c hc => by
    rw [hd]
    exact hs.addrs i c (hic i c hc),exact_same hs hal (fun q _ _ => by rw [hd]) fun b => ?_⟩
  rw [Used,Used,hsb,hd]

structure HasFile (m : Memory) (i : Nat) (g : HostFile) : Prop where
  ftype : ftypeOf m i = .file
  nlink : nlinkOf m i = 1
  size : Sfs.sizeOf m i = g.bytes.length
  bytes : ∀ z, z < g.bytes.length → content m i z = g.bytes.getD z 0
  mapped : ∀ z, z < g.bytes.length → blkAt m i (z / bdevBlkSize) ≠ 0

lemma HasFile.keep (h : HasFile s.disk i g) (hk : Keeps i s t) : HasFile t.disk i g where
  ftype := hk.head.ftype.trans h.ftype
  nlink := hk.head.nlink.trans h.nlink
  size := hk.head.size.trans h.size
  bytes z hz := (hk.content z).trans (h.bytes z hz)
  mapped z hz := by
    rw [hk.blks]
    exact h.mapped z hz

abbrev rootView (root : SfsInode) (m : Memory) : Fs := view (fun m => m) (fun _ => none) rootInum root m

structure Written (files : List HostFile) (root : SfsInode) (img : Image) : Prop where
  ready : Ready (fun m => m) (fun _ => none) rootInum root img
  super : ∀ k, k < 512 → img.fs (1024 + k) = superBlock k
  synced : ∀ k, k < 512 → img.fs (1536 + k) = img.inodeBmap k
  bits : ∀ j, j < 4096 → bit img.inodeBmap 0 j = decide (j < files.length + 1)
  root_fields : ∃ ad, root = { newInode .dir with iSize := 32 * files.length, iAddrs := ad }
  entries : ∀ k g, files[k]? = some g → ∀ z, z < 32 →
    content (rootView root img.fs).disk rootInum (32 * k + z) = direntBytes (k + 2) g.basename z
  mapped : ∀ z, z < 32 * files.length → blkAt (rootView root img.fs).disk rootInum (z / bdevBlkSize) ≠ 0
  stored : ∀ k g, files[k]? = some g → HasFile (rootView root img.fs).disk (k + 2) g

lemma Written.inodeBit (h : Written files root img) (hj : j < 4096) :
    inodeBit (rootView root img.fs).disk j = decide (j < files.length + 1) := by
  have hdisk : (rootView root img.fs).disk = root.put img.fs rootInum := rfl
  rw [← h.bits j hj,hdisk,SfsInode.put,inodeBit_putInode hj,Sfs.inodeBit]
  simp only [bit,Nat.zero_add]
  rw [show bdevBlkSize * sfsInodeBmapBlk = 1536 from rfl,h.synced _ (by omega)]

lemma Written.allocated (h : Written files root img) (hlen : files.length ≤ 255) :
    Allocated (rootView root img.fs) j ↔ 1 ≤ j ∧ j ≤ files.length + 1 := by
  change (1 ≤ j ∧ j ≤ 256 ∧ Sfs.inodeBit (rootView root img.fs).disk (j - 1) = true) ↔ _
  constructor
  · rintro ⟨h1,h2,hb⟩
    rw [h.inodeBit (by omega),decide_eq_true_eq] at hb
    omega
  · rintro ⟨h1,h2⟩
    refine ⟨h1,by omega,?_⟩
    rw [h.inodeBit (by omega),decide_eq_true_eq]
    omega

def withNew (img : Image) (index : Nat) : Image where
  fs := (newInode .file).put (fill img.fs (bdevBlkSize * inodeBmapBlk) bdevBlkSize (setBit img.inodeBmap 0 index)) (index + 1)
  inodeBmap := setBit img.inodeBmap 0 index

section
variable (h : Written files root img)
include h

lemma Written.alloc (hlen : files.length < 255) :
    allocInode .file img = some (files.length + 2,withNew img (files.length + 1)) := by
  refine allocInode_eq .file _ ?_
  have hsize : maxInodes / 8 * 8 = 256 := by decide
  rw [hsize,← Nat.zero_add (files.length + 1)]
  refine firstClear_at (fun l hl => ?_) ?_ (by omega)
  · rw [h.bits _ (by omega)]
    simp only [decide_eq_true_eq]
    omega
  · rw [h.bits _ (by omega)]
    simp

lemma Written.bmap_fill (hi : index < 4096) :
    fill img.fs (bdevBlkSize * inodeBmapBlk) bdevBlkSize (setBit img.inodeBmap 0 index) =
      setBit img.fs (bdevBlkSize * inodeBmapBlk) index := by
  have hbase : bdevBlkSize * inodeBmapBlk = 1536 := rfl
  rw [hbase,setBit,setBit,Nat.zero_add,← h.synced _ (by omega),
    ← fill_poke (n := bdevBlkSize) (by simp only [bdevBlkSize]; omega)]
  refine fill_congr fun z hz => ?_
  simp only [poke]
  split
  · rfl
  · exact (h.synced z hz).symm

lemma Written.new (hlen : files.length < 255) :
    NewInode (rootView root img.fs) (rootView root (withNew img (files.length + 1)).fs) (files.length + 2) .file 0 where
  lower := by omega
  upper := by
    change files.length + 2 ≤ 256
    omega
  free := by
    rw [h.inodeBit (by omega)]
    simp only [decide_eq_false_iff_not]
    omega
  sb := rfl
  icache := rfl
  disk := by
    have hput := (Overlay.put (x := root) (i := rootInum) (by decide) (by decide)).setBit (m := img.fs)
      (a := bdevBlkSize * inodeBmapBlk) (i := files.length + 1)
      (.inl (by rw [show bdevBlkSize * inodeBmapBlk = 1536 from rfl]; omega))
    simp only [view,withNew]
    rw [h.bmap_fill (by omega),put_comm (by decide) (by omega) (by simp only [rootInum]; omega),hput]
    rfl

lemma Written.new_ready (hlen : files.length < 255) :
    Ready (fun m => m) (fun _ => none) rootInum root (withNew img (files.length + 1)) := by
  refine ⟨.id,(h.new hlen).owned h.ready.owned,?_⟩
  obtain ⟨n,hp⟩ := h.ready.packed
  refine ⟨n,hp.le,fun k hk => ?_⟩
  rw [← hp.bits k hk]
  refine bit_congr ?_
  have hlow : 18432 ≤ bdevBlkSize * mkfsSb.sDataBmapStart + k / 8 := Nat.le_add_right 18432 _
  simp only [withNew,SfsInode.put]
  rw [putInode_outside (by rw [inodeAddr_eq]; omega),
    fill_outside (.inr (by simp only [inodeBmapBlk,bdevBlkSize] at hlow ⊢; omega))]

end

lemma put_same (h : ∀ z, z < 64 → m (inodeAddr i + z) = inodeByte x.iFtype x.iMode x.iNlink x.iSize x.iAddrs z) :
    x.put m i = m := by
  funext z
  simp only [SfsInode.put,putInode]
  by_cases hz : inodeAddr i ≤ z ∧ z < inodeAddr i + sizeofSfsInode
  · rw [fill_inside hz.1 hz.2,← h _ (by simp only [sizeofSfsInode] at hz; omega),
      show inodeAddr i + (z - inodeAddr i) = z by omega]
  · exact fill_outside (by omega)

lemma open_new (hr : Ready (fun m => m) (fun _ => none) rootInum root img) (hi : 2 ≤ inum)
    (ha : Allocated (rootView root img.fs) inum) (hrow : ∀ z, z < 64 → img.fs (inodeAddr inum + z) =
      inodeByte .file 0 1 0 (fun _ => 0) z) :
    (view (fun m => root.put m rootInum) (update (fun _ => none) rootInum (some root.loaded)) inum
      (newInode .file) img.fs).disk = (rootView root img.fs).disk ∧
    Ready (fun m => root.put m rootInum) (update (fun _ => none) rootInum (some root.loaded)) inum
      (newInode .file) img := by
  have hdisk : (newInode .file).put (root.put img.fs rootInum) inum = root.put img.fs rootInum := by
    refine put_same fun z hz => ?_
    have h1 := inodeAddr_eq inum
    have h2 := inodeAddr_eq rootInum
    simp only [rootInum] at h2
    rw [SfsInode.put,putInode_outside (by simp only [rootInum]; omega)]
    exact hrow z hz
  refine ⟨hdisk,.put (by decide) (by decide),?_,hr.packed⟩
  have hload := hr.owned.load (c := (newInode .file).loaded) ha fun k hk => by
    have hz : addrOf ((newInode .file).put (root.put img.fs rootInum) inum) inum k = 0 := addrOf_putInode hk
    rw [hdisk] at hz
    exact hz.symm
  refine Owned.shrink hload rfl hdisk fun i c hc => ?_
  exact hc

lemma close_file (img : Image) (x : SfsInode) (hi : 2 ≤ inum)
    (hown : Owned (view (fun m => root.put m rootInum) ic inum x img.fs)) (hic : ic rootInum = some root.loaded) :
    (rootView root (x.put img.fs inum)).disk = (view (fun m => root.put m rootInum) ic inum x img.fs).disk ∧
    Owned (rootView root (x.put img.fs inum)) := by
  have hdisk : root.put (x.put img.fs inum) rootInum = x.put (root.put img.fs rootInum) inum :=
    put_comm (by decide) (by omega) (by simp only [rootInum]; omega)
  refine ⟨hdisk,Owned.shrink hown rfl hdisk fun i c hc => ?_⟩
  have hne : rootInum ≠ inum := by
    simp only [rootInum]
    omega
  simp only [view] at hc ⊢
  by_cases h : i = rootInum
  · subst h
    rw [update_self,Option.some_inj] at hc
    rw [update_of_ne hne,hic,hc]
  · rw [update_of_ne h] at hc
    cases hc

lemma addFile_written (h : Written files root img) (hlen : files.length < 255) (hmax : g.bytes.length ≤ maxFileSize) :
    ∃ root' img', addFile root g img = some (root',img') ∧ Written (files ++ [g]) root' img' := by
  obtain ⟨ad,hroot⟩ := h.root_fields
  have hsize : root.iSize = 32 * files.length := by rw [hroot]
  have hmaxsize : maxFileSize = 137216 := by decide
  have hnew := h.new hlen
  have hr1 := h.new_ready hlen
  obtain ⟨root2,img2,happend,happ⟩ := inodeAppend_view (direntBytes (files.length + 2) g.basename) 32 hr1 (by omega)
  obtain ⟨ad2,hroot2⟩ := happ.fields
  have hr2 := happ.ready hr1
  have hrow : ∀ z, z < 64 → img2.fs (inodeAddr (files.length + 2) + z) = inodeByte .file 0 1 0 (fun _ => 0) z :=
    fun z hz => by
      have haddr := inodeAddr_eq (files.length + 2)
      rw [happ.low _ (by omega)]
      exact putInode_at hz
  have hal1 : ∀ j, Allocated (rootView root (withNew img (files.length + 1)).fs) j ↔
      j = files.length + 2 ∨ Allocated (rootView root img.fs) j := hnew.allocated_iff
  have hal2 : ∀ j, Allocated (rootView root2 img2.fs) j ↔ j = files.length + 2 ∨ Allocated (rootView root img.fs) j :=
    fun j => (happ.stored.allocated j).trans (hal1 j)
  obtain ⟨hdisk2,hr3⟩ := open_new hr2 (by omega) ((hal2 _).mpr (.inl rfl)) hrow
  obtain ⟨x4,img4,hcopy,happ4⟩ := copyLoop_view g.bytes (g.bytes.length + 1) 0 hr3 (by omega) (by omega)
    (by simp only [newInode]; omega)
  obtain ⟨ad4,hx4⟩ := happ4.fields
  obtain ⟨hdisk5,hown5⟩ := close_file img4 x4 (by omega) happ4.stored.owned (update_self _ _ _)
  have hal4 : ∀ j, Allocated (rootView root img.fs) j → Keeps j (rootView root2 img2.fs)
      (rootView root2 (x4.put img4.fs (files.length + 2))) := fun j hj => by
    have hne : j ≠ files.length + 2 := fun he => hnew.not_allocated (he ▸ hj)
    have hj3 := (hal2 j).mpr (.inr hj)
    have hj3' : Allocated (view (fun m => root2.put m rootInum)
        (update (fun _ => none) rootInum (some root2.loaded)) (files.length + 2) (newInode .file) img2.fs) j := by
      rw [Allocated,hdisk2]
      exact hj3
    exact ((Keeps.of_disk hdisk2).trans (happ4.keeps hr3 hj3' hne)).trans (.of_disk hdisk5)
  have hroot1 : Allocated (rootView root img.fs) rootInum := h.ready.owned.cached _ _ view_cached
  have hlast : ∀ k g', (files ++ [g])[k]? = some g' → files[k]? = some g' ∨ k = files.length ∧ g' = g := by
    intro k g' hk
    by_cases hlt : k < files.length
    · rw [List.getElem?_append_left hlt] at hk
      exact .inl hk
    · rw [List.getElem?_append_right (by omega),List.getElem?_singleton] at hk
      split at hk
      · exact .inr ⟨by omega,(Option.some.inj hk).symm⟩
      · cases hk
  have hlt : ∀ k g', files[k]? = some g' → k < files.length := fun k g' hk => (List.getElem?_eq_some_iff.mp hk).1
  have hbmap : img4.inodeBmap = setBit img.inodeBmap 0 (files.length + 1) := happ4.bmap.trans happ.bmap
  have hlow : ∀ a, a < 2048 → x4.put img4.fs (files.length + 2) a =
      fill img.fs 1536 bdevBlkSize (setBit img.inodeBmap 0 (files.length + 1)) a := fun a ha => by
    have haddr := inodeAddr_eq (files.length + 2)
    refine (putInode_outside (.inl (by omega))).trans ?_
    rw [happ4.low a (by omega),happ.low a (by omega)]
    exact putInode_outside (.inl (by rw [inodeAddr_eq]; omega))
  have hk1 := NewInode.keeps hnew h.ready.owned hroot1
  have hk4 := hal4 rootInum hroot1
  refine ⟨root2,{ img4 with fs := x4.put img4.fs (files.length + 2) },?_,?_⟩
  · rw [addFile,bind_of_some (h.alloc hlen),bind_of_some (readInode_new (files.length + 2) rfl rfl)]
    rw [show sizeofSfsDirent = 32 from rfl,bind_of_some happend,bind_of_some hcopy,bind_of_some (writeInode_eq _ _)]
    rfl
  · refine ⟨⟨.id,hown5,?_⟩,fun k hk => ?_,fun k hk => ?_,fun j hj => ?_,⟨ad2,?_⟩,fun k g' hk z hz => ?_,fun z hz => ?_,fun k g' hk => ?_⟩
    · obtain ⟨n,hp⟩ := happ4.packed
      refine ⟨n,hp.le,fun k hk => ?_⟩
      rw [← hp.bits k hk]
      refine bit_congr (putInode_outside (.inr ?_))
      have hlow : 18432 ≤ bdevBlkSize * mkfsSb.sDataBmapStart + k / 8 := Nat.le_add_right 18432 _
      have := inodeAddr_eq (files.length + 2)
      omega
    · exact (hlow _ (by omega)).trans ((fill_outside (.inl (by omega))).trans (h.super k hk))
    · refine (hlow _ (by omega)).trans ?_
      rw [fill_inside (Nat.le_add_right _ _) (by simp only [bdevBlkSize]; omega),Nat.add_sub_cancel_left,hbmap]
    · simp only
      rw [hbmap,bit_setBit,h.bits j hj,← Bool.decide_or,List.length_append,List.length_singleton]
      exact decide_eq_decide.mpr (by omega)
    · rw [hroot2,hroot,List.length_append,List.length_singleton]
      simp only [Nat.mul_add,Nat.mul_one]
    · rw [hk4.content,happ.stored.own,hsize]
      rcases hlast k g' hk with hold | ⟨rfl,rfl⟩
      · have := hlt k g' hold
        rw [if_neg (by omega),hk1.content]
        exact h.entries k g' hold z hz
      · rw [if_pos ⟨by omega,by omega⟩,Nat.add_sub_cancel_left]
    · rw [List.length_append,List.length_singleton] at hz
      rw [hk4.blks]
      by_cases hold : z < 32 * files.length
      · refine happ.stored.mapped _ ?_
        rw [hk1.blks]
        exact h.mapped z hold
      · exact happ.stored.covered z (by omega) (by omega)
    · rcases hlast k g' hk with hold | ⟨rfl,rfl⟩
      · have hkl := hlt k g' hold
        have hka : Allocated (rootView root img.fs) (k + 2) := (h.allocated (by omega)).mpr ⟨by omega,by omega⟩
        have hka1 := (hal1 (k + 2)).mpr (.inr hka)
        refine (h.stored k g' hold).keep (((NewInode.keeps hnew h.ready.owned hka).trans (happ.keeps hr1 hka1 ?_)).trans
          (hal4 _ hka))
        simp only [rootInum]
        omega
      · have hput : (rootView root2 (x4.put img4.fs (files.length + 2))).disk =
            x4.put (root2.put img4.fs rootInum) (files.length + 2) := hdisk5
        have hst := happ4.stored
        simp only [newInode,Nat.zero_add,Nat.sub_zero] at hst
        simp only [hput]
        refine ⟨?_,?_,?_,fun z hz => ?_,fun z hz => hst.covered z (Nat.zero_le _) hz⟩
        · rw [SfsInode.put,ftypeOf_putInode,hx4]
          rfl
        · rw [SfsInode.put,nlinkOf_putInode,hx4]
          rfl
        · rw [SfsInode.put,sizeOf_putInode,hx4]
          simp only [newInode,Nat.zero_add,Nat.sub_zero]
          exact Nat.mod_eq_of_lt (by omega)
        · have hown := hst.own z
          rw [if_pos ⟨Nat.zero_le _,hz⟩] at hown
          exact hown

end MappedMemory.Mkfs
