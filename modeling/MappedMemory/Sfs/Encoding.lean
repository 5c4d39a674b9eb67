import MappedMemory.Sfs.Inodes

namespace MappedMemory.Sfs

structure Typed (c : Inode) : Prop where
  ftype : c.iFtype = .dir ∨ c.iFtype = .file ∨ c.iFtype = .dev
  addrs : ∀ k < sfsNdirect + sfsNindirect, c.iAddrs k < 2^32

structure Restored (c d : Inode) : Prop where
  ftype : d.iFtype = c.iFtype
  mode : d.iMode = c.iMode
  nlink : d.iNlink = c.iNlink
  size : d.iSize = c.iSize
  addrs : ∀ k < sfsNdirect + sfsNindirect, d.iAddrs k = c.iAddrs k

structure Confined (s t : Fs) (i : Nat) : Prop where
  table : sfsInodeTableBlk ≤ inumToBlk i ∧ inumToBlk i < s.sb.sDataBmapStart
  inside : inumToOfs i + sizeofSfsInode ≤ bdevBlkSize
  apart : ∀ j, 1 ≤ j → j ≤ s.sb.sNumInodes → j ≠ i →
    inodeAddr j + sizeofSfsInode ≤ inodeAddr i ∨ inodeAddr i + sizeofSfsInode ≤ inodeAddr j
  others : ∀ j, 1 ≤ j → j ≤ s.sb.sNumInodes → j ≠ i →
    ∀ x < sizeofSfsInode, t.disk (inodeAddr j + x) = s.disk (inodeAddr j + x)

section
variable {s t u : Fs} {i j : Nat} {c d : Inode} {m : Bytes.Memory}

lemma slots_apart (hi : 1 ≤ i) (hj : 1 ≤ j) (hne : j ≠ i) :
    inodeAddr j + sizeofSfsInode ≤ inodeAddr i ∨ inodeAddr i + sizeofSfsInode ≤ inodeAddr j := by
  rw [inodeAddr_eq,inodeAddr_eq,sizeofSfsInode]
  omega

lemma InodeWritten.confined (h : InodeWritten s t i c) (h1 : 1 ≤ i) (h2 : i ≤ s.sb.sNumInodes) : Confined s t i where
  table := by
    have hlt := inodeAddr_lt h1 h2
    simp only [inodeAddr,bdevBlkSize] at hlt
    exact ⟨Nat.le_add_right _ _,by omega⟩
  inside := by
    simp only [inumToOfs,sizeofSfsInode,bdevBlkSize]
    omega
  apart j hj _ hne := slots_apart h1 hj hne
  others j hj _ hne x hx := by
    have hapart := slots_apart h1 hj hne
    rw [h.disk]
    exact putInode_outside (by simp only [sizeofSfsInode] at hapart hx; omega)

lemma modeOf_putInode (c : Inode) : (loaded (putInode m i c.iFtype c.iMode c.iNlink c.iSize c.iAddrs) i).iMode =
    c.iMode % 2^8 := by
  have hbyte : putInode m i c.iFtype c.iMode c.iNlink c.iSize c.iAddrs (inodeAddr i + 1) = Bytes.byteOf c.iMode 0 :=
    putInode_at (by decide)
  simp [loaded,hbyte,Bytes.byteOf]

lemma restored_iff (h : Typed c) : Restored c (loaded (putInode m i c.iFtype c.iMode c.iNlink c.iSize c.iAddrs) i) ↔
    c.iMode < 2^8 ∧ c.iNlink < 2^16 ∧ c.iSize < 2^32 := by
  constructor
  · intro hr
    have hn := nlinkOf_putInode.symm.trans hr.nlink
    have hs := sizeOf_putInode.symm.trans hr.size
    have hm := (modeOf_putInode c).symm.trans hr.mode
    exact ⟨hm ▸ Nat.mod_lt _ (by decide),hn ▸ Nat.mod_lt _ (by decide),hs ▸ Nat.mod_lt _ (by decide)⟩
  · rintro ⟨hm,hn,hs⟩
    refine ⟨?_,(modeOf_putInode c).trans (Nat.mod_eq_of_lt hm),nlinkOf_putInode.trans (Nat.mod_eq_of_lt hn),
      sizeOf_putInode.trans (Nat.mod_eq_of_lt hs),fun k hk => ?_⟩
    · obtain hf | hf | hf := h.ftype <;> simp only [loaded,ftypeOf_putInode,hf] <;> rfl
    · simp only [loaded,if_pos hk,addrOf_putInode hk]
      exact Nat.mod_eq_of_lt (h.addrs k hk)

theorem inode_round_trip_iff (h : Typed c) (hc : s.icache i = some c) (h1 : 1 ≤ i) (h2 : i ≤ s.sb.sNumInodes)
    (hw : sfsWriteInode i s = some (.ok (),t)) (hr : sfsReadInode i t = some (.ok d,u)) :
    Restored c d ∧ Confined s t i ↔ c.iMode < 2^8 ∧ c.iNlink < 2^16 ∧ c.iSize < 2^32 := by
  have hwritten := (sfsWriteInode_some hc hw).resolve_left fun hno => hno.2.2.2 rfl
  obtain rfl := (sfsReadInode_some hr).2.2.2 d rfl
  rw [hwritten.disk,restored_iff h]
  exact and_iff_left (hwritten.confined h1 h2)

end

def manyLinks (n : Nat) : Inode := ⟨1,n,.file,6,0,fun _ => 0,true⟩

def linkedDisk (n : Nat) : Fs where
  sb := ⟨512,8,5,6,137,by decide,by decide,by decide,by decide,by decide,by decide,by decide⟩
  disk _ := 0
  icache i := if i = 2 then some (manyLinks n) else none
  held := []
  supply := []

theorem inode_round_trip_65535 : ∃ t u d, sfsWriteInode 2 (linkedDisk 65535) = some (.ok (),t) ∧
    sfsReadInode 2 t = some (.ok d,u) ∧ Restored (manyLinks 65535) d ∧ Confined (linkedDisk 65535) t 2 := by
  refine ⟨_,_,_,rfl,rfl,(inode_round_trip_iff ⟨.inr (.inl rfl),fun _ _ => Nat.two_pow_pos 32⟩ rfl (by decide)
    (by decide) rfl rfl).mpr ?_⟩
  decide

theorem inode_loses_links : ∃ t u d, sfsWriteInode 2 (linkedDisk 65536) = some (.ok (),t) ∧
    sfsReadInode 2 t = some (.ok d,u) ∧ (manyLinks 65536).iNlink = 65536 ∧ d.iNlink = 0 :=
  ⟨_,_,_,rfl,rfl,rfl,by decide +kernel⟩

end MappedMemory.Sfs
