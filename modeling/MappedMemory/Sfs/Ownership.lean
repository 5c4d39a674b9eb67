import MappedMemory.Library.Ownership
import MappedMemory.Sfs.Blocks

namespace MappedMemory.Sfs

open Bytes Ownership

lemma SbInfo.layout (g : SbInfo) : g.sNumInodes ≤ 4096 ∧ 2048 + 64 * g.sNumInodes ≤ 512 * g.sDataBmapStart ∧
      g.sDataBmapStart ≤ g.sJournalStart ∧ g.sJournalStart ≤ g.sDataStart ∧
      g.sSize ≤ 4096 * (g.sJournalStart - g.sDataBmapStart) ∧
      4096 * (g.sJournalStart - g.sDataBmapStart) < g.sSize + 4096 ∧ g.sDataStart + g.sSize ≤ 2^32 :=
  ⟨g.inode_bits,g.inode_slots,g.bmap_before,g.journal_before,g.data_bits,g.last_bits,g.blk_fits⟩

def dataAt (g : SbInfo) : Nat := bdevBlkSize * g.sDataStart

lemma dataAt_eq (g : SbInfo) : dataAt g = 512 * g.sDataStart := by
  rw [dataAt,bdevBlkSize]

lemma dataAt_le {g : SbInfo} {b : Nat} (h : g.sDataStart ≤ b) : dataAt g ≤ 512 * b := by
  rw [dataAt_eq]
  exact Nat.mul_le_mul_left 512 h

def dataBit (g : SbInfo) (m : Memory) (n : Nat) : Bool := bit m (bdevBlkSize * g.sDataBmapStart) n

def inodeBit (m : Memory) (n : Nat) : Bool := bit m (bdevBlkSize * sfsInodeBmapBlk) n

def Allocated (s : Fs) (i : Nat) : Prop := 1 ≤ i ∧ i ≤ s.sb.sNumInodes ∧ inodeBit s.disk (i - 1) = true

inductive Slot where
  | addr (i k : Nat)
  | entry (i k j : Nat)
deriving DecidableEq, Repr

def Slot.inum : Slot → Nat
  | .addr i _ => i
  | .entry i _ _ => i

def Slot.Bounded : Slot → Prop
  | .addr _ k => k < sfsNdirect + sfsNindirect
  | .entry _ k j => sfsNdirect ≤ k ∧ k < sfsNdirect + sfsNindirect ∧ j < ptrsPerBlk

def slotVal (m : Memory) : Slot → Nat
  | .addr i k => addrOf m i k
  | .entry i k j => if addrOf m i k = 0 then 0 else word m (bdevBlkSize * addrOf m i k + 4 * j) 4

def Holds (s : Fs) (p : Slot) (b : Nat) : Prop :=
  Allocated s p.inum ∧ p.Bounded ∧ slotVal s.disk p = b ∧ b ≠ 0

def Used (s : Fs) (b : Nat) : Prop :=
  s.sb.sDataStart ≤ b ∧ b < s.sb.sDataStart + s.sb.sSize ∧ dataBit s.sb s.disk (b - s.sb.sDataStart) = true

structure Owned (s : Fs) : Prop where
  cached : ∀ i c, s.icache i = some c → Allocated s i
  addrs : ∀ i c, s.icache i = some c → ∀ k, k < sfsNdirect + sfsNindirect → c.iAddrs k = addrOf s.disk i k
  exact : Exact (Holds s) (Used s)

def dataSlot (i idx : Nat) : Slot :=
  if idx < sfsNdirect then .addr i idx
  else .entry i (sfsNdirect + (idx - sfsNdirect) / ptrsPerBlk) ((idx - sfsNdirect) % ptrsPerBlk)

def maxBlks : Nat := sfsNdirect + sfsNindirect * ptrsPerBlk

def blkAt (m : Memory) (i idx : Nat) : Nat := if idx < maxBlks then slotVal m (dataSlot i idx) else 0

def content (m : Memory) (i x : Nat) : Byte :=
  if blkAt m i (x / bdevBlkSize) = 0 then 0
  else m (bdevBlkSize * blkAt m i (x / bdevBlkSize) + x % bdevBlkSize)

section Regions

variable {g : SbInfo} {m m' : Memory} {i j k n a b : Nat} {ft : Ftype} {md nl sz : Nat} {ad : Nat → Nat}

lemma inodeAddr_eq (i : Nat) : inodeAddr i = 2048 + 64 * (i - 1) := by
  simp only [inodeAddr,inumToBlk,inumToOfs,sfsInodeTableBlk,bdevBlkSize,sizeofSfsInode]
  omega

lemma addrOf_congr (hk : k < 14) (h : ∀ x, inodeAddr i ≤ x → x < inodeAddr i + 64 → m' x = m x) :
    addrOf m' i k = addrOf m i k :=
  word_congr fun x h1 h2 => h x (by omega) (by omega)

lemma addrOf_lt (m : Memory) (i k : Nat) : addrOf m i k < 2^32 := word_lt m _ 4

lemma putInode_outside (h : a < inodeAddr i ∨ inodeAddr i + 64 ≤ a) : putInode m i ft md nl sz ad a = m a :=
  fill_outside h

lemma putInode_at {x : Nat} (hx : x < 64) :
    putInode m i ft md nl sz ad (inodeAddr i + x) = inodeByte ft md nl sz ad x := by
  rw [putInode,fill_inside (by omega) (by simp only [sizeofSfsInode]; omega),Nat.add_sub_cancel_left]

lemma ftypeOf_putInode : ftypeOf (putInode m i ft md nl sz ad) i = .ofCode (ft.toCode % 256) := by
  have h : putInode m i ft md nl sz ad (inodeAddr i + 0) = inodeByte ft md nl sz ad 0 := putInode_at (by omega)
  rw [Nat.add_zero] at h
  rw [ftypeOf,h,inodeByte,if_pos rfl,byteOf,BitVec.toNat_ofNat]
  simp

lemma nlinkOf_putInode : nlinkOf (putInode m i ft md nl sz ad) i = nl % 2^16 := by
  refine word_of_bytes fun x hx => ?_
  rw [Nat.add_assoc,putInode_at (by omega),inodeByte,if_neg (by omega),if_neg (by omega),if_pos (by omega),
    Nat.add_sub_cancel_left]

lemma sizeOf_putInode : Sfs.sizeOf (putInode m i ft md nl sz ad) i = sz % 2^32 := by
  refine word_of_bytes fun x hx => ?_
  rw [Nat.add_assoc,putInode_at (by omega),inodeByte,if_neg (by omega),if_neg (by omega),if_neg (by omega),
    if_pos (by omega),Nat.add_sub_cancel_left]

lemma addrOf_putInode (hk : k < 14) : addrOf (putInode m i ft md nl sz ad) i k = ad k % 2^32 := by
  refine word_of_bytes fun x hx => ?_
  rw [show inodeAddr i + 8 + 4 * k + x = inodeAddr i + (8 + 4 * k + x) by omega,putInode_at (by omega),inodeByte]
  rw [if_neg (by omega),if_neg (by omega),if_neg (by omega),if_neg (by omega)]
  rw [show (8 + 4 * k + x - 8) / 4 = k by omega,show (8 + 4 * k + x - 8) % 4 = x by omega]

lemma addrOf_putInode_other (hi : 1 ≤ i) (hj : 1 ≤ j) (hij : j ≠ i) (hk : k < 14) :
    addrOf (putInode m i ft md nl sz ad) j k = addrOf m j k := by
  refine addrOf_congr hk fun x h1 h2 => putInode_outside ?_
  rw [inodeAddr_eq] at *
  omega

lemma inodeAddr_lt (h1 : 1 ≤ i) (h2 : i ≤ g.sNumInodes) : inodeAddr i + 64 ≤ 512 * g.sDataBmapStart := by
  have := g.layout.2.1
  rw [inodeAddr_eq]
  omega

lemma bmap_lt (h : n < g.sSize) : 512 * g.sDataBmapStart + n / 8 < dataAt g := by
  have := g.layout
  rw [dataAt_eq]
  omega

lemma inodeAddr_dataAt (h1 : 1 ≤ i) (h2 : i ≤ g.sNumInodes) : inodeAddr i + 64 ≤ dataAt g := by
  have hle : g.sDataBmapStart ≤ g.sDataStart := g.bmap_before.trans g.journal_before
  exact (inodeAddr_lt h1 h2).trans (by rw [dataAt_eq]; exact Nat.mul_le_mul_left 512 hle)

lemma inodeBit_congr (hn : n < 4096) (h : ∀ x, x < 2048 → m' x = m x) : inodeBit m' n = inodeBit m n :=
  bit_congr (h _ (by simp only [sfsInodeBmapBlk,bdevBlkSize]; omega))

lemma dataBit_congr (hn : n < g.sSize) (h : ∀ x, 512 * g.sDataBmapStart ≤ x → x < dataAt g → m' x = m x) :
    dataBit g m' n = dataBit g m n :=
  bit_congr (h _ (Nat.le_add_right _ _) (bmap_lt hn))

lemma inodeBit_putInode (hn : n < 4096) : inodeBit (putInode m i ft md nl sz ad) n = inodeBit m n :=
  inodeBit_congr hn fun x hx => putInode_outside (by rw [inodeAddr_eq]; omega)

lemma dataBit_putInode (hn : n < g.sSize) (h1 : 1 ≤ i) (h2 : i ≤ g.sNumInodes) :
    dataBit g (putInode m i ft md nl sz ad) n = dataBit g m n := by
  have := inodeAddr_lt h1 h2
  exact dataBit_congr hn fun x hx _ => putInode_outside (by omega)

lemma putInode_data (h1 : 1 ≤ i) (h2 : i ≤ g.sNumInodes) (ha : dataAt g ≤ a) :
    putInode m i ft md nl sz ad a = m a := by
  have := inodeAddr_dataAt h1 h2
  exact putInode_outside (by omega)

end Regions

def takeBlk (g : SbInfo) (m : Memory) (b : Nat) : Memory :=
  fill (setBit m (bdevBlkSize * g.sDataBmapStart) (b - g.sDataStart)) (bdevBlkSize * b) bdevBlkSize fun _ => 0

section Take

variable {g : SbInfo} {m : Memory} {i k n x b : Nat}

lemma takeBlk_zero (hx : x < 512) : takeBlk g m b (512 * b + x) = 0 :=
  fill_inside (by simp only [bdevBlkSize]; omega) (by simp only [bdevBlkSize]; omega)

lemma takeBlk_low (h1 : g.sDataStart ≤ b) (hx : x < dataAt g)
    (hne : x ≠ 512 * g.sDataBmapStart + (b - g.sDataStart) / 8) : takeBlk g m b x = m x := by
  have hlt : x < 512 * b := lt_of_lt_of_le hx (dataAt_le h1)
  exact (fill_outside (.inl hlt)).trans (poke_other hne)

lemma takeBlk_data (h2 : b < g.sDataStart + g.sSize) (h1 : g.sDataStart ≤ b) (hx : dataAt g ≤ x)
    (hne : x < 512 * b ∨ 512 * b + 512 ≤ x) : takeBlk g m b x = m x := by
  have hb : 512 * g.sDataBmapStart + (b - g.sDataStart) / 8 < dataAt g := bmap_lt (by omega)
  have hnb : x ≠ 512 * g.sDataBmapStart + (b - g.sDataStart) / 8 := by omega
  exact (fill_outside hne).trans (poke_other hnb)

lemma inodeBit_takeBlk (h1 : g.sDataStart ≤ b) (hn : n < 4096) : inodeBit (takeBlk g m b) n = inodeBit m n := by
  have hl := g.layout
  have hd : 2048 ≤ dataAt g := by
    rw [dataAt_eq]
    omega
  exact inodeBit_congr hn fun x hx => takeBlk_low h1 (by omega) (by omega)

lemma addrOf_takeBlk (h1 : g.sDataStart ≤ b) (hi : 1 ≤ i) (hn : i ≤ g.sNumInodes) (hk : k < 14) :
    addrOf (takeBlk g m b) i k = addrOf m i k := by
  have := inodeAddr_lt hi hn
  have := inodeAddr_dataAt hi hn
  exact addrOf_congr hk fun x _ _ => takeBlk_low h1 (by omega) (by omega)

lemma dataBit_takeBlk (h1 : g.sDataStart ≤ b) (hn : n < g.sSize) :
    dataBit g (takeBlk g m b) n = (decide (n = b - g.sDataStart) || dataBit g m n) := by
  rw [dataBit,takeBlk,bit_fill_outside,bit_setBit,dataBit]
  have := bmap_lt hn
  have := dataAt_le h1
  simp only [bdevBlkSize]
  omega

end Take

section Slots

variable {s t : Fs} {p q : Slot} {i j k b x : Nat}

lemma Slot.Bounded.addr_of_entry (h : (Slot.entry i k j).Bounded) : (Slot.addr i k).Bounded := h.2.1

lemma Owned.used (h : Owned s) (ha : Allocated s p.inum) (hp : p.Bounded) (hv : slotVal s.disk p ≠ 0) :
    Used s (slotVal s.disk p) :=
  h.exact.marked p _ ⟨ha,hp,rfl,hv⟩

lemma Owned.slot_eq (h : Owned s) (ha : Allocated s p.inum) (hp : p.Bounded) (hv : slotVal s.disk p ≠ 0)
    (ha' : Allocated s q.inum) (hq : q.Bounded) (he : slotVal s.disk q = slotVal s.disk p) : p = q :=
  h.exact.once p q _ ⟨ha,hp,rfl,hv⟩ ⟨ha',hq,he,hv⟩

lemma exact_assign (h : Owned s) (halloc : ∀ i, Allocated t i ↔ Allocated s i) (ha : Allocated s p.inum)
    (hp : p.Bounded) (hz : slotVal s.disk p = 0) (hb : b ≠ 0) (hfree : ¬Used s b)
    (hval : ∀ q, Allocated s q.inum → q.Bounded → slotVal t.disk q = if q = p then b else slotVal s.disk q)
    (hused : ∀ c, Used t c ↔ c = b ∨ Used s c) : Exact (Holds t) (Used t) := by
  refine h.exact.assign (p := p) hfree (fun q c => ?_) hused
  simp only [Holds,halloc]
  constructor
  · rintro ⟨hq,hqb,hv,hc⟩
    rw [hval q hq hqb] at hv
    split at hv
    · rename_i hqp
      exact .inl ⟨hqp,hv.symm⟩
    · exact .inr ⟨hq,hqb,hv,hc⟩
  · rintro (⟨rfl,rfl⟩ | ⟨hq,hqb,hv,hc⟩)
    · exact ⟨ha,hp,by rw [hval q ha hp,if_pos rfl],hb⟩
    · have hqp : q ≠ p := by
        rintro rfl
        exact hc (hv.symm.trans hz)
      exact ⟨hq,hqb,by rw [hval q hq hqb,if_neg hqp,hv],hc⟩

lemma exact_same (h : Owned s) (halloc : ∀ i, Allocated t i ↔ Allocated s i)
    (hval : ∀ q, Allocated s q.inum → q.Bounded → slotVal t.disk q = slotVal s.disk q)
    (hused : ∀ c, Used t c ↔ Used s c) : Exact (Holds t) (Used t) := by
  refine h.exact.congr (fun q c => ?_) hused
  simp only [Holds,halloc]
  constructor
  · rintro ⟨hq,hqb,hv,hc⟩
    exact ⟨hq,hqb,by rw [← hval q hq hqb,hv],hc⟩
  · rintro ⟨hq,hqb,hv,hc⟩
    exact ⟨hq,hqb,by rw [hval q hq hqb,hv],hc⟩

structure LowSame (s t : Fs) : Prop where
  sb : t.sb = s.sb
  low : ∀ x, x < dataAt s.sb → t.disk x = s.disk x

lemma LowSame.allocated (h : LowSame s t) (i : Nat) : Allocated t i ↔ Allocated s i := by
  have hl := s.sb.layout
  have hd : 2048 ≤ dataAt s.sb := by
    rw [dataAt_eq]
    omega
  unfold Allocated
  rw [h.sb]
  refine and_congr_right fun h1 => and_congr_right fun h2 => ?_
  rw [inodeBit_congr (by omega) fun x hx => h.low x (by omega)]

lemma LowSame.used (h : LowSame s t) (c : Nat) : Used t c ↔ Used s c := by
  unfold Used
  rw [h.sb]
  refine and_congr_right fun h1 => and_congr_right fun h2 => ?_
  rw [dataBit_congr (by omega) fun x _ hx => h.low x hx]

lemma LowSame.addrOf (h : LowSame s t) (ha : Allocated s i) (hk : k < 14) :
    Sfs.addrOf t.disk i k = Sfs.addrOf s.disk i k := by
  have := inodeAddr_dataAt ha.1 ha.2.1
  exact addrOf_congr hk fun x _ hx => h.low x (by omega)

def Slot.Data : Slot → Prop
  | .addr _ k => k < sfsNdirect
  | .entry _ _ _ => True

lemma Slot.Data.ne_addr (h : p.Data) (hk : 12 ≤ k) : p ≠ .addr i k := by
  rintro rfl
  exact absurd h (Nat.not_lt.mpr hk)

lemma Owned.slotVal_write (h : Owned s) (hl : LowSame s t) (ha : Allocated s p.inum) (hp : p.Bounded)
    (hd : p.Data) (hv : slotVal s.disk p ≠ 0)
    (hw : ∀ x, x < 512 * slotVal s.disk p ∨ 512 * slotVal s.disk p + 512 ≤ x → t.disk x = s.disk x)
    (haq : Allocated s q.inum) (hq : q.Bounded) : slotVal t.disk q = slotVal s.disk q := by
  cases q with
  | addr i k => exact hl.addrOf haq hq
  | entry i k j =>
    have hk : addrOf t.disk i k = addrOf s.disk i k := hl.addrOf haq hq.2.1
    simp only [slotVal,hk]
    split
    · rfl
    · rename_i hz
      have hne : addrOf s.disk i k ≠ slotVal s.disk p := fun he =>
        hd.ne_addr hq.1 (h.slot_eq ha hp hv haq hq.addr_of_entry he)
      have hj : j < 128 := hq.2.2
      refine word_congr fun x h1 h2 => hw x ?_
      simp only [bdevBlkSize] at h1 h2
      omega

lemma Owned.same_slots (h : Owned s) (hl : LowSame s t) (hic : t.icache = s.icache)
    (hv : ∀ q, Allocated s q.inum → q.Bounded → slotVal t.disk q = slotVal s.disk q) : Owned t where
  cached i c hc := (hl.allocated i).mpr (h.cached i c (hic ▸ hc))
  addrs i c hc k hk := by
    rw [hic] at hc
    rw [h.addrs i c hc k hk,hl.addrOf (h.cached i c hc) hk]
  exact := exact_same h hl.allocated hv hl.used

lemma Owned.write (h : Owned s) (hl : LowSame s t) (hic : t.icache = s.icache) (ha : Allocated s p.inum)
    (hp : p.Bounded) (hd : p.Data) (hv : slotVal s.disk p ≠ 0)
    (hw : ∀ x, x < 512 * slotVal s.disk p ∨ 512 * slotVal s.disk p + 512 ≤ x → t.disk x = s.disk x) : Owned t :=
  h.same_slots hl hic fun _ haq hq => h.slotVal_write hl ha hp hd hv hw haq hq

end Slots

end MappedMemory.Sfs
