import MappedMemory.Sfs.Ownership

namespace MappedMemory.Sfs

open Function (update update_of_ne update_self)
open Bytes Ownership

structure Quiet (s t : Fs) : Prop where
  sb : t.sb = s.sb
  disk : t.disk = s.disk
  icache : t.icache = s.icache

lemma Quiet.refl (s : Fs) : Quiet s s := ⟨rfl,rfl,rfl⟩

lemma Quiet.trans {s t u : Fs} (h : Quiet s t) (h' : Quiet t u) : Quiet s u :=
  ⟨h'.sb.trans h.sb,h'.disk.trans h.disk,h'.icache.trans h.icache⟩

structure Spare (s : Fs) (b : Nat) : Prop where
  lower : s.sb.sDataStart ≤ b
  upper : b < s.sb.sDataStart + s.sb.sSize
  free : dataBit s.sb s.disk (b - s.sb.sDataStart) = false

inductive Assign (i : Nat) (s t : Fs) : Prop where
  | quiet (h : Quiet s t)
  | addr (k b : Nat) (c : Inode) (hb : Spare s b) (hk : k < sfsNdirect + sfsNindirect)
      (hc : s.icache i = some c) (hz : c.iAddrs k = 0) (hsb : t.sb = s.sb)
      (hdisk : t.disk = putInode (takeBlk s.sb s.disk b) i c.iFtype c.iMode c.iNlink c.iSize
        (update c.iAddrs k b))
      (hicache : t.icache = update s.icache i
        (some { c with iAddrs := update c.iAddrs k b, dirty := false }))
  | entry (k j b : Nat) (c : Inode) (hb : Spare s b) (hk : (Slot.entry i k j).Bounded)
      (hc : s.icache i = some c) (ha : c.iAddrs k ≠ 0)
      (hz : word s.disk (bdevBlkSize * c.iAddrs k + 4 * j) 4 = 0) (hsb : t.sb = s.sb)
      (hdisk : t.disk = putWord (takeBlk s.sb s.disk b) (bdevBlkSize * c.iAddrs k + 4 * j) 4 b)
      (hicache : t.icache = s.icache)

structure Extends (i : Nat) (s t : Fs) : Prop where
  sb : t.sb = s.sb
  allocated : ∀ j, Allocated t j ↔ Allocated s j
  slots : ∀ p, Allocated s p.inum → p.Bounded → slotVal s.disk p ≠ 0 → slotVal t.disk p = slotVal s.disk p
  others : ∀ p, Allocated s p.inum → p.Bounded → p.inum ≠ i → slotVal t.disk p = slotVal s.disk p
  content : ∀ j x, Allocated s j → content t.disk j x = content s.disk j x
  icache : ∀ j, j ≠ i → t.icache j = s.icache j
  own : ∀ c, s.icache i = some c → ∃ ad d, t.icache i = some { c with iAddrs := ad, dirty := d }

variable {s t u : Fs} {i j k b x idx : Nat} {p q : Slot} {c : Inode}

lemma Extends.refl (i : Nat) (s : Fs) : Extends i s s :=
  ⟨rfl,fun _ => Iff.rfl,fun _ _ _ _ => rfl,fun _ _ _ _ => rfl,fun _ _ _ => rfl,fun _ _ => rfl,
    fun c hc => ⟨c.iAddrs,c.dirty,hc⟩⟩

lemma Extends.trans (h : Extends i s t) (h' : Extends i t u) : Extends i s u where
  sb := h'.sb.trans h.sb
  allocated j := (h'.allocated j).trans (h.allocated j)
  slots p ha hp hv := by
    have he := h.slots p ha hp hv
    rw [h'.slots p ((h.allocated _).mpr ha) hp (by rwa [he]),he]
  others p ha hp hi := by
    rw [h'.others p ((h.allocated _).mpr ha) hp hi,h.others p ha hp hi]
  content j x ha := by
    rw [h'.content j x ((h.allocated _).mpr ha),h.content j x ha]
  icache j hj := (h'.icache j hj).trans (h.icache j hj)
  own c hc := by
    obtain ⟨_,_,hd⟩ := h.own c hc
    obtain ⟨ad,d,hd'⟩ := h'.own _ hd
    exact ⟨ad,d,hd'⟩

lemma dataSlot_inum (i idx : Nat) : (dataSlot i idx).inum = i := by
  unfold dataSlot
  split <;> rfl

lemma dataSlot_data (i idx : Nat) : (dataSlot i idx).Data := by
  unfold dataSlot
  split
  · assumption
  · trivial

lemma dataSlot_bounded (h : idx < maxBlks) : (dataSlot i idx).Bounded := by
  unfold dataSlot
  have hm : idx < 268 := h
  split
  · rename_i hd
    exact Nat.lt_of_lt_of_le hd (by decide)
  · rename_i hd
    have hd : ¬idx < 12 := hd
    refine ⟨Nat.le_add_right _ _,?_,Nat.mod_lt _ (by decide)⟩
    simp only [sfsNdirect,sfsNindirect,ptrsPerBlk,bdevBlkSize]
    omega

lemma Spare.not_used (h : Spare s b) : ¬Used s b := fun hu => by
  have := hu.2.2
  rw [h.free] at this
  cases this

lemma Spare.ne_zero (h : Spare s b) : b ≠ 0 := by
  have hl := s.sb.layout
  have := h.lower
  omega

lemma Spare.lt (h : Spare s b) : b < 2^32 := by
  have hl := s.sb.layout
  have := h.upper
  omega

lemma content_assign (hz : slotVal s.disk p = 0)
    (hval : ∀ q, Allocated s q.inum → q.Bounded → slotVal t.disk q = if q = p then b else slotVal s.disk q)
    (hzero : ∀ x, x < 512 → t.disk (512 * b + x) = 0)
    (hbytes : ∀ q, Allocated s q.inum → q.Bounded → q.Data → slotVal s.disk q ≠ 0 → ∀ x, x < 512 →
      t.disk (512 * slotVal s.disk q + x) = s.disk (512 * slotVal s.disk q + x))
    (ha : Allocated s j) : content t.disk j x = content s.disk j x := by
  unfold content blkAt
  by_cases hm : x / bdevBlkSize < maxBlks
  · have hbd := dataSlot_bounded (i := j) hm
    have hq : Allocated s (dataSlot j (x / bdevBlkSize)).inum := by rwa [dataSlot_inum]
    have hx : x % bdevBlkSize < 512 := Nat.mod_lt _ (by decide)
    simp only [if_pos hm]
    rw [hval _ hq hbd]
    by_cases hp : dataSlot j (x / bdevBlkSize) = p
    · rw [if_pos hp,hp,hz,if_pos rfl]
      split
      · rfl
      · exact hzero _ hx
    · rw [if_neg hp]
      split
      · rfl
      · rename_i hv
        exact hbytes _ hq hbd (dataSlot_data j _) hv _ hx
  · simp [hm]

lemma allocated_iff (hsb : t.sb = s.sb) (h : ∀ n, n < 4096 → inodeBit t.disk n = inodeBit s.disk n) (i : Nat) :
    Allocated t i ↔ Allocated s i := by
  have hl := s.sb.layout.1
  unfold Allocated
  rw [hsb]
  refine and_congr_right fun h1 => and_congr_right fun h2 => ?_
  rw [h _ (by omega)]

lemma used_iff (hsb : t.sb = s.sb) (hb : Spare s b)
    (h : ∀ n, n < s.sb.sSize → dataBit s.sb t.disk n = (decide (n = b - s.sb.sDataStart) || dataBit s.sb s.disk n))
    (c : Nat) : Used t c ↔ c = b ∨ Used s c := by
  have h1 := hb.lower
  have h2 := hb.upper
  unfold Used
  rw [hsb]
  constructor
  · rintro ⟨hl,hu,hd⟩
    rw [h _ (by omega),Bool.or_eq_true,decide_eq_true_eq] at hd
    rcases hd with hd | hd
    · exact .inl (by omega)
    · exact .inr ⟨hl,hu,hd⟩
  · rintro (rfl | ⟨hl,hu,hd⟩)
    · exact ⟨h1,h2,by rw [h _ (by omega)]; simp⟩
    · exact ⟨hl,hu,by rw [h _ (by omega),hd,Bool.or_true]⟩

structure AddrStored (s t : Fs) (i k b : Nat) : Prop where
  sb : t.sb = s.sb
  spare : Spare s b
  ibits : ∀ n, n < 4096 → inodeBit t.disk n = inodeBit s.disk n
  dbits : ∀ n, n < s.sb.sSize → dataBit s.sb t.disk n = (decide (n = b - s.sb.sDataStart) || dataBit s.sb s.disk n)
  addr : addrOf t.disk i k = b
  addrs : ∀ j l, Allocated s j → l < 14 → ¬(j = i ∧ l = k) → addrOf t.disk j l = addrOf s.disk j l
  zero : ∀ x, x < 512 → t.disk (512 * b + x) = 0
  data : ∀ x, dataAt s.sb ≤ x → x < 512 * b ∨ 512 * b + 512 ≤ x → t.disk x = s.disk x

section
variable (h : AddrStored s t i k b) (hs : Owned s)
include h hs

lemma AddrStored.bytes (ha : Allocated s q.inum) (hq : q.Bounded) (hv : slotVal s.disk q ≠ 0) (hx : x < 512) :
    t.disk (512 * slotVal s.disk q + x) = s.disk (512 * slotVal s.disk q + x) := by
  have hu := hs.used ha hq hv
  have hne : slotVal s.disk q ≠ b := fun he => h.spare.not_used (he ▸ hu)
  have hlow := dataAt_le hu.1
  exact h.data _ (by omega) (by omega)

lemma AddrStored.slotVal (hz : addrOf s.disk i k = 0) (ha : Allocated s q.inum) (hq : q.Bounded) :
    slotVal t.disk q = if q = .addr i k then b else slotVal s.disk q := by
  cases q with
  | addr j l =>
    by_cases hjl : j = i ∧ l = k
    · obtain ⟨rfl,rfl⟩ := hjl
      rw [if_pos rfl]
      exact h.addr
    · rw [if_neg (by simpa using hjl)]
      exact h.addrs j l ha hq hjl
  | entry j l n =>
    have hn : n < 128 := hq.2.2
    rw [if_neg (by simp)]
    by_cases hjl : j = i ∧ l = k
    · obtain ⟨rfl,rfl⟩ := hjl
      have hw : word t.disk (bdevBlkSize * b + 4 * n) 4 = 0 := by
        refine word_zero fun x h1 h2 => ?_
        obtain ⟨y,rfl⟩ := Nat.exists_eq_add_of_le (show 512 * b ≤ x by simp only [bdevBlkSize] at h1; omega)
        exact h.zero y (by simp only [bdevBlkSize] at h2; omega)
      simp only [Sfs.slotVal,hz,h.addr,hw,ite_self,if_true]
    · have he := h.addrs j l ha hq.2.1 hjl
      simp only [Sfs.slotVal,he]
      split
      · rfl
      · rename_i hv
        refine word_congr fun x h1 h2 => ?_
        simp only [bdevBlkSize] at h1 h2
        obtain ⟨y,rfl⟩ := Nat.exists_eq_add_of_le (show 512 * addrOf s.disk j l ≤ x by omega)
        exact h.bytes hs (q := .addr j l) ha hq.addr_of_entry hv (by omega)

lemma AddrStored.exact (ha : Allocated s i) (hk : k < 14) (hz : addrOf s.disk i k = 0) : Exact (Holds t) (Used t) :=
  exact_assign (p := .addr i k) hs (allocated_iff h.sb h.ibits) ha hk hz h.spare.ne_zero h.spare.not_used
    (fun _ hq hqb => h.slotVal hs hz hq hqb) (used_iff h.sb h.spare h.dbits)

lemma AddrStored.extends (hz : addrOf s.disk i k = 0) (hic : ∀ j, j ≠ i → t.icache j = s.icache j)
    (hown : ∀ c, s.icache i = some c → ∃ ad d, t.icache i = some { c with iAddrs := ad, dirty := d }) :
    Extends i s t where
  sb := h.sb
  allocated := allocated_iff h.sb h.ibits
  slots p ha hp hv := by
    rw [h.slotVal hs hz ha hp,if_neg]
    rintro rfl
    exact hv hz
  others p ha hp hi := by
    rw [h.slotVal hs hz ha hp,if_neg]
    rintro rfl
    exact hi rfl
  content j x ha := content_assign (p := .addr i k) hz (fun _ hq hqb => h.slotVal hs hz hq hqb) h.zero
    (fun _ hq hqb _ hv _ hx => h.bytes hs hq hqb hv hx) ha
  icache := hic
  own := hown

end

lemma addrStored_of_disk {ft : Ftype} {md nl sz : Nat} {ad : Nat → Nat} (hb : Spare s b) (ha : Allocated s i)
    (hk : k < 14) (hsb : t.sb = s.sb)
    (hdisk : t.disk = putInode (takeBlk s.sb s.disk b) i ft md nl sz ad) (hadk : ad k = b)
    (hads : ∀ l, l < 14 → l ≠ k → ad l = addrOf s.disk i l) : AddrStored s t i k b where
  sb := hsb
  spare := hb
  ibits n hn := by rw [hdisk,inodeBit_putInode hn,inodeBit_takeBlk hb.lower hn]
  dbits n hn := by rw [hdisk,dataBit_putInode hn ha.1 ha.2.1,dataBit_takeBlk hb.lower hn]
  addr := by rw [hdisk,addrOf_putInode hk,hadk,Nat.mod_eq_of_lt hb.lt]
  addrs j l hj hl hne := by
    rw [hdisk]
    by_cases hji : j = i
    · subst hji
      rw [addrOf_putInode hl,hads l hl (by simpa using hne),Nat.mod_eq_of_lt (addrOf_lt _ _ _)]
    · rw [addrOf_putInode_other ha.1 hj.1 hji hl,addrOf_takeBlk hb.lower hj.1 hj.2.1 hl]
  zero x hx := by
    have := dataAt_le hb.lower
    rw [hdisk,putInode_data ha.1 ha.2.1 (by omega),takeBlk_zero hx]
  data x hx hne := by rw [hdisk,putInode_data ha.1 ha.2.1 hx,takeBlk_data hb.upper hb.lower hx hne]

structure EntryStored (s t : Fs) (a n b : Nat) : Prop where
  sb : t.sb = s.sb
  spare : Spare s b
  ibits : ∀ n, n < 4096 → inodeBit t.disk n = inodeBit s.disk n
  dbits : ∀ n, n < s.sb.sSize → dataBit s.sb t.disk n = (decide (n = b - s.sb.sDataStart) || dataBit s.sb s.disk n)
  addrs : ∀ j l, Allocated s j → l < 14 → addrOf t.disk j l = addrOf s.disk j l
  entry : word t.disk (512 * a + 4 * n) 4 = b
  zero : ∀ x, x < 512 → t.disk (512 * b + x) = 0
  data : ∀ x, dataAt s.sb ≤ x → x < 512 * b ∨ 512 * b + 512 ≤ x →
    x < 512 * a + 4 * n ∨ 512 * a + 4 * n + 4 ≤ x → t.disk x = s.disk x

lemma entryStored_of_disk {a n : Nat} (hb : Spare s b) (hu : Used s a) (hn : n < 128) (hsb : t.sb = s.sb)
    (hdisk : t.disk = putWord (takeBlk s.sb s.disk b) (512 * a + 4 * n) 4 b) : EntryStored s t a n b := by
  have hne : a ≠ b := fun he => hb.not_used (he ▸ hu)
  have hda := dataAt_le hu.1
  have hl := s.sb.layout
  have hd : 2048 ≤ dataAt s.sb := by
    rw [dataAt_eq]
    omega
  have hout : ∀ x, x < 512 * a + 4 * n ∨ 512 * a + 4 * n + 4 ≤ x → t.disk x = takeBlk s.sb s.disk b x := by
    intro x hx
    rw [hdisk]
    exact fill_outside hx
  refine ⟨hsb,hb,fun l hl => ?_,fun l hl => ?_,fun j l hj hl => ?_,?_,fun x hx => ?_,fun x hx hxb hxa => ?_⟩
  · rw [inodeBit_congr hl fun x hx => hout x (by omega),inodeBit_takeBlk hb.lower hl]
  · rw [dataBit_congr hl fun x _ hx => hout x (by omega),dataBit_takeBlk hb.lower hl]
  · have := inodeAddr_dataAt hj.1 hj.2.1
    rw [addrOf_congr hl fun x _ hx => hout x (by omega),addrOf_takeBlk hb.lower hj.1 hj.2.1 hl]
  · rw [hdisk,word_putWord]
    exact Nat.mod_eq_of_lt hb.lt
  · rw [hout _ (by omega),takeBlk_zero hx]
  · rw [hout x hxa,takeBlk_data hb.upper hb.lower hx hxb]

section Entry

variable {n : Nat}

section
variable (h : EntryStored s t (addrOf s.disk i k) n b)
include h

section
variable (hs : Owned s) (ha : Allocated s i) (hk : (Slot.entry i k n).Bounded)
include hs ha hk

lemma EntryStored.bytes (haq : Allocated s q.inum) (hq : q.Bounded)
    (hne : q ≠ .addr i k) (hv : slotVal s.disk q ≠ 0) (hx : x < 512) :
    t.disk (512 * slotVal s.disk q + x) = s.disk (512 * slotVal s.disk q + x) := by
  have hu := hs.used haq hq hv
  have hn : n < 128 := hk.2.2
  have hb : slotVal s.disk q ≠ b := fun he => h.spare.not_used (he ▸ hu)
  have hi : addrOf s.disk i k ≠ slotVal s.disk q := fun he =>
    hne (hs.slot_eq haq hq hv (q := .addr i k) ha hk.addr_of_entry he)
  have hlow := dataAt_le hu.1
  exact h.data _ (by omega) (by omega) (by omega)

lemma EntryStored.slotVal (hz : addrOf s.disk i k ≠ 0) (haq : Allocated s q.inum) (hq : q.Bounded) :
    slotVal t.disk q = if q = .entry i k n then b else slotVal s.disk q := by
  cases q with
  | addr j l =>
    rw [if_neg (by simp)]
    exact h.addrs j l haq hq
  | entry j l r =>
    have he := h.addrs j l haq hq.2.1
    have hn : n < 128 := hk.2.2
    have hr : r < 128 := hq.2.2
    simp only [Sfs.slotVal,he]
    by_cases hjl : j = i ∧ l = k
    · obtain ⟨rfl,rfl⟩ := hjl
      have hu := hs.used (p := .addr j l) ha hk.addr_of_entry hz
      have hlow := dataAt_le hu.1
      have hb : addrOf s.disk j l ≠ b := fun he => h.spare.not_used (he ▸ hu)
      simp only [Sfs.slotVal] at hlow
      rw [if_neg hz,if_neg hz]
      by_cases hrn : r = n
      · subst hrn
        rw [if_pos rfl]
        exact h.entry
      · rw [if_neg (by simpa using hrn)]
        refine word_congr fun x h1 h2 => h.data x ?_ ?_ ?_ <;>
        · simp only [bdevBlkSize] at h1 h2
          omega
    · have hne : Slot.entry j l r ≠ .entry i k n := fun h => by
        cases h
        exact hjl ⟨rfl,rfl⟩
      rw [if_neg hne]
      split
      · rfl
      · rename_i hv
        refine word_congr fun x h1 h2 => ?_
        simp only [bdevBlkSize] at h1 h2
        obtain ⟨y,rfl⟩ := Nat.exists_eq_add_of_le (show 512 * addrOf s.disk j l ≤ x by omega)
        exact h.bytes hs ha hk (q := .addr j l) haq hq.addr_of_entry (by simpa using fun h1 h2 => hjl ⟨h1,h2⟩)
          hv (by omega)

lemma EntryStored.exact (hz : addrOf s.disk i k ≠ 0) (he : Sfs.slotVal s.disk (.entry i k n) = 0) :
    Exact (Holds t) (Used t) :=
  exact_assign (p := .entry i k n) hs (allocated_iff h.sb h.ibits) ha hk he h.spare.ne_zero h.spare.not_used
    (fun _ hq hqb => h.slotVal hs ha hk hz hq hqb) (used_iff h.sb h.spare h.dbits)

lemma EntryStored.extends (hz : addrOf s.disk i k ≠ 0) (he : Sfs.slotVal s.disk (.entry i k n) = 0)
    (hic : t.icache = s.icache) : Extends i s t where
  sb := h.sb
  allocated := allocated_iff h.sb h.ibits
  slots p hp hpb hv := by
    rw [h.slotVal hs ha hk hz hp hpb,if_neg]
    rintro rfl
    exact hv he
  others p hp hpb hi := by
    rw [h.slotVal hs ha hk hz hp hpb,if_neg]
    rintro rfl
    exact hi rfl
  content j x hj := content_assign (p := .entry i k n) he (fun _ hq hqb => h.slotVal hs ha hk hz hq hqb) h.zero
    (fun _ hq hqb hd hv _ hx => h.bytes hs ha hk hq hqb (hd.ne_addr hk.1) hv hx) hj
  icache j _ := by rw [hic]
  own c hc := ⟨c.iAddrs,c.dirty,by rw [hic,hc]⟩

end

end

end Entry

lemma Owned.quiet (hs : Owned s) (h : Quiet s t) : Owned t := by
  obtain ⟨sb,disk,icache,held,supply⟩ := s
  obtain ⟨sb',disk',icache',held',supply'⟩ := t
  obtain ⟨rfl,rfl,rfl⟩ := h
  exact ⟨hs.cached,hs.addrs,hs.exact⟩

lemma Quiet.extends (h : Quiet s t) : Extends i s t := by
  obtain ⟨sb,disk,icache,held,supply⟩ := s
  obtain ⟨sb',disk',icache',held',supply'⟩ := t
  obtain ⟨rfl,rfl,rfl⟩ := h
  exact ⟨rfl,fun _ => Iff.rfl,fun _ _ _ _ => rfl,fun _ _ _ _ => rfl,fun _ _ _ => rfl,fun _ _ => rfl,
    fun c hc => ⟨c.iAddrs,c.dirty,hc⟩⟩

lemma Owned.assign (hs : Owned s) (h : Assign i s t) : Owned t ∧ Extends i s t := by
  cases h with
  | quiet h => exact ⟨hs.quiet h,h.extends⟩
  | addr k b c hb hk hc hz hsb hdisk hicache =>
    have ha := hs.cached i c hc
    have hz' : addrOf s.disk i k = 0 := by rw [← hs.addrs i c hc k hk,hz]
    have hst : AddrStored s t i k b := addrStored_of_disk hb ha hk hsb hdisk (update_self k b c.iAddrs)
      fun l hl hlk => by rw [update_of_ne hlk,hs.addrs i c hc l hl]
    have hal := allocated_iff hst.sb hst.ibits
    refine ⟨⟨fun j c' hj => ?_,fun j c' hj l hl => ?_,hst.exact hs ha hk hz'⟩,hst.extends hs hz' ?_ ?_⟩
    · by_cases hji : j = i
      · exact (hal j).mpr (hji ▸ ha)
      · rw [hicache,update_of_ne hji] at hj
        exact (hal j).mpr (hs.cached j c' hj)
    · rw [hicache] at hj
      by_cases hji : j = i
      · subst hji
        rw [update_self,Option.some_inj] at hj
        subst hj
        by_cases hlk : l = k
        · subst hlk
          simp only [update_self]
          exact hst.addr.symm
        · simp only [update_of_ne hlk]
          rw [hst.addrs j l ha hl (by simpa using hlk),hs.addrs j c hc l hl]
      · rw [update_of_ne hji] at hj
        rw [hst.addrs j l (hs.cached j c' hj) hl (by simpa using fun h => absurd h hji),hs.addrs j c' hj l hl]
    · intro j hj
      rw [hicache,update_of_ne hj]
    · intro c' hc'
      obtain rfl : c = c' := by rw [hc] at hc'; exact Option.some.inj hc'
      exact ⟨_,_,by rw [hicache,update_self]⟩
  | entry k j b c hb hk hc hnz hz hsb hdisk hicache =>
    have ha := hs.cached i c hc
    have hca := hs.addrs i c hc k hk.2.1
    rw [hca] at hnz hz hdisk
    have hu : Used s (addrOf s.disk i k) := hs.used (p := .addr i k) ha hk.addr_of_entry hnz
    have hst : EntryStored s t (addrOf s.disk i k) j b := entryStored_of_disk hb hu hk.2.2 hsb hdisk
    have hal := allocated_iff hst.sb hst.ibits
    have he : slotVal s.disk (.entry i k j) = 0 := by simp only [slotVal,if_neg hnz,hz]
    refine ⟨⟨fun l c' hl => ?_,fun l c' hl r hr => ?_,hst.exact hs ha hk hnz he⟩,hst.extends hs ha hk hnz he hicache⟩
    · exact (hal l).mpr (hs.cached l c' (hicache ▸ hl))
    · rw [hicache] at hl
      rw [hst.addrs l r (hs.cached l c' hl) hr,hs.addrs l c' hl r hr]

def Grow (i : Nat) : Fs → Fs → Prop := Relation.ReflTransGen (Assign i)

lemma Owned.grow (hs : Owned s) (h : Grow i s t) : Owned t ∧ Extends i s t := by
  induction h with
  | refl => exact ⟨hs,.refl i s⟩
  | tail _ ha ih =>
    obtain ⟨ho,he⟩ := ih.1.assign ha
    exact ⟨ho,ih.2.trans he⟩

end MappedMemory.Sfs
