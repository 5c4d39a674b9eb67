import MappedMemory.Sfs.Effects

namespace MappedMemory.Sfs

open Function (update_of_ne update_self)
open Option (some_inj)
open Bytes

variable {s t : Fs} {i j d o inum n : Nat} {c : Inode} {m m' : Memory} {ft : Ftype} {md nl sz : Nat} {ad : Nat → Nat}

structure SameHead (m m' : Memory) (j : Nat) : Prop where
  ftype : ftypeOf m' j = ftypeOf m j
  nlink : nlinkOf m' j = nlinkOf m j
  size : Sfs.sizeOf m' j = Sfs.sizeOf m j

lemma SameHead.refl (m : Memory) (j : Nat) : SameHead m m j := ⟨rfl,rfl,rfl⟩

lemma SameHead.trans {m'' : Memory} (h : SameHead m m' j) (h' : SameHead m' m'' j) : SameHead m m'' j :=
  ⟨h'.ftype.trans h.ftype,h'.nlink.trans h.nlink,h'.size.trans h.size⟩

lemma sameHead_of_bytes (h : ∀ x, x < 8 → m' (inodeAddr j + x) = m (inodeAddr j + x)) : SameHead m m' j where
  ftype := by
    have := h 0 (by omega)
    rw [Nat.add_zero] at this
    rw [ftypeOf,ftypeOf,this]
  nlink := word_shift_congr fun x hx => by rw [Nat.add_assoc]; exact h _ (by omega)
  size := word_shift_congr fun x hx => by rw [Nat.add_assoc]; exact h _ (by omega)

lemma sameHead_putInode (hi : 1 ≤ i) (hj : 1 ≤ j) (hne : j ≠ i) : SameHead m (putInode m i ft md nl sz ad) j :=
  sameHead_of_bytes fun x hx => putInode_outside (by
    have h1 := inodeAddr_eq i
    have h2 := inodeAddr_eq j
    omega)

structure Copy (m : Memory) (i : Nat) (c : Inode) : Prop where
  ftype : c.iFtype = ftypeOf m i
  nlink : c.iNlink % 2^16 = nlinkOf m i
  size : c.iSize = Sfs.sizeOf m i
  clean : c.dirty = false

lemma Copy.same (h : Copy m i c) (hm : SameHead m m' i) : Copy m' i c :=
  ⟨h.ftype.trans hm.ftype.symm,h.nlink.trans hm.nlink.symm,h.size.trans hm.size.symm,h.clean⟩

lemma Copy.size_lt (h : Copy m i c) : c.iSize < 2^32 := h.size ▸ word_lt m _ 4

lemma ofCode_toCode (h : n < 256) : Ftype.ofCode ((Ftype.ofCode n).toCode % 256) = .ofCode n := by
  have hcode : (Ftype.ofCode n).toCode = n := by
    unfold Ftype.ofCode
    split <;> rfl
  rw [hcode,Nat.mod_eq_of_lt h]

lemma Copy.ftype_code (h : Copy m i c) : .ofCode (c.iFtype.toCode % 256) = c.iFtype := by
  rw [h.ftype,ftypeOf]
  exact ofCode_toCode (BitVec.isLt _)

lemma Copy.sameHead_put (h : Copy m i c) : SameHead m (putInode m' i c.iFtype md c.iNlink c.iSize ad) i where
  ftype := by rw [ftypeOf_putInode,h.ftype_code,h.ftype]
  nlink := by rw [nlinkOf_putInode,h.nlink]
  size := by rw [sizeOf_putInode,Nat.mod_eq_of_lt h.size_lt,h.size]

def Coherent (s : Fs) : Prop := ∀ i c, s.icache i = some c → Copy s.disk i c

lemma LowSame.sameHead (h : LowSame s t) (ha : Allocated s j) : SameHead s.disk t.disk j :=
  sameHead_of_bytes fun x hx => h.low _ (by
    have := inodeAddr_dataAt ha.1 ha.2.1
    omega)

lemma sameHead_takeBlk {b : Nat} (hb : Spare s b) (ha : Allocated s j) : SameHead s.disk (takeBlk s.sb s.disk b) j :=
  sameHead_of_bytes fun x hx => takeBlk_low hb.lower
    (by have := inodeAddr_dataAt ha.1 ha.2.1; omega) (by have := inodeAddr_lt ha.1 ha.2.1; omega)

lemma Coherent.of_same (hs : Owned s) (hco : Coherent s) (hic : t.icache = s.icache)
    (h : ∀ j, Allocated s j → SameHead s.disk t.disk j) : Coherent t := fun j c hc => by
  rw [hic] at hc
  exact (hco j c hc).same (h j (hs.cached j c hc))

lemma Coherent.assign (hs : Owned s) (hco : Coherent s) (h : Assign i s t) :
    Coherent t ∧ ∀ j, Allocated s j → SameHead s.disk t.disk j := by
  cases h with
  | quiet h =>
    have hsame : ∀ j, Allocated s j → SameHead s.disk t.disk j := fun j _ => h.disk ▸ .refl _ j
    exact ⟨hco.of_same hs h.icache hsame,hsame⟩
  | addr k b c hb hk hc hz hsb hdisk hicache =>
    have ha := hs.cached i c hc
    have hcopy := hco i c hc
    have hsame : ∀ j, Allocated s j → SameHead s.disk t.disk j := fun j hj => by
      rw [hdisk]
      by_cases hji : j = i
      · subst hji
        exact hcopy.sameHead_put
      · exact (sameHead_takeBlk hb hj).trans (sameHead_putInode ha.1 hj.1 hji)
    refine ⟨fun j e he => ?_,hsame⟩
    rw [hicache] at he
    by_cases hji : j = i
    · subst hji
      rw [update_self,some_inj] at he
      subst he
      have hcp := hcopy.same (hsame j ha)
      exact ⟨hcp.ftype,hcp.nlink,hcp.size,rfl⟩
    · rw [update_of_ne hji] at he
      exact (hco j e he).same (hsame j (hs.cached j e he))
  | entry k l b c hb hk hc hnz hz hsb hdisk hicache =>
    have ha := hs.cached i c hc
    have hca := hs.addrs i c hc k hk.2.1
    have hu := hs.used (p := .addr i k) ha hk.addr_of_entry (by simpa only [slotVal,← hca] using hnz)
    have hlow := dataAt_le hu.1
    have hsame : ∀ j, Allocated s j → SameHead s.disk t.disk j := fun j hj => by
      refine (sameHead_takeBlk hb hj).trans (sameHead_of_bytes fun x hx => ?_)
      have := inodeAddr_dataAt hj.1 hj.2.1
      rw [hdisk,hca]
      simp only [slotVal] at hlow
      exact fill_outside (.inl (by simp only [bdevBlkSize]; omega))
    exact ⟨hco.of_same hs hicache hsame,hsame⟩

lemma Coherent.grow (hs : Owned s) (hco : Coherent s) (h : Grow i s t) :
    Coherent t ∧ ∀ j, Allocated s j → SameHead s.disk t.disk j := by
  induction h with
  | refl => exact ⟨hco,fun j _ => .refl _ j⟩
  | tail hg ha ih =>
    obtain ⟨ho,hext⟩ := hs.grow hg
    obtain ⟨hco',hsame⟩ := ih.1.assign ho ha
    exact ⟨hco',fun j hj => (ih.2 j hj).trans (hsame j ((hext.allocated j).mpr hj))⟩

lemma Coherent.quiet (hco : Coherent s) (h : Quiet s t) : Coherent t := fun i c hc => by
  rw [h.icache] at hc
  rw [h.disk]
  exact hco i c hc

lemma Resized.head {c1 : Inode} (h : Resized d o c1 s t) (hs : Owned s) (hco : Coherent s)
    (hc : s.icache d = some c1) (ho : o < sfsMaxFileSize) :
    Coherent t ∧ (∀ j, Allocated s j → j ≠ d → SameHead s.disk t.disk j) ∧
      ftypeOf t.disk d = ftypeOf s.disk d ∧ nlinkOf t.disk d = nlinkOf s.disk d ∧
      Sfs.sizeOf t.disk d = newSize (Sfs.sizeOf s.disk d) o := by
  have ha := hs.cached d c1 hc
  have hcopy := hco d c1 hc
  have hmax : o + sizeofSfsDirent < 2^32 := by
    have : sfsMaxFileSize + sizeofSfsDirent < 2^32 := by decide
    omega
  have hother : ∀ j, Allocated s j → j ≠ d → SameHead s.disk t.disk j := fun j hj hji => by
    rw [h.disk]
    split
    · exact sameHead_putInode ha.1 hj.1 hji
    · exact .refl _ j
  have hsize : Sfs.sizeOf t.disk d = newSize (Sfs.sizeOf s.disk d) o := by
    rw [h.disk,newSize,← hcopy.size]
    split
    · rw [sizeOf_putInode,Nat.mod_eq_of_lt hmax]
    · exact hcopy.size.symm
  have hft : ftypeOf t.disk d = ftypeOf s.disk d := by
    rw [h.disk]
    split
    · rw [ftypeOf_putInode,hcopy.ftype_code,hcopy.ftype]
    · rfl
  have hnl : nlinkOf t.disk d = nlinkOf s.disk d := by
    rw [h.disk]
    split
    · rw [nlinkOf_putInode,hcopy.nlink]
    · rfl
  refine ⟨fun j e he => ?_,hother,hft,hnl,hsize⟩
  obtain ⟨dirty,hic,hclean⟩ := h.icache
  rw [hic] at he
  by_cases hjd : j = d
  · subst hjd
    rw [update_self,some_inj] at he
    subst he
    exact ⟨hcopy.ftype.trans hft.symm,hcopy.nlink.trans hnl.symm,by rw [hsize,← hcopy.size],hclean hcopy.clean⟩
  · rw [update_of_ne hjd] at he
    exact (hco j e he).same (hother j (hs.cached j e he) hjd)

lemma Relinked.head (h : Relinked s t i n) (hs : Owned s) (hco : Coherent s) :
    Coherent t ∧ (∀ j, Allocated s j → j ≠ i → SameHead s.disk t.disk j) ∧
      ftypeOf t.disk i = ftypeOf s.disk i ∧ nlinkOf t.disk i = n % 2^16 ∧
      Sfs.sizeOf t.disk i = Sfs.sizeOf s.disk i := by
  obtain ⟨c,hc,hic,hd⟩ := h.inode
  have ha := hs.cached i c hc
  have hcopy := hco i c hc
  have hother : ∀ j, Allocated s j → j ≠ i → SameHead s.disk t.disk j := fun j hj hji =>
    hd ▸ sameHead_putInode ha.1 hj.1 hji
  have hft : ftypeOf t.disk i = ftypeOf s.disk i := by rw [hd,ftypeOf_putInode,hcopy.ftype_code,hcopy.ftype]
  have hnl : nlinkOf t.disk i = n % 2^16 := by rw [hd,nlinkOf_putInode]
  have hsz : Sfs.sizeOf t.disk i = Sfs.sizeOf s.disk i := by
    rw [hd,sizeOf_putInode,Nat.mod_eq_of_lt hcopy.size_lt,hcopy.size]
  refine ⟨fun j e he => ?_,hother,hft,hnl,hsz⟩
  rw [hic] at he
  by_cases hji : j = i
  · subst hji
    rw [update_self,some_inj] at he
    subst he
    exact ⟨hcopy.ftype.trans hft.symm,hnl.symm,hcopy.size.trans hsz.symm,rfl⟩
  · rw [update_of_ne hji] at he
    exact (hco j e he).same (hother j (hs.cached j e he) hji)

lemma RowChange.sameHead (h : RowChange s t inum) (hj : 1 ≤ j) (hne : j ≠ inum) : SameHead s.disk t.disk j :=
  sameHead_of_bytes fun x hx => h.row hj hne (by omega)

lemma Coherent.change (hs : Owned s) (hco : Coherent s) (h : RowChange s t inum) (hnc : s.icache inum = none) :
    Coherent t := fun j e he => by
  rw [h.icache] at he
  have hne : j ≠ inum := by
    rintro rfl
    rw [hnc] at he
    cases he
  exact (hco j e he).same (h.sameHead (hs.cached j e he).1 hne)

lemma Coherent.opened (hco : Coherent s) (h : Opened s t i c) : Coherent t := fun j e he => by
  rw [h.icache] at he
  rw [h.disk]
  by_cases hji : j = i
  · subst hji
    rw [update_self,some_inj] at he
    subst he
    rcases h.origin with ⟨d,hd,rfl⟩ | ⟨-,rfl⟩
    · have hcopy := hco j d hd
      exact ⟨hcopy.ftype,hcopy.nlink,hcopy.size,hcopy.clean⟩
    · exact ⟨rfl,Nat.mod_eq_of_lt (word_lt _ _ 2),rfl,rfl⟩
  · rw [update_of_ne hji] at he
    exact hco j e he

lemma Released.subset (h : Released s t i) (hc : t.icache j = some c) :
    ∃ d, s.icache j = some d ∧ ∃ r, c = { d with iRef := r } := by
  obtain ⟨e,he,hic⟩ := h.icache
  by_cases hji : j = i
  · subst hji
    rcases hic with ⟨-,hic⟩ | ⟨-,-,hic⟩ | ⟨-,-,-,hic⟩
    · rw [hic,update_self,some_inj] at hc
      exact ⟨e,he,_,hc.symm⟩
    · rw [hic,he,some_inj] at hc
      exact ⟨e,he,e.iRef,hc.symm⟩
    · rw [hic,update_self] at hc
      cases hc
  · refine ⟨c,?_,c.iRef,rfl⟩
    rcases hic with ⟨-,hic⟩ | ⟨-,-,hic⟩ | ⟨-,-,-,hic⟩
    · rwa [hic,update_of_ne hji] at hc
    · rwa [hic] at hc
    · rwa [hic,update_of_ne hji] at hc

lemma Coherent.released (hco : Coherent s) (h : Released s t i) : Coherent t := fun j c hc => by
  obtain ⟨d,hd,r,rfl⟩ := h.subset hc
  have hcopy := hco j d hd
  rw [h.disk]
  exact ⟨hcopy.ftype,hcopy.nlink,hcopy.size,hcopy.clean⟩

end MappedMemory.Sfs
