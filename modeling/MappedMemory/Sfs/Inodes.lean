import MappedMemory.Sfs.Entries

namespace MappedMemory.Sfs

open Function (update)
open Bytes Routine

variable {s t u : Fs} {i j k n x inum mode : Nat} {c : Inode} {p : Slot} {ft : Ftype}

structure NewInode (s t : Fs) (inum : Nat) (ft : Ftype) (mode : Nat) : Prop where
  lower : 1 ≤ inum
  upper : inum ≤ s.sb.sNumInodes
  free : inodeBit s.disk (inum - 1) = false
  sb : t.sb = s.sb
  icache : t.icache = s.icache
  disk : t.disk = putInode (setBit s.disk (bdevBlkSize * sfsInodeBmapBlk) (inum - 1)) inum ft mode 1 0 fun _ => 0

structure FreedInode (s t : Fs) (inum : Nat) : Prop where
  sb : t.sb = s.sb
  icache : t.icache = s.icache
  disk : t.disk = clearBit s.disk (bdevBlkSize * sfsInodeBmapBlk) (inum - 1)

lemma allocDiskInode_some {r : Except SfsErr Nat} (h : allocDiskInode ft mode s = some (r,t)) :
    Settled s t ∧ ((∃ e, r = .error e ∧ Quiet s t) ∨ ∃ inum, r = .ok inum ∧ NewInode s t inum ft mode) := by
  unfold allocDiskInode at h
  rw [get_bind,bind_some] at h
  obtain ⟨ok,s1,ha,h⟩ := h
  cases ok with
  | false =>
    obtain ⟨sup,hsub,-,rfl⟩ := acquire_false ha
    cases h
    exact ⟨.of_held hsub rfl,.inl ⟨_,rfl,⟨rfl,rfl,rfl⟩⟩⟩
  | true =>
    obtain ⟨sup,hsub,rfl⟩ := acquire_true ha
    simp only [unless_true] at h
    obtain ⟨found,u,hf,h⟩ := bind_some.mp h
    rcases bmapAllocElement_some hf with ⟨rfl,rfl,-⟩ | ⟨index,rfl,hlt,hclear,rfl⟩
    · obtain ⟨_,v,hr,h⟩ := bind_some.mp h
      obtain ⟨-,rfl⟩ := release_some hr
      cases h
      exact ⟨.of_held hsub (by simp),.inl ⟨_,rfl,⟨rfl,rfl,rfl⟩⟩⟩
    · simp only at h
      obtain ⟨ok,v,hg,h⟩ := bind_some.mp h
      cases ok with
      | false =>
        obtain ⟨sup',hsub',-,rfl⟩ := acquire_false hg
        simp only [Bool.not_false,if_true,bind_some] at h
        obtain ⟨_,v,hfree,_,w,hr,h⟩ := h
        obtain rfl := bmapFreeElement_some hfree
        obtain ⟨-,rfl⟩ := release_some hr
        cases h
        exact ⟨.of_held (List.Subset.trans hsub' hsub) (by simp),
          .inl ⟨_,rfl,⟨rfl,clearBit_setBit hclear,rfl⟩⟩⟩
      | true =>
        obtain ⟨sup',hsub',rfl⟩ := acquire_true hg
        simp only [unless_true,bind_some] at h
        obtain ⟨_,v,hr,_,w,hm,_,y,hr',h⟩ := h
        obtain ⟨-,rfl⟩ := release_some hr
        obtain rfl := modify_some.mp hm
        obtain ⟨-,rfl⟩ := release_some hr'
        cases h
        refine ⟨.of_held (List.Subset.trans hsub' hsub) (erase_erase_cons _ _ _),.inr ⟨index + 1,rfl,?_⟩⟩
        exact ⟨by omega,by omega,hclear,rfl,rfl,rfl⟩

lemma freeDiskInode_some {r : Except SfsErr Unit} (h : freeDiskInode inum s = some (r,t)) :
    Settled s t ∧ ((∃ e, r = .error e ∧ pins s sfsInodeBmapBlk = 0 ∧ Quiet s t) ∨ FreedInode s t inum) := by
  unfold freeDiskInode at h
  obtain ⟨-,h⟩ := kassert_bind.mp h
  obtain ⟨ok,s1,ha,h⟩ := bind_some.mp h
  cases ok with
  | false =>
    have hpin : pins s sfsInodeBmapBlk = 0 := by
      by_contra hne
      have hmem : (sfsInodeBmapBlk,false) ∈ s.held := List.count_pos_iff.mp (Nat.pos_of_ne_zero hne)
      have hany : (s.held.any fun r => r.1 == sfsInodeBmapBlk) = true :=
        List.any_eq_true.mpr ⟨_,hmem,beq_self_eq_true _⟩
      cases (acquire_pinned hany ha).1
    obtain ⟨sup,hsub,-,rfl⟩ := acquire_false ha
    cases h
    exact ⟨.of_held hsub rfl,.inl ⟨_,rfl,hpin,⟨rfl,rfl,rfl⟩⟩⟩
  | true =>
    obtain ⟨sup,hsub,rfl⟩ := acquire_true ha
    simp only [unless_true,bind_some] at h
    obtain ⟨_,v,hfree,_,w,hr,h⟩ := h
    obtain rfl := bmapFreeElement_some hfree
    obtain ⟨-,rfl⟩ := release_some hr
    cases h
    exact ⟨.of_held hsub (by simp),.inr ⟨rfl,rfl,rfl⟩⟩

structure RowChange (s t : Fs) (inum : Nat) : Prop where
  lower : 1 ≤ inum
  upper : inum ≤ s.sb.sNumInodes
  sb : t.sb = s.sb
  icache : t.icache = s.icache
  bits : ∀ n, n < 4096 → n ≠ inum - 1 → inodeBit t.disk n = inodeBit s.disk n
  rest : ∀ x, 2048 ≤ x → x < inodeAddr inum ∨ inodeAddr inum + 64 ≤ x → t.disk x = s.disk x

lemma inodeBmap_byte (hn : n < 4096) (hx : 2048 ≤ x) : x ≠ bdevBlkSize * sfsInodeBmapBlk + n / 8 := by
  simp only [bdevBlkSize,sfsInodeBmapBlk]
  omega

lemma NewInode.change (h : NewInode s t inum ft mode) : RowChange s t inum where
  lower := h.lower
  upper := h.upper
  sb := h.sb
  icache := h.icache
  bits n hn hne := by
    rw [h.disk,inodeBit_putInode hn,inodeBit,bit_setBit]
    simp [hne,inodeBit]
  rest x hx hout := by
    have hl := s.sb.layout.1
    have hu := h.upper
    rw [h.disk,putInode_outside hout]
    exact poke_other (inodeBmap_byte (by omega) hx)

lemma NewInode.bit_new (h : NewInode s t inum ft mode) : inodeBit t.disk (inum - 1) = true := by
  have hl := s.sb.layout.1
  have hu := h.upper
  rw [h.disk,inodeBit_putInode (by omega),inodeBit,bit_setBit]
  simp

lemma FreedInode.change (h : FreedInode s t inum) (h1 : 1 ≤ inum) (h2 : inum ≤ s.sb.sNumInodes) :
    RowChange s t inum where
  lower := h1
  upper := h2
  sb := h.sb
  icache := h.icache
  bits n hn hne := by
    rw [h.disk,inodeBit,bit_clearBit]
    simp [hne,inodeBit]
  rest x hx _ := by
    have hl := s.sb.layout.1
    rw [h.disk]
    exact poke_other (inodeBmap_byte (by omega) hx)

lemma FreedInode.bit_freed (h : FreedInode s t inum) : inodeBit t.disk (inum - 1) = false := by
  rw [h.disk,inodeBit,bit_clearBit]
  simp

section RowChange

variable (h : RowChange s t inum)

include h

lemma RowChange.allocated (hj : j ≠ inum) : Allocated t j ↔ Allocated s j := by
  have hl := s.sb.layout.1
  have h1 := h.lower
  unfold Allocated
  rw [h.sb]
  refine and_congr_right fun h1 => and_congr_right fun h2 => ?_
  rw [h.bits _ (by omega) (by omega)]

lemma RowChange.data (hx : dataAt s.sb ≤ x) : t.disk x = s.disk x := by
  have := inodeAddr_dataAt h.lower h.upper
  rw [inodeAddr_eq] at this
  exact h.rest x (by omega) (.inr (by rw [inodeAddr_eq]; omega))

lemma RowChange.used (b : Nat) : Used t b ↔ Used s b := by
  have := inodeAddr_lt h.lower h.upper
  unfold Used
  rw [h.sb]
  refine and_congr_right fun h1 => and_congr_right fun h2 => ?_
  rw [inodeAddr_eq] at this
  rw [dataBit_congr (by omega) fun x hx _ => h.rest x (by omega) (.inr (by rw [inodeAddr_eq]; omega))]

lemma RowChange.row (hj : 1 ≤ j) (hne : j ≠ inum) (hx : x < 64) :
    t.disk (inodeAddr j + x) = s.disk (inodeAddr j + x) := by
  have h1 := h.lower
  have he := inodeAddr_eq j
  have he' := inodeAddr_eq inum
  exact h.rest _ (by omega) (by omega)

lemma RowChange.addrOf (hj : 1 ≤ j) (hne : j ≠ inum) (hk : k < 14) : Sfs.addrOf t.disk j k = Sfs.addrOf s.disk j k :=
  addrOf_congr hk fun x h1 h2 => by
    obtain ⟨y,rfl⟩ := Nat.exists_eq_add_of_le h1
    exact h.row hj hne (by omega)

lemma RowChange.slotVal (hs : Owned s) (ha : Allocated s p.inum) (hne : p.inum ≠ inum) (hp : p.Bounded) :
    slotVal t.disk p = slotVal s.disk p := by
  cases p with
  | addr j k => exact h.addrOf ha.1 hne hp
  | entry j k l =>
    have hk : Sfs.addrOf t.disk j k = Sfs.addrOf s.disk j k := h.addrOf ha.1 hne hp.2.1
    simp only [Sfs.slotVal,hk]
    split
    · rfl
    · rename_i hz
      have hu := hs.used (p := .addr j k) ha hp.addr_of_entry hz
      have hlow := dataAt_le hu.1
      refine word_congr fun x h1 h2 => h.data ?_
      simp only [bdevBlkSize,Sfs.slotVal] at h1 hlow
      omega

lemma RowChange.content (hs : Owned s) (ha : Allocated s j) (hne : j ≠ inum) :
    content t.disk j x = content s.disk j x :=
  content_of_slots hs ha (fun p hp hb => h.slotVal hs (by rwa [hp]) (by rwa [hp]) hb) fun y hy => h.data hy

lemma RowChange.owned (hs : Owned s) (hnc : s.icache inum = none)
    (hzs : Allocated s inum → ∀ p, p.inum = inum → p.Bounded → Sfs.slotVal s.disk p = 0)
    (hzt : Allocated t inum → ∀ p, p.inum = inum → p.Bounded → Sfs.slotVal t.disk p = 0) : Owned t := by
  have hne : ∀ j c, s.icache j = some c → j ≠ inum := by
    rintro j c hc rfl
    rw [hnc] at hc
    cases hc
  refine ⟨fun j c hc => ?_,fun j c hc k hk => ?_,hs.exact.congr (fun p b => ?_) h.used⟩
  · rw [h.icache] at hc
    exact (h.allocated (hne j c hc)).mpr (hs.cached j c hc)
  · rw [h.icache] at hc
    rw [hs.addrs j c hc k hk,h.addrOf (hs.cached j c hc).1 (hne j c hc) hk]
  · by_cases hp : p.inum = inum
    · constructor
      · rintro ⟨ha,hb,hv,hnz⟩
        exact absurd (hv.symm.trans (hzt (hp ▸ ha) p hp hb)) hnz
      · rintro ⟨ha,hb,hv,hnz⟩
        exact absurd (hv.symm.trans (hzs (hp ▸ ha) p hp hb)) hnz
    · constructor
      · rintro ⟨ha,hb,hv,hnz⟩
        have ha' := (h.allocated hp).mp ha
        exact ⟨ha',hb,by rw [← h.slotVal hs ha' hp hb,hv],hnz⟩
      · rintro ⟨ha,hb,hv,hnz⟩
        exact ⟨(h.allocated hp).mpr ha,hb,by rw [h.slotVal hs ha hp hb,hv],hnz⟩

end RowChange

lemma slotVal_zero (hz : ∀ k, k < 14 → addrOf s.disk inum k = 0) (hp : p.inum = inum) (hb : p.Bounded) :
    slotVal s.disk p = 0 := by
  subst hp
  cases p with
  | addr j k => exact hz k hb
  | entry j k l => exact if_pos (hz k hb.2.1)

section
variable (h : NewInode s t inum ft mode)
include h

lemma NewInode.not_allocated : ¬Allocated s inum := fun ha => by
  have := ha.2.2
  rw [h.free] at this
  cases this

lemma NewInode.allocated_iff (j : Nat) : Allocated t j ↔ j = inum ∨ Allocated s j := by
  by_cases hj : j = inum
  · subst hj
    exact ⟨fun _ => .inl rfl,fun _ => ⟨h.lower,by rw [h.sb]; exact h.upper,h.bit_new⟩⟩
  · rw [h.change.allocated hj]
    exact ⟨.inr,fun h => h.resolve_left hj⟩

lemma NewInode.addrOf (hk : k < 14) : Sfs.addrOf t.disk inum k = 0 := by
  rw [h.disk]
  exact addrOf_putInode hk

lemma NewInode.not_cached (hs : Owned s) : s.icache inum = none := by
  cases hc : s.icache inum with
  | none => rfl
  | some c => exact absurd (hs.cached inum c hc) h.not_allocated

lemma NewInode.owned (hs : Owned s) : Owned t :=
  h.change.owned hs (h.not_cached hs) (fun ha => absurd ha h.not_allocated) fun _ _ hp hb =>
    slotVal_zero (fun _ hk => h.addrOf hk) hp hb

end

lemma FreedInode.owned (h : FreedInode s t inum) (hs : Owned s) (h1 : 1 ≤ inum) (h2 : inum ≤ s.sb.sNumInodes)
    (hnc : s.icache inum = none) (hz : ∀ k, k < 14 → addrOf s.disk inum k = 0) : Owned t := by
  refine (h.change h1 h2).owned hs hnc (fun _ _ hp hb => slotVal_zero hz hp hb) fun ha => ?_
  have := ha.2.2
  rw [h.bit_freed] at this
  cases this

structure Opened (s t : Fs) (i : Nat) (c : Inode) : Prop where
  sb : t.sb = s.sb
  disk : t.disk = s.disk
  held : t.held = s.held
  icache : t.icache = update s.icache i (some c)
  origin : (∃ d, s.icache i = some d ∧ c = { d with iRef := d.iRef + 1 }) ∨
    (s.icache i = none ∧ c = loaded s.disk i)

lemma sfsReadInode_some {r : Except SfsErr Inode} (h : sfsReadInode i s = some (r,t)) :
    Quiet s t ∧ t.held = s.held ∧ t.supply ⊆ s.supply ∧ ∀ c, r = .ok c → c = loaded s.disk i := by
  unfold sfsReadInode at h
  obtain ⟨ok,u,ha,h⟩ := bind_some.mp h
  have hq := acquire_quiet ha
  cases ok with
  | false =>
    obtain ⟨sup,hsub,-,rfl⟩ := acquire_false ha
    cases h
    exact ⟨hq,rfl,hsub,fun _ he => (nomatch he)⟩
  | true =>
    obtain ⟨sup,hsub,rfl⟩ := acquire_true ha
    simp only [unless_true,get_bind,bind_some] at h
    obtain ⟨_,v,hr,h⟩ := h
    obtain ⟨-,rfl⟩ := release_some hr
    cases h
    refine ⟨⟨rfl,rfl,rfl⟩,by simp,hsub,?_⟩
    rintro _ ⟨⟩
    rfl

lemma fsGetInode_some {r : Except SfsErr Unit} (h : fsGetInode i s = some (r,t)) :
    Settled s t ∧ ((∃ e, r = .error e ∧ Quiet s t ∧ t.held = s.held) ∨ (r = .ok () ∧ ∃ c, Opened s t i c)) := by
  unfold fsGetInode at h
  rw [get_bind] at h
  cases hc : s.icache i with
  | some d =>
    simp only [hc,setInode,modify_bind] at h
    cases h
    exact ⟨.of_held (fun _ hx => hx) rfl,.inr ⟨rfl,_,rfl,rfl,rfl,rfl,.inl ⟨d,hc,rfl⟩⟩⟩
  | none =>
    simp only [hc] at h
    obtain ⟨ok,u,hg,h⟩ := bind_some.mp h
    obtain ⟨sup,hsub,-,rfl⟩ := grant_some hg
    cases ok with
    | false =>
      cases h
      exact ⟨.of_held hsub rfl,.inl ⟨_,rfl,⟨rfl,rfl,rfl⟩,rfl⟩⟩
    | true =>
      simp only [unless_true] at h
      obtain ⟨ok,u,hg,h⟩ := bind_some.mp h
      obtain ⟨sup',hsub',-,rfl⟩ := grant_some hg
      have hsup := List.Subset.trans hsub' hsub
      cases ok with
      | false =>
        cases h
        exact ⟨.of_held hsup rfl,.inl ⟨_,rfl,⟨rfl,rfl,rfl⟩,rfl⟩⟩
      | true =>
        simp only [unless_true] at h
        obtain ⟨r',v,hread,h⟩ := bind_some.mp h
        obtain ⟨hq,hheld,hsv,hload⟩ := sfsReadInode_some hread
        cases r' with
        | error e =>
          cases h
          exact ⟨.of_held (List.Subset.trans hsv hsup) hheld,.inl ⟨_,rfl,⟨hq.sb,hq.disk,hq.icache⟩,hheld⟩⟩
        | ok d =>
          obtain rfl := hload d rfl
          simp only [setInode,modify_bind] at h
          cases h
          refine ⟨.of_held (List.Subset.trans hsv hsup) hheld,.inr ⟨rfl,_,hq.sb,hq.disk,hheld,?_,.inr ⟨hc,rfl⟩⟩⟩
          simp only [hq.icache]

lemma Owned.opened (hs : Owned s) (h : Opened s t i c) (ha : Allocated s i) : Owned t := by
  have hadd : ∀ k, k < 14 → c.iAddrs k = addrOf s.disk i k := fun k hk => by
    rcases h.origin with ⟨d,hd,rfl⟩ | ⟨-,rfl⟩
    · exact hs.addrs i d hd k hk
    · exact if_pos hk
  exact (hs.load ha hadd).quiet ⟨h.sb,h.disk,h.icache⟩

structure Released (s t : Fs) (i : Nat) : Prop where
  sb : t.sb = s.sb
  disk : t.disk = s.disk
  held : t.held = s.held
  supply : t.supply = s.supply
  icache : ∃ c, s.icache i = some c ∧ ((1 < c.iRef ∧
      t.icache = update s.icache i (some { c with iRef := c.iRef - 1 })) ∨
    (c.iRef = 1 ∧ (c.iNlink = 0 ∨ c.dirty = true) ∧ t.icache = s.icache) ∨
    (c.iRef = 1 ∧ c.iNlink ≠ 0 ∧ c.dirty = false ∧ t.icache = update s.icache i none))

lemma fsReleaseInode_some {q : Unit} (h : fsReleaseInode i s = some (q,t)) : Released s t i := by
  unfold fsReleaseInode at h
  obtain ⟨c,hc,h⟩ := inode_bind.mp h
  simp only [kassert_bind,decide_eq_true_eq] at h
  obtain ⟨-,hpos,h⟩ := h
  split at h
  · rename_i hone
    split at h
    · rename_i hlink
      cases h
      exact ⟨rfl,rfl,rfl,rfl,c,hc,.inr (.inl ⟨hone,by simpa using hlink,rfl⟩)⟩
    · rename_i hlink
      obtain rfl := modify_some.mp h
      simp only [Bool.or_eq_true,decide_eq_true_eq,not_or,Bool.not_eq_true] at hlink
      exact ⟨rfl,rfl,rfl,rfl,c,hc,.inr (.inr ⟨hone,hlink.1,hlink.2,rfl⟩)⟩
  · obtain rfl := modify_some.mp h
    exact ⟨rfl,rfl,rfl,rfl,c,hc,.inl ⟨by omega,rfl⟩⟩

lemma Owned.released (hs : Owned s) (h : Released s t i) : Owned t := by
  obtain ⟨c,hc,hic⟩ := h.icache
  rcases hic with ⟨-,hic⟩ | ⟨-,-,hic⟩ | ⟨-,-,-,hic⟩
  · exact (hs.setInode hc (d := { c with iRef := c.iRef - 1 }) rfl).quiet ⟨h.sb,h.disk,hic⟩
  · exact hs.quiet ⟨h.sb,h.disk,hic⟩
  · have hdrop : Owned { s with icache := update s.icache i none } := by
      have hsub : ∀ j e, update s.icache i none j = some e → s.icache j = some e := fun j e hj => by
        by_cases hji : j = i
        · subst hji
          simp at hj
        · rwa [Function.update_of_ne hji] at hj
      exact ⟨fun j e hj => hs.cached j e (hsub j e hj),fun j e hj => hs.addrs j e (hsub j e hj),hs.exact⟩
    exact hdrop.quiet ⟨h.sb,h.disk,hic⟩

end MappedMemory.Sfs
