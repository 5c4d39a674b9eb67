import MappedMemory.Sfs.Trees

namespace MappedMemory.Sfs

open Bytes Naming Routine

variable {s t u v : Fs} {i d o a inum mode src n ofs : Nat} {c ci : Inode} {name nm : List Byte} {ft : Ftype}
  {r : Except SfsErr Unit}

lemma Allocated.lt (h : Allocated s i) : i < 2^32 := by
  have := h.2.1
  have := s.sb.layout.1
  omega

lemma CreateResult.tidy (hs : Tidy s) (hc : s.icache d = some c) (hb : Behind s d c.iSize name)
    (h : CreateResult d ft name mode c s t r) :
    Tidy t ∧ (((∃ e, r = .error e) ∧ tree t = tree s) ∨ r = .ok () ∧ ∃ inum a, ¬Allocated s inum ∧ Allocated t inum ∧
      (tree s).entries d a = none ∧ tree t = ((tree s).birth inum).setEntry d a (some (storedName name,inum))) := by
  cases h with
  | refused e quiet =>
    obtain ⟨ht,he⟩ := hs.quiet quiet
    exact ⟨ht,.inl ⟨⟨e,rfl⟩,he⟩⟩
  | undone e inum u v new grow freed =>
    obtain ⟨ht,he⟩ := hs.undone hc new grow freed
    exact ⟨ht,.inl ⟨⟨e,rfl⟩,he⟩⟩
  | done inum o u v w c1 new added =>
    have hd := hs.owned.cached d c hc
    obtain ⟨hu,heu⟩ := hs.born new
    have hai : Allocated u inum := (new.allocated_iff inum).mpr (.inl rfl)
    have hcu : u.icache d = some c := by rw [new.icache,hc]
    obtain ⟨hfree,ht,he⟩ := hu.added hcu added (new.behind hs.owned hd hb) (Nat.pos_iff_ne_zero.mp new.lower) hai.lt
    rw [heu] at hfree he
    exact ⟨ht,.inr ⟨rfl,inum,o / 32,new.not_allocated,(added.allocated hu.owned).mpr hai,hfree,he⟩⟩

lemma LinkResult.tidy {cs : Inode} (hs : Tidy s) (hc : s.icache d = some c) (hcs : s.icache src = some cs)
    (hb : Behind s d c.iSize name) (h : LinkResult d src name c cs s t r) :
    Tidy t ∧ (((∃ e, r = .error e) ∧ tree t = tree s) ∨ r = .ok () ∧ ∃ a, (tree s).entries d a = none ∧
      tree t = ((tree s).setEntry d a (some (storedName name,src))).relink src ((cs.iNlink + 1) % 2^16)) := by
  have hsrc := hs.owned.cached src cs hcs
  cases h with
  | refused e quiet =>
    obtain ⟨ht,he⟩ := hs.quiet quiet
    exact ⟨ht,.inl ⟨⟨e,rfl⟩,he⟩⟩
  | grown e grow =>
    obtain ⟨ht,he⟩ := hs.grow grow
    exact ⟨ht,.inl ⟨⟨e,rfl⟩,he⟩⟩
  | done o u v w c1 added relinked =>
    obtain ⟨hfree,hu,heu⟩ := hs.added hc added hb (Nat.pos_iff_ne_zero.mp hsrc.1) hsrc.lt
    obtain ⟨ht,he⟩ := hu.relinked relinked
    exact ⟨ht,.inr ⟨rfl,o / 32,hfree,by rw [he,heu]⟩⟩

lemma FirstMatch.entry (h : FirstMatch (content s.disk d) (Sfs.sizeOf s.disk d) name o) (hd : Allocated s d)
    (hi : direntInum (content s.disk d) o ≠ 0) :
    (tree s).entries d (o / 32) = some (recName (content s.disk d) o,direntInum (content s.disk d) o) := by
  rw [tree_entries hd]
  exact records_at h.aligned h.below hi

def AllNamed (s : Fs) : Prop := ∀ d a nm i, (tree s).entries d a = some (nm,i) → Allocated s i

lemma AllNamed.named (h : AllNamed s) (hs : Tidy s) (hc : s.icache d = some c) : Named s d c.iSize name := fun o hm => by
  rw [(hs.coherent d c hc).size] at hm
  have hi : direntInum (content s.disk d) o ≠ 0 := by
    have := hm.found
    rw [direntMatches,Bool.and_eq_true,decide_eq_true_eq] at this
    omega
  exact h d _ _ _ (hm.entry (hs.owned.cached d c hc) hi)

lemma UnlinkResult.tidy (hs : Tidy s) (hn : AllNamed s) (hc : s.icache d = some c)
    (h : UnlinkResult d ft name c s t r) :
    Tidy t ∧ (((∃ e, r = .error e) ∧ tree t = tree s) ∨ r = .ok () ∧ ∃ i o ci u,
      FirstMatch (content s.disk d) (Sfs.sizeOf s.disk d) name o ∧ Opened s u i ci ∧
      (tree s).entries d (o / 32) = some (recName (content s.disk d) o,i) ∧
      tree t = ((tree s).setEntry d (o / 32) none).relink i ((ci.iNlink - 1) % 2^16)) := by
  have hd := hs.owned.cached d c hc
  have hsize := (hs.coherent d c hc).size
  cases h with
  | refused e quiet =>
    obtain ⟨ht,he⟩ := hs.quiet quiet
    exact ⟨ht,.inl ⟨⟨e,rfl⟩,he⟩⟩
  | leaked e i o ci found inum pos opened =>
    obtain ⟨ht,he⟩ := hs.opened opened (inum ▸ hn.named hs hc o found)
    exact ⟨ht,.inl ⟨⟨e,rfl⟩,he⟩⟩
  | closed r i o ci u v found inum pos opened result released =>
    obtain ⟨hu,heu⟩ := hs.opened opened (inum ▸ hn.named hs hc o found)
    have hdu : Allocated u d := by rwa [Allocated,opened.sb,opened.disk]
    cases result with
    | refused e quiet =>
      obtain ⟨hv,hev⟩ := hu.quiet quiet
      obtain ⟨ht,he⟩ := hv.released released
      exact ⟨ht,.inl ⟨⟨e,rfl⟩,by rw [he,hev,heu]⟩⟩
    | done c' o' w cached links ftype empty removed relinked =>
      obtain ⟨hw,hew⟩ := hu.removed hdu removed
      obtain ⟨hv,hev⟩ := hw.relinked relinked
      obtain ⟨ht,he⟩ := hv.released released
      have hm := removed.at_match
      rw [opened.disk] at hm
      obtain rfl := found.unique hm
      obtain rfl : ci = c' := by
        rw [opened.icache,Function.update_self,Option.some.injEq] at cached
        exact cached
      rw [hsize] at found
      refine ⟨ht,.inr ⟨rfl,i,o,ci,u,found,opened,?_,by rw [he,hev,hew,heu]⟩⟩
      rw [found.entry hd (inum ▸ pos),inum]

section Lookup

variable {bh : Option Nat} {base : List (Nat × Bool)}

lemma nextBlk_reads (hs : Owned s) (hc : s.icache d = some c)
    (hsup : s.supply = []) (hat : At s d ofs bh base) (hmap : blkAt s.disk d (ofs / bdevBlkSize) ≠ 0) :
    ∃ b t, nextBlk d false ofs bh s = some (.ok b,t) ∧ t.supply = [] := by
  unfold nextBlk
  split
  · have hgo : ∀ u : Fs, Quiet s u → u.supply = [] → ∃ b t, getDataBlock d ofs false u = some (.ok b,t) ∧ t.supply = [] := by
      intro u hq hu
      rw [getDataBlock_read (hs.quiet hq) (by rw [hq.icache,hc]) hu (lt_max_of_blkAt hmap),hq.disk,readResult,
        if_neg hmap]
      exact ⟨_,_,rfl,hu⟩
    cases bh with
    | none => exact hgo s (.refl s) hsup
    | some b =>
      have hrel : bdevReleaseBlk b s = some ((),{ s with held := base }) := release_ok (by simpa using hat.held)
      simp only
      rw [bind_of_some hrel]
      exact hgo _ ⟨rfl,rfl,rfl⟩ hsup
  · exact ⟨_,_,rfl,hsup⟩

lemma scanDir_reads (hit : Memory → Nat → Nat → Bool) (hs : Owned s)
    (hc : s.icache d = some c) (hsup : s.supply = []) (hat : At s d ofs bh base)
    (hmap : ∀ p, p % 32 = 0 → p < ofs + 32 * n → blkAt s.disk d (p / bdevBlkSize) ≠ 0) :
    ∃ r t, scanDir d false hit n ofs bh s = some (.ok r,t) ∧ t.supply = [] := by
  induction n generalizing s c ofs bh with
  | zero =>
    cases bh with
    | none => exact ⟨_,_,rfl,hsup⟩
    | some b =>
      have hrel : bdevReleaseBlk b s = some ((),{ s with held := base }) := release_ok (by simpa using hat.held)
      rw [scanDir,bind_of_some hrel]
      exact ⟨_,_,rfl,hsup⟩
  | succ n ih =>
    have hal := hat.aligned
    have hm := hmap ofs hal (by omega)
    obtain ⟨b,u,hn,hu⟩ := nextBlk_reads hs hc hsup hat hm
    have hnext := nextBlk_some hs hc hat hn
    obtain ⟨hnz,hblk,hheld⟩ := hnext.blk b rfl
    have hq := hnext.quiet (.inl rfl)
    rw [scanDir,bind_of_some hn]
    simp only [get_bind]
    split
    · exact ⟨_,_,rfl,hu⟩
    · have hat' : At u d (ofs + 32) (some b) base := by
        refine ⟨by omega,hheld,fun hmid => ⟨b,rfl,hnz,?_⟩⟩
        rw [show (ofs + 32) / bdevBlkSize = ofs / bdevBlkSize by simp only [bdevBlkSize]; omega]
        exact hblk
      refine ih (hs.quiet hq) (by rw [hq.icache,hc]) hu hat' fun p hp hlt => ?_
      rw [hq.disk]
      exact hmap p hp (by simp only [sizeofSfsDirent] at hlt; omega)

lemma searchDir_reads (hs : Owned s) (hc : s.icache d = some c) (hsize : c.iSize = Sfs.sizeOf s.disk d)
    (hsh : Shaped s d) (hsup : s.supply = []) (hn : Fits name) :
    ∃ inum t, searchDir d name s = some (inum,t) ∧ Quiet s t ∧ t.supply = [] ∧
      ((inum ≠ 0 ∧ Slots.Maps (dirRecords s d) name inum) ∨
        (inum = 0 ∧ ∀ i, ¬Slots.Maps (dirRecords s d) name i)) := by
  have hal := hsh.aligned
  have hmap : ∀ p, p % 32 = 0 → p < 0 + 32 * direntsBelow c.iSize → blkAt s.disk d (p / bdevBlkSize) ≠ 0 :=
    fun p hp hlt => hsh.mapped p (hsize ▸ lt_of_direntsBelow hlt hp)
  obtain ⟨r,u,hscan,hu⟩ := scanDir_reads (fun m _ a => direntMatches name m a) hs hc hsup (at_start s d) hmap
  have hnamed : scanNamed d (direntMatches name) s = some (.ok r,u) := by
    rw [scanNamed,bind_of_some (inode_of hc)]
    exact hscan
  obtain ⟨hq,-,hsc⟩ := scanNamed_some (direntMatches_local name) hs hc hnamed
  rcases r with _ | ⟨b,o⟩
  · refine ⟨0,u,bind_of_some hnamed,hq,hu,.inr ⟨rfl,?_⟩⟩
    rintro i ⟨a,ha⟩
    obtain ⟨hlt,hne,hnum,hrec⟩ := records_some ha
    have hno := (hsc.miss rfl).2 (32 * a) (Nat.zero_le _)
      (by simp only [direntsBelow,sizeofSfsDirent,hsize]; omega) (by omega)
    rw [(matches_iff hn).mpr ⟨hnum ▸ hne,hrec⟩] at hno
    cases hno
  · have hheld := (hsc.blk b o rfl).2.2
    have hinum := hsc.direntInum_eq rfl
    have hfirst := hsc.firstMatch rfl
    have hsearch : searchDir d name s = some (direntInum u.disk (direntAddr b o),{ u with held := s.held }) := by
      rw [searchDir,bind_of_some hnamed]
      simp only [get_bind,bdevReleaseBlk]
      rw [bind_of_some (release_ok hheld),pure_apply]
    obtain ⟨hne,hname⟩ := (matches_iff hn).mp hfirst.found
    refine ⟨_,_,hsearch,hq.trans ⟨rfl,rfl,rfl⟩,hu,.inl ⟨by rwa [hinum],o / 32,?_⟩⟩
    rw [hsize] at hfirst
    rw [dirRecords,records_at hfirst.aligned hfirst.below hne,hname,hinum]

lemma Tidy.searchDir (hs : Tidy s) (hc : s.icache d = some c) (hsup : s.supply = []) (hn : Fits name) :
    ∃ inum t, searchDir d name s = some (inum,t) ∧ Quiet s t ∧ t.supply = [] ∧
      ((inum ≠ 0 ∧ Slots.Maps ((tree s).entries d) name inum) ∨
        (inum = 0 ∧ ∀ i, ¬Slots.Maps ((tree s).entries d) name i)) := by
  have hd := hs.owned.cached d c hc
  rw [tree_entries hd]
  exact searchDir_reads hs.owned hc (hs.coherent d c hc).size (hs.shaped d hd) hsup hn

lemma fsGetInode_reads (hsup : s.supply = []) : ∃ t, fsGetInode i s = some (.ok (),t) := by
  unfold fsGetInode
  rw [get_bind]
  cases hc : s.icache i with
  | some c => exact ⟨_,rfl⟩
  | none =>
    have hgrant : grant s = some (true,s) := by rw [grant,hsup]
    have hread : sfsReadInode i s = some (.ok (loaded s.disk i),s) := by
      rw [sfsReadInode,bdevGetBlk,bind_of_some (acquire_ok hsup)]
      simp only [unless_true,get_bind,bdevReleaseBlk]
      rw [bind_of_some (release_ok (h := s.held) rfl)]
      rfl
    simp only
    rw [bind_of_some hgrant]
    simp only [unless_true]
    rw [bind_of_some hgrant]
    simp only [unless_true]
    rw [bind_of_some hread]
    exact ⟨_,rfl⟩

end Lookup

end MappedMemory.Sfs
