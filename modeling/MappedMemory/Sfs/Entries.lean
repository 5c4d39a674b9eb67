import MappedMemory.Sfs.Scan

namespace MappedMemory.Sfs

open Bytes Routine

variable {s t u : Fs} {i d o b inum size : Nat} {c : Inode} {m m' : Memory} {name : List Byte} {p : Unit}
  {a n ofs : Nat} {r : Except SfsErr (Option (Nat × Nat))} {base : List (Nat × Bool)}

structure Settled (s t : Fs) : Prop where
  supply : t.supply ⊆ s.supply
  pins : ∀ x, pins t x = pins s x

lemma Settled.refl (s : Fs) : Settled s s := ⟨fun _ hx => hx,fun _ => rfl⟩

lemma Settled.trans (h : Settled s t) (h' : Settled t u) : Settled s u :=
  ⟨List.Subset.trans h'.supply h.supply,fun x => (h'.pins x).trans (h.pins x)⟩

lemma Settled.of_held (hs : t.supply ⊆ s.supply) (hh : t.held = s.held) : Settled s t := ⟨hs,pins_of_held hh⟩

lemma release_settled (h : release true b s = some (p,t)) : Settled s t := by
  have hp := release_pins h
  obtain ⟨-,rfl⟩ := release_some h
  exact ⟨fun _ hx => hx,fun x => by simpa using (hp x).symm⟩

lemma direntInum_local {a' : Nat} (h : ∀ x, x < 32 → m (a + x) = m' (a' + x)) : direntInum m a = direntInum m' a' :=
  word_shift_congr fun x hx => h x (by omega)

lemma direntMatches_local (name : List Byte) : Local fun m _ a => direntMatches name m a := by
  intro m m' o a a' h
  have hname : strncmp (direntName m a) (cstr name) sfsDirentNamelen =
      strncmp (direntName m' a') (cstr name) sfsDirentNamelen := strncmpFrom_congr fun x hx => by
    simp only [direntName,Nat.add_assoc]
    exact h (4 + x) (by simp only [sfsDirentNamelen] at hx; omega)
  simp only [direntMatches,direntInum_local h,hname]

structure FirstMatch (m : Memory) (size : Nat) (name : List Byte) (o : Nat) : Prop where
  aligned : o % 32 = 0
  below : o < size
  found : direntMatches name m o = true
  before : ∀ p, p < o → p % 32 = 0 → direntMatches name m p = false

structure FirstFree (m : Memory) (size o : Nat) : Prop where
  aligned : o % 32 = 0
  bound : o < sfsMaxFileSize
  free : size ≤ o ∨ direntInum m o = 0
  before : ∀ p, p < o → p % 32 = 0 → p < size ∧ direntInum m p ≠ 0

lemma FirstMatch.unique {o' : Nat} (h : FirstMatch m size name o) (h' : FirstMatch m size name o') : o = o' := by
  rcases Nat.lt_trichotomy o o' with hlt | heq | hgt
  · exact absurd (h'.before o hlt h.aligned) (by simp [h.found])
  · exact heq
  · exact absurd (h.before o' hgt h'.aligned) (by simp [h'.found])

lemma at_start (s : Fs) (i : Nat) : At s i 0 none s.held := ⟨rfl,rfl,fun h => absurd rfl h⟩

lemma lt_of_direntsBelow (h : o < 0 + 32 * direntsBelow size) (ha : o % 32 = 0) : o < size := by
  simp only [direntsBelow,sizeofSfsDirent] at h
  omega

lemma scanNamed_some {hit : Memory → Nat → Bool} (hl : Local fun m _ a => hit m a) (hs : Owned s) (hc : s.icache i = some c)
    (h : scanNamed i hit s = some (r,t)) : Quiet s t ∧ Settled s t ∧
      Scanned i false (fun m _ a => hit m a) (direntsBelow c.iSize) 0 s.held s t r := by
  unfold scanNamed at h
  obtain ⟨c',hc',h⟩ := inode_bind.mp h
  cases hc.symm.trans hc'
  have hscan := scanDir_some hl hs hc (at_start s i) h
  exact ⟨hscan.quiet rfl,⟨hscan.supply,hscan.pins⟩,hscan⟩

lemma Scanned.firstMatch (h : Scanned i false (fun m _ a => direntMatches name m a) (direntsBelow size) 0 base s t r)
    (hr : r = .ok (some (b,o))) : FirstMatch (content s.disk i) size name o := by
  obtain ⟨h1,h2,h3,h4,h5⟩ := h.first b o hr
  exact ⟨h3,lt_of_direntsBelow h2 h3,h4,fun p hp => h5 p (Nat.zero_le _) hp⟩

lemma Scanned.direntInum_eq {hit : Memory → Nat → Nat → Bool} (h : Scanned i false hit n ofs base s t r) (hr : r = .ok (some (b,o))) :
    direntInum t.disk (direntAddr b o) = direntInum (content s.disk i) o := by
  obtain ⟨hnz,hb,-⟩ := h.blk b o hr
  obtain ⟨-,-,ha,-⟩ := h.first b o hr
  have hq := h.quiet rfl
  subst hb
  rw [hq.disk] at hnz ⊢
  exact direntInum_local fun x hx => content_record ha hx hnz

lemma searchDir_some (hs : Owned s) (hc : s.icache i = some c) (h : searchDir i name s = some (inum,t)) :
    Quiet s t ∧ Settled s t ∧ (inum ≠ 0 → t.held = s.held ∧
      ∃ o, FirstMatch (content s.disk i) c.iSize name o ∧ inum = direntInum (content s.disk i) o) := by
  unfold searchDir at h
  obtain ⟨r,u,hscan,h⟩ := bind_some.mp h
  obtain ⟨hq,hset,hsc⟩ := scanNamed_some (direntMatches_local name) hs hc hscan
  rcases r with e | _ | ⟨b,o⟩
  · cases h
    exact ⟨hq,hset,fun hne => absurd rfl hne⟩
  · cases h
    exact ⟨hq,hset,fun hne => absurd rfl hne⟩
  · simp only [get_bind] at h
    obtain ⟨_,v,hr,h⟩ := bind_some.mp h
    cases h
    have hrel := release_settled hr
    have hinum := hsc.direntInum_eq rfl
    have hheld := (hsc.blk b o rfl).2.2
    have hqr := release_quiet hr
    obtain ⟨-,rfl⟩ := release_some hr
    refine ⟨hq.trans hqr,hset.trans hrel,fun _ => ⟨?_,o,?_,hinum⟩⟩
    · simp [hheld]
    · exact hsc.firstMatch rfl

structure Removed (d : Nat) (name : List Byte) (size : Nat) (s t : Fs) (o : Nat) : Prop where
  at_match : FirstMatch (content s.disk d) size name o
  blk : blkAt s.disk d (o / bdevBlkSize) ≠ 0
  sb : t.sb = s.sb
  icache : t.icache = s.icache
  disk : t.disk = fill s.disk (bdevBlkSize * blkAt s.disk d (o / bdevBlkSize) + o % bdevBlkSize) 4 fun _ => 0

lemma putWord_zero : putWord m a n 0 = fill m a n fun _ => 0 :=
  fill_congr fun k _ => by simp [byteOf]

lemma freeDirent_some {r : Except SfsErr Unit} (hs : Owned s) (hc : s.icache d = some c)
    (h : freeDirent d name s = some (r,t)) :
    Settled s t ∧ ((∃ e, r = .error e ∧ Quiet s t) ∨ (r = .ok () ∧ ∃ o, Removed d name c.iSize s t o)) := by
  unfold freeDirent at h
  obtain ⟨r',u,hscan,h⟩ := bind_some.mp h
  obtain ⟨hq,hset,hsc⟩ := scanNamed_some (direntMatches_local name) hs hc hscan
  rcases r' with e | _ | ⟨b,o⟩
  · cases h
    exact ⟨hset,.inl ⟨e,rfl,hq⟩⟩
  · cases h
    exact ⟨hset,.inl ⟨_,rfl,hq⟩⟩
  · simp only [modifyDisk,modify_bind] at h
    obtain ⟨_,v,hr,h⟩ := bind_some.mp h
    cases h
    have hrel : Settled u t := ⟨(release_settled hr).supply,(release_settled hr).pins⟩
    obtain ⟨hnz,hb,-⟩ := hsc.blk b o rfl
    obtain ⟨-,rfl⟩ := release_some hr
    rw [hq.disk] at hb
    subst hb
    refine ⟨hset.trans hrel,.inr ⟨rfl,o,?_⟩⟩
    refine ⟨hsc.firstMatch rfl,hnz,hq.sb,hq.icache,?_⟩
    rw [putWord_zero,hq.disk,direntAddr]

lemma isDirEmpty_some {r : Except SfsErr Bool} (hs : Owned s) (hc : s.icache i = some c)
    (h : isDirEmpty i s = some (r,t)) : Quiet s t ∧ Settled s t ∧ (r = .ok true →
      ∀ p, p < c.iSize → p % 32 = 0 → direntInum (content s.disk i) p = 0) := by
  unfold isDirEmpty at h
  obtain ⟨r',u,hscan,h⟩ := bind_some.mp h
  have hl : Local fun m _ a => decide (direntInum m a > 0) := fun m m' o a a' hx => by
    simp only [direntInum_local hx]
  obtain ⟨hq,hset,hsc⟩ := scanNamed_some hl hs hc hscan
  rcases r' with e | _ | ⟨b,o⟩
  · cases h
    exact ⟨hq,hset,fun he => (nomatch he)⟩
  · cases h
    refine ⟨hq,hset,fun _ p hp ha => ?_⟩
    have hno := (hsc.miss rfl).2 p (Nat.zero_le _) (by simp only [direntsBelow,sizeofSfsDirent]; omega) ha
    simpa using hno
  · obtain ⟨_,v,hr,h⟩ := bind_some.mp h
    cases h
    exact ⟨hq.trans (release_quiet hr),hset.trans (release_settled hr),fun he => (nomatch he)⟩

def direntSpan (name : List Byte) : Nat := 4 + strncpySpan name sfsDirentNamelen

lemma direntSpan_eq : direntSpan name = if (beforeNul name).length < 28 then 33 else 32 := by
  unfold direntSpan strncpySpan sfsDirentNamelen
  by_cases h : (beforeNul name).length < 28 <;> simp [h]

lemma putDirent_some (h : putDirent b ofs inum name s = some (p,t)) : direntAddr b ofs + direntSpan name ≤ pageEnd b ∧
      t = { s with disk := fill s.disk (direntAddr b ofs) (direntSpan name) (direntBytes inum (beforeNul name)) } := by
  unfold putDirent at h
  simp only [modifyDisk,modify_bind,get_bind,strncpy_eq,kassert_bind,modify_some,decide_eq_true_eq] at h
  obtain ⟨hpage,rfl⟩ := h
  refine ⟨by rwa [direntSpan,← Nat.add_assoc],?_⟩
  congr 1
  have hspan : 32 ≤ direntSpan name := by
    rw [direntSpan_eq]
    split <;> omega
  have hrec : fill (putWord s.disk (direntAddr b ofs) 4 inum) (direntAddr b ofs + 4)
      (strncpySpan name sfsDirentNamelen) (cstr (beforeNul name)) =
      fill s.disk (direntAddr b ofs) (direntSpan name) fun x =>
        if x < 4 then byteOf inum x else cstr (beforeNul name) (x - 4) := by
    rw [direntSpan,← fill_append,putWord]
    have h1 : fill s.disk (direntAddr b ofs) 4 (byteOf inum) = fill s.disk (direntAddr b ofs) 4 fun x =>
        if x < 4 then byteOf inum x else cstr (beforeNul name) (x - 4) := fill_congr fun k hk => by rw [if_pos hk]
    rw [h1]
    exact fill_congr fun k _ => by rw [if_neg (by omega),Nat.add_sub_cancel_left]
  rw [hrec]
  funext x
  by_cases hx : x = direntAddr b ofs + 4 + (sfsDirentNamelen - 1)
  · subst hx
    rw [poke_same,fill_inside (by omega) (by simp only [sfsDirentNamelen]; omega),direntBytes,
      if_neg (by omega),if_pos (by omega)]
  · rw [poke_other hx]
    by_cases hin : direntAddr b ofs ≤ x ∧ x < direntAddr b ofs + direntSpan name
    · have hne : x - direntAddr b ofs ≠ 4 + (sfsDirentNamelen - 1) := by omega
      rw [fill_inside hin.1 hin.2,fill_inside hin.1 hin.2]
      simp only [direntBytes,if_neg hne]
    · rw [fill_outside (by omega),fill_outside (by omega)]

def newSize (size o : Nat) : Nat := if size ≤ o then o + sizeofSfsDirent else size

structure Resized (d o : Nat) (c : Inode) (s t : Fs) : Prop where
  owned : Owned t
  kept : Kept s t
  icache : ∃ dirty, t.icache =
    Function.update s.icache d (some { c with iSize := newSize c.iSize o, dirty := dirty }) ∧ (c.dirty = false → dirty = false)
  disk : t.disk = if c.iSize ≤ o then putInode s.disk d c.iFtype c.iMode c.iNlink (o + sizeofSfsDirent) c.iAddrs
    else s.disk

lemma extendDir_some (hs : Owned s) (hp : Pinned s d) (hc : s.icache d = some c)
    (h : extendDir d o s = some (p,t)) : Resized d o c s t ∧ t.held = s.held ∧ t.supply ⊆ s.supply := by
  unfold extendDir at h
  obtain ⟨c',hc',h⟩ := inode_bind.mp h
  cases hc.symm.trans hc'
  split at h
  · rename_i hge
    simp only [setInode,modify_bind] at h
    obtain ⟨r,u,hw,h⟩ := bind_some.mp h
    cases h
    have hset := hs.setInode hc (d := { c with iSize := o + sizeofSfsDirent, dirty := true }) rfl
    rcases sfsWriteInode_some (Function.update_self d _ s.icache) hw with ⟨hnp,-⟩ | hwr
    · exact absurd hp hnp
    · have hk := hwr.kept hset (Function.update_self d _ s.icache)
      refine ⟨⟨hwr.owned hset (Function.update_self d _ s.icache),⟨hk.sb,hk.allocated,hk.slots,hk.data⟩,
        ⟨false,?_,fun _ => rfl⟩,?_⟩,hwr.held,hwr.supply⟩
      · rw [hwr.icache,Function.update_idem,newSize,if_pos hge]
      · rw [hwr.disk,if_pos hge]
  · rename_i hlt
    cases h
    refine ⟨⟨hs,⟨rfl,fun _ => Iff.rfl,fun _ _ _ => rfl,fun _ _ => rfl⟩,⟨c.dirty,?_,id⟩,?_⟩,rfl,fun _ hx => hx⟩
    · rw [newSize,if_neg hlt]
      exact (Function.update_eq_self_iff.mpr hc.symm).symm
    · rw [if_neg hlt]

structure Added (d inum : Nat) (name : List Byte) (c : Inode) (s t : Fs) (o : Nat) (u v : Fs) (c1 : Inode) : Prop where
  free : FirstFree (content s.disk d) c.iSize o
  grow : Grow d s u
  present : (∀ p, p ≤ o → blkAt s.disk d (p / bdevBlkSize) ≠ 0) → Quiet s u
  cached : u.icache d = some c1
  resized : Resized d o c1 u v
  blk : blkAt v.disk d (o / bdevBlkSize) ≠ 0
  page : bdevBlkSize * blkAt v.disk d (o / bdevBlkSize) + o % bdevBlkSize + direntSpan name ≤
    pageEnd (blkAt v.disk d (o / bdevBlkSize))
  sb : t.sb = v.sb
  icache : t.icache = v.icache
  disk : t.disk = fill v.disk (bdevBlkSize * blkAt v.disk d (o / bdevBlkSize) + o % bdevBlkSize) (direntSpan name)
    (direntBytes inum (beforeNul name))

def freeHit (size : Nat) (m : Memory) (o a : Nat) : Bool := decide (o ≥ size) || decide (direntInum m a = 0)

lemma freeHit_local (size : Nat) : Local (freeHit size) := fun m m' o a a' h => by
  simp only [freeHit,direntInum_local h]

lemma Scanned.firstFree {alloc : Bool}
    (h : Scanned i alloc (freeHit size) (sfsMaxFileSize / sizeofSfsDirent) 0 base s t r) (hr : r = .ok (some (b,o))) :
    FirstFree (content s.disk i) size o := by
  obtain ⟨-,h2,h3,h4,h5⟩ := h.first b o hr
  refine ⟨h3,?_,by simpa [freeHit] using h4,fun p hp ha => ?_⟩
  · have hmax : 32 * (sfsMaxFileSize / sizeofSfsDirent) = sfsMaxFileSize := by decide
    omega
  · have hno := h5 p (Nat.zero_le _) hp ha
    simp only [freeHit,Bool.or_eq_false_iff,decide_eq_false_iff_not] at hno
    exact ⟨by omega,hno.2⟩

lemma allocDirent_some {r : Except SfsErr Unit} (hs : Owned s) (hc : s.icache d = some c)
    (h : allocDirent d name inum s = some (r,t)) :
    Settled s t ∧ ((∃ e, r = .error e ∧ Grow d s t) ∨ (r = .ok () ∧ ∃ o u v c1, Added d inum name c s t o u v c1)) := by
  unfold allocDirent at h
  obtain ⟨ok,s1,ha,h⟩ := bind_some.mp h
  have hq1 := acquire_quiet ha
  cases ok with
  | false =>
    obtain ⟨sup,hsub,-,rfl⟩ := acquire_false ha
    cases h
    exact ⟨.of_held hsub rfl,.inl ⟨_,rfl,hq1.grow⟩⟩
  | true =>
    have hp1 := acquire_pins ha
    obtain ⟨sup,hsub,rfl⟩ := acquire_true ha
    simp only [unless_true,inode_bind] at h
    obtain ⟨c',hc',h⟩ := h
    cases hc.symm.trans hc'
    obtain ⟨r',u,hscan,h⟩ := bind_some.mp h
    have hs1 := hs.quiet hq1
    have hsc := scanDir_some (freeHit_local c.iSize) hs1 hc' (at_start _ d) hscan
    have hback : ∀ {v w : Fs} {p : Unit}, v.supply ⊆ sup → (∀ x, pins v x = pins u x) →
        releaseInodeBh d v = some (p,w) → Settled s w := fun hv hpv hr => by
      have hpr := release_pins hr
      have hqr := release_some hr
      refine ⟨?_,fun x => ?_⟩
      · rw [hqr.2]
        exact List.Subset.trans hv hsub
      · have h1 := hp1 x
        have h2 := hsc.pins x
        have h3 := hpv x
        have h4 := hpr x
        omega
    rcases r' with e | _ | ⟨b,o⟩
    · obtain ⟨_,v,hr,h⟩ := bind_some.mp h
      cases h
      exact ⟨hback hsc.supply (fun _ => rfl) hr,
        .inl ⟨e,rfl,hq1.grow.trans (hsc.grow.trans (release_quiet hr).grow)⟩⟩
    · obtain ⟨_,v,hr,h⟩ := bind_some.mp h
      cases h
      exact ⟨hback hsc.supply (fun _ => rfl) hr,
        .inl ⟨_,rfl,hq1.grow.trans (hsc.grow.trans (release_quiet hr).grow)⟩⟩
    · simp only [bind_some] at h
      obtain ⟨_,v,hext,_,w,hput,_,x,hrb,_,y,hri,h⟩ := h
      cases h
      obtain ⟨hnz,hb,hheld⟩ := hsc.blk b o rfl
      obtain ⟨hu,hextends⟩ := hs1.grow hsc.grow
      obtain ⟨ad,dirty,hcu⟩ := hextends.own c hc'
      have hpin : Pinned u d := by simp [Pinned,hheld]
      obtain ⟨hres,hheldv,hsupv⟩ := extendDir_some hu hpin hcu hext
      obtain ⟨hpage,hw⟩ := putDirent_some hput
      have hblk : blkAt v.disk d (o / bdevBlkSize) = b := by
        rw [hres.kept.blkAt (hu.cached d _ hcu),hb]
      have hset : Settled u x := ((Settled.of_held hsupv hheldv).trans
        ⟨by rw [hw]; exact fun _ hx => hx,fun z => by rw [hw]; rfl⟩).trans (release_settled hrb)
      have hqx := release_quiet hrb
      have hqt := release_quiet hri
      refine ⟨hback (List.Subset.trans hset.supply hsc.supply) hset.pins hri,.inr ⟨rfl,o,u,v,{ c with iAddrs := ad, dirty := dirty },?_⟩⟩
      subst hblk
      exact {
        free := hsc.firstFree rfl
        grow := hq1.grow.trans hsc.grow
        present := fun hp => hq1.trans (hsc.present _ o rfl fun p _ hpo => hp p hpo)
        cached := hcu
        resized := hres
        blk := hnz
        page := hpage
        sb := by rw [hqt.sb,hqx.sb,hw]
        icache := by rw [hqt.icache,hqx.icache,hw]
        disk := by rw [hqt.disk,hqx.disk,hw,direntAddr] }

end MappedMemory.Sfs
