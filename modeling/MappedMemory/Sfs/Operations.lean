import MappedMemory.Sfs.Inodes

namespace MappedMemory.Sfs

open Function (update update_idem update_of_ne update_self)
open Bytes Routine

variable {s t u v : Fs} {i d o src inum mode : Nat} {c : Inode} {name : List Byte} {ft : Ftype} {w : Fs}
  {c1 cs ci : Inode} {size b n : Nat} {r : Except SfsErr Unit}

lemma NewInode.after_quiet (hq : Quiet s t) (h : NewInode t u inum ft mode) : NewInode s u inum ft mode := by
  obtain ⟨sb,disk,icache,held,supply⟩ := s
  obtain ⟨sb',disk',icache',held',supply'⟩ := t
  obtain ⟨rfl,rfl,rfl⟩ := hq
  exact ⟨h.lower,h.upper,h.free,h.sb,h.icache,h.disk⟩

lemma FreedInode.quiet (h : FreedInode s t inum) (hq : Quiet t u) : FreedInode s u inum :=
  ⟨hq.sb.trans h.sb,hq.icache.trans h.icache,hq.disk.trans h.disk⟩

lemma Added.quiet (h : Added d inum name c s t o u v c1) (hq : Quiet t w) : Added d inum name c s w o u v c1 :=
  { h with
    sb := hq.sb.trans h.sb
    icache := hq.icache.trans h.icache
    disk := hq.disk.trans h.disk }

lemma Added.after_quiet (hq : Quiet w s) (h : Added d inum name c s t o u v c1) : Added d inum name c w t o u v c1 :=
  { h with
    free := hq.disk ▸ h.free
    grow := hq.grow.trans h.grow
    present := fun hp => hq.trans (h.present (by rwa [hq.disk])) }

lemma Removed.after_quiet (hq : Quiet u s) (h : Removed d name size s t o) : Removed d name size u t o where
  at_match := hq.disk ▸ h.at_match
  blk := hq.disk ▸ h.blk
  sb := h.sb.trans hq.sb
  icache := h.icache.trans hq.icache
  disk := hq.disk ▸ h.disk

lemma pinned_of_pins (h : pins s (inumToBlk i) ≠ 0) : Pinned s i :=
  List.any_eq_true.mpr ⟨_,List.count_pos_iff.mp (Nat.pos_of_ne_zero h),beq_self_eq_true _⟩

lemma acquire_settled {ok : Bool} (h : acquire false b s = some (ok,t)) :
    t.supply ⊆ s.supply ∧ ∀ x, pins t x = pins s x + if ok = true ∧ x = b then 1 else 0 := by
  cases ok with
  | false =>
    obtain ⟨sup,hsub,-,rfl⟩ := acquire_false h
    exact ⟨hsub,fun x => by simp [pins]⟩
  | true =>
    have hp := acquire_pins h
    obtain ⟨sup,hsub,rfl⟩ := acquire_true h
    exact ⟨hsub,fun x => by simpa using hp x⟩

lemma settled_around {p : Unit} (ha : acquire false b s = some (true,t)) (h : Settled t u)
    (hr : release false b u = some (p,w)) : Settled s w := by
  obtain ⟨hsub,hp⟩ := acquire_settled ha
  have hpr := release_pins hr
  have hw := (release_some hr).2
  refine ⟨?_,fun x => ?_⟩
  · rw [hw]
    exact List.Subset.trans h.supply hsub
  · have h1 := hp x
    have h2 := h.pins x
    have h3 := hpr x
    simp only [true_and] at h1 h3
    omega

inductive CreateResult (d : Nat) (ft : Ftype) (name : List Byte) (mode : Nat) (c : Inode) (s t : Fs) :
    Except SfsErr Unit → Prop where
  | refused (e : SfsErr) (quiet : Quiet s t) : CreateResult d ft name mode c s t (.error e)
  | undone (e : SfsErr) (inum : Nat) (u v : Fs) (new : NewInode s u inum ft mode) (grow : Grow d u v)
      (freed : FreedInode v t inum) : CreateResult d ft name mode c s t (.error e)
  | done (inum o : Nat) (u v w : Fs) (c1 : Inode) (new : NewInode s u inum ft mode)
      (added : Added d inum name c u t o v w c1) : CreateResult d ft name mode c s t (.ok ())

lemma createInodeInDir_some (hs : Owned s) (hc : s.icache d = some c)
    (h : createInodeInDir d ft name mode s = some (r,t)) : Settled s t ∧ CreateResult d ft name mode c s t r := by
  unfold createInodeInDir at h
  obtain ⟨found,s1,hsearch,h⟩ := bind_some.mp h
  obtain ⟨hq1,hset1,-⟩ := searchDir_some hs hc hsearch
  split at h
  · cases h
    exact ⟨hset1,.refused _ hq1⟩
  · obtain ⟨ok,s2,ha,h⟩ := bind_some.mp h
    have hq2 := hq1.trans (acquire_quiet ha)
    cases ok with
    | false =>
      obtain ⟨hsub,hp⟩ := acquire_settled ha
      cases h
      exact ⟨hset1.trans ⟨hsub,fun x => by simpa using hp x⟩,.refused _ hq2⟩
    | true =>
      simp only [unless_true] at h
      obtain ⟨r',u,hnew,h⟩ := bind_some.mp h
      obtain ⟨hset3,⟨e,rfl,hq3⟩ | ⟨inum,rfl,hni⟩⟩ := allocDiskInode_some hnew
      · obtain ⟨_,v,hr,h⟩ := bind_some.mp h
        cases h
        exact ⟨hset1.trans (settled_around ha hset3 hr),.refused _ (hq2.trans (hq3.trans (release_quiet hr)))⟩
      · have hnew' := hni.after_quiet hq2
        have hu := hnew'.owned hs
        have hcu : u.icache d = some c := by rw [hnew'.icache,hc]
        simp only at h
        obtain ⟨r'',v,hadd,h⟩ := bind_some.mp h
        obtain ⟨hset4,⟨e,rfl,hgrow⟩ | ⟨rfl,o,u',v',c1,hadded⟩⟩ := allocDirent_some hu hcu hadd
        · simp only [bind_some] at h
          obtain ⟨_,w,hfree,_,x,hr,h⟩ := h
          cases h
          obtain ⟨hset5,⟨_,-,hzero,-⟩ | hfreed⟩ := freeDiskInode_some hfree
          · have h1 := (acquire_settled ha).2 sfsInodeBmapBlk
            have h2 := (hset3.trans hset4).pins sfsInodeBmapBlk
            simp only [true_and,if_true] at h1
            omega
          · exact ⟨hset1.trans (settled_around ha (hset3.trans (hset4.trans hset5)) hr),
              .undone e inum u v hnew' hgrow (hfreed.quiet (release_quiet hr))⟩
        · obtain ⟨_,x,hr,h⟩ := bind_some.mp h
          cases h
          exact ⟨hset1.trans (settled_around ha (hset3.trans hset4) hr),
            .done inum o u u' v' c1 hnew' (hadded.quiet (release_quiet hr))⟩

lemma sfsLookup_some {r : Except SfsErr Nat} (hs : Owned s) (hc : s.icache d = some c)
    (h : sfsLookup d name s = some (r,t)) :
    Settled s t ∧ ((∃ e, r = .error e ∧ Quiet s t) ∨ ∃ i o ci, r = .ok i ∧ i ≠ 0 ∧
      FirstMatch (content s.disk d) c.iSize name o ∧ i = direntInum (content s.disk d) o ∧ Opened s t i ci) := by
  unfold sfsLookup at h
  obtain ⟨found,u,hsearch,h⟩ := bind_some.mp h
  obtain ⟨hq,hset,hfound⟩ := searchDir_some hs hc hsearch
  split at h
  · cases h
    exact ⟨hset,.inl ⟨_,rfl,hq⟩⟩
  · rename_i hne
    obtain ⟨hheld,o,hmatch,hinum⟩ := hfound hne
    obtain ⟨r',v,hget,h⟩ := bind_some.mp h
    obtain ⟨hset',⟨e,rfl,hq',-⟩ | ⟨rfl,ci,hop⟩⟩ := fsGetInode_some hget
    · cases h
      exact ⟨hset.trans hset',.inl ⟨_,rfl,hq.trans hq'⟩⟩
    · cases h
      refine ⟨hset.trans hset',.inr ⟨found,o,ci,rfl,hne,hmatch,hinum,⟨hop.sb.trans hq.sb,hop.disk.trans hq.disk,
        hop.held.trans hheld,?_,?_⟩⟩⟩
      · rw [hop.icache,hq.icache]
      · have ho := hop.origin
        rwa [hq.icache,hq.disk] at ho

structure Relinked (s t : Fs) (i n : Nat) : Prop where
  sb : t.sb = s.sb
  inode : ∃ c, s.icache i = some c ∧
    t.icache = update s.icache i (some { c with iNlink := n, dirty := false }) ∧
    t.disk = putInode s.disk i c.iFtype c.iMode n c.iSize c.iAddrs

lemma relink_some (hp : Pinned s i) (hc : s.icache i = some c)
    (h : sfsWriteInode i { s with icache := update s.icache i (some { c with iNlink := n, dirty := true }) } =
      some (r,t)) : Relinked s t i n ∧ Settled s t := by
  rcases sfsWriteInode_some (update_self i _ s.icache) h with ⟨hnp,-⟩ | hw
  · exact absurd hp hnp
  · refine ⟨⟨hw.sb,c,hc,?_,hw.disk⟩,.of_held hw.supply hw.held⟩
    rw [hw.icache,update_idem]

lemma Relinked.quiet (h : Relinked s t i n) (hq : Quiet t u) : Relinked s u i n := by
  obtain ⟨c,hc,hic,hd⟩ := h.inode
  exact ⟨hq.sb.trans h.sb,c,hc,hq.icache.trans hic,hq.disk.trans hd⟩

lemma Relinked.written (h : Relinked s t i n) (hc : s.icache i = some c) :
    InodeWritten { s with icache := update s.icache i (some { c with iNlink := n, dirty := true }) }
      { t with held := s.held, supply := s.supply } i { c with iNlink := n, dirty := true } := by
  obtain ⟨c',hc',hic,hd⟩ := h.inode
  cases hc.symm.trans hc'
  exact ⟨h.sb,rfl,fun _ hx => hx,hd,by rw [update_idem]; exact hic⟩

lemma Owned.relinked (hs : Owned s) (h : Relinked s t i n) : Owned t := by
  obtain ⟨c,hc,-,-⟩ := h.inode
  have hset := hs.setInode hc (d := { c with iNlink := n, dirty := true }) rfl
  exact ((h.written hc).owned hset (update_self i _ s.icache)).quiet ⟨rfl,rfl,rfl⟩

inductive LinkResult (d src : Nat) (name : List Byte) (c cs : Inode) (s t : Fs) : Except SfsErr Unit → Prop where
  | refused (e : SfsErr) (quiet : Quiet s t) : LinkResult d src name c cs s t (.error e)
  | grown (e : SfsErr) (grow : Grow d s t) : LinkResult d src name c cs s t (.error e)
  | done (o : Nat) (u v w : Fs) (c1 : Inode) (added : Added d src name c s u o v w c1)
      (relinked : Relinked u t src (cs.iNlink + 1)) : LinkResult d src name c cs s t (.ok ())

lemma Added.inode (h : Added d inum name c s t o u w c1) (hs : Owned s)
    (hc : s.icache d = some c) (hcs : s.icache src = some cs) : ∃ ad dirty, t.icache src = some { cs with
      iSize := if src = d then newSize c.iSize o else cs.iSize, iAddrs := ad, dirty := dirty } := by
  have hext := (hs.grow h.grow).2
  obtain ⟨dirty,hic,-⟩ := h.resized.icache
  rw [h.icache,hic]
  by_cases hsd : src = d
  · subst hsd
    cases hc.symm.trans hcs
    obtain ⟨ad,dirty',hcu⟩ := hext.own c hc
    obtain rfl : c1 = { c with iAddrs := ad, dirty := dirty' } := Option.some.inj (h.cached.symm.trans hcu)
    exact ⟨ad,dirty,by rw [update_self,if_pos rfl]⟩
  · refine ⟨cs.iAddrs,cs.dirty,?_⟩
    rw [update_of_ne hsd,hext.icache src hsd,hcs,if_neg hsd]

lemma sfsLink_some (hs : Owned s) (hc : s.icache d = some c)
    (hcs : s.icache src = some cs) (h : sfsLink d src name s = some (r,t)) :
    Settled s t ∧ cs.iFtype = .file ∧ LinkResult d src name c cs s t r := by
  unfold sfsLink at h
  obtain ⟨cs',hcs',h⟩ := inode_bind.mp h
  cases hcs.symm.trans hcs'
  rw [kassert_bind,decide_eq_true_eq] at h
  obtain ⟨hft,h⟩ := h
  obtain ⟨found,s1,hsearch,h⟩ := bind_some.mp h
  obtain ⟨hq1,hset1,-⟩ := searchDir_some hs hc hsearch
  split at h
  · cases h
    exact ⟨hset1,hft,.refused _ hq1⟩
  · obtain ⟨ok,s2,ha,h⟩ := bind_some.mp h
    have hq2 := hq1.trans (acquire_quiet ha)
    cases ok with
    | false =>
      obtain ⟨hsub,hp⟩ := acquire_settled ha
      cases h
      exact ⟨hset1.trans ⟨hsub,fun x => by simpa using hp x⟩,hft,.refused _ hq2⟩
    | true =>
      simp only [unless_true] at h
      obtain ⟨r',u,hadd,h⟩ := bind_some.mp h
      have hs2 := hs.quiet hq2
      have hc2 : s2.icache d = some c := by rw [hq2.icache,hc]
      have hcs2 : s2.icache src = some cs := by rw [hq2.icache,hcs]
      obtain ⟨hset3,⟨e,rfl,hgrow⟩ | ⟨rfl,o,u',v',c1,hadded⟩⟩ := allocDirent_some hs2 hc2 hadd
      · obtain ⟨_,x,hr,h⟩ := bind_some.mp h
        cases h
        exact ⟨hset1.trans (settled_around ha hset3 hr),hft,
          .grown e (hq2.grow.trans (hgrow.trans (release_quiet hr).grow))⟩
      · obtain ⟨ad,dirty,hcu⟩ := hadded.inode hs2 hc2 hcs2
        simp only [inode_bind,hcu,Option.some_inj,exists_eq_left'] at h
        simp only [setInode,modify_bind] at h
        obtain ⟨r'',w,hw,h⟩ := bind_some.mp h
        have hpin : Pinned u src := pinned_of_pins (by
          have h1 := (acquire_settled ha).2 (inumToBlk src)
          have h2 := hset3.pins (inumToBlk src)
          simp only [true_and,if_true] at h1
          omega)
        obtain ⟨hre,hset4⟩ := relink_some hpin hcu hw
        obtain ⟨_,x,hr,h⟩ := bind_some.mp h
        cases h
        exact ⟨hset1.trans (settled_around ha (hset3.trans hset4) hr),hft,
          .done o u u' v' c1 (hadded.after_quiet hq2) (hre.quiet (release_quiet hr))⟩

inductive FoundResult (d : Nat) (ft : Ftype) (name : List Byte) (size i : Nat) (s t : Fs) :
    Except SfsErr Unit → Prop where
  | refused (e : SfsErr) (quiet : Quiet s t) : FoundResult d ft name size i s t (.error e)
  | done (c : Inode) (o : Nat) (u : Fs) (cached : s.icache i = some c) (links : 0 < c.iNlink)
      (ftype : c.iFtype = ft)
      (empty : ft = .dir → ∀ p, p < c.iSize → p % 32 = 0 → direntInum (content s.disk i) p = 0)
      (removed : Removed d name size s u o) (relinked : Relinked u t i (c.iNlink - 1)) :
      FoundResult d ft name size i s t (.ok ())

lemma checkRemovable_some (hs : Owned s) (hc : s.icache i = some c) (h : checkRemovable ft i s = some (r,t)) :
    Quiet s t ∧ Settled s t ∧ (r = .ok () → ft = .dir →
      ∀ p, p < c.iSize → p % 32 = 0 → direntInum (content s.disk i) p = 0) := by
  unfold checkRemovable at h
  split at h
  · obtain ⟨r',u,he,h⟩ := bind_some.mp h
    obtain ⟨hq,hset,hempty⟩ := isDirEmpty_some hs hc he
    rcases r' with e | _ | _
    · cases h
      exact ⟨hq,hset,fun he => (nomatch he)⟩
    · cases h
      exact ⟨hq,hset,fun he => (nomatch he)⟩
    · cases h
      exact ⟨hq,hset,fun _ _ => hempty rfl⟩
  · rename_i hnd
    cases h
    exact ⟨.refl _,.refl _,fun _ hd => absurd hd hnd⟩

lemma unlinkFound_some {cd : Inode} (hs : Owned s) (hd : s.icache d = some cd)
    (hp : pins s (inumToBlk i) ≠ 0) (h : unlinkFound d ft name i s = some (r,t)) :
    Settled s t ∧ FoundResult d ft name cd.iSize i s t r := by
  unfold unlinkFound at h
  obtain ⟨c,hc,h⟩ := inode_bind.mp h
  simp only [kassert_bind,decide_eq_true_eq] at h
  obtain ⟨-,hlinks,h⟩ := h
  split at h
  · cases h
    exact ⟨.refl _,.refused _ (.refl _)⟩
  · rename_i hft
    obtain ⟨r',u,hcheck,h⟩ := bind_some.mp h
    obtain ⟨hq,hset,hempty⟩ := checkRemovable_some hs hc hcheck
    cases r' with
    | error e =>
      cases h
      exact ⟨hset,.refused _ hq⟩
    | ok _ =>
      simp only [dropLink] at h
      obtain ⟨r'',v,hfree,h⟩ := bind_some.mp h
      have hdu : u.icache d = some cd := by rw [hq.icache,hd]
      obtain ⟨hset',⟨e,rfl,hq'⟩ | ⟨rfl,o,hrem⟩⟩ := freeDirent_some (hs.quiet hq) hdu hfree
      · simp only [kassert_bind] at h
        cases h.2
        exact ⟨hset.trans hset',.refused _ (hq.trans hq')⟩
      · have hcv : v.icache i = some c := by rw [hrem.icache,hq.icache,hc]
        simp only [inode_bind,hcv,Option.some_inj,exists_eq_left',setInode,modify_bind] at h
        obtain ⟨r3,w,hw,h⟩ := bind_some.mp h
        have hpin : Pinned v i := pinned_of_pins (by rw [(hset.trans hset').pins]; exact hp)
        obtain ⟨hre,hset3⟩ := relink_some hpin hcv hw
        cases h
        exact ⟨(hset.trans hset').trans hset3,
          .done c o v hc hlinks (not_not.mp hft) (hempty rfl) (hrem.after_quiet hq) hre⟩

inductive UnlinkResult (d : Nat) (ft : Ftype) (name : List Byte) (c : Inode) (s t : Fs) :
    Except SfsErr Unit → Prop where
  | refused (e : SfsErr) (quiet : Quiet s t) : UnlinkResult d ft name c s t (.error e)
  | leaked (e : SfsErr) (i o : Nat) (ci : Inode) (found : FirstMatch (content s.disk d) c.iSize name o)
      (inum : i = direntInum (content s.disk d) o) (pos : i ≠ 0) (opened : Opened s t i ci) :
      UnlinkResult d ft name c s t (.error e)
  | closed (r : Except SfsErr Unit) (i o : Nat) (ci : Inode) (u v : Fs)
      (found : FirstMatch (content s.disk d) c.iSize name o) (inum : i = direntInum (content s.disk d) o)
      (pos : i ≠ 0) (opened : Opened s u i ci) (result : FoundResult d ft name c.iSize i u v r)
      (released : Released v t i) : UnlinkResult d ft name c s t r

lemma Opened.quiet (h : Opened s t i ci) (hq : Quiet t u) (hh : u.held = t.held) : Opened s u i ci :=
  ⟨hq.sb.trans h.sb,hq.disk.trans h.disk,hh.trans h.held,hq.icache.trans h.icache,h.origin⟩

lemma Opened.inode {cj : Inode} {j : Nat} (h : Opened s t i ci) (hc : s.icache j = some cj) :
    ∃ r, t.icache j = some { cj with iRef := r } := by
  rw [h.icache]
  by_cases hj : j = i
  · subst hj
    rcases h.origin with ⟨e,he,rfl⟩ | ⟨hnone,-⟩
    · cases hc.symm.trans he
      exact ⟨_,by rw [update_self]⟩
    · rw [hc] at hnone
      cases hnone
  · exact ⟨cj.iRef,by rw [update_of_ne hj,hc]⟩

lemma FoundResult.quiet (hq : Quiet s u)
    (h : FoundResult d ft name size i u t r) : FoundResult d ft name size i s t r := by
  cases h with
  | refused e quiet => exact .refused e (hq.trans quiet)
  | done c o w cached links ftype empty removed relinked =>
    exact .done c o w (hq.icache ▸ cached) links ftype (hq.disk ▸ empty) (removed.after_quiet hq) relinked

lemma FoundResult.then_quiet (h : FoundResult d ft name size i s t r)
    (hq : Quiet t u) : FoundResult d ft name size i s u r := by
  cases h with
  | refused e quiet => exact .refused e (quiet.trans hq)
  | done c o w cached links ftype empty removed relinked =>
    exact .done c o w cached links ftype empty removed (relinked.quiet hq)

lemma unlinkInodeInDir_some (hs : Owned s) (hc : s.icache d = some c)
    (hnamed : ∀ o, FirstMatch (content s.disk d) c.iSize name o → Allocated s (direntInum (content s.disk d) o))
    (h : unlinkInodeInDir d ft name s = some (r,t)) : Settled s t ∧ UnlinkResult d ft name c s t r := by
  unfold unlinkInodeInDir at h
  obtain ⟨r',s1,hlook,h⟩ := bind_some.mp h
  obtain ⟨hset1,⟨e,rfl,hq⟩ | ⟨i,o,ci,rfl,hi,hmatch,hinum,hop⟩⟩ := sfsLookup_some hs hc hlook
  · cases h
    exact ⟨hset1,.refused e hq⟩
  · have hs1 : Owned s1 := hs.opened hop (hinum ▸ hnamed o hmatch)
    simp only at h
    obtain ⟨ok,s2,ha,h⟩ := bind_some.mp h
    have hq2 := acquire_quiet ha
    cases ok with
    | false =>
      obtain ⟨hsub,hp⟩ := acquire_settled ha
      obtain ⟨sup,-,-,rfl⟩ := acquire_false ha
      cases h
      exact ⟨hset1.trans ⟨hsub,fun x => by simpa using hp x⟩,
        .leaked _ i o ci hmatch hinum hi (hop.quiet hq2 rfl)⟩
    | true =>
      simp only [unless_true] at h
      obtain ⟨r'',s3,hfound,h⟩ := bind_some.mp h
      obtain ⟨ref,hcd⟩ := hop.inode hc
      have hpin : pins s2 (inumToBlk i) ≠ 0 := by
        have h1 := (acquire_settled ha).2 (inumToBlk i)
        simp only [true_and,if_true] at h1
        omega
      obtain ⟨hset3,hres⟩ := unlinkFound_some (hs1.quiet hq2) (by rw [hq2.icache,hcd]) hpin hfound
      simp only [bind_some] at h
      obtain ⟨_,s4,hr,_,s5,hrel,h⟩ := h
      cases h
      have hreleased := fsReleaseInode_some hrel
      refine ⟨(hset1.trans (settled_around ha hset3 hr)).trans
        (.of_held (by rw [hreleased.supply]; exact fun _ hx => hx) hreleased.held),?_⟩
      exact .closed r i o ci s1 s4 hmatch hinum hi hop ((hres.quiet hq2).then_quiet (release_quiet hr)) hreleased

end MappedMemory.Sfs
