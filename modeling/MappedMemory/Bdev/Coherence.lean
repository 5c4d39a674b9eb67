import MappedMemory.Bdev.Cache

namespace MappedMemory.Bdev

open Function (update update_of_ne update_self)
open Option (map_eq_some_iff)
open Bytes Sfs Routine

variable {s t : Cache} {i f blk ofs : Nat} {h : Bh} {bh : BlkHeader} {p : Page} {j ref k : Nat} {dirty : Bool}

structure Full (i : Nat) (l : List BlkHeader) : Prop where
  length : l.length = nBlksPerPage
  blk : ∀ j bh, l[j]? = some bh → bh.blk = nBlksPerPage * i + j ∧ bh.ofs = bdevBlkSize * j

structure Good (s : Cache) : Prop where
  supply : s.supply = []
  range : ∀ i f, s.cachedPages i = some f → i < 2^20 ∧ f < s.nextFrame
  inj : ∀ i j f, s.cachedPages i = some f → s.cachedPages j = some f → i = j
  shape : ∀ i f, s.cachedPages i = some f → (s.pages f).blkHeaders = [] ∨ Full i (s.pages f).blkHeaders
  filled : ∀ i f, s.cachedPages i = some f → ∀ x, x < pgSize → s.mem (pgSize * f + x) = s.view (pgSize * i + x)
  absent : ∀ i, s.cachedPages i = none → ∀ x, x < pgSize → s.view (pgSize * i + x) = s.device (pgSize * i + x)
  clean : ∀ f, (s.pages f).dirty = false → ∀ bh ∈ (s.pages f).blkHeaders, bh.dirty = false
  held : ∀ h ∈ s.held, (∃ i, s.cachedPages i = some h.1) ∧ ∃ bh, s.header h = some bh
  ref : ∀ h bh, s.header h = some bh → bh.ref = s.held.count h

lemma grant_ok (hs : s.supply = []) : grant s = some (true,s) := by
  unfold grant
  rw [hs]

lemma kassert_ok {p : Bool} (hp : p = true) : kassert p s = some ((),s) := if_pos hp

def loaded (s : Cache) (ofs : Nat) : Cache := { s with
  nextFrame := s.nextFrame + 1
  pages := update s.pages s.nextFrame ⟨[],false⟩
  mem := fill s.mem (pgSize * s.nextFrame) pgSize fun k => s.device (bdevBlkSize * (pgRoundDown ofs / bdevBlkSize) + k)
  cachedPages := update s.cachedPages (ofs / pgSize) (some s.nextFrame) }

lemma pgcacheGetPage_hit (hc : s.cachedPages (ofs / pgSize) = some f) : pgcacheGetPage ofs s = some (some f,s) := by
  rw [pgcacheGetPage,get_bind,hc]
  rfl

lemma pgcacheGetPage_miss (hs : s.supply = []) (hc : s.cachedPages (ofs / pgSize) = none) :
    pgcacheGetPage ofs s = some (some s.nextFrame,loaded s ofs) := by
  let s1 : Cache := { s with
    nextFrame := s.nextFrame + 1, pages := update s.pages s.nextFrame ⟨[],false⟩ }
  let s2 : Cache := { s1 with
    mem := fill s.mem (pgSize * s.nextFrame) pgSize fun k =>
      s.device (bdevBlkSize * (pgRoundDown ofs / bdevBlkSize) + k) }
  have halloc : pmemAlloc s = some (some s.nextFrame,s1) := by
    rw [pmemAlloc,bind_of_some (grant_ok hs)]
    rfl
  have hfill : fillpage ofs s.nextFrame s1 = some (true,s2) := by
    rw [fillpage,bind_of_some (grant_ok (s := s1) hs)]
    rfl
  have hinsert : radixTreeInsert (ofs / pgSize) s.nextFrame s2 = some (true,loaded s ofs) := by
    rw [radixTreeInsert,bind_of_some (grant_ok (s := s2) hs)]
    exact bind_of_some (f := fun _ => _) (kassert_ok (s := s2) (by rw [Option.isNone_iff_eq_none]; exact hc))
  rw [pgcacheGetPage,get_bind,hc]
  dsimp only
  rw [bind_of_some halloc]
  dsimp only
  rw [bind_of_some hfill]
  exact bind_of_some (f := fun ok => if !ok then pure none else pure (some s.nextFrame)) hinsert

lemma frames_apart {x y n m : Nat} (hx : x < pgSize) (hy : y < pgSize) (h : pgSize * n + x = pgSize * m + y) :
    n = m ∧ x = y := by
  simp only [pgSize] at hx hy h
  omega

lemma Good.loaded (h : Good s) (hc : s.cachedPages (ofs / pgSize) = none) (hi : ofs / pgSize < 2^20) :
    Good (loaded s ofs) := by
  have hne : ∀ {i f}, s.cachedPages i = some f → f ≠ s.nextFrame := fun hf => Nat.ne_of_lt (h.range _ _ hf).2
  have hpage : ∀ {f}, f ≠ s.nextFrame → (Bdev.loaded s ofs).pages f = s.pages f := fun hf => update_of_ne hf ..
  have hmem : (Bdev.loaded s ofs).mem = fill s.mem (pgSize * s.nextFrame) pgSize fun k =>
      s.device (bdevBlkSize * (pgRoundDown ofs / bdevBlkSize) + k) := rfl
  have hcase : ∀ {i f}, (Bdev.loaded s ofs).cachedPages i = some f →
      i = ofs / pgSize ∧ f = s.nextFrame ∨ i ≠ ofs / pgSize ∧ s.cachedPages i = some f := by
    intro i f hf
    by_cases he : i = ofs / pgSize
    · subst he
      have : (Bdev.loaded s ofs).cachedPages (ofs / pgSize) = some s.nextFrame := update_self ..
      exact .inl ⟨rfl,(Option.some.inj (this.symm.trans hf)).symm⟩
    · exact .inr ⟨he,(update_of_ne he ..).symm.trans hf⟩
  have hheader : ∀ {k bh}, (Bdev.loaded s ofs).header k = some bh → s.header k = some bh := by
    intro k bh hk
    by_cases he : k.1 = s.nextFrame
    · have : (Bdev.loaded s ofs).pages k.1 = ⟨[],false⟩ := by rw [he]; exact update_self ..
      rw [Cache.header,this] at hk
      cases hk
    · rwa [Cache.header,hpage he] at hk
  refine ⟨h.supply,?_,?_,?_,?_,?_,?_,?_,fun k bh hk => h.ref k bh (hheader hk)⟩
  · intro i f hf
    rcases hcase hf with ⟨rfl,rfl⟩ | ⟨-,hf⟩
    · exact ⟨hi,Nat.lt_succ_self _⟩
    · exact ⟨(h.range i f hf).1,Nat.lt_succ_of_lt (h.range i f hf).2⟩
  · intro i j f hf hf'
    rcases hcase hf with ⟨rfl,rfl⟩ | ⟨-,hf⟩ <;> rcases hcase hf' with ⟨rfl,he⟩ | ⟨-,hf'⟩
    · rfl
    · exact absurd rfl (hne hf')
    · exact absurd he (hne hf)
    · exact h.inj i j f hf hf'
  · intro i f hf
    rcases hcase hf with ⟨rfl,rfl⟩ | ⟨-,hf⟩
    · left
      rw [show (Bdev.loaded s ofs).pages s.nextFrame = ⟨[],false⟩ from update_self ..]
    · rw [hpage (hne hf)]
      exact h.shape i f hf
  · intro i f hf x hx
    rcases hcase hf with ⟨rfl,rfl⟩ | ⟨-,hf⟩
    · refine Eq.trans ?_ (h.absent _ hc x hx).symm
      rw [hmem,fill_inside (by omega) (by omega),Nat.add_sub_cancel_left]
      congr 1
      simp only [pgRoundDown,pgSize,bdevBlkSize]
      omega
    · refine Eq.trans ?_ (h.filled i f hf x hx)
      have hfne := hne hf
      rw [hmem]
      refine fill_outside ?_
      simp only [pgSize] at hx ⊢
      omega
  · intro i hn x hx
    have he : i ≠ ofs / pgSize := by
      rintro rfl
      have : (Bdev.loaded s ofs).cachedPages (ofs / pgSize) = some s.nextFrame := update_self ..
      cases this.symm.trans hn
    exact h.absent i ((update_of_ne he ..).symm.trans hn) x hx
  · intro f hd bh hbh
    by_cases he : f = s.nextFrame
    · rw [he,show (Bdev.loaded s ofs).pages s.nextFrame = ⟨[],false⟩ from update_self ..] at hbh
      cases hbh
    · rw [hpage he] at hd hbh
      exact h.clean f hd bh hbh
  · intro k hk
    obtain ⟨⟨i,hi'⟩,bh,hbh⟩ := h.held k hk
    refine ⟨⟨i,?_⟩,bh,?_⟩
    · refine (update_of_ne ?_ ..).trans hi'
      rintro rfl
      cases hc.symm.trans hi'
    · rw [Cache.header,hpage (hne hi')]
      exact hbh

def withPage (s : Cache) (f : Nat) (p : Page) (held : List Bh) : Cache :=
  { s with pages := update s.pages f p, held := held }

lemma Good.withPage (held : List Bh) (h : Good s) (hc : s.cachedPages i = some f)
    (hshape : p.blkHeaders = [] ∨ Full i p.blkHeaders)
    (hclean : p.dirty = false → ∀ bh ∈ p.blkHeaders, bh.dirty = false)
    (hheld : ∀ j, (f,j) ∈ held → ∃ bh, p.blkHeaders[j]? = some bh)
    (href : ∀ j bh, p.blkHeaders[j]? = some bh → bh.ref = held.count (f,j))
    (hother : ∀ k : Bh, k.1 ≠ f → held.count k = s.held.count k) : Good (withPage s f p held) := by
  have hpage : (Bdev.withPage s f p held).pages f = p := update_self ..
  have hne : ∀ {g}, g ≠ f → (Bdev.withPage s f p held).pages g = s.pages g := fun hg => update_of_ne hg ..
  refine ⟨h.supply,h.range,h.inj,?_,h.filled,h.absent,?_,?_,?_⟩
  · intro j g hg
    by_cases he : g = f
    · subst he
      obtain rfl := h.inj i j g hc hg
      rw [hpage]
      exact hshape
    · rw [hne he]
      exact h.shape j g hg
  · intro g hd bh hbh
    by_cases he : g = f
    · subst he
      rw [hpage] at hd hbh
      exact hclean hd bh hbh
    · rw [hne he] at hd hbh
      exact h.clean g hd bh hbh
  · rintro ⟨g,j⟩ hk
    by_cases he : g = f
    · subst he
      rw [Cache.header,hpage]
      exact ⟨⟨i,hc⟩,hheld j hk⟩
    · have hin : (g,j) ∈ s.held := by
        rw [← List.count_pos_iff,← hother (g,j) he]
        exact List.count_pos_iff.mpr hk
      rw [Cache.header,hne he]
      exact h.held (g,j) hin
  · rintro ⟨g,j⟩ bh hbh
    by_cases he : g = f
    · subst he
      rw [Cache.header,hpage] at hbh
      exact href j bh hbh
    · rw [Cache.header,hne he] at hbh
      exact (h.ref (g,j) bh hbh).trans (hother (g,j) he).symm

lemma Good.unheld (h : Good s) (he : (s.pages f).blkHeaders = []) (j : Nat) : (f,j) ∉ s.held := fun hk => by
  obtain ⟨-,bh,hbh⟩ := h.held _ hk
  rw [Cache.header,he] at hbh
  cases hbh

lemma initLoop_run (f first n index : Nat) (hs : s.supply = []) :
    initLoop f first n index s = some (true,withPage s f { s.pages f with
      blkHeaders := (s.pages f).blkHeaders ++ (List.range' index n).map (newHeader first) } s.held) := by
  induction n generalizing s index with
  | zero => simp [initLoop,withPage,pure_apply]
  | succ n ih =>
    let p : Page := { s.pages f with blkHeaders := (s.pages f).blkHeaders ++ [newHeader first index] }
    have hrest := ih (s := withPage s f p s.held) (index + 1) hs
    rw [initLoop,bind_of_some (grant_ok hs)]
    refine Eq.trans hrest ?_
    simp only [withPage,update_self,Function.update_idem,p,List.range'_succ,List.map_cons,List.append_assoc,
      List.singleton_append]

lemma full_new (hi : i < 2^20) : Full i ((List.range' 0 nBlksPerPage).map (newHeader (nBlksPerPage * i))) := by
  refine ⟨by simp,fun j bh hj => ?_⟩
  have hlt : j < nBlksPerPage := by simpa using (List.getElem?_eq_some_iff.mp hj).1
  rw [List.getElem?_map,List.getElem?_range' hlt] at hj
  cases hj
  simp only [newHeader,nBlksPerPage,pgSize,bdevBlkSize] at hlt ⊢
  omega

lemma initBlkHeaders_good (h : Good s) (hc : s.cachedPages i = some f) :
    ∃ p, initBlkHeaders f (nBlksPerPage * i) s = some (true,withPage s f p s.held) ∧ Full i p.blkHeaders ∧
      Good (withPage s f p s.held) := by
  unfold initBlkHeaders
  rw [get_bind]
  rcases h.shape i f hc with he | hfull
  · let p : Page := { s.pages f with blkHeaders := (List.range' 0 nBlksPerPage).map (newHeader (nBlksPerPage * i)) }
    have hnew : Full i p.blkHeaders := full_new (h.range i f hc).1
    refine ⟨p,?_,hnew,?_⟩
    · rw [he]
      refine (initLoop_run _ _ _ _ h.supply).trans ?_
      rw [he]
      rfl
    · refine h.withPage _ hc (.inr hnew) ?_ (fun j hk => absurd hk (h.unheld he j)) ?_ fun _ _ => rfl
      · intro _ bh hbh
        obtain ⟨j,-,rfl⟩ := List.mem_map.mp hbh
        rfl
      · intro j bh hbh
        obtain ⟨k,-,rfl⟩ := List.mem_map.mp (List.mem_of_getElem? hbh)
        rw [List.count_eq_zero.mpr (h.unheld he j)]
        rfl
  · have hsame : withPage s f (s.pages f) s.held = s := by simp [withPage]
    refine ⟨s.pages f,?_,hfull,by rw [hsame]; exact h⟩
    have hlen := hfull.length
    rw [hsame,if_neg]
    · rfl
    · rw [List.isEmpty_iff]
      intro he
      rw [he] at hlen
      cases hlen

lemma Full.find {l : List BlkHeader} (h : Full i l) (hi : blk / nBlksPerPage = i) :
    l.findIdx? (fun bh => bh.blk = blk) = some (blk % nBlksPerPage) := by
  have hlt : blk % nBlksPerPage < l.length := by
    rw [h.length]
    exact Nat.mod_lt _ (by decide)
  rw [List.findIdx?_eq_some_iff_getElem]
  refine ⟨hlt,?_,fun j hj => ?_⟩
  · have := (h.blk _ _ (List.getElem?_eq_getElem hlt)).1
    rw [decide_eq_true_eq,this,← hi,Nat.div_add_mod]
  · have := (h.blk j _ (List.getElem?_eq_getElem (by omega))).1
    rw [decide_eq_true_eq,this,← hi]
    have := Nat.div_add_mod blk nBlksPerPage
    omega

lemma setRef_getElem (k : Nat) : (p.setRef j ref).blkHeaders[k]? =
      (p.blkHeaders[k]?).map fun bh => if j = k then { bh with ref := ref } else bh := by
  rw [Page.setRef,List.getElem?_modify]
  split <;> simp [*]

lemma Full.setRef (h : Full i p.blkHeaders) : Full i (p.setRef j ref).blkHeaders := by
  refine ⟨by simp [Page.setRef,h.length],fun k bh hk => ?_⟩
  rw [setRef_getElem] at hk
  obtain ⟨b,hb,rfl⟩ := map_eq_some_iff.mp hk
  have := h.blk k b hb
  split <;> exact this

lemma setRef_clean (h : ∀ bh ∈ p.blkHeaders, bh.dirty = false) :
    ∀ bh ∈ (p.setRef j ref).blkHeaders, bh.dirty = false := by
  intro bh hbh
  obtain ⟨k,hk⟩ := List.getElem?_of_mem hbh
  rw [setRef_getElem] at hk
  obtain ⟨b,hb,rfl⟩ := map_eq_some_iff.mp hk
  have := h b (List.mem_of_getElem? hb)
  split <;> exact this

lemma pgcacheGetPage_good (h : Good s) (hi : ofs / pgSize < 2^20) :
    ∃ f t, pgcacheGetPage ofs s = some (some f,t) ∧ Good t ∧ t.cachedPages (ofs / pgSize) = some f ∧
      t.held = s.held ∧ t.view = s.view ∧ t.device = s.device ∧
      ∀ i f, s.cachedPages i = some f → t.cachedPages i = some f := by
  cases hc : s.cachedPages (ofs / pgSize) with
  | some f => exact ⟨f,s,pgcacheGetPage_hit hc,h,hc,rfl,rfl,rfl,fun _ _ hf => hf⟩
  | none =>
    refine ⟨s.nextFrame,_,pgcacheGetPage_miss h.supply hc,h.loaded hc hi,update_self ..,rfl,rfl,rfl,?_⟩
    intro i f hf
    refine (update_of_ne ?_ ..).trans hf
    rintro rfl
    cases hc.symm.trans hf

structure Got (s t : Cache) (blk : Nat) (h : Bh) : Prop where
  header : ∃ bh, t.header h = some bh ∧ bh.blk = blk ∧ bh.ofs = bdevBlkSize * (blk % nBlksPerPage)
  page : t.cachedPages (blk / nBlksPerPage) = some h.1
  held : t.held = h :: s.held
  view : t.view = s.view
  device : t.device = s.device
  stays : ∀ i f, s.cachedPages i = some f → t.cachedPages i = some f

lemma bdevGetBlkUnlocked_good (hg : Good s) (hb : blk < 2^23) :
    ∃ h t, bdevGetBlkUnlocked blk s = some (some h,t) ∧ Good { t with held := h :: t.held } ∧
      Got s { t with held := h :: t.held } blk h := by
  have hofs : blk * bdevBlkSize % 2^32 = blk * bdevBlkSize := by
    simp only [bdevBlkSize]
    omega
  have hidx : blk * bdevBlkSize / pgSize = blk / nBlksPerPage := by
    simp only [bdevBlkSize,pgSize,nBlksPerPage]
    omega
  have hsmall : blk / nBlksPerPage < 2^20 := by
    simp only [bdevBlkSize,pgSize,nBlksPerPage]
    omega
  obtain ⟨f,s1,hpage,hg1,hc,hheld,hview,hdev,hstays⟩ := pgcacheGetPage_good hg (hidx.symm ▸ hsmall)
  rw [hidx] at hc
  have hfirst : firstBlkInPage blk = nBlksPerPage * (blk / nBlksPerPage) := Nat.mul_comm ..
  obtain ⟨p,hinit,hfull,hg2⟩ := initBlkHeaders_good hg1 hc
  let j := blk % nBlksPerPage
  obtain ⟨bh,hbh⟩ : ∃ bh, p.blkHeaders[j]? = some bh :=
    ⟨_,List.getElem?_eq_getElem (by rw [hfull.length]; exact Nat.mod_lt _ (by decide))⟩
  have hp2 : (withPage s1 f p s1.held).pages f = p := update_self ..
  have hnew : (withPage (withPage s1 f p s1.held) f (p.setRef j (bh.ref + 1)) ((f,j) :: s1.held)) =
      withPage s1 f (p.setRef j (bh.ref + 1)) ((f,j) :: s1.held) := by simp [withPage]
  refine ⟨(f,j),withPage s1 f (p.setRef j (bh.ref + 1)) s1.held,?_,?_,?_⟩
  · rw [bdevGetBlkUnlocked,hofs,bind_of_some hpage]
    dsimp only
    rw [hfirst,bind_of_some hinit]
    simp only [unless_true]
    rw [get_bind,hp2,hfull.find rfl]
    simp only [setPage,modify_bind,List.getD_eq_getElem?_getD]
    rw [hbh]
    simp [withPage,pure_apply,j]
  · change Good (withPage s1 f (p.setRef j (bh.ref + 1)) ((f,j) :: s1.held))
    rw [← hnew]
    have hother : ∀ {k : Bh}, k ≠ (f,j) → ((f,j) :: s1.held).count k = s1.held.count k := fun hk =>
      List.count_cons_of_ne (Ne.symm hk)
    refine hg2.withPage _ hc (.inr hfull.setRef) ?_ ?_ ?_ ?_
    · intro hd
      have := hg2.clean f
      rw [hp2] at this
      exact setRef_clean (this hd)
    · intro k hk
      rw [setRef_getElem]
      rcases List.mem_cons.mp hk with he | hk
      · obtain rfl : k = j := (Prod.mk.inj he).2
        rw [hbh]
        exact ⟨_,rfl⟩
      · obtain ⟨-,b,hb'⟩ := hg2.held _ hk
        rw [Cache.header,hp2] at hb'
        rw [hb']
        exact ⟨_,rfl⟩
    · intro k b hk
      rw [setRef_getElem] at hk
      obtain ⟨c,hc',rfl⟩ := map_eq_some_iff.mp hk
      have hr := hg2.ref (f,k) c (by rw [Cache.header,hp2]; exact hc')
      split
      · rename_i he
        subst he
        cases hbh.symm.trans hc'
        rw [List.count_cons_self]
        exact congrArg (· + 1) hr
      · rename_i he
        rw [hother fun h => he (Prod.mk.inj h).2.symm]
        exact hr
    · intro k hk
      exact hother fun h => hk (congrArg Prod.fst h)
  · have hblk := hfull.blk j bh hbh
    refine ⟨⟨{ bh with ref := bh.ref + 1 },?_,?_,hblk.2⟩,hc,?_,hview,hdev,hstays⟩
    · change ((withPage s1 f (p.setRef j (bh.ref + 1)) s1.held).pages f).blkHeaders[j]? = _
      rw [show (withPage s1 f (p.setRef j (bh.ref + 1)) s1.held).pages f = p.setRef j (bh.ref + 1) from
        update_self ..,setRef_getElem,hbh]
      simp
    · rw [hblk.1]
      exact Nat.div_add_mod ..
    · change (f,j) :: s1.held = _
      rw [hheld]

lemma freeBlkHeaders_run (hclean : (s.pages f).dirty = false → ∀ bh ∈ (s.pages f).blkHeaders, bh.dirty = false) :
    freeBlkHeaders f s = some ((),if (s.pages f).dirty then s else
      withPage s f { s.pages f with blkHeaders := [] } s.held) := by
  rw [freeBlkHeaders,get_bind]
  cases hd : (s.pages f).dirty with
  | true => rfl
  | false =>
    have hall : ((s.pages f).blkHeaders.all fun bh => !bh.dirty) = true := by
      rw [List.all_eq_true]
      exact fun bh hbh => by simp [hclean hd bh hbh]
    simp only [Bool.not_false,if_true]
    rw [bind_of_some (kassert_ok hall)]
    simp [setPage,withPage,modify,modifyGet,MonadStateOf.modifyGet,StateT.modifyGet,pure,hd]

lemma bdevReleaseBlkUnlocked_good (hg : Good s) (hh : h ∈ s.held) :
    ∃ p, bdevReleaseBlkUnlocked h s = some ((),withPage s h.1 p s.held) ∧
      Good (withPage s h.1 p (s.held.erase h)) := by
  obtain ⟨⟨i,hc⟩,bh,hbh⟩ := hg.held h hh
  obtain ⟨f,j⟩ := h
  have href := hg.ref _ bh hbh
  have hpos : 0 < bh.ref := by
    rw [href]
    exact List.count_pos_iff.mpr hh
  have hfull : Full i (s.pages f).blkHeaders := by
    refine (hg.shape i f hc).resolve_left fun he => ?_
    rw [Cache.header,he] at hbh
    cases hbh
  let p := (s.pages f).setRef j (bh.ref - 1)
  have hclean : p.dirty = false → ∀ bh ∈ p.blkHeaders, bh.dirty = false := fun hd => setRef_clean (hg.clean f hd)
  have hrefs : ∀ k b, p.blkHeaders[k]? = some b → b.ref = (s.held.erase (f,j)).count (f,k) := by
    intro k b hk
    rw [setRef_getElem] at hk
    obtain ⟨c,hc',rfl⟩ := map_eq_some_iff.mp hk
    split
    · rename_i he
      subst he
      rw [List.count_erase_self,← href]
    · rename_i he
      rw [List.count_erase_of_ne fun h => he (Prod.mk.inj h).2.symm]
      exact hg.ref (f,k) c hc'
  have hother : ∀ k : Bh, k.1 ≠ f → (s.held.erase (f,j)).count k = s.held.count k := fun k hk =>
    List.count_erase_of_ne fun h => hk (congrArg Prod.fst h)
  have hheld : ∀ k, (f,k) ∈ s.held.erase (f,j) → ∃ b, p.blkHeaders[k]? = some b := by
    intro k hk
    obtain ⟨-,b,hb⟩ := hg.held _ (List.mem_of_mem_erase hk)
    rw [setRef_getElem,show (s.pages f).blkHeaders[k]? = some b from hb]
    exact ⟨_,rfl⟩
  have hkeep : Good (withPage s f p (s.held.erase (f,j))) :=
    hg.withPage _ hc (.inr hfull.setRef) hclean hheld hrefs hother
  have hp : (withPage s f p s.held).pages f = p := update_self ..
  have hrun : bdevReleaseBlkUnlocked (f,j) s =
      if bh.ref = 1 && blocksZeroRef p then freeBlkHeaders f (withPage s f p s.held)
      else some ((),withPage s f p s.held) := by
    rw [bdevReleaseBlkUnlocked,get_bind]
    rw [show (s.pages f).blkHeaders[j]? = some bh from hbh]
    dsimp only
    rw [bind_of_some (kassert_ok (by simpa using hpos))]
    simp only [setPage,modify_bind,get_bind]
    simp only [update_self]
    change ite ((decide (bh.ref = 1) && blocksZeroRef p) = true) (freeBlkHeaders f) (pure ()) (withPage s f p s.held) = _
    split <;> rfl
  rw [hrun]
  split
  · rename_i hzero
    rw [freeBlkHeaders_run (by rw [hp]; exact hclean),hp]
    cases hd : p.dirty with
    | true => exact ⟨p,rfl,hkeep⟩
    | false =>
      refine ⟨{ p with blkHeaders := [] },by simp [withPage,hd],?_⟩
      have hnone : ∀ k, (f,k) ∉ s.held.erase (f,j) := by
        intro k hk
        obtain ⟨b,hb⟩ := hheld k hk
        have hz : blocksZeroRef p = true := (Bool.and_eq_true_iff.mp hzero).2
        have hb0 : b.ref = 0 := by simpa using List.all_eq_true.mp hz b (List.mem_of_getElem? hb)
        have := hrefs k b hb
        rw [hb0] at this
        exact List.count_eq_zero.mp this.symm hk
      exact hg.withPage _ hc (.inl rfl) nofun (fun k hk => absurd hk (hnone k)) nofun hother
  · exact ⟨p,rfl,hkeep⟩

lemma Good.buffer (hg : Good s) (hh : s.header h = some bh) (hi : s.cachedPages i = some h.1) (hk : k < bdevBlkSize) : bh.blk = nBlksPerPage * i + h.2 ∧ bh.ofs = bdevBlkSize * h.2 ∧
      h.2 < nBlksPerPage ∧ s.mem (Cache.data h bh + k) = s.view (bdevBlkSize * bh.blk + k) := by
  have hfull : Full i (s.pages h.1).blkHeaders := by
    refine (hg.shape i h.1 hi).resolve_left fun he => ?_
    rw [Cache.header,he] at hh
    cases hh
  have hblk := hfull.blk h.2 bh hh
  have hlt : h.2 < nBlksPerPage := by
    have := (List.getElem?_eq_some_iff.mp hh).1
    rwa [hfull.length] at this
  refine ⟨hblk.1,hblk.2,hlt,?_⟩
  have hx : bdevBlkSize * h.2 + k < pgSize := by
    simp only [nBlksPerPage,pgSize,bdevBlkSize] at hlt hk ⊢
    omega
  have := hg.filled i h.1 hi _ hx
  rw [Cache.data,hblk.1,hblk.2,Nat.add_assoc,this]
  congr 1
  simp only [nBlksPerPage,pgSize,bdevBlkSize]
  omega

lemma store_good {b : Byte} (hg : Good s) (hh : h ∈ s.held) (hk : k < bdevBlkSize)
    (hbh : s.header h = some bh) : Good { s with
      mem := poke s.mem (Cache.data h bh + k) b
      view := poke s.view (bdevBlkSize * bh.blk + k) b } := by
  obtain ⟨⟨i,hi⟩,-⟩ := hg.held h hh
  obtain ⟨hblk,hofs,hlt,-⟩ := hg.buffer hbh hi hk
  have hx : bdevBlkSize * h.2 + k < pgSize := by
    simp only [nBlksPerPage,pgSize,bdevBlkSize] at hlt hk ⊢
    omega
  have hv : bdevBlkSize * bh.blk + k = pgSize * i + (bdevBlkSize * h.2 + k) := by
    rw [hblk]
    simp only [nBlksPerPage,pgSize,bdevBlkSize]
    omega
  have hm : Cache.data h bh + k = pgSize * h.1 + (bdevBlkSize * h.2 + k) := by
    rw [Cache.data,hofs]
    omega
  rw [hv,hm]
  refine ⟨hg.supply,hg.range,hg.inj,hg.shape,?_,?_,hg.clean,hg.held,hg.ref⟩
  · intro j f hj x hx'
    by_cases he : pgSize * f + x = pgSize * h.1 + (bdevBlkSize * h.2 + k)
    · obtain ⟨rfl,rfl⟩ := frames_apart hx' hx he
      obtain rfl := hg.inj i j _ hi hj
      simp
    · have he' : pgSize * j + x ≠ pgSize * i + (bdevBlkSize * h.2 + k) := by
        intro hne
        obtain ⟨rfl,rfl⟩ := frames_apart hx' hx hne
        exact he (by rw [Option.some.inj (hi.symm.trans hj)])
      simp only [poke_other he,poke_other he']
      exact hg.filled j f hj x hx'
  · intro j hj x hx'
    have he : pgSize * j + x ≠ pgSize * i + (bdevBlkSize * h.2 + k) := by
      intro hne
      obtain ⟨rfl,-⟩ := frames_apart hx' hx hne
      cases hi.symm.trans hj
    simp only [poke_other he]
    exact hg.absent j hj x hx'

lemma setDirty_getElem (k : Nat) : (p.setDirty j dirty).blkHeaders[k]? =
      (p.blkHeaders[k]?).map fun bh => if j = k then { bh with dirty := dirty } else bh := by
  rw [Page.setDirty,List.getElem?_modify]
  split <;> simp [*]

lemma setDirty_good (hg : Good s) (hh : h ∈ s.held) :
    Good { s with pages := update s.pages h.1 ((s.pages h.1).setDirty h.2 dirty) } := by
  obtain ⟨⟨i,hi⟩,bh,hbh⟩ := hg.held h hh
  have hfull : Full i (s.pages h.1).blkHeaders := by
    refine (hg.shape i h.1 hi).resolve_left fun he => ?_
    rw [Cache.header,he] at hbh
    cases hbh
  refine hg.withPage s.held hi (.inr ⟨by simp [Page.setDirty,hfull.length],fun k b hk => ?_⟩) ?_ ?_ ?_
    fun _ _ => rfl
  · rw [setDirty_getElem] at hk
    obtain ⟨c,hc,rfl⟩ := map_eq_some_iff.mp hk
    have := hfull.blk k c hc
    split <;> exact this
  · intro hd b hb
    obtain ⟨hpage,rfl⟩ : (s.pages h.1).dirty = false ∧ dirty = false := by simpa [Page.setDirty] using hd
    obtain ⟨k,hk⟩ := List.getElem?_of_mem hb
    rw [setDirty_getElem] at hk
    obtain ⟨c,hc,rfl⟩ := map_eq_some_iff.mp hk
    have := hg.clean h.1 hpage c (List.mem_of_getElem? hc)
    split
    · rfl
    · exact this
  · intro k hk
    obtain ⟨-,b,hb⟩ := hg.held _ hk
    rw [setDirty_getElem,show (s.pages h.1).blkHeaders[k]? = some b from hb]
    exact ⟨_,rfl⟩
  · intro k b hk
    rw [setDirty_getElem] at hk
    obtain ⟨c,hc,rfl⟩ := map_eq_some_iff.mp hk
    have := hg.ref (h.1,k) c hc
    split <;> exact this

def Event.Small : Event → Prop
  | .get blk => blk < 2^23
  | _ => True

lemma step_get (hg : Good s) (hb : blk < 2^23) : ∃ h t, step s (.get blk) = some t ∧ Good t ∧ Got s t blk h := by
  obtain ⟨h,t,hrun,hgood,hgot⟩ := bdevGetBlkUnlocked_good hg hb
  exact ⟨h,_,by rw [step,hrun]; rfl,hgood,hgot⟩

lemma step_release (hg : Good s) (hh : h ∈ s.held) : ∃ t, step s (.release h) = some t ∧ Good t := by
  obtain ⟨p,hrun,hgood⟩ := bdevReleaseBlkUnlocked_good hg hh
  exact ⟨_,by rw [step,if_pos hh,hrun]; rfl,hgood⟩

lemma step_good {e : Event} (hg : Good s) (he : e.Small) (hstep : step s e = some t) : Good t := by
  cases e with
  | get blk =>
    obtain ⟨h,u,hu,hgood,-⟩ := step_get hg he
    exact Option.some.inj (hu.symm.trans hstep) ▸ hgood
  | release h =>
    by_cases hh : h ∈ s.held
    · obtain ⟨u,hu,hgood⟩ := step_release hg hh
      exact Option.some.inj (hu.symm.trans hstep) ▸ hgood
    · rw [step,if_neg hh] at hstep
      cases hstep
  | store h k b =>
    rw [step] at hstep
    split at hstep
    · rename_i hh
      obtain ⟨bh,hbh,rfl⟩ := map_eq_some_iff.mp hstep
      exact store_good hg hh.1 hh.2 hbh
    · cases hstep
  | setDirty h dirty =>
    rw [step] at hstep
    split at hstep
    · rename_i hh
      cases hstep
      exact setDirty_good hg hh
    · cases hstep

lemma emptyCache_good (device mem : Memory) : Good (emptyCache device mem []) :=
  ⟨rfl,nofun,nofun,nofun,nofun,fun _ _ _ _ => rfl,fun _ _ _ hbh => (nomatch hbh),fun _ hh => (nomatch hh),
    fun _ _ hh => (nomatch hh)⟩

structure CacheLaws (s : Cache) : Prop where
  get : ∀ blk, blk < 2^23 → ∃ h t bh, step s (.get blk) = some t ∧ t.held = h :: s.held ∧ t.header h = some bh ∧
    bh.blk = blk ∧ ∀ k, k < bdevBlkSize → t.mem (Cache.data h bh + k) = s.view (bdevBlkSize * blk + k)
  release : ∀ h ∈ s.held, ∃ t, step s (.release h) = some t
  content : ∀ h ∈ s.held, ∃ bh, s.header h = some bh ∧
    ∀ k, k < bdevBlkSize → s.mem (Cache.data h bh + k) = s.view (bdevBlkSize * bh.blk + k)
  same : ∀ h h' bh bh', h ∈ s.held → h' ∈ s.held → s.header h = some bh → s.header h' = some bh' →
    bh.blk = bh'.blk → Cache.data h bh = Cache.data h' bh'
  apart : ∀ h h' bh bh', h ∈ s.held → h' ∈ s.held → s.header h = some bh → s.header h' = some bh' →
    bh.blk ≠ bh'.blk → Cache.data h bh + bdevBlkSize ≤ Cache.data h' bh' ∨
      Cache.data h' bh' + bdevBlkSize ≤ Cache.data h bh
  pages : ∀ i f, s.cachedPages i = some f → (s.pages f).blkHeaders = [] ∨ Full i (s.pages f).blkHeaders

lemma Good.laws (hg : Good s) : CacheLaws s := by
  have hplace : ∀ h bh, h ∈ s.held → s.header h = some bh → ∃ i, s.cachedPages i = some h.1 ∧
      bh.blk = nBlksPerPage * i + h.2 ∧ bh.ofs = bdevBlkSize * h.2 ∧ h.2 < nBlksPerPage := by
    intro h bh hh hbh
    obtain ⟨⟨i,hi⟩,-⟩ := hg.held h hh
    obtain ⟨hb,ho,hl,-⟩ := hg.buffer hbh hi (k := 0) (by decide)
    exact ⟨i,hi,hb,ho,hl⟩
  refine ⟨?_,fun h hh => ?_,?_,?_,?_,hg.shape⟩
  · intro blk hb
    obtain ⟨h,t,hstep,hgood,hgot⟩ := step_get hg hb
    obtain ⟨bh,hbh,hblk,-⟩ := hgot.header
    refine ⟨h,t,bh,hstep,hgot.held,hbh,hblk,fun k hk => ?_⟩
    rw [(hgood.buffer hbh hgot.page hk).2.2.2,hgot.view,hblk]
  · obtain ⟨t,hstep,-⟩ := step_release hg hh
    exact ⟨t,hstep⟩
  · intro h hh
    obtain ⟨⟨i,hi⟩,bh,hbh⟩ := hg.held h hh
    exact ⟨bh,hbh,fun k hk => (hg.buffer hbh hi hk).2.2.2⟩
  · intro h h' bh bh' hh hh' hbh hbh' he
    obtain ⟨i,hi,hb,ho,hl⟩ := hplace h bh hh hbh
    obtain ⟨i',hi',hb',ho',hl'⟩ := hplace h' bh' hh' hbh'
    have hii : i = i' ∧ h.2 = h'.2 := by
      simp only [nBlksPerPage,pgSize,bdevBlkSize] at hb hb' hl hl'
      omega
    obtain ⟨rfl,hj⟩ := hii
    rw [Cache.data,Cache.data,ho,ho',hj,Option.some.inj (hi.symm.trans hi')]
  · intro h h' bh bh' hh hh' hbh hbh' hne
    obtain ⟨i,hi,hb,ho,hl⟩ := hplace h bh hh hbh
    obtain ⟨i',hi',hb',ho',hl'⟩ := hplace h' bh' hh' hbh'
    rw [Cache.data,Cache.data,ho,ho']
    by_cases hf : h.1 = h'.1
    · have hii : i = i' := hg.inj i i' h.1 hi (hf ▸ hi')
      subst hii
      have hj : h.2 ≠ h'.2 := fun hj => hne (by rw [hb,hb',hj])
      rw [hf]
      simp only [bdevBlkSize]
      omega
    · simp only [nBlksPerPage,pgSize,bdevBlkSize] at hl hl' ⊢
      omega

theorem block_cache (device mem : Memory) (os : List Event) (t : Cache) (hsmall : ∀ e ∈ os, e.Small)
    (h : os.foldlM step (emptyCache device mem []) = some t) : CacheLaws t :=
  (Run.invariant_along (fun _ _ _ hs he hstep => step_good hs he hstep) (emptyCache_good device mem)
    (Run.along_of_forall hsmall _) h).laws

def lastBlkRun : List Event :=
  [.get 8388607,.store (0,7) 0 5,.setDirty (0,7) true,.get 8388600,.release (0,7),.release (0,0),.get 8388607]

theorem block_cache_last : (∀ e ∈ lastBlkRun, e.Small) ∧
    ∃ t, lastBlkRun.foldlM step (emptyCache (fun _ => 0) (fun _ => 0) []) = some t ∧ CacheLaws t := by
  have hsmall : ∀ e ∈ lastBlkRun, e.Small := by simp [lastBlkRun,Event.Small]
  have hrun : (lastBlkRun.foldlM step (emptyCache (fun _ => 0) (fun _ => 0) [])).isSome = true := by decide +kernel
  obtain ⟨t,ht⟩ := Option.isSome_iff_exists.mp hrun
  exact ⟨hsmall,t,ht,block_cache _ _ lastBlkRun t hsmall ht⟩

def onesFirst : Memory := fun x => if x < bdevBlkSize then 1 else 0

theorem block_number_wraps :
    (∃ h t bh, bdevGetBlkUnlocked (2^23) (emptyCache onesFirst (fun _ => 0) []) = some (some h,t) ∧
      t.header h = some bh ∧ bh.blk = 2^23 ∧ t.mem (Cache.data h bh) ≠ onesFirst (bdevBlkSize * 2^23)) ∧
    ∃ t, step (emptyCache onesFirst (fun _ => 0) []) (.get 0) = some t ∧ step t (.get (2^23)) = none := by
  have hget : (bdevGetBlkUnlocked (2^23) (emptyCache onesFirst (fun _ => 0) [])).map
      (fun r => (r.1,r.2.header (0,0),r.2.mem 0)) = some (some (0,0),some ⟨2^23,0,false,1⟩,1) := by decide +kernel
  have hpanic : (step (emptyCache onesFirst (fun _ => 0) []) (.get 0)).map (fun t => (step t (.get (2^23))).isNone) =
      some true := by decide +kernel
  obtain ⟨⟨h,t⟩,hrun,hres⟩ := map_eq_some_iff.mp hget
  obtain ⟨u,hu,hn⟩ := map_eq_some_iff.mp hpanic
  simp only [Prod.mk_inj] at hres
  obtain ⟨rfl,hbh,hm⟩ := hres
  refine ⟨⟨(0,0),t,_,hrun,hbh,rfl,?_⟩,u,hu,Option.isNone_iff_eq_none.mp hn⟩
  change t.mem 0 ≠ _
  rw [hm]
  decide

end MappedMemory.Bdev
