import MappedMemory.Bdev.Coherence

namespace MappedMemory.Bdev

open Sfs Routine

variable {s t u v w : Cache} {f first n index blk : Nat}

lemma initLoop_refused (h : initLoop f first n index s = some (false,t)) :
    ∃ k < n, (t.pages f).blkHeaders = (s.pages f).blkHeaders ++ (List.range' index k).map (newHeader first) ∧
      (k = 0 ↔ s.supply.head? = some false) := by
  induction n generalizing s index with
  | zero => cases h
  | succ n ih =>
    rw [initLoop,bind_some] at h
    obtain ⟨ok,u,hu,h⟩ := h
    cases ok with
    | false =>
      obtain ⟨-,rfl⟩ := pure_some.mp h
      unfold grant at hu
      split at hu
      · cases hu
      · rename_i ok rest hs
        cases hu
        exact ⟨0,Nat.succ_pos n,by simp,by simp [hs]⟩
    | true =>
      have hhead : s.supply.head? ≠ some false ∧ u.pages = s.pages := by
        unfold grant at hu
        split at hu <;> (rename_i hs; cases hu; exact ⟨by simp [hs],rfl⟩)
      obtain ⟨k,hk,hl,-⟩ := ih h
      refine ⟨k + 1,by omega,?_,by simp [hhead.1]⟩
      rw [hl]
      simp [hhead.2,List.range'_succ]

lemma initBlkHeaders_refused (h : initBlkHeaders f first u = some (false,t)) :
    ∃ k < nBlksPerPage, (t.pages f).blkHeaders = (List.range' 0 k).map (newHeader first) ∧
      (k = 0 ↔ u.supply.head? = some false) := by
  rw [initBlkHeaders,get_bind] at h
  split at h
  · rename_i he
    obtain ⟨k,hk,hl,hz⟩ := initLoop_refused h
    exact ⟨k,hk,by rw [hl,List.isEmpty_iff.mp he,List.nil_append],hz⟩
  · cases h

def pageOfs (blk : Nat) : Nat := blk * bdevBlkSize % 2^32

def Fetches (v : Cache) (f blk : Nat) : Prop :=
  ∃ h w, bdevGetBlkUnlocked blk v = some (some h,w) ∧ (∃ bh, w.header h = some bh ∧ bh.blk = blk) ∧
    (w.pages f).blkHeaders.map BlkHeader.blk = List.range' (firstBlkInPage blk) nBlksPerPage

lemma page_same {blk' : Nat} (h : firstBlkInPage blk' = firstBlkInPage blk) :
    pageOfs blk' / pgSize = pageOfs blk / pgSize := by
  simp only [firstBlkInPage,nBlksPerPage,pageOfs,pgSize,bdevBlkSize] at h ⊢
  omega

lemma newHeader_blk {i : Nat} (hblk : blk < 2^32) (hi : i < nBlksPerPage) :
    (newHeader (firstBlkInPage blk) i).blk = firstBlkInPage blk + i := by
  simp only [newHeader,firstBlkInPage,nBlksPerPage,pgSize,bdevBlkSize] at hi ⊢
  omega

lemma get_hit (hc : v.cachedPages (pageOfs blk / pgSize) = some f)
    (hi : initBlkHeaders f (firstBlkInPage blk) v = some (true,w)) :
    bdevGetBlkUnlocked blk v = match (w.pages f).blkHeaders.findIdx? fun bh => bh.blk = blk with
      | none => none
      | some j => some (some (f,j),
          withPage w f ((w.pages f).setRef j (((w.pages f).blkHeaders.getD j default).ref + 1)) w.held) := by
  have hhit : pgcacheGetPage (blk * bdevBlkSize % 2^32) v = some (some f,v) := pgcacheGetPage_hit hc
  rw [bdevGetBlkUnlocked,bind_of_some hhit]
  dsimp only
  rw [bind_of_some hi]
  simp only [unless_true,get_bind]
  split <;> (rename_i hf; simp only [hf]; rfl)

lemma fresh_fetches (hblk : blk < 2^32) (hmem : v.supply = []) (he : (v.pages f).blkHeaders = [])
    (hc : v.cachedPages (pageOfs blk / pgSize) = some f) : Fetches v f blk := by
  have hinit : initBlkHeaders f (firstBlkInPage blk) v = some (true,withPage v f { v.pages f with
      blkHeaders := (List.range' 0 nBlksPerPage).map (newHeader (firstBlkInPage blk)) } v.held) := by
    rw [initBlkHeaders,get_bind,he]
    refine (initLoop_run _ _ _ _ hmem).trans ?_
    rw [he]
    rfl
  have hfirst : firstBlkInPage blk + blk % nBlksPerPage = blk := Nat.div_add_mod' blk nBlksPerPage
  have hlt : blk % nBlksPerPage < nBlksPerPage := Nat.mod_lt _ (by decide)
  have hblks := fun i (hi : i < nBlksPerPage) => newHeader_blk hblk hi
  have hfind : ((List.range' 0 nBlksPerPage).map (newHeader (firstBlkInPage blk))).findIdx? (fun bh => bh.blk = blk) =
      some (blk % nBlksPerPage) := by
    refine List.findIdx?_eq_some_iff_getElem.mpr ⟨by simpa using hlt,?_,fun i hi => ?_⟩
    · simpa using (hblks _ hlt).trans hfirst
    · have := hblks i (hi.trans hlt)
      simp only [List.getElem_map,List.getElem_range',decide_eq_true_eq,Nat.zero_add,Nat.one_mul,this]
      omega
  have hget := get_hit hc hinit
  simp only [withPage,Function.update_self,hfind] at hget
  refine ⟨_,_,hget,?_,?_⟩
  · simp only [Cache.header,Function.update_self,Page.setRef,List.getElem?_modify_eq,List.getElem?_map,
      List.getElem?_range' hlt,Option.map_some,Nat.zero_add,Nat.one_mul]
    exact ⟨_,rfl,(hblks _ hlt).trans hfirst⟩
  · simp only [Function.update_self,Page.setRef]
    refine List.ext_getElem? fun i => ?_
    rw [List.getElem?_map,List.getElem?_modify]
    by_cases hi : i < nBlksPerPage
    · rw [List.getElem?_map,List.getElem?_range' hi,List.getElem?_range' hi]
      have := hblks i hi
      split <;> simp [this]
    · rw [List.getElem?_eq_none (by simpa using hi),List.getElem?_eq_none (by simpa using hi)]
      rfl

theorem failed_fetch_retried_iff (hblk : blk < 2^32) (hpage : pgcacheGetPage (pageOfs blk) s = some (some f,u))
    (hinit : initBlkHeaders f (firstBlkInPage blk) u = some (false,t)) (hkept : v.pages f = t.pages f)
    (hc : v.cachedPages (pageOfs blk / pgSize) = some f) (hmem : v.supply = []) :
    bdevGetBlkUnlocked blk s = some (none,t) ∧
      ((∀ blk' < 2^32, firstBlkInPage blk' = firstBlkInPage blk → Fetches v f blk') ↔ u.supply.head? = some false) := by
  obtain ⟨k,hk,hl,hz⟩ := initBlkHeaders_refused hinit
  rw [← hkept] at hl
  constructor
  · rw [bdevGetBlkUnlocked,bind_of_some (x := pgcacheGetPage (blk * bdevBlkSize % 2^32)) hpage]
    dsimp only
    rw [bind_of_some hinit]
    rfl
  · rw [← hz]
    constructor
    · intro hall
      by_contra hpos
      have hlast : firstBlkInPage (firstBlkInPage blk + 7) = firstBlkInPage blk ∧ firstBlkInPage blk + 7 < 2^32 := by
        simp only [firstBlkInPage,nBlksPerPage,pgSize,bdevBlkSize]
        omega
      obtain ⟨h,w,hw,-⟩ := hall _ hlast.2 hlast.1
      have hskip : initBlkHeaders f (firstBlkInPage (firstBlkInPage blk + 7)) v = some (true,v) := by
        rw [initBlkHeaders,get_bind,hl,if_neg (by simp [hpos])]
        rfl
      have hnone : ((List.range' 0 k).map (newHeader (firstBlkInPage blk))).findIdx?
          (fun bh => bh.blk = firstBlkInPage blk + 7) = none := by
        refine List.findIdx?_eq_none_iff.mpr fun bh hbh => ?_
        obtain ⟨i,hi,rfl⟩ := List.mem_map.mp hbh
        have hlt := (List.mem_range'_1.mp hi).2
        have h7 : nBlksPerPage = 8 := rfl
        simp [newHeader_blk hblk (show i < nBlksPerPage by omega),show i ≠ 7 by omega]
      have hc' : v.cachedPages (pageOfs (firstBlkInPage blk + 7) / pgSize) = some f := by rwa [page_same hlast.1]
      rw [get_hit hc' hskip,hl,hnone] at hw
      cases hw
    · rintro rfl blk' hblk' hsame
      exact fresh_fetches hblk' hmem hl (by rwa [page_same hsame])

def refusing (supply : List Bool) : Cache := { emptyCache (fun _ => 0) (fun _ => 0) supply with
  cachedPages := fun i => if i = 0 then some 0 else none }

theorem failed_fetch_retried_first : bdevGetBlkUnlocked 3 (refusing [false]) = some (none,refusing []) ∧
    Fetches (refusing []) 0 5 := by
  obtain ⟨hnull,hiff⟩ := failed_fetch_retried_iff (s := refusing [false]) (t := refusing []) (u := refusing [false])
    (v := refusing []) (f := 0) (show 3 < 2^32 by decide) rfl rfl rfl rfl rfl
  exact ⟨hnull,hiff.mpr rfl 5 (by decide) rfl⟩

theorem half_made_page_panics : ∃ t, bdevGetBlkUnlocked 3 (refusing [true,false]) = some (none,t) ∧
    t.supply = [] ∧ (t.pages 0).blkHeaders.map BlkHeader.blk = [0] ∧ bdevGetBlkUnlocked 5 t = none :=
  ⟨_,rfl,rfl,rfl,rfl⟩

end MappedMemory.Bdev
