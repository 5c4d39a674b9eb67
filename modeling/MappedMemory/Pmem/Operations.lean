import MappedMemory.Pmem.Invariant

namespace MappedMemory
open Dyadic

namespace Pmem

def live (s : Pmem) : Set Blk := {b | b.1 < s.pagemapEnd ∧ 0 < s.refcnt b.1 ∧ b.2 = s.order b.1}

def Good (s : Pmem) : Prop := s.Inv s.live

variable {s t : Pmem} {own : Set Blk} {p q n k : Nat}

lemma mem_live {b : Blk} : b ∈ s.live ↔ b.1 < s.pagemapEnd ∧ 0 < s.refcnt b.1 ∧ b.2 = s.order b.1 :=
  Iff.rfl

lemma head_live (hp : p < s.pagemapEnd) (hr : 0 < s.refcnt p) : (p,s.order p) ∈ s.live :=
  ⟨hp,hr,rfl⟩

lemma Inv.setRefcnt (hi : s.Inv own) (hp : (p,k) ∈ own) : (s.setRefcnt p n).Inv own := by
  refine ⟨hi.tiling,hi.apart,hi.nodup,?_,?_,?_⟩
  · intro b hb
    obtain ⟨h1,h2⟩ := hi.free_page b hb
    rw [pagemap_eq,Page.mk.injEq] at h2
    have hne : b.1 ≠ p := fun he => hi.not_free hp b.2 (he ▸ hb)
    simp only [pagemap_eq,setRefcnt_refcnt,setRefcnt_order,hne,if_false,h2]
    exact ⟨h1,trivial⟩
  · intro b hb
    rw [setRefcnt_order]
    exact hi.own_page b hb
  · intro q hq hr
    rw [setRefcnt_refcnt] at hr
    split at hr
    · rename_i he
      exact ⟨k,he ▸ hp⟩
    · exact hi.held q hq hr

lemma getMinPageOrder_spec (hn : n ≤ 2^maxOrder) :
    ∃ k, getMinPageOrder n = some k ∧ k ≤ maxOrder ∧ n ≤ 2^k ∧ ∀ j < k, 2^j < n := by
  have hsome : (getMinPageOrder n).isSome := by
    rw [getMinPageOrder,List.find?_isSome]
    exact ⟨maxOrder,by simp,by simpa using hn⟩
  obtain ⟨k,hk⟩ := Option.isSome_iff_exists.mp hsome
  have hspec := hk
  rw [getMinPageOrder,List.find?_range_eq_some] at hspec
  obtain ⟨h1,h2,h3⟩ := hspec
  refine ⟨k,hk,by simpa [Nat.lt_succ_iff] using h2,by simpa using h1,fun j hj => ?_⟩
  simpa using h3 j hj

structure Allocated (s t : Pmem) (p k : Nat) : Prop where
  pagemapEnd : t.pagemapEnd = s.pagemapEnd
  inside : p < s.pagemapEnd
  nonzero : p ≠ 0
  zero : s.refcnt p = 0
  refcnt : ∀ q, t.refcnt q = if q = p then 1 else s.refcnt q
  order : t.order p = k
  order_live : ∀ q < s.pagemapEnd, 0 < s.refcnt q → t.order q = s.order q
  live : t.live = insert (p,k) s.live
  good : t.Good
  buddies : NoBuddies s.freeBlk maxOrder → NoBuddies t.freeBlk maxOrder

lemma Taken.allocated (h : Taken s t s.live p k) (hp : p ≠ 0) : Allocated s (t.setRefcnt p 1) p k := by
  have hself : (p,k) ∈ Insert.insert (p,k) s.live := Set.mem_insert _ _
  have hin : p < s.pagemapEnd := by
    rw [← h.pagemapEnd]
    exact h.inv.tiling.lt_of_mem (.inr hself) (mem_head (p,k))
  have hord : t.order p = k := (h.inv.own_page _ hself).2
  have hold : ∀ q < s.pagemapEnd, 0 < s.refcnt q → t.order q = s.order q :=
    fun q hq hr => h.order (q,s.order q) ⟨hq,hr,rfl⟩
  have hlive : (t.setRefcnt p 1).live = Insert.insert (p,k) s.live := by
    ext b
    simp only [mem_live,Set.mem_insert_iff,setRefcnt_end,setRefcnt_refcnt,setRefcnt_order,h.pagemapEnd,
      h.refcnt,Prod.ext_iff]
    by_cases hb : b.1 = p
    · simp [hb,hin,hord,h.zero]
    · simp only [hb,if_false,false_and,false_or]
      refine and_congr_right fun hlt => and_congr_right fun hr => ?_
      rw [hold _ hlt hr]
  refine ⟨h.pagemapEnd,hin,hp,h.zero,fun q => ?_,by simpa using hord,fun q hq hr => ?_,hlive,?_,h.buddies⟩
  · rw [setRefcnt_refcnt,h.refcnt]
  · rw [setRefcnt_order,hold q hq hr]
  · rw [Good,hlive]
    exact h.inv.setRefcnt hself

lemma pmemNalloc_spec (hg : s.Good) (hn : 0 < n) (hmax : n ≤ 2^maxOrder) :
    ∃ k, getMinPageOrder n = some k ∧ n ≤ 2^k ∧ (∀ j < k, 2^j < n) ∧
      (s.pmemNalloc n = some (s,none) ∧ (∀ j, k ≤ j → j ≤ maxOrder → s.freeblocks j = []) ∨
       (∃ t p, s.pmemNalloc n = some (t,some p) ∧ Allocated s t p k) ∨
       s.pmemNalloc n = none ∧ s.refcnt 0 = 0) := by
  obtain ⟨k,hk,hkm,hnk,hmin⟩ := getMinPageOrder_spec hmax
  refine ⟨k,hk,hnk,hmin,?_⟩
  have hord : maxOrder + 1 - (maxOrder + 1 - k) = k := by omega
  have hfind : s.findFreeblock k false = findFreeblockFrom (maxOrder + 1 - k) s false :=
    if_neg (Nat.not_lt.mpr hkm)
  rcases findFreeblockFrom_spec hg (maxOrder + 1 - k) false (by omega) (by simp) with
    ⟨hnone,hempty⟩ | ⟨t,p,ht,htaken⟩
  · refine .inl ⟨?_,fun j hj => hempty j (by omega)⟩
    simp [pmemNalloc,hn,hk,hfind,hnone]
  · rw [hord] at htaken
    have hz : t.refcnt p = 0 := (htaken.refcnt p).trans htaken.zero
    by_cases hp : p = 0
    · exact .inr (.inr ⟨by simp [pmemNalloc,hn,hk,hfind,ht,hp],hp ▸ htaken.zero⟩)
    · exact .inr (.inl ⟨_,p,by simp [pmemNalloc,hn,hk,hfind,ht,hz,hp],htaken.allocated hp⟩)

lemma pmemAlloc_spec (hg : s.Good) :
    s.pmemAlloc = some (s,none) ∨ (∃ t p, s.pmemAlloc = some (t,some p) ∧ Allocated s t p 0) ∨
      s.pmemAlloc = none ∧ s.refcnt 0 = 0 := by
  obtain ⟨k,_,_,hmin,h⟩ := pmemNalloc_spec hg one_pos (show 1 ≤ 2^maxOrder by decide)
  have hk : k = 0 := by
    by_contra hne
    exact absurd (hmin 0 (Nat.pos_of_ne_zero hne)) (by simp)
  subst hk
  exact h.imp (fun h => h.1) id

structure Freed (s t : Pmem) (p k : Nat) : Prop where
  pagemapEnd : t.pagemapEnd = s.pagemapEnd
  refcnt : ∀ q, t.refcnt q = if q = p then 0 else s.refcnt q
  order_live : ∀ q < s.pagemapEnd, 0 < s.refcnt q → q ≠ p → t.order q = s.order q
  live : t.live = s.live \ {(p,k)}
  good : t.Good
  buddies : NoBuddies s.freeBlk maxOrder → NoBuddies t.freeBlk maxOrder

lemma pmemNfree_spec (hg : s.Good) (hp : (p,k) ∈ s.live) (hn : 0 < n) :
    ∃ t, s.pmemNfree p n = some t ∧ Freed s t p k := by
  have ⟨hin,_,hk⟩ := hp
  simp only at hin hk
  have hown : Insert.insert (p,k) (s.live \ {(p,k)}) = s.live := Set.insert_sdiff_self_of_mem hp
  have hout : (p,k) ∉ s.live \ {(p,k)} := fun h => h.2 rfl
  have hne : ∀ b ∈ s.live \ {(p,k)}, b.1 ≠ p := by
    rintro b ⟨⟨_,_,hb⟩,hbp⟩ he
    exact hbp (Prod.ext he (by rw [hb,he,hk]))
  have hi : (s.setRefcnt p 0).Inv (Insert.insert (p,k) (s.live \ {(p,k)})) := by
    rw [hown]
    exact hg.setRefcnt hp
  obtain ⟨t,q,j,ht,hm⟩ := mergeBlockFrom_spec (maxOrder + 1) hi hout
    (fun b hb => by simpa [hne b hb] using hb.1.2.1) (by simp) (by omega)
  obtain ⟨u,hu,huend,huref,huord,hufree,huinv⟩ := hm.inv.insert hm.new
  have href : ∀ x, u.refcnt x = if x = p then 0 else s.refcnt x := by
    intro x
    rw [huref,hm.refcnt,setRefcnt_refcnt]
    split
    · rename_i hx
      have := hm.zero
      rw [hm.refcnt,setRefcnt_refcnt] at this
      rw [hx,this]
    · rfl
  have hend : u.pagemapEnd = s.pagemapEnd := huend.trans hm.pagemapEnd
  have hord : ∀ b ∈ s.live \ {(p,k)}, u.order b.1 = s.order b.1 := fun b hb => by
    rw [huord,hm.order b hb,setRefcnt_order]
  have hold : ∀ x < s.pagemapEnd, 0 < s.refcnt x → x ≠ p → u.order x = s.order x :=
    fun x hx hr hxp => hord (x,s.order x) ⟨⟨hx,hr,rfl⟩,fun he => hxp (congrArg Prod.fst he)⟩
  have hlive : u.live = s.live \ {(p,k)} := by
    ext b
    simp only [mem_live,Set.mem_sdiff,Set.mem_singleton_iff,hend,href,Prod.ext_iff]
    by_cases hb : b.1 = p
    · simp only [hb,if_true,hin,true_and,lt_irrefl,false_and,hk,false_iff]
      tauto
    · simp only [hb,if_false,false_and,not_false_eq_true,and_true]
      refine and_congr_right fun hlt => and_congr_right fun hr => ?_
      rw [hold _ hlt hr hb]
  refine ⟨u,?_,hend,href,hold,hlive,?_,?_⟩
  · simp only [pmemNfree,hn,if_true,mergeBlock,ht,Option.bind_eq_bind,Option.bind_some]
    exact hu
  · rw [Good,hlive]
    exact huinv
  · intro hnb b hb hlt hbf
    have hself : (q,j) ∈ Insert.insert (q,j) (s.live \ {(p,k)}) := Set.mem_insert _ _
    rcases (hufree b).mp hb with hb | rfl
    · rcases (hufree _).mp hbf with hbf | he
      · exact hnb b (hm.free hb) hlt (hm.free hbf)
      · have hbj : b.2 = j := congrArg Prod.snd he
        refine hm.settled (hbj ▸ hlt) ?_
        rw [← he,buddy_buddy (hm.inv.tiling.aligned b (.inl hb))]
        exact hb
    · rcases (hufree _).mp hbf with hbf | he
      · exact hm.settled hlt hbf
      · exact buddy_ne (hm.inv.tiling.aligned _ (.inr hself)) (congrArg Prod.fst he)

lemma setRefcnt_live (hr : 0 < s.refcnt p) (hn : 0 < n) : (s.setRefcnt p n).live = s.live := by
  ext b
  simp only [mem_live,setRefcnt_end,setRefcnt_refcnt,setRefcnt_order]
  split
  · rename_i hb
    simp [hb,hr,hn]
  · rfl

lemma Good.setRefcnt (hg : s.Good) (hin : p < s.pagemapEnd) (hr : 0 < s.refcnt p) (hn : 0 < n) :
    (s.setRefcnt p n).Good := by
  rw [Good,setRefcnt_live hr hn]
  exact Inv.setRefcnt hg (k := s.order p) ⟨hin,hr,rfl⟩

structure Counted (s t : Pmem) (p n : Nat) : Prop where
  pagemapEnd : t.pagemapEnd = s.pagemapEnd
  refcnt : ∀ q, t.refcnt q = if q = p then n else s.refcnt q
  order_live : ∀ q < s.pagemapEnd, 0 < s.refcnt q → 0 < t.refcnt q → t.order q = s.order q
  live : t.live = s.live \ {b | b.1 = p ∧ n = 0}
  good : t.Good
  buddies : NoBuddies s.freeBlk maxOrder → NoBuddies t.freeBlk maxOrder

section
variable (hg : s.Good) (hin : p < s.pagemapEnd) (hr : 0 < s.refcnt p)
include hg hin hr

lemma Good.counted (hn : 0 < n) : Counted s (s.setRefcnt p n) p n := by
  refine ⟨rfl,fun q => setRefcnt_refcnt s p q n,fun q _ _ _ => setRefcnt_order s p q n,?_,
    hg.setRefcnt hin hr hn,id⟩
  rw [setRefcnt_live hr hn]
  simp [hn.ne']

lemma pmemIncRefcnt_spec (ho : s.order p = 0) : ∃ t, s.pmemIncRefcnt p n = some t ∧ Counted s t p (s.refcnt p + n) :=
  ⟨_,if_pos ⟨hr,ho⟩,hg.counted hin hr (by omega)⟩

lemma pmemDecRefcnt_spec (ho : s.order p = 0) : ∃ t, s.pmemDecRefcnt p = some t ∧ Counted s t p (s.refcnt p - 1) := by
  rw [pmemDecRefcnt,if_pos ⟨hr,ho⟩]
  by_cases hone : s.refcnt p - 1 = 0
  · rw [if_pos hone]
    obtain ⟨t,ht,hf⟩ := pmemNfree_spec (n := 1) hg (p := p) (k := 0) ⟨hin,hr,ho.symm⟩ one_pos
    have hsame : (s.setRefcnt p (s.refcnt p - 1)).pmemNfree p 1 = s.pmemNfree p 1 := by
      simp [pmemNfree,Pmem.setRefcnt,Pmem.order]
    refine ⟨t,hsame.trans ht,hf.pagemapEnd,fun q => by rw [hf.refcnt,hone],?_,?_,hf.good,hf.buddies⟩
    · intro q hq hrq ht
      refine hf.order_live q hq hrq fun he => ?_
      rw [hf.refcnt,if_pos he] at ht
      exact absurd ht (lt_irrefl 0)
    · rw [hf.live]
      ext b
      simp only [Set.mem_sdiff,Set.mem_singleton_iff,Set.mem_ofPred_eq,hone,and_true,Prod.ext_iff]
      refine and_congr_right fun hb => not_congr ⟨fun h => h.1,fun h => ⟨h,?_⟩⟩
      rw [hb.2.2,h,ho]
  · rw [if_neg hone]
    exact ⟨_,rfl,hg.counted hin hr (Nat.pos_of_ne_zero hone)⟩

end

end Pmem
end MappedMemory
