import MappedMemory.Pmem.Buddy

namespace MappedMemory

open Function (update update_apply)
open Set (mem_insert)

open Dyadic

namespace Pmem

def freeBlk (s : Pmem) : Set Blk := {b | b.1 ∈ s.freeblocks b.2}

structure Inv (s : Pmem) (own : Set Blk) : Prop where
  tiling : Tiling s.pagemapEnd (s.freeBlk ∪ own)
  apart : ∀ b ∈ s.freeBlk, b ∉ own
  nodup : ∀ k, (s.freeblocks k).Nodup
  free_page : ∀ b ∈ s.freeBlk, b.2 ≤ maxOrder ∧ s.pagemap b.1 = ⟨0,b.2⟩
  own_page : ∀ b ∈ own, b.2 ≤ maxOrder ∧ s.order b.1 = b.2
  held : ∀ p < s.pagemapEnd, 0 < s.refcnt p → ∃ k, (p,k) ∈ own

section fields
variable (s : Pmem) (p q n k : Nat)

@[simp] lemma setRefcnt_refcnt : (s.setRefcnt p n).refcnt q = if q = p then n else s.refcnt q := by
  simp only [setRefcnt,refcnt,update_apply]
  split <;> rfl

@[simp] lemma setRefcnt_order : (s.setRefcnt p n).order q = s.order q := by
  simp only [setRefcnt,order,update_apply]
  split
  · rename_i h; rw [h]
  · rfl

@[simp] lemma setOrder_refcnt : (s.setOrder p k).refcnt q = s.refcnt q := by
  simp only [setOrder,refcnt,update_apply]
  split
  · rename_i h; rw [h]
  · rfl

@[simp] lemma setOrder_order : (s.setOrder p k).order q = if q = p then k else s.order q := by
  simp only [setOrder,order,update_apply]
  split <;> rfl

@[simp] lemma setRefcnt_end : (s.setRefcnt p n).pagemapEnd = s.pagemapEnd := rfl
@[simp] lemma setOrder_end : (s.setOrder p k).pagemapEnd = s.pagemapEnd := rfl
@[simp] lemma setRefcnt_freeblocks : (s.setRefcnt p n).freeblocks = s.freeblocks := rfl
@[simp] lemma setOrder_freeblocks : (s.setOrder p k).freeblocks = s.freeblocks := rfl

lemma pagemap_eq : s.pagemap p = ⟨s.refcnt p,s.order p⟩ := rfl

end fields

variable {s t : Pmem} {own : Set Blk} {p k : Nat}

lemma mem_freeBlk {b : Blk} : b ∈ s.freeBlk ↔ b.1 ∈ s.freeblocks b.2 := Iff.rfl

lemma freeblocksInsert_eq (h : s.order p ≤ maxOrder) : s.freeblocksInsert p =
    some { s.setRefcnt p 0 with
      freeblocks := update s.freeblocks (s.order p) (s.freeblocks (s.order p) ++ [p]) } :=
  if_pos h

lemma freeblocksInsert_spec (h : s.order p ≤ maxOrder) : ∃ t, s.freeblocksInsert p = some t ∧
    t.pagemapEnd = s.pagemapEnd ∧ (∀ q, t.refcnt q = if q = p then 0 else s.refcnt q) ∧ (∀ q, t.order q = s.order q) ∧
    ∀ j, t.freeblocks j = if j = s.order p then s.freeblocks j ++ [p] else s.freeblocks j := by
  refine ⟨_,freeblocksInsert_eq h,rfl,fun q => setRefcnt_refcnt s p q 0,
    fun q => setRefcnt_order s p q 0,fun j => ?_⟩
  simp only [update_apply]
  split
  · rename_i hj; rw [hj]
  · rfl

lemma Inv.free_unique (hi : s.Inv own) {j : Nat} (hk : p ∈ s.freeblocks k) (hj : p ∈ s.freeblocks j) : j = k :=
  hi.tiling.head_unique (.inl hj) (.inl hk)

lemma Inv.not_free (hi : s.Inv own) {b : Blk} (hb : b ∈ own) (j : Nat) : b.1 ∉ s.freeblocks j := by
  intro hj
  have he : j = b.2 := hi.tiling.head_unique (.inl hj) (.inr hb)
  exact hi.apart b (show b.1 ∈ s.freeblocks b.2 from he ▸ hj) hb

lemma Inv.remove (hi : s.Inv own) (hp : p ∈ s.freeblocks k) : ∃ t, s.freeblocksRemove p = some t ∧
    t.pagemapEnd = s.pagemapEnd ∧ t.pagemap = s.pagemap ∧
    (∀ b, b ∈ t.freeBlk ↔ b ∈ s.freeBlk ∧ b ≠ (p,k)) ∧ t.Inv (insert (p,k) own) := by
  obtain ⟨hk,hpg⟩ := hi.free_page (p,k) hp
  have hmem : ∀ b : Blk, b.1 ∈ (s.freeblocks b.2).erase p ↔ b ∈ s.freeBlk ∧ b ≠ (p,k) := by
    intro b
    rw [(hi.nodup _).mem_erase_iff]
    constructor
    · rintro ⟨hne,hb⟩
      exact ⟨hb,fun he => hne (congrArg Prod.fst he)⟩
    · rintro ⟨hb,hne⟩
      refine ⟨fun he => hne (Prod.ext he ?_),hb⟩
      exact hi.free_unique hp (he ▸ hb)
  refine ⟨_,if_pos ⟨congrArg Page.refcnt hpg,(congrArg Page.order hpg).trans_le hk⟩,rfl,rfl,hmem,?_⟩
  refine ⟨hi.tiling.congr fun b => ?_,?_,fun j => (hi.nodup j).erase p,
    fun b hb => hi.free_page b ((hmem b).mp hb).1,?_,?_⟩
  · change b.1 ∈ (s.freeblocks b.2).erase p ∨ (b = (p,k) ∨ b ∈ own) ↔ b ∈ s.freeBlk ∨ b ∈ own
    rw [hmem b]
    by_cases hb : b = (p,k)
    · simp [hb,mem_freeBlk,hp]
    · simp [hb]
  · rintro b hb (rfl | ho)
    · exact ((hmem _).mp hb).2 rfl
    · exact hi.apart b ((hmem b).mp hb).1 ho
  · rintro b (rfl | hb)
    · exact ⟨hk,congrArg Page.order hpg⟩
    · exact hi.own_page b hb
  · intro q hq hr
    obtain ⟨j,hj⟩ := hi.held q hq hr
    exact ⟨j,.inr hj⟩

lemma Inv.insert (hi : s.Inv (insert (p,k) own)) (hown : (p,k) ∉ own) :
    ∃ t, s.freeblocksInsert p = some t ∧ t.pagemapEnd = s.pagemapEnd ∧
      (∀ q, t.refcnt q = if q = p then 0 else s.refcnt q) ∧ (∀ q, t.order q = s.order q) ∧
      (∀ b, b ∈ t.freeBlk ↔ b ∈ s.freeBlk ∨ b = (p,k)) ∧ t.Inv own := by
  obtain ⟨hk,ho⟩ := hi.own_page (p,k) (mem_insert _ _)
  obtain ⟨t,ht,hend,href,hord,hfree⟩ := freeblocksInsert_spec (s := s) (p := p) (ho.trans_le hk)
  simp only at ho
  have hmem : ∀ b : Blk, b ∈ t.freeBlk ↔ b ∈ s.freeBlk ∨ b = (p,k) := by
    intro b
    rw [mem_freeBlk,hfree,ho]
    split
    · rename_i hb
      simp [mem_freeBlk,Prod.ext_iff,hb]
    · rename_i hb
      simp [mem_freeBlk,Prod.ext_iff,hb]
  have hnew := hi.not_free (mem_insert (p,k) own)
  refine ⟨t,ht,hend,href,hord,hmem,?_⟩
  refine ⟨?_,?_,?_,?_,?_,?_⟩
  · rw [hend]
    refine hi.tiling.congr fun b => ?_
    simp only [Set.mem_union,hmem,Set.mem_insert_iff]
    tauto
  · intro b hb
    rcases (hmem b).mp hb with hb | rfl
    · exact fun hbo => hi.apart b hb (.inr hbo)
    · exact hown
  · intro j
    rw [hfree]
    split
    · refine List.Nodup.append (hi.nodup j) (by simp) ?_
      simpa using hnew j
    · exact hi.nodup j
  · intro b hb
    rw [pagemap_eq,href,hord]
    rcases (hmem b).mp hb with hb | rfl
    · obtain ⟨h1,h2⟩ := hi.free_page b hb
      rw [pagemap_eq,Page.mk.injEq] at h2
      simp [h1,h2]
    · simp [hk,ho]
  · intro b hb
    rw [hord]
    exact hi.own_page b (.inr hb)
  · intro q hq hr
    rw [href] at hr
    split at hr
    · simp at hr
    · rename_i hne
      obtain ⟨j,hj | hj⟩ := hi.held q (hend ▸ hq) hr
      · exact absurd (congrArg Prod.fst hj) hne
      · exact ⟨j,hj⟩

lemma Inv.page_outside (hi : s.Inv own) {b c : Blk} (hb : b ∈ own) (hc : c ∈ s.freeBlk ∪ own)
    (hne : c ≠ b) {q : Nat} (hq : Mem q b) : c.1 ≠ q :=
  fun he => hne (hi.tiling.unique c hc b (.inr hb) q (he ▸ mem_head c) hq)

lemma Inv.split (hi : s.Inv (Insert.insert (p,k+1) own)) (hown : (p,k+1) ∉ own) :
    ∃ t, s.splitBlock p (k+1) = some t ∧ t.pagemapEnd = s.pagemapEnd ∧
      (∀ q, t.refcnt q = s.refcnt q) ∧ (∀ b ∈ own, t.order b.1 = s.order b.1) ∧
      (∀ b, b ∈ t.freeBlk ↔ b ∈ s.freeBlk ∨ b = (p + 2^k,k)) ∧ (p,k) ∉ own ∧
      t.Inv (Insert.insert (p,k) own) := by
  have hself : (p,k+1) ∈ Insert.insert (p,k+1) own := mem_insert _ _
  obtain ⟨hk,ho⟩ := hi.own_page _ hself
  have hal : 2^(k+1) ∣ p := hi.tiling.aligned _ (.inr hself)
  have hin : p + 2^(k+1) ≤ s.pagemapEnd := hi.tiling.inside _ (.inr hself)
  have hpow : 2^(k+1) = 2^k + 2^k := by ring
  have hpos : 0 < 2^k := by positivity
  have hfst : Mem p (p,k+1) := mem_head (p,k+1)
  have hsnd : Mem (p + 2^k) (p,k+1) := ⟨by simp,by simp only; omega⟩
  have hzero : s.refcnt (p + 2^k) = 0 := by
    by_contra hne
    obtain ⟨j,hj⟩ := hi.held (p + 2^k) (by omega) (Nat.pos_of_ne_zero hne)
    have he := hi.tiling.unique _ (.inr hj) _ (.inr hself) (p + 2^k) (mem_head (p + 2^k,j)) hsnd
    have := congrArg Prod.fst he
    simp only at this
    omega
  have outside : ∀ c ∈ s.freeBlk ∪ own, c.1 ≠ p ∧ c.1 ≠ p + 2^k := by
    intro c hc
    have hcT : c ∈ s.freeBlk ∪ Insert.insert (p,k+1) own := hc.imp id .inr
    have hne : c ≠ (p,k+1) := by
      rintro rfl
      exact hc.elim (fun hf => hi.apart _ hf hself) hown
    exact ⟨hi.page_outside hself hcT hne hfst,hi.page_outside hself hcT hne hsnd⟩
  have hbud : buddyHead p k = p + 2^k := buddyHead_even hal
  have hfind : (s.setOrder p k).findBuddy p = some (some (p + 2^k)) := by
    have hmod : p % 2^k = 0 := Nat.mod_eq_zero_of_dvd ((pow_dvd_pow 2 (Nat.le_succ k)).trans hal)
    simp only [buddyHead] at hbud
    simp only [findBuddy,setOrder_order,if_true,hmod,setOrder_end,hbud]
    rw [if_pos ⟨by omega,trivial⟩,if_neg (by omega)]
  let u := (s.setOrder p k).setOrder (p + 2^k) k
  have hu : u.Inv (Insert.insert (p + 2^k,k) (Insert.insert (p,k) own)) := by
    refine ⟨?_,?_,hi.nodup,?_,?_,?_⟩
    · refine hi.tiling.split (.inr hself) fun b => ?_
      change b ∈ s.freeBlk ∨ (b = (p + 2^k,k) ∨ b = (p,k) ∨ b ∈ own) ↔
        ((b ∈ s.freeBlk ∨ (b = (p,k+1) ∨ b ∈ own)) ∧ b ≠ (p,k+1)) ∨ b = (p,k) ∨ b = (p + 2^k,k)
      by_cases hb : b = (p,k+1)
      · have hfree : (p,k+1) ∉ s.freeBlk := fun hf => hi.apart _ hf hself
        simp [hb,hfree,hown]
      · simp only [hb,false_or,ne_eq,not_false_eq_true,and_true]
        tauto
    · rintro b hb (rfl | rfl | ho)
      · exact (outside _ (.inl hb)).2 rfl
      · exact (outside _ (.inl hb)).1 rfl
      · exact hi.apart b hb (.inr ho)
    · intro b hb
      obtain ⟨h1,h2⟩ := outside b (.inl hb)
      obtain ⟨h3,h4⟩ := hi.free_page b hb
      rw [pagemap_eq,Page.mk.injEq] at h4
      simp only [u,pagemap_eq,setOrder_refcnt,setOrder_order,h1,h2,if_false,h4]
      exact ⟨h3,trivial⟩
    · rintro b (rfl | rfl | ho)
      · exact ⟨by omega,by simp [u]⟩
      · exact ⟨by omega,by simp [u]⟩
      · obtain ⟨h1,h2⟩ := outside b (.inr ho)
        simpa [u,h1,h2] using hi.own_page b (.inr ho)
    · intro q hq hr
      obtain ⟨j,hj | hj⟩ := hi.held q hq (by simpa [u] using hr)
      · have hqp : q = p := congrArg Prod.fst hj
        exact ⟨k,.inr (.inl (by rw [hqp]))⟩
      · exact ⟨j,.inr (.inr hj)⟩
  have hpk : (p,k) ∉ own := fun ho => (outside _ (.inr ho)).1 rfl
  have hnew : (p + 2^k,k) ∉ Insert.insert (p,k) own := by
    rintro (he | ho)
    · have := congrArg Prod.fst he
      simp only at this
      omega
    · exact (outside _ (.inr ho)).2 rfl
  obtain ⟨t,ht,hend,href,hord,hfree,hinv⟩ := hu.insert hnew
  refine ⟨t,?_,hend,?_,?_,hfree,hpk,hinv⟩
  · simp only [splitBlock,Nat.add_sub_cancel,hfind,Option.bind_eq_bind,Option.bind_some]
    exact ht
  · intro q
    rw [href]
    split
    · rename_i hq
      rw [hq,hzero]
    · simp [u]
  · intro b hb
    obtain ⟨h1,h2⟩ := outside b (.inr hb)
    rw [hord]
    simp [u,h1,h2]

structure Taken (s t : Pmem) (own : Set Blk) (p k : Nat) : Prop where
  pagemapEnd : t.pagemapEnd = s.pagemapEnd
  refcnt : ∀ q, t.refcnt q = s.refcnt q
  order : ∀ b ∈ own, t.order b.1 = s.order b.1
  new : (p,k) ∉ own
  zero : s.refcnt p = 0
  inv : t.Inv (Insert.insert (p,k) own)
  buddies : NoBuddies s.freeBlk maxOrder → NoBuddies t.freeBlk maxOrder

lemma Inv.take (hi : s.Inv own) (hp : p ∈ s.freeblocks k) :
    ∃ t, s.freeblocksRemove p = some t ∧ Taken s t own p k := by
  obtain ⟨t,ht,hend,hpages,hfree,hinv⟩ := hi.remove hp
  refine ⟨t,ht,hend,fun q => by simp [Pmem.refcnt,hpages],fun b _ => by simp [Pmem.order,hpages],
    hi.apart _ hp,congrArg Page.refcnt (hi.free_page (p,k) hp).2,hinv,?_⟩
  intro hn b hb hlt hbud
  exact hn b ((hfree b).mp hb).1 hlt ((hfree _).mp hbud).1

lemma Taken.split (h : Taken s t own p (k+1)) : ∃ u, t.splitBlock p (k+1) = some u ∧ Taken s u own p k := by
  obtain ⟨u,hu,hend,href,hord,hfree,hnew,hinv⟩ := h.inv.split h.new
  have hself : (p,k) ∈ Insert.insert (p,k) own := mem_insert _ _
  have hpar : 2^(k+1) ∣ p := h.inv.tiling.aligned _ (.inr (mem_insert (p,k+1) own))
  have hbud : buddy (p,k) = (p + 2^k,k) := Prod.ext (buddyHead_even hpar) rfl
  have hback : buddy (p + 2^k,k) = (p,k) := by
    rw [← hbud,buddy_buddy (hinv.tiling.aligned _ (.inr hself))]
  refine ⟨u,hu,hend.trans h.pagemapEnd,fun q => (href q).trans (h.refcnt q),
    fun b hb => (hord b hb).trans (h.order b hb),hnew,h.zero,hinv,?_⟩
  intro hn b hb hlt hbf
  have hout : (p,k) ∉ u.freeBlk := fun hf => hinv.apart _ hf hself
  rcases (hfree b).mp hb with hb | rfl
  · rcases (hfree _).mp hbf with hbf | he
    · exact h.buddies hn b hb hlt hbf
    · have hab := h.inv.tiling.aligned b (.inl hb)
      have heq : b = (p,k) := by rw [← buddy_buddy hab,he,hback]
      exact hout (heq ▸ (hfree b).mpr (.inl hb))
  · exact hout (hback ▸ hbf)

lemma findFreeblockFrom_spec (hi : s.Inv own) (left : Nat) (split : Bool)
    (hleft : left ≤ maxOrder + 1) (hsplit : split = true → left ≤ maxOrder) :
    (findFreeblockFrom left s split = some (s,none) ∧
      ∀ j, maxOrder + 1 - left ≤ j → j ≤ maxOrder → s.freeblocks j = []) ∨
    ∃ t p, findFreeblockFrom left s split = some (t,some p) ∧
      Taken s t own p (maxOrder + 1 - left - if split then 1 else 0) := by
  induction left generalizing split with
  | zero => exact .inl ⟨rfl,fun j h1 h2 => by omega⟩
  | succ left ih =>
    have hord : maxOrder + 1 - (left + 1) = maxOrder - left := by omega
    have finish : ∀ t p, Taken s t own p (maxOrder - left) →
        ∃ u, (if split then (t.splitBlock p (maxOrder - left)).map (fun s => (s,some p))
          else some (t,some p)) = some (u,some p) ∧
          Taken s u own p (maxOrder - left - if split then 1 else 0) := by
      intro t p ht
      cases split with
      | false => exact ⟨t,rfl,ht⟩
      | true =>
        have hpos := hsplit rfl
        obtain ⟨k,hk⟩ : ∃ k, maxOrder - left = k + 1 := ⟨maxOrder - left - 1,by omega⟩
        rw [hk] at ht ⊢
        obtain ⟨u,hu,hu'⟩ := ht.split
        exact ⟨u,by simp [hu],hu'⟩
    rw [hord]
    cases hfb : s.freeblocks (maxOrder - left) with
    | cons p ps =>
      obtain ⟨t,ht,htaken⟩ := hi.take (show p ∈ s.freeblocks (maxOrder - left) by simp [hfb])
      obtain ⟨u,hu,hu'⟩ := finish t p htaken
      refine .inr ⟨u,p,?_,hu'⟩
      simpa [findFreeblockFrom,hfb,ht] using hu
    | nil =>
      rcases ih true (by omega) (fun _ => by omega) with ⟨hnone,hempty⟩ | ⟨t,p,ht,htaken⟩
      · refine .inl ⟨by simp [findFreeblockFrom,hfb,hnone],fun j h1 h2 => ?_⟩
        rcases Nat.eq_or_lt_of_le h1 with he | hlt
        · exact he ▸ hfb
        · exact hempty j (by omega) h2
      · have hpred : maxOrder + 1 - left - (if true = true then 1 else 0) = maxOrder - left := by
          simp only [if_true]
          omega
        rw [hpred] at htaken
        obtain ⟨u,hu,hu'⟩ := finish t p htaken
        refine .inr ⟨u,p,?_,hu'⟩
        simpa [findFreeblockFrom,hfb,ht] using hu

lemma Inv.findBuddy (hi : s.Inv own) (hp : (p,k) ∈ own) : s.findBuddy p =
    some (if buddyHead p k ≥ s.pagemapEnd then none else some (buddyHead p k)) := by
  obtain ⟨hk,ho⟩ := hi.own_page _ hp
  have hal : 2^k ∣ p := hi.tiling.aligned _ (.inr hp)
  simp only at ho
  simp only [Pmem.findBuddy,ho,buddyHead]
  exact if_pos ⟨hk,Nat.mod_eq_zero_of_dvd hal⟩

lemma Inv.merge (hi : s.Inv (Insert.insert (buddy (p,k)) (Insert.insert (p,k) own)))
    (hk : k < maxOrder) (hp : (p,k) ∉ own) (hb : buddy (p,k) ∉ own)
    (hzero : s.refcnt p = 0 ∧ s.refcnt (buddyHead p k) = 0) {m : Nat} (hm : m = min p (buddyHead p k)) :
    (s.setOrder m (k+1)).Inv (Insert.insert (m,k+1) own) ∧ (m,k+1) ∉ own ∧
      ∀ b ∈ own, b.1 ≠ m := by
  have hpar : parent (p,k) = (m,k+1) := by rw [hm]; rfl
  have hself : (p,k) ∈ Insert.insert (buddy (p,k)) (Insert.insert (p,k) own) := .inr (.inl rfl)
  have hbud : buddy (p,k) ∈ Insert.insert (buddy (p,k)) (Insert.insert (p,k) own) := .inl rfl
  have hmT : ∀ c ∈ s.freeBlk ∪ own, c.1 ≠ m := by
    intro c hc
    have hcT : c ∈ s.freeBlk ∪ Insert.insert (buddy (p,k)) (Insert.insert (p,k) own) :=
      hc.imp id fun h => .inr (.inr h)
    have hcp : c ≠ (p,k) := by
      rintro rfl
      exact hc.elim (fun hf => hi.apart _ hf hself) hp
    have hcb : c ≠ buddy (p,k) := by
      rintro rfl
      exact hc.elim (fun hf => hi.apart _ hf hbud) hb
    rcases min_choice p (buddyHead p k) with he | he
    · rw [hm,he]
      exact hi.page_outside hself hcT hcp (mem_head (p,k))
    · rw [hm,he]
      exact hi.page_outside hbud hcT hcb (mem_head (buddy (p,k)))
  have hnew : (m,k+1) ∉ own := fun ho => hmT _ (.inr ho) rfl
  refine ⟨⟨?_,?_,hi.nodup,?_,?_,?_⟩,hnew,fun b hb => hmT b (.inr hb)⟩
  · refine hi.tiling.merge (.inr hself) (.inr hbud) fun c => ?_
    change c ∈ s.freeBlk ∨ (c = (m,k+1) ∨ c ∈ own) ↔
      ((c ∈ s.freeBlk ∨ (c = buddy (p,k) ∨ c = (p,k) ∨ c ∈ own)) ∧ c ≠ (p,k) ∧ c ≠ buddy (p,k)) ∨
        c = parent (p,k)
    rw [hpar]
    have h1 : c ∈ s.freeBlk ∪ own → c ≠ (p,k) ∧ c ≠ buddy (p,k) := by
      rintro (hf | ho)
      · exact ⟨fun he => hi.apart c hf (he ▸ hself),fun he => hi.apart c hf (he ▸ hbud)⟩
      · exact ⟨fun he => hp (he ▸ ho),fun he => hb (he ▸ ho)⟩
    simp only [Set.mem_union] at h1
    tauto
  · rintro b hbf (rfl | ho)
    · exact hmT _ (.inl hbf) rfl
    · exact hi.apart b hbf (.inr (.inr ho))
  · intro b hbf
    obtain ⟨h1,h2⟩ := hi.free_page b hbf
    rw [pagemap_eq,Page.mk.injEq] at h2
    simp only [pagemap_eq,setOrder_refcnt,setOrder_order,hmT b (.inl hbf),if_false,h2]
    exact ⟨h1,trivial⟩
  · rintro b (rfl | ho)
    · exact ⟨hk,by simp⟩
    · simpa [hmT b (.inr ho)] using hi.own_page b (.inr (.inr ho))
  · intro q hq hr
    rw [setOrder_refcnt] at hr
    obtain ⟨j,hj | hj | hj⟩ := hi.held q hq hr
    · have he : q = buddyHead p k := congrArg Prod.fst hj
      rw [he,hzero.2] at hr
      exact absurd hr (lt_irrefl 0)
    · have he : q = p := congrArg Prod.fst hj
      rw [he,hzero.1] at hr
      exact absurd hr (lt_irrefl 0)
    · exact ⟨j,.inr hj⟩

structure Merged (s t : Pmem) (own : Set Blk) (q j : Nat) : Prop where
  pagemapEnd : t.pagemapEnd = s.pagemapEnd
  refcnt : ∀ x, t.refcnt x = s.refcnt x
  order : ∀ b ∈ own, t.order b.1 = s.order b.1
  new : (q,j) ∉ own
  zero : t.refcnt q = 0
  inv : t.Inv (Insert.insert (q,j) own)
  free : t.freeBlk ⊆ s.freeBlk
  settled : j < maxOrder → buddy (q,j) ∉ t.freeBlk

lemma Inv.buddy_free (hi : s.Inv (Insert.insert (p,k) own)) (hlive : ∀ b ∈ own, 0 < s.refcnt b.1)
    (hlt : buddyHead p k < s.pagemapEnd) (hr : s.refcnt (buddyHead p k) = 0)
    (ho : s.order (buddyHead p k) = k) : buddyHead p k ∈ s.freeblocks k := by
  have hself : (p,k) ∈ Insert.insert (p,k) own := mem_insert _ _
  have hal : Aligned (p,k) := hi.tiling.aligned _ (.inr hself)
  obtain ⟨j,_,hj | hj | hj⟩ := hi.tiling.buddy_head (.inr hself) hlt
  · have hpg := (hi.free_page _ hj).2
    have hjk : j = k := (congrArg Page.order hpg).symm.trans ho
    exact hjk ▸ hj
  · exact absurd (congrArg Prod.fst hj) (buddy_ne hal)
  · exact absurd hr (hlive _ hj).ne'

lemma mergeBlockFrom_spec (fuel : Nat) (hi : s.Inv (Insert.insert (p,k) own)) (hp : (p,k) ∉ own)
    (hlive : ∀ b ∈ own, 0 < s.refcnt b.1) (hz : s.refcnt p = 0) (hfuel : maxOrder < fuel + k) :
    ∃ t q j, mergeBlockFrom fuel s p = some (t,q) ∧ Merged s t own q j := by
  induction fuel generalizing s p k with
  | zero =>
    have hk := (hi.own_page (p,k) (mem_insert _ _)).1
    simp only at hk
    omega
  | succ fuel ih =>
    obtain ⟨hk,ho⟩ := hi.own_page (p,k) (mem_insert _ _)
    simp only at hk ho
    have stay : (k < maxOrder → buddy (p,k) ∉ s.freeBlk) → Merged s s own p k := fun h =>
      ⟨rfl,fun _ => rfl,fun _ _ => rfl,hp,hz,hi,Set.Subset.rfl,h⟩
    simp only [mergeBlockFrom,hz,ho,hk,and_self,not_true,if_false]
    split
    · rename_i hmax
      exact ⟨s,p,k,rfl,stay fun h => by omega⟩
    rename_i hmax
    rw [hi.findBuddy (mem_insert _ _)]
    by_cases hend : buddyHead p k ≥ s.pagemapEnd
    · refine ⟨s,p,k,by simp [hend],stay fun _ hf => ?_⟩
      have hin := hi.tiling.lt_of_mem (.inl hf) (mem_head _)
      exact absurd hin (Nat.not_lt.mpr hend)
    by_cases hfree : s.refcnt (buddyHead p k) = 0 ∧ s.order (buddyHead p k) = k
    · have hmem := hi.buddy_free hlive (Nat.not_le.mp hend) hfree.1 hfree.2
      obtain ⟨u,hu,huend,hupages,hufree,huinv⟩ := hi.remove hmem
      have hur : ∀ x, u.refcnt x = s.refcnt x := fun x => by simp [Pmem.refcnt,hupages]
      have huo : ∀ x, u.order x = s.order x := fun x => by simp [Pmem.order,hupages]
      have hbown : buddy (p,k) ∉ own := fun h => hi.apart _ hmem (.inr h)
      obtain ⟨hinv,hnew,hne⟩ := huinv.merge (by omega) hp hbown ⟨by rw [hur,hz],by rw [hur,hfree.1]⟩ rfl
      set m := min p (buddyHead p k) with hm
      have hmz : (u.setOrder m (k+1)).refcnt m = 0 := by
        rw [setOrder_refcnt,hur]
        rcases min_choice p (buddyHead p k) with he | he
        · rw [hm,he,hz]
        · rw [hm,he,hfree.1]
      obtain ⟨t,q,j,ht,hmerged⟩ := ih hinv hnew (fun b hb => by simpa [hur] using hlive b hb) hmz (by omega)
      refine ⟨t,q,j,?_,?_⟩
      · simp only [hend,hfree,hu,huo,ho,if_false,and_self,if_true,Option.bind_eq_bind,Option.bind_some]
        split
        · rename_i hlt
          rwa [hm,Nat.min_eq_left hlt.le] at ht
        · rename_i hlt
          rwa [hm,Nat.min_eq_right (Nat.not_lt.mp hlt)] at ht
      · refine ⟨hmerged.pagemapEnd.trans huend,fun x => ?_,fun b hb => ?_,hmerged.new,hmerged.zero,
          hmerged.inv,fun b hb => ((hufree b).mp (hmerged.free hb)).1,hmerged.settled⟩
        · rw [hmerged.refcnt,setOrder_refcnt,hur]
        · rw [hmerged.order b hb,setOrder_order,if_neg (hne b hb),huo]
    · refine ⟨s,p,k,by simp [hend,hfree],stay fun _ hf => hfree ?_⟩
      have hpg := (hi.free_page _ hf).2
      exact ⟨congrArg Page.refcnt hpg,congrArg Page.order hpg⟩

end Pmem
end MappedMemory
