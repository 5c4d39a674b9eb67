import MappedMemory.Library.Run
import MappedMemory.Pmem.Init

namespace MappedMemory
open Dyadic

structure Alloc where
  pm : Pmem
  live : List Blk

namespace Alloc

inductive Op where
  | nalloc (n : Nat)
  | nfree (page n : Nat)
  | incRefcnt (page n : Nat)
  | decRefcnt (page : Nat)
deriving DecidableEq, Repr

def holds (a : Alloc) (page : Nat) : Bool := a.live.any (fun b => b.1 == page)

def drop (a : Alloc) (page : Nat) : List Blk := a.live.filter (fun b => b.1 != page)

def step (a : Alloc) : Op → Option Alloc
  | .nalloc n =>
    if 1 ≤ n ∧ n ≤ 2^maxOrder then do
      let order ← getMinPageOrder n
      let (pm,page) ← a.pm.pmemNalloc n
      match page with
      | none => some ⟨pm,a.live⟩
      | some page => some ⟨pm,(page,order) :: a.live⟩
    else none
  | .nfree page n => if a.holds page then (a.pm.pmemNfree page n).map (⟨·,a.drop page⟩) else none
  | .incRefcnt page n => if a.holds page then (a.pm.pmemIncRefcnt page n).map (⟨·,a.live⟩) else none
  | .decRefcnt page =>
    if a.holds page then
      (a.pm.pmemDecRefcnt page).map (⟨·,if a.pm.refcnt page = 1 then a.drop page else a.live⟩)
    else none

structure Config where
  pmemStart : Nat
  pmemEnd : Nat
  stale : Nat → Bool
  bootOps : List Boot.Op
  sizeofPage : Nat

def init (cfg : Config) : Option Alloc := do
  let b ← Boot.bitmapInit cfg.pmemStart cfg.pmemEnd cfg.stale
  let b ← cfg.bootOps.foldlM Boot.step b
  let (b,pm) ← b.pmemInit cfg.sizeofPage
  some ⟨pm,b.reserved⟩

def run (cfg : Config) (ops : List Op) : Option Alloc := do
  let a ← init cfg
  ops.foldlM step a

structure Inv (n : Nat) (a : Alloc) : Prop where
  good : a.pm.Good
  live : ∀ b, b ∈ a.live ↔ b ∈ a.pm.live
  pagemapEnd : a.pm.pagemapEnd = n
  buddies : NoBuddies a.pm.freeBlk maxOrder

variable {a c : Alloc} {n : Nat} {cfg : Config} {page m k : Nat} {ops : List Op}

lemma init_inv (h : init cfg = some a) : a.Inv cfg.pmemEnd := by
  simp only [init,Run.bind_some,Option.some.injEq,Prod.exists] at h
  obtain ⟨b,hb,d,hd,e,pm,hpm,rfl⟩ := h
  have hboot : d.Wf ∧ d.pmemEnd = cfg.pmemEnd := by
    refine Run.invariant (P := fun b => b.Wf ∧ b.pmemEnd = cfg.pmemEnd) ?_ (Boot.bitmapInit_wf hb) hd
    intro b o d hi hs
    obtain ⟨hwf,_,hend⟩ := hi.1.step hs
    exact ⟨hwf,hend.trans hi.2⟩
  obtain ⟨_,hend,hgood,hpe,hlive,hbud⟩ := Boot.pmemInit_spec hboot.1 hpm
  exact ⟨hgood,fun b => (hlive b).symm,by rw [hpe,hend,hboot.2],hbud⟩

lemma holds_iff : a.holds page = true ↔ ∃ k, (page,k) ∈ a.live := by
  simp only [holds,List.any_eq_true,beq_iff_eq]
  constructor
  · rintro ⟨b,hb,rfl⟩
    exact ⟨b.2,hb⟩
  · rintro ⟨k,hk⟩
    exact ⟨_,hk,rfl⟩

lemma mem_drop {b : Blk} : b ∈ a.drop page ↔ b ∈ a.live ∧ b.1 ≠ page := by
  simp [drop]

section
variable (hi : a.Inv n)
include hi

lemma Inv.nalloc (hm : 1 ≤ m ∧ m ≤ 2^maxOrder) :
    (a.step (.nalloc m) = some a ∧ a.pm.pmemNalloc m = some (a.pm,none)) ∨
    (∃ c page k, a.step (.nalloc m) = some c ∧ a.pm.pmemNalloc m = some (c.pm,some page) ∧ c.Inv n ∧
      m ≤ 2^k ∧ c.live = (page,k) :: a.live) ∨
    (a.step (.nalloc m) = none ∧ a.pm.pmemNalloc m = none ∧ a.pm.refcnt 0 = 0) := by
  obtain ⟨k,hk,hmk,_,⟨h,_⟩ | ⟨pm,page,h,halloc⟩ | ⟨h,h0⟩⟩ := Pmem.pmemNalloc_spec hi.good hm.1 hm.2
  · exact .inl ⟨by simp [step,hm,hk,h],h⟩
  · refine .inr (.inl ⟨⟨pm,(page,k) :: a.live⟩,page,k,by simp [step,hm,hk,h],h,?_,hmk,rfl⟩)
    refine ⟨halloc.good,fun b => ?_,halloc.pagemapEnd.trans hi.pagemapEnd,halloc.buddies hi.buddies⟩
    rw [halloc.live,Set.mem_insert_iff,List.mem_cons,hi.live]
  · exact .inr (.inr ⟨by simp [step,hm,hk,h],h,h0⟩)

lemma Inv.head (h : (page,k) ∈ a.live) : page < a.pm.pagemapEnd ∧ 0 < a.pm.refcnt page ∧ k = a.pm.order page :=
  (hi.live _).mp h

lemma Inv.nfree (h : (page,k) ∈ a.live) (hm : 0 < m) : ∃ c, a.step (.nfree page m) = some c ∧ c.Inv n := by
  obtain ⟨pm,hpm,hf⟩ := Pmem.pmemNfree_spec hi.good ((hi.live _).mp h) hm
  refine ⟨⟨pm,a.drop page⟩,by simp [step,holds_iff.mpr ⟨k,h⟩,hpm],hf.good,fun b => ?_,
    hf.pagemapEnd.trans hi.pagemapEnd,hf.buddies hi.buddies⟩
  rw [mem_drop,hf.live,Set.mem_sdiff,hi.live,Set.mem_singleton_iff,Prod.ext_iff]
  refine and_congr_right fun hb => not_congr ⟨fun he => ⟨he,?_⟩,fun he => he.1⟩
  rw [hb.2.2,he,(hi.head h).2.2]

lemma Inv.incRefcnt (h : (page,0) ∈ a.live) : ∃ c, a.step (.incRefcnt page m) = some c ∧ c.Inv n := by
  obtain ⟨hin,hr,ho⟩ := hi.head h
  obtain ⟨pm,hpm,hc⟩ := Pmem.pmemIncRefcnt_spec (n := m) hi.good hin hr ho.symm
  refine ⟨⟨pm,a.live⟩,by simp [step,holds_iff.mpr ⟨0,h⟩,hpm],hc.good,fun b => ?_,
    hc.pagemapEnd.trans hi.pagemapEnd,hc.buddies hi.buddies⟩
  simp [hc.live,hi.live,hr.ne']

lemma Inv.decRefcnt (h : (page,0) ∈ a.live) : ∃ c, a.step (.decRefcnt page) = some c ∧ c.Inv n := by
  obtain ⟨hin,hr,ho⟩ := hi.head h
  obtain ⟨pm,hpm,hc⟩ := Pmem.pmemDecRefcnt_spec hi.good hin hr ho.symm
  refine ⟨⟨pm,if a.pm.refcnt page = 1 then a.drop page else a.live⟩,
    by simp only [Alloc.step,holds_iff.mpr ⟨0,h⟩,if_true,hpm,Option.map_some],hc.good,fun b => ?_,
    hc.pagemapEnd.trans hi.pagemapEnd,hc.buddies hi.buddies⟩
  rw [hc.live]
  by_cases hone : a.pm.refcnt page = 1
  · simp [hone,mem_drop,hi.live]
  · have hne : a.pm.refcnt page - 1 ≠ 0 := by omega
    simp [hone,hne,hi.live]

lemma Inv.step {o : Op} (h : a.step o = some c) : c.Inv n := by
  cases o with
  | nalloc m =>
    by_cases hm : 1 ≤ m ∧ m ≤ 2^maxOrder
    · rcases hi.nalloc hm with ⟨he,_⟩ | ⟨d,_,_,he,_,hd,_⟩ | ⟨he,_⟩
      · exact Option.some_inj.mp (he.symm.trans h) ▸ hi
      · exact Option.some_inj.mp (he.symm.trans h) ▸ hd
      · simp [he] at h
    · simp only [Alloc.step,if_neg hm] at h
      cases h
  | nfree page m =>
    simp only [Alloc.step] at h
    split at h
    · rename_i hh
      obtain ⟨k,hk⟩ := holds_iff.mp hh
      rcases Nat.eq_zero_or_pos m with rfl | hm
      · simp [Pmem.pmemNfree] at h
      · obtain ⟨d,hd,hinv⟩ := hi.nfree hk hm
        simp only [Alloc.step,hh,if_true] at hd
        exact Option.some_inj.mp (hd.symm.trans h) ▸ hinv
    · simp at h
  | incRefcnt page m =>
    simp only [Alloc.step] at h
    split at h
    · rename_i hh
      obtain ⟨k,hk⟩ := holds_iff.mp hh
      by_cases hz : k = 0
      · obtain ⟨d,hd,hinv⟩ := hi.incRefcnt (m := m) (hz ▸ hk)
        simp only [Alloc.step,hh,if_true] at hd
        exact Option.some_inj.mp (hd.symm.trans h) ▸ hinv
      · simp [Pmem.pmemIncRefcnt,← (hi.head hk).2.2,hz] at h
    · simp at h
  | decRefcnt page =>
    simp only [Alloc.step] at h
    split at h
    · rename_i hh
      obtain ⟨k,hk⟩ := holds_iff.mp hh
      by_cases hz : k = 0
      · obtain ⟨d,hd,hinv⟩ := hi.decRefcnt (hz ▸ hk)
        simp only [Alloc.step,hh,if_true] at hd
        exact Option.some_inj.mp (hd.symm.trans h) ▸ hinv
      · simp [Pmem.pmemDecRefcnt,← (hi.head hk).2.2,hz] at h
    · simp at h

end

lemma run_inv (h : run cfg ops = some a) : a.Inv cfg.pmemEnd := by
  simp only [run,Run.bind_some] at h
  obtain ⟨c,hc,h⟩ := h
  exact Run.invariant (fun _ _ _ hi hs => hi.step hs) (init_inv hc) h

def isBlock (a : Alloc) (b : Blk) : Prop := b ∈ a.live ∨ b.1 ∈ a.pm.freeblocks b.2

structure BlocksOk (a : Alloc) : Prop where
  partition : ∀ p < a.pm.pagemapEnd, ∃! b, a.isBlock b ∧ Mem p b
  placed : ∀ b, a.isBlock b → 2^b.2 ∣ b.1 ∧ b.1 + 2^b.2 ≤ a.pm.pagemapEnd
  listed : ∀ b, a.isBlock b → (b ∉ a.live ↔ (a.pm.freeblocks b.2).count b.1 = 1) ∧
    (b ∉ a.live ↔ a.pm.refcnt b.1 = 0) ∧ a.pm.order b.1 = b.2
  once : ∀ k p, (a.pm.freeblocks k).count p ≤ 1
  disjoint : ∀ b c, a.isBlock b → a.isBlock c → b ≠ c → ∀ p, Mem p b → ¬ Mem p c

lemma Inv.blocksOk (hi : a.Inv n) : a.BlocksOk := by
  have hblk : ∀ b, a.isBlock b ↔ b ∈ a.pm.freeBlk ∪ a.pm.live := fun b => by
    rw [isBlock,hi.live,or_comm]
    rfl
  have hone : ∀ k p, (a.pm.freeblocks k).count p ≤ 1 := fun k => List.nodup_iff_count_le_one.mp (hi.good.nodup k)
  refine ⟨?_,?_,?_,hone,?_⟩
  · intro p hp
    obtain ⟨b,hb,hm⟩ := hi.good.tiling.cover p hp
    refine ⟨b,⟨(hblk b).mpr hb,hm⟩,?_⟩
    rintro c ⟨hc,hmc⟩
    exact hi.good.tiling.unique c ((hblk c).mp hc) b hb p hmc hm
  · intro b hb
    rw [hblk] at hb
    exact ⟨hi.good.tiling.aligned b hb,hi.good.tiling.inside b hb⟩
  · rintro b (hb | hb)
    · have hl := (hi.live b).mp hb
      have hout : b.1 ∉ a.pm.freeblocks b.2 := hi.good.not_free hl b.2
      simp [hb,List.count_eq_zero_of_not_mem hout,hl.2.1.ne',hl.2.2.symm]
    · have hl : b ∉ a.live := fun h => hi.good.apart b hb ((hi.live b).mp h)
      have hpg := (hi.good.free_page b hb).2
      rw [Pmem.pagemap_eq,Page.mk.injEq] at hpg
      have hpos := List.count_pos_iff.mpr hb
      have hcount : (a.pm.freeblocks b.2).count b.1 = 1 := le_antisymm (hone _ _) hpos
      simp [hl,hcount,hpg]
  · intro b c hb hc hne p hpb hpc
    exact hne (hi.good.tiling.unique b ((hblk b).mp hb) c ((hblk c).mp hc) p hpb hpc)

theorem buddy_allocator_blocks (h : run cfg ops = some a) :
    a.pm.pagemapEnd = cfg.pmemEnd ∧ a.BlocksOk ∧
    (∀ m pm page, 1 ≤ m → m ≤ 2^maxOrder → a.pm.pmemNalloc m = some (pm,some page) →
      ∃ k, m ≤ 2^k ∧ run cfg (ops ++ [.nalloc m]) = some ⟨pm,(page,k) :: a.live⟩ ∧
        BlocksOk ⟨pm,(page,k) :: a.live⟩) ∧
    (∀ m, 1 ≤ m → m ≤ 2^maxOrder → a.holds 0 → (a.step (.nalloc m)).isSome) ∧
    (∀ page k, (page,k) ∈ a.live → ∀ m, 1 ≤ m → (a.step (.nfree page m)).isSome) ∧
    (∀ page, (page,0) ∈ a.live → (a.step (.decRefcnt page)).isSome) := by
  have hi := run_inv h
  refine ⟨hi.pagemapEnd,hi.blocksOk,?_,?_,?_,?_⟩
  · intro m pm page h1 h2 hpm
    rcases hi.nalloc ⟨h1,h2⟩ with ⟨_,he⟩ | ⟨c,page',k,hc,he,hinv,hmk,hlive⟩ | ⟨_,he,_⟩
    · simp [hpm] at he
    · obtain ⟨rfl,rfl⟩ : pm = c.pm ∧ page = page' := by simpa [hpm] using he
      have hceq : c = ⟨c.pm,(page,k) :: a.live⟩ := by rw [← hlive]
      refine ⟨k,hmk,?_,hceq ▸ hinv.blocksOk⟩
      rw [run] at h ⊢
      cases hinit : init cfg with
      | none => simp [hinit] at h
      | some b =>
        simp only [hinit,Option.bind_eq_bind,Option.bind_some,List.foldlM_append,List.foldlM_cons,
          List.foldlM_nil] at h ⊢
        rw [h,Option.bind_some,hc,Option.bind_some,← hceq]
        rfl
    · simp [hpm] at he
  · intro m h1 h2 h0
    obtain ⟨k,hk⟩ := holds_iff.mp h0
    have hpos := (hi.head hk).2.1
    rcases hi.nalloc ⟨h1,h2⟩ with ⟨he,_⟩ | ⟨_,_,_,he,_⟩ | ⟨_,_,hz⟩
    · simp [he]
    · simp [he]
    · omega
  · intro page k hk m hm
    obtain ⟨c,hc,_⟩ := hi.nfree hk hm
    simp [hc]
  · intro page hk
    obtain ⟨c,hc,_⟩ := hi.decRefcnt hk
    simp [hc]

def smallConfig : Config := ⟨1,17,fun _ => false,[.nalloc 2,.nfree 2 2],136⟩

theorem buddy_allocator_blocks_small : ∃ a, run smallConfig [.nalloc 3,.nalloc 1,.nfree 4 3] = some a ∧
    a.pm.pagemapEnd = 17 ∧ a.BlocksOk := by
  obtain ⟨a,ha⟩ := Option.isSome_iff_exists.mp
    (show (run smallConfig [.nalloc 3,.nalloc 1,.nfree 4 3]).isSome = true by decide +kernel)
  obtain ⟨hend,hok,_⟩ := buddy_allocator_blocks ha
  exact ⟨a,ha,hend,hok⟩

theorem free_lists_canonical {i : Alloc} (hinit : init cfg = some i)
    (ha : run cfg ops = some a) :
    (∀ k < maxOrder, ∀ p ∈ a.pm.freeblocks k, buddyHead p k ∉ a.pm.freeblocks k) ∧
    (∀ ops' c, run cfg ops' = some c → (∀ b, b ∈ a.live ↔ b ∈ c.live) →
      ∀ k p, p ∈ a.pm.freeblocks k ↔ p ∈ c.pm.freeblocks k) ∧
    ((∀ b, b ∈ a.live ↔ b ∈ i.live) → ∀ k p, p ∈ a.pm.freeblocks k ↔ p ∈ i.pm.freeblocks k) := by
  have hi := run_inv ha
  have same : ∀ c : Alloc, c.Inv cfg.pmemEnd → (∀ b, b ∈ a.live ↔ b ∈ c.live) →
      ∀ k p, p ∈ a.pm.freeblocks k ↔ p ∈ c.pm.freeblocks k := by
    intro c hc hlive k p
    have hset : c.pm.live = a.pm.live := Set.ext fun b => by rw [← hc.live,← hlive,hi.live]
    have htil : Tiling cfg.pmemEnd (a.pm.freeBlk ∪ a.pm.live) := hi.pagemapEnd ▸ hi.good.tiling
    have hctil : Tiling cfg.pmemEnd (c.pm.freeBlk ∪ a.pm.live) := hset ▸ hc.pagemapEnd ▸ hc.good.tiling
    have hcap : ∀ b ∈ c.pm.freeBlk, b ∉ a.pm.live := hset ▸ hc.good.apart
    have heq := htil.canonical hctil hi.good.apart hcap (fun b hb => (hi.good.free_page b hb).1)
      (fun b hb => (hc.good.free_page b hb).1) hi.buddies hc.buddies
    exact Set.ext_iff.mp heq (p,k)
  exact ⟨fun k hk p hp => hi.buddies (p,k) hp hk,fun ops' c hc => same c (run_inv hc),
    same i (init_inv hinit)⟩

theorem free_lists_canonical_small : ∃ i a, init smallConfig = some i ∧
    run smallConfig [.nalloc 3,.nalloc 1,.nfree 4 3,.nfree 1 1] = some a ∧ a.live = i.live ∧
    ∀ k p, p ∈ a.pm.freeblocks k ↔ p ∈ i.pm.freeblocks k := by
  obtain ⟨i,hi⟩ := Option.isSome_iff_exists.mp (show (init smallConfig).isSome = true by decide +kernel)
  obtain ⟨a,ha⟩ := Option.isSome_iff_exists.mp
    (show (run smallConfig [.nalloc 3,.nalloc 1,.nfree 4 3,.nfree 1 1]).isSome = true by decide +kernel)
  have hlive : a.live = i.live := by
    have h : (run smallConfig [.nalloc 3,.nalloc 1,.nfree 4 3,.nfree 1 1]).map Alloc.live =
      (init smallConfig).map Alloc.live := by decide +kernel
    simpa [hi,ha] using h
  exact ⟨i,a,hi,ha,hlive,(free_lists_canonical hi ha).2.2 fun b => by rw [hlive]⟩

end Alloc
end MappedMemory
