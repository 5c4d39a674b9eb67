import MappedMemory.Pmem.Blocks

namespace MappedMemory

open Dyadic

namespace Pmem

def blkPages (b : Blk) : Set Nat := {x | Mem x b}

def freePages (s : Pmem) : Set Nat := {x | ∃ b ∈ s.freeBlk, Mem x b}

def FirstBlock (s : Pmem) (k p : Nat) : Prop :=
  ∃ j, k ≤ j ∧ j ≤ maxOrder ∧ (∀ i, k ≤ i → i < j → s.freeblocks i = []) ∧ (s.freeblocks j).head? = some p

structure Serves (s : Pmem) (n : Nat) : Prop where
  granted : (∃ k ≤ maxOrder, n ≤ 2^k ∧ s.freeblocks k ≠ []) → ∃ t p, s.pmemNalloc n = some (t,some p) ∧
    n ≤ 2^t.order p ∧ blkPages (p,t.order p) ⊆ s.freePages ∧ t.freePages = s.freePages \ blkPages (p,t.order p)
  refused : (∀ k ≤ maxOrder, n ≤ 2^k → s.freeblocks k = []) → s.pmemNalloc n = some (s,none)

variable {s t : Pmem} {p q n k left : Nat} {split : Bool}

lemma FirstBlock.unique (hp : s.FirstBlock k p) (hq : s.FirstBlock k q) : p = q := by
  obtain ⟨i,hi,-,hbelow,hp⟩ := hp
  obtain ⟨j,hj,-,hbelow',hq⟩ := hq
  rcases lt_trichotomy i j with h | rfl | h
  · simp [hbelow' i hi h] at hp
  · exact Option.some.inj (hp.symm.trans hq)
  · simp [hbelow j hj h] at hq

lemma split_page {page : Option Nat} (h : (match page with
    | none => some (s,none)
    | some q => if split then (s.splitBlock q k).map (fun u => (u,some q)) else some (s,some q)) = some (t,some p)) :
    page = some p := by
  cases page with
  | none => simp at h
  | some q =>
    cases split with
    | false => exact (Prod.ext_iff.mp (Option.some.inj h)).2
    | true =>
      obtain ⟨v,-,hv⟩ := Option.map_eq_some_iff.mp h
      exact (Prod.ext_iff.mp hv).2

lemma findFreeblockFrom_first (hl : left ≤ maxOrder + 1) (h : findFreeblockFrom left s split = some (t,some p)) :
    s.FirstBlock (maxOrder + 1 - left) p := by
  induction left generalizing split t with
  | zero => simp [findFreeblockFrom] at h
  | succ left ih =>
    have hord : maxOrder + 1 - (left + 1) = maxOrder - left := by omega
    rw [hord]
    cases hfb : s.freeblocks (maxOrder - left) with
    | cons q qs =>
      simp only [findFreeblockFrom,hfb,Run.bind_some] at h
      obtain ⟨⟨u,page⟩,hu,h⟩ := h
      obtain ⟨v,-,hv⟩ := Option.map_eq_some_iff.mp hu
      have hq : some q = some p := (Prod.ext_iff.mp hv).2.trans (split_page h)
      exact ⟨_,le_rfl,by omega,fun i h1 h2 => by omega,by rw [hfb]; exact hq⟩
    | nil =>
      simp only [findFreeblockFrom,hfb,Run.bind_some] at h
      obtain ⟨⟨u,page⟩,hu,h⟩ := h
      obtain rfl := split_page h
      obtain ⟨j,hj,hm,hbelow,hhead⟩ := ih (by omega) hu
      refine ⟨j,by omega,hm,fun i h1 h2 => ?_,hhead⟩
      rcases Nat.eq_or_lt_of_le h1 with he | hlt
      · exact he ▸ hfb
      · exact hbelow i (by omega) h2

lemma pmemNalloc_first (h : s.pmemNalloc n = some (t,some p)) :
    ∃ k, getMinPageOrder n = some k ∧ s.FirstBlock k p ∧ p ≠ 0 := by
  simp only [pmemNalloc] at h
  split at h
  · obtain ⟨k,hk,h⟩ := Run.bind_some.mp h
    obtain ⟨⟨u,page⟩,hu,h⟩ := Run.bind_some.mp h
    have hkm : k ≤ maxOrder := by
      have := List.mem_of_find?_eq_some hk
      simpa [Nat.lt_succ_iff] using this
    rw [findFreeblock,if_neg (Nat.not_lt.mpr hkm)] at hu
    cases page with
    | none => simp at h
    | some q =>
      simp only [Option.ite_none_right_eq_some,Option.some_inj,Prod.mk_inj] at h
      obtain ⟨⟨-,hq⟩,-,rfl⟩ := h
      have hfirst := findFreeblockFrom_first (by omega) hu
      rw [show maxOrder + 1 - (maxOrder + 1 - k) = k by omega] at hfirst
      exact ⟨k,hk,hfirst,hq⟩
  · cases h

lemma pmemNalloc_null (hg : s.Good) (hn : 0 < n) (hmax : n ≤ 2^maxOrder) (h : s.pmemNalloc n = none) :
    ∃ k, getMinPageOrder n = some k ∧ s.FirstBlock k 0 := by
  obtain ⟨k,hk,hkm,-,-⟩ := getMinPageOrder_spec hmax
  have hfind : s.findFreeblock k false = findFreeblockFrom (maxOrder + 1 - k) s false := if_neg (Nat.not_lt.mpr hkm)
  refine ⟨k,hk,?_⟩
  rcases findFreeblockFrom_spec hg (maxOrder + 1 - k) false (by omega) (by simp) with ⟨hnone,-⟩ | ⟨t,p,ht,htaken⟩
  · simp [pmemNalloc,hn,hk,hfind,hnone] at h
  · have hz : t.refcnt p = 0 := (htaken.refcnt p).trans htaken.zero
    have hp : p = 0 := by
      by_contra hp
      simp [pmemNalloc,hn,hk,hfind,ht,hz,hp] at h
    have hfirst := findFreeblockFrom_first (by omega) ht
    rwa [show maxOrder + 1 - (maxOrder + 1 - k) = k by omega,hp] at hfirst

lemma Good.mem_freePages (hg : s.Good) (x : Nat) : x ∈ s.freePages ↔ x < s.pagemapEnd ∧ ∀ b ∈ s.live, ¬Mem x b := by
  constructor
  · rintro ⟨b,hb,hx⟩
    refine ⟨hg.tiling.lt_of_mem (.inl hb) hx,fun c hc hxc => ?_⟩
    exact hg.apart b hb (hg.tiling.unique b (.inl hb) c (.inr hc) x hx hxc ▸ hc)
  · rintro ⟨hx,hno⟩
    obtain ⟨b,hb | hb,hm⟩ := hg.tiling.cover x hx
    · exact ⟨b,hb,hm⟩
    · exact absurd hm (hno b hb)

lemma Allocated.freePages (hg : s.Good) (h : Allocated s t p k) : t.freePages = s.freePages \ blkPages (p,k) := by
  ext x
  rw [Set.mem_sdiff,hg.mem_freePages,h.good.mem_freePages,h.pagemapEnd,h.live]
  simp only [Set.mem_insert_iff,forall_eq_or_imp]
  exact ⟨fun ⟨h1,h2,h3⟩ => ⟨⟨h1,h3⟩,h2⟩,fun ⟨⟨h1,h3⟩,h2⟩ => ⟨h1,h2,h3⟩⟩

lemma Allocated.block_free (hg : s.Good) (h : Allocated s t p k) : blkPages (p,k) ⊆ s.freePages := by
  intro x hx
  have htop : (p,k) ∈ t.live := h.live ▸ Set.mem_insert _ _
  have hnew : (p,k) ∉ s.live := fun hl => absurd hl.2.1 (by simp [h.zero])
  rw [hg.mem_freePages,← h.pagemapEnd]
  refine ⟨h.good.tiling.lt_of_mem (.inr htop) hx,fun b hb hxb => hnew ?_⟩
  have hb' : b ∈ t.live := h.live ▸ Set.mem_insert_of_mem _ hb
  exact h.good.tiling.unique b (.inr hb') _ (.inr htop) x hxb hx ▸ hb

theorem pmem_nalloc_serves_iff (hg : s.Good) (hn : 0 < n) :
    s.Serves n ↔ n ≤ 2^maxOrder ∧ ∀ k, getMinPageOrder n = some k → ¬s.FirstBlock k 0 := by
  constructor
  · intro h
    have hmax : n ≤ 2^maxOrder := by
      by_contra hlt
      have hbig : ∀ k ≤ maxOrder, 2^k < n := fun k hk =>
        (Nat.pow_le_pow_right two_pos hk).trans_lt (Nat.not_le.mp hlt)
      have hnone : getMinPageOrder n = none := by
        rw [getMinPageOrder,List.find?_eq_none]
        intro k hk
        simpa using hbig k (by simpa [Nat.lt_succ_iff] using hk)
      have hr := h.refused fun k hk hle => absurd hle (Nat.not_le.mpr (hbig k hk))
      simp [pmemNalloc,hnone] at hr
    refine ⟨hmax,fun k hk hz => ?_⟩
    obtain ⟨k',hk',-,hle,-⟩ := getMinPageOrder_spec hmax
    cases hk.symm.trans hk'
    have hz' := hz
    obtain ⟨j,hj,hjm,-,hhead⟩ := hz
    obtain ⟨t,p,hp,-⟩ := h.granted ⟨j,hjm,hle.trans (Nat.pow_le_pow_right two_pos hj),fun hnil => by simp [hnil] at hhead⟩
    obtain ⟨k',hk',hfirst,hne⟩ := pmemNalloc_first hp
    cases hk.symm.trans hk'
    exact hne (hfirst.unique hz')
  · rintro ⟨hmax,hzero⟩
    obtain ⟨k,hk,hle,hmin,h⟩ := pmemNalloc_spec hg hn hmax
    have hkm : ∀ j ≤ maxOrder, n ≤ 2^j → k ≤ j := fun j _ hj => by
      by_contra hlt
      exact absurd (hmin j (by omega)) (Nat.not_lt.mpr hj)
    rcases h with ⟨hnone,hempty⟩ | ⟨t,p,ht,ha⟩ | ⟨hnone,-⟩
    · refine ⟨?_,fun _ => hnone⟩
      rintro ⟨j,hj,hnj,hne⟩
      exact absurd (hempty j (hkm j hj hnj) hj) hne
    · refine ⟨fun _ => ⟨t,p,ht,ha.order ▸ hle,ha.order ▸ ha.block_free hg,ha.order ▸ ha.freePages hg⟩,fun hall => ?_⟩
      obtain ⟨k',hk',⟨j,hj,hjm,-,hhead⟩,-⟩ := pmemNalloc_first ht
      cases hk.symm.trans hk'
      simp [hall j hjm (hle.trans (Nat.pow_le_pow_right two_pos hj))] at hhead
    · obtain ⟨k',hk',hz⟩ := pmemNalloc_null hg hn hmax hnone
      exact absurd hz (hzero k' hk')

theorem pmem_nalloc_serves_small : ∃ a, Alloc.init Alloc.smallConfig = some a ∧ a.pm.Serves 3 := by
  obtain ⟨a,ha⟩ := Option.isSome_iff_exists.mp (show (Alloc.init Alloc.smallConfig).isSome = true by decide +kernel)
  have hfree : ∀ j ≤ maxOrder, 0 ∉ a.pm.freeblocks j := by
    have h : (Alloc.init Alloc.smallConfig).map (fun a => (List.range 11).all fun j => !(a.pm.freeblocks j).contains 0) =
      some true := by decide +kernel
    simpa [ha,maxOrder,Nat.lt_succ_iff] using h
  refine ⟨a,ha,(pmem_nalloc_serves_iff (Alloc.init_inv ha).good (by decide)).mpr ⟨by decide,fun k _ hz => ?_⟩⟩
  obtain ⟨j,-,hj,-,hhead⟩ := hz
  exact hfree j hj (List.mem_of_mem_head? hhead)

theorem pmem_nalloc_panics : ∃ a, Alloc.init Alloc.smallConfig = some a ∧ a.pm.Good ∧ a.pm.pmemNalloc 1025 = none := by
  obtain ⟨a,ha⟩ := Option.isSome_iff_exists.mp (show (Alloc.init Alloc.smallConfig).isSome = true by decide +kernel)
  exact ⟨a,ha,(Alloc.init_inv ha).good,by simp [Pmem.pmemNalloc,show getMinPageOrder 1025 = none by decide]⟩

end Pmem
end MappedMemory
