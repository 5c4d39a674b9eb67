import MappedMemory.Vm.RegionList

namespace MappedMemory

inductive ExtendErr where
  | ok | vmBound
deriving DecidableEq, Repr

namespace Addrspace

def setStop (as : Addrspace) (id stop : Nat) : Addrspace :=
  { as with regions := as.regions.map fun r => if r.id = id then { r with stop := stop } else r }

def memregionExtend (as : Addrspace) (region : Memregion) (size : Int) : Addrspace × ExtendErr × Option Nat :=
  if size = 0 then (as,.ok,some region.stop)
  else if size > 0 then
    let mr := as.asFindMemregion region.stop size.toNat
    if mr.any (·.id ≠ region.id) then (as,.vmBound,none)
    else (as.setStop region.id (u64 (region.stop + size.toNat)),.ok,some region.stop)
  else
    let bytes := int32 (region.stop - region.start)
    if bytes ≥ int32 (-size) then (as.setStop region.id (sizeT (region.stop + size)),.ok,some region.stop)
    else (as,.ok,some region.stop)

def Meets (as : Addrspace) (r : Memregion) (size : Int) : Prop :=
  ∃ q ∈ as.regions, q.id ≠ r.id ∧ ∃ a, r.stop ≤ a ∧ a < pgCeil (r.stop + size.toNat) ∧ q.covers a

structure Extended (as : Addrspace) (r : Memregion) (size : Int) (out : Addrspace × ExtendErr × Option Nat) : Prop where
  blocked : 0 < size → as.Meets r size → out.1 = as ∧ out.2.1 = .vmBound
  short : size < 0 → (r.stop : Int) - r.start < -size → out.1 = as ∧ out.2.1 = .ok
  moved : ¬(0 < size ∧ as.Meets r size) → ¬(size < 0 ∧ (r.stop : Int) - r.start < -size) →
    out.2.1 = .ok ∧ out.1 = as.setStop r.id (r.stop + size).toNat
  old : out.2.1 = .ok → out.2.2 = some r.stop
  inv : RegionListInv out.1.regions

def Contained (as : Addrspace) (r : Memregion) (size : Int) : Prop :=
  ∃ q, as.regions.find? (fun q => decide (r.stop ≥ q.start) &&
    decide (u64 (r.stop + size.toNat) ≤ pgRoundUp q.stop)) = some q ∧ q.id ≠ r.id

structure Careful (as : Addrspace) (r : Memregion) (size : Int) : Prop where
  met : 0 < size → as.Meets r size → as.Contained r size
  fits : 0 < size → ¬as.Meets r size → r.stop + size < 2^64
  whole : size < 0 → (int32 (-size) ≤ int32 (r.stop - r.start) ↔ -size ≤ r.stop - r.start)

variable {as : Addrspace} {r q : Memregion} {size : Int} {stop : Nat}

section
variable (hid : (as.regions.map Memregion.id).Nodup)
include hid

lemma region_of_id (hr : r ∈ as.regions) (hq : q ∈ as.regions)
    (h : q.id = r.id) : q = r := List.inj_on_of_nodup_map hid hq hr h

lemma mem_setStop (hr : r ∈ as.regions) :
    q ∈ (as.setStop r.id stop).regions ↔ q = { r with stop := stop } ∨ q ∈ as.regions ∧ q.id ≠ r.id := by
  rw [setStop,List.mem_map]
  constructor
  · rintro ⟨p,hp,rfl⟩
    by_cases he : p.id = r.id
    · rw [if_pos he,region_of_id hid hr hp he]
      exact .inl rfl
    · rw [if_neg he]
      exact .inr ⟨hp,he⟩
  · rintro (rfl | ⟨hq,hne⟩)
    · exact ⟨r,hr,if_pos rfl⟩
    · exact ⟨q,hq,if_neg hne⟩

lemma setStop_self (hr : r ∈ as.regions) : as.setStop r.id r.stop = as := by
  have hmap : as.regions.map (fun q => if q.id = r.id then { q with stop := r.stop } else q) = as.regions := by
    refine (List.map_congr_left fun q hq => ?_).trans (List.map_id as.regions)
    by_cases he : q.id = r.id
    · rw [if_pos he,region_of_id hid hr hq he]
      rfl
    · exact if_neg he
  rw [setStop,hmap]

lemma stop_of_setStop (hr : r ∈ as.regions) {stop' : Nat}
    (h : as.setStop r.id stop = as.setStop r.id stop') : stop = stop' := by
  have hmem : { r with stop := stop } ∈ (as.setStop r.id stop').regions := h ▸ (mem_setStop hid hr).mpr (.inl rfl)
  rcases (mem_setStop hid hr).mp hmem with he | ⟨-,hne⟩
  · exact congrArg Memregion.stop he
  · exact absurd rfl hne

end

lemma regionListInv_setStop (hinv : RegionListInv as.regions) (hid : (as.regions.map Memregion.id).Nodup)
    (hr : r ∈ as.regions) (hle : r.start ≤ stop)
    (hfree : ∀ q ∈ as.regions, q.id ≠ r.id → ∀ a, r.stop ≤ a → a < pgCeil stop → ¬q.covers a) :
    RegionListInv (as.setStop r.id stop).regions := by
  have hstart : ∀ q : Memregion, (if q.id = r.id then { q with stop := stop } else q).start = q.start := by
    intro q
    split <;> rfl
  have hcovers : ∀ p ∈ as.regions, ∀ q ∈ as.regions, (∀ a, ¬(p.covers a ∧ q.covers a)) → p.id ≠ q.id → p.id = r.id →
      ∀ a, ¬({ p with stop := stop : Memregion }.covers a ∧ q.covers a) := by
    rintro p hp q hq hdis hne he a ⟨hpa,hqa⟩
    obtain rfl := region_of_id hid hr hp he
    by_cases ha : p.stop ≤ a
    · exact hfree q hq hne.symm a ha hpa.2 hqa
    · exact hdis a ⟨⟨hpa.1,(Nat.not_le.mp ha).trans_le (le_pgCeil _)⟩,hqa⟩
  have hids : as.regions.Pairwise fun p q => p.id ≠ q.id := List.pairwise_map.mp hid
  refine ⟨?_,?_,?_,?_⟩
  · refine List.pairwise_map.mpr (hinv.sorted.imp fun {p q} h => ?_)
    rw [hstart,hstart]
    exact h
  · intro q hq
    obtain ⟨p,hp,rfl⟩ := List.mem_map.mp hq
    rw [hstart]
    exact hinv.aligned p hp
  · intro q hq
    rcases (mem_setStop hid hr).mp hq with rfl | ⟨hq,-⟩
    · exact hle
    · exact hinv.bounded q hq
  · refine List.pairwise_map.mpr ((hinv.disjoint.and hids).imp_of_mem fun {p q} hp hq h => ?_)
    by_cases hpr : p.id = r.id
    · have hqr : q.id ≠ r.id := fun he => h.2 (hpr.trans he.symm)
      rw [if_pos hpr,if_neg hqr]
      exact hcovers p hp q hq h.1 h.2 hpr
    · rw [if_neg hpr]
      by_cases hqr : q.id = r.id
      · rw [if_pos hqr]
        intro a ha
        exact hcovers q hq p hp (fun a hqp => h.1 a ⟨hqp.2,hqp.1⟩) h.2.symm hqr a ⟨ha.2,ha.1⟩
      · rw [if_neg hqr]
        exact h.1

lemma extend_find_iff : (as.asFindMemregion r.stop size.toNat).any (·.id ≠ r.id) = true ↔ as.Contained r size := by
  rw [asFindMemregion,Option.any_eq_true]
  simp only [ne_eq,decide_eq_true_eq]
  rfl

lemma pgRoundUp_le_pgCeil (a : Nat) : pgRoundUp a ≤ pgCeil a := by
  simp only [pgRoundUp,pgRoundDown,pgSize,u64,pgCeil]
  omega

lemma Contained.meets (h : as.Contained r size) (hpos : 0 < size) (hfits : r.stop + size < 2^64) :
    as.Meets r size := by
  obtain ⟨q,hq,hne⟩ := h
  have hmem := List.mem_of_find?_eq_some hq
  have hreach := List.find?_some hq
  simp only [ge_iff_le,Bool.and_eq_true,decide_eq_true_eq] at hreach
  have hle := hreach.2.trans (pgRoundUp_le_pgCeil q.stop)
  rw [u64_of_lt (by omega)] at hle
  have hceil := le_pgCeil (r.stop + size.toNat)
  exact ⟨q,hmem,hne,r.stop,le_rfl,by omega,hreach.1,by omega⟩

lemma extend_pos (hpos : 0 < size) (hinv : RegionListInv as.regions) (hid : (as.regions.map Memregion.id).Nodup)
    (hr : r ∈ as.regions) : Extended as r size (as.memregionExtend r size) ↔
      (as.Meets r size → as.Contained r size) ∧ (¬as.Meets r size → r.stop + size < 2^64) := by
  have hout : as.memregionExtend r size =
      if (as.asFindMemregion r.stop size.toNat).any (·.id ≠ r.id) = true then (as,.vmBound,none)
      else (as.setStop r.id (u64 (r.stop + size.toNat)),.ok,some r.stop) := by
    rw [memregionExtend,if_neg hpos.ne',if_pos hpos]
  rw [hout]
  have hnat : (r.stop + size).toNat = r.stop + size.toNat := by omega
  by_cases hc : as.Contained r size
  · rw [if_pos (extend_find_iff.mpr hc)]
    constructor
    · intro h
      refine ⟨fun _ => hc,fun hm => ?_⟩
      have := (h.moved (fun hb => hm hb.2) (by omega)).1
      exact nomatch this
    · rintro ⟨-,hfits⟩
      have hm : as.Meets r size := by
        by_contra hm
        exact hm (hc.meets hpos (hfits hm))
      exact ⟨fun _ _ => ⟨rfl,rfl⟩,fun hneg => by omega,fun hb => absurd ⟨hpos,hm⟩ hb,nofun,hinv⟩
  · rw [if_neg fun hf => hc (extend_find_iff.mp hf)]
    constructor
    · intro h
      refine ⟨fun hm => (nomatch (h.blocked hpos hm).2),fun hm => ?_⟩
      have hstop := (h.moved (fun hb => hm hb.2) (by omega)).2
      have := stop_of_setStop hid hr hstop
      have := u64_lt (r.stop + size.toNat)
      omega
    · rintro ⟨hmet,hfits⟩
      have hm : ¬as.Meets r size := fun hm => hc (hmet hm)
      have hword := u64_of_lt (x := r.stop + size.toNat) (by have := hfits hm; omega)
      rw [hword]
      refine ⟨fun _ hm' => absurd hm' hm,fun hneg => by omega,fun _ _ => ⟨rfl,by rw [hnat]⟩,fun _ => rfl,?_⟩
      have hle := hinv.bounded r hr
      refine regionListInv_setStop hinv hid hr (by omega) fun q hq hne a ha hlt hqa => hm ?_
      exact ⟨q,hq,hne,a,ha,hlt,hqa⟩

lemma extend_neg (hneg : size < 0) (hmin : -2^31 ≤ size) (hinv : RegionListInv as.regions)
    (hid : (as.regions.map Memregion.id).Nodup) (hr : r ∈ as.regions) (hword : r.stop < 2^64) :
    Extended as r size (as.memregionExtend r size) ↔
      (int32 (-size) ≤ int32 (r.stop - r.start) ↔ -size ≤ r.stop - r.start) := by
  have hle := hinv.bounded r hr
  have hout : as.memregionExtend r size =
      if int32 (-size) ≤ int32 (r.stop - r.start) then (as.setStop r.id (sizeT (r.stop + size)),.ok,some r.stop)
      else (as,.ok,some r.stop) := by
    rw [memregionExtend,if_neg hneg.ne,if_neg (by omega)]
  rw [hout]
  have hself := setStop_self hid hr
  by_cases hb : int32 (-size) ≤ int32 (r.stop - r.start)
  · rw [if_pos hb]
    constructor
    · refine fun h => ⟨fun _ => ?_,fun _ => hb⟩
      by_contra hlt
      have hsame := (h.short hneg (by omega)).1
      have hstop := stop_of_setStop hid hr (hsame.trans hself.symm)
      simp only [sizeT] at hstop
      omega
    · intro h
      have hd := h.mp hb
      have hsize : sizeT (r.stop + size) = (r.stop + size).toNat := by
        simp only [sizeT]
        omega
      rw [hsize]
      refine ⟨fun hpos => by omega,fun _ hlt => by omega,fun _ _ => ⟨rfl,rfl⟩,fun _ => rfl,?_⟩
      refine regionListInv_setStop hinv hid hr (by omega) fun q hq hne a ha hlt hqa => ?_
      have hceil : pgCeil (r.stop + size).toNat ≤ pgCeil r.stop := by
        unfold pgCeil
        omega
      have hdis := hinv.disjoint
      have : Std.Symm (fun x y : Memregion => ∀ a, ¬ (x.covers a ∧ y.covers a)) :=
        ⟨fun x y hxy a hyx => hxy a ⟨hyx.2,hyx.1⟩⟩
      exact hdis.forall hr hq (fun he => hne (he ▸ rfl)) a ⟨⟨by omega,by omega⟩,hqa⟩
  · rw [if_neg hb]
    constructor
    · refine fun h => ⟨fun hb' => absurd hb' hb,fun hd => ?_⟩
      have hsame := (h.moved (by omega) (by omega)).2
      have hstop := stop_of_setStop hid hr (hself.trans hsame)
      omega
    · intro h
      have hd : ¬-size ≤ (r.stop : Int) - r.start := fun hd => hb (h.mpr hd)
      exact ⟨fun hpos => by omega,fun _ _ => ⟨rfl,rfl⟩,fun _ hs => absurd ⟨hneg,by omega⟩ hs,fun _ => rfl,hinv⟩

theorem memregion_extend_iff (hinv : RegionListInv as.regions) (hid : (as.regions.map Memregion.id).Nodup)
    (hword : ∀ q ∈ as.regions, q.stop < 2^64) (hr : r ∈ as.regions) (hmin : -2^31 ≤ size) :
    Extended as r size (as.memregionExtend r size) ↔ as.Careful r size := by
  rcases lt_trichotomy size 0 with hneg | rfl | hpos
  · rw [extend_neg hneg hmin hinv hid hr (hword r hr)]
    exact ⟨fun h => ⟨by omega,by omega,fun _ => h⟩,fun h => h.whole hneg⟩
  · have hself := setStop_self hid hr
    refine ⟨fun _ => ⟨by omega,by omega,by omega⟩,fun _ => ?_⟩
    rw [memregionExtend,if_pos rfl]
    exact ⟨by omega,by omega,fun _ _ => ⟨rfl,by simpa using hself.symm⟩,fun _ => rfl,hinv⟩
  · rw [extend_pos hpos hinv hid hr]
    exact ⟨fun h => ⟨fun _ => h.1,fun _ => h.2,by omega⟩,fun h => ⟨h.met hpos,h.fits hpos⟩⟩

def heapRegion : Memregion := ⟨0,0x1000,0x2000,.urw,false,none,0⟩

def nextRegion : Memregion := ⟨1,0x3000,0x4000,.urw,true,none,0⟩

def heapSpace : Addrspace := ⟨false,[heapRegion,nextRegion],some 0⟩

lemma heapSpace_inv : RegionListInv heapSpace.regions := by
  refine Ordered.regionListInv ⟨by decide,fun q hq => ?_⟩
  rcases List.mem_pair.mp hq with rfl | rfl <;> exact ⟨by decide,by decide,by decide⟩

theorem memregion_extend_iff_heap :
    Extended heapSpace heapRegion 0x1000 (heapSpace.memregionExtend heapRegion 0x1000) ↔
      heapSpace.Careful heapRegion 0x1000 :=
  memregion_extend_iff heapSpace_inv (by decide) (by decide) (by decide) (by decide)

def hugeRegion : Memregion := ⟨0,0,2^32,.urw,false,none,0⟩

theorem extend_over_region :
    heapSpace.Meets heapRegion 0x3000 ∧ (heapSpace.memregionExtend heapRegion 0x3000).2.1 = .ok ∧
    ¬RegionListInv (heapSpace.memregionExtend heapRegion 0x3000).1.regions ∧
    (Addrspace.mk false [hugeRegion] (some 0)).memregionExtend hugeRegion (-4096) =
      (Addrspace.mk false [hugeRegion] (some 0),.ok,some (2^32)) := by
  refine ⟨⟨nextRegion,by decide,by decide,0x3000,by decide,by decide,by decide⟩,by decide,fun h => ?_,by decide⟩
  have hdis := h.disjoint
  rw [show (heapSpace.memregionExtend heapRegion 0x3000).1.regions = [{ heapRegion with stop := 0x5000 },nextRegion] by
    decide] at hdis
  exact (List.pairwise_pair.mp hdis) 0x3000 ⟨by decide,by decide⟩

end Addrspace
end MappedMemory
