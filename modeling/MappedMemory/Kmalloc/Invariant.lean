import MappedMemory.Library.Chain
import MappedMemory.Kmalloc.Slab

namespace MappedMemory.Kmalloc

open Function (update update_apply update_of_ne update_self)
open Option (bind_eq_bind bind_some)

structure Laws (s : Cache) : Prop where
  disjoint : s.live.Pairwise fun o p => o.addr + s.objSize ≤ p.addr ∨ p.addr + s.objSize ≤ o.addr
  inside : ∀ o ∈ s.live, ∃ t, s.slabs o.slab = some t ∧
    o.slab + sizeofSlab + sizeofInt * nObjs s.objSize ≤ o.addr ∧ o.addr + s.objSize ≤ o.slab + t.nPages * pgSize
  chain : ∀ a t, s.slabs a = some t → ∃ l, Chain t.freeArr t.free l ∧ l.Nodup ∧
    (∀ i, i ∈ l ↔ i < nObjs s.objSize ∧ ∀ o ∈ s.live, o.slab = a → o.slot ≠ i) ∧
    (a ∈ s.full ↔ l = []) ∧ (a ∈ s.free ↔ l ≠ [])
  slot : ∀ o ∈ s.live, s.pageSlab (o.addr / pgSize) = some o.slab ∧
    ∃ t, s.slabs o.slab = some t ∧ slotOf s t o.addr = o.slot

structure Fits (size : Nat) : Prop where
  pos : 0 < size
  room : sizeofSlab + (sizeofInt + size) * nObjs size ≤ nPages size * pgSize
  some : 0 < nObjs size
  few : nObjs size < 2^31

lemma linkPages_eq (m : Nat → Option Nat) (a n p : Nat) :
    linkPages m a n p = if a / pgSize ≤ p ∧ p < a / pgSize + n then some a else m p := by
  induction n with
  | zero => simp [linkPages]
  | succ n ih =>
    have hlast : linkPages m a (n + 1) = update (linkPages m a n) (a / pgSize + n) (some a) := by
      simp [linkPages,List.range_succ]
    rw [hlast,update_apply,ih]
    split_ifs <;> first | rfl | omega

lemma initFree_link (n j : Nat) (hj : j + 1 < n) : initFree n j = (j + 1 : Nat) := by
  have hloop : ∀ k, j < k → (List.range k).foldl (fun m (i : Nat) => update m i (i + 1 : Int)) (fun _ => 0) j =
      (j + 1 : Int) := by
    intro k
    induction k with
    | zero => omega
    | succ k ih =>
      intro hk
      rw [List.range_succ,List.foldl_append]
      by_cases he : j = k
      · simp [he]
      · simpa [update_of_ne he] using ih (by omega)
  rw [initFree,update_of_ne (by omega),hloop (n - 1) (by omega)]
  rfl

lemma initFree_last (n : Nat) : initFree n (n - 1) = -1 := update_self _ _ _

lemma initFree_chain {n : Nat} (hn : 0 < n) : Chain (initFree n) 0 (List.range n) := by
  obtain ⟨n,rfl⟩ : ∃ k, n = k + 1 := ⟨n - 1,by omega⟩
  have hchain : Chain (initFree (n + 1)) (0 : Nat) (List.range' 0 (n + 1)) :=
    Chain.of_succ (fun j _ hj => initFree_link _ j (by omega)) (by simpa using initFree_last (n + 1))
  rwa [← List.range_eq_range'] at hchain

lemma nPages_mul (size : Nat) : nPages size * pgSize =
    pgRoundUp (u64 (sizeofSlab + u64 (u64 (size + sizeofInt) * minObjsPerSlab))) := by
  have haligned := pgRoundUp_aligned (u64 (sizeofSlab + u64 (u64 (size + sizeofInt) * minObjsPerSlab)))
  simp only [pgAligned,beq_iff_eq] at haligned
  exact Nat.div_mul_cancel (Nat.dvd_of_mod_eq_zero haligned)

lemma pgRoundUp_lt (a : Nat) : pgRoundUp a < 2^64 :=
  (Nat.div_mul_le_self _ _).trans_lt (u64_lt _)

lemma fits_of_checks {size : Nat} (hpos : 0 < size) (hsize : size + sizeofInt ≤ 2^64) (hpages : nPages size ≠ 0)
    (hunit : u64 (size + sizeofInt) ≠ 0) (hmin : minObjsPerSlab ≤ nObjs size) : Fits size := by
  have hk : u64 (size + sizeofInt) = size + sizeofInt := by
    refine u64_of_lt (lt_of_le_of_ne hsize fun he => hunit ?_)
    simp [he,u64]
  have hmul := nPages_mul size
  have htop : nPages size * pgSize < 2^64 := hmul ▸ pgRoundUp_lt _
  have hone : pgSize ≤ nPages size * pgSize := Nat.le_mul_of_pos_left _ (Nat.pos_of_ne_zero hpages)
  have hobjs : nObjs size = (nPages size * pgSize - sizeofSlab) / (size + sizeofInt) := by
    have hsub : sub64 (u64 (nPages size * pgSize)) sizeofSlab = nPages size * pgSize - sizeofSlab := by
      rw [u64_of_lt htop]
      simp only [sub64,u64,sizeofSlab,pgSize] at hone htop ⊢
      omega
    rw [nObjs,hsub,hk]
  have hfit : nObjs size * (size + sizeofInt) ≤ nPages size * pgSize - sizeofSlab :=
    hobjs ▸ Nat.div_mul_le_self _ _
  have hroom : minObjsPerSlab * (size + sizeofInt) ≤ nPages size * pgSize - sizeofSlab :=
    (Nat.mul_le_mul_right _ hmin).trans hfit
  have hprod : u64 (u64 (size + sizeofInt) * minObjsPerSlab) = (size + sizeofInt) * minObjsPerSlab := by
    rw [hk]
    refine u64_of_lt ?_
    rw [Nat.mul_comm]
    omega
  have hneed : nPages size * pgSize < sizeofSlab + (size + sizeofInt) * minObjsPerSlab + pgSize := by
    have hne : nPages size * pgSize ≠ 0 := by
      simp only [pgSize] at hone ⊢
      omega
    rw [hmul,hprod] at hne ⊢
    simp only [pgRoundUp,pgRoundDown,u64,sizeofSlab,pgSize,minObjsPerSlab] at hne ⊢
    omega
  have hextra : (nObjs size - minObjsPerSlab) * (size + sizeofInt) < pgSize := by
    rw [Nat.sub_mul]
    have hcomm := Nat.mul_comm minObjsPerSlab (size + sizeofInt)
    simp only [sizeofSlab,pgSize] at hfit hneed hroom hone ⊢
    omega
  have hfew : nObjs size - minObjsPerSlab < pgSize :=
    lt_of_le_of_lt (Nat.le_mul_of_pos_right _ (by omega)) hextra
  refine ⟨hpos,?_,?_,?_⟩
  · rw [Nat.mul_comm,Nat.add_comm sizeofInt]
    simp only [sizeofSlab,pgSize] at hfit hone ⊢
    omega
  · simp only [minObjsPerSlab] at hmin
    omega
  · simp only [minObjsPerSlab,pgSize] at hmin hfew
    omega

structure Placed (size a : Nat) (t : Slab) : Prop where
  objs : t.objs = a + sizeofSlab + sizeofInt * nObjs size
  pages : t.nPages = nPages size
  aligned : a % pgSize = 0
  top : a + nPages size * pgSize ≤ 2^64

structure Unused (size a : Nat) (t : Slab) (live : List Obj) (l : List Nat) : Prop where
  chain : Chain t.freeArr t.free l
  nodup : l.Nodup
  mem : ∀ i, i ∈ l ↔ i < nObjs size ∧ ∀ o ∈ live, o.slab = a → o.slot ≠ i

structure Core (size : Nat) (slabs : Nat → Option Slab) (pageSlab : Nat → Option Nat) (live : List Obj) : Prop where
  placed : ∀ a t, slabs a = some t → Placed size a t
  fits : ∀ a t, slabs a = some t → Fits size
  apart : ∀ a b t u, slabs a = some t → slabs b = some u → a ≠ b →
    a + nPages size * pgSize ≤ b ∨ b + nPages size * pgSize ≤ a
  pages : ∀ a t p, slabs a = some t → a / pgSize ≤ p → p < a / pgSize + nPages size → pageSlab p = some a
  taken : ∀ o ∈ live, ∃ t, slabs o.slab = some t ∧ o.slot < nObjs size ∧ o.addr = t.objs + size * o.slot
  once : live.Pairwise fun o p => o.slab ≠ p.slab ∨ o.slot ≠ p.slot
  chain : ∀ a t, slabs a = some t → ∃ l, Unused size a t live l

structure Lists (free full : List Nat) (slabs : Nat → Option Slab) : Prop where
  freeOnce : free.Nodup
  fullOnce : full.Nodup
  onFree : ∀ a, a ∈ free ↔ ∃ t, slabs a = some t ∧ t.free ≠ -1
  onFull : ∀ a, a ∈ full ↔ ∃ t, slabs a = some t ∧ t.free = -1

structure Inv (size : Nat) (s : Cache) : Prop where
  objSize : s.objSize = size
  core : Core size s.slabs s.pageSlab s.live
  lists : Lists s.free s.full s.slabs

namespace Lists

variable {free full : List Nat} {slabs : Nat → Option Slab} {a : Nat} {t u : Slab}

section
variable (h : Lists free full slabs) (ht : slabs a = some t)
include h ht

lemma keep (hfree : t.free ≠ -1) (hu : u.free ≠ -1) : Lists free full (update slabs a (some u)) := by
  obtain ⟨h1,h2,h3,h4⟩ := h
  constructor <;> grind [update_apply]

lemma fill (hfree : t.free ≠ -1) (hu : u.free = -1) :
    Lists (free.erase a) (full ++ [a]) (update slabs a (some u)) := by
  obtain ⟨h1,h2,h3,h4⟩ := h
  constructor <;> grind [update_apply,List.Nodup.mem_erase_iff]

lemma refill (hfull : t.free = -1) (hu : u.free ≠ -1) :
    Lists (free ++ [a]) (full.erase a) (update slabs a (some u)) := by
  obtain ⟨h1,h2,h3,h4⟩ := h
  constructor <;> grind [update_apply,List.Nodup.mem_erase_iff]

end

lemma grow (h : Lists free full slabs) (ha : slabs a = none) (hu : u.free ≠ -1) :
    Lists (free ++ [a]) full (update slabs a (some u)) := by
  obtain ⟨h1,h2,h3,h4⟩ := h
  constructor <;> grind [update_apply]

end Lists

lemma Unused.other {size a : Nat} {t : Slab} {live live' : List Obj} {l : List Nat} (h : Unused size a t live l)
    (hlive : ∀ o, o.slab = a → (o ∈ live' ↔ o ∈ live)) : Unused size a t live' l := by
  refine ⟨h.chain,h.nodup,fun i => (h.mem i).trans (and_congr_right fun _ => ?_)⟩
  constructor
  · intro hall o ho ha
    exact hall o ((hlive o ha).mp ho) ha
  · intro hall o ho ha
    exact hall o ((hlive o ha).mpr ho) ha

namespace Core

variable {size : Nat} {slabs : Nat → Option Slab} {pageSlab : Nat → Option Nat} {live : List Obj} {a : Nat} {t : Slab}
  {o p : Obj}

section
variable (h : Core size slabs pageSlab live)
include h

lemma slot_fits (ht : slabs a = some t) {i : Nat} (hi : i < nObjs size) :
    t.objs + size * i + size ≤ a + nPages size * pgSize := by
  have hplaced := h.placed a t ht
  have hroom := (h.fits a t ht).room
  have hslot : size * (i + 1) ≤ size * nObjs size := Nat.mul_le_mul_left _ hi
  rw [Nat.add_mul] at hroom
  rw [Nat.mul_succ] at hslot
  have := hplaced.objs
  omega

section
variable (ho : o ∈ live)
include ho

lemma addr_inside :
    o.slab + sizeofSlab + sizeofInt * nObjs size ≤ o.addr ∧ o.addr + size ≤ o.slab + nPages size * pgSize := by
  obtain ⟨t,ht,hslot,haddr⟩ := h.taken o ho
  have hobjs := (h.placed o.slab t ht).objs
  have := h.slot_fits ht hslot
  exact ⟨by omega,by omega⟩

lemma addr_apart (hp : p ∈ live)
    (hne : o.slab ≠ p.slab ∨ o.slot ≠ p.slot) : o.addr + size ≤ p.addr ∨ p.addr + size ≤ o.addr := by
  have hoin := h.addr_inside ho
  have hpin := h.addr_inside hp
  obtain ⟨t,ht,-,haddr⟩ := h.taken o ho
  obtain ⟨u,hu,-,hpaddr⟩ := h.taken p hp
  by_cases hslab : o.slab = p.slab
  · cases ht.symm.trans (hslab ▸ hu)
    obtain hlt | hlt := Nat.lt_or_gt_of_ne (hne.resolve_left (not_not.mpr hslab))
    · have : size * (o.slot + 1) ≤ size * p.slot := Nat.mul_le_mul_left _ hlt
      rw [Nat.mul_succ] at this
      exact .inl (by omega)
    · have : size * (p.slot + 1) ≤ size * o.slot := Nat.mul_le_mul_left _ hlt
      rw [Nat.mul_succ] at this
      exact .inr (by omega)
  · have := h.apart o.slab p.slab t u ht hu hslab
    omega

lemma addr_inj (hp : p ∈ live) (he : o.addr = p.addr) : o = p := by
  obtain ⟨t,ht,-,-⟩ := h.taken o ho
  have hpos := (h.fits o.slab t ht).pos
  have hboth : o.slab = p.slab ∧ o.slot = p.slot := by
    by_contra hne
    have := h.addr_apart ho hp (by tauto)
    omega
  obtain ⟨oa,os,oi⟩ := o
  obtain ⟨pa,ps,pi⟩ := p
  simp_all

lemma page_of : pageSlab (o.addr / pgSize) = some o.slab := by
  obtain ⟨t,ht,-,-⟩ := h.taken o ho
  have hin := h.addr_inside ho
  have hpos := (h.fits o.slab t ht).pos
  have haligned := (h.placed o.slab t ht).aligned
  refine h.pages o.slab t _ ht ?_ ?_
  · exact Nat.div_le_div_right (by omega)
  · simp only [pgSize] at hin haligned ⊢
    omega

lemma slot_of (ht : slabs o.slab = some t) : int32 (sub64 o.addr t.objs / size : Nat) = o.slot := by
  obtain ⟨u,hu,hslot,haddr⟩ := h.taken o ho
  cases ht.symm.trans hu
  have hfits := h.fits o.slab t ht
  have hin := h.addr_inside ho
  have htop := (h.placed o.slab t ht).top
  have hpos := hfits.pos
  have hsub : sub64 o.addr t.objs = size * o.slot := by
    simp only [sub64,u64]
    omega
  rw [hsub,Nat.mul_div_cancel_left _ hfits.pos]
  have hfew := hfits.few
  simp only [int32]
  omega

end

lemma replace (ht : slabs a = some t) {u : Slab} {live' : List Obj}
    (hobjs : u.objs = t.objs) (hpages : u.nPages = t.nPages)
    (htaken : ∀ p ∈ live', p ∈ live ∨ p.slab = a ∧ p.slot < nObjs size ∧ p.addr = t.objs + size * p.slot)
    (honce : live'.Pairwise fun o p => o.slab ≠ p.slab ∨ o.slot ≠ p.slot)
    (hother : ∀ p : Obj, p.slab ≠ a → (p ∈ live' ↔ p ∈ live)) {l : List Nat} (hl : Unused size a u live' l) :
    Core size (update slabs a (some u)) pageSlab live' where
  placed b v hv := by
    by_cases hb : b = a
    · subst hb
      obtain rfl : u = v := by simpa using hv
      have hplaced := h.placed b t ht
      exact ⟨hobjs.trans hplaced.objs,hpages.trans hplaced.pages,hplaced.aligned,hplaced.top⟩
    · exact h.placed b v (by rwa [update_of_ne hb] at hv)
  fits _ _ _ := h.fits a t ht
  apart b c v w hv hw hne := by
    have hold : ∀ {b v}, update slabs a (some u) b = some v → ∃ v', slabs b = some v' := by
      intro b v hv
      by_cases hb : b = a
      · exact ⟨t,hb ▸ ht⟩
      · exact ⟨v,by rwa [update_of_ne hb] at hv⟩
    obtain ⟨v',hv'⟩ := hold hv
    obtain ⟨w',hw'⟩ := hold hw
    exact h.apart b c v' w' hv' hw' hne
  pages b v p hv := by
    by_cases hb : b = a
    · exact h.pages b t p (hb ▸ ht)
    · exact h.pages b v p (by rwa [update_of_ne hb] at hv)
  taken p hp := by
    obtain hold | ⟨hslab,hslot,haddr⟩ := htaken p hp
    · obtain ⟨v,hv,hslot,haddr⟩ := h.taken p hold
      by_cases hb : p.slab = a
      · cases ht.symm.trans (hb ▸ hv)
        exact ⟨u,by rw [hb,update_self],hslot,hobjs ▸ haddr⟩
      · exact ⟨v,by rwa [update_of_ne hb],hslot,haddr⟩
    · exact ⟨u,by rw [hslab,update_self],hslot,hobjs ▸ haddr⟩
  once := honce
  chain b v hv := by
    by_cases hb : b = a
    · subst hb
      obtain rfl : u = v := by simpa using hv
      exact ⟨l,hl⟩
    · obtain ⟨m,hm⟩ := h.chain b v (by rwa [update_of_ne hb] at hv)
      exact ⟨m,hm.other fun p hp => hother p (hp ▸ hb)⟩

lemma take (ht : slabs a = some t) (hfree : t.free ≠ -1) : ∃ i : Nat, t.free = i ∧ i < nObjs size ∧
      Core size (update slabs a (some { t with free := t.freeArr i })) pageSlab
        (live ++ [⟨t.objs + size * i,a,i⟩]) := by
  obtain ⟨l,hl⟩ := h.chain a t ht
  obtain ⟨i,rest,rfl,hi,hrest⟩ := hl.chain.pop hfree
  obtain ⟨hlt,hunused⟩ := (hl.mem i).mp List.mem_cons_self
  obtain ⟨hnotin,hnodup⟩ := List.nodup_cons.mp hl.nodup
  have hnew : ∀ p ∈ live ++ [⟨t.objs + size * i,a,i⟩], p ∈ live ∨ p = ⟨t.objs + size * i,a,i⟩ := by
    simp
  refine ⟨i,hi,hlt,h.replace ht (l := rest) rfl rfl ?_ ?_ ?_ ⟨hrest,hnodup,fun j => ?_⟩⟩
  · intro p hp
    obtain hold | rfl := hnew p hp
    · exact .inl hold
    · exact .inr ⟨rfl,hlt,rfl⟩
  · refine List.pairwise_append.mpr ⟨h.once,List.pairwise_singleton _ _,fun o ho p hp => ?_⟩
    obtain rfl := List.mem_singleton.mp hp
    by_cases hslab : o.slab = a
    · exact .inr (hunused o ho hslab)
    · exact .inl hslab
  · intro p hp
    have hne : p ≠ ⟨t.objs + size * i,a,i⟩ := fun he => hp (he ▸ rfl)
    simp [hne]
  · have hmem := hl.mem j
    simp only [List.mem_cons] at hmem
    constructor
    · intro hj
      obtain ⟨hjlt,hjall⟩ := hmem.mp (.inr hj)
      refine ⟨hjlt,fun p hp hslab => ?_⟩
      obtain hold | rfl := hnew p hp
      · exact hjall p hold hslab
      · rintro rfl
        exact hnotin hj
    · rintro ⟨hjlt,hjall⟩
      obtain rfl | hj := hmem.mpr ⟨hjlt,fun p hp => hjall p (by simp [hp])⟩
      · exact absurd rfl (hjall ⟨t.objs + size * j,a,j⟩ (by simp) rfl)
      · exact hj

lemma give (ho : o ∈ live) (ht : slabs o.slab = some t) : Core size (update slabs o.slab
      (some { t with freeArr := update t.freeArr o.slot t.free, free := o.slot })) pageSlab
      (live.filter (·.addr ≠ o.addr)) := by
  obtain ⟨l,hl⟩ := h.chain o.slab t ht
  obtain ⟨v,hv,hslot,haddr⟩ := h.taken o ho
  cases ht.symm.trans hv
  have hmem : ∀ p, p ∈ live.filter (·.addr ≠ o.addr) ↔ p ∈ live ∧ p ≠ o := by
    intro p
    rw [List.mem_filter,decide_eq_true_iff]
    exact and_congr_right fun hp => not_congr ⟨fun he => h.addr_inj hp ho he,fun he => he ▸ rfl⟩
  have hnotin : o.slot ∉ l := fun hin => ((hl.mem _).mp hin).2 o ho rfl rfl
  refine h.replace ht (l := o.slot :: l) rfl rfl (fun p hp => .inl ((hmem p).mp hp).1) (h.once.filter _) ?_
    ⟨hl.chain.push hnotin,List.nodup_cons.mpr ⟨hnotin,hl.nodup⟩,fun j => ?_⟩
  · intro p hp
    rw [hmem]
    exact and_iff_left fun he => hp (he ▸ rfl)
  · rw [List.mem_cons,hl.mem j]
    constructor
    · rintro (rfl | ⟨hlt,hall⟩)
      · refine ⟨hslot,fun p hp hslab hsame => ((hmem p).mp hp).2 ?_⟩
        obtain ⟨w,hw,-,hpaddr⟩ := h.taken p ((hmem p).mp hp).1
        cases ht.symm.trans (hslab ▸ hw)
        exact h.addr_inj ((hmem p).mp hp).1 ho (by rw [hpaddr,haddr,hsame])
      · exact ⟨hlt,fun p hp => hall p ((hmem p).mp hp).1⟩
    · rintro ⟨hlt,hall⟩
      by_cases hj : j = o.slot
      · exact .inl hj
      · refine .inr ⟨hlt,fun p hp hslab => ?_⟩
        by_cases hpo : p = o
        · exact hpo ▸ Ne.symm hj
        · exact hall p ((hmem p).mpr ⟨hp,hpo⟩) hslab

lemma grow (hnone : slabs a = none) (hfits : Fits size)
    (haligned : a % pgSize = 0) (htop : a + nPages size * pgSize ≤ 2^64)
    (hapart : ∀ b u, slabs b = some u → a + nPages size * pgSize ≤ b ∨ b + nPages size * pgSize ≤ a) :
    Core size (update slabs a (some ⟨a + sizeofSlab + sizeofInt * nObjs size,0,nPages size,
      initFree (nObjs size)⟩)) (linkPages pageSlab a (nPages size)) live where
  placed b v hv := by
    by_cases hb : b = a
    · subst hb
      obtain rfl : _ = v := by simpa using hv
      exact ⟨rfl,rfl,haligned,htop⟩
    · exact h.placed b v (by rwa [update_of_ne hb] at hv)
  fits _ _ _ := hfits
  apart b c v w hv hw hne := by
    by_cases hb : b = a
    · subst hb
      rw [update_of_ne hne.symm] at hw
      exact hapart c w hw
    · rw [update_of_ne hb] at hv
      by_cases hc : c = a
      · subst hc
        exact (hapart b v hv).symm
      · rw [update_of_ne hc] at hw
        exact h.apart b c v w hv hw hne
  pages b v p hv hlo hhi := by
    rw [linkPages_eq]
    by_cases hb : b = a
    · subst hb
      rw [if_pos ⟨hlo,hhi⟩]
    · rw [update_of_ne hb] at hv
      have hb' := (h.placed b v hv).aligned
      have := hapart b v hv
      rw [if_neg]
      · exact h.pages b v p hv hlo hhi
      · simp only [pgSize] at *
        omega
  taken o ho := by
    obtain ⟨v,hv,hrest⟩ := h.taken o ho
    have hne : o.slab ≠ a := fun he => by simp [he,hnone] at hv
    exact ⟨v,by rwa [update_of_ne hne],hrest⟩
  once := h.once
  chain b v hv := by
    by_cases hb : b = a
    · subst hb
      obtain rfl : _ = v := by simpa using hv
      refine ⟨_,initFree_chain hfits.some,List.nodup_range,fun i => ?_⟩
      rw [List.mem_range]
      refine (and_iff_left fun o ho hslab => ?_).symm
      obtain ⟨v,hv,-⟩ := h.taken o ho
      simp [hslab,hnone] at hv
    · exact h.chain b v (by rwa [update_of_ne hb] at hv)

end

end Core

lemma create_inv (size : Nat) : Inv size (kmemCacheCreate size) where
  objSize := rfl
  core := by constructor <;> simp [kmemCacheCreate]
  lists := by constructor <;> simp [kmemCacheCreate]

namespace Inv

variable {size : Nat} {s u : Cache} {a : Nat} {t : Slab}

section
variable (h : Inv size s)
include h

lemma takeSlot (ht : s.slabs a = some t) (hfree : t.free ≠ -1) :
    ∃ u obj, takeSlot s a = some (u,some obj) ∧ Inv size u := by
  obtain ⟨i,hi,hlt,hcore⟩ := h.core.take ht hfree
  have hfit := h.core.slot_fits ht hlt
  have htop := (h.core.placed a t ht).top
  have hpos := (h.core.fits a t ht).pos
  have hmul : u64 (size * i) = size * i := u64_of_lt (by omega)
  have hobj : u64 (t.objs + size * i) = t.objs + size * i := u64_of_lt (by omega)
  have hslot : t.free.toNat = i := by simp [hi]
  have hneg : ¬t.free < 0 := by omega
  refine ⟨_,t.objs + size * i,by simp [Kmalloc.takeSlot,ht,hneg,hslot,h.objSize,hmul,hobj]; rfl,?_⟩
  split
  · next hlast => exact ⟨rfl,hcore,h.lists.fill ht hfree hlast⟩
  · next hlast => exact ⟨rfl,hcore,h.lists.keep ht hfree hlast⟩

lemma slabCreate (hsize : size + sizeofInt ≤ 2^64) {pages slab : Option Nat}
    (hu : slabCreate s pages = some (u,slab)) : Inv size u ∧ ∀ a ∈ slab, ∃ t, u.slabs a = some t ∧ t.free ≠ -1 := by
  simp only [Kmalloc.slabCreate,h.objSize] at hu
  split at hu
  · cases hu
  · next hpos =>
    cases pages with
    | none =>
      cases hu
      exact ⟨h,by simp⟩
    | some a =>
      simp only [Option.ite_none_left_eq_some,Option.some_inj,Prod.mk_inj,not_or,not_not,not_lt] at hpos hu
      obtain ⟨⟨hunit,hmin,hfresh⟩,rfl,rfl⟩ := hu
      have hfits := fits_of_checks (Nat.pos_of_ne_zero hpos.1) hsize hpos.2 hunit hmin
      obtain ⟨haligned,-,htop,hapart⟩ := hfresh
      have hknown : ∀ b v, s.slabs b = some v → b ∈ s.free ++ s.full := by
        intro b v hv
        by_cases hfree : v.free = -1
        · exact List.mem_append.mpr (.inr ((h.lists.onFull b).mpr ⟨v,hv,hfree⟩))
        · exact List.mem_append.mpr (.inl ((h.lists.onFree b).mpr ⟨v,hv,hfree⟩))
      have hpages : ∀ b v, s.slabs b = some v →
          a + nPages size * pgSize ≤ b ∨ b + nPages size * pgSize ≤ a := by
        intro b v hv
        have := hapart b (hknown b v hv) v hv
        rwa [(h.core.placed b v hv).pages] at this
      have hroom : 0 < nPages size * pgSize := by
        have := hfits.room
        simp only [sizeofSlab] at this
        omega
      have hnone : s.slabs a = none := by
        by_contra hsome
        obtain ⟨v,hv⟩ := Option.ne_none_iff_exists'.mp hsome
        have := hpages a v hv
        omega
      have hobjs : u64 (a + sizeofSlab + sizeofInt * nObjs size) = a + sizeofSlab + sizeofInt * nObjs size := by
        have := hfits.room
        rw [Nat.add_mul] at this
        have hbytes : 0 < size * nObjs size := Nat.mul_pos hfits.pos hfits.some
        exact u64_of_lt (by omega)
      rw [hobjs]
      refine ⟨⟨rfl,h.core.grow hnone hfits haligned htop hpages,h.lists.grow hnone (by simp)⟩,fun b hb => ?_⟩
      obtain rfl := Option.mem_some_iff.mp hb
      exact ⟨_,update_self _ _ _,by simp⟩

lemma alloc (hsize : size + sizeofInt ≤ 2^64) {pages obj : Option Nat}
    (hu : kmemCacheAlloc s pages = some (u,obj)) : Inv size u := by
  unfold kmemCacheAlloc at hu
  split at hu
  · next a rest hfree =>
    obtain ⟨t,ht,hne⟩ := (h.lists.onFree a).mp (by simp [hfree])
    obtain ⟨v,o,hv,hinv⟩ := h.takeSlot ht hne
    cases hv.symm.trans hu
    exact hinv
  · obtain ⟨⟨v,slab⟩,hv,hu⟩ := Run.bind_some.mp hu
    obtain ⟨hinv,hslab⟩ := h.slabCreate hsize hv
    cases slab with
    | none =>
      cases hu
      exact hinv
    | some a =>
      obtain ⟨t,ht,hne⟩ := hslab a rfl
      obtain ⟨w,o,hw,hinv'⟩ := hinv.takeSlot ht hne
      cases hw.symm.trans hu
      exact hinv'

lemma giveSlot {o : Obj} (ho : o ∈ s.live) (ht : s.slabs o.slab = some t) :
    Inv size (giveSlot s o.slab t o.slot o.addr) := by
  have hcore := h.core.give ho ht
  unfold Kmalloc.giveSlot
  split
  · next hfull => exact ⟨h.objSize,hcore,h.lists.refill ht hfull (by simp)⟩
  · next hfull => exact ⟨h.objSize,hcore,h.lists.keep ht hfull (by simp)⟩

lemma free {o : Obj} (ho : o ∈ s.live) : ∃ u, kmemCacheFree s o.addr = some u ∧ Inv size u := by
  obtain ⟨t,ht,-,-⟩ := h.core.taken o ho
  have hpage := h.core.page_of ho
  have hslot : slotOf s t o.addr = o.slot := by
    rw [slotOf,h.objSize]
    exact h.core.slot_of ho ht
  refine ⟨Kmalloc.giveSlot s o.slab t o.slot o.addr,?_,h.giveSlot ho ht⟩
  rw [kmemCacheFree,hpage,bind_eq_bind,bind_some,ht,bind_eq_bind,bind_some]
  simp only [hslot,Int.toNat_natCast]
  exact if_neg (by omega)

lemma step (hsize : size + sizeofInt ≤ 2^64) {o : Op} (hu : step s o = some u) : Inv size u := by
  cases o with
  | alloc pages =>
    obtain ⟨⟨v,obj⟩,hv,rfl⟩ := Option.map_eq_some_iff.mp hu
    exact h.alloc hsize hv
  | free obj =>
    simp only [Kmalloc.step,Option.ite_none_right_eq_some] at hu
    obtain ⟨⟨o,ho,rfl⟩,hu⟩ := hu
    obtain ⟨v,hv,hinv⟩ := h.free ho
    cases hv.symm.trans hu
    exact hinv

lemma laws : Laws s where
  disjoint := by
    rw [h.objSize]
    exact h.core.once.imp_of_mem fun ho hp hne => h.core.addr_apart ho hp hne
  inside o ho := by
    obtain ⟨t,ht,-,-⟩ := h.core.taken o ho
    rw [h.objSize]
    exact ⟨t,ht,(h.core.placed o.slab t ht).pages.symm ▸ h.core.addr_inside ho⟩
  chain a t ht := by
    obtain ⟨l,hl⟩ := h.core.chain a t ht
    have hnil := hl.chain.eq_nil_iff
    refine ⟨l,hl.chain,hl.nodup,h.objSize ▸ hl.mem,?_,?_⟩
    · rw [h.lists.onFull,hnil]
      simp [ht]
    · rw [h.lists.onFree,Ne,hnil]
      simp [ht]
  slot o ho := by
    obtain ⟨t,ht,-,-⟩ := h.core.taken o ho
    refine ⟨h.core.page_of ho,t,ht,?_⟩
    rw [slotOf,h.objSize]
    exact h.core.slot_of ho ht

end

end Inv

lemma takeSlot_first {s : Cache} {a : Nat} {t : Slab} (ht : s.slabs a = some t) (hfree : t.free = 0)
    (hlink : t.freeArr 0 ≠ -1) : takeSlot s a = some ({ s with
      slabs := update s.slabs a (some { t with free := t.freeArr 0 })
      live := s.live ++ [⟨u64 t.objs,a,0⟩] },some (u64 t.objs)) := by
  rw [takeSlot,ht,bind_eq_bind,bind_some,if_neg (by omega)]
  have hzero : t.free.toNat = 0 := by simp [hfree]
  have hnone : u64 (s.objSize * 0) = 0 := rfl
  simp only [hzero,hnone,Nat.add_zero,if_neg hlink]

def firstSlab (size : Nat) : Slab := ⟨pgSize + sizeofSlab + sizeofInt * nObjs size,0,1,initFree (nObjs size)⟩

def firstCache (size : Nat) : Cache :=
  ⟨size,[],[pgSize],update (fun _ => none) pgSize (some (firstSlab size)),
    linkPages (fun _ => none) pgSize 1,[]⟩

lemma wrapped_alloc (size : Nat) (hlo : 2^64 < size + sizeofInt) (hhi : size < 2^64) :
    ∃ s, run size [.alloc (some pgSize)] = some s ∧ s.objSize = size ∧
      (s.slabs pgSize).map Slab.nPages = some 1 ∧
      s.live = [⟨pgSize + sizeofSlab + sizeofInt * nObjs size,pgSize,0⟩] := by
  have hcheck : u64 (size + sizeofInt) ≠ 0 ∧ nPages size = 1 ∧ minObjsPerSlab ≤ nObjs size ∧ nObjs size ≤ 4056 := by
    simp only [sizeofInt] at hlo
    obtain rfl | rfl | rfl : size = 2^64 - 3 ∨ size = 2^64 - 2 ∨ size = 2^64 - 1 := by omega
    all_goals decide +kernel
  obtain ⟨hunit,hpages,hmin,hfew⟩ := hcheck
  have hobjs : u64 (pgSize + sizeofSlab + sizeofInt * nObjs size) = pgSize + sizeofSlab + sizeofInt * nObjs size := by
    refine u64_of_lt ?_
    simp only [pgSize,sizeofSlab,sizeofInt]
    omega
  have hlink : initFree (nObjs size) 0 ≠ -1 := by
    simp only [minObjsPerSlab] at hmin
    simp [initFree_link _ 0 (by omega : 0 + 1 < nObjs size)]
  have hcreate : slabCreate (kmemCacheCreate size) (some pgSize) = some (firstCache size,some pgSize) := by
    have hpos : size ≠ 0 := by
      simp only [sizeofInt] at hlo
      omega
    have hfresh : fresh (kmemCacheCreate size) pgSize 1 := by simp [fresh,kmemCacheCreate,pgSize]
    rw [slabCreate,if_neg (by simp [kmemCacheCreate,hpos,hpages])]
    simp only [kmemCacheCreate,hpages] at hfresh ⊢
    rw [if_neg (by simp [hunit,hfresh,Nat.not_lt.mpr hmin]),hobjs]
    rfl
  have hslab : (firstCache size).slabs pgSize = some (firstSlab size) := by simp [firstCache]
  have htake := takeSlot_first hslab rfl hlink
  have hrun : run size [.alloc (some pgSize)] = (takeSlot (firstCache size) pgSize).map Prod.fst := by
    have halloc : kmemCacheAlloc (kmemCacheCreate size) (some pgSize) = takeSlot (firstCache size) pgSize := by
      simp only [kmemCacheAlloc,kmemCacheCreate] at hcreate ⊢
      rw [hcreate]
      rfl
    rw [← halloc]
    exact bind_pure _
  refine ⟨_,by rw [hrun,htake]; rfl,rfl,by simp [firstSlab],?_⟩
  exact congrArg (fun addr => [Obj.mk addr pgSize 0]) hobjs

theorem slab_allocator_sound {size : Nat} (hpos : 0 < size) (hsize : size < 2^64) :
    (∀ ops s, run size ops = some s → Laws s) ↔ size + sizeofInt ≤ 2^64 := by
  constructor
  · intro hall
    by_contra hwrap
    obtain ⟨s,hs,hobj,hslab,hlive⟩ := wrapped_alloc size (Nat.lt_of_not_le hwrap) hsize
    obtain ⟨t,ht,-,hin⟩ := (hall _ s hs).inside ⟨pgSize + sizeofSlab + sizeofInt * nObjs size,pgSize,0⟩
      (by simp [hlive])
    rw [ht] at hslab
    have hpages : t.nPages = 1 := by simpa using hslab
    simp only [hpages,hobj,pgSize,sizeofSlab,sizeofInt] at hin hwrap
    omega
  · intro hok ops s hs
    exact (Run.invariant (fun _ _ _ hinv hstep => hinv.step hok hstep) (create_inv size) hs).laws

theorem slab_allocator_sound_32 : (run 32 [.alloc (some 8192),.alloc none,.free 9136]).isSome = true ∧
    ∀ ops s, run 32 ops = some s → Laws s :=
  ⟨by decide +kernel,(slab_allocator_sound (by decide) (by decide)).mpr (by decide)⟩

theorem wrapped_slab : ∃ s, run (2^64 - 3) [.alloc (some 4096)] = some s ∧ s.live = [⟨20360,4096,0⟩] ∧
    (s.slabs 4096).map Slab.nPages = some 1 := by
  obtain ⟨s,hs,-,hpages,hlive⟩ := wrapped_alloc (2^64 - 3) (by decide) (by decide)
  have hobjs : pgSize + sizeofSlab + sizeofInt * nObjs (2^64 - 3) = 20360 := by decide +kernel
  exact ⟨s,hs,hobjs ▸ hlive,hpages⟩

end MappedMemory.Kmalloc
