import MappedMemory.Library.Run
import MappedMemory.Vm.Region

namespace MappedMemory

open Option (bind_eq_bind bind_some some_inj)
open Prod (mk_inj)

variable {α : Type} {rs : List Memregion}

def Memregion.covers (r : Memregion) (a : Nat) : Prop := r.start ≤ a ∧ a < pgCeil r.stop

instance (r : Memregion) (a : Nat) : Decidable (r.covers a) := inferInstanceAs (Decidable (_ ∧ _))

structure RegionListInv (rs : List Memregion) : Prop where
  sorted : rs.Pairwise (fun r s => r.start ≤ s.start)
  aligned : ∀ r ∈ rs, pgAligned r.start = true
  bounded : ∀ r ∈ rs, r.start ≤ r.stop
  disjoint : rs.Pairwise (fun r s => ∀ a, ¬ (r.covers a ∧ s.covers a))

def LookupOk (as : Addrspace) (a : Nat) : Prop :=
  match as.asFindMemregion a 1 with
  | some r => r ∈ as.regions ∧ r.covers a ∧ ∀ s ∈ as.regions, s.covers a → s = r
  | none => ∀ s ∈ as.regions, ¬ s.covers a

structure Placed (r : Memregion) : Prop where
  aligned : pgAligned r.start = true
  bounded : r.start ≤ r.stop
  word : r.stop < 2^64

structure Ordered (rs : List Memregion) : Prop where
  apart : rs.Pairwise (fun r s => r.stop ≤ s.start)
  placed : ∀ r ∈ rs, Placed r

lemma mem_listAppendOrdered (c : α → α → Int) (l : List α) (n x : α) :
    x ∈ listAppendOrdered c l n ↔ x = n ∨ x ∈ l := by
  induction l with
  | nil => simp [listAppendOrdered]
  | cons m l ih =>
    simp only [listAppendOrdered]
    split
    · simp
    · simp only [List.mem_cons,ih]
      tauto

lemma listAppendOrdered_perm (c : α → α → Int) (l : List α) (n : α) : (listAppendOrdered c l n).Perm (n :: l) := by
  induction l with
  | nil => exact List.Perm.refl _
  | cons m l ih =>
    simp only [listAppendOrdered]
    split
    · exact List.Perm.refl _
    · exact (ih.cons m).trans (List.Perm.swap n m l)

lemma eraseP_listAppendOrdered (c : α → α → Int) (l : List α) (n : α) {p : α → Bool}
    (hn : p n = true) (hl : ∀ x ∈ l, p x = false) : (listAppendOrdered c l n).eraseP p = l := by
  induction l with
  | nil => simp [listAppendOrdered,hn]
  | cons x l ih =>
    have hx : p x = false := hl x List.mem_cons_self
    simp only [listAppendOrdered]
    split
    · simp [hn]
    · simp [hx,ih fun y hy => hl y (List.mem_cons_of_mem x hy)]

lemma ordered_insert {n : Memregion} (h : Ordered rs) (hn : Placed n)
    (hfree : ∀ r ∈ rs, ¬ (n.start < r.stop ∧ n.stop > r.start)) :
    Ordered (listAppendOrdered memregionComparator rs n) := by
  refine ⟨?_,?_⟩
  · have hp := h.apart
    have hb := h.placed
    clear h
    induction rs with
    | nil => simp [listAppendOrdered]
    | cons r rs ih =>
      obtain ⟨hr,hrs⟩ := List.pairwise_cons.mp hp
      have hrb := (hb r (by simp)).bounded
      have hrfree := hfree r (by simp)
      simp only [listAppendOrdered,memregionComparator]
      split
      · rename_i hc
        have hge : n.stop ≤ r.start := by
          by_contra hlt
          simp [hlt] at hc
        refine List.pairwise_cons.mpr ⟨?_,hp⟩
        intro s hs
        rcases List.mem_cons.mp hs with rfl | hs
        · exact hge
        · have := hr s hs
          omega
      · rename_i hc
        have hlt : r.start < n.stop := by
          by_contra hge
          simp [Nat.not_lt.mp hge] at hc
        refine List.pairwise_cons.mpr ⟨?_,ih (fun s hs => hfree s (by simp [hs])) hrs
          (fun s hs => hb s (by simp [hs]))⟩
        intro s hs
        rcases (mem_listAppendOrdered _ _ _ _).mp hs with rfl | hs
        · by_contra hgt
          exact hrfree ⟨by omega,hlt⟩
        · exact hr s hs
  · intro r hr
    rcases (mem_listAppendOrdered _ _ _ _).mp hr with rfl | hr
    · exact hn
    · exact h.placed r hr

lemma ordered_erase (h : Ordered rs) (p : Memregion → Bool) : Ordered (rs.eraseP p) :=
  ⟨h.apart.sublist (List.eraseP_sublist ..),fun r hr => h.placed r (List.mem_of_mem_eraseP hr)⟩

lemma Ordered.regionListInv (h : Ordered rs) : RegionListInv rs := by
  refine ⟨?_,fun r hr => (h.placed r hr).aligned,fun r hr => (h.placed r hr).bounded,?_⟩
  · refine h.apart.imp_of_mem ?_
    intro r s hr _ hrs
    exact (h.placed r hr).bounded.trans hrs
  · refine h.apart.imp_of_mem ?_
    rintro r s _ hs hrs a ⟨hr,hsa⟩
    have hc := pgCeil_le hrs (h.placed s hs).aligned
    have hlt := hr.2
    have hge := hsa.1
    omega

lemma Ordered.covers_unique (h : Ordered rs) {r s : Memregion} {a : Nat}
    (hr : r ∈ rs) (hs : s ∈ rs) (hra : r.covers a) (hsa : s.covers a) : s = r := by
  by_contra hne
  have hd := h.regionListInv.disjoint
  have : Std.Symm (fun x y : Memregion => ∀ a, ¬ (x.covers a ∧ y.covers a)) :=
    ⟨fun x y hxy a hyx => hxy a ⟨hyx.2,hyx.1⟩⟩
  exact hd.forall hs hr hne a ⟨hsa,hra⟩

namespace Addrspace

variable {as as' : Addrspace} {start size id addr ofs : Nat} {r : Memregion} {alloc shared : Bool}
  {out : Option Memregion} {perm : Memperm} {store : Option Nat}

structure Wf (as : Addrspace) : Prop where
  ordered : Ordered as.regions
  user : as.kas = false → ∀ r ∈ as.regions, r.stop ≤ kmapBase

lemma memregionAllocated_eq {stop : Nat} {b : Bool} (h : as.memregionAllocated start stop = some b) :
    start ≤ stop ∧ (b = false → ∀ r ∈ as.regions, ¬ (start < r.stop ∧ stop > r.start)) := by
  unfold memregionAllocated at h
  split at h
  · rename_i hle
    simp only [some_inj] at h
    refine ⟨hle,?_⟩
    rintro rfl r hr ⟨h1,h2⟩
    have := List.any_eq_false.mp h r hr
    simp [h1] at this
    omega
  · simp at h

lemma memregionMapAt_cases (h : as.memregionMapAt r size alloc = some (as',out)) : (as' = as ∧ out = none) ∨
    (out = some r ∧ as' = { as with regions := listAppendOrdered memregionComparator as.regions r } ∧
      pgAligned r.start = true ∧ r.start ≤ u64 (r.start + pgRoundUp size) ∧ r.start ≤ r.stop ∧
      (as.kas = false → isUserAddr (sub64 (u64 (r.start + pgRoundUp size)) 1) = true) ∧
      ∀ s ∈ as.regions, ¬ (r.start < s.stop ∧ r.stop > s.start)) := by
  unfold memregionMapAt at h
  split at h
  · simp at h
  rename_i hal
  split at h
  · simp at h
  rename_i hwrap
  split at h
  · simp only [some_inj,mk_inj] at h
    exact .inl ⟨h.1.symm,h.2.symm⟩
  rename_i huser
  cases ho : as.memregionAllocated r.start r.stop with
  | none => simp [ho] at h
  | some b =>
    obtain ⟨hle,hfree⟩ := memregionAllocated_eq ho
    cases b with
    | true =>
      simp only [ho,bind_eq_bind,bind_some,if_true,some_inj,mk_inj] at h
      exact .inl ⟨h.1.symm,h.2.symm⟩
    | false =>
      cases alloc with
      | false =>
        simp [ho] at h
        exact .inl ⟨h.1.symm,h.2.symm⟩
      | true =>
        simp [ho] at h
        refine .inr ⟨h.2.symm,h.1.symm,by simpa using hal,by simpa using hwrap,hle,?_,hfree rfl⟩
        intro hk
        by_contra hu
        exact huser ⟨by simp [hk],.inr hu⟩

lemma user_stop_le (hs : start < 2^64) (hz : size < 2^64)
    (ha : pgAligned start = true) (hw : start ≤ u64 (start + pgRoundUp size))
    (hu : isUserAddr (sub64 (u64 (start + pgRoundUp size)) 1) = true) : u64 (start + size) ≤ kmapBase := by
  rw [isUserAddr_iff] at hu
  rcases Nat.lt_or_ge (2^64 - 4096) size with hbig | hsmall
  · rw [pgRoundUp_wrap hbig hz] at hw hu
    simp only [sub64,u64,kmapBase,pgAligned,pgSize,beq_iff_eq] at *
    omega
  · rw [pgRoundUp_eq_pgCeil hsmall] at hw hu
    have h1 := le_pgCeil size
    have h2 := pgCeil_lt size
    simp only [sub64,u64,kmapBase] at *
    omega

lemma findFreeVaddrFrom_aligned {rs : List Memregion} {a b : Nat}
    (ha : pgAligned a = true ∧ a < 2^64) (h : findFreeVaddrFrom size rs a = some b) :
    pgAligned b = true ∧ b < 2^64 := by
  induction rs generalizing a with
  | nil =>
    simp only [findFreeVaddrFrom] at h
    split at h
    · exact Option.some.inj h ▸ ha
    · simp at h
  | cons r rs ih =>
    simp only [findFreeVaddrFrom] at h
    split at h
    · exact Option.some.inj h ▸ ha
    · exact ih ⟨pgRoundUp_aligned _,pgRoundUp_lt _⟩ h

structure Inserted (as as' : Addrspace) (addr : Nat) (r : Memregion) : Prop where
  placed : Placed r
  user : as.kas = false → r.stop ≤ kmapBase
  space : as' = { as with regions := listAppendOrdered memregionComparator as.regions r }
  start : addr ≠ addrAnywhere → r.start = addr
  free : ∀ s ∈ as.regions, ¬ (r.start < s.stop ∧ r.stop > s.start)

lemma memregionMapInternal_cases (haddr : addr < 2^64) (hsize : size < 2^64)
    (h : as.memregionMapInternal id addr size perm store ofs shared alloc = some (as',out)) :
    (as' = as ∧ out = none) ∨ ∃ a, out = some ⟨id,a,u64 (a + size),perm,shared,store,ofs⟩ ∧
      Inserted as as' addr ⟨id,a,u64 (a + size),perm,shared,store,ofs⟩ := by
  have place (a : Nat) (ha : a < 2^64) (hany : addr ≠ addrAnywhere → a = addr)
      (hm : as.memregionMapAt ⟨id,a,u64 (a + size),perm,shared,store,ofs⟩ size alloc =
        some (as',out)) : (as' = as ∧ out = none) ∨
      ∃ a, out = some ⟨id,a,u64 (a + size),perm,shared,store,ofs⟩ ∧
        Inserted as as' addr ⟨id,a,u64 (a + size),perm,shared,store,ofs⟩ := by
    rcases memregionMapAt_cases hm with hnone | ⟨ho,has,hal,hw,hle,hu,hfree⟩
    · exact .inl hnone
    · exact .inr ⟨a,ho,⟨⟨hal,hle,u64_lt _⟩,
        fun hk => user_stop_le ha hsize hal hw (hu hk),has,hany,hfree⟩⟩
  unfold memregionMapInternal at h
  split at h
  · rename_i hany
    unfold findFreeVaddr at h
    split at h
    · simp at h
    cases hf : findFreeVaddrFrom size as.regions 0 with
    | none =>
      simp [hf] at h
      exact .inl ⟨h.1.symm,h.2.symm⟩
    | some a =>
      simp only [hf,bind_eq_bind,bind_some] at h
      exact place a (findFreeVaddrFrom_aligned ⟨rfl,by norm_num⟩ hf).2 (absurd hany) h
  · simp only [bind_eq_bind,bind_some] at h
    exact place addr haddr (fun _ => rfl) h

lemma Wf.insert (hw : as.Wf) (hi : Inserted as as' addr r) : as'.Wf := by
  obtain rfl := hi.space
  refine ⟨ordered_insert hw.ordered hi.placed hi.free,?_⟩
  intro hk s hs
  rcases (mem_listAppendOrdered _ _ _ _).mp hs with rfl | hs
  · exact hi.user hk
  · exact hw.user hk s hs

lemma Wf.unmap (hw : as.Wf) (id : Nat) : (as.memregionUnmapInternal id).Wf :=
  ⟨ordered_erase hw.ordered _,fun hk r hr => hw.user hk r (List.mem_of_mem_eraseP hr)⟩

lemma Wf.map (hw : as.Wf) (haddr : addr < 2^64) (hsize : size < 2^64)
    (h : as.memregionMapInternal id addr size perm store ofs shared alloc = some (as',out)) :
    as'.Wf ∧ as'.kas = as.kas := by
  rcases memregionMapInternal_cases haddr hsize h with ⟨rfl,-⟩ | ⟨a,-,hi⟩
  · exact ⟨hw,rfl⟩
  · exact ⟨hw.insert hi,by rw [hi.space]⟩

lemma sub64_lt (a b : Nat) : sub64 a b < 2^64 := u64_lt _

lemma Wf.copy {src : Memregion} {copied : Bool} {out : Option Nat} (hw : as.Wf) (haddr : addr < 2^64)
    (h : as.memregionCopyInternal src id addr alloc copied = some (as',out)) : as'.Wf ∧ as'.kas = as.kas := by
  unfold memregionCopyInternal at h
  cases hm : as.memregionMapInternal id addr (sub64 src.stop src.start) src.perm src.store src.ofs
      src.shared alloc with
  | none => simp [hm] at h
  | some p =>
    obtain ⟨as1,dst⟩ := p
    obtain ⟨hw1,hk⟩ := hw.map haddr (sub64_lt _ _) hm
    simp only [hm,bind_eq_bind,bind_some] at h
    cases dst with
    | none =>
      simp only [some_inj,mk_inj] at h
      exact h.1 ▸ ⟨hw1,hk⟩
    | some r =>
      simp only at h
      split_ifs at h <;> simp only [some_inj,mk_inj] at h <;> obtain ⟨rfl,-⟩ := h
      · exact ⟨hw1,hk⟩
      · exact ⟨hw1.unmap _,hk⟩
      · exact ⟨hw1,hk⟩
      · exact ⟨hw1.unmap _,hk⟩

lemma lookup_iff (hw : as.Wf) (htop : ∀ r ∈ as.regions, r.stop ≤ 2^64 - 4096) (ha : addr < 2^64) :
    LookupOk as addr ↔ (addr ≠ 2^64 - 1 ∨ as.regions = []) := by
  by_cases hlast : addr = 2^64 - 1
  · cases hr : as.regions with
    | nil => simp [LookupOk,asFindMemregion,hr]
    | cons r rs =>
      have hfind : as.asFindMemregion addr 1 = some r := by
        have hb := (hw.ordered.placed r (by simp [hr])).bounded
        have hword := (hw.ordered.placed r (by simp [hr])).word
        have hzero : u64 (addr + 1) = 0 := by rw [hlast]; rfl
        simp only [asFindMemregion,hr,List.find?_cons,hzero,Nat.zero_le,decide_true,Bool.and_true]
        simp only [show addr ≥ r.start by omega,decide_true]
      have hmiss : ¬ r.covers addr := by
        intro hc
        have h1 := htop r (by simp [hr])
        have h2 := pgCeil_le h1 rfl
        have h3 := hc.2
        omega
      refine iff_of_false ?_ (by simp [hlast])
      unfold LookupOk
      rw [hfind]
      exact fun h => hmiss h.2.1
  · have hsame : as.asFindMemregion addr 1 = as.regions.find? (fun r => decide (r.covers addr)) := by
      refine List.find?_congr fun r hr => ?_
      have hadd : u64 (addr + 1) = addr + 1 := u64_of_lt (by omega)
      rw [hadd,pgRoundUp_eq_pgCeil (htop r hr),← Bool.decide_and]
      exact decide_eq_decide.mpr Iff.rfl
    refine iff_of_true ?_ (.inl hlast)
    unfold LookupOk
    rw [hsame]
    cases hf : as.regions.find? (fun r => decide (r.covers addr)) with
    | none => simpa using List.find?_eq_none.mp hf
    | some r =>
      have hc : r.covers addr := by simpa using List.find?_some hf
      have hm := List.mem_of_find?_eq_some hf
      exact ⟨hm,hc,fun s hs hsc => hw.ordered.covers_unique hm hs hc hsc⟩

end Addrspace

namespace Vm

variable {s t : Vm} {a : Nat}

def Inv (s : Vm) : Prop := ∀ a, (s.spaces a).Wf ∧ (s.spaces a).kas = (a == 0)

lemma inv_init : init.Inv := fun _ =>
  ⟨⟨⟨List.Pairwise.nil,by simp [init]⟩,by simp [init]⟩,rfl⟩

lemma Inv.setSpace (hs : s.Inv) {as : Addrspace}
    (hw : as.Wf ∧ as.kas = (s.spaces a).kas) : (s.setSpace a as).Inv := by
  intro b
  simp only [Vm.setSpace,Function.update_apply]
  split
  · rename_i hb
    exact ⟨hw.1,by rw [hw.2,(hs a).2,hb]⟩
  · exact hs b

lemma Inv.copyRegions {heap : Option Nat} {dst : Nat} {rs : List Memregion}
    {outcomes : List (Bool × Bool)} (hrs : ∀ r ∈ rs, r.start < 2^64) (hs : s.Inv)
    (h : asCopyRegions heap dst rs outcomes s = some t) : t.Inv := by
  induction rs generalizing outcomes s with
  | nil => exact Option.some.inj h ▸ hs
  | cons r rs ih =>
    simp only [asCopyRegions] at h
    cases hc : (s.spaces dst).memregionCopyInternal r s.next r.start
        (outcomes.headD (true,true)).1 (outcomes.headD (true,true)).2 with
    | none =>
      rw [hc] at h
      exact absurd h (by simp)
    | some p =>
      obtain ⟨as,copy⟩ := p
      have hw := (hs dst).1.copy (hrs r (by simp)) hc
      simp only [hc,bind_eq_bind,bind_some] at h
      cases copy with
      | none => exact Option.some.inj h ▸ hs.setSpace hw
      | some id =>
        refine ih (fun q hq => hrs q (by simp [hq])) (hs.setSpace ?_) h
        exact ⟨⟨hw.1.ordered,hw.1.user⟩,hw.2⟩

lemma Inv.start_lt (hs : s.Inv) {r : Memregion} (hr : r ∈ (s.spaces a).regions) : r.start < 2^64 := by
  have hp := (hs a).1.ordered.placed r hr
  exact hp.bounded.trans_lt hp.word

lemma Inv.step {o : Op} (hs : s.Inv) (h : s.step o = some t) : t.Inv := by
  cases o with
  | map a addr size perm store ofs shared alloc =>
    simp only [Vm.step,asMapMemregion] at h
    cases hm : (s.spaces a).memregionMapInternal s.next (u64 addr) (u64 size) perm store ofs shared
        alloc with
    | none => simp [hm] at h
    | some p =>
      simp only [hm,bind_eq_bind,bind_some,some_inj] at h
      exact h ▸ hs.setSpace ((hs a).1.map (u64_lt _) (u64_lt _) hm)
  | unmap a id =>
    simp only [Vm.step,memregionUnmap] at h
    split at h
    · exact Option.some.inj h ▸ hs.setSpace ⟨(hs a).1.unmap id,rfl⟩
    · simp at h
  | copyMemregion src id dst addr alloc copied =>
    simp only [Vm.step] at h
    split at h
    · simp at h
    · rename_i r _
      simp only [asCopyMemregion] at h
      split at h
      · cases hc : (s.spaces dst).memregionCopyInternal r s.next (u64 addr) alloc copied with
        | none => simp [hc] at h
        | some p =>
          simp only [hc,bind_eq_bind,bind_some,some_inj] at h
          exact h ▸ hs.setSpace ((hs dst).1.copy (u64_lt _) hc)
      · simp at h
  | copyAs src dst outcomes =>
    simp only [Vm.step,asCopyAs] at h
    split at h
    · simp at h
    · exact Inv.copyRegions (fun r hr => hs.start_lt hr) hs h

lemma Inv.user_top (hs : s.Inv) (ha : a ≠ 0) : ∀ r ∈ (s.spaces a).regions, r.stop ≤ 2^64 - 4096 := by
  intro r hr
  have hk : (s.spaces a).kas = false := by
    rw [(hs a).2]
    simpa using ha
  have hu := (hs a).1.user hk r hr
  simp only [kmapBase] at hu
  omega

theorem region_list_and_lookup (ops : List Op) (s : Vm) (h : init.run ops = some s) (a : Nat) :
    RegionListInv (s.spaces a).regions ∧
    ((a ≠ 0 ∨ ∀ r ∈ (s.spaces a).regions, r.stop ≤ 2^64 - 4096) →
      ∀ addr < 2^64, LookupOk (s.spaces a) addr ↔ (addr ≠ 2^64 - 1 ∨ (s.spaces a).regions = [])) := by
  have hs : s.Inv := Run.invariant (fun _ _ _ => Inv.step) inv_init h
  refine ⟨(hs a).1.ordered.regionListInv,?_⟩
  intro ha addr haddr
  refine Addrspace.lookup_iff (hs a).1 ?_ haddr
  exact ha.elim hs.user_top id

def oneMapping : List Op := [.map 1 0 4096 .urw none 0 false true]

theorem region_list_and_lookup_one_mapping : ∃ s, init.run oneMapping = some s ∧
    RegionListInv (s.spaces 1).regions ∧ LookupOk (s.spaces 1) 100 := by
  refine ⟨_,rfl,?_⟩
  have h := region_list_and_lookup oneMapping _ rfl 1
  exact ⟨h.1,(h.2 (.inl (by decide)) 100 (by norm_num)).mpr (.inl (by norm_num))⟩

theorem lookup_wraps_at_top : ∃ s, init.run oneMapping = some s ∧
    ¬ LookupOk (s.spaces 1) (2^64 - 1) := by
  refine ⟨_,rfl,?_⟩
  intro h
  exact absurd h.2.1.2 (by decide)

end Vm
end MappedMemory
