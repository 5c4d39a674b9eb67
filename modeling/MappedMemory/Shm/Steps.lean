import MappedMemory.Shm.Invariant

namespace MappedMemory

open Function (comp_def)
open List (map_cons map_map mem_append mem_cons mem_cons_self mem_map mem_singleton nodup_cons)
open Nat (le_succ lt_succ_self)
open Option (bind_eq_some_iff bind_some some_inj toList_none toList_some)

open Keyed

def Pc.plain : Pc → Bool
  | .unmapping _ _ _ => false
  | .linked _ _ _ => false
  | _ => true

namespace Shm

variable {s s' : Shm} {p p' q : Proc} {c : Smemcontext} {x : Nat × Memregion} {as as' : Addrspace} {r : Memregion}
  {id size pid : Nat} {store : Option Nat} {shared alloc : Bool} {e : Nat × Addrspace} {name : List Nat}
  {out : Outcome}

lemma Tracked.node {c : Nat} (h : s.Tracked p x c) (hp : p.pc.plain = true) :
    ∃ ctx ∈ s.ctable, ctx.id = c ∧ x.2.stop = x.2.start + ctx.bytes ∧ ⟨x.1,x.2.id⟩ ∈ ctx.rmap := by
  obtain ⟨ctx,hctx,hid,hsize,hn | ⟨t,ht⟩ | ⟨rest,hr⟩⟩ := h
  · exact ⟨ctx,hctx,hid,hsize,hn⟩
  · simp [ht,Pc.plain] at hp
  · simp [hr,Pc.plain] at hp

lemma Tracked.of_plain {c : Nat} (h : s.Tracked p x c) (hp : p.pc.plain = true)
    (hct : s'.ctable = s.ctable) : s'.Tracked p' x c := by
  obtain ⟨ctx,hctx,hid,hsize,hn⟩ := h.node hp
  exact ⟨ctx,hct ▸ hctx,hid,hsize,.inl hn⟩

lemma mem_setContext {d : Smemcontext} (c' : Smemcontext) (hi : s.Inv) (hc : c ∈ s.ctable) (hid : c'.id = c.id) :
    d ∈ (s.setContext c').ctable ↔ d = c' ∨ (d ∈ s.ctable ∧ d.id ≠ c.id) := by
  rw [setContext,hi.ctxIds.mem_modify hc hid.symm,hid]

structure NewRegion (as as' : Addrspace) (r : Memregion) (id size : Nat) (store : Option Nat) (shared : Bool) :
    Prop where
  id : r.id = id
  store : r.store = store
  shared : r.shared = shared
  stop : r.stop = r.start + size
  placed : Placed r
  regions : as'.regions = listAppendOrdered memregionComparator as.regions r
  heap : as'.heap = as.heap
  apart : ∀ y ∈ as.regions, y.stop ≤ r.start ∨ r.stop ≤ y.start

lemma newRegion {addr : Nat} {perm : Memperm} {ofs : Nat} (haddr : addr < 2^64) (hsize : size < 2^64)
    (h : as.memregionMapInternal id addr size perm store ofs shared alloc = some (as',some r)) :
    NewRegion as as' r id size store shared ∧ r.perm = perm ∧ r.ofs = ofs ∧
      (addr ≠ addrAnywhere → r.start = addr) := by
  rcases Addrspace.memregionMapInternal_cases haddr hsize h with ⟨_,hn⟩ | ⟨a,ho,hins⟩
  · simp at hn
  · cases ho
    have hb := hins.placed.bounded
    have ha : a < 2^64 := hb.trans_lt hins.placed.word
    simp only at hb
    refine ⟨⟨rfl,rfl,rfl,?_,hins.placed,?_,?_,?_⟩,rfl,rfl,hins.start⟩
    · simp only [u64] at hb ⊢
      omega
    · rw [hins.space]
    · rw [hins.space]
    · intro y hy
      have := hins.free y hy
      simp only at this ⊢
      omega

lemma NewRegion.perm (h : NewRegion as as' r id size store shared) : as'.regions.Perm (r :: as.regions) :=
  h.regions ▸ listAppendOrdered_perm _ _ _

lemma NewRegion.all {as as' : Addrspace} {r : Memregion} {id size : Nat} {store : Option Nat} {shared : Bool}
    {P : Memregion → Prop} (h : NewRegion as as' r id size store shared) (hr : P r) (hold : ∀ x ∈ as.regions, P x) :
    ∀ x ∈ as'.regions, P x :=
  fun x hx => List.forall_mem_cons.mpr ⟨hr,hold⟩ x (h.perm.mem_iff.mp hx)

lemma unmapInternal_sublist (as : Addrspace) (id : Nat) :
    (as.memregionUnmapInternal id).regions.Sublist as.regions := List.eraseP_sublist

structure Within (as' as : Addrspace) : Prop where
  regions : ∀ r ∈ as'.regions, r ∈ as.regions
  heap : ∀ id, as'.heap = some id → as.heap = some id

lemma Within.refl (as : Addrspace) : Within as as := ⟨fun _ h => h,fun _ h => h⟩

lemma ProcInv.shrink (h : s.ProcInv p) (hnext : s.next ≤ s'.next) (hsub : p'.regions.Sublist p.regions)
    (hspaces : ∀ e' ∈ p'.spaces, ∃ e ∈ p.spaces, Within e'.2 e.2)
    (htracked : ∀ x ∈ p'.regions, ∀ c, x.2.store = some c → s'.Tracked p' x c)
    (howned : ∀ x ∈ p'.regions, ∀ c ∈ s'.ctable, ⟨x.1,x.2.id⟩ ∈ c.rmap → x.2.store = some c.id)
    (hheld : ∀ c, p'.pc.holds c = true → ∃ ctx ∈ s'.ctable, ctx.id = c) (hpc : s'.PcInv p') : s'.ProcInv p' := by
  have hin : ∀ x ∈ p'.regions, x ∈ p.regions := fun x hx => hsub.subset hx
  refine ⟨h.ids.sublist (hsub.map _),fun x hx => h.aligned x (hin x hx),fun x hx => h.words x (hin x hx),
    fun x hx => (h.below x (hin x hx)).trans_le hnext,fun x hx => h.stored x (hin x hx),htracked,howned,?_,?_,
    hheld,hpc⟩
  · intro e' he' r hr r' hr'
    obtain ⟨e,he,hw⟩ := hspaces e' he'
    exact h.disjoint e he r (hw.regions r hr) r' (hw.regions r' hr')
  · intro e' he' id hid
    obtain ⟨e,he,hw⟩ := hspaces e' he'
    obtain ⟨hlt,hpriv⟩ := h.heap e he id (hw.heap id hid)
    exact ⟨hlt.trans_le hnext,fun r hr => hpriv r (hw.regions r hr)⟩

lemma ProcInv.settle (h : s.ProcInv p) (hplain : p.pc.plain = true) (hct : s'.ctable = s.ctable)
    (hnext : s.next ≤ s'.next) (hsub : p'.regions.Sublist p.regions)
    (hspaces : ∀ e' ∈ p'.spaces, ∃ e ∈ p.spaces, Within e'.2 e.2)
    (hholds : ∀ c, p'.pc.holds c = true → p.pc.holds c = true) (hpc : s'.PcInv p') : s'.ProcInv p' := by
  refine h.shrink hnext hsub hspaces ?_ ?_ ?_ hpc
  · exact fun x hx c hc => (h.tracked x (hsub.subset hx) c hc).of_plain hplain hct
  · exact fun x hx c hc => h.owned x (hsub.subset hx) c (hct ▸ hc)
  · exact fun c hc => hct ▸ h.held c (hholds c hc)

lemma ProcInv.grow (h : s.ProcInv p) (hnext : s.next < s'.next) (he : e ∈ p.spaces)
    (hnew : NewRegion e.2 as' r s.next size store shared) (hst : shared = store.isSome)
    (hperm : p'.regions.Perm ((e.1,r) :: p.regions))
    (hspaces : ∀ e' ∈ p'.spaces, e' ∈ p.spaces ∨ (e'.2.regions = as'.regions ∧
      ∀ id, e'.2.heap = some id → e.2.heap = some id ∨ (id = s.next ∧ shared = false)))
    (htracked : ∀ x ∈ p'.regions, ∀ c, x.2.store = some c → s'.Tracked p' x c)
    (howned : ∀ x ∈ p'.regions, ∀ c ∈ s'.ctable, ⟨x.1,x.2.id⟩ ∈ c.rmap → x.2.store = some c.id)
    (hheld : ∀ c, p'.pc.holds c = true → ∃ ctx ∈ s'.ctable, ctx.id = c) (hpc : s'.PcInv p') :
    s'.ProcInv p' := by
  have hall : ∀ {P : Nat × Memregion → Prop}, P (e.1,r) → (∀ x ∈ p.regions, P x) → ∀ x ∈ p'.regions, P x :=
    fun hr hold x hx => List.forall_mem_cons.mpr ⟨hr,hold⟩ x (hperm.mem_iff.mp hx)
  refine ⟨?_,hall hnew.placed.aligned h.aligned,
    hall ⟨hnew.placed.bounded.trans_lt hnew.placed.word,hnew.placed.word⟩ h.words,
    hall (hnew.id ▸ hnext) fun x hx => (h.below x hx).trans hnext,
    hall (by rw [hnew.shared,hnew.store,hst]) h.stored,htracked,howned,?_,?_,hheld,hpc⟩
  · rw [(hperm.map _).nodup_iff,map_cons,nodup_cons]
    refine ⟨fun hin => ?_,h.ids⟩
    obtain ⟨x,hx,hid⟩ := mem_map.mp hin
    have := h.below x hx
    rw [hid,hnew.id] at this
    exact absurd this (lt_irrefl _)
  · intro e' he' a ha b hb hsa hsb hne
    rcases hspaces e' he' with hold | ⟨hregions,-⟩
    · exact h.disjoint e' hold a ha b hb hsa hsb hne
    · rw [hregions,hnew.regions,mem_listAppendOrdered] at ha hb
      rcases ha with rfl | ha <;> rcases hb with rfl | hb
      · exact absurd rfl hne
      · exact (hnew.apart b hb).symm
      · exact hnew.apart a ha
      · exact h.disjoint e he a ha b hb hsa hsb hne
  · intro e' he' id hid
    rcases hspaces e' he' with hold | ⟨hregions,hheap⟩
    · obtain ⟨hlt,hpriv⟩ := h.heap e' hold id hid
      exact ⟨hlt.trans hnext,hpriv⟩
    · rw [hregions,hnew.regions]
      rcases hheap id hid with hold | ⟨rfl,hsh⟩
      · obtain ⟨hlt,hpriv⟩ := h.heap e he id hold
        refine ⟨hlt.trans hnext,fun x hx hxid => ?_⟩
        rcases mem_listAppendOrdered .. |>.mp hx with rfl | hx
        · rw [hnew.id] at hxid
          omega
        · exact hpriv x hx hxid
      · refine ⟨hnext,fun x hx hxid => ?_⟩
        rcases mem_listAppendOrdered .. |>.mp hx with rfl | hx
        · rw [hnew.shared,hsh]
        · have := h.below (e.1,x) (Proc.mem_regions.mpr ⟨e.2,he,hx⟩)
          simp only at this
          omega

lemma proc_mem (h : s.proc pid = some p) : p ∈ s.procs ∧ p.pid = pid := lookup_some h

lemma getContext_mem {m : Option Nat} (h : s.getContextByHandle name m = some c) : c ∈ s.ctable ∧ c.name = name := by
  simp only [getContextByHandle] at h
  split at h
  · cases h
  · rename_i d hd
    have hd' : d ∈ s.ctable ∧ d.name = name :=
      ⟨List.mem_of_find?_eq_some hd,by simpa using List.find?_some hd⟩
    cases m with
    | none =>
      cases h
      exact hd'
    | some as =>
      simp only at h
      split at h
      · cases h
        exact hd'
      · cases h

lemma Inv.addContext (hi : s.Inv) (hp : s'.procs = s.procs) (hn : s'.next = s.next + 1)
    (hc : c.id = s.next ∧ c.rmap = [] ∧ c.refcnt = 0) (hct : s'.ctable = s.ctable ++ [c]) : s'.Inv := by
  have hle : s.next ≤ s'.next := by omega
  have hfly : s.inFlight s.next = 0 := by
    refine List.sum_eq_zero fun n hn => ?_
    obtain ⟨p,hp,rfl⟩ := mem_map.mp hn
    cases hh : p.pc.holds s.next with
    | false => rfl
    | true =>
      obtain ⟨ctx,hctx,hid⟩ := (hi.proc p hp).held _ hh
      exact absurd ((hi.ctx ctx hctx).below) (by omega)
  have hids : Distinct Smemcontext.id s'.ctable := by
    rw [hct]
    refine hi.ctxIds.append fun b hb => ?_
    have := (hi.ctx b hb).below
    omega
  refine ⟨hp ▸ hi.spaceIds,fun p hq i h => ((hi.spaceLt p (hp ▸ hq) i h).trans_le hle),hids,?_,?_⟩
  · intro d hd
    rw [hct,mem_append,mem_singleton] at hd
    rcases hd with hd | rfl
    · exact (hi.ctx d hd).mono hle (inFlight_congr hp _)
    · refine ⟨by omega,by simp [hc.2.1],by simp [hc.2.1],?_⟩
      rw [inFlight_congr hp,hc.1,hfly,hc.2.1,hc.2.2]
      rfl
  · intro q hq
    refine (hi.proc q (hp ▸ hq)).frame hids ⟨hle,fun d hd _ => ⟨d,?_,rfl,rfl,fun _ _ => Iff.rfl⟩,?_⟩
    · rw [hct]
      exact List.mem_append_left _ hd
    · intro d hd n hn _
      rw [hct,mem_append,mem_singleton] at hd
      rcases hd with hd | rfl
      · exact ⟨d,hd,rfl,hn⟩
      · simp [hc.2.1] at hn

lemma Inv.removeContext (hi : s.Inv) (hno : ∀ p ∈ s.procs, ¬ p.refers c.id) :
    Inv { s with ctable := remove Smemcontext.id c.id s.ctable } := by
  have hids := hi.ctxIds.remove (k := c.id)
  refine ⟨hi.spaceIds,hi.spaceLt,hids,?_,?_⟩
  · intro d hd
    exact (hi.ctx d (mem_remove.mp hd).1).mono le_rfl rfl
  · intro q hq
    refine (hi.proc q hq).frame hids ⟨le_rfl,fun d hd href => ?_,fun d hd n hn _ => ?_⟩
    · have hne : d.id ≠ c.id := fun h => hno q hq (h ▸ href)
      exact ⟨d,mem_remove.mpr ⟨hd,hne⟩,rfl,rfl,fun _ _ => Iff.rfl⟩
    · exact ⟨d,(mem_remove.mp hd).1,rfl,hn⟩

lemma Inv.addProc (hi : s.Inv) (hp : s'.procs = s.procs ++ [q]) (hct : s'.ctable = s.ctable)
    (hle : s.next ≤ s'.next) (hnodup : q.spaceIds.Nodup)
    (hfresh : ∀ i ∈ q.spaceIds, i < s'.next ∧ ∀ p ∈ s.procs, i ∉ p.spaceIds)
    (hholds : ∀ c, q.pc.holds c = false) (hq : s'.ProcInv q) : s'.Inv := by
  refine ⟨?_,?_,hct ▸ hi.ctxIds,?_,?_⟩
  · rw [hp,List.flatMap_append,List.flatMap_singleton]
    refine List.nodup_append.mpr ⟨hi.spaceIds,hnodup,fun i hin j hj => ?_⟩
    rintro rfl
    obtain ⟨p,hpm,hip⟩ := List.mem_flatMap.mp hin
    exact (hfresh i hj).2 p hpm hip
  · intro p hpm i h
    rw [hp,mem_append,mem_singleton] at hpm
    rcases hpm with hpm | rfl
    · exact (hi.spaceLt p hpm i h).trans_le hle
    · exact (hfresh i h).1
  · intro c hc
    refine (hi.ctx c (hct ▸ hc)).mono hle ?_
    simp [inFlight,hp,hholds]
  · intro p hpm
    rw [hp,mem_append,mem_singleton] at hpm
    rcases hpm with hpm | rfl
    · exact (hi.proc p hpm).frame (hct ▸ hi.ctxIds) (.same p hle hct)
    · exact hq

lemma createSharedRegion_inv {n : Int} {flag : Nat} (hi : s.Inv) (h : s.createSharedRegion name n flag alloc = some out) : out.shm.Inv := by
  simp only [createSharedRegion,fail,done] at h
  split_ifs at h <;> cases h
  · exact hi
  · exact hi.addContext rfl rfl ⟨rfl,rfl,rfl⟩ rfl
  · exact hi

lemma destroySharedRegionInternal_inv {force : Bool} (hi : s.Inv) (hc : c ∈ s.ctable)
    (h : s.destroySharedRegionInternal c force = some out) : out.shm.Inv := by
  simp only [destroySharedRegionInternal,fail,done] at h
  split_ifs at h with hz hf hn
  · cases h
    exact hi
  · cases h
    exact hi
  · cases h
    exact hi.removeContext (hi.unreferenced hc (not_not.mp hz)).2

lemma destroySharedRegion_inv (hi : s.Inv) (h : s.destroySharedRegion name = some out) : out.shm.Inv := by
  simp only [destroySharedRegion] at h
  split at h
  · cases h
    exact hi
  · rename_i c hc
    exact destroySharedRegionInternal_inv hi (getContext_mem hc).1 h

lemma mem_unmapInternal (hids : (as.regions.map Memregion.id).Nodup) :
    r ∈ (as.memregionUnmapInternal id).regions ↔ r ∈ as.regions ∧ r.id ≠ id :=
  Distinct.mem_eraseP hids

lemma NewRegion.unmap (h : NewRegion as as' r id size store shared) (hfresh : ∀ y ∈ as.regions, y.id ≠ id) :
    (as'.memregionUnmapInternal r.id).regions = as.regions := by
  simp only [Addrspace.memregionUnmapInternal,h.regions]
  refine eraseP_listAppendOrdered _ _ _ (by simp) fun y hy => ?_
  simpa [h.id] using hfresh y hy

lemma ProcInv.target_ids (h : s.ProcInv p) (he : e ∈ p.spaces) : (e.2.regions.map Memregion.id).Nodup := by
  have hsub : (e.2.regions.map Memregion.id).Sublist (p.regions.map fun x => x.2.id) := by
    simp only [Proc.regions,List.map_flatMap,map_map]
    exact List.sublist_flatten_of_mem (mem_map.mpr ⟨e,he,by simp [comp_def]⟩)
  exact h.ids.sublist hsub

lemma bytes_lt (c : Smemcontext) : c.bytes < 2^64 := by
  simp only [Smemcontext.bytes,sizeT]
  omega

lemma Inv.user_embryo (hi : s.Inv) (hp : p ∈ s.procs) (hpc : p.pc = .user) : p.embryo = none := by
  simpa [PcInv,hpc] using (hi.proc p hp).pc

lemma caller_mem (h : s.caller pid = some p) : p ∈ s.procs ∧ p.pc = .user := by
  simp only [caller,Run.bind_some] at h
  obtain ⟨q,hq,h⟩ := h
  split_ifs at h with hpc
  cases h
  exact ⟨(proc_mem hq).1,hpc⟩

section nodes
variable {n : Pid2mem} {ctx d : Smemcontext} {m : Pid2mem}

def addNode (c : Smemcontext) (n : Pid2mem) : Smemcontext :=
  { c with rmap := c.rmap ++ [n], refcnt := c.refcnt + 1 }

lemma Inv.addNode (p' : Proc) (hi : s.Inv) (hp : p ∈ s.procs) (hpid : p'.pid = p.pid)
    (hprocs : s'.procs = (s.setProc p').procs) (hc : c ∈ s.ctable)
    (hct : s'.ctable = (s.setContext (addNode c n)).ctable) (hle : s.next ≤ s'.next)
    (hids : p'.spaceIds = p.spaceIds) (hholds : ∀ x, p'.pc.holds x = p.pc.holds x) (hn : n.as ∈ p.spaceIds)
    (hmr : n.mr < s'.next) (hno : n ∉ c.rmap) (hp' : s'.ProcInv p') : s'.Inv := by
  have hci := hi.ctx c hc
  refine hi.updateCtx p' (Shm.addNode c n) hp hpid hprocs hc rfl hct hle (hids ▸ hi.spaceIds_nodup hp) (fun i h => hids ▸ h)
    (fun x _ => hholds x) rfl ?_ ?_ hp'
  · intro m hm
    have hne : m ≠ n := fun he => hm (he ▸ hn)
    simp [Shm.addNode,hne]
  · refine ⟨hci.below.trans_le hle,?_,?_,?_⟩
    · refine List.nodup_append.mpr ⟨hci.nodup,by simp,?_⟩
      rintro m hm _ hn' rfl
      exact hno (mem_singleton.mp hn' ▸ hm)
    · intro m hm
      rcases mem_append.mp hm with hm | hm
      · exact (hci.nodes m hm).trans_le hle
      · exact mem_singleton.mp hm ▸ hmr
    · have hfly := inFlight_setProc hi.pids hp hpid c.id
      have hcount := hci.refcnt
      rw [hholds] at hfly
      rw [inFlight_congr hprocs]
      simp only [Shm.addNode,List.length_append,List.length_singleton]
      omega

lemma addNode_keeps (hi : s.Inv) (hc : c ∈ s.ctable) (hct : s'.ctable = (s.setContext (addNode c n)).ctable) (h : ctx ∈ s.ctable) (hm : m ∈ ctx.rmap) :
    ∃ ctx' ∈ s'.ctable, ctx'.id = ctx.id ∧ ctx'.bytes = ctx.bytes ∧ m ∈ ctx'.rmap := by
  have hmem := fun d => mem_setContext (d := d) (addNode c n) hi hc rfl
  rw [hct]
  by_cases hcc : ctx.id = c.id
  · obtain rfl := hi.ctxIds.eq h hc hcc
    exact ⟨_,(hmem _).mpr (.inl rfl),rfl,rfl,List.mem_append_left _ hm⟩
  · exact ⟨ctx,(hmem _).mpr (.inr ⟨h,hcc⟩),rfl,rfl,hm⟩

lemma addNode_cases (hi : s.Inv) (hc : c ∈ s.ctable) (hct : s'.ctable = (s.setContext (addNode c n)).ctable) (h : d ∈ s'.ctable) (hm : m ∈ d.rmap) :
    (d.id = c.id ∧ m = n) ∨ ∃ ctx ∈ s.ctable, ctx.id = d.id ∧ m ∈ ctx.rmap := by
  rw [hct,mem_setContext (addNode c n) hi hc rfl] at h
  rcases h with rfl | ⟨h,-⟩
  · rcases mem_append.mp hm with hm | hm
    · exact .inr ⟨c,hc,rfl,hm⟩
    · exact .inl ⟨rfl,mem_singleton.mp hm⟩
  · exact .inr ⟨d,h,rfl,hm⟩

lemma Inv.dropNode (p' : Proc) (hi : s.Inv) (hp : p ∈ s.procs) (hpid : p'.pid = p.pid)
    (hprocs : s'.procs = (s.setProc p').procs) (hc : c ∈ s.ctable)
    (hct : s'.ctable = (s.setContext { c with rmap := c.rmap.erase n }).ctable) (hle : s.next ≤ s'.next)
    (hids : p'.spaceIds = p.spaceIds) (hplain : ∀ x, p.pc.holds x = false)
    (hholds : ∀ x, p'.pc.holds x = (c.id == x)) (hn : n.as ∈ p.spaceIds) (hin : n ∈ c.rmap)
    (hp' : s'.ProcInv p') : s'.Inv := by
  have hci := hi.ctx c hc
  refine hi.updateCtx p' { c with rmap := c.rmap.erase n } hp hpid hprocs hc rfl hct hle (hids ▸ hi.spaceIds_nodup hp) (fun i h => hids ▸ h)
    ?_ rfl ?_ ?_ hp'
  · intro x hx
    simpa [hholds,hplain] using hx.symm
  · intro m hm
    have hne : m ≠ n := fun he => hm (he ▸ hn)
    simp [List.mem_erase_of_ne hne]
  · refine ⟨hci.below.trans_le hle,hci.nodup.erase _,
      fun m hm => (hci.nodes m (List.mem_of_mem_erase hm)).trans_le hle,?_⟩
    have hfly := inFlight_setProc hi.pids hp hpid c.id
    have hcount := hci.refcnt
    have hlen := List.length_erase_of_mem hin
    have hpos := List.length_pos_of_mem hin
    rw [hholds,hplain] at hfly
    rw [inFlight_congr hprocs]
    simp only [beq_self_eq_true,Bool.toNat_true,Bool.toNat_false] at hfly
    simp only
    omega

lemma dropNode_keeps (hi : s.Inv) (hc : c ∈ s.ctable)
    (hct : s'.ctable = (s.setContext { c with rmap := c.rmap.erase n }).ctable) (h : ctx ∈ s.ctable) :
    ∃ ctx' ∈ s'.ctable, ctx'.id = ctx.id ∧ ctx'.bytes = ctx.bytes ∧
      ∀ m ∈ ctx.rmap, m ≠ n ∨ ctx.id ≠ c.id → m ∈ ctx'.rmap := by
  have hmem := fun d => mem_setContext (d := d) { c with rmap := c.rmap.erase n } hi hc rfl
  rw [hct]
  by_cases hcc : ctx.id = c.id
  · obtain rfl := hi.ctxIds.eq h hc hcc
    refine ⟨_,(hmem _).mpr (.inl rfl),rfl,rfl,fun m hm hne => ?_⟩
    exact (List.mem_erase_of_ne (hne.resolve_right (not_not.mpr rfl))).mpr hm
  · exact ⟨ctx,(hmem _).mpr (.inr ⟨h,hcc⟩),rfl,rfl,fun m hm _ => hm⟩

lemma dropNode_cases (hi : s.Inv) (hc : c ∈ s.ctable)
    (hct : s'.ctable = (s.setContext { c with rmap := c.rmap.erase n }).ctable) (h : d ∈ s'.ctable) (hm : m ∈ d.rmap) :
    (d.id = c.id → m ≠ n) ∧ ∃ ctx ∈ s.ctable, ctx.id = d.id ∧ m ∈ ctx.rmap := by
  rw [hct,mem_setContext { c with rmap := c.rmap.erase n } hi hc rfl] at h
  rcases h with rfl | ⟨h,hne⟩
  · have hm' := (hi.ctx c hc).nodup.mem_erase_iff.mp hm
    exact ⟨fun _ => hm'.1,c,hc,rfl,hm'.2⟩
  · exact ⟨fun he => absurd he hne,d,h,rfl,hm⟩

end nodes

variable {name : List Nat} {out : Outcome} {vaddr : Nat} {as : Addrspace} {n : Pid2mem} {r : Memregion}

lemma createMapping_inv {alloc node : Bool} (hi : s.Inv) (hp : p ∈ s.procs)
    (hpc : p.pc = .user) (h : s.createMapping p name alloc node = some out) : out.shm.Inv := by
  have hemb := hi.user_embryo hp hpc
  have hplain : p.pc.plain = true := by simp [hpc,Pc.plain]
  have hpi := hi.proc p hp
  have htarget : target p true = some (p.pid,p.as) := rfl
  simp only [createMapping] at h
  split at h
  · cases h
    exact hi
  rename_i c hget
  have hc := (getContext_mem hget).1
  simp only [Run.bind_some,Prod.exists] at h
  obtain ⟨as,mr,hmap,h⟩ := h
  cases mr with
  | none =>
    cases h
    exact hi
  | some r =>
    obtain ⟨hnew,-⟩ := newRegion (by decide) (bytes_lt c) hmap
    have hperm := setTarget_regions_perm htarget hnew.perm
    have hfresh : ∀ d ∈ s.ctable, ∀ a, ⟨a,r.id⟩ ∉ d.rmap := fun d hd a hn =>
      absurd ((hi.ctx d hd).nodes _ hn) (by simp [hnew.id])
    cases node with
    | true =>
      cases h
      have hct : ((s.setProc { p with as := as }).addRmapping c p.pid r.id).ctable =
        (s.setContext (addNode c ⟨p.pid,r.id⟩)).ctable := rfl
      refine hi.addNode (setTarget p true as) hp rfl rfl hc hct (le_succ _) rfl
        (fun _ => rfl) (space_mem p) (hnew.id ▸ lt_succ_self _) (hfresh c hc _) ?_
      refine hpi.grow (lt_succ_self _) (target_mem htarget) hnew rfl hperm ?_ ?_ ?_ ?_ ?_
      · intro e he
        rcases setTarget_spaces htarget he with rfl | he
        · exact .inr ⟨rfl,fun id hid => .inl (hnew.heap ▸ hid)⟩
        · exact .inl he
      · intro x hx d hd
        rcases mem_cons.mp (hperm.mem_iff.mp hx) with rfl | hx
        · obtain rfl : c.id = d := by simpa [hnew.store] using hd
          exact ⟨addNode c ⟨p.pid,r.id⟩,(mem_setContext (addNode c _) hi hc rfl).mpr (.inl rfl),rfl,
            hnew.stop,.inl (List.mem_append_right _ (mem_singleton.mpr rfl))⟩
        · obtain ⟨ctx,hctx,hid,hsize,hn⟩ := (hpi.tracked x hx d hd).node hplain
          obtain ⟨ctx',hctx',hid',hb,hn⟩ := addNode_keeps hi hc hct hctx hn
          exact ⟨ctx',hctx',hid'.trans hid,hb ▸ hsize,.inl hn⟩
      · intro x hx d hd hn
        rcases mem_cons.mp (hperm.mem_iff.mp hx) with rfl | hx
        · rcases addNode_cases hi hc hct hd hn with ⟨hid,-⟩ | ⟨ctx,hctx,-,hn⟩
          · exact hid ▸ hnew.store
          · exact absurd hn (hfresh ctx hctx _)
        · rcases addNode_cases hi hc hct hd hn with ⟨-,he⟩ | ⟨ctx,hctx,hid,hn⟩
          · have hid : x.2.id = s.next := by simpa [hnew.id] using congrArg Pid2mem.mr he
            exact absurd (hpi.below x hx) (by omega)
          · exact hid ▸ hpi.owned x hx ctx hctx hn
      · simp [setTarget,hpc,Pc.holds]
      · simp [PcInv,setTarget,hpc,hemb]
    | false =>
      cases h
      have hregions := hnew.unmap fun y hy => (hpi.below _ (own_region hy)).ne
      have hsub := setTarget_regions_sublist htarget
        (show (as.memregionUnmapInternal r.id).regions.Sublist p.as.regions by rw [hregions])
      have hnodup := hi.spaceIds_nodup hp
      refine hi.updateLocal (setTarget p true (as.memregionUnmapInternal r.id)) hp rfl rfl rfl
        (le_succ _) hnodup (fun i h => .inl h) (fun _ => rfl) ?_
      refine hpi.settle hplain rfl (le_succ _) hsub ?_ (fun _ h => h) ?_
      · intro e he
        rcases setTarget_spaces htarget he with rfl | he
        · exact ⟨_,target_mem htarget,fun r hr => hregions ▸ hr,fun id hid => hnew.heap ▸ hid⟩
        · exact ⟨e,he,.refl _⟩
      · simp [PcInv,setTarget,hpc,hemb]

lemma findRemove_some {pid : Nat} {t : Shm} (h : s.findRemoveRmapping c pid as vaddr = some (t,n)) :
    t = s.setContext { c with rmap := c.rmap.erase n } ∧ n ∈ c.rmap ∧ n.as = pid ∧
      ∃ r ∈ as.regions, r.id = n.mr ∧ r.start ≤ vaddr ∧ vaddr < r.stop := by
  simp only [findRemoveRmapping] at h
  split at h
  · cases h
  · rename_i m hm
    obtain ⟨rfl,rfl⟩ := Prod.mk.inj (some_inj.mp h)
    have hcond := List.find?_some hm
    simp only [Bool.and_eq_true,beq_iff_eq,holdsAddr] at hcond
    obtain ⟨has,hold⟩ := hcond
    split at hold
    · cases hold
    · rename_i r hr
      simp only [Bool.and_eq_true,decide_eq_true_eq] at hold
      have hid : r.id = m.mr := by simpa using List.find?_some hr
      exact ⟨rfl,List.mem_of_find?_eq_some hm,has,r,List.mem_of_find?_eq_some hr,hid,hold.1,hold.2⟩

lemma startUnmap {own : Bool} {e : Nat × Addrspace} {t : Option (Bool × List Memregion)} (hi : s.Inv) (hp : p ∈ s.procs) (hplain : p.pc.plain = true)
    (hholds : ∀ x, p.pc.holds x = false) (hc : c ∈ s.ctable) (he : target p own = some e)
    (hown : own = t.elim true Prod.fst) (hr : r ∈ e.2.regions) (hin : n ∈ c.rmap) (hn : n = ⟨e.1,r.id⟩)
    (hresume : Resumes p t) (hrest : ∀ x ∈ t, r.id ∉ x.2.map Memregion.id) :
    ((s.setContext { c with rmap := c.rmap.erase n }).setProc { p with pc := .unmapping c.id r.id t }).Inv := by
  have hpi := hi.proc p hp
  have hx := target_region he hr
  have hst : r.store = some c.id := hpi.owned _ hx c hc (hn ▸ hin)
  have hct : ((s.setContext { c with rmap := c.rmap.erase n }).setProc
    { p with pc := .unmapping c.id r.id t }).ctable = (s.setContext { c with rmap := c.rmap.erase n }).ctable := rfl
  refine hi.dropNode { p with pc := .unmapping c.id r.id t } hp rfl rfl hc hct le_rfl rfl hholds
    (fun _ => rfl) (hn ▸ spaceIds_of_regions hx) hin ?_
  refine hpi.shrink le_rfl (List.Sublist.refl _) (fun e he => ⟨e,he,.refl _⟩) ?_ ?_ ?_ ?_
  · intro x hx d hd
    obtain ⟨ctx,hctx,hid,hsize,hnode⟩ := (hpi.tracked x hx d hd).node hplain
    obtain ⟨ctx',hctx',hid',hb,hkeep⟩ := dropNode_keeps hi hc hct hctx
    refine ⟨ctx',hctx',hid'.trans hid,hb ▸ hsize,?_⟩
    by_cases hne : (⟨x.1,x.2.id⟩ : Pid2mem) ≠ n ∨ ctx.id ≠ c.id
    · exact .inl (hkeep _ hnode hne)
    · push Not at hne
      refine .inr (.inl ⟨t,?_⟩)
      have hxr : x.2.id = r.id := by simpa [hn] using congrArg Pid2mem.mr hne.1
      rw [hxr,← hid,hne.2]
  · intro x hx d hd hnode
    obtain ⟨-,ctx,hctx,hid,hnode⟩ := dropNode_cases hi hc hct hd hnode
    exact hid ▸ hpi.owned x hx ctx hctx hnode
  · intro d hd
    obtain ⟨c',hc',hid',-⟩ := dropNode_keeps hi hc hct hc
    exact ⟨c',hc',hid'.trans (by simpa [Pc.holds] using hd)⟩
  · refine ⟨⟨?_,hrest⟩,e,hown ▸ he,r,hr,rfl,hst,?_⟩
    · cases t with
      | none => exact hresume
      | some t => exact hresume
    · intro ctx hctx hid hnode
      exact (dropNode_cases hi hc hct hctx hnode).1 hid hn.symm

section
variable (hi : s.Inv) (hp : p ∈ s.procs) (hpc : p.pc = .user)
include hi hp hpc

lemma destroyMapping_inv (h : s.destroyMapping p name vaddr = some out) : out.shm.Inv := by
  simp only [destroyMapping] at h
  split at h
  · cases h
    exact hi
  rename_i c hget
  split at h
  · cases h
    exact hi
  rename_i t n hfind
  obtain ⟨rfl,hin,has,r,hr,hid,-⟩ := findRemove_some hfind
  cases h
  have hn : n = ⟨p.pid,r.id⟩ := by
    rw [← has,hid]
  rw [← hid]
  exact startUnmap hi hp (by simp [hpc,Pc.plain]) (by simp [hpc,Pc.holds]) (getContext_mem hget).1
    (rfl : target p true = some (p.pid,p.as)) rfl hr hin hn (hi.user_embryo hp hpc) (by simp)

lemma fork_inv (h : s.fork p = some out) : out.shm.Inv := by
  cases h
  have hemb := hi.user_embryo hp hpc
  have hlt := hi.spaceLt p hp
  refine hi.updateLocal { p with embryo := some (s.next,⟨false,[],none⟩), pc := .forking p.as.regions } hp rfl
    rfl rfl (le_succ _) ?_ ?_ (by simp [hpc,Pc.holds]) ?_
  · simpa [Proc.spaceIds,Proc.spaces] using (hlt _ (space_mem p)).ne
  · intro i hin
    simp only [Proc.spaceIds,Proc.spaces,toList_some,map_cons,List.map_nil,mem_cons,
      List.not_mem_nil,or_false] at hin
    rcases hin with rfl | rfl
    · exact .inl (space_mem p)
    · exact .inr ⟨le_rfl,lt_succ_self _⟩
  · refine (hi.proc p hp).settle (by simp [hpc,Pc.plain]) rfl (le_succ _) ?_ ?_ (by simp [Pc.holds]) ?_
    · simp [Proc.regions,Proc.spaces,hemb]
    · intro e he
      simp only [Proc.spaces,toList_some,mem_cons,List.not_mem_nil,or_false] at he
      rcases he with rfl | rfl
      · exact ⟨_,mem_cons_self,.refl _⟩
      · exact ⟨(p.pid,p.as),mem_cons_self,fun r hr => by simp at hr,fun id hid => by simp at hid⟩
    · exact ⟨rfl,fun r hr => hr⟩

lemma exit_inv (h : s.exit p = some out) : out.shm.Inv := by
  cases h
  have hpi := hi.proc p hp
  have hnodup := hi.spaceIds_nodup hp
  have hemb := hi.user_embryo hp hpc
  refine hi.updateLocal { p with pc := .tearing true p.as.regions } hp rfl rfl rfl le_rfl
    hnodup (fun i h => .inl h) (by simp [hpc,Pc.holds]) ?_
  refine hpi.settle (by simp [hpc,Pc.plain]) rfl le_rfl (List.Sublist.refl _)
    (fun e he => ⟨e,he,.refl _⟩) (by simp [Pc.holds]) ?_
  exact ⟨fun _ => hemb,_,rfl,fun r hr => hr,hpi.target_ids mem_cons_self⟩

end

lemma unmapInternal_perm (hids : (as.regions.map Memregion.id).Nodup)
    (hr : r ∈ as.regions) : as.regions.Perm (r :: (as.memregionUnmapInternal r.id).regions) := by
  obtain ⟨a,l1,l2,-,ha,heq,herase⟩ := List.exists_of_eraseP hr (p := fun x => x.id == r.id) (by simp)
  obtain rfl : a = r := List.inj_on_of_nodup_map hids (heq ▸ by simp) hr (by simpa using ha)
  simp only [Addrspace.memregionUnmapInternal]
  rw [herase,heq]
  exact List.perm_middle

section teardown
variable {own : Bool} {e : Nat × Addrspace} {r : Memregion}

lemma setTarget_restore {as' : Addrspace} (he : target p own = some e) :
    setTarget (setTarget p own as') own e.2 = p := by
  cases own with
  | true =>
    obtain rfl : (p.pid,p.as) = e := by simpa [target] using he
    rfl
  | false =>
    have h : p.embryo = some e := by simpa [target] using he
    obtain ⟨pid,as,embryo,pc⟩ := p
    simp only at h
    subst h
    rfl

lemma ProcInv.unlink_perm (h : s.ProcInv p) (he : target p own = some e) (hr : r ∈ e.2.regions) :
    p.regions.Perm ((e.1,r) :: (setTarget p own (e.2.memregionUnmapInternal r.id)).regions) := by
  have hperm := setTarget_regions_perm (target_setTarget _ he)
    (unmapInternal_perm (h.target_ids (target_mem he)) hr)
  rw [setTarget_restore he] at hperm
  exact hperm

lemma ProcInv.unlinked (h : s.ProcInv p) (he : target p own = some e) (hr : r ∈ e.2.regions)
    {x : Nat × Memregion} (hx : x ∈ (setTarget p own (e.2.memregionUnmapInternal r.id)).regions) :
    x ∈ p.regions ∧ x.2.id ≠ r.id := by
  have hperm := h.unlink_perm he hr
  refine ⟨hperm.mem_iff.mpr (List.mem_cons_of_mem _ hx),fun hid => ?_⟩
  have hids := (hperm.map fun x => x.2.id).nodup_iff.mp h.ids
  exact (nodup_cons.mp hids).1 (mem_map.mpr ⟨x,hx,hid⟩)

lemma setTarget_unlink_spaces (he : target p own = some e) {id : Nat} {e' : Nat × Addrspace}
    (h : e' ∈ (setTarget p own (e.2.memregionUnmapInternal id)).spaces) : ∃ e ∈ p.spaces, Within e'.2 e.2 := by
  rcases setTarget_spaces he h with rfl | h
  · exact ⟨e,target_mem he,fun r hr => (unmapInternal_sublist e.2 id).subset hr,fun _ h => h⟩
  · exact ⟨e',h,.refl _⟩

lemma Inv.unlink (pc : Pc) (hi : s.Inv) (hp : p ∈ s.procs) (he : target p own = some e)
    (hr : r ∈ e.2.regions) (hholds : ∀ c, pc.holds c = p.pc.holds c)
    (htracked : ∀ x ∈ p.regions, x.2.id ≠ r.id → ∀ c, x.2.store = some c →
      s.Tracked { setTarget p own (e.2.memregionUnmapInternal r.id) with pc := pc } x c)
    (hpc : s.PcInv { setTarget p own (e.2.memregionUnmapInternal r.id) with pc := pc }) :
    (s.setProc { setTarget p own (e.2.memregionUnmapInternal r.id) with pc := pc }).Inv := by
  have hpi := hi.proc p hp
  have hids := setTarget_spaceIds (e.2.memregionUnmapInternal r.id) he
  have hnodup := hids ▸ hi.spaceIds_nodup hp
  refine hi.updateLocal { setTarget p own (e.2.memregionUnmapInternal r.id) with pc := pc } hp setTarget_pid rfl
    rfl le_rfl hnodup (fun i h => .inl (hids ▸ h)) hholds ?_
  refine hpi.shrink le_rfl (setTarget_regions_sublist he (unmapInternal_sublist _ _))
    (fun e' h => setTarget_unlink_spaces he h) ?_ ?_ ?_ hpc
  · intro x hx c hc
    obtain ⟨hxp,hne⟩ := hpi.unlinked he hr hx
    exact htracked x hxp hne c hc
  · exact fun x hx c hc => hpi.owned x (hpi.unlinked he hr hx).1 c hc
  · exact fun c hc => hpi.held c (hholds c ▸ hc)

end teardown

section fork
variable {child : Nat} {as as' : Addrspace} {rest : List Memregion} {pc : Pc} {out : Outcome}

lemma embryo_target (hemb : p.embryo = some (child,as)) : target p false = some (child,as) := by
  simp [target,hemb]

lemma Inv.shrinkEmbryo (pc : Pc) (hi : s.Inv) (hp : p ∈ s.procs) (hemb : p.embryo = some (child,as))
    (hplain : p.pc.plain = true) (hold : ∀ c, p.pc.holds c = false) (hnew : ∀ c, pc.holds c = false)
    (hle : s.next ≤ s'.next) (hct : s'.ctable = s.ctable)
    (hprocs : s'.procs = (s.setProc { p with embryo := some (child,as'), pc := pc }).procs)
    (has : as'.regions = as.regions) (hheap : as'.heap = as.heap)
    (hpc : s'.PcInv { p with embryo := some (child,as'), pc := pc }) : s'.Inv := by
  have hregions : Proc.regions { p with embryo := some (child,as'), pc := pc } = p.regions := by
    simp [Proc.regions,Proc.spaces,hemb,has]
  have hids : Proc.spaceIds { p with embryo := some (child,as'), pc := pc } = p.spaceIds := by
    simp [Proc.spaceIds,Proc.spaces,hemb]
  have hnodup := hids ▸ hi.spaceIds_nodup hp
  refine hi.updateLocal { p with embryo := some (child,as'), pc := pc } hp rfl hprocs hct hle hnodup
    (fun i h => .inl (hids ▸ h)) (fun c => (hnew c).trans (hold c).symm) ?_
  refine (hi.proc p hp).settle hplain hct hle (hregions ▸ List.Sublist.refl _) ?_ (fun c h => ?_) hpc
  · intro e he
    rcases mem_cons.mp he with rfl | he
    · exact ⟨_,mem_cons_self,.refl _⟩
    · obtain rfl : e = (child,as') := by simpa using he
      exact ⟨_,target_mem (embryo_target hemb),fun r hr => has ▸ hr,fun id hid => hheap ▸ hid⟩
  · exact absurd h (by simp [hnew])

lemma abortFork_inv {effects : List Effect} (s' : Shm) (hi : s.Inv) (hp : p ∈ s.procs)
    (hemb : p.embryo = some (child,as)) (hpc : p.pc = .forking rest) (hle : s.next ≤ s'.next)
    (hct : s'.ctable = s.ctable) (hprocs : s'.procs = s.procs) (has : as'.regions = as.regions)
    (hheap : as'.heap = as.heap) (h : s'.abortFork p child as' effects = some out) : out.shm.Inv := by
  cases h
  refine hi.shrinkEmbryo (.tearing false as'.regions) hp hemb (by simp [hpc,Pc.plain])
    (by simp [hpc,Pc.holds]) (by simp [Pc.holds]) hle hct (by simp [setProc,hprocs]) has hheap ?_
  refine ⟨by simp,(child,as'),rfl,fun r hr => hr,?_⟩
  simp only [has]
  exact (hi.proc p hp).target_ids (target_mem (embryo_target hemb))

lemma Inv.growEmbryo {as1 : Addrspace} {d : Memregion} {size : Nat} {store : Option Nat} {shared : Bool}
    (pc : Pc) (hi : s.Inv) (hp : p ∈ s.procs) (hemb : p.embryo = some (child,as)) (hplain : p.pc.plain = true)
    (hold : ∀ c, p.pc.holds c = false) (hpcnew : ∀ c, pc.holds c = false) (hlt : s.next < s'.next)
    (hct : s'.ctable = s.ctable)
    (hprocs : s'.procs = (s.setProc { p with embryo := some (child,as'), pc := pc }).procs)
    (hnew : NewRegion as as1 d s.next size store shared) (hst : shared = store.isSome)
    (has : as'.regions = as1.regions)
    (hheap : ∀ id, as'.heap = some id → as.heap = some id ∨ (id = s.next ∧ shared = false))
    (htracked : ∀ c, store = some c → s'.Tracked { p with embryo := some (child,as'), pc := pc } (child,d) c)
    (hpc : s'.PcInv { p with embryo := some (child,as'), pc := pc }) : s'.Inv := by
  have hpi := hi.proc p hp
  have htarget := embryo_target hemb
  have hperm : (Proc.regions { p with embryo := some (child,as'), pc := pc }).Perm ((child,d) :: p.regions) := by
    have := setTarget_regions_perm htarget (show as'.regions.Perm (d :: as.regions) from has ▸ hnew.perm)
    simpa [setTarget,hemb,Proc.regions,Proc.spaces] using this
  have hids : Proc.spaceIds { p with embryo := some (child,as'), pc := pc } = p.spaceIds := by
    simp [Proc.spaceIds,Proc.spaces,hemb]
  have hnodup := hids ▸ hi.spaceIds_nodup hp
  refine hi.updateLocal { p with embryo := some (child,as'), pc := pc } hp rfl hprocs hct hlt.le hnodup
    (fun i h => .inl (hids ▸ h)) (fun c => (hpcnew c).trans (hold c).symm) ?_
  refine hpi.grow hlt (target_mem htarget) hnew hst hperm ?_ ?_ ?_ (fun c h => ?_) hpc
  · intro e he
    rcases mem_cons.mp he with rfl | he
    · exact .inl mem_cons_self
    · obtain rfl : e = (child,as') := by simpa using he
      exact .inr ⟨has,hheap⟩
  · intro x hx c hc
    rcases mem_cons.mp (hperm.mem_iff.mp hx) with rfl | hx
    · exact htracked c (hnew.store.symm.trans hc)
    · exact (hpi.tracked x hx c hc).of_plain hplain hct
  · intro x hx c hc hn
    rw [hct] at hc
    rcases mem_cons.mp (hperm.mem_iff.mp hx) with rfl | hx
    · have := (hi.ctx c hc).nodes _ hn
      exact absurd this (by simp [hnew.id])
    · exact hpi.owned x hx c hc hn
  · exact absurd h (by simp [hpcnew])

lemma asCopyRegion_inv {r : Memregion} {o : Oracle} (hi : s.Inv) (hp : p ∈ s.procs)
    (hemb : p.embryo = some (child,as)) (hpc : p.pc = .forking (r :: rest))
    (h : s.asCopyRegion p child as r rest o = some out) : out.shm.Inv := by
  have hpi := hi.proc p hp
  have hplain : p.pc.plain = true := by simp [hpc,Pc.plain]
  have hold : ∀ c, p.pc.holds c = false := by simp [hpc,Pc.holds]
  have hrest : ∀ r' ∈ r :: rest, r' ∈ p.as.regions := by
    have := hpi.pc
    simp only [PcInv,hpc] at this
    exact this.2
  have hr := own_region (hrest r mem_cons_self)
  have hrest' : ∀ r' ∈ rest, r' ∈ p.as.regions := fun r' h => hrest r' (List.mem_cons_of_mem _ h)
  simp only [asCopyRegion,Run.bind_some,Prod.exists] at h
  obtain ⟨as1,dst,hmap,h⟩ := h
  cases dst with
  | none => exact abortFork_inv s hi hp hemb hpc le_rfl rfl rfl rfl rfl h
  | some d =>
    have hstart : r.start < 2^64 := (hpi.words _ hr).1
    obtain ⟨hnew,-⟩ := newRegion hstart (Addrspace.sub64_lt _ _) hmap
    have hfresh := fun y (hy : y ∈ as.regions) => (hpi.below _ (embryo_region hemb hy)).ne
    have hback := hnew.unmap hfresh
    cases hsh : r.shared with
    | true =>
      obtain ⟨c,hc⟩ : ∃ c, r.store = some c := by
        rw [← Option.isSome_iff_exists,← hpi.stored _ hr,hsh]
      simp only [hsh,hc,if_true] at h hnew
      cases h
      refine hi.growEmbryo (.linked c d.id rest) hp hemb hplain hold (by simp [Pc.holds])
        (lt_succ_self _) rfl rfl hnew rfl rfl (fun id hid => .inl (hnew.heap ▸ hid)) ?_ ?_
      · rintro _ ⟨⟩
        obtain ⟨ctx,hctx,hid,hsize,-⟩ := (hpi.tracked _ hr c hc).node hplain
        refine ⟨ctx,hctx,hid,?_,.inr (.inr ⟨rest,rfl⟩)⟩
        have hword := (hpi.words _ hr).2
        have hstop := hnew.stop
        simp only [sub64,u64] at hsize hstop hword ⊢
        omega
      · refine ⟨hrest',⟨r,hrest r mem_cons_self,hc⟩,(child,as1),rfl,d,?_,rfl,hnew.store,?_⟩
        · exact hnew.perm.mem_iff.mpr mem_cons_self
        · intro ctx hctx _ hn
          exact absurd ((hi.ctx ctx hctx).nodes _ hn) (by simp [hnew.id])
    | false =>
      have hst : r.store = none := by
        rw [← Option.isNone_iff_eq_none,← Option.not_isSome,← hpi.stored _ hr,hsh]
        rfl
      cases hcp : o.copied with
      | true =>
        simp only [hsh,hcp,Bool.false_eq_true,if_false,if_true] at h hnew
        cases h
        refine hi.growEmbryo (.forking rest) hp hemb hplain hold (by simp [Pc.holds])
          (lt_succ_self _) rfl rfl hnew (by simp [hst]) rfl ?_ (by simp [hst]) ⟨rfl,hrest'⟩
        intro id hid
        simp only at hid
        split at hid
        · exact .inr ⟨(some_inj.mp hid).symm.trans hnew.id,rfl⟩
        · exact .inl (hnew.heap ▸ hid)
      | false =>
        simp only [hsh,hcp,Bool.false_eq_true,if_false] at h
        exact abortFork_inv { s with next := s.next + 1 } hi hp hemb hpc (le_succ _) rfl rfl hback hnew.heap h

lemma addContextRef_inv {ctx mr : Nat} {node : Bool} (hi : s.Inv) (hp : p ∈ s.procs)
    (hemb : p.embryo = some (child,as)) (hpc : p.pc = .linked ctx mr rest)
    (h : s.addContextRef p child as ctx mr rest node = some out) : out.shm.Inv := by
  have hpi := hi.proc p hp
  have htarget := embryo_target hemb
  have hnodup := hi.spaceIds_nodup hp
  have hinv := hpi.pc
  simp only [PcInv,hpc] at hinv
  obtain ⟨hrest,-,e,he,d,hd,hdid,hdst,hno⟩ := hinv
  cases hemb.symm.trans he
  have hdx := embryo_region hemb hd
  simp only [addContextRef,Run.bind_some] at h
  obtain ⟨c,hc,d',-,h⟩ := h
  obtain ⟨hc,hcid⟩ := lookup_some hc
  have huntracked : ∀ x ∈ p.regions, x.2.id ≠ mr → ∀ k, x.2.store = some k →
      ∃ ctx ∈ s.ctable, ctx.id = k ∧ x.2.stop = x.2.start + ctx.bytes ∧ ⟨x.1,x.2.id⟩ ∈ ctx.rmap := by
    intro x hx hne k hk
    obtain ⟨ctx,hctx,hid,hsize,hn | ⟨t,ht⟩ | ⟨l,hl⟩⟩ := hpi.tracked x hx k hk
    · exact ⟨ctx,hctx,hid,hsize,hn⟩
    · simp [hpc] at ht
    · simp only [hpc,Pc.linked.injEq] at hl
      exact absurd hl.2.1.symm hne
  cases node with
  | true =>
    cases h
    have hct : ((s.addRmapping c child mr).setProc { p with pc := .forking rest }).ctable =
      (s.setContext (addNode c ⟨child,mr⟩)).ctable := rfl
    refine hi.addNode { p with pc := .forking rest } hp rfl rfl hc hct le_rfl rfl (by simp [hpc,Pc.holds])
      (spaceIds_of_regions hdx) (hdid ▸ hpi.below _ hdx) (hno c hc hcid) ?_
    refine hpi.shrink le_rfl (List.Sublist.refl _) (fun e he => ⟨e,he,.refl _⟩) ?_ ?_
      (by simp [Pc.holds]) ⟨by simp [hemb],hrest⟩
    · intro x hx k hk
      by_cases hxm : x.2.id = mr
      · obtain rfl := hpi.region_eq hx hdx (hxm.trans hdid.symm)
        obtain ⟨ctx',hctx',hid,hsize,-⟩ := hpi.tracked _ hdx k hk
        have hk' : k = ctx := by simpa [hdst] using hk.symm
        obtain rfl := hi.ctxIds.eq hctx' hc (hid.trans (hk'.trans hcid.symm))
        refine ⟨addNode ctx' ⟨child,mr⟩,(mem_setContext (addNode ctx' _) hi hctx' rfl).mpr (.inl rfl),hid,hsize,
          .inl ?_⟩
        exact List.mem_append_right _ (by simp [hdid])
      · obtain ⟨ctx',hctx',hid,hsize,hn⟩ := huntracked x hx hxm k hk
        obtain ⟨ctx'',hctx'',hid',hb,hn⟩ := addNode_keeps hi hc hct hctx' hn
        exact ⟨ctx'',hctx'',hid'.trans hid,hb ▸ hsize,.inl hn⟩
    · intro x hx k hk hn
      rcases addNode_cases hi hc hct hk hn with ⟨hid,he⟩ | ⟨ctx',hctx',hid,hn⟩
      · have hxm : x.2.id = mr := congrArg Pid2mem.mr he
        obtain rfl := hpi.region_eq hx hdx (hxm.trans hdid.symm)
        rw [hdst,hid,hcid]
      · exact hid ▸ hpi.owned x hx ctx' hctx' hn
  | false =>
    cases h
    have hset : { p with embryo := some (child,as.memregionUnmapInternal mr), pc := .forking rest } =
        { setTarget p false (as.memregionUnmapInternal d.id) with pc := .forking rest } := by
      simp [setTarget,hemb,hdid]
    rw [hset]
    refine hi.unlink (.forking rest) hp htarget hd (by simp [hpc,Pc.holds]) ?_ ⟨by simp [setTarget,hemb],hrest⟩
    intro x hx hne k hk
    obtain ⟨ctx',hctx',hid,hsize,hn⟩ := huntracked x hx (hdid ▸ hne) k hk
    exact ⟨ctx',hctx',hid,hsize,.inl hn⟩

end fork

section teardown
variable {own : Bool} {rest : List Memregion} {r : Memregion} {out : Outcome} {e : Nat × Addrspace} {ctx : Nat}
  {t : Option (Bool × List Memregion)}

lemma Teardown.tail (h : Teardown p own (r :: rest)) : Teardown p own rest := by
  obtain ⟨ho,e,he,hall,hnodup⟩ := h
  exact ⟨ho,e,he,fun x hx => hall x (List.mem_cons_of_mem _ hx),(nodup_cons.mp hnodup).2⟩

lemma Teardown.unlink (hpi : s.ProcInv p) (h : Teardown p own rest) (he : target p own = some e) (hne : r.id ∉ rest.map Memregion.id) (pc : Pc) :
    Teardown { setTarget p own (e.2.memregionUnmapInternal r.id) with pc := pc } own rest := by
  obtain ⟨ho,e',he',hall,hnodup⟩ := h
  cases he.symm.trans he'
  refine ⟨?_,(e.1,e.2.memregionUnmapInternal r.id),?_,?_,hnodup⟩
  · rintro rfl
    exact ho rfl
  · have := target_setTarget (e.2.memregionUnmapInternal r.id) he
    cases own <;> exact this
  · intro x hx
    refine (mem_unmapInternal (hpi.target_ids (target_mem he))).mpr ⟨hall x hx,fun hid => ?_⟩
    exact hne (hid ▸ mem_map.mpr ⟨x,hx,rfl⟩)

section
variable (hi : s.Inv) (hp : p ∈ s.procs)
include hi hp

lemma found_region {n : Pid2mem} {r' : Memregion}
    (hplain : p.pc.plain = true) (hc : c ∈ s.ctable) (he : e ∈ p.spaces) (hr : r ∈ e.2.regions)
    (hst : r.store = some c.id) (hin : n ∈ c.rmap) (hn : n.as = e.1) (hr' : r' ∈ e.2.regions)
    (hid : r'.id = n.mr) (hlo : r'.start ≤ r.start) (hhi : r.start < r'.stop) : r' = r := by
  have hpi := hi.proc p hp
  have hx : (e.1,r) ∈ p.regions := Proc.mem_regions.mpr ⟨e.2,he,hr⟩
  have hx' : (e.1,r') ∈ p.regions := Proc.mem_regions.mpr ⟨e.2,he,hr'⟩
  have hnode : n = ⟨e.1,r'.id⟩ := by
    rw [← hn,hid]
  have hst' : r'.store = some c.id := hpi.owned _ hx' c hc (hnode ▸ hin)
  have hsh : r.shared = true := by simpa [hst] using hpi.stored _ hx
  have hsh' : r'.shared = true := by simpa [hst'] using hpi.stored _ hx'
  have size : ∀ r0, (e.1,r0) ∈ p.regions → r0.store = some c.id → r0.stop = r0.start + c.bytes := by
    intro r0 hx0 hst0
    obtain ⟨ctx,hctx,hcid,hsize,-⟩ := (hpi.tracked _ hx0 c.id hst0).node hplain
    exact hi.ctxIds.eq hctx hc hcid ▸ hsize
  have hsize := size r hx hst
  have hsize' := size r' hx' hst'
  by_contra hne
  have hids : r'.id ≠ r.id := fun h => hne (congrArg Prod.snd (hpi.region_eq hx' hx h))
  have := hpi.disjoint e he r' hr' r hr hsh' hsh hids
  omega

lemma asDestroyRegion_inv (hpc : p.pc = .tearing own (r :: rest))
    (h : s.asDestroyRegion p own r rest = some out) : out.shm.Inv := by
  have hpi := hi.proc p hp
  have hplain : p.pc.plain = true := by simp [hpc,Pc.plain]
  have hholds : ∀ c, p.pc.holds c = false := by simp [hpc,Pc.holds]
  have htear : Teardown p own (r :: rest) := by simpa [PcInv,hpc] using hpi.pc
  obtain ⟨e,he,hall,hnodup⟩ := htear.2
  have hr := hall r mem_cons_self
  have hne : r.id ∉ rest.map Memregion.id := (nodup_cons.mp hnodup).1
  have hids := hi.spaceIds_nodup hp
  simp only [asDestroyRegion,he,Option.bind_eq_bind,bind_some] at h
  split_ifs at h with hsh
  · simp only [bind_eq_some_iff] at h
    obtain ⟨k,hk,c,hlook,h⟩ := h
    obtain ⟨hc,rfl⟩ := lookup_some hlook
    split at h
    · cases h
      refine hi.updateLocal { p with pc := .tearing own rest } hp rfl rfl rfl le_rfl hids (fun i h => .inl h)
        (by simp [hpc,Pc.holds]) ?_
      exact hpi.settle hplain rfl le_rfl (List.Sublist.refl _) (fun e he => ⟨e,he,.refl _⟩)
        (by simp [Pc.holds]) htear.tail
    · rename_i t n hfind
      obtain ⟨rfl,hin,has,r',hr',hid,hlo,hhi⟩ := findRemove_some hfind
      obtain rfl := found_region hi hp hplain hc (target_mem he) hr hk hin has hr' hid hlo hhi
      cases h
      have hn : n = ⟨e.1,r'.id⟩ := by
        rw [← has,hid]
      exact startUnmap hi hp hplain hholds hc he rfl hr hin hn htear.tail (by simpa using hne)
  · cases h
    refine hi.unlink (.tearing own rest) hp he hr (by simp [hpc,Pc.holds]) ?_ ?_
    · exact fun x hx _ c hc => (hpi.tracked x hx c hc).of_plain hplain rfl
    · exact htear.tail.unlink hpi he hne _

lemma memregionUnmap_inv {mr : Nat}
    (hpc : p.pc = .unmapping ctx mr t) (h : s.memregionUnmap p ctx mr t = some out) : out.shm.Inv := by
  have hpi := hi.proc p hp
  have hinv := hpi.pc
  simp only [PcInv,hpc] at hinv
  obtain ⟨⟨hresume,hrest⟩,e,he,r,hr,rfl,-,-⟩ := hinv
  simp only [memregionUnmap,he,Option.bind_eq_bind,bind_some,bind_eq_some_iff] at h
  obtain ⟨_,-,h⟩ := h
  cases h
  refine hi.unlink (.unmapped ctx t) hp he hr (by simp [hpc,Pc.holds]) ?_ ?_
  · intro x hx hne c hc
    obtain ⟨k,hk,hid,hsize,hn | ⟨t',ht⟩ | ⟨l,hl⟩⟩ := hpi.tracked x hx c hc
    · exact ⟨k,hk,hid,hsize,.inl hn⟩
    · simp only [hpc,Pc.unmapping.injEq] at ht
      exact absurd ht.2.1.symm hne
    · simp [hpc] at hl
  · cases t with
    | none => exact hresume
    | some t => exact Teardown.unlink hpi hresume he (hrest t rfl) _

lemma Inv.dropRef (hc : c ∈ s.ctable) (hpc : p.pc = .unmapped c.id t) :
    ((s.setContext { c with refcnt := c.refcnt - 1 }).setProc
      { p with pc := t.elim .user fun t => .tearing t.1 t.2 }).Inv := by
  have hpi := hi.proc p hp
  have hplain : p.pc.plain = true := by simp [hpc,Pc.plain]
  have hresume : Resumes p t := by simpa [PcInv,hpc] using hpi.pc
  have hids := hi.spaceIds_nodup hp
  have hci := hi.ctx c hc
  have hholds : ∀ x, (t.elim Pc.user fun t => .tearing t.1 t.2).holds x = false := by
    cases t <;> simp [Pc.holds]
  have hmem := fun d => mem_setContext (d := d) { c with refcnt := c.refcnt - 1 } hi hc rfl
  have hfly := inFlight_setProc hi.pids hp
    (rfl : ({ p with pc := t.elim .user fun t => .tearing t.1 t.2 } : Proc).pid = p.pid) c.id
  refine hi.updateCtx { p with pc := t.elim .user fun t => .tearing t.1 t.2 } { c with refcnt := c.refcnt - 1 } hp
    rfl rfl hc rfl rfl le_rfl hids (fun i h => h) ?_ rfl (fun _ _ => Iff.rfl) ?_ ?_
  · intro x hx
    rw [hholds,hpc]
    simpa [Pc.holds] using hx.symm
  · refine ⟨hci.below,hci.nodup,hci.nodes,?_⟩
    have hcount := hci.refcnt
    rw [hholds,hpc] at hfly
    simp only [Pc.holds,beq_self_eq_true,Bool.toNat_true,Bool.toNat_false] at hfly
    change c.refcnt - 1 = (c.rmap.length : Int) + ((s.setProc _).inFlight c.id : Nat)
    omega
  · refine hpi.shrink le_rfl (List.Sublist.refl _) (fun e he => ⟨e,he,.refl _⟩) ?_ ?_ ?_ ?_
    · intro x hx k hk
      obtain ⟨ctx,hctx,hid,hsize,hn⟩ := (hpi.tracked x hx k hk).node hplain
      by_cases hcc : ctx.id = c.id
      · obtain rfl := hi.ctxIds.eq hctx hc hcc
        exact ⟨_,(hmem _).mpr (.inl rfl),hid,hsize,.inl hn⟩
      · exact ⟨ctx,(hmem _).mpr (.inr ⟨hctx,hcc⟩),hid,hsize,.inl hn⟩
    · intro x hx k hk hn
      rcases (hmem k).mp hk with rfl | ⟨hk,-⟩
      · exact hpi.owned x hx c hc hn
      · exact hpi.owned x hx k hk hn
    · exact fun k hk => absurd (hholds k) (by simp [hk])
    · cases t with
      | none => exact hresume
      | some t => exact hresume

end

lemma dropContextRef_cases (h : s.dropContextRef p ctx t = some out) : ∃ c ∈ s.ctable, c.id = ctx ∧
      ((c.refcnt = 1 ∧ c.isPersist = false ∧ t.isSome = true ∧
        ((s.setContext { c with refcnt := c.refcnt - 1 }).setProc
          { p with pc := t.elim .user fun t => .tearing t.1 t.2 }).destroySharedRegionInternal
            { c with refcnt := c.refcnt - 1 } false = some out) ∨
      out = ⟨(s.setContext { c with refcnt := c.refcnt - 1 }).setProc
        { p with pc := t.elim .user fun t => .tearing t.1 t.2 },.ok,[],none⟩) := by
  simp only [dropContextRef,Run.bind_some] at h
  obtain ⟨c,hlook,h⟩ := h
  refine ⟨c,(lookup_some hlook).1,(lookup_some hlook).2,?_⟩
  split_ifs at h with hlast
  · exact .inl ⟨by have := hlast.1; omega,hlast.2.1,hlast.2.2,h⟩
  · exact .inr (some_inj.mp h).symm

lemma dropContextRef_inv (hi : s.Inv) (hp : p ∈ s.procs)
    (hpc : p.pc = .unmapped ctx t) (h : s.dropContextRef p ctx t = some out) : out.shm.Inv := by
  obtain ⟨c,hc,rfl,⟨-,-,-,h⟩ | rfl⟩ := dropContextRef_cases h
  · have hmem := (mem_setContext { c with refcnt := c.refcnt - 1 } hi hc rfl).mpr (.inl rfl)
    exact destroySharedRegionInternal_inv (hi.dropRef hp hc hpc) hmem h
  · exact hi.dropRef hp hc hpc

end teardown

lemma forkDone_inv {child : Nat} {as : Addrspace} {rest : List Memregion} (hi : s.Inv) (hp : p ∈ s.procs)
    (hemb : p.embryo = some (child,as)) (hpc : p.pc = .forking rest)
    (hprocs : s'.procs = (s.setProc { p with embryo := none, pc := .user }).procs ++ [⟨child,as,none,.user⟩])
    (hct : s'.ctable = s.ctable) (hnext : s'.next = s.next) : s'.Inv := by
  have hpi := hi.proc p hp
  have hplain : p.pc.plain = true := by simp [hpc,Pc.plain]
  have hmem : child ∈ p.spaceIds := by simp [Proc.spaceIds,Proc.spaces,hemb]
  have hparent : (s.setProc { p with embryo := none, pc := .user }).Inv := by
    refine hi.updateLocal { p with embryo := none, pc := .user } hp rfl rfl rfl le_rfl (by simp [Proc.spaceIds,Proc.spaces])
      ?_ (by simp [hpc,Pc.holds]) ?_
    · intro i hin
      obtain rfl : i = p.pid := by simpa [Proc.spaceIds,Proc.spaces] using hin
      exact .inl (space_mem p)
    · refine hpi.settle hplain rfl le_rfl ?_ ?_ (by simp [Pc.holds]) rfl
      · simp [Proc.regions,Proc.spaces]
      · intro e he
        obtain rfl : e = (p.pid,p.as) := by simpa [Proc.spaces] using he
        exact ⟨_,mem_cons_self,.refl _⟩
  refine hparent.addProc hprocs hct hnext.ge (by simp [Proc.spaceIds,Proc.spaces]) ?_ (by simp [Pc.holds]) ?_
  · intro i hin
    obtain rfl : i = child := by simpa [Proc.spaceIds,Proc.spaces] using hin
    refine ⟨hnext ▸ hi.spaceLt p hp i hmem,fun q hq hiq => ?_⟩
    rw [setProc,hi.pids.mem_modify hp rfl] at hq
    rcases hq with rfl | ⟨hq,hne⟩
    · have : i = p.pid := by simpa [Proc.spaceIds,Proc.spaces] using hiq
      exact hi.embryo_ne hp hemb this.symm
    · exact hi.spaces_apart hp hq hne hmem hiq
  · refine hpi.settle hplain hct hnext.ge ?_ ?_ (by simp [Pc.holds]) rfl
    · simp [Proc.regions,Proc.spaces,hemb]
    · intro e he
      obtain rfl : e = (child,as) := by simpa [Proc.spaces] using he
      exact ⟨(child,as),by simp [Proc.spaces,hemb],.refl _⟩

lemma tearDone_inv {own : Bool} (hi : s.Inv) (hp : p ∈ s.procs) (hpc : p.pc = .tearing own []) :
    (s.setProc { p with pc := if own then .dead else .user, embryo := none }).Inv := by
  have hpi := hi.proc p hp
  refine hi.updateLocal { p with pc := if own then .dead else .user, embryo := none } hp rfl rfl rfl le_rfl
    (by simp [Proc.spaceIds,Proc.spaces]) ?_ ?_ ?_
  · intro i hin
    obtain rfl : i = p.pid := by simpa [Proc.spaceIds,Proc.spaces] using hin
    exact .inl (space_mem p)
  · cases own <;> simp [hpc,Pc.holds]
  · refine hpi.settle (by simp [hpc,Pc.plain]) rfl le_rfl ?_ ?_ ?_ ?_
    · simp [Proc.regions,Proc.spaces]
    · intro e he
      obtain rfl : e = (p.pid,p.as) := by simpa [Proc.spaces] using he
      exact ⟨_,mem_cons_self,.refl _⟩
    · cases own <;> simp [Pc.holds]
    · cases own <;> rfl

lemma advance_inv {o : Oracle} {out : Outcome} (hi : s.Inv) (hp : p ∈ s.procs)
    (h : s.advance p o = some out) : out.shm.Inv := by
  simp only [advance] at h
  split at h
  · cases h
  · cases h
  · rename_i rest hpc
    split at h
    · cases h
    rename_i child as hemb
    split at h
    · exact asCopyRegion_inv hi hp hemb hpc h
    · split_ifs at h
      · cases h
        exact forkDone_inv hi hp hemb hpc rfl rfl rfl
      · exact abortFork_inv s hi hp hemb hpc le_rfl rfl rfl rfl rfl h
  · rename_i ctx mr rest hpc
    split at h
    · cases h
    rename_i child as hemb
    exact addContextRef_inv hi hp hemb hpc h
  · rename_i own hpc
    cases h
    exact tearDone_inv hi hp hpc
  · rename_i own r rest hpc
    exact asDestroyRegion_inv hi hp hpc h
  · rename_i ctx mr t hpc
    exact memregionUnmap_inv hi hp hpc h
  · rename_i ctx t hpc
    exact dropContextRef_inv hi hp hpc h

section spawn
variable {as as' : Addrspace} {lo next next' : Nat} {phs : List Proghdr} {out : Outcome}

structure Private (lo : Nat) (as : Addrspace) (next : Nat) : Prop where
  store : ∀ r ∈ as.regions, r.store = none ∧ r.shared = false
  placed : ∀ r ∈ as.regions, Placed r
  above : ∀ r ∈ as.regions, lo ≤ r.id
  below : ∀ r ∈ as.regions, r.id < next
  ids : (as.regions.map Memregion.id).Nodup
  heap : ∀ id, as.heap = some id → id < next

lemma Private.empty : Private lo ⟨false,[],none⟩ next := ⟨by simp,by simp,by simp,by simp,by simp,by simp⟩

lemma Private.insert {r : Memregion} {size : Nat} (h : Private lo as next) (hle : lo ≤ next)
    (hnew : NewRegion as as' r next size none false) : Private lo as' (next + 1) := by
  refine ⟨hnew.all ⟨hnew.store,hnew.shared⟩ h.store,hnew.all hnew.placed h.placed,hnew.all (hnew.id ▸ hle) h.above,
    hnew.all (hnew.id ▸ lt_succ_self _) fun x hx => (h.below x hx).trans (lt_succ_self _),?_,
    fun id hid => (h.heap id (hnew.heap ▸ hid)).trans (lt_succ_self _)⟩
  rw [(hnew.perm.map _).nodup_iff,map_cons,nodup_cons]
  refine ⟨fun hin => ?_,h.ids⟩
  obtain ⟨x,hx,hid⟩ := mem_map.mp hin
  have := h.below x hx
  rw [hid,hnew.id] at this
  exact absurd this (lt_irrefl _)

lemma loadSegments_private (h : Private lo as next) (hlo : lo ≤ next)
    (hl : loadSegments phs as next = some (.ok (as',next'))) : Private lo as' next' ∧ next ≤ next' := by
  induction phs generalizing as next with
  | nil =>
    obtain ⟨rfl,rfl⟩ : as = as' ∧ next = next' := by simpa [loadSegments] using hl
    exact ⟨h,le_rfl⟩
  | cons ph phs ih =>
    simp only [loadSegments] at hl
    split at hl
    · simp at hl
    · simp only [Run.bind_some,Prod.exists] at hl
      obtain ⟨as1,r,hmap,hl⟩ := hl
      cases r with
      | none => simp at hl
      | some r =>
        have hv : pgRoundDown (u64 ph.vaddr) < 2^64 :=
          (Nat.div_mul_le_self _ _).trans_lt (u64_lt _)
        obtain ⟨hnew,-⟩ := newRegion hv (pgRoundUp_lt _) hmap
        obtain ⟨hp,hle⟩ := ih (h.insert hlo hnew) (hlo.trans (le_succ _)) hl
        exact ⟨hp,(le_succ _).trans hle⟩

lemma stackSetup_private (h : Private lo as next) (hlo : lo ≤ next) (hs : stackSetup as next = some (some as')) :
    Private lo as' (next + 1) := by
  simp only [stackSetup,Run.bind_some,Prod.exists] at hs
  obtain ⟨as1,r,hmap,hs⟩ := hs
  cases r with
  | none => simp at hs
  | some r =>
    obtain ⟨hnew,-⟩ := newRegion (by decide) (by decide) hmap
    have hp := h.insert hlo hnew
    obtain ⟨mr,hfind,hs⟩ := Run.bind_some.mp hs
    split_ifs at hs
    cases some_inj.mp hs
    have hcond := List.find?_some hfind
    simp only [Bool.and_eq_true,decide_eq_true_eq] at hcond
    have hin := List.mem_of_find?_eq_some hfind
    have hmr := hp.placed mr hin
    have hstart : ustackUpperbound - 10 * pgSize ≤ mr.stop := by
      have := hcond.2
      simp only [pgRoundUp,pgRoundDown,u64,pgSize,stackTop,ustackUpperbound] at this ⊢
      omega
    have hall : ∀ {P : Memregion → Prop}, (∀ x ∈ as1.regions, P x) → P { mr with start := ustackUpperbound - 10 * pgSize } →
        ∀ x ∈ modify Memregion.id mr.id (fun r => { r with start := ustackUpperbound - 10 * pgSize }) as1.regions, P x := by
      intro P hold hnew x hx
      rcases mem_modify.mp hx with ⟨y,hy,hid,rfl⟩ | ⟨hx,-⟩
      · exact Distinct.eq hp.ids hy hin hid ▸ hnew
      · exact hold x hx
    exact ⟨hall hp.store (hp.store mr hin),hall hp.placed
      ⟨(by decide : pgAligned (ustackUpperbound - 10 * pgSize) = true),hstart,hmr.word⟩,hall hp.above (hp.above mr hin),
      hall hp.below (hp.below mr hin),Distinct.modify hp.ids fun _ _ => rfl,hp.heap⟩

lemma loadSegments_error {e : Err} (h : loadSegments phs as next = some (.error e)) : e ≠ .ok := by
  induction phs generalizing as next with
  | nil => cases h
  | cons ph phs ih =>
    simp only [loadSegments] at h
    split at h
    · obtain rfl := Except.error.inj (some_inj.mp h)
      decide
    · simp only [Run.bind_some,Prod.exists] at h
      obtain ⟨as',r,-,h⟩ := h
      cases r with
      | none =>
        obtain rfl := Except.error.inj (some_inj.mp h)
        decide
      | some r => exact ih h

structure Built (lo : Nat) (phs : List Proghdr) (as : Addrspace) (last : Nat) : Prop where
  stages : ∃ as0 next as1 heap, loadSegments phs ⟨false,[],none⟩ lo = some (.ok (as0,next)) ∧
    as0.memregionMapInternal next addrAnywhere 0 .urw none 0 false true = some (as1,some heap) ∧
    stackSetup { as1 with heap := some heap.id } (next + 1) = some (some as) ∧ last = next + 2

lemma Built.isPrivate (h : Built lo phs as next) : lo < next ∧ Private lo as next := by
  obtain ⟨as0,n,as1,heap,hl,hmap,hstack,rfl⟩ := h.stages
  obtain ⟨hpriv,hle⟩ := loadSegments_private Private.empty le_rfl hl
  obtain ⟨hnew,-⟩ := newRegion (by decide) (by decide) hmap
  have hheap := hpriv.insert hle hnew
  have hset : Private lo { as1 with heap := some heap.id } (n + 1) :=
    ⟨hheap.store,hheap.placed,hheap.above,hheap.below,hheap.ids,fun id hid =>
      some_inj.mp hid ▸ hnew.id ▸ lt_succ_self _⟩
  exact ⟨by omega,stackSetup_private hset (hle.trans (le_succ n)) hstack⟩

lemma spawn_cases (h : s.spawn phs = some out) : out.effects = [] ∧
    (out.shm = s ∧ out.err ≠ .ok ∨ ∃ as next, Built (s.next + 1) phs as next ∧
      out.shm = { s with procs := s.procs ++ [⟨s.next,as,none,.user⟩], next := next }) := by
  simp only [spawn,Run.bind_some] at h
  obtain ⟨l,hl,h⟩ := h
  cases l with
  | error e =>
    cases h
    exact ⟨rfl,.inl ⟨rfl,loadSegments_error hl⟩⟩
  | ok l =>
    obtain ⟨as,next⟩ := l
    simp only [Run.bind_some,Prod.exists] at h
    obtain ⟨as1,heap,hmap,h⟩ := h
    cases heap with
    | none =>
      cases h
      exact ⟨rfl,.inl ⟨rfl,fun he => nomatch he⟩⟩
    | some heap =>
      obtain ⟨as2,hstack,h⟩ := Run.bind_some.mp h
      cases as2 with
      | none =>
        cases h
        exact ⟨rfl,.inl ⟨rfl,fun he => nomatch he⟩⟩
      | some as2 =>
        cases h
        exact ⟨rfl,.inr ⟨as2,next + 2,⟨as,next,as1,heap,hl,hmap,hstack,rfl⟩,rfl⟩⟩

lemma spawn_inv (hi : s.Inv) (h : s.spawn phs = some out) : out.shm.Inv := by
  obtain ⟨-,⟨hs,-⟩ | ⟨as,next,hb,hs⟩⟩ := spawn_cases h
  · rw [hs]
    exact hi
  obtain ⟨hlt,hp⟩ := hb.isPrivate
  have hlt : s.next < next := (lt_succ_self _).trans hlt
  rw [hs]
  have hregion : ∀ x : Nat × Memregion, x ∈ Proc.regions ⟨s.next,as,none,.user⟩ → x.2 ∈ as.regions := by
    intro x hx
    obtain ⟨as',he,hr⟩ := Proc.mem_regions.mp hx
    obtain ⟨-,rfl⟩ : x.1 = s.next ∧ as' = as := by simpa [Proc.spaces] using he
    exact hr
  refine hi.addProc rfl rfl hlt.le (by simp [Proc.spaceIds,Proc.spaces]) ?_ (by simp [Pc.holds])
    ⟨?_,?_,?_,?_,?_,?_,?_,?_,?_,by simp [Pc.holds],rfl⟩
  · intro i hin
    obtain rfl : i = s.next := by simpa [Proc.spaceIds,Proc.spaces] using hin
    exact ⟨hlt,fun p hp hip => absurd (hi.spaceLt p hp _ hip) (lt_irrefl _)⟩
  · simpa [Proc.regions,Proc.spaces,comp_def] using hp.ids
  · exact fun x hx => (hp.placed _ (hregion x hx)).aligned
  · exact fun x hx => ⟨(hp.placed _ (hregion x hx)).bounded.trans_lt (hp.placed _ (hregion x hx)).word,
      (hp.placed _ (hregion x hx)).word⟩
  · exact fun x hx => hp.below _ (hregion x hx)
  · intro x hx
    have := hp.store _ (hregion x hx)
    simp [this.1,this.2]
  · intro x hx c hc
    simp [(hp.store _ (hregion x hx)).1] at hc
  · intro x hx c hc hn
    have hb := (hi.ctx c hc).nodes _ hn
    have ha := hp.above _ (hregion x hx)
    simp only at hb
    omega
  · intro e he r hr r' _ hsh
    obtain rfl : e = (s.next,as) := by simpa [Proc.spaces] using he
    simp [(hp.store r hr).2] at hsh
  · intro e he id hid
    obtain rfl : e = (s.next,as) := by simpa [Proc.spaces] using he
    exact ⟨hp.heap id hid,fun r hr _ => (hp.store r hr).2⟩

end spawn

section sbrk
variable {r : Memregion} {size : Int} {out : Outcome} {id stop : Nat}

def restop (id stop : Nat) (r : Memregion) : Memregion := if r.id = id then { r with stop := stop } else r

lemma setStop_regions (as : Addrspace) (id stop : Nat) :
    (setStop as id stop).regions = as.regions.map (restop id stop) := rfl

lemma restop_id : (restop id stop r).id = r.id := by
  simp only [restop]
  split <;> rfl

lemma restop_start : (restop id stop r).start = r.start := by
  simp only [restop]
  split <;> rfl

lemma restop_store : (restop id stop r).store = r.store ∧ (restop id stop r).shared = r.shared := by
  simp only [restop]
  split <;> exact ⟨rfl,rfl⟩

lemma sysSbrk_cases (h : s.sysSbrk p size = some out) : out.effects = [] ∧
    (out.shm = s ∨ ∃ id stop, p.as.heap = some id ∧ stop < 2^64 ∧
      out.shm = s.setProc { p with as := setStop p.as id stop }) := by
  simp only [sysSbrk] at h
  split at h
  · cases h
    exact ⟨rfl,.inl rfl⟩
  rename_i heap hheap
  obtain ⟨r,hr,h⟩ := Run.bind_some.mp h
  have hid : r.id = heap := by simpa using List.find?_some hr
  have hstop : sizeT (r.stop + int32 size) < 2^64 := by
    simp only [sizeT]
    omega
  have hext : out = ⟨s.setProc { p with as := setStop p.as r.id (sizeT (r.stop + int32 size)) },.ok,[],some r.stop⟩ →
      out.effects = [] ∧ (out.shm = s ∨ ∃ id stop, p.as.heap = some id ∧ stop < 2^64 ∧
        out.shm = s.setProc { p with as := setStop p.as id stop }) := by
    rintro rfl
    exact ⟨rfl,.inr ⟨r.id,_,hid ▸ hheap,hstop,rfl⟩⟩
  simp only [memregionExtend,returns,fail] at h
  split at h
  · cases h
    exact ⟨rfl,.inl rfl⟩
  · split at h
    · split at h
      · split at h
        · cases h
          exact ⟨rfl,.inl rfl⟩
        · exact hext (some_inj.mp h).symm
      · exact hext (some_inj.mp h).symm
    · split at h
      · exact hext (some_inj.mp h).symm
      · cases h
        exact ⟨rfl,.inl rfl⟩

lemma mem_setStop_regions (hemb : p.embryo = none) {x : Nat × Memregion} :
    x ∈ Proc.regions { p with as := setStop p.as id stop } ↔
      ∃ y ∈ p.regions, x = (y.1,restop id stop y.2) := by
  simp only [Proc.regions,Proc.spaces,hemb,toList_none,List.flatMap_cons,List.flatMap_nil,List.append_nil,
    setStop_regions,mem_map]
  constructor
  · rintro ⟨_,⟨y,hy,rfl⟩,rfl⟩
    exact ⟨(p.pid,y),⟨y,hy,rfl⟩,rfl⟩
  · rintro ⟨_,⟨y,hy,rfl⟩,rfl⟩
    exact ⟨_,⟨y,hy,rfl⟩,rfl⟩

lemma Inv.heap_private (hi : s.Inv) (hp : p ∈ s.procs) (hheap : p.as.heap = some id) (hr : r ∈ p.as.regions)
    (hsh : r.shared = true) : restop id stop r = r := by
  have hpriv := ((hi.proc p hp).heap _ mem_cons_self id hheap).2 r hr
  simp only [restop]
  split
  · rename_i hid
    simp [hpriv hid] at hsh
  · rfl

lemma setStop_inv (hi : s.Inv) (hp : p ∈ s.procs) (hpc : p.pc = .user) (hheap : p.as.heap = some id)
    (hstop : stop < 2^64) : (s.setProc { p with as := setStop p.as id stop }).Inv := by
  have hpi := hi.proc p hp
  have hemb := hi.user_embryo hp hpc
  have hnodup := hi.spaceIds_nodup hp
  have hmem : ∀ x, x ∈ Proc.regions { p with as := setStop p.as id stop } ↔
      ∃ y ∈ p.regions, x = (y.1,restop id stop y.2) := fun x => mem_setStop_regions hemb
  have hown : ∀ y ∈ p.regions, y.2 ∈ p.as.regions := by
    intro y hy
    obtain ⟨as,he,hr⟩ := Proc.mem_regions.mp hy
    obtain ⟨-,rfl⟩ : y.1 = p.pid ∧ as = p.as := by simpa [Proc.spaces,hemb] using he
    exact hr
  have hshared : ∀ y ∈ p.regions, y.2.shared = true → restop id stop y.2 = y.2 := fun y hy hsh =>
    hi.heap_private hp hheap (hown y hy) hsh
  have hspace : ∀ e ∈ Proc.spaces { p with as := setStop p.as id stop }, e = (p.pid,setStop p.as id stop) := by
    intro e he
    simpa [Proc.spaces,hemb] using he
  refine hi.updateLocal { p with as := setStop p.as id stop } hp rfl rfl rfl le_rfl hnodup (fun i h => .inl h)
    (fun _ => rfl) ⟨?_,?_,?_,?_,?_,?_,?_,?_,?_,by simp [hpc,Pc.holds],by simpa [PcInv,hpc] using hemb⟩
  · have hids := hpi.ids
    simp only [Proc.regions,Proc.spaces,hemb,toList_none,List.flatMap_cons,List.flatMap_nil,List.append_nil,
      setStop_regions,map_map,comp_def,restop_id] at hids ⊢
    exact hids
  · intro x hx
    obtain ⟨y,hy,rfl⟩ := (hmem x).mp hx
    simp only [restop_start]
    exact hpi.aligned y hy
  · intro x hx
    obtain ⟨y,hy,rfl⟩ := (hmem x).mp hx
    simp only [restop_start]
    refine ⟨(hpi.words y hy).1,?_⟩
    simp only [restop]
    split
    · exact hstop
    · exact (hpi.words y hy).2
  · intro x hx
    obtain ⟨y,hy,rfl⟩ := (hmem x).mp hx
    simp only [restop_id]
    exact hpi.below y hy
  · intro x hx
    obtain ⟨y,hy,rfl⟩ := (hmem x).mp hx
    simp only [restop_store]
    exact hpi.stored y hy
  · intro x hx c hc
    obtain ⟨y,hy,rfl⟩ := (hmem x).mp hx
    simp only [restop_store] at hc
    rw [hshared y hy (by simp [hpi.stored y hy,hc])]
    exact hpi.tracked y hy c hc
  · intro x hx c hc hn
    obtain ⟨y,hy,rfl⟩ := (hmem x).mp hx
    simp only [restop_id,restop_store] at hn ⊢
    exact hpi.owned y hy c hc hn
  · intro e he a ha b hb hsa hsb hne
    obtain rfl := hspace e he
    have hback : ∀ x ∈ (setStop p.as id stop).regions, x.shared = true → x ∈ p.as.regions := by
      intro x hx hsx
      obtain ⟨y,hy,rfl⟩ := mem_map.mp (setStop_regions p.as id stop ▸ hx)
      rw [hi.heap_private hp hheap hy (restop_store.2 ▸ hsx)]
      exact hy
    exact hpi.disjoint _ mem_cons_self a (hback a ha hsa) b (hback b hb hsb) hsa hsb hne
  · intro e he k hk
    obtain rfl := hspace e he
    obtain ⟨hlt,hpriv⟩ := hpi.heap _ mem_cons_self k hk
    refine ⟨hlt,fun x hx hid => ?_⟩
    obtain ⟨y,hy,rfl⟩ := mem_map.mp (setStop_regions p.as id stop ▸ hx)
    exact restop_store.2.trans (hpriv y hy (restop_id.symm.trans hid))

lemma sysSbrk_inv (hi : s.Inv) (hp : p ∈ s.procs) (hpc : p.pc = .user) (h : s.sysSbrk p size = some out) :
    out.shm.Inv := by
  obtain ⟨-,hs | ⟨id,stop,hheap,hstop,hs⟩⟩ := sysSbrk_cases h
  · rw [hs]
    exact hi
  · rw [hs]
    exact setStop_inv hi hp hpc hheap hstop

end sbrk

lemma Inv.step {o : Op} {out : Outcome} (hi : s.Inv) (h : s.step o = some out) : out.shm.Inv := by
  cases o with
  | spawn phs => exact spawn_inv hi h
  | createSharedRegion pid name size flag alloc =>
    obtain ⟨p,-,h⟩ := bind_eq_some_iff.mp h
    simp only [sysCreateSharedRegion] at h
    split_ifs at h
    · cases h
      exact hi
    · exact createSharedRegion_inv hi h
  | destroySharedRegion pid name =>
    obtain ⟨p,-,h⟩ := bind_eq_some_iff.mp h
    exact destroySharedRegion_inv hi h
  | createMapping pid name alloc node =>
    obtain ⟨p,hp,h⟩ := bind_eq_some_iff.mp h
    exact createMapping_inv hi (caller_mem hp).1 (caller_mem hp).2 h
  | destroyMapping pid name vaddr =>
    obtain ⟨p,hp,h⟩ := bind_eq_some_iff.mp h
    exact destroyMapping_inv hi (caller_mem hp).1 (caller_mem hp).2 h
  | sbrk pid size =>
    obtain ⟨p,hp,h⟩ := bind_eq_some_iff.mp h
    exact sysSbrk_inv hi (caller_mem hp).1 (caller_mem hp).2 h
  | fork pid =>
    obtain ⟨p,hp,h⟩ := bind_eq_some_iff.mp h
    exact fork_inv hi (caller_mem hp).1 (caller_mem hp).2 h
  | exit pid =>
    obtain ⟨p,hp,h⟩ := bind_eq_some_iff.mp h
    exact exit_inv hi (caller_mem hp).1 (caller_mem hp).2 h
  | advance pid o =>
    obtain ⟨p,hp,h⟩ := bind_eq_some_iff.mp h
    exact advance_inv hi (proc_mem hp).1 h

lemma init_inv : init.Inv := ⟨by simp [init],by simp [init],by simp [init,Distinct],by simp [init],by simp [init]⟩

lemma run_inv {ops : List Op} (h : run ops = some s) : s.Inv := by
  refine Run.invariant (fun t o t' ht hstep => ?_) init_inv h
  obtain ⟨out,hout,rfl⟩ := Option.map_eq_some_iff.mp hstep
  exact ht.step hout

end Shm
end MappedMemory
