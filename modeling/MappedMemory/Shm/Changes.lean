import MappedMemory.Shm.Lifetime

namespace MappedMemory

open Run (bind_some)
open Keyed

def Pc.torn : Pc → Option Bool
  | .tearing own _ => some own
  | .unmapping _ _ t => t.map Prod.fst
  | .unmapped _ t => t.map Prod.fst
  | .dead => some true
  | _ => none

namespace Proc

def tabled (p : Proc) : List (Nat × Addrspace) :=
  match p.pc.torn with
  | none => p.spaces
  | some true => []
  | some false => [(p.pid,p.as)]

lemma tabled_spaces {p : Proc} {x : Nat × Addrspace} (h : x ∈ p.tabled) : x ∈ p.spaces := by
  simp only [tabled] at h
  split at h
  · exact h
  · cases h
  · exact List.mem_singleton.mp h ▸ List.mem_cons_self

lemma tabled_of_torn_none {p : Proc} (h : p.pc.torn = none) : p.tabled = p.spaces := by
  simp [tabled,h]

end Proc

namespace Shm

def tabled (s : Shm) : List (Nat × Addrspace) := s.procs.flatMap Proc.tabled

variable {s s' : Shm} {p : Proc} {out : Outcome} {x y : Nat × Addrspace} {as' : Addrspace}

lemma mem_tabled : x ∈ s.tabled ↔ ∃ p ∈ s.procs, x ∈ p.tabled := List.mem_flatMap

def Same (s s' : Shm) : Prop := ∀ y, y ∈ s'.tabled ↔ y ∈ s.tabled

def Replaced (s s' : Shm) (x : Nat × Addrspace) (as' : Addrspace) : Prop :=
  ∀ y, y ∈ s'.tabled ↔ y = (x.1,as') ∨ (y ∈ s.tabled ∧ y.1 ≠ x.1)

structure Twin (r d : Memregion) : Prop where
  start : d.start = r.start
  stop : d.stop = r.stop
  perm : d.perm = r.perm
  shared : d.shared = r.shared
  store : d.store = r.store
  ofs : d.ofs = r.ofs

structure Grown (as as' : Addrspace) (r : Memregion) : Prop where
  placed : Placed r
  regions : ∀ y, y ∈ as'.regions ↔ y = r ∨ y ∈ as.regions
  apart : ∀ y ∈ as.regions, y.stop ≤ r.start ∨ r.stop ≤ y.start

inductive Change (s s' : Shm) : List Effect → Prop
  | idle : Same s s' → Change s s' []
  | free (c : Nat) : Same s s' → (∀ x ∈ s.tabled, ∀ r ∈ x.2.regions, r.store ≠ some c) → Change s s' [.freeStore c]
  | copy (x : Nat × Addrspace) (as' as0 : Addrspace) (src : Nat) (r d : Memregion) : x ∈ s.tabled →
      (src,as0) ∈ s.tabled → src ≠ x.1 → r ∈ as0.regions → Twin r d → Grown x.2 as' d → Replaced s s' x as' →
      d.id = s.next → (as'.heap = x.2.heap ∨ as0.heap = some r.id ∧ as'.heap = some d.id) →
      Change s s' (if r.shared then [] else [.cowCopy src x.1 r true])
  | erase (x : Nat × Addrspace) (r : Memregion) : x ∈ s.tabled → r ∈ x.2.regions →
      Replaced s s' x (x.2.memregionUnmapInternal r.id) → Change s s' [.unmap x.1 r]
  | drop (x : Nat × Addrspace) (es : List Effect) : x ∈ s.tabled →
      (∀ y, y ∈ s'.tabled ↔ y ∈ s.tabled ∧ y.1 ≠ x.1) →
      (es = [] ∨ ∃ src as0 r d, (src,as0) ∈ s.tabled ∧ r ∈ as0.regions ∧ r.shared = false ∧
        es = [.cowCopy src x.1 r false,.unmap x.1 d]) →
      Change s s' (es ++ [.destroyTable x.1])

lemma tabled_id (h : x ∈ p.tabled) : x.1 ∈ p.spaceIds := List.mem_map.mpr ⟨x,Proc.tabled_spaces h,rfl⟩

lemma Inv.tabled_lt (hi : s.Inv) (hx : x ∈ s.tabled) : x.1 < s.next := by
  obtain ⟨p,hp,hx⟩ := mem_tabled.mp hx
  exact hi.spaceLt p hp _ (tabled_id hx)

lemma Inv.spaces_unique (hi : s.Inv) (hp : p ∈ s.procs) (hx : x ∈ p.spaces) (hy : y ∈ p.spaces)
    (he : x.1 = y.1) : x = y := List.inj_on_of_nodup_map (hi.spaceIds_nodup hp) hx hy he

lemma Inv.tabled_unique (hi : s.Inv) (hx : x ∈ s.tabled) (hy : y ∈ s.tabled) (he : x.1 = y.1) : x = y := by
  obtain ⟨p,hp,hxp⟩ := mem_tabled.mp hx
  obtain ⟨q,hq,hyq⟩ := mem_tabled.mp hy
  by_cases hpq : q.pid = p.pid
  · obtain rfl := hi.pids.eq hq hp hpq
    exact hi.spaces_unique hp (Proc.tabled_spaces hxp) (Proc.tabled_spaces hyq) he
  · exact absurd (he ▸ tabled_id hyq) (hi.spaces_apart hp hq hpq (tabled_id hxp))

lemma Inv.tabled_region {r : Memregion} (hx : x ∈ s.tabled) (hr : r ∈ x.2.regions) :
    ∃ p ∈ s.procs, (x.1,r) ∈ p.regions := by
  obtain ⟨p,hp,hxp⟩ := mem_tabled.mp hx
  exact ⟨p,hp,Proc.mem_regions.mpr ⟨x.2,Proc.tabled_spaces hxp,hr⟩⟩

lemma Inv.store_none {r : Memregion} (hi : s.Inv) (hx : x ∈ s.tabled) (hr : r ∈ x.2.regions)
    (h : r.shared = false) : r.store = none := by
  obtain ⟨p,hp,hpr⟩ := Inv.tabled_region hx hr
  simpa [h] using (hi.proc p hp).stored _ hpr

lemma Inv.distinct_regions (hi : s.Inv) (hx : x ∈ s.tabled) : Distinct Memregion.id x.2.regions := by
  obtain ⟨p,hp,hxp⟩ := mem_tabled.mp hx
  refine (hi.proc p hp).ids.sublist ?_
  have hsub := (List.sublist_flatten_of_mem (List.mem_map_of_mem (f := fun e : Nat × Addrspace =>
    e.2.regions.map fun r => (e.1,r)) (Proc.tabled_spaces hxp))).map fun y => y.2.id
  simpa [Proc.regions,List.flatMap,Function.comp_def] using hsub

def Elsewhere (s : Shm) (p : Proc) (y : Nat × Addrspace) : Prop := ∃ q ∈ s.procs, q.pid ≠ p.pid ∧ y ∈ q.tabled

section update
variable (p' : Proc) (hi : s.Inv) (hp : p ∈ s.procs) (hpid : p'.pid = p.pid) (hs : s'.procs = (s.setProc p').procs)
include hi hp hpid hs

lemma mem_tabled_update : y ∈ s'.tabled ↔ y ∈ p'.tabled ∨ s.Elsewhere p y := by
  have hmem : ∀ q, q ∈ s'.procs ↔ q = p' ∨ (q ∈ s.procs ∧ q.pid ≠ p.pid) := fun q => by
    rw [hs,setProc,hpid,hi.pids.mem_modify hp rfl]
  simp only [mem_tabled,hmem,Elsewhere]
  constructor
  · rintro ⟨q,rfl | ⟨hq,hne⟩,hy⟩
    · exact .inl hy
    · exact .inr ⟨q,hq,hne,hy⟩
  · rintro (hy | ⟨q,hq,hne,hy⟩)
    · exact ⟨p',.inl rfl,hy⟩
    · exact ⟨q,.inr ⟨hq,hne⟩,hy⟩

omit hpid hs in
lemma mem_tabled_split : y ∈ s.tabled ↔ y ∈ p.tabled ∨ s.Elsewhere p y := by
  rw [mem_tabled]
  constructor
  · rintro ⟨q,hq,hy⟩
    by_cases hne : q.pid = p.pid
    · exact .inl (hi.pids.eq hq hp hne ▸ hy)
    · exact .inr ⟨q,hq,hne,hy⟩
  · rintro (hy | ⟨q,hq,-,hy⟩)
    · exact ⟨p,hp,hy⟩
    · exact ⟨q,hq,hy⟩

omit hpid hs in
lemma others_apart (hx : x ∈ p.tabled) (h : s.Elsewhere p y) : y.1 ≠ x.1 := by
  obtain ⟨q,hq,hne,hy⟩ := h
  exact fun he => hi.spaces_apart hp hq hne (tabled_id hx) (he ▸ tabled_id hy)

lemma same_update (h : p'.tabled = p.tabled) : Same s s' := fun y => by
  rw [mem_tabled_update p' hi hp hpid hs,mem_tabled_split hi hp,h]

lemma replaced_update (hx : x ∈ p.tabled) (h : p'.tabled = Keyed.modify Prod.fst x.1 (fun _ => (x.1,as')) p.tabled) :
    Replaced s s' x as' := fun y => by
  have hapart := others_apart (y := y) hi hp hx
  have hmem : y ∈ p'.tabled ↔ y = (x.1,as') ∨ (y ∈ p.tabled ∧ y.1 ≠ x.1) := by
    rw [h,mem_modify]
    constructor
    · rintro (⟨-,-,-,rfl⟩ | hy)
      · exact .inl rfl
      · exact .inr hy
    · rintro (rfl | hy)
      · exact .inl ⟨x,hx,rfl,rfl⟩
      · exact .inr hy
  rw [mem_tabled_update p' hi hp hpid hs,mem_tabled_split hi hp,hmem]
  tauto

lemma dropped_update (hx : x ∈ p.tabled) (h : p'.tabled = remove Prod.fst x.1 p.tabled) :
    ∀ y, y ∈ s'.tabled ↔ y ∈ s.tabled ∧ y.1 ≠ x.1 := fun y => by
  have hapart := others_apart (y := y) hi hp hx
  rw [mem_tabled_update p' hi hp hpid hs,mem_tabled_split hi hp,h,mem_remove]
  tauto

end update

variable {as : Addrspace} {r : Memregion} {id size ofs : Nat} {store : Option Nat} {shared alloc : Bool}
  {perm : Memperm} {name : List Nat}

lemma NewRegion.grown (h : NewRegion as as' r id size store shared) : Grown as as' r :=
  ⟨h.placed,fun y => by rw [h.perm.mem_iff,List.mem_cons],h.apart⟩

lemma Inv.user_tabled (hi : s.Inv) (hp : p ∈ s.procs) (hpc : p.pc = .user) : p.tabled = [(p.pid,p.as)] := by
  simp [Proc.tabled,Pc.torn,hpc,Proc.spaces,hi.user_embryo hp hpc]

lemma tabled_embryo {child : Nat} (ht : p.pc.torn = none) (hemb : p.embryo = some (child,as)) :
    p.tabled = [(p.pid,p.as),(child,as)] := by
  simp [Proc.tabled,ht,Proc.spaces,hemb]

lemma mapInternal_unmap {addr : Nat} (haddr : addr < 2^64) (hsize : size < 2^64)
    (h : as.memregionMapInternal id addr size perm store ofs shared alloc = some (as',some r))
    (hfresh : ∀ y ∈ as.regions, y.id ≠ id) : as'.memregionUnmapInternal r.id = as := by
  have hregions := (newRegion haddr hsize h).1.unmap hfresh
  rcases Addrspace.memregionMapInternal_cases haddr hsize h with ⟨_,hn⟩ | ⟨a,-,hins⟩
  · cases hn
  · obtain ⟨k,rs,hp⟩ := as
    obtain rfl := hins.space
    simp only [Addrspace.memregionUnmapInternal] at hregions ⊢
    rw [hregions]

lemma mapAnywhere_start (h : as.memregionMapInternal id addrAnywhere size perm store ofs shared alloc = some (as',some r)) :
    as.findFreeVaddr size = some (some r.start) := by
  simp only [Addrspace.memregionMapInternal,if_true,bind_some] at h
  obtain ⟨found,hfound,h⟩ := h
  cases found with
  | none => cases h
  | some a =>
    rcases Addrspace.memregionMapAt_cases h with ⟨_,hn⟩ | ⟨ho,-⟩
    · cases hn
    · rw [hfound,Option.some_inj.mp ho]

structure Mapping (s s' : Shm) (p : Proc) (c : Smemcontext) (as' : Addrspace) (r : Memregion) : Prop where
  context : c ∈ s.ctable
  found : p.as.findFreeVaddr c.bytes = some (some r.start)
  grown : Grown p.as as' r
  store : r.store = some c.id
  shared : r.shared = true
  ofs : r.ofs = 0
  stop : r.stop = r.start + c.bytes
  replaced : Replaced s s' (p.pid,p.as) as'

lemma createMapping_cases {node : Bool} (hi : s.Inv) (hp : p ∈ s.procs)
    (hpc : p.pc = .user) (h : s.createMapping p name alloc node = some out) :
    (Same s out.shm ∧ (out.effects = [] ∨ ∃ r, out.effects = [.unmap p.pid r])) ∨
      (out.effects = [] ∧ ∃ c as' r, s.getContextByHandle name none = some c ∧ Mapping s out.shm p c as' r) := by
  have htab := hi.user_tabled hp hpc
  have hemb := hi.user_embryo hp hpc
  have hself : (p.pid,p.as) ∈ p.tabled := by simp [htab]
  simp only [createMapping] at h
  split at h
  · cases h
    exact .inl ⟨fun _ => Iff.rfl,.inl rfl⟩
  rename_i c hget
  have hc := (getContext_mem hget).1
  simp only [bind_some,Prod.exists] at h
  obtain ⟨as,mr,hmap,h⟩ := h
  cases mr with
  | none =>
    cases h
    exact .inl ⟨fun _ => Iff.rfl,.inl rfl⟩
  | some r =>
    obtain ⟨hnew,-,hofs,-⟩ := newRegion (by decide) (bytes_lt c) hmap
    cases node with
    | true =>
      cases h
      refine .inr ⟨rfl,c,as,r,hget,hc,mapAnywhere_start hmap,hnew.grown,hnew.store,hnew.shared,hofs,
        hnew.stop,replaced_update { p with as := as } hi hp rfl rfl hself ?_⟩
      rw [htab]
      simp [Proc.tabled,Pc.torn,hpc,Proc.spaces,hemb,Keyed.modify]
    | false =>
      cases h
      have hback := mapInternal_unmap (by decide) (bytes_lt c) hmap
        fun y hy => ((hi.proc p hp).below _ (own_region hy)).ne
      refine .inl ⟨same_update { p with as := as.memregionUnmapInternal r.id } hi hp rfl rfl ?_,.inr ⟨r,rfl⟩⟩
      rw [hback]

lemma destroyMapping_change {vaddr : Nat} (hi : s.Inv) (hp : p ∈ s.procs)
    (hpc : p.pc = .user) (h : s.destroyMapping p name vaddr = some out) : Change s out.shm out.effects := by
  simp only [destroyMapping] at h
  split at h
  · cases h
    exact .idle fun _ => Iff.rfl
  · split at h
    · cases h
      exact .idle fun _ => Iff.rfl
    · rename_i t n hfind
      obtain ⟨rfl,-⟩ := findRemove_some hfind
      cases h
      refine .idle (same_update { p with pc := .unmapping _ n.mr none } hi hp rfl rfl ?_)
      simp [Proc.tabled,Pc.torn,hpc,Proc.spaces]

structure Moved (s s' : Shm) (p : Proc) (r : Memregion) (size : Int) : Prop where
  heap : p.as.heap = some r.id
  found : p.as.regions.find? (fun y => y.id == r.id) = some r
  grows : 0 < size → ∀ mr, p.as.asFindMemregion r.stop size.toNat = some mr → mr.id = r.id
  shrinks : size ≤ 0 → int32 (-size) ≤ int32 (sub64 r.stop r.start)
  replaced : Replaced s s' (p.pid,p.as) (setStop p.as r.id (sizeT (r.stop + size)))

lemma sysSbrk_moved {size : Int} (hi : s.Inv) (hp : p ∈ s.procs) (hpc : p.pc = .user)
    (h : s.sysSbrk p size = some out) : out.effects = [] ∧
      (out.shm = s ∨ ∃ r, Moved s out.shm p r (int32 size)) := by
  have htab := hi.user_tabled hp hpc
  have hself : (p.pid,p.as) ∈ p.tabled := by simp [htab]
  simp only [sysSbrk] at h
  split at h
  · cases h
    exact ⟨rfl,.inl rfl⟩
  rename_i heap hheap
  simp only [bind_some] at h
  obtain ⟨r,hr,h⟩ := h
  obtain rfl : r.id = heap := by simpa using List.find?_some hr
  have hrep : Replaced s (s.setProc { p with as := setStop p.as r.id (sizeT (r.stop + int32 size)) }) (p.pid,p.as)
      (setStop p.as r.id (sizeT (r.stop + int32 size))) := by
    refine replaced_update { p with as := setStop p.as r.id (sizeT (r.stop + int32 size)) } hi hp rfl rfl hself ?_
    rw [htab]
    simp [Proc.tabled,Pc.torn,hpc,Proc.spaces,hi.user_embryo hp hpc,Keyed.modify]
  simp only [memregionExtend,returns,fail] at h
  split at h
  · cases h
    exact ⟨rfl,.inl rfl⟩
  rename_i hzero
  split at h
  · rename_i hpos
    have hneg : ¬ int32 size ≤ 0 := by omega
    split at h
    · rename_i mr hmr
      split at h
      · cases h
        exact ⟨rfl,.inl rfl⟩
      · rename_i hid
        cases h
        refine ⟨rfl,.inr ⟨r,hheap,hr,fun _ m hm => ?_,fun hn => absurd hn hneg,hrep⟩⟩
        rw [Option.some_inj.mp (hm.symm.trans hmr)]
        exact not_not.mp hid
    · rename_i hnone
      cases h
      exact ⟨rfl,.inr ⟨r,hheap,hr,fun _ m hm => absurd (hm.symm.trans hnone) (by simp),fun hn => absurd hn hneg,hrep⟩⟩
  · rename_i hpos
    split at h
    · rename_i hroom
      cases h
      exact ⟨rfl,.inr ⟨r,hheap,hr,fun hp => absurd hp hpos,fun _ => hroom,hrep⟩⟩
    · cases h
      exact ⟨rfl,.inl rfl⟩

lemma fork_change {pid : Nat} (hi : s.Inv) (h : s.step (.fork pid) = some out) : out.effects = [] ∧
    out.shm.ctable = s.ctable ∧ ∀ y, y ∈ out.shm.tabled ↔ y = (s.next,⟨false,[],none⟩) ∨ y ∈ s.tabled := by
  obtain ⟨p,hcall,h⟩ := Option.bind_eq_some_iff.mp h
  obtain ⟨hp,hpc⟩ := caller_mem hcall
  have htab := hi.user_tabled hp hpc
  cases h
  refine ⟨rfl,rfl,fun y => (mem_tabled_update
    { p with embryo := some (s.next,⟨false,[],none⟩), pc := .forking p.as.regions } hi hp rfl rfl).trans ?_⟩
  rw [mem_tabled_split hi hp,htab]
  simp only [Proc.tabled,Pc.torn,Proc.spaces,Option.toList_some,List.mem_cons,List.not_mem_nil,or_false]
  tauto

lemma exit_change (hi : s.Inv) (hp : p ∈ s.procs) (hpc : p.pc = .user) (h : s.exit p = some out) :
    Change s out.shm out.effects := by
  have htab := hi.user_tabled hp hpc
  have hself : (p.pid,p.as) ∈ p.tabled := by simp [htab]
  cases h
  refine .drop (p.pid,p.as) [] (mem_tabled.mpr ⟨p,hp,hself⟩)
    (dropped_update { p with pc := .tearing true p.as.regions } hi hp rfl rfl hself ?_) (.inl rfl)
  rw [htab]
  simp [Proc.tabled,Pc.torn,remove]

section fork
variable {child : Nat} {as : Addrspace} {rest : List Memregion}

lemma abortFork_change {effects : List Effect} {d : Memregion} (t : Shm) (hi : s.Inv) (hp : p ∈ s.procs)
    (ht : p.pc.torn = none) (hemb : p.embryo = some (child,as)) (hprocs : t.procs = s.procs)
    (he : effects = [] ∨ ∃ r ∈ p.as.regions, r.shared = false ∧
      effects = [.cowCopy p.pid child r false,.unmap child d])
    (h : t.abortFork p child as effects = some out) : Change s out.shm out.effects := by
  have htab := tabled_embryo ht hemb
  have hne := hi.embryo_ne hp hemb
  have hself : (child,as) ∈ p.tabled := by simp [htab]
  have hown : (p.pid,p.as) ∈ s.tabled := mem_tabled.mpr ⟨p,hp,by simp [htab]⟩
  cases h
  refine .drop (child,as) effects (mem_tabled.mpr ⟨p,hp,hself⟩)
    (dropped_update { p with embryo := some (child,as), pc := .tearing false as.regions } hi hp rfl ?_ hself ?_) ?_
  · simp [setProc,hprocs]
  · rw [htab]
    simp [Proc.tabled,Pc.torn,remove,hne]
  · rcases he with he | ⟨r,hr,hsh,he⟩
    · exact .inl he
    · exact .inr ⟨p.pid,p.as,r,d,hown,hr,hsh,he⟩

section
variable (hi : s.Inv) (hp : p ∈ s.procs) (hemb : p.embryo = some (child,as))
include hi hp hemb

lemma asCopyRegion_change {r : Memregion} {o : Oracle} (hpc : p.pc = .forking (r :: rest))
    (h : s.asCopyRegion p child as r rest o = some out) : Change s out.shm out.effects := by
  have hpi := hi.proc p hp
  have ht : p.pc.torn = none := by simp [hpc,Pc.torn]
  have htab := tabled_embryo ht hemb
  have hne := hi.embryo_ne hp hemb
  have hself : (child,as) ∈ p.tabled := by simp [htab]
  have hown : (p.pid,p.as) ∈ s.tabled := mem_tabled.mpr ⟨p,hp,by simp [htab]⟩
  have hr : r ∈ p.as.regions := by
    have := hpi.pc
    simp only [PcInv,hpc] at this
    exact this.2 r List.mem_cons_self
  have hwords := hpi.words _ (own_region hr)
  simp only [asCopyRegion,bind_some,Prod.exists] at h
  obtain ⟨as1,dst,hmap,h⟩ := h
  cases dst with
  | none => exact abortFork_change (d := r) s hi hp ht hemb rfl (.inl rfl) h
  | some d =>
    obtain ⟨hnew,hperm,hofs,hstart⟩ := newRegion hwords.1 (Addrspace.sub64_lt _ _) hmap
    have hback := mapInternal_unmap hwords.1 (Addrspace.sub64_lt _ _) hmap
      fun y hy => (hpi.below _ (embryo_region hemb hy)).ne
    have haligned := hpi.aligned _ (own_region hr)
    have hany : r.start ≠ addrAnywhere := by
      rintro he
      simp [he,pgAligned,addrAnywhere,pgSize] at haligned
    have hstop : d.stop = r.stop := by
      have h1 : d.stop = d.start + sub64 r.stop r.start := hnew.stop
      have h2 : d.stop < 2^64 := hnew.placed.word
      have h3 : d.start = r.start := hstart hany
      have h4 : r.start < 2^64 ∧ r.stop < 2^64 := hwords
      simp only [sub64,u64] at h1
      omega
    have htwin : Twin r d := ⟨hstart hany,hstop,hperm,hnew.shared,hnew.store,hofs⟩
    have hcopy : ∀ (as' : Addrspace) (pc : Pc) (t : Shm), as'.regions = as1.regions →
        (as'.heap = as1.heap ∨ p.as.heap = some r.id ∧ as'.heap = some d.id) → pc.torn = none → t.procs = (s.setProc { p with embryo := some (child,as'), pc := pc }).procs →
        Change s t (if r.shared then [] else [.cowCopy p.pid child r true]) := by
      intro as' pc t has hheap hpc' hprocs
      refine .copy (child,as) as' p.as p.pid r d (mem_tabled.mpr ⟨p,hp,hself⟩) hown hne hr htwin
        ⟨hnew.placed,fun y => by rw [has,hnew.grown.regions],hnew.apart⟩
        (replaced_update { p with embryo := some (child,as'), pc := pc } hi hp rfl hprocs hself ?_) hnew.id
        (hheap.imp (fun h => h.trans hnew.heap) id)
      rw [htab,tabled_embryo (p := { p with embryo := some (child,as'), pc := pc }) hpc' rfl]
      simp [Keyed.modify,hne]
    cases hsh : r.shared with
    | true =>
      simp only [hsh,if_true] at h hcopy
      split at h
      · cases h
      · cases h
        exact hcopy as1 (.linked _ d.id rest) _ rfl (.inl rfl) rfl rfl
    | false =>
      simp only [hsh,Bool.false_eq_true,if_false] at h hcopy
      split at h
      · cases h
        refine hcopy { as1 with heap := if p.as.heap = some r.id then some d.id else as1.heap } (.forking rest) _ rfl
          ?_ rfl rfl
        by_cases hh : p.as.heap = some r.id
        · exact .inr ⟨hh,by simp [hh]⟩
        · exact .inl (by simp [hh])
      · rw [hback] at h
        exact abortFork_change { s with next := s.next + 1 } hi hp ht hemb rfl (.inr ⟨r,hr,hsh,rfl⟩) h

lemma addContextRef_change {ctx mr : Nat} {node : Bool} (hpc : p.pc = .linked ctx mr rest)
    (h : s.addContextRef p child as ctx mr rest node = some out) : Change s out.shm out.effects := by
  have ht : p.pc.torn = none := by simp [hpc,Pc.torn]
  have htab := tabled_embryo ht hemb
  have hne := hi.embryo_ne hp hemb
  have hself : (child,as) ∈ p.tabled := by simp [htab]
  simp only [addContextRef,bind_some] at h
  obtain ⟨c,-,d,hd,h⟩ := h
  have hdid : d.id = mr := by simpa using List.find?_some hd
  cases node with
  | true =>
    cases h
    refine .idle (same_update { p with pc := .forking rest } hi hp rfl rfl ?_)
    rw [htab,tabled_embryo (p := { p with pc := .forking rest }) rfl hemb]
  | false =>
    cases h
    refine .erase (child,as) d (mem_tabled.mpr ⟨p,hp,hself⟩) (List.mem_of_find?_eq_some hd)
      (replaced_update { p with embryo := some (child,as.memregionUnmapInternal mr), pc := .forking rest } hi hp rfl rfl
        hself ?_)
    rw [htab]
    simp [Proc.tabled,Pc.torn,Proc.spaces,Keyed.modify,hne,hdid]

lemma forkDone_change (hpc : p.pc = .forking rest)
    (hprocs : s'.procs = (s.setProc { p with embryo := none, pc := .user }).procs ++ [⟨child,as,none,.user⟩]) :
    Same s s' := by
  intro y
  have htab := tabled_embryo (show p.pc.torn = none by simp [hpc,Pc.torn]) hemb
  have hparent : y ∈ (s.setProc { p with embryo := none, pc := .user }).tabled ↔ y = (p.pid,p.as) ∨ s.Elsewhere p y := by
    rw [mem_tabled_update { p with embryo := none, pc := .user } hi hp rfl rfl]
    simp [Proc.tabled,Pc.torn,Proc.spaces]
  have hsplit : y ∈ s'.tabled ↔ y ∈ (s.setProc { p with embryo := none, pc := .user }).tabled ∨ y = (child,as) := by
    simp only [tabled,hprocs,List.flatMap_append,List.mem_append]
    simp [Proc.tabled,Pc.torn,Proc.spaces]
  rw [hsplit,hparent,mem_tabled_split hi hp,htab]
  simp only [List.mem_cons,List.not_mem_nil,or_false]
  tauto

end

end fork

section teardown
variable {own : Bool} {rest : List Memregion} {r : Memregion} {pc : Pc} {ctx : Nat}
  {t : Option (Bool × List Memregion)}

lemma setTarget_tabled {as : Addrspace} (h : p.pc.torn = some own) (hpc : pc.torn = some own) :
    Proc.tabled { setTarget p own as with pc := pc } = p.tabled := by
  cases own <;> simp [Proc.tabled,h,hpc,setTarget]

lemma torn_tabled (h : pc.torn = p.pc.torn) : Proc.tabled { p with pc := pc } = p.tabled := by
  simp [Proc.tabled,h,Proc.spaces]

lemma asDestroyRegion_change (hi : s.Inv) (hp : p ∈ s.procs) (hpc : p.pc = .tearing own (r :: rest))
    (h : s.asDestroyRegion p own r rest = some out) : Change s out.shm out.effects := by
  have ht : p.pc.torn = some own := by simp [hpc,Pc.torn]
  simp only [asDestroyRegion,bind_some,Prod.exists] at h
  obtain ⟨space,as,htarget,h⟩ := h
  split at h
  · simp only [bind_some] at h
    obtain ⟨store,-,c,-,h⟩ := h
    split at h
    · cases h
      exact .idle (same_update { p with pc := .tearing own rest } hi hp rfl rfl (torn_tabled ht.symm))
    · rename_i t n hfind
      obtain ⟨rfl,-⟩ := findRemove_some hfind
      cases h
      exact .idle (same_update { p with pc := .unmapping c.id r.id (some (own,rest)) } hi hp rfl rfl
        (torn_tabled ht.symm))
  · cases h
    exact .idle (same_update { setTarget p own (as.memregionUnmapInternal r.id) with pc := .tearing own rest } hi hp
      setTarget_pid rfl (setTarget_tabled ht rfl))

lemma memregionUnmap_change {mr : Nat} (hi : s.Inv) (hp : p ∈ s.procs)
    (hpc : p.pc = .unmapping ctx mr t) (h : s.memregionUnmap p ctx mr t = some out) :
    Change s out.shm out.effects := by
  simp only [memregionUnmap,bind_some,Prod.exists] at h
  obtain ⟨space,as,htarget,r,hr,h⟩ := h
  have hid : r.id = mr := by simpa using List.find?_some hr
  cases t with
  | none =>
    cases h
    cases htarget
    have hemb : p.embryo = none := by
      have := (hi.proc p hp).pc
      simp only [PcInv,hpc] at this
      exact this.1.1
    have htab : p.tabled = [(p.pid,p.as)] := by simp [Proc.tabled,hpc,Pc.torn,Proc.spaces,hemb]
    have hself : (p.pid,p.as) ∈ p.tabled := by simp [htab]
    refine .erase (p.pid,p.as) r (mem_tabled.mpr ⟨p,hp,hself⟩) (List.mem_of_find?_eq_some hr)
      (replaced_update { p with as := p.as.memregionUnmapInternal mr, pc := .unmapped ctx none } hi hp rfl rfl hself ?_)
    rw [htab]
    simp [Proc.tabled,Pc.torn,Proc.spaces,Keyed.modify,hemb,hid]
  | some t =>
    obtain ⟨own,rest⟩ := t
    cases h
    exact .idle (same_update { setTarget p own (as.memregionUnmapInternal mr) with pc := .unmapped ctx (some (own,rest)) }
      hi hp setTarget_pid rfl (setTarget_tabled (by simp [hpc,Pc.torn]) rfl))

lemma destroyInternal_change {c : Smemcontext} {force : Bool} {t : Shm} (hsame : Same s t) (hi : t.Inv)
    (hc : c ∈ t.ctable) (h : t.destroySharedRegionInternal c force = some out) : Change s out.shm out.effects := by
  rcases destroySharedRegionInternal_cases h with ⟨hs,he⟩ | ⟨hz,-,rfl⟩
  · rw [hs,he]
    exact .idle hsame
  · refine .free c.id hsame fun x hx r hr hst => ?_
    obtain ⟨q,hq,hxq⟩ := mem_tabled.mp ((hsame x).mpr hx)
    exact (hi.unreferenced hc hz).2 q hq (.inl ⟨(x.1,r),Proc.mem_regions.mpr ⟨x.2,Proc.tabled_spaces hxq,hr⟩,hst⟩)

lemma dropContextRef_change (hi : s.Inv) (hp : p ∈ s.procs)
    (hpc : p.pc = .unmapped ctx t) (h : s.dropContextRef p ctx t = some out) : Change s out.shm out.effects := by
  obtain ⟨c,hc,rfl,⟨-,-,-,h⟩ | rfl⟩ := dropContextRef_cases h
  all_goals
    have hsame : Same s ((s.setContext { c with refcnt := c.refcnt - 1 }).setProc
        { p with pc := t.elim .user fun t => .tearing t.1 t.2 }) := by
      refine same_update { p with pc := t.elim .user fun t => .tearing t.1 t.2 } hi hp rfl rfl (torn_tabled ?_)
      cases t <;> simp [hpc,Pc.torn]
  · have hmem := (mem_setContext { c with refcnt := c.refcnt - 1 } hi hc rfl).mpr (.inl rfl)
    exact destroyInternal_change hsame (hi.dropRef hp hc hpc) hmem h
  · exact .idle hsame

lemma tearDone_change (hi : s.Inv) (hp : p ∈ s.procs) (hpc : p.pc = .tearing own []) :
    Same s (s.setProc { p with pc := if own then .dead else .user, embryo := none }) := by
  refine same_update { p with pc := if own then .dead else .user, embryo := none } hi hp rfl rfl ?_
  cases own <;> simp [Proc.tabled,hpc,Pc.torn,Proc.spaces]

end teardown

lemma advance_change {o : Oracle} (hi : s.Inv) (hp : p ∈ s.procs) (h : s.advance p o = some out) :
    Change s out.shm out.effects := by
  simp only [advance] at h
  split at h
  · cases h
  · cases h
  · rename_i rest hpc
    split at h
    · cases h
    rename_i child as hemb
    split at h
    · exact asCopyRegion_change hi hp hemb hpc h
    · split at h
      · cases h
        exact .idle (forkDone_change hi hp hemb hpc rfl)
      · exact abortFork_change (d := ⟨0,0,0,.r,false,none,0⟩) s hi hp (by simp [hpc,Pc.torn]) hemb rfl (.inl rfl) h
  · rename_i ctx mr rest hpc
    split at h
    · cases h
    rename_i child as hemb
    exact addContextRef_change hi hp hemb hpc h
  · rename_i own hpc
    cases h
    exact .idle (tearDone_change hi hp hpc)
  · rename_i own r rest hpc
    exact asDestroyRegion_change hi hp hpc h
  · rename_i ctx mr t hpc
    exact memregionUnmap_change hi hp hpc h
  · rename_i ctx t hpc
    exact dropContextRef_change hi hp hpc h

def Op.plain : Op → Bool
  | .spawn _ | .fork _ | .createMapping _ _ _ _ | .sbrk _ _ => false
  | _ => true

lemma step_change {o : Op} (hi : s.Inv) (ho : o.plain = true) (h : s.step o = some out) :
    Change s out.shm out.effects := by
  cases o with
  | spawn _ | fork _ | createMapping _ _ _ _ | sbrk _ _ => cases ho
  | createSharedRegion pid name size flag alloc =>
    obtain ⟨p,-,h⟩ := Option.bind_eq_some_iff.mp h
    simp only [sysCreateSharedRegion,createSharedRegion,fail,done] at h
    split_ifs at h <;> cases h <;> exact .idle fun _ => Iff.rfl
  | destroySharedRegion pid name =>
    obtain ⟨p,-,h⟩ := Option.bind_eq_some_iff.mp h
    simp only [destroySharedRegion] at h
    split at h
    · cases h
      exact .idle fun _ => Iff.rfl
    · rename_i c hget
      exact destroyInternal_change (fun _ => Iff.rfl) hi (getContext_mem hget).1 h
  | destroyMapping pid name vaddr =>
    obtain ⟨p,hp,h⟩ := Option.bind_eq_some_iff.mp h
    exact destroyMapping_change hi (caller_mem hp).1 (caller_mem hp).2 h
  | exit pid =>
    obtain ⟨p,hp,h⟩ := Option.bind_eq_some_iff.mp h
    exact exit_change hi (caller_mem hp).1 (caller_mem hp).2 h
  | advance pid o =>
    obtain ⟨p,hp,h⟩ := Option.bind_eq_some_iff.mp h
    exact advance_change hi (proc_mem hp).1 h

lemma step_frees {o : Op} {c : Smemcontext} (h : s.step o = some out) (hc : c ∈ s.ctable) :
    (∃ d ∈ out.shm.ctable, d.id = c.id) ∨ .freeStore c.id ∈ out.effects := by
  have hremoved : ∀ {t : Shm} {d : Smemcontext} {force : Bool}, (∃ c' ∈ t.ctable, c'.id = c.id) →
      t.destroySharedRegionInternal d force = some out →
      (∃ d ∈ out.shm.ctable, d.id = c.id) ∨ .freeStore c.id ∈ out.effects := by
    intro t d force hex hcall
    rcases destroySharedRegionInternal_cases hcall with ⟨hs,-⟩ | ⟨-,-,rfl⟩
    · exact .inl (hs ▸ hex)
    · obtain ⟨c',hc',hid⟩ := hex
      by_cases hcd : c.id = d.id
      · exact .inr (by simp [hcd])
      · exact .inl ⟨c',mem_remove.mpr ⟨hc',hid.symm ▸ hcd⟩,hid⟩
  rcases step_keeps h with hk | ⟨pid,name,rfl,hcall⟩ | ⟨pid,or,p,ctx,t,rfl,hp,hpc,hcall⟩
  · exact .inl (hk.ids c hc)
  · simp only [destroySharedRegion] at hcall
    split at hcall
    · cases hcall
      exact .inl ⟨c,hc,rfl⟩
    · exact hremoved ⟨c,hc,rfl⟩ hcall
  · have hset : ∀ d : Smemcontext, ∃ c' ∈ (s.setContext d).ctable, c'.id = c.id := fun d => by
      by_cases hid : c.id = d.id
      · exact ⟨d,mem_modify.mpr (.inl ⟨c,hc,hid,rfl⟩),hid.symm⟩
      · exact ⟨c,mem_modify.mpr (.inr ⟨hc,hid⟩),rfl⟩
    obtain ⟨d,hd,rfl,⟨-,-,-,hfree⟩ | rfl⟩ := dropContextRef_cases hcall
    · refine hremoved ?_ hfree
      exact hset _
    · exact .inl (hset _)

end Shm
end MappedMemory
