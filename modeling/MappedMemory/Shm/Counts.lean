import MappedMemory.Shm.Steps

namespace MappedMemory

open List (mem_append mem_cons mem_cons_self mem_filter mem_map)
open Option (any_eq_true bind_eq_bind bind_eq_some_iff bind_some some_inj)

open Keyed

def Pc.busy : Pc → Bool
  | .linked _ _ _ => true
  | .unmapping _ _ _ => true
  | .unmapped _ _ => true
  | _ => false

def Pc.remaining : Pc → Option (Bool × List Nat)
  | .tearing own rest => some (own,rest.map Memregion.id)
  | .unmapping _ mr (some t) => some (t.1,mr :: t.2.map Memregion.id)
  | .unmapped _ (some t) => some (t.1,t.2.map Memregion.id)
  | _ => none

namespace Shm

def quiescent (s : Shm) : Bool := s.procs.all fun p => !p.pc.busy

def liveRegions (s : Shm) (c : Nat) : List (Nat × Memregion) :=
  (s.procs.filter fun p => decide (p.pc ≠ .dead)).flatMap fun p =>
    p.regions.filter fun x => decide (x.2.store = some c)

def node (x : Nat × Memregion) : Pid2mem := ⟨x.1,x.2.id⟩

structure CountsExact (s : Shm) (c : Smemcontext) : Prop where
  refcnt : c.refcnt = c.rmap.length
  regions : c.rmap.length = (s.liveRegions c.id).length
  nodes : ∀ n ∈ c.rmap, ∃ x ∈ s.liveRegions c.id, n = node x

def releasable (s : Shm) : Op → Bool
  | .advance pid _ =>
    match (s.proc pid).map Proc.pc with
    | some (.tearing _ (r :: _)) => !r.shared || decide (r.start < r.stop)
    | _ => true
  | _ => true

def Emptying (p : Proc) : Prop :=
  ∀ own ids, p.pc.remaining = some (own,ids) → ∀ e, target p own = some e → ∀ r ∈ e.2.regions, r.id ∈ ids

structure Exact (s : Shm) : Prop where
  named : ∀ c ∈ s.ctable, ∀ n ∈ c.rmap, ∃ p ∈ s.procs, p.pc ≠ .dead ∧ ∃ x ∈ p.regions, n = node x
  emptying : ∀ p ∈ s.procs, Emptying p

variable {s s' : Shm} {p p' : Proc} {c : Smemcontext} {out : Outcome} {o : Op} {name : List Nat} {alloc : Bool}

lemma Exact.congr (h : s.Exact) (hp : s'.procs = s.procs)
    (hn : ∀ c' ∈ s'.ctable, ∀ n ∈ c'.rmap, ∃ c ∈ s.ctable, n ∈ c.rmap) : s'.Exact := by
  refine ⟨fun c' hc' n hnc => ?_,hp ▸ h.emptying⟩
  obtain ⟨c,hc,hnc⟩ := hn c' hc' n hnc
  rw [hp]
  exact h.named c hc n hnc

lemma Exact.update (p' : Proc) (h : s.Exact) (hi : s.Inv) (hp : p ∈ s.procs) (hpid : p'.pid = p.pid)
    (hprocs : s'.procs = (s.setProc p').procs)
    (hnodes : ∀ c' ∈ s'.ctable, ∀ n ∈ c'.rmap, (∃ c ∈ s.ctable, n ∈ c.rmap) ∨ ∃ x ∈ p'.regions, n = node x)
    (hkeep : ∀ x ∈ p.regions, (∃ c' ∈ s'.ctable, node x ∈ c'.rmap) → x ∈ p'.regions)
    (hlive : p'.pc = .dead → p'.regions = []) (hemp : Emptying p') : s'.Exact := by
  have hmem : ∀ q, q ∈ s'.procs ↔ q = p' ∨ (q ∈ s.procs ∧ q.pid ≠ p.pid) := fun q => by
    rw [hprocs,setProc,hi.pids.mem_modify hp hpid.symm,hpid]
  have hfound : ∀ x ∈ p'.regions, ∃ q ∈ s'.procs, q.pc ≠ .dead ∧ ∃ y ∈ q.regions, node x = node y := by
    intro x hx
    refine ⟨p',(hmem p').mpr (.inl rfl),fun hd => ?_,x,hx,rfl⟩
    simp [hlive hd] at hx
  refine ⟨fun c' hc' n hn => ?_,fun q hq => ?_⟩
  · rcases hnodes c' hc' n hn with ⟨c,hc,hnc⟩ | ⟨x,hx,rfl⟩
    · obtain ⟨q,hq,hlq,x,hx,rfl⟩ := h.named c hc n hnc
      by_cases hqp : q.pid = p.pid
      · obtain rfl := hi.pids.eq hq hp hqp
        exact hfound x (hkeep x hx ⟨c',hc',hn⟩)
      · exact ⟨q,(hmem q).mpr (.inr ⟨hq,hqp⟩),hlq,x,hx,rfl⟩
    · exact hfound x hx
  · rcases (hmem q).mp hq with rfl | ⟨hq,-⟩
    · exact hemp
    · exact h.emptying q hq

lemma nodup_liveNodes (hi : s.Inv) (c : Nat) : ((s.liveRegions c).map node).Nodup := by
  have hspace : ∀ p : Proc, ∀ n ∈ (p.regions.filter fun x => decide (x.2.store = some c)).map node,
      n.as ∈ p.spaceIds := by
    intro p n hn
    obtain ⟨x,hx,rfl⟩ := mem_map.mp hn
    exact spaceIds_of_regions (mem_filter.mp hx).1
  rw [liveRegions,List.map_flatMap,List.nodup_flatMap]
  constructor
  · intro p hp
    have hids := (hi.proc p (mem_filter.mp hp).1).ids
    refine List.Nodup.of_map Pid2mem.mr ?_
    rw [List.map_map]
    exact hids.sublist (List.filter_sublist.map _)
  · have hpw := (List.nodup_flatMap.mp hi.spaceIds).2
    refine (hpw.sublist List.filter_sublist).imp fun {p q} hpq n hn hn' => ?_
    exact hpq (hspace p n hn) (hspace q n hn')

lemma Exact.countsExact (h : s.Exact) (hi : s.Inv) (hq : s.quiescent = true) (hc : c ∈ s.ctable) :
    s.CountsExact c := by
  have hpc : ∀ p ∈ s.procs, p.pc.busy = false := by simpa [quiescent] using hq
  have hplain : ∀ p ∈ s.procs, p.pc.plain = true ∧ p.pc.holds c.id = false := by
    intro p hp
    have := hpc p hp
    cases hk : p.pc <;> simp_all [Pc.busy,Pc.plain,Pc.holds]
  have hfly : s.inFlight c.id = 0 := by
    refine List.sum_eq_zero fun k hk => ?_
    obtain ⟨p,hp,rfl⟩ := mem_map.mp hk
    simp [(hplain p hp).2]
  have hlive : ∀ x, x ∈ s.liveRegions c.id ↔
      ∃ p ∈ s.procs, p.pc ≠ .dead ∧ x ∈ p.regions ∧ x.2.store = some c.id := by
    intro x
    simp [liveRegions,List.mem_flatMap,mem_filter,and_assoc]
  have hnodes : ∀ n, n ∈ c.rmap ↔ n ∈ (s.liveRegions c.id).map node := by
    intro n
    rw [mem_map]
    constructor
    · intro hn
      obtain ⟨p,hp,hl,x,hx,rfl⟩ := h.named c hc n hn
      exact ⟨x,(hlive x).mpr ⟨p,hp,hl,hx,(hi.proc p hp).owned x hx c hc hn⟩,rfl⟩
    · rintro ⟨x,hx,rfl⟩
      obtain ⟨p,hp,-,hx,hst⟩ := (hlive x).mp hx
      obtain ⟨ctx,hctx,hid,-,hn⟩ := ((hi.proc p hp).tracked x hx c.id hst).node (hplain p hp).1
      exact hi.ctxIds.eq hctx hc hid ▸ hn
  have hnodup := nodup_liveNodes hi c.id
  have hperm : c.rmap.Perm ((s.liveRegions c.id).map node) :=
    (List.perm_ext_iff_of_nodup (hi.ctx c hc).nodup hnodup).mpr hnodes
  refine ⟨?_,?_,fun n hn => ?_⟩
  · have := (hi.ctx c hc).refcnt
    rw [hfly] at this
    simpa using this
  · simpa using hperm.length_eq
  · obtain ⟨x,hx,rfl⟩ := mem_map.mp ((hnodes n).mp hn)
    exact ⟨x,hx,rfl⟩

lemma Emptying.of_none (h : p.pc.remaining = none) : Emptying p := by
  intro own ids hr
  simp [h] at hr

lemma createSharedRegion_exact {n : Int} {flag : Nat} (h : s.Exact)
    (hstep : s.createSharedRegion name n flag alloc = some out) : out.shm.Exact := by
  simp only [createSharedRegion,fail,done] at hstep
  split_ifs at hstep <;> cases hstep
  · exact h
  · refine h.congr rfl fun c hc n hn => ?_
    rcases mem_append.mp hc with hc | hc
    · exact ⟨c,hc,hn⟩
    · obtain rfl := List.mem_singleton.mp hc
      simp [contextInit] at hn
  · exact h

lemma destroySharedRegionInternal_exact {force : Bool} (h : s.Exact)
    (hstep : s.destroySharedRegionInternal c force = some out) : out.shm.Exact := by
  simp only [destroySharedRegionInternal,fail,done] at hstep
  split_ifs at hstep <;> cases hstep
  · exact h
  · exact h
  · exact h.congr rfl fun c hc n hn => ⟨c,(mem_remove.mp hc).1,hn⟩

section
variable (h : s.Exact) (hi : s.Inv) (hp : p ∈ s.procs)
include h hi hp

lemma createMapping_exact {node : Bool}
    (hpc : p.pc = .user) (hstep : s.createMapping p name alloc node = some out) : out.shm.Exact := by
  have htarget : target p true = some (p.pid,p.as) := rfl
  have hpi := hi.proc p hp
  simp only [createMapping] at hstep
  split at hstep
  · cases hstep
    exact h
  rename_i c hget
  have hc := (getContext_mem hget).1
  simp only [Run.bind_some,Prod.exists] at hstep
  obtain ⟨as,mr,hmap,hstep⟩ := hstep
  cases mr with
  | none =>
    cases hstep
    exact h
  | some r =>
    obtain ⟨hnew,-⟩ := newRegion (by decide) (bytes_lt c) hmap
    cases node with
    | true =>
      cases hstep
      have hct : ((s.setProc { p with as := as }).addRmapping c p.pid r.id).ctable =
        (s.setContext (addNode c ⟨p.pid,r.id⟩)).ctable := rfl
      have hperm := setTarget_regions_perm htarget hnew.perm
      refine h.update (setTarget p true as) hi hp rfl rfl ?_ ?_ (by simp [setTarget,hpc])
        (.of_none (by simp [setTarget,hpc,Pc.remaining]))
      · intro d hd n hn
        rcases addNode_cases hi hc hct hd hn with ⟨-,rfl⟩ | ⟨ctx,hctx,-,hn⟩
        · exact .inr ⟨(p.pid,r),hperm.mem_iff.mpr mem_cons_self,rfl⟩
        · exact .inl ⟨ctx,hctx,hn⟩
      · exact fun x hx _ => hperm.mem_iff.mpr (List.mem_cons_of_mem _ hx)
    | false =>
      cases hstep
      have hregions := hnew.unmap fun y hy => (hpi.below _ (own_region hy)).ne
      refine h.update (setTarget p true (as.memregionUnmapInternal r.id)) hi hp rfl rfl
        (fun c hc n hn => .inl ⟨c,hc,hn⟩) ?_ (by simp [setTarget,hpc])
        (.of_none (by simp [setTarget,hpc,Pc.remaining]))
      intro x hx _
      simpa [setTarget,Proc.regions,Proc.spaces,hregions] using hx

lemma dropNode_exact {n : Pid2mem} {pc : Pc} (hc : c ∈ s.ctable)
    (hlive : pc ≠ .dead) (hemp : Emptying { p with pc := pc }) :
    ((s.setContext { c with rmap := c.rmap.erase n }).setProc { p with pc := pc }).Exact := by
  refine h.update { p with pc := pc } hi hp rfl rfl ?_ (fun x hx _ => hx) (fun hd => absurd hd hlive) hemp
  intro d hd m hm
  obtain ⟨-,ctx,hctx,-,hm⟩ := dropNode_cases hi hc rfl hd hm
  exact .inl ⟨ctx,hctx,hm⟩

lemma destroyMapping_exact {vaddr : Nat} (hstep : s.destroyMapping p name vaddr = some out) : out.shm.Exact := by
  simp only [destroyMapping] at hstep
  split at hstep
  · cases hstep
    exact h
  rename_i c hget
  split at hstep
  · cases hstep
    exact h
  rename_i t n hfind
  obtain ⟨rfl,-⟩ := findRemove_some hfind
  cases hstep
  exact dropNode_exact h hi hp (getContext_mem hget).1 (by simp) (.of_none rfl)

lemma fork_exact (hpc : p.pc = .user) (hstep : s.fork p = some out) : out.shm.Exact := by
  cases hstep
  have hemb := hi.user_embryo hp hpc
  refine h.update { p with embryo := some (s.next,⟨false,[],none⟩), pc := .forking p.as.regions } hi hp rfl rfl
    (fun c hc n hn => .inl ⟨c,hc,hn⟩) (fun x hx _ => ?_) (by simp) (.of_none rfl)
  simpa [Proc.regions,Proc.spaces,hemb] using hx

lemma exit_exact (hstep : s.exit p = some out) : out.shm.Exact := by
  cases hstep
  refine h.update { p with pc := .tearing true p.as.regions } hi hp rfl rfl
    (fun c hc n hn => .inl ⟨c,hc,hn⟩) (fun x hx _ => hx) (by simp) ?_
  rintro _ _ ⟨⟩ e he r hr
  obtain rfl : (p.pid,p.as) = e := by simpa [target] using he
  exact mem_map.mpr ⟨r,hr,rfl⟩

end

section fork
variable {child : Nat} {as as' : Addrspace} {rest : List Memregion}

lemma Exact.setEmbryo (pc : Pc) (h : s.Exact) (hi : s.Inv) (hp : p ∈ s.procs)
    (hemb : p.embryo = some (child,as)) (hct : s'.ctable = s.ctable)
    (hprocs : s'.procs = (s.setProc { p with embryo := some (child,as'), pc := pc }).procs)
    (has : ∀ r ∈ as.regions, r ∈ as'.regions) (hlive : pc ≠ .dead)
    (hemp : Emptying { p with embryo := some (child,as'), pc := pc }) : s'.Exact := by
  refine h.update { p with embryo := some (child,as'), pc := pc } hi hp rfl hprocs
    (fun c hc n hn => .inl ⟨c,hct ▸ hc,hn⟩) ?_ (fun hd => absurd hd hlive) hemp
  intro x hx _
  obtain ⟨as0,he,hr⟩ := Proc.mem_regions.mp hx
  rcases mem_cons.mp he with he | he
  · exact Proc.mem_regions.mpr ⟨as0,mem_cons.mpr (.inl he),hr⟩
  · obtain ⟨hx1,rfl⟩ : x.1 = child ∧ as0 = as := by simpa [hemb,eq_comm] using he
    exact Proc.mem_regions.mpr ⟨as',by simp [Proc.spaces,hx1],has _ hr⟩

lemma abortFork_exact {effects : List Effect} (s' : Shm) (h : s.Exact) (hi : s.Inv) (hp : p ∈ s.procs)
    (hemb : p.embryo = some (child,as)) (hct : s'.ctable = s.ctable) (hprocs : s'.procs = s.procs)
    (has : as'.regions = as.regions) (hstep : s'.abortFork p child as' effects = some out) : out.shm.Exact := by
  cases hstep
  refine h.setEmbryo (.tearing false as'.regions) hi hp hemb hct (by simp [setProc,hprocs])
    (fun r hr => has ▸ hr) (by simp) ?_
  rintro _ _ ⟨⟩ e he r hr
  obtain rfl : (child,as') = e := by simpa [target] using he
  exact mem_map.mpr ⟨r,hr,rfl⟩

lemma asCopyRegion_exact {r : Memregion} {o : Oracle} (h : s.Exact) (hi : s.Inv) (hp : p ∈ s.procs)
    (hemb : p.embryo = some (child,as)) (hpc : p.pc = .forking (r :: rest))
    (hstep : s.asCopyRegion p child as r rest o = some out) : out.shm.Exact := by
  have hpi := hi.proc p hp
  have hr : (p.pid,r) ∈ p.regions := by
    have := hpi.pc
    simp only [PcInv,hpc] at this
    exact own_region (this.2 r mem_cons_self)
  simp only [asCopyRegion,Run.bind_some,Prod.exists] at hstep
  obtain ⟨as1,dst,hmap,hstep⟩ := hstep
  cases dst with
  | none => exact abortFork_exact s h hi hp hemb rfl rfl rfl hstep
  | some d =>
    have hstart : r.start < 2^64 := (hpi.words _ hr).1
    obtain ⟨hnew,-⟩ := newRegion hstart (Addrspace.sub64_lt _ _) hmap
    have hgrow : ∀ x ∈ as.regions, x ∈ as1.regions := fun x hx =>
      hnew.perm.mem_iff.mpr (List.mem_cons_of_mem _ hx)
    have hback := hnew.unmap fun y hy => (hpi.below _ (embryo_region hemb hy)).ne
    simp only at hstep
    split at hstep
    · split at hstep
      · cases hstep
      · cases hstep
        exact h.setEmbryo (.linked _ d.id rest) hi hp hemb rfl rfl hgrow (by simp) (.of_none rfl)
    · split at hstep
      · cases hstep
        exact h.setEmbryo (.forking rest) hi hp hemb rfl rfl hgrow (by simp) (.of_none rfl)
      · exact abortFork_exact { s with next := s.next + 1 } h hi hp hemb rfl rfl hback hstep

lemma forkDone_exact (h : s.Exact) (hi : s.Inv) (hp : p ∈ s.procs) (hemb : p.embryo = some (child,as))
    (hprocs : s'.procs = (s.setProc { p with embryo := none, pc := .user }).procs ++ [⟨child,as,none,.user⟩])
    (hct : s'.ctable = s.ctable) : s'.Exact := by
  have hmem : ∀ q, q ∈ s'.procs ↔
      (q = { p with embryo := none, pc := .user } ∨ (q ∈ s.procs ∧ q.pid ≠ p.pid)) ∨ q = ⟨child,as,none,.user⟩ := by
    intro q
    rw [hprocs,mem_append,List.mem_singleton,setProc,hi.pids.mem_modify hp rfl]
  refine ⟨fun c hc n hn => ?_,fun q hq => ?_⟩
  · obtain ⟨q,hq,hl,x,hx,rfl⟩ := h.named c (hct ▸ hc) n hn
    by_cases hqp : q.pid = p.pid
    · obtain rfl := hi.pids.eq hq hp hqp
      obtain ⟨as0,he,hr⟩ := Proc.mem_regions.mp hx
      rcases mem_cons.mp he with he | he
      · exact ⟨_,(hmem _).mpr (.inl (.inl rfl)),by simp,x,
          Proc.mem_regions.mpr ⟨as0,mem_cons.mpr (.inl he),hr⟩,rfl⟩
      · obtain ⟨hx1,rfl⟩ : x.1 = child ∧ as0 = as := by simpa [hemb,eq_comm] using he
        exact ⟨_,(hmem _).mpr (.inr rfl),by simp,x,Proc.mem_regions.mpr ⟨as0,by simp [Proc.spaces,hx1],hr⟩,rfl⟩
    · exact ⟨q,(hmem q).mpr (.inl (.inr ⟨hq,hqp⟩)),hl,x,hx,rfl⟩
  · rcases (hmem q).mp hq with (rfl | ⟨hq,-⟩) | rfl
    · exact .of_none rfl
    · exact h.emptying q hq
    · exact .of_none rfl

end fork

section unlink
variable {own : Bool} {e : Nat × Addrspace} {r : Memregion} {ctx mr : Nat} {rest : List Memregion}

lemma Exact.unlink (pc : Pc) (h : s.Exact) (hi : s.Inv) (hp : p ∈ s.procs) (he : target p own = some e)
    (hr : r ∈ e.2.regions) (hno : ∀ c ∈ s.ctable, ⟨e.1,r.id⟩ ∉ c.rmap) (hlive : pc ≠ .dead)
    (hemp : Emptying { setTarget p own (e.2.memregionUnmapInternal r.id) with pc := pc }) :
    (s.setProc { setTarget p own (e.2.memregionUnmapInternal r.id) with pc := pc }).Exact := by
  refine h.update { setTarget p own (e.2.memregionUnmapInternal r.id) with pc := pc } hi hp setTarget_pid rfl
    (fun c hc n hn => .inl ⟨c,hc,hn⟩) ?_ (fun hd => absurd hd hlive) hemp
  rintro x hx ⟨c,hc,hn⟩
  have hperm := (hi.proc p hp).unlink_perm he hr
  rcases mem_cons.mp (hperm.mem_iff.mp hx) with rfl | hx
  · exact absurd hn (hno c hc)
  · exact hx

lemma unnamed {k : Nat} (hi : s.Inv) (hp : p ∈ s.procs) (he : target p own = some e) (hr : r ∈ e.2.regions)
    (hst : r.store = some k) (hno : s.NoNode k ⟨e.1,r.id⟩) : ∀ c ∈ s.ctable, ⟨e.1,r.id⟩ ∉ c.rmap := by
  intro c hc hn
  have hstore := (hi.proc p hp).owned _ (target_region he hr) c hc hn
  exact hno c hc (some_inj.mp (hstore.symm.trans hst)) hn

lemma Emptying.unlink {ids : List Nat} {pc : Pc} (hids : (e.2.regions.map Memregion.id).Nodup)
    (he : target p own = some e) (hall : ∀ x ∈ e.2.regions, x.id ∈ r.id :: ids)
    (hpc : ∀ own' ids', pc.remaining = some (own',ids') → own' = own ∧ ids' = ids) :
    Emptying { setTarget p own (e.2.memregionUnmapInternal r.id) with pc := pc } := by
  intro own' ids' hrem e' he' x hx
  obtain ⟨rfl,rfl⟩ := hpc own' ids' hrem
  have htarget : target (setTarget p own' (e.2.memregionUnmapInternal r.id)) own' = some e' := by
    cases own' <;> exact he'
  rw [target_setTarget _ he] at htarget
  cases htarget
  obtain ⟨hx,hne⟩ := (mem_unmapInternal hids).mp hx
  exact (mem_cons.mp (hall x hx)).resolve_left hne

lemma addContextRef_exact {child : Nat} {as : Addrspace} {node : Bool}
    (h : s.Exact) (hi : s.Inv) (hp : p ∈ s.procs) (hemb : p.embryo = some (child,as))
    (hpc : p.pc = .linked ctx mr rest) (hstep : s.addContextRef p child as ctx mr rest node = some out) :
    out.shm.Exact := by
  have hinv := (hi.proc p hp).pc
  simp only [PcInv,hpc] at hinv
  obtain ⟨-,-,e,he,d,hd,rfl,hdst,hno⟩ := hinv
  cases hemb.symm.trans he
  simp only [addContextRef,Run.bind_some] at hstep
  obtain ⟨c,hlook,_,-,hstep⟩ := hstep
  have hc := (lookup_some hlook).1
  cases node with
  | true =>
    cases hstep
    have hct : ((s.addRmapping c child d.id).setProc { p with pc := .forking rest }).ctable =
      (s.setContext (addNode c ⟨child,d.id⟩)).ctable := rfl
    refine h.update { p with pc := .forking rest } hi hp rfl rfl ?_ (fun x hx _ => hx) (by simp) (.of_none rfl)
    intro k hk n hn
    rcases addNode_cases hi hc hct hk hn with ⟨-,rfl⟩ | ⟨ctx',hctx',-,hn⟩
    · exact .inr ⟨(child,d),embryo_region hemb hd,rfl⟩
    · exact .inl ⟨ctx',hctx',hn⟩
  | false =>
    cases hstep
    have hset : { p with embryo := some (child,as.memregionUnmapInternal d.id), pc := .forking rest } =
        { setTarget p false (as.memregionUnmapInternal d.id) with pc := .forking rest } := by
      simp [setTarget,hemb]
    rw [hset]
    exact h.unlink (.forking rest) hi hp (embryo_target hemb) hd
      (unnamed hi hp (embryo_target hemb) hd hdst hno) (by simp) (.of_none rfl)

lemma findRemove_found (hi : s.Inv) (hp : p ∈ s.procs) (hplain : p.pc.plain = true) (hc : c ∈ s.ctable)
    (he : target p own = some e) (hr : r ∈ e.2.regions) (hst : r.store = some c.id) (hne : r.start < r.stop) :
    s.findRemoveRmapping c e.1 e.2 r.start ≠ none := by
  have hpi := hi.proc p hp
  obtain ⟨ctx,hctx,hid,-,hn⟩ := (hpi.tracked _ (target_region he hr) c.id hst).node hplain
  obtain rfl := hi.ctxIds.eq hctx hc hid
  have hfind : e.2.regions.find? (fun x => x.id == r.id) = some r := by
    cases hf : e.2.regions.find? (fun x => x.id == r.id) with
    | none => exact absurd (List.find?_eq_none.mp hf r hr) (by simp)
    | some x =>
      have hx : x.id = r.id := by simpa using List.find?_some hf
      exact congrArg some (Distinct.eq (hpi.target_ids (target_mem he)) (List.mem_of_find?_eq_some hf) hr hx)
  have hhold : holdsAddr e.2 r.start ⟨e.1,r.id⟩ = true := by simp [holdsAddr,hfind,hne]
  intro hnone
  simp only [findRemoveRmapping] at hnone
  split at hnone
  · rename_i hf
    exact absurd (List.find?_eq_none.mp hf _ hn) (by simp [hhold])
  · cases hnone

lemma asDestroyRegion_exact (h : s.Exact) (hi : s.Inv) (hp : p ∈ s.procs)
    (hpc : p.pc = .tearing own (r :: rest)) (hne : r.shared = true → r.start < r.stop)
    (hstep : s.asDestroyRegion p own r rest = some out) : out.shm.Exact := by
  have hpi := hi.proc p hp
  have hplain : p.pc.plain = true := by simp [hpc,Pc.plain]
  have htear : Teardown p own (r :: rest) := by simpa [PcInv,hpc] using hpi.pc
  obtain ⟨-,e,he,hall,-⟩ := htear
  have hr := hall r mem_cons_self
  have hemp : ∀ x ∈ e.2.regions, x.id ∈ r.id :: rest.map Memregion.id :=
    h.emptying p hp own _ (by simp [hpc,Pc.remaining]) e he
  simp only [asDestroyRegion,he,bind_eq_bind,bind_some] at hstep
  split_ifs at hstep with hsh
  · simp only [bind_eq_some_iff] at hstep
    obtain ⟨k,hk,c,hlook,hstep⟩ := hstep
    obtain ⟨hc,rfl⟩ := lookup_some hlook
    split at hstep
    · rename_i hnone
      exact absurd hnone (findRemove_found hi hp hplain hc he hr hk (hne hsh))
    · rename_i t n hfind
      obtain ⟨rfl,-⟩ := findRemove_some hfind
      cases hstep
      refine dropNode_exact h hi hp hc (by simp) ?_
      rintro _ _ ⟨⟩ e' he' x hx
      obtain rfl : e = e' := some_inj.mp (he.symm.trans he')
      exact hemp x hx
  · cases hstep
    have hst : r.store = none := by
      have := hpi.stored _ (target_region he hr)
      simpa [hsh] using this
    refine h.unlink (.tearing own rest) hi hp he hr ?_ (by simp) (.unlink (hpi.target_ids (target_mem he)) he hemp ?_)
    · intro c hc hn
      have := hpi.owned _ (target_region he hr) c hc hn
      simp [hst] at this
    · rintro _ _ ⟨⟩
      exact ⟨rfl,rfl⟩

lemma memregionUnmap_exact {t : Option (Bool × List Memregion)} (h : s.Exact) (hi : s.Inv)
    (hp : p ∈ s.procs) (hpc : p.pc = .unmapping ctx mr t) (hstep : s.memregionUnmap p ctx mr t = some out) :
    out.shm.Exact := by
  have hpi := hi.proc p hp
  have hinv := hpi.pc
  simp only [PcInv,hpc] at hinv
  obtain ⟨-,e,he,r,hr,rfl,hst,hno⟩ := hinv
  simp only [memregionUnmap,he,bind_eq_bind,bind_some,bind_eq_some_iff] at hstep
  obtain ⟨_,-,hstep⟩ := hstep
  cases hstep
  refine h.unlink (.unmapped ctx t) hi hp he hr (unnamed hi hp he hr hst hno) (by simp) ?_
  cases t with
  | none => exact .of_none rfl
  | some t =>
    refine .unlink (hpi.target_ids (target_mem he)) he
      (h.emptying p hp t.1 (r.id :: t.2.map Memregion.id) (by simp [hpc,Pc.remaining]) e he) ?_
    rintro _ _ ⟨⟩
    exact ⟨rfl,rfl⟩

end unlink

section
variable (h : s.Exact) (hi : s.Inv) (hp : p ∈ s.procs)
include h hi hp

lemma dropContextRef_exact {ctx : Nat} {t : Option (Bool × List Memregion)} (hpc : p.pc = .unmapped ctx t) (hstep : s.dropContextRef p ctx t = some out) :
    out.shm.Exact := by
  have hdrop : ∀ c ∈ s.ctable, ((s.setContext { c with refcnt := c.refcnt - 1 }).setProc
      { p with pc := t.elim .user fun t => .tearing t.1 t.2 }).Exact := by
    intro c hc
    refine h.update { p with pc := t.elim .user fun t => .tearing t.1 t.2 } hi hp rfl rfl ?_ (fun x hx _ => hx)
      (by cases t <;> simp) ?_
    · intro d hd n hn
      rcases (mem_setContext { c with refcnt := c.refcnt - 1 } hi hc rfl).mp hd with rfl | ⟨hd,-⟩
      · exact .inl ⟨c,hc,hn⟩
      · exact .inl ⟨d,hd,hn⟩
    · cases t with
      | none => exact .of_none rfl
      | some t =>
        rintro _ _ ⟨⟩ e he
        exact h.emptying p hp t.1 _ (by simp [hpc,Pc.remaining]) e he
  obtain ⟨c,hc,-,⟨-,-,-,hfree⟩ | rfl⟩ := dropContextRef_cases hstep
  · exact destroySharedRegionInternal_exact (hdrop c hc) hfree
  · exact hdrop c hc

lemma tearDone_exact {own : Bool} (hpc : p.pc = .tearing own []) :
    (s.setProc { p with pc := if own then .dead else .user, embryo := none }).Exact := by
  have htear : Teardown p own [] := by simpa [PcInv,hpc] using (hi.proc p hp).pc
  obtain ⟨hown,e,he,-⟩ := htear
  have hnil : e.2.regions = [] := List.eq_nil_iff_forall_not_mem.mpr fun r hr => by
    simpa using h.emptying p hp own [] (by simp [hpc,Pc.remaining]) e he r hr
  refine h.update { p with pc := if own then .dead else .user, embryo := none } hi hp rfl rfl
    (fun c hc n hn => .inl ⟨c,hc,hn⟩) ?_ ?_ (.of_none (by cases own <;> rfl))
  · intro x hx _
    cases own with
    | true => simpa [Proc.regions,Proc.spaces,hown rfl] using hx
    | false =>
      have hemb : p.embryo = some e := by simpa [target] using he
      simpa [Proc.regions,Proc.spaces,hemb,hnil] using hx
  · intro hd
    cases own with
    | true =>
      obtain rfl : (p.pid,p.as) = e := by simpa [target] using he
      simp only at hnil
      simp [Proc.regions,Proc.spaces,hnil]
    | false => simp at hd

lemma advance_exact {o : Oracle}
    (hne : ∀ own r rest, p.pc = .tearing own (r :: rest) → r.shared = true → r.start < r.stop)
    (hstep : s.advance p o = some out) : out.shm.Exact := by
  simp only [advance] at hstep
  split at hstep
  · cases hstep
  · cases hstep
  · rename_i rest hpc
    split at hstep
    · cases hstep
    rename_i child as hemb
    split at hstep
    · exact asCopyRegion_exact h hi hp hemb hpc hstep
    · split_ifs at hstep
      · cases hstep
        exact forkDone_exact h hi hp hemb rfl rfl
      · exact abortFork_exact s h hi hp hemb rfl rfl rfl hstep
  · rename_i ctx mr rest hpc
    split at hstep
    · cases hstep
    rename_i child as hemb
    exact addContextRef_exact h hi hp hemb hpc hstep
  · rename_i own hpc
    cases hstep
    exact tearDone_exact h hi hp hpc
  · rename_i own r rest hpc
    exact asDestroyRegion_exact h hi hp hpc (hne own r rest hpc) hstep
  · rename_i ctx mr t hpc
    exact memregionUnmap_exact h hi hp hpc hstep
  · rename_i ctx t hpc
    exact dropContextRef_exact h hi hp hpc hstep

lemma sysSbrk_exact {size : Int} (hpc : p.pc = .user) (hstep : s.sysSbrk p size = some out) : out.shm.Exact := by
  obtain ⟨-,hs | ⟨id,stop,hheap,-,hs⟩⟩ := sysSbrk_cases hstep
  · rw [hs]
    exact h
  · rw [hs]
    have hemb := hi.user_embryo hp hpc
    refine h.update { p with as := setStop p.as id stop } hi hp rfl rfl (fun c hc n hn => .inl ⟨c,hc,hn⟩) ?_
      (by simp [hpc]) (.of_none (by simp [hpc,Pc.remaining]))
    rintro x hx ⟨c,hc,hn⟩
    have hst := (hi.proc p hp).owned x hx c hc hn
    have hsh : x.2.shared = true := by simp [(hi.proc p hp).stored x hx,hst]
    obtain ⟨as,he,hr⟩ := Proc.mem_regions.mp hx
    obtain ⟨-,rfl⟩ : x.1 = p.pid ∧ as = p.as := by simpa [Proc.spaces,hemb] using he
    exact (mem_setStop_regions hemb).mpr ⟨x,hx,by rw [hi.heap_private hp hheap hr hsh]⟩

end

lemma spawn_exact {phs : List Proghdr} (h : s.Exact) (hstep : s.spawn phs = some out) : out.shm.Exact := by
  obtain ⟨-,⟨hs,-⟩ | ⟨as,next,-,hs⟩⟩ := spawn_cases hstep
  · rw [hs]
    exact h
  · rw [hs]
    refine ⟨fun c hc n hn => ?_,fun q hq => ?_⟩
    · obtain ⟨p,hp,hl,x,hx,rfl⟩ := h.named c hc n hn
      exact ⟨p,List.mem_append_left _ hp,hl,x,hx,rfl⟩
    · rcases mem_append.mp hq with hq | hq
      · exact h.emptying q hq
      · obtain rfl := List.mem_singleton.mp hq
        exact .of_none rfl

lemma Exact.step (h : s.Exact) (hi : s.Inv) (hok : s.releasable o = true) (hstep : s.step o = some out) :
    out.shm.Exact := by
  cases o with
  | spawn phs => exact spawn_exact h hstep
  | createSharedRegion pid name size flag alloc =>
    obtain ⟨p,-,hstep⟩ := bind_eq_some_iff.mp hstep
    simp only [sysCreateSharedRegion] at hstep
    split_ifs at hstep
    · cases hstep
      exact h
    · exact createSharedRegion_exact h hstep
  | destroySharedRegion pid name =>
    obtain ⟨p,-,hstep⟩ := bind_eq_some_iff.mp hstep
    simp only [destroySharedRegion] at hstep
    split at hstep
    · cases hstep
      exact h
    · exact destroySharedRegionInternal_exact h hstep
  | createMapping pid name alloc node =>
    obtain ⟨p,hp,hstep⟩ := bind_eq_some_iff.mp hstep
    exact createMapping_exact h hi (caller_mem hp).1 (caller_mem hp).2 hstep
  | destroyMapping pid name vaddr =>
    obtain ⟨p,hp,hstep⟩ := bind_eq_some_iff.mp hstep
    exact destroyMapping_exact h hi (caller_mem hp).1 hstep
  | sbrk pid size =>
    obtain ⟨p,hp,hstep⟩ := bind_eq_some_iff.mp hstep
    exact sysSbrk_exact h hi (caller_mem hp).1 (caller_mem hp).2 hstep
  | fork pid =>
    obtain ⟨p,hp,hstep⟩ := bind_eq_some_iff.mp hstep
    exact fork_exact h hi (caller_mem hp).1 (caller_mem hp).2 hstep
  | exit pid =>
    obtain ⟨p,hp,hstep⟩ := bind_eq_some_iff.mp hstep
    exact exit_exact h hi (caller_mem hp).1 hstep
  | advance pid or =>
    obtain ⟨p,hp,hstep⟩ := bind_eq_some_iff.mp hstep
    refine advance_exact h hi (proc_mem hp).1 (fun own r rest hpc hsh => ?_) hstep
    simpa [releasable,hp,hpc,hsh] using hok

lemma init_exact : init.Exact := ⟨by simp [init],by simp [init]⟩

theorem counts_exact (ops : List Op) (s : Shm) (h : ops.foldlM (Run.guarded releasable move) init = some s)
    (hq : s.quiescent = true) : ∀ c ∈ s.ctable, s.CountsExact c := by
  have hexact : s.Inv ∧ s.Exact := by
    refine Run.invariant (P := fun s => s.Inv ∧ s.Exact) (fun t o t' ht hstep => ?_) ⟨init_inv,init_exact⟩ h
    obtain ⟨hok,hmove⟩ := Run.guarded_some.mp hstep
    obtain ⟨out,hout,rfl⟩ := Option.map_eq_some_iff.mp hmove
    exact ⟨ht.1.step hout,ht.2.step ht.1 hok hout⟩
  exact fun c hc => hexact.2.countsExact hexact.1 hq hc

def proceed (pid : Nat) : Op := .advance pid ⟨true,true,true,true⟩

def forkAndExit : List Op :=
  [.spawn [⟨0,4096,0,0,true⟩],.createSharedRegion 0 [65] 1 0 true,.createMapping 0 [65] true true,.fork 0] ++
    List.replicate 6 (proceed 0) ++ [.exit 0] ++ List.replicate 7 (proceed 0)

theorem counts_exact_fork_and_exit : ∃ s, forkAndExit.foldlM (Run.guarded releasable move) init = some s ∧
    s.quiescent = true ∧ s.ctable ≠ [] ∧ ∀ c ∈ s.ctable, s.CountsExact c := by
  have hrun : (forkAndExit.foldlM (Run.guarded releasable move) init).any
      (fun s => s.quiescent && decide (s.ctable ≠ [])) = true := by decide +kernel
  obtain ⟨s,hs,hq⟩ := (any_eq_true _ _).mp hrun
  simp only [Bool.and_eq_true,decide_eq_true_eq] at hq
  exact ⟨s,hs,hq.1,hq.2,counts_exact forkAndExit s hs hq.1⟩

def emptyMappingExit : List Op :=
  [.spawn [⟨0,4096,0,0,true⟩],.createSharedRegion 0 [65] 0 0 true,.createMapping 0 [65] true true,.exit 0] ++
    List.replicate 5 (proceed 0)

theorem counts_stale_after_exit : ∃ s, run emptyMappingExit = some s ∧ s.quiescent = true ∧
    ∃ c ∈ s.ctable, c.refcnt = 1 ∧ s.liveRegions c.id = [] ∧ ¬ s.CountsExact c := by
  have hrun : (run emptyMappingExit).any (fun s => s.quiescent && s.ctable.any fun c =>
      decide (c.refcnt = 1 ∧ s.liveRegions c.id = [])) = true := by decide +kernel
  obtain ⟨s,hs,hq⟩ := (any_eq_true _ _).mp hrun
  simp only [Bool.and_eq_true,List.any_eq_true,decide_eq_true_eq] at hq
  obtain ⟨hq,c,hc,hone,hnone⟩ := hq
  refine ⟨s,hs,hq,c,hc,hone,hnone,fun hexact => ?_⟩
  have hlen := hexact.refcnt
  rw [hexact.regions,hnone,hone] at hlen
  simp at hlen

end Shm
end MappedMemory
