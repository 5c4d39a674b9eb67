import MappedMemory.Shm.Steps

namespace MappedMemory

open Option (bind_eq_some_iff isSome_iff_exists)
open Run (bind_some)

open Keyed

namespace Outcome

def drops (out : Outcome) (c : Smemcontext) : Prop :=
  (∀ c' ∈ out.shm.ctable, c'.id ≠ c.id) ∨ .freeStore c.id ∈ out.effects

end Outcome

namespace Shm

variable {s : Shm} {p : Proc} {c : Smemcontext} {out : Outcome} {o : Op} {d : Smemcontext} {name : List Nat}
  {alloc node : Bool} {child ctx mr : Nat} {as : Addrspace} {r : Memregion} {rest : List Memregion} {t : Shm}

structure Keeps (s : Shm) (out : Outcome) : Prop where
  ids : ∀ c ∈ s.ctable, ∃ c' ∈ out.shm.ctable, c'.id = c.id
  effects : ∀ c, .freeStore c ∉ out.effects

lemma Keeps.not_drops (h : Keeps s out) (hc : c ∈ s.ctable) : ¬ out.drops c := by
  rintro (hgone | hfree)
  · obtain ⟨c',hc',hid⟩ := h.ids c hc
    exact hgone c' hc' hid
  · exact h.effects c.id hfree

lemma Keeps.same (hct : out.shm.ctable = s.ctable) (he : ∀ c, .freeStore c ∉ out.effects) : Keeps s out :=
  ⟨fun c hc => ⟨c,hct ▸ hc,rfl⟩,he⟩

lemma Keeps.set (hct : out.shm.ctable = (s.setContext d).ctable)
    (he : ∀ c, .freeStore c ∉ out.effects) : Keeps s out := by
  refine ⟨fun c hc => ?_,he⟩
  rw [hct]
  by_cases hid : c.id = d.id
  · exact ⟨d,mem_modify.mpr (.inl ⟨c,hc,hid,rfl⟩),hid.symm⟩
  · exact ⟨c,mem_modify.mpr (.inr ⟨hc,hid⟩),rfl⟩

lemma createSharedRegion_keeps {n : Int} {flag : Nat} (h : s.createSharedRegion name n flag alloc = some out) : Keeps s out := by
  simp only [createSharedRegion,fail,done] at h
  split_ifs at h <;> cases h
  · exact .same rfl (by simp)
  · exact ⟨fun c hc => ⟨c,List.mem_append_left _ hc,rfl⟩,by simp⟩
  · exact .same rfl (by simp)

lemma createMapping_keeps (h : s.createMapping p name alloc node = some out) : Keeps s out := by
  simp only [createMapping] at h
  split at h
  · cases h
    exact .same rfl (by simp)
  · simp only [bind_some,Prod.exists] at h
    obtain ⟨as,mr,-,h⟩ := h
    cases mr with
    | none =>
      cases h
      exact .same rfl (by simp)
    | some r =>
      cases node with
      | true =>
        cases h
        exact .set rfl (by simp)
      | false =>
        cases h
        exact .same rfl (by simp)

lemma destroyMapping_keeps {vaddr : Nat} (h : s.destroyMapping p name vaddr = some out) : Keeps s out := by
  simp only [destroyMapping] at h
  split at h
  · cases h
    exact .same rfl (by simp)
  · split at h
    · cases h
      exact .same rfl (by simp)
    · rename_i t n hfind
      obtain ⟨rfl,-⟩ := findRemove_some hfind
      cases h
      exact .set rfl (by simp)

lemma asCopyRegion_keeps {o : Oracle} (h : s.asCopyRegion p child as r rest o = some out) : Keeps s out := by
  simp only [asCopyRegion,bind_some,Prod.exists] at h
  obtain ⟨as1,dst,-,h⟩ := h
  cases dst with
  | none =>
    cases h
    exact .same rfl (by simp)
  | some d =>
    simp only at h
    split at h
    · split at h
      · cases h
      · cases h
        exact .same rfl (by simp)
    · split at h
      · cases h
        exact .same rfl (by simp)
      · cases h
        exact .same rfl (by simp)

lemma addContextRef_keeps (h : s.addContextRef p child as ctx mr rest node = some out) : Keeps s out := by
  simp only [addContextRef,bind_some] at h
  obtain ⟨c,-,d,-,h⟩ := h
  cases node with
  | true =>
    cases h
    exact .set rfl (by simp)
  | false =>
    cases h
    exact .same rfl (by simp)

lemma asDestroyRegion_keeps {own : Bool} (h : s.asDestroyRegion p own r rest = some out) : Keeps s out := by
  simp only [asDestroyRegion,bind_some,Prod.exists] at h
  obtain ⟨space,as,-,h⟩ := h
  split_ifs at h
  · simp only [bind_some] at h
    obtain ⟨k,-,c,-,h⟩ := h
    split at h
    · cases h
      exact .same rfl (by simp)
    · rename_i t n hfind
      obtain ⟨rfl,-⟩ := findRemove_some hfind
      cases h
      exact .set rfl (by simp)
  · cases h
    exact .same rfl (by simp)

lemma memregionUnmap_keeps {t : Option (Bool × List Memregion)}
    (h : s.memregionUnmap p ctx mr t = some out) : Keeps s out := by
  simp only [memregionUnmap,bind_some,Prod.exists] at h
  obtain ⟨space,as,-,r,-,h⟩ := h
  cases h
  refine .same rfl fun c => ?_
  cases t <;> simp

lemma advance_keeps {o : Oracle} (h : s.advance p o = some out) :
    Keeps s out ∨ ∃ ctx t, p.pc = .unmapped ctx t ∧ s.dropContextRef p ctx t = some out := by
  simp only [advance] at h
  split at h
  · cases h
  · cases h
  · split at h
    · cases h
    · split at h
      · exact .inl (asCopyRegion_keeps h)
      · split_ifs at h
        · cases h
          exact .inl (.same rfl (by simp))
        · cases h
          exact .inl (.same rfl (by simp))
  · split at h
    · cases h
    · exact .inl (addContextRef_keeps h)
  · cases h
    exact .inl (.same rfl (by simp))
  · exact .inl (asDestroyRegion_keeps h)
  · exact .inl (memregionUnmap_keeps h)
  · rename_i ctx t hpc
    exact .inr ⟨ctx,t,hpc,h⟩

lemma spawn_keeps {phs : List Proghdr} (h : s.spawn phs = some out) : Keeps s out := by
  obtain ⟨he,⟨hs,-⟩ | ⟨as,next,-,hs⟩⟩ := spawn_cases h
  · exact .same (by rw [hs]) (by simp [he])
  · exact .same (by rw [hs]) (by simp [he])

lemma step_keeps (h : s.step o = some out) : Keeps s out ∨
    (∃ pid name, o = .destroySharedRegion pid name ∧ s.destroySharedRegion name = some out) ∨
    ∃ pid or p ctx t, o = .advance pid or ∧ s.proc pid = some p ∧ p.pc = .unmapped ctx t ∧
      s.dropContextRef p ctx t = some out := by
  cases o with
  | spawn phs => exact .inl (spawn_keeps h)
  | createSharedRegion pid name size flag alloc =>
    obtain ⟨p,-,h⟩ := bind_eq_some_iff.mp h
    simp only [sysCreateSharedRegion] at h
    split_ifs at h
    · cases h
      exact .inl (.same rfl (by simp))
    · exact .inl (createSharedRegion_keeps h)
  | destroySharedRegion pid name =>
    obtain ⟨p,-,h⟩ := bind_eq_some_iff.mp h
    exact .inr (.inl ⟨pid,name,rfl,h⟩)
  | createMapping pid name alloc node =>
    obtain ⟨p,-,h⟩ := bind_eq_some_iff.mp h
    exact .inl (createMapping_keeps h)
  | destroyMapping pid name vaddr =>
    obtain ⟨p,-,h⟩ := bind_eq_some_iff.mp h
    exact .inl (destroyMapping_keeps h)
  | sbrk pid size =>
    obtain ⟨p,-,h⟩ := bind_eq_some_iff.mp h
    obtain ⟨he,hs | ⟨id,stop,-,-,hs⟩⟩ := sysSbrk_cases h
    · exact .inl (.same (by rw [hs]) (by simp [he]))
    · exact .inl (.same (by rw [hs]; rfl) (by simp [he]))
  | fork pid | exit pid =>
    obtain ⟨p,-,h⟩ := bind_eq_some_iff.mp h
    cases h
    exact .inl (.same rfl (by simp))
  | advance pid or =>
    obtain ⟨p,hp,h⟩ := bind_eq_some_iff.mp h
    rcases advance_keeps h with h | ⟨ctx,t,hpc,h⟩
    · exact .inl h
    · exact .inr (.inr ⟨pid,or,p,ctx,t,rfl,hp,hpc,h⟩)

lemma destroySharedRegionInternal_cases {force : Bool} (h : s.destroySharedRegionInternal c force = some out) :
    (out.shm = s ∧ out.effects = []) ∨ (c.refcnt = 0 ∧ (c.isPersist = true → force = true) ∧
      out = ⟨{ s with ctable := remove Smemcontext.id c.id s.ctable },.ok,[.freeStore c.id],none⟩) := by
  simp only [destroySharedRegionInternal,fail,done] at h
  split_ifs at h with hz hf hn
  · cases h
    exact .inl ⟨rfl,rfl⟩
  · cases h
    exact .inl ⟨rfl,rfl⟩
  · refine .inr ⟨not_not.mp hz,fun hp => ?_,(Option.some_inj.mp h).symm⟩
    simpa [hp] using hf

lemma drops_removed {err : Err}
    (h : Outcome.drops ⟨{ t with ctable := remove Smemcontext.id d.id t.ctable },err,[.freeStore d.id],none⟩ c)
    (hc : ∃ c' ∈ t.ctable, c'.id = c.id) : c.id = d.id := by
  rcases h with hgone | hfree
  · obtain ⟨c',hc',hid⟩ := hc
    by_contra hne
    exact hgone c' (mem_remove.mpr ⟨hc',hid.symm ▸ hne⟩) hid
  · simpa using hfree

def Unreferenced (s : Shm) (c : Nat) : Prop := ∀ p ∈ s.procs, ∀ x ∈ p.regions, x.2.store ≠ some c

lemma setProc_unreferenced {pc : Pc} {c : Nat} (hi : s.Inv) (hp : p ∈ s.procs)
    (ht : t.procs = (s.setProc { p with pc := pc }).procs) : t.Unreferenced c ↔ s.Unreferenced c := by
  have hmem : ∀ q, q ∈ t.procs ↔ q = { p with pc := pc } ∨ (q ∈ s.procs ∧ q.pid ≠ p.pid) := fun q => by
    rw [ht,setProc,hi.pids.mem_modify hp rfl]
  constructor
  · intro h q hq
    by_cases hpid : q.pid = p.pid
    · obtain rfl := hi.pids.eq hq hp hpid
      exact h { q with pc := pc } ((hmem _).mpr (.inl rfl))
    · exact h q ((hmem q).mpr (.inr ⟨hq,hpid⟩))
  · intro h q hq
    rcases (hmem q).mp hq with rfl | ⟨hq,-⟩
    · exact h p hp
    · exact h q hq

lemma step_drops (hi : s.Inv) (h : s.step o = some out) (hc : c ∈ s.ctable) (hd : out.drops c) :
    s.Unreferenced c.id ∧ out.shm.Unreferenced c.id ∧ ((∃ pid, o = .destroySharedRegion pid c.name) ∨
      (c.isPersist = false ∧ ∃ pid or p t, o = .advance pid or ∧ s.proc pid = some p ∧
        p.pc = .unmapped c.id (some t))) := by
  rcases step_keeps h with hk | ⟨pid,name,rfl,hcall⟩ | ⟨pid,or,p,ctx,t,rfl,hp,hpc,hcall⟩
  · exact absurd hd (hk.not_drops hc)
  · simp only [destroySharedRegion] at hcall
    split at hcall
    · cases hcall
      exact absurd hd ((Keeps.same rfl (by simp)).not_drops hc)
    · rename_i d hget
      obtain ⟨hdm,rfl⟩ := getContext_mem hget
      rcases destroySharedRegionInternal_cases hcall with ⟨hs,he⟩ | ⟨hz,-,rfl⟩
      · exact absurd hd ((Keeps.same (congrArg Shm.ctable hs) (by simp [he])).not_drops hc)
      · obtain rfl := hi.ctxIds.eq hc hdm (drops_removed hd ⟨c,hc,rfl⟩)
        have hun : s.Unreferenced c.id := fun p hp x hx hst =>
          (hi.unreferenced hc hz).2 p hp (.inl ⟨x,hx,hst⟩)
        exact ⟨hun,hun,.inl ⟨pid,rfl⟩⟩
  · obtain ⟨d,hdm,rfl,⟨-,hper,ht,hfree⟩ | rfl⟩ := dropContextRef_cases hcall
    · have hpm := (proc_mem hp).1
      have hdrop := hi.dropRef hpm hdm hpc
      have hmem := (mem_setContext { d with refcnt := d.refcnt - 1 } hi hdm rfl).mpr (.inl rfl)
      rcases destroySharedRegionInternal_cases hfree with ⟨hs,he⟩ | ⟨hz,-,rfl⟩
      · exact absurd hd ((Keeps.set (by rw [hs]; rfl) (by simp [he])).not_drops hc)
      · have hthere : ∃ c' ∈ (s.setContext { d with refcnt := d.refcnt - 1 }).ctable, c'.id = c.id := by
          by_cases hcd : c.id = d.id
          · exact ⟨_,hmem,hcd.symm⟩
          · exact ⟨c,(mem_setContext { d with refcnt := d.refcnt - 1 } hi hdm rfl).mpr (.inr ⟨hc,hcd⟩),rfl⟩
        obtain rfl := hi.ctxIds.eq hc hdm (drops_removed hd hthere)
        have hun : Unreferenced ((s.setContext { c with refcnt := c.refcnt - 1 }).setProc
            { p with pc := t.elim .user fun t => .tearing t.1 t.2 }) c.id := fun q hq x hx hst =>
          (hdrop.unreferenced hmem hz).2 q hq (.inl ⟨x,hx,hst⟩)
        obtain ⟨t,rfl⟩ := isSome_iff_exists.mp ht
        exact ⟨(setProc_unreferenced hi hpm rfl).mp hun,hun,.inr ⟨hper,pid,or,p,t,rfl,hp,hpc⟩⟩
    · exact absurd hd ((Keeps.set rfl (by simp)).not_drops hc)

def unmapCall (s : Shm) : Op → Bool
  | .destroyMapping _ _ _ => true
  | .advance pid _ =>
    match (s.proc pid).map Proc.pc with
    | some (.unmapping _ _ none) => true
    | some (.unmapped _ none) => true
    | _ => false
  | _ => false

lemma destroySharedRegion_mapped {pid : Nat} (hi : s.Inv) (hp : (s.caller pid).isSome = true)
    (hget : s.getContextByHandle name none = some c) (href : ¬ s.Unreferenced c.id) :
    s.step (.destroySharedRegion pid name) = some ⟨s,.mapped,[],none⟩ := by
  obtain ⟨p,hp⟩ := isSome_iff_exists.mp hp
  have hz : c.refcnt ≠ 0 := fun hz => href fun p hp x hx hst =>
    (hi.unreferenced (getContext_mem hget).1 hz).2 p hp (.inl ⟨x,hx,hst⟩)
  simp [step,hp,destroySharedRegion,hget,destroySharedRegionInternal,hz,fail]

theorem store_outlives_regions (ops : List Op) (s : Shm) (h : run ops = some s) :
    (∀ p ∈ s.procs, ∀ x ∈ p.regions, ∀ k, x.2.store = some k → ∃ c ∈ s.ctable, c.id = k) ∧
    (∀ o out, s.step o = some out → ∀ c ∈ s.ctable, out.drops c →
      s.Unreferenced c.id ∧ out.shm.Unreferenced c.id ∧
      (c.isPersist = true → ∃ pid, o = .destroySharedRegion pid c.name) ∧ s.unmapCall o = false) ∧
    ∀ pid name c, (s.caller pid).isSome = true → s.getContextByHandle name none = some c →
      ¬ s.Unreferenced c.id → s.step (.destroySharedRegion pid name) = some ⟨s,.mapped,[],none⟩ := by
  have hi := run_inv h
  refine ⟨?_,?_,fun pid name c hp hget href => destroySharedRegion_mapped hi hp hget href⟩
  · intro p hp x hx k hk
    obtain ⟨c,hc,hid,-⟩ := (hi.proc p hp).tracked x hx k hk
    exact ⟨c,hc,hid⟩
  · intro o out hstep c hc hd
    obtain ⟨hbefore,hafter,⟨pid,rfl⟩ | ⟨hper,pid,or,p,t,rfl,hp,hpc⟩⟩ := step_drops hi hstep hc hd
    · exact ⟨hbefore,hafter,fun _ => ⟨pid,rfl⟩,rfl⟩
    · refine ⟨hbefore,hafter,fun h => absurd h (by simp [hper]),?_⟩
      simp [unmapCall,hp,hpc]

def sharing : List Op :=
  [.spawn [⟨0,4096,0,0,true⟩],.createSharedRegion 0 [65] 1 0 true,.createMapping 0 [65] true true,.fork 0]

theorem store_outlives_regions_sharing : ∃ s, run sharing = some s ∧
    (∀ p ∈ s.procs, ∀ x ∈ p.regions, ∀ k, x.2.store = some k → ∃ c ∈ s.ctable, c.id = k) ∧
    (∀ o out, s.step o = some out → ∀ c ∈ s.ctable, out.drops c →
      s.Unreferenced c.id ∧ out.shm.Unreferenced c.id ∧
      (c.isPersist = true → ∃ pid, o = .destroySharedRegion pid c.name) ∧ s.unmapCall o = false) ∧
    ∀ pid name c, (s.caller pid).isSome = true → s.getContextByHandle name none = some c →
      ¬ s.Unreferenced c.id → s.step (.destroySharedRegion pid name) = some ⟨s,.mapped,[],none⟩ := by
  have hrun : (run sharing).isSome = true := by decide +kernel
  obtain ⟨s,hs⟩ := isSome_iff_exists.mp hrun
  exact ⟨s,hs,store_outlives_regions sharing s hs⟩

end Shm
end MappedMemory
