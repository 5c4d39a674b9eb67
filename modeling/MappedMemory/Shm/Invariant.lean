import MappedMemory.Shm.Context
import MappedMemory.Vm.RegionList

namespace MappedMemory

open List (flatMap_cons map_cons)
open Option (map_some toList_some)
open Keyed

def Pc.holds : Pc → Nat → Bool
  | .unmapping ctx _ _, c => ctx == c
  | .unmapped ctx _, c => ctx == c
  | _, _ => false

namespace Proc

def spaces (p : Proc) : List (Nat × Addrspace) := (p.pid,p.as) :: p.embryo.toList

def spaceIds (p : Proc) : List Nat := p.spaces.map Prod.fst

def regions (p : Proc) : List (Nat × Memregion) := p.spaces.flatMap fun e => e.2.regions.map fun r => (e.1,r)

def refers (p : Proc) (c : Nat) : Prop := (∃ x ∈ p.regions, x.2.store = some c) ∨ p.pc.holds c = true

lemma mem_regions {p : Proc} {x : Nat × Memregion} :
    x ∈ p.regions ↔ ∃ as, (x.1,as) ∈ p.spaces ∧ x.2 ∈ as.regions := by
  simp only [regions,List.mem_flatMap,List.mem_map,Prod.exists]
  constructor
  · rintro ⟨i,as,he,r,hr,rfl⟩
    exact ⟨as,he,hr⟩
  · rintro ⟨as,he,hr⟩
    exact ⟨x.1,as,he,x.2,hr,rfl⟩

end Proc

namespace Shm

def inFlight (s : Shm) (c : Nat) : Nat := (s.procs.map fun p => (p.pc.holds c).toNat).sum

def NoNode (s : Shm) (c : Nat) (n : Pid2mem) : Prop := ∀ ctx ∈ s.ctable, ctx.id = c → n ∉ ctx.rmap

def Teardown (p : Proc) (own : Bool) (rest : List Memregion) : Prop :=
  (own = true → p.embryo = none) ∧ ∃ e, target p own = some e ∧ (∀ r ∈ rest, r ∈ e.2.regions) ∧
    (rest.map Memregion.id).Nodup

def Resumes (p : Proc) : Option (Bool × List Memregion) → Prop
  | none => p.embryo = none
  | some t => Teardown p t.1 t.2

def PcInv (s : Shm) (p : Proc) : Prop :=
  match p.pc with
  | .user => p.embryo = none
  | .dead => p.embryo = none
  | .forking rest => p.embryo.isSome ∧ ∀ r ∈ rest, r ∈ p.as.regions
  | .linked c mr rest => (∀ r ∈ rest, r ∈ p.as.regions) ∧ (∃ r ∈ p.as.regions, r.store = some c) ∧
      ∃ e, p.embryo = some e ∧ ∃ r ∈ e.2.regions, r.id = mr ∧ r.store = some c ∧ s.NoNode c ⟨e.1,mr⟩
  | .tearing own rest => Teardown p own rest
  | .unmapping c mr t => (Resumes p t ∧ ∀ x ∈ t, mr ∉ x.2.map Memregion.id) ∧
      ∃ e, target p (t.elim true Prod.fst) = some e ∧ ∃ r ∈ e.2.regions, r.id = mr ∧ r.store = some c ∧
        s.NoNode c ⟨e.1,mr⟩
  | .unmapped _ t => Resumes p t

def Tracked (s : Shm) (p : Proc) (x : Nat × Memregion) (c : Nat) : Prop :=
  ∃ ctx ∈ s.ctable, ctx.id = c ∧ x.2.stop = x.2.start + ctx.bytes ∧
    (⟨x.1,x.2.id⟩ ∈ ctx.rmap ∨ (∃ t, p.pc = .unmapping c x.2.id t) ∨ ∃ rest, p.pc = .linked c x.2.id rest)

structure ProcInv (s : Shm) (p : Proc) : Prop where
  ids : (p.regions.map fun x => x.2.id).Nodup
  aligned : ∀ x ∈ p.regions, pgAligned x.2.start = true
  words : ∀ x ∈ p.regions, x.2.start < 2^64 ∧ x.2.stop < 2^64
  below : ∀ x ∈ p.regions, x.2.id < s.next
  stored : ∀ x ∈ p.regions, x.2.shared = x.2.store.isSome
  tracked : ∀ x ∈ p.regions, ∀ c, x.2.store = some c → s.Tracked p x c
  owned : ∀ x ∈ p.regions, ∀ c ∈ s.ctable, ⟨x.1,x.2.id⟩ ∈ c.rmap → x.2.store = some c.id
  disjoint : ∀ e ∈ p.spaces, ∀ r ∈ e.2.regions, ∀ r' ∈ e.2.regions, r.shared = true → r'.shared = true →
    r.id ≠ r'.id → r.stop ≤ r'.start ∨ r'.stop ≤ r.start
  heap : ∀ e ∈ p.spaces, ∀ id, e.2.heap = some id → id < s.next ∧ ∀ r ∈ e.2.regions, r.id = id → r.shared = false
  held : ∀ c, p.pc.holds c = true → ∃ ctx ∈ s.ctable, ctx.id = c
  pc : s.PcInv p

structure CtxInv (s : Shm) (c : Smemcontext) : Prop where
  below : c.id < s.next
  nodup : c.rmap.Nodup
  nodes : ∀ n ∈ c.rmap, n.mr < s.next
  refcnt : c.refcnt = c.rmap.length + s.inFlight c.id

structure Inv (s : Shm) : Prop where
  spaceIds : (s.procs.flatMap Proc.spaceIds).Nodup
  spaceLt : ∀ p ∈ s.procs, ∀ i ∈ p.spaceIds, i < s.next
  ctxIds : Distinct Smemcontext.id s.ctable
  ctx : ∀ c ∈ s.ctable, s.CtxInv c
  proc : ∀ p ∈ s.procs, s.ProcInv p

structure Frame (s s' : Shm) (q : Proc) : Prop where
  next : s.next ≤ s'.next
  ctx : ∀ c ∈ s.ctable, q.refers c.id → ∃ c' ∈ s'.ctable, c'.id = c.id ∧ c'.bytes = c.bytes ∧
    ∀ n : Pid2mem, n.as ∈ q.spaceIds → (n ∈ c'.rmap ↔ n ∈ c.rmap)
  node : ∀ c' ∈ s'.ctable, ∀ n ∈ c'.rmap, n.as ∈ q.spaceIds → ∃ c ∈ s.ctable, c.id = c'.id ∧ n ∈ c.rmap

variable {s s' : Shm} {p q : Proc} {c : Smemcontext} {i : Nat} {x : Nat × Memregion} {own : Bool}
  {e : Nat × Addrspace} {r : Memregion}

lemma distinct_pid (h : (s.procs.flatMap Proc.spaceIds).Nodup) : Distinct Proc.pid s.procs := by
  have hsub : (s.procs.map Proc.pid).Sublist (s.procs.flatMap Proc.spaceIds) := by
    induction s.procs with
    | nil => exact List.Sublist.slnil
    | cons p ps ih =>
      simp only [map_cons,flatMap_cons,Proc.spaceIds,Proc.spaces]
      exact (List.Sublist.cons_cons _ (ih.trans (List.sublist_append_right _ _)))
  exact h.sublist hsub

lemma space_mem (p : Proc) : p.pid ∈ p.spaceIds := by simp [Proc.spaceIds,Proc.spaces]

lemma mem_spaceIds (h : i ∈ p.spaceIds) : ∃ as, (i,as) ∈ p.spaces := by
  simpa [Proc.spaceIds] using h

lemma spaceIds_of_regions (h : x ∈ p.regions) : x.1 ∈ p.spaceIds := by
  obtain ⟨as,he,_⟩ := Proc.mem_regions.mp h
  exact List.mem_map.mpr ⟨_,he,rfl⟩

lemma target_mem (h : target p own = some e) : e ∈ p.spaces := by
  cases own with
  | true =>
    obtain rfl : (p.pid,p.as) = e := by simpa [target] using h
    exact List.mem_cons_self
  | false =>
    have he : p.embryo = some e := by simpa [target] using h
    simp [Proc.spaces,he]

lemma ProcInv.frame (h : s.ProcInv q) (hids : Distinct Smemcontext.id s'.ctable) (hf : Frame s s' q) :
    s'.ProcInv q := by
  have hno : ∀ c n, q.refers c → (∃ ctx ∈ s.ctable, ctx.id = c) → n.as ∈ q.spaceIds → s.NoNode c n →
      s'.NoNode c n := by
    intro c n href hex hn hno ctx' hctx' hid'
    obtain ⟨ctx,hctx,rfl⟩ := hex
    obtain ⟨c',hc',hid,_,hiff⟩ := hf.ctx ctx hctx href
    obtain rfl : c' = ctx' := hids.eq hc' hctx' (hid.trans hid'.symm)
    rw [hiff n hn]
    exact hno ctx hctx rfl
  refine ⟨h.ids,h.aligned,h.words,fun x hx => (h.below x hx).trans_le hf.next,h.stored,?_,?_,h.disjoint,
    fun e he id hid => ⟨(h.heap e he id hid).1.trans_le hf.next,(h.heap e he id hid).2⟩,?_,?_⟩
  · intro x hx c hc
    obtain ⟨ctx,hctx,rfl,hsize,hcase⟩ := h.tracked x hx c hc
    obtain ⟨c',hc',hid,hb,hiff⟩ := hf.ctx ctx hctx (.inl ⟨x,hx,hc⟩)
    refine ⟨c',hc',hid,by rw [hb]; exact hsize,?_⟩
    rw [hiff _ (spaceIds_of_regions hx)]
    exact hcase
  · intro x hx c' hc' hn
    obtain ⟨c,hc,hid,hn⟩ := hf.node c' hc' _ hn (spaceIds_of_regions hx)
    exact hid ▸ h.owned x hx c hc hn
  · intro c hc
    obtain ⟨ctx,hctx,rfl⟩ := h.held c hc
    obtain ⟨c',hc',hid,_⟩ := hf.ctx ctx hctx (.inr hc)
    exact ⟨c',hc',hid⟩
  · have hpc := h.pc
    have hheld := h.held
    have htrack := h.tracked
    simp only [PcInv] at hpc ⊢
    cases hq : q.pc with
    | user | dead | forking rest | tearing own rest | unmapped c t => simpa [hq] using hpc
    | linked c mr rest =>
      simp only [hq] at hpc ⊢
      obtain ⟨h1,h2,e,he,r,hr,hid,hst,hnn⟩ := hpc
      have hes : e ∈ q.spaces := by simp [Proc.spaces,he]
      have hx : (e.1,r) ∈ q.regions := Proc.mem_regions.mpr ⟨e.2,hes,hr⟩
      obtain ⟨ctx,hctx,hci,_⟩ := htrack _ hx c hst
      exact ⟨h1,h2,e,he,r,hr,hid,hst,
        hno c ⟨e.1,mr⟩ (.inl ⟨_,hx,hst⟩) ⟨ctx,hctx,hci⟩ (List.mem_map.mpr ⟨e,hes,rfl⟩) hnn⟩
    | unmapping c mr t =>
      simp only [hq] at hpc ⊢
      obtain ⟨h1,e,he,r,hr,hid,hst,hnn⟩ := hpc
      have hes := target_mem he
      have hheld' := hheld c (by simp [hq,Pc.holds])
      exact ⟨h1,e,he,r,hr,hid,hst,
        hno c ⟨e.1,mr⟩ (.inr (by simp [hq,Pc.holds])) hheld' (List.mem_map.mpr ⟨e,hes,rfl⟩) hnn⟩

lemma inFlight_setProc (hd : Distinct Proc.pid s.procs) (hp : p ∈ s.procs) {p' : Proc}
    (hpid : p'.pid = p.pid) (c : Nat) :
    (s.setProc p').inFlight c + (p.pc.holds c).toNat = s.inFlight c + (p'.pc.holds c).toNat :=
  hd.sum_modify hp hpid.symm fun q => (q.pc.holds c).toNat

lemma inFlight_pos (hp : p ∈ s.procs) {c : Nat} (h : p.pc.holds c = true) : 0 < s.inFlight c := by
  have hle := List.single_le_sum (fun _ _ => Nat.zero_le _) _
    (List.mem_map.mpr ⟨p,hp,rfl⟩ : (p.pc.holds c).toNat ∈ s.procs.map fun p => (p.pc.holds c).toNat)
  simp only [h,Bool.toNat_true] at hle
  exact hle

lemma Inv.pids (hi : s.Inv) : Distinct Proc.pid s.procs := distinct_pid hi.spaceIds

lemma Inv.spaceIds_nodup (hi : s.Inv) (hp : p ∈ s.procs) : p.spaceIds.Nodup :=
  (List.nodup_flatMap.mp hi.spaceIds).1 p hp

lemma Inv.embryo_ne (hi : s.Inv) (hp : p ∈ s.procs) (he : p.embryo = some e) : p.pid ≠ e.1 := by
  have h := hi.spaceIds_nodup hp
  simp only [Proc.spaceIds,Proc.spaces,he,toList_some,map_cons,List.map_nil,List.nodup_cons,
    List.mem_singleton] at h
  exact h.1

lemma Inv.spaces_apart (hi : s.Inv) (hp : p ∈ s.procs) (hq : q ∈ s.procs) (hne : q.pid ≠ p.pid) (h : i ∈ p.spaceIds) : i ∉ q.spaceIds := by
  intro h'
  have hpw := (List.nodup_flatMap.mp hi.spaceIds).2
  have hsymm : Std.Symm (Function.onFun List.Disjoint Proc.spaceIds) := ⟨fun _ _ h => List.disjoint_symm h⟩
  exact hpw.forall hp hq (fun he => hne (he ▸ rfl)) h h'

lemma ProcInv.region_eq (h : s.ProcInv p) {y : Nat × Memregion} (hx : x ∈ p.regions) (hy : y ∈ p.regions)
    (hid : x.2.id = y.2.id) : x = y :=
  List.inj_on_of_nodup_map h.ids hx hy hid

lemma own_region (h : r ∈ p.as.regions) : (p.pid,r) ∈ p.regions :=
  Proc.mem_regions.mpr ⟨p.as,by simp [Proc.spaces],h⟩

lemma embryo_region (he : p.embryo = some e) (h : r ∈ e.2.regions) : (e.1,r) ∈ p.regions :=
  Proc.mem_regions.mpr ⟨e.2,by simp [Proc.spaces,he],h⟩

lemma target_region (he : target p own = some e) (h : r ∈ e.2.regions) : (e.1,r) ∈ p.regions :=
  Proc.mem_regions.mpr ⟨e.2,target_mem he,h⟩

lemma Inv.unreferenced (hi : s.Inv) (hc : c ∈ s.ctable) (hz : c.refcnt = 0) :
    c.rmap = [] ∧ ∀ p ∈ s.procs, ¬ p.refers c.id := by
  have hcount := (hi.ctx c hc).refcnt
  have hnil : c.rmap = [] := List.length_eq_zero_iff.mp (by omega)
  have hfly : ∀ p ∈ s.procs, p.pc.holds c.id ≠ true := by
    intro p hp hh
    have := inFlight_pos hp hh
    omega
  have linked : ∀ p ∈ s.procs, ∀ x ∈ p.regions, x.2.store = some c.id →
      ∃ rest, p.pc = .linked c.id x.2.id rest := by
    intro p hp x hx hst
    obtain ⟨ctx,hctx,hid,_,hn | ⟨t,ht⟩ | hl⟩ := (hi.proc p hp).tracked x hx c.id hst
    · obtain rfl : ctx = c := hi.ctxIds.eq hctx hc hid
      simp [hnil] at hn
    · exact absurd (by simp [ht,Pc.holds]) (hfly p hp)
    · exact hl
  refine ⟨hnil,fun p hp => ?_⟩
  rintro (⟨x,hx,hst⟩ | hh)
  · obtain ⟨rest,hpc⟩ := linked p hp x hx hst
    have hinv := (hi.proc p hp).pc
    simp only [PcInv,hpc] at hinv
    obtain ⟨_,⟨r,hr,hrst⟩,e,he,r',hr',hid',_⟩ := hinv
    obtain ⟨rest',hpc'⟩ := linked p hp _ (own_region hr) hrst
    have hsame : r.id = x.2.id := by
      rw [hpc] at hpc'
      simp only [Pc.linked.injEq] at hpc'
      exact hpc'.2.1.symm
    have heq := (hi.proc p hp).region_eq (own_region hr) (embryo_region he hr') (hsame.trans hid'.symm)
    exact hi.embryo_ne hp he (congrArg Prod.fst heq)
  · exact hfly p hp hh

lemma Inv.update (p' : Proc) (hi : s.Inv) (hp : p ∈ s.procs) (hpid : p'.pid = p.pid)
    (hprocs : s'.procs = (s.setProc p').procs) (hle : s.next ≤ s'.next) (hspaces : p'.spaceIds.Nodup)
    (hnew : ∀ i ∈ p'.spaceIds, i ∈ p.spaceIds ∨ (s.next ≤ i ∧ i < s'.next))
    (hids : Distinct Smemcontext.id s'.ctable) (hctx : ∀ c ∈ s'.ctable, s'.CtxInv c)
    (hframe : ∀ q ∈ s.procs, q.pid ≠ p.pid → Frame s s' q) (hp' : s'.ProcInv p') : s'.Inv := by
  have hmem : ∀ q, q ∈ s'.procs ↔ q = p' ∨ (q ∈ s.procs ∧ q.pid ≠ p.pid) := by
    intro q
    rw [hprocs,setProc,hi.pids.mem_modify hp hpid.symm,hpid]
  refine ⟨?_,?_,hids,hctx,?_⟩
  · rw [hprocs]
    refine nodup_flatMap_modify hi.pids hi.spaceIds hp hpid.symm hspaces fun i hin => ?_
    rcases hnew i hin with h | h
    · exact .inl h
    · refine .inr fun hm => ?_
      obtain ⟨q,hq,hiq⟩ := List.mem_flatMap.mp hm
      have := hi.spaceLt q hq i hiq
      omega
  · intro q hq i hiq
    rcases (hmem q).mp hq with rfl | ⟨hq,_⟩
    · rcases hnew i hiq with h | h
      · exact (hi.spaceLt p hp i h).trans_le hle
      · exact h.2
    · exact (hi.spaceLt q hq i hiq).trans_le hle
  · intro q hq
    rcases (hmem q).mp hq with rfl | ⟨hq,hne⟩
    · exact hp'
    · exact (hi.proc q hq).frame hids (hframe q hq hne)

lemma Frame.same (q : Proc) (hle : s.next ≤ s'.next) (hct : s'.ctable = s.ctable) : Frame s s' q :=
  ⟨hle,fun c hc _ => ⟨c,hct ▸ hc,rfl,rfl,fun _ _ => Iff.rfl⟩,fun c hc _ hn _ => ⟨c,hct ▸ hc,rfl,hn⟩⟩

lemma CtxInv.mono (h : s.CtxInv c) (hle : s.next ≤ s'.next) (hfly : s'.inFlight c.id = s.inFlight c.id) :
    s'.CtxInv c :=
  ⟨h.below.trans_le hle,h.nodup,fun n hn => (h.nodes n hn).trans_le hle,by rw [hfly]; exact h.refcnt⟩

lemma inFlight_congr (h : s'.procs = s.procs) (c : Nat) : s'.inFlight c = s.inFlight c := by
  rw [inFlight,inFlight,h]

lemma Inv.updateLocal (p' : Proc) (hi : s.Inv) (hp : p ∈ s.procs) (hpid : p'.pid = p.pid)
    (hprocs : s'.procs = (s.setProc p').procs) (hct : s'.ctable = s.ctable) (hle : s.next ≤ s'.next)
    (hspaces : p'.spaceIds.Nodup) (hnew : ∀ i ∈ p'.spaceIds, i ∈ p.spaceIds ∨ (s.next ≤ i ∧ i < s'.next))
    (hholds : ∀ c, p'.pc.holds c = p.pc.holds c) (hp' : s'.ProcInv p') : s'.Inv := by
  refine hi.update p' hp hpid hprocs hle hspaces hnew (hct ▸ hi.ctxIds) ?_ (fun q _ _ => .same q hle hct) hp'
  intro c hc
  have hfly : s'.inFlight c.id = s.inFlight c.id := by
    have := inFlight_setProc hi.pids hp hpid c.id
    rw [hholds] at this
    rw [inFlight_congr hprocs]
    omega
  exact (hi.ctx c (hct ▸ hc)).mono hle hfly

lemma setContext_distinct (c' : Smemcontext) (h : Distinct Smemcontext.id s.ctable) :
    Distinct Smemcontext.id (s.setContext c').ctable := by
  change (List.map _ (modify _ _ _ _)).Nodup
  have hmap : (modify Smemcontext.id c'.id (fun _ => c') s.ctable).map Smemcontext.id =
      s.ctable.map Smemcontext.id := by
    simp only [Keyed.modify,List.map_map]
    refine List.map_congr_left fun d _ => ?_
    simp only [Function.comp_apply]
    split
    · rename_i h
      exact h.symm
    · rfl
  rw [hmap]
  exact h

lemma Inv.updateCtx (p' : Proc) (c' : Smemcontext) (hi : s.Inv) (hp : p ∈ s.procs) (hpid : p'.pid = p.pid)
    (hprocs : s'.procs = (s.setProc p').procs) (hc : c ∈ s.ctable) (hcid : c'.id = c.id)
    (hct : s'.ctable = (s.setContext c').ctable) (hle : s.next ≤ s'.next)
    (hspaces : p'.spaceIds.Nodup) (hsub : ∀ i ∈ p'.spaceIds, i ∈ p.spaceIds)
    (hholds : ∀ x, x ≠ c.id → p'.pc.holds x = p.pc.holds x) (hbytes : c'.bytes = c.bytes)
    (hnodes : ∀ n : Pid2mem, n.as ∉ p.spaceIds → (n ∈ c'.rmap ↔ n ∈ c.rmap))
    (hctx : s'.CtxInv c') (hp' : s'.ProcInv p') : s'.Inv := by
  have hmem : ∀ d, d ∈ s'.ctable ↔ d = c' ∨ (d ∈ s.ctable ∧ d.id ≠ c.id) := by
    intro d
    rw [hct,setContext,hi.ctxIds.mem_modify hc hcid.symm,hcid]
  have hids : Distinct Smemcontext.id s'.ctable := hct ▸ setContext_distinct c' hi.ctxIds
  refine hi.update p' hp hpid hprocs hle hspaces (fun i h => .inl (hsub i h)) hids ?_ ?_ hp'
  · intro d hd
    rcases (hmem d).mp hd with rfl | ⟨hd,hne⟩
    · exact hctx
    · refine (hi.ctx d hd).mono hle ?_
      have := inFlight_setProc hi.pids hp hpid d.id
      rw [hholds d.id hne] at this
      rw [inFlight_congr hprocs]
      omega
  · intro q hq hne
    have hkeep : ∀ n : Pid2mem, n.as ∈ q.spaceIds → (n ∈ c'.rmap ↔ n ∈ c.rmap) := fun n hn =>
      hnodes n fun hn' => hi.spaces_apart hp hq hne hn' hn
    refine ⟨hle,fun d hd _ => ?_,fun d hd n hn hnq => ?_⟩
    · by_cases hdc : d.id = c.id
      · obtain rfl : d = c := hi.ctxIds.eq hd hc hdc
        exact ⟨c',(hmem c').mpr (.inl rfl),hcid,hbytes,hkeep⟩
      · exact ⟨d,(hmem d).mpr (.inr ⟨hd,hdc⟩),rfl,rfl,fun _ _ => Iff.rfl⟩
    · rcases (hmem d).mp hd with rfl | ⟨hd,_⟩
      · exact ⟨c,hc,hcid.symm,(hkeep n hnq).mp hn⟩
      · exact ⟨d,hd,rfl,hn⟩

section spaces
variable {own : Bool} {e : Nat × Addrspace} {as' : Addrspace}

lemma setTarget_pid : (setTarget p own as').pid = p.pid := by
  cases own <;> rfl

lemma setTarget_pc : (setTarget p own as').pc = p.pc := by
  cases own <;> rfl

lemma target_setTarget (as' : Addrspace) (he : target p own = some e) : target (setTarget p own as') own = some (e.1,as') := by
  cases own with
  | true =>
    obtain rfl : (p.pid,p.as) = e := by simpa [target] using he
    rfl
  | false =>
    have h : p.embryo = some e := by simpa [target] using he
    simp [target,setTarget,h]

lemma setTarget_spaces (he : target p own = some e) {x : Nat × Addrspace}
    (h : x ∈ (setTarget p own as').spaces) : x = (e.1,as') ∨ x ∈ p.spaces := by
  cases own with
  | true =>
    obtain rfl : (p.pid,p.as) = e := by simpa [target] using he
    exact (List.mem_cons.mp h).imp id (List.mem_cons_of_mem _)
  | false =>
    have hemb : p.embryo = some e := by simpa [target] using he
    simp only [setTarget,Proc.spaces,hemb,Bool.false_eq_true,if_false,map_some,toList_some,
      List.mem_cons,List.not_mem_nil,or_false] at h ⊢
    tauto

lemma setTarget_spaceIds (as' : Addrspace) (he : target p own = some e) : (setTarget p own as').spaceIds = p.spaceIds := by
  cases own with
  | true => rfl
  | false =>
    have h : p.embryo = some e := by simpa [target] using he
    simp [setTarget,Proc.spaceIds,Proc.spaces,h]

lemma setTarget_regions_perm (he : target p own = some e) {r : Memregion}
    (has : as'.regions.Perm (r :: e.2.regions)) : (setTarget p own as').regions.Perm ((e.1,r) :: p.regions) := by
  cases own with
  | true =>
    obtain rfl : (p.pid,p.as) = e := by simpa [target] using he
    simp only [setTarget,Proc.regions,Proc.spaces,flatMap_cons]
    exact (has.map fun r => (p.pid,r)).append_right _
  | false =>
    have h : p.embryo = some e := by simpa [target] using he
    simp only [setTarget,Proc.regions,Proc.spaces,h,Bool.false_eq_true,if_false,map_some,
      toList_some,flatMap_cons,List.flatMap_nil,List.append_nil]
    refine ((has.map fun r => (e.1,r)).append_left _).trans ?_
    exact List.perm_middle

lemma setTarget_regions_sublist (he : target p own = some e) (has : as'.regions.Sublist e.2.regions) :
    (setTarget p own as').regions.Sublist p.regions := by
  cases own with
  | true =>
    obtain rfl : (p.pid,p.as) = e := by simpa [target] using he
    simp only [setTarget,Proc.regions,Proc.spaces,flatMap_cons]
    exact (has.map _).append (List.Sublist.refl _)
  | false =>
    have h : p.embryo = some e := by simpa [target] using he
    simp only [setTarget,Proc.regions,Proc.spaces,h,Bool.false_eq_true,if_false,map_some,
      toList_some,flatMap_cons,List.flatMap_nil,List.append_nil]
    exact (List.Sublist.refl _).append (has.map _)

end spaces

end Shm
end MappedMemory
