import MappedMemory.Shm.Changes

namespace MappedMemory

open Option (bind_eq_some_iff some_inj)
open Run (bind_some)

open Keyed

namespace Shm

def Op.actor : Op → Option Nat
  | .spawn _ => none
  | .createSharedRegion pid _ _ _ _ => some pid
  | .destroySharedRegion pid _ => some pid
  | .createMapping pid _ _ _ => some pid
  | .destroyMapping pid _ _ => some pid
  | .sbrk pid _ => some pid
  | .fork pid => some pid
  | .exit pid => some pid
  | .advance pid _ => some pid

inductive Acts (s : Shm) (o : Op) (p : Proc) : Proc → Prop
  | idle : Acts s o p p
  | sbrk (id stop : Nat) : p.pc = .user → Acts s o p { p with as := setStop p.as id stop }
  | fork : p.pc = .user →
      Acts s o p { p with embryo := some (s.next,⟨false,[],none⟩), pc := .forking p.as.regions }
  | exit : o = .exit p.pid → p.pc = .user → Acts s o p { p with pc := .tearing true p.as.regions }
  | grow (rest : List Memregion) (child : Nat) (as as' : Addrspace) (pc : Pc) : p.pc = .forking rest →
      p.embryo = some (child,as) → (∀ r ∈ as.regions, r ∈ as'.regions) →
      (∃ rest', pc = .forking rest' ∨ ∃ c mr, pc = .linked c mr rest') →
      Acts s o p { p with embryo := some (child,as'), pc := pc }
  | abort (child : Nat) (as as' : Addrspace) : (∃ rest, p.pc = .forking rest) → p.embryo = some (child,as) →
      Acts s o p { p with embryo := some (child,as'), pc := .tearing false as'.regions }
  | strip (ctx mr : Nat) (rest : List Memregion) (child : Nat) (as : Addrspace) : p.pc = .linked ctx mr rest →
      p.embryo = some (child,as) →
      Acts s o p { p with embryo := some (child,as.memregionUnmapInternal mr), pc := .forking rest }
  | skip (own : Bool) (r : Memregion) (rest : List Memregion) : p.pc = .tearing own (r :: rest) →
      Acts s o p { p with pc := .tearing own rest }
  | tear (own : Bool) (r : Memregion) (rest : List Memregion) (as : Addrspace) : p.pc = .tearing own (r :: rest) →
      Acts s o p { setTarget p own (as.memregionUnmapInternal r.id) with pc := .tearing own rest }
  | unmapped (ctx mr space : Nat) (as : Addrspace) (t : Option (Bool × List Memregion)) :
      p.pc = .unmapping ctx mr t → target p (t.elim true Prod.fst) = some (space,as) →
      Acts s o p { setTarget p (t.elim true Prod.fst) (as.memregionUnmapInternal mr) with pc := .unmapped ctx t }
  | torn (own : Bool) : p.pc = .tearing own [] →
      Acts s o p { p with pc := if own then .dead else .user, embryo := none }

def Unlinks (s : Shm) (o : Op) (p : Proc) (c : Smemcontext) (n : Pid2mem) (t : Option (Bool × List Memregion)) : Prop :=
  (p.pc = .user ∧ t = none ∧ n.as = p.pid ∧
    ∃ name vaddr, o = .destroyMapping p.pid name vaddr ∧ s.getContextByHandle name (some p.pid) = some c) ∨
  ∃ own r rest as, p.pc = .tearing own (r :: rest) ∧ t = some (own,rest) ∧ target p own = some (n.as,as)

inductive Transition (s : Shm) (o : Op) : Shm → Prop
  | stay : Transition s o s
  | spawn (as : Addrspace) (next : Nat) : s.next < next →
      Transition s o { s with procs := s.procs ++ [⟨s.next,as,none,.user⟩], next := next }
  | create (pid : Nat) (name : List Nat) (size : Nat) (n : Int) (flag : Nat) : (s.caller pid).isSome = true →
      o = .createSharedRegion pid name size flag true → s.getContextByHandle name none = none →
      Transition s o { s with ctable := s.ctable ++ [contextInit s.next name n flag], next := s.next + 1 }
  | destroy (c : Smemcontext) : c ∈ s.ctable → c.refcnt = 0 →
      Transition s o { s with ctable := remove Smemcontext.id c.id s.ctable }
  | act (p p' : Proc) (next : Nat) : p ∈ s.procs → o.actor = some p.pid → Acts s o p p' → s.next ≤ next →
      Transition s o { s.setProc p' with next := next }
  | map (p : Proc) (c : Smemcontext) (name : List Nat) (alloc : Bool) (as : Addrspace) (r : Memregion) :
      p ∈ s.procs → p.pc = .user → o = .createMapping p.pid name alloc true →
      s.getContextByHandle name none = some c → NewRegion p.as as r s.next c.bytes (some c.id) true →
      Transition s o { (s.setProc { p with as := as }).addRmapping c p.pid r.id with next := s.next + 1 }
  | link (p : Proc) (c : Smemcontext) (child mr : Nat) (as : Addrspace) (rest : List Memregion) (or : Oracle) :
      p ∈ s.procs → p.pc = .linked c.id mr rest → p.embryo = some (child,as) → c ∈ s.ctable →
      o = .advance p.pid or → or.node = true →
      Transition s o ((s.addRmapping c child mr).setProc { p with pc := .forking rest })
  | unlink (p : Proc) (c : Smemcontext) (n : Pid2mem) (mr : Nat) (t : Option (Bool × List Memregion)) :
      p ∈ s.procs → o.actor = some p.pid → c ∈ s.ctable → n ∈ c.rmap → Unlinks s o p c n t →
      Transition s o ((s.setContext { c with rmap := c.rmap.erase n }).setProc { p with pc := .unmapping c.id mr t })
  | release (p : Proc) (c : Smemcontext) (t : Option (Bool × List Memregion)) : p ∈ s.procs →
      o.actor = some p.pid → p.pc = .unmapped c.id t → c ∈ s.ctable →
      (c.refcnt = 1 → c.isPersist = false → t = none) →
      Transition s o ((s.setContext { c with refcnt := c.refcnt - 1 }).setProc
        { p with pc := t.elim .user fun t => .tearing t.1 t.2 })
  | drop (p : Proc) (c : Smemcontext) (t : Bool × List Memregion) : p ∈ s.procs → o.actor = some p.pid →
      p.pc = .unmapped c.id (some t) → c ∈ s.ctable → c.refcnt = 1 →
      Transition s o { s.setProc { p with pc := .tearing t.1 t.2 } with
        ctable := remove Smemcontext.id c.id (s.setContext { c with refcnt := c.refcnt - 1 }).ctable }
  | forked (p : Proc) (child : Nat) (as : Addrspace) (rest : List Memregion) : p ∈ s.procs →
      o.actor = some p.pid → p.pc = .forking rest → p.embryo = some (child,as) →
      Transition s o { s with
        procs := (s.setProc { p with embryo := none, pc := .user }).procs ++ [⟨child,as,none,.user⟩] }

variable {s s' : Shm} {p p' q : Proc} {c c' : Smemcontext} {n : Pid2mem} {out : Outcome} {o : Op} {name : List Nat}
  {as : Addrspace} {r : Memregion} {rest : List Memregion} {or : Oracle} {ctx mr : Nat}
  {t : Option (Bool × List Memregion)} {x' : Nat × Addrspace} {m : Pid2mem}

lemma createMapping_transition {alloc node : Bool} (hi : s.Inv) (hp : p ∈ s.procs)
    (hpc : p.pc = .user) (h : s.createMapping p name alloc node = some out) :
    Transition s (.createMapping p.pid name alloc node) out.shm := by
  simp only [createMapping] at h
  split at h
  · cases h
    exact .stay
  rename_i c hget
  simp only [bind_some,Prod.exists] at h
  obtain ⟨as,mr,hmap,h⟩ := h
  cases mr with
  | none =>
    cases h
    exact .stay
  | some r =>
    obtain ⟨hnew,-⟩ := newRegion (by decide) (bytes_lt c) hmap
    cases node with
    | true =>
      cases h
      exact .map p c name alloc as r hp hpc rfl hget hnew
    | false =>
      cases h
      have hback := mapInternal_unmap (by decide) (bytes_lt c) hmap
        fun y hy => ((hi.proc p hp).below _ (own_region hy)).ne
      simp only [hback]
      exact .act p p (s.next + 1) hp rfl .idle (by omega)

lemma destroyMapping_transition {vaddr : Nat} (hp : p ∈ s.procs) (hpc : p.pc = .user)
    (h : s.destroyMapping p name vaddr = some out) : Transition s (.destroyMapping p.pid name vaddr) out.shm := by
  simp only [destroyMapping] at h
  split at h
  · cases h
    exact .stay
  rename_i c hget
  split at h
  · cases h
    exact .stay
  · rename_i t n hfind
    obtain ⟨rfl,hn,has,-⟩ := findRemove_some hfind
    cases h
    exact .unlink p c n n.mr none hp rfl (getContext_mem hget).1 hn (.inl ⟨hpc,rfl,has,name,vaddr,rfl,hget⟩)

lemma asCopyRegion_transition {child : Nat} (hi : s.Inv) (hp : p ∈ s.procs) (hemb : p.embryo = some (child,as)) (hpc : p.pc = .forking (r :: rest))
    (h : s.asCopyRegion p child as r rest or = some out) : Transition s (.advance p.pid or) out.shm := by
  simp only [asCopyRegion,bind_some,Prod.exists] at h
  obtain ⟨as1,dst,hmap,h⟩ := h
  cases dst with
  | none =>
    cases h
    exact .act p _ s.next hp rfl (.abort child as as ⟨_,hpc⟩ hemb) le_rfl
  | some d =>
    have hr : r ∈ p.as.regions := by
      have hinv := (hi.proc p hp).pc
      simp only [PcInv,hpc] at hinv
      exact hinv.2 r (by simp)
    have hsub : ∀ y ∈ as.regions, y ∈ as1.regions := by
      obtain ⟨hnew,-⟩ := newRegion ((hi.proc p hp).words _ (own_region hr)).1 (Addrspace.sub64_lt _ _) hmap
      exact fun y hy => hnew.perm.mem_iff.mpr (List.mem_cons_of_mem _ hy)
    simp only at h
    split at h
    · split at h
      · cases h
      · rename_i k hk
        cases h
        exact .act p _ (s.next + 1) hp rfl (.grow _ child as as1 _ hpc hemb hsub ⟨rest,.inr ⟨k,d.id,rfl⟩⟩) (by omega)
    · split at h
      · cases h
        exact .act p _ (s.next + 1) hp rfl (.grow _ child as _ _ hpc hemb hsub ⟨rest,.inl rfl⟩) (by omega)
      · cases h
        exact .act p _ (s.next + 1) hp rfl (.abort child as _ ⟨_,hpc⟩ hemb) (by omega)

lemma asDestroyRegion_transition {own : Bool} (hp : p ∈ s.procs)
    (hpc : p.pc = .tearing own (r :: rest)) (h : s.asDestroyRegion p own r rest = some out) :
    Transition s (.advance p.pid or) out.shm := by
  simp only [asDestroyRegion,bind_some,Prod.exists] at h
  obtain ⟨space,as,he,h⟩ := h
  split_ifs at h
  · simp only [bind_some] at h
    obtain ⟨k,-,c,hc,h⟩ := h
    split at h
    · cases h
      exact .act p _ s.next hp rfl (.skip own r rest hpc) le_rfl
    · rename_i t n hfind
      obtain ⟨rfl,hn,rfl,-⟩ := findRemove_some hfind
      cases h
      exact .unlink p c n r.id _ hp rfl (lookup_some hc).1 hn (.inr ⟨own,r,rest,as,hpc,rfl,he⟩)
  · cases h
    exact .act p _ s.next hp rfl (.tear own r rest as hpc) le_rfl

lemma memregionUnmap_transition (hp : p ∈ s.procs)
    (hpc : p.pc = .unmapping ctx mr t) (h : s.memregionUnmap p ctx mr t = some out) :
    Transition s (.advance p.pid or) out.shm := by
  simp only [memregionUnmap,bind_some,Prod.exists] at h
  obtain ⟨space,as,he,r,-,h⟩ := h
  cases h
  exact .act p _ s.next hp rfl (.unmapped ctx mr space as t hpc he) le_rfl

lemma destroySharedRegionInternal_last (hz : c.refcnt = 0) (hper : c.isPersist = false)
    (h : s.destroySharedRegionInternal c false = some out) :
    out.shm = { s with ctable := remove Smemcontext.id c.id s.ctable } := by
  simp only [destroySharedRegionInternal,hz,hper,fail,done,ne_eq,not_true_eq_false,if_false,Bool.false_and,
    Bool.false_eq_true] at h
  obtain ⟨-,h⟩ := Option.ite_none_right_eq_some.mp h
  cases h
  rfl

lemma dropContextRef_transition (hp : p ∈ s.procs)
    (hpc : p.pc = .unmapped ctx t) (h : s.dropContextRef p ctx t = some out) :
    Transition s (.advance p.pid or) out.shm := by
  simp only [dropContextRef,bind_some] at h
  obtain ⟨c,hfound,h⟩ := h
  obtain ⟨hc,rfl⟩ := lookup_some hfound
  split_ifs at h with hlast
  · obtain ⟨hz,hper,ht⟩ := hlast
    obtain ⟨t,rfl⟩ := Option.isSome_iff_exists.mp ht
    rw [destroySharedRegionInternal_last hz hper h]
    exact .drop p c t hp rfl hpc hc (by omega)
  · cases h
    refine .release p c t hp rfl hpc hc fun h1 hper => ?_
    by_contra hne
    exact hlast ⟨by omega,hper,Option.isSome_iff_ne_none.mpr hne⟩

lemma advance_transition (hi : s.Inv) (hp : p ∈ s.procs) (h : s.advance p or = some out) :
    Transition s (.advance p.pid or) out.shm := by
  simp only [advance] at h
  split at h
  · cases h
  · cases h
  · rename_i rest hpc
    split at h
    · cases h
    rename_i child as hemb
    split at h
    · exact asCopyRegion_transition hi hp hemb hpc h
    · split at h
      · cases h
        exact .forked p child as _ hp rfl hpc hemb
      · cases h
        exact .act p _ s.next hp rfl (.abort child as as ⟨_,hpc⟩ hemb) le_rfl
  · rename_i ctx mr rest hpc
    split at h
    · cases h
    rename_i child as hemb
    simp only [addContextRef,bind_some] at h
    obtain ⟨c,hfound,d,-,h⟩ := h
    obtain ⟨hc,rfl⟩ := lookup_some hfound
    split at h
    · rename_i hnode
      cases h
      exact .link p c child mr as rest or hp hpc hemb hc rfl hnode
    · cases h
      exact .act p _ s.next hp rfl (.strip _ mr rest child as hpc hemb) le_rfl
  · rename_i own hpc
    cases h
    exact .act p _ s.next hp rfl (.torn own hpc) le_rfl
  · rename_i own r rest hpc
    exact asDestroyRegion_transition hp hpc h
  · rename_i ctx mr t hpc
    exact memregionUnmap_transition hp hpc h
  · rename_i ctx t hpc
    exact dropContextRef_transition hp hpc h

lemma caller_pid {pid : Nat} (h : s.caller pid = some p) : p ∈ s.procs ∧ p.pc = .user ∧ p.pid = pid := by
  obtain ⟨q,hq,h⟩ := bind_eq_some_iff.mp h
  obtain ⟨hpc,h⟩ := Option.ite_none_right_eq_some.mp h
  cases h
  exact ⟨(proc_mem hq).1,hpc,(proc_mem hq).2⟩

lemma step_transition (hi : s.Inv) (h : s.step o = some out) : Transition s o out.shm := by
  cases o with
  | spawn phs =>
    obtain ⟨-,⟨hs,-⟩ | ⟨as,next,hb,hs⟩⟩ := spawn_cases h
    · rw [hs]
      exact .stay
    · rw [hs]
      exact .spawn as next (by have := hb.isPrivate.1; omega)
  | createSharedRegion pid name size flag alloc =>
    obtain ⟨p,hp,h⟩ := bind_eq_some_iff.mp h
    simp only [sysCreateSharedRegion,createSharedRegion,fail,done] at h
    split_ifs at h with hlen hex halloc <;> cases h
    · exact .stay
    · exact .stay
    · exact .create pid name size _ flag (by simp [hp]) (by rw [halloc]) (by simpa using hex)
    · exact .stay
  | destroySharedRegion pid name =>
    obtain ⟨p,-,h⟩ := bind_eq_some_iff.mp h
    simp only [destroySharedRegion] at h
    split at h
    · cases h
      exact .stay
    · rename_i c hget
      rcases destroySharedRegionInternal_cases h with ⟨hs,-⟩ | ⟨hz,-,rfl⟩
      · rw [hs]
        exact .stay
      · exact .destroy c (getContext_mem hget).1 hz
  | createMapping pid name alloc node =>
    obtain ⟨p,hcall,hres⟩ := bind_eq_some_iff.mp h
    obtain ⟨hp,hpc,rfl⟩ := caller_pid hcall
    exact createMapping_transition hi hp hpc hres
  | destroyMapping pid name vaddr =>
    obtain ⟨p,hcall,hres⟩ := bind_eq_some_iff.mp h
    obtain ⟨hp,hpc,rfl⟩ := caller_pid hcall
    exact destroyMapping_transition hp hpc hres
  | sbrk pid size =>
    obtain ⟨p,hcall,hres⟩ := bind_eq_some_iff.mp h
    obtain ⟨hp,hpc,rfl⟩ := caller_pid hcall
    obtain ⟨-,hs | ⟨id,stop,-,-,hs⟩⟩ := sysSbrk_cases hres
    · rw [hs]
      exact .stay
    · rw [hs]
      exact .act p _ s.next hp rfl (.sbrk id stop hpc) le_rfl
  | fork pid =>
    obtain ⟨p,hcall,hres⟩ := bind_eq_some_iff.mp h
    obtain ⟨hp,hpc,rfl⟩ := caller_pid hcall
    cases hres
    exact .act p _ (s.next + 1) hp rfl (.fork hpc) (by omega)
  | exit pid =>
    obtain ⟨p,hcall,hres⟩ := bind_eq_some_iff.mp h
    obtain ⟨hp,hpc,rfl⟩ := caller_pid hcall
    cases hres
    exact .act p _ s.next hp rfl (.exit rfl hpc) le_rfl
  | advance pid or =>
    obtain ⟨p,hfound,hres⟩ := bind_eq_some_iff.mp h
    obtain ⟨hp,rfl⟩ := proc_mem hfound
    exact advance_transition hi hp hres

lemma Transition.next_le (h : Transition s o s') : s.next ≤ s'.next := by
  cases h with
  | spawn as next hlt => exact hlt.le
  | act p p' next _ _ _ hle => exact hle
  | create | map => exact Nat.le_succ _
  | _ => exact le_rfl

structure SameFace (c c' : Smemcontext) : Prop where
  id : c'.id = c.id
  name : c'.name = c.name
  flag : c'.flag = c.flag
  lockBy : c'.lockBy = c.lockBy

lemma SameFace.refl (c : Smemcontext) : SameFace c c := ⟨rfl,rfl,rfl,rfl⟩

lemma set_origin (d : Smemcontext) (hi : s.Inv) (hc : c ∈ s.ctable) (hd : SameFace c d)
    (h : c' ∈ (s.setContext d).ctable) : ∃ c ∈ s.ctable, SameFace c c' := by
  rcases (mem_setContext d hi hc hd.id).mp h with rfl | ⟨hc',-⟩
  · exact ⟨c,hc,hd⟩
  · exact ⟨c',hc',.refl c'⟩

lemma Transition.origin (hi : s.Inv) (h : Transition s o s') (hc' : c' ∈ s'.ctable) :
    (∃ name n flag, c' = contextInit s.next name n flag ∧ s.getContextByHandle name none = none ∧
      ∃ pid size, o = .createSharedRegion pid name size flag true ∧ (s.caller pid).isSome = true ∧
        s'.procs = s.procs ∧ s'.next = s.next + 1) ∨
    ∃ c ∈ s.ctable, SameFace c c' := by
  cases h with
  | stay | spawn | act | forked => exact .inr ⟨c',hc',.refl c'⟩
  | create pid name size n flag hcall ho hnew =>
    rcases List.mem_append.mp hc' with hc' | hc'
    · exact .inr ⟨c',hc',.refl c'⟩
    · exact .inl ⟨name,n,flag,List.mem_singleton.mp hc',hnew,pid,size,ho,hcall,rfl,rfl⟩
  | destroy c => exact .inr ⟨c',(mem_remove.mp hc').1,.refl c'⟩
  | map p c name alloc as r _ _ _ hget =>
    exact .inr (set_origin (addNode c ⟨p.pid,r.id⟩) hi (getContext_mem hget).1 ⟨rfl,rfl,rfl,rfl⟩ hc')
  | link p c child mr as rest or _ _ _ hc =>
    exact .inr (set_origin (addNode c ⟨child,mr⟩) hi hc ⟨rfl,rfl,rfl,rfl⟩ hc')
  | unlink p c n mr t _ _ hc =>
    exact .inr (set_origin { c with rmap := c.rmap.erase n } hi hc ⟨rfl,rfl,rfl,rfl⟩ hc')
  | release p c t _ _ _ hc =>
    exact .inr (set_origin { c with refcnt := c.refcnt - 1 } hi hc ⟨rfl,rfl,rfl,rfl⟩ hc')
  | drop p c t _ _ _ hc =>
    exact .inr (set_origin { c with refcnt := c.refcnt - 1 } hi hc ⟨rfl,rfl,rfl,rfl⟩ (mem_remove.mp hc').1)

lemma set_kept {d : Smemcontext} {k : Smemcontext} (hi : s.Inv) (hc : c ∈ s.ctable) (hd : SameFace c d)
    (hsub : ∀ n ∈ c.rmap, n ∈ d.rmap) (hk : k ∈ s.ctable) :
    ∃ k' ∈ (s.setContext d).ctable, SameFace k k' ∧ ∀ n ∈ k.rmap, n ∈ k'.rmap := by
  by_cases hkc : k.id = c.id
  · obtain rfl := hi.ctxIds.eq hk hc hkc
    exact ⟨d,(mem_setContext d hi hk hd.id).mpr (.inl rfl),hd,hsub⟩
  · exact ⟨k,(mem_setContext d hi hc hd.id).mpr (.inr ⟨hk,hkc⟩),.refl k,fun _ hn => hn⟩

lemma Transition.survives (hi : s.Inv) (h : Transition s o s') (hc : c ∈ s.ctable) (hne : c.rmap ≠ []) :
    ∃ c' ∈ s'.ctable, SameFace c c' ∧ ((∀ n ∈ c.rmap, n ∈ c'.rmap) ∨
      ∃ p ∈ s.procs, ∃ n t, o.actor = some p.pid ∧ Unlinks s o p c n t ∧ c'.rmap = c.rmap.erase n) := by
  have hkeep : ∀ {k : Smemcontext}, k ∈ s'.ctable → SameFace c k → (∀ n ∈ c.rmap, n ∈ k.rmap) →
      ∃ c' ∈ s'.ctable, SameFace c c' ∧ ((∀ n ∈ c.rmap, n ∈ c'.rmap) ∨
        ∃ p ∈ s.procs, ∃ n t, o.actor = some p.pid ∧ Unlinks s o p c n t ∧ c'.rmap = c.rmap.erase n) :=
    fun hk hf hn => ⟨_,hk,hf,.inl hn⟩
  cases h with
  | stay | spawn | act | forked => exact hkeep hc (.refl c) fun _ hn => hn
  | create => exact hkeep (List.mem_append_left _ hc) (.refl c) fun _ hn => hn
  | destroy d hd hz =>
    refine hkeep (mem_remove.mpr ⟨hc,fun he => hne ?_⟩) (.refl c) fun _ hn => hn
    obtain rfl := hi.ctxIds.eq hc hd he
    exact (hi.unreferenced hd hz).1
  | map p d name alloc as r _ _ _ hget =>
    obtain ⟨k,hk,hf,hn⟩ := set_kept (d := addNode d ⟨p.pid,r.id⟩) hi (getContext_mem hget).1 ⟨rfl,rfl,rfl,rfl⟩
      (fun _ hn => List.mem_append_left _ hn) hc
    exact hkeep hk hf hn
  | link p d child mr as rest or _ _ _ hd =>
    obtain ⟨k,hk,hf,hn⟩ := set_kept (d := addNode d ⟨child,mr⟩) hi hd ⟨rfl,rfl,rfl,rfl⟩
      (fun _ hn => List.mem_append_left _ hn) hc
    exact hkeep hk hf hn
  | unlink p d n mr t hp hact hd hn hun =>
    by_cases hcd : c.id = d.id
    · obtain rfl := hi.ctxIds.eq hc hd hcd
      exact ⟨_,(mem_setContext { c with rmap := c.rmap.erase n } hi hc rfl).mpr (.inl rfl),⟨rfl,rfl,rfl,rfl⟩,
        .inr ⟨p,hp,n,t,hact,hun,rfl⟩⟩
    · exact hkeep ((mem_setContext { d with rmap := d.rmap.erase n } hi hd rfl).mpr (.inr ⟨hc,hcd⟩)) (.refl c)
        fun _ hn => hn
  | release p d t _ _ _ hd =>
    obtain ⟨k,hk,hf,hn⟩ := set_kept (d := { d with refcnt := d.refcnt - 1 }) hi hd ⟨rfl,rfl,rfl,rfl⟩ (fun _ hn => hn) hc
    exact hkeep hk hf hn
  | drop p d t hp _ hpc hd h1 =>
    refine hkeep (mem_remove.mpr ⟨(mem_setContext { d with refcnt := d.refcnt - 1 } hi hd rfl).mpr
      (.inr ⟨hc,?_⟩),?_⟩) (.refl c) fun _ hn => hn
    all_goals
      intro he
      obtain rfl := hi.ctxIds.eq hc hd he
      have hcount := (hi.ctx c hc).refcnt
      have hfly := inFlight_pos hp (c := c.id) (by simp [hpc,Pc.holds])
      exact hne (List.length_eq_zero_iff.mp (by omega))

lemma Transition.survives_other (hi : s.Inv) (h : Transition s o s') (hq : q ∈ s.procs) (hact : o.actor ≠ some q.pid)
    (hc : c ∈ s.ctable) (hn : n ∈ c.rmap) (has : n.as = q.pid) : ∃ c' ∈ s'.ctable, SameFace c c' ∧ n ∈ c'.rmap := by
  obtain ⟨c',hc',hface,hkeep | ⟨p,hp,m,t,hpact,hun,hrmap⟩⟩ := h.survives hi hc (List.ne_nil_of_mem hn)
  · exact ⟨c',hc',hface,hkeep n hn⟩
  · have hne : q.pid ≠ p.pid := fun he => hact (he ▸ hpact)
    refine ⟨c',hc',hface,?_⟩
    rw [hrmap]
    refine (List.mem_erase_of_ne fun he => ?_).mpr hn
    rcases hun with ⟨-,-,hm,-⟩ | ⟨own,r,rest,as,-,-,htarget⟩
    · exact hne (has.symm.trans (he ▸ hm))
    · have hspace : n.as ∈ p.spaceIds := List.mem_map.mpr ⟨_,target_mem htarget,by rw [he]⟩
      exact hi.spaces_apart hp hq hne hspace (has ▸ space_mem q)

lemma mem_setProc_other {p' : Proc} (hq : q ∈ s.procs) (hne : q.pid ≠ p'.pid) : q ∈ (s.setProc p').procs :=
  mem_modify.mpr (.inr ⟨hq,hne⟩)

lemma mem_setProc_self {p' : Proc} (hp : p ∈ s.procs) (hpid : p.pid = p'.pid) : p' ∈ (s.setProc p').procs :=
  mem_modify.mpr (.inl ⟨p,hp,hpid,rfl⟩)

lemma Acts.pid (h : Acts s o p p') : p'.pid = p.pid := by
  cases h with
  | tear own | unmapped => exact setTarget_pid
  | _ => rfl

lemma Acts.torn_own (h : Acts s o p p') (ht : p.pc.torn ≠ some true) (ho : o ≠ .exit p.pid) :
    p'.pc.torn ≠ some true := by
  cases h with
  | idle | sbrk => exact ht
  | fork | strip => simp [Pc.torn]
  | exit he => exact absurd he ho
  | grow rest child as as' pc _ _ _ hpc =>
    obtain ⟨rest',rfl | ⟨c,mr,rfl⟩⟩ := hpc
    · simp [Pc.torn]
    · simp [Pc.torn]
  | abort => simp [Pc.torn]
  | skip own r rest hpc | tear own r rest as hpc | unmapped ctx mr space as t hpc => simpa [Pc.torn,hpc] using ht
  | torn own hpc =>
    obtain rfl : own = false := by simpa [Pc.torn,hpc] using ht
    simp [Pc.torn]

lemma Transition.proc (hi : s.Inv) (h : Transition s o s') (hq : q ∈ s.procs) :
    ∃ q' ∈ s'.procs, q'.pid = q.pid ∧ (o.actor ≠ some q.pid → q' = q) ∧
      (q.pc.torn ≠ some true → o ≠ .exit q.pid → q'.pc.torn ≠ some true) := by
  have hstay : q ∈ s'.procs → ∃ q' ∈ s'.procs, q'.pid = q.pid ∧ (o.actor ≠ some q.pid → q' = q) ∧
      (q.pc.torn ≠ some true → o ≠ .exit q.pid → q'.pc.torn ≠ some true) := fun hq =>
    ⟨q,hq,rfl,fun _ => rfl,fun ht _ => ht⟩
  have hset : ∀ {p : Proc} (p' : Proc), p ∈ s.procs → o.actor = some p.pid → p'.pid = p.pid →
      (p.pc.torn ≠ some true → o ≠ .exit p.pid → p'.pc.torn ≠ some true) → (s.setProc p').procs ⊆ s'.procs →
      ∃ q' ∈ s'.procs, q'.pid = q.pid ∧ (o.actor ≠ some q.pid → q' = q) ∧
        (q.pc.torn ≠ some true → o ≠ .exit q.pid → q'.pc.torn ≠ some true) := by
    intro p p' hp hact hpid htorn hsub
    by_cases hqp : q.pid = p.pid
    · obtain rfl := hi.pids.eq hq hp hqp
      exact ⟨p',hsub (mem_setProc_self hp hpid.symm),hpid,fun hne => absurd hact hne,htorn⟩
    · exact hstay (hsub (mem_setProc_other hq (hpid ▸ hqp)))
  cases h with
  | stay | create | destroy => exact hstay hq
  | spawn => exact hstay (List.mem_append_left _ hq)
  | act p p' next hp hact hacts => exact hset p' hp hact hacts.pid hacts.torn_own fun _ h => h
  | map p c name alloc as r hp _ ho =>
    exact hset { p with as := as } hp (by rw [ho]; rfl) rfl (fun ht _ => ht) fun _ h => h
  | link p c child mr as rest or hp _ _ _ ho =>
    exact hset { p with pc := .forking rest } hp (by rw [ho]; rfl) rfl (fun _ _ => by simp [Pc.torn])
      fun _ h => h
  | unlink p c n mr t hp hact _ _ hun =>
    refine hset { p with pc := .unmapping c.id mr t } hp hact rfl (fun ht _ => ?_) fun _ h => h
    rcases hun with ⟨-,rfl,-⟩ | ⟨own,r,rest,as,hpc,rfl,-⟩
    · simp [Pc.torn]
    · simpa [Pc.torn,hpc] using ht
  | release p c t hp hact hpc =>
    refine hset { p with pc := t.elim .user fun t => .tearing t.1 t.2 } hp hact rfl (fun ht _ => ?_) fun _ h => h
    cases t with
    | none => simp [Pc.torn]
    | some t => simpa [Pc.torn,hpc] using ht
  | drop p c t hp hact hpc =>
    refine hset { p with pc := .tearing t.1 t.2 } hp hact rfl (fun ht _ => ?_) fun _ h => h
    simpa [Pc.torn,hpc] using ht
  | forked p child as rest hp hact =>
    exact hset { p with embryo := none, pc := .user } hp hact rfl (fun _ _ => by simp [Pc.torn])
      fun _ h => List.mem_append_left _ h

structure Noded (s : Shm) : Prop where
  below : ∀ c ∈ s.ctable, ∀ n ∈ c.rmap, n.as < s.next
  region : ∀ c ∈ s.ctable, ∀ n ∈ c.rmap, ∀ x ∈ s.tabled, x.1 = n.as → ∃ r ∈ x.2.regions, r.id = n.mr

def NamedIn (s : Shm) (as mr : Nat) : Prop := ∃ c ∈ s.ctable, ⟨as,mr⟩ ∈ c.rmap

def KeepsNamed (s : Shm) (x x' : Nat × Addrspace) : Prop :=
  x.1 = x'.1 ∧ ∀ r ∈ x.2.regions, s.NamedIn x.1 r.id → ∃ r' ∈ x'.2.regions, r'.id = r.id

lemma KeepsNamed.refl (x : Nat × Addrspace) : s.KeepsNamed x x := ⟨rfl,fun r hr _ => ⟨r,hr,rfl⟩⟩

lemma Noded.update (h : s.Noded) (hnext : s.next ≤ s'.next)
    (hnodes : ∀ c' ∈ s'.ctable, ∀ n ∈ c'.rmap, s.NamedIn n.as n.mr)
    (htab : ∀ x' ∈ s'.tabled, x'.1 = s.next ∨ ∃ x ∈ s.tabled, s.KeepsNamed x x') : s'.Noded := by
  refine ⟨fun c' hc' n hn => ?_,fun c' hc' n hn x' hx' he => ?_⟩
  · obtain ⟨c,hc,hnc⟩ := hnodes c' hc' n hn
    exact (h.below c hc _ hnc).trans_le hnext
  · obtain ⟨c,hc,hnc⟩ := hnodes c' hc' n hn
    rcases htab x' hx' with hnew | ⟨x,hx,hxx,hkeep⟩
    · exact absurd (h.below c hc _ hnc) (by simp only; omega)
    · obtain ⟨r,hr,hid⟩ := h.region c hc _ hnc x hx (hxx.trans he)
      obtain ⟨r',hr',hid'⟩ := hkeep r hr ⟨c,hc,by rw [hid,hxx,he]; exact hnc⟩
      exact ⟨r',hr',hid'.trans hid⟩

lemma not_named {x : Nat × Memregion} {k : Nat} (hi : s.Inv) (hp : p ∈ s.procs) (hx : x ∈ p.regions)
    (hst : x.2.store = some k) (hno : s.NoNode k ⟨x.1,x.2.id⟩) : ¬ s.NamedIn x.1 x.2.id := by
  rintro ⟨c,hc,hn⟩
  have hown := (hi.proc p hp).owned x hx c hc hn
  exact hno c hc (some_inj.mp (hown.symm.trans hst)) hn

lemma keepsNamed_unmap {i : Nat} (hno : ¬ s.NamedIn i mr)
    (hids : (as.regions.map Memregion.id).Nodup) : s.KeepsNamed (i,as) (i,as.memregionUnmapInternal mr) := by
  refine ⟨rfl,fun r hr hn => ⟨r,?_,rfl⟩⟩
  refine (mem_unmapInternal hids).mpr ⟨hr,fun he => hno ?_⟩
  exact he ▸ hn

lemma tabled_none (h : p.pc.torn = none) : p.tabled = p.spaces := Proc.tabled_of_torn_none h

lemma own_tabled (h : p.pc.torn ≠ some true) : (p.pid,p.as) ∈ p.tabled := by
  simp only [Proc.tabled]
  split
  · simp [Proc.spaces]
  · contradiction
  · simp

lemma embryo_tabled {e : Nat × Addrspace} {pc : Pc} (ht : p.pc.torn = none)
    (hx' : x' ∈ Proc.tabled { p with embryo := some e, pc := pc }) : x' = e ∨ x' ∈ p.tabled := by
  rw [tabled_none ht]
  have hx := Proc.tabled_spaces hx'
  simp only [Proc.spaces,Option.toList_some,List.mem_cons,List.not_mem_nil,or_false] at hx ⊢
  tauto

lemma Acts.keepsNamed (hi : s.Inv) (hp : p ∈ s.procs) (h : Acts s o p p')
    (hx' : x' ∈ p'.tabled) : x'.1 = s.next ∨ ∃ x ∈ p.tabled, s.KeepsNamed x x' := by
  have hpi := hi.proc p hp
  have hinv := hpi.pc
  cases h with
  | idle => exact .inr ⟨x',hx',.refl x'⟩
  | sbrk id stop hpc =>
    have hemb := hi.user_embryo hp hpc
    refine .inr ⟨(p.pid,p.as),by simp [tabled_none (p := p) (by simp [hpc,Pc.torn]),Proc.spaces],?_⟩
    obtain rfl : x' = (p.pid,setStop p.as id stop) := by
      simpa [Proc.tabled,hpc,Pc.torn,Proc.spaces,hemb] using hx'
    refine ⟨rfl,fun r hr _ => ⟨restop id stop r,?_,restop_id⟩⟩
    rw [setStop_regions]
    exact List.mem_map.mpr ⟨r,hr,rfl⟩
  | fork hpc =>
    rcases embryo_tabled (by simp [hpc,Pc.torn]) hx' with rfl | hx
    · exact .inl rfl
    · exact .inr ⟨x',hx,.refl x'⟩
  | exit _ hpc => simp [Proc.tabled,Pc.torn] at hx'
  | grow rest child as as' pc hpc hemb hsub =>
    have ht : p.pc.torn = none := by simp [hpc,Pc.torn]
    rcases embryo_tabled ht hx' with rfl | hx
    · exact .inr ⟨(child,as),by simp [tabled_none ht,Proc.spaces,hemb],rfl,fun r hr _ => ⟨r,hsub r hr,rfl⟩⟩
    · exact .inr ⟨x',hx,.refl x'⟩
  | abort child as as' hpc hemb =>
    obtain ⟨rest,hpc⟩ := hpc
    have ht : p.pc.torn = none := by simp [hpc,Pc.torn]
    obtain rfl : x' = (p.pid,p.as) := by simpa [Proc.tabled,Pc.torn] using hx'
    exact .inr ⟨_,by simp [tabled_none ht,Proc.spaces],.refl _⟩
  | strip ctx mr rest child as hpc hemb =>
    have ht : p.pc.torn = none := by simp [hpc,Pc.torn]
    simp only [PcInv,hpc] at hinv
    obtain ⟨-,-,e,he,r,hr,rfl,hst,hno⟩ := hinv
    cases hemb.symm.trans he
    rcases embryo_tabled ht hx' with rfl | hx
    · refine .inr ⟨(child,as),by simp [tabled_none ht,Proc.spaces,hemb],?_⟩
      exact keepsNamed_unmap (not_named hi hp (embryo_region hemb hr) hst hno)
        (hpi.target_ids (e := (child,as)) (by simp [Proc.spaces,hemb]))
    · exact .inr ⟨x',hx,.refl x'⟩
  | skip own r rest hpc =>
    rw [torn_tabled (by simp [hpc,Pc.torn])] at hx'
    exact .inr ⟨x',hx',.refl x'⟩
  | tear own r rest as hpc =>
    rw [setTarget_tabled (by simp [hpc,Pc.torn]) rfl] at hx'
    exact .inr ⟨x',hx',.refl x'⟩
  | unmapped ctx mr space as t hpc he =>
    cases t with
    | some t =>
      have hsame : Proc.tabled { setTarget p t.1 (as.memregionUnmapInternal mr) with pc := .unmapped ctx (some t) } =
          p.tabled := setTarget_tabled (by simp [hpc,Pc.torn]) rfl
      exact .inr ⟨x',hsame ▸ hx',.refl x'⟩
    | none =>
      simp only [PcInv,hpc,Option.elim_none] at hinv
      obtain ⟨⟨hemb,-⟩,e,hown,r,hr,rfl,hst,hno⟩ := hinv
      cases hown
      obtain rfl : p.as = as := (Prod.mk.inj (some_inj.mp he)).2
      have hemb : p.embryo = none := hemb
      obtain rfl : x' = (p.pid,p.as.memregionUnmapInternal r.id) := by
        simpa [Proc.tabled,Pc.torn,Proc.spaces,setTarget,hemb] using hx'
      refine .inr ⟨(p.pid,p.as),by simp [tabled_none (p := p) (by simp [hpc,Pc.torn]),Proc.spaces],?_⟩
      exact keepsNamed_unmap (not_named hi hp (own_region hr) hst hno)
        (hpi.target_ids (e := (p.pid,p.as)) (by simp [Proc.spaces]))
  | torn own hpc =>
    cases own with
    | true => simp [Proc.tabled,Pc.torn] at hx'
    | false =>
      obtain rfl : x' = (p.pid,p.as) := by simpa [Proc.tabled,Pc.torn,Proc.spaces] using hx'
      exact .inr ⟨_,by simp [Proc.tabled,hpc,Pc.torn],.refl _⟩

lemma tabled_keepsNamed (p' : Proc) (hi : s.Inv) (hp : p ∈ s.procs) (hpid : p'.pid = p.pid)
    (hs : s'.procs = (s.setProc p').procs)
    (hown : ∀ x' ∈ p'.tabled, x'.1 = s.next ∨ ∃ x ∈ p.tabled, s.KeepsNamed x x') (hx' : x' ∈ s'.tabled) :
    x'.1 = s.next ∨ ∃ x ∈ s.tabled, s.KeepsNamed x x' := by
  rcases (mem_tabled_update p' hi hp hpid hs).mp hx' with hx' | hother
  · exact (hown x' hx').imp id fun ⟨x,hx,hk⟩ => ⟨x,mem_tabled.mpr ⟨p,hp,hx⟩,hk⟩
  · exact .inr ⟨x',(mem_tabled_split hi hp).mpr (.inr hother),.refl x'⟩

lemma set_named (d : Smemcontext) (hi : s.Inv) (hc : c ∈ s.ctable) (hid : d.id = c.id)
    (hsub : ∀ n ∈ d.rmap, n ∈ c.rmap) (hc' : c' ∈ (s.setContext d).ctable) (hn : n ∈ c'.rmap) :
    s.NamedIn n.as n.mr := by
  rcases (mem_setContext d hi hc hid).mp hc' with rfl | ⟨hc',-⟩
  · exact ⟨c,hc,hsub n hn⟩
  · exact ⟨c',hc',hn⟩

lemma addNode_named (hi : s.Inv) (hc : c ∈ s.ctable)
    (hc' : c' ∈ (s.setContext (addNode c m)).ctable) (hn : n ∈ c'.rmap) : n = m ∨ s.NamedIn n.as n.mr := by
  rcases (mem_setContext (addNode c m) hi hc rfl).mp hc' with rfl | ⟨hc',-⟩
  · rcases List.mem_append.mp hn with hn | hn
    · exact .inr ⟨c,hc,hn⟩
    · exact .inl (List.mem_singleton.mp hn)
  · exact .inr ⟨c',hc',hn⟩

lemma Noded.addNode (h : s.Noded) (hi : s.Inv) (hi' : s'.Inv) (hc : c ∈ s.ctable)
    (hct : s'.ctable = (s.setContext (Shm.addNode c m)).ctable) (hnext : s.next ≤ s'.next) (hm : m.as < s'.next)
    (htab : ∀ x' ∈ s'.tabled, x'.1 = s.next ∨ ∃ x ∈ s.tabled, s.KeepsNamed x x')
    (hx : ∃ x ∈ s'.tabled, x.1 = m.as ∧ ∃ r ∈ x.2.regions, r.id = m.mr) : s'.Noded := by
  refine ⟨fun c' hc' n hn => ?_,fun c' hc' n hn x' hx' he => ?_⟩
  · rcases addNode_named hi hc (hct ▸ hc') hn with rfl | ⟨d,hd,hnd⟩
    · exact hm
    · exact (h.below d hd _ hnd).trans_le hnext
  · rcases addNode_named hi hc (hct ▸ hc') hn with rfl | ⟨d,hd,hnd⟩
    · obtain ⟨x,hx,hxn,r,hr,hid⟩ := hx
      obtain rfl := hi'.tabled_unique hx' hx (he.trans hxn.symm)
      exact ⟨r,hr,hid⟩
    · rcases htab x' hx' with hnew | ⟨x,hx,hxx,hkeep⟩
      · exact absurd (h.below d hd _ hnd) (by simp only; omega)
      · obtain ⟨r,hr,hid⟩ := h.region d hd _ hnd x hx (hxx.trans he)
        obtain ⟨r',hr',hid'⟩ := hkeep r hr ⟨d,hd,by rw [hid,hxx,he]; exact hnd⟩
        exact ⟨r',hr',hid'.trans hid⟩

lemma Noded.transition (h : s.Noded) (hi : s.Inv) (hi' : s'.Inv) (ht : Transition s o s') : s'.Noded := by
  have hnext := ht.next_le
  have hself : ∀ x' ∈ s.tabled, x'.1 = s.next ∨ ∃ x ∈ s.tabled, s.KeepsNamed x x' := fun x' hx' =>
    .inr ⟨x',hx',.refl x'⟩
  have hsame : ∀ {p p' : Proc}, p'.tabled = p.tabled → ∀ x' ∈ p'.tabled,
      x'.1 = s.next ∨ ∃ x ∈ p.tabled, s.KeepsNamed x x' := fun hp x' hx' => .inr ⟨x',hp ▸ hx',.refl x'⟩
  cases ht with
  | stay => exact h
  | spawn as next hlt =>
    refine h.update hnext (fun c' hc' n hn => ⟨c',hc',hn⟩) fun x' hx' => ?_
    obtain ⟨q,hq,hxq⟩ := mem_tabled.mp hx'
    rcases List.mem_append.mp hq with hq | hq
    · exact hself x' (mem_tabled.mpr ⟨q,hq,hxq⟩)
    · obtain rfl := List.mem_singleton.mp hq
      exact .inl (by simpa [Proc.tabled,Pc.torn,Proc.spaces] using congrArg Prod.fst (List.mem_singleton.mp hxq))
  | create pid name size n flag =>
    refine h.update hnext (fun c' hc' n hn => ?_) hself
    rcases List.mem_append.mp hc' with hc' | hc'
    · exact ⟨c',hc',hn⟩
    · rw [List.mem_singleton.mp hc'] at hn
      simp [contextInit] at hn
  | destroy c => exact h.update hnext (fun c' hc' n hn => ⟨c',(mem_remove.mp hc').1,hn⟩) hself
  | act p p' next hp hact hacts =>
    exact h.update hnext (fun c' hc' n hn => ⟨c',hc',hn⟩)
      fun x' => tabled_keepsNamed p' hi hp hacts.pid rfl fun y => hacts.keepsNamed hi hp
  | map p c name alloc as r hp hpc _ hget hnew =>
    have htp : p.tabled = p.spaces := tabled_none (by simp [hpc,Pc.torn])
    have hemb := hi.user_embryo hp hpc
    have hmem : (p.pid,as) ∈ Proc.tabled { p with as := as } := by
      rw [tabled_none (by simp [hpc,Pc.torn])]
      simp [Proc.spaces]
    refine h.addNode (c := c) (m := ⟨p.pid,r.id⟩) hi hi' (getContext_mem hget).1 rfl hnext ?_ ?_ ?_
    · exact (hi.spaceLt p hp p.pid (space_mem p)).trans_le hnext
    · refine fun x' => tabled_keepsNamed { p with as := as } hi hp rfl rfl fun y hy => ?_
      rw [tabled_none (by simp [hpc,Pc.torn])] at hy
      obtain rfl : y = (p.pid,as) := by simpa [Proc.spaces,hemb] using hy
      exact .inr ⟨(p.pid,p.as),by simp [htp,Proc.spaces],rfl,
        fun y hy _ => ⟨y,hnew.perm.mem_iff.mpr (List.mem_cons_of_mem _ hy),rfl⟩⟩
    · exact ⟨(p.pid,as),(mem_tabled_update { p with as := as } hi hp rfl rfl).mpr (.inl hmem),rfl,r,
        hnew.perm.mem_iff.mpr List.mem_cons_self,rfl⟩
  | link p c child mr as rest or hp hpc hemb hc =>
    have hinv := (hi.proc p hp).pc
    simp only [PcInv,hpc] at hinv
    obtain ⟨-,-,e,he,r,hr,hid,-⟩ := hinv
    cases hemb.symm.trans he
    have hsp : Proc.tabled { p with pc := .forking rest } = p.tabled := torn_tabled (by simp [hpc,Pc.torn])
    have hmem : (child,as) ∈ p.tabled := by
      rw [tabled_none (by simp [hpc,Pc.torn])]
      simp [Proc.spaces,hemb]
    refine h.addNode (c := c) (m := ⟨child,mr⟩) hi hi' hc rfl hnext ?_ ?_ ?_
    · exact (hi.spaceLt p hp child (tabled_id hmem)).trans_le hnext
    · exact fun x' => tabled_keepsNamed { p with pc := .forking rest } hi hp rfl rfl (hsame hsp)
    · exact ⟨(child,as),(mem_tabled_update { p with pc := .forking rest } hi hp rfl rfl).mpr (.inl (hsp ▸ hmem)),rfl,
        r,hr,hid⟩
  | unlink p c n mr t hp hact hc hn hun =>
    refine h.update hnext (fun c' hc' m hm => set_named { c with rmap := c.rmap.erase n } hi hc rfl
      (fun _ hm => List.mem_of_mem_erase hm) hc' hm) ?_
    refine fun x' => tabled_keepsNamed { p with pc := .unmapping c.id mr t } hi hp rfl rfl (hsame (torn_tabled ?_))
    rcases hun with ⟨hpc,rfl,-⟩ | ⟨own,r,rest,as,hpc,rfl,-⟩
    · simp [hpc,Pc.torn]
    · simp [hpc,Pc.torn]
  | release p c t hp hact hpc hc =>
    refine h.update hnext (fun c' hc' m hm => set_named { c with refcnt := c.refcnt - 1 } hi hc rfl
      (fun _ hm => hm) hc' hm) ?_
    refine fun x' => tabled_keepsNamed { p with pc := t.elim .user fun t => .tearing t.1 t.2 } hi hp rfl rfl
      (hsame (torn_tabled ?_))
    cases t <;> simp [hpc,Pc.torn]
  | drop p c t hp hact hpc hc =>
    refine h.update hnext (fun c' hc' m hm => set_named { c with refcnt := c.refcnt - 1 } hi hc rfl
      (fun _ hm => hm) (mem_remove.mp hc').1 hm) ?_
    exact fun x' => tabled_keepsNamed { p with pc := .tearing t.1 t.2 } hi hp rfl rfl
      (hsame (torn_tabled (by simp [hpc,Pc.torn])))
  | forked p child as rest hp hact hpc hemb =>
    refine h.update hnext (fun c' hc' n hn => ⟨c',hc',hn⟩) fun x' hx' => ?_
    exact hself x' ((forkDone_change hi hp hemb hpc rfl x').mp hx')

lemma init_noded : init.Noded := ⟨by simp [init],by simp [init]⟩

end Shm
end MappedMemory
