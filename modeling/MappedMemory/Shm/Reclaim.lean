import MappedMemory.Shm.Counts
import MappedMemory.Shm.Transitions

namespace MappedMemory

open List (mem_append mem_map mem_singleton)

open Keyed

def Pc.unmaps : Pc → Option (Nat × Bool)
  | .unmapping ctx _ t => some (ctx,t.isNone)
  | .unmapped ctx t => some (ctx,t.isNone)
  | _ => none

namespace Shm

def active (s : Shm) (a : Nat) : Bool := s.tabled.any fun x => x.1 == a

def alive (s : Shm) (a : Nat) : Prop := ∃ p ∈ s.procs, a ∈ p.spaceIds ∧ p.pc ≠ .dead

instance (s : Shm) (a : Nat) : Decidable (s.alive a) :=
  inferInstanceAs (Decidable (∃ p ∈ s.procs, a ∈ p.spaceIds ∧ p.pc ≠ .dead))

variable {s s' : Shm} {p p' q : Proc} {c c' : Smemcontext} {n : Pid2mem} {o : Op} {a k : Nat} {e : Nat × Addrspace}
  {own : Bool} {out : Outcome}

lemma active_iff : s.active a = true ↔ ∃ x ∈ s.tabled, x.1 = a := by simp [active]

lemma active_own (hp : p ∈ s.procs) (h : p.pc.torn ≠ some true) : s.active p.pid = true :=
  active_iff.mpr ⟨_,mem_tabled.mpr ⟨p,hp,own_tabled h⟩,rfl⟩

lemma active_alive (h : s.active a = true) : s.alive a := by
  obtain ⟨x,hx,rfl⟩ := active_iff.mp h
  obtain ⟨p,hp,hxp⟩ := mem_tabled.mp hx
  refine ⟨p,hp,tabled_id hxp,fun hd => ?_⟩
  simp [Proc.tabled,hd,Pc.torn] at hxp

lemma Transition.active (hi : s.Inv) (h : Transition s o s') (ha : s.active a = true) :
    s'.active a = true ∨ o = .exit a ∨ ∃ p ∈ s.procs, p.pc.torn = none ∧ ∃ as, p.embryo = some (a,as) := by
  obtain ⟨x,hx,rfl⟩ := active_iff.mp ha
  obtain ⟨p,hp,hxp⟩ := mem_tabled.mp hx
  have hcase : (x = (p.pid,p.as) ∧ p.pc.torn ≠ some true) ∨ (p.pc.torn = none ∧ p.embryo = some x) := by
    simp only [Proc.tabled] at hxp
    split at hxp
    · rename_i ht
      rcases List.mem_cons.mp hxp with rfl | hx
      · exact .inl ⟨rfl,by simp [ht]⟩
      · exact .inr ⟨ht,by simpa using hx⟩
    · cases hxp
    · rename_i ht
      exact .inl ⟨mem_singleton.mp hxp,by simp [ht]⟩
  rcases hcase with ⟨rfl,ht⟩ | ⟨ht,hemb⟩
  · by_cases hex : o = .exit p.pid
    · exact .inr (.inl hex)
    · obtain ⟨p',hp',hpid,-,htorn⟩ := h.proc hi hp
      exact .inl (hpid ▸ active_own hp' (htorn ht hex))
  · exact .inr (.inr ⟨p,hp,ht,x.2,hemb⟩)

lemma set_refcnt (d : Smemcontext) (hi : s.Inv) (hc : c ∈ s.ctable) (hid : d.id = c.id) (hle : c.refcnt ≤ d.refcnt)
    (hk : k = c'.id) (hc' : c' ∈ (s.setContext d).ctable) {b : Smemcontext} (hb : b ∈ s.ctable) (hbk : b.id = k) :
    b.refcnt ≤ c'.refcnt := by
  subst hk
  rcases (mem_setContext d hi hc hid).mp hc' with rfl | ⟨hc',-⟩
  · exact hi.ctxIds.eq hb hc (hbk.trans hid) ▸ hle
  · exact hi.ctxIds.eq hb hc' hbk ▸ le_rfl

lemma Transition.refcnt (hi : s.Inv) (h : Transition s o s') (hc : c ∈ s.ctable) (hc' : c' ∈ s'.ctable)
    (hid : c.id = c'.id) : c.refcnt ≤ c'.refcnt ∨ ∃ p ∈ s.procs, ∃ t, p.pc = .unmapped c.id t ∧
      c'.refcnt = c.refcnt - 1 ∧ (c.refcnt = 1 → c.isPersist = false → t = none) := by
  have hself : c' ∈ s.ctable → c.refcnt ≤ c'.refcnt := fun hm => hi.ctxIds.eq hc hm hid ▸ le_rfl
  cases h with
  | stay | spawn | act | forked => exact .inl (hself hc')
  | create pid name size n flag =>
    rcases mem_append.mp hc' with hc' | hc'
    · exact .inl (hself hc')
    · have := (hi.ctx c hc).below
      rw [hid,mem_singleton.mp hc'] at this
      exact absurd this (lt_irrefl _)
  | destroy d => exact .inl (hself (mem_remove.mp hc').1)
  | map p d name alloc as r _ _ _ hget =>
    exact .inl (set_refcnt (addNode d ⟨p.pid,r.id⟩) hi (getContext_mem hget).1 rfl (by simp [addNode]) rfl hc' hc hid)
  | link p d child mr as rest or _ _ _ hd =>
    exact .inl (set_refcnt (addNode d ⟨child,mr⟩) hi hd rfl (by simp [addNode]) rfl hc' hc hid)
  | unlink p d n mr t _ _ hd =>
    exact .inl (set_refcnt { d with rmap := d.rmap.erase n } hi hd rfl le_rfl rfl hc' hc hid)
  | release p d t hp _ hpc hd hlast =>
    rcases (mem_setContext { d with refcnt := d.refcnt - 1 } hi hd rfl).mp hc' with rfl | ⟨hc',-⟩
    · obtain rfl := hi.ctxIds.eq hc hd hid
      exact .inr ⟨p,hp,t,hpc,rfl,hlast⟩
    · exact .inl (hself hc')
  | drop p d t hp _ hpc hd =>
    obtain ⟨hmem,hne⟩ := mem_remove.mp hc'
    rcases (mem_setContext { d with refcnt := d.refcnt - 1 } hi hd rfl).mp hmem with rfl | ⟨hc',-⟩
    · exact absurd rfl hne
    · exact .inl (hself hc')

lemma Inv.space_owner (hi : s.Inv) (hp : p ∈ s.procs) (hq : q ∈ s.procs) (ha : a ∈ p.spaceIds) (ha' : a ∈ q.spaceIds) :
    q = p := by
  by_contra hne
  exact hi.spaces_apart hp hq (fun he => hne (hi.pids.eq hq hp he)) ha ha'

lemma Transition.survives_embryo {as : Addrspace} (hi : s.Inv) (h : Transition s o s') (hp : p ∈ s.procs)
    (ht : p.pc.torn = none) (hemb : p.embryo = some (a,as)) (hc : c ∈ s.ctable) (hn : n ∈ c.rmap) (has : n.as = a) :
    ∃ c' ∈ s'.ctable, SameFace c c' ∧ n ∈ c'.rmap := by
  have hspace : n.as ∈ p.spaceIds := by simp [Proc.spaceIds,Proc.spaces,hemb,has]
  obtain ⟨c',hc',hface,hkeep | ⟨q,hq,m,t,-,hun,hrmap⟩⟩ := h.survives hi hc (List.ne_nil_of_mem hn)
  · exact ⟨c',hc',hface,hkeep n hn⟩
  · refine ⟨c',hc',hface,?_⟩
    rw [hrmap]
    refine (List.mem_erase_of_ne ?_).mpr hn
    rintro rfl
    rcases hun with ⟨-,-,hm,-⟩ | ⟨own,r,rest,as',hpc,-,htarget⟩
    · obtain rfl := hi.space_owner hp hq hspace (hm ▸ space_mem q)
      exact hi.embryo_ne hp hemb (hm.symm.trans has)
    · obtain rfl := hi.space_owner hp hq hspace (mem_map.mpr ⟨_,target_mem htarget,rfl⟩)
      simp [hpc,Pc.torn] at ht

lemma mem_setProc_cases (p' : Proc) (hi : s.Inv) (hp : p ∈ s.procs) (hpid : p'.pid = p.pid) (hq : q ∈ (s.setProc p').procs) :
    q = p' ∨ q ∈ s.procs := by
  rw [setProc,hi.pids.mem_modify hp hpid.symm] at hq
  exact hq.imp id And.left

lemma Acts.embryo (h : Acts s o p p') (ht : p'.pc.torn = none) (hemb : p'.embryo = some e) :
    e.1 = s.next ∨ (p.pc.torn = none ∧ ∃ as, p.embryo = some (e.1,as)) := by
  cases h with
  | idle | sbrk => exact .inr ⟨ht,e.2,hemb⟩
  | fork =>
    cases hemb
    exact .inl rfl
  | exit | abort | skip | tear own => simp [Pc.torn] at ht
  | grow rest child as as' pc hpc hold | strip ctx mr rest child as hpc hold =>
    cases hemb
    exact .inr ⟨by simp [hpc,Pc.torn],as,hold⟩
  | unmapped ctx mr space as t hpc =>
    obtain rfl : t = none := by simpa [Pc.torn] using ht
    exact .inr ⟨by simp [hpc,Pc.torn],e.2,hemb⟩
  | torn => simp at hemb

lemma Transition.embryo (hi : s.Inv) (h : Transition s o s') (hp' : p' ∈ s'.procs)
    (ht : p'.pc.torn = none) (hemb : p'.embryo = some e) :
    e.1 = s.next ∨ ∃ p ∈ s.procs, p.pc.torn = none ∧ ∃ as, p.embryo = some (e.1,as) := by
  have hself : p' ∈ s.procs → e.1 = s.next ∨ ∃ p ∈ s.procs, p.pc.torn = none ∧ ∃ as, p.embryo = some (e.1,as) :=
    fun hp => .inr ⟨p',hp,ht,e.2,hemb⟩
  cases h with
  | stay | create | destroy => exact hself hp'
  | spawn as next =>
    rcases mem_append.mp hp' with hp' | hp'
    · exact hself hp'
    · rw [mem_singleton.mp hp'] at hemb
      cases hemb
  | act p q next hp _ hacts =>
    rcases mem_setProc_cases _ hi hp hacts.pid hp' with rfl | hp'
    · exact (hacts.embryo ht hemb).imp id fun hold => ⟨p,hp,hold⟩
    · exact hself hp'
  | map p c name alloc as r hp hpc =>
    rcases mem_setProc_cases { p with as := as } hi hp rfl hp' with rfl | hp'
    · exact .inr ⟨p,hp,ht,e.2,hemb⟩
    · exact hself hp'
  | link p c child mr as rest or hp hpc hold =>
    rcases mem_setProc_cases { p with pc := .forking rest } hi hp rfl hp' with rfl | hp'
    · exact .inr ⟨p,hp,by simp [hpc,Pc.torn],e.2,hemb⟩
    · exact hself hp'
  | unlink p c n mr t hp _ _ _ hun =>
    rcases mem_setProc_cases { p with pc := .unmapping c.id mr t } hi hp rfl hp' with rfl | hp'
    · rcases hun with ⟨hpc,-⟩ | ⟨own,r,rest,as,-,rfl,-⟩
      · exact .inr ⟨p,hp,by simp [hpc,Pc.torn],e.2,hemb⟩
      · simp [Pc.torn] at ht
    · exact hself hp'
  | release p c t hp _ hpc =>
    rcases mem_setProc_cases { p with pc := t.elim .user fun t => .tearing t.1 t.2 } hi hp rfl hp' with rfl | hp'
    · cases t with
      | none => exact .inr ⟨p,hp,by simp [hpc,Pc.torn],e.2,hemb⟩
      | some t => simp [Pc.torn] at ht
    · exact hself hp'
  | drop p c t hp =>
    rcases mem_setProc_cases { p with pc := .tearing t.1 t.2 } hi hp rfl hp' with rfl | hp'
    · simp [Pc.torn] at ht
    · exact hself hp'
  | forked p child as rest hp =>
    rcases mem_append.mp hp' with hp' | hp'
    · rcases mem_setProc_cases { p with embryo := none, pc := .user } hi hp rfl hp' with rfl | hp'
      · cases hemb
      · exact hself hp'
    · rw [mem_singleton.mp hp'] at hemb
      cases hemb

lemma Acts.unmaps (h : Acts s o p p') (hk : p'.pc.unmaps = some (k,own)) :
    p.spaceIds = p'.spaceIds ∧ p.pc.unmaps = some (k,own) := by
  cases h with
  | idle | sbrk => exact ⟨rfl,hk⟩
  | grow rest child as as' pc _ _ _ hpc =>
    obtain ⟨rest',rfl | ⟨c,mr,rfl⟩⟩ := hpc
    · simp [Pc.unmaps] at hk
    · simp [Pc.unmaps] at hk
  | fork | exit | abort | strip | skip | tear => simp [Pc.unmaps] at hk
  | unmapped ctx mr space as t hpc he =>
    exact ⟨(setTarget_spaceIds (as.memregionUnmapInternal mr) he).symm,by simpa [hpc,Pc.unmaps] using hk⟩
  | torn own => cases own <;> simp [Pc.unmaps] at hk

lemma Transition.unmaps (hi : s.Inv) (h : Transition s o s') (hp' : p' ∈ s'.procs)
    (hk : p'.pc.unmaps = some (k,own)) :
    (∃ p ∈ s.procs, p.pid = p'.pid ∧ p.spaceIds = p'.spaceIds ∧ p.pc.unmaps = some (k,own)) ∨
    ∃ c ∈ s.ctable, c.id = k ∧ ∃ n ∈ c.rmap, n.as ∈ p'.spaceIds ∧ (own = true → n.as = p'.pid) := by
  have hself : p' ∈ s.procs → (∃ p ∈ s.procs, p.pid = p'.pid ∧ p.spaceIds = p'.spaceIds ∧ p.pc.unmaps = some (k,own)) ∨
      ∃ c ∈ s.ctable, c.id = k ∧ ∃ n ∈ c.rmap, n.as ∈ p'.spaceIds ∧ (own = true → n.as = p'.pid) :=
    fun hp => .inl ⟨p',hp,rfl,rfl,hk⟩
  cases h with
  | stay | create | destroy => exact hself hp'
  | spawn as next =>
    rcases mem_append.mp hp' with hp' | hp'
    · exact hself hp'
    · rw [mem_singleton.mp hp'] at hk
      simp [Pc.unmaps] at hk
  | act p q next hp _ hacts =>
    rcases mem_setProc_cases _ hi hp hacts.pid hp' with rfl | hp'
    · obtain ⟨hids,hun⟩ := hacts.unmaps hk
      exact .inl ⟨p,hp,hacts.pid.symm,hids,hun⟩
    · exact hself hp'
  | map p c name alloc as r hp hpc =>
    rcases mem_setProc_cases { p with as := as } hi hp rfl hp' with rfl | hp'
    · simp [hpc,Pc.unmaps] at hk
    · exact hself hp'
  | link p c child mr as rest or hp =>
    rcases mem_setProc_cases { p with pc := .forking rest } hi hp rfl hp' with rfl | hp'
    · simp [Pc.unmaps] at hk
    · exact hself hp'
  | unlink p c n mr t hp _ hc hn hun =>
    rcases mem_setProc_cases { p with pc := .unmapping c.id mr t } hi hp rfl hp' with rfl | hp'
    · cases hk
      refine .inr ⟨c,hc,rfl,n,hn,?_,fun ht => ?_⟩
      · rcases hun with ⟨-,-,hm,-⟩ | ⟨own,r,rest,as,-,-,htarget⟩
        · rw [hm]
          exact space_mem p
        · exact mem_map.mpr ⟨_,target_mem htarget,rfl⟩
      · rcases hun with ⟨-,-,hm,-⟩ | ⟨own,r,rest,as,-,rfl,-⟩
        · exact hm
        · cases ht
    · exact hself hp'
  | release p c t hp =>
    rcases mem_setProc_cases { p with pc := t.elim .user fun t => .tearing t.1 t.2 } hi hp rfl hp' with rfl | hp'
    · cases t <;> simp [Pc.unmaps] at hk
    · exact hself hp'
  | drop p c t hp =>
    rcases mem_setProc_cases { p with pc := .tearing t.1 t.2 } hi hp rfl hp' with rfl | hp'
    · simp [Pc.unmaps] at hk
    · exact hself hp'
  | forked p child as rest hp =>
    rcases mem_append.mp hp' with hp' | hp'
    · rcases mem_setProc_cases { p with embryo := none, pc := .user } hi hp rfl hp' with rfl | hp'
      · simp [Pc.unmaps] at hk
      · exact hself hp'
    · rw [mem_singleton.mp hp'] at hk
      simp [Pc.unmaps] at hk

def mappers (s : Shm) : List (Nat × Nat) := s.ctable.flatMap fun c => c.rmap.map fun n => (c.id,n.as)

def creators (s : Shm) (o : Op) (out : Outcome) : List (Nat × Nat) :=
  match o with
  | .createSharedRegion pid _ _ _ _ => if out.err = .ok then [(s.next,pid)] else []
  | _ => []

lemma mem_mappers : (k,a) ∈ s.mappers ↔ ∃ c ∈ s.ctable, c.id = k ∧ ∃ n ∈ c.rmap, n.as = a := by
  simp only [mappers,List.mem_flatMap,mem_map,Prod.mk_inj]
  constructor
  · rintro ⟨c,hc,n,hn,hid,has⟩
    exact ⟨c,hc,hid,n,hn,has⟩
  · rintro ⟨c,hc,hid,n,hn,has⟩
    exact ⟨c,hc,n,hn,hid,has⟩

lemma mem_creators (h : s.step o = some out) (hk : (k,a) ∈ s.creators o out) :
    k = s.next ∧ s.next < out.shm.next ∧ ∃ p ∈ s.procs, p.pc = .user ∧ p.pid = a := by
  cases o with
  | createSharedRegion pid name size flag alloc =>
    obtain ⟨p,hcall,hres⟩ := Option.bind_eq_some_iff.mp h
    obtain ⟨hp,hpc,hpid⟩ := caller_pid hcall
    simp only [creators] at hk
    split at hk
    · rename_i hok
      obtain ⟨hkn,hap⟩ := Prod.mk.inj (mem_singleton.mp hk)
      refine ⟨hkn,?_,p,hp,hpc,hpid.trans hap.symm⟩
      simp only [sysCreateSharedRegion,createSharedRegion,fail,done] at hres
      split_ifs at hres <;> cases hres
      · cases hok
      · cases hok
      · exact Nat.lt_succ_self _
      · cases hok
    · cases hk
  | _ => simp [creators] at hk

lemma created_credit {pid size flag : Nat} {name : List Nat} {alloc : Bool}
    (h : s.step (.createSharedRegion pid name size flag alloc) = some out) (hnext : out.shm.next ≠ s.next) :
    (s.next,pid) ∈ s.creators (.createSharedRegion pid name size flag alloc) out := by
  obtain ⟨p,-,h⟩ := Option.bind_eq_some_iff.mp h
  simp only [sysCreateSharedRegion,createSharedRegion,fail,done] at h
  split_ifs at h <;> cases h
  · exact absurd rfl hnext
  · exact absurd rfl hnext
  · simp [creators]
  · exact absurd rfl hnext

end Shm

structure Ledger where
  shm : Shm
  history : List (Nat × Nat)
deriving DecidableEq, Repr

namespace Ledger
open Shm

def init : Ledger := ⟨.init,[]⟩

def step (l : Ledger) (o : Shm.Op) : Option Ledger := do
  let out ← l.shm.step o
  some ⟨out.shm,l.history ++ l.shm.creators o out ++ out.shm.mappers⟩

def run (ops : List Shm.Op) : Option Ledger := ops.foldlM step init

instance : LawfulBEq (Nat × Nat) := inferInstance

def handsOver (l : Ledger) (o : Shm.Op) : Bool :=
  l.shm.releasable o &&
    match o with
    | .exit pid => l.shm.ctable.all fun c => c.isPersist || (decide (c.refcnt ≠ 0) ||
        (decide ((c.id,pid) ∉ l.history) || l.history.any fun e => e.1 == c.id && (e.2 != pid && l.shm.active e.2)))
    | _ => true

variable {l l' : Ledger} {o : Shm.Op} {c : Smemcontext} {p : Proc} {k a : Nat}

structure Sound (l : Ledger) : Prop where
  inv : l.shm.Inv
  exact : l.shm.Exact
  noded : l.shm.Noded
  nodes : ∀ k a, (k,a) ∈ l.shm.mappers → (k,a) ∈ l.history
  below : ∀ k a, (k,a) ∈ l.history → k < l.shm.next ∧ a < l.shm.next
  flight : ∀ p ∈ l.shm.procs, ∀ k own, p.pc.unmaps = some (k,own) →
    ∃ a ∈ p.spaceIds, (k,a) ∈ l.history ∧ (own = true → a = p.pid)
  embryo : ∀ p ∈ l.shm.procs, p.pc.torn = none → ∀ e, p.embryo = some e → ∀ k, (k,e.1) ∈ l.history →
    (k,e.1) ∈ l.shm.mappers
  kept : ∀ c ∈ l.shm.ctable, c.isPersist = false → 1 ≤ c.refcnt ∨
    ∃ a, (c.id,a) ∈ l.history ∧ l.shm.active a = true

lemma refcnt_pos {s : Shm} {n : Pid2mem} (hi : s.Inv) (hc : c ∈ s.ctable) (hn : n ∈ c.rmap) : 1 ≤ c.refcnt := by
  have hcount := (hi.ctx c hc).refcnt
  have hlen := List.length_pos_of_mem hn
  omega

lemma isPersist_face {c c' : Smemcontext} (h : SameFace c c') : c'.isPersist = c.isPersist := by
  rw [Smemcontext.isPersist,Smemcontext.isPersist,h.flag]

lemma exit_not_unmapped {s : Shm} {out : Outcome} {t : Option (Bool × List Memregion)} (hi : s.Inv)
    (h : s.step (.exit p.pid) = some out) (hp : p ∈ s.procs) (hpc : p.pc = .unmapped k t) : False := by
  obtain ⟨q,hcall,-⟩ := Option.bind_eq_some_iff.mp h
  obtain ⟨hq,hqc,hpid⟩ := caller_pid hcall
  obtain rfl := hi.pids.eq hq hp hpid
  simp [hpc] at hqc

lemma Sound.step (h : l.Sound) (hok : l.handsOver o = true) (hs : l.step o = some l') : l'.Sound := by
  obtain ⟨out,hout,hl⟩ := Option.bind_eq_some_iff.mp hs
  cases hl
  obtain ⟨hrel,hexit⟩ := Bool.and_eq_true_iff.mp hok
  have hi' := h.inv.step hout
  have ht := step_transition h.inv hout
  have hnoded := h.noded.transition h.inv hi' ht
  have hmono : ∀ {k a}, (k,a) ∈ l.history → (k,a) ∈ l.history ++ l.shm.creators o out ++ out.shm.mappers := fun hm =>
    List.mem_append_left _ (List.mem_append_left _ hm)
  have hcases : ∀ {k a}, (k,a) ∈ l.history ++ l.shm.creators o out ++ out.shm.mappers →
      (k,a) ∈ l.history ∨ (k,a) ∈ l.shm.creators o out ∨ (k,a) ∈ out.shm.mappers := fun hm => by
    simpa [or_assoc] using hm
  refine ⟨hi',h.exact.step h.inv hrel hout,hnoded,fun k a hm => List.mem_append_right _ hm,fun k a hm => ?_,
    fun p' hp' k own hk => ?_,fun p' hp' htorn e hemb k hm => ?_,fun c' hc' hper => ?_⟩
  · rcases hcases hm with hm | hm | hm
    · obtain ⟨hk,ha⟩ := h.below k a hm
      exact ⟨hk.trans_le ht.next_le,ha.trans_le ht.next_le⟩
    · obtain ⟨rfl,hlt,p,hp,-,rfl⟩ := mem_creators hout hm
      exact ⟨hlt,(h.inv.spaceLt p hp _ (space_mem p)).trans_le ht.next_le⟩
    · obtain ⟨c,hc,rfl,n,hn,rfl⟩ := mem_mappers.mp hm
      exact ⟨(hi'.ctx c hc).below,hnoded.below c hc n hn⟩
  · rcases ht.unmaps h.inv hp' hk with ⟨p,hp,hpid,hids,hun⟩ | ⟨c,hc,rfl,n,hn,hspace,hown⟩
    · obtain ⟨a,ha,hm,hown⟩ := h.flight p hp k own hun
      exact ⟨a,hids ▸ ha,hmono hm,hpid ▸ hown⟩
    · exact ⟨n.as,hspace,hmono (h.nodes _ _ (mem_mappers.mpr ⟨c,hc,rfl,n,hn,rfl⟩)),hown⟩
  · rcases hcases hm with hm | hm | hm
    · rcases ht.embryo h.inv hp' htorn hemb with hnew | ⟨p,hp,htp,as,hold⟩
      · exact absurd (h.below k e.1 hm).2 (by omega)
      · obtain ⟨c,hc,rfl,n,hn,has⟩ := mem_mappers.mp (h.embryo p hp htp _ hold k hm)
        obtain ⟨c',hc',hface,hn'⟩ := ht.survives_embryo h.inv hp htp hold hc hn has
        exact mem_mappers.mpr ⟨c',hc',hface.id,n,hn',has⟩
    · obtain ⟨-,-,q,hq,-,hqa⟩ := mem_creators hout hm
      obtain ⟨q',hq',hqid,-⟩ := ht.proc h.inv hq
      have hspace : e.1 ∈ p'.spaceIds := by simp [Proc.spaceIds,Proc.spaces,hemb]
      obtain rfl := hi'.space_owner hp' hq' hspace (hqa ▸ hqid ▸ space_mem q')
      exact absurd (hqid.trans hqa) (hi'.embryo_ne hp' hemb)
    · exact hm
  · rcases ht.origin h.inv hc' with ⟨name,n,flag,rfl,-,pid,size,rfl,hcall,hprocs,hnext⟩ | ⟨c,hc,hf⟩
    · obtain ⟨p,hcall⟩ := Option.isSome_iff_exists.mp hcall
      obtain ⟨hp,hpc,rfl⟩ := caller_pid hcall
      refine .inr ⟨p.pid,List.mem_append_left _ (List.mem_append_right _ (created_credit hout (by omega))),?_⟩
      exact active_own (hprocs ▸ hp) (by simp [hpc,Pc.torn])
    have hper := (isPersist_face hf).symm.trans hper
    have hid := hf.id.symm
    have hcount : 1 ≤ c.refcnt → 1 ≤ c'.refcnt ∨ ∃ a, (c'.id,a) ∈ l.history ++ l.shm.creators o out ++ out.shm.mappers ∧
        out.shm.active a = true := by
      intro hpos
      rcases ht.refcnt h.inv hc hc' hid with hle | ⟨p,hp,t,hpc,hrel,hlast⟩
      · exact .inl (hpos.trans hle)
      · by_cases hone : c.refcnt = 1
        · obtain rfl := hlast hone hper
          obtain ⟨a,-,hm,hown⟩ := h.flight p hp c.id true (by simp [hpc,Pc.unmaps])
          obtain ⟨p',hp',hpid,-,htorn⟩ := ht.proc h.inv hp
          refine .inr ⟨p.pid,hid ▸ hmono (hown rfl ▸ hm),hpid ▸ active_own hp' (htorn (by simp [hpc,Pc.torn]) ?_)⟩
          rintro rfl
          exact exit_not_unmapped h.inv hout hp hpc
        · exact .inl (by omega)
    have hactive : ∀ a, (c.id,a) ∈ l.history → l.shm.active a = true → o ≠ .exit a → 1 ≤ c'.refcnt ∨
        ∃ a, (c'.id,a) ∈ l.history ++ l.shm.creators o out ++ out.shm.mappers ∧ out.shm.active a = true := by
      intro a hm hact hne
      rcases ht.active h.inv hact with hact' | hex | ⟨p,hp,htp,as,hemb⟩
      · exact .inr ⟨a,hid ▸ hmono hm,hact'⟩
      · exact absurd hex hne
      · obtain ⟨d,hd,hdid,n,hn,has⟩ := mem_mappers.mp (h.embryo p hp htp _ hemb c.id hm)
        obtain ⟨d',hd',hface,hn'⟩ := ht.survives_embryo h.inv hp htp hemb hd hn has
        obtain rfl := hi'.ctxIds.eq hd' hc' (hface.id.trans (hdid.trans hid))
        exact .inl (refcnt_pos hi' hd' hn')
    rcases h.kept c hc hper with hpos | ⟨a,hm,hact⟩
    · exact hcount hpos
    · by_cases hex : o = .exit a
      · subst hex
        have hover := List.all_eq_true.mp hexit c hc
        simp only [hper,Bool.false_or,Bool.or_eq_true,decide_eq_true_eq,List.any_eq_true,Bool.and_eq_true,beq_iff_eq,
          bne_iff_ne] at hover
        rcases hover with hnz | hno | ⟨e,he,hek,hne,hact'⟩
        · refine hcount ?_
          have := (h.inv.ctx c hc).refcnt
          omega
        · exact absurd hm hno
        · exact hactive e.2 (by rw [← hek]; exact he) hact' fun heq => hne (Shm.Op.exit.inj heq).symm
      · exact hactive a hm hact hex

lemma init_sound : init.Sound :=
  ⟨init_inv,init_exact,init_noded,by simp [init,Shm.init,mappers],by simp [init],by simp [init,Shm.init],
    by simp [init,Shm.init],by simp [init,Shm.init]⟩

lemma Sound.known (h : l.Sound) (hc : c ∈ l.shm.ctable) (hper : c.isPersist = false) :
    ∃ a, (c.id,a) ∈ l.history ∧ l.shm.alive a := by
  rcases h.kept c hc hper with hpos | ⟨a,hm,hact⟩
  · have hcount := (h.inv.ctx c hc).refcnt
    cases hr : c.rmap with
    | cons n rest =>
      have hn : n ∈ c.rmap := hr ▸ List.mem_cons_self
      obtain ⟨p,hp,hlive,x,hx,rfl⟩ := h.exact.named c hc n hn
      exact ⟨x.1,h.nodes _ _ (mem_mappers.mpr ⟨c,hc,rfl,_,hn,rfl⟩),p,hp,spaceIds_of_regions hx,hlive⟩
    | nil =>
      have hfly : 0 < l.shm.inFlight c.id := by
        rw [hr] at hcount
        simp only [List.length_nil] at hcount
        omega
      obtain ⟨b,hb,hpos⟩ := List.exists_mem_ne_zero_of_sum_ne_zero (Nat.pos_iff_ne_zero.mp hfly)
      obtain ⟨p,hp,rfl⟩ := mem_map.mp hb
      have hholds : p.pc.holds c.id = true := by
        cases hh : p.pc.holds c.id with
        | false => simp [hh] at hpos
        | true => rfl
      obtain ⟨own,hun⟩ : ∃ own, p.pc.unmaps = some (c.id,own) := by
        cases hpc : p.pc <;> simp_all [Pc.holds,Pc.unmaps]
      obtain ⟨a,ha,hm,-⟩ := h.flight p hp c.id own hun
      refine ⟨a,hm,p,hp,ha,fun hd => ?_⟩
      simp [hd,Pc.holds] at hholds
  · exact ⟨a,hm,active_alive hact⟩

def dutifulRun (ops : List Shm.Op) : Option Ledger := ops.foldlM (Run.guarded handsOver step) init

theorem regions_reclaimed (ops : List Shm.Op) (l : Ledger) (h : dutifulRun ops = some l) :
    (∀ c ∈ l.shm.ctable, c.isPersist = false → ∃ a, (c.id,a) ∈ l.history ∧ l.shm.alive a) ∧
    ∀ name, (∀ c ∈ l.shm.ctable, c.name = name → c.isPersist = false ∧ ∀ a, (c.id,a) ∈ l.history → ¬ l.shm.alive a) →
      l.shm.getContextByHandle name none = none ∧
      ∀ pid size flag, (l.shm.caller pid).isSome = true → name.length < maxNameLen →
        ∃ out, l.shm.step (.createSharedRegion pid name size flag true) = some out ∧ out.err = .ok := by
  have hl : l.Sound := by
    refine Run.invariant (P := Sound) (fun l o l' hl hs => ?_) init_sound h
    obtain ⟨hok,hs⟩ := Run.guarded_some.mp hs
    exact hl.step hok hs
  refine ⟨fun c hc hper => hl.known hc hper,fun name hgone => ?_⟩
  have hnone : l.shm.getContextByHandle name none = none := by
    refine Option.eq_none_iff_forall_ne_some.mpr fun c hget => ?_
    obtain ⟨hc,hname⟩ := getContext_mem hget
    obtain ⟨hper,hdead⟩ := hgone c hc hname
    obtain ⟨a,hm,halive⟩ := hl.known hc hper
    exact hdead a hm halive
  refine ⟨hnone,fun pid size flag hcall hlen => ?_⟩
  obtain ⟨p,hp⟩ := Option.isSome_iff_exists.mp hcall
  have hlen : ¬ name.length ≥ maxNameLen := by omega
  exact ⟨_,by simp only [Shm.step,hp,sysCreateSharedRegion,if_neg hlen,createSharedRegion,hnone]; rfl,rfl⟩

def twoProcesses : List Shm.Op := [.spawn [⟨0,4096,0,0,true⟩],.spawn [⟨0,4096,0,0,true⟩]]

def mapAndExit : List Shm.Op :=
  twoProcesses ++ [.createSharedRegion 0 [65] 1 0 true,.createMapping 0 [65] true true,.exit 0] ++
    List.replicate 7 (proceed 0)

theorem regions_reclaimed_after_exit : ∃ l, dutifulRun mapAndExit = some l ∧ (8,0) ∈ l.history ∧
    ∃ out, l.shm.step (.createSharedRegion 4 [65] 1 0 true) = some out ∧ out.err = .ok := by
  have hrun : (dutifulRun mapAndExit).any (fun l => decide ((8,0) ∈ l.history) && ((l.shm.caller 4).isSome &&
      l.shm.ctable.all fun c => decide (c.isPersist = false) && l.history.all fun e =>
        decide (e.1 ≠ c.id) || decide (¬ l.shm.alive e.2))) = true := by decide +kernel
  obtain ⟨l,hl,hok⟩ := (Option.any_eq_true _ _).mp hrun
  simp only [Bool.and_eq_true,decide_eq_true_eq,List.all_eq_true,Bool.or_eq_true] at hok
  obtain ⟨hm,hcall,hall⟩ := hok
  obtain ⟨-,hcreate⟩ := (regions_reclaimed mapAndExit l hl).2 [65] fun c hc _ =>
    ⟨(hall c hc).1,fun a ha => ((hall c hc).2 _ ha).resolve_left fun hne => hne rfl⟩
  exact ⟨l,hl,hm,hcreate 4 1 0 hcall (by decide)⟩

def createAndExit : List Shm.Op :=
  twoProcesses ++ [.createSharedRegion 0 [65] 1 0 true,.exit 0] ++ List.replicate 4 (proceed 0)

theorem region_outlives_creator : ∃ l, run createAndExit = some l ∧
    (∃ c ∈ l.shm.ctable, c.name = [65] ∧ c.isPersist = false ∧ ∀ e ∈ l.history, e.1 = c.id → ¬ l.shm.alive e.2) ∧
    ∃ out, l.shm.step (.createSharedRegion 4 [65] 1 0 true) = some out ∧ out.err = .exist := by
  have hrun : (run createAndExit).any (fun l => (l.shm.ctable.any fun c => decide (c.name = [65]) &&
      (decide (c.isPersist = false) && decide (∀ e ∈ l.history, e.1 = c.id → ¬ l.shm.alive e.2))) &&
      (l.shm.step (.createSharedRegion 4 [65] 1 0 true)).any fun out => decide (out.err = .exist)) = true := by
    decide +kernel
  obtain ⟨l,hl,hok⟩ := (Option.any_eq_true _ _).mp hrun
  obtain ⟨hctx,hstep⟩ := Bool.and_eq_true_iff.mp hok
  obtain ⟨out,hout,herr⟩ := (Option.any_eq_true _ _).mp hstep
  simp only [Bool.and_eq_true,decide_eq_true_eq,List.any_eq_true] at hctx herr
  exact ⟨l,hl,hctx,out,hout,herr⟩

end Ledger
end MappedMemory
