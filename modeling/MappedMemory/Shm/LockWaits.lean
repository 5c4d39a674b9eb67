import MappedMemory.Shm.Locks

namespace MappedMemory

open Option (any_eq_true bind_eq_bind bind_eq_some_iff ite_none_left_eq_some some_inj)

open Keyed

namespace Locks
open LockEvent

variable {w w' : Locks} {x : Waiter} {c : Smemcontext} {p : Proc} {o : Op} {ret : Option Err} {tid ctx : Nat}
  {name : List Nat}

def wakesWaiter (w : Locks) : Op → Bool
  | .unlock pid name => (w.shm.getContextByHandle name (some pid)).all fun c => decide (c.lockBy ≠ (pid : Int)) ||
      (w.asleep.all (fun x => x.ctx != c.id) || (w.asleep.head?.any (fun x => x.ctx == c.id) ||
        w.woken.any fun x => x.ctx == c.id))
  | _ => true

def Alerted (w : Locks) : Prop :=
  ∀ c ∈ w.shm.ctable, c.lockBy = -1 → (∃ x ∈ w.asleep, x.ctx = c.id) → ∃ x ∈ w.woken, x.ctx = c.id

lemma waitRegion_cases (hs : w.waitRegion tid ctx = some (w',ret)) : ∃ c ∈ w.shm.ctable, c.id = ctx ∧
      (c.lockBy ≠ -1 ∧ w' = { w with asleep := w.asleep ++ [⟨tid,ctx⟩] } ∨
        w' = { w with
          shm := w.shm.setContext { c with lockBy := tid }, log := w.log ++ [.locked tid ctx] }) := by
  simp only [Locks.waitRegion,Run.bind_some] at hs
  obtain ⟨c,hfound,hs⟩ := hs
  obtain ⟨hc,hid⟩ := lookup_some hfound
  refine ⟨c,hc,hid,?_⟩
  split_ifs at hs with hheld
  · exact .inl ⟨hheld.2,(Prod.mk.inj (some_inj.mp hs)).1.symm⟩
  · exact .inr (Prod.mk.inj (some_inj.mp hs)).1.symm

lemma Alerted.waitRegion (h : w.Sound)
    (ha : ∀ c ∈ w.shm.ctable, c.id ≠ ctx → c.lockBy = -1 → (∃ x ∈ w.asleep, x.ctx = c.id) →
      ∃ x ∈ w.woken, x.ctx = c.id)
    (hs : w.waitRegion tid ctx = some (w',ret)) : w'.Alerted := by
  obtain ⟨c,hc,rfl,⟨hheld,rfl⟩ | rfl⟩ := waitRegion_cases hs
  · rintro d hd hfree ⟨x,hx,hxd⟩
    have hne : d.id ≠ c.id := fun he => hheld (h.inv.ctxIds.eq hd hc he ▸ hfree)
    refine ha d hd hne hfree ⟨x,?_,hxd⟩
    rcases List.mem_append.mp hx with hx | hx
    · exact hx
    · rw [List.mem_singleton.mp hx] at hxd
      exact absurd hxd.symm hne
  · intro d hd hfree hx
    rcases (Shm.mem_setContext { c with lockBy := tid } h.inv hc rfl).mp hd with rfl | ⟨hd,hne⟩
    · simp only at hfree
      omega
    · exact ha d hd hne hfree hx

lemma Alerted.unlockRegion (h : w.Sound) (ha : w.Alerted)
    (hok : w.wakesWaiter (.unlock tid name) = true) : (w.unlockRegion tid name).1.Alerted := by
  simp only [Locks.unlockRegion]
  split
  · exact ha
  rename_i c hget
  have hc := (Shm.getContext_mem hget).1
  split_ifs with hby
  · exact ha
  have hpass : w.asleep.all (fun x => x.ctx != c.id) = true ∨ w.asleep.head?.any (fun x => x.ctx == c.id) = true ∨
      w.woken.any (fun x => x.ctx == c.id) = true := by
    simpa [wakesWaiter,hget,hby] using hok
  have hold : ∀ d ∈ (w.shm.setContext { c with lockBy := -1 }).ctable, d.lockBy = -1 → d.id ≠ c.id →
      (∃ x ∈ w.asleep, x.ctx = d.id) → ∃ x ∈ w.woken, x.ctx = d.id := by
    intro d hd hfree hne hx
    rcases (Shm.mem_setContext { c with lockBy := -1 } h.inv hc rfl).mp hd with rfl | ⟨hd,-⟩
    · exact absurd rfl hne
    · exact ha d hd hfree hx
  intro d hd hfree hx
  simp only [signal] at hd hx ⊢
  cases hq : w.asleep with
  | nil => simp [hq] at hx
  | cons y rest =>
    simp only [hq] at hd hx ⊢
    have hmono : (∃ x ∈ w.woken, x.ctx = d.id) → ∃ x ∈ w.woken ++ [y], x.ctx = d.id := by
      rintro ⟨x,hx,he⟩
      exact ⟨x,List.mem_append_left _ hx,he⟩
    have hin : ∃ x ∈ w.asleep, x.ctx = d.id := by
      obtain ⟨x,hx,he⟩ := hx
      exact ⟨x,hq ▸ List.mem_cons_of_mem _ hx,he⟩
    by_cases hdc : d.id = c.id
    · rcases hpass with hno | hhead | hwoken
      · obtain ⟨x,hx,he⟩ := hin
        exact absurd (he.trans hdc) (by simpa using List.all_eq_true.mp hno x hx)
      · exact ⟨y,by simp,by simpa [hq,hdc] using hhead⟩
      · obtain ⟨x,hx,he⟩ := List.any_eq_true.mp hwoken
        exact hmono ⟨x,hx,(by simpa using he : x.ctx = c.id).trans hdc.symm⟩
    · exact hmono (hold d hd hfree hdc hin)

lemma Alerted.step (h : w.Sound) (ha : w.Alerted) (hok : w.wakesWaiter o = true)
    (hs : w.step o = some (w',ret)) : w'.Alerted := by
  cases o with
  | lock pid name =>
    simp only [Locks.step,bind_eq_bind,ite_none_left_eq_some,bind_eq_some_iff] at hs
    obtain ⟨-,p,-,hs⟩ := hs
    simp only [lockRegion] at hs
    split at hs
    · cases hs
      exact ha
    · exact Alerted.waitRegion h (fun c hc _ => ha c hc) hs
  | resume pid =>
    simp only [Locks.step,bind_eq_bind,bind_eq_some_iff] at hs
    obtain ⟨x,hx,hs⟩ := hs
    refine Alerted.waitRegion (h.wake x) (fun c hc hne hfree hsleep => ?_) hs
    obtain ⟨y,hy,hyc⟩ := ha c hc hfree hsleep
    exact ⟨y,(List.mem_erase_of_ne fun he => hne (by rw [← hyc,he])).mpr hy,hyc⟩
  | unlock pid name =>
    simp only [Locks.step,bind_eq_bind,ite_none_left_eq_some,bind_eq_some_iff] at hs
    obtain ⟨-,p,-,hs⟩ := hs
    cases hs
    exact ha.unlockRegion h hok
  | call o =>
    simp only [Locks.step,bind_eq_bind,ite_none_left_eq_some,bind_eq_some_iff] at hs
    obtain ⟨-,out,hout,hs⟩ := hs
    cases hs
    rintro c hc hfree ⟨x,hx,hxc⟩
    rcases (Shm.step_transition h.inv hout).origin h.inv hc with ⟨name,n,flag,rfl,-⟩ | ⟨c0,hc0,hf⟩
    · obtain ⟨-,-,-,-,d,hd,hid,-⟩ := h.waits x (List.mem_append_left _ hx)
      exact absurd (h.inv.ctx d hd).below (by rw [hid,hxc]; exact lt_irrefl _)
    · rw [hf.id] at hxc ⊢
      exact ha c0 hc0 (hf.lockBy ▸ hfree) ⟨x,hx,hxc⟩

def attentiveRun (ops : List Op) : Option Locks := ops.foldlM (Run.guarded wakesWaiter move) init

theorem lock_wakeups (ops : List Op) (w : Locks) (h : attentiveRun ops = some w) :
    ∀ c ∈ w.shm.ctable, c.lockBy = -1 → (∃ x ∈ w.asleep, x.ctx = c.id) → ∃ x ∈ w.woken, x.ctx = c.id := by
  have hw : w.Sound ∧ w.Alerted := by
    refine Run.invariant (P := fun w => w.Sound ∧ w.Alerted) (fun w o w' hw hs => ?_)
      ⟨init_sound,by simp [Alerted,init,Shm.init]⟩ h
    obtain ⟨hok,hs⟩ := Run.guarded_some.mp hs
    obtain ⟨ret,hs⟩ := move_some hs
    exact ⟨hw.1.step hs,hw.2.step hw.1 hok hs⟩
  exact hw.2

def oneRegionWaiters : List Op := fourSharers ++ [.lock 0 [65],.lock 4 [65],.lock 8 [65],.unlock 0 [65]]

theorem lock_wakeups_one_region : ∃ w, attentiveRun oneRegionWaiters = some w ∧ w.asleep = [⟨8,16⟩] ∧
    ∃ x ∈ w.woken, x.ctx = 16 := by
  have hrun : (attentiveRun oneRegionWaiters).any (fun w => decide (w.asleep = [⟨8,16⟩]) &&
      w.shm.ctable.any fun c => decide (c.id = 16) && decide (c.lockBy = -1)) = true := by decide +kernel
  obtain ⟨w,hw,hok⟩ := (any_eq_true _ _).mp hrun
  simp only [Bool.and_eq_true,decide_eq_true_eq,List.any_eq_true] at hok
  obtain ⟨hasleep,c,hc,hid,hfree⟩ := hok
  obtain ⟨x,hx,hxc⟩ := lock_wakeups oneRegionWaiters w hw c hc hfree ⟨⟨8,16⟩,by simp [hasleep],hid.symm⟩
  exact ⟨w,hw,hasleep,x,hx,hxc.trans hid⟩

def twoRegionWaiters : List Op :=
  fourSharers ++ [.lock 0 [65],.lock 4 [66],.lock 8 [65],.lock 12 [66],.unlock 4 [66]]

theorem lock_wakeups_two_regions : ∃ w, run twoRegionWaiters = some w ∧
    (∃ c ∈ w.shm.ctable, c.id = 17 ∧ c.lockBy = -1) ∧ w.asleep = [⟨12,17⟩] ∧ w.woken = [⟨8,16⟩] := by
  have hrun : (run twoRegionWaiters).any (fun w => (w.shm.ctable.any fun c => decide (c.id = 17) && decide (c.lockBy = -1)) &&
      (decide (w.asleep = [⟨12,17⟩]) && decide (w.woken = [⟨8,16⟩]))) = true := by decide +kernel
  obtain ⟨w,hw,hok⟩ := (any_eq_true _ _).mp hrun
  simp only [Bool.and_eq_true,decide_eq_true_eq,List.any_eq_true] at hok
  exact ⟨w,hw,hok⟩

def releasesFirst (w : Locks) : Op → Bool
  | .call (.exit pid) => w.shm.ctable.all fun c => decide (c.lockBy ≠ (pid : Int))
  | .call (.destroyMapping pid name _) => (w.shm.getContextByHandle name (some pid)).all fun c =>
    decide (c.lockBy ≠ (pid : Int)) || decide (2 ≤ c.rmap.countP fun n => n.as == pid)
  | _ => true

def Attended (s : Shm) (c : Smemcontext) : Prop :=
  ∃ p ∈ s.procs, c.lockBy = p.pid ∧ p.pc.torn ≠ some true ∧ ∃ n ∈ c.rmap, n.as = p.pid

lemma countP_erase_le (l : List Pid2mem) (m : Pid2mem) (f : Pid2mem → Bool) : l.countP f ≤ (l.erase m).countP f + 1 := by
  by_cases hm : m ∈ l
  · rw [(List.perm_cons_erase hm).countP_eq f,List.countP_cons]
    split <;> omega
  · rw [List.erase_of_not_mem hm]
    omega

lemma Attended.call {o : Shm.Op} {out : Outcome} (h : w.Sound) (hok : w.releasesFirst (.call o) = true)
    (hs : w.shm.step o = some out) (hc : c ∈ out.shm.ctable) (hheld : c.lockBy ≠ -1)
    (ha : ∀ c ∈ w.shm.ctable, c.lockBy ≠ -1 → Attended w.shm c) : Attended out.shm c := by
  have ht := Shm.step_transition h.inv hs
  have hi' := h.inv.step hs
  rcases ht.origin h.inv hc with ⟨name,n,flag,rfl,-⟩ | ⟨c0,hc0,hf⟩
  · exact absurd rfl hheld
  obtain ⟨p,hp,hby,htorn,n,hn,has⟩ := ha c0 hc0 (hf.lockBy ▸ hheld)
  have hexit : o ≠ .exit p.pid := by
    rintro rfl
    have := List.all_eq_true.mp hok c0 hc0
    simp [hby] at this
  obtain ⟨p',hp',hpid,-,htorn'⟩ := ht.proc h.inv hp
  refine ⟨p',hp',by rw [hf.lockBy,hby,hpid],htorn' htorn hexit,?_⟩
  rw [hpid]
  obtain ⟨c',hc',hface,hkeep⟩ := ht.survives h.inv hc0 (List.ne_nil_of_mem hn)
  obtain rfl := hi'.ctxIds.eq hc hc' (hf.id.trans hface.id.symm)
  rcases hkeep with hkeep | ⟨q,hq,m,t,hact,hun,hrmap⟩
  · exact ⟨n,hkeep n hn,has⟩
  · rw [hrmap]
    rcases hun with ⟨hpc,-,hm,name,vaddr,rfl,hget⟩ | ⟨own,r,rest,as,hpc,-,htarget⟩
    · by_cases hpq : p.pid = q.pid
      · obtain rfl := h.inv.pids.eq hp hq hpq
        have htwo : 2 ≤ c0.rmap.countP fun n => n.as == p.pid := by
          simpa [releasesFirst,hget,hby] using hok
        obtain ⟨n',hn',has'⟩ := List.countP_pos_iff.mp (show 0 < (c0.rmap.erase m).countP fun n => n.as == p.pid by
          have := countP_erase_le c0.rmap m fun n => n.as == p.pid
          omega)
        exact ⟨n',hn',by simpa using has'⟩
      · refine ⟨n,(List.mem_erase_of_ne fun he => hpq ?_).mpr hn,has⟩
        rw [← has,he,hm]
    · refine ⟨n,(List.mem_erase_of_ne fun he => ?_).mpr hn,has⟩
      have hspace : p.pid ∈ q.spaceIds := List.mem_map.mpr ⟨_,Shm.target_mem htarget,by rw [← he,has]⟩
      by_cases hpq : p.pid = q.pid
      · obtain rfl := h.inv.pids.eq hp hq hpq
        obtain rfl : own = false := by simpa [hpc,Pc.torn] using htorn
        exact h.inv.embryo_ne hp (show p.embryo = some (m.as,as) from htarget) (by rw [← he,has])
      · exact h.inv.spaces_apart hq hp hpq hspace (Shm.space_mem p)

lemma Attended.waitRegion (h : w.Sound) (hx : w.Waits ⟨tid,ctx⟩)
    (ha : ∀ c ∈ w.shm.ctable, c.lockBy ≠ -1 → Attended w.shm c) (hs : w.waitRegion tid ctx = some (w',ret)) :
    ∀ c ∈ w'.shm.ctable, c.lockBy ≠ -1 → Attended w'.shm c := by
  obtain ⟨c,hc,rfl,⟨-,rfl⟩ | rfl⟩ := waitRegion_cases hs
  · exact ha
  · intro d hd hheld
    rcases (Shm.mem_setContext { c with lockBy := tid } h.inv hc rfl).mp hd with rfl | ⟨hd,-⟩
    · obtain ⟨p,hp,hpid,hpc,k,hk,hid,n,hn,has⟩ := hx
      obtain rfl := h.inv.ctxIds.eq hk hc hid
      exact ⟨p,hp,by rw [hpid],by simp [hpc,Pc.torn],n,hn,has.trans hpid.symm⟩
    · exact ha d hd hheld

lemma Attended.unlockRegion (h : w.Sound) (ha : ∀ c ∈ w.shm.ctable, c.lockBy ≠ -1 → Attended w.shm c) :
    ∀ c ∈ (w.unlockRegion tid name).1.shm.ctable, c.lockBy ≠ -1 → Attended (w.unlockRegion tid name).1.shm c := by
  simp only [Locks.unlockRegion]
  split
  · exact ha
  rename_i c hget
  have hc := (Shm.getContext_mem hget).1
  split_ifs with hby
  · exact ha
  intro d hd hheld
  simp only [(signal_shm _).1] at hd ⊢
  rcases (Shm.mem_setContext { c with lockBy := -1 } h.inv hc rfl).mp hd with rfl | ⟨hd,-⟩
  · exact absurd rfl hheld
  · exact ha d hd hheld

lemma Attended.step (h : w.Sound) (ha : ∀ c ∈ w.shm.ctable, c.lockBy ≠ -1 → Attended w.shm c)
    (hok : w.releasesFirst o = true) (hs : w.step o = some (w',ret)) :
    ∀ c ∈ w'.shm.ctable, c.lockBy ≠ -1 → Attended w'.shm c := by
  cases o with
  | lock pid name =>
    simp only [Locks.step,bind_eq_bind,ite_none_left_eq_some,bind_eq_some_iff] at hs
    obtain ⟨-,p,hcall,hs⟩ := hs
    obtain ⟨hp,hpc,hpid⟩ := Shm.caller_pid hcall
    simp only [lockRegion] at hs
    split at hs
    · cases hs
      exact ha
    · rename_i c hget
      exact Attended.waitRegion h
        ⟨p,hp,hpid,hpc,c,(Shm.getContext_mem hget).1,rfl,Shm.getContext_mapped hget⟩ ha hs
  | resume pid =>
    simp only [Locks.step,bind_eq_bind,bind_eq_some_iff] at hs
    obtain ⟨x,hx,hs⟩ := hs
    exact Attended.waitRegion (h.wake x) (h.waits x (List.mem_append_right _ (List.mem_of_find?_eq_some hx))) ha hs
  | unlock pid name =>
    simp only [Locks.step,bind_eq_bind,ite_none_left_eq_some,bind_eq_some_iff] at hs
    obtain ⟨-,p,-,hs⟩ := hs
    cases hs
    exact Attended.unlockRegion h ha
  | call o =>
    simp only [Locks.step,bind_eq_bind,ite_none_left_eq_some,bind_eq_some_iff] at hs
    obtain ⟨-,out,hout,hs⟩ := hs
    cases hs
    exact fun c hc hheld => Attended.call h hok hout hc hheld ha

lemma getContext_self (h : w.Sound) (hc : c ∈ w.shm.ctable) {pid : Nat} (hn : ∃ n ∈ c.rmap, n.as = pid) :
    w.shm.getContextByHandle c.name (some pid) = some c := by
  obtain ⟨n,hn,has⟩ := hn
  have hfind : w.shm.ctable.find? (fun d => d.name == c.name) = some c := by
    obtain ⟨d,hd⟩ := Option.isSome_iff_exists.mp
      (List.find?_isSome (p := fun d : Smemcontext => d.name == c.name) |>.mpr ⟨c,hc,beq_self_eq_true _⟩)
    have hname : d.name = c.name := by simpa using List.find?_some hd
    have hmem := List.mem_of_find?_eq_some hd
    rw [hd,h.inv.ctxIds.eq hmem hc (h.named d hmem c hc hname)]
  have hany : c.rmap.any (fun n => n.as == pid) = true := List.any_eq_true.mpr ⟨n,hn,by simpa using has⟩
  simp only [Shm.getContextByHandle,hfind,hany,if_true]

def considerateRun (ops : List Op) : Option Locks := ops.foldlM (Run.guarded releasesFirst move) init

def advances (pid n : Nat) : List Op := List.replicate n (.call (.advance pid ⟨true,true,true,true⟩))

def ownerAndExit : List Op := fourSharers ++ [.lock 0 [65],.call (.exit 4)] ++ advances 4 10

def ownerExits : List Op := fourSharers ++ [.lock 0 [65],.call (.exit 0)] ++ advances 0 10

def ownerUnmaps : List Op := fourSharers ++ [.lock 0 [65],.call (.destroyMapping 0 [65] 4096)] ++ advances 0 2

end Locks
end MappedMemory
