import MappedMemory.Shm.Transitions

namespace MappedMemory

open List (append_assoc append_inj' mem_append mem_append_right mem_singleton)
open Option (bind_eq_bind bind_eq_some_iff ite_none_left_eq_some)

open Keyed

namespace Shm

variable {s : Shm} {c : Smemcontext} {o : Op}

lemma Inv.setLock (tid : Int) (hi : s.Inv) (hc : c ∈ s.ctable) : (s.setContext { c with lockBy := tid }).Inv := by
  have hmem := fun d => mem_setContext (d := d) { c with lockBy := tid } hi hc rfl
  have hids := setContext_distinct { c with lockBy := tid } hi.ctxIds
  refine ⟨hi.spaceIds,hi.spaceLt,hids,fun d hd => ?_,fun q hq => (hi.proc q hq).frame hids ?_⟩
  · rcases (hmem d).mp hd with rfl | ⟨hd,-⟩
    · exact ⟨(hi.ctx c hc).below,(hi.ctx c hc).nodup,(hi.ctx c hc).nodes,(hi.ctx c hc).refcnt⟩
    · exact ⟨(hi.ctx d hd).below,(hi.ctx d hd).nodup,(hi.ctx d hd).nodes,(hi.ctx d hd).refcnt⟩
  · refine ⟨le_rfl,fun d hd _ => ?_,fun d hd n hn _ => ?_⟩
    · by_cases hdc : d.id = c.id
      · obtain rfl := hi.ctxIds.eq hd hc hdc
        exact ⟨_,(hmem _).mpr (.inl rfl),rfl,rfl,fun _ _ => Iff.rfl⟩
      · exact ⟨d,(hmem d).mpr (.inr ⟨hd,hdc⟩),rfl,rfl,fun _ _ => Iff.rfl⟩
    · rcases (hmem d).mp hd with rfl | ⟨hd,-⟩
      · exact ⟨c,hc,rfl,hn⟩
      · exact ⟨d,hd,rfl,hn⟩

lemma getContext_none {name : List Nat} (h : s.getContextByHandle name none = none) (hc : c ∈ s.ctable) :
    c.name ≠ name := by
  simp only [getContextByHandle] at h
  split at h
  · rename_i hn
    simpa using List.find?_eq_none.mp hn c hc
  · cases h

lemma getContext_mapped {name : List Nat} {as : Nat} (h : s.getContextByHandle name (some as) = some c) :
    ∃ n ∈ c.rmap, n.as = as := by
  simp only [getContextByHandle] at h
  split at h
  · cases h
  · split at h
    · rename_i hany
      cases h
      simpa using hany
    · cases h

end Shm

inductive LockEvent where
  | locked (tid ctx : Nat)
  | unlocked (tid ctx : Nat)
deriving DecidableEq, Repr

structure Waiter where
  tid : Nat
  ctx : Nat
deriving DecidableEq, Repr

structure Locks where
  shm : Shm
  asleep : List Waiter
  woken : List Waiter
  log : List LockEvent
deriving DecidableEq, Repr

namespace Locks

def init : Locks := ⟨.init,[],[],[]⟩

def blocked (w : Locks) (pid : Nat) : Bool := (w.asleep ++ w.woken).any fun x => x.tid == pid

def waitRegion (w : Locks) (tid ctx : Nat) : Option (Locks × Option Err) := do
  let c ← w.shm.context ctx
  if c.lockBy ≠ tid ∧ c.lockBy ≠ -1 then some ({ w with asleep := w.asleep ++ [⟨tid,ctx⟩] },none)
  else
    some ({ w with
      shm := w.shm.setContext { c with lockBy := tid }, log := w.log ++ [.locked tid ctx] },some .ok)

def lockRegion (w : Locks) (tid : Nat) (name : List Nat) : Option (Locks × Option Err) :=
  match w.shm.getContextByHandle name (some tid) with
  | none => some (w,some .notExist)
  | some c => w.waitRegion tid c.id

def signal (w : Locks) : Locks :=
  match w.asleep with
  | [] => w
  | x :: rest => { w with asleep := rest, woken := w.woken ++ [x] }

def unlockRegion (w : Locks) (tid : Nat) (name : List Nat) : Locks × Err :=
  match w.shm.getContextByHandle name (some tid) with
  | none => (w,.notExist)
  | some c =>
    if c.lockBy ≠ tid then (w,.inval)
    else
      (signal { w with
        shm := w.shm.setContext { c with lockBy := -1 }, log := w.log ++ [.unlocked tid c.id] },.ok)

inductive Op where
  | lock (pid : Nat) (name : List Nat)
  | resume (pid : Nat)
  | unlock (pid : Nat) (name : List Nat)
  | call (o : Shm.Op)
deriving DecidableEq, Repr

def step (w : Locks) : Op → Option (Locks × Option Err)
  | .lock pid name =>
    if w.blocked pid then none
    else do
      let _ ← w.shm.caller pid
      w.lockRegion pid name
  | .resume pid => do
    let x ← w.woken.find? fun x => x.tid == pid
    waitRegion { w with woken := w.woken.erase x } x.tid x.ctx
  | .unlock pid name =>
    if w.blocked pid then none
    else do
      let _ ← w.shm.caller pid
      let (w,err) := w.unlockRegion pid name
      some (w,some err)
  | .call o =>
    if o.actor.any w.blocked then none
    else do
      let out ← w.shm.step o
      some ({ w with shm := out.shm },some out.err)

def move (w : Locks) (o : Op) : Option Locks := (w.step o).map Prod.fst

def run (ops : List Op) : Option Locks := ops.foldlM move init

end Locks

namespace LockEvent

def ctx : LockEvent → Nat
  | .locked _ k => k
  | .unlocked _ k => k

def tid : LockEvent → Nat
  | .locked t _ => t
  | .unlocked t _ => t

def Owns (log : List LockEvent) (t k : Nat) : Prop := ∃ l1 l2, log = l1 ++ .locked t k :: l2 ∧ .unlocked t k ∉ l2

def Exclusive (log : List LockEvent) : Prop :=
  ∀ l1 l2 l3 t k e, log = l1 ++ .locked t k :: l2 ++ e :: l3 → .unlocked t k ∉ l2 → e.ctx = k → e.tid = t

variable {log : List LockEvent} {e : LockEvent} {t k : Nat}

lemma owns_append : Owns (log ++ [e]) t k ↔ e = .locked t k ∨ (Owns log t k ∧ e ≠ .unlocked t k) := by
  constructor
  · rintro ⟨l1,l2,heq,hno⟩
    rcases List.eq_nil_or_concat l2 with rfl | ⟨l,e',rfl⟩
    · exact .inl (List.append_inj_right' heq rfl |> List.singleton_inj.mp)
    · rw [List.concat_eq_append] at heq hno
      rw [← List.cons_append,← append_assoc] at heq
      obtain ⟨hlog,he⟩ := append_inj' heq rfl
      obtain rfl := List.singleton_inj.mp he
      rw [mem_append,not_or,mem_singleton] at hno
      exact .inr ⟨⟨l1,l,hlog,hno.1⟩,Ne.symm hno.2⟩
  · rintro (rfl | ⟨⟨l1,l2,rfl,hno⟩,he⟩)
    · exact ⟨log,[],rfl,by simp⟩
    · refine ⟨l1,l2 ++ [e],by simp,?_⟩
      rw [mem_append,not_or,mem_singleton]
      exact ⟨hno,Ne.symm he⟩

lemma Exclusive.append (h : Exclusive log) (he : ∀ t, Owns log t e.ctx → e.tid = t) : Exclusive (log ++ [e]) := by
  intro l1 l2 l3 t k e' heq hno hk
  rcases List.eq_nil_or_concat l3 with rfl | ⟨l,e'',rfl⟩
  · obtain ⟨hlog,hee⟩ := append_inj' heq rfl
    obtain rfl := List.singleton_inj.mp hee
    subst hk
    exact he t ⟨l1,l2,hlog,hno⟩
  · rw [List.concat_eq_append,← List.cons_append,← append_assoc] at heq
    exact h l1 l2 l t k e' (append_inj' heq rfl).1 hno hk

end LockEvent

namespace Locks
open LockEvent

variable {w w' : Locks} {x : Waiter} {c : Smemcontext} {p : Proc} {o : Op} {ret : Option Err} {tid : Int}
  {name : List Nat} {pid : Nat} {out : Outcome}

def Waits (w : Locks) (x : Waiter) : Prop :=
  ∃ p ∈ w.shm.procs, p.pid = x.tid ∧ p.pc = .user ∧ ∃ c ∈ w.shm.ctable, c.id = x.ctx ∧ ∃ n ∈ c.rmap, n.as = x.tid

structure Sound (w : Locks) : Prop where
  inv : w.shm.Inv
  noded : w.shm.Noded
  named : ∀ c ∈ w.shm.ctable, ∀ d ∈ w.shm.ctable, c.name = d.name → c.id = d.id
  waits : ∀ x ∈ w.asleep ++ w.woken, w.Waits x
  owner : ∀ c ∈ w.shm.ctable, ∀ t : Nat, c.lockBy = t ↔ Owns w.log t c.id
  free : ∀ c ∈ w.shm.ctable, -1 ≤ c.lockBy
  listed : ∀ e ∈ w.log, e.ctx < w.shm.next
  exclusive : Exclusive w.log

lemma Owns.mem {log : List LockEvent} {t k : Nat} (h : Owns log t k) : .locked t k ∈ log := by
  obtain ⟨l1,l2,rfl,-⟩ := h
  simp

lemma Waits.setLock (hi : w.shm.Inv) (hc : c ∈ w.shm.ctable) (h : w.Waits x)
    (hw : w'.shm = w.shm.setContext { c with lockBy := tid }) : w'.Waits x := by
  obtain ⟨p,hp,hpid,hpc,d,hd,hid,n,hn,has⟩ := h
  refine ⟨p,by rw [hw]; exact hp,hpid,hpc,?_⟩
  rw [hw]
  by_cases hdc : d.id = c.id
  · obtain rfl := hi.ctxIds.eq hd hc hdc
    exact ⟨_,(Shm.mem_setContext { d with lockBy := tid } hi hd rfl).mpr (.inl rfl),hid,n,hn,has⟩
  · exact ⟨d,(Shm.mem_setContext { c with lockBy := tid } hi hc rfl).mpr (.inr ⟨hd,hdc⟩),hid,n,hn,has⟩

lemma noded_setLock {s : Shm} (hi : s.Inv) (h : s.Noded) (hc : c ∈ s.ctable) :
    (s.setContext { c with lockBy := tid }).Noded :=
  h.update le_rfl (fun _ hd _ hn => Shm.set_named { c with lockBy := tid } hi hc rfl (fun _ hn => hn) hd hn)
    fun x' hx' => .inr ⟨x',hx',.refl x'⟩

lemma Sound.record {e : LockEvent} (h : w.Sound) (hc : c ∈ w.shm.ctable) (hk : e.ctx = c.id)
    (hfree : c.lockBy = e.tid ∨ c.lockBy = -1) (htid : -1 ≤ tid)
    (hnew : ∀ t : Nat, tid = t ↔ Owns (w.log ++ [e]) t c.id)
    (hshm : w'.shm = w.shm.setContext { c with lockBy := tid }) (hlog : w'.log = w.log ++ [e])
    (hwait : ∀ x ∈ w'.asleep ++ w'.woken, x ∈ w.asleep ++ w.woken) : w'.Sound := by
  have hmem := fun d => Shm.mem_setContext (d := d) { c with lockBy := tid } h.inv hc rfl
  have hface : ∀ d ∈ w'.shm.ctable, ∃ d' ∈ w.shm.ctable, d'.id = d.id ∧ d'.name = d.name := fun d hd => by
    rcases (hmem d).mp (hshm ▸ hd) with rfl | ⟨hd,-⟩
    · exact ⟨c,hc,rfl,rfl⟩
    · exact ⟨d,hd,rfl,rfl⟩
  refine ⟨by rw [hshm]; exact h.inv.setLock tid hc,by rw [hshm]; exact noded_setLock h.inv h.noded hc,?_,
    fun x hx => (h.waits x (hwait x hx)).setLock h.inv hc hshm,?_,?_,?_,?_⟩
  · intro d hd d' hd' hname
    obtain ⟨a,ha,hid,hna⟩ := hface d hd
    obtain ⟨b,hb,hid',hnb⟩ := hface d' hd'
    rw [← hid,← hid']
    exact h.named a ha b hb (by rw [hna,hnb,hname])
  · intro d hd t
    rw [hlog]
    rcases (hmem d).mp (hshm ▸ hd) with rfl | ⟨hd,hne⟩
    · exact hnew t
    · rw [h.owner d hd t,owns_append]
      have hne : e.ctx ≠ d.id := fun he => hne (he.symm.trans hk)
      constructor
      · exact fun ho => .inr ⟨ho,fun he => hne (by rw [he]; rfl)⟩
      · rintro (rfl | ⟨ho,-⟩)
        · exact absurd rfl hne
        · exact ho
  · intro d hd
    rcases (hmem d).mp (hshm ▸ hd) with rfl | ⟨hd,-⟩
    · exact htid
    · exact h.free d hd
  · intro e' he'
    rw [hlog] at he'
    rw [hshm]
    rcases List.mem_append.mp he' with he' | he'
    · exact h.listed e' he'
    · rw [List.mem_singleton.mp he',hk]
      exact (h.inv.ctx c hc).below
  · rw [hlog]
    refine h.exclusive.append fun t ho => ?_
    have hby := (h.owner c hc t).mpr (hk ▸ ho)
    omega

lemma Sound.waitRegion {tid ctx : Nat} (h : w.Sound) (hx : w.Waits ⟨tid,ctx⟩)
    (hs : w.waitRegion tid ctx = some (w',ret)) : w'.Sound := by
  simp only [Locks.waitRegion,Run.bind_some] at hs
  obtain ⟨c,hfound,hs⟩ := hs
  obtain ⟨hc,rfl⟩ := lookup_some hfound
  split_ifs at hs with hheld
  · cases hs
    refine ⟨h.inv,h.noded,h.named,fun x hx' => ?_,h.owner,h.free,h.listed,h.exclusive⟩
    simp only [append_assoc,mem_append,mem_singleton] at hx'
    rcases hx' with hx' | rfl | hx'
    · exact h.waits x (List.mem_append_left _ hx')
    · exact hx
    · exact h.waits x (mem_append_right _ hx')
  · cases hs
    have hfree : c.lockBy = (tid : Int) ∨ c.lockBy = -1 := by
      by_contra hne
      exact hheld (not_or.mp hne)
    refine h.record (e := .locked tid c.id) hc rfl hfree (by omega) (fun t => ?_) rfl rfl fun _ hx => hx
    rw [owns_append,Nat.cast_inj]
    constructor
    · rintro rfl
      exact .inl rfl
    · rintro (he | ⟨ho,-⟩)
      · exact (LockEvent.locked.inj he).1
      · have hby := (h.owner c hc t).mpr ho
        omega

lemma mem_signal (w : Locks) : x ∈ w.signal.asleep ++ w.signal.woken ↔ x ∈ w.asleep ++ w.woken := by
  simp only [signal]
  split
  · exact Iff.rfl
  · rename_i y rest hy
    simp only [hy,mem_append,List.mem_cons,List.not_mem_nil,or_false]
    tauto

lemma signal_shm (w : Locks) : w.signal.shm = w.shm ∧ w.signal.log = w.log := by
  simp only [signal]
  split <;> exact ⟨rfl,rfl⟩

lemma Sound.unlockRegion {tid : Nat} (h : w.Sound) : (w.unlockRegion tid name).1.Sound := by
  simp only [Locks.unlockRegion]
  split
  · exact h
  · rename_i c hget
    have hc := (Shm.getContext_mem hget).1
    split_ifs with hby
    · exact h
    · have hby : c.lockBy = (tid : Int) := not_not.mp hby
      refine h.record (e := .unlocked tid c.id) hc rfl (.inl hby) le_rfl (fun t => ?_) (signal_shm _).1
        (signal_shm _).2 fun x hx => (mem_signal { w with
          shm := w.shm.setContext { c with lockBy := -1 }, log := w.log ++ [.unlocked tid c.id] }).mp hx
      rw [owns_append]
      constructor
      · intro ht
        omega
      · rintro (he | ⟨ho,he⟩)
        · cases he
        · have hby' := (h.owner c hc t).mpr ho
          obtain rfl : t = tid := by omega
          exact absurd rfl he

lemma not_blocked_ne (h : w.blocked pid = false) (hx : x ∈ w.asleep ++ w.woken) : x.tid ≠ pid := by
  simpa using List.any_eq_false.mp h x hx

lemma Waits.call {o : Shm.Op} (hi : w.shm.Inv) (hs : w.shm.step o = some out)
    (hact : o.actor ≠ some x.tid) (h : w.Waits x) : Waits { w with shm := out.shm } x := by
  obtain ⟨p,hp,hpid,hpc,c,hc,hid,n,hn,has⟩ := h
  have ht := Shm.step_transition hi hs
  obtain ⟨p',hp',-,hsame,-⟩ := ht.proc hi hp
  obtain rfl := hsame (hpid ▸ hact)
  obtain ⟨c',hc',hface,hn'⟩ := ht.survives_other hi hp (hpid ▸ hact) hc hn (has.trans hpid.symm)
  exact ⟨p',hp',hpid,hpc,c',hc',hface.id.trans hid,n,hn',has⟩

lemma Sound.call {o : Shm.Op} (h : w.Sound) (hact : o.actor.any w.blocked = false)
    (hs : w.shm.step o = some out) : Sound { w with shm := out.shm } := by
  have ht := Shm.step_transition h.inv hs
  have hi' := h.inv.step hs
  refine ⟨hi',h.noded.transition h.inv hi' ht,fun c hc d hd hname => ?_,fun x hx => ?_,fun c hc t => ?_,
    fun c hc => ?_,fun e he => (h.listed e he).trans_le ht.next_le,h.exclusive⟩
  · rcases ht.origin h.inv hc with ⟨name,n,flag,rfl,hnew,-⟩ | ⟨c0,hc0,hf⟩
    · rcases ht.origin h.inv hd with ⟨_,_,_,rfl,-⟩ | ⟨d0,hd0,hg⟩
      · rfl
      · exact absurd (hg.name.symm.trans hname.symm) (Shm.getContext_none hnew hd0)
    · rcases ht.origin h.inv hd with ⟨name,n,flag,rfl,hnew,-⟩ | ⟨d0,hd0,hg⟩
      · exact absurd (hf.name.symm.trans hname) (Shm.getContext_none hnew hc0)
      · rw [hf.id,hg.id]
        exact h.named c0 hc0 d0 hd0 (by rw [← hf.name,← hg.name,hname])
  · refine (h.waits x hx).call h.inv hs fun ha => ?_
    rw [ha,Option.any_some] at hact
    exact not_blocked_ne hact hx rfl
  · rcases ht.origin h.inv hc with ⟨name,n,flag,rfl,-⟩ | ⟨c0,hc0,hf⟩
    · refine ⟨fun he => ?_,fun ho => ?_⟩
      · simp only [Shm.contextInit] at he
        omega
      · exact absurd (h.listed _ (Owns.mem ho)) (lt_irrefl _)
    · rw [hf.id,hf.lockBy]
      exact h.owner c0 hc0 t
  · rcases ht.origin h.inv hc with ⟨name,n,flag,rfl,-⟩ | ⟨c0,hc0,hf⟩
    · exact le_rfl
    · rw [hf.lockBy]
      exact h.free c0 hc0

lemma Sound.wake (h : w.Sound) (x : Waiter) : Sound { w with woken := w.woken.erase x } :=
  ⟨h.inv,h.noded,h.named,fun y hy => h.waits y (by
    rcases List.mem_append.mp hy with hy | hy
    · exact List.mem_append_left _ hy
    · exact mem_append_right _ (List.mem_of_mem_erase hy)),h.owner,h.free,h.listed,h.exclusive⟩

lemma Sound.step (h : w.Sound) (hs : w.step o = some (w',ret)) : w'.Sound := by
  cases o with
  | lock pid name =>
    simp only [Locks.step,bind_eq_bind,ite_none_left_eq_some,bind_eq_some_iff] at hs
    obtain ⟨-,p,hcall,hs⟩ := hs
    obtain ⟨hp,hpc,hpid⟩ := Shm.caller_pid hcall
    simp only [lockRegion] at hs
    split at hs
    · cases hs
      exact h
    · rename_i c hget
      exact h.waitRegion ⟨p,hp,hpid,hpc,c,(Shm.getContext_mem hget).1,rfl,Shm.getContext_mapped hget⟩ hs
  | resume pid =>
    simp only [Locks.step,bind_eq_bind,bind_eq_some_iff] at hs
    obtain ⟨x,hx,hs⟩ := hs
    exact (h.wake x).waitRegion (h.waits x (mem_append_right _ (List.mem_of_find?_eq_some hx))) hs
  | unlock pid name =>
    simp only [Locks.step,bind_eq_bind,ite_none_left_eq_some,bind_eq_some_iff] at hs
    obtain ⟨-,p,-,hs⟩ := hs
    cases hs
    exact h.unlockRegion
  | call o =>
    simp only [Locks.step,bind_eq_bind,ite_none_left_eq_some,bind_eq_some_iff] at hs
    obtain ⟨hact,out,hout,hs⟩ := hs
    cases hs
    exact h.call (by simpa using hact) hout

lemma move_some (h : w.move o = some w') : ∃ ret, w.step o = some (w',ret) := by
  obtain ⟨⟨w1,ret⟩,hs,rfl⟩ := Option.map_eq_some_iff.mp h
  exact ⟨ret,hs⟩

lemma init_sound : init.Sound :=
  ⟨Shm.init_inv,Shm.init_noded,by simp [init,Shm.init],by simp [init],by simp [init,Shm.init],by simp [init,Shm.init],
    by simp [init],fun l1 l2 l3 t k e h => by simp [init] at h⟩

lemma run_sound {ops : List Op} (h : run ops = some w) : w.Sound := by
  refine Run.invariant (P := Sound) (fun w o w' hw hs => ?_) init_sound h
  obtain ⟨ret,hs⟩ := move_some hs
  exact hw.step hs

lemma unlockRegion_refused {tid : Nat} (h : w.Sound)
    (hno : ∀ c ∈ w.shm.ctable, c.name = name → ¬ Owns w.log tid c.id) :
    w.unlockRegion tid name = (w,.inval) ∨ w.unlockRegion tid name = (w,.notExist) := by
  simp only [Locks.unlockRegion]
  split
  · exact .inr rfl
  · rename_i c hget
    obtain ⟨hc,hname⟩ := Shm.getContext_mem hget
    split_ifs with hby
    · exact .inl rfl
    · exact absurd ((h.owner c hc tid).mp (not_not.mp hby)) (hno c hc hname)

lemma Waits.resumes (h : w.Sound) (hx : ∃ x ∈ w.woken, x.tid = pid) : (w.step (.resume pid)).isSome = true := by
  obtain ⟨x,hx,rfl⟩ := hx
  obtain ⟨y,hy⟩ := Option.isSome_iff_exists.mp
    (List.find?_isSome (p := fun y : Waiter => y.tid == x.tid) |>.mpr ⟨x,hx,beq_self_eq_true _⟩)
  obtain ⟨-,-,-,-,c,hc,hid,-⟩ := h.waits y (mem_append_right _ (List.mem_of_find?_eq_some hy))
  have hctx : w.shm.context y.ctx = some c := h.inv.ctxIds.lookup_eq hc hid
  simp only [Locks.step,hy,Locks.waitRegion,hctx,bind_eq_bind,Option.bind_some]
  split <;> rfl

theorem lock_exclusion (ops : List Op) (w : Locks) (h : run ops = some w) :
    Exclusive w.log ∧
    (∀ pid name w' ret, w.step (.unlock pid name) = some (w',ret) →
      (∀ c ∈ w.shm.ctable, c.name = name → ¬ Owns w.log pid c.id) →
      (ret = some .inval ∨ ret = some .notExist) ∧ w' = w) ∧
    ∀ x ∈ w.woken, (w.step (.resume x.tid)).isSome = true := by
  have hw := run_sound h
  refine ⟨hw.exclusive,fun pid name w' ret hs hno => ?_,fun x hx => Waits.resumes hw ⟨x,hx,rfl⟩⟩
  simp only [Locks.step,bind_eq_bind,ite_none_left_eq_some,bind_eq_some_iff] at hs
  obtain ⟨-,p,-,hs⟩ := hs
  cases hs
  rcases unlockRegion_refused hw hno with he | he
  · simp [he]
  · simp [he]

def fourSharers : List Op :=
  List.replicate 4 (.call (.spawn [⟨0,4096,0,0,true⟩])) ++
    [.call (.createSharedRegion 0 [65] 1 0 true),.call (.createSharedRegion 0 [66] 1 0 true)] ++
    [0,4,8,12].flatMap fun pid =>
      [.call (.createMapping pid [65] true true),.call (.createMapping pid [66] true true)]

def contended : List Op :=
  fourSharers ++ [.lock 0 [65],.lock 4 [65],.lock 8 [65],.unlock 0 [65],.resume 4,.unlock 4 [65]]

theorem lock_exclusion_contended : ∃ w, run contended = some w ∧
    w.log = [.locked 0 16,.unlocked 0 16,.locked 4 16,.unlocked 4 16] ∧ w.woken = [⟨8,16⟩] ∧ Exclusive w.log ∧
    (w.step (.resume 8)).isSome = true := by
  have hrun : (run contended).any (fun w => decide (w.log = [.locked 0 16,.unlocked 0 16,.locked 4 16,.unlocked 4 16]) &&
      decide (w.woken = [⟨8,16⟩])) = true := by decide +kernel
  obtain ⟨w,hw,hok⟩ := (Option.any_eq_true _ _).mp hrun
  simp only [Bool.and_eq_true,decide_eq_true_eq] at hok
  obtain ⟨hex,-,hres⟩ := lock_exclusion contended w hw
  exact ⟨w,hw,hok.1,hok.2,hex,hres ⟨8,16⟩ (by simp [hok.2])⟩

theorem handles_unique_and_regions_apart (ops : List Op) (w : Locks) (h : run ops = some w) :
    (∀ c ∈ w.shm.ctable, ∀ d ∈ w.shm.ctable, c.name = d.name → c = d) ∧
      ∀ p ∈ w.shm.procs, ∀ e ∈ p.spaces, ∀ r ∈ e.2.regions, ∀ r' ∈ e.2.regions, r.shared = true → r'.shared = true →
        r.id ≠ r'.id → r.stop ≤ r'.start ∨ r'.stop ≤ r.start := by
  have hw := run_sound h
  exact ⟨fun c hc d hd hn => hw.inv.ctxIds.eq hc hd (hw.named c hc d hd hn),fun p hp => (hw.inv.proc p hp).disjoint⟩

theorem handles_unique_contended : ∃ w, run contended = some w ∧ w.shm.ctable.length = 2 ∧
    ∀ c ∈ w.shm.ctable, ∀ d ∈ w.shm.ctable, c.name = d.name → c = d := by
  have hrun : (run contended).any (fun w => decide (w.shm.ctable.length = 2)) = true := by decide +kernel
  obtain ⟨w,hw,hok⟩ := (Option.any_eq_true _ _).mp hrun
  exact ⟨w,hw,of_decide_eq_true hok,(handles_unique_and_regions_apart contended w hw).1⟩

end Locks
end MappedMemory
