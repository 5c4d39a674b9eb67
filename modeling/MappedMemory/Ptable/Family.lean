import MappedMemory.Library.Forest
import MappedMemory.Ptable.Table

namespace MappedMemory.Ptable

open Function (update_apply update_of_ne update_self)
open Option (bind_eq_bind bind_eq_some_iff bind_some isSome_iff_exists map_some some_inj)

variable {t u : Table} {pid child w : Nat} {p q c : Proc} {status : Int} {l : List Nat} {o : Op}

def kids (t : Table) (pid : Nat) : Option (List Nat) := (t.procs pid).map Proc.children

structure Tree (t : Table) : Prop where
  forest : Forest initPid (kids t)
  init : ∃ p, t.procs initPid = some p ∧ p.exitStatus = statusAlive
  listed : initPid ∈ t.ptable
  bound : ∀ pid p, t.procs pid = some p → pid < t.pidAllocator
  older : ∀ pid p child, t.procs pid = some p → child ∈ p.children → pid < child

structure Sync (t : Table) : Prop where
  dead : ∀ pid p, t.procs pid = some p → p.exitStatus ≠ statusAlive →
    p.children = [] ∧ p.waitCv = [] ∧ p.phase = .exited
  waits : ∀ pid p w, t.procs pid = some p → w ∈ p.waitCv → ∃ q, t.procs w = some q ∧ q.phase = .waiting pid
  queued : ∀ w q pid, t.procs w = some q → q.phase = .waiting pid → ∃ p, t.procs pid = some p ∧ w ∈ p.waitCv
  cv : ∀ pid p, t.procs pid = some p → p.waitCv.Nodup
  holds : ∀ w q pid, t.procs w = some q → q.phase = .waiting pid ∨ q.phase = .woken pid ∨ q.phase = .forking pid →
    pid ∈ q.children
  starts : ∀ w q pid, t.procs w = some q → q.phase = .forking pid → ∃ p, t.procs pid = some p ∧ p.phase = .starting

structure Log (t : Table) : Prop where
  counts : ∀ pid, (t.freed.map Prod.fst).count pid = if pid < t.pidAllocator ∧ t.procs pid = none then 1 else 0
  clean : ∀ r ∈ t.freed, r.2.exitStatus ≠ statusAlive ∧ r.2.waitCv = [] ∧ (r.1,r.2.exitStatus) ∈ t.exits
  exited : ∀ pid p, t.procs pid = some p → p.exitStatus ≠ statusAlive → (pid,p.exitStatus) ∈ t.exits
  once : (t.exits.map Prod.fst).Nodup
  gone : ∀ r ∈ t.exits, r.1 < t.pidAllocator ∧ ∀ p, t.procs r.1 = some p → p.exitStatus ≠ statusAlive
  told : (t.reports.map Prod.fst).Nodup
  true : ∀ r ∈ t.reports, r ∈ t.exits ∧ t.procs r.1 = none

lemma Tree.kid (h : Tree t) (hp : t.procs pid = some p) (hc : child ∈ p.children) :
    (∃ c, t.procs child = some c) ∧ child ≠ initPid := by
  obtain ⟨hdom,hne⟩ := h.forest.mem pid child ⟨p.children,by rw [kids,hp]; rfl,hc⟩
  refine ⟨Option.ne_none_iff_exists'.mp fun hn => hdom ?_,hne⟩
  rw [kids,hn]
  rfl

lemma Sync.running (h : Sync t) (hp : t.procs pid = some p) (hr : p.phase ≠ .exited) : p.exitStatus = statusAlive := by
  by_contra hd
  exact hr (h.dead pid p hp hd).2.2

lemma Tree.parent (h : Tree t) (hp : t.procs pid = some p) (hq : t.procs w = some q) (hc : child ∈ p.children)
    (hc' : child ∈ q.children) : w = pid :=
  h.forest.unique w pid child ⟨q.children,by rw [kids,hq]; rfl,hc'⟩ ⟨p.children,by rw [kids,hp]; rfl,hc⟩

lemma adopt_some (h : adopt t pid = some u) : ∃ p, t.procs pid = some p ∧ p.phase = .running ∧
    u = { setProc (setProc t pid (some { p with
        children := p.children ++ [t.pidAllocator], phase := .forking t.pidAllocator }))
      t.pidAllocator (some (procInit .starting)) with pidAllocator := t.pidAllocator + 1 } := by
  simp only [adopt,Run.bind_some] at h
  obtain ⟨p,hp,h⟩ := h
  split at h
  · rename_i hr
    exact ⟨p,hp,hr,(some_inj.mp h).symm⟩
  · cases h

lemma Tree.fresh (h : Tree t) : t.procs t.pidAllocator = none := by
  by_contra hn
  obtain ⟨q,hq⟩ := Option.ne_none_iff_exists'.mp hn
  exact absurd (h.bound _ q hq) (lt_irrefl _)

lemma Sync.adopt (h : Sync t) (ht : Tree t) (hu : adopt t pid = some u) : Sync u := by
  obtain ⟨p,hp,hr,rfl⟩ := adopt_some hu
  have hnew := ht.fresh
  cases h
  constructor <;> simp only [setProc,update_apply,procInit] <;> grind

lemma Log.adopt (h : Log t) (ht : Tree t) (hu : Ptable.adopt t pid = some u) : Log u := by
  obtain ⟨p,hp,hr,rfl⟩ := adopt_some hu
  have hnew := ht.fresh
  cases h
  constructor <;> simp only [setProc,update_apply,procInit] <;> grind

lemma Tree.adopt (h : Tree t) (hu : Ptable.adopt t pid = some u) : Tree u := by
  obtain ⟨p,hp,hr,rfl⟩ := adopt_some hu
  have hk : kids t pid = some p.children := by rw [kids,hp]; rfl
  have hold := h.older
  refine ⟨h.forest.adopt hk (by rw [kids,h.fresh]; rfl) ?_,?_,h.listed,?_,?_⟩
  · funext k
    simp only [kids,setProc,update_apply,procInit]
    grind
  · have hb := h.bound
    obtain ⟨i,hi,ha⟩ := h.init
    simp only [setProc,update_apply,procInit]
    grind
  · have hb := h.bound
    simp only [setProc,update_apply,procInit]
    grind
  · have hb := h.bound
    simp only [setProc,update_apply,procInit]
    grind

lemma enter_some (h : enter t pid = some u) : ∃ p child c, t.procs pid = some p ∧ p.phase = .forking child ∧
    t.procs child = some c ∧ u = { setProc (setProc t pid (some { p with phase := .running })) child
      (some { c with phase := .running }) with ptable := t.ptable ++ [child] } := by
  simp only [enter,Run.bind_some] at h
  obtain ⟨p,hp,h⟩ := h
  split at h
  · rename_i child hf
    obtain ⟨c,hc,h⟩ := bind_eq_some_iff.mp h
    exact ⟨p,child,c,hp,hf,hc,(some_inj.mp h).symm⟩
  · cases h

lemma Sync.enter (h : Sync t) (ht : Tree t) (hu : enter t pid = some u) : Sync u := by
  obtain ⟨p,child,c,hp,hf,hc,rfl⟩ := enter_some hu
  have hpar := fun w q (hq : t.procs w = some q) => ht.parent hp hq (h.holds pid p child hp (.inr (.inr hf)))
  obtain ⟨h1,h2,h3,h4,h5,h6⟩ := h
  have hstart := h6 pid p child hp hf
  constructor <;> simp only [setProc,update_apply] <;> grind

lemma Log.same (h : Log t) (hlen : u.pidAllocator = t.pidAllocator) (hf : u.freed = t.freed) (he : u.exits = t.exits)
    (hr : u.reports = t.reports) (hs : ∀ k, (u.procs k).map Proc.exitStatus = (t.procs k).map Proc.exitStatus) :
    Log u := by
  have hnone : ∀ k, u.procs k = none ↔ t.procs k = none := fun k => by
    have := hs k
    cases hu : u.procs k <;> cases ht : t.procs k <;> simp_all
  have hsome : ∀ k p, u.procs k = some p → ∃ q, t.procs k = some q ∧ q.exitStatus = p.exitStatus := fun k p hp => by
    have := hs k
    rw [hp,map_some] at this
    exact Option.map_eq_some_iff.mp this.symm
  cases h
  constructor <;> simp only [hlen,hf,he,hr,hnone] <;> grind

lemma Log.enter (h : Log t) (hu : Ptable.enter t pid = some u) : Log u := by
  obtain ⟨p,child,c,hp,hf,hc,rfl⟩ := enter_some hu
  refine h.same rfl rfl rfl rfl fun k => ?_
  simp only [setProc,update_apply]
  grind

lemma Tree.enter (h : Tree t) (hu : Ptable.enter t pid = some u) : Tree u := by
  obtain ⟨p,child,c,hp,hf,hc,rfl⟩ := enter_some hu
  obtain ⟨i,hi,ha⟩ := h.init
  have hb := h.bound
  have hold := h.older
  refine ⟨?_,?_,List.mem_append_left _ h.listed,?_,?_⟩
  · refine cast (congrArg _ (funext fun k => ?_)) h.forest
    simp only [kids,setProc,update_apply]
    grind
  · simp only [setProc,update_apply]
    grind
  · simp only [setProc,update_apply]
    grind
  · simp only [setProc,update_apply]
    grind

structure Inv (t : Table) : Prop extends Tree t, Sync t, Log t

lemma procFree_some (h : procFree t pid = some u) : ∃ p, t.procs pid = some p ∧
    u = { setProc t pid none with freed := t.freed ++ [(pid,p)] } := by
  simp only [procFree,Run.bind_some] at h
  obtain ⟨p,hp,h⟩ := h
  exact ⟨p,hp,(some_inj.mp h).symm⟩

lemma Inv.block (h : Inv t) (hp : t.procs pid = some p) (hc : t.procs child = some c) (hin : child ∈ p.children)
    (hr : p.phase = .running ∨ p.phase = .woken child) (ha : c.exitStatus = statusAlive) :
    Inv (setProc (setProc t child (some { c with waitCv := c.waitCv ++ [pid] })) pid
      (some { p with phase := .waiting child })) := by
  have hne : pid ≠ child := (h.older pid p child hp hin).ne
  have hpar := fun w q (hq : t.procs w = some q) => h.toTree.parent hp hq hin
  have hfree : pid ∉ c.waitCv := fun hm => by
    obtain ⟨q,hq,hph⟩ := h.waits child c pid hc hm
    grind
  obtain ⟨i,hi,hia⟩ := h.init
  refine ⟨⟨?_,?_,h.listed,?_,?_⟩,?_,?_⟩
  · refine cast (congrArg _ (funext fun k => ?_)) h.forest
    simp only [kids,setProc,update_apply]
    grind
  · simp only [setProc,update_apply]
    grind
  · have hb := h.bound
    simp only [setProc,update_apply]
    grind
  · have hold := h.older
    simp only [setProc,update_apply]
    grind
  · cases h.toSync
    constructor <;> simp only [setProc,update_apply] <;> grind
  · refine h.toLog.same rfl rfl rfl rfl fun k => ?_
    simp only [setProc,update_apply]
    grind

def buried (t : Table) (pid child : Nat) (p c : Proc) (reports : List (Nat × Int)) : Table :=
  { setProc (setProc t pid (some { p with children := p.children.erase child, phase := .running })) child none with
    freed := t.freed ++ [(child,c)], reports := reports }

lemma Inv.bury {reports : List (Nat × Int)} (h : Inv t) (hp : t.procs pid = some p) (hc : t.procs child = some c)
    (hin : child ∈ p.children) (hr : p.phase = .running ∨ p.phase = .woken child) (hd : c.exitStatus ≠ statusAlive)
    (hrep : reports = t.reports ∨ reports = t.reports ++ [(child,c.exitStatus)]) :
    Inv (buried t pid child p c reports) := by
  have hne : pid ≠ child := (h.older pid p child hp hin).ne
  have hpar := fun w q (hq : t.procs w = some q) => h.toTree.parent hp hq hin
  obtain ⟨hkids,hcv,hex⟩ := h.dead child c hc hd
  have hinit := (h.toTree.kid hp hin).2
  have hb := h.bound
  have hmem : ∀ x, x ∈ p.children.erase child → x ∈ p.children := fun x => List.mem_of_mem_erase
  have hmem' : ∀ x, x ≠ child → x ∈ p.children → x ∈ p.children.erase child := fun x hx => (List.mem_erase_of_ne hx).mpr
  refine ⟨⟨?_,?_,h.listed,?_,?_⟩,?_,?_⟩
  · refine h.forest.drop (o := pid) (c := child) (l := p.children) (by rw [kids,hp]; rfl) hin
      (by rw [kids,hc,map_some,hkids]) (funext fun k => ?_)
    simp only [kids,buried,setProc,update_apply]
    grind
  · obtain ⟨i,hi,hia⟩ := h.init
    simp only [buried,setProc,update_apply]
    grind
  · simp only [buried,setProc,update_apply]
    grind
  · have hold := h.older
    simp only [buried,setProc,update_apply]
    grind
  · cases h.toSync
    constructor <;> simp only [buried,setProc,update_apply] <;> grind
  · obtain ⟨h1,h2,h3,h4,h5,h6,h7⟩ := h.toLog
    have hcount : ∀ k, ((t.freed ++ [(child,c)]).map Prod.fst).count k =
        (t.freed.map Prod.fst).count k + if child = k then 1 else 0 := fun k => by
      simp [List.count_append,List.count_singleton]
    have hnot : child ∉ t.reports.map Prod.fst := fun hm => by
      obtain ⟨r,hrin,rfl⟩ := List.mem_map.mp hm
      simp [(h7 r hrin).2] at hc
    have htold : (reports.map Prod.fst).Nodup := by
      rcases hrep with rfl | rfl
      · exact h6
      · rw [List.map_append]
        exact List.Nodup.append h6 (by simp) (by simpa using hnot)
    constructor <;> simp only [buried,setProc,update_apply,hcount] <;> grind

def inherited (t : Table) (pid child : Nat) (p i : Proc) : Table :=
  setProc (setProc t pid (some { p with children := p.children.erase child })) initPid
    (some { i with children := i.children ++ [child] })

section
variable (h : Inv t) (hp : t.procs pid = some p)
include h hp

lemma Inv.inherit {i : Proc} (hi : t.procs initPid = some i)
    (hin : child ∈ p.children) (hr : p.phase = .running) (hne : pid ≠ initPid) : Inv (inherited t pid child p i) := by
  have hb := h.bound
  have hmem : ∀ x, x ∈ p.children.erase child → x ∈ p.children := fun x => List.mem_of_mem_erase
  have hinit := (h.toTree.kid hp hin).2
  have hpos : initPid < child := Nat.pos_of_ne_zero hinit
  refine ⟨⟨?_,?_,h.listed,?_,?_⟩,?_,?_⟩
  · refine h.forest.move (o := pid) (c := child) (l := p.children)
      (by rw [kids,hp]; rfl) hin (by rw [kids,hi]; rfl) hne (funext fun k => ?_)
    simp only [kids,inherited,setProc,update_apply]
    grind
  · obtain ⟨i',hi',hia⟩ := h.init
    simp only [inherited,setProc,update_apply]
    grind
  · simp only [inherited,setProc,update_apply]
    grind
  · have hold := h.older
    simp only [inherited,setProc,update_apply]
    grind
  · obtain ⟨i',hi',hia⟩ := h.init
    cases h.toSync
    constructor <;> simp only [inherited,setProc,update_apply] <;> grind
  · refine h.toLog.same rfl rfl rfl rfl fun k => ?_
    simp only [inherited,setProc,update_apply]
    grind

lemma Inv.reap (hin : child ∈ p.children)
    (hr : p.phase = .running ∨ p.phase = .woken child) (hu : reap t pid child = some u) : Inv u := by
  have hne : child ≠ pid := (h.older pid p child hp hin).ne'
  simp only [Ptable.reap,Run.bind_some] at hu
  obtain ⟨p',hp',c,hc,hu⟩ := hu
  cases hp.symm.trans hp'
  split at hu
  · rename_i ha
    cases hu
    exact h.block hp hc hin hr ha
  · rename_i hd
    obtain ⟨c',hc',rfl⟩ := procFree_some hu
    simp only [setProc,update_of_ne hne] at hc'
    cases hc.symm.trans hc'
    exact h.bury hp hc hin hr hd (.inr rfl)

lemma Inv.disown (hin : child ∈ p.children) (hr : p.phase = .running)
    (hni : pid ≠ initPid) (hu : disown pid t child = some u) :
    Inv u ∧ u.procs pid = some { p with children := p.children.erase child } := by
  have hne : child ≠ pid := (h.older pid p child hp hin).ne'
  simp only [Ptable.disown,Run.bind_some] at hu
  obtain ⟨p',hp',c,hc,hu⟩ := hu
  cases hp.symm.trans hp'
  simp only [setProc,update_of_ne hne] at hc
  split at hu
  · obtain ⟨i,hi,hu⟩ := bind_eq_some_iff.mp hu
    simp only [setProc,update_of_ne (Ne.symm hni)] at hi
    cases hu
    refine ⟨h.inherit hp hi hin hr hni,?_⟩
    simp only [setProc,update_of_ne hni,update_self]
  · rename_i hd
    obtain ⟨c',hc',rfl⟩ := procFree_some hu
    simp only [setProc,update_of_ne hne] at hc'
    cases hc.symm.trans hc'
    have hb := h.bury hp hc hin (.inl hr) hd (.inl rfl)
    rw [buried,← hr] at hb
    refine ⟨hb,?_⟩
    simp only [setProc,update_of_ne (Ne.symm hne),update_self]

lemma Inv.disownAll (hl : p.children = l) (hr : p.phase = .running)
    (hni : pid ≠ initPid) (hu : l.foldlM (Ptable.disown pid) t = some u) :
    Inv u ∧ u.procs pid = some { p with children := [] } := by
  induction l generalizing t p with
  | nil =>
    obtain rfl : t = u := by simpa using hu
    exact ⟨h,by rw [hp,← hl]⟩
  | cons child l ih =>
    obtain ⟨v,hv,hu⟩ := Run.foldlM_cons_some.mp hu
    obtain ⟨hi,hpv⟩ := h.disown hp (hl ▸ List.mem_cons_self) hr hni hv
    rw [hl,List.erase_cons_head] at hpv
    have hrest := ih hi hpv rfl hr hu
    exact hrest

lemma Inv.waitCv_le : p.waitCv = [] ∨ ∃ w, p.waitCv = [w] := by
  have hnd := h.cv pid p hp
  have hone : ∀ w ∈ p.waitCv, ∀ w' ∈ p.waitCv, w = w' := by
    intro w hw w' hw'
    obtain ⟨q,hq,hph⟩ := h.waits pid p w hp hw
    obtain ⟨q',hq',hph'⟩ := h.waits pid p w' hp hw'
    exact h.toTree.parent hq' hq (h.holds w' q' pid hq' (.inl hph')) (h.holds w q pid hq (.inl hph))
  match hl : p.waitCv with
  | [] => exact .inl rfl
  | [w] => exact .inr ⟨w,rfl⟩
  | w :: w' :: rest =>
    rw [hl] at hone hnd
    have := hone w (by simp) w' (by simp)
    simp [this] at hnd

end

def exitProc (t : Table) (pid : Nat) (status : Int) : Option (Nat × Proc) → Table
  | none => { setProc t pid (some ⟨status,[],[],.exited⟩) with exits := t.exits ++ [(pid,status)] }
  | some (w,q) => { setProc (setProc t pid (some ⟨status,[],[],.exited⟩)) w (some { q with phase := .woken pid }) with
      exits := t.exits ++ [(pid,status)] }

def Wakes (t : Table) (pid : Nat) (p : Proc) (wake : Option (Nat × Proc)) : Prop :=
  p.waitCv = [] ∧ wake = none ∨
    ∃ w q, p.waitCv = [w] ∧ t.procs w = some q ∧ q.phase = .waiting pid ∧ wake = some (w,q)

lemma finish_some (h : Inv t) (hp : t.procs pid = some p) (hr : p.phase = .running) (hl : p.children = [])
    (hu : condvarSignal { setProc t pid (some { p with exitStatus := status, phase := .exited }) with
      exits := t.exits ++ [(pid,status)] } pid = some u) :
    ∃ wake, Wakes t pid p wake ∧ u = exitProc t pid status wake := by
  simp only [condvarSignal,setProc,update_self,bind_eq_bind,bind_some] at hu
  rcases h.waitCv_le hp with hw | ⟨w,hw⟩
  · simp only [hw,Option.some_inj] at hu
    refine ⟨none,.inl ⟨hw,rfl⟩,?_⟩
    rw [← hu,exitProc,setProc,hl]
  · obtain ⟨q,hq,hph⟩ := h.waits pid p w hp (by simp [hw])
    have hne : w ≠ pid := fun he => by
      rw [he,hp,Option.some_inj] at hq
      rw [← hq,hr] at hph
      cases hph
    simp only [hw,update_of_ne hne,hq,bind_some,Option.some_inj] at hu
    refine ⟨_,.inr ⟨w,q,hw,hq,hph,rfl⟩,?_⟩
    rw [← hu,exitProc,setProc,setProc,Function.update_idem,hl]

lemma Inv.exitProc {wake : Option (Nat × Proc)} (h : Inv t) (hp : t.procs pid = some p) (hr : p.phase = .running)
    (hl : p.children = []) (hni : pid ≠ initPid) (hs : status ≠ statusAlive) (hw : Wakes t pid p wake) :
    Inv (exitProc t pid status wake) := by
  have ha := h.toSync.running hp (by simp [hr])
  have hb := h.bound
  have hnew : pid ∉ t.exits.map Prod.fst := fun hm => by
    obtain ⟨r,hmem,rfl⟩ := List.mem_map.mp hm
    exact (h.gone r hmem).2 p hp ha
  have hqa : ∀ w q, t.procs w = some q → q.phase = .waiting pid → q.exitStatus = statusAlive :=
    fun w q hq hph => h.toSync.running hq (by simp [hph])
  rcases hw with ⟨hw,rfl⟩ | ⟨w,q,hw,hq,hph,rfl⟩
  all_goals
    refine ⟨⟨?_,?_,h.listed,?_,?_⟩,?_,?_⟩
    · refine cast (congrArg _ (funext fun k => ?_)) h.forest
      simp only [Ptable.exitProc,kids,setProc,update_apply]
      grind
    · obtain ⟨i,hi,hia⟩ := h.init
      simp only [Ptable.exitProc,setProc,update_apply]
      grind
    · simp only [Ptable.exitProc,setProc,update_apply]
      grind
    · have hold := h.older
      simp only [Ptable.exitProc,setProc,update_apply]
      grind
    · cases h.toSync
      constructor <;> simp only [Ptable.exitProc,setProc,update_apply] <;> grind
    · obtain ⟨h1,h2,h3,h4,h5,h6,h7⟩ := h.toLog
      have honce : ((t.exits ++ [(pid,status)]).map Prod.fst).Nodup := by
        rw [List.map_append]
        exact List.Nodup.append h4 (by simp) (by simpa using hnew)
      constructor <;> simp only [Ptable.exitProc,setProc,update_apply] <;> grind

lemma Inv.procExit (h : Inv t) (hni : pid ≠ initPid) (hs : status ≠ statusAlive)
    (hu : procExit t pid status = some u) : Inv u := by
  simp only [Ptable.procExit,Run.bind_some] at hu
  obtain ⟨p,hp,hu⟩ := hu
  split at hu
  · rename_i hr
    split at hu
    · rename_i hinit
      obtain ⟨v,hv,hu⟩ := bind_eq_some_iff.mp hu
      obtain ⟨p',hp',hu⟩ := bind_eq_some_iff.mp hu
      have herase : Inv { t with ptable := t.ptable.erase pid } :=
        ⟨⟨h.forest,h.init,hinit,h.bound,h.older⟩,⟨h.dead,h.waits,h.queued,h.cv,h.holds,h.starts⟩,
          ⟨h.counts,h.clean,h.exited,h.once,h.gone,h.told,h.true⟩⟩
      obtain ⟨hi,hpv⟩ := herase.disownAll hp rfl hr hni hv
      cases hpv.symm.trans hp'
      obtain ⟨wake,hw,rfl⟩ := finish_some hi hpv hr rfl hu
      exact hi.exitProc hpv hr rfl hni hs hw
    · cases hu
  · cases hu

lemma findChild_mem {target : Option Nat} (h : findChild l target = some child) : child ∈ l := by
  cases target with
  | none => exact List.mem_of_getLast? h
  | some k =>
    simp only [findChild] at h
    split at h
    · rename_i hk
      exact some_inj.mp h ▸ hk
    · cases h

lemma Inv.step (h : Inv t) (hu : step t o = some u) : Inv u := by
  cases o with
  | fork pid | spawn pid => exact ⟨h.toTree.adopt hu,h.toSync.adopt h.toTree hu,h.toLog.adopt h.toTree hu⟩
  | enter pid => exact ⟨h.toTree.enter hu,h.toSync.enter h.toTree hu,h.toLog.enter hu⟩
  | wait pid target =>
    simp only [Ptable.step,procWait,Run.bind_some] at hu
    obtain ⟨p,hp,hu⟩ := hu
    split at hu
    · rename_i hr
      split at hu
      · cases hu
        exact h
      · rename_i child hc
        exact h.reap hp (findChild_mem hc) (.inl hr) hu
    · cases hu
  | wake pid =>
    simp only [Ptable.step,Ptable.wake,Run.bind_some] at hu
    obtain ⟨p,hp,hu⟩ := hu
    split at hu
    · rename_i child hw
      exact h.reap hp (h.holds pid p child hp (.inr (.inl hw))) (.inr hw) hu
    · cases hu
  | exit pid status =>
    simp only [Ptable.step] at hu
    split at hu
    · rename_i hne
      exact h.procExit hne.1 hne.2 hu
    · cases hu

lemma inv_boot : Inv boot := by
  refine ⟨⟨⟨?_,?_,?_,?_,?_⟩,⟨procInit .running,rfl,rfl⟩,by decide,?_,?_⟩,⟨?_,?_,?_,?_,?_,?_⟩,⟨?_,?_,?_,?_,?_,?_,?_⟩⟩
  all_goals simp only [kids,Forest.Owns,boot,procInit,initPid]
  all_goals grind

def ready (t : Table) : Op → Prop
  | .fork pid | .spawn pid | .wait pid _ => ∃ p, t.procs pid = some p ∧ p.phase = .running
  | .enter pid => ∃ p child, t.procs pid = some p ∧ p.phase = .forking child
  | .wake pid => ∃ p child, t.procs pid = some p ∧ p.phase = .woken child
  | .exit pid status => pid ≠ initPid ∧ status ≠ statusAlive ∧ ∃ p, t.procs pid = some p ∧ p.phase = .running

section
variable (h : Inv t) (hp : t.procs pid = some p)
include h hp

lemma Inv.reap_isSome (hin : child ∈ p.children) : (Ptable.reap t pid child).isSome = true := by
  have hne : child ≠ pid := (h.older pid p child hp hin).ne'
  obtain ⟨⟨c,hc⟩,-⟩ := h.toTree.kid hp hin
  simp only [Ptable.reap,hp,hc,bind_eq_bind,bind_some]
  split
  · rfl
  · simp [procFree,setProc,update_of_ne hne,hc]

lemma Inv.disown_isSome (hin : child ∈ p.children) (hni : pid ≠ initPid) :
    (Ptable.disown pid t child).isSome = true := by
  have hne : child ≠ pid := (h.older pid p child hp hin).ne'
  obtain ⟨⟨c,hc⟩,-⟩ := h.toTree.kid hp hin
  obtain ⟨i,hi,-⟩ := h.init
  simp only [Ptable.disown,hp,setProc,bind_eq_bind,bind_some,update_of_ne hne,hc,
    update_of_ne (Ne.symm hni),hi]
  split
  · rfl
  · simp [procFree,update_of_ne hne,hc]

lemma Inv.disownAll_isSome (hl : p.children = l)
    (hr : p.phase = .running) (hni : pid ≠ initPid) : (l.foldlM (Ptable.disown pid) t).isSome = true := by
  induction l generalizing t p with
  | nil => rfl
  | cons child l ih =>
    have hin : child ∈ p.children := hl ▸ List.mem_cons_self
    obtain ⟨v,hv⟩ := isSome_iff_exists.mp (h.disown_isSome hp hin hni)
    obtain ⟨hi,hpv⟩ := h.disown hp hin hr hni hv
    rw [hl,List.erase_cons_head] at hpv
    rw [List.foldlM_cons,hv]
    exact ih hi hpv rfl hr

lemma Inv.procExit_isSome (hr : p.phase = .running) (hni : pid ≠ initPid) :
    (Ptable.procExit t pid status).isSome = true := by
  have hinit : initPid ∈ t.ptable.erase pid := (List.mem_erase_of_ne (Ne.symm hni)).mpr h.listed
  have herase : Inv { t with ptable := t.ptable.erase pid } :=
    ⟨⟨h.forest,h.init,hinit,h.bound,h.older⟩,⟨h.dead,h.waits,h.queued,h.cv,h.holds,h.starts⟩,
      ⟨h.counts,h.clean,h.exited,h.once,h.gone,h.told,h.true⟩⟩
  obtain ⟨v,hv⟩ := isSome_iff_exists.mp (herase.disownAll_isSome hp rfl hr hni)
  obtain ⟨hi,hpv⟩ := herase.disownAll hp rfl hr hni hv
  simp only [Ptable.procExit,hp,bind_eq_bind,bind_some,if_pos hr,if_pos hinit,hv,hpv,condvarSignal,setProc,
    update_self]
  split
  · rfl
  · rename_i w rest hw
    obtain ⟨q,hq,hph⟩ := hi.waits pid _ w hpv (by rw [hw]; exact List.mem_cons_self)
    have hne : w ≠ pid := fun he => by
      rw [he,hpv,Option.some_inj] at hq
      rw [← hq] at hph
      exact Phase.noConfusion (hr.symm.trans hph)
    simp [update_of_ne hne,hq]

end

lemma Inv.ready_isSome (h : Inv t) (hr : ready t o) : (Ptable.step t o).isSome = true := by
  cases o with
  | fork pid =>
    obtain ⟨p,hp,hph⟩ := hr
    simp [Ptable.step,procFork,Ptable.adopt,hp,hph]
  | spawn pid =>
    obtain ⟨p,hp,hph⟩ := hr
    simp [Ptable.step,procSpawn,Ptable.adopt,hp,hph]
  | enter pid =>
    obtain ⟨p,child,hp,hph⟩ := hr
    obtain ⟨⟨c,hc⟩,-⟩ := h.toTree.kid hp (h.holds pid p child hp (.inr (.inr hph)))
    simp [Ptable.step,Ptable.enter,hp,hph,hc]
  | wait pid target =>
    obtain ⟨p,hp,hph⟩ := hr
    simp only [Ptable.step,procWait,hp,bind_eq_bind,bind_some,if_pos hph]
    split
    · rfl
    · rename_i child hc
      exact h.reap_isSome hp (findChild_mem hc)
  | wake pid =>
    obtain ⟨p,child,hp,hph⟩ := hr
    simp only [Ptable.step,Ptable.wake,hp,hph,bind_eq_bind,bind_some]
    exact h.reap_isSome hp (h.holds pid p child hp (.inr (.inl hph)))
  | exit pid status =>
    obtain ⟨hni,hs,p,hp,hph⟩ := hr
    simp only [Ptable.step,if_pos (And.intro hni hs)]
    exact h.procExit_isSome hp hph hni

structure TreeLaws (t : Table) : Prop where
  one_list : ∀ pid c, t.procs pid = some c → pid ≠ initPid → ∃ owner p, t.procs owner = some p ∧
    p.exitStatus = statusAlive ∧ p.children.count pid = 1 ∧ ∀ o q, t.procs o = some q → pid ∈ q.children → o = owner
  freed_once : ∀ pid, (t.freed.map Prod.fst).count pid = if pid < t.pidAllocator ∧ t.procs pid = none then 1 else 0
  freed_after_exit : ∀ r ∈ t.freed, r.2.exitStatus ≠ statusAlive ∧ (r.1,r.2.exitStatus) ∈ t.exits ∧ r.2.waitCv = []
  waited_not_freed : ∀ w q pid, t.procs w = some q → q.phase = .waiting pid → t.procs pid ≠ none
  exits_once : (t.exits.map Prod.fst).Nodup
  reports_once : (t.reports.map Prod.fst).Nodup ∧ ∀ r ∈ t.reports, r ∈ t.exits
  defined : ∀ o, ready t o → (step t o).isSome = true

lemma Inv.laws (h : Inv t) : TreeLaws t where
  one_list pid c hc hne := by
    obtain ⟨o,l,hl,hin⟩ := h.forest.owned pid (by simp [kids,hc]) hne
    obtain ⟨p,hp,rfl⟩ := Option.map_eq_some_iff.mp hl
    refine ⟨o,p,hp,?_,List.count_eq_one_of_mem (h.forest.nodup o _ hl) hin,fun o' q hq hin' =>
      h.toTree.parent hp hq hin hin'⟩
    by_contra hd
    rw [(h.dead o p hp hd).1] at hin
    cases hin
  freed_once := h.counts
  freed_after_exit r hr := ⟨(h.clean r hr).1,(h.clean r hr).2.2,(h.clean r hr).2.1⟩
  waited_not_freed w q pid hq hph hn := by
    obtain ⟨p,hp,-⟩ := h.queued w q pid hq hph
    simp [hn] at hp
  exits_once := h.once
  reports_once := ⟨h.told,fun r hr => (h.true r hr).1⟩
  defined _ hr := h.ready_isSome hr

theorem process_tree {ops : List Op} (h : run ops = some t) : TreeLaws t :=
  (Run.invariant (fun _ _ _ hs hu => Inv.step hs hu) inv_boot h).laws

def familyRun : List Op :=
  [.fork 0,.enter 0,.fork 1,.enter 1,.fork 2,.enter 2,.wait 1 none,.exit 2 5,.wake 1,.fork 1,.enter 1,.exit 4 6,
    .exit 1 7,.wait 0 (some 1),.exit 3 8,.wait 0 none]

theorem process_tree_family : ∃ t, run familyRun = some t ∧ t.reports = [(2,5),(1,7),(3,8)] ∧
    t.freed.map Prod.fst = [2,4,1,3] ∧ TreeLaws t := by
  have hrun : (run familyRun).isSome = true := by decide +kernel
  obtain ⟨t,ht⟩ := isSome_iff_exists.mp hrun
  have hrep : (run familyRun).map Table.reports = some [(2,5),(1,7),(3,8)] := by decide +kernel
  have hfreed : (run familyRun).map (fun t => t.freed.map Prod.fst) = some [2,4,1,3] := by decide +kernel
  exact ⟨t,ht,by simpa [ht] using hrep,by simpa [ht] using hfreed,process_tree ht⟩

def Parent (t : Table) (owner child : Nat) : Prop :=
  ∃ p, t.procs owner = some p ∧ p.exitStatus = statusAlive ∧ child ∈ p.children

-- strong induction on the pid: a parent is older than its children
theorem every_process_descends_from_init {ops : List Op} {c : Proc} (h : run ops = some t) (hc : t.procs pid = some c) :
    Relation.ReflTransGen (Parent t) initPid pid := by
  have hi : Inv t := Run.invariant (fun _ _ _ hs hu => Inv.step hs hu) inv_boot h
  induction pid using Nat.strong_induction_on generalizing c with
  | _ pid ih =>
    by_cases hne : pid = initPid
    · rw [hne]
    · obtain ⟨o,p,hp,ha,hin,-⟩ := hi.laws.one_list pid c hc hne
      have hmem : pid ∈ p.children := List.count_pos_iff.mp (hin ▸ Nat.one_pos)
      exact (ih o (hi.older o p pid hp hmem) hp).tail ⟨p,hp,ha,hmem⟩

theorem grandchild_descends_from_init : ∃ t c, run [.fork 0,.enter 0,.fork 1] = some t ∧ t.procs 2 = some c ∧
    Relation.ReflTransGen (Parent t) initPid 2 :=
  ⟨_,_,rfl,rfl,every_process_descends_from_init (show run [.fork 0,.enter 0,.fork 1] = _ from rfl) rfl⟩

end MappedMemory.Ptable
