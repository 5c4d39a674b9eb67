import MappedMemory.Ptable.Table

namespace MappedMemory.Ptable

open Function (update_of_ne update_self)
open Option (bind_eq_bind bind_some isSome_iff_exists)

def Exited (t : Table) (child : Nat) : Prop := ∃ c, t.procs child = some c ∧ c.phase = .exited

structure Caller (t : Table) (pid : Nat) (p : Proc) : Prop where
  found : t.procs pid = some p
  running : p.phase = .running
  apart : pid ∉ p.children
  present : ∀ child ∈ p.children, (t.procs child).isSome
  alive : ∀ child ∈ p.children, ∀ c ∈ t.procs child, c.phase ≠ .exited → c.exitStatus = statusAlive

structure Reaped (t : Table) (pid : Nat) (p : Proc) (child : Nat) (u : Table) : Prop where
  listed : child ∈ p.children
  exited : Exited t child
  reported : ∃ c, t.procs child = some c ∧ u.reports = t.reports ++ [(child,c.exitStatus)]
  caller : u.procs pid = some { p with children := p.children.erase child }
  freed : u.procs child = none
  others : ∀ q, q ≠ pid → q ≠ child → u.procs q = t.procs q

structure WaitsForAny (t : Table) (pid : Nat) (p : Proc) (u : Table) : Prop where
  errChild : u = t ↔ p.children = []
  sleeps : (∃ q child, u.procs pid = some q ∧ q.phase = .waiting child) → ∀ child ∈ p.children, ¬Exited t child
  returns : (∃ child ∈ p.children, Exited t child) → ∃ child, Reaped t pid p child u

section
variable {t u : Table} {pid child : Nat} {p c : Proc}

section
variable (h : Caller t pid p)
include h

lemma procWait_any :
    procWait t pid none = match p.children.getLast? with | none => some t | some child => reap t pid child := by
  cases hl : p.children.getLast? <;>
    simp [procWait,h.found,h.running,findChild,hl]

lemma reap_sleeps (hc : t.procs child = some c) (ha : c.exitStatus = statusAlive) (hr : reap t pid child = some u) :
    u.procs pid = some { p with phase := .waiting child } := by
  simp only [reap,h.found,hc,bind_eq_bind,bind_some,ha,if_true] at hr
  cases hr
  exact update_self ..

lemma reap_reaped (hm : child ∈ p.children) (hc : t.procs child = some c)
    (ha : c.exitStatus ≠ statusAlive) (hr : reap t pid child = some u) : Reaped t pid p child u := by
  have hne : child ≠ pid := fun e => h.apart (e ▸ hm)
  have hx : c.phase = .exited := by
    by_contra hx
    exact ha (h.alive child hm c hc hx)
  simp only [reap,h.found,hc,bind_eq_bind,bind_some,ha,if_false,procFree,setProc,
    update_of_ne hne] at hr
  cases hr
  refine ⟨hm,⟨c,hc,hx⟩,⟨c,hc,rfl⟩,?_,update_self ..,fun q hq hqc => ?_⟩
  · simp only [update_of_ne hne.symm,update_self,← h.running]
  · simp only [update_of_ne hqc,update_of_ne hq]

lemma reap_isSome (hm : child ∈ p.children) : (reap t pid child).isSome := by
  obtain ⟨c,hc⟩ := isSome_iff_exists.mp (h.present child hm)
  have hne : child ≠ pid := fun e => h.apart (e ▸ hm)
  simp only [reap,h.found,hc,bind_eq_bind,bind_some]
  split
  · rfl
  · simp only [procFree,setProc,update_of_ne hne,hc,bind_eq_bind,bind_some,Option.isSome_some]

lemma Reaped.running (hr : Reaped t pid p child u) : ¬∃ q child, u.procs pid = some q ∧ q.phase = .waiting child := by
  rintro ⟨q,c,hq,hw⟩
  cases hr.caller.symm.trans hq
  exact Phase.noConfusion (h.running.symm.trans hw)

end

lemma Reaped.ne (hr : Reaped t pid p child u) : u ≠ t := by
  rintro rfl
  obtain ⟨c,hc,-⟩ := hr.exited
  exact Option.some_ne_none _ (hc.symm.trans hr.freed)

theorem wait_any_iff (h : Caller t pid p) :
    (∃ u, procWait t pid none = some u ∧ WaitsForAny t pid p u) ↔
      ((∃ child ∈ p.children, Exited t child) →
        ∃ child c, p.children.getLast? = some child ∧ t.procs child = some c ∧ c.exitStatus ≠ statusAlive) := by
  rw [procWait_any h]
  match hl : p.children.getLast? with
  | none =>
    have hnil : p.children = [] := List.getLast?_eq_none_iff.mp hl
    simp only [hnil,List.not_mem_nil,false_and,exists_false,IsEmpty.forall_iff,iff_true]
    exact ⟨t,rfl,iff_of_true rfl hnil,by simp [hnil],by simp [hnil]⟩
  | some child =>
    have hm : child ∈ p.children := List.mem_of_getLast? hl
    have hne : p.children ≠ [] := List.ne_nil_of_mem hm
    obtain ⟨c,hc⟩ := isSome_iff_exists.mp (h.present child hm)
    obtain ⟨u,hu⟩ := isSome_iff_exists.mp (reap_isSome h hm)
    by_cases ha : c.exitStatus = statusAlive
    · have hw := reap_sleeps h hc ha hu
      constructor
      · rintro ⟨v,hv,law⟩ ⟨x,hx,he⟩
        cases hu.symm.trans hv
        exact absurd he (law.sleeps ⟨_,child,hw,rfl⟩ x hx)
      · intro hlast
        have hnone : ∀ x ∈ p.children, ¬Exited t x := by
          intro x hx he
          obtain ⟨y,d,hy,hd,hs⟩ := hlast ⟨x,hx,he⟩
          cases hy
          cases hc.symm.trans hd
          exact hs ha
        refine ⟨u,hu,iff_of_false ?_ hne,fun _ => hnone,fun ⟨x,hx,he⟩ => absurd he (hnone x hx)⟩
        rintro rfl
        have hp := Option.some_inj.mp (h.found.symm.trans hw)
        exact Phase.noConfusion (h.running.symm.trans (congrArg Proc.phase hp))
    · have hr := reap_reaped h hm hc ha hu
      exact iff_of_true ⟨u,hu,iff_of_false hr.ne hne,fun hs => absurd hs (hr.running h),fun _ => ⟨child,hr⟩⟩
        fun _ => ⟨child,c,rfl,hc,ha⟩

end

def twoChildren (first last : Proc) : Table where
  procs pid := [{ procInit .running with children := [1,2] },first,last][pid]?
  ptable := [0,1,2]
  pidAllocator := 3
  freed := []
  exits := []
  reports := []

def finished : Proc := { procInit .exited with exitStatus := 7 }

theorem wait_any_reaps : ∃ u, procWait (twoChildren (procInit .running) finished) 0 none = some u ∧
    WaitsForAny (twoChildren (procInit .running) finished) 0 { procInit .running with children := [1,2] } u :=
  (wait_any_iff ⟨rfl,rfl,by decide,by decide,by decide⟩).mpr fun _ => ⟨2,finished,rfl,rfl,by decide⟩

theorem wait_any_sleeps : ∃ u, run [.fork 0,.enter 0,.fork 0,.enter 0,.exit 1 7,.wait 0 none] = some u ∧
    (u.procs 0).map Proc.phase = some (.waiting 2) ∧ (u.procs 1).map Proc.phase = some .exited ∧
    (u.procs 0).map Proc.children = some [1,2] :=
  ⟨_,rfl,rfl,rfl,rfl⟩

end MappedMemory.Ptable
