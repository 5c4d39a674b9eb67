import MappedMemory.Sched.Threads

namespace MappedMemory.Sched

variable {lockOf : Nat → Nat} {s u v : Sys} {c curr t : Nat} {st : ThreadState} {a : Act} {e : Event} {es : List Event}

def InLine (t : Nat) (s u : Sys) : Prop :=
  t ∈ u.readyQueue ∧ ∀ c, u.readyQueue.idxOf t + u.switches c ≤ s.readyQueue.idxOf t + s.switches c

def Served (lockOf : Nat → Nat) (t : Nat) (s : Sys) (es : List Event) : Prop :=
  ∃ es' es'' u c, es = es' ++ es'' ∧ es'.foldlM (step lockOf) s = some u ∧ u.thread c = some t

def Turn (t : Nat) (s u : Sys) : Prop := (∃ c, u.thread c = some t) ∨ InLine t s u

section
variable (ht : t ∈ s.readyQueue) (added : List Nat)
include ht

lemma Turn.append (hq : u.readyQueue = s.readyQueue ++ added) (hs : u.switches = s.switches) : Turn t s u :=
  .inr ⟨by simp [hq,ht],fun c => by rw [hq,hs,List.idxOf_append_of_mem ht]⟩

lemma Turn.leave (hu : leave v c curr st = some u) (hq : v.readyQueue = s.readyQueue ++ added)
    (hs : v.switches = s.switches) : Turn t s u := by
  have hv : t ∈ v.readyQueue := hq ▸ List.mem_append_left added ht
  rcases sched_some.mp hu with ⟨x,rest,hx,-,rfl⟩ | ⟨i,hx,-⟩
  · replace hx : v.readyQueue = x :: rest := hx
    by_cases hxt : x = t
    · exact .inl ⟨c,by simp [cpuSwitchThread,hxt]⟩
    · refine .inr ⟨show t ∈ rest by simpa [hx,Ne.symm hxt] using hv,fun d => ?_⟩
      rw [← List.idxOf_append_of_mem ht,← hq,hx,List.idxOf_cons_ne _ hxt,← hs]
      simp only [cpuSwitchThread,setState,Function.update_apply]
      split_ifs with hd
      · subst hd
        omega
      · omega
  · exact absurd hv (List.eq_nil_iff_forall_not_mem.mp hx t)

end

lemma Turn.perform (ht : t ∈ s.readyQueue) (hu : perform lockOf s c curr a = some u) : Turn t s u := by
  cases a with
  | sleep _ | exit => exact .leave ht [] hu (by simp) rfl
  | yield =>
    rw [Sched.perform,yield,if_neg (List.ne_nil_of_mem ht),requeue] at hu
    split_ifs at hu
    · exact .leave ht [] hu (by simp) rfl
    · exact .leave ht [curr] hu rfl rfl
  | signal cv | next cv =>
    cases hu
    rw [takeWaiter]
    split <;> exact .append ht [] (by simp [setPhase]) rfl
  | cleanup z =>
    simp only [Sched.perform,threadCleanup,Option.ite_none_left_eq_some,Option.some_inj] at hu
    exact hu.2 ▸ .append ht [] (by simp) rfl
  | start v | wake w k =>
    cases hu
    exact .append ht _ rfl rfl
  | _ =>
    cases hu
    exact .append ht [] (by simp [threadCreate,setPhase,resume,threadStart]) rfl

lemma Turn.step (ht : t ∈ s.readyQueue) (hu : step lockOf s e = some u) : Turn t s u := by
  cases e with
  | up c =>
    cases (Option.ite_none_right_eq_some.mp hu).2
    exact .append ht [] (by simp [schedStart]) rfl
  | act c a =>
    obtain ⟨v,-,-,hu⟩ := step_act.mp hu
    exact .perform ht hu

theorem ready_thread_waits_its_turn (ht : t ∈ s.readyQueue) (hu : es.foldlM (step lockOf) s = some u) :
    Served lockOf t s es ∨ InLine t s u := by
  induction es generalizing s with
  | nil =>
    cases hu
    exact .inr ⟨ht,fun _ => le_rfl⟩
  | cons e es ih =>
    obtain ⟨w,hw,hu⟩ := Run.foldlM_cons_some.mp hu
    rcases Turn.step ht hw with ⟨c,hc⟩ | ⟨htw,hle⟩
    · exact .inl ⟨[e],es,w,c,rfl,Run.foldlM_cons_some.mpr ⟨w,hw,rfl⟩,hc⟩
    · rcases ih htw hu with ⟨es',es'',v,c,rfl,hv,hc⟩ | ⟨htu,hle'⟩
      · exact .inl ⟨e :: es',es'',v,c,rfl,Run.foldlM_cons_some.mpr ⟨w,hw,hv⟩,hc⟩
      · exact .inr ⟨htu,fun c => (hle' c).trans (hle c)⟩

theorem ready_thread_waits_behind_another :
    ∃ s u, [.up 0,.act 0 .create,.act 0 .create,.act 0 (.start 2),.act 0 (.start 3)].foldlM (step id) boot = some s ∧
      [.act 0 .yield].foldlM (step id) s = some u ∧ (Served id 3 s [.act 0 .yield] ∨ InLine 3 s u) :=
  ⟨_,_,rfl,rfl,ready_thread_waits_its_turn (by decide) rfl⟩

end MappedMemory.Sched
