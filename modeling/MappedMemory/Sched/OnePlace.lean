import MappedMemory.Sched.Places

namespace MappedMemory.Sched

open Function (update update_of_ne update_self)
open Option (some_inj)

def Sys.list (s : Sys) : Option Nat → List Nat
  | none => s.readyQueue
  | some cv => s.waiters cv

inductive Place where
  | cpu (c : Nat) | queue | condvar (cv : Nat) | grave
deriving DecidableEq, Repr

def At (s : Sys) (t : Nat) : Place → Prop
  | .cpu c => s.thread c = some t
  | .queue => s.readyQueue.count t = 1 ∧ s.state t = some .ready
  | .condvar cv => (s.waiters cv).count t = 1 ∧ s.state t = some .sleeping
  | .grave => s.state t = some .zombie

def Quiet (s : Sys) : Prop := ∀ c t, s.thread c = some t → s.phase t = .run

structure Laws (lockOf : Nat → Nat) (s : Sys) : Prop where
  linkedOnce : ∀ l, (s.list l).Nodup
  linkedOne : ∀ l m t, t ∈ s.list l → t ∈ s.list m → l = m
  oneCpu : ∀ c d t, s.thread c = some t → s.thread d = some t → c = d
  placed : Quiet s → ∀ t, s.life t = .started → ∃! p, At s t p
  asserts : ∀ c t a, s.thread c = some t → allowed lockOf s c t a → (perform lockOf s c t a).isSome = true
  taken : ∀ e u cv w, step lockOf s e = some u → w ∈ s.waiters cv → w ∉ u.waiters cv → ∃ t k, u.phase t = .waking w k
  kept : ∀ e u t w k, step lockOf s e = some u → s.phase t = .waking w k →
    u.phase t = .waking w k ∨ (u.state w = some .ready ∧ w ∈ u.readyQueue)
  woken : ∀ t w k, s.phase t = .waking w k →
    ∃ (es : List Event) (u : Sys), es.length ≤ 4 ∧ es.foldlM (step lockOf) s = some u ∧ u.state w = some .ready ∧ w ∈ u.readyQueue

namespace Inv

variable {lockOf : Nat → Nat} {s u : Sys} {c t v : Nat} {w cv : Nat} {a : Act} {e : Event} {k : Option Nat}

lemma switched_phase {q rest : List Nat} (hn : Next s c t q w rest) (st : ThreadState)
    (g : Nat → Option (Nat × Nat)) (hv : v ≠ t) (hp : s.phase v ≠ .away) :
    (switched s c t st g w rest).phase v = s.phase v := by
  have hne : v ≠ w := by
    rintro rfl
    exact hp (by simpa [update_of_ne hv] using hn.away)
  exact (update_of_ne hne _ _).trans (update_of_ne hv _ _)

section
variable (h : Inv lockOf s)
include h

lemma frame (hc : s.thread c = some t) (ha : allowed lockOf s c t a)
    (hu : Sched.perform lockOf s c t a = some u) (hv : v ≠ t) (hp : s.phase v ≠ .away) : u.phase v = s.phase v := by
  have hset : ∀ p, update s.phase t p v = s.phase v := fun p => update_of_ne hv _ _
  cases a with
  | sleep cv =>
    obtain ⟨w,rest,hn,hw,-⟩ := h.sleep hc ha
    cases hw.symm.trans hu
    exact switched_phase hn _ _ hv hp
  | yield =>
    by_cases hq : s.readyQueue = []
    · cases (if_pos hq).symm.trans hu
      rfl
    · obtain ⟨q,w,rest,hn,hw,-⟩ := h.yield hc ha.1 ha.2 hq
      cases hw.symm.trans hu
      exact switched_phase hn _ _ hv hp
  | exit =>
    obtain ⟨w,rest,hn,hw,-⟩ := h.exit hc ha.1 ha.2.2.1 ha.2.2.2
    cases hw.symm.trans hu
    exact switched_phase hn _ _ hv hp
  | cleanup z =>
    simp only [Sched.perform,threadCleanup,Option.ite_none_left_eq_some,some_inj] at hu
    rw [← hu.2]
  | signal cv | next cv =>
    cases hu
    unfold Sched.takeWaiter
    split <;> exact hset _
  | create | start _ | acquire _ | release _ =>
    cases hu
    rfl
  | wait _ | enter _ | part _ | broadcast _ | wake _ _ | resume _ | «begin» =>
    cases hu
    exact hset _

lemma waiters_kept (hc : s.thread c = some t) (ha : allowed lockOf s c t a)
    (hu : Sched.perform lockOf s c t a = some u) (hw : w ∈ s.waiters cv) :
    w ∈ u.waiters cv ∨ ∃ k, u.phase t = .waking w k := by
  cases a with
  | sleep cw =>
    obtain ⟨x,rest,-,hx,-⟩ := h.sleep hc ha
    cases hx.symm.trans hu
    exact .inl hw
  | yield =>
    by_cases hq : s.readyQueue = []
    · cases (if_pos hq).symm.trans hu
      exact .inl hw
    · obtain ⟨q,x,rest,-,hx,-⟩ := h.yield hc ha.1 ha.2 hq
      cases hx.symm.trans hu
      exact .inl hw
  | exit =>
    obtain ⟨x,rest,-,hx,-⟩ := h.exit hc ha.1 ha.2.2.1 ha.2.2.2
    cases hx.symm.trans hu
    exact .inl hw
  | cleanup z =>
    simp only [Sched.perform,threadCleanup,Option.ite_none_left_eq_some,some_inj] at hu
    rw [← hu.2]
    exact .inl hw
  | wait cw =>
    cases hu
    by_cases he : cv = cw
    · subst he
      exact .inl (by simp [hw])
    · exact .inl (by simpa [update_of_ne he] using hw)
  | signal cw | next cw =>
    cases hu
    unfold Sched.takeWaiter
    split
    · exact .inl hw
    · next x ws hx =>
      by_cases he : cv = cw
      · subst he
        obtain rfl | hin := List.mem_cons.mp (hx ▸ hw)
        · exact .inr ⟨_,update_self _ _ _⟩
        · exact .inl (by simpa using hin)
      · exact .inl (by simpa [update_of_ne he] using hw)
  | create | start _ | acquire _ | release _ | enter _ | part _ | broadcast _ | wake _ _ | resume _ | «begin» =>
    cases hu
    exact .inl hw

lemma run {es : List Event} (hu : es.foldlM (Sched.step lockOf) s = some u) : Inv lockOf u :=
  Run.invariant (fun _ _ _ hs hstep => Inv.step hs hstep) h hu

lemma taken (hu : Sched.step lockOf s e = some u)
    (hw : w ∈ s.waiters cv) (hout : w ∉ u.waiters cv) : ∃ t k, u.phase t = .waking w k := by
  cases e with
  | up c =>
    simp only [Sched.step,Option.ite_none_right_eq_some,some_inj] at hu
    obtain ⟨-,rfl⟩ := hu
    exact absurd hw hout
  | act c a =>
    obtain ⟨t,hc,ha,hu⟩ := step_act.mp hu
    exact ⟨t,(h.waiters_kept hc ha hu hw).resolve_left hout⟩

lemma kept (hu : Sched.step lockOf s e = some u) (hp : s.phase t = .waking w k) :
    u.phase t = .waking w k ∨ (u.state w = some .ready ∧ w ∈ u.readyQueue) := by
  cases e with
  | up c =>
    simp only [Sched.step,Option.ite_none_right_eq_some,some_inj] at hu
    obtain ⟨-,rfl⟩ := hu
    have hne : t ≠ s.tidAllocator + 1 := by
      rintro rfl
      simp [h.unborn_away (h.born _ (Nat.lt_succ_self _))] at hp
    exact .inl ((update_of_ne hne _ _).trans hp)
  | act c a =>
    obtain ⟨x,hc,ha,hu⟩ := step_act.mp hu
    by_cases hx : t = x
    · subst hx
      cases a <;> simp [allowed,hp] at ha
      obtain ⟨⟨rfl,rfl⟩,-⟩ := ha
      cases hu
      exact .inr ⟨update_self _ _ _,by simp [setPhase,schedReady]⟩
    · exact .inl ((h.frame hc ha hu hx (by simp [hp])).trans hp)

lemma unlock_entered (hc : s.thread c = some t) (hp : s.phase t = .starting ∨ ∃ v, s.phase t = .resumed v) :
    ∃ e u, Sched.step lockOf s (.act c e) = some u ∧ u.schedLock = none ∧
      ∀ x, s.phase x ≠ .away → (s.phase x).inside = false → u.phase x = s.phase x := by
  have hstep : ∀ e u, allowed lockOf s c t e → Sched.perform lockOf s c t e = some u → u.schedLock = none →
      ∃ e u, Sched.step lockOf s (.act c e) = some u ∧ u.schedLock = none ∧
        ∀ x, s.phase x ≠ .away → (s.phase x).inside = false → u.phase x = s.phase x := by
    intro e u ha hu hl
    refine ⟨e,u,step_act.mpr ⟨t,hc,ha,hu⟩,hl,fun x hx hin => h.frame hc ha hu ?_ hx⟩
    rintro rfl
    obtain hp | ⟨v,hp⟩ := hp <;> simp [hp,Phase.inside] at hin
  obtain hp' | ⟨v,hp'⟩ := hp
  · exact hstep .begin _ hp' rfl rfl
  · exact hstep (.resume v) _ hp' rfl rfl

lemma unlock_parted (hc : s.thread c = some t) (hp : s.phase t = .parted cv) :
    ∃ (es : List Event) (u : Sys), es.length = 2 ∧ es.foldlM (Sched.step lockOf) s = some u ∧ u.schedLock = none ∧
      ∀ x, s.phase x ≠ .away → (s.phase x).inside = false → u.phase x = s.phase x := by
  obtain ⟨v,rest,hn,hu,hinv⟩ := h.sleep hc hp
  have hsame : ∀ x, s.phase x ≠ .away → (s.phase x).inside = false →
      (switched s c t .sleeping s.graves v rest).phase x = s.phase x := by
    intro x hx hin
    refine switched_phase hn _ _ ?_ hx
    rintro rfl
    simp [hp,Phase.inside] at hin
  have hc' : (switched s c t .sleeping s.graves v rest).thread c = some v := update_self _ _ _
  have hp' : (switched s c t .sleeping s.graves v rest).phase v = if s.fresh v then .starting else .resumed t :=
    update_self _ _ _
  obtain ⟨e,u,hstep,hl,hframe⟩ := hinv.unlock_entered hc' (by rw [hp']; split <;> simp)
  refine ⟨[.act c (.sleep cv),.act c e],u,rfl,?_,hl,fun x hx hin => ?_⟩
  · exact Run.foldlM_cons_some.mpr ⟨_,step_act.mpr ⟨t,hc,hp,hu⟩,Run.foldlM_cons_some.mpr ⟨u,hstep,rfl⟩⟩
  · have := hsame x hx hin
    exact (hframe x (this ▸ hx) (this ▸ hin)).trans this

lemma unlock (hl : s.schedLock = some c) :
    ∃ (es : List Event) (u : Sys), es.length ≤ 3 ∧ es.foldlM (Sched.step lockOf) s = some u ∧ u.schedLock = none ∧
      ∀ x, s.phase x ≠ .away → (s.phase x).inside = false → u.phase x = s.phase x := by
  obtain ⟨t,hc⟩ := h.cpus.up c hl
  have hin := (h.cpus.inside c t hc).mpr hl
  cases hp : s.phase t with
  | starting =>
    obtain ⟨e,u,hu,hrest⟩ := h.unlock_entered hc (.inl hp)
    exact ⟨[.act c e],u,by simp,Run.foldlM_cons_some.mpr ⟨u,hu,rfl⟩,hrest⟩
  | resumed v =>
    obtain ⟨e,u,hu,hrest⟩ := h.unlock_entered hc (.inr ⟨v,hp⟩)
    exact ⟨[.act c e],u,by simp,Run.foldlM_cons_some.mpr ⟨u,hu,rfl⟩,hrest⟩
  | parted cv =>
    obtain ⟨es,u,hlen,hrest⟩ := h.unlock_parted hc hp
    exact ⟨es,u,by omega,hrest⟩
  | locked cv =>
    have hpart : Sched.step lockOf s (.act c (.part cv)) = some _ := step_act.mpr ⟨t,hc,hp,rfl⟩
    have hparted : update s.phase t (.parted cv) t = .parted cv := update_self _ _ _
    obtain ⟨es,u,hlen,hrun,hfree,hframe⟩ := (h.step hpart).unlock_parted hc hparted
    refine ⟨.act c (.part cv) :: es,u,by simp [hlen],Run.foldlM_cons_some.mpr ⟨_,hpart,hrun⟩,hfree,fun x hx hout => ?_⟩
    have hne : x ≠ t := by
      rintro rfl
      simp [hp,Phase.inside] at hout
    have := h.frame hc (a := .part cv) hp rfl hne hx
    exact (hframe x (this ▸ hx) (this ▸ hout)).trans this
  | away | run | linked _ | broadcasting _ | waking _ _ => simp [hp,Phase.inside] at hin

lemma woken (hp : s.phase t = .waking w k) :
    ∃ (es : List Event) (u : Sys), es.length ≤ 4 ∧ es.foldlM (Sched.step lockOf) s = some u ∧ u.state w = some .ready ∧
      w ∈ u.readyQueue := by
  obtain ⟨es,v,hlen,hrun,hl,hsame⟩ : ∃ (es : List Event) (u : Sys), es.length ≤ 3 ∧ es.foldlM (Sched.step lockOf) s = some u ∧
      u.schedLock = none ∧ u.phase t = .waking w k := by
    cases hl : s.schedLock with
    | none => exact ⟨[],s,by simp,rfl,hl,hp⟩
    | some d =>
      obtain ⟨es,u,hlen,hrun,hfree,hframe⟩ := h.unlock hl
      exact ⟨es,u,hlen,hrun,hfree,(hframe t (by simp [hp]) (by simp [hp,Phase.inside])).trans hp⟩
  obtain ⟨c,hc⟩ := (h.run hrun).cpus.off t (by simp [hsame])
  have hwake : Sched.step lockOf v (.act c (.wake w k)) = some _ := step_act.mpr ⟨t,hc,⟨hsame,hl⟩,rfl⟩
  refine ⟨es ++ [.act c (.wake w k)],setPhase (schedReady v w) t (k.elim .run .broadcasting),
    by simpa using Nat.lt_succ_of_le hlen,?_,by simp [setPhase,schedReady,setState],by simp [setPhase,schedReady]⟩
  rw [List.foldlM_append,hrun]
  exact Run.foldlM_cons_some.mpr ⟨_,hwake,rfl⟩

lemma linked_one (l m : Option Nat) (hl : t ∈ s.list l) (hm : t ∈ s.list m) : l = m := by
  have hnot : ∀ cv, t ∈ s.readyQueue → t ∉ s.waiters cv := by
    intro cv hr hw
    have hready := h.places.ready t hr
    have hwait := h.places.wait cv t hw
    simp [hready.2.1,hready.2.2] at hwait
  cases l with
  | none => cases m with
    | none => rfl
    | some cw => exact absurd hm (hnot cw hl)
  | some cv => cases m with
    | none => exact absurd hl (hnot cv hm)
    | some cw => exact congrArg some (h.places.waitOne cv cw t hl hm)

lemma placed (hquiet : Quiet s) (ht : s.life t = .started) : ∃! p, At s t p := by
  have hrun : ∀ x, s.phase x ≠ .away → s.phase x = .run := fun x hx => by
    obtain ⟨c,hc⟩ := h.cpus.off x hx
    exact hquiet c x hc
  have hqueue : ∀ {l : List Nat}, l.count t = 1 → t ∈ l := fun hl => List.count_pos_iff.mp (by omega)
  by_cases hp : s.phase t = .away
  · have hcpu : ∀ c, ¬At s t (.cpu c) := fun c => h.on_away hp
    obtain ⟨hs,hq⟩ | ⟨hs,⟨cv,hcv⟩ | ⟨v,k,hv⟩⟩ | hs := h.places.placed t ht hp
    · refine ⟨.queue,⟨List.count_eq_one_of_mem h.places.readyOnce hq,hs⟩,fun p hat => ?_⟩
      cases p with
      | cpu c => exact absurd hat (hcpu c)
      | queue => rfl
      | condvar cv | grave => simp [At,hs] at hat
    · refine ⟨.condvar cv,⟨List.count_eq_one_of_mem (h.places.waitOnce cv) hcv,hs⟩,fun p hat => ?_⟩
      cases p with
      | cpu c => exact absurd hat (hcpu c)
      | condvar cw => exact congrArg _ (h.places.waitOne cw cv t (hqueue hat.1) hcv)
      | queue | grave => simp [At,hs] at hat
    · simp [hrun v (by simp [hv])] at hv
    · refine ⟨.grave,hs,fun p hat => ?_⟩
      cases p with
      | cpu c => exact absurd hat (hcpu c)
      | grave => rfl
      | queue | condvar cv => simp [At,hs] at hat
  · obtain ⟨c,hc⟩ := h.cpus.off t hp
    have hs := h.places.running t ht hp
    refine ⟨.cpu c,hc,fun p hat => ?_⟩
    cases p with
    | cpu d => exact congrArg _ (h.cpus.one d c t hat hc)
    | queue | condvar cv | grave => simp [At,hs] at hat

lemma laws : Laws lockOf s where
  linkedOnce l := by
    cases l with
    | none => exact h.places.readyOnce
    | some cv => exact h.places.waitOnce cv
  linkedOne l m _ := h.linked_one l m
  oneCpu := h.cpus.one
  placed hquiet _ := h.placed hquiet
  asserts c t a hc ha := by
    obtain ⟨u,hu,-⟩ := h.perform hc ha
    exact Option.isSome_iff_exists.mpr ⟨u,hu⟩
  taken _ _ _ _ := h.taken
  kept _ _ _ _ _ := h.kept
  woken _ _ _ := h.woken

end

end Inv

theorem every_thread_has_one_place {lockOf : Nat → Nat} {es : List Event} {s : Sys}
    (h : es.foldlM (step lockOf) boot = some s) : Laws lockOf s := ((boot_inv lockOf).run h).laws

def earlySignal : List Event :=
  [.up 0,.up 1,.act 0 .create,.act 0 (.start 3),.act 0 .yield,.act 0 .begin,.act 0 (.acquire 7),.act 0 (.wait 7),
    .act 0 (.enter 7),.act 0 (.part 7),.act 1 (.acquire 7),.act 1 (.signal 7),.act 0 (.sleep 7),.act 0 (.resume 3),
    .act 1 (.wake 3 none),.act 1 (.release 7)]

theorem every_thread_has_one_place_early_signal :
    ∃ s, earlySignal.foldlM (step id) boot = some s ∧ s.readyQueue = [3] ∧ s.state 3 = some .ready ∧ Laws id s := by
  have hrun : (earlySignal.foldlM (step id) boot).map (fun s => (s.readyQueue,s.state 3)) =
      some ([3],some .ready) := by decide +kernel
  obtain ⟨s,hs,he⟩ := Option.map_eq_some_iff.mp hrun
  simp only [Prod.mk_inj] at he
  exact ⟨s,hs,he.1,he.2,every_thread_has_one_place hs⟩

end MappedMemory.Sched
