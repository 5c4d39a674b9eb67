import MappedMemory.Sched.OnePlace

namespace MappedMemory.Sched

open Function (update update_apply update_of_ne)
open Option (mem_def some_inj)

structure Reclaimed (s : Sys) : Prop where
  next : ∀ z, s.life z = .started → s.state z = some .zombie →
    ∃ c t, s.graves z = some (c,s.switches c) ∧ s.thread c = some t ∧ (s.phase t = .resumed z ∨ s.dying t = [z])
  zombie : ∀ x ∈ s.cleanups, x.state = some .zombie
  prompt : ∀ x ∈ s.cleanups, s.graves x.thread = some (x.cpu,x.switches)
  once : (s.cleanups.map Cleanup.thread).Nodup
  freed : ∀ z, s.life z = .freed ↔ ∃ x ∈ s.cleanups, x.thread = z
  died : ∀ z g, s.graves z = some g → s.state z = some .zombie ∧ (s.life z = .started ∨ s.life z = .freed)

def careful (s : Sys) : Event → Prop
  | .act _ .exit => ∀ t ∈ s.readyQueue.head?, s.fresh t = false
  | .act c .yield => s.readyQueue = [] ∨ ∀ t ∈ s.thread c, s.dying t = []
  | _ => True

instance (s : Sys) (e : Event) : Decidable (careful s e) := by
  unfold careful
  split <;> infer_instance

section
variable (thread : Nat → Option Nat) (life : Nat → Life) (state : Nat → Option ThreadState) (phase : Nat → Phase)
  (dying : Nat → List Nat) (switches : Nat → Nat) (graves : Nat → Option (Nat × Nat)) (cleanups : List Cleanup)

structure Reaping : Prop where
  next : ∀ z, life z = .started → state z = some .zombie →
    ∃ c t, graves z = some (c,switches c) ∧ thread c = some t ∧ (phase t = .resumed z ∨ dying t = [z])
  calm : ∀ t, dying t = [] ∨ phase t = .run ∨ (∃ cv, phase t = .broadcasting cv) ∨ ∃ w k, phase t = .waking w k
  zombie : ∀ x ∈ cleanups, x.state = some .zombie
  prompt : ∀ x ∈ cleanups, graves x.thread = some (x.cpu,x.switches)
  once : (cleanups.map Cleanup.thread).Nodup
  freed : ∀ z, life z = .freed ↔ ∃ x ∈ cleanups, x.thread = z
  died : ∀ z g, graves z = some g → state z = some .zombie ∧ (life z = .started ∨ life z = .freed)

end

namespace Reaping

variable {thread : Nat → Option Nat} {life : Nat → Life} {state : Nat → Option ThreadState} {phase : Nat → Phase}
  {dying : Nat → List Nat} {switches : Nat → Nat} {graves : Nat → Option (Nat × Nat)} {cleanups : List Cleanup}
  {c t : Nat} {p : Phase} {v : Nat}

section
variable (h : Reaping thread life state phase dying switches graves cleanups)
include h

lemma create (ht : life t = .unborn) :
    Reaping thread (update life t .made) state phase dying switches graves cleanups := by
  cases h
  constructor <;> (try simp only [update_apply]) <;> grind

lemma start (ht : life t = .unborn) (hp : phase t = .away) (hc : thread c = none) :
    Reaping (update thread c (some t)) (update life t .idle) state (update phase t .run)
      dying switches graves cleanups := by
  cases h
  constructor <;> (try simp only [update_apply]) <;> grind

lemma startContext (ht : life t = .made) :
    Reaping thread (update life t .started) (update state t (some .ready)) phase dying switches
      graves cleanups := by
  cases h
  constructor <;> (try simp only [update_apply]) <;> grind

lemma wake (ht : state t = some .sleeping) :
    Reaping thread life (update state t (some .ready)) phase dying switches graves cleanups := by
  cases h
  constructor <;> (try simp only [update_apply]) <;> grind

lemma move (hp : ∀ v, phase t = .resumed v → state v ≠ some .zombie)
    (hq : dying t = [] ∨ p = .run ∨ (∃ cv, p = .broadcasting cv) ∨ ∃ w k, p = .waking w k) :
    Reaping thread life state (update phase t p) dying switches graves cleanups := by
  cases h
  constructor <;> (try simp only [update_apply]) <;> grind

lemma push (hp : phase t = .resumed v) :
    Reaping thread life state (update phase t .run) (update dying t (v :: dying t)) switches graves
      cleanups := by
  cases h
  constructor <;> (try simp only [update_apply]) <;> grind

lemma depart (hc : thread c = some t)
    (hp : ∀ v, phase t ≠ .resumed v) (hd : dying t = []) (hg : graves t = none) {st : ThreadState}
    (hst : st ≠ .zombie ∨ life t ≠ .started) :
    Reaping (update thread c none) life (update state t (some st)) (update phase t .away)
      dying (update switches c (switches c + 1)) graves cleanups := by
  cases h
  constructor <;> (try simp only [update_apply]) <;> grind

lemma arrive (hc : thread c = none) (hv : phase v = .away) (hg : graves v = none) :
    Reaping (update thread c (some v)) life (update state v (some .running))
      (update phase v p) dying switches graves cleanups := by
  cases h
  constructor <;> (try simp only [update_apply]) <;> grind

lemma bury (hc : thread c = some t)
    (hp : ∀ v, phase t ≠ .resumed v) (hd : dying t = []) (hl : life t = .started) (hv : phase v = .away) (hvt : v ≠ t) (hg : graves v = none) :
    Reaping (update thread c (some v)) life
      (update (update state t (some .zombie)) v (some .running))
      (update (update phase t .away) v (.resumed t)) dying
      (update switches c (switches c + 1)) (update graves t (some (c,switches c + 1))) cleanups := by
  cases h
  constructor <;> (try simp only [update_apply]) <;> grind

lemma pop {z : Nat} (hz : dying t = [z]) (hl : life z = .started) (hs : state z = some .zombie)
    (hg : graves z = some (c,switches c)) :
    Reaping thread (update life z .freed) state phase (update dying t []) switches graves
      (cleanups ++ [⟨z,state z,c,switches c⟩]) := by
  obtain ⟨h1,h2,h3,h4,h5,h6,h7⟩ := h
  constructor
  case freed =>
    intro v
    by_cases hv : v = z
    · simp [hv]
    · simp [update_of_ne hv,h6 v,Ne.symm hv]
  all_goals
    try simp only [update_apply]
    grind

end

end Reaping

structure Tidy (lockOf : Nat → Nat) (s : Sys) : Prop where
  inv : Inv lockOf s
  reaping : Reaping s.thread s.life s.state s.phase s.dying s.switches s.graves s.cleanups

lemma boot_tidy (lockOf : Nat → Nat) : Tidy lockOf boot := ⟨boot_inv lockOf,by constructor <;> simp [boot]⟩

namespace Tidy

variable {lockOf : Nat → Nat} {s u : Sys} {c t : Nat} {q rest : List Nat} {v z : Nat} {e : Event}

section
variable (h : Tidy lockOf s)
include h

lemma reclaimed : Reclaimed s :=
  ⟨h.reaping.next,h.reaping.zombie,h.reaping.prompt,h.reaping.once,h.reaping.freed,h.reaping.died⟩

lemma no_grave (ht : s.state t ≠ some .zombie ∨ s.life t = .idle) : s.graves t = none := by
  by_contra hg
  obtain ⟨g,hg⟩ := Option.ne_none_iff_exists'.mp hg
  have hdied := h.reaping.died t g hg
  obtain ht | ht := ht
  · exact ht hdied.1
  · simp [ht] at hdied

section
variable (hc : s.thread c = some t)
include hc

lemma current_no_grave : s.graves t = none := by
  refine h.no_grave ?_
  obtain hi | hl := h.inv.idles.on c t hc
  · exact .inr (h.inv.idles.kind c t hi)
  · exact .inl (by simp [h.inv.places.running t hl (h.inv.cpus.on c t hc)])

lemma next_no_grave (hn : Next s c t q v rest) : s.graves v = none := by
  obtain rfl | hv := hn.alive
  · exact h.current_no_grave hc
  · exact h.no_grave hv

lemma switched_reaping (hn : Next s c t q v rest) (hp : ∀ v, s.phase t ≠ .resumed v) (hd : s.dying t = []) {st : ThreadState}
    (hst : st ≠ .zombie) {p : Phase} : Reaping (update s.thread c (some v)) s.life
      (update (update s.state t (some st)) v (some .running))
      (update (update s.phase t .away) v p) s.dying
      (update s.switches c (s.switches c + 1)) s.graves s.cleanups := by
  have hdepart := h.reaping.depart hc hp hd (h.current_no_grave hc) (.inl hst)
  have harrive := hdepart.arrive (Function.update_self c none s.thread) hn.away (h.next_no_grave hc hn) (p := p)
  rwa [Function.update_idem] at harrive

lemma dying_one (hz : z ∈ s.dying t) : s.dying t = [z] ∧ s.graves z = some (c,s.switches c) := by
  obtain ⟨hl,hs,-⟩ := h.inv.zombies.dead t z hz
  obtain ⟨d,v,hg,hd,hv⟩ := h.reaping.next z hl hs
  obtain hv | hv := hv
  · exact absurd hz (h.inv.zombies.next v t z hv hs)
  · obtain rfl := h.inv.zombies.one t v z hz (by simp [hv])
    obtain rfl := h.inv.cpus.one d c t hd hc
    exact ⟨hv,hg⟩

lemma exit_reaping (hp : s.phase t = .run) (hd : s.dying t = [])
    (hi : s.idle c ≠ some t) (hn : Next s c t s.readyQueue v rest)
    (hok : ∀ v ∈ s.readyQueue.head?, s.fresh v = false) : Reaping (update s.thread c (some v)) s.life
      (update (update s.state t (some .zombie)) v (some .running))
      (update (update s.phase t .away) v (if s.fresh v then .starting else .resumed t)) s.dying
      (update s.switches c (s.switches c + 1))
      (update s.graves t (some (c,s.switches c + 1))) s.cleanups := by
  have hfresh : s.fresh v = false ∧ v ≠ t := by
    obtain hq | ⟨-,hv,hne⟩ := hn.first
    · refine ⟨hok v (by simp [hq]),?_⟩
      rintro rfl
      simp [h.inv.places.ready v (by simp [hq])] at hp
    · refine ⟨?_,hne⟩
      by_contra hf
      have hlife := h.inv.idles.kind c v hv
      simpa [hlife] using h.inv.idles.fresh v (by simpa using hf)
  have haway : s.phase v = .away := by simpa [update_of_ne hfresh.2] using hn.away
  have hbury := h.reaping.bury hc (by simp [hp]) hd (h.inv.started_of_not_idle hc hi) haway hfresh.2
    (h.next_no_grave hc hn)
  simpa [hfresh.1] using hbury

lemma perform_reaping {a : Act} (ha : allowed lockOf s c t a)
    (hok : careful s (.act c a)) (hu : perform lockOf s c t a = some u) :
    Reaping u.thread u.life u.state u.phase u.dying u.switches u.graves u.cleanups := by
  cases a with
  | create =>
    cases hu
    exact h.reaping.create (h.inv.born _ (Nat.lt_succ_self _))
  | start v =>
    cases hu
    exact h.reaping.startContext ha.2.1
  | acquire l | release l =>
    cases hu
    exact h.reaping
  | wait cv =>
    cases hu
    exact h.reaping.move (by simp [ha.1]) (.inl ha.2.1)
  | enter cv =>
    cases hu
    have hcalm := h.reaping.calm t
    simp only [ha.1,reduceCtorEq,exists_false,or_false] at hcalm
    exact h.reaping.move (by simp [ha.1]) (.inl hcalm)
  | part cv =>
    cases hu
    have hp : s.phase t = .locked cv := ha
    have hcalm := h.reaping.calm t
    simp only [hp,reduceCtorEq,exists_false,or_false] at hcalm
    exact h.reaping.move (by simp [hp]) (.inl hcalm)
  | sleep cv =>
    have hp : s.phase t = .parted cv := ha
    have hcalm := h.reaping.calm t
    simp only [hp,reduceCtorEq,exists_false,or_false] at hcalm
    obtain ⟨v,rest,hn,hv,-⟩ := h.inv.sleep hc hp
    cases hv.symm.trans hu
    exact h.switched_reaping hc hn (by simp [hp]) hcalm (by simp)
  | signal cv | next cv =>
    cases hu
    unfold takeWaiter
    split
    · exact h.reaping.move (by simp_all [allowed]) (.inr (.inl rfl))
    · exact h.reaping.move (by simp_all [allowed]) (.inr (.inr (.inr ⟨_,_,rfl⟩)))
  | broadcast cv =>
    cases hu
    exact h.reaping.move (by simp [ha.1]) (.inr (.inr (.inl ⟨cv,rfl⟩)))
  | wake w k =>
    cases hu
    have hs : s.state w = some .sleeping := by
      obtain ⟨-,⟨-,hs⟩ | ⟨cv,hcv⟩⟩ := h.inv.places.hand t w k ha.1
      · exact hs
      · simpa [hcv,Phase.inside] using h.inv.not_inside ha.2 (v := w)
    refine (h.reaping.wake hs).move (by simp [ha.1]) ?_
    cases k with
    | none => exact .inr (.inl rfl)
    | some cv => exact .inr (.inr (.inl ⟨cv,rfl⟩))
  | yield =>
    by_cases hq : s.readyQueue = []
    · cases (if_pos hq).symm.trans hu
      exact h.reaping
    · obtain ⟨q,v,rest,hn,hv,-⟩ := h.inv.yield hc ha.1 ha.2 hq
      cases hv.symm.trans hu
      exact h.switched_reaping hc hn (by simp [ha.1]) (hok.resolve_left hq t hc) (by simp)
  | exit =>
    obtain ⟨v,rest,hn,hv,-⟩ := h.inv.exit hc ha.1 ha.2.2.1 ha.2.2.2
    cases hv.symm.trans hu
    exact h.exit_reaping hc ha.1 ha.2.1 ha.2.2.1 hn hok
  | resume v =>
    cases hu
    have hp : s.phase t = .resumed v := ha
    by_cases hv : s.state v = some .zombie
    · simpa [resume,setPhase,hv] using h.reaping.push hp
    · have hmove := h.reaping.move (t := t) (p := .run) (by simpa [hp] using hv) (.inr (.inl rfl))
      simpa [resume,setPhase,hv] using hmove
  | «begin» =>
    cases hu
    have hp : s.phase t = .starting := ha
    exact h.reaping.move (by simp [hp]) (.inr (.inl rfl))
  | cleanup z =>
    have hz : z ∈ s.dying t := List.mem_of_head? ha.2
    obtain ⟨hone,hg⟩ := h.dying_one hc hz
    obtain ⟨hl,hs,-⟩ := h.inv.zombies.dead t z hz
    simp only [perform,threadCleanup,Option.ite_none_left_eq_some,some_inj] at hu
    obtain ⟨-,rfl⟩ := hu
    simpa [hone] using h.reaping.pop hone hl hs hg

end

lemma step (hok : careful s e) (hu : step lockOf s e = some u) : Tidy lockOf u := by
  refine ⟨h.inv.step hu,?_⟩
  cases e with
  | up c =>
    simp only [Sched.step,Option.ite_none_right_eq_some,some_inj] at hu
    obtain ⟨hc,rfl⟩ := hu
    have hborn := h.inv.born (s.tidAllocator + 1) (Nat.lt_succ_self _)
    exact h.reaping.start hborn (h.inv.unborn_away hborn) hc
  | act c a =>
    obtain ⟨t,hc,ha,hu⟩ := step_act.mp hu
    exact h.perform_reaping hc ha hok hu

lemma exit_spoiled (hc : s.thread c = some t) (ha : allowed lockOf s c t .exit) (hv : s.readyQueue.head? = some v) (hf : s.fresh v = true) (hu : perform lockOf s c t .exit = some u) :
    ¬Reclaimed u := by
  obtain ⟨w,rest,hn,hw,-⟩ := h.inv.exit hc ha.1 ha.2.2.1 ha.2.2.2
  cases hw.symm.trans hu
  obtain rfl : w = v := by
    obtain hq | hq := hn.head
    · simp [hq] at hv
    · simpa [hq] using hv
  have hne : t ≠ w := by
    rintro rfl
    exact h.inv.cpus.on c t hc (h.inv.places.ready t (List.mem_of_head? hv)).2.2
  intro hrec
  obtain ⟨d,x,hg,hd,hx⟩ := hrec.next t (h.inv.started_of_not_idle hc ha.2.2.1)
    (by simp [switched,cpuSwitchThread,setState,update_of_ne hne])
  obtain ⟨rfl,-⟩ : c = d ∧ _ := by simpa [switched,cpuSwitchThread,setState] using hg
  obtain rfl : w = x := by simpa [switched,cpuSwitchThread,setState] using hd
  obtain hx | hx := hx
  · simp [switched,cpuSwitchThread,setState,hf] at hx
  · have hdead := h.inv.zombies.dead w t (by simpa [switched,cpuSwitchThread,setState] using hx ▸ List.mem_singleton_self t)
    exact h.inv.cpus.on c t hc hdead.2.2

lemma yield_spoiled (hc : s.thread c = some t) (ha : allowed lockOf s c t .yield)
    (hq : s.readyQueue ≠ []) (hz : z ∈ s.dying t) (hu : perform lockOf s c t .yield = some u) : ¬Reclaimed u := by
  obtain ⟨q,v,rest,hn,hv,-⟩ := h.inv.yield hc ha.1 ha.2 hq
  cases hv.symm.trans hu
  obtain ⟨hl,hs,haway⟩ := h.inv.zombies.dead t z hz
  obtain ⟨-,hg⟩ := h.dying_one hc hz
  have hzt : z ≠ t := by
    rintro rfl
    exact h.inv.cpus.on c z hc haway
  have hzv : z ≠ v := by
    rintro rfl
    simp [h.next_no_grave hc hn] at hg
  intro hrec
  obtain ⟨d,x,hg',-,-⟩ := hrec.next z hl
    (by simpa [switched,cpuSwitchThread,setState,update_of_ne hzt,update_of_ne hzv] using hs)
  obtain ⟨rfl,he⟩ : c = d ∧ s.switches c = _ := by
    simpa [switched,cpuSwitchThread,setState,hg] using hg'
  simp at he

lemma spoiled (hno : ¬careful s e) (hu : Sched.step lockOf s e = some u) : ¬Reclaimed u := by
  cases e with
  | up c => simp [careful] at hno
  | act c a =>
    obtain ⟨t,hc,ha,hu⟩ := step_act.mp hu
    cases a with
    | exit =>
      simp only [careful,mem_def,not_forall,Bool.not_eq_false] at hno
      obtain ⟨v,hv,hf⟩ := hno
      exact h.exit_spoiled hc ha hv hf hu
    | yield =>
      simp only [careful,mem_def,hc,some_inj,forall_eq',not_or] at hno
      obtain ⟨z,hz⟩ := List.exists_mem_of_ne_nil _ hno.2
      exact h.yield_spoiled hc ha hno.1 hz hu
    | _ => simp [careful] at hno

end

end Tidy

theorem exited_threads_reclaimed {lockOf : Nat → Nat} {es : List Event} {s : Sys}
    (h : es.foldlM (step lockOf) boot = some s) :
    (∀ pre u, pre <+: es → pre.foldlM (step lockOf) boot = some u → Reclaimed u) ↔
      Run.Along careful (step lockOf) es boot :=
  Run.along_iff_prefixes (fun _ hs => hs.reclaimed) (fun _ _ _ hs hok hu => hs.step hok hu)
    (fun _ _ _ hs hno hu => hs.spoiled hno hu) (boot_tidy lockOf) h

def idleReaps : List Event :=
  [.up 0,.act 0 .create,.act 0 (.start 2),.act 0 .yield,.act 0 .begin,.act 0 .exit,.act 0 (.resume 2),
    .act 0 (.cleanup 2)]

theorem exited_threads_reclaimed_idle : ∃ s, idleReaps.foldlM (step id) boot = some s ∧
    s.cleanups = [⟨2,some .zombie,0,2⟩] ∧
    ∀ pre u, pre <+: idleReaps → pre.foldlM (step id) boot = some u → Reclaimed u := by
  have hrun : (idleReaps.foldlM (step id) boot).map Sys.cleanups = some [⟨2,some .zombie,0,2⟩] := by decide +kernel
  obtain ⟨s,hs,he⟩ := Option.map_eq_some_iff.mp hrun
  exact ⟨s,hs,he,(exited_threads_reclaimed hs).mpr (by decide +kernel)⟩

theorem freed_thread_unlinked {lockOf : Nat → Nat} {es : List Event} {s : Sys} {t : Nat}
    (h : es.foldlM (step lockOf) boot = some s) (hf : s.life t = .freed) :
    (∀ c, s.thread c ≠ some t ∧ s.idle c ≠ some t) ∧ t ∉ s.readyQueue ∧ (∀ cv, t ∉ s.waiters cv) ∧
      ∀ v k, t ∉ s.dying v ∧ s.phase v ≠ .waking t k := by
  obtain ⟨-,hidles,hplaces,hzombies,-⟩ := (boot_inv lockOf).run h
  have hon := hidles.on
  have hkind := hidles.kind
  refine ⟨fun c => by grind,fun hq => ?_,fun cv hq => ?_,fun v k => ⟨fun hq => ?_,fun hq => ?_⟩⟩
  · simpa [hf] using (hplaces.ready t hq).1
  · simpa [hf] using (hplaces.wait cv t hq).1
  · simpa [hf] using (hzombies.dead v t hq).1
  · simpa [hf] using (hplaces.hand v t k hq).1

theorem freed_thread_unlinked_idle : ∃ s, idleReaps.foldlM (step id) boot = some s ∧ s.life 2 = .freed ∧ 2 ∉ s.readyQueue :=
  ⟨_,rfl,rfl,(freed_thread_unlinked (show idleReaps.foldlM (step id) boot = _ from rfl) rfl).2.1⟩

def newSuccessor : List Event :=
  [.up 0,.act 0 .create,.act 0 .create,.act 0 (.start 2),.act 0 (.start 3),.act 0 .yield,.act 0 .begin,.act 0 .exit,
    .act 0 .begin]

theorem zombie_left_behind : ∃ s, newSuccessor.foldlM (step id) boot = some s ∧ s.thread 0 = some 3 ∧
    s.phase 3 = .run ∧ s.dying 3 = [] ∧ s.life 2 = .started ∧ s.state 2 = some .zombie := by
  have hnow : (newSuccessor.foldlM (step id) boot).map (fun s => (s.thread 0,s.phase 3,s.dying 3)) =
      some (some 3,.run,[]) := by decide +kernel
  have hleft : (newSuccessor.foldlM (step id) boot).map (fun s => (s.life 2,s.state 2)) =
      some (.started,some .zombie) := by decide +kernel
  obtain ⟨s,hs,hn⟩ := Option.map_eq_some_iff.mp hnow
  rw [hs,Option.map_some,some_inj] at hleft
  simp only [Prod.mk_inj] at hn hleft
  exact ⟨s,hs,hn.1,hn.2.1,hn.2.2,hleft⟩

end MappedMemory.Sched
