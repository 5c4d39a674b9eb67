import MappedMemory.Sched.Threads

namespace MappedMemory.Sched

open Function (update update_apply update_of_ne)

structure Cpus (thread : Nat → Option Nat) (phase : Nat → Phase) (lock : Option Nat) : Prop where
  on : ∀ c t, thread c = some t → phase t ≠ .away
  off : ∀ t, phase t ≠ .away → ∃ c, thread c = some t
  one : ∀ c d t, thread c = some t → thread d = some t → c = d
  inside : ∀ c t, thread c = some t → ((phase t).inside = true ↔ lock = some c)
  up : ∀ c, lock = some c → ∃ t, thread c = some t

structure Idles (thread idle : Nat → Option Nat) (life : Nat → Life) (fresh : Nat → Bool) : Prop where
  up : ∀ c t, thread c = some t → ∃ i, idle c = some i
  down : ∀ c i, idle c = some i → ∃ t, thread c = some t
  kind : ∀ c i, idle c = some i → life i = .idle
  one : ∀ c d i, idle c = some i → idle d = some i → c = d
  on : ∀ c t, thread c = some t → idle c = some t ∨ life t = .started
  fresh : ∀ t, fresh t = true → life t = .started ∨ life t = .freed

section
variable (lockOf : Nat → Nat) (life : Nat → Life) (state : Nat → Option ThreadState) (phase : Nat → Phase)
  (readyQueue : List Nat) (waiters : Nat → List Nat) (holder : Nat → Option Nat)

structure Places : Prop where
  readyOnce : readyQueue.Nodup
  waitOnce : ∀ cv, (waiters cv).Nodup
  waitOne : ∀ cv cw t, t ∈ waiters cv → t ∈ waiters cw → cv = cw
  ready : ∀ t, t ∈ readyQueue → life t = .started ∧ state t = some .ready ∧ phase t = .away
  wait : ∀ cv t, t ∈ waiters cv → life t = .started ∧
    ((phase t = .away ∧ state t = some .sleeping) ∨ phase t = .linked cv ∨ phase t = .locked cv ∨ phase t = .parted cv)
  linked : ∀ cv t, phase t = .linked cv ∨ phase t = .locked cv → t ∈ waiters cv ∧ holder (lockOf cv) = some t
  parted : ∀ cv t, phase t = .parted cv → t ∈ waiters cv ∨ ∃ v k, phase v = .waking t k
  hand : ∀ v t k, phase v = .waking t k → life t = .started ∧
    ((phase t = .away ∧ state t = some .sleeping) ∨ ∃ cv, phase t = .parted cv)
  handOff : ∀ v t k cv, phase v = .waking t k → t ∉ waiters cv
  handOne : ∀ v w t k l, phase v = .waking t k → phase w = .waking t l → v = w
  casting : ∀ cv v, phase v = .broadcasting cv → holder (lockOf cv) = some v
  castingHand : ∀ cv v t, phase v = .waking t (some cv) → holder (lockOf cv) = some v
  running : ∀ t, life t = .started → phase t ≠ .away → state t = some .running
  placed : ∀ t, life t = .started → phase t = .away →
    (state t = some .ready ∧ t ∈ readyQueue) ∨
    (state t = some .sleeping ∧ ((∃ cv, t ∈ waiters cv) ∨ ∃ v k, phase v = .waking t k)) ∨
    state t = some .zombie

end

structure Zombies (life : Nat → Life) (state : Nat → Option ThreadState) (phase : Nat → Phase)
    (dying : Nat → List Nat) : Prop where
  dead : ∀ t z, z ∈ dying t → life z = .started ∧ state z = some .zombie ∧ phase z = .away
  once : ∀ t, (dying t).Nodup
  one : ∀ t v z, z ∈ dying t → z ∈ dying v → t = v
  prev : ∀ t z, phase t = .resumed z → state z = some .zombie → life z = .started ∧ phase z = .away
  next : ∀ t v z, phase t = .resumed z → state z = some .zombie → z ∉ dying v

structure Inv (lockOf : Nat → Nat) (s : Sys) : Prop where
  cpus : Cpus s.thread s.phase s.schedLock
  idles : Idles s.thread s.idle s.life s.fresh
  places : Places lockOf s.life s.state s.phase s.readyQueue s.waiters s.holder
  zombies : Zombies s.life s.state s.phase s.dying
  born : ∀ t, s.tidAllocator < t → s.life t = .unborn

namespace Cpus

variable {thread : Nat → Option Nat} {phase : Nat → Phase} {lock : Option Nat} {c t : Nat}

lemma move (h : Cpus thread phase lock) (hc : thread c = some t) {p : Phase} (hp : p ≠ .away)
    (hin : p.inside = (phase t).inside) : Cpus thread (update phase t p) lock := by
  cases h
  constructor <;> (try simp only [update_apply]) <;> grind

lemma take (h : Cpus thread phase none) (hc : thread c = some t) {p : Phase} (hin : p.inside = true) :
    Cpus thread (update phase t p) (some c) := by
  cases h
  constructor <;> (try simp only [update_apply]) <;> grind [Phase.inside]

section
variable (h : Cpus thread phase lock)
include h

lemma drop (hc : thread c = some t) (hin : (phase t).inside = true) : Cpus thread (update phase t .run) none := by
  cases h
  constructor <;> (try simp only [update_apply]) <;> grind [Phase.inside]

lemma start (hc : thread c = none) (hp : phase t = .away) :
    Cpus (update thread c (some t)) (update phase t .run) lock := by
  cases h
  constructor <;> (try simp only [update_apply]) <;> grind [Phase.inside]

lemma switch (hc : thread c = some t) (hl : lock = none ∨ lock = some c) {u : Nat}
    (hu : update phase t .away u = .away) {p : Phase} (hin : p.inside = true) :
    Cpus (update thread c (some u)) (update (update phase t .away) u p) (some c) := by
  obtain ⟨h1,h2,h3,h4,h5⟩ := h
  simp only [update_apply] at hu
  constructor <;> (try simp only [update_apply]) <;> grind [Phase.inside]

end

end Cpus

namespace Idles

variable {thread idle : Nat → Option Nat} {life : Nat → Life} {fresh : Nat → Bool} {c t : Nat}

section
variable (h : Idles thread idle life fresh)
include h

lemma create (ht : life t = .unborn) : Idles thread idle (update life t .made) fresh := by
  cases h
  constructor <;> (try simp only [update_apply]) <;> grind

lemma start (ht : life t = .unborn) : Idles (update thread c (some t)) (update idle c (some t)) (update life t .idle)
      fresh := by
  cases h
  constructor <;> (try simp only [update_apply]) <;> grind

lemma ready (ht : life t = .made) : Idles thread idle (update life t .started) (update fresh t true) := by
  cases h
  constructor <;> (try simp only [update_apply]) <;> grind

lemma switch {u : Nat} (hc : thread c = some t) (hu : idle c = some u ∨ life u = .started) :
    Idles (update thread c (some u)) idle life (update fresh u false) := by
  cases h
  constructor <;> (try simp only [update_apply]) <;> grind

lemma free (ht : life t = .started) (hoff : ∀ c, thread c ≠ some t) :
    Idles thread idle (update life t .freed) fresh := by
  cases h
  constructor <;> (try simp only [update_apply]) <;> grind

end

end Idles

namespace Places

variable {lockOf : Nat → Nat} {life : Nat → Life} {state : Nat → Option ThreadState} {phase : Nat → Phase}
  {readyQueue : List Nat} {waiters : Nat → List Nat} {holder : Nat → Option Nat} {t cv : Nat} {l w : Nat}
  {k : Option Nat} {p : Phase}

section
variable (h : Places lockOf life state phase readyQueue waiters holder)
include h

lemma create (ht : life t = .unborn) : Places lockOf (update life t .made) state phase readyQueue waiters holder := by
  cases h
  constructor <;> (try simp only [update_apply]) <;> grind

lemma start (ht : life t = .unborn) (hp : phase t = .away) :
    Places lockOf (update life t .idle) state (update phase t .run) readyQueue waiters holder := by
  cases h
  constructor <;> (try simp only [update_apply]) <;> grind

lemma startContext (ht : life t = .made)
    (hp : phase t = .away) : Places lockOf (update life t .started) (update state t (some .ready))
      phase (readyQueue ++ [t]) waiters holder := by
  cases h
  constructor <;> (try simp only [update_apply]) <;> grind

lemma acquire (hl : holder l = none) :
    Places lockOf life state phase readyQueue waiters (update holder l (some t)) := by
  cases h
  constructor <;> (try simp only [update_apply]) <;> grind

lemma release (hl : holder l = some t)
    (hp : phase t = .run) : Places lockOf life state phase readyQueue waiters (update holder l none) := by
  cases h
  constructor <;> (try simp only [update_apply]) <;> grind

lemma link (ht : life t = .started) (hp : phase t = .run) (hl : holder (lockOf cv) = some t) :
    Places lockOf life state (update phase t (.linked cv)) readyQueue
      (update waiters cv (waiters cv ++ [t])) holder := by
  cases h
  constructor <;> (try simp only [update_apply]) <;> grind

lemma lock (hp : phase t = .linked cv) :
    Places lockOf life state (update phase t (.locked cv)) readyQueue waiters holder := by
  cases h
  constructor <;> (try simp only [update_apply]) <;> grind

lemma part (hp : phase t = .locked cv) : Places lockOf life state (update phase t (.parted cv)) readyQueue waiters
      (update holder (lockOf cv) none) := by
  cases h
  constructor <;> (try simp only [update_apply]) <;> grind

lemma take {ws : List Nat} (hk : k = none ∨ k = some cv) (hp : phase t = .run ∨ phase t = .broadcasting cv) (hl : holder (lockOf cv) = some t)
    (hw : waiters cv = w :: ws) :
    Places lockOf life state (update phase t (.waking w k)) readyQueue (update waiters cv ws)
      holder := by
  obtain ⟨h1,h2,h3,h4,h5,h6,h7,h8,h9,h10,h11,h12,h13,h14⟩ := h
  have hlist : ∀ v cw, v ∈ waiters cw →
      v ∈ update waiters cv ws cw ∨ ∃ x l, update phase t (.waking w k) x = .waking v l := by
    intro v cw hv
    by_cases he : v = w
    · exact .inr ⟨t,k,by simp [he]⟩
    · exact .inl (by grind [update_apply])
  have hhand : ∀ v x l, phase x = .waking v l → update phase t (.waking w k) x = .waking v l := by
    grind [update_apply]
  constructor
  case parted =>
    intro cw v hv
    obtain hcw | ⟨x,l,hx⟩ := h7 cw v (by grind [update_apply])
    · exact hlist v cw hcw
    · exact .inr ⟨x,l,hhand v x l hx⟩
  case placed =>
    intro v hv hq
    obtain hr | ⟨hs,⟨cw,hcw⟩ | ⟨x,l,hx⟩⟩ | hz := h14 v hv (by grind [update_apply])
    · exact .inl hr
    · exact .inr (.inl ⟨hs,(hlist v cw hcw).imp_left fun hin => ⟨cw,hin⟩⟩)
    · exact .inr (.inl ⟨hs,.inr ⟨x,l,hhand v x l hx⟩⟩)
    · exact .inr (.inr hz)
  all_goals
    try simp only [update_apply]
    grind

lemma cast (hp : phase t = .run) (hl : holder (lockOf cv) = some t) :
    Places lockOf life state (update phase t (.broadcasting cv)) readyQueue waiters holder := by
  cases h
  constructor <;> (try simp only [update_apply]) <;> grind

lemma wake (hp : phase t = .waking w k) (hw : ∀ cv, phase w ≠ .parted cv) (hk : p = k.elim .run .broadcasting) :
    Places lockOf life (update state w (some .ready)) (update phase t p) (readyQueue ++ [w]) waiters
      holder := by
  obtain ⟨h1,h2,h3,h4,h5,h6,h7,h8,h9,h10,h11,h12,h13,h14⟩ := h
  cases k <;> subst hk <;> constructor <;> (try simp only [update_apply]) <;> grind

lemma run (hp : phase t = .run ∨ (∃ cv, phase t = .broadcasting cv) ∨ phase t = .starting ∨ ∃ v, phase t = .resumed v) :
    Places lockOf life state (update phase t .run) readyQueue waiters holder := by
  cases h
  constructor <;> (try simp only [update_apply]) <;> grind

lemma departSleeping (hp : phase t = .parted cv) :
    Places lockOf life (update state t (some .sleeping)) (update phase t .away) readyQueue waiters
      holder := by
  cases h
  constructor <;> (try simp only [update_apply]) <;> grind

lemma departReady (ht : life t = .started)
    (hp : phase t = .run) : Places lockOf life (update state t (some .ready)) (update phase t .away)
      (readyQueue ++ [t]) waiters holder := by
  cases h
  constructor <;> (try simp only [update_apply]) <;> grind

lemma departOther (st : ThreadState) (ht : life t = .idle ∨ st = .zombie) (hp : phase t = .run) :
    Places lockOf life (update state t (some st)) (update phase t .away) readyQueue waiters
      holder := by
  cases h
  constructor <;> (try simp only [update_apply]) <;> grind

lemma arrive {rest : List Nat}
    (ht : readyQueue = t :: rest ∨ (readyQueue = rest ∧ life t = .idle)) (hp : phase t = .away) (hq : p = .starting ∨ ∃ v, p = .resumed v) :
    Places lockOf life (update state t (some .running)) (update phase t p) rest waiters holder := by
  cases h
  constructor <;> (try simp only [update_apply]) <;> grind

lemma free (hs : state t = some .zombie)
    (hp : phase t = .away) : Places lockOf (update life t .freed) state phase readyQueue waiters holder := by
  cases h
  constructor <;> (try simp only [update_apply]) <;> grind

end

end Places

namespace Zombies

variable {life : Nat → Life} {state : Nat → Option ThreadState} {phase : Nat → Phase} {dying : Nat → List Nat}
  {t : Nat}

section
variable (h : Zombies life state phase dying)
include h

lemma create (ht : life t = .unborn) : Zombies (update life t .made) state phase dying := by
  cases h
  constructor <;> (try simp only [update_apply]) <;> grind

lemma start (ht : life t = .unborn) : Zombies (update life t .idle) state (update phase t .run) dying := by
  cases h
  constructor <;> (try simp only [update_apply]) <;> grind

lemma startContext (ht : life t = .made) :
    Zombies (update life t .started) (update state t (some .ready)) phase dying := by
  cases h
  constructor <;> (try simp only [update_apply]) <;> grind

lemma move (ht : phase t ≠ .away) {p : Phase} (hp : ∀ v, p ≠ .resumed v) :
    Zombies life state (update phase t p) dying := by
  cases h
  constructor <;> (try simp only [update_apply]) <;> grind

lemma wake (ht : state t = some .sleeping) : Zombies life (update state t (some .ready)) phase dying := by
  cases h
  constructor <;> (try simp only [update_apply]) <;> grind

lemma depart (ht : phase t ≠ .away) (hprev : ∀ v, phase v ≠ .resumed t)
    (st : ThreadState) : Zombies life (update state t (some st)) (update phase t .away) dying := by
  cases h
  constructor <;> (try simp only [update_apply]) <;> grind

lemma arrive (hs : state t ≠ some .zombie ∨ life t = .idle) {p : Phase}
    (hp : ∀ v, p = .resumed v → state v = some .zombie →
      v ≠ t ∧ life v = .started ∧ phase v = .away ∧ ∀ w, v ∉ dying w) :
    Zombies life (update state t (some .running)) (update phase t p) dying := by
  cases h
  constructor <;> (try simp only [update_apply]) <;> grind

lemma push {v : Nat} (ht : phase t = .resumed v)
    (hone : ∀ w, phase w = .resumed v → w = t) (hv : state v = some .zombie) :
    Zombies life state (update phase t .run) (update dying t (v :: dying t)) := by
  cases h
  constructor <;> (try simp only [update_apply]) <;> grind

lemma pop {z : Nat} {rest : List Nat} (hz : dying t = z :: rest) :
    Zombies (update life z .freed) state phase (update dying t rest) := by
  cases h
  constructor <;> (try simp only [update_apply]) <;> grind

end

end Zombies

lemma boot_inv (lockOf : Nat → Nat) : Inv lockOf boot where
  cpus := by constructor <;> simp [boot]
  idles := by constructor <;> simp [boot]
  places := by constructor <;> simp [boot]
  zombies := by constructor <;> simp [boot]
  born := by simp [boot]

structure Next (s : Sys) (c t : Nat) (q : List Nat) (v : Nat) (rest : List Nat) : Prop where
  first : q = v :: rest ∨ q = rest ∧ s.idle c = some v ∧ v ≠ t
  head : q = [] ∨ q = v :: rest
  away : update s.phase t .away v = .away
  alive : v = t ∨ s.state v ≠ some .zombie ∨ s.life v = .idle

def switched (s : Sys) (c t : Nat) (st : ThreadState) (g : Nat → Option (Nat × Nat)) (v : Nat) (rest : List Nat) : Sys :=
  cpuSwitchThread (setState (setState { s with readyQueue := rest, schedLock := some c, graves := g } t st) v
    .running) c t v

namespace Inv

variable {lockOf : Nat → Nat} {s u : Sys} {c t : Nat} {v cv : Nat} {k : Option Nat} {st : ThreadState}
  {q rest : List Nat}

section
variable (h : Inv lockOf s)
include h

lemma off_cpu (hl : s.life t ≠ .started) (hi : ∀ c, s.idle c ≠ some t) : s.phase t = .away := by
  by_contra hp
  obtain ⟨c,hc⟩ := h.cpus.off t hp
  exact (h.idles.on c t hc).elim (hi c) hl

lemma unborn_away (hl : s.life t = .unborn) : s.phase t = .away :=
  h.off_cpu (by simp [hl]) fun c hc => by simp [h.idles.kind c t hc] at hl

lemma on_away (hp : s.phase t = .away) : s.thread c ≠ some t := fun hc => h.cpus.on c t hc hp

lemma started_of_not_idle (hc : s.thread c = some t) (hi : s.idle c ≠ some t) :
    s.life t = .started := (h.idles.on c t hc).resolve_left hi

lemma not_inside (hl : s.schedLock = none) : (s.phase v).inside = false := by
  by_contra hin
  rw [Bool.not_eq_false] at hin
  obtain ⟨d,hd⟩ := h.cpus.off v fun ha => by simp [ha,Phase.inside] at hin
  have := (h.cpus.inside d v hd).mp hin
  simp [hl] at this

lemma inside_one (hc : s.thread c = some t) (hin : (s.phase t).inside = true) (hv : (s.phase v).inside = true) : v = t := by
  obtain ⟨d,hd⟩ := h.cpus.off v fun ha => by simp [ha,Phase.inside] at hv
  have hl := (h.cpus.inside c t hc).mp hin
  have hk := (h.cpus.inside d v hd).mp hv
  cases hl.symm.trans hk
  exact Option.some.inj (hd.symm.trans hc)

lemma up (hc : s.thread c = none) : Inv lockOf (schedStart s c) := by
  have hborn := h.born (s.tidAllocator + 1) (by omega)
  have haway := h.unborn_away hborn
  refine ⟨h.cpus.start hc haway,h.idles.start hborn,h.places.start hborn haway,h.zombies.start hborn,fun v hv => ?_⟩
  have hne : v ≠ s.tidAllocator + 1 := fun he => by simp [schedStart,he] at hv
  exact (update_of_ne hne _ _).trans (h.born v (by simp [schedStart] at hv; omega))

lemma create : Inv lockOf (threadCreate s) := by
  have hborn := h.born (s.tidAllocator + 1) (by omega)
  refine ⟨h.cpus,h.idles.create hborn,h.places.create hborn,h.zombies.create hborn,fun v hv => ?_⟩
  have hne : v ≠ s.tidAllocator + 1 := fun he => by simp [threadCreate,he] at hv
  exact (update_of_ne hne _ _).trans (h.born v (by simp [threadCreate] at hv; omega))

lemma start (hv : s.life v = .made) : Inv lockOf (threadStartContext s v) := by
  have haway : s.phase v = .away := h.off_cpu (by simp [hv]) fun c hc => by simp [h.idles.kind c v hc] at hv
  refine ⟨h.cpus,h.idles.ready hv,h.places.startContext hv haway,h.zombies.startContext hv,fun w hw => ?_⟩
  have hne : w ≠ v := fun he => by simp [h.born w hw,← he] at hv
  exact (update_of_ne hne _ _).trans (h.born w hw)

section
variable (hc : s.thread c = some t)
include hc

lemma takeWaiter (hk : k = none ∨ k = some cv) (hp : s.phase t = .run ∨ s.phase t = .broadcasting cv)
    (hl : s.holder (lockOf cv) = some t) : Inv lockOf (takeWaiter s t cv k) := by
  have hin : (s.phase t).inside = false := by rcases hp with hp | hp <;> simp [hp,Phase.inside]
  have hon := h.cpus.on c t hc
  unfold Sched.takeWaiter
  split
  · refine ⟨h.cpus.move hc (by simp) hin.symm,h.idles,?_,h.zombies.move hon (by simp),h.born⟩
    exact h.places.run (hp.imp_right fun hb => .inl ⟨cv,hb⟩)
  · next w ws hw =>
    refine ⟨h.cpus.move hc (by simp) hin.symm,h.idles,?_,h.zombies.move hon (by simp),h.born⟩
    exact h.places.take hk hp hl hw

lemma wake {w : Nat} (hp : s.phase t = .waking w k) (hl : s.schedLock = none) :
    Inv lockOf (setPhase (schedReady s w) t (k.elim .run .broadcasting)) := by
  have hw : ∀ cv, s.phase w ≠ .parted cv := fun cv hcv => by simpa [hcv,Phase.inside] using h.not_inside hl (v := w)
  have hs : s.state w = some .sleeping := by
    obtain ⟨-,⟨-,hs⟩ | ⟨cv,hcv⟩⟩ := h.places.hand t w k hp
    · exact hs
    · exact absurd hcv (hw cv)
  refine ⟨h.cpus.move hc ?_ ?_,h.idles,h.places.wake hp hw rfl,(h.zombies.wake hs).move (h.cpus.on c t hc) ?_,h.born⟩
  all_goals cases k <;> simp [hp,Phase.inside]

lemma resume (hp : s.phase t = .resumed v) : Inv lockOf (resume s t v) := by
  have hin : (s.phase t).inside = true := by simp [hp,Phase.inside]
  refine ⟨h.cpus.drop hc hin,h.idles,h.places.run (.inr (.inr (.inr ⟨v,hp⟩))),?_,h.born⟩
  by_cases hv : s.state v = some .zombie
  · have hpush := h.zombies.push hp (fun w hw => h.inside_one hc hin (by simp [hw,Phase.inside])) hv
    simpa [Sched.resume,setPhase,hv] using hpush
  · simpa [Sched.resume,setPhase,hv] using h.zombies.move (h.cpus.on c t hc) (p := .run) (by simp)

lemma threadStart (hp : s.phase t = .starting) : Inv lockOf (threadStart s t) :=
  ⟨h.cpus.drop hc (by simp [hp,Phase.inside]),h.idles,h.places.run (.inr (.inr (.inl hp))),
    h.zombies.move (h.cpus.on c t hc) (by simp),h.born⟩

end

lemma cleanup {z : Nat} (hz : (s.dying t).head? = some z) (hu : threadCleanup s c t z = some u) : Inv lockOf u := by
  obtain ⟨rest,hrest⟩ : ∃ rest, s.dying t = z :: rest := List.head?_eq_some_iff.mp hz
  obtain ⟨hlife,hstate,haway⟩ := h.zombies.dead t z (by simp [hrest])
  simp only [threadCleanup,Option.ite_none_left_eq_some,Option.some_inj] at hu
  obtain ⟨-,rfl⟩ := hu
  refine ⟨h.cpus,h.idles.free hlife fun d => h.on_away haway,h.places.free hstate haway,?_,fun v hv => ?_⟩
  · simpa [hrest] using h.zombies.pop hrest
  · have hne : v ≠ z := fun he => by simp [h.born v hv,← he] at hlife
    exact (update_of_ne hne _ _).trans (h.born v hv)

section
variable (hc : s.thread c = some t)
include hc

lemma next_away (hplaces : Places lockOf s.life (update s.state t (some st)) (update s.phase t .away) q
      s.waiters s.holder) (hv : q = v :: rest ∨ q = rest ∧ s.idle c = some v ∧ v ≠ t) :
    update s.phase t .away v = .away := by
  obtain hq | ⟨-,hi,hne⟩ := hv
  · exact (hplaces.ready v (by simp [hq])).2.2
  · rw [update_of_ne hne]
    by_contra hp
    obtain ⟨d,hd⟩ := h.cpus.off v hp
    have hlife := h.idles.kind c v hi
    obtain hd' | hd' := h.idles.on d v hd
    · obtain rfl := h.idles.one c d v hi hd'
      exact hne (Option.some.inj (hd.symm.trans hc))
    · simp [hlife] at hd'

lemma next (hplaces : Places lockOf s.life (update s.state t (some st)) (update s.phase t .away) q
      s.waiters s.holder) (hv : q = v :: rest ∨ q = rest ∧ s.idle c = some v ∧ v ≠ t)
    (hq : q = [] ∨ q = v :: rest) : Next s c t q v rest := by
  refine ⟨hv,hq,h.next_away hc hplaces hv,?_⟩
  obtain hq | ⟨-,hi,-⟩ := hv
  · by_cases hvt : v = t
    · exact .inl hvt
    · have hready := (hplaces.ready v (by simp [hq])).2.1
      rw [update_of_ne hvt] at hready
      exact .inr (.inl (by simp [hready]))
  · exact .inr (.inr (h.idles.kind c v hi))

lemma switch (hl : s.schedLock = none ∨ s.schedLock = some c)
    (hprev : ∀ v, s.phase v ≠ .resumed t) (hplaces : Places lockOf s.life (update s.state t (some st)) (update s.phase t .away) q
      s.waiters s.holder) (hst : st = .zombie → s.life t = .started) (hv : q = v :: rest ∨ q = rest ∧ s.idle c = some v ∧ v ≠ t) (g : Nat → Option (Nat × Nat)) :
    Inv lockOf (switched s c t st g v rest) := by
  have hon := h.cpus.on c t hc
  have hkind : q = v :: rest ∨ q = rest ∧ s.life v = .idle := hv.imp_right fun hi => ⟨hi.1,h.idles.kind c v hi.2.1⟩
  have haway := h.next_away hc hplaces hv
  have hrun : s.idle c = some v ∨ s.life v = .started := by
    obtain hq | ⟨-,hi,-⟩ := hv
    · exact .inr (hplaces.ready v (by simp [hq])).1
    · exact .inl hi
  have hstate : update s.state t (some st) v ≠ some .zombie ∨ s.life v = .idle := by
    obtain hq | ⟨-,hi⟩ := hkind
    · exact .inl (by simp [(hplaces.ready v (by simp [hq])).2.1])
    · exact .inr hi
  refine ⟨h.cpus.switch hc hl haway ?_,h.idles.switch hc hrun,hplaces.arrive hkind haway ?_,
    (h.zombies.depart hon hprev st).arrive hstate ?_,h.born⟩
  · change (if s.fresh v then Phase.starting else .resumed t).inside = true
    split <;> rfl
  · change (if s.fresh v then Phase.starting else .resumed t) = .starting ∨
      ∃ w, (if s.fresh v then Phase.starting else .resumed t) = .resumed w
    split
    · exact .inl rfl
    · exact .inr ⟨t,rfl⟩
  · intro w hw hz
    change (if s.fresh v then Phase.starting else .resumed t) = _ at hw
    split at hw
    · cases hw
    · cases hw
      simp only [Function.update_self,Option.some_inj] at hz
      refine ⟨?_,hst hz,by simp,fun x hx => hon (h.zombies.dead x t hx).2.2⟩
      rintro rfl
      simp [hz,hst hz] at hstate

lemma leave (hl : s.schedLock = none ∨ s.schedLock = some c)
    (hprev : ∀ v, s.phase v ≠ .resumed t) (hplaces : Places lockOf s.life (update s.state t (some st)) (update s.phase t .away) q
      s.waiters s.holder) (hst : st = .zombie → s.life t = .started) (hidle : q = [] → s.idle c ≠ some t)
    (g : Nat → Option (Nat × Nat)) :
    ∃ v rest, Next s c t q v rest ∧
      leave { s with readyQueue := q, schedLock := some c, graves := g } c t st = some (switched s c t st g v rest) ∧
      Inv lockOf (switched s c t st g v rest) := by
  cases q with
  | cons v rest =>
    refine ⟨v,rest,h.next hc hplaces (.inl rfl) (.inr rfl),?_,h.switch hc hl hprev hplaces hst (.inl rfl) g⟩
    exact sched_some.mpr (.inl ⟨v,rest,rfl,(hplaces.ready v (by simp)).2.1,rfl⟩)
  | nil =>
    obtain ⟨i,hi⟩ := h.idles.up c t hc
    have hne : i ≠ t := fun he => hidle rfl (he ▸ hi)
    have hv : ([] : List Nat) = i :: [] ∨ ([] : List Nat) = [] ∧ s.idle c = some i ∧ i ≠ t := .inr ⟨rfl,hi,hne⟩
    refine ⟨i,[],h.next hc hplaces hv (.inl rfl),?_,h.switch hc hl hprev hplaces hst hv g⟩
    exact sched_some.mpr (.inr ⟨i,rfl,hi,hne,rfl⟩)

end

lemma not_resumed (hl : s.schedLock = none) (v : Nat) : s.phase v ≠ .resumed t := fun hv => by
  simpa [hv,Phase.inside] using h.not_inside hl (v := v)

section
variable (hc : s.thread c = some t)
include hc

lemma sleep (hp : s.phase t = .parted cv) : ∃ v rest, Next s c t s.readyQueue v rest ∧
      Sched.leave s c t .sleeping = some (switched s c t .sleeping s.graves v rest) ∧
      Inv lockOf (switched s c t .sleeping s.graves v rest) := by
  have hin : (s.phase t).inside = true := by simp [hp,Phase.inside]
  have hl := (h.cpus.inside c t hc).mp hin
  have hprev : ∀ v, s.phase v ≠ .resumed t := fun v hv => by
    have := h.inside_one hc hin (v := v) (by simp [hv,Phase.inside])
    simp [this,hp] at hv
  have hlife : s.life t = .started := by
    obtain hw | ⟨v,k,hv⟩ := h.places.parted cv t hp
    · exact (h.places.wait cv t hw).1
    · exact (h.places.hand v t k hv).1
  have hidle : s.idle c ≠ some t := fun hi => by simp [h.idles.kind c t hi] at hlife
  have hleave := h.leave hc (.inr hl) hprev (h.places.departSleeping hp) (by simp) (fun _ => hidle) s.graves
  rwa [show { s with schedLock := some c } = s by rw [← hl]] at hleave

lemma yield (hp : s.phase t = .run) (hl : s.schedLock = none) (hq : s.readyQueue ≠ []) :
    ∃ q v rest, Next s c t q v rest ∧ yield s c t = some (switched s c t .ready s.graves v rest) ∧
      Inv lockOf (switched s c t .ready s.graves v rest) := by
  by_cases hi : s.idle c = some t
  · have hplaces := h.places.departOther .ready (.inl (h.idles.kind c t hi)) hp
    have hleave := h.leave hc (.inl hl) (h.not_resumed hl) hplaces (by simp) (fun he => absurd he hq) s.graves
    exact ⟨_,by simpa [Sched.yield,requeue,hi,hq] using hleave⟩
  · have hplaces := h.places.departReady (h.started_of_not_idle hc hi) hp
    have hleave := h.leave hc (.inl hl) (h.not_resumed hl) hplaces (by simp) (by simp) s.graves
    exact ⟨_,by simpa [Sched.yield,requeue,hi,hq] using hleave⟩

lemma exit (hp : s.phase t = .run) (hi : s.idle c ≠ some t) (hl : s.schedLock = none) :
    ∃ v rest, Next s c t s.readyQueue v rest ∧
      exit s c t = some (switched s c t .zombie (update s.graves t (some (c,s.switches c + 1))) v rest) ∧
      Inv lockOf (switched s c t .zombie (update s.graves t (some (c,s.switches c + 1))) v rest) :=
  h.leave hc (.inl hl) (h.not_resumed hl) (h.places.departOther _ (.inr rfl) hp)
    (fun _ => h.started_of_not_idle hc hi) (fun _ => hi) _

lemma perform {a : Act} (ha : allowed lockOf s c t a) : ∃ u, perform lockOf s c t a = some u ∧ Inv lockOf u := by
  have hon := h.cpus.on c t hc
  cases a with
  | create => exact ⟨_,rfl,h.create⟩
  | start v => exact ⟨_,rfl,h.start ha.2.1⟩
  | acquire l => exact ⟨_,rfl,h.cpus,h.idles,h.places.acquire ha.2,h.zombies,h.born⟩
  | release l => exact ⟨_,rfl,h.cpus,h.idles,h.places.release ha.2 ha.1,h.zombies,h.born⟩
  | wait cv =>
    obtain ⟨hp,-,hi,hl⟩ := ha
    exact ⟨_,rfl,h.cpus.move hc (by simp) (by simp [hp,Phase.inside]),h.idles,
      h.places.link (h.started_of_not_idle hc hi) hp hl,h.zombies.move hon (by simp),h.born⟩
  | enter cv =>
    obtain ⟨hp,hl⟩ := ha
    exact ⟨_,rfl,(hl ▸ h.cpus).take hc rfl,h.idles,h.places.lock hp,h.zombies.move hon (by simp),h.born⟩
  | part cv =>
    have hp : s.phase t = .locked cv := ha
    exact ⟨_,rfl,h.cpus.move hc (by simp) (by simp [hp,Phase.inside]),h.idles,h.places.part hp,
      h.zombies.move hon (by simp),h.born⟩
  | sleep cv =>
    obtain ⟨v,rest,-,hu,hinv⟩ := h.sleep hc ha
    exact ⟨_,hu,hinv⟩
  | signal cv => exact ⟨_,rfl,h.takeWaiter hc (.inl rfl) (.inl ha.1) ha.2⟩
  | broadcast cv =>
    obtain ⟨hp,hl⟩ := ha
    exact ⟨_,rfl,h.cpus.move hc (by simp) (by simp [hp,Phase.inside]),h.idles,h.places.cast hp hl,
      h.zombies.move hon (by simp),h.born⟩
  | next cv => exact ⟨_,rfl,h.takeWaiter hc (.inr rfl) (.inr ha) (h.places.casting cv t ha)⟩
  | wake w k => exact ⟨_,rfl,h.wake hc ha.1 ha.2⟩
  | yield =>
    by_cases hq : s.readyQueue = []
    · exact ⟨s,if_pos hq,h⟩
    · obtain ⟨q,v,rest,-,hu,hinv⟩ := h.yield hc ha.1 ha.2 hq
      exact ⟨_,hu,hinv⟩
  | exit =>
    obtain ⟨v,rest,-,hu,hinv⟩ := h.exit hc ha.1 ha.2.2.1 ha.2.2.2
    exact ⟨_,hu,hinv⟩
  | resume v => exact ⟨_,rfl,h.resume hc ha⟩
  | «begin» => exact ⟨_,rfl,h.threadStart hc ha⟩
  | cleanup z =>
    have hz : z ∈ s.dying t := List.mem_of_head? ha.2
    have hne : t ≠ z := fun he => hon (he ▸ (h.zombies.dead t z hz).2.2)
    have hu : threadCleanup s c t z = some _ := if_neg hne
    exact ⟨_,hu,h.cleanup ha.2 hu⟩

end

lemma step {e : Event} (hu : step lockOf s e = some u) : Inv lockOf u := by
  cases e with
  | up c =>
    simp only [Sched.step,Option.ite_none_right_eq_some,Option.some_inj] at hu
    obtain ⟨hc,rfl⟩ := hu
    exact h.up hc
  | act c a =>
    obtain ⟨t,hc,ha,hu⟩ := step_act.mp hu
    obtain ⟨v,hv,hinv⟩ := h.perform hc ha
    exact Option.some.inj (hv.symm.trans hu) ▸ hinv

end

end Inv

end MappedMemory.Sched
