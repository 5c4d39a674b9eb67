import MappedMemory.Library.Run

namespace MappedMemory.Sched

open Function (update)

inductive ThreadState where
  | running | ready | sleeping | zombie
deriving DecidableEq, Repr

inductive Life where
  | unborn | made | started | idle | freed
deriving DecidableEq, Repr

inductive Phase where
  | away | run
  | linked (cv : Nat) | locked (cv : Nat) | parted (cv : Nat)
  | broadcasting (cv : Nat) | waking (w : Nat) (rest : Option Nat)
  | resumed (prev : Nat) | starting
deriving DecidableEq, Repr

def Phase.inside : Phase → Bool
  | .locked _ | .parted _ | .resumed _ | .starting => true
  | _ => false

structure Cleanup where
  thread : Nat
  state : Option ThreadState
  cpu : Nat
  switches : Nat
deriving DecidableEq, Repr

structure Sys where
  thread : Nat → Option Nat
  idle : Nat → Option Nat
  life : Nat → Life
  state : Nat → Option ThreadState
  phase : Nat → Phase
  fresh : Nat → Bool
  dying : Nat → List Nat
  readyQueue : List Nat
  waiters : Nat → List Nat
  schedLock : Option Nat
  holder : Nat → Option Nat
  tidAllocator : Nat
  switches : Nat → Nat
  graves : Nat → Option (Nat × Nat)
  cleanups : List Cleanup

def boot : Sys where
  thread _ := none
  idle _ := none
  life _ := .unborn
  state _ := none
  phase _ := .away
  fresh _ := false
  dying _ := []
  readyQueue := []
  waiters _ := []
  schedLock := none
  holder _ := none
  tidAllocator := 0
  switches _ := 0
  graves _ := none
  cleanups := []

def setState (s : Sys) (t : Nat) (st : ThreadState) : Sys := { s with state := update s.state t (some st) }

def setPhase (s : Sys) (t : Nat) (p : Phase) : Sys := { s with phase := update s.phase t p }

def threadCreate (s : Sys) : Sys :=
  let tid := s.tidAllocator + 1
  { s with tidAllocator := tid, life := update s.life tid .made }

def schedStart (s : Sys) (c : Nat) : Sys :=
  let tid := s.tidAllocator + 1
  { s with
    tidAllocator := tid, life := update s.life tid .idle, phase := update s.phase tid .run
    thread := update s.thread c (some tid), idle := update s.idle c (some tid) }

def schedReady (s : Sys) (t : Nat) : Sys := { setState s t .ready with readyQueue := s.readyQueue ++ [t] }

def threadStartContext (s : Sys) (t : Nat) : Sys :=
  schedReady { s with life := update s.life t .started, fresh := update s.fresh t true } t

def cpuSwitchThread (s : Sys) (c curr t : Nat) : Sys :=
  { s with
    thread := update s.thread c (some t)
    phase := update (update s.phase curr .away) t (if s.fresh t then .starting else .resumed curr)
    fresh := update s.fresh t false
    switches := update s.switches c (s.switches c + 1) }

def sched (s : Sys) (c curr : Nat) : Option Sys :=
  match s.readyQueue with
  | t :: rest =>
    if s.state t = some .ready then
      some (cpuSwitchThread (setState { s with readyQueue := rest } t .running) c curr t)
    else none
  | [] => do
    let idle ← s.idle c
    if idle = curr then none else some (cpuSwitchThread (setState s idle .running) c curr idle)

def requeue (s : Sys) (c curr : Nat) : Sys :=
  if s.idle c = some curr then s else { s with readyQueue := s.readyQueue ++ [curr] }

def leave (s : Sys) (c curr : Nat) (next : ThreadState) : Option Sys := sched (setState s curr next) c curr

def yield (s : Sys) (c curr : Nat) : Option Sys :=
  if s.readyQueue = [] then some s else leave (requeue { s with schedLock := some c } c curr) c curr .ready

def exit (s : Sys) (c curr : Nat) : Option Sys :=
  leave { s with schedLock := some c, graves := update s.graves curr (some (c,s.switches c + 1)) } c curr
    .zombie

def resume (s : Sys) (t prev : Nat) : Sys :=
  { setPhase s t .run with
    schedLock := none
    dying := if s.state prev = some .zombie then update s.dying t (prev :: s.dying t) else s.dying }

def threadStart (s : Sys) (t : Nat) : Sys := { setPhase s t .run with schedLock := none }

def threadCleanup (s : Sys) (c t z : Nat) : Option Sys :=
  if t = z then none
  else some { s with
    life := update s.life z .freed, dying := update s.dying t (s.dying t).tail
    cleanups := s.cleanups ++ [⟨z,s.state z,c,s.switches c⟩] }

def takeWaiter (s : Sys) (t cv : Nat) (rest : Option Nat) : Sys :=
  match s.waiters cv with
  | [] => setPhase s t .run
  | w :: ws => { setPhase s t (.waking w rest) with waiters := update s.waiters cv ws }

inductive Act where
  | create
  | start (t : Nat)
  | acquire (l : Nat)
  | release (l : Nat)
  | wait (cv : Nat)
  | enter (cv : Nat)
  | part (cv : Nat)
  | sleep (cv : Nat)
  | signal (cv : Nat)
  | broadcast (cv : Nat)
  | next (cv : Nat)
  | wake (w : Nat) (rest : Option Nat)
  | yield
  | exit
  | resume (prev : Nat)
  | begin
  | cleanup (z : Nat)
deriving DecidableEq, Repr

inductive Event where
  | up (c : Nat)
  | act (c : Nat) (a : Act)
deriving DecidableEq, Repr

section
variable (lockOf : Nat → Nat)

def allowed (s : Sys) (c t : Nat) : Act → Prop
  | .create => s.phase t = .run
  | .start u => s.phase t = .run ∧ s.life u = .made ∧ s.schedLock = none
  | .acquire l => s.phase t = .run ∧ s.holder l = none
  | .release l => s.phase t = .run ∧ s.holder l = some t
  | .wait cv => s.phase t = .run ∧ s.dying t = [] ∧ s.idle c ≠ some t ∧ s.holder (lockOf cv) = some t
  | .enter cv => s.phase t = .linked cv ∧ s.schedLock = none
  | .part cv => s.phase t = .locked cv
  | .sleep cv => s.phase t = .parted cv
  | .signal cv => s.phase t = .run ∧ s.holder (lockOf cv) = some t
  | .broadcast cv => s.phase t = .run ∧ s.holder (lockOf cv) = some t
  | .next cv => s.phase t = .broadcasting cv
  | .wake w rest => s.phase t = .waking w rest ∧ s.schedLock = none
  | .yield => s.phase t = .run ∧ s.schedLock = none
  | .exit => s.phase t = .run ∧ s.dying t = [] ∧ s.idle c ≠ some t ∧ s.schedLock = none
  | .resume prev => s.phase t = .resumed prev
  | .begin => s.phase t = .starting
  | .cleanup z => s.phase t = .run ∧ (s.dying t).head? = some z

instance (s : Sys) (c t : Nat) (a : Act) : Decidable (allowed lockOf s c t a) := by
  cases a <;> simp only [allowed] <;> infer_instance

def perform (s : Sys) (c t : Nat) : Act → Option Sys
  | .create => some (threadCreate s)
  | .start u => some (threadStartContext s u)
  | .acquire l => some { s with holder := update s.holder l (some t) }
  | .release l => some { s with holder := update s.holder l none }
  | .wait cv => some { setPhase s t (.linked cv) with waiters := update s.waiters cv (s.waiters cv ++ [t]) }
  | .enter cv => some { setPhase s t (.locked cv) with schedLock := some c }
  | .part cv => some { setPhase s t (.parted cv) with holder := update s.holder (lockOf cv) none }
  | .sleep _ => leave s c t .sleeping
  | .signal cv => some (takeWaiter s t cv none)
  | .broadcast cv => some (setPhase s t (.broadcasting cv))
  | .next cv => some (takeWaiter s t cv (some cv))
  | .wake w rest => some (setPhase (schedReady s w) t (rest.elim .run .broadcasting))
  | .yield => yield s c t
  | .exit => exit s c t
  | .resume prev => some (resume s t prev)
  | .begin => some (threadStart s t)
  | .cleanup z => threadCleanup s c t z

def step (s : Sys) : Event → Option Sys
  | .up c => if s.thread c = none then some (schedStart s c) else none
  | .act c a => do
    let t ← s.thread c
    if allowed lockOf s c t a then perform lockOf s c t a else none

end

lemma step_act {lockOf : Nat → Nat} {s u : Sys} {c : Nat} {a : Act} : step lockOf s (.act c a) = some u ↔
      ∃ t, s.thread c = some t ∧ allowed lockOf s c t a ∧ perform lockOf s c t a = some u := by
  simp [step,Option.bind_eq_some_iff]

lemma sched_some {s u : Sys} {c curr : Nat} : sched s c curr = some u ↔
      (∃ t rest, s.readyQueue = t :: rest ∧ s.state t = some .ready ∧
        u = cpuSwitchThread (setState { s with readyQueue := rest } t .running) c curr t) ∨
      ∃ i, s.readyQueue = [] ∧ s.idle c = some i ∧ i ≠ curr ∧
        u = cpuSwitchThread (setState s i .running) c curr i := by
  unfold sched
  split
  · next t rest hq => simp [hq,@eq_comm _ u]
  · next hq => simp [hq,Option.bind_eq_some_iff,@eq_comm _ u]

end MappedMemory.Sched
