import MappedMemory.Library.Run

namespace MappedMemory.Monitor

open Function (update update_apply)

inductive Pc where
  | idle | waiting | woken | inside
deriving DecidableEq

structure Lock where
  holder : Option Nat
  waiters : List Nat
  pc : Nat → Pc

def init : Lock := ⟨none,[],fun _ => .idle⟩

-- one turn of the while loop of sleeplock_acquire and jbd_begin_txn; condvar_wait returns into it
def enter (s : Lock) (t : Nat) : Lock :=
  match s.holder with
  | some _ => { s with waiters := s.waiters ++ [t], pc := update s.pc t .waiting }
  | none => { s with holder := some t, pc := update s.pc t .inside }

def condvarSignal (s : Lock) : Lock :=
  match s.waiters with
  | [] => s
  | t :: ws => { s with waiters := ws, pc := update s.pc t .woken }

def condvarBroadcast (s : Lock) : Lock :=
  { s with waiters := [], pc := fun t => if t ∈ s.waiters then .woken else s.pc t }

def sleeplockRelease (s : Lock) (t : Nat) : Option Lock :=
  if s.holder = some t then some (condvarSignal { s with holder := none, pc := update s.pc t .idle }) else none

def jbdEndTxn (s : Lock) (t : Nat) : Option Lock :=
  if s.holder ≠ none then some (condvarBroadcast { s with holder := none, pc := update s.pc t .idle }) else none

inductive Event where
  | call (t : Nat) | resume (t : Nat) | leave (t : Nat)

def step (leave : Lock → Nat → Option Lock) (s : Lock) : Event → Option Lock
  | .call t => if s.pc t = .idle then some (enter s t) else none
  | .resume t => if s.pc t = .woken then some (enter s t) else none
  | .leave t => if s.pc t = .inside then leave s t else none

structure Inv (broadcast : Bool) (s : Lock) : Prop where
  owner : ∀ t, s.holder = some t ↔ s.pc t = .inside
  queue : ∀ t, t ∈ s.waiters ↔ s.pc t = .waiting
  once : s.waiters.Nodup
  awake : s.holder = none → s.waiters ≠ [] → broadcast = false ∧ ∃ t, s.pc t = .woken

variable {s u : Lock} {t : Nat} {b : Bool} {es : List Event} {leave : Lock → Nat → Option Lock}

lemma Inv.enter (h : Inv b s) (ht : s.pc t = .idle ∨ s.pc t = .woken) : Inv b (enter s t) := by
  cases h
  unfold Monitor.enter
  split <;> constructor <;> simp only [update_apply,List.nodup_append] <;> grind

lemma Inv.sleeplockRelease (h : Inv false s) (ht : s.pc t = .inside) : ∃ u, sleeplockRelease s t = some u ∧ Inv false u := by
  refine ⟨_,if_pos ((h.owner t).mpr ht),?_⟩
  cases h
  unfold condvarSignal
  split
  · constructor <;> simp only [update_apply] <;> grind
  · next v ws hw => exact ⟨by grind,by grind,by grind,fun _ _ => ⟨rfl,v,by simp⟩⟩

lemma Inv.jbdEndTxn (h : Inv true s) (ht : s.pc t = .inside) : ∃ u, jbdEndTxn s t = some u ∧ Inv true u := by
  refine ⟨_,if_pos (by simp [(h.owner t).mpr ht]),?_⟩
  cases h
  constructor <;> simp only [condvarBroadcast,update_apply] <;> grind

lemma Inv.run (hleave : ∀ {s t}, Inv b s → s.pc t = .inside → ∃ u, leave s t = some u ∧ Inv b u)
    (hu : es.foldlM (step leave) init = some s) : Inv b s := by
  refine Run.invariant (fun s e u h hu => ?_) (by constructor <;> simp [init]) hu
  cases e with
  | call t | resume t =>
    obtain ⟨ht,hu⟩ := Option.ite_none_right_eq_some.mp hu
    cases hu
    exact h.enter (by simp [ht])
  | leave t =>
    obtain ⟨ht,hu⟩ := Option.ite_none_right_eq_some.mp hu
    obtain ⟨v,hv,hi⟩ := hleave h ht
    cases hv.symm.trans hu
    exact hi

def Exclusive (leave : Lock → Nat → Option Lock) (s : Lock) : Prop :=
  ∀ t, s.pc t = .inside → (∀ v, s.pc v = .inside → t = v) ∧ ∃ u, leave s t = some u

lemma Inv.exclusive (h : Inv b s) (hleave : ∀ {t}, s.pc t = .inside → ∃ u, leave s t = some u ∧ Inv b u) :
    Exclusive leave s := fun t ht =>
  ⟨fun v hv => Option.some_inj.mp (((h.owner t).mpr ht).symm.trans ((h.owner v).mpr hv)),(hleave ht).imp fun _ => And.left⟩

theorem sleeplock_excludes_and_wakes (hu : es.foldlM (step sleeplockRelease) init = some s) :
    Exclusive sleeplockRelease s ∧ (s.holder = none → ∀ t, s.pc t = .waiting → ∃ v, s.pc v = .woken) := by
  have h := Inv.run Inv.sleeplockRelease hu
  exact ⟨h.exclusive h.sleeplockRelease,fun hn t ht => (h.awake hn (List.ne_nil_of_mem ((h.queue t).mpr ht))).2⟩

def contended : List Event := [.call 1,.call 2,.call 3,.leave 1]

theorem sleeplock_wakes_second : ∃ s, contended.foldlM (step sleeplockRelease) init = some s ∧ s.holder = none ∧
    s.pc 3 = .waiting ∧ ∃ v, s.pc v = .woken :=
  ⟨_,rfl,rfl,rfl,(sleeplock_excludes_and_wakes (show contended.foldlM _ _ = _ from rfl)).2 rfl 3 rfl⟩

theorem transactions_serialised (hu : es.foldlM (step jbdEndTxn) init = some s) :
    Exclusive jbdEndTxn s ∧ (s.holder = none → ∀ t, s.pc t ≠ .waiting) := by
  have h := Inv.run Inv.jbdEndTxn hu
  refine ⟨h.exclusive h.jbdEndTxn,fun hn t ht => ?_⟩
  simpa using (h.awake hn (List.ne_nil_of_mem ((h.queue t).mpr ht))).1

theorem transaction_end_wakes_all : ∃ s, contended.foldlM (step jbdEndTxn) init = some s ∧ s.holder = none ∧
    ∀ t, s.pc t ≠ .waiting :=
  ⟨_,rfl,rfl,(transactions_serialised (show contended.foldlM _ _ = _ from rfl)).2 rfl⟩

end MappedMemory.Monitor
