import MappedMemory.Library.Run

namespace MappedMemory.Ptable

def statusAlive : Int := 0xbeefeeb

def initPid : Nat := 0

inductive Phase where
  | starting | running | forking (child : Nat) | waiting (child : Nat) | woken (child : Nat) | exited
deriving DecidableEq, Repr

structure Proc where
  exitStatus : Int
  children : List Nat
  waitCv : List Nat
  phase : Phase
deriving DecidableEq, Repr

/- A process is known by its pid. `freed`, `exits` and `reports` are history: the structs given to `proc_free`,
the statuses passed to `proc_exit` and those that `proc_wait` stored. -/
structure Table where
  procs : Nat → Option Proc
  ptable : List Nat
  pidAllocator : Nat
  freed : List (Nat × Proc)
  exits : List (Nat × Int)
  reports : List (Nat × Int)

def procInit (phase : Phase) : Proc := ⟨statusAlive,[],[],phase⟩

def boot : Table where
  procs pid := if pid = initPid then some (procInit .running) else none
  ptable := [initPid]
  pidAllocator := initPid + 1
  freed := []
  exits := []
  reports := []

def setProc (t : Table) (pid : Nat) (p : Option Proc) : Table := { t with procs := Function.update t.procs pid p }

def adopt (t : Table) (pid : Nat) : Option Table := do
  let p ← t.procs pid
  if p.phase = .running then
    let child := t.pidAllocator
    some { setProc (setProc t pid (some { p with children := p.children ++ [child], phase := .forking child })) child
      (some (procInit .starting)) with pidAllocator := child + 1 }
  else none

def procFork : Table → Nat → Option Table := adopt

def procSpawn : Table → Nat → Option Table := adopt

def enter (t : Table) (pid : Nat) : Option Table := do
  let p ← t.procs pid
  match p.phase with
  | .forking child => do
    let c ← t.procs child
    some { setProc (setProc t pid (some { p with phase := .running })) child (some { c with phase := .running }) with
      ptable := t.ptable ++ [child] }
  | _ => none

def procFree (t : Table) (pid : Nat) : Option Table := do
  let p ← t.procs pid
  some { setProc t pid none with freed := t.freed ++ [(pid,p)] }

def reap (t : Table) (pid child : Nat) : Option Table := do
  let p ← t.procs pid
  let c ← t.procs child
  if c.exitStatus = statusAlive then
    some (setProc (setProc t child (some { c with waitCv := c.waitCv ++ [pid] })) pid
      (some { p with phase := .waiting child }))
  else
    procFree { setProc t pid (some { p with children := p.children.erase child, phase := .running }) with
      reports := t.reports ++ [(child,c.exitStatus)] } child

def findChild (children : List Nat) : Option Nat → Option Nat
  | none => children.getLast?
  | some pid => if pid ∈ children then some pid else none

def procWait (t : Table) (pid : Nat) (target : Option Nat) : Option Table := do
  let p ← t.procs pid
  if p.phase = .running then
    match findChild p.children target with
    | none => some t
    | some child => reap t pid child
  else none

def wake (t : Table) (pid : Nat) : Option Table := do
  let p ← t.procs pid
  match p.phase with
  | .woken child => reap t pid child
  | _ => none

def disown (pid : Nat) (t : Table) (child : Nat) : Option Table := do
  let p ← t.procs pid
  let t := setProc t pid (some { p with children := p.children.erase child })
  let c ← t.procs child
  if c.exitStatus = statusAlive then do
    let init ← t.procs initPid
    some (setProc t initPid (some { init with children := init.children ++ [child] }))
  else procFree t child

def condvarSignal (t : Table) (pid : Nat) : Option Table := do
  let p ← t.procs pid
  match p.waitCv with
  | [] => some t
  | w :: rest => do
    let q ← t.procs w
    some (setProc (setProc t pid (some { p with waitCv := rest })) w (some { q with phase := .woken pid }))

def procExit (t : Table) (pid : Nat) (status : Int) : Option Table := do
  let p ← t.procs pid
  if p.phase = .running then
    let t := { t with ptable := t.ptable.erase pid }
    if initPid ∈ t.ptable then do
      let t ← p.children.foldlM (disown pid) t
      let p ← t.procs pid
      condvarSignal { setProc t pid (some { p with exitStatus := status, phase := .exited }) with
        exits := t.exits ++ [(pid,status)] } pid
    else none
  else none

inductive Op where
  | fork (pid : Nat)
  | spawn (pid : Nat)
  | enter (pid : Nat)
  | wait (pid : Nat) (target : Option Nat)
  | wake (pid : Nat)
  | exit (pid : Nat) (status : Int)
deriving DecidableEq, Repr

def step (t : Table) : Op → Option Table
  | .fork pid => procFork t pid
  | .spawn pid => procSpawn t pid
  | .enter pid => enter t pid
  | .wait pid target => procWait t pid target
  | .wake pid => wake t pid
  | .exit pid status => if pid ≠ initPid ∧ status ≠ statusAlive then procExit t pid status else none

def run (ops : List Op) : Option Table := ops.foldlM step boot

end MappedMemory.Ptable
