import MappedMemory.Library.Keyed
import MappedMemory.Vm.Region

namespace MappedMemory
open Keyed

inductive Err where
  | ok | noMem | exist | notExist | inval | mapped | persist | vmBound
deriving DecidableEq, Repr

structure Pid2mem where
  as : Nat
  mr : Nat
deriving DecidableEq, Repr

structure Smemcontext where
  id : Nat
  name : List Nat
  size : Int
  refcnt : Int
  flag : Nat
  lockBy : Int
  rmap : List Pid2mem
deriving DecidableEq, Repr

def maxNameLen : Nat := 128

def rsPersist : Nat := 0x100

namespace Smemcontext

def isPersist (c : Smemcontext) : Bool := c.flag / rsPersist % 2 == 1

def bytes (c : Smemcontext) : Nat := sizeT (int32 (c.size * pgSize))

end Smemcontext

inductive Pc where
  | user
  | forking (rest : List Memregion)
  | linked (ctx mr : Nat) (rest : List Memregion)
  | tearing (own : Bool) (rest : List Memregion)
  | unmapping (ctx mr : Nat) (teardown : Option (Bool × List Memregion))
  | unmapped (ctx : Nat) (teardown : Option (Bool × List Memregion))
  | dead
deriving DecidableEq, Repr

structure Proc where
  pid : Nat
  as : Addrspace
  embryo : Option (Nat × Addrspace)
  pc : Pc
deriving DecidableEq, Repr

inductive Effect where
  | destroyTable (space : Nat)
  | unmap (space : Nat) (r : Memregion)
  | cowCopy (src dst : Nat) (r : Memregion) (copied : Bool)
  | freeStore (ctx : Nat)
deriving DecidableEq, Repr

structure Shm where
  procs : List Proc
  ctable : List Smemcontext
  next : Nat
deriving DecidableEq, Repr

structure Outcome where
  shm : Shm
  err : Err
  effects : List Effect
  ret : Option Nat
deriving DecidableEq, Repr

namespace Shm

def proc (s : Shm) (pid : Nat) : Option Proc := lookup Proc.pid pid s.procs

def context (s : Shm) (id : Nat) : Option Smemcontext := lookup Smemcontext.id id s.ctable

def setProc (s : Shm) (p : Proc) : Shm := { s with procs := modify Proc.pid p.pid (fun _ => p) s.procs }

def setContext (s : Shm) (c : Smemcontext) : Shm :=
  { s with ctable := modify Smemcontext.id c.id (fun _ => c) s.ctable }

def fail (s : Shm) (err : Err) : Option Outcome := some ⟨s,err,[],none⟩

def done (s : Shm) (effects : List Effect) : Option Outcome := some ⟨s,.ok,effects,none⟩

def returns (s : Shm) (value : Nat) : Option Outcome := some ⟨s,.ok,[],some value⟩

def getContextByHandle (s : Shm) (name : List Nat) (mapped : Option Nat) : Option Smemcontext :=
  match s.ctable.find? (fun c => c.name == name) with
  | none => none
  | some c =>
    match mapped with
    | none => some c
    | some as => if c.rmap.any (fun n => n.as == as) then some c else none

def contextInit (id : Nat) (name : List Nat) (size : Int) (flag : Nat) : Smemcontext :=
  ⟨id,name,size,0,flag,-1,[]⟩

def createSharedRegion (s : Shm) (name : List Nat) (n : Int) (flag : Nat) (alloc : Bool) : Option Outcome :=
  if (s.getContextByHandle name none).isSome then s.fail .exist
  else if alloc then
    done { s with ctable := s.ctable ++ [contextInit s.next name n flag], next := s.next + 1 } []
  else s.fail .noMem

def sysCreateSharedRegion (s : Shm) (name : List Nat) (size flag : Nat) (alloc : Bool) : Option Outcome :=
  if name.length ≥ maxNameLen then s.fail .inval
  else s.createSharedRegion name (int32 (pgRoundUp (u64 size))) flag alloc

def destroySharedRegionInternal (s : Shm) (c : Smemcontext) (forceDestroy : Bool) : Option Outcome :=
  if c.refcnt ≠ 0 then s.fail .mapped
  else if c.isPersist && !forceDestroy then s.fail .persist
  else if c.rmap = [] then
    done { s with ctable := remove Smemcontext.id c.id s.ctable } [.freeStore c.id]
  else none

def destroySharedRegion (s : Shm) (name : List Nat) : Option Outcome :=
  match s.getContextByHandle name none with
  | none => s.fail .notExist
  | some c => s.destroySharedRegionInternal c c.isPersist

def addRmapping (s : Shm) (c : Smemcontext) (as mr : Nat) : Shm :=
  s.setContext { c with rmap := c.rmap ++ [⟨as,mr⟩], refcnt := c.refcnt + 1 }

def createMapping (s : Shm) (p : Proc) (name : List Nat) (alloc node : Bool) : Option Outcome :=
  match s.getContextByHandle name none with
  | none => s.fail .notExist
  | some c => do
    let (as,mr) ← p.as.memregionMapInternal s.next addrAnywhere c.bytes .urw (some c.id) 0 true alloc
    match mr with
    | none => s.fail .noMem
    | some r =>
      if node then
        returns { (s.setProc { p with as := as }).addRmapping c p.pid r.id with next := s.next + 1 } r.start
      else
        some ⟨{ s.setProc { p with as := as.memregionUnmapInternal r.id } with next := s.next + 1 },
          .noMem,[.unmap p.pid r],none⟩

def holdsAddr (as : Addrspace) (vaddr : Nat) (n : Pid2mem) : Bool :=
  match as.regions.find? (fun r => r.id == n.mr) with
  | none => false
  | some r => decide (vaddr ≥ r.start) && decide (vaddr < r.stop)

def findRemoveRmapping (s : Shm) (c : Smemcontext) (pid : Nat) (as : Addrspace) (vaddr : Nat) :
    Option (Shm × Pid2mem) :=
  match c.rmap.find? (fun n => n.as == pid && holdsAddr as vaddr n) with
  | none => none
  | some n => some (s.setContext { c with rmap := c.rmap.erase n },n)

def destroyMapping (s : Shm) (p : Proc) (name : List Nat) (vaddr : Nat) : Option Outcome :=
  match s.getContextByHandle name (some p.pid) with
  | none => s.fail .notExist
  | some c =>
    match s.findRemoveRmapping c p.pid p.as vaddr with
    | none => s.fail .notExist
    | some (s,n) => done (s.setProc { p with pc := .unmapping c.id n.mr none }) []

def setStop (as : Addrspace) (id stop : Nat) : Addrspace :=
  { as with regions := modify Memregion.id id (fun r => { r with stop := stop }) as.regions }

def memregionExtend (s : Shm) (p : Proc) (r : Memregion) (size : Int) : Option Outcome :=
  let extended := s.setProc { p with as := setStop p.as r.id (sizeT (r.stop + size)) }
  if size = 0 then s.returns r.stop
  else if size > 0 then
    match p.as.asFindMemregion r.stop size.toNat with
    | some mr => if mr.id ≠ r.id then s.fail .vmBound else extended.returns r.stop
    | none => extended.returns r.stop
  else if int32 (sub64 r.stop r.start) ≥ int32 (-size) then extended.returns r.stop
  else s.returns r.stop

def sysSbrk (s : Shm) (p : Proc) (size : Int) : Option Outcome :=
  match p.as.heap with
  | none => s.fail .vmBound
  | some heap => do
    let r ← p.as.regions.find? (fun r => r.id == heap)
    s.memregionExtend p r (int32 size)

def fork (s : Shm) (p : Proc) : Option Outcome :=
  done { s.setProc { p with embryo := some (s.next,⟨false,[],none⟩), pc := .forking p.as.regions } with
    next := s.next + 1 } []

def exit (s : Shm) (p : Proc) : Option Outcome :=
  done (s.setProc { p with pc := .tearing true p.as.regions }) [.destroyTable p.pid]

structure Oracle where
  alloc : Bool
  copied : Bool
  node : Bool
  thread : Bool
deriving DecidableEq, Repr

def abortFork (s : Shm) (p : Proc) (child : Nat) (as : Addrspace) (effects : List Effect) : Option Outcome :=
  done (s.setProc { p with embryo := some (child,as), pc := .tearing false as.regions })
    (effects ++ [.destroyTable child])

def asCopyRegion (s : Shm) (p : Proc) (child : Nat) (as : Addrspace) (r : Memregion) (rest : List Memregion)
    (o : Oracle) : Option Outcome := do
  let (as',dst) ← as.memregionMapInternal s.next r.start (sub64 r.stop r.start) r.perm r.store r.ofs r.shared
    o.alloc
  let s' := { s with next := s.next + 1 }
  match dst with
  | none => s.abortFork p child as []
  | some d =>
    if r.shared then
      match r.store with
      | none => none
      | some c => done (s'.setProc { p with embryo := some (child,as'), pc := .linked c d.id rest }) []
    else if o.copied then
      let as' := { as' with heap := if p.as.heap = some r.id then some d.id else as'.heap }
      done (s'.setProc { p with embryo := some (child,as'), pc := .forking rest })
        [.cowCopy p.pid child r true]
    else
      s'.abortFork p child (as'.memregionUnmapInternal d.id) [.cowCopy p.pid child r false,.unmap child d]

def addContextRef (s : Shm) (p : Proc) (child : Nat) (as : Addrspace) (ctx mr : Nat) (rest : List Memregion)
    (node : Bool) : Option Outcome := do
  let c ← s.context ctx
  let d ← as.regions.find? (fun r => r.id == mr)
  if node then done ((s.addRmapping c child mr).setProc { p with pc := .forking rest }) []
  else
    done (s.setProc { p with embryo := some (child,as.memregionUnmapInternal mr), pc := .forking rest })
      [.unmap child d]

def target (p : Proc) (own : Bool) : Option (Nat × Addrspace) := if own then some (p.pid,p.as) else p.embryo

def setTarget (p : Proc) (own : Bool) (as : Addrspace) : Proc :=
  if own then { p with as := as } else { p with embryo := p.embryo.map fun e => (e.1,as) }

def asDestroyRegion (s : Shm) (p : Proc) (own : Bool) (r : Memregion) (rest : List Memregion) :
    Option Outcome := do
  let (space,as) ← target p own
  if r.shared then
    let store ← r.store
    let c ← s.context store
    match s.findRemoveRmapping c space as r.start with
    | none => done (s.setProc { p with pc := .tearing own rest }) []
    | some (s,_) => done (s.setProc { p with pc := .unmapping c.id r.id (some (own,rest)) }) []
  else
    done (s.setProc { setTarget p own (as.memregionUnmapInternal r.id) with pc := .tearing own rest }) []

def memregionUnmap (s : Shm) (p : Proc) (ctx mr : Nat) (t : Option (Bool × List Memregion)) :
    Option Outcome := do
  let own := t.elim true Prod.fst
  let (space,as) ← target p own
  let r ← as.regions.find? (fun r => r.id == mr)
  done (s.setProc { setTarget p own (as.memregionUnmapInternal mr) with pc := .unmapped ctx t })
    (if t.isSome then [] else [.unmap space r])

def dropContextRef (s : Shm) (p : Proc) (ctx : Nat) (t : Option (Bool × List Memregion)) : Option Outcome := do
  let c ← s.context ctx
  let c' := { c with refcnt := c.refcnt - 1 }
  let s := (s.setContext c').setProc { p with pc := t.elim .user fun t => .tearing t.1 t.2 }
  if c'.refcnt = 0 ∧ c'.isPersist = false ∧ t.isSome then s.destroySharedRegionInternal c' false
  else done s []

def advance (s : Shm) (p : Proc) (o : Oracle) : Option Outcome :=
  match p.pc with
  | .user | .dead => none
  | .forking rest =>
    match p.embryo with
    | none => none
    | some (child,as) =>
      match rest with
      | r :: rest => s.asCopyRegion p child as r rest o
      | [] =>
        if o.thread then
          let s := s.setProc { p with embryo := none, pc := .user }
          done { s with procs := s.procs ++ [⟨child,as,none,.user⟩] } []
        else s.abortFork p child as []
  | .linked ctx mr rest =>
    match p.embryo with
    | none => none
    | some (child,as) => s.addContextRef p child as ctx mr rest o.node
  | .tearing own [] =>
    done (s.setProc { p with pc := if own then .dead else .user, embryo := none }) []
  | .tearing own (r :: rest) => s.asDestroyRegion p own r rest
  | .unmapping ctx mr t => s.memregionUnmap p ctx mr t
  | .unmapped ctx t => s.dropContextRef p ctx t

end Shm

structure Proghdr where
  vaddr : Nat
  memsz : Nat
  filesz : Nat
  off : Nat
  writable : Bool
deriving DecidableEq, Repr

namespace Shm

def loadSegments : List Proghdr → Addrspace → Nat → Option (Except Err (Addrspace × Nat))
  | [], as, next => some (.ok (as,next))
  | ph :: phs, as, next =>
    let vaddr := u64 ph.vaddr
    let memsz := u64 ph.memsz
    if memsz < u64 ph.filesz ∨ u64 (vaddr + memsz) < vaddr then some (.error .inval)
    else do
      let (as,r) ← as.memregionMapInternal next (pgRoundDown vaddr) (pgRoundUp (u64 (memsz + pgOfs vaddr)))
        (if ph.writable then .urw else .ur) none ph.off false true
      match r with
      | none => some (.error .noMem)
      | some _ => loadSegments phs as (next+1)

def stackTop : Nat := ustackUpperbound - pgSize

def stackSetup (as : Addrspace) (next : Nat) : Option (Option Addrspace) := do
  let (as,r) ← as.memregionMapInternal next stackTop pgSize .urw none 0 false true
  match r with
  | none => some none
  | some _ => do
    let mr ← as.asFindMemregion stackTop 0
    if (as.asFindMemregion (ustackUpperbound - 10 * pgSize) (9 * pgSize)).isSome then none
    else
      some (some { as with
        regions := modify Memregion.id mr.id (fun r => { r with start := ustackUpperbound - 10 * pgSize })
          as.regions })

def spawn (s : Shm) (phs : List Proghdr) : Option Outcome := do
  match ← loadSegments phs ⟨false,[],none⟩ (s.next + 1) with
  | .error e => s.fail e
  | .ok (as,next) => do
    let (as,heap) ← as.memregionMapInternal next addrAnywhere 0 .urw none 0 false true
    match heap with
    | none => s.fail .noMem
    | some heap => do
      match ← stackSetup { as with heap := some heap.id } (next+1) with
      | none => s.fail .noMem
      | some as => done { s with procs := s.procs ++ [⟨s.next,as,none,.user⟩], next := next + 2 } []

inductive Op where
  | spawn (phs : List Proghdr)
  | createSharedRegion (pid : Nat) (name : List Nat) (size flag : Nat) (alloc : Bool)
  | destroySharedRegion (pid : Nat) (name : List Nat)
  | createMapping (pid : Nat) (name : List Nat) (alloc node : Bool)
  | destroyMapping (pid : Nat) (name : List Nat) (vaddr : Nat)
  | sbrk (pid : Nat) (size : Int)
  | fork (pid : Nat)
  | exit (pid : Nat)
  | advance (pid : Nat) (o : Oracle)
deriving DecidableEq, Repr

def caller (s : Shm) (pid : Nat) : Option Proc := do
  let p ← s.proc pid
  if p.pc = .user then some p else none

def step (s : Shm) : Op → Option Outcome
  | .spawn phs => s.spawn phs
  | .createSharedRegion pid name size flag alloc => do
    let _ ← s.caller pid
    s.sysCreateSharedRegion name size flag alloc
  | .destroySharedRegion pid name => do
    let _ ← s.caller pid
    s.destroySharedRegion name
  | .createMapping pid name alloc node => do
    let p ← s.caller pid
    s.createMapping p name alloc node
  | .destroyMapping pid name vaddr => do
    let p ← s.caller pid
    s.destroyMapping p name vaddr
  | .sbrk pid size => do
    let p ← s.caller pid
    s.sysSbrk p size
  | .fork pid => do
    let p ← s.caller pid
    s.fork p
  | .exit pid => do
    let p ← s.caller pid
    s.exit p
  | .advance pid o => do
    let p ← s.proc pid
    s.advance p o

def init : Shm := ⟨[],[],0⟩

def move (s : Shm) (o : Op) : Option Shm := (s.step o).map Outcome.shm

def run (ops : List Op) : Option Shm := ops.foldlM move init

end Shm
end MappedMemory
