import Mathlib.Data.List.Sort
import MappedMemory.Pmem.Blocks
import MappedMemory.Shm.Context
import MappedMemory.Vpmap.Table

namespace MappedMemory
open Keyed

structure Pte where
  space : Nat
  vpn : Nat
  frame : Nat
  writable : Bool
deriving DecidableEq, Repr

def Pte.key (e : Pte) : Nat × Nat := (e.space,e.vpn)

structure Table where
  space : Nat
  path : List Nat
  frame : Nat
deriving DecidableEq, Repr

structure CachedPage where
  store : Nat
  index : Nat
  frame : Nat
deriving DecidableEq, Repr

def CachedPage.key (c : CachedPage) : Nat × Nat := (c.store,c.index)

structure World where
  shm : Shm
  pm : Pmem
  data : Nat → Nat → Nat
  tables : List Table
  ptes : List Pte
  cachedPages : List CachedPage
  kern : List Nat
  failures : Nat

def vpn (vaddr : Nat) : Nat := vaddr / pgSize % 2^36

def nPages (r : Memregion) : Nat := pgRoundUp (sub64 r.stop r.start) / pgSize

def pagesFrom (vaddr n : Nat) : List Nat :=
  (List.range n).map fun i => vpn (u64 (pgRoundDown vaddr + i * pgSize))

def tablePaths (n : Nat) : List (List Nat) :=
  let v := n * pgSize
  [[pml4x v],[pml4x v,pdptx v],[pml4x v,pdptx v,pdx v]]

def kernelSlot (n : Nat) : Bool := pml4x (n * pgSize) == pml4x kmapBase

def limit (first last : Nat) : Nat := if first < last then 512 else last + 1

def unmapVisits (start stop n : Nat) : Bool :=
  let v := n * pgSize
  let b := if pml4x v = pml4x start then pdptx start else 0
  let c := if pdptx v = b then pdx start else 0
  let d := if pdx v = c then ptx start else 0
  decide (pml4x start ≤ pml4x v ∧ pml4x v ≤ pml4x (sub64 stop 1) ∧
    b ≤ pdptx v ∧ pdptx v < limit b (pdptx stop) ∧
    c ≤ pdx v ∧ pdx v < limit c (pdx stop) ∧
    d ≤ ptx v ∧ ptx v < limit d (ptx stop))

inductive Release where
  | pte (e : Pte)
  | table (t : Table)
deriving DecidableEq, Repr

namespace Release

def path : Release → List Nat
  | .pte e => let v := e.vpn * pgSize; [pml4x v,pdptx v,pdx v,ptx v]
  | .table t => t.path

def before : List Nat → List Nat → Bool
  | _, [] => true
  | [], _ :: _ => false
  | a :: as, b :: bs => if a = b then before as bs else decide (a < b)

end Release

namespace World

def fill (w : World) (page : Nat) (bytes : Nat → Nat) : World :=
  { w with data := Function.update w.data page bytes }

def pmemAlloc (w : World) : Option (World × Option Nat) := do
  let (pm,page) ← w.pm.pmemAlloc
  some ({ w with pm := pm, failures := w.failures + page.isNone.toNat },page)

def pmemFree (w : World) (page : Nat) : Option World := do
  let pm ← w.pm.pmemFree page
  some { w with pm := pm }

def pmemIncRefcnt (w : World) (page n : Nat) : Option World := do
  let pm ← w.pm.pmemIncRefcnt page n
  some { w with pm := pm }

def pmemDecRefcnt (w : World) (page : Nat) : Option World := do
  let pm ← w.pm.pmemDecRefcnt page
  some { w with pm := pm }

def hasTable (w : World) (space : Nat) (path : List Nat) : Bool :=
  w.tables.any fun t => t.space == space && t.path == path

def addTable (w : World) (space : Nat) (path : List Nat) (page : Nat) : World :=
  { w.fill page fun _ => 0 with tables := ⟨space,path,page⟩ :: w.tables }

def findPteFrom (space : Nat) : List (List Nat) → World → Option (World × Bool)
  | [], w => some (w,true)
  | path :: paths, w =>
    if w.hasTable space path then findPteFrom space paths w
    else do
      let (w,page) ← w.pmemAlloc
      match page with
      | none => some (w,false)
      | some page => findPteFrom space paths (w.addTable space path page)

def findPte (w : World) (space n : Nat) : Option (World × Bool) :=
  if w.hasTable space [] && !kernelSlot n then findPteFrom space (tablePaths n) w else none

def lookupPte (w : World) (space n : Nat) : Option Pte := lookup Pte.key (space,n) w.ptes

def setPte (w : World) (e : Pte) : World := { w with ptes := e :: remove Pte.key e.key w.ptes }

def vpmapMap (w : World) (space n page : Nat) (writable : Bool) : Option (World × Bool) := do
  let (w,found) ← w.findPte space n
  if found then some (w.setPte ⟨space,n,page,writable⟩,true) else some (w,false)

def vpmapSetPerm (w : World) (space : Nat) (ns : List Nat) (writable : Bool) : World :=
  { w with ptes := w.ptes.map fun e =>
      if e.space = space ∧ e.vpn ∈ ns then { e with writable := writable } else e }

def vpmapCreate (w : World) (space : Nat) : Option (World × Bool) := do
  let (w,page) ← w.pmemAlloc
  match page with
  | none => some (w,false)
  | some page => some (w.addTable space [] page,true)

def vpmapCowCopyFrom (src dst : Nat) : List Nat → World → Option (World × Bool)
  | [], w => some (w,true)
  | n :: ns, w =>
    match w.lookupPte src n with
    | none => vpmapCowCopyFrom src dst ns w
    | some e => do
      let (w,found) ← w.findPte dst n
      if !found || (w.lookupPte dst n).isSome then some (w,false)
      else do
        let w ← w.pmemIncRefcnt e.frame 1
        vpmapCowCopyFrom src dst ns (w.setPte ⟨dst,n,e.frame,e.writable⟩)

def vpmapCowCopy (w : World) (src dst : Nat) (r : Memregion) : Option (World × Bool) :=
  let ns := pagesFrom r.start (nPages r)
  vpmapCowCopyFrom src dst ns (w.vpmapSetPerm src ns false)

def vpmapCopyFrom (src dst : Nat) (writable : Bool) : List Nat → World → Option (World × Bool)
  | [], w => some (w,true)
  | n :: ns, w =>
    match w.lookupPte src n with
    | none => vpmapCopyFrom src dst writable ns w
    | some e => do
      let (w,found) ← w.findPte dst n
      if !found || (w.lookupPte dst n).isSome then some (w,false)
      else do
        let (w,page) ← w.pmemAlloc
        match page with
        | none => some (w,false)
        | some page =>
          vpmapCopyFrom src dst writable ns
            ((w.fill page (w.data e.frame)).setPte ⟨dst,n,page,writable⟩)

def vpmapCopy (w : World) (src dst : Nat) (r : Memregion) : Option (World × Bool) :=
  vpmapCopyFrom src dst (decide (r.perm = .urw)) (pagesFrom r.start (nPages r)) w

def release (w : World) : Release → Option World
  | .pte e => do
    let w ← w.pmemDecRefcnt e.frame
    some { w with ptes := w.ptes.erase e }
  | .table t => do
    let w ← w.pmemFree t.frame
    some { w with tables := w.tables.erase t }

def unmapList (w : World) (space start stop : Nat) : List Release :=
  ((w.ptes.filter fun e => e.space == space && unmapVisits start stop e.vpn).insertionSort
    fun e f => e.vpn ≤ f.vpn).map .pte

def vpmapUnmap (w : World) (space vaddr n : Nat) : Option World :=
  if !w.hasTable space [] || n == 0 then some w
  else
    let start := pgRoundDown vaddr
    let stop := u64 (start + n * pgSize)
    if pml4x start ≤ pml4x stop ∧ pml4x start ≤ pml4x (sub64 stop 1) ∧ pml4x (sub64 stop 1) < pml4x kmapBase then
      (w.unmapList space start stop).foldlM release w
    else none

def destroyList (w : World) (space : Nat) : List Release :=
  ((w.ptes.filter fun e => e.space == space).map Release.pte ++
    (w.tables.filter fun t => t.space == space).map Release.table).insertionSort
      fun x y => Release.before x.path y.path = true

def vpmapDestroy (w : World) (space : Nat) : Option World :=
  if w.hasTable space [] then (w.destroyList space).foldlM release w else some w

def pgcacheGetPage (w : World) (store index : Nat) (radix : Bool) : Option (World × Option Nat) :=
  match lookup CachedPage.key (store,index) w.cachedPages with
  | some c => some (w,some c.frame)
  | none => do
    let (w,page) ← w.pmemAlloc
    match page with
    | none => some (w,none)
    | some page =>
      if radix then
        some ({ w.fill page fun _ => 0 with cachedPages := ⟨store,index,page⟩ :: w.cachedPages },some page)
      else do
        let w ← w.pmemFree page
        some ({ w with failures := w.failures + 1 },none)

def setupPage (w : World) (space n : Nat) (bytes : Nat → Nat) (writable : Bool) : Option (World × Bool) := do
  let (w,page) ← w.pmemAlloc
  match page with
  | none => some (w,false)
  | some page => do
    let (w,mapped) ← (w.fill page bytes).vpmapMap space n page writable
    if mapped then some (w,true)
    else do
      let w ← w.pmemFree page
      some (w,false)

def handleCOW (w : World) (space n : Nat) : Option (World × Bool) :=
  match w.lookupPte space n with
  | none => some (w,false)
  | some e =>
    if w.pm.refcnt e.frame = 1 then some (w.vpmapSetPerm space [n] true,true)
    else do
      let (w,page) ← w.pmemAlloc
      match page with
      | none => some (w,false)
      | some page => do
        let (w,mapped) ← (w.fill page (w.data e.frame)).vpmapMap space n page true
        if mapped then do
          let w ← w.pmemDecRefcnt e.frame
          some (w,true)
        else do
          let w ← w.pmemFree page
          some (w,false)

def handleSharedRegion (w : World) (space : Nat) (r : Memregion) (vaddr : Nat) (radix : Bool) :
    Option (World × Bool) := do
  let store ← r.store
  let (w,page) ← w.pgcacheGetPage store ((vaddr - r.start) / pgSize) radix
  match page with
  | none => some (w,false)
  | some page => do
    let (w,mapped) ← w.vpmapMap space (vpn vaddr) page true
    if mapped then do
      let w ← w.pmemIncRefcnt page 1
      some (w,true)
    else some (w,false)

def handlePageFault (w : World) (p : Proc) (vaddr : Nat) (present write user radix : Bool) :
    Option (World × Bool) :=
  match p.as.asFindMemregion vaddr 1 with
  | none => some (w,false)
  | some mr => do
    let (w,handled) ← (if mr.shared then w.handleSharedRegion p.pid mr vaddr radix else some (w,false))
    if handled then some (w,true)
    else do
      let (w,handled) ←
        (if present && write && decide (mr.perm = .urw) then w.handleCOW p.pid (vpn vaddr) else some (w,false))
      if handled then some (w,true)
      else if user then
        if mr.stop = ustackUpperbound ∨ p.as.heap = some mr.id then
          w.setupPage p.pid (vpn vaddr) (fun _ => 0) true
        else some (w,false)
      else none

def canonical (vaddr : Nat) : Bool := decide (vaddr < 2^47 ∨ (2^64 - 2^47 ≤ vaddr ∧ vaddr < 2^64))

inductive Reply where
  | sys (err : Err) (ret : Option Nat)
  | loaded (byte : Nat)
  | stored
  | killed
  | block (page : Option Nat)
deriving DecidableEq, Repr

def translate (w : World) (space vaddr : Nat) (write : Bool) : Option Pte :=
  (w.lookupPte space (vpn vaddr)).filter fun e => !write || e.writable

def perform (w : World) (e : Pte) (ofs : Nat) : Option Nat → World × Reply
  | none => (w,.loaded (w.data e.frame ofs))
  | some byte => (w.fill e.frame (Function.update (w.data e.frame) ofs byte),.stored)

section fork
variable (eager : Bool)

def applyEffect (w : World) : Effect → Option World
  | .destroyTable space => w.vpmapDestroy space
  | .unmap space r => w.vpmapUnmap space r.start (nPages r)
  | .cowCopy src dst r copied => do
    let (w,ok) ← (if eager then w.vpmapCopy src dst r else w.vpmapCowCopy src dst r)
    if ok = copied then some w else none
  | .freeStore ctx => some { w with cachedPages := w.cachedPages.filter fun c => c.store != ctx }

def call (w : World) (o : Shm.Op) : Option (World × Reply) := do
  let out ← w.shm.step o
  let w ← out.effects.foldlM (applyEffect eager) w
  some ({ w with shm := out.shm },.sys out.err out.ret)

def access (w : World) (pid : Nat) (vaddr : Nat) (byte : Option Nat) (user radix : Bool) :
    Option (World × Reply) := do
  let p ← w.shm.caller pid
  if !canonical vaddr then none
  else
    match w.translate pid vaddr byte.isSome with
    | some e => some (w.perform e (pgOfs vaddr) byte)
    | none => do
      let present := (w.lookupPte pid (vpn vaddr)).isSome
      let (w,resume) ← w.handlePageFault p vaddr present byte.isSome user radix
      if resume then do
        let e ← w.translate pid vaddr byte.isSome
        some (w.perform e (pgOfs vaddr) byte)
      else do
        let (w,_) ← w.call eager (.exit pid)
        some (w,.killed)

def fork (w : World) (pid : Nat) : Option (World × Reply) := do
  let _ ← w.shm.caller pid
  let (w,created) ← w.vpmapCreate w.shm.next
  if created then w.call eager (.fork pid) else some (w,.sys .noMem none)

end fork

def segmentPages (ph : Proghdr) : List (Nat × Bool) :=
  let vaddr := u64 ph.vaddr
  (List.range (pgRoundUp (u64 (u64 ph.memsz + pgOfs vaddr)) / pgSize)).map fun i =>
    (vpn (u64 (vaddr + i * pgSize)),ph.writable)

def loadPages (space : Nat) (file : Nat → Nat → Nat) : List (Nat × Bool) → World → Option (World × Bool)
  | [], w => some (w,true)
  | (n,writable) :: rest, w => do
    let (w,page) ← w.pmemAlloc
    match page with
    | none => some (w,false)
    | some page => do
      let (w,mapped) ← (w.fill page (file n)).vpmapMap space n page writable
      if mapped then loadPages space file rest w else some (w,false)

def spawn (w : World) (phs : List Proghdr) (file : Nat → Nat → Nat) : Option (World × Reply) := do
  let out ← w.shm.spawn phs
  if out.err ≠ .ok then some (w,.sys out.err none)
  else do
    let space := w.shm.next
    let (w,created) ← w.vpmapCreate space
    if !created then some (w,.sys .noMem none)
    else do
      let (w,loaded) ← loadPages space file (phs.flatMap segmentPages) w
      let (w,ready) ←
        (if loaded then w.setupPage space (vpn Shm.stackTop) (file (vpn Shm.stackTop)) true else some (w,false))
      if ready then some ({ w with shm := out.shm },.sys .ok none)
      else do
        let w ← w.vpmapDestroy space
        some (w,.sys .noMem none)

inductive Op where
  | spawn (phs : List Proghdr) (file : Nat → Nat → Nat)
  | fork (pid : Nat)
  | call (o : Shm.Op)
  | access (pid vaddr : Nat) (byte : Option Nat) (user radix : Bool)
  | nalloc (n : Nat)
  | nfree (page n : Nat)

def step (eager : Bool) (w : World) : Op → Option (World × Reply)
  | .spawn phs file => w.spawn phs file
  | .fork pid => w.fork eager pid
  | .call (.spawn _) | .call (.fork _) => none
  | .call o => w.call eager o
  | .access pid vaddr byte user radix => w.access eager pid vaddr byte user radix
  | .nalloc n =>
    if 1 ≤ n ∧ n ≤ 2^maxOrder then do
      let (pm,page) ← w.pm.pmemNalloc n
      some ({ w with pm := pm, kern := page.toList ++ w.kern },.block page)
    else none
  | .nfree page n =>
    if page ∈ w.kern then do
      let pm ← w.pm.pmemNfree page n
      some ({ w with pm := pm, kern := w.kern.erase page },.block none)
    else none

def move (eager : Bool) (w : World) (o : Op) : Option World := (w.step eager o).map Prod.fst

def boot (pm : Pmem) (data : Nat → Nat → Nat) : World :=
  ⟨Shm.init,pm,data,[],[],[],(List.range pm.pagemapEnd).filter fun p => decide (0 < pm.refcnt p),0⟩

def init (cfg : Alloc.Config) (data : Nat → Nat → Nat) : Option World :=
  (Alloc.init cfg).map fun a => boot a.pm data

def run (cfg : Alloc.Config) (data : Nat → Nat → Nat) (ops : List Op) : Option World := do
  let w ← init cfg data
  ops.foldlM (move false) w

end World
end MappedMemory
