import MappedMemory.Machine.Word

namespace MappedMemory

inductive Memperm where
  | r | rw | ur | urw
deriving DecidableEq, Repr

def isKernMemperm : Memperm → Bool
  | .r | .rw => true
  | .ur | .urw => false

structure Memregion where
  id : Nat
  start : Nat
  stop : Nat
  perm : Memperm
  shared : Bool
  store : Option Nat
  ofs : Nat
deriving DecidableEq, Repr

structure Addrspace where
  kas : Bool
  regions : List Memregion
  heap : Option Nat
deriving DecidableEq, Repr

def listAppendOrdered {α : Type} (compare : α → α → Int) : List α → α → List α
  | [], node => [node]
  | n :: ns, node =>
    if compare n node > 0 then node :: n :: ns
    else n :: listAppendOrdered compare ns node

def memregionComparator (a b : Memregion) : Int := if a.start ≥ b.stop then 1 else 0

namespace Addrspace

def memregionAllocated (as : Addrspace) (start stop : Nat) : Option Bool :=
  if stop ≥ start then
    some (as.regions.any (fun r => decide (start < r.stop) && decide (stop > r.start)))
  else none

def findFreeVaddrFrom (size : Nat) : List Memregion → Nat → Option Nat
  | [], addr =>
    if pgRoundUp (u64 (addr + size)) < sub64 ustackLowerbound size then some addr else none
  | r :: rs, addr =>
    if pgRoundUp (u64 (addr + size)) < r.start then some addr
    else findFreeVaddrFrom size rs (pgRoundUp r.stop)

def findFreeVaddr (as : Addrspace) (size : Nat) : Option (Option Nat) :=
  if as.kas then none else some (findFreeVaddrFrom size as.regions 0)

def asFindMemregion (as : Addrspace) (addr size : Nat) : Option Memregion :=
  as.regions.find? (fun r => decide (addr ≥ r.start) && decide (u64 (addr + size) ≤ pgRoundUp r.stop))

def memregionMapAt (as : Addrspace) (r : Memregion) (size : Nat) (alloc : Bool) :
    Option (Addrspace × Option Memregion) :=
  if ¬ pgAligned r.start then none
  else if ¬ u64 (r.start + pgRoundUp size) ≥ r.start then none
  else if ¬ as.kas ∧ (isKernMemperm r.perm ∨
      ¬ isUserAddr (sub64 (u64 (r.start + pgRoundUp size)) 1)) then some (as, none)
  else do
    let overlap ← as.memregionAllocated r.start r.stop
    if overlap then some (as, none)
    else if alloc then
      some ({ as with regions := listAppendOrdered memregionComparator as.regions r }, some r)
    else some (as, none)

def memregionMapInternal (as : Addrspace) (id addr size : Nat) (perm : Memperm)
    (store : Option Nat) (ofs : Nat) (shared alloc : Bool) :
    Option (Addrspace × Option Memregion) := do
  let found ← if addr = addrAnywhere then as.findFreeVaddr size else some (some addr)
  match found with
  | none => some (as, none)
  | some a => as.memregionMapAt ⟨id, a, u64 (a + size), perm, shared, store, ofs⟩ size alloc

def memregionUnmapInternal (as : Addrspace) (id : Nat) : Addrspace :=
  { as with regions := as.regions.eraseP (fun r => r.id == id) }

def memregionCopyInternal (as : Addrspace) (src : Memregion) (id addr : Nat) (alloc copied : Bool) :
    Option (Addrspace × Option Nat) := do
  let (as', dst) ← as.memregionMapInternal id addr (sub64 src.stop src.start) src.perm src.store
    src.ofs src.shared alloc
  match dst with
  | none => some (as', none)
  | some r =>
    if src.shared then
      if src.store.isSome then
        some (if copied then as' else as'.memregionUnmapInternal r.id, some r.id)
      else none
    else if copied then some (as', some r.id)
    else some (as'.memregionUnmapInternal r.id, none)

end Addrspace

abbrev Spaces := Nat → Addrspace

structure Vm where
  spaces : Spaces
  next : Nat

namespace Vm

def setSpace (s : Vm) (a : Nat) (as : Addrspace) : Vm :=
  { spaces := Function.update s.spaces a as, next := s.next + 1 }

def asMapMemregion (s : Vm) (a addr size : Nat) (perm : Memperm) (store : Option Nat) (ofs : Nat)
    (shared alloc : Bool) : Option Vm := do
  let (as, _) ← (s.spaces a).memregionMapInternal s.next (u64 addr) (u64 size) perm store ofs
    shared alloc
  some (s.setSpace a as)

def memregionUnmap (s : Vm) (a id : Nat) : Option Vm :=
  if (s.spaces a).regions.any (fun r => r.id == id) then
    some (s.setSpace a ((s.spaces a).memregionUnmapInternal id))
  else none

def asCopyMemregion (s : Vm) (a : Nat) (src : Memregion) (addr : Nat) (alloc copied : Bool) :
    Option Vm :=
  if pgAligned addr then do
    let (as, _) ← (s.spaces a).memregionCopyInternal src s.next (u64 addr) alloc copied
    some (s.setSpace a as)
  else none

def asCopyRegions (heap : Option Nat) (dst : Nat) :
    List Memregion → List (Bool × Bool) → Vm → Option Vm
  | [], _, s => some s
  | r :: rs, outcomes, s => do
    let o := outcomes.headD (true, true)
    let (as, copy) ← (s.spaces dst).memregionCopyInternal r s.next r.start o.1 o.2
    match copy with
    | none => some (s.setSpace dst as)
    | some id =>
      asCopyRegions heap dst rs outcomes.tail
        (s.setSpace dst { as with heap := if heap = some r.id then some id else as.heap })

def asCopyAs (s : Vm) (src dst : Nat) (outcomes : List (Bool × Bool)) : Option Vm :=
  if src = dst then none
  else asCopyRegions (s.spaces src).heap dst (s.spaces src).regions outcomes s

inductive Op where
  | map (a addr size : Nat) (perm : Memperm) (store : Option Nat) (ofs : Nat) (shared alloc : Bool)
  | unmap (a id : Nat)
  | copyMemregion (src id dst addr : Nat) (alloc copied : Bool)
  | copyAs (src dst : Nat) (outcomes : List (Bool × Bool))
deriving Repr

def step (s : Vm) : Op → Option Vm
  | .map a addr size perm store ofs shared alloc =>
    s.asMapMemregion a addr size perm store ofs shared alloc
  | .unmap a id => s.memregionUnmap a id
  | .copyMemregion src id dst addr alloc copied =>
    match (s.spaces src).regions.find? (fun r => r.id == id) with
    | none => none
    | some r => s.asCopyMemregion dst r addr alloc copied
  | .copyAs src dst outcomes => s.asCopyAs src dst outcomes

def init : Vm where
  spaces := fun a => ⟨a == 0, [], none⟩
  next := 0

def run (s : Vm) (ops : List Op) : Option Vm := ops.foldlM step s

end Vm
end MappedMemory
