import MappedMemory.Library.Walk
import MappedMemory.Pmem.Operations
import MappedMemory.Vm.Region

namespace MappedMemory

open Function (update)

def pml4x (v : Nat) : Nat := v / 2^39 % 512

def pdptx (v : Nat) : Nat := v / 2^30 % 512

def pdx (v : Nat) : Nat := v / 2^21 % 512

def ptx (v : Nat) : Nat := v / 2^12 % 512

def ppn (p : Nat) : Nat := p % 2^51 / pgSize * pgSize

def pteP : Nat := 1

def pteW : Nat := 2

def pteU : Nat := 4

def present (entry : Nat) : Bool := entry % 2 == 1

def entryFrame (entry : Nat) : Nat := ppn entry / pgSize

def mempermToPteperm : Memperm → Nat
  | .r => 0
  | .rw => pteW
  | .ur => pteU
  | .urw => pteU + pteW

structure Tables where
  pm : Pmem
  mem : Nat → Nat → Nat
  kpml4 : Nat
  pml4s : List Nat

namespace Tables

def setEntry (m : Tables) (table index entry : Nat) : Tables :=
  { m with mem := update m.mem table (update (m.mem table) index entry) }

def clearPage (m : Tables) (page : Nat) : Tables := { m with mem := update m.mem page fun _ => 0 }

def nextTable (m : Tables) (table index : Nat) (alloc : Bool) : Option (Tables × Option Nat) :=
  if present (m.mem table index) then some (m,some (entryFrame (m.mem table index)))
  else if alloc then do
    let (pm,page) ← m.pm.pmemAlloc
    match page with
    | none => some ({ m with pm := pm },none)
    | some page =>
      let entry := page * pgSize + pteP + pteW + pteU
      some (({ m with pm := pm }.clearPage page).setEntry table index entry,some (entryFrame entry))
  else some (m,none)

def findPte (m : Tables) (pml4 vaddr : Nat) (alloc : Bool) : Option (Tables × Option (Nat × Nat)) := do
  let (m,pdpt) ← m.nextTable pml4 (pml4x vaddr) alloc
  match pdpt with
  | none => some (m,none)
  | some pdpt => do
    let (m,pgdir) ← m.nextTable pdpt (pdptx vaddr) alloc
    match pgdir with
    | none => some (m,none)
    | some pgdir => do
      let (m,pgtab) ← m.nextTable pgdir (pdx vaddr) alloc
      match pgtab with
      | none => some (m,none)
      | some pgtab => some (m,some (pgtab,ptx vaddr))

def mapPagesFrom (pml4 perm : Nat) : Nat → Tables → Nat → Nat → Option (Tables × Bool)
  | 0, m, _, _ => some (m,true)
  | n+1, m, v, paddr => do
    let (m,pte) ← m.findPte pml4 v true
    match pte with
    | none => some (m,false)
    | some (table,index) =>
      mapPagesFrom pml4 perm n (m.setEntry table index (ppn paddr + pteP + perm)) (u64 (v + pgSize))
        (u64 (paddr + pgSize))

def mapPages (m : Tables) (pml4 vaddr paddr size perm : Nat) : Option (Tables × Bool) :=
  mapPagesFrom pml4 perm (sub64 (pgRoundDown (u64 (vaddr + size))) (pgRoundDown vaddr) / pgSize) m
    (pgRoundDown vaddr) (pgRoundDown paddr)

def vpmapMap (m : Tables) (pml4 vaddr paddr n : Nat) (perm : Memperm) : Option (Tables × Bool) :=
  if n = 0 then some (m,true)
  else m.mapPages pml4 (pgRoundDown vaddr) (pgRoundDown paddr) (u64 (n * pgSize)) (mempermToPteperm perm)

def vpmapLookupVaddr (m : Tables) (pml4 vaddr : Nat) : Option Nat :=
  match m.findPte pml4 vaddr false with
  | some (_,some (table,index)) =>
    if present (m.mem table index) then some (ppn (m.mem table index) + vaddr % pgSize) else none
  | _ => none

def vpmapCreate (m : Tables) : Option (Tables × Option Nat) := do
  let (pm,page) ← m.pm.pmemAlloc
  match page with
  | none => some ({ m with pm := pm },none)
  | some page => some ({ m with pm := pm }.clearPage page,some page)

def vpmapCopyKernelMapping (m : Tables) (pml4 : Nat) : Tables :=
  if present (m.mem m.kpml4 (pml4x kmapBase)) then
    m.setEntry pml4 (pml4x kmapBase) (m.mem m.kpml4 (pml4x kmapBase))
  else m

def asInit (m : Tables) : Option (Tables × Option Nat) := do
  let (m,page) ← m.vpmapCreate
  match page with
  | none => some (m,none)
  | some page => some ({ m.vpmapCopyKernelMapping page with pml4s := page :: m.pml4s },some page)

end Tables
end MappedMemory
