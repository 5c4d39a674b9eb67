import MappedMemory.Library.Run
import MappedMemory.Machine.Word

namespace MappedMemory.Kmalloc

open Function (update)

def sizeofSlab : Nat := 40

def sizeofInt : Nat := 4

def minObjsPerSlab : Nat := 128

structure Slab where
  objs : Nat
  free : Int
  nPages : Nat
  freeArr : Nat → Int

structure Obj where
  addr : Nat
  slab : Nat
  slot : Nat
deriving DecidableEq, Repr

structure Cache where
  objSize : Nat
  full : List Nat
  free : List Nat
  slabs : Nat → Option Slab
  pageSlab : Nat → Option Nat
  live : List Obj

def kmemCacheCreate (size : Nat) : Cache := ⟨size,[],[],fun _ => none,fun _ => none,[]⟩

def nPages (objSize : Nat) : Nat :=
  pgRoundUp (u64 (sizeofSlab + u64 (u64 (objSize + sizeofInt) * minObjsPerSlab))) / pgSize

def nObjs (objSize : Nat) : Nat :=
  sub64 (u64 (nPages objSize * pgSize)) sizeofSlab / u64 (objSize + sizeofInt)

def linkPages (pageSlab : Nat → Option Nat) (slab n : Nat) : Nat → Option Nat :=
  (List.range n).foldl (fun m i => update m (slab / pgSize + i) (some slab)) pageSlab

def initFree (n : Nat) : Nat → Int :=
  update ((List.range (n - 1)).foldl (fun m (i : Nat) => update m i (i + 1 : Int)) fun _ => 0) (n - 1) (-1)

def fresh (s : Cache) (a n : Nat) : Prop :=
  a % pgSize = 0 ∧ a ≠ 0 ∧ a + n * pgSize ≤ 2^64 ∧
    ∀ b ∈ s.free ++ s.full, ∀ t ∈ s.slabs b, a + n * pgSize ≤ b ∨ b + t.nPages * pgSize ≤ a

instance (s : Cache) (a n : Nat) : Decidable (fresh s a n) := inferInstanceAs (Decidable (_ ∧ _))

def slabCreate (s : Cache) (pages : Option Nat) : Option (Cache × Option Nat) :=
  if s.objSize = 0 ∨ nPages s.objSize = 0 then none
  else match pages with
    | none => some (s,none)
    | some a =>
      if u64 (s.objSize + sizeofInt) = 0 ∨ nObjs s.objSize < minObjsPerSlab ∨ ¬fresh s a (nPages s.objSize) then none
      else
        let objs := u64 (a + sizeofSlab + sizeofInt * nObjs s.objSize)
        let slab : Slab := ⟨objs,0,nPages s.objSize,initFree (nObjs s.objSize)⟩
        some ({ s with
          slabs := update s.slabs a (some slab)
          pageSlab := linkPages s.pageSlab a (nPages s.objSize)
          free := s.free ++ [a] },some a)

def takeSlot (s : Cache) (a : Nat) : Option (Cache × Option Nat) := do
  let slab ← s.slabs a
  if slab.free < 0 then none
  else
    let slot := slab.free.toNat
    let obj := u64 (slab.objs + u64 (s.objSize * slot))
    let s := { s with
      slabs := update s.slabs a (some { slab with free := slab.freeArr slot })
      live := s.live ++ [⟨obj,a,slot⟩] }
    some (if slab.freeArr slot = -1 then { s with free := s.free.erase a, full := s.full ++ [a] } else s,some obj)

def kmemCacheAlloc (s : Cache) (pages : Option Nat) : Option (Cache × Option Nat) :=
  match s.free with
  | a :: _ => takeSlot s a
  | [] => do
    let (s,slab) ← slabCreate s pages
    match slab with
    | none => some (s,none)
    | some a => takeSlot s a

def slotOf (s : Cache) (slab : Slab) (obj : Nat) : Int := int32 (sub64 obj slab.objs / s.objSize : Nat)

def giveSlot (s : Cache) (a : Nat) (slab : Slab) (slot obj : Nat) : Cache :=
  let s := { s with
    slabs := update s.slabs a
      (some { slab with freeArr := update slab.freeArr slot slab.free, free := slot })
    live := s.live.filter (·.addr ≠ obj) }
  if slab.free = -1 then { s with full := s.full.erase a, free := s.free ++ [a] } else s

def kmemCacheFree (s : Cache) (obj : Nat) : Option Cache := do
  let a ← s.pageSlab (obj / pgSize)
  let slab ← s.slabs a
  let index := slotOf s slab obj
  if index < 0 then none else some (giveSlot s a slab index.toNat obj)

inductive Op where
  | alloc (pages : Option Nat)
  | free (obj : Nat)
deriving DecidableEq, Repr

def step (s : Cache) : Op → Option Cache
  | .alloc pages => (kmemCacheAlloc s pages).map Prod.fst
  | .free obj => if ∃ o ∈ s.live, o.addr = obj then kmemCacheFree s obj else none

def run (size : Nat) (ops : List Op) : Option Cache := ops.foldlM step (kmemCacheCreate size)

end MappedMemory.Kmalloc
