import MappedMemory.Library.Run
import MappedMemory.Sfs.Disk

namespace MappedMemory.Bdev

open Function (update)
open Bytes Sfs

def pgSize : Nat := 4096

def nBlksPerPage : Nat := pgSize / bdevBlkSize

def firstBlkInPage (blk : Nat) : Nat := blk / nBlksPerPage * nBlksPerPage

def pgRoundDown (ofs : Nat) : Nat := ofs / pgSize * pgSize

structure BlkHeader where
  blk : Nat
  ofs : Nat
  dirty : Bool
  ref : Nat
deriving DecidableEq, Repr, Inhabited

structure Page where
  blkHeaders : List BlkHeader
  dirty : Bool

abbrev Bh := Nat × Nat

/- `cachedPages` is the radix tree of the device's store, as the map it implements. `held` are the references
that callers own, and `view` is history: what the blocks hold according to the writes made through headers. -/
structure Cache where
  device : Memory
  cachedPages : Nat → Option Nat
  pages : Nat → Page
  mem : Memory
  nextFrame : Nat
  supply : List Bool
  held : List Bh
  view : Memory

abbrev CacheM := StateT Cache Option

def kassert (p : Bool) : CacheM Unit := fun s => if p then some ((),s) else none

def grant : CacheM Bool := fun s =>
  match s.supply with
  | [] => some (true,s)
  | ok :: rest => some (ok,{ s with supply := rest })

def setPage (f : Nat) (p : Page) : CacheM Unit := modify fun s => { s with pages := update s.pages f p }

def pmemAlloc : CacheM (Option Nat) := do
  if !(← grant) then return none
  let s ← get
  set { s with nextFrame := s.nextFrame + 1, pages := update s.pages s.nextFrame ⟨[],false⟩ }
  return some s.nextFrame

def fillpage (ofs f : Nat) : CacheM Bool := do
  if !(← grant) then return false
  let blk := pgRoundDown ofs / bdevBlkSize
  modify fun s => { s with mem := fill s.mem (pgSize * f) pgSize fun k => s.device (bdevBlkSize * blk + k) }
  return true

def radixTreeInsert (index f : Nat) : CacheM Bool := do
  if !(← grant) then return false
  let s ← get
  kassert (s.cachedPages index).isNone
  set { s with cachedPages := update s.cachedPages index (some f) }
  return true

def pgcacheGetPage (ofs : Nat) : CacheM (Option Nat) := do
  let s ← get
  match s.cachedPages (ofs / pgSize) with
  | some f => return some f
  | none =>
    match ← pmemAlloc with
    | none => return none
    | some f =>
      if !(← fillpage ofs f) then return none
      if !(← radixTreeInsert (ofs / pgSize) f) then return none
      return some f

def newHeader (firstBlk index : Nat) : BlkHeader where
  blk := (firstBlk + index) % 2^32
  ofs := bdevBlkSize * index
  dirty := false
  ref := 0

def initLoop (f firstBlk : Nat) : Nat → Nat → CacheM Bool
  | 0, _ => return true
  | n + 1, index => do
    if !(← grant) then return false
    let s ← get
    setPage f { s.pages f with blkHeaders := (s.pages f).blkHeaders ++ [newHeader firstBlk index] }
    initLoop f firstBlk n (index + 1)

def initBlkHeaders (f firstBlk : Nat) : CacheM Bool := do
  let s ← get
  if (s.pages f).blkHeaders.isEmpty then initLoop f firstBlk nBlksPerPage 0 else return true

def Page.setRef (p : Page) (j ref : Nat) : Page :=
  { p with blkHeaders := p.blkHeaders.modify j fun bh => { bh with ref := ref } }

def Page.setDirty (p : Page) (j : Nat) (dirty : Bool) : Page where
  blkHeaders := p.blkHeaders.modify j fun bh => { bh with dirty := dirty }
  dirty := p.dirty || dirty

def bdevGetBlkUnlocked (blk : Nat) : CacheM (Option Bh) := do
  match ← pgcacheGetPage (blk * bdevBlkSize % 2^32) with
  | none => return none
  | some f =>
    if !(← initBlkHeaders f (firstBlkInPage blk)) then return none
    let s ← get
    match (s.pages f).blkHeaders.findIdx? fun bh => bh.blk = blk with
    | none => failure
    | some j =>
      setPage f ((s.pages f).setRef j (((s.pages f).blkHeaders.getD j default).ref + 1))
      return some (f,j)

def blocksZeroRef (p : Page) : Bool := p.blkHeaders.all fun bh => bh.ref = 0

def freeBlkHeaders (f : Nat) : CacheM Unit := do
  let s ← get
  if !(s.pages f).dirty then
    kassert ((s.pages f).blkHeaders.all fun bh => !bh.dirty)
    setPage f { s.pages f with blkHeaders := [] }

def bdevReleaseBlkUnlocked (h : Bh) : CacheM Unit := do
  let s ← get
  match (s.pages h.1).blkHeaders[h.2]? with
  | none => failure
  | some bh =>
    kassert (bh.ref > 0)
    setPage h.1 ((s.pages h.1).setRef h.2 (bh.ref - 1))
    let t ← get
    if bh.ref = 1 && blocksZeroRef (t.pages h.1) then freeBlkHeaders h.1

inductive Event where
  | get (blk : Nat)
  | release (h : Bh)
  | store (h : Bh) (k : Nat) (b : Byte)
  | setDirty (h : Bh) (dirty : Bool)

def Cache.header (s : Cache) (h : Bh) : Option BlkHeader := (s.pages h.1).blkHeaders[h.2]?

def Cache.data (h : Bh) (bh : BlkHeader) : Nat := pgSize * h.1 + bh.ofs

def step (s : Cache) : Event → Option Cache
  | .get blk => (bdevGetBlkUnlocked blk s).map fun r =>
    match r.1 with
    | none => r.2
    | some h => { r.2 with held := h :: r.2.held }
  | .release h =>
    if h ∈ s.held then (bdevReleaseBlkUnlocked h s).map fun r => { r.2 with held := s.held.erase h } else none
  | .store h k b =>
    if h ∈ s.held ∧ k < bdevBlkSize then (s.header h).map fun bh => { s with
      mem := poke s.mem (Cache.data h bh + k) b
      view := poke s.view (bdevBlkSize * bh.blk + k) b }
    else none
  | .setDirty h dirty =>
    if h ∈ s.held then
      some { s with pages := update s.pages h.1 ((s.pages h.1).setDirty h.2 dirty) }
    else none

def emptyCache (device mem : Memory) (supply : List Bool) : Cache where
  device := device
  cachedPages _ := none
  pages _ := ⟨[],false⟩
  mem := mem
  nextFrame := 0
  supply := supply
  held := []
  view := device

end MappedMemory.Bdev
