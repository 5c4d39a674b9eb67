import MappedMemory.Library.Crash
import MappedMemory.Sfs.Disk

namespace MappedMemory.Jbd

open Function (update)
open Bytes Sfs

def journalSize : Nat := 128

def sizeofBlkT : Nat := 4

def headerBlk : Nat := 0

def bmapStartBlk : Nat := headerBlk + 1

def bmapBlks : Nat :=
  journalSize * sizeofBlkT / bdevBlkSize + if journalSize * sizeofBlkT % bdevBlkSize = 0 then 0 else 1

def jdataStartBlk : Nat := bmapStartBlk + bmapBlks

def journalBlks : Nat := jdataStartBlk + journalSize

def journalBmap (start lb : Nat) : Nat := (start + lb) % 2^32

inductive JournalState where
  | idle | busy
deriving DecidableEq, Repr

inductive JbdErr where
  | ok | noMem
deriving DecidableEq, Repr

structure Write where
  blk : Nat
  data : Nat → Byte

def put (d : Memory) (w : Write) : Memory := fill d (bdevBlkSize * w.blk) bdevBlkSize w.data

structure Volume where
  start : Nat
  enabled : Bool
  state : JournalState
  datablks : List Nat
  cache : Memory
  device : Memory
  issued : List Write
  refs : Nat → Nat
  locked : Nat → Bool
  supply : List Bool

abbrev JbdM := StateT Volume Option

def kassert (p : Bool) : JbdM Unit := fun s => if p then some ((),s) else none

def grant : JbdM Bool := fun s =>
  match s.supply with
  | [] => some (true,s)
  | ok :: rest => some (ok,{ s with supply := rest })

def sleeplockAcquire (blk : Nat) : JbdM Unit := do
  let s ← get
  kassert !s.locked blk
  set { s with locked := update s.locked blk true }

def sleeplockRelease (blk : Nat) : JbdM Unit := do
  let s ← get
  kassert (s.locked blk)
  set { s with locked := update s.locked blk false }

def bdevGetBlk (blk : Nat) : JbdM Bool := do
  if !(← grant) then return false
  modify fun s => { s with refs := update s.refs blk (s.refs blk + 1) }
  sleeplockAcquire blk
  return true

def bdevReleaseBlk (blk : Nat) : JbdM Unit := do
  sleeplockRelease blk
  let s ← get
  kassert (s.refs blk > 0)
  set { s with refs := update s.refs blk (s.refs blk - 1) }

def buffer (m : Memory) (blk k : Nat) : Byte := m (bdevBlkSize * blk + k)

def bdevWriteBlk (blk : Nat) : JbdM JbdErr := do
  if !(← grant) then return .noMem
  modify fun s => { s with
    device := put s.device ⟨blk,buffer s.cache blk⟩
    issued := s.issued ++ [⟨blk,buffer s.cache blk⟩] }
  return .ok

def memmove (blk n : Nat) (f : Nat → Byte) : JbdM Unit :=
  modify fun s => { s with cache := fill s.cache (bdevBlkSize * blk) n f }

def andThen (x y : JbdM JbdErr) : JbdM JbdErr := do
  match ← x with
  | .noMem => return .noMem
  | .ok => y

def logBlk (pb : Nat) (copy : JbdM Unit) : JbdM JbdErr := do
  if !(← bdevGetBlk pb) then return .noMem
  copy
  andThen (bdevWriteBlk pb) do
    bdevReleaseBlk pb
    return .ok

def copyDatablk (pb blk : Nat) : JbdM Unit := do
  sleeplockAcquire blk
  let s ← get
  memmove pb bdevBlkSize (buffer s.cache blk)
  sleeplockRelease blk

def writeDataLoop : Nat → List Nat → JbdM JbdErr
  | _, [] => return .ok
  | i, blk :: rest => do
    let s ← get
    let pb := journalBmap s.start (jdataStartBlk + i)
    andThen (logBlk pb (copyDatablk pb blk)) (writeDataLoop (i + 1) rest)

def bmapByte (bmap : List Nat) (i k : Nat) : Byte :=
  byteOf (bmap.getD (i + k / sizeofBlkT) 0) (k % sizeofBlkT)

def writeBmapLoop (bmap : List Nat) : Nat → Nat → Nat → JbdM JbdErr
  | 0, _, _ => return .ok
  | n + 1, bi, i => do
    if i < bmap.length then
      let s ← get
      let pb := journalBmap s.start (bmapStartBlk + bi)
      let k := min (bdevBlkSize / sizeofBlkT) (bmap.length - i)
      andThen (logBlk pb (memmove pb (k * sizeofBlkT) (bmapByte bmap i))) (writeBmapLoop bmap n (bi + 1) (i + k))
    else return .ok

def writeJournalBlks : JbdM JbdErr := do
  let s ← get
  kassert (s.datablks.length < journalSize)
  andThen (writeDataLoop 0 s.datablks) (writeBmapLoop s.datablks bmapBlks 0 0)

def writeJournalHeader : JbdM JbdErr := do
  let s ← get
  let pb := journalBmap s.start headerBlk
  logBlk pb (memmove pb 4 (byteOf s.datablks.length))

def applyLoop : List Nat → JbdM JbdErr
  | [] => return .ok
  | blk :: rest => do
    sleeplockAcquire blk
    andThen (bdevWriteBlk blk) do
      bdevReleaseBlk blk
      applyLoop rest

def applyJournal : JbdM JbdErr := do
  let s ← get
  applyLoop s.datablks

def eraseJournal : JbdM JbdErr := do
  modify fun s => { s with datablks := [] }
  writeJournalHeader

def commitJournal : JbdM JbdErr :=
  andThen writeJournalBlks (andThen writeJournalHeader (andThen applyJournal eraseJournal))

def headerBlks (start : Nat) (d : Memory) : Nat := word d (bdevBlkSize * journalBmap start headerBlk) 4

def mappedBlk (start : Nat) (d : Memory) (i : Nat) : Nat :=
  word d (bdevBlkSize * journalBmap start (bmapStartBlk + i / (bdevBlkSize / sizeofBlkT)) +
    sizeofBlkT * (i % (bdevBlkSize / sizeofBlkT))) sizeofBlkT

def redo (start : Nat) (d : Memory) (i : Nat) : Memory :=
  put d ⟨mappedBlk start d i,buffer d (journalBmap start (jdataStartBlk + i))⟩

def recover (start : Nat) (d : Memory) : Memory := (List.range (headerBlks start d)).foldl (redo start) d

end MappedMemory.Jbd
