import MappedMemory.Sfs.Disk

namespace MappedMemory.Sfs

open Bytes

def bitsPerBlk : Nat := bdevBlkSize * 8

def firstClear (m : Memory) (a : Nat) : Nat → Nat → Option Nat
  | 0, _ => none
  | n + 1, i => if bit m a i then firstClear m a n (i + 1) else some i

def bmapAllocElement (bmapBlk size : Nat) : FsM (Option Nat) := do
  let s ← get
  match firstClear s.disk (bdevBlkSize * bmapBlk) (size * 8) 0 with
  | none => return none
  | some index =>
    let byte := bdevBlkSize * bmapBlk + index / 8
    set { s with disk := poke s.disk byte (s.disk byte ||| 1#8 <<< (index % 8)) }
    return some index

def bmapFreeElement (bmapBlk index : Nat) : FsM Unit := do
  let s ← get
  let byte := bdevBlkSize * bmapBlk + index / 8
  set { s with disk := poke s.disk byte (s.disk byte &&& ~~~(1#8 <<< (index % 8))) }

def clearNewBlk (bmapBlk index blk : Nat) : FsM (Except SfsErr Nat) := do
  if !(← bdevGetBlk blk) then
    bmapFreeElement bmapBlk index
    bdevReleaseBlk bmapBlk
    return .error .noMem
  bdevReleaseBlk bmapBlk
  modifyDisk fun m => fill m (bdevBlkSize * blk) bdevBlkSize fun _ => 0
  bdevReleaseBlk blk
  return .ok blk

def allocFrom : Nat → Nat → Nat → FsM (Except SfsErr Nat)
  | 0, _, _ => return .error .noRes
  | n + 1, bmapBlk, numBlks => do
    let s ← get
    if !(← bdevGetBlk bmapBlk) then return .error .noMem
    match ← bmapAllocElement bmapBlk (min bdevBlkSize (numBlks / 8)) with
    | some index =>
      clearNewBlk bmapBlk index
        ((s.sb.sDataStart + bitsPerBlk * (bmapBlk - s.sb.sDataBmapStart) + index) % 2^32)
    | none =>
      bdevReleaseBlk bmapBlk
      allocFrom n (bmapBlk + 1) (sub64 numBlks bitsPerBlk)

def allocDataBlock : FsM (Except SfsErr Nat) := do
  let s ← get
  allocFrom (s.sb.sJournalStart - s.sb.sDataBmapStart) s.sb.sDataBmapStart s.sb.sSize

def allocAddr (i k : Nat) : FsM (Except SfsErr Nat) := do
  match ← allocDataBlock with
  | .error e => return .error e
  | .ok blk =>
    let c ← inode i
    setInode i (some { c with iAddrs := Function.update c.iAddrs k blk, dirty := true })
    let _ ← sfsWriteInode i
    return .ok blk

def addrSlot (i k : Nat) (alloc : Bool) : FsM (Except SfsErr Nat) := do
  let c ← inode i
  if c.iAddrs k ≠ 0 then return .ok (c.iAddrs k)
  if !alloc then return .error .notExist
  allocAddr i k

def entrySlot (indirBlk j : Nat) (alloc : Bool) : FsM (Except SfsErr Nat) := do
  let a := bdevBlkSize * indirBlk + 4 * j
  let s ← get
  if word s.disk a 4 ≠ 0 then return .ok (word s.disk a 4)
  if !alloc then return .error .notExist
  match ← allocDataBlock with
  | .error e => return .error e
  | .ok blk =>
    modifyDisk fun m => putWord m a 4 blk
    return .ok blk

def findBlk (i blkIndex : Nat) (alloc : Bool) : FsM (Option Nat × Except SfsErr Nat) := do
  if blkIndex < sfsNdirect then return (none,← addrSlot i blkIndex alloc)
  let k := sfsNdirect + (blkIndex - sfsNdirect) / ptrsPerBlk
  kassert (k < sfsNdirect + sfsNindirect)
  match ← addrSlot i k alloc with
  | .error e => return (none,.error e)
  | .ok indirBlk =>
    kassert (indirBlk > 0)
    if !(← bdevGetBlk indirBlk) then return (none,.error .noMem)
    match ← entrySlot indirBlk ((blkIndex - sfsNdirect) % ptrsPerBlk) alloc with
    | .error e => return (some indirBlk,.error e)
    | .ok blk =>
      bdevReleaseBlk indirBlk
      return (some indirBlk,.ok blk)

def getDataFail (i : Nat) (indirBh : Option Nat) (e : SfsErr) : FsM (Except SfsErr Nat) := do
  match indirBh with
  | some b => bdevReleaseBlk b
  | none => pure ()
  releaseInodeBh i
  return .error e

def getDataBlock (i ofs : Nat) (alloc : Bool) : FsM (Except SfsErr Nat) := do
  kassert (ofs < sfsMaxFileSize)
  if !(← acquireInodeBh i) then return .error .noMem
  match ← findBlk i (ofs / bdevBlkSize) alloc with
  | (indirBh,.error e) => getDataFail i indirBh e
  | (indirBh,.ok blk) =>
    kassert (blk > 0)
    if !(← bdevGetBlk blk) then getDataFail i indirBh .noMem
    else
      releaseInodeBh i
      return .ok blk

def readLoop (i count : Nat) : Nat → Memory → Nat → Nat → FsM (Nat × Memory)
  | 0, buf, _, total => return (total,buf)
  | n + 1, buf, ofs, total => do
    let c ← inode i
    if total < count && ofs < c.iSize then
      match ← getDataBlock i ofs false with
      | .error _ => return (total,buf)
      | .ok blk =>
        let m := (← get).disk
        let s := min (min (bdevBlkSize - ofs % bdevBlkSize) (count - total)) (c.iSize - ofs)
        bdevReleaseBlk blk
        readLoop i count n (fill buf total s fun k => m (bdevBlkSize * blk + ofs % bdevBlkSize + k))
          (ofs + s) (total + s)
    else return (total,buf)

def readData (i : Nat) (buf : Memory) (count ofs : Nat) : FsM (Nat × Memory) := readLoop i count count buf ofs 0

def writeLoop (i : Nat) (buf : Memory) (count : Nat) : Nat → Nat → Nat → FsM (Nat × Nat)
  | 0, ofs, total => return (total,ofs)
  | n + 1, ofs, total => do
    if total < count then
      match ← getDataBlock i ofs true with
      | .error _ => return (total,ofs)
      | .ok blk =>
        let s := min (bdevBlkSize - ofs % bdevBlkSize) (count - total)
        modifyDisk fun m => fill m (bdevBlkSize * blk + ofs % bdevBlkSize) s fun k => buf (total + k)
        bdevReleaseBlk blk
        writeLoop i buf count n (ofs + s) (total + s)
    else return (total,ofs)

def writeData (i : Nat) (buf : Memory) (count ofs : Nat) : FsM Nat := do
  let (total,ofs) ← writeLoop i buf count count ofs 0
  let c ← inode i
  if count > 0 && ofs > c.iSize then
    setInode i (some { c with iSize := ofs, dirty := true })
    let _ ← sfsWriteInode i
  return total

def sfsRead (i : Nat) (buf : Memory) (count ofs : Nat) : FsM (Nat × Memory × Nat) := do
  let (rs,buf) ← readData i buf count ofs
  return (rs,buf,ofs + rs)

def sfsWrite (i : Nat) (buf : Memory) (count ofs : Nat) : FsM (Nat × Nat) := do
  let ws ← writeData i buf count ofs
  return (ws,ofs + ws)

end MappedMemory.Sfs
