import MappedMemory.Sfs.Blocks
import MappedMemory.Machine.Strings

namespace MappedMemory.Sfs

open Bytes

def direntAddr (blk ofs : Nat) : Nat := bdevBlkSize * blk + ofs % bdevBlkSize

def direntInum (m : Memory) (a : Nat) : Nat := word m a 4

def direntName (m : Memory) (a : Nat) : Memory := fun k => m (a + 4 + k)

def direntMatches (name : List Byte) (m : Memory) (a : Nat) : Bool :=
  decide (direntInum m a > 0) && decide (strncmp (direntName m a) (cstr name) sfsDirentNamelen = 0)

def direntBytes (inum : Nat) (name : List Byte) : Memory := fun x =>
  if x < 4 then byteOf inum x else if x = 4 + (sfsDirentNamelen - 1) then 0 else cstr name (x - 4)

def nextBlk (i : Nat) (alloc : Bool) (ofs : Nat) (bh : Option Nat) : FsM (Except SfsErr Nat) := do
  if ofs % bdevBlkSize = 0 then
    if let some b := bh then bdevReleaseBlk b
    getDataBlock i ofs alloc
  else return .ok (bh.getD 0)

def scanDir (i : Nat) (alloc : Bool) (hit : Memory → Nat → Nat → Bool) :
    Nat → Nat → Option Nat → FsM (Except SfsErr (Option (Nat × Nat)))
  | 0, _, none => return .ok none
  | 0, _, some b => do
    bdevReleaseBlk b
    return .ok none
  | n + 1, ofs, bh => do
    match ← nextBlk i alloc ofs bh with
    | .error e => return .error e
    | .ok b =>
      let m := (← get).disk
      if hit m ofs (direntAddr b ofs) then return .ok (some (b,ofs))
      else scanDir i alloc hit n (ofs + sizeofSfsDirent) (some b)

def direntsBelow (size : Nat) : Nat := (size + sizeofSfsDirent - 1) / sizeofSfsDirent

def scanNamed (i : Nat) (hit : Memory → Nat → Bool) : FsM (Except SfsErr (Option (Nat × Nat))) := do
  let c ← inode i
  scanDir i false (fun m _ a => hit m a) (direntsBelow c.iSize) 0 none

def searchDir (i : Nat) (name : List Byte) : FsM Nat := do
  match ← scanNamed i (direntMatches name) with
  | .ok (some (b,ofs)) =>
    let m := (← get).disk
    bdevReleaseBlk b
    return direntInum m (direntAddr b ofs)
  | _ => return 0

def freeDirent (i : Nat) (name : List Byte) : FsM (Except SfsErr Unit) := do
  match ← scanNamed i (direntMatches name) with
  | .error e => return .error e
  | .ok none => return .error .notExist
  | .ok (some (b,ofs)) =>
    modifyDisk fun m => putWord m (direntAddr b ofs) 4 0
    bdevReleaseBlk b
    return .ok ()

def isDirEmpty (i : Nat) : FsM (Except SfsErr Bool) := do
  match ← scanNamed i (fun m a => decide (direntInum m a > 0)) with
  | .error e => return .error e
  | .ok none => return .ok true
  | .ok (some (b,_)) =>
    bdevReleaseBlk b
    return .ok false

def pageEnd (blk : Nat) : Nat := pgSize * (bdevBlkSize * blk / pgSize + 1)

def putDirent (blk ofs inum : Nat) (name : List Byte) : FsM Unit := do
  let a := direntAddr blk ofs
  modifyDisk fun m => putWord m a 4 inum
  let (m,stop) := strncpy (← get).disk (a + 4) (cstr name) sfsDirentNamelen
  kassert (stop ≤ pageEnd blk)
  modifyDisk fun _ => poke m (a + 4 + (sfsDirentNamelen - 1)) 0

def extendDir (i ofs : Nat) : FsM Unit := do
  let c ← inode i
  if ofs ≥ c.iSize then
    setInode i (some { c with iSize := ofs + sizeofSfsDirent, dirty := true })
    let _ ← sfsWriteInode i

def allocDirent (i : Nat) (name : List Byte) (inum : Nat) : FsM (Except SfsErr Unit) := do
  if !(← acquireInodeBh i) then return .error .noMem
  let c ← inode i
  match ← scanDir i true (fun m ofs a => decide (ofs ≥ c.iSize) || decide (direntInum m a = 0))
      (sfsMaxFileSize / sizeofSfsDirent) 0 none with
  | .error e =>
    releaseInodeBh i
    return .error e
  | .ok none =>
    releaseInodeBh i
    return .error .noRes
  | .ok (some (b,ofs)) =>
    extendDir i ofs
    putDirent b ofs inum name
    bdevReleaseBlk b
    releaseInodeBh i
    return .ok ()

def allocDiskInode (ftype : Ftype) (mode : Nat) : FsM (Except SfsErr Nat) := do
  let s ← get
  if !(← bdevGetBlk sfsInodeBmapBlk) then return .error .noMem
  match ← bmapAllocElement sfsInodeBmapBlk (s.sb.sNumInodes / 8) with
  | none =>
    bdevReleaseBlk sfsInodeBmapBlk
    return .error .noRes
  | some index =>
    let inum := index + 1
    if !(← bdevGetBlk (inumToBlk inum)) then
      bmapFreeElement sfsInodeBmapBlk index
      bdevReleaseBlk sfsInodeBmapBlk
      return .error .noMem
    bdevReleaseBlk sfsInodeBmapBlk
    modifyDisk fun m => putInode m inum ftype mode 1 0 fun _ => 0
    bdevReleaseBlk (inumToBlk inum)
    return .ok inum

def freeDiskInode (inum : Nat) : FsM (Except SfsErr Unit) := do
  kassert (inum ≠ 0)
  if !(← bdevGetBlk sfsInodeBmapBlk) then return .error .noMem
  bmapFreeElement sfsInodeBmapBlk (inum - 1)
  bdevReleaseBlk sfsInodeBmapBlk
  return .ok ()

def createInodeInDir (dir : Nat) (ftype : Ftype) (name : List Byte) (mode : Nat) : FsM (Except SfsErr Unit) := do
  if (← searchDir dir name) ≠ 0 then return .error .exist
  if !(← bdevGetBlkUnlocked sfsInodeBmapBlk) then return .error .noMem
  match ← allocDiskInode ftype mode with
  | .error e =>
    bdevReleaseBlkUnlocked sfsInodeBmapBlk
    return .error e
  | .ok inum =>
    match ← allocDirent dir name inum with
    | .error e =>
      let _ ← freeDiskInode inum
      bdevReleaseBlkUnlocked sfsInodeBmapBlk
      return .error e
    | .ok () =>
      bdevReleaseBlkUnlocked sfsInodeBmapBlk
      return .ok ()

def sfsCreate (dir : Nat) (name : List Byte) (mode : Nat) : FsM (Except SfsErr Unit) :=
  createInodeInDir dir .file name mode

def sfsMkdir (dir : Nat) (name : List Byte) (mode : Nat) : FsM (Except SfsErr Unit) :=
  createInodeInDir dir .dir name mode

def sfsLookup (dir : Nat) (name : List Byte) : FsM (Except SfsErr Nat) := do
  let inum ← searchDir dir name
  if inum = 0 then return .error .notExist
  match ← fsGetInode inum with
  | .error e => return .error e
  | .ok () => return .ok inum

def checkRemovable (ftype : Ftype) (i : Nat) : FsM (Except SfsErr Unit) := do
  if ftype = .dir then
    match ← isDirEmpty i with
    | .error e => return .error e
    | .ok false => return .error .notEmpty
    | .ok true => return .ok ()
  else return .ok ()

def dropLink (dir : Nat) (name : List Byte) (i : Nat) : FsM (Except SfsErr Unit) := do
  match ← freeDirent dir name with
  | .error e =>
    kassert (e ≠ .notExist)
    return .error e
  | .ok () =>
    let c ← inode i
    setInode i (some { c with iNlink := c.iNlink - 1, dirty := true })
    let _ ← sfsWriteInode i
    return .ok ()

def unlinkFound (dir : Nat) (ftype : Ftype) (name : List Byte) (i : Nat) : FsM (Except SfsErr Unit) := do
  let c ← inode i
  kassert (i > 0)
  kassert (c.iNlink > 0)
  if c.iFtype ≠ ftype then return .error .ftype
  match ← checkRemovable ftype i with
  | .error e => return .error e
  | .ok () => dropLink dir name i

def unlinkInodeInDir (dir : Nat) (ftype : Ftype) (name : List Byte) : FsM (Except SfsErr Unit) := do
  match ← sfsLookup dir name with
  | .error e => return .error e
  | .ok i =>
    if !(← acquireInodeBh i) then return .error .noMem
    let r ← unlinkFound dir ftype name i
    releaseInodeBh i
    fsReleaseInode i
    return r

def sfsUnlink (dir : Nat) (name : List Byte) : FsM (Except SfsErr Unit) := unlinkInodeInDir dir .file name

def sfsRmdir (dir : Nat) (name : List Byte) : FsM (Except SfsErr Unit) := unlinkInodeInDir dir .dir name

def sfsLink (dir src : Nat) (name : List Byte) : FsM (Except SfsErr Unit) := do
  let c ← inode src
  kassert (c.iFtype = .file)
  if (← searchDir dir name) ≠ 0 then return .error .exist
  if !(← acquireInodeBh src) then return .error .noMem
  match ← allocDirent dir name src with
  | .error e =>
    releaseInodeBh src
    return .error e
  | .ok () =>
    let c ← inode src
    setInode src (some { c with iNlink := c.iNlink + 1, dirty := true })
    let _ ← sfsWriteInode src
    releaseInodeBh src
    return .ok ()

end MappedMemory.Sfs
