import MappedMemory.Library.Bytes
import MappedMemory.Library.Routine
import MappedMemory.Machine.Word

namespace MappedMemory.Sfs

open Bytes

def bdevBlkSize : Nat := 512

def sfsNdirect : Nat := 12

def sfsNindirect : Nat := 2

def ptrsPerBlk : Nat := bdevBlkSize / 4

def sfsMaxFileSize : Nat := (sfsNdirect + sfsNindirect * ptrsPerBlk) * bdevBlkSize

def sfsInodeBmapBlk : Nat := 3

def sfsInodeTableBlk : Nat := 4

def sfsRootInum : Nat := 1

def sizeofSfsInode : Nat := 64

def sizeofSfsDirent : Nat := 32

def sfsDirentNamelen : Nat := 28

structure SbInfo where
  sSize : Nat
  sNumInodes : Nat
  sDataBmapStart : Nat
  sJournalStart : Nat
  sDataStart : Nat
  inode_bits : sNumInodes ≤ 8 * bdevBlkSize
  inode_slots : bdevBlkSize * sfsInodeTableBlk + sizeofSfsInode * sNumInodes ≤ bdevBlkSize * sDataBmapStart
  bmap_before : sDataBmapStart ≤ sJournalStart
  journal_before : sJournalStart ≤ sDataStart
  data_bits : sSize ≤ 8 * bdevBlkSize * (sJournalStart - sDataBmapStart)
  last_bits : 8 * bdevBlkSize * (sJournalStart - sDataBmapStart) < sSize + 8 * bdevBlkSize
  blk_fits : sDataStart + sSize ≤ 2^32

inductive Ftype where
  | dir | file | dev | code (n : Nat)
deriving DecidableEq, Repr

def Ftype.ofCode : Nat → Ftype
  | 1 => .dir
  | 2 => .file
  | 3 => .dev
  | n => .code n

def Ftype.toCode : Ftype → Nat
  | .dir => 1
  | .file => 2
  | .dev => 3
  | .code n => n

structure Inode where
  iRef : Nat
  iNlink : Nat
  iFtype : Ftype
  iMode : Nat
  iSize : Nat
  iAddrs : Nat → Nat
  dirty : Bool

inductive SfsErr where
  | noMem | noRes | exist | notExist | ftype | notEmpty
deriving DecidableEq, Repr

structure Fs where
  sb : SbInfo
  disk : Memory
  icache : Nat → Option Inode
  held : List (Nat × Bool)
  supply : List Bool

abbrev FsM := StateT Fs Option

def kassert (p : Bool) : FsM Unit := fun s => if p then some ((),s) else none

def grant : FsM Bool := fun s =>
  match s.supply with
  | [] => some (true,s)
  | ok :: rest => some (ok,{ s with supply := rest })

def fetch (blk : Nat) : FsM Bool := fun s =>
  if s.held.any fun r => r.1 == blk then some (true,s) else grant s

def acquire (locked : Bool) (blk : Nat) : FsM Bool := do
  let ok ← fetch blk
  if ok then modify fun s => { s with held := (blk,locked) :: s.held }
  return ok

def bdevGetBlk : Nat → FsM Bool := acquire true

def bdevGetBlkUnlocked : Nat → FsM Bool := acquire false

def release (locked : Bool) (blk : Nat) : FsM Unit := do
  let s ← get
  kassert (s.held.contains (blk,locked))
  modify fun s => { s with held := s.held.erase (blk,locked) }

def bdevReleaseBlk : Nat → FsM Unit := release true

def bdevReleaseBlkUnlocked : Nat → FsM Unit := release false

def modifyDisk (f : Memory → Memory) : FsM Unit := modify fun s => { s with disk := f s.disk }

def inode (i : Nat) : FsM Inode := fun s => (s.icache i).map fun c => (c,s)

def setInode (i : Nat) (c : Option Inode) : FsM Unit :=
  modify fun s => { s with icache := Function.update s.icache i c }

def inumToBlk (inum : Nat) : Nat := sfsInodeTableBlk + (inum - 1) / (bdevBlkSize / sizeofSfsInode)

def inumToOfs (inum : Nat) : Nat := sizeofSfsInode * (inum - 1) % bdevBlkSize

def inodeAddr (inum : Nat) : Nat := bdevBlkSize * inumToBlk inum + inumToOfs inum

def nlinkOf (m : Memory) (inum : Nat) : Nat := word m (inodeAddr inum + 2) 2

def ftypeOf (m : Memory) (inum : Nat) : Ftype := .ofCode (m (inodeAddr inum)).toNat

def sizeOf (m : Memory) (inum : Nat) : Nat := word m (inodeAddr inum + 4) 4

def addrOf (m : Memory) (inum k : Nat) : Nat := word m (inodeAddr inum + 8 + 4 * k) 4

def inodeByte (ftype : Ftype) (mode nlink size : Nat) (addrs : Nat → Nat) (x : Nat) : Byte :=
  if x = 0 then byteOf ftype.toCode 0
  else if x = 1 then byteOf mode 0
  else if x < 4 then byteOf nlink (x - 2)
  else if x < 8 then byteOf size (x - 4)
  else byteOf (addrs ((x - 8) / 4)) ((x - 8) % 4)

def putInode (m : Memory) (inum : Nat) (ftype : Ftype) (mode nlink size : Nat) (addrs : Nat → Nat) : Memory :=
  fill m (inodeAddr inum) sizeofSfsInode (inodeByte ftype mode nlink size addrs)

def acquireInodeBh (i : Nat) : FsM Bool := bdevGetBlkUnlocked (inumToBlk i)

def releaseInodeBh (i : Nat) : FsM Unit := bdevReleaseBlkUnlocked (inumToBlk i)

def loaded (m : Memory) (i : Nat) : Inode where
  iRef := 1
  iNlink := nlinkOf m i
  iFtype := ftypeOf m i
  iMode := (m (inodeAddr i + 1)).toNat
  iSize := sizeOf m i
  iAddrs k := if k < sfsNdirect + sfsNindirect then addrOf m i k else 0
  dirty := false

def sfsReadInode (i : Nat) : FsM (Except SfsErr Inode) := do
  if !(← bdevGetBlk (inumToBlk i)) then return .error .noMem
  let s ← get
  bdevReleaseBlk (inumToBlk i)
  return .ok (loaded s.disk i)

def sfsWriteInode (i : Nat) : FsM (Except SfsErr Unit) := do
  let c ← inode i
  if !(← bdevGetBlk (inumToBlk i)) then return .error .noMem
  modifyDisk fun m => putInode m i c.iFtype c.iMode c.iNlink c.iSize c.iAddrs
  setInode i (some { c with dirty := false })
  bdevReleaseBlk (inumToBlk i)
  return .ok ()

def fsReleaseInode (i : Nat) : FsM Unit := do
  let c ← inode i
  kassert (i > 0)
  kassert (c.iRef > 0)
  if c.iRef = 1 then
    if c.iNlink = 0 || c.dirty then return ()
    setInode i none
  else setInode i (some { c with iRef := c.iRef - 1 })

def fsGetInode (i : Nat) : FsM (Except SfsErr Unit) := do
  let s ← get
  match s.icache i with
  | some c =>
    setInode i (some { c with iRef := c.iRef + 1 })
    return .ok ()
  | none =>
    if !(← grant) then return .error .noMem
    if !(← grant) then return .error .noMem
    match ← sfsReadInode i with
    | .error e => return .error e
    | .ok c =>
      setInode i (some c)
      return .ok ()

end MappedMemory.Sfs
