import MappedMemory.Sfs.Dirents
import MappedMemory.Sfs.Reading

namespace MappedMemory.Mkfs

open Bytes Routine Sfs

def sbBlk : Nat := 2

def inodeBmapBlk : Nat := 3

def inodeTableBlk : Nat := 4

def rootInum : Nat := 1

def fsSize : Nat := 131072

def maxInodes : Nat := 256

def inodeTableNumBlks : Nat := maxInodes * sizeofSfsInode / bdevBlkSize

def bmapStartBlk : Nat := inodeTableBlk + inodeTableNumBlks

def bmapBlks : Nat := fsSize / (bdevBlkSize * 8) + if fsSize % (bdevBlkSize * 8) > 0 then 1 else 0

def journalStartBlk : Nat := bmapStartBlk + bmapBlks

def journalBlks : Nat := 256

def dataStartBlk : Nat := journalStartBlk + journalBlks

def maxFileSize : Nat := (sfsNdirect + sfsNindirect * (bdevBlkSize / 4)) * bdevBlkSize

structure SfsInode where
  iFtype : Ftype
  iMode : Nat
  iNlink : Nat
  iSize : Nat
  iAddrs : Nat → Nat

structure Image where
  fs : Memory
  inodeBmap : Memory

abbrev MkfsM := StateT Image Option

def writeBlk (blk : Nat) (buf : Memory) : MkfsM Unit :=
  modify fun s => { s with fs := fill s.fs (bdevBlkSize * blk) bdevBlkSize buf }

def readBlk (blk : Nat) : MkfsM Memory := do
  let s ← get
  return fun k => s.fs (bdevBlkSize * blk + k)

def inumToBlk (inum : Nat) : Nat := inodeTableBlk + (inum - 1) / (bdevBlkSize / sizeofSfsInode)

def inumToOfs (inum : Nat) : Nat := (inum - 1) * sizeofSfsInode % bdevBlkSize

def bmapAllocElement (bmap : Memory) (size : Nat) : Option (Nat × Memory) :=
  (firstClear bmap 0 (size * 8) 0).map fun index =>
    (index,poke bmap (index / 8) (bmap (index / 8) ||| 1#8 <<< (index % 8)))

def readInode (inum : Nat) : MkfsM SfsInode := do
  let buf ← readBlk (inumToBlk inum)
  let a := inumToOfs inum
  return {
    iFtype := .ofCode (buf a).toNat
    iMode := (buf (a + 1)).toNat
    iNlink := word buf (a + 2) 2
    iSize := word buf (a + 4) 4
    iAddrs := fun k => if k < sfsNdirect + sfsNindirect then word buf (a + 8 + 4 * k) 4 else 0 }

def writeInode (inum : Nat) (inode : SfsInode) : MkfsM Unit := do
  let buf ← readBlk (inumToBlk inum)
  writeBlk (inumToBlk inum) (fill buf (inumToOfs inum) sizeofSfsInode
    (inodeByte inode.iFtype inode.iMode inode.iNlink inode.iSize inode.iAddrs))

def allocInode (ftype : Ftype) : MkfsM Nat := do
  let s ← get
  match bmapAllocElement s.inodeBmap (maxInodes / 8) with
  | none => failure
  | some (index,bmap) =>
    set { s with inodeBmap := bmap }
    writeBlk inodeBmapBlk bmap
    let inum := index + 1
    writeInode inum { iFtype := ftype, iMode := 0, iNlink := 1, iSize := 0, iAddrs := fun _ => 0 }
    return inum

def allocFrom : Nat → Nat → Nat → MkfsM Nat
  | 0, _, _ => failure
  | n + 1, bmapBlk, numBlks => do
    let bmap ← readBlk bmapBlk
    match bmapAllocElement bmap (min bdevBlkSize (numBlks / 8)) with
    | some (index,bmap) =>
      writeBlk bmapBlk bmap
      let blk := dataStartBlk + bdevBlkSize * 8 * (bmapBlk - bmapStartBlk) + index
      writeBlk blk fun _ => 0
      return blk
    | none => allocFrom n (bmapBlk + 1) (numBlks - bdevBlkSize * 8)

def allocDataBlock : MkfsM Nat := allocFrom bmapBlks bmapStartBlk fsSize

def addrSlot (inode : SfsInode) (k : Nat) : MkfsM (Nat × SfsInode) := do
  if inode.iAddrs k ≠ 0 then return (inode.iAddrs k,inode)
  let blk ← allocDataBlock
  return (blk,{ inode with iAddrs := Function.update inode.iAddrs k blk })

def entrySlot (indir j : Nat) : MkfsM Nat := do
  let buf ← readBlk indir
  if word buf (4 * j) 4 ≠ 0 then return word buf (4 * j) 4
  let blk ← allocDataBlock
  writeBlk indir (putWord buf (4 * j) 4 blk)
  return blk

def getDataBlock (inode : SfsInode) (ofs : Nat) : MkfsM (Nat × SfsInode) := do
  if ofs ≥ maxFileSize then failure
  let blkIndex := ofs / bdevBlkSize
  if blkIndex < sfsNdirect then addrSlot inode blkIndex
  else
    let (indir,inode) ← addrSlot inode (sfsNdirect + (blkIndex - sfsNdirect) / (bdevBlkSize / 4))
    let blk ← entrySlot indir ((blkIndex - sfsNdirect) % (bdevBlkSize / 4))
    return (blk,inode)

def appendLoop (data : Memory) (size : Nat) : Nat → SfsInode → Nat → MkfsM SfsInode
  | 0, inode, _ => return inode
  | n + 1, inode, total => do
    if total < size then
      let (blk,inode) ← getDataBlock inode inode.iSize
      let buf ← readBlk blk
      let s := min (bdevBlkSize - inode.iSize % bdevBlkSize) (size - total)
      writeBlk blk (fill buf (inode.iSize % bdevBlkSize) s fun k => data (total + k))
      appendLoop data size n { inode with iSize := inode.iSize + s } (total + s)
    else return inode

def inodeAppend (inode : SfsInode) (data : Memory) (size : Nat) : MkfsM SfsInode :=
  appendLoop data size size inode 0

structure HostFile where
  basename : List Byte
  bytes : List Byte

def copyLoop (bytes : List Byte) : Nat → Nat → SfsInode → MkfsM SfsInode
  | 0, _, inode => return inode
  | n + 1, pos, inode => do
    let sz := min bdevBlkSize (bytes.length - pos)
    if sz > 0 then
      let inode ← inodeAppend inode (fun k => bytes.getD (pos + k) 0) sz
      copyLoop bytes n (pos + sz) inode
    else return inode

def addFile (root : SfsInode) (f : HostFile) : MkfsM SfsInode := do
  let inum ← allocInode .file
  let inode ← readInode inum
  let root ← inodeAppend root (direntBytes inum f.basename) sizeofSfsDirent
  let inode ← copyLoop f.bytes (f.bytes.length + 1) 0 inode
  writeInode inum inode
  return root

def superBlock : Memory := fun x =>
  if x < 4 then byteOf fsSize x
  else if x < 8 then byteOf maxInodes (x - 4)
  else if x < 12 then byteOf bmapStartBlk (x - 8)
  else if x < 16 then byteOf journalStartBlk (x - 12)
  else if x < 20 then byteOf dataStartBlk (x - 16)
  else 0

def format : MkfsM SfsInode := do
  writeBlk sbBlk superBlock
  let root ← allocInode .dir
  if root ≠ rootInum then failure
  readInode root

def main (files : List HostFile) : MkfsM Unit := do
  let root ← format
  let root ← files.foldlM addFile root
  writeInode rootInum root

def blank : Image := ⟨fun _ => 0,fun _ => 0⟩

def mkfs (files : List HostFile) : Option Memory := (main files blank).map fun r => r.2.fs

lemma inumToBlk_eq (inum : Nat) : inumToBlk inum = Sfs.inumToBlk inum := rfl

lemma inumToOfs_eq (inum : Nat) : inumToOfs inum = Sfs.inumToOfs inum := by
  rw [inumToOfs,Sfs.inumToOfs,Nat.mul_comm]

lemma inumToOfs_bound (inum : Nat) : inumToOfs inum + sizeofSfsInode ≤ bdevBlkSize := by
  simp only [inumToOfs,sizeofSfsInode,bdevBlkSize]
  omega

variable {img : Image}

def SfsInode.put (inode : SfsInode) (m : Memory) (inum : Nat) : Memory :=
  putInode m inum inode.iFtype inode.iMode inode.iNlink inode.iSize inode.iAddrs

lemma writeInode_eq (inum : Nat) (inode : SfsInode) :
    writeInode inum inode img = some ((),{ img with fs := inode.put img.fs inum }) := by
  have h := fill_part (m := img.fs) (a := bdevBlkSize * inumToBlk inum)
    (f := inodeByte inode.iFtype inode.iMode inode.iNlink inode.iSize inode.iAddrs) (inumToOfs_bound inum)
  rw [SfsInode.put,putInode,inodeAddr,← inumToBlk_eq,← inumToOfs_eq,← h]
  rfl

def newInode (ftype : Ftype) : SfsInode :=
  { iFtype := ftype, iMode := 0, iNlink := 1, iSize := 0, iAddrs := fun _ => 0 }

lemma allocInode_eq (ftype : Ftype) (index : Nat) (h : firstClear img.inodeBmap 0 (maxInodes / 8 * 8) 0 = some index) :
    allocInode ftype img = some (index + 1,{
      fs := (newInode ftype).put (fill img.fs (bdevBlkSize * inodeBmapBlk) bdevBlkSize (setBit img.inodeBmap 0 index))
        (index + 1)
      inodeBmap := setBit img.inodeBmap 0 index }) := by
  have hb : bmapAllocElement img.inodeBmap (maxInodes / 8) = some (index,setBit img.inodeBmap 0 index) := by
    rw [bmapAllocElement,h,setBit]
    simp only [Option.map_some,Nat.zero_add]
  rw [allocInode,get_bind,hb]
  simp only [set_bind]
  rw [writeBlk,modify_bind]
  exact bind_of_some (writeInode_eq _ _)

lemma readInode_eq (inum : Nat) : readInode inum img = some ({
    iFtype := ftypeOf img.fs inum
    iMode := (img.fs (inodeAddr inum + 1)).toNat
    iNlink := nlinkOf img.fs inum
    iSize := Sfs.sizeOf img.fs inum
    iAddrs := fun k => if k < sfsNdirect + sfsNindirect then addrOf img.fs inum k else 0 },img) := by
  have hword : ∀ a b n, word (fun k => img.fs (a + k)) b n = word img.fs (a + b) n := by
    intro a b n
    induction n generalizing b with
    | zero => rfl
    | succ n ih => rw [word,word,ih,Nat.add_assoc]
  rw [readInode,readBlk,bind_assoc,get_bind]
  simp only [pure_bind,hword,inumToBlk_eq,inumToOfs_eq,ftypeOf,nlinkOf,Sfs.sizeOf,addrOf,inodeAddr,Nat.add_assoc]
  rfl

lemma readInode_new (inum : Nat) {ftype : Ftype} {m : Memory} (hf : .ofCode (ftype.toCode % 256) = ftype)
    (h : img.fs = (newInode ftype).put m inum) : readInode inum img = some (newInode ftype,img) := by
  have hput : img.fs = putInode m inum ftype 0 1 0 fun _ => 0 := h
  have hmode : (img.fs (inodeAddr inum + 1)).toNat = 0 := by
    rw [hput,putInode_at (by omega)]
    rfl
  rw [readInode_eq,hmode,hput,ftypeOf_putInode,nlinkOf_putInode,sizeOf_putInode,hf]
  have haddr : (fun k => if k < sfsNdirect + sfsNindirect then addrOf (putInode m inum ftype 0 1 0 fun _ => 0) inum k
      else 0) = fun _ => 0 := by
    funext k
    split
    · rename_i hk
      exact addrOf_putInode hk
    · rfl
  rw [haddr]
  rfl

def mkfsSb : SbInfo where
  sSize := fsSize
  sNumInodes := maxInodes
  sDataBmapStart := bmapStartBlk
  sJournalStart := journalStartBlk
  sDataStart := dataStartBlk
  inode_bits := by decide
  inode_slots := by decide
  bmap_before := by decide
  journal_before := by decide
  data_bits := by decide
  last_bits := by decide
  blk_fits := by decide

def freshBmap : Memory := setBit (fun _ => 0) 0 0

def freshDisk : Memory :=
  (newInode .dir).put (fill (fill (fun _ => 0) (bdevBlkSize * sbBlk) bdevBlkSize superBlock)
    (bdevBlkSize * inodeBmapBlk) bdevBlkSize freshBmap) rootInum

lemma format_blank : format blank = some (newInode .dir,⟨freshDisk,freshBmap⟩) := by
  rw [format,writeBlk,modify_bind,bind_of_some (allocInode_eq .dir 0 (by decide +kernel))]
  simp only [Nat.zero_add,rootInum,ne_eq,not_true_eq_false]
  exact readInode_new 1 rfl rfl

lemma freshDisk_zero {x : Nat} (hx : 2112 ≤ x) : freshDisk x = 0 := by
  rw [freshDisk,SfsInode.put,putInode_outside (by rw [inodeAddr_eq]; simp only [rootInum]; omega)]
  rw [fill_outside (.inr (by simp only [inodeBmapBlk,bdevBlkSize]; omega)),
    fill_outside (.inr (by simp only [sbBlk,bdevBlkSize]; omega))]

lemma freshDisk_inodeBit {n : Nat} (hn : n < 4096) : inodeBit freshDisk n = decide (n = 0) := by
  have hz : bit (fun _ => (0 : Byte)) 0 n = false := by simp [bit]
  rw [freshDisk,SfsInode.put,inodeBit_putInode hn,inodeBit,bit,show sfsInodeBmapBlk = inodeBmapBlk from rfl,
    fill_inside (Nat.le_add_right _ _) (by simp only [bdevBlkSize]; omega),Nat.add_sub_cancel_left]
  have h := bit_setBit (m := fun _ => 0) (a := 0) (i := 0) (j := n)
  rw [hz,Bool.or_false,bit,Nat.zero_add] at h
  exact h

lemma freshDisk_dataBit {n : Nat} : dataBit mkfsSb freshDisk n = false := by
  rw [dataBit,bit,freshDisk_zero]
  · simp
  · change 2112 ≤ 512 * 36 + _
    omega

lemma freshDisk_addrOf {k : Nat} (hk : k < 14) : addrOf freshDisk rootInum k = 0 := addrOf_putInode hk

end MappedMemory.Mkfs

namespace MappedMemory.Sfs

open Bytes Mkfs

def mount (g : SbInfo) (m : Memory) : Fs := { sb := g, disk := m, icache := fun _ => none, held := [], supply := [] }

def freshFs : Fs := mount mkfsSb freshDisk

lemma freshFs_allocated {i : Nat} : Allocated freshFs i ↔ i = sfsRootInum := by
  change (1 ≤ i ∧ i ≤ 256 ∧ inodeBit freshDisk (i - 1) = true) ↔ i = 1
  constructor
  · rintro ⟨h1,h2,hb⟩
    rw [freshDisk_inodeBit (by omega),decide_eq_true_eq] at hb
    omega
  · rintro rfl
    exact ⟨le_refl _,by omega,by rw [freshDisk_inodeBit (by omega)]; rfl⟩

lemma freshFs_slot {p : Slot} (ha : Allocated freshFs p.inum) (hp : p.Bounded) : slotVal freshFs.disk p = 0 := by
  rw [freshFs_allocated] at ha
  cases p with
  | addr i k =>
    obtain rfl : i = 1 := ha
    exact freshDisk_addrOf hp
  | entry i k j =>
    obtain rfl : i = 1 := ha
    exact if_pos (freshDisk_addrOf hp.2.1)

lemma freshFs_owned : Owned freshFs := by
  refine ⟨fun i c hc => (nomatch hc),fun i c hc => (nomatch hc),⟨fun p b hp => ?_,fun p q b hp => ?_,fun b hu => ?_⟩⟩
  · exact absurd (freshFs_slot hp.1 hp.2.1) (hp.2.2.1 ▸ hp.2.2.2)
  · exact absurd (freshFs_slot hp.1 hp.2.1) (hp.2.2.1 ▸ hp.2.2.2)
  · have hb := hu.2.2
    rw [freshFs,mount,freshDisk_dataBit] at hb
    cases hb

end MappedMemory.Sfs
