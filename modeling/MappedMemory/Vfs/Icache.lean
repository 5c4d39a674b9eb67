import MappedMemory.Library.Routine
import MappedMemory.Library.Run

namespace MappedMemory.Icache

open Function (update)

inductive Err where
  | noMem
deriving DecidableEq, Repr

structure Inode where
  iInum : Nat
  iRef : Nat
  iNlink : Nat
  valid : Bool
  dirty : Bool
deriving DecidableEq, Repr

structure DiskInode where
  nlink : Nat
  inUse : Bool
deriving DecidableEq, Repr

structure SuperBlock where
  sIcache : Nat → Option Nat
  inodes : Nat → Option Inode
  nextAddr : Nat
  cleanup : List Nat
  disk : Nat → DiskInode
  holders : List Nat

structure Grants where
  inode : Bool
  filems : Bool
  info : Bool
  node : Bool
  read : Bool
  acquire : Bool
deriving DecidableEq, Repr

abbrev SbM := StateT SuperBlock Option

def kassert (p : Bool) : SbM Unit := fun s => if p then some ((),s) else none

def inodeAt (a : Nat) : SbM Inode := fun s => (s.inodes a).map fun o => (o,s)

def setInode (a : Nat) (o : Option Inode) : SbM Unit :=
  modify fun s => { s with inodes := update s.inodes a o }

def fsAllocInode (g : Grants) : SbM (Option Nat) := do
  if !g.inode then return none
  if !g.filems then return none
  let s ← get
  set { s with
    nextAddr := s.nextAddr + 1
    inodes := update s.inodes s.nextAddr
      (some { iInum := 0, iRef := 1, iNlink := 0, valid := false, dirty := false }) }
  return some s.nextAddr

def fsFreeInode (a : Nat) : SbM Unit := do
  let o ← inodeAt a
  kassert (o.iRef = 0)
  setInode a none

def sfsAllocInode (g : Grants) : SbM (Option Nat) := do
  match ← fsAllocInode g with
  | none => return none
  | some a =>
    if !g.info then
      fsFreeInode a
      return none
    return some a

def sfsReadInode (g : Grants) (a : Nat) : SbM Bool := do
  let o ← inodeAt a
  kassert (o.iInum ≠ 0)
  kassert !o.dirty
  if !g.read then return false
  let s ← get
  setInode a (some { o with iNlink := (s.disk o.iInum).nlink, valid := true })
  return true

def sfsWriteInode (a : Nat) : SbM Unit := do
  let o ← inodeAt a
  kassert (o.iInum ≠ 0)
  modify fun s => { s with
    disk := update s.disk o.iInum { s.disk o.iInum with nlink := o.iNlink } }
  setInode a (some { o with dirty := false })

def sfsDeleteInode (a : Nat) : SbM Unit := do
  let o ← inodeAt a
  kassert (o.iInum > 0)
  kassert (o.iNlink = 0)
  modify fun s => { s with
    disk := update s.disk o.iInum { s.disk o.iInum with inUse := false } }
  setInode a (some { o with iInum := 0, valid := false, dirty := false })

def fsReleaseInode (a : Nat) : SbM Unit := do
  let o ← inodeAt a
  kassert (o.iInum > 0)
  kassert (o.iRef > 0)
  setInode a (some { o with iRef := o.iRef - 1 })
  if o.iRef - 1 = 0 then
    if o.valid && (o.iNlink = 0 || o.dirty) then
      setInode a (some { o with iRef := o.iRef - 1 + 1 })
      modify fun s => { s with cleanup := s.cleanup ++ [a] }
    else
      let s ← get
      kassert (s.sIcache o.iInum = some a)
      set { s with sIcache := update s.sIcache o.iInum none }
      fsFreeInode a

def lookupInode (g : Grants) (inum : Nat) : SbM (Option Nat) := do
  let s ← get
  match s.sIcache inum with
  | some a =>
    let o ← inodeAt a
    setInode a (some { o with iRef := o.iRef + 1 })
    return some a
  | none =>
    match ← sfsAllocInode g with
    | none => return none
    | some a =>
      let o ← inodeAt a
      setInode a (some { o with iInum := inum })
      if !g.node then
        fsFreeInode a
        return none
      modify fun s => { s with sIcache := update s.sIcache inum (some a) }
      return some a

def fsGetInode (g : Grants) (inum : Nat) : SbM (Except Err Nat) := do
  match ← lookupInode g inum with
  | none => return .error .noMem
  | some a =>
    let o ← inodeAt a
    if !o.valid then
      if !(← sfsReadInode g a) then
        fsReleaseInode a
        return .error .noMem
    return .ok a

def unlinkInode (g : Grants) (inum : Nat) : SbM (Except Err Unit) := do
  match ← fsGetInode g inum with
  | .error e => return .error e
  | .ok a =>
    if !g.acquire then return .error .noMem
    let o ← inodeAt a
    kassert (o.iInum > 0)
    kassert (o.iNlink > 0)
    kassert o.valid
    setInode a (some { o with iNlink := o.iNlink - 1, dirty := true })
    sfsWriteInode a
    fsReleaseInode a
    return .ok ()

def cleanupTurn : SbM Unit := do
  let s ← get
  match s.cleanup with
  | [] => failure
  | a :: rest =>
    set { s with cleanup := rest }
    let o ← inodeAt a
    if o.iNlink = 0 then sfsDeleteInode a
    else
      kassert o.dirty
      sfsWriteInode a
    fsReleaseInode a

inductive Event where
  | get (inum : Nat) (g : Grants)
  | release (a : Nat)
  | unlink (inum : Nat) (g : Grants)
  | touch (a : Nat)
  | cleanup

def step (s : SuperBlock) : Event → Option SuperBlock
  | .get inum g => (fsGetInode g inum s).map fun r =>
    match r.1 with
    | .error _ => r.2
    | .ok a => { r.2 with holders := a :: r.2.holders }
  | .release a =>
    if a ∈ s.holders then (fsReleaseInode a { s with holders := s.holders.erase a }).map Prod.snd else none
  | .unlink inum g => (unlinkInode g inum s).map Prod.snd
  | .touch a =>
    if a ∈ s.holders then (s.inodes a).map fun o => { s with
      inodes := update s.inodes a (some { o with dirty := true }) }
    else none
  | .cleanup => (cleanupTurn s).map Prod.snd

def mounted (disk : Nat → DiskInode) : SuperBlock where
  sIcache _ := none
  inodes _ := none
  nextAddr := 0
  cleanup := []
  disk := disk
  holders := []

end MappedMemory.Icache
