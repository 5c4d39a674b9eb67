import MappedMemory.Kernel.World

namespace MappedMemory
open Keyed

structure Frames where
  refcnt : Nat → Nat
  data : Nat → Nat → Nat
  tables : List Table
  ptes : List Pte
  cachedPages : List CachedPage

abbrev Answers := List (Option Nat)

def World.frames (w : World) : Frames := ⟨w.pm.refcnt,w.data,w.tables,w.ptes,w.cachedPages⟩

namespace Frames

def setRefcnt (s : Frames) (page n : Nat) : Frames := { s with refcnt := Function.update s.refcnt page n }

def fill (s : Frames) (page : Nat) (bytes : Nat → Nat) : Frames :=
  { s with data := Function.update s.data page bytes }

def pmemAlloc (s : Frames) : Answers → Frames × Option Nat × Answers
  | [] => (s,none,[])
  | none :: rest => (s,none,rest)
  | some page :: rest => (s.setRefcnt page 1,some page,rest)

def pmemFree (s : Frames) (page : Nat) : Frames := s.setRefcnt page 0

def pmemIncRefcnt (s : Frames) (page : Nat) : Option Frames :=
  if s.refcnt page > 0 then some (s.setRefcnt page (s.refcnt page + 1)) else none

def pmemDecRefcnt (s : Frames) (page : Nat) : Option Frames :=
  if s.refcnt page > 0 then some (s.setRefcnt page (s.refcnt page - 1)) else none

def hasTable (s : Frames) (space : Nat) (path : List Nat) : Bool :=
  s.tables.any fun t => t.space == space && t.path == path

def addTable (s : Frames) (space : Nat) (path : List Nat) (page : Nat) : Frames :=
  { s.fill page fun _ => 0 with tables := ⟨space,path,page⟩ :: s.tables }

def findPteFrom (space : Nat) : List (List Nat) → Frames → Answers → Frames × Bool × Answers
  | [], s, answers => (s,true,answers)
  | path :: paths, s, answers =>
    if s.hasTable space path then findPteFrom space paths s answers
    else
      match s.pmemAlloc answers with
      | (s,none,answers) => (s,false,answers)
      | (s,some page,answers) => findPteFrom space paths (s.addTable space path page) answers

def findPte (s : Frames) (space n : Nat) (answers : Answers) : Option (Frames × Bool × Answers) :=
  if s.hasTable space [] && !kernelSlot n then some (findPteFrom space (tablePaths n) s answers) else none

def lookupPte (s : Frames) (space n : Nat) : Option Pte := lookup Pte.key (space,n) s.ptes

def setPte (s : Frames) (e : Pte) : Frames := { s with ptes := e :: remove Pte.key e.key s.ptes }

def vpmapMap (s : Frames) (space n page : Nat) (writable : Bool) (answers : Answers) :
    Option (Frames × Bool × Answers) := do
  let (s,found,answers) ← s.findPte space n answers
  if found then some (s.setPte ⟨space,n,page,writable⟩,true,answers) else some (s,false,answers)

def vpmapSetPerm (s : Frames) (space : Nat) (ns : List Nat) (writable : Bool) : Frames :=
  { s with ptes := s.ptes.map fun e => if e.space = space ∧ e.vpn ∈ ns then { e with writable := writable } else e }

end Frames
end MappedMemory
