import MappedMemory.Machine.Word
import MappedMemory.Pmem.Operations

namespace MappedMemory

structure Boot where
  pmemStart : Nat
  pmemEnd : Nat
  bitmap : Nat → Bool
  bitmapContigStart : Nat

namespace Boot

def bitmapEnd (b : Boot) : Nat := b.pmemEnd - b.pmemStart

def bitmapNPages (b : Boot) : Nat := pgRoundUp (b.bitmapEnd / 8) / pgSize

def setBits (bitmap : Nat → Bool) (index : Nat) : Nat → Option (Nat → Bool)
  | 0 => some bitmap
  | n+1 => do
    let bitmap ← setBits bitmap index n
    if bitmap (index + n) then none else some (Function.update bitmap (index + n) true)

def unsetBits (bitmap : Nat → Bool) (index : Nat) : Nat → Option (Nat → Bool)
  | 0 => some bitmap
  | n+1 => do
    let bitmap ← unsetBits bitmap index n
    if bitmap (index + n) then some (Function.update bitmap (index + n) false) else none

def scanDown (bitmap : Nat → Bool) : Nat → Nat
  | 0 => 0
  | index+1 => if bitmap index then index + 1 else scanDown bitmap index

def bitmapAlloc (b : Boot) (index n : Nat) : Option Boot :=
  if index + n ≤ b.bitmapEnd then do
    let bitmap ← setBits b.bitmap index n
    some { b with
      bitmap := bitmap
      bitmapContigStart := if index + n > b.bitmapContigStart then index + n else b.bitmapContigStart }
  else none

def bitmapFree (b : Boot) (index n : Nat) : Option Boot :=
  if index + n ≤ b.bitmapEnd ∧ index + n ≤ b.bitmapContigStart then do
    let bitmap ← unsetBits b.bitmap index n
    some { b with
      bitmap := bitmap
      bitmapContigStart :=
        if index + n = b.bitmapContigStart then scanDown bitmap index else b.bitmapContigStart }
  else none

def bitmapFindFrom (bitmap : Nat → Bool) (n : Nat) : Nat → Nat → Nat → Nat → Option Nat
  | 0, _, _, _ => none
  | left+1, i, first, nFreePages =>
    if bitmap i then bitmapFindFrom bitmap n left (i+1) (first+1) 0
    else if nFreePages + 1 ≥ n then some first
    else bitmapFindFrom bitmap n left (i+1) first (nFreePages+1)

def bitmapFind (b : Boot) (n : Nat) : Option Nat := bitmapFindFrom b.bitmap n b.bitmapEnd 0 0 0

def bitmapInit (pmemStart pmemEnd : Nat) (stale : Nat → Bool) : Option Boot :=
  let b : Boot := ⟨pmemStart,pmemEnd,stale,0⟩
  if pmemStart < pmemEnd ∧ b.bitmapNPages < b.bitmapEnd then
    bitmapAlloc { b with bitmap := fun i => decide (8 * pgSize * b.bitmapNPages ≤ i) && stale i }
      0 b.bitmapNPages
  else none

def pmemNalloc (b : Boot) (n : Nat) : Option (Boot × Option Nat) :=
  if n > 0 then
    match b.bitmapFind n with
    | none => some (b,none)
    | some index => (b.bitmapAlloc index n).map (fun b => (b,some (b.pmemStart + index)))
  else none

def pmemNfree (b : Boot) (page n : Nat) : Option Boot :=
  if n > 0 ∧ b.pmemStart ≤ page then b.bitmapFree (page - b.pmemStart) n else none

inductive Op where
  | nalloc (n : Nat)
  | nfree (page n : Nat)
deriving DecidableEq, Repr

def step (b : Boot) : Op → Option Boot
  | .nalloc n => (b.pmemNalloc n).map Prod.fst
  | .nfree page n => b.pmemNfree page n

def pagemapInit (b : Boot) (sizeofPage : Nat) : Option (Boot × Pmem) := do
  let (b,page) ← b.pmemNalloc (pgRoundUp (b.pmemEnd * sizeofPage) / pgSize)
  match page with
  | none => none
  | some _ => some (b,⟨b.pmemEnd,fun _ => ⟨0,0⟩,fun _ => []⟩)

def markAllocated (s : Pmem) (page : Nat) : Pmem := (s.setRefcnt page 1).setOrder page 0

def markBelow (s : Pmem) : Nat → Pmem
  | 0 => s
  | page+1 => markAllocated (markBelow s page) page

def probeFrom (bitmap : Nat → Bool) : Nat → Nat → Nat
  | 0, probe => probe
  | left+1, probe => if bitmap probe then probe else probeFrom bitmap left (probe+1)

def freeblocksScan (b : Boot) : Nat → Pmem → Nat → Option Pmem
  | 0, s, index => if index < b.bitmapContigStart then none else some s
  | fuel+1, s, index =>
    if index < b.bitmapContigStart then
      if b.bitmap index then freeblocksScan b fuel (markAllocated s (b.pmemStart + index)) (index+1)
      else do
        let probe := probeFrom b.bitmap (b.bitmapContigStart - (index+1)) (index+1)
        let s ← Pmem.freeblocksInsertRange (probe - index) s (b.pmemStart + index) (b.pmemStart + probe)
        freeblocksScan b fuel s probe
    else some s

def freeblocksInit (b : Boot) (s : Pmem) : Option (Boot × Pmem) := do
  let b ← b.pmemNfree b.pmemStart b.bitmapNPages
  let s := markBelow { s with freeblocks := fun _ => [] } b.pmemStart
  let s ← freeblocksScan b b.bitmapContigStart s 0
  let s ← Pmem.freeblocksInsertRange (b.pmemEnd - (b.pmemStart + b.bitmapContigStart)) s
    (b.pmemStart + b.bitmapContigStart) b.pmemEnd
  some (b,s)

def pmemInit (b : Boot) (sizeofPage : Nat) : Option (Boot × Pmem) := do
  let (b,s) ← b.pagemapInit sizeofPage
  b.freeblocksInit s

end Boot
end MappedMemory
