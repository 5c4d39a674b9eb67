import MappedMemory.Library.Dyadic

namespace MappedMemory

open Function (update)

def maxOrder : Nat := 10

structure Page where
  refcnt : Nat
  order : Nat
deriving DecidableEq, Repr

structure Pmem where
  pagemapEnd : Nat
  pagemap : Nat → Page
  freeblocks : Nat → List Nat

def getMaxPageOrderFrom (start stop : Nat) : Nat → Nat
  | 0 => 0
  | order+1 =>
    if start % 2^(order+1) = 0 ∧ start + 2^(order+1) ≤ stop then order+1
    else getMaxPageOrderFrom start stop order

def getMaxPageOrder (start stop : Nat) : Option Nat :=
  if stop > start then some (getMaxPageOrderFrom start stop maxOrder) else none

def getMinPageOrder (n : Nat) : Option Nat :=
  (List.range (maxOrder+1)).find? (fun order => decide (2^order ≥ n))

namespace Pmem

def refcnt (s : Pmem) (p : Nat) : Nat := (s.pagemap p).refcnt

def order (s : Pmem) (p : Nat) : Nat := (s.pagemap p).order

def setRefcnt (s : Pmem) (p n : Nat) : Pmem :=
  { s with pagemap := update s.pagemap p ⟨n,s.order p⟩ }

def setOrder (s : Pmem) (p k : Nat) : Pmem :=
  { s with pagemap := update s.pagemap p ⟨s.refcnt p,k⟩ }

def freeblocksInsert (s : Pmem) (page : Nat) : Option Pmem :=
  if s.order page ≤ maxOrder then
    some { s.setRefcnt page 0 with
      freeblocks := update s.freeblocks (s.order page) (s.freeblocks (s.order page) ++ [page]) }
  else none

def freeblocksRemove (s : Pmem) (page : Nat) : Option Pmem :=
  if s.refcnt page = 0 ∧ s.order page ≤ maxOrder then
    some { s with freeblocks := fun k => (s.freeblocks k).erase page }
  else none

def findBuddy (s : Pmem) (page : Nat) : Option (Option Nat) :=
  if s.order page ≤ maxOrder ∧ page % 2^s.order page = 0 then
    let buddy := if page / 2^s.order page % 2 = 1 then page - 2^s.order page else page + 2^s.order page
    some (if buddy ≥ s.pagemapEnd then none else some buddy)
  else none

def splitBlock (s : Pmem) (page order : Nat) : Option Pmem := do
  let s := s.setOrder page (order - 1)
  match ← s.findBuddy page with
  | none => none
  | some buddy => (s.setOrder buddy (order - 1)).freeblocksInsert buddy

def findFreeblockFrom : Nat → Pmem → Bool → Option (Pmem × Option Nat)
  | 0, s, _ => some (s,none)
  | left+1, s, split => do
    let (s,page) ← match s.freeblocks (maxOrder - left) with
      | page :: _ => (s.freeblocksRemove page).map (fun s => (s,some page))
      | [] => findFreeblockFrom left s true
    match page with
    | none => some (s,none)
    | some page =>
      if split then (s.splitBlock page (maxOrder - left)).map (fun s => (s,some page))
      else some (s,some page)

def findFreeblock (s : Pmem) (order : Nat) (split : Bool) : Option (Pmem × Option Nat) :=
  if order > maxOrder then some (s,none) else findFreeblockFrom (maxOrder + 1 - order) s split

def mergeBlockFrom : Nat → Pmem → Nat → Option (Pmem × Nat)
  | 0, _, _ => none
  | fuel+1, s, page =>
    if ¬ (s.refcnt page = 0 ∧ s.order page ≤ maxOrder) then none
    else if s.order page = maxOrder then some (s,page)
    else do
      match ← s.findBuddy page with
      | none => some (s,page)
      | some buddy =>
        if s.refcnt buddy = 0 ∧ s.order buddy = s.order page then
          let s ← s.freeblocksRemove buddy
          if page < buddy then mergeBlockFrom fuel (s.setOrder page (s.order page + 1)) page
          else mergeBlockFrom fuel (s.setOrder buddy (s.order buddy + 1)) buddy
        else some (s,page)

def mergeBlock (s : Pmem) (page : Nat) : Option (Pmem × Nat) := mergeBlockFrom (maxOrder+1) s page

def pmemNalloc (s : Pmem) (n : Nat) : Option (Pmem × Option Nat) :=
  if n > 0 then do
    let order ← getMinPageOrder n
    let (s,page) ← s.findFreeblock order false
    match page with
    | none => some (s,none)
    | some page =>
      if s.refcnt page = 0 ∧ page ≠ 0 then some (s.setRefcnt page 1,some page) else none
  else none

def pmemAlloc (s : Pmem) : Option (Pmem × Option Nat) := s.pmemNalloc 1

def pmemNfree (s : Pmem) (page n : Nat) : Option Pmem :=
  if n > 0 then do
    let (s,page) ← (s.setRefcnt page 0).mergeBlock page
    s.freeblocksInsert page
  else none

def pmemFree (s : Pmem) (page : Nat) : Option Pmem := s.pmemNfree page 1

def pmemIncRefcnt (s : Pmem) (page n : Nat) : Option Pmem :=
  if s.refcnt page > 0 ∧ s.order page = 0 then some (s.setRefcnt page (s.refcnt page + n)) else none

def pmemDecRefcnt (s : Pmem) (page : Nat) : Option Pmem :=
  if s.refcnt page > 0 ∧ s.order page = 0 then
    if s.refcnt page - 1 = 0 then (s.setRefcnt page (s.refcnt page - 1)).pmemNfree page 1
    else some (s.setRefcnt page (s.refcnt page - 1))
  else none

def freeblocksInsertRange : Nat → Pmem → Nat → Nat → Option Pmem
  | 0, s, start, stop => if start < stop then none else some s
  | fuel+1, s, start, stop =>
    if start < stop then do
      let order ← getMaxPageOrder start stop
      let s ← (s.setOrder start order).freeblocksInsert start
      freeblocksInsertRange fuel s (start + 2^order) stop
    else some s

end Pmem
end MappedMemory
