import MappedMemory.Library.Run

namespace MappedMemory.RadixTree

open Function (update)

def widthPower : Nat := 6

def width : Nat := 1 <<< widthPower

structure Node where
  count : Nat
  parent : Option Nat
  slots : Nat → Option Nat

/- Nodes are known by their address; a slot holds the address of a node or, in the lowest level, a leaf. `failures` is
history, the number of times that no node could be allocated. -/
structure Tree where
  height : Nat
  rootNode : Option Nat
  heap : Nat → Option Node
  failures : Nat

def construct : Tree := ⟨0,none,fun _ => none,0⟩

abbrev Supply := List (Option Nat)

def nodeCreate (t : Tree) : Supply → Option (Tree × Option Nat × Supply)
  | some a :: rest =>
    if (t.heap a).isSome then none
    else some ({ t with heap := update t.heap a (some ⟨0,none,fun _ => none⟩) },some a,rest)
  | none :: rest => some ({ t with failures := t.failures + 1 },none,rest)
  | [] => some ({ t with failures := t.failures + 1 },none,[])

def maxIndex (t : Tree) : Int := if t.height = 0 then -1 else (1 <<< (widthPower * t.height) : Nat) - 1

def levelIndex (index level : Nat) : Nat := index >>> (level * widthPower) &&& (1 <<< widthPower - 1)

def addChild (t : Tree) (a index child : Nat) (isNode : Bool) : Option (Tree × Bool) := do
  let node ← t.heap a
  if (node.slots index).isSome then some (t,false)
  else if width < node.count + 1 then none
  else
    let node := { node with slots := update node.slots index (some child), count := node.count + 1 }
    let t := { t with heap := update t.heap a (some node) }
    if isNode then do
      let node ← t.heap child
      some ({ t with heap := update t.heap child (some { node with parent := some a }) },true)
    else some (t,true)

def descend (index : Nat) (alloc : Bool) : Nat → Tree → Option Nat → Supply → Option (Tree × Option Nat × Supply)
  | 0, t, node, supply => some (t,node,supply)
  | _ + 1, t, none, supply => some (t,none,supply)
  | level + 1, t, some a, supply => do
    let node ← t.heap a
    match node.slots (levelIndex index (level + 1)) with
    | some child => descend index alloc level t (some child) supply
    | none =>
      if alloc then do
        let (t,child,supply) ← nodeCreate t supply
        match child with
        | none => some (t,none,supply)
        | some child => do
          let (t,_) ← addChild t a (levelIndex index (level + 1)) child true
          descend index alloc level t (some child) supply
      else some (t,none,supply)

def findParent (t : Tree) (index : Nat) (alloc : Bool) (supply : Supply) : Option (Tree × Option Nat × Supply) :=
  descend index alloc (t.height - 1) t t.rootNode supply

def addLevel (t : Tree) (supply : Supply) : Option (Tree × Bool × Supply) := do
  let (t,node,supply) ← nodeCreate t supply
  match node with
  | none => some (t,false,supply)
  | some b => do
    let t ← match t.rootNode with
      | some root => (addChild t b 0 root true).map Prod.fst
      | none => some t
    some ({ t with rootNode := some b, height := t.height + 1 },true,supply)

def addLevels (index : Nat) : Nat → Tree → Supply → Option (Tree × Bool × Supply)
  | 0, _, _ => none
  | fuel + 1, t, supply =>
    if (index : Int) > maxIndex t then do
      let (t,ok,supply) ← addLevel t supply
      if ok then addLevels index fuel t supply else some (t,false,supply)
    else some (t,true,supply)

inductive Status where
  | ok | allocFailed | nodeExist
deriving DecidableEq, Repr

def lookup (t : Tree) (index : Nat) : Option (Option Nat) :=
  if (index : Int) > maxIndex t then some none
  else do
    let (_,node,_) ← findParent t index false []
    match node with
    | none => some none
    | some a => do
      let node ← t.heap a
      some (node.slots (levelIndex index 0))

def insert (t : Tree) (index leaf : Nat) (supply : Supply) : Option (Tree × Status) := do
  let (t,ok,supply) ← addLevels index (index + 2) t supply
  if ok then do
    let (t,node,_) ← findParent t index true supply
    match node with
    | none => some (t,.allocFailed)
    | some a => do
      let (t,ok) ← addChild t a (levelIndex index 0) leaf false
      some (t,if ok then .ok else .nodeExist)
  else some (t,.allocFailed)

def prune (index : Nat) : Nat → Nat → Tree → Option Nat → Option (Tree × Option Nat × Bool)
  | 0, _, t, node => some (t,node,false)
  | rounds + 1, level, t, node => do
    let a ← node
    let node ← t.heap a
    if (node.slots (levelIndex index level)).isNone ∨ node.count = 0 then none
    else if node.count - 1 = 0 then
      prune index rounds (level + 1) { t with heap := update t.heap a none } node.parent
    else
      let slots := update node.slots (levelIndex index level) none
      let node := { node with slots := slots, count := node.count - 1 }
      some ({ t with heap := update t.heap a (some node) },some a,true)

def remove (t : Tree) (index : Nat) : Option (Tree × Option Nat) := do
  let (_,node,_) ← findParent t index false []
  match node with
  | none => some (t,none)
  | some a => do
    let node ← t.heap a
    match node.slots (levelIndex index 0) with
    | none => some (t,none)
    | some leaf => do
      let (t,node,left) ← prune index t.height 0 t (some a)
      if left then some (t,some leaf)
      else if node.isSome then none
      else some ({ t with rootNode := none, height := 0 },some leaf)

inductive Op where
  | insert (index leaf : Nat) (supply : Supply)
  | lookup (index : Nat)
  | remove (index : Nat)
deriving DecidableEq, Repr

structure Run where
  tree : Tree
  map : Nat → Option Nat

def maxIndices : Nat := 2^30

def step (r : Run) : Op → Option Run
  | .insert index leaf supply => do
    if index < maxIndices then
      let (t,status) ← insert r.tree index leaf supply
      some ⟨t,if status = .ok then update r.map index (some leaf) else r.map⟩
    else none
  | .lookup index => if index < maxIndices then (lookup r.tree index).map fun _ => r else none
  | .remove index =>
    if (r.map index).isSome then (remove r.tree index).map fun x => ⟨x.1,update r.map index none⟩
    else none

def run (ops : List Op) : Option Run := ops.foldlM step ⟨construct,fun _ => none⟩

end MappedMemory.RadixTree
