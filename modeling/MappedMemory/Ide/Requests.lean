import MappedMemory.Library.Run
import MappedMemory.Sfs.Disk

namespace MappedMemory.Ide

open Function (update)
open Sfs

def ideSectorSize : Nat := 512

def maxSectors : Nat := 8

inductive BioOp where
  | read | write
deriving DecidableEq, Repr

inductive BioStatus where
  | pending | complete
deriving DecidableEq, Repr

structure Bio where
  blk : Nat
  size : Nat
  op : BioOp
  some_sector : 0 < size * (bdevBlkSize / ideSectorSize)
  few_sectors : size * (bdevBlkSize / ideSectorSize) ≤ maxSectors

structure Command where
  count : Nat
  sector : Nat
  cylL : Nat
  cylH : Nat
  drive : Nat
  cmd : Nat
deriving DecidableEq, Repr

def ideCmdRead : Nat := 0x20

def ideCmdWrite : Nat := 0x30

def ideCmdRdmul : Nat := 0xC4

def ideCmdWrmul : Nat := 0xC5

def Bio.numSectors (bio : Bio) : Nat := bio.size * (bdevBlkSize / ideSectorSize)

def Bio.command (ideIndex : Nat) (bio : Bio) : Command :=
  let sector := bio.blk * (bdevBlkSize / ideSectorSize)
  { count := bio.numSectors
    sector := sector % 256
    cylL := sector / 2^8 % 256
    cylH := sector / 2^16 % 256
    drive := 0xE0 ||| ideIndex <<< 4 ||| sector / 2^24 % 16
    cmd := match bio.op with
      | .read => if bio.numSectors > 1 then ideCmdRdmul else ideCmdRead
      | .write => if bio.numSectors > 1 then ideCmdWrmul else ideCmdWrite }

inductive IdeStatus where
  | idle | busy
deriving DecidableEq, Repr

inductive Phase where
  | absent | queued | handling | waiting | returned
deriving DecidableEq, Repr

inductive Handler where
  | looking
  | found (bio : Option Nat)
deriving DecidableEq, Repr

inductive Trap where
  | popping
  | completing (bio : Nat)
  | peeking
  | next (bio : Option Nat)
deriving DecidableEq, Repr

inductive Section where
  | free
  | handler (caller : Nat) (at_ : Handler)
  | trap (at_ : Trap)
deriving DecidableEq, Repr

/- A request is known by its place in the order of appending, and a caller by its request. `irqs` counts
the commands whose interrupt has not been taken; `issued`, `commands` and `completed` are history. -/
structure Disk where
  ideIndex : Nat
  bios : List Bio
  bioStatus : Nat → BioStatus
  phase : Nat → Phase
  queue : List Nat
  status : IdeStatus
  sec : Section
  irqs : Nat
  issued : List Nat
  commands : List Command
  completed : List Nat
  panicked : Bool

inductive Action where
  | submit (bio : Bio)
  | enter (caller : Nat)
  | look | leave
  | interrupt
  | pop | complete | peek | finish
  | wake (caller : Nat)

namespace Disk

def panic (s : Disk) : Disk := { s with panicked := true }

def bdevFrontBio (s : Disk) : Option Nat := s.queue.head?

def toIssue (s : Disk) : Option Nat := if s.status = .idle then s.bdevFrontBio else none

def ideIssueCmd (s : Disk) (r : Nat) : Disk :=
  match s.bios[r]? with
  | none => s.panic
  | some bio =>
    if 0 < bio.numSectors ∧ bio.numSectors ≤ maxSectors then { s with
      commands := s.commands ++ [bio.command s.ideIndex]
      issued := s.issued ++ [r]
      irqs := s.irqs + 1
      status := .busy }
    else s.panic

def issue (s : Disk) (r : Nat) : Disk := if s.bioStatus r = .pending then s.ideIssueCmd r else s.panic

def submit (s : Disk) (bio : Bio) : Disk := { s with
  bios := s.bios ++ [bio]
  bioStatus := update s.bioStatus s.bios.length .pending
  phase := update s.phase s.bios.length .queued
  queue := s.queue ++ [s.bios.length] }

def setPhase (s : Disk) (r : Nat) (p : Phase) : Disk := { s with phase := update s.phase r p }

def popFront (s : Disk) : Disk :=
  if s.status = .busy then
    match s.queue with
    | [] => s.panic
    | r :: rest =>
      if s.bioStatus r = .pending then { s with queue := rest, sec := .trap (.completing r) } else s.panic
  else { s with sec := .free }

def step (s : Disk) (a : Action) : Option Disk :=
  if s.panicked then none
  else match a, s.sec with
    | .submit bio, _ => some (s.submit bio)
    | .enter r, .free =>
      if s.phase r = .queued then some { s.setPhase r .handling with sec := .handler r .looking } else none
    | .look, .handler r .looking =>
      some { s with sec := .handler r (.found s.toIssue) }
    | .leave, .handler r (.found none) => some { s.setPhase r .waiting with sec := .free }
    | .leave, .handler r (.found (some b)) => some { (s.issue b).setPhase r .waiting with sec := .free }
    | .interrupt, .free => if 0 < s.irqs then some { s with irqs := s.irqs - 1, sec := .trap .popping } else none
    | .pop, .trap .popping => some s.popFront
    | .complete, .trap (.completing r) => some { s with
      bioStatus := update s.bioStatus r .complete
      completed := s.completed ++ [r]
      sec := .trap .peeking }
    | .peek, .trap .peeking => some { s with sec := .trap (.next s.bdevFrontBio) }
    | .finish, .trap (.next none) => some { s with status := .idle, sec := .free }
    | .finish, .trap (.next (some b)) => some { s.issue b with sec := .free }
    | .wake r, _ => if s.phase r = .waiting ∧ s.bioStatus r = .complete then some (s.setPhase r .returned) else none
    | _, _ => none

def ideAlloc (ideIndex : Nat) : Disk where
  ideIndex := ideIndex
  bios := []
  bioStatus _ := .pending
  phase _ := .absent
  queue := []
  status := .idle
  sec := .free
  irqs := 0
  issued := []
  commands := []
  completed := []
  panicked := false

end Disk

end MappedMemory.Ide
