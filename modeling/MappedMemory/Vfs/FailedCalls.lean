import MappedMemory.Pipe.Descriptors

namespace MappedMemory.FdCalls

open Keyed Descriptors

inductive CallErr where
  | fault | err (e : Err)
deriving DecidableEq, Repr

def fsOpenFile (t : Descriptors) (oflag : Oflag) (path : Except Err Unit) (file : Option Nat) :
    Option (Descriptors × Except Err Nat) :=
  match path, file with
  | .error e, _ => some (t,.error e)
  | .ok (), none => some (t,.error .noMem)
  | .ok (), some f => if (t.files f).isSome then none else some (t.setFile f (some ⟨1,oflag,none,true⟩),.ok f)

def sysOpen (t : Descriptors) (pid : Nat) (valid : Bool) (oflag : Oflag) (path : Except Err Unit) (file : Option Nat) :
    Option (Descriptors × Except CallErr Nat) :=
  if !valid then some (t,.error .fault)
  else match t.allocFd pid with
    | none => some (t,.error (.err .noMem))
    | some fd => do
      let (t,opened) ← fsOpenFile t oflag path file
      match opened with
      | .error e => some (t,.error (.err e))
      | .ok f => some (t.addSlot ⟨pid,fd,f⟩,.ok fd)

def fsCloseFile (t : Descriptors) (f : Nat) : Option Descriptors := do
  let file ← t.files f
  if file.fRef - 1 > 0 ∨ f < 2 then some (t.setFile f (some { file with fRef := file.fRef - 1 }))
  else if file.hasOps then
    match file.kpipe with
    | none => some (t.setFile f none)
    | some k => (t.kpipeClose k).map (·.setFile f none)
  else none

def sysClose (t : Descriptors) (pid fd : Nat) : Option (Descriptors × Except CallErr Nat) :=
  match t.slot pid fd with
  | none => some (t,.error (.err .inval))
  | some s => do
    let t ← t.kpipeRef s.file fun p => p.refDecrease s.fd
    let t ← fsCloseFile t s.file
    some (t.removeSlot s,.ok 0)

def lift (x : Option (Descriptors × Except Err Nat)) : Option (Descriptors × Except CallErr Nat) :=
  x.map fun r => (r.1,r.2.mapError .err)

def sysPipe (t : Descriptors) (pid : Nat) (valid : Bool) (r w k : Option Nat) :
    Option (Descriptors × Except CallErr Nat) :=
  if !valid then some (t,.error .fault) else lift (t.sysPipe pid r w k)

inductive Call where
  | open (pid : Nat) (valid : Bool) (oflag : Oflag) (path : Except Err Unit) (file : Option Nat)
  | dup (pid fd : Nat)
  | pipe (pid : Nat) (valid : Bool) (r w k : Option Nat)
  | close (pid fd : Nat)

def call (t : Descriptors) : Call → Option (Descriptors × Except CallErr Nat)
  | .open pid valid oflag path file => sysOpen t pid valid oflag path file
  | .dup pid fd => lift (t.sysDup pid fd)
  | .pipe pid valid r w k => sysPipe t pid valid r w k
  | .close pid fd => sysClose t pid fd

def Finished (t : Descriptors) : Prop := ∀ s ∈ t.slots, ∃ file, t.files s.file = some file ∧ file.hasOps = true

structure Intact (t t' : Descriptors) : Prop where
  slots : t'.slots = t.slots
  files : t'.files = t.files
  pipes : t'.pipes = t.pipes
  finished : Finished t → Finished t'

def Fresh (t : Descriptors) : Call → Prop
  | .open _ _ _ _ file => ∀ f, file = some f → t.files f = none
  | .pipe _ _ r w k => (∀ f, r = some f → t.files f = none) ∧
    (∀ f, w = some f → t.files f = none ∧ r ≠ some f) ∧ ∀ p, k = some p → p ∉ t.created
  | _ => True

def spoils (t : Descriptors) : Call → Bool
  | .pipe pid true r w k =>
    match t.allocFd pid, r with
    | some fd, some f => ((t.addSlot ⟨pid,fd,f⟩).allocFd pid).isNone || w.isNone || k.isNone
    | _, _ => false
  | _ => false

variable {t t' : Descriptors} {o : Call} {e : CallErr} {pid f fd : Nat} {oflag : Oflag} {path : Except Err Unit}
  {file r w k : Option Nat}

lemma Intact.refl (t : Descriptors) : Intact t t := ⟨rfl,rfl,rfl,id⟩

lemma fsOpenFile_error {e : Err} (h : fsOpenFile t oflag path file = some (t',.error e)) : t' = t := by
  cases path with
  | error e => simp_all [fsOpenFile]
  | ok =>
    cases file with
    | none => simp_all [fsOpenFile]
    | some f =>
      simp only [fsOpenFile] at h
      split at h <;> simp at h

lemma sysOpen_error {valid : Bool} (h : sysOpen t pid valid oflag path file = some (t',.error e)) : t' = t := by
  unfold sysOpen at h
  split at h
  · simp_all
  · split at h
    · simp_all
    · obtain ⟨⟨t1,opened⟩,h1,h⟩ := Option.bind_eq_some_iff.mp h
      cases opened with
      | error e =>
        obtain rfl := fsOpenFile_error h1
        simp_all
      | ok f => simp at h

lemma lift_error {x : Option (Descriptors × Except Err Nat)} (h : lift x = some (t',.error e)) :
    ∃ e', x = some (t',.error e') := by
  obtain ⟨⟨t1,r⟩,rfl,hr⟩ := Option.map_eq_some_iff.mp h
  cases r with
  | error e' =>
    obtain ⟨rfl,-⟩ := Prod.mk.inj hr
    exact ⟨e',rfl⟩
  | ok n => nomatch (Prod.mk.inj hr).2

lemma sysDup_error {e : Err} (h : t.sysDup pid fd = some (t',.error e)) : t' = t := by
  unfold sysDup at h
  split at h
  · simp_all
  · split at h
    · simp_all
    · obtain ⟨t1,-,h⟩ := Option.bind_eq_some_iff.mp h
      simp at h

lemma sysClose_error (h : sysClose t pid fd = some (t',.error e)) : t' = t := by
  unfold sysClose at h
  split at h
  · simp_all
  · obtain ⟨t1,-,h⟩ := Option.bind_eq_some_iff.mp h
    obtain ⟨t2,-,h⟩ := Option.bind_eq_some_iff.mp h
    simp at h

lemma sysPipe_error {e : Err} (h : t.sysPipe pid r w k = some (t',.error e))
    (hs : spoils t (.pipe pid true r w k) = false) : t' = t := by
  unfold Descriptors.sysPipe at h
  simp only [spoils] at hs
  cases hfd : t.allocFd pid with
  | none => simp_all
  | some rfd =>
    cases r with
    | none => simp_all
    | some rfile =>
      simp only [hfd,Bool.or_eq_false_iff,Option.isNone_eq_false_iff,Option.isSome_iff_exists] at hs
      obtain ⟨⟨⟨wfd,hw⟩,⟨wfile,rfl⟩⟩,⟨k,rfl⟩⟩ := hs
      have hw' : ((t.setFile rfile (some (freshFile .rdonly))).addSlot ⟨pid,rfd,rfile⟩).allocFd pid = some wfd := hw
      simp only [hfd,hw'] at h
      split at h
      · simp at h
      · split at h
        · simp at h
        · split at h <;> simp at h

lemma sysPipe_spoilt (hf : Fresh t (.pipe pid true r w k)) (hs : spoils t (.pipe pid true r w k) = true) :
    ∃ t' e s rest, t.sysPipe pid r w k = some (t',.error e) ∧ t'.slots = t.slots ++ s :: rest := by
  simp only [spoils] at hs
  obtain ⟨hr,hw,-⟩ := hf
  cases hfd : t.allocFd pid with
  | none => simp_all
  | some rfd =>
    cases r with
    | none => simp_all
    | some rfile =>
      have hr := hr rfile rfl
      simp only [hfd] at hs
      unfold Descriptors.sysPipe
      simp only [hfd,hr,Option.isSome_none,Bool.false_eq_true,if_false]
      cases hwfd : ((t.setFile rfile (some (freshFile .rdonly))).addSlot ⟨pid,rfd,rfile⟩).allocFd pid with
      | none => exact ⟨_,_,_,_,rfl,rfl⟩
      | some wfd =>
        cases w with
        | none => exact ⟨_,_,_,_,rfl,rfl⟩
        | some wfile =>
          obtain ⟨hw,hne⟩ := hw wfile rfl
          have hw : (Function.update t.files rfile (some (freshFile .rdonly))) wfile = none := by
            rw [Function.update_of_ne (by simpa [eq_comm] using hne),hw]
          have hk : k = none := by
            have hwfd' : (t.addSlot ⟨pid,rfd,rfile⟩).allocFd pid = some wfd := hwfd
            simpa [hwfd'] using hs
          subst hk
          simp only [addSlot,setFile,hw,Option.isSome_none,Bool.false_eq_true,if_false]
          exact ⟨_,_,_,_,rfl,List.append_assoc _ _ _⟩

lemma call_error (h : call t o = some (t',.error e)) (hs : spoils t o = false) : t' = t := by
  cases o with
  | «open» pid valid oflag path file => exact sysOpen_error h
  | dup pid fd =>
    obtain ⟨e',h⟩ := lift_error h
    exact sysDup_error h
  | close pid fd => exact sysClose_error h
  | pipe pid valid r w k =>
    cases valid with
    | false =>
      simp only [call,sysPipe] at h
      simp_all
    | true =>
      obtain ⟨e',h⟩ := lift_error h
      exact sysPipe_error h hs

theorem failed_call_iff (t : Descriptors) (o : Call) (hf : Fresh t o) :
    (∀ t' e, call t o = some (t',.error e) → Intact t t') ↔ spoils t o = false := by
  constructor
  · intro h
    by_contra hs
    have hs : spoils t o = true := by simpa using hs
    cases o with
    | pipe pid valid r w k =>
      cases valid with
      | false => simp [spoils] at hs
      | true =>
        obtain ⟨t',e,s,rest,hcall,hslots⟩ := sysPipe_spoilt hf hs
        have hcall : call t (.pipe pid true r w k) = some (t',.error (.err e)) := by
          simp [call,sysPipe,lift,hcall,Except.mapError]
        have := (h _ _ hcall).slots
        simp [hslots] at this
    | _ => simp [spoils] at hs
  · intro hs t' e h
    rw [call_error h hs]
    exact Intact.refl t

def dups : Nat → List Op
  | 0 => []
  | n + 1 => .dup 0 0 :: dups n

def table (n : Nat) : Descriptors := (Descriptors.run (.spawn :: dups n)).getD .init

theorem failed_call_no_file : (call (table 0) (.pipe 0 true none (some 3) (some 0))).isSome = true ∧
    ∀ t' e, call (table 0) (.pipe 0 true none (some 3) (some 0)) = some (t',.error e) → Intact (table 0) t' :=
  ⟨by decide +kernel,(failed_call_iff (table 0) (.pipe 0 true none (some 3) (some 0))
    ⟨nofun,by rintro f ⟨⟩; exact ⟨by decide +kernel,nofun⟩,by rintro p ⟨⟩; decide +kernel⟩).mpr (by decide +kernel)⟩

theorem failed_pipe_fills_slot :
    (call (table 125) (.pipe 0 true (some 2) (some 3) (some 0))).any (fun x => x.2 matches .error (.err .noMem) &&
      (x.1.slot 0 127 == some ⟨0,127,2⟩) && (x.1.files 2 == some (freshFile .rdonly))) = true ∧
    (call (table 0) (.pipe 0 true (some 2) none none)).any (fun x => x.2 matches .error (.err .noMem) &&
      (x.1.slot 0 2 == some ⟨0,2,2⟩) && (x.1.files 2 == none)) = true ∧
    (call (table 0) (.pipe 0 true (some 2) (some 3) none)).any (fun x => x.2 matches .error (.err .noMem) &&
      (x.1.slot 0 2 == some ⟨0,2,2⟩) && (x.1.files 2 == none) && (x.1.slot 0 3 == some ⟨0,3,3⟩) &&
        (x.1.files 3 == none)) = true ∧
    (table 125).slot 0 127 = none ∧ (table 0).slot 0 2 = none := by
  decide +kernel

end MappedMemory.FdCalls
