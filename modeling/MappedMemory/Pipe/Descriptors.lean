import MappedMemory.Pipe.Transfer
import MappedMemory.Shm.Context

namespace MappedMemory

open Function (update_of_ne update_self)

open Keyed

def procMaxFile : Nat := 128

inductive Oflag where
  | rdonly | wronly | rdwr
deriving DecidableEq, Repr

structure File where
  fRef : Int
  oflag : Oflag
  kpipe : Option Nat
  hasOps : Bool
deriving DecidableEq, Repr

structure FdSlot where
  pid : Nat
  fd : Nat
  file : Nat
deriving DecidableEq, Repr

def FdSlot.key (s : FdSlot) : Nat × Nat := (s.pid,s.fd)

structure Descriptors where
  pids : List Nat
  slots : List FdSlot
  files : Nat → Option File
  pipes : Nat → Option Kpipe
  created : List Nat
  frees : List Nat
  nextPid : Nat

namespace Descriptors

def init : Descriptors :=
  ⟨[],[],fun f => if f < 2 then some ⟨1,.rdwr,none,true⟩ else none,fun _ => none,[],[],0⟩

def slot (t : Descriptors) (pid fd : Nat) : Option FdSlot := lookup FdSlot.key (pid,fd) t.slots

def slotsOf (t : Descriptors) (pid : Nat) : List FdSlot := (List.range procMaxFile).filterMap (t.slot pid)

def allocFd (t : Descriptors) (pid : Nat) : Option Nat :=
  (List.range procMaxFile).find? fun fd => (t.slot pid fd).isNone

def addSlot (t : Descriptors) (s : FdSlot) : Descriptors := { t with slots := t.slots ++ [s] }

def removeSlot (t : Descriptors) (s : FdSlot) : Descriptors := { t with slots := remove FdSlot.key s.key t.slots }

def setFile (t : Descriptors) (f : Nat) (file : Option File) : Descriptors :=
  { t with files := Function.update t.files f file }

def setPipe (t : Descriptors) (k : Nat) (p : Option Kpipe) : Descriptors :=
  { t with pipes := Function.update t.pipes k p }

def kpipeRef (t : Descriptors) (f : Nat) (update : Kpipe → Kpipe) : Option Descriptors := do
  let file ← t.files f
  match file.kpipe with
  | none => some t
  | some k => do
    let p ← t.pipes k
    some (t.setPipe k (some (update p)))

def fsReopenFile (t : Descriptors) (f : Nat) : Option Descriptors := do
  let file ← t.files f
  some (t.setFile f (some { file with fRef := file.fRef + 1 }))

def kpipeClose (t : Descriptors) (k : Nat) : Option Descriptors := do
  let p ← t.pipes k
  some (if p.unreferenced then { t.setPipe k none with frees := t.frees ++ [k] } else t)

def fsCloseFile (t : Descriptors) (f : Nat) : Option Descriptors := do
  let file ← t.files f
  if file.fRef - 1 > 0 ∨ f < 2 then some (t.setFile f (some { file with fRef := file.fRef - 1 }))
  else if file.hasOps then do
    let k ← file.kpipe
    let t ← t.kpipeClose k
    some (t.setFile f none)
  else none

def link (t : Descriptors) (f fd : Nat) (s : FdSlot) : Option Descriptors := do
  let t ← t.kpipeRef f fun p => p.refIncrease fd
  let t ← t.fsReopenFile f
  some (t.addSlot s)

def unlink (t : Descriptors) (s : FdSlot) : Option Descriptors := do
  let t ← t.kpipeRef s.file fun p => p.refDecrease s.fd
  let t ← t.fsCloseFile s.file
  some (t.removeSlot s)

def sysDup (t : Descriptors) (pid fd : Nat) : Option (Descriptors × Except Err Nat) :=
  match t.slot pid fd with
  | none => some (t,.error .inval)
  | some s =>
    match t.allocFd pid with
    | none => some (t,.error .noMem)
    | some i => do
      let t ← t.link s.file fd ⟨pid,i,s.file⟩
      some (t,.ok i)

def sysClose (t : Descriptors) (pid fd : Nat) : Option (Descriptors × Except Err Nat) :=
  match t.slot pid fd with
  | none => some (t,.error .inval)
  | some s => do
    let t ← t.unlink s
    some (t,.ok 0)

def freshFile (oflag : Oflag) : File := ⟨1,oflag,none,false⟩

def kpipeInit (t : Descriptors) (rfile wfile rfd wfd k : Nat) : Descriptors :=
  let t := { t.setPipe k (some (.init rfd wfd)) with created := k :: t.created }
  (t.setFile wfile (some { freshFile .wronly with kpipe := some k, hasOps := true })).setFile rfile
    (some { freshFile .rdonly with kpipe := some k, hasOps := true })

def sysPipe (t : Descriptors) (pid : Nat) (r w k : Option Nat) : Option (Descriptors × Except Err Nat) :=
  match t.allocFd pid with
  | none => some (t,.error .noMem)
  | some rfd =>
    match r with
    | none => some (t,.error .noMem)
    | some rfile =>
      if (t.files rfile).isSome then none
      else
        let t := (t.setFile rfile (some (freshFile .rdonly))).addSlot ⟨pid,rfd,rfile⟩
        match t.allocFd pid with
        | none => some (t,.error .noMem)
        | some wfd =>
          match w with
          | none => some (t.setFile rfile none,.error .noMem)
          | some wfile =>
            if (t.files wfile).isSome then none
            else
              let t := (t.setFile wfile (some (freshFile .wronly))).addSlot ⟨pid,wfd,wfile⟩
              match k with
              | none => some ((t.setFile rfile none).setFile wfile none,.error .noMem)
              | some k =>
                if k ∈ t.created then none
                else some (t.kpipeInit rfile wfile rfd wfd k,.ok rfd)

def spawn (t : Descriptors) : Option Descriptors := do
  let t' ← t.fsReopenFile 0
  let t' ← t'.fsReopenFile 1
  some { (t'.addSlot ⟨t.nextPid,0,0⟩).addSlot ⟨t.nextPid,1,1⟩ with
    pids := t.nextPid :: t.pids, nextPid := t.nextPid + 1 }

def keepStd (t : Descriptors) (child fd : Nat) : Descriptors :=
  if (t.slot child fd).isSome then t else t.addSlot ⟨child,fd,fd⟩

def childSlot (child : Nat) (s : FdSlot) : FdSlot := ⟨child,s.fd,s.file⟩

def procFork (t : Descriptors) (pid : Nat) : Option Descriptors := do
  let child := t.nextPid
  let t' ← (t.slotsOf pid).foldlM (fun t s => t.link s.file s.fd (childSlot child s)) t
  some { (t'.keepStd child 0).keepStd child 1 with pids := child :: t.pids, nextPid := child + 1 }

def procExit (t : Descriptors) (pid : Nat) : Option Descriptors := do
  let t' ← (t.slotsOf pid).foldlM unlink t
  some { t' with pids := t.pids.erase pid }

inductive Op where
  | spawn
  | pipe (pid : Nat) (r w k : Option Nat)
  | dup (pid fd : Nat)
  | close (pid fd : Nat)
  | fork (pid : Nat)
  | exit (pid : Nat)
deriving DecidableEq, Repr

def step (t : Descriptors) : Op → Option Descriptors
  | .spawn => t.spawn
  | .pipe pid r w k => if pid ∈ t.pids then (t.sysPipe pid r w k).map Prod.fst else none
  | .dup pid fd => if pid ∈ t.pids then (t.sysDup pid fd).map Prod.fst else none
  | .close pid fd => if pid ∈ t.pids then (t.sysClose pid fd).map Prod.fst else none
  | .fork pid => if pid ∈ t.pids then t.procFork pid else none
  | .exit pid => if pid ∈ t.pids then t.procExit pid else none

def run (ops : List Op) : Option Descriptors := ops.foldlM step init

def isEnd (t : Descriptors) (k : Nat) (o : Oflag) (f : Nat) : Bool :=
  (t.files f).any fun file => file.kpipe == some k && file.oflag == o

def ends (t : Descriptors) (k : Nat) (o : Oflag) : Nat := t.slots.countP fun s => t.isEnd k o s.file

variable {t t' : Descriptors} {f fd k pid : Nat} {s : FdSlot} {file : File} {p : Kpipe} {o : Oflag} {n : Nat}
  {update : Kpipe → Kpipe}

def holders (t : Descriptors) (f : Nat) : Nat := t.slots.countP fun s => s.file == f

structure Books (t : Descriptors) : Prop where
  keys : Distinct FdSlot.key t.slots
  fds : ∀ s ∈ t.slots, s.fd < procMaxFile
  held : ∀ s ∈ t.slots, t.files s.file ≠ none
  refs : ∀ f file, t.files f = some file → 2 ≤ f → file.fRef = t.holders f ∧ 0 < t.holders f
  std : ∀ f < 2, ∃ file, t.files f = some file ∧ file.kpipe = none
  piped : ∀ f file k, t.files f = some file → file.kpipe = some k →
    (file.oflag = .rdonly ∨ file.oflag = .wronly) ∧ t.pipes k ≠ none
  counts : ∀ k p, t.pipes k = some p → p.readers = t.ends k .rdonly ∧ p.writers = t.ends k .wronly
  used : ∀ k p, t.pipes k = some p → ∃ f file, t.files f = some file ∧ file.kpipe = some k
  listed : ∀ k p, t.pipes k = some p → k ∈ t.created
  frees : ∀ k, t.frees.count k = if k ∈ t.created ∧ t.pipes k = none then 1 else 0

lemma increased (h : n + 1 < 2^31) : sizeT (int32 n + 1) = n + 1 := by
  simp only [sizeT,int32]
  omega

lemma decreased (h : 0 < n) (hn : n < 2^31) : sizeT (int32 n - 1) = n - 1 := by
  simp only [sizeT,int32]
  omega

lemma isEnd_eq (h : t.files f = some file) : t.isEnd k o f = (file.kpipe == some k && file.oflag == o) := by
  simp [isEnd,h]

def Recounted (t : Descriptors) (file : File) (update : Kpipe → Kpipe) (pipes : Nat → Option Kpipe) : Prop :=
  file.kpipe = none ∧ pipes = t.pipes ∨
    ∃ k p, file.kpipe = some k ∧ t.pipes k = some p ∧ pipes = Function.update t.pipes k (some (update p))

lemma kpipeRef_some (h : t.kpipeRef f update = some t') :
    ∃ file pipes, t.files f = some file ∧ Recounted t file update pipes ∧ t' = { t with pipes := pipes } := by
  simp only [kpipeRef,Run.bind_some] at h
  obtain ⟨file,hf,h⟩ := h
  split at h
  · rename_i hn
    cases h
    exact ⟨file,_,hf,.inl ⟨hn,rfl⟩,rfl⟩
  · rename_i k hk
    obtain ⟨p,hp,h⟩ := Run.bind_some.mp h
    cases h
    exact ⟨file,_,hf,.inr ⟨k,p,hk,hp,rfl⟩,rfl⟩

lemma link_some (h : t.link f fd s = some t') : ∃ file pipes, t.files f = some file ∧
    Recounted t file (fun p => p.refIncrease fd) pipes ∧
    t' = { t with
      slots := t.slots ++ [s], pipes := pipes
      files := Function.update t.files f (some { file with fRef := file.fRef + 1 }) } := by
  simp only [link,fsReopenFile,Option.bind_eq_bind,Option.bind_eq_some_iff] at h
  obtain ⟨t1,ht1,t2,⟨file',hf',ht2⟩,h⟩ := h
  cases h
  cases ht2
  obtain ⟨file,pipes,hf,hrec,rfl⟩ := kpipeRef_some ht1
  obtain rfl := Option.some_inj.mp (hf.symm.trans hf')
  exact ⟨file,pipes,hf,hrec,rfl⟩

lemma Recounted.none_iff {pipes : Nat → Option Kpipe} (h : Recounted t file update pipes)
    (k : Nat) : pipes k = none ↔ t.pipes k = none := by
  rcases h with ⟨-,rfl⟩ | ⟨j,p,-,hp,rfl⟩
  · exact Iff.rfl
  · by_cases hk : k = j
    · simp [hk,hp]
    · rw [update_of_ne hk]

def SameFiles (t t' : Descriptors) : Prop :=
  ∀ g, (t'.files g).map (fun file => (file.kpipe,file.oflag)) = (t.files g).map fun file => (file.kpipe,file.oflag)

lemma SameFiles.symm (h : SameFiles t t') : SameFiles t' t := fun g => (h g).symm

lemma SameFiles.some {g : Nat} (h : SameFiles t t') (hg : t.files g = some file) :
    ∃ file', t'.files g = some file' ∧ file'.kpipe = file.kpipe ∧ file'.oflag = file.oflag := by
  have hmap := h g
  rw [hg,Option.map_some,Option.map_eq_some_iff] at hmap
  obtain ⟨file',hf',heq⟩ := hmap
  exact ⟨file',hf',(Prod.mk.inj heq).1,(Prod.mk.inj heq).2⟩

lemma SameFiles.isEnd (h : SameFiles t t') (k : Nat) (o : Oflag) (g : Nat) : t'.isEnd k o g = t.isEnd k o g := by
  simp only [Descriptors.isEnd]
  cases hg : t.files g with
  | none =>
    have hmap := h g
    rw [hg,Option.map_none,Option.map_eq_none_iff] at hmap
    rw [hmap]
  | some file =>
    obtain ⟨file',hf',hk,ho⟩ := h.some hg
    rw [hf',Option.any_some,Option.any_some,hk,ho]

lemma sameFiles_update {ref : Int} (hf : t.files f = some file)
    (hfiles : t'.files = Function.update t.files f (some { file with fRef := ref })) : SameFiles t t' := by
  intro g
  rw [hfiles]
  by_cases hg : g = f
  · rw [hg,update_self,hf]
    rfl
  · rw [update_of_ne hg]

lemma Books.recount (hb : Books t) (hfiles : SameFiles t t') (hpipes : ∀ k, t'.pipes k = none ↔ t.pipes k = none)
    (hcreated : t'.created = t.created) (hfrees : t'.frees = t.frees) (hkeys : Distinct FdSlot.key t'.slots)
    (hslots : ∀ s ∈ t'.slots, s.fd < procMaxFile ∧ t.files s.file ≠ none)
    (hrefs : ∀ f file, t'.files f = some file → 2 ≤ f → file.fRef = t'.holders f ∧ 0 < t'.holders f)
    (hcounts : ∀ k p, t'.pipes k = some p → p.readers = t'.ends k .rdonly ∧ p.writers = t'.ends k .wronly) :
    Books t' := by
  have hold : ∀ {k p}, t'.pipes k = some p → ∃ q, t.pipes k = some q := fun {k p} hp =>
    Option.ne_none_iff_exists'.mp fun hn => by simp [(hpipes k).mpr hn] at hp
  refine ⟨hkeys,fun s hs => (hslots s hs).1,fun s hs => ?_,hrefs,fun f hf => ?_,fun f file k hf hk => ?_,hcounts,
    fun k p hp => ?_,fun k p hp => ?_,fun k => ?_⟩
  · obtain ⟨file,hf⟩ := Option.ne_none_iff_exists'.mp (hslots s hs).2
    obtain ⟨file',hf',-⟩ := hfiles.some hf
    simp [hf']
  · obtain ⟨file,hfile,hn⟩ := hb.std f hf
    obtain ⟨file',hf',hk,-⟩ := hfiles.some hfile
    exact ⟨file',hf',hk.trans hn⟩
  · obtain ⟨file',hf',hk',ho'⟩ := hfiles.symm.some hf
    obtain ⟨hflag,hp⟩ := hb.piped f file' k hf' (hk'.trans hk)
    exact ⟨ho' ▸ hflag,fun hn => hp ((hpipes k).mp hn)⟩
  · obtain ⟨q,hq⟩ := hold hp
    obtain ⟨f,file,hf,hk⟩ := hb.used k q hq
    obtain ⟨file',hf',hk',-⟩ := hfiles.some hf
    exact ⟨f,file',hf',hk'.trans hk⟩
  · obtain ⟨q,hq⟩ := hold hp
    exact hcreated ▸ hb.listed k q hq
  · rw [hfrees,hcreated,hb.frees k]
    simp only [hpipes k]

def endMatches (t : Descriptors) (f fd : Nat) : Bool :=
  (t.files f).all fun file => file.kpipe.all fun k => (t.pipes k).all fun p =>
    decide (fd = p.fdReader) == decide (file.oflag = .rdonly)

lemma endMatches_iff (hm : t.endMatches f fd = true) (hf : t.files f = some file) (hk : file.kpipe = some k)
    (hp : t.pipes k = some p) : fd = p.fdReader ↔ file.oflag = .rdonly := by
  simpa [endMatches,hf,hk,hp] using hm

lemma Books.side (hb : Books t) (hm : t.endMatches f fd = true) (hf : t.files f = some file)
    (hk : file.kpipe = some k) (hp : t.pipes k = some p) :
    fd = p.fdReader ∧ t.isEnd k .rdonly f = true ∧ t.isEnd k .wronly f = false ∨
      fd ≠ p.fdReader ∧ t.isEnd k .rdonly f = false ∧ t.isEnd k .wronly f = true := by
  have hmatch := endMatches_iff hm hf hk hp
  rcases (hb.piped f file k hf hk).1 with ho | ho <;> simp [isEnd_eq hf,hk,hmatch,ho]

lemma ends_le (t : Descriptors) (k : Nat) (o : Oflag) : t.ends k o ≤ t.slots.length := List.countP_le_length

lemma refIncrease_counts {m : Nat} (hb : Books t) (hm : t.endMatches f fd = true) (hf : t.files f = some file)
    (hk : file.kpipe = some k) (hp : t.pipes k = some p) (hbound : t.slots.length + 1 < 2^31)
    (hn : n = t.ends k .rdonly + if t.isEnd k .rdonly f then 1 else 0)
    (hw : m = t.ends k .wronly + if t.isEnd k .wronly f then 1 else 0) :
    (p.refIncrease fd).readers = n ∧ (p.refIncrease fd).writers = m := by
  obtain ⟨hr,hwr⟩ := hb.counts k p hp
  have hle := ends_le t k .rdonly
  have hle' := ends_le t k .wronly
  rcases hb.side hm hf hk hp with ⟨hfd,h1,h2⟩ | ⟨hfd,h1,h2⟩
  all_goals simp only [h1,h2,if_true,Bool.false_eq_true,if_false,Kpipe.refIncrease,hfd] at hn hw ⊢
  · exact ⟨(increased (by omega)).trans (by omega),by omega⟩
  · exact ⟨by omega,(increased (by omega)).trans (by omega)⟩

lemma Books.link (hb : Books t) (h : t.link f fd s = some t') (hs : s.file = f) (hfd : s.fd < procMaxFile)
    (hnew : ∀ x ∈ t.slots, x.key ≠ s.key) (hm : t.endMatches f fd = true) (hbound : t.slots.length + 1 < 2^31) :
    Books t' := by
  obtain ⟨file,pipes,hf,hrec,ht⟩ := link_some h
  subst hs
  have hslots : t'.slots = t.slots ++ [s] := by rw [ht]
  have hpipes : t'.pipes = pipes := by rw [ht]
  have hfiles : t'.files = Function.update t.files s.file (some { file with fRef := file.fRef + 1 }) := by rw [ht]
  have hsame : SameFiles t t' := sameFiles_update hf hfiles
  have hends : ∀ k o, t'.ends k o = t.ends k o + if t.isEnd k o s.file then 1 else 0 := fun k o => by
    simp only [ends,hslots,List.countP_append,List.countP_singleton,hsame.isEnd]
  have hholders : ∀ g, t'.holders g = t.holders g + if s.file = g then 1 else 0 := fun g => by
    simp [holders,hslots,List.countP_append,List.countP_singleton]
  refine hb.recount hsame (fun k => by rw [hpipes]; exact hrec.none_iff k) (by rw [ht]) (by rw [ht])
    (hslots ▸ hb.keys.append hnew) (fun x hx => ?_) (fun g file' hg h2 => ?_) (fun k p hp => ?_)
  · rw [hslots] at hx
    rcases List.mem_append.mp hx with hx | hx
    · exact ⟨hb.fds x hx,hb.held x hx⟩
    · obtain rfl := List.mem_singleton.mp hx
      exact ⟨hfd,by simp [hf]⟩
  · rw [hholders]
    rw [hfiles] at hg
    by_cases hgf : g = s.file
    · subst hgf
      rw [update_self] at hg
      cases hg
      obtain ⟨href,-⟩ := hb.refs s.file file hf h2
      simp [href]
    · rw [update_of_ne hgf] at hg
      simpa [Ne.symm hgf] using hb.refs g file' hg h2
  · rw [hends,hends]
    rw [hpipes] at hp
    rcases hrec with ⟨hn,rfl⟩ | ⟨j,q,hj,hq,rfl⟩
    · simpa [isEnd_eq hf,hn] using hb.counts k p hp
    · by_cases hkj : k = j
      · subst hkj
        rw [update_self] at hp
        cases hp
        exact refIncrease_counts hb hm hf hj hq hbound rfl rfl
      · rw [update_of_ne hkj] at hp
        simpa [isEnd_eq hf,hj,Ne.symm hkj] using hb.counts k p hp

section unlink

variable {pipes : Nat → Option Kpipe}

lemma unlink_some (h : t.unlink s = some t') : ∃ file pipes, t.files s.file = some file ∧
    Recounted t file (fun p => p.refDecrease s.fd) pipes ∧
    ((file.fRef - 1 > 0 ∨ s.file < 2) ∧
      t' = { t with
        slots := remove FdSlot.key s.key t.slots, pipes := pipes
        files := Function.update t.files s.file (some { file with fRef := file.fRef - 1 }) } ∨
    ¬ (file.fRef - 1 > 0 ∨ s.file < 2) ∧ ∃ k q, file.kpipe = some k ∧ pipes k = some q ∧
      t' = { t with
        slots := remove FdSlot.key s.key t.slots
        files := Function.update t.files s.file none
        pipes := if q.unreferenced then Function.update pipes k none else pipes
        frees := if q.unreferenced then t.frees ++ [k] else t.frees }) := by
  simp only [unlink,fsCloseFile,kpipeClose,Option.bind_eq_bind,Option.bind_eq_some_iff] at h
  obtain ⟨t1,ht1,t2,⟨file',hf',ht2⟩,h⟩ := h
  cases h
  obtain ⟨file,pipes,hf,hrec,rfl⟩ := kpipeRef_some ht1
  obtain rfl := Option.some_inj.mp (hf.symm.trans hf')
  refine ⟨file,pipes,hf,hrec,?_⟩
  split at ht2
  · rename_i hmore
    cases ht2
    exact .inl ⟨hmore,rfl⟩
  · rename_i hlast
    split at ht2
    · simp only [Option.bind_eq_some_iff] at ht2
      obtain ⟨k,hk,t3,⟨q,hq,ht3⟩,ht2⟩ := ht2
      cases ht2
      cases ht3
      refine .inr ⟨hlast,k,q,hk,hq,?_⟩
      cases q.unreferenced <;> rfl
    · cases ht2

lemma countP_remove (hk : Distinct FdSlot.key t.slots) (hs : s ∈ t.slots) (q : FdSlot → Bool) :
    t.slots.countP q = (remove FdSlot.key s.key t.slots).countP q + if q s then 1 else 0 := by
  rw [(hk.perm_remove hs rfl).countP_eq q,List.countP_cons]

lemma refDecrease_counts {n m : Nat} (hb : Books t) (hm : t.endMatches s.file s.fd = true)
    (hf : t.files s.file = some file) (hk : file.kpipe = some k) (hp : t.pipes k = some p)
    (hbound : t.slots.length < 2^31) (hn : t.ends k .rdonly = n + if t.isEnd k .rdonly s.file then 1 else 0)
    (hw : t.ends k .wronly = m + if t.isEnd k .wronly s.file then 1 else 0) :
    (p.refDecrease s.fd).readers = n ∧ (p.refDecrease s.fd).writers = m := by
  obtain ⟨hr,hwr⟩ := hb.counts k p hp
  have hle := ends_le t k .rdonly
  have hle' := ends_le t k .wronly
  rcases hb.side hm hf hk hp with ⟨hfd,h1,h2⟩ | ⟨hfd,h1,h2⟩
  all_goals simp only [h1,h2,if_true,Bool.false_eq_true,if_false,Kpipe.refDecrease,hfd] at hn hw ⊢
  · exact ⟨(decreased (by omega) (by omega)).trans (by omega),by omega⟩
  · exact ⟨by omega,(decreased (by omega) (by omega)).trans (by omega)⟩

lemma Recounted.counts (hb : Books t) (hs : s ∈ t.slots)
    (hm : t.endMatches s.file s.fd = true) (hf : t.files s.file = some file) (hbound : t.slots.length < 2^31)
    (hrec : Recounted t file (fun p => p.refDecrease s.fd) pipes) (hp : pipes k = some p) :
    p.readers = (remove FdSlot.key s.key t.slots).countP (fun x => t.isEnd k .rdonly x.file) ∧
    p.writers = (remove FdSlot.key s.key t.slots).countP (fun x => t.isEnd k .wronly x.file) := by
  have hends : ∀ o, t.ends k o = (remove FdSlot.key s.key t.slots).countP (fun x => t.isEnd k o x.file) +
      if t.isEnd k o s.file then 1 else 0 := fun o => countP_remove hb.keys hs _
  rcases hrec with ⟨hn,rfl⟩ | ⟨j,q,hj,hq,rfl⟩
  · have hc := hb.counts k p hp
    rw [hends,hends] at hc
    simpa [isEnd_eq hf,hn] using hc
  · by_cases hkj : k = j
    · subst hkj
      rw [update_self] at hp
      cases hp
      exact refDecrease_counts hb hm hf hj hq hbound (hends _) (hends _)
    · rw [update_of_ne hkj] at hp
      have hc := hb.counts k p hp
      rw [hends,hends] at hc
      simpa [isEnd_eq hf,hj,Ne.symm hkj] using hc

lemma Books.discard {q : Kpipe} (hb : Books t) (hs : s ∈ t.slots)
    (hf : t.files s.file = some file) (hrec : Recounted t file (fun p => p.refDecrease s.fd) pipes)
    (hcounts : ∀ k p, pipes k = some p →
      p.readers = (remove FdSlot.key s.key t.slots).countP (fun x => t.isEnd k .rdonly x.file) ∧
      p.writers = (remove FdSlot.key s.key t.slots).countP (fun x => t.isEnd k .wronly x.file))
    (hlast : ¬ (file.fRef - 1 > 0 ∨ s.file < 2)) (hk : file.kpipe = some k) (hq : pipes k = some q)
    (ht : t' = { t with
      slots := remove FdSlot.key s.key t.slots
      files := Function.update t.files s.file none
      pipes := if q.unreferenced then Function.update pipes k none else pipes
      frees := if q.unreferenced then t.frees ++ [k] else t.frees }) : Books t' := by
  have hslots : t'.slots = remove FdSlot.key s.key t.slots := by rw [ht]
  have hgone : ∀ x ∈ t'.slots, x.file ≠ s.file := by
    obtain ⟨href,hpos⟩ := hb.refs s.file file hf (by omega)
    have hone : t.holders s.file = _ := countP_remove hb.keys hs fun x => x.file == s.file
    simp only [beq_self_eq_true,if_true] at hone
    have hzero : (remove FdSlot.key s.key t.slots).countP (fun x => x.file == s.file) = 0 := by omega
    rw [hslots]
    simpa using List.countP_eq_zero.mp hzero
  have hfile : ∀ g, g ≠ s.file → t'.files g = t.files g := fun g hg => by
    rw [ht]
    exact update_of_ne hg _ _
  have hnone : t'.files s.file = none := by
    rw [ht]
    exact update_self ..
  have hother : ∀ {g file'}, t'.files g = some file' → g ≠ s.file ∧ t.files g = some file' := fun {g file'} hg => by
    have hne : g ≠ s.file := fun he => by simp [he,hnone] at hg
    exact ⟨hne,hfile g hne ▸ hg⟩
  have hholders : ∀ g, g ≠ s.file → t'.holders g = t.holders g := fun g hg => by
    rw [holders,holders,countP_remove hb.keys hs fun x => x.file == g,hslots]
    simp [Ne.symm hg]
  have hends : ∀ k o, t'.ends k o = (remove FdSlot.key s.key t.slots).countP (fun x => t.isEnd k o x.file) :=
    fun k o => by
      rw [ends,hslots]
      refine List.countP_congr fun x hx => ?_
      rw [isEnd,isEnd,hfile _ (hgone x (hslots ▸ hx))]
  have hpipes : ∀ {j p}, t'.pipes j = some p → pipes j = some p ∧ (j = k → q.unreferenced = false) := by
    intro j p hp
    rw [ht] at hp
    simp only at hp
    split at hp
    · by_cases hj : j = k
      · simp [hj] at hp
      · exact ⟨by rwa [update_of_ne hj] at hp,fun h => absurd h hj⟩
    · rename_i hu
      exact ⟨hp,fun _ => by simpa using hu⟩
  have hold : ∀ {j p}, pipes j = some p → ∃ p', t.pipes j = some p' := fun {j p} hp =>
    Option.ne_none_iff_exists'.mp fun hn => by simp [(hrec.none_iff j).mpr hn] at hp
  have hcounted : ∀ {g file'}, t'.files g = some file' → file'.kpipe = some k → q.unreferenced = false := by
    intro g file' hg hk'
    obtain ⟨hne,hg'⟩ := hother hg
    have h2 : 2 ≤ g := by
      by_contra hlt
      obtain ⟨file'',hf'',hn⟩ := hb.std g (by omega)
      rw [hg'] at hf''
      cases hf''
      simp [hk'] at hn
    have hpos : 0 < t'.holders g := by
      rw [hholders g hne]
      exact (hb.refs g file' hg' h2).2
    obtain ⟨x,hx,hxg⟩ := List.countP_pos_iff.mp hpos
    obtain rfl : x.file = g := by simpa using hxg
    obtain ⟨hr,hw⟩ := hcounts k q hq
    have hend : ∀ o, file'.oflag = o →
        0 < (remove FdSlot.key s.key t.slots).countP (fun x => t.isEnd k o x.file) := fun o ho =>
      List.countP_pos_iff.mpr ⟨x,hslots ▸ hx,by simp [isEnd_eq hg',hk',ho]⟩
    rcases (hb.piped _ file' k hg' hk').1 with ho | ho
    · have := hend _ ho
      simp only [Kpipe.unreferenced,Bool.and_eq_false_iff,beq_eq_false_iff_ne]
      omega
    · have := hend _ ho
      simp only [Kpipe.unreferenced,Bool.and_eq_false_iff,beq_eq_false_iff_ne]
      omega
  refine ⟨hslots ▸ hb.keys.remove,fun x hx => hb.fds x (mem_remove.mp (hslots ▸ hx)).1,fun x hx => ?_,
    fun g file' hg h2 => ?_,fun g hg => ?_,fun g file' j hg hj => ?_,fun j p hp => ?_,fun j p hp => ?_,
    fun j p hp => ?_,fun j => ?_⟩
  · rw [hfile _ (hgone x hx)]
    exact hb.held x (mem_remove.mp (hslots ▸ hx)).1
  · obtain ⟨hne,hg'⟩ := hother hg
    rw [hholders g hne]
    exact hb.refs g file' hg' h2
  · rw [hfile g (by omega)]
    exact hb.std g hg
  · obtain ⟨hne,hg'⟩ := hother hg
    obtain ⟨hflag,hp⟩ := hb.piped g file' j hg' hj
    refine ⟨hflag,fun hn => ?_⟩
    have hlive : pipes j ≠ none := fun h => hp ((hrec.none_iff j).mp h)
    rw [ht] at hn
    simp only at hn
    split at hn
    · rename_i hu
      by_cases hjk : j = k
      · subst hjk
        exact absurd (hcounted hg hj) (by simp [hu])
      · rw [update_of_ne hjk] at hn
        exact hlive hn
    · exact hlive hn
  · rw [hends,hends]
    exact hcounts j p (hpipes hp).1
  · obtain ⟨hp',hu⟩ := hpipes hp
    obtain ⟨p',hpt⟩ := hold hp'
    obtain ⟨g,file',hg,hj⟩ := hb.used j p' hpt
    by_cases hne : g = s.file
    · subst hne
      cases hf.symm.trans hg
      cases hk.symm.trans hj
      cases hq.symm.trans hp'
      obtain ⟨hr,hw⟩ := hcounts k q hq
      have hsome : ∃ o, 0 < (remove FdSlot.key s.key t.slots).countP (fun x => t.isEnd k o x.file) := by
        have hnz := hu rfl
        simp only [Kpipe.unreferenced,Bool.and_eq_false_iff,beq_eq_false_iff_ne] at hnz
        rcases hnz with hz | hz
        · exact ⟨.wronly,by omega⟩
        · exact ⟨.rdonly,by omega⟩
      obtain ⟨o,ho⟩ := hsome
      obtain ⟨x,hx,hend⟩ := List.countP_pos_iff.mp ho
      obtain ⟨file'',hf'',hface⟩ := (Option.any_eq_true _ _).mp hend
      simp only [Bool.and_eq_true,beq_iff_eq] at hface
      exact ⟨x.file,file'',(hfile _ (hgone x (hslots ▸ hx))).trans hf'',hface.1⟩
    · exact ⟨g,file',(hfile g hne).trans hg,hj⟩
  · obtain ⟨p',hpt⟩ := hold (hpipes hp).1
    rw [ht]
    exact hb.listed j p' hpt
  · have hbefore := hb.frees j
    have hcreated : t'.created = t.created := by rw [ht]
    cases hu : q.unreferenced with
    | false =>
      have hsame : t'.pipes j = none ↔ t.pipes j = none := by
        rw [ht]
        simpa [hu] using hrec.none_iff j
      have hfrees : t'.frees = t.frees := by
        rw [ht]
        simp [hu]
      rw [hfrees,hcreated,hbefore]
      simp only [hsame]
    | true =>
      have hfrees : t'.frees = t.frees ++ [k] := by
        rw [ht]
        simp [hu]
      have hpj : t'.pipes j = Function.update pipes k none j := by
        rw [ht]
        simp [hu]
      rw [hfrees,hcreated,List.count_append,hbefore,hpj]
      by_cases hj : j = k
      · subst hj
        obtain ⟨p',hpt⟩ := hold hq
        simp [hpt,hb.listed j p' hpt]
      · rw [update_of_ne hj]
        simp [hrec.none_iff j,Ne.symm hj]

lemma Books.unlink (hb : Books t) (h : t.unlink s = some t') (hs : s ∈ t.slots)
    (hm : t.endMatches s.file s.fd = true) (hbound : t.slots.length < 2^31) : Books t' := by
  obtain ⟨file,pipes,hf,hrec,hcase⟩ := unlink_some h
  have hholders : ∀ g, t.holders g = (remove FdSlot.key s.key t.slots).countP (fun x => x.file == g) +
      if s.file = g then 1 else 0 := fun g => by
    rw [holders,countP_remove hb.keys hs]
    simp
  have hcounts := fun k p (hp : pipes k = some p) => hrec.counts hb hs hm hf hbound hp
  rcases hcase with ⟨hmore,ht⟩ | ⟨hlast,k,q,hk,hq,ht⟩
  · have hfiles : t'.files = Function.update t.files s.file (some { file with fRef := file.fRef - 1 }) := by rw [ht]
    have hsame : SameFiles t t' := sameFiles_update hf hfiles
    have hslots : t'.slots = remove FdSlot.key s.key t.slots := by rw [ht]
    refine hb.recount hsame (fun k => by rw [ht]; exact hrec.none_iff k) (by rw [ht]) (by rw [ht])
      (hslots ▸ hb.keys.remove) (fun x hx => ?_) (fun g file' hg h2 => ?_) (fun k p hp => ?_)
    · have hx := (mem_remove.mp (hslots ▸ hx)).1
      exact ⟨hb.fds x hx,hb.held x hx⟩
    · rw [hfiles] at hg
      have hcount := hholders g
      simp only [holders,hslots]
      by_cases hgf : g = s.file
      · subst hgf
        rw [update_self] at hg
        cases hg
        obtain ⟨href,-⟩ := hb.refs s.file file hf h2
        simp only [if_true] at hcount
        simp only
        omega
      · rw [update_of_ne hgf] at hg
        have hold := hb.refs g file' hg h2
        rw [if_neg (Ne.symm hgf)] at hcount
        rw [hcount] at hold
        exact hold
    · have hpipes : t'.pipes = pipes := by rw [ht]
      simp only [ends,hslots,hsame.isEnd]
      exact hcounts k p (hpipes ▸ hp)
  · exact hb.discard hs hf hrec hcounts hlast hk hq ht

end unlink

end Descriptors
end MappedMemory
