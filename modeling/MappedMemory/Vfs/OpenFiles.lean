import MappedMemory.Pipe.Descriptors

namespace MappedMemory.OpenFiles

open Function (update update_of_ne update_self)
open List (map_cons mem_append mem_cons mem_map mem_singleton)
open Run (bind_some)
open Keyed

structure File where
  fRef : Int
  fOps : Bool
deriving DecidableEq, Repr

structure Tables where
  pids : List Nat
  slots : List FdSlot
  files : Nat → Option File
  nextPid : Nat

def boot : Tables :=
  ⟨[1],[⟨1,0,0⟩,⟨1,1,1⟩],fun f => if f < 2 then some ⟨2,true⟩ else none,2⟩

def slot (t : Tables) (pid fd : Nat) : Option FdSlot := lookup FdSlot.key (pid,fd) t.slots

def slotsOf (t : Tables) (pid : Nat) : List FdSlot := (List.range procMaxFile).filterMap (slot t pid)

def allocFd (t : Tables) (pid : Nat) : Option Nat :=
  (List.range procMaxFile).find? fun fd => (slot t pid fd).isNone

def addSlot (t : Tables) (s : FdSlot) : Tables := { t with slots := t.slots ++ [s] }

def removeSlot (t : Tables) (s : FdSlot) : Tables := { t with slots := remove FdSlot.key s.key t.slots }

def setFile (t : Tables) (f : Nat) (file : Option File) : Tables :=
  { t with files := update t.files f file }

def fsAllocFile (t : Tables) (f : Nat) : Option Tables :=
  if (t.files f).isSome then none else some (setFile t f (some ⟨1,false⟩))

def setOps (t : Tables) (f : Nat) : Option Tables := do
  let file ← t.files f
  some (setFile t f (some { file with fOps := true }))

def fsOpenFile (t : Tables) : Option Nat → Option (Tables × Option Nat)
  | none => some (t,none)
  | some f => do
    let t ← fsAllocFile t f
    let t ← setOps t f
    some (t,some f)

def fsReopenFile (t : Tables) (f : Nat) : Option Tables := do
  let file ← t.files f
  some (setFile t f (some { file with fRef := file.fRef + 1 }))

def fsCloseFile (t : Tables) (f : Nat) : Option Tables := do
  let file ← t.files f
  if file.fRef - 1 > 0 ∨ f < 2 then some (setFile t f (some { file with fRef := file.fRef - 1 }))
  else if file.fOps then some (setFile t f none)
  else none

def link (t : Tables) (s : FdSlot) : Option Tables := (fsReopenFile t s.file).map (addSlot · s)

def unlink (t : Tables) (s : FdSlot) : Option Tables := (fsCloseFile t s.file).map (removeSlot · s)

def sysOpen (t : Tables) (pid : Nat) (f : Option Nat) : Option Tables :=
  match allocFd t pid with
  | none => some t
  | some fd => do
    let (t,opened) ← fsOpenFile t f
    match opened with
    | none => some t
    | some f => some (addSlot t ⟨pid,fd,f⟩)

def sysDup (t : Tables) (pid fd : Nat) : Option Tables :=
  match slot t pid fd with
  | none => some t
  | some s =>
    match allocFd t pid with
    | none => some t
    | some i => link t ⟨pid,i,s.file⟩

def sysClose (t : Tables) (pid fd : Nat) : Option Tables :=
  match slot t pid fd with
  | none => some t
  | some s => unlink t s

def finishPipe (t : Tables) (r w : Nat) (kpipe : Bool) : Option Tables :=
  if kpipe then do
    let t ← setOps t w
    setOps t r
  else some (setFile (setFile t r none) w none)

def sysPipe (t : Tables) (pid : Nat) (r w : Option Nat) (kpipe : Bool) : Option Tables :=
  match allocFd t pid, r with
  | none, _ => some t
  | some _, none => some t
  | some rfd, some r => do
    let t ← fsAllocFile t r
    let t := addSlot t ⟨pid,rfd,r⟩
    match allocFd t pid, w with
    | none, _ => some t
    | some _, none => some (setFile t r none)
    | some wfd, some w => do
      let t ← fsAllocFile t w
      finishPipe (addSlot t ⟨pid,wfd,w⟩) r w kpipe

def addProc (t : Tables) : Tables :=
  { addSlot (addSlot t ⟨t.nextPid,0,0⟩) ⟨t.nextPid,1,1⟩ with pids := t.nextPid :: t.pids, nextPid := t.nextPid + 1 }

def procSpawn (t : Tables) (f : Option Nat) (ok : Bool) : Option Tables := do
  let t ← fsReopenFile t 0
  let t ← fsReopenFile t 1
  let (t,opened) ← fsOpenFile t f
  if opened.isSome && ok then some (addProc t) else some t

def keepStd (t : Tables) (child fd : Nat) : Tables :=
  if (slot t child fd).isSome then t else addSlot t ⟨child,fd,fd⟩

def childSlot (child : Nat) (s : FdSlot) : FdSlot := ⟨child,s.fd,s.file⟩

def procFork (t : Tables) (pid : Nat) (ok : Bool) : Option Tables := do
  let t ← fsReopenFile t 0
  let t ← fsReopenFile t 1
  if ok then do
    let t ← fsCloseFile t 0
    let t ← fsCloseFile t 1
    let u ← (slotsOf t pid).foldlM (fun u s => link u (childSlot t.nextPid s)) t
    some { keepStd (keepStd u t.nextPid 0) t.nextPid 1 with pids := t.nextPid :: t.pids, nextPid := t.nextPid + 1 }
  else some t

def procExit (t : Tables) (pid : Nat) : Option Tables := do
  let u ← (slotsOf t pid).foldlM unlink t
  some { u with pids := t.pids.erase pid }

inductive Op where
  | open (pid : Nat) (f : Option Nat)
  | dup (pid fd : Nat)
  | close (pid fd : Nat)
  | pipe (pid : Nat) (r w : Option Nat) (kpipe : Bool)
  | fork (pid : Nat) (ok : Bool)
  | spawn (pid : Nat) (f : Option Nat) (ok : Bool)
  | exit (pid : Nat)
deriving DecidableEq, Repr

def Op.pid : Op → Nat
  | .open pid _ | .dup pid _ | .close pid _ | .pipe pid _ _ _ | .fork pid _ | .spawn pid _ _ | .exit pid => pid

def call (t : Tables) : Op → Option Tables
  | .open pid f => sysOpen t pid f
  | .dup pid fd => sysDup t pid fd
  | .close pid fd => sysClose t pid fd
  | .pipe pid r w kpipe => sysPipe t pid r w kpipe
  | .fork pid ok => procFork t pid ok
  | .spawn _ f ok => procSpawn t f ok
  | .exit pid => procExit t pid

def step (t : Tables) (o : Op) : Option Tables := if o.pid ∈ t.pids then call t o else none

def run (ops : List Op) : Option Tables := ops.foldlM step boot

def holders (t : Tables) (f : Nat) : Nat := t.slots.countP fun s => s.file == f

structure Exact (t : Tables) : Prop where
  live : ∀ s ∈ t.slots, s.pid ∈ t.pids
  held : ∀ s ∈ t.slots, t.files s.file ≠ none
  refs : ∀ f file, t.files f = some file → 2 ≤ f → file.fRef = holders t f ∧ 0 < holders t f

def careful (t : Tables) : Op → Bool
  | .pipe pid r w kpipe => match allocFd t pid, r with
    | some fd, some r => (allocFd (addSlot t ⟨pid,fd,r⟩) pid).isNone || w.isSome && kpipe
    | _, _ => true
  | .spawn _ f _ => f.isNone
  | _ => true

structure Books (t : Tables) : Prop where
  held : ∀ s ∈ t.slots, t.files s.file ≠ none
  refs : ∀ f file, t.files f = some file → 2 ≤ f → file.fRef = holders t f ∧ 0 < holders t f
  keys : Distinct FdSlot.key t.slots
  std : ∀ f < 2, t.files f ≠ none

structure Inv (t : Tables) : Prop extends Books t where
  live : ∀ s ∈ t.slots, s.pid ∈ t.pids
  fds : ∀ s ∈ t.slots, s.fd < procMaxFile
  fresh : ∀ p ∈ t.pids, p < t.nextPid

lemma Inv.exact {t : Tables} (h : Inv t) : Exact t := ⟨h.live,h.held,h.refs⟩

variable {t u : Tables} {f fd pid : Nat} {s : FdSlot} {file : File} {x : FdSlot} {r : Option Nat} {child : Nat}
  {l : List FdSlot} {ok : Bool} {o : Op}

lemma holders_addSlot (t : Tables) (s : FdSlot) (f : Nat) :
    holders (addSlot t s) f = holders t f + if s.file = f then 1 else 0 := by
  simp [holders,addSlot,List.countP_append,List.countP_singleton]

lemma holders_remove (h : Distinct FdSlot.key t.slots) (hs : s ∈ t.slots) (f : Nat) :
    holders t f = (remove FdSlot.key s.key t.slots).countP (fun x => x.file == f) + if s.file = f then 1 else 0 := by
  rw [holders,(h.perm_remove hs rfl).countP_eq,List.countP_cons]
  simp

lemma Books.holders_none (h : Books t) (hf : t.files f = none) : holders t f = 0 :=
  List.countP_eq_zero.mpr fun s hs he => by
    have he : s.file = f := by simpa using he
    exact h.held s hs (he ▸ hf)

lemma Books.two_le (h : Books t) (hf : t.files f = none) : 2 ≤ f := by
  by_contra hlt
  exact h.std f (by omega) hf

lemma Books.change {v : Option File} (h : Books t) (hfiles : u.files = update t.files f v)
    (hkeys : Distinct FdSlot.key u.slots) (hslots : ∀ x ∈ u.slots, x.file ≠ f → x ∈ t.slots)
    (hother : ∀ g, g ≠ f → holders u g = holders t g)
    (hsome : ∀ file, v = some file → 2 ≤ f → file.fRef = holders u f ∧ 0 < holders u f)
    (hnone : v = none → 2 ≤ f ∧ ∀ x ∈ u.slots, x.file ≠ f) : Books u := by
  have hself : u.files f = v := by rw [hfiles,update_self]
  have hne : ∀ {g}, g ≠ f → u.files g = t.files g := fun hg => by rw [hfiles,update_of_ne hg]
  refine ⟨fun x hx => ?_,fun g file hg h2 => ?_,hkeys,fun g hg => ?_⟩
  · by_cases he : x.file = f
    · rw [he,hself]
      exact fun hv => (hnone hv).2 x hx he
    · rw [hne he]
      exact h.held x (hslots x hx he)
  · by_cases he : g = f
    · subst he
      exact hsome file (hself ▸ hg) h2
    · rw [hother g he]
      exact h.refs g file (hne he ▸ hg) h2
  · by_cases he : g = f
    · subst he
      rw [hself]
      exact fun hv => absurd (hnone hv).1 (by omega)
    · rw [hne he]
      exact h.std g hg

lemma mem_of_append (hx : x ∈ t.slots ++ [s]) (he : x.file ≠ s.file) : x ∈ t.slots :=
  (mem_append.mp hx).resolve_right fun hx => he (by rw [mem_singleton.mp hx])

lemma Books.setStd (h : Books t) (hf : f < 2) (file : File) : Books (setFile t f (some file)) :=
  h.change rfl h.keys (fun _ hx _ => hx) (fun _ _ => rfl) (fun _ _ h2 => absurd h2 (by omega)) nofun

lemma Books.addSlot (h : Books t) (hnew : ∀ x ∈ t.slots, x.key ≠ s.key)
    (href : 2 ≤ s.file → file.fRef = holders t s.file + 1) : Books (addSlot (setFile t s.file (some file)) s) := by
  refine h.change rfl (h.keys.append hnew) (fun _ hx he => mem_of_append hx he) (fun g hg => ?_) (fun file' hv h2 => ?_) nofun
  · rw [holders_addSlot,if_neg (Ne.symm hg)]
    rfl
  · cases hv
    rw [holders_addSlot,if_pos rfl,href h2]
    exact ⟨rfl,Nat.succ_pos _⟩

lemma link_some (h : link t s = some u) : ∃ file, t.files s.file = some file ∧
    u = OpenFiles.addSlot (setFile t s.file (some { file with fRef := file.fRef + 1 })) s := by
  simp only [link,fsReopenFile,Option.bind_eq_bind,Option.map_eq_some_iff,Option.bind_eq_some_iff] at h
  obtain ⟨_,⟨file,hf,h⟩,rfl⟩ := h
  cases h
  exact ⟨file,hf,rfl⟩

lemma Books.link (h : Books t) (hl : link t s = some u) (hnew : ∀ x ∈ t.slots, x.key ≠ s.key) : Books u := by
  obtain ⟨file,hf,rfl⟩ := link_some hl
  exact h.addSlot hnew fun h2 => by rw [(h.refs _ file hf h2).1]

lemma fsCloseFile_some (h : fsCloseFile t f = some u) : ∃ file, t.files f = some file ∧
    ((file.fRef - 1 > 0 ∨ f < 2) ∧ u = setFile t f (some { file with fRef := file.fRef - 1 }) ∨
      ¬(file.fRef - 1 > 0 ∨ f < 2) ∧ u = setFile t f none) := by
  simp only [fsCloseFile,bind_some] at h
  obtain ⟨file,hf,h⟩ := h
  refine ⟨file,hf,?_⟩
  split at h
  · rename_i hmore
    exact .inl ⟨hmore,(Option.some_inj.mp h).symm⟩
  · rename_i hlast
    split at h
    · exact .inr ⟨hlast,(Option.some_inj.mp h).symm⟩
    · cases h

lemma unlink_slots (h : unlink t s = some u) :
    u.slots = remove FdSlot.key s.key t.slots ∧ u.pids = t.pids ∧ u.nextPid = t.nextPid := by
  obtain ⟨v,hv,rfl⟩ := Option.map_eq_some_iff.mp h
  obtain ⟨file,-,⟨-,rfl⟩ | ⟨-,rfl⟩⟩ := fsCloseFile_some hv <;> exact ⟨rfl,rfl,rfl⟩

lemma Books.unlink (h : Books t) (hu : unlink t s = some u) (hs : s ∈ t.slots) : Books u := by
  have hslots := (unlink_slots hu).1
  have hother : ∀ g, g ≠ s.file → holders u g = holders t g := fun g hg => by
    rw [holders_remove h.keys hs,if_neg (Ne.symm hg),holders,hslots,Nat.add_zero]
  have hone : holders t s.file = holders u s.file + 1 := by
    rw [holders_remove h.keys hs,if_pos rfl,holders,hslots]
  have hkeys : Distinct FdSlot.key u.slots := hslots ▸ h.keys.remove
  have hsub : ∀ x ∈ u.slots, x.file ≠ s.file → x ∈ t.slots := fun x hx _ => (mem_remove.mp (hslots ▸ hx)).1
  obtain ⟨v,hv,rfl⟩ := Option.map_eq_some_iff.mp hu
  obtain ⟨file,hf,⟨hmore,rfl⟩ | ⟨hlast,rfl⟩⟩ := fsCloseFile_some hv
  · refine h.change rfl hkeys hsub hother (fun file' hv h2 => ?_) nofun
    cases hv
    obtain ⟨href,-⟩ := h.refs _ file hf h2
    simp only
    omega
  · obtain ⟨href,-⟩ := h.refs _ file hf (by omega)
    have hzero : holders (removeSlot (setFile t s.file none) s) s.file = 0 := by omega
    exact h.change rfl hkeys hsub hother nofun fun _ => ⟨by omega,by simpa using List.countP_eq_zero.mp hzero⟩

lemma Books.setOps (h : Books t) (hu : setOps t f = some u) : Books u := by
  simp only [OpenFiles.setOps,bind_some] at hu
  obtain ⟨file,hf,hu⟩ := hu
  cases hu
  refine h.change rfl h.keys (fun _ hx _ => hx) (fun _ _ => rfl) (fun file' hv h2 => ?_) nofun
  cases hv
  exact h.refs f file hf h2

lemma slot_none {n : Nat} (h : slot t pid fd = none) (hx : x ∈ t.slots) :
    x.key ≠ FdSlot.key ⟨pid,fd,n⟩ := lookup_none h hx

lemma allocFd_some (h : allocFd t pid = some fd) : slot t pid fd = none ∧ fd < procMaxFile :=
  ⟨by simpa using List.find?_some h,List.mem_range.mp (List.mem_of_find?_eq_some h)⟩

lemma mem_slotsOf (h : s ∈ slotsOf t pid) : s ∈ t.slots ∧ s.pid = pid := by
  obtain ⟨fd,-,hs⟩ := List.mem_filterMap.mp h
  obtain ⟨hmem,hkey⟩ := lookup_some hs
  exact ⟨hmem,(Prod.mk.inj hkey).1⟩

lemma slotsOf_nodup (t : Tables) (pid : Nat) : ((slotsOf t pid).map FdSlot.fd).Nodup := by
  rw [slotsOf,List.map_filterMap]
  refine List.Nodup.filterMap (fun a b n ha hb => ?_) List.nodup_range
  obtain ⟨x,hx,rfl⟩ := Option.map_eq_some_iff.mp ha
  obtain ⟨y,hy,hxy⟩ := Option.map_eq_some_iff.mp hb
  exact (Prod.mk.inj (lookup_some hx).2).2.symm.trans (hxy.symm.trans (Prod.mk.inj (lookup_some hy).2).2)

lemma fsReopenFile_some (h : fsReopenFile t f = some u) : ∃ file, u = setFile t f (some file) := by
  simp only [fsReopenFile,bind_some] at h
  obtain ⟨file,-,h⟩ := h
  exact ⟨_,(Option.some_inj.mp h).symm⟩

structure SameSlots (t u : Tables) : Prop where
  slots : u.slots = t.slots
  pids : u.pids = t.pids
  nextPid : u.nextPid = t.nextPid

lemma SameSlots.trans {v : Tables} (h : SameSlots t u) (h' : SameSlots u v) : SameSlots t v :=
  ⟨h'.slots.trans h.slots,h'.pids.trans h.pids,h'.nextPid.trans h.nextPid⟩

lemma Books.reopenStd (h : Books t) (hf : f < 2) (hu : fsReopenFile t f = some u) :
    Books u ∧ SameSlots t u ∧ ∀ g, 2 ≤ g → u.files g = t.files g := by
  obtain ⟨file,rfl⟩ := fsReopenFile_some hu
  exact ⟨h.setStd hf file,⟨rfl,rfl,rfl⟩,fun g hg => update_of_ne (by omega) _ _⟩

lemma Books.closeStd (h : Books t) (hf : f < 2) (hu : fsCloseFile t f = some u) : Books u ∧ SameSlots t u := by
  obtain ⟨file,-,⟨-,rfl⟩ | ⟨hlast,-⟩⟩ := fsCloseFile_some hu
  · exact ⟨h.setStd hf _,⟨rfl,rfl,rfl⟩⟩
  · exact absurd (.inr hf) hlast

lemma Inv.same (h : Inv t) (hb : Books u) (hs : SameSlots t u) : Inv u where
  toBooks := hb
  live x hx := by
    rw [hs.pids]
    exact h.live x (hs.slots ▸ hx)
  fds x hx := h.fds x (hs.slots ▸ hx)
  fresh p hp := by
    rw [hs.nextPid]
    exact h.fresh p (hs.pids ▸ hp)

lemma Inv.extend (h : Inv t) (hb : Books u) (hslots : u.slots = t.slots ++ [s]) (hpids : u.pids = t.pids)
    (hnext : u.nextPid = t.nextPid) (hpid : s.pid ∈ t.pids) (hfd : s.fd < procMaxFile) : Inv u := by
  refine ⟨hb,fun x hx => ?_,fun x hx => ?_,fun p hp => hnext ▸ h.fresh p (hpids ▸ hp)⟩
  · rw [hpids]
    rcases mem_append.mp (hslots ▸ hx) with hx | hx
    · exact h.live x hx
    · exact mem_singleton.mp hx ▸ hpid
  · rcases mem_append.mp (hslots ▸ hx) with hx | hx
    · exact h.fds x hx
    · exact mem_singleton.mp hx ▸ hfd

lemma Inv.link (h : Inv t) (hu : link t s = some u) (hnew : ∀ x ∈ t.slots, x.key ≠ s.key) (hpid : s.pid ∈ t.pids)
    (hfd : s.fd < procMaxFile) : Inv u := by
  have hb := h.toBooks.link hu hnew
  obtain ⟨file,-,rfl⟩ := link_some hu
  exact h.extend hb rfl rfl rfl hpid hfd

lemma Inv.unlink (h : Inv t) (hu : unlink t s = some u) (hs : s ∈ t.slots) : Inv u := by
  obtain ⟨hslots,hpids,hnext⟩ := unlink_slots hu
  have hsub : ∀ x ∈ u.slots, x ∈ t.slots := fun x hx => (mem_remove.mp (hslots ▸ hx)).1
  exact ⟨h.toBooks.unlink hu hs,fun x hx => hpids ▸ h.live x (hsub x hx),fun x hx => h.fds x (hsub x hx),
    fun p hp => hnext ▸ h.fresh p (hpids ▸ hp)⟩

lemma fsAllocFile_some (h : fsAllocFile t f = some u) : t.files f = none ∧ u = setFile t f (some ⟨1,false⟩) := by
  unfold fsAllocFile at h
  split at h
  · cases h
  · rename_i hf
    exact ⟨by simpa using hf,(Option.some_inj.mp h).symm⟩

lemma fsOpenFile_some (h : fsOpenFile t (some f) = some (u,r)) :
    t.files f = none ∧ r = some f ∧ u = setFile t f (some ⟨1,true⟩) := by
  simp only [fsOpenFile,bind_some] at h
  obtain ⟨v,hv,w,hw,h⟩ := h
  obtain ⟨hf,rfl⟩ := fsAllocFile_some hv
  simp only [OpenFiles.setOps,setFile,update_self,Option.bind_eq_bind,Option.bind_some,Option.some_inj] at hw
  cases h
  refine ⟨hf,rfl,?_⟩
  rw [← hw,setFile,Function.update_idem]

lemma Inv.open {b : Bool} (h : Inv t) (hf : t.files f = none) (hfd : allocFd t pid = some fd) (hpid : pid ∈ t.pids) :
    Inv (addSlot (setFile t f (some ⟨1,b⟩)) ⟨pid,fd,f⟩) := by
  obtain ⟨hfree,hlt⟩ := allocFd_some hfd
  have hb : Books (OpenFiles.addSlot (setFile t f (some ⟨1,b⟩)) ⟨pid,fd,f⟩) :=
    h.toBooks.addSlot (s := ⟨pid,fd,f⟩) (fun x hx => slot_none hfree hx) fun _ => by
      rw [h.toBooks.holders_none hf]
      rfl
  exact h.extend hb rfl rfl rfl hpid hlt

lemma Inv.sysOpen (h : Inv t) (hpid : pid ∈ t.pids) (hu : sysOpen t pid r = some u) : Inv u := by
  unfold OpenFiles.sysOpen at hu
  split at hu
  · cases hu
    exact h
  · rename_i fd hfd
    obtain ⟨⟨v,opened⟩,hv,hu⟩ := Run.bind_some.mp hu
    cases r with
    | none =>
      cases hv
      cases hu
      exact h
    | some f =>
      obtain ⟨hf,rfl,rfl⟩ := fsOpenFile_some hv
      cases hu
      exact h.open hf hfd hpid

lemma Inv.sysDup (h : Inv t) (hpid : pid ∈ t.pids) (hu : sysDup t pid fd = some u) : Inv u := by
  unfold OpenFiles.sysDup at hu
  split at hu
  · cases hu
    exact h
  · split at hu
    · cases hu
      exact h
    · rename_i i hi
      obtain ⟨hfree,hlt⟩ := allocFd_some hi
      exact h.link hu (fun x hx => slot_none hfree hx) hpid hlt

lemma Inv.sysClose (h : Inv t) (hu : sysClose t pid fd = some u) : Inv u := by
  unfold OpenFiles.sysClose at hu
  split at hu
  · cases hu
    exact h
  · rename_i s hs
    exact h.unlink hu (lookup_some hs).1

lemma Inv.setOps (h : Inv t) (hu : setOps t f = some u) : Inv u := by
  have hb := h.toBooks.setOps hu
  simp only [OpenFiles.setOps,bind_some] at hu
  obtain ⟨file,-,hu⟩ := hu
  cases hu
  exact h.same hb ⟨rfl,rfl,rfl⟩

lemma sysPipe_some {w : Option Nat} {kpipe : Bool} (h : Inv t) (hpid : pid ∈ t.pids)
    (hu : sysPipe t pid r w kpipe = some u) :
    if careful t (.pipe pid r w kpipe) then Inv u else ∃ x ∈ u.slots, u.files x.file = none := by
  unfold sysPipe at hu
  split at hu
  · rename_i hfd
    cases hu
    simpa [careful,hfd] using h
  · cases hu
    simpa [careful] using h
  · rename_i rfd r hfd
    simp only [bind_some] at hu
    obtain ⟨v,hv,hu⟩ := hu
    obtain ⟨hr,rfl⟩ := fsAllocFile_some hv
    have hopen := h.open (b := false) hr hfd hpid
    have hsame : allocFd (OpenFiles.addSlot t ⟨pid,rfd,r⟩) pid =
        allocFd (OpenFiles.addSlot (setFile t r (some ⟨1,false⟩)) ⟨pid,rfd,r⟩) pid := rfl
    simp only [careful,hfd,hsame]
    split at hu
    · rename_i hnone
      cases hu
      simpa [hnone] using hopen
    · rename_i wfd hwfd
      cases hu
      simp only [hwfd]
      refine ⟨⟨pid,rfd,r⟩,by simp [OpenFiles.addSlot,setFile],by simp [setFile]⟩
    · rename_i wfd w hwfd
      obtain ⟨v,hv,hu⟩ := Run.bind_some.mp hu
      obtain ⟨hw,rfl⟩ := fsAllocFile_some hv
      have hopen' := hopen.open (b := false) hw hwfd hpid
      cases kpipe with
      | true =>
        simp only [hwfd,finishPipe,if_true,bind_some] at hu ⊢
        obtain ⟨x,hx,hu⟩ := hu
        exact (hopen'.setOps hx).setOps hu
      | false =>
        cases hu
        simp only [hwfd]
        exact ⟨⟨pid,wfd,w⟩,by simp [OpenFiles.addSlot,setFile],by simp [setFile]⟩

lemma Books.linkAll (h : Books t) (hl : (l.map FdSlot.fd).Nodup)
    (hnew : ∀ x ∈ t.slots, x.pid = child → x.fd ∉ l.map FdSlot.fd)
    (hu : l.foldlM (fun u s => OpenFiles.link u (childSlot child s)) t = some u) :
    Books u ∧ u.slots = t.slots ++ l.map (childSlot child) := by
  induction l generalizing t with
  | nil =>
    obtain rfl : t = u := by simpa using hu
    exact ⟨h,by simp⟩
  | cons s l ih =>
    obtain ⟨v,hv,hu⟩ := Run.foldlM_cons_some.mp hu
    rw [map_cons,List.nodup_cons] at hl
    have hbv : Books v := by
      refine h.link hv fun x hx he => ?_
      obtain ⟨hpid,hfd⟩ := Prod.mk.inj he
      exact hnew x hx hpid (by simp [show x.fd = s.fd from hfd])
    obtain ⟨file,-,rfl⟩ := link_some hv
    have hfree : ∀ x ∈ (OpenFiles.addSlot (setFile t s.file (some { file with fRef := file.fRef + 1 }))
        (childSlot child s)).slots, x.pid = child → x.fd ∉ l.map FdSlot.fd := by
      intro x hx hp
      rcases mem_append.mp hx with hx | hx
      · exact fun hmem => hnew x hx hp (by simp only [map_cons,mem_cons]; exact .inr hmem)
      · rw [mem_singleton.mp hx]
        exact hl.1
    obtain ⟨hbu,hall⟩ := ih hbv hl.2 hfree hu
    refine ⟨hbu,?_⟩
    rw [hall,map_cons]
    simp [OpenFiles.addSlot,setFile]

lemma Books.keepStd (h : Books t) (hfd : fd < 2) : Books (keepStd t child fd) := by
  unfold OpenFiles.keepStd
  split
  · exact h
  · rename_i hn
    obtain ⟨file,hf⟩ := Option.ne_none_iff_exists'.mp (h.std fd hfd)
    have hb : Books (OpenFiles.addSlot (setFile t fd (some file)) ⟨child,fd,fd⟩) :=
      h.addSlot (fun x hx => slot_none (by simpa using hn) hx) fun h2 => absurd h2 (by simpa using hfd)
    have hself : setFile t fd (some file) = t := by rw [setFile,← hf,Function.update_eq_self]
    rwa [hself] at hb

lemma mem_keepStd (h : x ∈ (keepStd t child fd).slots) : x ∈ t.slots ∨ x.pid = child ∧ x.fd = fd := by
  unfold keepStd at h
  split at h
  · exact .inl h
  · rcases mem_append.mp h with h | h
    · exact .inl h
    · rw [mem_singleton.mp h]
      exact .inr ⟨rfl,rfl⟩

lemma Inv.procFork (h : Inv t) (hu : procFork t pid ok = some u) : Inv u := by
  simp only [OpenFiles.procFork,bind_some] at hu
  obtain ⟨t1,h1,t2,h₂,hu⟩ := hu
  obtain ⟨hb1,hs1,-⟩ := h.toBooks.reopenStd (by decide) h1
  obtain ⟨hb2,hs2,-⟩ := hb1.reopenStd (by decide) h₂
  cases ok with
  | false =>
    cases hu
    exact h.same hb2 (hs1.trans hs2)
  | true =>
    simp only [if_true,bind_some] at hu
    obtain ⟨t3,h3,t4,h4,v,hv,hu⟩ := hu
    obtain ⟨hb3,hs3⟩ := hb2.closeStd (by decide) h3
    obtain ⟨hb4,hs4⟩ := hb3.closeStd (by decide) h4
    have hi := h.same hb4 (hs1.trans (hs2.trans (hs3.trans hs4)))
    have hchild : ∀ x ∈ t4.slots, x.pid ≠ t4.nextPid := fun x hx => (hi.fresh _ (hi.live x hx)).ne
    obtain ⟨hbv,hslots⟩ := hb4.linkAll (slotsOf_nodup t4 pid) (fun x hx he => absurd he (hchild x hx)) hv
    cases hu
    have hb0 : Books (OpenFiles.keepStd v t4.nextPid 0) := hbv.keepStd (by decide)
    have hb : Books (OpenFiles.keepStd (OpenFiles.keepStd v t4.nextPid 0) t4.nextPid 1) := hb0.keepStd (by decide)
    have hmem : ∀ x ∈ (OpenFiles.keepStd (OpenFiles.keepStd v t4.nextPid 0) t4.nextPid 1).slots,
        x ∈ t4.slots ∨ x.pid = t4.nextPid ∧ x.fd < procMaxFile := by
      intro x hx
      rcases mem_keepStd hx with hx | ⟨hp,hf⟩
      · rcases mem_keepStd hx with hx | ⟨hp,hf⟩
        · rw [hslots] at hx
          refine (mem_append.mp hx).imp id fun hx => ?_
          obtain ⟨s,hs,rfl⟩ := mem_map.mp hx
          exact ⟨rfl,hi.fds s (mem_slotsOf hs).1⟩
        · exact .inr ⟨hp,hf ▸ by decide⟩
      · exact .inr ⟨hp,hf ▸ by decide⟩
    refine ⟨⟨hb.held,hb.refs,hb.keys,hb.std⟩,fun x hx => ?_,fun x hx => ?_,fun p hp => ?_⟩
    · rcases hmem x hx with hx | ⟨hp,-⟩
      · exact List.mem_cons_of_mem _ (hi.live x hx)
      · exact hp ▸ List.mem_cons_self
    · rcases hmem x hx with hx | ⟨-,hf⟩
      · exact hi.fds x hx
      · exact hf
    · rcases mem_cons.mp hp with rfl | hp
      · exact Nat.lt_succ_self _
      · exact Nat.lt_succ_of_lt (hi.fresh p hp)

lemma Inv.unlinkAll (h : Inv t) (hl : Distinct FdSlot.key l) (hmem : ∀ s ∈ l, s ∈ t.slots)
    (hu : l.foldlM OpenFiles.unlink t = some u) : Inv u ∧ u.pids = t.pids ∧ ∀ x ∈ u.slots, x ∈ t.slots ∧ x ∉ l := by
  induction l generalizing t with
  | nil =>
    obtain rfl : t = u := by simpa using hu
    exact ⟨h,rfl,fun _ hx => ⟨hx,List.not_mem_nil⟩⟩
  | cons s l ih =>
    obtain ⟨v,hv,hu⟩ := Run.foldlM_cons_some.mp hu
    obtain ⟨hslots,hpids,-⟩ := unlink_slots hv
    obtain ⟨hs,hl⟩ := List.nodup_cons.mp hl
    have hkept : ∀ x ∈ l, x ∈ v.slots := fun x hx => by
      rw [hslots]
      exact mem_remove.mpr ⟨hmem x (by simp [hx]),fun he => hs (mem_map.mpr ⟨x,hx,he⟩)⟩
    obtain ⟨hi,hp,hall⟩ := ih (h.unlink hv (hmem s (by simp))) hl hkept hu
    refine ⟨hi,hp.trans hpids,fun x hx => ?_⟩
    obtain ⟨hxv,hxl⟩ := hall x hx
    obtain ⟨hxt,hne⟩ := mem_remove.mp (hslots ▸ hxv)
    refine ⟨hxt,fun hin => ?_⟩
    rcases mem_cons.mp hin with rfl | hin
    · exact hne rfl
    · exact hxl hin

lemma slotsOf_distinct (t : Tables) (pid : Nat) : Distinct FdSlot.key (slotsOf t pid) :=
  List.Nodup.of_map Prod.snd (by
    rw [List.map_map]
    exact slotsOf_nodup t pid)

lemma Inv.mem_slotsOf (h : Inv t) (hs : s ∈ t.slots) : s ∈ slotsOf t s.pid :=
  List.mem_filterMap.mpr ⟨s.fd,List.mem_range.mpr (h.fds s hs),h.keys.lookup_eq hs rfl⟩

lemma Inv.procExit (h : Inv t) (hu : procExit t pid = some u) : Inv u := by
  simp only [OpenFiles.procExit,bind_some] at hu
  obtain ⟨v,hv,hu⟩ := hu
  cases hu
  obtain ⟨hi,hpids,hall⟩ := h.unlinkAll (slotsOf_distinct t pid) (fun s hs => (OpenFiles.mem_slotsOf hs).1) hv
  refine ⟨⟨hi.held,hi.refs,hi.keys,hi.std⟩,fun x hx => ?_,hi.fds,fun p hp => hi.fresh p ?_⟩
  · obtain ⟨hxt,hno⟩ := hall x hx
    refine (List.mem_erase_of_ne fun he => hno ?_).mpr (h.live x hxt)
    exact he ▸ h.mem_slotsOf hxt
  · rw [hpids]
    exact List.mem_of_mem_erase hp

lemma procSpawn_some (h : Inv t) (hu : procSpawn t r ok = some u) :
    if r.isNone then Inv u else ∃ f file, u.files f = some file ∧ 2 ≤ f ∧ holders u f = 0 := by
  simp only [procSpawn,bind_some] at hu
  obtain ⟨t1,h1,t2,h₂,⟨t3,opened⟩,h3,hu⟩ := hu
  obtain ⟨hb1,hs1,-⟩ := h.toBooks.reopenStd (by decide) h1
  obtain ⟨hb2,hs2,-⟩ := hb1.reopenStd (by decide) h₂
  cases r with
  | none =>
    cases h3
    cases hu
    exact h.same hb2 (hs1.trans hs2)
  | some f =>
    obtain ⟨hf,rfl,rfl⟩ := fsOpenFile_some h3
    have hz := hb2.holders_none hf
    have h2 := hb2.two_le hf
    simp only [Option.isSome_some,Bool.true_and] at hu
    split at hu
    · cases hu
      refine ⟨f,⟨1,true⟩,by simp [addProc,OpenFiles.addSlot,setFile],h2,?_⟩
      have hcount : ∀ w : Tables, holders (addProc w) f = holders w f := fun w => by
        change holders (OpenFiles.addSlot (OpenFiles.addSlot w _) _) f = _
        rw [holders_addSlot,holders_addSlot,if_neg (by simp only; omega),if_neg (by simp only; omega),
          Nat.add_zero]
      rw [hcount]
      exact hz
    · cases hu
      exact ⟨f,⟨1,true⟩,by simp [setFile],h2,hz⟩

lemma inv_boot : Inv boot where
  held s hs := by
    simp only [boot,mem_cons,List.not_mem_nil,or_false] at hs
    rcases hs with rfl | rfl <;> simp [boot]
  refs f file hf h2 := by
    simp only [boot,if_neg (show ¬f < 2 by omega),reduceCtorEq] at hf
  keys := by simp [Distinct,boot,FdSlot.key]
  std f hf := by simp only [boot,if_pos hf]; exact Option.some_ne_none _
  live := by decide
  fds := by decide
  fresh := by decide

lemma Inv.step (h : Inv t) (ho : careful t o = true) (hu : step t o = some u) : Inv u := by
  unfold OpenFiles.step at hu
  split at hu
  · rename_i hpid
    cases o with
    | «open» pid r => exact h.sysOpen hpid hu
    | dup pid fd => exact h.sysDup hpid hu
    | close pid fd => exact h.sysClose hu
    | pipe pid r w kpipe =>
      have hpid : pid ∈ t.pids := hpid
      have hres := sysPipe_some h hpid hu
      rwa [if_pos ho] at hres
    | fork pid ok => exact h.procFork hu
    | spawn pid r ok =>
      have ho : r.isNone = true := ho
      have hres := procSpawn_some h hu
      rwa [if_pos ho] at hres
    | exit pid => exact h.procExit hu
  · cases hu

lemma Inv.step_inexact (h : Inv t) (ho : ¬careful t o = true) (hu : OpenFiles.step t o = some u) : ¬Exact u := by
  unfold OpenFiles.step at hu
  split at hu
  · rename_i hpid
    intro hex
    cases o with
    | pipe pid r w kpipe =>
      have hpid : pid ∈ t.pids := hpid
      have hres := sysPipe_some h hpid hu
      rw [if_neg ho] at hres
      obtain ⟨x,hx,hnone⟩ := hres
      exact hex.held x hx hnone
    | spawn pid r ok =>
      have ho : ¬r.isNone = true := ho
      have hres := procSpawn_some h hu
      rw [if_neg ho] at hres
      obtain ⟨f,file,hf,h2,hz⟩ := hres
      have := (hex.refs f file hf h2).2
      omega
    | _ => exact ho rfl
  · cases hu

theorem file_refs_exact {ops : List Op} (hrun : run ops = some u) :
    (∀ pre t, pre <+: ops → run pre = some t → Exact t) ↔
      Run.Along (fun t o => careful t o = true) step ops boot :=
  Run.along_iff_prefixes (fun _ h => h.exact) (fun _ _ _ h ho hu => h.step ho hu)
    (fun _ _ _ h ho hu => h.step_inexact ho hu) inv_boot hrun

def sharingRun : List Op :=
  [.open 1 (some 7),.dup 1 2,.pipe 1 (some 8) (some 9) true,.fork 1 true,.close 1 2,.exit 2]

theorem file_refs_exact_sharing : ∃ u, run sharingRun = some u ∧ holders u 7 = 1 ∧
    ∀ pre t, pre <+: sharingRun → run pre = some t → Exact t := by
  have hrun : (run sharingRun).isSome = true := by decide +kernel
  obtain ⟨u,hu⟩ := Option.isSome_iff_exists.mp hrun
  have hone : (run sharingRun).map (holders · 7) = some 1 := by decide +kernel
  refine ⟨u,hu,?_,(file_refs_exact hu).mpr (by decide +kernel)⟩
  simpa [hu] using hone

theorem executable_stays_open : ∃ u, run [.spawn 1 (some 7) true,.exit 2] = some u ∧
    u.files 7 = some ⟨1,true⟩ ∧ holders u 7 = 0 := by
  refine ⟨_,rfl,?_,?_⟩ <;> decide +kernel

end MappedMemory.OpenFiles
