import MappedMemory.Vfs.OpenFiles

namespace MappedMemory.OpenFiles

open Option (bind_some)

open Keyed

def entry (t : Tables) (pid fd : Nat) : Option Nat := (slot t pid fd).map FdSlot.file

def holds (t : Tables) (pid f : Nat) : Nat := (slotsOf t pid).countP fun s => s.file == f

structure TableCopied (t u : Tables) (pid : Nat) : Prop where
  entries : ∀ fd < procMaxFile, entry u t.nextPid fd = entry t pid fd
  refs : ∀ f file, t.files f = some file → ∃ file', u.files f = some file' ∧ file'.fRef = file.fRef + holds t pid f

structure Sound (t : Tables) : Prop where
  held : ∀ s ∈ t.slots, t.files s.file ≠ none
  std : ∀ f < 2, t.files f ≠ none
  fresh : ∀ s ∈ t.slots, s.pid ≠ t.nextPid

variable {t u : Tables} {pid child fd f : Nat} {l : List FdSlot}

lemma lookup_filterMap {g : Nat → Option FdSlot} {fds : List Nat} (hg : ∀ j s, g j = some s → s.key = (child,j)) :
    lookup FdSlot.key (child,fd) (fds.filterMap g) = if fd ∈ fds then g fd else none := by
  induction fds with
  | nil => rfl
  | cons j fds ih =>
    cases hj : g j with
    | none =>
      rw [List.filterMap_cons_none hj,ih]
      by_cases he : fd = j
      · subst he
        simp [hj]
      · simp [he]
    | some s =>
      rw [List.filterMap_cons_some hj]
      by_cases he : fd = j
      · subst he
        simp [lookup,hg fd s hj,hj]
      · have hne : s.key ≠ (child,fd) := fun h => he (by rw [hg j s hj,Prod.mk_inj] at h; exact h.2.symm)
        rw [lookup,List.find?_cons_of_neg (by simpa using hne)]
        rw [lookup] at ih
        rw [ih]
        simp [he]

lemma lookup_append {l l' : List FdSlot} {k : Nat × Nat} :
    lookup FdSlot.key k (l ++ l') = (lookup FdSlot.key k l).or (lookup FdSlot.key k l') := List.find?_append

lemma linkAll (child : Nat) (hl : ∀ s ∈ l, t.files s.file ≠ none) :
    ∃ u, l.foldlM (fun u s => link u (childSlot child s)) t = some u ∧ u.slots = t.slots ++ l.map (childSlot child) ∧
      ∀ f, u.files f = (t.files f).map fun file => { file with fRef := file.fRef + (l.countP fun s => s.file == f : Nat) } := by
  induction l generalizing t with
  | nil =>
    refine ⟨t,rfl,by simp,fun f => ?_⟩
    cases t.files f <;> simp
  | cons s l ih =>
    obtain ⟨file,hf⟩ := Option.ne_none_iff_exists'.mp (hl s List.mem_cons_self)
    have hlink : link t (childSlot child s) =
        some (addSlot (setFile t s.file (some { file with fRef := file.fRef + 1 })) (childSlot child s)) := by
      simp [link,fsReopenFile,childSlot,hf]
    obtain ⟨u,hu,hslots,hfiles⟩ := ih (t := addSlot (setFile t s.file (some { file with fRef := file.fRef + 1 }))
      (childSlot child s)) fun x hx => by
        by_cases he : x.file = s.file
        · simp [addSlot,setFile,he]
        · simpa [addSlot,setFile,he] using hl x (List.mem_cons_of_mem _ hx)
    refine ⟨u,?_,?_,fun f => ?_⟩
    · rw [List.foldlM_cons,hlink]
      exact hu
    · rw [hslots]
      simp [addSlot,setFile]
    · rw [hfiles f,List.countP_cons]
      by_cases he : s.file = f
      · subst he
        simp [addSlot,setFile,hf]
        omega
      · simp [addSlot,setFile,he,Ne.symm he]

lemma fsReopenFile_eq {file : File} (hf : t.files f = some file) :
    fsReopenFile t f = some (setFile t f (some { file with fRef := file.fRef + 1 })) := by
  simp [fsReopenFile,hf]

lemma fsCloseFile_std {file : File} (hf : t.files f = some file) (hstd : f < 2) :
    fsCloseFile t f = some (setFile t f (some { file with fRef := file.fRef - 1 })) := by
  simp [fsCloseFile,hf,hstd]

def copyFiles (t : Tables) (pid : Nat) : Option Tables := do
  let u ← (slotsOf t pid).foldlM (fun u s => link u (childSlot t.nextPid s)) t
  some { keepStd (keepStd u t.nextPid 0) t.nextPid 1 with pids := t.nextPid :: t.pids, nextPid := t.nextPid + 1 }

lemma procFork_eq (ht : Sound t) : procFork t pid true = copyFiles t pid := by
  obtain ⟨a,ha⟩ := Option.ne_none_iff_exists'.mp (ht.std 0 (by decide))
  obtain ⟨b,hb⟩ := Option.ne_none_iff_exists'.mp (ht.std 1 (by decide))
  have hback : setFile (setFile (setFile (setFile t 0 (some { a with fRef := a.fRef + 1 })) 1
      (some { b with fRef := b.fRef + 1 })) 0 (some { a with fRef := a.fRef + 1 - 1 })) 1
      (some { b with fRef := b.fRef + 1 - 1 }) = t := by
    obtain ⟨pids,slots,files,nextPid⟩ := t
    simp only [setFile,Tables.mk.injEq,true_and,and_true]
    funext f
    by_cases h1 : f = 1
    · subst h1
      simpa using hb.symm
    · by_cases h0 : f = 0
      · subst h0
        simpa using ha.symm
      · simp [h0,h1]
  rw [procFork,fsReopenFile_eq ha]
  simp only [Option.bind_eq_bind,bind_some,if_true]
  rw [fsReopenFile_eq (by simpa [setFile] using hb),bind_some,
    fsCloseFile_std (by simp [setFile]; rfl) (by decide),bind_some,
    fsCloseFile_std (by simp [setFile]; rfl) (by decide),bind_some,hback]
  rfl

lemma keepStd_files : (keepStd t child fd).files = t.files := by
  unfold keepStd
  split <;> rfl

lemma slot_keepStd {fd' : Nat} : slot (keepStd t child fd) child fd' =
    (slot t child fd').or (if fd' = fd then some ⟨child,fd,fd⟩ else none) := by
  unfold keepStd
  split
  · rename_i hs
    by_cases he : fd' = fd
    · subst he
      obtain ⟨s,hs⟩ := Option.isSome_iff_exists.mp hs
      simp [hs]
    · simp [he]
  · rw [slot,addSlot,lookup_append]
    congr 1
    simp [lookup,FdSlot.key,eq_comm]

lemma slot_key {s : FdSlot} (h : slot t pid fd = some s) : s.key = (pid,fd) := (lookup_some h).2

lemma slot_linked (hfresh : ∀ s ∈ t.slots, s.pid ≠ t.nextPid)
    (hslots : u.slots = t.slots ++ (slotsOf t pid).map (childSlot t.nextPid)) (hfd : fd < procMaxFile) :
    slot u t.nextPid fd = (slot t pid fd).map (childSlot t.nextPid) := by
  have hold : lookup FdSlot.key (t.nextPid,fd) t.slots = none :=
    List.find?_eq_none.mpr fun s hs => by simpa [FdSlot.key] using fun h => absurd h (hfresh s hs)
  have hmap : (slotsOf t pid).map (childSlot t.nextPid) =
      (List.range procMaxFile).filterMap fun fd => (slot t pid fd).map (childSlot t.nextPid) := List.map_filterMap
  rw [slot,hslots,lookup_append,hold,Option.none_or,hmap,lookup_filterMap,if_pos (List.mem_range.mpr hfd)]
  intro j s hs
  obtain ⟨s',hs',rfl⟩ := Option.map_eq_some_iff.mp hs
  have hkey := slot_key hs'
  simp only [FdSlot.key,Prod.mk_inj] at hkey
  simp [FdSlot.key,childSlot,hkey.2]

lemma copyFiles_entries (pid : Nat) (ht : Sound t) : ∃ u, copyFiles t pid = some u ∧
    (∀ fd < procMaxFile, entry u t.nextPid fd = (entry t pid fd).or (if fd < 2 then some fd else none)) ∧
    ∀ f, u.files f = (t.files f).map fun file => { file with fRef := file.fRef + holds t pid f } := by
  obtain ⟨u,hu,hslots,hfiles⟩ := linkAll t.nextPid fun s (hs : s ∈ slotsOf t pid) =>
    ht.held s (mem_slotsOf hs).1
  refine ⟨_,by rw [copyFiles,hu]; rfl,fun fd hfd => ?_,fun f => ?_⟩
  · change (slot (keepStd (keepStd u t.nextPid 0) t.nextPid 1) t.nextPid fd).map FdSlot.file = _
    rw [slot_keepStd,slot_keepStd,slot_linked ht.fresh hslots hfd,entry]
    cases hs : slot t pid fd with
    | some s => simp [childSlot]
    | none =>
      obtain rfl | rfl | h2 : fd = 0 ∨ fd = 1 ∨ 2 ≤ fd := by omega
      · simp
      · simp
      · simp [show fd ≠ 0 by omega,show fd ≠ 1 by omega,show ¬fd < 2 by omega]
  · change (keepStd (keepStd u t.nextPid 0) t.nextPid 1).files f = _
    rw [keepStd_files,keepStd_files,hfiles f]
    rfl

lemma or_std_iff : (∀ fd < procMaxFile, (entry t pid fd).or (if fd < 2 then some fd else none) = entry t pid fd) ↔
    (entry t pid 0).isSome ∧ (entry t pid 1).isSome := by
  constructor
  · intro h
    have h0 := h 0 (by decide)
    have h1 := h 1 (by decide)
    cases he0 : entry t pid 0 <;> cases he1 : entry t pid 1 <;> simp_all
  · rintro ⟨h0,h1⟩ fd hfd
    obtain ⟨a,ha⟩ := Option.isSome_iff_exists.mp h0
    obtain ⟨b,hb⟩ := Option.isSome_iff_exists.mp h1
    obtain rfl | rfl | h2 : fd = 0 ∨ fd = 1 ∨ 2 ≤ fd := by omega
    · simp [ha]
    · simp [hb]
    · simp [show ¬fd < 2 by omega]

theorem fork_copies_table_iff (t : Tables) (pid : Nat) (ht : Sound t) :
    ∃ u, procFork t pid true = some u ∧
      (TableCopied t u pid ↔ (entry t pid 0).isSome ∧ (entry t pid 1).isSome) := by
  obtain ⟨u,hu,hentries,hfiles⟩ := copyFiles_entries pid ht
  refine ⟨u,(procFork_eq ht).trans hu,?_⟩
  rw [← or_std_iff]
  constructor
  · intro h fd hfd
    rw [← hentries fd hfd,h.entries fd hfd]
  · intro h
    refine ⟨fun fd hfd => by rw [hentries fd hfd,h fd hfd],fun f file hf => ?_⟩
    exact ⟨_,by rw [hfiles f,hf]; rfl,rfl⟩

def redirected : Tables := ⟨[1],[⟨1,0,7⟩,⟨1,1,1⟩,⟨1,3,7⟩],fun f => if f < 2 ∨ f = 7 then some ⟨2,true⟩ else none,2⟩

lemma redirected_sound : Sound redirected where
  held := by decide
  std := by decide
  fresh := by decide

theorem fork_copies_table_redirected : ∃ u, procFork redirected 1 true = some u ∧ TableCopied redirected u 1 := by
  obtain ⟨u,hu,hiff⟩ := fork_copies_table_iff redirected 1 redirected_sound
  exact ⟨u,hu,hiff.mpr (by decide)⟩

theorem closed_stdin_returns : (procFork ⟨[1],[⟨1,1,1⟩],fun f => if f < 2 then some ⟨2,true⟩ else none,2⟩ 1 true).map
    (fun u => (entry u 1 0,entry u 2 0,(u.files 0).map File.fRef)) = some (none,some 0,some 2) := by decide

end MappedMemory.OpenFiles
