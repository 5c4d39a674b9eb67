import MappedMemory.Kernel.Frames
import MappedMemory.Kernel.Refs

namespace MappedMemory

open Bool (and_eq_true)
open Option (any_eq_true isSome_some)
open Keyed

namespace Frames

def pgcacheGetPage (s : Frames) (store index : Nat) (radix : Bool) (answers : Answers) :
    Frames × Option Nat × Answers :=
  match lookup CachedPage.key (store,index) s.cachedPages with
  | some c => (s,some c.frame,answers)
  | none =>
    match s.pmemAlloc answers with
    | (s,none,answers) => (s,none,answers)
    | (s,some page,answers) =>
      if radix then
        ({ s.fill page fun _ => 0 with cachedPages := ⟨store,index,page⟩ :: s.cachedPages },some page,answers)
      else (s.pmemFree page,none,answers)

def setupPage (s : Frames) (space n : Nat) (answers : Answers) : Option (Frames × Bool × Answers) :=
  match s.pmemAlloc answers with
  | (s,none,answers) => some (s,false,answers)
  | (s,some page,answers) => do
    let (s,mapped,answers) ← (s.fill page fun _ => 0).vpmapMap space n page true answers
    if mapped then some (s,true,answers) else some (s.pmemFree page,false,answers)

def handleCOW (s : Frames) (space n : Nat) (answers : Answers) : Option (Frames × Bool × Answers) :=
  match s.lookupPte space n with
  | none => some (s,false,answers)
  | some e =>
    if s.refcnt e.frame = 1 then some (s.vpmapSetPerm space [n] true,true,answers)
    else
      match s.pmemAlloc answers with
      | (s,none,answers) => some (s,false,answers)
      | (s,some page,answers) => do
        let (s,mapped,answers) ← (s.fill page (s.data e.frame)).vpmapMap space n page true answers
        if mapped then do
          let s ← s.pmemDecRefcnt e.frame
          some (s,true,answers)
        else some (s.pmemFree page,false,answers)

def handleSharedRegion (s : Frames) (space : Nat) (r : Memregion) (vaddr : Nat) (radix : Bool) (answers : Answers) :
    Option (Frames × Bool × Answers) := do
  let store ← r.store
  match s.pgcacheGetPage store ((vaddr - r.start) / pgSize) radix answers with
  | (s,none,answers) => some (s,false,answers)
  | (s,some page,answers) => do
    let (s,mapped,answers) ← s.vpmapMap space (vpn vaddr) page true answers
    if mapped then do
      let s ← s.pmemIncRefcnt page
      some (s,true,answers)
    else some (s,false,answers)

def handlePageFault (s : Frames) (p : Proc) (vaddr : Nat) (present write user radix : Bool) (answers : Answers) :
    Option (Frames × Bool × Answers) :=
  match p.as.asFindMemregion vaddr 1 with
  | none => some (s,false,answers)
  | some mr => do
    let (s,handled,answers) ←
      (if mr.shared then s.handleSharedRegion p.pid mr vaddr radix answers else some (s,false,answers))
    if handled then some (s,true,answers)
    else do
      let (s,handled,answers) ←
        (if present && write && decide (mr.perm = .urw) then s.handleCOW p.pid (vpn vaddr) answers
          else some (s,false,answers))
      if handled then some (s,true,answers)
      else if user then
        if mr.stop = ustackUpperbound ∨ p.as.heap = some mr.id then s.setupPage p.pid (vpn vaddr) answers
        else some (s,false,answers)
      else none

def reached (s : Frames) (space n : Nat) : Bool :=
  s.hasTable space [] && !kernelSlot n && (tablePaths n).all (s.hasTable space)

def walk (s : Frames) (space n : Nat) : Option Pte := if s.reached space n then s.lookupPte space n else none

structure KeepsPage (s s' : Frames) (space n : Nat) (e : Pte) : Prop where
  content : (s'.walk space n).map (fun o => s'.data o.frame) = some (s.data e.frame)
  adjusted : s'.refcnt e.frame ≠ s.refcnt e.frame ↔ (s'.walk space n).map Pte.frame ≠ some e.frame

structure Counted (s : Frames) : Prop where
  mapped : ∀ e ∈ s.ptes, 0 < s.refcnt e.frame
  cached : ∀ c ∈ s.cachedPages, 0 < s.refcnt c.frame

def fetches (s : Frames) (mr : Memregion) (vaddr : Nat) (radix : Bool) (answers : Answers) : Bool × Answers :=
  match mr.shared, mr.store with
  | true, some store =>
    if (lookup CachedPage.key (store,(vaddr - mr.start) / pgSize) s.cachedPages).isSome then (true,answers)
    else (radix && answers.head?.join.isSome,answers.tail)
  | _, _ => (false,answers)

def zeroes (p : Proc) (mr : Memregion) (user : Bool) (answers : Answers) : Bool :=
  user && decide (mr.stop = ustackUpperbound ∨ p.as.heap = some mr.id) && answers.head?.join.isSome

def discardsPrivate (s : Frames) (p : Proc) (mr : Memregion) (frame : Nat) (present write user : Bool)
    (answers : Answers) : Bool :=
  if present && write && decide (mr.perm = .urw) then
    decide (s.refcnt frame ≠ 1) && answers.head?.join.isNone && zeroes p mr user answers.tail
  else zeroes p mr user answers

def discards (s : Frames) (p : Proc) (vaddr frame : Nat) (present write user radix : Bool) (answers : Answers) :
    Bool :=
  match p.as.asFindMemregion vaddr 1 with
  | none => false
  | some mr =>
    if mr.shared && mr.store.isNone then false
    else
      let (fetched,answers) := s.fetches mr vaddr radix answers
      fetched || s.discardsPrivate p mr frame present write user answers

section present

variable {s s1 s' : Frames} {space n page vaddr : Nat} {e : Pte} {answers rest : Answers} {mr : Memregion} {wr : Bool}

lemma walk_eq : s.walk space n = some e ↔ s.reached space n = true ∧ s.lookupPte space n = some e := by
  simp [walk]

lemma pmemAlloc_none (h : answers.head?.join = none) : s.pmemAlloc answers = (s,none,answers.tail) := by
  match answers with
  | [] => rfl
  | none :: _ => rfl
  | some _ :: _ => simp at h

lemma pmemAlloc_some (h : answers.head?.join = some page) :
    s.pmemAlloc answers = (s.setRefcnt page 1,some page,answers.tail) := by
  match answers with
  | [] => simp at h
  | none :: _ => simp at h
  | some _ :: _ =>
    cases h
    rfl

lemma mem_of_head (h : answers.head?.join = some page) : some page ∈ answers := by
  match answers with
  | [] => simp at h
  | a :: _ =>
    obtain rfl : a = some page := h
    exact List.mem_cons_self

lemma findPteFrom_reached {paths : List (List Nat)} (h : paths.all (s.hasTable space) = true) :
    findPteFrom space paths s answers = (s,true,answers) := by
  induction paths with
  | nil => rfl
  | cons path paths ih =>
    simp only [List.all_cons,and_eq_true] at h
    simp only [findPteFrom,h.1,if_true]
    exact ih h.2

lemma vpmapMap_reached (h : s.reached space n = true) :
    s.vpmapMap space n page wr answers = some (s.setPte ⟨space,n,page,wr⟩,true,answers) := by
  simp only [reached,and_eq_true] at h
  simp [vpmapMap,findPte,h.1,findPteFrom_reached h.2]

lemma walk_setPte (h : s.reached space n = true) (page : Nat) (wr : Bool) :
    (s.setPte ⟨space,n,page,wr⟩).walk space n = some ⟨space,n,page,wr⟩ := by
  refine walk_eq.mpr ⟨h,?_⟩
  simp [lookupPte,setPte,lookup,Pte.key]

structure Same (s s1 : Frames) (e : Pte) : Prop where
  ptes : s1.ptes = s.ptes
  tables : s1.tables = s.tables
  data : s1.data e.frame = s.data e.frame
  refcnt : s1.refcnt e.frame = s.refcnt e.frame

lemma Same.refl (s : Frames) (e : Pte) : Same s s e := ⟨rfl,rfl,rfl,rfl⟩

lemma Same.reached (h : Same s s1 e) (space n : Nat) : s1.reached space n = s.reached space n := by
  have ht : s1.hasTable space = s.hasTable space := by
    funext path
    rw [hasTable,hasTable,h.tables]
  rw [Frames.reached,Frames.reached,ht]

lemma Same.walk (h : Same s s1 e) (space n : Nat) : s1.walk space n = s.walk space n := by
  simp only [Frames.walk,h.reached,lookupPte,h.ptes]

lemma Same.keepsPage (h : Same s s1 e) : KeepsPage s1 s' space n e ↔ KeepsPage s s' space n e := by
  constructor
  · rintro ⟨hc,ha⟩
    exact ⟨by rw [hc,h.data],by rw [← h.refcnt,ha]⟩
  · rintro ⟨hc,ha⟩
    exact ⟨by rw [hc,h.data],by rw [h.refcnt,ha]⟩

lemma setRefcnt_same (h : page ≠ e.frame) (k : Nat) (bytes : Nat → Nat) :
    Same s ((s.setRefcnt page k).fill page bytes) e :=
  ⟨rfl,rfl,Function.update_of_ne h.symm _ _,Function.update_of_ne h.symm _ _⟩

lemma replaced_not_keeps (wr : Bool) (hr : s1.reached space n = true) (hne : page ≠ e.frame)
    (hcount : s1.refcnt e.frame = s.refcnt e.frame) : ¬KeepsPage s (s1.setPte ⟨space,n,page,wr⟩) space n e := by
  intro h
  refine h.adjusted.mpr ?_ hcount
  simpa [walk_setPte hr] using hne

lemma setupPage_some (hr : s.reached space n = true) (h : answers.head?.join = some page) (hne : page ≠ e.frame) :
    ∃ s', s.setupPage space n answers = some (s',true,answers.tail) ∧ ¬KeepsPage s s' space n e := by
  have hs : Same s ((s.setRefcnt page 1).fill page fun _ => 0) e := setRefcnt_same hne 1 _
  have hr' := (hs.reached space n).trans hr
  refine ⟨_,?_,replaced_not_keeps true hr' hne hs.refcnt⟩
  simp [setupPage,pmemAlloc_some h,vpmapMap_reached hr']

lemma setupPage_none (h : answers.head?.join = none) : s.setupPage space n answers = some (s,false,answers.tail) := by
  simp [setupPage,pmemAlloc_none h]

lemma handleCOW_last (answers : Answers) (hw : s.walk space n = some e) (h : s.refcnt e.frame = 1) :
    ∃ s', s.handleCOW space n answers = some (s',true,answers) ∧ KeepsPage s s' space n e := by
  obtain ⟨hr,hl⟩ := walk_eq.mp hw
  refine ⟨s.vpmapSetPerm space [n] true,by simp [handleCOW,hl,h],?_⟩
  have hl' : (s.vpmapSetPerm space [n] true).lookupPte space n = some { e with writable := true } := by
    obtain ⟨-,hk⟩ := lookup_some hl
    obtain ⟨rfl,rfl⟩ := Prod.mk.inj hk
    rw [lookupPte,vpmapSetPerm,lookup_map fun a => ?_]
    · rw [lookupPte] at hl
      simp [hl]
    · split <;> rfl
  have hw' : (s.vpmapSetPerm space [n] true).walk space n = some { e with writable := true } :=
    walk_eq.mpr ⟨hr,hl'⟩
  exact ⟨by simp [hw']; rfl,by simp [hw']; rfl⟩

lemma handleCOW_copied (hw : s.walk space n = some e) (hpos : 0 < s.refcnt e.frame) (hone : s.refcnt e.frame ≠ 1)
    (h : answers.head?.join = some page) (hne : page ≠ e.frame) :
    ∃ s', s.handleCOW space n answers = some (s',true,answers.tail) ∧ KeepsPage s s' space n e := by
  obtain ⟨hr,hl⟩ := walk_eq.mp hw
  have hs : Same s ((s.setRefcnt page 1).fill page (s.data e.frame)) e := setRefcnt_same hne 1 _
  have hr' := (hs.reached space n).trans hr
  have hcount : (((s.setRefcnt page 1).fill page (s.data e.frame)).setPte ⟨space,n,page,true⟩).refcnt e.frame =
      s.refcnt e.frame := hs.refcnt
  refine ⟨(((s.setRefcnt page 1).fill page (s.data e.frame)).setPte ⟨space,n,page,true⟩).setRefcnt e.frame
    (s.refcnt e.frame - 1),?_,?_,?_⟩
  · have hdata : (s.setRefcnt page 1).data e.frame = s.data e.frame := rfl
    simp [handleCOW,hl,hone,pmemAlloc_some h,hdata,vpmapMap_reached hr',pmemDecRefcnt,hcount,hpos]
  · have hw' := walk_setPte hr' page true
    change Option.map _ ((((s.setRefcnt page 1).fill page (s.data e.frame)).setPte ⟨space,n,page,true⟩).walk space n) = _
    rw [hw']
    exact congrArg some (Function.update_self _ _ _)
  · have hw' := walk_setPte hr' page true
    change _ ↔ Option.map _ ((((s.setRefcnt page 1).fill page (s.data e.frame)).setPte ⟨space,n,page,true⟩).walk
      space n) ≠ _
    rw [hw']
    have hdec : s.refcnt e.frame - 1 ≠ s.refcnt e.frame := by omega
    simp [setRefcnt,hdec,hne]

lemma handleCOW_refused (hw : s.walk space n = some e) (hone : s.refcnt e.frame ≠ 1)
    (h : answers.head?.join = none) : s.handleCOW space n answers = some (s,false,answers.tail) := by
  simp [handleCOW,(walk_eq.mp hw).2,hone,pmemAlloc_none h]

lemma shared_not_keeps (hs : Same s s1 e) (hr : s.reached space n = true) :
    ¬KeepsPage s ((s1.setPte ⟨space,n,page,true⟩).setRefcnt page (s1.refcnt page + 1)) space n e := by
  have hr' := (hs.reached space n).trans hr
  have hw : ((s1.setPte ⟨space,n,page,true⟩).setRefcnt page (s1.refcnt page + 1)).walk space n =
      some ⟨space,n,page,true⟩ := walk_setPte hr' page true
  rintro ⟨-,ha⟩
  rw [hw] at ha
  by_cases hp : page = e.frame
  · subst hp
    refine ha.mp ?_ rfl
    simp [setRefcnt,hs.refcnt]
  · refine ha.mpr (by simpa using hp) ?_
    simp [setRefcnt,Ne.symm hp,setPte,hs.refcnt]

lemma handleSharedRegion_mapped {radix : Bool} {store : Nat} (hst : mr.store = some store)
    (hr : s1.reached space (vpn vaddr) = true) (hpos : 0 < s1.refcnt page)
    (hg : s.pgcacheGetPage store ((vaddr - mr.start) / pgSize) radix answers = (s1,some page,rest)) :
    s.handleSharedRegion space mr vaddr radix answers =
      some ((s1.setPte ⟨space,vpn vaddr,page,true⟩).setRefcnt page (s1.refcnt page + 1),true,rest) := by
  have hcount : (s1.setPte ⟨space,vpn vaddr,page,true⟩).refcnt page = s1.refcnt page := rfl
  simp [handleSharedRegion,hst,hg,vpmapMap_reached hr,pmemIncRefcnt,hcount,hpos]

lemma handleSharedRegion_fetched {radix : Bool} (hw : s.walk space (vpn vaddr) = some e) (hc : s.Counted)
    (hfresh : ∀ q, some q ∈ answers → q ≠ e.frame) (h : s.fetches mr vaddr radix answers = (true,rest)) :
    ∃ s', s.handleSharedRegion space mr vaddr radix answers = some (s',true,rest) ∧
      ¬KeepsPage s s' space (vpn vaddr) e := by
  obtain ⟨hr,-⟩ := walk_eq.mp hw
  unfold fetches at h
  split at h
  · rename_i store _ hst
    cases hl : lookup CachedPage.key (store,(vaddr - mr.start) / pgSize) s.cachedPages with
    | some c =>
      simp only [hl,isSome_some,if_true,Prod.mk_inj,true_and] at h
      subst h
      have hg : s.pgcacheGetPage store ((vaddr - mr.start) / pgSize) radix answers = (s,some c.frame,answers) := by
        simp [pgcacheGetPage,hl]
      exact ⟨_,handleSharedRegion_mapped hst hr (hc.cached c (lookup_some hl).1) hg,
        shared_not_keeps (Same.refl s e) hr⟩
    | none =>
      simp only [hl,Option.isSome_none,Bool.false_eq_true,if_false,Prod.mk_inj,and_eq_true] at h
      obtain ⟨⟨rfl,hsome⟩,rfl⟩ := h
      obtain ⟨page,hpage⟩ := Option.isSome_iff_exists.mp hsome
      have hne := hfresh page (mem_of_head hpage)
      have hfill : Same s _ e := setRefcnt_same hne 1 fun _ => 0
      obtain ⟨s1,hs,hpos,hg⟩ : ∃ s1, Same s s1 e ∧ 0 < s1.refcnt page ∧
          s.pgcacheGetPage store ((vaddr - mr.start) / pgSize) true answers = (s1,some page,answers.tail) := by
        refine ⟨{ (s.setRefcnt page 1).fill page fun _ => 0 with
          cachedPages := ⟨store,(vaddr - mr.start) / pgSize,page⟩ :: s.cachedPages },
          ⟨rfl,rfl,hfill.data,hfill.refcnt⟩,by simp [setRefcnt,fill],?_⟩
        simp only [pgcacheGetPage,hl,pmemAlloc_some hpage,if_true]
        rfl
      exact ⟨_,handleSharedRegion_mapped hst ((hs.reached space _).trans hr) hpos hg,shared_not_keeps hs hr⟩
  · simp at h

lemma handleSharedRegion_refused {radix : Bool} (hfresh : ∀ q, some q ∈ answers → q ≠ e.frame)
    (hsh : mr.shared = true) (hst : mr.store ≠ none) (h : s.fetches mr vaddr radix answers = (false,rest))
    (space : Nat) : ∃ s1, s.handleSharedRegion space mr vaddr radix answers = some (s1,false,rest) ∧ Same s s1 e := by
  obtain ⟨store,hst⟩ := Option.ne_none_iff_exists'.mp hst
  simp only [fetches,hsh,hst] at h
  split at h
  · simp at h
  · rename_i hl
    simp only [Option.not_isSome_iff_eq_none] at hl
    simp only [Prod.mk_inj] at h
    obtain ⟨h,rfl⟩ := h
    cases hhead : answers.head?.join with
    | none => exact ⟨s,by simp [handleSharedRegion,hst,pgcacheGetPage,hl,pmemAlloc_none hhead],Same.refl s e⟩
    | some page =>
      have hne := hfresh page (mem_of_head hhead)
      obtain rfl : radix = false := by simpa [hhead] using h
      refine ⟨(s.setRefcnt page 1).pmemFree page,?_,rfl,rfl,rfl,?_⟩
      · simp [handleSharedRegion,hst,pgcacheGetPage,hl,pmemAlloc_some hhead]
      · simp [pmemFree,setRefcnt,Ne.symm hne]

variable {p : Proc} {present write user radix : Bool}

def faultAbsent (s : Frames) (p : Proc) (mr : Memregion) (vaddr : Nat) (user : Bool) (answers : Answers) :
    Option (Frames × Bool × Answers) :=
  if user then
    if mr.stop = ustackUpperbound ∨ p.as.heap = some mr.id then s.setupPage p.pid (vpn vaddr) answers
    else some (s,false,answers)
  else none

def faultPrivate (s : Frames) (p : Proc) (mr : Memregion) (vaddr : Nat) (present write user : Bool)
    (answers : Answers) : Option (Frames × Bool × Answers) := do
  let (s,handled,answers) ←
    (if present && write && decide (mr.perm = .urw) then s.handleCOW p.pid (vpn vaddr) answers
      else some (s,false,answers))
  if handled then some (s,true,answers) else s.faultAbsent p mr vaddr user answers

def Keeps (s : Frames) (space n : Nat) (e : Pte) (x : Option (Frames × Bool × Answers)) : Prop :=
  ∀ s' rest, x = some (s',true,rest) → KeepsPage s s' space n e

lemma Same.keeps {x : Option (Frames × Bool × Answers)} (h : Same s s1 e) :
    Keeps s1 space n e x ↔ Keeps s space n e x :=
  forall₃_congr fun _ _ _ => h.keepsPage

lemma Same.discardsPrivate (h : Same s s1 e) : s1.discardsPrivate p mr e.frame present write user answers =
      s.discardsPrivate p mr e.frame present write user answers := by
  rw [Frames.discardsPrivate,Frames.discardsPrivate,h.refcnt]

lemma keeps_of_true (h : KeepsPage s s' space n e) : Keeps s space n e (some (s',true,rest)) := by
  rintro s'' rest' heq
  cases heq
  exact h

lemma keeps_false : Keeps s space n e (some (s',false,rest)) := by
  rintro s'' rest' heq
  simp at heq

lemma faultAbsent_keeps_iff (hw : s.walk p.pid (vpn vaddr) = some e) (hfresh : ∀ q, some q ∈ answers → q ≠ e.frame) :
    Keeps s p.pid (vpn vaddr) e (s.faultAbsent p mr vaddr user answers) ↔ zeroes p mr user answers = false := by
  unfold faultAbsent zeroes
  cases user with
  | false => simp [Keeps]
  | true =>
    by_cases hplace : mr.stop = ustackUpperbound ∨ p.as.heap = some mr.id
    · simp only [if_true,hplace,decide_true,Bool.true_and]
      cases hhead : answers.head?.join with
      | none => simp [setupPage_none hhead,keeps_false]
      | some page =>
        obtain ⟨s',hs',hnot⟩ := setupPage_some (walk_eq.mp hw).1 hhead (hfresh page (mem_of_head hhead))
        simp only [hs',isSome_some,Bool.true_eq_false,iff_false]
        exact fun h => hnot (h s' _ rfl)
    · simp [hplace,keeps_false]

lemma faultPrivate_keeps_iff (mr : Memregion) (present write user : Bool)
    (hw : s.walk p.pid (vpn vaddr) = some e) (hpos : 0 < s.refcnt e.frame)
    (hfresh : ∀ q, some q ∈ answers → q ≠ e.frame) :
    Keeps s p.pid (vpn vaddr) e (s.faultPrivate p mr vaddr present write user answers) ↔
      s.discardsPrivate p mr e.frame present write user answers = false := by
  unfold faultPrivate discardsPrivate
  by_cases hcow : (present && write && decide (mr.perm = .urw)) = true
  · simp only [hcow,if_true]
    by_cases hone : s.refcnt e.frame = 1
    · obtain ⟨s',hs',hkeep⟩ := handleCOW_last answers hw hone
      simp [hs',hone,keeps_of_true hkeep]
    · cases hhead : answers.head?.join with
      | some page =>
        obtain ⟨s',hs',hkeep⟩ := handleCOW_copied hw hpos hone hhead (hfresh page (mem_of_head hhead))
        simp [hs',keeps_of_true hkeep]
      | none =>
        have htail : ∀ q, some q ∈ answers.tail → q ≠ e.frame := fun q hq => hfresh q (List.mem_of_mem_tail hq)
        simpa [handleCOW_refused hw hone hhead,hone] using faultAbsent_keeps_iff hw htail
  · simpa [hcow] using faultAbsent_keeps_iff hw hfresh

lemma handlePageFault_region (hmr : p.as.asFindMemregion vaddr 1 = some mr) :
    s.handlePageFault p vaddr present write user radix answers = (do
      let (s,handled,answers) ←
        (if mr.shared then s.handleSharedRegion p.pid mr vaddr radix answers else some (s,false,answers))
      if handled then some (s,true,answers) else s.faultPrivate p mr vaddr present write user answers) := by
  simp only [handlePageFault,hmr]
  rfl

lemma fetches_rest {b : Bool} {q : Nat} (h : s.fetches mr vaddr radix answers = (b,rest)) (hq : some q ∈ rest) :
    some q ∈ answers := by
  unfold fetches at h
  split at h
  · split at h
    · exact (Prod.mk.inj h).2 ▸ hq
    · exact List.mem_of_mem_tail ((Prod.mk.inj h).2 ▸ hq)
  · exact (Prod.mk.inj h).2 ▸ hq

theorem handlePageFault_keeps_iff (s : Frames) (p : Proc) (vaddr : Nat) (present write user radix : Bool)
    (answers : Answers) (e : Pte) (hw : s.walk p.pid (vpn vaddr) = some e) (hc : s.Counted)
    (hfresh : ∀ q, some q ∈ answers → q ≠ e.frame) :
    (∀ s' rest, s.handlePageFault p vaddr present write user radix answers = some (s',true,rest) →
      KeepsPage s s' p.pid (vpn vaddr) e) ↔ s.discards p vaddr e.frame present write user radix answers = false := by
  have hpos : 0 < s.refcnt e.frame := hc.mapped e (lookup_some (walk_eq.mp hw).2).1
  change Keeps s p.pid (vpn vaddr) e _ ↔ _
  cases hmr : p.as.asFindMemregion vaddr 1 with
  | none => simp [handlePageFault,discards,hmr,keeps_false]
  | some mr =>
    rw [handlePageFault_region hmr]
    simp only [discards,hmr]
    cases hsh : mr.shared with
    | false => simpa [fetches,hsh] using faultPrivate_keeps_iff mr present write user hw hpos hfresh
    | true =>
      by_cases hst : mr.store = none
      · simp [hst,handleSharedRegion,Keeps]
      · rcases hf : s.fetches mr vaddr radix answers with ⟨fetched,rest⟩
        cases fetched with
        | true =>
          obtain ⟨s',hs',hnot⟩ := handleSharedRegion_fetched hw hc hfresh hf
          have hbad : ¬Keeps s p.pid (vpn vaddr) e (some (s',true,rest)) := fun h => hnot (h s' rest rfl)
          simpa [hs',hst] using hbad
        | false =>
          obtain ⟨s1,hs1,hsame⟩ := handleSharedRegion_refused hfresh hsh hst hf p.pid
          have hrest : ∀ q, some q ∈ rest → q ≠ e.frame := fun q hq => hfresh q (fetches_rest hf hq)
          have hpriv := faultPrivate_keeps_iff mr present write user ((hsame.walk p.pid (vpn vaddr)).trans hw)
            (hsame.refcnt.symm ▸ hpos) hrest
          rw [hsame.keeps,hsame.discardsPrivate] at hpriv
          simpa [hs1,hst] using hpriv

end present
end Frames

namespace World

variable {t ok : Bool} {w : World} {ex hand : List Nat} {space n page : Nat}

lemma frames_counted (h : Accounted t w ex hand) : w.frames.Counted :=
  ⟨fun _ he => h.positive (refs_mapped_pos he hand),fun _ hc => h.positive (refs_cached_pos hc hand)⟩

section handler

variable {p : Proc} {mr : Memregion} {vaddr : Nat} {present write user radix handled : Bool}

end handler

def forkOnce : List Op := [program,.fork 0,proceed 0,proceed 0,proceed 0,proceed 0]

theorem handlePageFault_keeps_copied : ∃ w p e, run smallMemory (fun _ _ => 0) forkOnce = some w ∧
    w.shm.caller 0 = some p ∧ w.frames.walk p.pid (vpn Shm.stackTop) = some e ∧ w.pm.refcnt e.frame = 2 ∧
    ∀ s' rest, w.frames.handlePageFault p Shm.stackTop true true true true [some 20] = some (s',true,rest) →
      w.frames.KeepsPage s' p.pid (vpn Shm.stackTop) e := by
  have hrun : (run smallMemory (fun _ _ => 0) forkOnce).any (fun w => (w.shm.caller 0).any fun p =>
      (w.frames.walk p.pid (vpn Shm.stackTop)).any fun e => decide (w.pm.refcnt e.frame = 2) && decide (20 ≠ e.frame) &&
        !w.frames.discards p Shm.stackTop e.frame true true true true [some 20]) = true := by decide +kernel
  obtain ⟨w,hw,hok⟩ := (any_eq_true _ _).mp hrun
  obtain ⟨p,hp,hok⟩ := (any_eq_true _ _).mp hok
  obtain ⟨e,he,hok⟩ := (any_eq_true _ _).mp hok
  simp only [and_eq_true,decide_eq_true_eq,Bool.not_eq_true'] at hok
  refine ⟨w,p,e,hw,hp,he,hok.1.1,?_⟩
  refine (Frames.handlePageFault_keeps_iff w.frames p Shm.stackTop true true true true [some 20] e he
    (frames_counted (run_accounted hw)) ?_).mpr hok.2
  rintro q hq
  obtain rfl : q = 20 := by simpa using hq
  exact hok.1.2

theorem failed_copy_clears_stack : ∃ w p s' rest, run smallMemory (fun _ _ => 0) forkOnce = some w ∧
    w.shm.caller 0 = some p ∧ w.translate 0 Shm.stackTop true = none ∧
    w.frames.handlePageFault p Shm.stackTop true true true true [none,some 20] = some (s',true,rest) ∧
    (w.frames.walk 0 (vpn Shm.stackTop)).map (fun e => (e.frame,w.data e.frame 1)) = some (9,68585259007) ∧
    (s'.walk 0 (vpn Shm.stackTop)).map (fun e => (e.frame,s'.data e.frame 1)) = some (20,0) ∧
    w.pm.refcnt 9 = 2 ∧ s'.refcnt 9 = 2 := by
  have hrun : (run smallMemory (fun _ _ => 0) forkOnce).any (fun w => (w.shm.caller 0).any fun p =>
      (w.frames.handlePageFault p Shm.stackTop true true true true [none,some 20]).any fun x =>
        x.2.1 && decide (w.translate 0 Shm.stackTop true = none) &&
        decide ((w.frames.walk 0 (vpn Shm.stackTop)).map (fun e => (e.frame,w.data e.frame 1)) = some (9,68585259007)) &&
        decide ((x.1.walk 0 (vpn Shm.stackTop)).map (fun e => (e.frame,x.1.data e.frame 1)) = some (20,0)) &&
        decide (w.pm.refcnt 9 = 2) && decide (x.1.refcnt 9 = 2)) = true := by decide +kernel
  obtain ⟨w,hw,hok⟩ := (any_eq_true _ _).mp hrun
  obtain ⟨p,hp,hok⟩ := (any_eq_true _ _).mp hok
  obtain ⟨⟨s',ok,rest⟩,hs,hok⟩ := (any_eq_true _ _).mp hok
  simp only [and_eq_true,decide_eq_true_eq] at hok
  obtain ⟨⟨⟨⟨⟨rfl,h1⟩,h2⟩,h3⟩,h4⟩,h5⟩ := hok
  exact ⟨w,p,s',rest,hw,hp,h1,hs,h2,h3,h4,h5⟩

end World
end MappedMemory
