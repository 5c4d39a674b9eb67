import MappedMemory.Sfs.Dirents
import MappedMemory.Sfs.Allocation

namespace MappedMemory.Sfs

open Bytes Routine

variable {s t u v : Fs} {i k b : Nat} {c : Inode} {alloc l d e : Bool} {c' : Inode} {extra : List (Nat × Bool)}
  {r : Except SfsErr Nat}

def inodeRef (s : Fs) (j : Nat) : Nat := ((s.icache j).map Inode.iRef).getD 0

def InodesKept (s t : Fs) : Prop := ∀ j, inodeRef t j = inodeRef s j

structure Spent (s t : Fs) (d : Bool) (extra : List (Nat × Bool)) : Prop where
  inodes : InodesKept s t
  kept : d = false → t.held = extra ++ s.held
  lost : d = true → t.held.length < s.held.length

lemma InodesKept.trans (h : InodesKept s t) (h' : InodesKept t u) : InodesKept s u := fun j =>
  (h' j).trans (h j)

lemma inodesKept_of_eq (h : t.icache = s.icache) : InodesKept s t := fun j => by rw [inodeRef,inodeRef,h]

lemma inodesKept_of_update (hc : s.icache i = some c)
    (h : t.icache = Function.update s.icache i (some c')) (hr : c'.iRef = c.iRef) : InodesKept s t := fun j => by
  by_cases hj : j = i
  · subst hj
    simp [inodeRef,h,hc,hr]
  · simp [inodeRef,h,Function.update_of_ne hj]

lemma Spent.of_held (hi : InodesKept s t) (hh : t.held = extra ++ s.held) :
    Spent s t false extra := ⟨hi,fun _ => hh,fun h => (nomatch h)⟩

lemma Spent.refl (s : Fs) : Spent s s false [] := .of_held (fun _ => rfl) rfl

lemma Spent.held (h : Spent s t false extra) : t.held = extra ++ s.held := h.kept rfl

lemma Spent.then (h : Spent s t d []) (h' : Spent t u e []) : Spent s u (d || e) [] where
  inodes := h.inodes.trans h'.inodes
  kept hd := by
    obtain ⟨rfl,rfl⟩ := Bool.or_eq_false_iff.mp hd
    rw [h'.held,h.held]
    rfl
  lost hd := by
    have hle : d = false → t.held.length = s.held.length := fun hd => by rw [h.kept hd]; rfl
    have hle' : e = false → u.held.length = t.held.length := fun he => by rw [h'.kept he]; rfl
    have hl := h.lost
    have hl' := h'.lost
    cases d <;> cases e <;> simp_all
    omega

lemma acquire_spent {ok : Bool} (h : acquire l b s = some (ok,t)) : Spent s t false (if ok then [(b,l)] else []) := by
  obtain ⟨sup,-,-,rfl⟩ := acquire_some h
  refine .of_held (fun _ => rfl) ?_
  cases ok <;> rfl

lemma SameButDisk.spent (h : SameButDisk s t) : Spent s t false [] := .of_held (inodesKept_of_eq h.icache) h.held

lemma sfsWriteInode_spent {r : Except SfsErr Unit} (h : sfsWriteInode i s = some (r,t)) : Spent s t false [] := by
  have hc : ∃ c, s.icache i = some c := by
    unfold sfsWriteInode at h
    obtain ⟨c,hc,-⟩ := inode_bind.mp h
    exact ⟨c,hc⟩
  obtain ⟨c,hc⟩ := hc
  rcases sfsWriteInode_some hc h with ⟨-,hq,hh,-⟩ | hw
  · exact .of_held (inodesKept_of_eq hq.icache) hh
  · exact .of_held (inodesKept_of_update hc hw.icache rfl) hw.held

lemma setInode_write_spent {α : Type} {a r : α} (hc : s.icache i = some c)
    (h : (do setInode i (some c'); let _ ← sfsWriteInode i; return a : FsM α) s = some (r,t)) (hr : c'.iRef = c.iRef) :
    r = a ∧ Spent s t false [] := by
  simp only [setInode,modify_bind,bind_some] at h
  obtain ⟨_,v,hw,h⟩ := h
  cases h
  have hwr := sfsWriteInode_spent hw
  exact ⟨rfl,.of_held (.trans (inodesKept_of_update hc rfl hr) hwr.inodes) hwr.held⟩

lemma allocAddr_spent (h : allocAddr i k s = some (r,t)) : Spent s t false [] := by
  unfold allocAddr at h
  obtain ⟨r',u,ha,h⟩ := bind_some.mp h
  have hsame := (allocDataBlock_some ha).1.spent
  cases r' with
  | error e =>
    cases h
    exact hsame
  | ok blk =>
    obtain ⟨c,hc,h⟩ := inode_bind.mp h
    exact hsame.then (setInode_write_spent hc h rfl).2

lemma addrSlot_spent (h : addrSlot i k alloc s = some (r,t)) : Spent s t false [] := by
  unfold addrSlot at h
  obtain ⟨c,hc,h⟩ := inode_bind.mp h
  split at h
  · cases h
    exact .refl _
  · cases alloc with
    | false =>
      cases h
      exact .refl _
    | true => exact allocAddr_spent h

lemma entrySlot_spent {a j : Nat} (h : entrySlot a j alloc s = some (r,t)) : Spent s t false [] := by
  unfold entrySlot at h
  rw [get_bind] at h
  split at h
  · cases h
    exact .refl _
  · cases alloc with
    | false =>
      cases h
      exact .refl _
    | true =>
      simp only [unless_true] at h
      obtain ⟨r',u,ha,h⟩ := bind_some.mp h
      have hsame := (allocDataBlock_some ha).1
      cases r' with
      | error e =>
        cases h
        exact hsame.spent
      | ok blk =>
        simp only [modifyDisk,modify_bind] at h
        cases h
        exact .of_held (inodesKept_of_eq hsame.icache) hsame.held

def openIndir (bh : Option Nat) : Except SfsErr Nat → List (Nat × Bool)
  | .ok _ => []
  | .error _ => bh.toList.map (·,true)

lemma findBlk_spent {idx : Nat} {bh : Option Nat} (h : findBlk i idx alloc s = some ((bh,r),t)) : Spent s t false (openIndir bh r) := by
  unfold findBlk at h
  split at h
  · obtain ⟨r',u,ha,h⟩ := bind_some.mp h
    cases h
    cases r <;> exact addrSlot_spent ha
  · obtain ⟨-,h⟩ := kassert_bind.mp h
    obtain ⟨r',u,ha,h⟩ := bind_some.mp h
    have hsu := addrSlot_spent ha
    cases r' with
    | error e =>
      cases h
      exact hsu
    | ok a =>
      obtain ⟨-,h⟩ := kassert_bind.mp h
      obtain ⟨ok,v,hg,h⟩ := bind_some.mp h
      have huv := acquire_spent hg
      cases ok with
      | false =>
        cases h
        exact hsu.then huv
      | true =>
        simp only [unless_true] at h
        obtain ⟨r'',w,he,h⟩ := bind_some.mp h
        have hvw := entrySlot_spent he
        have hheld : w.held = (a,true) :: s.held := by
          rw [hvw.held,huv.held,hsu.held]
          rfl
        have hino := hsu.inodes.trans (huv.inodes.trans hvw.inodes)
        cases r'' with
        | error e =>
          cases h
          exact .of_held hino hheld
        | ok blk =>
          obtain ⟨_,x,hr,h⟩ := bind_some.mp h
          cases h
          obtain ⟨-,rfl⟩ := release_some hr
          refine .of_held hino ?_
          simp [hheld,openIndir]

def doubled (i ofs : Nat) (alloc : Bool) : Fs → Bool :=
  after (acquireInodeBh i) fun ok => if ok then
    after (findBlk i (ofs / bdevBlkSize) alloc) fun r => match r with
      | (some _,.ok blk) => after (bdevGetBlk blk) fun got _ => !got
      | _ => fun _ => false
  else fun _ => false

end MappedMemory.Sfs
