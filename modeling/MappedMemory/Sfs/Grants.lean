import MappedMemory.Sfs.Allocation

namespace MappedMemory.Sfs

open Bytes Routine

variable {α β : Type} {i k b n : Nat} {l alloc : Bool}

def Fs.supplied (s : Fs) (sup : List Bool) : Fs := { s with supply := sup }

def Grants (f : FsM α) : Prop := ∀ s r t, s.supply = [] → f s = some (r,t) →
  t.supply = [] ∧ ∃ k, ∀ rest, f (s.supplied (List.replicate k true ++ rest)) = some (r,t.supplied rest)

lemma Grants.bind {x : FsM α} {f : α → FsM β} (hx : Grants x) (hf : ∀ a, Grants (f a)) : Grants (x >>= f) := by
  intro s r t hs h
  obtain ⟨a,u,hxs,hfu⟩ := bind_some.mp h
  obtain ⟨hu,m,hm⟩ := hx s a u hs hxs
  obtain ⟨ht,n,hn⟩ := hf a u r t hu hfu
  refine ⟨ht,m + n,fun rest => ?_⟩
  rw [List.replicate_add,List.append_assoc,bind_of_some (hm _)]
  exact hn rest

lemma Grants.get {f : Fs → FsM α} (hsame : ∀ s sup, f (s.supplied sup) = f s) (hf : ∀ s, Grants (f s)) :
    Grants ((MonadState.get : FsM Fs) >>= f) := by
  intro s r t hs h
  obtain ⟨ht,m,hm⟩ := hf s s r t hs h
  refine ⟨ht,m,fun rest => ?_⟩
  change f (s.supplied _) (s.supplied _) = _
  rw [hsame]
  exact hm rest

lemma Grants.of_none {f : FsM α} (h : ∀ s r t, f s = some (r,t) →
    ∀ sup, f (s.supplied sup) = some (r,t.supplied sup) ∧ t.supply = s.supply) : Grants f := fun s r t hs hf =>
  ⟨((h s r t hf []).2).trans hs,0,fun rest => (h s r t hf rest).1⟩

lemma grants_pure (a : α) : Grants (pure a : FsM α) := .of_none fun s r t h sup => by
  cases h
  exact ⟨rfl,rfl⟩

lemma grants_modify {f : Fs → Fs} (hf : ∀ s sup, f (s.supplied sup) = (f s).supplied sup)
    (hsup : ∀ s, (f s).supply = s.supply) : Grants (modify f : FsM PUnit) := .of_none fun s r t h sup => by
  obtain rfl := modify_some.mp h
  exact ⟨congrArg (fun s => some (PUnit.unit,s)) (hf s sup),hsup s⟩

lemma grants_modifyDisk (f : Memory → Memory) : Grants (modifyDisk f) := grants_modify (fun _ _ => rfl) fun _ => rfl

lemma grants_setInode {c : Option Inode} : Grants (setInode i c) := grants_modify (fun _ _ => rfl) fun _ => rfl

lemma grants_kassert {p : Bool} : Grants (kassert p) := .of_none fun s r t h sup => by
  obtain ⟨hp,rfl⟩ := kassert_some.mp h
  exact ⟨kassert_some.mpr ⟨hp,rfl⟩,rfl⟩

lemma grants_inode : Grants (inode i) := .of_none fun s r t h sup => by
  obtain ⟨hc,rfl⟩ := inode_some.mp h
  exact ⟨inode_some.mpr ⟨hc,rfl⟩,rfl⟩

lemma grants_fetch : Grants (fetch b) := by
  intro s r t hs h
  by_cases hh : (s.held.any fun r => r.1 == b) = true
  · obtain ⟨rfl,rfl⟩ : true = r ∧ s = t := by simpa [fetch,hh] using h
    exact ⟨hs,0,fun rest => if_pos hh⟩
  · obtain ⟨rfl,rfl⟩ : true = r ∧ s = t := by simpa [fetch,hh,grant,hs] using h
    exact ⟨hs,1,fun rest => if_neg hh⟩

lemma grants_acquire : Grants (acquire l b) := by
  refine grants_fetch.bind fun ok => ?_
  cases ok with
  | false => exact grants_pure _
  | true =>
    have hpush : Grants (modify fun s => { s with held := (b,l) :: s.held } : FsM PUnit) :=
      grants_modify (fun _ _ => rfl) fun _ => rfl
    exact hpush.bind fun _ => grants_pure _

lemma grants_release : Grants (release l b) :=
  .get (fun _ _ => rfl) fun _ => grants_kassert.bind fun _ => grants_modify (fun _ _ => rfl) fun _ => rfl

lemma grants_bmapAllocElement : Grants (bmapAllocElement b n) := .of_none fun s r t h sup => by
  unfold bmapAllocElement at h ⊢
  rw [get_bind] at h ⊢
  have hd : (s.supplied sup).disk = s.disk := rfl
  rw [hd]
  cases hf : firstClear s.disk (bdevBlkSize * b) (n * 8) 0 with
  | none =>
    simp only [hf] at h
    cases h
    exact ⟨rfl,rfl⟩
  | some index =>
    simp only [hf] at h
    obtain ⟨_,u,hset,hp⟩ := bind_some.mp h
    obtain rfl := set_some.mp hset
    cases hp
    exact ⟨rfl,rfl⟩

lemma grants_bmapFreeElement : Grants (bmapFreeElement b n) := .of_none fun s r t h sup => by
  obtain rfl := bmapFreeElement_some h
  exact ⟨rfl,rfl⟩

lemma grants_clearNewBlk {index : Nat} : Grants (clearNewBlk n index b) := by
  refine grants_acquire.bind fun ok => ?_
  cases ok with
  | false => exact grants_bmapFreeElement.bind fun _ => grants_release.bind fun _ => grants_pure _
  | true =>
    exact grants_release.bind fun _ => (grants_modifyDisk _).bind fun _ => grants_release.bind fun _ => grants_pure _

lemma grants_allocFrom {bmapBlk numBlks : Nat} : Grants (allocFrom n bmapBlk numBlks) := by
  induction n generalizing bmapBlk numBlks with
  | zero => exact grants_pure _
  | succ n ih =>
    refine .get (fun _ _ => rfl) fun s => grants_acquire.bind fun ok => ?_
    cases ok with
    | false => exact grants_pure _
    | true =>
      refine grants_bmapAllocElement.bind fun r => ?_
      cases r with
      | none => exact grants_release.bind fun _ => ih
      | some index => exact grants_clearNewBlk

lemma grants_allocDataBlock : Grants allocDataBlock := .get (fun _ _ => rfl) fun _ => grants_allocFrom

lemma grants_sfsWriteInode : Grants (sfsWriteInode i) := by
  refine grants_inode.bind fun c => grants_acquire.bind fun ok => ?_
  cases ok with
  | false => exact grants_pure _
  | true =>
    exact (grants_modifyDisk _).bind fun _ => grants_setInode.bind fun _ => grants_release.bind fun _ => grants_pure _

lemma grants_allocAddr : Grants (allocAddr i k) := by
  refine grants_allocDataBlock.bind fun r => ?_
  cases r with
  | error e => exact grants_pure _
  | ok blk =>
    exact grants_inode.bind fun c => grants_setInode.bind fun _ => grants_sfsWriteInode.bind fun _ => grants_pure _

lemma grants_addrSlot : Grants (addrSlot i k alloc) := by
  refine grants_inode.bind fun c => ?_
  split
  · exact grants_pure _
  · cases alloc with
    | false => exact grants_pure _
    | true => exact grants_allocAddr

lemma grants_entrySlot {a j : Nat} : Grants (entrySlot a j alloc) := by
  refine .get (fun _ _ => rfl) fun s => ?_
  split
  · exact grants_pure _
  · cases alloc with
    | false => exact grants_pure _
    | true =>
      refine grants_allocDataBlock.bind fun r => ?_
      cases r with
      | error e => exact grants_pure _
      | ok blk => exact (grants_modifyDisk _).bind fun _ => grants_pure _

lemma grants_findBlk {idx : Nat} : Grants (findBlk i idx alloc) := by
  unfold findBlk
  split
  · exact grants_addrSlot.bind fun _ => grants_pure _
  · refine grants_kassert.bind fun _ => grants_addrSlot.bind fun r => ?_
    cases r with
    | error e => exact grants_pure _
    | ok a =>
      refine grants_kassert.bind fun _ => grants_acquire.bind fun ok => ?_
      cases ok with
      | false => exact grants_pure _
      | true =>
        refine grants_entrySlot.bind fun r => ?_
        cases r with
        | error e => exact grants_pure _
        | ok blk => exact grants_release.bind fun _ => grants_pure _

lemma grants_getDataFail {bh : Option Nat} {e : SfsErr} : Grants (getDataFail i bh e) := by
  unfold getDataFail
  cases bh with
  | none => exact grants_release.bind fun _ => grants_pure _
  | some a => exact grants_release.bind fun _ => grants_release.bind fun _ => grants_pure _

lemma grants_getDataBlock {ofs : Nat} : Grants (getDataBlock i ofs alloc) := by
  refine grants_kassert.bind fun _ => grants_acquire.bind fun ok => ?_
  cases ok with
  | false => exact grants_pure _
  | true =>
    refine grants_findBlk.bind fun x => ?_
    obtain ⟨bh,r⟩ := x
    cases r with
    | error e => exact grants_getDataFail
    | ok blk =>
      refine grants_kassert.bind fun _ => grants_acquire.bind fun ok => ?_
      cases ok with
      | false => exact grants_getDataFail
      | true => exact grants_release.bind fun _ => grants_pure _

end MappedMemory.Sfs
