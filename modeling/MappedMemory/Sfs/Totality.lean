import MappedMemory.Sfs.Balance
import MappedMemory.Sfs.Reading

namespace MappedMemory.Sfs

open Bytes Routine

variable {s u : Fs} {i k b idx ofs : Nat} {l alloc : Bool} {c : Inode}

lemma grant_returns : Returns grant s := by
  obtain ⟨sb,disk,icache,held,supply⟩ := s
  cases supply <;> exact ⟨_,rfl⟩

lemma acquire_returns : Returns (acquire l b) s := by
  refine .bind ?_ fun ok u _ => ?_
  · by_cases h : (s.held.any fun r => r.1 == b) = true
    · exact ⟨(true,s),if_pos h⟩
    · obtain ⟨r,hr⟩ := grant_returns (s := s)
      exact ⟨r,(if_neg h).trans hr⟩
  · cases ok <;> exact ⟨_,rfl⟩

lemma release_returns (h : (b,l) ∈ s.held) : Returns (release l b) s := by
  refine ⟨((),{ s with held := s.held.erase (b,l) }),?_⟩
  rw [release,get_bind,bind_of_some (kassert_true (by simpa using h))]
  rfl

lemma inode_returns (h : s.icache i = some c) : Returns (inode i) s := ⟨_,inode_of h⟩

lemma kassert_returns {p : Bool} (h : p = true) : Returns (kassert p) s := ⟨_,kassert_true h⟩

lemma modify_returns {f : Fs → Fs} : Returns (modify f : FsM PUnit) s := ⟨_,rfl⟩

lemma bmapAllocElement_returns {n : Nat} : Returns (bmapAllocElement b n) s := by
  unfold bmapAllocElement Returns
  rw [get_bind]
  cases firstClear s.disk (bdevBlkSize * b) (n * 8) 0 <;> exact ⟨_,rfl⟩

lemma clearNewBlk_returns {index blk : Nat} (h : (b,true) ∈ s.held) : Returns (clearNewBlk b index blk) s := by
  refine acquire_returns.bind fun ok u ha => ?_
  obtain ⟨sup,-,-,rfl⟩ := acquire_some ha
  cases ok with
  | false =>
    refine Returns.bind ⟨_,rfl⟩ fun _ v hf => ?_
    obtain rfl := bmapFreeElement_some hf
    exact (release_returns (by exact h)).bind fun _ _ _ => returns_pure
  | true =>
    refine (release_returns (List.mem_cons_of_mem _ h)).bind fun _ v hr => ?_
    obtain ⟨-,rfl⟩ := release_some hr
    refine modify_returns.bind fun _ w hm => ?_
    obtain rfl := modify_some.mp hm
    refine (release_returns ?_).bind fun _ _ _ => returns_pure
    by_cases hb : blk = b
    · subst hb
      simpa using h
    · simp [hb]

lemma allocFrom_returns {n bmapBlk numBlks : Nat} : Returns (allocFrom n bmapBlk numBlks) s := by
  induction n generalizing s bmapBlk numBlks with
  | zero => exact returns_pure
  | succ n ih =>
    refine Returns.bind ⟨_,rfl⟩ fun s' v hv => acquire_returns.bind fun ok u ha => ?_
    obtain ⟨sup,-,-,rfl⟩ := acquire_some ha
    cases ok with
    | false => exact returns_pure
    | true =>
      refine bmapAllocElement_returns.bind fun r w hw => ?_
      rcases bmapAllocElement_some hw with ⟨rfl,rfl,-⟩ | ⟨index,rfl,-,-,rfl⟩
      · exact (release_returns List.mem_cons_self).bind fun _ _ _ => ih
      · exact clearNewBlk_returns List.mem_cons_self

lemma allocDataBlock_returns : Returns allocDataBlock s := Returns.bind ⟨_,rfl⟩ fun _ _ _ => allocFrom_returns

lemma sfsWriteInode_returns (hc : s.icache i = some c) : Returns (sfsWriteInode i) s := by
  refine (inode_returns hc).bind fun c' u hi => acquire_returns.bind fun ok v ha => ?_
  obtain ⟨sup,-,-,rfl⟩ := acquire_some ha
  cases ok with
  | false => exact returns_pure
  | true =>
    refine modify_returns.bind fun _ w hm => modify_returns.bind fun _ x hm' => ?_
    obtain rfl := modify_some.mp hm
    obtain rfl := modify_some.mp hm'
    exact (release_returns List.mem_cons_self).bind fun _ _ _ => returns_pure

lemma allocAddr_returns (hc : s.icache i = some c) : Returns (allocAddr i k) s := by
  refine allocDataBlock_returns.bind fun r u ha => ?_
  have hcu : u.icache i = some c := by rw [(allocDataBlock_some ha).1.icache,hc]
  cases r with
  | error e => exact returns_pure
  | ok blk =>
    refine (inode_returns hcu).bind fun c' v hi => modify_returns.bind fun _ w hm => ?_
    obtain rfl := modify_some.mp hm
    exact (sfsWriteInode_returns (Function.update_self i _ v.icache)).bind fun _ _ _ => returns_pure

lemma addrSlot_returns (hc : s.icache i = some c) : Returns (addrSlot i k alloc) s := by
  refine (inode_returns hc).bind fun c' u hi => ?_
  obtain ⟨hc',rfl⟩ := inode_some.mp hi
  split
  · exact returns_pure
  · cases alloc with
    | false => exact returns_pure
    | true => exact allocAddr_returns hc

lemma entrySlot_returns {a j : Nat} : Returns (entrySlot a j alloc) s := by
  refine Returns.bind ⟨_,rfl⟩ fun s' u hu => ?_
  split
  · exact returns_pure
  · cases alloc with
    | false => exact returns_pure
    | true =>
      refine allocDataBlock_returns.bind fun r v ha => ?_
      cases r with
      | error e => exact returns_pure
      | ok blk => exact modify_returns.bind fun _ _ _ => returns_pure

lemma findBlk_returns (hs : Owned s) (hpin : Pinned s i) (hc : s.icache i = some c) (hm : idx < maxBlks) :
    Returns (findBlk i idx alloc) s := by
  unfold findBlk
  split
  · exact (addrSlot_returns hc).bind fun _ _ _ => returns_pure
  · rename_i hd
    have hbd := dataSlot_bounded (i := i) hm
    rw [dataSlot,if_neg hd] at hbd
    refine (kassert_returns (decide_eq_true hbd.2.1)).bind fun _ u hu => ?_
    obtain ⟨-,rfl⟩ := kassert_some.mp hu
    refine (addrSlot_returns hc).bind fun r v ha => ?_
    obtain ⟨-,-,-,-,-,hok⟩ := addrSlot_some hpin hc hbd.2.1 ha
    cases r with
    | error e => exact returns_pure
    | ok a =>
      refine (kassert_returns (decide_eq_true (Nat.pos_of_ne_zero (hok a rfl).1))).bind fun _ w hw => ?_
      refine acquire_returns.bind fun ok x hg => ?_
      obtain ⟨sup,-,-,rfl⟩ := acquire_some hg
      cases ok with
      | false => exact returns_pure
      | true =>
        refine entrySlot_returns.bind fun r' y he => ?_
        have hheld := (entrySlot_spent he).held
        cases r' with
        | error e => exact returns_pure
        | ok blk =>
          refine (release_returns ?_).bind fun _ _ _ => returns_pure
          rw [hheld]
          exact List.mem_cons_self

lemma getDataFail_returns {bh : Option Nat} {e : SfsErr} (hbh : ∀ a, bh = some a → (a,true) ∈ s.held)
    (hi : (inumToBlk i,false) ∈ s.held) : Returns (getDataFail i bh e) s := by
  unfold getDataFail
  cases bh with
  | none => exact (release_returns hi).bind fun _ _ _ => returns_pure
  | some a =>
    refine (release_returns (hbh a rfl)).bind fun _ u hr => ?_
    obtain ⟨-,rfl⟩ := release_some hr
    refine (release_returns ?_).bind fun _ _ _ => returns_pure
    simp only
    rwa [List.mem_erase_of_ne (by simp)]

lemma getDataBlock_returns (hs : Owned s) (hc : s.icache i = some c) (hofs : ofs < sfsMaxFileSize)
    (hd : doubled i ofs alloc s = false) : Returns (getDataBlock i ofs alloc) s := by
  have hm : ofs / bdevBlkSize < maxBlks := Nat.div_lt_of_lt_mul hofs
  refine (kassert_returns (decide_eq_true hofs)).bind fun _ u hu => ?_
  obtain ⟨-,rfl⟩ := kassert_some.mp hu
  refine acquire_returns.bind fun ok v ha => ?_
  have hqv := acquire_quiet ha
  rw [doubled,acquireInodeBh,bdevGetBlkUnlocked,after_of_some ha] at hd
  cases ok with
  | false => exact returns_pure
  | true =>
    obtain ⟨sup,-,rfl⟩ := acquire_true ha
    refine (findBlk_returns (hs.quiet hqv) (by simp [Pinned]) hc hm).bind fun x w hf => ?_
    obtain ⟨bh,r⟩ := x
    have hheld := (findBlk_spent hf).held
    simp only [if_true] at hd
    rw [after_of_some hf] at hd
    cases r with
    | error e =>
      refine getDataFail_returns (fun a hbh => ?_) ?_
      · rw [hheld,hbh]
        simp [openIndir]
      · rw [hheld]
        simp
    | ok blk =>
      have hblk := ((findBlk_some (hs.quiet hqv) (by simp [Pinned]) hc hm hf).blk blk rfl).1
      refine (kassert_returns (decide_eq_true (Nat.pos_of_ne_zero hblk))).bind fun _ x hx => ?_
      obtain ⟨-,rfl⟩ := kassert_some.mp hx
      refine acquire_returns.bind fun ok y hg => ?_
      obtain ⟨sup',-,-,rfl⟩ := acquire_some hg
      cases ok with
      | false =>
        cases bh with
        | none =>
          change Returns (getDataFail i none .noMem) _
          refine getDataFail_returns (by simp) ?_
          rw [if_neg Bool.false_ne_true,hheld]
          simp [openIndir]
        | some a =>
          have htwice := after_of_some (d := fun got _ => !got) hg
          exact absurd (htwice.symm.trans hd) (by simp)
      | true => exact (release_returns (by simp [hheld,openIndir])).bind fun _ _ _ => returns_pure

end MappedMemory.Sfs
