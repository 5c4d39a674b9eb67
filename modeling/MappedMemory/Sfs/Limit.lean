import MappedMemory.Sfs.Grants
import MappedMemory.Sfs.RoundTrip
import MappedMemory.Sfs.Space
import MappedMemory.Sfs.Totality

namespace MappedMemory.Sfs

open Bytes Routine

structure Written (i : Nat) (c : Inode) (buf : Memory) (ofs : Nat) (n : Nat) (t : Fs) : Prop where
  fits : n ≤ sfsMaxFileSize - ofs
  stored : ∀ x, x < n → content t.disk i (ofs + x) = buf x
  size : ∃ c', t.icache i = some c' ∧ c'.iSize = max c.iSize (ofs + n)

def WritesClean (i : Nat) (c : Inode) (buf : Memory) (count ofs : Nat) (s : Fs) : Prop :=
  ∃ n t, sfsWrite i buf count ofs s = some ((n,ofs + n),t) ∧ Written i c buf ofs n t

variable {s t u : Fs} {i b idx lo hi h H ofs total count n : Nat} {c : Inode} {buf : Memory} {P : Finset Slot}
  {e : SfsErr} {alloc : Bool}

lemma Full.spares (hf : Full s) : spares s = 0 := by
  refine Finset.card_eq_zero.mpr (Finset.filter_eq_empty_iff.mpr fun n hn => ?_)
  rw [hf n (Finset.mem_range.mp hn)]
  exact nofun

lemma slotsOf_slots (hh : hi ≤ maxBlks) : SlotsOf i (slotsOf i lo hi) := by
  intro p hp
  obtain ⟨idx,hidx,hp⟩ := Finset.mem_biUnion.mp hp
  exact slotPath_slots (lt_of_lt_of_le (Finset.mem_Ico.mp hidx).2 hh) p hp

lemma slotPath_subset (h1 : lo ≤ idx) (h2 : idx < hi) : slotPath i idx ⊆ slotsOf i lo hi :=
  Finset.subset_biUnion_of_mem (slotPath i) (Finset.mem_Ico.mpr ⟨h1,h2⟩)

lemma slotsOf_self : slotsOf i lo (lo + 1) = slotPath i lo := by
  rw [slotsOf,Nat.Ico_succ_singleton,Finset.singleton_biUnion]

lemma slotsOf_step (hlt : lo < hi) : slotsOf i lo hi = slotPath i lo ∪ slotsOf i (lo + 1) hi := by
  rw [slotsOf,slotsOf,← Finset.insert_Ico_add_one_left_eq_Ico hlt,Finset.biUnion_insert]

lemma slotsOf_nonempty (hlt : 0 < empties s (slotsOf i lo hi)) : lo < hi := by
  by_contra hge
  have hz : slotsOf i lo hi = ∅ := by rw [slotsOf,Finset.Ico_eq_empty (by omega),Finset.biUnion_empty]
  rw [hz] at hlt
  exact absurd hlt (by simp [empties])

lemma path_filled (hb : blkAt s.disk i idx ≠ 0) {p : Slot} (hp : p ∈ slotPath i idx) : slotVal s.disk p ≠ 0 := by
  obtain ⟨-,he⟩ := blkAt_eq_slotVal hb
  rw [he] at hb
  unfold slotPath at hp
  split at hp
  · rename_i hd
    rw [dataSlot,if_pos hd] at hb
    rwa [Finset.mem_singleton.mp hp]
  · rename_i hd
    rcases Finset.mem_insert.mp hp with rfl | hp
    · rw [dataSlot,if_neg hd] at hb
      intro hz
      exact hb (if_pos hz)
    · rwa [Finset.mem_singleton.mp hp]

lemma empties_path (hb : blkAt s.disk i idx ≠ 0) : empties s (slotPath i idx) = 0 :=
  Finset.card_eq_zero.mpr (Finset.filter_eq_empty_iff.mpr fun _ hp => path_filled hb hp)

lemma empties_step (hlt : lo < hi) (hb : blkAt s.disk i lo ≠ 0) :
    empties s (slotsOf i lo hi) = empties s (slotsOf i (lo + 1) hi) := by
  rw [slotsOf_step hlt,empties,empties,Finset.filter_union]
  rw [Finset.filter_eq_empty_iff.mpr fun _ hp => path_filled hb hp,Finset.empty_union]

lemma empties_mono {Q : Finset Slot} (hPQ : P ⊆ Q) : empties s P ≤ empties s Q :=
  Finset.card_le_card (Finset.filter_subset_filter _ hPQ)

lemma addrSlot_error {k : Nat} (hc : s.icache i = some c)
    (h : addrSlot i k true s = some (.error e,t)) : c.iAddrs k = 0 ∧ Quiet s t := by
  unfold addrSlot at h
  obtain ⟨c',hc',h⟩ := inode_bind.mp h
  cases hc.symm.trans hc'
  split at h
  · cases (pure_some.mp h).1
  · rename_i hz
    refine ⟨not_not.mp hz,?_⟩
    simp only [unless_true,allocAddr] at h
    obtain ⟨r',u,hal,h⟩ := bind_some.mp h
    obtain ⟨hsame,⟨e',rfl,hd,-⟩ | ⟨b,rfl,-,-⟩⟩ := allocDataBlock_some hal
    · cases h
      exact ⟨hsame.sb,hd,hsame.icache⟩
    · simp only [bind_some,pure_some] at h
      obtain ⟨_,_,-,_,_,-,_,_,-,he,-⟩ := h
      cases he

lemma entrySlot_error {a j : Nat} (h : entrySlot a j true s = some (.error e,t)) :
    word s.disk (bdevBlkSize * a + 4 * j) 4 = 0 ∧ Quiet s t := by
  unfold entrySlot at h
  rw [get_bind] at h
  split at h
  · cases (pure_some.mp h).1
  · rename_i hz
    refine ⟨not_not.mp hz,?_⟩
    simp only [unless_true] at h
    obtain ⟨r',u,hal,h⟩ := bind_some.mp h
    obtain ⟨hsame,⟨e',rfl,hd,-⟩ | ⟨b,rfl,-,-⟩⟩ := allocDataBlock_some hal
    · cases h
      exact ⟨hsame.sb,hd,hsame.icache⟩
    · simp only [bind_some,pure_some] at h
      obtain ⟨_,_,-,he,-⟩ := h
      cases he

lemma not_acquire_false {l : Bool} {x : Nat} (hsup : s.supply = []) : acquire l x s ≠ some (false,t) := fun h => by
  obtain ⟨sup,-,hmem,-⟩ := acquire_false h
  rw [hsup] at hmem
  cases hmem

lemma findBlk_error {bh : Option Nat} (hs : Owned s) (hpin : Pinned s i) (hc : s.icache i = some c)
    (hsup : s.supply = []) (hm : idx < maxBlks) (h : findBlk i idx true s = some ((bh,.error e),t)) :
    blkAt t.disk i idx = 0 := by
  unfold findBlk at h
  split at h
  · rename_i hd
    obtain ⟨r',u,ha,h⟩ := bind_some.mp h
    cases h
    obtain ⟨hz,hq⟩ := addrSlot_error hc ha
    rw [hq.disk,blkAt_of_addr hs hc hd,hz]
  · rename_i hd
    have hbd := dataSlot_bounded (i := i) hm
    rw [dataSlot,if_neg hd] at hbd
    obtain ⟨-,h⟩ := kassert_bind.mp h
    obtain ⟨r',u,ha,h⟩ := bind_some.mp h
    obtain ⟨-,hsub,hassign,-,-,hok⟩ := addrSlot_some hpin hc hbd.2.1 ha
    have hu := (hs.assign hassign).1
    cases r' with
    | error e' =>
      cases h
      obtain ⟨hz,hq⟩ := addrSlot_error hc ha
      rw [hs.addrs i c hc _ hbd.2.1] at hz
      rw [hq.disk,blkAt,if_pos hm,dataSlot,if_neg hd,slotVal,if_pos hz]
    | ok a =>
      obtain ⟨hnz,c',hc',hca⟩ := hok a rfl
      have husup : u.supply = [] := List.subset_nil.mp (hsup ▸ hsub)
      obtain ⟨-,h⟩ := kassert_bind.mp h
      obtain ⟨ok,v,hg,h⟩ := bind_some.mp h
      cases ok with
      | false => exact absurd hg (not_acquire_false husup)
      | true =>
        have hqv := acquire_quiet hg
        simp only [unless_true] at h
        obtain ⟨r'',w,he,h⟩ := bind_some.mp h
        cases r'' with
        | error e' =>
          cases h
          obtain ⟨hz,hq⟩ := entrySlot_error he
          subst hca
          rw [hq.disk,hqv.disk,blkAt_of_entry hu hc' hd hm hnz,← hqv.disk,hz]
        | ok blk =>
          simp only [bind_some,pure_some] at h
          obtain ⟨_,_,-,he,-⟩ := h
          cases he

lemma of_doubled (h : doubled i ofs alloc s = true) : ∃ u w x a blk, acquire false (inumToBlk i) s = some (true,u) ∧
      findBlk i (ofs / bdevBlkSize) alloc u = some ((some a,.ok blk),w) ∧ acquire true blk w = some (false,x) := by
  obtain ⟨ok,u,ha,h⟩ := of_after h
  cases ok with
  | false => cases h
  | true =>
    obtain ⟨⟨bh,r⟩,w,hf,h⟩ := of_after h
    cases r with
    | error e => cases bh <;> cases h
    | ok blk =>
      cases bh with
      | none => cases h
      | some a =>
        obtain ⟨got,x,hg,h⟩ := of_after h
        cases got with
        | true => cases h
        | false => exact ⟨u,w,x,a,blk,ha,hf,hg⟩

lemma doubled_reliable (hs : Owned s) (hc : s.icache i = some c) (hsup : s.supply = [])
    (hofs : ofs < sfsMaxFileSize) : doubled i ofs alloc s = false := by
  by_contra hd
  have hm : ofs / bdevBlkSize < maxBlks := Nat.div_lt_of_lt_mul hofs
  obtain ⟨u,w,x,a,blk,ha,hf,hg⟩ := of_doubled (Bool.eq_true_of_not_eq_false hd)
  have hqu := acquire_quiet ha
  obtain ⟨sup,hsub,rfl⟩ := acquire_true ha
  have hfound := findBlk_some (hs.quiet hqu) (by simp [Pinned]) hc hm hf
  have hw : w.supply = [] := List.subset_nil.mp (hsup ▸ List.Subset.trans hfound.supply hsub)
  exact not_acquire_false hw hg

lemma doubled_direct (hidx : ofs / bdevBlkSize < sfsNdirect) : doubled i ofs alloc s = false := by
  by_contra hd
  obtain ⟨u,w,x,a,blk,-,hf,-⟩ := of_doubled (Bool.eq_true_of_not_eq_false hd)
  rw [findBlk,if_pos hidx] at hf
  obtain ⟨_,_,-,hp⟩ := bind_some.mp hf
  cases (pure_some.mp hp).1

section
variable (hs : Owned s) (hc : s.icache i = some c)
include hs hc

lemma doubled_short (hofs : ofs < sfsMaxFileSize)
    (hshort : spares s < empties s (slotPath i (ofs / bdevBlkSize))) : doubled i ofs true s = false := by
  by_contra hd
  have hm : ofs / bdevBlkSize < maxBlks := Nat.div_lt_of_lt_mul hofs
  obtain ⟨u,w,x,a,blk,ha,hf,-⟩ := of_doubled (Bool.eq_true_of_not_eq_false hd)
  have hqu := acquire_quiet ha
  obtain ⟨sup,-,rfl⟩ := acquire_true ha
  have hfound := findBlk_some (hs.quiet hqu) (by simp [Pinned]) hc hm hf
  obtain ⟨hnz,hblk,-⟩ := hfound.blk blk rfl
  have hpaid : Paid (slotPath i (ofs / bdevBlkSize)) s w := (Paid.of_same hqu.sb hqu.disk).trans
    (findBlk_paid (hs.quiet hqu) (by simp [Pinned]) hc (slotPath_slots hm) (Finset.Subset.refl _) hf)
  have hz := empties_path (hblk ▸ hnz)
  simp only [Paid] at hpaid
  omega

lemma getDataBlock_error (hsup : s.supply = []) (h : getDataBlock i ofs true s = some (.error e,t)) :
    spares s < empties s (slotPath i (ofs / bdevBlkSize)) := by
  have hgot := getDataBlock_some hs hc h
  have hm : ofs / bdevBlkSize < maxBlks := Nat.div_lt_of_lt_mul hgot.bound
  have hpaid := getDataBlock_paid hs hc (slotPath_slots hm) (Finset.Subset.refl _) h
  have hfull : spares t = 0 := by
    rcases hgot.starved e rfl rfl with hno | hf
    · rw [hsup] at hno
      cases hno
    · exact hf.spares
  have hzero : blkAt t.disk i (ofs / bdevBlkSize) = 0 := by
    unfold getDataBlock at h
    obtain ⟨-,h⟩ := kassert_bind.mp h
    obtain ⟨ok,u,ha,h⟩ := bind_some.mp h
    cases ok with
    | false => exact absurd ha (not_acquire_false hsup)
    | true =>
      have hqu := acquire_quiet ha
      obtain ⟨sup,hsub,rfl⟩ := acquire_true ha
      have hsup' : sup = [] := List.subset_nil.mp (hsup ▸ hsub)
      simp only [unless_true] at h
      obtain ⟨⟨bh,r⟩,v,hf,h⟩ := bind_some.mp h
      cases r with
      | error e' =>
        obtain ⟨-,hq,-,-⟩ := getDataFail_some h
        rw [hq.disk]
        exact findBlk_error (hs.quiet hqu) (by simp [Pinned]) hc hsup' hm hf
      | ok blk =>
        have hfound := findBlk_some (hs.quiet hqu) (by simp [Pinned]) hc hm hf
        have hv : v.supply = [] := List.subset_nil.mp (hsup' ▸ hfound.supply)
        obtain ⟨-,h⟩ := kassert_bind.mp h
        obtain ⟨ok,w,hg,h⟩ := bind_some.mp h
        cases ok with
        | false => exact absurd hg (not_acquire_false hv)
        | true =>
          simp only [unless_true,bind_some,pure_some] at h
          obtain ⟨_,_,-,he,-⟩ := h
          cases he
  have hpos : 0 < empties t (slotPath i (ofs / bdevBlkSize)) := by
    refine Finset.card_pos.mpr ⟨_,Finset.mem_filter.mpr ⟨mem_slotPath i _,?_⟩⟩
    rwa [blkAt,if_pos hm] at hzero
  simp only [Paid] at hpaid
  omega

lemma getDataBlock_found (hsup : s.supply = [])
    (hofs : ofs < sfsMaxFileSize) (hroom : empties s (slotPath i (ofs / bdevBlkSize)) ≤ spares s) :
    ∃ b t, getDataBlock i ofs true s = some (.ok b,t) := by
  have hret : Returns (getDataBlock i ofs true) s := getDataBlock_returns hs hc hofs (doubled_reliable hs hc hsup hofs)
  obtain ⟨⟨r,t⟩,h⟩ := hret
  cases r with
  | error e => exact absurd (getDataBlock_error hs hc hsup h) (by omega)
  | ok b => exact ⟨b,t,h⟩

end

section Loop

variable {l alloc : Bool} {blk : Nat}

def chunkLen (count ofs total : Nat) : Nat := min (bdevBlkSize - ofs % bdevBlkSize) (count - total)

def turnEnd (buf : Memory) (count ofs total b : Nat) (s u : Fs) : Fs :=
  { u with disk := fill u.disk (bdevBlkSize * b + ofs % bdevBlkSize) (chunkLen count ofs total) fun k => buf (total + k)
           held := s.held }

lemma writeLoop_turn (hlt : total < count) (hg : getDataBlock i ofs true s = some (.ok b,u))
    (hh : u.held = (b,true) :: s.held) (n : Nat) : writeLoop i buf count (n + 1) ofs total s =
      writeLoop i buf count n (ofs + chunkLen count ofs total) (total + chunkLen count ofs total)
        (turnEnd buf count ofs total b s u) := by
  rw [writeLoop,if_pos hlt,bind_of_some hg]
  simp only [modifyDisk,modify_bind]
  exact bind_of_some (release_ok hh)

structure Turned (i ofs : Nat) (s v : Fs) : Prop where
  owned : Owned v
  cached : ∃ c, v.icache i = some c
  held : v.held = s.held
  supply : v.supply ⊆ s.supply
  paid : ∀ P, SlotsOf i P → slotPath i (ofs / bdevBlkSize) ⊆ P → Paid P s v
  blk : blkAt v.disk i (ofs / bdevBlkSize) ≠ 0

lemma getDataBlock_turned (buf : Memory) (hs : Owned s) (hc : s.icache i = some c) (hlt : total < count)
    (hg : getDataBlock i ofs true s = some (.ok b,u)) :
    u.held = (b,true) :: s.held ∧ Turned i ofs s (turnEnd buf count ofs total b s u) := by
  have hgot := getDataBlock_some hs hc hg
  obtain ⟨hnz,hb,hh⟩ := hgot.blk b rfl
  obtain ⟨ho,he⟩ := hs.grow hgot.grow
  have ha : Allocated u i := (he.allocated i).mpr (hs.cached i c hc)
  have hk : ofs % bdevBlkSize + chunkLen count ofs total ≤ 512 := by
    simp only [chunkLen,bdevBlkSize]
    omega
  obtain ⟨f,hf⟩ : ∃ f : Nat → Byte, ∀ k, buf (total + k) = f (ofs + k) :=
    ⟨fun x => buf (total + (x - ofs)),fun k => by simp⟩
  have hsb : (turnEnd buf count ofs total b s u).sb = u.sb := rfl
  have hdisk : (turnEnd buf count ofs total b s u).disk = fill u.disk (bdevBlkSize * b + ofs % bdevBlkSize)
      (chunkLen count ofs total) fun k => f (ofs + k) := by simp only [turnEnd,hf]
  have hw := Wrote.chunk ho ha hb hnz hk hsb hdisk rfl
  have hlow := chunk_lowSame ho ha hb hnz hk hsb hdisk
  refine ⟨hh,hw.owned,?_,rfl,hgot.supply,fun P hP hpath => ?_,hw.mapped _ (hb ▸ hnz)⟩
  · obtain ⟨ad,d,hc'⟩ := he.own c hc
    exact ⟨_,hc'⟩
  · refine (getDataBlock_paid hs hc hP hpath hg).trans ?_
    have hbits : spares (turnEnd buf count ofs total b s u) = spares u := by
      rw [spares,spares]
      refine congrArg Finset.card (Finset.filter_congr fun n hn => ?_)
      have hn' : n < u.sb.sSize := by
        have := Finset.mem_range.mp hn
        change n < u.sb.sSize / 8 * 8 at this
        omega
      rw [hsb,dataBit_congr hn' fun x _ hx => hlow.low x hx]
    have hslots : empties (turnEnd buf count ofs total b s u) P = empties u P := by
      refine congrArg Finset.card (Finset.filter_congr fun p hp => ?_)
      rw [chunk_slotVal ho ha hb hnz hk hsb hdisk ((hP p hp).1 ▸ ha) (hP p hp).2]
    rw [Paid,hbits,hslots]

lemma chunkLen_cases (ofs : Nat) (hlt : total < count) :
    0 < chunkLen count ofs total ∧ chunkLen count ofs total ≤ count - total ∧
    ((ofs + chunkLen count ofs total) / bdevBlkSize = ofs / bdevBlkSize ∨
      (ofs + chunkLen count ofs total) / bdevBlkSize = ofs / bdevBlkSize + 1) := by
  simp only [chunkLen,bdevBlkSize]
  omega

lemma Turned.short (ht : Turned i ofs s u) (hh : h ≤ maxBlks) (hlt : total < count)
    (hshort : spares s < empties s (slotsOf i (ofs / bdevBlkSize) h)) :
    spares u < empties u (slotsOf i ((ofs + chunkLen count ofs total) / bdevBlkSize) h) := by
  have hidx := slotsOf_nonempty (Nat.zero_lt_of_lt hshort)
  have hp := ht.paid _ (slotsOf_slots hh) (slotPath_subset (le_refl _) hidx)
  have hs := empties_step hidx ht.blk
  simp only [Paid] at hp
  rcases (chunkLen_cases ofs hlt).2.2 with hsame | hnext
  · rw [hsame]
    omega
  · rw [hnext]
    omega

lemma writeLoop_returns (hs : Owned s) (hc : s.icache i = some c) (hh : h ≤ maxBlks)
    (hend : ofs + (count - total) ≤ bdevBlkSize * h ∨ spares s < empties s (slotsOf i (ofs / bdevBlkSize) h))
    (hsafe : s.supply = [] ∨ h ≤ sfsNdirect ∨ (spares s < empties s (slotsOf i (ofs / bdevBlkSize) h) ∧
      h ≤ max sfsNdirect (ofs / bdevBlkSize) + 1)) : Returns (writeLoop i buf count n ofs total) s := by
  induction n generalizing s c ofs total with
  | zero => exact returns_pure
  | succ n ih =>
    by_cases hlt : total < count
    · have hidx : ofs / bdevBlkSize < h := by
        rcases hend with he | he
        · exact Nat.div_lt_of_lt_mul (by omega)
        · exact slotsOf_nonempty (Nat.zero_lt_of_lt he)
      have hofs : ofs < sfsMaxFileSize := by
        have hm := lt_of_lt_of_le hidx hh
        exact (Nat.div_lt_iff_lt_mul (by decide)).mp hm
      have hnd : doubled i ofs true s = false := by
        rcases hsafe with hsup | hdir | ⟨hshort,hnear⟩
        · exact doubled_reliable hs hc hsup hofs
        · exact doubled_direct (by omega)
        · by_cases hdir : ofs / bdevBlkSize < sfsNdirect
          · exact doubled_direct hdir
          · obtain rfl : h = ofs / bdevBlkSize + 1 := by omega
            rw [slotsOf_self] at hshort
            exact doubled_short hs hc hofs hshort
      obtain ⟨⟨r,u⟩,hg⟩ : Returns (getDataBlock i ofs true) s := getDataBlock_returns hs hc hofs hnd
      cases r with
      | error e =>
        unfold Returns
        rw [writeLoop,if_pos hlt,bind_of_some hg]
        exact returns_pure
      | ok b =>
        obtain ⟨hheld,ht⟩ := getDataBlock_turned buf hs hc hlt hg
        obtain ⟨c',hc'⟩ := ht.cached
        obtain ⟨hpos,hle,hnext⟩ := chunkLen_cases ofs hlt
        have hshort := fun hsh => ht.short hh hlt hsh
        unfold Returns
        rw [writeLoop_turn hlt hg hheld]
        refine ih ht.owned hc' (hend.imp (fun _ => by omega) hshort) ?_
        rcases hsafe with hsup | hdir | ⟨hsh,hnear⟩
        · exact .inl (List.subset_nil.mp (hsup ▸ ht.supply))
        · exact .inr (.inl hdir)
        · exact .inr (.inr ⟨hshort hsh,by omega⟩)
    · rw [writeLoop,if_neg hlt]
      exact returns_pure

structure Reaches (i : Nat) (buf : Memory) (count ofs total ofs' : Nat) (s v : Fs) (m k : Nat) : Prop where
  owned : Owned v
  cached : ∃ c, v.icache i = some c
  supply : v.supply = []
  held : v.held = s.held
  turns : m ≤ ofs' - ofs
  loop : ∀ n, writeLoop i buf count (n + m) ofs total s = writeLoop i buf count n ofs' (total + (ofs' - ofs)) v
  asked : ∀ n rest, writeLoop i buf count (n + m) ofs total (s.supplied (List.replicate k true ++ rest)) =
    writeLoop i buf count n ofs' (total + (ofs' - ofs)) (v.supplied rest)

lemma turn_reliable (buf : Memory) (hs : Owned s) (hc : s.icache i = some c) (hsup : s.supply = []) (hH : H ≤ maxBlks)
    (hroom : empties s (slotsOf i (ofs / bdevBlkSize) H) ≤ spares s) (hidx : ofs / bdevBlkSize < H)
    (hfar : bdevBlkSize * (ofs / bdevBlkSize + 1) ≤ ofs + (count - total)) :
    ∃ v k, Reaches i buf count ofs total (bdevBlkSize * (ofs / bdevBlkSize + 1)) s v 1 k ∧
      empties v (slotsOf i (ofs / bdevBlkSize + 1) H) ≤ spares v := by
  have hlen : chunkLen count ofs total = bdevBlkSize * (ofs / bdevBlkSize + 1) - ofs ∧ total < count ∧
      ofs + (bdevBlkSize * (ofs / bdevBlkSize + 1) - ofs) = bdevBlkSize * (ofs / bdevBlkSize + 1) := by
    simp only [chunkLen,bdevBlkSize] at hfar ⊢
    omega
  obtain ⟨hlen,hlt,hofs'⟩ := hlen
  have hpos : 1 ≤ bdevBlkSize * (ofs / bdevBlkSize + 1) - ofs := hlen ▸ (chunkLen_cases ofs hlt).1
  have hofs : ofs < sfsMaxFileSize := (Nat.div_lt_iff_lt_mul (by decide)).mp (lt_of_lt_of_le hidx hH)
  have hpath : slotPath i (ofs / bdevBlkSize) ⊆ slotsOf i (ofs / bdevBlkSize) H := slotPath_subset (le_refl _) hidx
  obtain ⟨b,u,hg⟩ := getDataBlock_found hs hc hsup hofs ((empties_mono hpath).trans hroom)
  obtain ⟨husup,k,hk⟩ := grants_getDataBlock s _ u hsup hg
  obtain ⟨hheld,ht⟩ := getDataBlock_turned buf hs hc hlt hg
  refine ⟨turnEnd buf count ofs total b s u,k,⟨ht.owned,ht.cached,husup,rfl,hpos,fun n => ?_,fun n rest => ?_⟩,?_⟩
  · rw [writeLoop_turn hlt hg hheld,hlen,hofs']
  · rw [writeLoop_turn hlt (hk rest) hheld,hlen,hofs']
    rfl
  · have hp := ht.paid _ (slotsOf_slots hH) hpath
    have hstep := empties_step hidx ht.blk
    simp only [Paid] at hp
    omega

lemma Reaches.trans {mid far m k m' k' : Nat} (h : Reaches i buf count ofs total mid s u m k)
    (h' : Reaches i buf count mid (total + (mid - ofs)) far u t m' k') (h1 : ofs ≤ mid) (h2 : mid ≤ far) :
    Reaches i buf count ofs total far s t (m' + m) (k + k') where
  owned := h'.owned
  cached := h'.cached
  supply := h'.supply
  held := h'.held.trans h.held
  turns := by
    have h3 := h.turns
    have h4 := h'.turns
    omega
  loop n := by
    rw [← Nat.add_assoc,h.loop,h'.loop,show total + (mid - ofs) + (far - mid) = total + (far - ofs) by omega]
  asked n rest := by
    rw [List.replicate_add,List.append_assoc,← Nat.add_assoc,h.asked,h'.asked,
      show total + (mid - ofs) + (far - mid) = total + (far - ofs) by omega]

lemma writeLoop_reaches (buf : Memory) (hs : Owned s) (hc : s.icache i = some c) (hsup : s.supply = []) (hH : H ≤ maxBlks)
    (hh : h ≤ H) (hroom : empties s (slotsOf i (ofs / bdevBlkSize) H) ≤ spares s)
    (hidx : ofs / bdevBlkSize < h) (hfar : bdevBlkSize * h ≤ ofs + (count - total)) :
    ∃ v m k, Reaches i buf count ofs total (bdevBlkSize * h) s v m k ∧ empties v (slotsOf i h H) ≤ spares v := by
  obtain ⟨d,hd⟩ : ∃ d, ofs / bdevBlkSize + 1 + d = h := ⟨h - ofs / bdevBlkSize - 1,by omega⟩
  induction d generalizing s c ofs total with
  | zero =>
    obtain rfl : ofs / bdevBlkSize + 1 = h := hd
    obtain ⟨v,k,hturn,hroom'⟩ := turn_reliable buf hs hc hsup hH hroom (by omega) hfar
    exact ⟨v,1,k,hturn,hroom'⟩
  | succ d ih =>
    have hpos : ofs < bdevBlkSize * (ofs / bdevBlkSize + 1) := Nat.lt_mul_div_succ ofs (by decide)
    have hle : bdevBlkSize * (ofs / bdevBlkSize + 1) + bdevBlkSize * (d + 1) = bdevBlkSize * h := by
      rw [← Nat.mul_add,hd]
    obtain ⟨v,k,hturn,hroom'⟩ := turn_reliable buf hs hc hsup hH hroom (by omega)
      (show bdevBlkSize * (ofs / bdevBlkSize + 1) ≤ ofs + (count - total) by omega)
    obtain ⟨c',hc'⟩ := hturn.cached
    have hnext : bdevBlkSize * (ofs / bdevBlkSize + 1) / bdevBlkSize = ofs / bdevBlkSize + 1 :=
      Nat.mul_div_cancel_left _ (by decide)
    have hfar' : bdevBlkSize * h ≤ bdevBlkSize * (ofs / bdevBlkSize + 1) +
        (count - (total + (bdevBlkSize * (ofs / bdevBlkSize + 1) - ofs))) := by omega
    obtain ⟨w,m,k',hrest,hroomw⟩ := ih hturn.owned hc' hturn.supply (by rw [hnext]; exact hroom') (by omega) hfar'
      (by omega)
    exact ⟨w,m + 1,k + k',hturn.trans hrest (by omega) (by omega),hroomw⟩

lemma writeLoop_past (hofs : sfsMaxFileSize ≤ ofs) (hlt : total < count) :
    writeLoop i buf count (n + 1) ofs total s = none := by
  have hg : getDataBlock i ofs true s = none := by
    have hk : kassert (ofs < sfsMaxFileSize) s = none := if_neg (by simpa using hofs)
    rw [getDataBlock]
    exact bind_of_none hk
  rw [writeLoop,if_pos hlt]
  exact bind_of_none hg

lemma acquire_refused {rest : List Bool} (hh : (s.held.any fun r => r.1 == b) = false)
    (hsup : s.supply = false :: rest) : acquire l b s = some (false,s.supplied rest) := by
  have hfetch : fetch b s = some (false,s.supplied rest) := by
    rw [fetch,hh]
    simp only [Bool.false_eq_true,if_false,grant,hsup]
    rfl
  rw [acquire,bind_of_some hfetch]
  rfl

lemma release_none (h : (b,l) ∉ s.held) : release l b s = none := by
  rw [release,get_bind]
  exact bind_of_none (if_neg (by simpa using h))

lemma getDataBlock_none {a : Nat} {w x : Fs} (hofs : ofs < sfsMaxFileSize) (hblk : blk ≠ 0)
    (ha : acquireInodeBh i s = some (true,u)) (hf : findBlk i (ofs / bdevBlkSize) alloc u = some ((some a,.ok blk),w))
    (hg : bdevGetBlk blk w = some (false,x)) (hnot : (a,true) ∉ x.held) : getDataBlock i ofs alloc s = none := by
  rw [getDataBlock,bind_of_some (kassert_true (decide_eq_true hofs)),bind_of_some ha]
  simp only [unless_true]
  rw [bind_of_some hf]
  simp only
  rw [bind_of_some (kassert_true (decide_eq_true (Nat.pos_of_ne_zero hblk))),bind_of_some hg]
  exact bind_of_none (release_none hnot)

lemma findBlk_indirect {bh : Option Nat} (hidx : ¬idx < sfsNdirect)
    (h : findBlk i idx alloc s = some ((bh,.ok blk),t)) : ∃ a, bh = some a := by
  rw [findBlk,if_neg hidx] at h
  obtain ⟨-,h⟩ := kassert_bind.mp h
  obtain ⟨r,u,-,h⟩ := bind_some.mp h
  cases r with
  | error e => cases (pure_some.mp h).1
  | ok a =>
    obtain ⟨-,h⟩ := kassert_bind.mp h
    obtain ⟨ok,v,-,h⟩ := bind_some.mp h
    cases ok with
    | false => cases (pure_some.mp h).1
    | true =>
      simp only [unless_true] at h
      obtain ⟨r',w,-,h⟩ := bind_some.mp h
      cases r' with
      | error e => cases (pure_some.mp h).1
      | ok blk' =>
        simp only [bind_some,pure_some] at h
        obtain ⟨_,_,-,he,-⟩ := h
        cases he
        exact ⟨a,rfl⟩

lemma Used.ne_inumToBlk (hu : Used s b) (ha : Allocated s i) : b ≠ inumToBlk i := by
  have hl := s.sb.layout
  obtain ⟨h1,h2,-⟩ := ha
  have hlow := hu.1
  simp only [inumToBlk,sfsInodeTableBlk,bdevBlkSize,sizeofSfsInode]
  omega

lemma getDataBlock_doubles (hs : Owned s) (hc : s.icache i = some c) (hsup : s.supply = []) (hheld : s.held = [])
    (hofs : ofs < sfsMaxFileSize) (hidx : ¬ofs / bdevBlkSize < sfsNdirect)
    (hroom : empties s (slotPath i (ofs / bdevBlkSize)) ≤ spares s) :
    ∃ k, getDataBlock i ofs true (s.supplied (List.replicate k true ++ [false])) = none := by
  have hm : ofs / bdevBlkSize < maxBlks := Nat.div_lt_of_lt_mul hofs
  have ha := acquire_ok (l := false) (b := inumToBlk i) hsup
  obtain ⟨husup,k1,hk1⟩ := grants_acquire s _ _ hsup ha
  have hqu := acquire_quiet ha
  obtain ⟨⟨⟨bh,r⟩,w⟩,hf⟩ : Returns (findBlk i (ofs / bdevBlkSize) true) { s with held := (inumToBlk i,false) :: s.held } :=
    findBlk_returns (hs.quiet hqu) (by simp [Pinned]) hc hm
  cases r with
  | error e =>
    obtain ⟨b,t,hfound⟩ := getDataBlock_found hs hc hsup hofs hroom
    have ha' : acquireInodeBh i s = some (true,{ s with held := (inumToBlk i,false) :: s.held }) := ha
    rw [getDataBlock,bind_of_some (kassert_true (decide_eq_true hofs)),bind_of_some ha'] at hfound
    simp only [unless_true] at hfound
    rw [bind_of_some hf] at hfound
    cases (getDataFail_some hfound).1
  | ok blk =>
    obtain ⟨a,rfl⟩ := findBlk_indirect hidx hf
    obtain ⟨-,k2,hk2⟩ := grants_findBlk _ _ w husup hf
    have hfound := findBlk_some (hs.quiet hqu) (by simp [Pinned]) hc hm hf
    obtain ⟨hnz,hblk,hwh⟩ := hfound.blk blk rfl
    have hw := (hs.quiet hqu).grow hfound.grow
    have hal : Allocated w i := (hw.2.allocated i).mpr (hs.cached i c hc)
    have hused := hblk ▸ hw.1.used_blkAt hal (hblk ▸ hnz)
    refine ⟨k1 + k2,?_⟩
    rw [List.replicate_add,List.append_assoc]
    have hg : bdevGetBlk blk (w.supplied [false]) = some (false,(w.supplied [false]).supplied []) := by
      have hne := (hused.ne_inumToBlk hal).symm
      exact acquire_refused (by simp [Fs.supplied,hwh,hheld,hne]) rfl
    refine getDataBlock_none hofs hnz (hk1 _) (hk2 _) hg ?_
    simp [Fs.supplied,hwh,hheld]

lemma writeLoop_limit (hs : Owned s) (hc : s.icache i = some c) (hsup : s.supply = []) (hpos : 0 < count)
    (hfar : sfsMaxFileSize < ofs + count) (hroom : empties s (slotsOf i (ofs / bdevBlkSize) maxBlks) ≤ spares s) :
    writeLoop i buf count count ofs 0 s = none := by
  have hmax : bdevBlkSize * maxBlks = sfsMaxFileSize := Nat.mul_comm _ _
  by_cases hofs : sfsMaxFileSize ≤ ofs
  · obtain ⟨n,rfl⟩ : ∃ n, count = n + 1 := ⟨count - 1,by omega⟩
    exact writeLoop_past hofs hpos
  · have hidx : ofs / bdevBlkSize < maxBlks := Nat.div_lt_of_lt_mul (by omega)
    obtain ⟨v,m,k,hreach,-⟩ := writeLoop_reaches buf hs hc hsup (le_refl _) (le_refl _) hroom hidx
      (show bdevBlkSize * maxBlks ≤ ofs + (count - 0) by omega)
    have hm := hreach.turns
    obtain ⟨n,hn⟩ : ∃ n, count = n + 1 + m := ⟨count - m - 1,by omega⟩
    have hloop := hreach.loop (n + 1)
    rw [← hn] at hloop
    rw [hloop]
    exact writeLoop_past (by omega) (by omega)

lemma writeLoop_doubles (buf : Memory) (hs : Owned s) (hc : s.icache i = some c) (hsup : s.supply = [])
    (hheld : s.held = []) (hpos : 0 < count) (hfar : sfsNdirect * bdevBlkSize < ofs + count)
    (hroom : empties s (slotsOf i (ofs / bdevBlkSize) (min maxBlks (max sfsNdirect (ofs / bdevBlkSize) + 1))) ≤ spares s) :
    ∃ sup, writeLoop i buf count count ofs 0 (s.supplied sup) = none := by
  by_cases hofs : sfsMaxFileSize ≤ ofs
  · obtain ⟨n,rfl⟩ : ∃ n, count = n + 1 := ⟨count - 1,by omega⟩
    exact ⟨[],writeLoop_past hofs hpos⟩
  have hidx : ofs / bdevBlkSize < maxBlks := Nat.div_lt_of_lt_mul (by rw [Nat.mul_comm]; exact Nat.not_le.mp hofs)
  by_cases hdir : ofs / bdevBlkSize < sfsNdirect
  · have hbound : min maxBlks (max sfsNdirect (ofs / bdevBlkSize) + 1) = sfsNdirect + 1 := by
      rw [max_eq_left hdir.le]
      decide
    rw [hbound] at hroom
    obtain ⟨v,m,k,hreach,hroomv⟩ := writeLoop_reaches buf hs hc hsup (show sfsNdirect + 1 ≤ maxBlks by decide)
      (Nat.le_succ _) hroom hdir (show bdevBlkSize * sfsNdirect ≤ ofs + (count - 0) by rw [Nat.mul_comm]; omega)
    obtain ⟨c',hc'⟩ := hreach.cached
    have hblk : bdevBlkSize * sfsNdirect / bdevBlkSize = sfsNdirect := Nat.mul_div_cancel_left _ (by decide)
    rw [slotsOf_self] at hroomv
    obtain ⟨k',hk'⟩ := getDataBlock_doubles hreach.owned hc' hreach.supply (hreach.held.trans hheld)
      (show bdevBlkSize * sfsNdirect < sfsMaxFileSize by decide) (by rw [hblk]; exact lt_irrefl _) (by rwa [hblk])
    have hm := hreach.turns
    have hcomm := Nat.mul_comm sfsNdirect bdevBlkSize
    obtain ⟨n,hn⟩ : ∃ n, count = n + 1 + m := ⟨count - m - 1,by omega⟩
    refine ⟨List.replicate k true ++ (List.replicate k' true ++ [false]),?_⟩
    have hloop := hreach.asked (n + 1) (List.replicate k' true ++ [false])
    rw [← hn] at hloop
    rw [hloop,writeLoop,if_pos (by omega)]
    exact bind_of_none hk'
  · have hbound : min maxBlks (max sfsNdirect (ofs / bdevBlkSize) + 1) = ofs / bdevBlkSize + 1 := by omega
    rw [hbound,slotsOf_self] at hroom
    obtain ⟨k,hk⟩ := getDataBlock_doubles hs hc hsup hheld (Nat.not_le.mp hofs) hdir hroom
    obtain ⟨n,rfl⟩ : ∃ n, count = n + 1 := ⟨count - 1,by omega⟩
    refine ⟨List.replicate k true ++ [false],?_⟩
    rw [writeLoop,if_pos hpos]
    exact bind_of_none hk

lemma bind_returns_iff {α β : Type} {x : FsM α} {f : α → FsM β} (hf : ∀ a u, x s = some (a,u) → Returns (f a) u) :
    Returns (x >>= f) s ↔ Returns x s := by
  refine ⟨fun ⟨r,hr⟩ => ?_,fun h => h.bind hf⟩
  obtain ⟨a,u,hx,-⟩ := bind_some.mp hr
  exact ⟨_,hx⟩

lemma sfsWrite_returns_iff (hs : Owned s) (hc : s.icache i = some c) :
    Returns (sfsWrite i buf count ofs) s ↔ Returns (writeLoop i buf count count ofs 0) s := by
  refine (bind_returns_iff fun _ _ _ => returns_pure).trans (bind_returns_iff fun r u hl => ?_)
  obtain ⟨total,ofs'⟩ := r
  obtain ⟨-,-,-,hw,-⟩ := writeLoop_some ofs hs hc (Nat.le_refl _) (Nat.zero_le _) hl
  obtain ⟨ad,d,hcu⟩ := hw.inode c hc
  refine (inode_returns hcu).bind fun c' v hv => ?_
  split
  · refine modify_returns.bind fun _ w hm => ?_
    obtain rfl := modify_some.mp hm
    exact (sfsWriteInode_returns (Function.update_self i _ v.icache)).bind fun _ _ _ => returns_pure
  · exact returns_pure

lemma writesClean_iff (hs : Owned s) (hc : s.icache i = some c) (hofs : ofs ≤ c.iSize) :
    WritesClean i c buf count ofs s ↔ Returns (writeLoop i buf count count ofs 0) s := by
  rw [← sfsWrite_returns_iff hs hc]
  refine ⟨fun ⟨n,t,h,_⟩ => ⟨_,h⟩,fun ⟨⟨⟨n,ofs'⟩,t⟩,h⟩ => ?_⟩
  obtain ⟨n',u,hw,hp⟩ := bind_some.mp h
  cases hp
  obtain ⟨hn,-,ht,u,ad,d,hwr,hk,hic⟩ := writeData_some hs hc hw
  have ha : Allocated u i := (hwr.allocated i).mpr (hs.cached i c hc)
  refine ⟨n,t,h,?_,fun x hx => ?_,_,by rw [hic,Function.update_self],?_⟩
  · by_cases hpos : n = 0
    · omega
    · have hcov := hwr.covered (ofs + n - 1) (by omega) (by omega)
      have := lt_max_of_blkAt hcov
      omega
  · rw [hk.content hwr.owned ha,hwr.own,if_pos (by omega),Nat.add_sub_cancel_left]
  · split <;> simp only <;> omega

end Loop

def ShortOf (s : Fs) (i lo hi : Nat) : Prop := spares s < empties s (slotsOf i lo hi)

theorem sfs_write_limit_iff (s : Fs) (i : Nat) (c : Inode) (buf : Memory) (count ofs : Nat) (hs : Owned s)
    (hheld : s.held = []) (hc : s.icache i = some c) (hofs : ofs ≤ c.iSize) :
    (WritesClean i c buf count ofs (s.supplied []) ↔
      count = 0 ∨ ofs + count ≤ sfsMaxFileSize ∨ ShortOf s i (ofs / bdevBlkSize) maxBlks) ∧
    ((∀ sup, WritesClean i c buf count ofs (s.supplied sup)) ↔
      count = 0 ∨ ofs + count ≤ sfsNdirect * bdevBlkSize ∨
        ShortOf s i (ofs / bdevBlkSize) (min maxBlks (max sfsNdirect (ofs / bdevBlkSize) + 1))) := by
  have hown : ∀ sup, Owned (s.supplied sup) := fun sup => hs.quiet ⟨rfl,rfl,rfl⟩
  have hiff : ∀ sup, WritesClean i c buf count ofs (s.supplied sup) ↔
      Returns (writeLoop i buf count count ofs 0) (s.supplied sup) := fun sup => writesClean_iff (hown sup) hc hofs
  have hmax : sfsMaxFileSize = bdevBlkSize * maxBlks := Nat.mul_comm _ _
  constructor
  · rw [hiff]
    constructor
    · intro hret
      by_contra hno
      push Not at hno
      obtain ⟨hpos,hfar,hroom⟩ := hno
      exact absurd hret (not_returns.mpr (writeLoop_limit (hown []) hc rfl (Nat.pos_of_ne_zero hpos) hfar
        (Nat.not_lt.mp hroom)))
    · rintro (rfl | hfit | hshort)
      · exact returns_pure
      · exact writeLoop_returns (hown []) hc (le_refl _) (.inl (hmax ▸ hfit)) (.inl rfl)
      · exact writeLoop_returns (hown []) hc (le_refl _) (.inr hshort) (.inl rfl)
  · simp only [hiff]
    constructor
    · intro hret
      by_contra hno
      push Not at hno
      obtain ⟨hpos,hfar,hroom⟩ := hno
      obtain ⟨sup,hsup⟩ := writeLoop_doubles buf (hown []) hc rfl hheld (Nat.pos_of_ne_zero hpos) hfar
        (Nat.not_lt.mp hroom)
      exact absurd (hret sup) (not_returns.mpr hsup)
    · rintro (rfl | hfit | hshort) sup
      · exact returns_pure
      · exact writeLoop_returns (hown sup) hc (show sfsNdirect ≤ maxBlks by decide)
          (.inl (by rw [Nat.mul_comm]; exact hfit)) (.inr (.inl (le_refl _)))
      · exact writeLoop_returns (hown sup) hc (min_le_left _ _) (.inr hshort) (.inr (.inr ⟨hshort,min_le_right _ _⟩))

theorem sfs_write_limit_iff_fresh :
    WritesClean 1 { iRef := 1, iNlink := 1, iFtype := .file, iMode := 0, iSize := 0, iAddrs := fun _ => 0, dirty := false }
      (fun _ => 7) 600 0 (withInode 0) :=
  (sfs_write_limit_iff (withInode 0) 1 _ (fun _ => 7) 600 0 (withInode_owned 0) rfl rfl (Nat.zero_le _)).1.mpr
    (.inr (.inl (by decide)))

lemma spares_fresh : spares (withInode 0) = Mkfs.fsSize / 8 * 8 := by
  have hall : ∀ n ∈ Finset.range (Mkfs.fsSize / 8 * 8), dataBit (withInode 0).sb (withInode 0).disk n = false :=
    fun n _ => Mkfs.freshDisk_dataBit
  exact (congrArg Finset.card (Finset.filter_true_of_mem hall)).trans (Finset.card_range _)

lemma empties_le (h : hi ≤ maxBlks) : empties s (slotsOf i 0 hi) ≤ 2 * maxBlks := by
  refine (Finset.card_filter_le _ _).trans ((Finset.card_biUnion_le_card_mul _ _ 2 fun idx _ => ?_).trans ?_)
  · unfold slotPath
    split
    · simp
    · exact Finset.card_le_two
  · rw [Nat.card_Ico]
    omega

theorem write_past_limit :
    sfsWrite 1 (fun _ => 7) (sfsMaxFileSize + 1) 0 (withInode 0) = none ∧
    sfsWrite 1 (fun _ => 7) 1 sfsMaxFileSize (withInode sfsMaxFileSize) = none ∧
    sfsWrite 1 (fun _ => 7) 1 6144 ((withInode 6144).supplied [true,true,true,true,true,true,false]) = none := by
  refine ⟨?_,?_,?_⟩
  · rw [← not_returns,sfsWrite_returns_iff (withInode_owned 0) rfl,not_returns]
    refine writeLoop_limit (withInode_owned 0) rfl rfl (Nat.succ_pos _) (by omega) ?_
    rw [spares_fresh]
    exact (empties_le (le_refl _)).trans (by decide)
  · exact Option.isNone_iff_eq_none.mp (by decide +kernel)
  · exact Option.isNone_iff_eq_none.mp (by decide +kernel)

end MappedMemory.Sfs
