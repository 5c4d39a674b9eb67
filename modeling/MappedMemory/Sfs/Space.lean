import MappedMemory.Sfs.Balance
import MappedMemory.Sfs.Contents

namespace MappedMemory.Sfs

open Bytes Routine

def spares (s : Fs) : Nat := {n ∈ Finset.range (s.sb.sSize / 8 * 8) | dataBit s.sb s.disk n = false}.card

def empties (s : Fs) (P : Finset Slot) : Nat := {p ∈ P | slotVal s.disk p = 0}.card

def slotPath (i idx : Nat) : Finset Slot :=
  if idx < sfsNdirect then {.addr i idx}
  else {.addr i (sfsNdirect + (idx - sfsNdirect) / ptrsPerBlk),dataSlot i idx}

def slotsOf (i lo hi : Nat) : Finset Slot := (Finset.Ico lo hi).biUnion (slotPath i)

def Paid (P : Finset Slot) (s t : Fs) : Prop := spares t + empties s P = spares s + empties t P

variable {s t u : Fs} {i j k b x idx lo hi : Nat} {c : Inode} {p : Slot} {P : Finset Slot} {alloc : Bool}
  {r : Except SfsErr Nat}

lemma card_filter_flip {α : Type} [DecidableEq α] {S : Finset α} {q r : α → Prop} [DecidablePred q]
    [DecidablePred r] {a : α} (ha : a ∈ S) (hq : q a) (h : ∀ x ∈ S, r x ↔ x ≠ a ∧ q x) :
    {x ∈ S | r x}.card + 1 = {x ∈ S | q x}.card := by
  have he : {x ∈ S | r x} = {x ∈ S | q x}.erase a := by
    ext x
    simp only [Finset.mem_filter,Finset.mem_erase]
    constructor
    · rintro ⟨hx,hr⟩
      obtain ⟨hne,hqx⟩ := (h x hx).mp hr
      exact ⟨hne,hx,hqx⟩
    · rintro ⟨hne,hx,hqx⟩
      exact ⟨hx,(h x hx).mpr ⟨hne,hqx⟩⟩
  rw [he]
  exact Finset.card_erase_add_one (Finset.mem_filter.mpr ⟨ha,hq⟩)

lemma Paid.of_same (hsb : t.sb = s.sb) (hd : t.disk = s.disk) : Paid P s t := by
  simp only [Paid,spares,empties,hsb,hd]

lemma Paid.trans (h : Paid P s t) (h' : Paid P t u) : Paid P s u := by
  simp only [Paid] at h h' ⊢
  omega

lemma spares_take (hb : Spare s b) (hvis : b < s.sb.sDataStart + s.sb.sSize / 8 * 8) (hsb : t.sb = s.sb)
    (hd : ∀ n, n < s.sb.sSize → dataBit s.sb t.disk n = (decide (n = b - s.sb.sDataStart) || dataBit s.sb s.disk n)) :
    spares t + 1 = spares s := by
  have hlow := hb.lower
  rw [spares,spares,hsb]
  refine card_filter_flip (Finset.mem_range.mpr (show b - s.sb.sDataStart < _ by omega)) hb.free fun n hn => ?_
  rw [hd n (by have := Finset.mem_range.mp hn; omega)]
  simp

lemma empties_take (hp : p ∈ P) (hz : slotVal s.disk p = 0) (hb : b ≠ 0)
    (h : ∀ q ∈ P, slotVal t.disk q = if q = p then b else slotVal s.disk q) : empties t P + 1 = empties s P := by
  refine card_filter_flip hp hz fun q hq => ?_
  rw [h q hq]
  split
  · rename_i he
    simp [he,hb]
  · rename_i he
    simp [he]

lemma Paid.take (hb : Spare s b) (hvis : b < s.sb.sDataStart + s.sb.sSize / 8 * 8) (hsb : t.sb = s.sb)
    (hd : ∀ n, n < s.sb.sSize → dataBit s.sb t.disk n = (decide (n = b - s.sb.sDataStart) || dataBit s.sb s.disk n))
    (hp : p ∈ P) (hz : slotVal s.disk p = 0)
    (h : ∀ q ∈ P, slotVal t.disk q = if q = p then b else slotVal s.disk q) : Paid P s t := by
  have h1 := spares_take hb hvis hsb hd
  have h2 := empties_take hp hz hb.ne_zero h
  simp only [Paid]
  omega

def SlotsOf (i : Nat) (P : Finset Slot) : Prop := ∀ p ∈ P, p.inum = i ∧ p.Bounded

lemma allocAddr_paid (hs : Owned s) (hpin : Pinned s i) (hc : s.icache i = some c)
    (hP : SlotsOf i P) (hp : .addr i k ∈ P) (hz : c.iAddrs k = 0) (h : allocAddr i k s = some (r,t)) : Paid P s t := by
  have hk : k < sfsNdirect + sfsNindirect := (hP _ hp).2
  have ha := hs.cached i c hc
  unfold allocAddr at h
  obtain ⟨r',u,hal,h⟩ := bind_some.mp h
  obtain ⟨hsame,⟨e,rfl,hd,-⟩ | ⟨b,rfl,hb,hd,hvis⟩⟩ := allocDataBlock_some hal
  · cases h
    exact .of_same hsame.sb hd
  · obtain ⟨c',hc',h⟩ := inode_bind.mp h
    rw [hsame.icache,hc,Option.some.injEq] at hc'
    subst hc'
    simp only [setInode,modify_bind,bind_some] at h
    obtain ⟨r'',x,hw,h⟩ := h
    cases h
    have hpu : (u.held.any fun r => r.1 == inumToBlk i) = true := by
      rw [hsame.held]
      exact hpin
    rcases sfsWriteInode_some (Function.update_self i _ u.icache) hw with ⟨hnp,-,-⟩ | hw
    · exact absurd hpu hnp
    · have hz' : addrOf s.disk i k = 0 := by rw [← hs.addrs i c hc k hk,hz]
      have hdisk := hw.disk
      simp only [hd] at hdisk
      have hst : AddrStored s t i k b := addrStored_of_disk hb ha hk (hw.sb.trans hsame.sb) hdisk
        (Function.update_self k b c.iAddrs) fun l hl hlk => by rw [Function.update_of_ne hlk,hs.addrs i c hc l hl]
      refine .take hb hvis hst.sb hst.dbits hp hz' fun q hq => ?_
      exact hst.slotVal hs hz' ((hP q hq).1 ▸ ha) (hP q hq).2

lemma addrSlot_paid (hs : Owned s) (hpin : Pinned s i) (hc : s.icache i = some c)
    (hP : SlotsOf i P) (hp : .addr i k ∈ P) (h : addrSlot i k alloc s = some (r,t)) : Paid P s t := by
  unfold addrSlot at h
  obtain ⟨c',hc',h⟩ := inode_bind.mp h
  cases hc.symm.trans hc'
  split at h
  · cases h
    exact .of_same rfl rfl
  · rename_i hz
    cases alloc with
    | false =>
      cases h
      exact .of_same rfl rfl
    | true => exact allocAddr_paid hs hpin hc hP hp (not_not.mp hz) h

lemma entrySlot_paid {a : Nat} (hs : Owned s) (hc : s.icache i = some c)
    (hP : SlotsOf i P) (hp : .entry i k j ∈ P) (hca : c.iAddrs k = a) (hnz : a ≠ 0)
    (h : entrySlot a j alloc s = some (r,t)) : Paid P s t := by
  have hbd := (hP _ hp).2
  have ha := hs.cached i c hc
  rw [hs.addrs i c hc k hbd.2.1] at hca
  subst hca
  unfold entrySlot at h
  rw [get_bind] at h
  split at h
  · cases h
    exact .of_same rfl rfl
  · rename_i hw
    cases alloc with
    | false =>
      cases h
      exact .of_same rfl rfl
    | true =>
      simp only [unless_true] at h
      obtain ⟨r',u,hal,h⟩ := bind_some.mp h
      obtain ⟨hsame,⟨e,rfl,hd,-⟩ | ⟨b,rfl,hb,hd,hvis⟩⟩ := allocDataBlock_some hal
      · cases h
        exact .of_same hsame.sb hd
      · simp only [modifyDisk,modify_bind] at h
        cases h
        have hu : Used s (addrOf s.disk i k) := hs.used (p := .addr i k) ha hbd.addr_of_entry hnz
        have hst : EntryStored s { u with disk := putWord u.disk (bdevBlkSize * addrOf s.disk i k + 4 * j) 4 b }
            (addrOf s.disk i k) j b := entryStored_of_disk hb hu hbd.2.2 hsame.sb (by simp only [hd,bdevBlkSize])
        have he : slotVal s.disk (.entry i k j) = 0 := by simp only [slotVal,if_neg hnz,not_not.mp hw]
        refine .take hb hvis hst.sb hst.dbits hp he fun q hq => ?_
        exact hst.slotVal hs ha hbd hnz ((hP q hq).1 ▸ ha) (hP q hq).2

lemma slotPath_direct (h : idx < sfsNdirect) : slotPath i idx = {.addr i idx} := if_pos h

lemma mem_slotPath (i idx : Nat) : dataSlot i idx ∈ slotPath i idx := by
  unfold slotPath
  split
  · rename_i h
    rw [dataSlot,if_pos h,Finset.mem_singleton]
  · exact Finset.mem_insert_of_mem (Finset.mem_singleton_self _)

lemma slotPath_slots (h : idx < maxBlks) : SlotsOf i (slotPath i idx) := by
  have hbd := dataSlot_bounded (i := i) h
  intro p hp
  unfold slotPath at hp
  split at hp
  · rename_i hd
    obtain rfl := Finset.mem_singleton.mp hp
    exact ⟨rfl,Nat.lt_of_lt_of_le hd (by decide)⟩
  · rename_i hd
    rcases Finset.mem_insert.mp hp with rfl | hp
    · rw [dataSlot,if_neg hd] at hbd
      exact ⟨rfl,hbd.2.1⟩
    · obtain rfl := Finset.mem_singleton.mp hp
      exact ⟨dataSlot_inum i idx,hbd⟩

lemma findBlk_paid {bh : Option Nat} (hs : Owned s) (hpin : Pinned s i)
    (hc : s.icache i = some c) (hP : SlotsOf i P) (hpath : slotPath i idx ⊆ P)
    (h : findBlk i idx alloc s = some ((bh,r),t)) : Paid P s t := by
  unfold findBlk at h
  split at h
  · rename_i hd
    obtain ⟨r',u,ha,h⟩ := bind_some.mp h
    cases h
    exact addrSlot_paid hs hpin hc hP (hpath (by rw [slotPath_direct hd,Finset.mem_singleton])) ha
  · rename_i hd
    rw [slotPath,if_neg hd,dataSlot,if_neg hd] at hpath
    have haddr := hpath (Finset.mem_insert_self _ _)
    have hentry := hpath (Finset.mem_insert_of_mem (Finset.mem_singleton_self _))
    obtain ⟨-,h⟩ := kassert_bind.mp h
    obtain ⟨r',u,ha,h⟩ := bind_some.mp h
    have hsu := addrSlot_paid hs hpin hc hP haddr ha
    obtain ⟨-,-,hassign,-,-,hok⟩ := addrSlot_some hpin hc (hP _ haddr).2 ha
    have hu := (hs.assign hassign).1
    cases r' with
    | error e =>
      cases h
      exact hsu
    | ok a =>
      obtain ⟨hnz,c',hc',hca⟩ := hok a rfl
      obtain ⟨-,h⟩ := kassert_bind.mp h
      obtain ⟨ok,v,hg,h⟩ := bind_some.mp h
      have hq := acquire_quiet hg
      have hsv := hsu.trans (.of_same hq.sb hq.disk)
      cases ok with
      | false =>
        cases h
        exact hsv
      | true =>
        simp only [unless_true] at h
        obtain ⟨r'',w,he,h⟩ := bind_some.mp h
        have hsw := hsv.trans (entrySlot_paid (hu.quiet hq) (by rwa [hq.icache]) hP hentry hca hnz he)
        cases r'' with
        | error e =>
          cases h
          exact hsw
        | ok blk =>
          obtain ⟨_,x,hr,h⟩ := bind_some.mp h
          cases h
          have hq := release_quiet hr
          exact hsw.trans (.of_same hq.sb hq.disk)

lemma getDataBlock_paid {ofs : Nat} (hs : Owned s) (hc : s.icache i = some c)
    (hP : SlotsOf i P) (hpath : slotPath i (ofs / bdevBlkSize) ⊆ P) (h : getDataBlock i ofs alloc s = some (r,t)) :
    Paid P s t := by
  unfold getDataBlock at h
  obtain ⟨-,h⟩ := kassert_bind.mp h
  obtain ⟨ok,u,ha,h⟩ := bind_some.mp h
  have hqu := acquire_quiet ha
  cases ok with
  | false =>
    cases h
    exact .of_same hqu.sb hqu.disk
  | true =>
    obtain ⟨sup,-,rfl⟩ := acquire_true ha
    simp only [unless_true] at h
    obtain ⟨⟨bh,r'⟩,v,hf,h⟩ := bind_some.mp h
    have hsv : Paid P s v := (Paid.of_same hqu.sb hqu.disk).trans
      (findBlk_paid (hs.quiet hqu) (by simp [Pinned]) hc hP hpath hf)
    cases r' with
    | error e =>
      obtain ⟨-,hq,-,-⟩ := getDataFail_some h
      exact hsv.trans (.of_same hq.sb hq.disk)
    | ok b =>
      obtain ⟨-,h⟩ := kassert_bind.mp h
      obtain ⟨ok,w,hg,h⟩ := bind_some.mp h
      have hqw := acquire_quiet hg
      have hsw := hsv.trans (.of_same hqw.sb hqw.disk)
      cases ok with
      | false =>
        obtain ⟨-,hq,-,-⟩ := getDataFail_some h
        exact hsw.trans (.of_same hq.sb hq.disk)
      | true =>
        simp only [unless_true,bind_some] at h
        obtain ⟨_,x,hr,h⟩ := h
        cases h
        have hq := release_quiet hr
        exact hsw.trans (.of_same hq.sb hq.disk)

end MappedMemory.Sfs
