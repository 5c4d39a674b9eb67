import MappedMemory.Sfs.Mkfs

namespace MappedMemory.Sfs

open Bytes Routine

variable {s t : Fs} {i j a k n : Nat} {c c' : Inode} {buf dst : Memory} {count ofs : Nat}

def Fs.reliable (s : Fs) : Fs := { s with supply := [] }

lemma Owned.reliable (hs : Owned s) : Owned s.reliable := hs.quiet ⟨rfl,rfl,rfl⟩

def Mapped (s : Fs) (i : Nat) (c : Inode) : Prop := ∀ y, y < c.iSize → blkAt s.disk i (y / bdevBlkSize) ≠ 0

lemma readData_content (dst : Memory) (k a : Nat) (hs : Owned s) (hc : s.icache i = some c) (hm : Mapped s i c) :
    ∃ dst', readData i dst k a s.reliable = some ((min k (c.iSize - a),dst'),s.reliable) ∧
      ∀ x, x < min k (c.iSize - a) → dst' x = content s.disk i (a + x) := by
  obtain ⟨dst',hr,hd⟩ := readLoop_read dst k k a 0 hs.reliable hc rfl hm
    (Nat.le_refl _) (Nat.zero_le _)
  rw [Nat.sub_zero,Nat.zero_add] at hr
  refine ⟨dst',hr,fun x hx => ?_⟩
  rw [hd x,if_pos (by omega),Nat.sub_zero]
  rfl

lemma readData_same (hs : Owned s) (ht : Owned t) (hc : s.icache j = some c) (hct : t.icache j = some c)
    (hblk : ∀ idx, blkAt t.disk j idx = blkAt s.disk j idx) (hcon : ∀ x, content t.disk j x = content s.disk j x) :
    (readData j dst k a t.reliable).map Prod.fst = (readData j dst k a s.reliable).map Prod.fst := by
  obtain ⟨r,hr,hr'⟩ := readLoop_same dst k k a 0 hs.reliable ht.reliable hc
    hct rfl rfl hblk hcon
  rw [readData,hr,hr',Option.map_map,Option.map_map]
  rfl

def Overlaid (s t : Fs) (i : Nat) (c' : Inode) (buf : Memory) (ofs n : Nat) : Prop :=
  ∀ dst k a, ∃ dst', readData i dst k a t.reliable = some ((min k (c'.iSize - a),dst'),t.reliable) ∧
    ∀ x, x < min k (c'.iSize - a) →
      dst' x = if ofs ≤ a + x ∧ a + x < ofs + n then buf (a + x - ofs) else content s.disk i (a + x)

def Untouched (s t : Fs) (j : Nat) : Prop :=
  t.icache j = s.icache j ∧ (∀ x, content t.disk j x = content s.disk j x) ∧
    ∀ dst k a, (s.icache j).isSome →
      (readData j dst k a t.reliable).map Prod.fst = (readData j dst k a s.reliable).map Prod.fst

theorem writeData_round_trip (hs : Owned s) (hc : s.icache i = some c) (hm : Mapped s i c) (hofs : ofs ≤ c.iSize)
    (h : writeData i buf count ofs s = some (n,t)) :
    n ≤ count ∧ (n < count → Starved s t) ∧ Owned t ∧
      ∃ c', t.icache i = some c' ∧ c'.iSize = max c.iSize (ofs + n) ∧ Mapped t i c' ∧
        Overlaid s t i c' buf ofs n ∧ ∀ j, Allocated s j → j ≠ i → Untouched s t j := by
  obtain ⟨hn,hstop,ht,u,ad,d,hw,hk,hic⟩ := writeData_some hs hc h
  have hmax : (if 0 < count ∧ c.iSize < ofs + n then ofs + n else c.iSize) = max c.iSize (ofs + n) := by
    split <;> omega
  rw [hmax] at hic
  have ha := hs.cached i c hc
  have hau : ∀ j, Allocated s j → Allocated u j := fun j hj => (hw.allocated j).mpr hj
  have hct : t.icache i = some { c with iSize := max c.iSize (ofs + n), iAddrs := ad, dirty := d } := by
    rw [hic,Function.update_self]
  have hmt : Mapped t i { c with iSize := max c.iSize (ofs + n), iAddrs := ad, dirty := d } := fun y hy => by
    rw [hk.blkAt (hau i ha)]
    by_cases hold : y < c.iSize
    · exact hw.mapped _ (hm y hold)
    · exact hw.covered y (by omega) (by simp only [lt_max_iff] at hy; omega)
  refine ⟨hn,hstop,ht,_,hct,rfl,hmt,fun dst k a => ?_,fun j hj hji => ?_⟩
  · obtain ⟨dst',hr,hd⟩ := readData_content dst k a ht hct hmt
    refine ⟨dst',hr,fun x hx => ?_⟩
    rw [hd x hx,hk.content hw.owned (hau i ha),hw.own]
  · have hcj : t.icache j = s.icache j := by rw [hic,Function.update_of_ne hji,hw.icache j hji]
    have hcon : ∀ x, content t.disk j x = content s.disk j x := fun x => by
      rw [hk.content hw.owned (hau j hj),hw.others j x hj hji]
    refine ⟨hcj,hcon,fun dst k a hsome => ?_⟩
    obtain ⟨e,he⟩ := Option.isSome_iff_exists.mp hsome
    exact readData_same hs ht he (hcj.trans he) (fun idx => by rw [hk.blkAt (hau j hj),hw.blks j idx hj hji]) hcon

def withInode (size : Nat) : Fs := { freshFs with
  icache := Function.update freshFs.icache 1
    (some { iRef := 1, iNlink := 1, iFtype := .file, iMode := 0, iSize := size, iAddrs := fun _ => 0, dirty := false }) }

lemma withInode_owned (size : Nat) : Owned (withInode size) :=
  freshFs_owned.load (freshFs_allocated.mpr rfl) fun _ hk => (Mkfs.freshDisk_addrOf hk).symm

theorem writeData_round_trip_fresh : ∃ t,
    writeData 1 (fun _ => 7) 600 0 (withInode 0) = some (600,t) ∧ ∃ c', t.icache 1 = some c' ∧ c'.iSize = 600 ∧
      Overlaid (withInode 0) t 1 c' (fun _ => 7) 0 600 := by
  obtain ⟨⟨n,t⟩,ht⟩ := Option.isSome_iff_exists.mp
    (show (writeData 1 (fun _ => 7) 600 0 (withInode 0)).isSome = true by decide +kernel)
  have hn : (writeData 1 (fun _ => 7) 600 0 (withInode 0)).map Prod.fst = some 600 := by decide +kernel
  rw [ht,Option.map_some,Option.some.injEq] at hn
  subst hn
  obtain ⟨-,-,-,c',hc,hsize,-,hread,-⟩ := writeData_round_trip (withInode_owned 0) rfl
    (fun y hy => absurd hy (Nat.not_lt_zero y)) (Nat.zero_le _) ht
  exact ⟨t,ht,c',hc,hsize,hread⟩

theorem readData_hole : ∃ t c, Owned (withInode 1) ∧ (withInode 1).icache 1 = some c ∧ c.iSize = 1 ∧
    writeData 1 (fun _ => 0) 0 0 (withInode 1) = some (0,t) ∧
      (readData 1 (fun _ => 0) 1 0 t.reliable).map (fun r => r.1.1) = some 0 :=
  ⟨withInode 1,_,withInode_owned 1,rfl,rfl,rfl,by decide +kernel⟩

end MappedMemory.Sfs
