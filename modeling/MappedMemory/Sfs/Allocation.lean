import MappedMemory.Sfs.Growth

namespace MappedMemory.Sfs

open Function (update update_self)
open Prod (mk_inj)

open Bytes Routine

variable {s t : Fs} {i k b : Nat} {l ok : Bool} {c : Inode} {p alloc : Bool} {u : Unit} {α : Type}
  {r : Except SfsErr Nat} {m : Memory} {a n j bmapBlk idx : Nat} {ibh : Option Nat}

lemma kassert_some : kassert p s = some (u,t) ↔ p = true ∧ t = s := by
  unfold kassert
  split
  · rename_i hp
    simp [hp,eq_comm]
  · rename_i hp
    simp [hp]

lemma inode_some {d : Inode} : inode i s = some (d,t) ↔ s.icache i = some d ∧ t = s := by
  simp only [inode,Option.map_eq_some_iff,mk_inj]
  constructor
  · rintro ⟨a,ha,rfl,rfl⟩
    exact ⟨ha,rfl⟩
  · rintro ⟨ha,rfl⟩
    exact ⟨d,ha,rfl,rfl⟩

lemma kassert_bind {f : Unit → FsM α} {r : α × Fs} : (kassert p >>= f) s = some r ↔ p = true ∧ f () s = some r := by
  cases p with
  | true => exact ⟨fun h => ⟨rfl,h⟩,fun h => h.2⟩
  | false => exact ⟨fun h => (nomatch h),fun h => Bool.noConfusion h.1⟩

lemma inode_bind {f : Inode → FsM α} {r : α × Fs} :
    (inode i >>= f) s = some r ↔ ∃ d, s.icache i = some d ∧ f d s = some r := by
  change ((s.icache i).map fun d => (d,s)).bind (fun p => f p.1 p.2) = some r ↔ _
  cases s.icache i with
  | none => simp
  | some d => simp

lemma grant_some (h : grant s = some (ok,t)) :
    ∃ sup, sup ⊆ s.supply ∧ (ok = false → false ∈ s.supply) ∧ t = { s with supply := sup } := by
  unfold grant at h
  split at h
  · cases h
    exact ⟨s.supply,fun _ hx => hx,fun ho => (nomatch ho),rfl⟩
  · rename_i rest hs
    cases h
    exact ⟨_,by simp [hs],fun ho => by simp [hs,ho],rfl⟩

lemma fetch_some (h : fetch b s = some (ok,t)) :
    ∃ sup, sup ⊆ s.supply ∧ (ok = false → false ∈ s.supply) ∧ t = { s with supply := sup } := by
  unfold fetch at h
  split at h
  · cases h
    exact ⟨s.supply,fun _ hx => hx,fun ho => (nomatch ho),rfl⟩
  · exact grant_some h

lemma acquire_some (h : acquire l b s = some (ok,t)) : ∃ sup, sup ⊆ s.supply ∧ (ok = false → false ∈ s.supply) ∧
      t = { s with held := if ok then (b,l) :: s.held else s.held, supply := sup } := by
  unfold acquire at h
  obtain ⟨a,u,hf,h⟩ := bind_some.mp h
  obtain ⟨sup,hsub,hno,rfl⟩ := fetch_some hf
  cases a with
  | true =>
    simp only [if_true,modify_bind,pure_some] at h
    obtain ⟨rfl,rfl⟩ := h
    exact ⟨sup,hsub,hno,rfl⟩
  | false =>
    simp only [Bool.false_eq_true,if_false,pure_some] at h
    obtain ⟨rfl,rfl⟩ := h
    exact ⟨sup,hsub,hno,rfl⟩

lemma acquire_true (h : acquire l b s = some (true,t)) :
    ∃ sup, sup ⊆ s.supply ∧ t = { s with held := (b,l) :: s.held, supply := sup } := by
  obtain ⟨sup,hsub,-,rfl⟩ := acquire_some h
  exact ⟨sup,hsub,rfl⟩

lemma acquire_false (h : acquire l b s = some (false,t)) :
    ∃ sup, sup ⊆ s.supply ∧ false ∈ s.supply ∧ t = { s with supply := sup } := by
  obtain ⟨sup,hsub,hno,rfl⟩ := acquire_some h
  exact ⟨sup,hsub,hno rfl,rfl⟩

lemma acquire_pinned (hp : (s.held.any fun r => r.1 == b) = true) (h : acquire l b s = some (ok,t)) :
    ok = true ∧ t = { s with held := (b,l) :: s.held } := by
  unfold acquire fetch at h
  simp only [bind_some,if_pos hp,Option.some_inj,mk_inj] at h
  obtain ⟨a,u,⟨rfl,rfl⟩,h⟩ := h
  simp only [if_true,modify_bind,pure_some] at h
  exact h

lemma release_some (h : release l b s = some (u,t)) : (b,l) ∈ s.held ∧ t = { s with held := s.held.erase (b,l) } := by
  unfold release at h
  simp only [get_bind,bind_some,kassert_some,modify_some] at h
  obtain ⟨_,_,⟨hm,rfl⟩,rfl⟩ := h
  exact ⟨by simpa using hm,rfl⟩

lemma acquire_quiet (h : acquire l b s = some (ok,t)) : Quiet s t := by
  obtain ⟨_,-,-,rfl⟩ := acquire_some h
  exact ⟨rfl,rfl,rfl⟩

lemma release_quiet (h : release l b s = some (u,t)) : Quiet s t := by
  obtain ⟨-,rfl⟩ := release_some h
  exact ⟨rfl,rfl,rfl⟩

def pins (s : Fs) (x : Nat) : Nat := s.held.count (x,false)

lemma acquire_pins (h : acquire l b s = some (true,t)) (x : Nat) :
    pins t x = pins s x + if l = false ∧ x = b then 1 else 0 := by
  obtain ⟨sup,-,rfl⟩ := acquire_true h
  simp only [pins,List.count_cons,beq_iff_eq,mk_inj]
  congr 1
  simp only [eq_comm,and_comm]

lemma release_pins (h : release l b s = some (u,t)) (x : Nat) :
    pins s x = pins t x + if l = false ∧ x = b then 1 else 0 := by
  obtain ⟨hm,rfl⟩ := release_some h
  simp only [pins,List.count_erase,beq_iff_eq,mk_inj]
  have hpos : 0 < s.held.count (b,l) := List.count_pos_iff.mpr hm
  by_cases hx : l = false ∧ x = b
  · obtain ⟨rfl,rfl⟩ := hx
    simp only [and_self,if_true]
    omega
  · have hne : ¬(b = x ∧ l = false) := fun he => hx ⟨he.2,he.1.symm⟩
    simp [hx,hne]

lemma pins_of_held (h : t.held = s.held) (x : Nat) : pins t x = pins s x := by rw [pins,pins,h]

lemma firstClear_some {r : Nat} (h : firstClear m a n j = some r) : j ≤ r ∧ r < j + n ∧ bit m a r = false := by
  induction n generalizing j with
  | zero => cases h
  | succ n ih =>
    unfold firstClear at h
    split at h
    · have := ih h
      exact ⟨by omega,by omega,this.2.2⟩
    · rename_i hb
      cases h
      exact ⟨le_refl _,by omega,by simpa using hb⟩

lemma firstClear_none {r : Nat} (h : firstClear m a n j = none) (h1 : j ≤ r) (h2 : r < j + n) : bit m a r = true := by
  induction n generalizing j with
  | zero => omega
  | succ n ih =>
    unfold firstClear at h
    split at h
    · rename_i hb
      by_cases he : r = j
      · exact he ▸ hb
      · exact ih h (by omega) (by omega)
    · cases h

lemma bmapAllocElement_some {size : Nat} {r : Option Nat} (h : bmapAllocElement bmapBlk size s = some (r,t)) :
    (r = none ∧ t = s ∧ ∀ n, n < size * 8 → bit s.disk (bdevBlkSize * bmapBlk) n = true) ∨
      ∃ n, r = some n ∧ n < size * 8 ∧ bit s.disk (bdevBlkSize * bmapBlk) n = false ∧
        t = { s with disk := setBit s.disk (bdevBlkSize * bmapBlk) n } := by
  unfold bmapAllocElement at h
  rw [get_bind] at h
  cases hf : firstClear s.disk (bdevBlkSize * bmapBlk) (size * 8) 0 with
  | none =>
    simp only [hf,pure_some] at h
    exact .inl ⟨h.1,h.2,fun n hn => firstClear_none hf (Nat.zero_le _) (by omega)⟩
  | some n =>
    obtain ⟨_,hlt,hb⟩ := firstClear_some hf
    simp only [hf,set_bind,pure_some] at h
    obtain ⟨rfl,rfl⟩ := h
    exact .inr ⟨n,rfl,by omega,hb,rfl⟩

lemma bmapFreeElement_some (h : bmapFreeElement bmapBlk n s = some (u,t)) :
    t = { s with disk := clearBit s.disk (bdevBlkSize * bmapBlk) n } := by
  unfold bmapFreeElement at h
  rw [get_bind] at h
  exact set_some.mp h

lemma erase_erase_cons [BEq α] [LawfulBEq α] (x y : α) (l : List α) : ((y :: x :: l).erase x).erase y = l := by
  by_cases h : y = x
  · subst h
    simp
  · rw [List.erase_cons_tail (by simpa using h)]
    simp

structure SameButDisk (s t : Fs) : Prop where
  sb : t.sb = s.sb
  icache : t.icache = s.icache
  held : t.held = s.held
  supply : t.supply ⊆ s.supply

def Full (s : Fs) : Prop := ∀ n, n < s.sb.sSize / 8 * 8 → dataBit s.sb s.disk n = true

lemma clearNewBlk_some {index : Nat} {u : Fs}
    (h : clearNewBlk bmapBlk index b s = some (r,u)) (hh : s.held = (bmapBlk,true) :: t.held)
    (hsb : s.sb = t.sb) (hic : s.icache = t.icache) (hd : s.disk = setBit t.disk (bdevBlkSize * bmapBlk) index)
    (hsup : s.supply ⊆ t.supply) (hclear : bit t.disk (bdevBlkSize * bmapBlk) index = false) :
    SameButDisk t u ∧ ((∃ e, r = .error e ∧ u.disk = t.disk ∧ false ∈ t.supply) ∨
      (r = .ok b ∧ u.disk = fill s.disk (bdevBlkSize * b) bdevBlkSize fun _ => 0)) := by
  unfold clearNewBlk at h
  obtain ⟨ok,v,ha,h⟩ := bind_some.mp h
  obtain ⟨sup,hsub,hno,rfl⟩ := acquire_some ha
  cases ok with
  | false =>
    simp only [Bool.not_false,if_true,bind_some] at h
    obtain ⟨_,v,hfree,_,w,hr,h⟩ := h
    obtain rfl := bmapFreeElement_some hfree
    obtain ⟨-,rfl⟩ := release_some hr
    cases h
    refine ⟨⟨hsb,hic,?_,List.Subset.trans hsub hsup⟩,.inl ⟨_,rfl,?_,hsup (hno rfl)⟩⟩
    · simp [hh]
    · simp only [hd]
      exact clearBit_setBit hclear
  | true =>
    simp only [unless_true,if_true,bind_some] at h
    obtain ⟨_,v,hr,_,w,hm,_,x,hr',h⟩ := h
    obtain ⟨-,rfl⟩ := release_some hr
    obtain rfl := modify_some.mp hm
    obtain ⟨-,rfl⟩ := release_some hr'
    cases h
    refine ⟨⟨hsb,hic,?_,List.Subset.trans hsub hsup⟩,.inr ⟨rfl,rfl⟩⟩
    simp only [hh]
    exact erase_erase_cons _ _ _

lemma bmap_base (g : SbInfo) (j : Nat) :
    bdevBlkSize * (g.sDataBmapStart + j) = bdevBlkSize * g.sDataBmapStart + 512 * j := by
  simp only [bdevBlkSize]
  omega

lemma allocFrom_some {numBlks : Nat} (hn : n + j = s.sb.sJournalStart - s.sb.sDataBmapStart) (hnum : numBlks + 4096 * j = s.sb.sSize ∨ n = 0)
    (h : allocFrom n (s.sb.sDataBmapStart + j) numBlks s = some (r,t)) :
    SameButDisk s t ∧ ((∃ e, r = .error e ∧ t.disk = s.disk ∧ (false ∈ s.supply ∨
        ∀ k, 4096 * j ≤ k → k < s.sb.sSize / 8 * 8 → dataBit s.sb s.disk k = true)) ∨
      ∃ b, r = .ok b ∧ Spare s b ∧ t.disk = takeBlk s.sb s.disk b ∧
        b < s.sb.sDataStart + s.sb.sSize / 8 * 8) := by
  induction n generalizing j numBlks s with
  | zero =>
    have hl := s.sb.layout
    cases h
    exact ⟨⟨rfl,rfl,rfl,fun _ hx => hx⟩,.inl ⟨_,rfl,rfl,.inr fun k h1 h2 => by omega⟩⟩
  | succ n ih =>
    have hl := s.sb.layout
    have hnum : numBlks + 4096 * j = s.sb.sSize := hnum.resolve_right (by omega)
    unfold allocFrom at h
    rw [get_bind,bind_some] at h
    obtain ⟨ok,u,ha,h⟩ := h
    obtain ⟨sup,hsub,hno,rfl⟩ := acquire_some ha
    cases ok with
    | false =>
      cases h
      exact ⟨⟨rfl,rfl,rfl,hsub⟩,.inl ⟨_,rfl,rfl,.inl (hno rfl)⟩⟩
    | true =>
      simp only [unless_true,if_true] at h
      obtain ⟨found,u,hf,h⟩ := bind_some.mp h
      rcases bmapAllocElement_some hf with ⟨rfl,rfl,hfull⟩ | ⟨index,rfl,hlt,hclear,rfl⟩
      · obtain ⟨_,v,hr,h⟩ := bind_some.mp h
        obtain ⟨-,rfl⟩ := release_some hr
        simp only [List.erase_cons_head,Nat.add_assoc] at h
        have hsub' : sub64 numBlks bitsPerBlk + 4096 * (j + 1) = s.sb.sSize ∨ n = 0 := by
          simp only [sub64,u64,bitsPerBlk,bdevBlkSize]
          omega
        obtain ⟨hsame,hres⟩ := ih (s := { s with supply := sup }) (by simpa using by omega) hsub' h
        refine ⟨⟨hsame.sb,hsame.icache,hsame.held,List.Subset.trans hsame.supply hsub⟩,?_⟩
        rcases hres with ⟨e,he,hd,hwhy⟩ | ⟨b,hb,hsp,hd,hvis⟩
        · refine .inl ⟨e,he,hd,hwhy.imp (fun hx => hsub hx) fun hrest k h1 h2 => ?_⟩
          by_cases hk : 4096 * (j + 1) ≤ k
          · exact hrest k hk h2
          · have hbit := hfull (k - 4096 * j) (by simp only [bdevBlkSize]; omega)
            rw [bmap_base,bit_shift] at hbit
            rw [dataBit,show k = 8 * (512 * j) + (k - 4096 * j) by omega]
            exact hbit
        · exact .inr ⟨b,hb,⟨hsp.lower,hsp.upper,hsp.free⟩,hd,hvis⟩
      · have hidx : 4096 * j + index < s.sb.sSize / 8 * 8 := by
          simp only [bdevBlkSize] at hlt
          omega
        have hblk : (s.sb.sDataStart + bitsPerBlk * (s.sb.sDataBmapStart + j - s.sb.sDataBmapStart) + index) % 2^32 =
            s.sb.sDataStart + (4096 * j + index) := by
          simp only [bitsPerBlk,bdevBlkSize,Nat.add_sub_cancel_left]
          omega
        have hofs : s.sb.sDataStart + (4096 * j + index) - s.sb.sDataStart = 8 * (512 * j) + index := by omega
        simp only [hblk] at h
        obtain ⟨hsame,hres⟩ := clearNewBlk_some (t := s) h rfl rfl rfl rfl hsub hclear
        refine ⟨hsame,?_⟩
        rcases hres with ⟨e,he,hd,hwhy⟩ | ⟨hok,hd⟩
        · exact .inl ⟨e,he,hd,.inl hwhy⟩
        · refine .inr ⟨_,hok,⟨by omega,by omega,?_⟩,?_,by omega⟩
          · rw [hofs,dataBit,← bit_shift,← bmap_base]
            exact hclear
          · rw [hd,takeBlk,hofs,← setBit_shift,← bmap_base]

lemma allocDataBlock_some (h : allocDataBlock s = some (r,t)) :
    SameButDisk s t ∧ ((∃ e, r = .error e ∧ t.disk = s.disk ∧ (false ∈ s.supply ∨ Full t)) ∨
      ∃ b, r = .ok b ∧ Spare s b ∧ t.disk = takeBlk s.sb s.disk b ∧
        b < s.sb.sDataStart + s.sb.sSize / 8 * 8) := by
  unfold allocDataBlock at h
  rw [get_bind] at h
  obtain ⟨hsame,hres⟩ := allocFrom_some (j := 0) rfl (.inl rfl) h
  refine ⟨hsame,hres.imp_left fun ⟨e,he,hd,hwhy⟩ => ⟨e,he,hd,hwhy.imp_right fun hfull => ?_⟩⟩
  rw [Full,hsame.sb,hd]
  exact fun n hn => hfull n (Nat.zero_le _) hn

def Pinned (s : Fs) (i : Nat) : Prop := (s.held.any fun r => r.1 == inumToBlk i) = true

structure InodeWritten (s t : Fs) (i : Nat) (c : Inode) : Prop where
  sb : t.sb = s.sb
  held : t.held = s.held
  supply : t.supply ⊆ s.supply
  disk : t.disk = putInode s.disk i c.iFtype c.iMode c.iNlink c.iSize c.iAddrs
  icache : t.icache = update s.icache i (some { c with dirty := false })

lemma sfsWriteInode_some {r : Except SfsErr Unit} (hc : s.icache i = some c) (h : sfsWriteInode i s = some (r,t)) :
    (¬Pinned s i ∧ Quiet s t ∧ t.held = s.held ∧ r ≠ .ok ()) ∨ InodeWritten s t i c := by
  unfold sfsWriteInode at h
  obtain ⟨c',hc',h⟩ := inode_bind.mp h
  cases hc.symm.trans hc'
  obtain ⟨ok,u,ha,h⟩ := bind_some.mp h
  obtain ⟨sup,hsub,-,rfl⟩ := acquire_some ha
  cases ok with
  | false =>
    cases h
    refine .inl ⟨fun hp => ?_,⟨rfl,rfl,rfl⟩,rfl,nofun⟩
    cases (acquire_pinned hp ha).1
  | true =>
    simp only [unless_true,if_true,bind_some] at h
    obtain ⟨_,v,hm,_,w,hset,_,x,hr,h⟩ := h
    obtain rfl := modify_some.mp hm
    obtain rfl := modify_some.mp hset
    obtain ⟨-,rfl⟩ := release_some hr
    cases h
    exact .inr ⟨rfl,List.erase_cons_head _ _,hsub,rfl,rfl⟩

def Starved (s t : Fs) : Prop := false ∈ s.supply ∨ Full t

lemma allocAddr_some (hp : Pinned s i) (hc : s.icache i = some c)
    (hk : k < sfsNdirect + sfsNindirect) (hz : c.iAddrs k = 0) (h : allocAddr i k s = some (r,t)) :
    t.held = s.held ∧ t.supply ⊆ s.supply ∧ Assign i s t ∧ (∀ e, r = .error e → Starved s t) ∧
      ∀ b, r = .ok b → b ≠ 0 ∧ ∃ c', t.icache i = some c' ∧ c'.iAddrs k = b := by
  unfold allocAddr at h
  obtain ⟨r',u,ha,h⟩ := bind_some.mp h
  obtain ⟨hsame,⟨e,rfl,hd,hwhy⟩ | ⟨b,rfl,hb,hd,-⟩⟩ := allocDataBlock_some ha
  · cases h
    exact ⟨hsame.held,hsame.supply,.quiet ⟨hsame.sb,hd,hsame.icache⟩,fun _ _ => hwhy,fun _ hb => nomatch hb⟩
  · obtain ⟨c',hc',h⟩ := inode_bind.mp h
    rw [hsame.icache,hc,Option.some_inj] at hc'
    subst hc'
    simp only [setInode,modify_bind,bind_some] at h
    obtain ⟨r'',x,hw,h⟩ := h
    cases h
    have hpu : (u.held.any fun r => r.1 == inumToBlk i) = true := by
      rw [hsame.held]
      exact hp
    rcases sfsWriteInode_some (update_self i _ u.icache) hw with ⟨hnp,-,-⟩ | hw
    · exact absurd hpu hnp
    · have hic : t.icache = update s.icache i
          (some { c with iAddrs := update c.iAddrs k b, dirty := false }) := by
        rw [hw.icache,Function.update_idem,hsame.icache]
      refine ⟨hw.held.trans hsame.held,List.Subset.trans hw.supply hsame.supply,?_,fun _ he => (nomatch he),?_⟩
      · exact .addr k b c hb hk hc hz (hw.sb.trans hsame.sb) (hw.disk.trans (by rw [hd])) hic
      · rintro _ ⟨⟩
        exact ⟨hb.ne_zero,_,by rw [hic,update_self],update_self k b c.iAddrs⟩

lemma addrSlot_some (hp : Pinned s i) (hc : s.icache i = some c)
    (hk : k < sfsNdirect + sfsNindirect) (h : addrSlot i k alloc s = some (r,t)) :
    t.held = s.held ∧ t.supply ⊆ s.supply ∧ Assign i s t ∧ (alloc = false ∨ c.iAddrs k ≠ 0 → t = s) ∧
      (∀ e, r = .error e → alloc = true → Starved s t) ∧
      ∀ b, r = .ok b → b ≠ 0 ∧ ∃ c', t.icache i = some c' ∧ c'.iAddrs k = b := by
  unfold addrSlot at h
  obtain ⟨c',hc',h⟩ := inode_bind.mp h
  cases hc.symm.trans hc'
  split at h
  · rename_i hnz
    cases h
    refine ⟨rfl,fun _ hx => hx,.quiet (.refl _),fun _ => rfl,fun _ he => (nomatch he),?_⟩
    rintro _ ⟨⟩
    exact ⟨hnz,c,hc,rfl⟩
  · rename_i hz
    cases alloc with
    | false =>
      cases h
      exact ⟨rfl,fun _ hx => hx,.quiet (.refl _),fun _ => rfl,fun _ _ ha => (nomatch ha),fun _ hb => nomatch hb⟩
    | true =>
      obtain ⟨hheld,hsub,hassign,hwhy,hok⟩ := allocAddr_some hp hc hk (not_not.mp hz) h
      exact ⟨hheld,hsub,hassign,fun hor => absurd hor (by simpa using hz),fun e he _ => hwhy e he,hok⟩

lemma entrySlot_some (hc : s.icache i = some c)
    (hk : (Slot.entry i k j).Bounded) (ha : c.iAddrs k = a) (hnz : a ≠ 0) (h : entrySlot a j alloc s = some (r,t)) :
    t.held = s.held ∧ t.supply ⊆ s.supply ∧ t.icache = s.icache ∧ Assign i s t ∧
      (alloc = false ∨ word s.disk (bdevBlkSize * a + 4 * j) 4 ≠ 0 → t = s) ∧
      (∀ e, r = .error e → alloc = true → Starved s t) ∧
      ∀ b, r = .ok b → b ≠ 0 ∧ word t.disk (bdevBlkSize * a + 4 * j) 4 = b := by
  unfold entrySlot at h
  rw [get_bind] at h
  split at h
  · rename_i hw
    cases h
    refine ⟨rfl,fun _ hx => hx,rfl,.quiet (.refl _),fun _ => rfl,fun _ he => (nomatch he),?_⟩
    rintro _ ⟨⟩
    exact ⟨hw,rfl⟩
  · rename_i hw
    cases alloc with
    | false =>
      cases h
      exact ⟨rfl,fun _ hx => hx,rfl,.quiet (.refl _),fun _ => rfl,fun _ _ ha => (nomatch ha),fun _ hb => nomatch hb⟩
    | true =>
      simp only [unless_true] at h
      obtain ⟨r',u,hal,h⟩ := bind_some.mp h
      obtain ⟨hsame,⟨e,rfl,hd,hwhy⟩ | ⟨b,rfl,hb,hd,-⟩⟩ := allocDataBlock_some hal
      · cases h
        exact ⟨hsame.held,hsame.supply,hsame.icache,.quiet ⟨hsame.sb,hd,hsame.icache⟩,
          fun hor => absurd hor (by simpa using hw),
          fun _ _ _ => hwhy,fun _ hb => nomatch hb⟩
      · simp only [modifyDisk,modify_bind] at h
        cases h
        refine ⟨hsame.held,hsame.supply,hsame.icache,?_,fun hor => absurd hor (by simpa using hw),
          fun _ he => (nomatch he),?_⟩
        · subst ha
          exact .entry k j b c hb hk hc hnz (not_not.mp hw) hsame.sb (by simp only [hd]) hsame.icache
        · rintro _ ⟨⟩
          refine ⟨hb.ne_zero,?_⟩
          simp only [word_putWord]
          exact Nat.mod_eq_of_lt hb.lt

lemma Grow.single (h : Assign i s t) : Grow i s t := Relation.ReflTransGen.single h

lemma Grow.trans {u : Fs} (h : Grow i s t) (h' : Grow i t u) : Grow i s u := Relation.ReflTransGen.trans h h'

lemma Quiet.grow (h : Quiet s t) : Grow i s t := .single (.quiet h)

section
variable (hs : Owned s) (hc : s.icache i = some c)
include hs hc

lemma blkAt_of_addr (h : idx < sfsNdirect) : blkAt s.disk i idx = c.iAddrs idx := by
  have hm : idx < maxBlks := Nat.lt_of_lt_of_le h (by decide)
  rw [blkAt,if_pos hm,dataSlot,if_pos h,slotVal,hs.addrs i c hc idx (Nat.lt_of_lt_of_le h (by decide))]

lemma blkAt_of_entry (h : ¬idx < sfsNdirect)
    (hm : idx < maxBlks) (hnz : c.iAddrs (sfsNdirect + (idx - sfsNdirect) / ptrsPerBlk) ≠ 0) :
    blkAt s.disk i idx = word s.disk (bdevBlkSize * c.iAddrs (sfsNdirect + (idx - sfsNdirect) / ptrsPerBlk) +
      4 * ((idx - sfsNdirect) % ptrsPerBlk)) 4 := by
  have hb := dataSlot_bounded (i := i) hm
  rw [dataSlot,if_neg h] at hb
  rw [hs.addrs i c hc _ hb.2.1] at hnz ⊢
  rw [blkAt,if_pos hm,dataSlot,if_neg h,slotVal,if_neg hnz]

lemma iAddrs_ne_zero (h : ¬idx < sfsNdirect) (hm : idx < maxBlks) (hnz : blkAt s.disk i idx ≠ 0) :
    c.iAddrs (sfsNdirect + (idx - sfsNdirect) / ptrsPerBlk) ≠ 0 := fun hz => by
  have hb := dataSlot_bounded (i := i) hm
  rw [dataSlot,if_neg h] at hb
  rw [hs.addrs i c hc _ hb.2.1] at hz
  rw [blkAt,if_pos hm,dataSlot,if_neg h,slotVal,if_pos hz] at hnz
  exact hnz rfl

end

lemma Full.congr (h : Full s) (hsb : t.sb = s.sb) (hd : t.disk = s.disk) : Full t := by
  unfold Full
  rwa [hsb,hd]

lemma Starved.of_quiet {u : Fs} (h : Starved s t) (hq : Quiet t u) : Starved s u :=
  h.imp_right fun hf => hf.congr hq.sb hq.disk

lemma Starved.before {r : Fs} (h : Starved s t) (hs : s.supply ⊆ r.supply) : Starved r t :=
  h.imp_left fun hx => hs hx

structure FoundBlk (i idx : Nat) (alloc : Bool) (s t : Fs) (r : Except SfsErr Nat) : Prop where
  grow : Grow i s t
  supply : t.supply ⊆ s.supply
  pins : ∀ x, pins t x = pins s x
  quiet : alloc = false ∨ blkAt s.disk i idx ≠ 0 → Quiet s t
  starved : ∀ e, r = .error e → alloc = true → Starved s t
  blk : ∀ b, r = .ok b → b ≠ 0 ∧ blkAt t.disk i idx = b ∧ t.held = s.held

lemma findBlk_some (hs : Owned s) (hp : Pinned s i) (hc : s.icache i = some c) (hm : idx < maxBlks)
    (h : findBlk i idx alloc s = some ((ibh,r),t)) : FoundBlk i idx alloc s t r := by
  unfold findBlk at h
  split at h
  · rename_i hd
    obtain ⟨r',u,ha,h⟩ := bind_some.mp h
    cases h
    obtain ⟨hheld,hsub,hassign,hq,hwhy,hok⟩ := addrSlot_some hp hc (Nat.lt_of_lt_of_le hd (by decide)) ha
    refine ⟨.single hassign,hsub,pins_of_held hheld,fun ha => ?_,hwhy,fun b hb => ?_⟩
    · rw [blkAt_of_addr hs hc hd] at ha
      exact hq ha ▸ .refl _
    obtain ⟨hnz,c',hc',rfl⟩ := hok b hb
    exact ⟨hnz,blkAt_of_addr (hs.assign hassign).1 hc' hd,hheld⟩
  · rename_i hd
    have hbd := dataSlot_bounded (i := i) hm
    rw [dataSlot,if_neg hd] at hbd
    obtain ⟨-,h⟩ := kassert_bind.mp h
    obtain ⟨r',u,ha,h⟩ := bind_some.mp h
    obtain ⟨hheld,hsub,hassign,hq,hwhy,hok⟩ := addrSlot_some hp hc hbd.2.1 ha
    have hu := (hs.assign hassign).1
    replace hq : alloc = false ∨ blkAt s.disk i idx ≠ 0 → u = s := fun hor =>
      hq (hor.imp_right (iAddrs_ne_zero hs hc hd hm))
    cases r' with
    | error e =>
      cases h
      exact ⟨.single hassign,hsub,pins_of_held hheld,fun ha => hq ha ▸ .refl _,fun _ _ ha => hwhy e rfl ha,
        fun _ hb => nomatch hb⟩
    | ok a =>
      obtain ⟨hnz,c',hc',hca⟩ := hok a rfl
      obtain ⟨-,h⟩ := kassert_bind.mp h
      obtain ⟨ok,v,hg,h⟩ := bind_some.mp h
      obtain ⟨sup,hsub',hno,rfl⟩ := acquire_some hg
      have hgu := acquire_quiet hg
      have hsup := List.Subset.trans hsub' hsub
      cases ok with
      | false =>
        cases h
        exact ⟨(Grow.single hassign).trans hgu.grow,hsup,pins_of_held hheld,fun ha => hq ha ▸ hgu,
          fun _ _ _ => .inl (hsub (hno rfl)),fun _ hb => nomatch hb⟩
      | true =>
        simp only [unless_true,if_true] at h
        obtain ⟨r'',w,he,h⟩ := bind_some.mp h
        obtain ⟨hheld',hsub'',hic,hassign',hq',hwhy',hok'⟩ := entrySlot_some (i := i) (by exact hc') hbd hca hnz he
        replace hq' : alloc = false ∨ blkAt s.disk i idx ≠ 0 →
            w = { u with held := (a,true) :: u.held, supply := sup } := fun hor => by
          have hus := hq hor
          subst hus
          refine hq' (hor.imp_right fun hb => ?_)
          cases hc.symm.trans hc'
          rw [blkAt_of_entry hs hc hd hm (by rwa [hca]),hca] at hb
          exact hb
        have hgrow : Grow i s w := (Grow.single hassign).trans (hgu.grow.trans (.single hassign'))
        have hpin : ∀ x, pins w x = pins s x := fun x =>
          (pins_of_held hheld' x).trans ((acquire_pins hg x).trans (by simp [pins_of_held hheld x]))
        cases r'' with
        | error e =>
          cases h
          exact ⟨hgrow,List.Subset.trans hsub'' hsup,hpin,fun ha => hq' ha ▸ hq ha ▸ hgu,
            fun _ _ ha => (hwhy' e rfl ha).before hsup,fun _ hb => nomatch hb⟩
        | ok b =>
          obtain ⟨_,x,hr,h⟩ := bind_some.mp h
          cases h
          have hrq := release_quiet hr
          have hw := (hs.grow hgrow).1
          refine ⟨hgrow.trans hrq.grow,?_,fun x => ?_,fun ha => ?_,fun _ he => (nomatch he),?_⟩
          · obtain ⟨-,rfl⟩ := release_some hr
            exact List.Subset.trans hsub'' hsup
          · rw [← hpin x,release_pins hr x]
            simp
          · have hwq := hq' ha
            subst hwq
            have hsu := hq ha
            subst hsu
            exact hgu.trans hrq
          · rintro _ ⟨⟩
            obtain ⟨hbnz,hbw⟩ := hok' b rfl
            have hcw : w.icache i = some c' := by rw [hic]; exact hc'
            subst hca
            refine ⟨hbnz,?_,?_⟩
            · rw [hrq.disk,blkAt_of_entry hw hcw hd hm hnz,hbw]
            · obtain ⟨-,rfl⟩ := release_some hr
              simp only [hheld',List.erase_cons_head,hheld]

lemma getDataFail_some {e : SfsErr} (h : getDataFail i ibh e s = some (r,t)) : r = .error e ∧ Quiet s t ∧ t.supply = s.supply ∧
      ∀ x, pins s x = pins t x + if x = inumToBlk i then 1 else 0 := by
  unfold getDataFail at h
  cases ibh with
  | none =>
    simp only [bind_some,pure_some] at h
    obtain ⟨_,u,hr,rfl,rfl⟩ := h
    have hp := release_pins hr
    obtain ⟨-,rfl⟩ := release_some hr
    exact ⟨rfl,⟨rfl,rfl,rfl⟩,rfl,by simpa using hp⟩
  | some a =>
    simp only [bind_some,pure_some] at h
    obtain ⟨_,u,hr,_,v,hr',rfl,rfl⟩ := h
    have hp := release_pins hr
    have hp' := release_pins hr'
    obtain ⟨-,rfl⟩ := release_some hr
    obtain ⟨-,rfl⟩ := release_some hr'
    refine ⟨rfl,⟨rfl,rfl,rfl⟩,rfl,fun x => ?_⟩
    rw [hp x,hp' x]
    simp

structure GotBlk (i ofs : Nat) (alloc : Bool) (s t : Fs) (r : Except SfsErr Nat) : Prop where
  bound : ofs < sfsMaxFileSize
  grow : Grow i s t
  supply : t.supply ⊆ s.supply
  pins : ∀ x, pins t x = pins s x
  quiet : alloc = false ∨ blkAt s.disk i (ofs / bdevBlkSize) ≠ 0 → Quiet s t
  starved : ∀ e, r = .error e → alloc = true → Starved s t
  blk : ∀ b, r = .ok b → b ≠ 0 ∧ blkAt t.disk i (ofs / bdevBlkSize) = b ∧ t.held = (b,true) :: s.held

lemma getDataBlock_some {ofs : Nat} (hs : Owned s)
    (hc : s.icache i = some c) (h : getDataBlock i ofs alloc s = some (r,t)) : GotBlk i ofs alloc s t r := by
  unfold getDataBlock at h
  obtain ⟨hofs,h⟩ := kassert_bind.mp h
  rw [decide_eq_true_eq] at hofs
  have hm : ofs / bdevBlkSize < maxBlks := Nat.div_lt_of_lt_mul hofs
  obtain ⟨ok,u,ha,h⟩ := bind_some.mp h
  have hqu := acquire_quiet ha
  cases ok with
  | false =>
    obtain ⟨sup,hsub,hno,rfl⟩ := acquire_false ha
    cases h
    exact ⟨hofs,hqu.grow,hsub,fun _ => rfl,fun _ => hqu,fun _ _ _ => .inl hno,fun _ hb => nomatch hb⟩
  | true =>
    have hpu := acquire_pins ha
    obtain ⟨sup,hsub,rfl⟩ := acquire_true ha
    simp only [unless_true] at h
    obtain ⟨⟨ibh,r'⟩,v,hf,h⟩ := bind_some.mp h
    have hfound := findBlk_some (hs.quiet hqu) (by simp [Pinned]) hc hm hf
    have hsv := List.Subset.trans hfound.supply hsub
    have hpv : ∀ x, pins v x = pins s x + if x = inumToBlk i then 1 else 0 := fun x => by
      rw [hfound.pins x,hpu x]
      simp
    cases r' with
    | error e =>
      obtain ⟨rfl,hqt,hst,hpt⟩ := getDataFail_some h
      refine ⟨hofs,hqu.grow.trans (hfound.grow.trans hqt.grow),hst ▸ hsv,fun x => ?_,
        fun ha => hqu.trans ((hfound.quiet ha).trans hqt),
        fun _ _ ha => ((hfound.starved e rfl ha).of_quiet hqt).before hsub,fun _ hb => nomatch hb⟩
      have h1 := hpv x
      have h2 := hpt x
      omega
    | ok b =>
      obtain ⟨hnz,hblk,hheld⟩ := hfound.blk b rfl
      obtain ⟨-,h⟩ := kassert_bind.mp h
      obtain ⟨ok,w,hg,h⟩ := bind_some.mp h
      have hqw := acquire_quiet hg
      cases ok with
      | false =>
        obtain ⟨sup',hsub',hno',rfl⟩ := acquire_false hg
        obtain ⟨rfl,hqt,hst,hpt⟩ := getDataFail_some h
        refine ⟨hofs,hqu.grow.trans (hfound.grow.trans (hqw.trans hqt).grow),
          hst ▸ List.Subset.trans hsub' hsv,fun x => ?_,
          fun ha => hqu.trans ((hfound.quiet ha).trans (hqw.trans hqt)),
          fun _ _ _ => .inl (hsv hno'),fun _ hb => nomatch hb⟩
        have h1 := hpv x
        have h2 : pins v x = _ := hpt x
        omega
      | true =>
        have hpw := acquire_pins hg
        obtain ⟨sup',hsub',rfl⟩ := acquire_true hg
        simp only [unless_true,bind_some] at h
        obtain ⟨_,x,hr,h⟩ := h
        cases h
        have hqt := release_quiet hr
        have hpin : ∀ x, pins t x = pins s x := fun x => by
          have h1 := hpv x
          have h2 := hpw x
          have h3 := release_pins hr x
          simp only [Bool.true_eq_false,false_and,if_false,true_and] at h2 h3
          omega
        obtain ⟨-,rfl⟩ := release_some hr
        refine ⟨hofs,hqu.grow.trans (hfound.grow.trans (hqw.trans hqt).grow),List.Subset.trans hsub' hsv,hpin,
          fun ha => hqu.trans ((hfound.quiet ha).trans (hqw.trans hqt)),fun _ he => (nomatch he),?_⟩
        rintro _ ⟨⟩
        exact ⟨hnz,hblk,by simp [hheld]⟩

end MappedMemory.Sfs
