import MappedMemory.Pmem.Boot

namespace MappedMemory

open Option (bind_eq_bind bind_eq_some_iff some_inj)
open Prod (ext_iff mk_inj)
open Dyadic

namespace Pmem

def upTo (s : Pmem) (x : Nat) : Pmem := { s with pagemapEnd := x }

structure Built (s : Pmem) (x : Nat) : Prop where
  good : (s.upTo x).Good
  fresh : ∀ q ≥ x, s.refcnt q = 0
  single : ∀ q, 0 < s.refcnt q → s.order q = 0

variable {s t : Pmem} {x k : Nat}

lemma mem_upTo_live {b : Blk} : b ∈ (s.upTo x).live ↔ b.1 < x ∧ 0 < s.refcnt b.1 ∧ b.2 = s.order b.1 := Iff.rfl

lemma Built.inside (h : Built s x) {b : Blk} (hb : b ∈ s.freeBlk) : b.1 + 2^b.2 ≤ x :=
  h.good.tiling.inside b (.inl hb)

lemma Built.lt (h : Built s x) {b : Blk} (hb : b ∈ s.freeBlk) : b.1 < x :=
  h.good.tiling.lt_of_mem (.inl hb) (mem_head b)

lemma Built.mark (h : Built s x) : Built (Boot.markAllocated s x) (x+1) := by
  have href : ∀ q, (Boot.markAllocated s x).refcnt q = if q = x then 1 else s.refcnt q := fun q => by
    simp [Boot.markAllocated]
  have hord : ∀ q, (Boot.markAllocated s x).order q = if q = x then 0 else s.order q := fun q => by
    simp [Boot.markAllocated]
  have hlive : ∀ b, b ∈ ((Boot.markAllocated s x).upTo (x+1)).live ↔
      b ∈ (s.upTo x).live ∨ b = (x,0) := by
    intro b
    simp only [mem_upTo_live,href,hord,ext_iff]
    by_cases hb : b.1 = x
    · simp [hb]
    · simp only [hb,if_false,false_and,or_false]
      exact and_congr_left fun _ => by omega
  refine ⟨⟨?_,?_,h.good.nodup,?_,?_,?_⟩,?_,?_⟩
  · refine h.good.tiling.extend (k := 0) (by simp) fun b => ?_
    change b ∈ s.freeBlk ∨ b ∈ ((Boot.markAllocated s x).upTo (x+1)).live ↔
      (b ∈ s.freeBlk ∨ b ∈ (s.upTo x).live) ∨ b = (x,0)
    rw [hlive,or_assoc]
  · intro b hb ho
    rcases (hlive b).mp ho with ho | rfl
    · exact h.good.apart b hb ho
    · exact absurd (h.lt hb) (lt_irrefl x)
  · intro b hb
    obtain ⟨h1,h2⟩ := h.good.free_page b hb
    change (s.pagemap b.1) = _ at h2
    change b.2 ≤ maxOrder ∧ (Boot.markAllocated s x).pagemap b.1 = _
    rw [pagemap_eq,Page.mk.injEq] at h2
    have hne : b.1 ≠ x := (h.lt hb).ne
    rw [pagemap_eq,href,hord,if_neg hne,if_neg hne,h2.1,h2.2]
    exact ⟨h1,rfl⟩
  · intro b hb
    refine ⟨?_,hb.2.2.symm⟩
    rcases (hlive b).mp hb with ho | rfl
    · exact (h.good.own_page b ho).1
    · exact Nat.zero_le _
  · exact fun p hp hr => ⟨_,head_live hp hr⟩
  · intro q hq
    rw [href,if_neg (by omega)]
    exact h.fresh q (by omega)
  · intro q hq
    rw [href] at hq
    rw [hord]
    split at hq
    · rename_i he
      rw [if_pos he]
    · rename_i he
      rw [if_neg he,h.single q hq]

lemma Built.insert (h : Built s x) (hal : 2^k ∣ x) (hk : k ≤ maxOrder) :
    ∃ t, (s.setOrder x k).freeblocksInsert x = some t ∧ Built t (x + 2^k) ∧
      t.pagemapEnd = s.pagemapEnd ∧ (∀ q, t.refcnt q = s.refcnt q) ∧
      ∀ b, b ∈ t.freeBlk ↔ b ∈ s.freeBlk ∨ b = (x,k) := by
  have hpos : 0 < 2^k := by positivity
  have hox : (s.setOrder x k).order x = k := by simp
  obtain ⟨t,ht,hend,href,hord,hfree⟩ := freeblocksInsert_spec (hox.trans_le hk)
  have hr : ∀ q, t.refcnt q = s.refcnt q := by
    intro q
    rw [href,setOrder_refcnt]
    split
    · rename_i hq
      rw [hq,h.fresh x le_rfl]
    · rfl
  have ho : ∀ q, t.order q = if q = x then k else s.order q := fun q => by rw [hord,setOrder_order]
  have hmem : ∀ b, b ∈ t.freeBlk ↔ b ∈ s.freeBlk ∨ b = (x,k) := by
    intro b
    rw [mem_freeBlk,hfree,hox,setOrder_freeblocks]
    split
    · rename_i hb
      simp [mem_freeBlk,ext_iff,hb]
    · rename_i hb
      simp [mem_freeBlk,ext_iff,hb]
  have hlive : ∀ b, b ∈ (t.upTo (x + 2^k)).live ↔ b ∈ (s.upTo x).live := by
    intro b
    simp only [mem_upTo_live,hr,ho]
    by_cases hb : b.1 < x
    · rw [if_neg hb.ne]
      exact and_congr_left fun _ => by omega
    · simp [hb,h.fresh b.1 (Nat.not_lt.mp hb)]
  refine ⟨t,ht,⟨⟨?_,?_,?_,?_,?_,?_⟩,?_,?_⟩,hend,hr,hmem⟩
  · refine h.good.tiling.extend hal fun b => ?_
    change b ∈ t.freeBlk ∨ b ∈ (t.upTo (x + 2^k)).live ↔
      (b ∈ s.freeBlk ∨ b ∈ (s.upTo x).live) ∨ b = (x,k)
    rw [hmem,hlive]
    tauto
  · intro b hb hl
    rw [hlive] at hl
    rcases (hmem b).mp hb with hb | rfl
    · exact h.good.apart b hb hl
    · exact absurd hl.1 (lt_irrefl x)
  · intro j
    change (t.freeblocks j).Nodup
    rw [hfree]
    have hnew : x ∉ s.freeblocks j := fun hx => absurd (h.lt (b := (x,j)) hx) (lt_irrefl x)
    split
    · exact List.Nodup.append (h.good.nodup j) (by simp) (by simpa using hnew)
    · exact h.good.nodup j
  · intro b hb
    change b.2 ≤ maxOrder ∧ t.pagemap b.1 = _
    rw [pagemap_eq,hr,ho]
    rcases (hmem b).mp hb with hb | rfl
    · obtain ⟨h1,h2⟩ := h.good.free_page b hb
      change (s.pagemap b.1) = _ at h2
      rw [pagemap_eq,Page.mk.injEq] at h2
      rw [if_neg (h.lt hb).ne,h2.1,h2.2]
      exact ⟨h1,rfl⟩
    · simp [hk,h.fresh x le_rfl]
  · intro b hb
    exact ⟨(h.good.own_page b ((hlive b).mp hb)).1,hb.2.2.symm⟩
  · exact fun p hp hr => ⟨_,head_live hp hr⟩
  · intro q hq
    rw [hr]
    exact h.fresh q (by omega)
  · intro q hq
    rw [hr] at hq
    have hne : q ≠ x := fun he => hq.ne' (he ▸ h.fresh x le_rfl)
    rw [ho,if_neg hne,h.single q hq]

lemma getMaxPageOrderFrom_spec {start stop : Nat} (h : start < stop) (m : Nat) :
    2^getMaxPageOrderFrom start stop m ∣ start ∧ start + 2^getMaxPageOrderFrom start stop m ≤ stop ∧
      getMaxPageOrderFrom start stop m ≤ m ∧ ∀ j, getMaxPageOrderFrom start stop m < j → j ≤ m →
        ¬ (2^j ∣ start ∧ start + 2^j ≤ stop) := by
  induction m with
  | zero => exact ⟨by simp [getMaxPageOrderFrom],h,le_rfl,fun j h1 h2 => by omega⟩
  | succ m ih =>
    rw [getMaxPageOrderFrom]
    split
    · rename_i hc
      exact ⟨Nat.dvd_of_mod_eq_zero hc.1,hc.2,le_rfl,fun j h1 h2 => by omega⟩
    · rename_i hc
      obtain ⟨h1,h2,h3,h4⟩ := ih
      refine ⟨h1,h2,by omega,fun j hj hjm hd => ?_⟩
      rcases Nat.eq_or_lt_of_le hjm with rfl | hlt
      · exact hc ⟨Nat.mod_eq_zero_of_dvd hd.1,hd.2⟩
      · exact h4 j hj (by omega) hd

def Settled (s : Pmem) (x stop : Nat) : Prop :=
  NoBuddies s.freeBlk maxOrder ∧ ∀ b ∈ s.freeBlk, b.2 < maxOrder → b.1 + 2^b.2 = x →
    ¬ (2^(b.2+1) ∣ b.1 ∧ b.1 + 2^(b.2+1) ≤ stop)

lemma Built.settled_insert (h : Built s x) {stop : Nat} (hal : 2^k ∣ x) (hstop : x + 2^k ≤ stop)
    (hmax : ∀ j, k < j → j ≤ maxOrder → ¬ (2^j ∣ x ∧ x + 2^j ≤ stop)) (hs : Settled s x stop)
    (hfree : ∀ b, b ∈ t.freeBlk ↔ b ∈ s.freeBlk ∨ b = (x,k)) : Settled t (x + 2^k) stop := by
  have hpos : 0 < 2^k := by positivity
  have halone : k < maxOrder → buddy (x,k) ∉ s.freeBlk := by
    intro hk hb
    have hin : buddyHead x k + 2^k ≤ x := h.inside hb
    rcases buddyHead_cases hal with ⟨_,he⟩ | ⟨hd,he⟩
    · omega
    · refine hs.2 _ hb hk he.symm ⟨hd,?_⟩
      have hpow : 2^(k+1) = 2^k + 2^k := by ring
      change buddyHead x k + 2^(k+1) ≤ stop
      omega
  refine ⟨?_,?_⟩
  · intro b hb hlt hbf
    rcases (hfree b).mp hb with hb | rfl
    · rcases (hfree _).mp hbf with hbf | he
      · exact hs.1 b hb hlt hbf
      · have hbk : b.2 = k := congrArg Prod.snd he
        refine halone (hbk ▸ hlt) ?_
        rw [← he,buddy_buddy (h.good.tiling.aligned b (.inl hb))]
        exact hb
    · rcases (hfree _).mp hbf with hbf | he
      · exact halone hlt hbf
      · exact buddy_ne (b := (x,k)) hal (congrArg Prod.fst he)
  · intro b hb hlt hend
    rcases (hfree b).mp hb with hb | rfl
    · have := h.inside hb
      omega
    · exact hmax (k+1) (Nat.lt_succ_self k) hlt

lemma freeblocksInsertRange_spec (fuel stop : Nat) (h : Built s x) (hx : x ≤ stop)
    (hfuel : stop - x ≤ fuel) : ∃ t, freeblocksInsertRange fuel s x stop = some t ∧ Built t stop ∧
      t.pagemapEnd = s.pagemapEnd ∧ (∀ q, t.refcnt q = s.refcnt q) ∧
      (Settled s x stop → NoBuddies t.freeBlk maxOrder) := by
  induction fuel generalizing s x with
  | zero =>
    have he : x = stop := by omega
    subst he
    exact ⟨s,by simp [freeblocksInsertRange],h,rfl,fun _ => rfl,fun hs => hs.1⟩
  | succ fuel ih =>
    rcases Nat.eq_or_lt_of_le hx with rfl | hlt
    · exact ⟨s,by simp [freeblocksInsertRange],h,rfl,fun _ => rfl,fun hs => hs.1⟩
    obtain ⟨hal,hstop,hk,hmax⟩ := getMaxPageOrderFrom_spec hlt maxOrder
    have hord : getMaxPageOrder x stop = some (getMaxPageOrderFrom x stop maxOrder) := if_pos hlt
    generalize getMaxPageOrderFrom x stop maxOrder = k at hal hstop hk hmax hord
    have hpos : 0 < 2^k := by positivity
    obtain ⟨u,hu,hbuilt,hend,href,hfree⟩ := h.insert hal hk
    obtain ⟨t,ht,htb,htend,htref,hset⟩ := ih hbuilt hstop (by omega)
    refine ⟨t,?_,htb,htend.trans hend,fun q => (htref q).trans (href q),fun hs => ?_⟩
    · simpa [freeblocksInsertRange,hlt,hord,hu] using ht
    · exact hset (h.settled_insert hal hstop hmax hs hfree)

end Pmem

namespace Boot
open Pmem

variable {b : Boot} {s : Pmem} {bitmap r : Nat → Bool} {index n : Nat} {c : Boot}

lemma probeFrom_spec (bitmap : Nat → Bool) (left probe : Nat) :
    probe ≤ probeFrom bitmap left probe ∧ probeFrom bitmap left probe ≤ probe + left ∧
      (∀ i, probe ≤ i → i < probeFrom bitmap left probe → bitmap i = false) ∧
      (probeFrom bitmap left probe < probe + left → bitmap (probeFrom bitmap left probe) = true) := by
  induction left generalizing probe with
  | zero => exact ⟨le_rfl,le_rfl,fun i h1 h2 => by simp only [probeFrom] at h2; omega,fun h => by simp [probeFrom] at h⟩
  | succ left ih =>
    rw [probeFrom]
    split
    · rename_i hb
      exact ⟨le_rfl,by omega,fun i h1 h2 => by omega,fun _ => hb⟩
    · rename_i hb
      obtain ⟨h1,h2,h3,h4⟩ := ih (probe+1)
      refine ⟨by omega,by omega,fun i hi hlt => ?_,fun h => h4 (by omega)⟩
      rcases Nat.eq_or_lt_of_le hi with rfl | hlt'
      · simpa using hb
      · exact h3 i hlt' hlt

def Edge (b : Boot) (s : Pmem) (index : Nat) : Prop :=
  NoBuddies s.freeBlk maxOrder ∧ ((∀ c ∈ s.freeBlk, c.1 + 2^c.2 ≠ b.pmemStart + index) ∨
    0 < index ∧ b.bitmap (index-1) = false ∧ (index < b.bitmapContigStart → b.bitmap index = true))

lemma freeblocksScan_spec (fuel index : Nat) (h : Built s (b.pmemStart + index))
    (hle : index ≤ b.bitmapContigStart) (hfuel : b.bitmapContigStart - index ≤ fuel) :
    ∃ t, freeblocksScan b fuel s index = some t ∧ Built t (b.pmemStart + b.bitmapContigStart) ∧
      t.pagemapEnd = s.pagemapEnd ∧
      (∀ q, t.refcnt q = if ∃ i < b.bitmapContigStart, index ≤ i ∧ b.bitmap i = true ∧ q = b.pmemStart + i
        then 1 else s.refcnt q) ∧
      (b.Edge s index → b.Edge t b.bitmapContigStart) := by
  have done (s : Pmem) (q : Nat) : s.refcnt q =
      if ∃ i < b.bitmapContigStart, b.bitmapContigStart ≤ i ∧ b.bitmap i = true ∧ q = b.pmemStart + i
      then 1 else s.refcnt q := by
    rw [if_neg]
    rintro ⟨i,h1,h2,_⟩
    omega
  induction fuel generalizing s index with
  | zero =>
    have he : index = b.bitmapContigStart := by omega
    refine ⟨s,?_,he ▸ h,rfl,he ▸ done s,fun hs => he ▸ hs⟩
    rw [freeblocksScan,if_neg (by omega)]
  | succ fuel ih =>
    rcases Nat.eq_or_lt_of_le hle with he | hlt
    · refine ⟨s,?_,he ▸ h,rfl,he ▸ done s,fun hs => he ▸ hs⟩
      rw [freeblocksScan,if_neg (by omega)]
    rw [freeblocksScan,if_pos hlt]
    by_cases hbit : b.bitmap index = true
    · rw [if_pos hbit]
      obtain ⟨t,ht,htb,htend,htref,htedge⟩ := ih _ h.mark hlt (by omega)
      refine ⟨t,ht,htb,htend,fun q => ?_,fun hs => htedge ⟨hs.1,.inl fun c hc => ?_⟩⟩
      · rw [htref]
        by_cases hq : q = b.pmemStart + index
        · have hpos : ∃ i < b.bitmapContigStart, index ≤ i ∧ b.bitmap i = true ∧ q = b.pmemStart + i :=
            ⟨index,hlt,le_rfl,hbit,hq⟩
          rw [if_pos hpos]
          split
          · rfl
          · simp [markAllocated,hq]
        · have hiff : (∃ i < b.bitmapContigStart, index + 1 ≤ i ∧ b.bitmap i = true ∧ q = b.pmemStart + i) ↔
              ∃ i < b.bitmapContigStart, index ≤ i ∧ b.bitmap i = true ∧ q = b.pmemStart + i := by
            refine exists_congr fun i => and_congr_right fun _ => ?_
            refine ⟨fun hi => ⟨by omega,hi.2⟩,fun hi => ⟨?_,hi.2⟩⟩
            rcases Nat.eq_or_lt_of_le hi.1 with he | hl
            · exact absurd (he ▸ hi.2.2) hq
            · exact hl
          have hkeep : (markAllocated s (b.pmemStart + index)).refcnt q = s.refcnt q := by
            simp [markAllocated,hq]
          simp only [hiff,hkeep]
      · have := h.inside (b := c) hc
        omega
    · rw [if_neg hbit]
      have hzero : b.bitmap index = false := by simpa using hbit
      obtain ⟨h1,h2,h3,h4⟩ := probeFrom_spec b.bitmap (b.bitmapContigStart - (index+1)) (index+1)
      generalize probeFrom b.bitmap (b.bitmapContigStart - (index+1)) (index+1) = probe at h1 h2 h3 h4
      have hclear : ∀ i, index ≤ i → i < probe → b.bitmap i = false := by
        intro i hi hp
        rcases Nat.eq_or_lt_of_le hi with rfl | hl
        · exact hzero
        · exact h3 i hl hp
      obtain ⟨u,hu,hub,huend,huref,huset⟩ := freeblocksInsertRange_spec (probe - index)
        (b.pmemStart + probe) h (by omega) (by omega)
      obtain ⟨t,ht,htb,htend,htref,htedge⟩ := ih _ hub (by omega) (by omega)
      refine ⟨t,by simpa [hu] using ht,htb,htend.trans huend,fun q => ?_,fun hs => htedge ⟨?_,.inr ?_⟩⟩
      · have hiff : (∃ i < b.bitmapContigStart, probe ≤ i ∧ b.bitmap i = true ∧ q = b.pmemStart + i) ↔
            ∃ i < b.bitmapContigStart, index ≤ i ∧ b.bitmap i = true ∧ q = b.pmemStart + i := by
          refine exists_congr fun i => and_congr_right fun _ => ?_
          refine ⟨fun hi => ⟨by omega,hi.2⟩,fun hi => ⟨?_,hi.2⟩⟩
          by_contra hp
          simp [hclear i hi.1 (by omega)] at hi
        rw [htref]
        simp only [hiff,huref]
      · refine huset ⟨hs.1,fun c hc _ hend => ?_⟩
        rcases hs.2 with hgap | ⟨_,_,hset⟩
        · exact absurd hend (hgap c hc)
        · simp [hset hlt] at hzero
      · exact ⟨by omega,hclear _ (by omega) (by omega),fun hp => h4 (by omega)⟩

lemma setBits_spec (h : setBits bitmap index n = some r) (i : Nat) :
    r i = if index ≤ i ∧ i < index + n then true else bitmap i := by
  induction n generalizing r with
  | zero =>
    obtain rfl : bitmap = r := by simpa [setBits] using h
    rw [if_neg (by omega)]
  | succ n ih =>
    simp only [setBits,bind_eq_bind,bind_eq_some_iff] at h
    obtain ⟨u,hu,h⟩ := h
    split at h
    · simp at h
    · cases h
      rw [Function.update_apply,ih hu]
      split_ifs <;> first | rfl | omega

lemma unsetBits_spec (h : unsetBits bitmap index n = some r)
    (i : Nat) : r i = if index ≤ i ∧ i < index + n then false else bitmap i := by
  induction n generalizing r with
  | zero =>
    obtain rfl : bitmap = r := by simpa [unsetBits] using h
    rw [if_neg (by omega)]
  | succ n ih =>
    simp only [unsetBits,bind_eq_bind,bind_eq_some_iff] at h
    obtain ⟨u,hu,h⟩ := h
    split at h
    · cases h
      rw [Function.update_apply,ih hu]
      split_ifs <;> first | rfl | omega
    · simp at h

lemma scanDown_spec (bitmap : Nat → Bool) (index : Nat) : scanDown bitmap index ≤ index ∧
    (scanDown bitmap index = 0 ∨ bitmap (scanDown bitmap index - 1) = true) := by
  induction index with
  | zero => exact ⟨le_rfl,.inl rfl⟩
  | succ index ih =>
    rw [scanDown]
    split
    · rename_i hb
      exact ⟨le_rfl,.inr hb⟩
    · exact ⟨ih.1.trans (Nat.le_succ _),ih.2⟩

structure Wf (b : Boot) : Prop where
  start_le : b.pmemStart ≤ b.pmemEnd
  contig_le : b.bitmapContigStart ≤ b.bitmapEnd
  contig_top : b.bitmapContigStart = 0 ∨ b.bitmap (b.bitmapContigStart - 1) = true

lemma Wf.bitmapAlloc (h : b.Wf) (hn : 0 < n ∨ index = 0) (ha : b.bitmapAlloc index n = some c) :
    c.Wf ∧ c.pmemStart = b.pmemStart ∧ c.pmemEnd = b.pmemEnd := by
  simp only [Boot.bitmapAlloc] at ha
  split at ha
  · rename_i hin
    simp only [bind_eq_bind,bind_eq_some_iff,some_inj] at ha
    obtain ⟨r,hr,rfl⟩ := ha
    refine ⟨⟨h.start_le,?_,?_⟩,rfl,rfl⟩
    · change (if index + n > b.bitmapContigStart then index + n else b.bitmapContigStart) ≤ b.bitmapEnd
      split
      · exact hin
      · exact h.contig_le
    · simp only [setBits_spec hr]
      split
      · right
        rw [if_pos (by omega)]
      · refine h.contig_top.imp id fun htop => ?_
        split
        · rfl
        · exact htop
  · simp at ha

lemma Wf.bitmapFree (h : b.Wf) (ha : b.bitmapFree index n = some c) :
    c.Wf ∧ c.pmemStart = b.pmemStart ∧ c.pmemEnd = b.pmemEnd := by
  simp only [Boot.bitmapFree] at ha
  split at ha
  · rename_i hin
    simp only [bind_eq_bind,bind_eq_some_iff,some_inj] at ha
    obtain ⟨r,hr,rfl⟩ := ha
    obtain ⟨hle,htop⟩ := scanDown_spec r index
    refine ⟨⟨h.start_le,?_,?_⟩,rfl,rfl⟩
    · change (if index + n = b.bitmapContigStart then scanDown r index else b.bitmapContigStart) ≤ b.bitmapEnd
      split
      · omega
      · exact h.contig_le
    · by_cases he : index + n = b.bitmapContigStart
      · simpa only [he,if_true] using htop
      · simp only [he,if_false]
        refine h.contig_top.imp id fun hb => ?_
        rw [unsetBits_spec hr,if_neg (by omega)]
        exact hb
  · simp at ha

lemma Wf.pmemNalloc (h : b.Wf) {page : Option Nat} (ha : b.pmemNalloc n = some (c,page)) :
    c.Wf ∧ c.pmemStart = b.pmemStart ∧ c.pmemEnd = b.pmemEnd := by
  simp only [Boot.pmemNalloc] at ha
  split at ha
  · rename_i hn
    split at ha
    · obtain ⟨rfl,_⟩ : b = c ∧ none = page := by simpa using ha
      exact ⟨h,rfl,rfl⟩
    · simp only [Option.map_eq_some_iff,mk_inj] at ha
      obtain ⟨d,hd,rfl,_⟩ := ha
      exact h.bitmapAlloc (.inl hn) hd
  · simp at ha

lemma Wf.pmemNfree (h : b.Wf) {page : Nat} (ha : b.pmemNfree page n = some c) :
    c.Wf ∧ c.pmemStart = b.pmemStart ∧ c.pmemEnd = b.pmemEnd := by
  simp only [Boot.pmemNfree] at ha
  split at ha
  · exact h.bitmapFree ha
  · simp at ha

lemma Wf.step (h : b.Wf) {o : Op} (ho : b.step o = some c) :
    c.Wf ∧ c.pmemStart = b.pmemStart ∧ c.pmemEnd = b.pmemEnd := by
  cases o with
  | nalloc n =>
    simp only [Boot.step,Option.map_eq_some_iff] at ho
    obtain ⟨⟨d,page⟩,hd,rfl⟩ := ho
    exact h.pmemNalloc hd
  | nfree page n => exact h.pmemNfree ho

lemma bitmapInit_wf {pmemStart pmemEnd : Nat} {stale : Nat → Bool}
    (h : bitmapInit pmemStart pmemEnd stale = some b) : b.Wf ∧ b.pmemEnd = pmemEnd := by
  simp only [bitmapInit] at h
  split at h
  · rename_i hc
    obtain ⟨hwf,_,hend⟩ :=
      Wf.bitmapAlloc (b := ⟨pmemStart,pmemEnd,_,0⟩) ⟨hc.1.le,Nat.zero_le _,.inl rfl⟩ (.inr rfl) h
    exact ⟨hwf,hend⟩
  · simp at h

def isReserved (b : Boot) (page : Nat) : Bool :=
  decide (page < b.pmemStart) ||
    (decide (page - b.pmemStart < b.bitmapContigStart) && b.bitmap (page - b.pmemStart))

def reserved (b : Boot) : List Blk :=
  ((List.range b.pmemEnd).filter b.isReserved).map (fun page => (page,0))

lemma mem_reserved {c : Blk} : c ∈ b.reserved ↔ c.1 < b.pmemEnd ∧ b.isReserved c.1 = true ∧ c.2 = 0 := by
  obtain ⟨p,k⟩ := c
  simp only [reserved,List.mem_map,List.mem_filter,List.mem_range,mk_inj]
  constructor
  · rintro ⟨q,⟨h1,h2⟩,rfl,rfl⟩
    exact ⟨h1,h2,rfl⟩
  · rintro ⟨h1,h2,rfl⟩
    exact ⟨p,⟨h1,h2⟩,rfl,rfl⟩

lemma built_empty : Built ⟨n,fun _ => ⟨0,0⟩,fun _ => []⟩ 0 := by
  refine ⟨⟨⟨?_,?_,?_,?_⟩,?_,fun _ => List.nodup_nil,?_,?_,?_⟩,fun _ _ => rfl,fun _ _ => rfl⟩
  all_goals simp [freeBlk,Pmem.live,Pmem.upTo,Pmem.refcnt]

lemma markBelow_spec (x : Nat) : Built (markBelow ⟨n,fun _ => ⟨0,0⟩,fun _ => []⟩ x) x ∧
      (markBelow ⟨n,fun _ => ⟨0,0⟩,fun _ => []⟩ x).pagemapEnd = n ∧
      (markBelow ⟨n,fun _ => ⟨0,0⟩,fun _ => []⟩ x).freeblocks = (fun _ => []) ∧
      ∀ q, (markBelow ⟨n,fun _ => ⟨0,0⟩,fun _ => []⟩ x).refcnt q = if q < x then 1 else 0 := by
  induction x with
  | zero => exact ⟨built_empty,rfl,rfl,fun q => by simp [markBelow,Pmem.refcnt]⟩
  | succ x ih =>
    obtain ⟨h1,h2,h3,h4⟩ := ih
    refine ⟨h1.mark,h2,h3,fun q => ?_⟩
    simp only [markBelow,markAllocated,setOrder_refcnt,setRefcnt_refcnt,h4]
    split_ifs <;> first | rfl | omega

lemma freeblocksInit_spec (hb : b.Wf) (hn : n = b.pmemEnd)
    (h : b.freeblocksInit ⟨n,fun _ => ⟨0,0⟩,fun _ => []⟩ = some (c,s)) :
    c.Wf ∧ c.pmemEnd = b.pmemEnd ∧ s.Good ∧ s.pagemapEnd = c.pmemEnd ∧ (∀ x, x ∈ s.live ↔ x ∈ c.reserved) ∧
      NoBuddies s.freeBlk maxOrder := by
  simp only [freeblocksInit,bind_eq_bind,bind_eq_some_iff,some_inj,mk_inj] at h
  obtain ⟨d,hd,u,hu,v,hv,rfl,rfl⟩ := h
  obtain ⟨hwf,_,hend⟩ := hb.pmemNfree hd
  have hcontig := hwf.contig_le
  have hstart := hwf.start_le
  simp only [bitmapEnd] at hcontig
  obtain ⟨m1,m2,m3,m4⟩ := markBelow_spec (n := n) d.pmemStart
  obtain ⟨u',hu',hub,huend,huref,huedge⟩ := freeblocksScan_spec (b := d) d.bitmapContigStart
    0 m1 (Nat.zero_le _) le_rfl
  obtain rfl : u' = u := Option.some_inj.mp (hu'.symm.trans hu)
  obtain ⟨v',hv',hvb,hvend,hvref,hvset⟩ := freeblocksInsertRange_spec _ d.pmemEnd hub (by omega) le_rfl
  obtain rfl : v' = v := Option.some_inj.mp (hv'.symm.trans hv)
  have hvn : v'.pagemapEnd = d.pmemEnd := by rw [hvend,huend,m2,hn,hend]
  have hgood : v'.Good := by
    have hsame : v'.upTo d.pmemEnd = v' := by rw [← hvn]; rfl
    exact hsame ▸ hvb.good
  have hpos : ∀ q, 0 < v'.refcnt q ↔ d.isReserved q = true := by
    intro q
    simp only [hvref,huref,m4,isReserved,Bool.or_eq_true,Bool.and_eq_true,decide_eq_true_eq]
    split
    · rename_i hq
      obtain ⟨i,hi,_,hbit,rfl⟩ := hq
      simp [hi,hbit]
    · rename_i hq
      by_cases hlt : q < d.pmemStart
      · simp [hlt]
      · simp only [hlt,if_false,lt_irrefl,false_or,false_iff]
        exact fun hc => hq ⟨q - d.pmemStart,hc.1,Nat.zero_le _,hc.2,by omega⟩
  refine ⟨hwf,hend,hgood,hvn,fun x => ?_,?_⟩
  · rw [mem_live,mem_reserved,hvn,hpos]
    refine and_congr_right fun _ => and_congr_right fun hr => ?_
    rw [hvb.single x.1 ((hpos x.1).mpr hr)]
  · have hempty : ∀ x : Blk, x ∉ (markBelow ⟨n,fun _ => ⟨0,0⟩,fun _ => []⟩ d.pmemStart).freeBlk := by
      intro x hx
      rw [mem_freeBlk,m3] at hx
      exact absurd hx List.not_mem_nil
    obtain ⟨he1,he2⟩ := huedge ⟨fun x hx => absurd hx (hempty x),.inl fun x hx => absurd hx (hempty x)⟩
    refine hvset ⟨he1,fun x hx _ hxe => ?_⟩
    rcases he2 with hgap | ⟨hpos,hclear,_⟩
    · exact absurd hxe (hgap x hx)
    · rcases hwf.contig_top with h0 | htop
      · omega
      · simp [hclear] at htop

lemma pmemInit_spec {sizeofPage : Nat} (hb : b.Wf) (h : b.pmemInit sizeofPage = some (c,s)) :
    c.Wf ∧ c.pmemEnd = b.pmemEnd ∧ s.Good ∧ s.pagemapEnd = c.pmemEnd ∧ (∀ x, x ∈ s.live ↔ x ∈ c.reserved) ∧
      NoBuddies s.freeBlk maxOrder := by
  simp only [pmemInit,pagemapInit,bind_eq_bind,bind_eq_some_iff,Prod.exists] at h
  obtain ⟨d,u,⟨e,page,ha,hu⟩,hf⟩ := h
  cases page with
  | none => simp at hu
  | some page =>
    obtain ⟨rfl,rfl⟩ : e = d ∧ _ = u := by simpa using hu
    obtain ⟨hwf,_,hend⟩ := hb.pmemNalloc ha
    have hinit := freeblocksInit_spec hwf rfl hf
    rwa [hend] at hinit

end Boot
end MappedMemory
