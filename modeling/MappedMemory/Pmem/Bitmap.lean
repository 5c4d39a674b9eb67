import Mathlib.Order.Interval.Finset.Nat
import MappedMemory.Pmem.Blocks

namespace MappedMemory.Boot

open Option (isSome_iff_exists ite_none_right_eq_some some_inj)

variable {b c : Boot} {bitmap r : Nat → Bool} {index n i k left : Nat} {o : Op}

def FreeRun (b : Boot) (n i : Nat) : Prop := i + n ≤ b.bitmapEnd ∧ ∀ j, i ≤ j → j < i + n → b.bitmap j = false

def Smallest (b : Boot) (n : Nat) : Option Nat → Prop
  | some i => b.FreeRun n i ∧ ∀ j < i, ¬b.FreeRun n j
  | none => ∀ i, ¬b.FreeRun n i

def allocatedBelow (bitmap : Nat → Bool) (i : Nat) : Nat := Nat.count (fun j => bitmap j = true) i

lemma allocatedBelow_free (hk : k ≤ i) (h : ∀ j, i - k ≤ j → j < i → bitmap j = false) :
    allocatedBelow bitmap i = allocatedBelow bitmap (i - k) := by
  induction k with
  | zero => rfl
  | succ k ih =>
    rw [ih (by omega) fun j h1 h2 => h j (by omega) h2]
    have hlast := h (i - (k + 1)) le_rfl (by omega)
    rw [show i - k = i - (k + 1) + 1 by omega,allocatedBelow,Nat.count_succ]
    simp [hlast,allocatedBelow]

lemma bitmapFindFrom_spec (hend : i + left = b.bitmapEnd) (hk : k ≤ i) (hkn : k < n)
    (hfree : ∀ j, i - k ≤ j → j < i → b.bitmap j = false) (hback : k < i → b.bitmap (i - k - 1) = true)
    (hno : ∀ j, j + n ≤ i → ¬b.FreeRun n j) : (∃ j, b.Smallest n (some j) ∧
      bitmapFindFrom b.bitmap n left i (allocatedBelow b.bitmap i) k = some (allocatedBelow b.bitmap j)) ∨
    b.Smallest n none ∧ bitmapFindFrom b.bitmap n left i (allocatedBelow b.bitmap i) k = none := by
  induction left generalizing i k with
  | zero => exact .inr ⟨fun j hj => hno j (by have := hj.1; omega) hj,rfl⟩
  | succ left ih =>
    rw [bitmapFindFrom]
    cases hi : b.bitmap i with
    | true =>
      have hcount : allocatedBelow b.bitmap (i + 1) = allocatedBelow b.bitmap i + 1 := by
        rw [allocatedBelow,Nat.count_succ]
        simp [hi,allocatedBelow]
      rw [if_pos rfl,← hcount]
      refine ih (by omega) (Nat.zero_le _) (by omega) (fun j h1 h2 => by omega) (fun _ => by simpa using hi) ?_
      intro j hj hrun
      rcases Nat.lt_or_ge i (j + n) with hlt | hge
      · simp [hrun.2 i (by omega) hlt] at hi
      · exact hno j hge hrun
    | false =>
      have hcount : allocatedBelow b.bitmap (i + 1) = allocatedBelow b.bitmap i := by
        rw [allocatedBelow,Nat.count_succ]
        simp [hi,allocatedBelow]
      have hfree' : ∀ j, i - k ≤ j → j < i + 1 → b.bitmap j = false := fun j h1 h2 => by
        rcases Nat.lt_succ_iff_lt_or_eq.mp h2 with hlt | rfl
        · exact hfree j h1 hlt
        · exact hi
      rw [if_neg (by simp)]
      split
      · rename_i hge
        refine .inl ⟨i - k,⟨⟨by omega,fun j h1 h2 => hfree' j h1 (by omega)⟩,fun j hj => hno j (by omega)⟩,?_⟩
        rw [allocatedBelow_free hk hfree]
      · rename_i hlt
        rw [← hcount]
        refine ih (by omega) (by omega) (by omega) (fun j h1 h2 => hfree' j (by omega) h2)
          (fun h => by rw [show i + 1 - (k + 1) - 1 = i - k - 1 by omega]; exact hback (by omega)) ?_
        intro j hj hrun
        rcases Nat.lt_or_ge i (j + n) with hlt' | hge
        · have hset := hback (by omega)
          rw [hrun.2 (i - k - 1) (by omega) (by omega)] at hset
          cases hset
        · exact hno j hge hrun

lemma bitmapFind_spec (hn : 0 < n) :
    (∃ i, b.Smallest n (some i) ∧ b.bitmapFind n = some (allocatedBelow b.bitmap i)) ∨
    b.Smallest n none ∧ b.bitmapFind n = none := by
  have h := bitmapFindFrom_spec (b := b) (n := n) (i := 0) (k := 0) (Nat.zero_add _) le_rfl hn
    (fun j h1 h2 => by omega) (fun h => by omega) (fun j hj _ => by omega)
  simpa only [bitmapFind,allocatedBelow,Nat.count_zero] using h

lemma Smallest.unique {i j : Nat} (hi : b.Smallest n (some i)) (hj : b.Smallest n (some j)) : i = j := by
  rcases lt_trichotomy i j with h | h | h
  · exact absurd hi.1 (hj.2 i h)
  · exact h
  · exact absurd hj.1 (hi.2 j h)

lemma setBits_isSome (h : ∀ j, index ≤ j → j < index + n → bitmap j = false) : (setBits bitmap index n).isSome := by
  induction n with
  | zero => rfl
  | succ n ih =>
    obtain ⟨r,hr⟩ := isSome_iff_exists.mp (ih fun j h1 h2 => h j h1 (by omega))
    have hbit : r (index + n) = false := by
      rw [setBits_spec hr,if_neg (by omega)]
      exact h _ (by omega) (by omega)
    simp [setBits,hr,hbit]

lemma unsetBits_isSome (h : ∀ j, index ≤ j → j < index + n → bitmap j = true) : (unsetBits bitmap index n).isSome := by
  induction n with
  | zero => rfl
  | succ n ih =>
    obtain ⟨r,hr⟩ := isSome_iff_exists.mp (ih fun j h1 h2 => h j h1 (by omega))
    have hbit : r (index + n) = true := by
      rw [unsetBits_spec hr,if_neg (by omega)]
      exact h _ (by omega) (by omega)
    simp [unsetBits,hr,hbit]

lemma scanDown_clear (bitmap : Nat → Bool) (index : Nat) (h1 : scanDown bitmap index ≤ i) (h2 : i < index) :
    bitmap i = false := by
  induction index with
  | zero => omega
  | succ index ih =>
    rw [scanDown] at h1
    split at h1
    · omega
    · rename_i hb
      rcases Nat.lt_succ_iff_lt_or_eq.mp h2 with hlt | rfl
      · exact ih h1 hlt
      · simpa using hb

structure Settled (b : Boot) : Prop where
  clear : ∀ i, b.bitmapContigStart ≤ i → i < b.bitmapEnd → b.bitmap i = false
  top : b.bitmapContigStart = 0 ∨ b.bitmap (b.bitmapContigStart - 1) = true

lemma Settled.step (h : b.Settled) (hw : b.Wf) (hs : b.step o = some c) : c.Settled := by
  obtain ⟨hwf,hstart,hstop⟩ := hw.step hs
  have hend : c.bitmapEnd = b.bitmapEnd := by rw [bitmapEnd,bitmapEnd,hstart,hstop]
  refine ⟨fun i h1 h2 => ?_,hwf.contig_top⟩
  rw [hend] at h2
  cases o with
  | nalloc n =>
    simp only [Boot.step,Option.map_eq_some_iff,pmemNalloc,ite_none_right_eq_some] at hs
    obtain ⟨⟨d,page⟩,⟨hn,hs⟩,rfl⟩ := hs
    split at hs
    · cases hs
      exact h.clear i h1 h2
    · rename_i index hf
      simp only [Option.map_eq_some_iff,bitmapAlloc,ite_none_right_eq_some,Run.bind_some,
        some_inj,Prod.mk_inj] at hs
      obtain ⟨_,⟨_,r,hr,rfl⟩,rfl,-⟩ := hs
      simp only at h1 ⊢
      rw [setBits_spec hr,if_neg (by split at h1 <;> omega)]
      exact h.clear i (by split at h1 <;> omega) h2
  | nfree page n =>
    simp only [Boot.step,pmemNfree,bitmapFree,ite_none_right_eq_some,Run.bind_some,some_inj] at hs
    obtain ⟨_,_,r,hr,rfl⟩ := hs
    simp only at h1 ⊢
    by_cases hlow : i < page - b.pmemStart
    · split at h1
      · exact scanDown_clear r _ h1 hlow
      · omega
    · rw [unsetBits_spec hr]
      split
      · rfl
      · exact h.clear i (by split at h1 <;> omega) h2

def Request (b : Boot) : Op → Prop
  | .nalloc n => 0 < n
  | .nfree page n => 0 < n ∧ b.pmemStart ≤ page ∧ page - b.pmemStart + n ≤ b.bitmapEnd ∧
      ∀ j, page - b.pmemStart ≤ j → j < page - b.pmemStart + n → b.bitmap j = true

def Answered (b : Boot) (o : Op) : Prop :=
  (∃ c, b.step o = some c ∧ c.Settled) ∧ ∀ n, o = .nalloc n → b.Smallest n (b.bitmapFind n)

def NoGapBefore (b : Boot) (o : Op) : Prop :=
  ∀ n i, o = .nalloc n → b.Smallest n (some i) → ∀ j < i, b.bitmap j = true

lemma bitmapAlloc_isSome (h : b.FreeRun n i) : (b.bitmapAlloc i n).isSome := by
  obtain ⟨r,hr⟩ := isSome_iff_exists.mp (setBits_isSome h.2)
  simp [bitmapAlloc,h.1,hr]

lemma answered_iff (hw : b.Wf) (h : b.Settled) (hr : b.Request o) : b.Answered o ↔ b.NoGapBefore o := by
  cases o with
  | nfree page n =>
    refine iff_of_true ⟨?_,fun _ => nofun⟩ (fun _ _ => nofun)
    obtain ⟨hn,hge,hin,hset⟩ := hr
    have hcontig : page - b.pmemStart + n ≤ b.bitmapContigStart := by
      by_contra hlt
      have hlast := hset (page - b.pmemStart + n - 1) (by omega) (by omega)
      rw [h.clear _ (by omega) (by omega)] at hlast
      cases hlast
    obtain ⟨r,hr⟩ := isSome_iff_exists.mp (unsetBits_isSome hset)
    have hstep : (b.step (.nfree page n)).isSome := by simp [Boot.step,pmemNfree,hn,hge,bitmapFree,hin,hcontig,hr]
    obtain ⟨c,hc⟩ := isSome_iff_exists.mp hstep
    exact ⟨c,hc,h.step hw hc⟩
  | nalloc n =>
    have hn : 0 < n := hr
    have hstep : (b.step (.nalloc n)).isSome → ∃ c, b.step (.nalloc n) = some c ∧ c.Settled := fun hs => by
      obtain ⟨c,hc⟩ := isSome_iff_exists.mp hs
      exact ⟨c,hc,h.step hw hc⟩
    rcases bitmapFind_spec (b := b) hn with ⟨i,hi,hf⟩ | ⟨hno,hf⟩
    · have hall : allocatedBelow b.bitmap i = i ↔ ∀ j < i, b.bitmap j = true := Nat.count_iff_forall
      constructor
      · rintro ⟨-,hs⟩ m j hm hj
        cases hm
        have hfirst := hs n rfl
        rw [hf] at hfirst
        cases hi.unique hj
        exact hall.mp (hfirst.unique hi)
      · intro hgap
        rw [hall.mpr (hgap n i rfl hi)] at hf
        refine ⟨hstep ?_,fun m hm => by cases hm; rw [hf]; exact hi⟩
        obtain ⟨c,hc⟩ := isSome_iff_exists.mp (bitmapAlloc_isSome hi.1)
        simp [Boot.step,pmemNalloc,hn,hf,hc]
    · refine iff_of_true ⟨hstep (by simp [Boot.step,pmemNalloc,hn,hf]),fun m hm => ?_⟩ (fun m j hm hj => ?_)
      · cases hm
        rw [hf]
        exact hno
      · cases hm
        exact absurd hj.1 (hno j)

lemma along_answered_iff {ops : List Op} (hw : b.Wf) (h : b.Settled) (hr : Run.Along Request step ops b) :
    Run.Along Answered step ops b ↔ Run.Along NoGapBefore step ops b := by
  induction ops generalizing b with
  | nil => exact Iff.rfl
  | cons o ops ih =>
    refine and_congr (answered_iff hw h hr.1) (forall_congr' fun c => forall_congr' fun hc => ?_)
    exact ih (hw.step hc).1 (h.step hw hc) (hr.2 c hc)

lemma bitmapInit_some {start stop : Nat} {stale : Nat → Bool} (h : bitmapInit start stop stale = some b) :
    b.bitmapContigStart = b.bitmapNPages ∧ b.bitmapNPages ≤ 8 * pgSize * b.bitmapNPages ∧
      ∀ i, b.bitmapNPages ≤ i → b.bitmap i = (decide (8 * pgSize * b.bitmapNPages ≤ i) && stale i) := by
  simp only [bitmapInit,bitmapAlloc,ite_none_right_eq_some,Run.bind_some,some_inj] at h
  obtain ⟨_,_,r,hr,rfl⟩ := h
  refine ⟨?_,Nat.le_mul_of_pos_left _ (by decide),fun i hi => ?_⟩
  · simp only [bitmapNPages,bitmapEnd,Nat.zero_add]
    exact ite_eq_left_iff.mpr fun h => (Nat.eq_zero_of_not_pos h).symm
  · simp only
    rw [setBits_spec hr,if_neg (by simp only [bitmapNPages,bitmapEnd] at hi ⊢; omega)]
    rfl

def bootMem : Boot := ⟨1,17,Function.update (fun i => decide (32768 ≤ i) && false) 0 true,1⟩

def findAccesses (bitmap : Nat → Bool) (n : Nat) : Nat → Nat → Nat → List Nat
  | 0, _, _ => []
  | left + 1, i, nFreePages =>
    i :: if bitmap i then findAccesses bitmap n left (i + 1) 0
      else if nFreePages + 1 ≥ n then [] else findAccesses bitmap n left (i + 1) (nFreePages + 1)

def scanAccesses (bitmap : Nat → Bool) : List Nat → List Nat
  | [] => []
  | i :: l => i :: if bitmap i then [] else scanAccesses bitmap l

def initAccesses (b : Boot) : Nat → Nat → List Nat
  | 0, _ => []
  | fuel + 1, index =>
    if index < b.bitmapContigStart then
      index :: if b.bitmap index then initAccesses b fuel (index + 1)
        else scanAccesses b.bitmap (List.range' (index + 1) (b.bitmapContigStart - (index + 1))) ++
          initAccesses b fuel (probeFrom b.bitmap (b.bitmapContigStart - (index + 1)) (index + 1))
    else []

inductive Call where
  | alloc (index n : Nat)
  | free (index n : Nat)
  | find (n : Nat)
  | freeblocksInit
deriving DecidableEq, Repr

def accesses (b : Boot) : Call → List Nat
  | .alloc index n => if index + n ≤ b.bitmapEnd then List.range' index n else []
  | .free index n =>
    if index + n ≤ b.bitmapEnd ∧ index + n ≤ b.bitmapContigStart then
      List.range' index n ++
        (unsetBits b.bitmap index n).elim [] fun bitmap => scanAccesses bitmap (List.range index).reverse
    else []
  | .find n => findAccesses b.bitmap n b.bitmapEnd 0 0
  | .freeblocksInit => (b.pmemNfree b.pmemStart b.bitmapNPages).elim [] fun c => initAccesses c c.bitmapContigStart 0

lemma mem_findAccesses (h : i ∈ findAccesses bitmap n left index k) : i < index + left := by
  induction left generalizing index k with
  | zero => cases h
  | succ left ih =>
    rcases List.mem_cons.mp h with rfl | h
    · omega
    · split at h
      · exact (ih h).trans_eq (by omega)
      · split at h
        · cases h
        · exact (ih h).trans_eq (by omega)

lemma mem_scanAccesses {l : List Nat} (h : i ∈ scanAccesses bitmap l) : i ∈ l := by
  induction l with
  | nil => cases h
  | cons j l ih =>
    rcases List.mem_cons.mp h with rfl | h
    · exact List.mem_cons_self
    · split at h
      · cases h
      · exact List.mem_cons_of_mem _ (ih h)

lemma mem_initAccesses (h : i ∈ initAccesses b k index) : i < b.bitmapContigStart := by
  induction k generalizing index with
  | zero => cases h
  | succ k ih =>
    rw [initAccesses] at h
    split at h
    · rename_i hlt
      rcases List.mem_cons.mp h with rfl | h
      · exact hlt
      · split at h
        · exact ih h
        · rcases List.mem_append.mp h with h | h
          · have := (List.mem_range'_1.mp (mem_scanAccesses h)).2
            omega
          · exact ih h
    · cases h

lemma Wf.accesses_inside (h : b.Wf) (call : Call) (hi : i ∈ b.accesses call) : i < b.bitmapEnd := by
  cases call with
  | alloc index n =>
    rw [accesses] at hi
    split at hi
    · have := (List.mem_range'_1.mp hi).2
      omega
    · cases hi
  | free index n =>
    rw [accesses] at hi
    split at hi
    · rcases List.mem_append.mp hi with hi | hi
      · have := (List.mem_range'_1.mp hi).2
        omega
      · cases hu : unsetBits b.bitmap index n with
        | none => simp [hu] at hi
        | some r =>
          rw [hu] at hi
          have : i < index := by simpa using mem_scanAccesses hi
          omega
    · cases hi
  | find n => simpa using mem_findAccesses hi
  | freeblocksInit =>
    rw [accesses] at hi
    cases hc : b.pmemNfree b.pmemStart b.bitmapNPages with
    | none => simp [hc] at hi
    | some c =>
      rw [hc] at hi
      obtain ⟨hwf,hstart,hstop⟩ := h.pmemNfree hc
      have hlt := mem_initAccesses hi
      have hle := hwf.contig_le
      rw [bitmapEnd,hstart,hstop] at hle
      exact hlt.trans_le hle

def Covered (b : Boot) (i : Nat) : Prop := i / 8 < pgSize * b.bitmapNPages

instance : Decidable (b.Covered i) := inferInstanceAs (Decidable (_ < _))

lemma covered_iff (h : b.bitmapEnd ≤ 2^52) : (∀ i < b.bitmapEnd, b.Covered i) ↔
    b.bitmapEnd % (8 * pgSize) = 0 ∨ 8 ≤ b.bitmapEnd % (8 * pgSize) := by
  have hpages : b.bitmapNPages = (b.bitmapEnd / 8 + 4095) / 4096 := by
    rw [bitmapNPages,pgRoundUp,pgRoundDown,u64_of_lt (by simp only [pgSize]; omega)]
    simp only [pgSize]
    omega
  simp only [Covered,hpages,pgSize]
  constructor
  · intro hall
    by_cases hpos : 0 < b.bitmapEnd
    · have := hall (b.bitmapEnd - 1) (by omega)
      omega
    · omega
  · intro hr i hi
    omega

end MappedMemory.Boot
