import MappedMemory.Vpmap.FlatMap
import MappedMemory.Vpmap.Visits

namespace MappedMemory
open Walk

namespace Tables

def frame (m : Tables) (r s : Nat) : Option Nat := frameAt m r m s

def mappers (m : Tables) (r : Nat) (S : Set Nat) (f : Nat) : Set Nat := {s | s < 2^36 ∧ s ∈ S ∧ m.frame r s = some f}

structure Accounted (m : Tables) (r : Nat) : Prop where
  good : m.pm.Good
  mapped : ∀ s < 2^36, ∀ f, m.frame r s = some f → f < m.pm.pagemapEnd ∧ m.pm.order f = 0 ∧
    (m.mappers r Set.univ f).ncard ≤ m.pm.refcnt f

def InRange (v n w : Nat) : Prop := v ≤ w ∧ w < v + n * pgSize

def rangeSlots (v n : Nat) : Set Nat := {s | slot v ≤ s ∧ s < slot v + n}

structure Exact (m m' : Tables) (r v n : Nat) : Prop where
  gone : ∀ w, InRange v n w → m'.vpmapLookupVaddr r w = none
  kept : ∀ w, Canonical w → ¬InRange v n w → m'.vpmapLookupVaddr r w = m.vpmapLookupVaddr r w
  refcnt : ∀ f, m'.pm.refcnt f + (m.mappers r (rangeSlots v n) f).ncard = m.pm.refcnt f

variable {m m' : Tables} {r s v w n f start stop : Nat} {xs : List Act} {S : Set Nat} {u : Unmapping} {p : List Nat}
  {t : Nat}

lemma mappers_finite : (m.mappers r S f).Finite := (Set.finite_lt_nat (2^36)).subset fun _ hs => hs.1

lemma hits_eq (hn : (slots xs).Nodup) (hs : ∀ s, s ∈ slots xs ↔ s < 2^36 ∧ s ∈ S) :
    hits m r m xs f = (m.mappers r S f).ncard := by
  have hset : m.mappers r S f = ((slots xs).filter fun s => m.frame r s = some f).toFinset := by
    ext s
    simp only [mappers,Set.mem_ofPred_eq,List.coe_toFinset,List.mem_filter,decide_eq_true_eq,hs,and_assoc]
  rw [hset,Set.ncard_coe_finset,List.toFinset_card_of_nodup (hn.filter _),hits,List.countP_eq_length_filter]
  rfl

lemma entry_slot (m : Tables) (r v : Nat) : m.entry r v = (walk m.next r (pathOf (slot v))).bind fun t =>
    if present (m.mem t (slot v % 512)) then some (m.mem t (slot v % 512)) else none := by
  rw [entry,slot,(pathOf_slot v).1,(pathOf_slot v).2]

lemma frame_slot (m : Tables) (r v : Nat) : m.frame r (slot v) = (m.entry r v).map entryFrame := by
  rw [frame,frameAt,entry_slot]
  cases walk m.next r (pathOf (slot v)) with
  | none => rfl
  | some t => by_cases h : present (m.mem t (slot v % 512)) = true <;> simp [h]

lemma slot_lt (v : Nat) : slot v < 2^36 := Nat.mod_lt _ (by decide)

lemma frees_none : frees m r (plan start stop false) = [] := by
  rw [List.eq_nil_iff_forall_not_mem]
  intro t ht
  obtain ⟨p,hp,-⟩ := mem_frees.mp ht
  obtain ⟨a,-,hp⟩ := List.mem_flatMap.mp hp
  rcases List.mem_append.mp hp with hp | hp
  · obtain ⟨b,-,hp⟩ := List.mem_flatMap.mp hp
    rcases List.mem_append.mp hp with hp | hp
    · obtain ⟨c,-,hp⟩ := List.mem_flatMap.mp hp
      rcases List.mem_append.mp hp with hp | hp
      · exact free_mem_planPt hp
      · exact nomatch hp
    · exact nomatch hp
  · exact nomatch hp

lemma Accounted.ready (h : m.Accounted r) : Ready m r ⟨m,[]⟩ (plan start stop false) := by
  refine ⟨h.good,slots_nodup plan_nodup,fun s hs => (mem_slots_plan.mp hs).1,by simp [frees_none],?_,by simp [frees_none]⟩
  intro s hs f hf
  obtain ⟨hin,hord,hle⟩ := h.mapped s (mem_slots_plan.mp hs).1 f hf
  refine ⟨hin,hord,?_,by simp [frees_none]⟩
  rw [hits_eq (S := {s | Visited start stop s}) (slots_nodup plan_nodup) fun s => mem_slots_plan]
  have hsub : m.mappers r {s | Visited start stop s} f ⊆ m.mappers r Set.univ f := fun s hs => ⟨hs.1,trivial,hs.2.2⟩
  exact (Set.ncard_le_ncard hsub mappers_finite).trans hle

structure Unmapped (m m' : Tables) (r : Nat) (S : Set Nat) : Prop where
  entries : ∀ v, (slot v ∈ S → m'.entry r v = none) ∧ (slot v ∉ S → m'.entry r v = m.entry r v)
  refcnt : ∀ f, m'.pm.refcnt f + (m.mappers r S f).ncard = m.pm.refcnt f

lemma Agree.walk_eq (h : Agree m r u) (hp : p.length ≤ 3) : walk u.tables.next r p = walk m.next r p := by
  refine walk_congr fun q i hq t ht => ?_
  have hlen := hq.length_le
  simp only [List.length_append,List.length_singleton] at hlen
  rw [next,next,h q (by omega) t ht]

lemma Swept.entries (hu : Unique m.next (· = r) 3 Prod.mk) (h : Swept m r ⟨m,[]⟩ u xs)
    (hagree : Agree m r u) (hsmall : ∀ s ∈ slots xs, s < 2^36) (v : Nat) :
    (slot v ∈ slots xs → u.tables.entry r v = none) ∧ (slot v ∉ slots xs → u.tables.entry r v = m.entry r v) := by
  rw [entry_slot,entry_slot,hagree.walk_eq (p := pathOf (slot v)) le_rfl]
  cases hw : walk m.next r (pathOf (slot v)) with
  | none => exact ⟨fun _ => rfl,fun _ => rfl⟩
  | some t =>
    simp only [Option.bind_some]
    constructor
    · intro hs
      rw [h.cleared _ hs t hw]
      rfl
    · intro hs
      rw [h.kept t _ fun s' hs' hw' hd => hs ?_]
      have hp := congrArg Prod.snd (hu r r rfl rfl _ _ le_rfl le_rfl t hw' hw)
      rwa [← pathOf_inj (hsmall s' hs') (slot_lt v) hp hd]

lemma Accounted.unmapPages (hu : Unique m.next (· = r) 3 Prod.mk) (h : m.Accounted r)
    (hle : pml4x start ≤ pml4x (sub64 stop 1)) : ∃ u, (Unmapping.mk m []).unmapPages r start stop false = some u ∧
      Unmapped m u.tables r {s | Visited start stop s} := by
  have hready : Ready m r ⟨m,[]⟩ (plan start stop false) := h.ready
  obtain ⟨u,hrun,hsw⟩ := hready.acts hu
  have hagree := agree_acts hu (fun _ _ _ _ => rfl) hrun
  have hsmall : ∀ s ∈ slots (plan start stop false), s < 2^36 := fun s hs => (mem_slots_plan.mp hs).1
  refine ⟨u,(unmapPages_eq hu hle).trans hrun,fun v => ?_,fun f => ?_⟩
  · have hent := hsw.entries hu hagree hsmall v
    rw [mem_slots_plan,and_iff_right (slot_lt v)] at hent
    exact hent
  · have href := hsw.refcnt f (by simp [frees_none])
    rwa [hits_eq (S := {s | Visited start stop s}) (slots_nodup plan_nodup) fun s => mem_slots_plan] at href

lemma vpmapUnmap_eq (hv : v % pgSize = 0) (hn : 0 < n) (hh : OneHalf v n) (huser : v + n * pgSize ≤ kmapBase) :
    m.vpmapUnmap r v n = ((Unmapping.mk m []).unmapPages r v (v + n * pgSize) false).map Unmapping.tables ∧
      pml4x v ≤ pml4x (sub64 (v + n * pgSize) 1) := by
  have hround : pgRoundDown v = v := by
    simp only [pgRoundDown,pgSize] at *
    omega
  have hstop : u64 (v + u64 (n * pgSize)) = v + n * pgSize := by
    simp only [u64,kmapBase,pgSize,OneHalf] at *
    omega
  have hle : pml4x v ≤ pml4x (v + n * pgSize) := by
    simp only [pml4x,kmapBase,pgSize,OneHalf] at *
    omega
  refine ⟨?_,?_⟩
  · rw [vpmapUnmap,if_neg hn.ne']
    simp only [hround,hstop,if_pos hle]
  · simp only [pml4x,sub64,u64,kmapBase,pgSize,OneHalf] at *
    omega

lemma slot_mem_range (hv : v % pgSize = 0) (hh : OneHalf v n) (hw : Canonical w) :
    slot w ∈ rangeSlots v n ↔ InRange v n w := by
  simp only [rangeSlots,Set.mem_ofPred_eq,InRange,slot,pgSize,OneHalf,Canonical] at *
  omega

lemma InRange.canonical (hh : OneHalf v n) (hw : InRange v n w) : Canonical w := by
  simp only [InRange,pgSize,OneHalf,Canonical] at *
  omega

lemma canonical_slot (hs : s < 2^36) : ∃ w, Canonical w ∧ slot w = s := by
  refine ⟨if s < 2^35 then s * pgSize else 2^64 - 2^48 + s * pgSize,?_⟩
  simp only [Canonical,slot,pgSize]
  split <;> omega

lemma lookup_none_iff : m.vpmapLookupVaddr r w = none ↔ m.entry r w = none := by
  rw [vpmapLookupVaddr_eq,Option.map_eq_none_iff]

lemma Unmapped.exact_iff (h : Unmapped m m' r S) (hv : v % pgSize = 0) (hh : OneHalf v n) :
    Exact m m' r v n ↔ ∀ w, Canonical w → (m.vpmapLookupVaddr r w).isSome → (slot w ∈ S ↔ InRange v n w) := by
  have hlook : ∀ w, slot w ∉ S → m'.vpmapLookupVaddr r w = m.vpmapLookupVaddr r w := fun w hw => by
    rw [vpmapLookupVaddr_eq,vpmapLookupVaddr_eq,(h.entries w).2 hw]
  have hgone : ∀ w, slot w ∈ S → m'.vpmapLookupVaddr r w = none := fun w hw =>
    lookup_none_iff.mpr ((h.entries w).1 hw)
  constructor
  · intro hex w hw hsome
    constructor
    · intro hm
      by_contra hout
      rw [← hex.kept w hw hout,hgone w hm] at hsome
      exact nomatch hsome
    · intro hin
      by_contra hm
      rw [← hlook w hm,hex.gone w hin] at hsome
      exact nomatch hsome
  · intro hall
    refine ⟨fun w hin => ?_,fun w hw hout => ?_,fun f => ?_⟩
    · by_cases hm : slot w ∈ S
      · exact hgone w hm
      · rw [hlook w hm]
        by_contra hne
        exact hm ((hall w (hin.canonical hh) (Option.isSome_iff_ne_none.mpr hne)).mpr hin)
    · by_cases hm : slot w ∈ S
      · rw [hgone w hm]
        by_contra hne
        exact hout ((hall w hw (Option.isSome_iff_ne_none.mpr (Ne.symm hne))).mp hm)
      · exact hlook w hm
    · have hsets : m.mappers r (rangeSlots v n) f = m.mappers r S f := by
        ext s
        refine and_congr_right fun hs => and_congr_left fun hf => ?_
        obtain ⟨w,hw,rfl⟩ := canonical_slot hs
        rw [frame_slot] at hf
        have hsome : (m.vpmapLookupVaddr r w).isSome := by
          rw [vpmapLookupVaddr_eq]
          cases he : m.entry r w with
          | none => simp [he] at hf
          | some e => rfl
        rw [slot_mem_range hv hh hw,hall w hw hsome]
      rw [hsets]
      exact h.refcnt f

def lowTables (pte : Nat → Nat) : Tables where
  pm := kernelPm
  mem := fun table index =>
    if table = 1 ∧ index = 0 then 2 * pgSize + 7
    else if table = 2 ∧ index = 0 then 3 * pgSize + 7
    else if table = 3 ∧ index = 0 then 4 * pgSize + 7
    else if table = 4 then pte index
    else 0
  kpml4 := 0
  pml4s := [1]

lemma lowTables_next (pte : Nat → Nat) (i : Nat) (ht : t ≠ 4) : (lowTables pte).next t i =
    if t = 1 ∧ i = 0 then some 2 else if t = 2 ∧ i = 0 then some 3 else if t = 3 ∧ i = 0 then some 4 else none := by
  simp only [next,lowTables,ht,if_false]
  split_ifs <;> simp_all [present,entryFrame,ppn,pgSize]

lemma lowTables_walk {pte : Nat → Nat} (hp : p.length ≤ 3) (h : walk (lowTables pte).next 1 p = some t) :
    (p = [] ∧ t = 1) ∨ (p = [0] ∧ t = 2) ∨ (p = [0,0] ∧ t = 3) ∨ (p = [0,0,0] ∧ t = 4) := by
  have hnext := fun t i => lowTables_next pte (t := t) i
  match p, hp with
  | [], _ => exact .inl ⟨rfl,(Option.some_inj.mp h).symm⟩
  | [_], _ | [_,_], _ | [_,_,_], _ =>
    simp only [walk] at h
    grind

lemma lowTables_unique (pte : Nat → Nat) : Unique (lowTables pte).next (· = 1) 3 Prod.mk := by
  rintro r r' rfl rfl p p' hp hp' t ht ht'
  have h1 := lowTables_walk hp ht
  have h2 := lowTables_walk hp' ht'
  have hpp : p = p' := by grind
  rw [hpp]

def onePte (j : Nat) : Nat := if j = 1 then 5 * pgSize + 7 else 0

lemma onePage_frame {s f : Nat} (h : (lowTables onePte).frame 1 s = some f) :
    pathOf s = [0,0,0] ∧ s % 512 = 1 ∧ f = 5 := by
  obtain ⟨t,ht,h⟩ := Option.bind_eq_some_iff.mp h
  have hw := lowTables_walk (p := pathOf s) le_rfl ht
  obtain ⟨hp,rfl⟩ : pathOf s = [0,0,0] ∧ t = 4 := by simpa [pathOf] using hw
  have hmem : (lowTables onePte).mem 4 (s % 512) = onePte (s % 512) := rfl
  rw [hmem,onePte] at h
  by_cases hj : s % 512 = 1
  · simp only [hj,if_true] at h
    exact ⟨hp,hj,by simpa [present,entryFrame,ppn,pgSize] using h.symm⟩
  · simp [hj,present] at h

lemma onePage_accounted : (lowTables onePte).Accounted 1 := by
  refine ⟨kernelPm_good,fun s _ f hf => ?_⟩
  obtain ⟨-,-,rfl⟩ := onePage_frame hf
  have hsub : (lowTables onePte).mappers 1 Set.univ 5 ⊆ {1} := by
    intro s hs
    obtain ⟨hp,hd,-⟩ := onePage_frame hs.2.2
    exact pathOf_inj hs.1 (by decide) (by rw [hp]; rfl) hd
  have hcard := Set.ncard_le_ncard hsub (Set.finite_singleton 1)
  rw [Set.ncard_singleton] at hcard
  have heval : 5 < kernelPm.pagemapEnd ∧ kernelPm.order 5 = 0 ∧ 1 ≤ kernelPm.refcnt 5 := by decide +kernel
  exact ⟨heval.1,heval.2.1,hcard.trans heval.2.2⟩

def twoPte (j : Nat) : Nat := if j = 509 then 5 * pgSize + 7 else if j = 510 then 6 * pgSize + 7 else 0

def lastPte (j : Nat) : Nat := if j = 511 then 5 * pgSize + 7 else 0

end Tables
end MappedMemory
