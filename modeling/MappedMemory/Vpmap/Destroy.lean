import MappedMemory.Vpmap.Exact

namespace MappedMemory

open Option (some_inj)
open Walk

namespace Tables

def UserPath (p : List Nat) : Prop := p.length ≤ 3 ∧ (∀ i ∈ p, i < 512) ∧ p.head? ≠ some 511

def UserTable (m : Tables) (r t : Nat) : Prop := ∃ p, UserPath p ∧ walk m.next r p = some t

def userSlots : Set Nat := {s | s / 2^27 < 511}

structure UserVpmap (m : Tables) (r : Nat) : Prop where
  good : m.pm.Good
  unique : Unique m.next (· = r) 3 Prod.mk
  tables : ∀ t, m.UserTable r t → t < m.pm.pagemapEnd ∧ 0 < m.pm.refcnt t
  mapped : ∀ s < 2^36, s ∈ userSlots → ∀ f, m.frame r s = some f → f < m.pm.pagemapEnd ∧ m.pm.order f = 0 ∧
    (m.mappers r userSlots f).ncard ≤ m.pm.refcnt f ∧ ¬m.UserTable r f

structure Destroyed (m : Tables) (u : Unmapping) (r : Nat) : Prop where
  once : u.freed.Nodup
  freed : ∀ t, t ∈ u.freed ↔ m.UserTable r t
  dead : ∀ t, m.UserTable r t → u.tables.pm.refcnt t = 0
  refcnt : ∀ f, ¬m.UserTable r f → u.tables.pm.refcnt f + (m.mappers r userSlots f).ncard = m.pm.refcnt f
  kernel : ∀ p : List Nat, p.length ≤ 3 → p.head? = some 511 → ∀ t, walk m.next r p = some t →
    u.tables.mem t = m.mem t ∧ t ∉ u.freed

def destroyPlan : List Act := plan 0 ustackUpperbound true ++ [.free []]

variable {m : Tables} {r s t : Nat} {p : List Nat}

lemma fromIndex_zero (first x : Nat) : fromIndex first 0 x = 0 := by rw [fromIndex,ite_self]

lemma destroy_start : pml4x 0 = 0 ∧ pdptx 0 = 0 ∧ pdx 0 = 0 ∧ ptx 0 = 0 := by decide

lemma destroy_stop : pml4x (sub64 ustackUpperbound 1) = 510 ∧ limit 0 (pdptx ustackUpperbound) = 512 ∧
    limit 0 (pdx ustackUpperbound) = 512 ∧ limit 0 (ptx ustackUpperbound) = 512 := by decide

lemma visited_destroy : Visited 0 ustackUpperbound s ↔ s ∈ userSlots := by
  simp only [Visited,userSlots,destroy_start,destroy_stop,fromIndex_zero,Set.mem_ofPred_eq]
  omega

lemma mem_slots_destroy : s ∈ slots destroyPlan ↔ s < 2^36 ∧ s ∈ userSlots := by
  rw [mem_slots,destroyPlan,List.mem_append,← mem_slots,mem_slots_plan,visited_destroy]
  simp

lemma free_mem_destroy : .free p ∈ destroyPlan ↔ UserPath p := by
  simp only [destroyPlan,plan,planPdpt,planPd,List.mem_append,List.mem_flatMap,mem_loop,free_mem_freeAct,
    free_mem_planPt,false_or,true_and,destroy_start,destroy_stop,fromIndex_zero,List.mem_singleton,Act.free.injEq]
  constructor
  · rintro (⟨a,ha,⟨b,hb,⟨c,hc,rfl⟩ | rfl⟩ | rfl⟩ | rfl) <;> simp [UserPath] <;> omega
  · rintro ⟨hlen,hlt,hhead⟩
    rcases p with _ | ⟨a,_ | ⟨b,_ | ⟨c,_ | ⟨d,p⟩⟩⟩⟩ <;> simp only [List.mem_cons,List.not_mem_nil,or_false,
      forall_eq_or_imp,forall_eq,List.head?_cons,ne_eq,some_inj] at hlt hhead
    · exact .inr rfl
    · exact .inl ⟨a,by omega,.inr rfl⟩
    · exact .inl ⟨a,by omega,.inl ⟨b,by omega,.inr rfl⟩⟩
    · exact .inl ⟨a,by omega,.inl ⟨b,by omega,.inl ⟨c,by omega,rfl⟩⟩⟩
    · simp only [List.length_cons] at hlen
      omega

lemma mem_frees_destroy : t ∈ frees m r destroyPlan ↔ m.UserTable r t := by
  rw [mem_frees]
  exact exists_congr fun p => and_congr_left fun _ => free_mem_destroy

lemma destroyPlan_nodup : destroyPlan.Nodup := by
  refine List.nodup_append'.mpr ⟨plan_nodup,List.nodup_singleton _,fun x hx hf => ?_⟩
  obtain rfl := List.mem_singleton.mp hf
  simpa using (free_length_plan hx).1

lemma UserVpmap.ready (h : m.UserVpmap r) : Ready m r ⟨m,[]⟩ destroyPlan where
  good := h.good
  nodup := slots_nodup destroyPlan_nodup
  small s hs := (mem_slots_destroy.mp hs).1
  once := frees_nodup h.unique destroyPlan_nodup fun p hp => (free_mem_destroy.mp hp).1
  mapped s hs f hf := by
    obtain ⟨hlt,hu⟩ := mem_slots_destroy.mp hs
    obtain ⟨hin,hord,hle,hnot⟩ := h.mapped s hlt hu f hf
    rw [hits_eq (slots_nodup destroyPlan_nodup) fun s => mem_slots_destroy,mem_frees_destroy]
    exact ⟨hin,hord,hle,hnot⟩
  live t ht := h.tables t (mem_frees_destroy.mp ht)

lemma vpmapDestroy_eq (h : m.UserVpmap r) : m.vpmapDestroy r = destroyPlan.foldlM (act m r) ⟨m,[]⟩ := by
  rw [vpmapDestroy,unmapPages_eq h.unique (by decide),destroyPlan,List.foldlM_append]
  congr 1
  funext u
  simp only [List.foldlM_cons,List.foldlM_nil,act,Act.path,walk_nil]
  exact (bind_pure _).symm

theorem vpmap_destroy_frees_once (h : m.UserVpmap r) : ∃ u, m.vpmapDestroy r = some u ∧ Destroyed m u r := by
  obtain ⟨u,hrun,hsw⟩ := h.ready.acts h.unique
  have hfreed : u.freed = (frees m r destroyPlan).reverse := by rw [hsw.freed,List.append_nil]
  refine ⟨u,(vpmapDestroy_eq h).trans hrun,?_,?_,?_,?_,?_⟩
  · rw [hfreed,List.nodup_reverse]
    exact h.ready.once
  · intro t
    rw [hfreed,List.mem_reverse,mem_frees_destroy]
  · exact fun t ht => hsw.dead t (mem_frees_destroy.mpr ht)
  · intro f hf
    have href := hsw.refcnt f fun hm => hf (mem_frees_destroy.mp hm)
    rwa [hits_eq (slots_nodup destroyPlan_nodup) fun s => mem_slots_destroy] at href
  · intro p hp hhead t ht
    have hother : ∀ q : List Nat, q.length ≤ 3 → walk m.next r q = some t → q = p := fun q hq hw =>
      congrArg Prod.snd (h.unique r r rfl rfl q p hq hp t hw ht)
    refine ⟨funext fun j => hsw.kept t j fun s hs hw => ?_,fun hm => ?_⟩
    · obtain ⟨hlt,hu⟩ := mem_slots_destroy.mp hs
      have he := hother (pathOf s) le_rfl hw
      rw [← he] at hhead
      simp only [pathOf,List.head?_cons,some_inj,userSlots,Set.mem_ofPred_eq] at hhead hu
      omega
    · rw [hfreed,List.mem_reverse,mem_frees_destroy] at hm
      obtain ⟨q,hq,hw⟩ := hm
      exact hq.2.2 (hother q hq.1 hw ▸ hhead)

lemma onePage_user : (lowTables onePte).UserVpmap 1 := by
  have htable : ∀ t, (lowTables onePte).UserTable 1 t → t = 1 ∨ t = 2 ∨ t = 3 ∨ t = 4 := by
    rintro t ⟨p,hp,hw⟩
    have := lowTables_walk hp.1 hw
    omega
  refine ⟨kernelPm_good,lowTables_unique onePte,fun t ht => ?_,fun s hs _ f hf => ?_⟩
  · change t < kernelPm.pagemapEnd ∧ 0 < kernelPm.refcnt t
    rcases htable t ht with rfl | rfl | rfl | rfl <;> decide +kernel
  · obtain ⟨hin,hord,hle⟩ := onePage_accounted.mapped s hs f hf
    have hsub : (lowTables onePte).mappers 1 userSlots f ⊆ (lowTables onePte).mappers 1 Set.univ f :=
      fun s hs => ⟨hs.1,trivial,hs.2.2⟩
    refine ⟨hin,hord,(Set.ncard_le_ncard hsub mappers_finite).trans hle,fun ht => ?_⟩
    have hfive := (onePage_frame hf).2.2
    have := htable f ht
    omega

theorem vpmap_destroy_frees_once_one_page :
    ∃ u, (lowTables onePte).vpmapDestroy 1 = some u ∧ Destroyed (lowTables onePte) u 1 :=
  vpmap_destroy_frees_once onePage_user

end Tables
end MappedMemory
