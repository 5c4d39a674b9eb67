import MappedMemory.Vpmap.Sweep

namespace MappedMemory

open List (mem_append mem_flatMap nodup_range' prefix_rfl)

open Walk

namespace Tables

def Visited (start stop s : Nat) : Prop :=
  let a := s / 2^27
  let b := s / 2^18 % 512
  let c := s / 2^9 % 512
  let d := s % 512
  let pdptxStart := fromIndex (pml4x start) (pdptx start) a
  let pdxStart := fromIndex pdptxStart (pdx start) b
  let ptxStart := fromIndex pdxStart (ptx start) c
  (pml4x start ≤ a ∧ a < pml4x (sub64 stop 1) + 1) ∧
    (pdptxStart ≤ b ∧ b < limit pdptxStart (pdptx stop)) ∧
    (pdxStart ≤ c ∧ c < limit pdxStart (pdx stop)) ∧
    ptxStart ≤ d ∧ d < limit ptxStart (ptx stop)

variable {m0 : Tables} {r a b c d s t start stop first last : Nat} {freeImm : Bool} {x : Act} {xs : List Act}
  {p q l : List Nat}

lemma slotOf_digits (hs : s < 2^36) :
    slotOf (s / 2^27) (s / 2^18 % 512) (s / 2^9 % 512) (s % 512) = s ∧ s / 2^27 < 512 := by
  simp only [slotOf]
  omega

lemma digits_slotOf (ha : a < 512) (hb : b < 512) (hc : c < 512) (hd : d < 512) :
    slotOf a b c d < 2^36 ∧ slotOf a b c d / 2^27 = a ∧ slotOf a b c d / 2^18 % 512 = b ∧
      slotOf a b c d / 2^9 % 512 = c ∧ slotOf a b c d % 512 = d := by
  simp only [slotOf]
  omega

lemma mem_slots : s ∈ slots xs ↔ .clear s ∈ xs := by
  rw [slots,List.mem_filterMap]
  constructor
  · rintro ⟨x,hx,he⟩
    cases x with
    | clear s' => exact Option.some.inj he ▸ hx
    | free p => cases he
  · exact fun h => ⟨_,h,rfl⟩

lemma mem_frees : t ∈ frees m0 r xs ↔ ∃ p, .free p ∈ xs ∧ walk m0.next r p = some t := by
  rw [frees,List.mem_filterMap]
  constructor
  · rintro ⟨x,hx,he⟩
    cases x with
    | clear s' => cases he
    | free p => exact ⟨p,hx,he⟩
  · rintro ⟨p,hp,he⟩
    exact ⟨_,hp,he⟩

lemma clear_mem_freeAct : .clear s ∉ freeAct freeImm p := by
  cases freeImm <;> simp [freeAct]

lemma free_mem_freeAct : .free q ∈ freeAct freeImm p ↔ freeImm = true ∧ q = p := by
  cases freeImm <;> simp [freeAct]

lemma free_mem_planPt : .free p ∉ planPt a b c first last := by
  simp [planPt]

lemma clear_mem_planPd : .clear s ∈ planPd a b start stop first last freeImm ↔ ∃ c, (first ≤ c ∧ c < last) ∧
    ∃ d, (fromIndex first (ptx start) c ≤ d ∧ d < limit (fromIndex first (ptx start) c) (ptx stop)) ∧
      s = slotOf a b c d := by
  simp only [planPd,mem_flatMap,mem_loop,mem_append,clear_mem_freeAct,or_false,planPt,List.mem_map,
    Act.clear.injEq,eq_comm (a := s)]

lemma clear_mem_planPdpt : .clear s ∈ planPdpt a start stop first last freeImm ↔ ∃ b, (first ≤ b ∧ b < last) ∧
    .clear s ∈ planPd a b start stop (fromIndex first (pdx start) b)
      (limit (fromIndex first (pdx start) b) (pdx stop)) freeImm := by
  simp only [planPdpt,mem_flatMap,mem_loop,mem_append,clear_mem_freeAct,or_false]

lemma clear_mem_plan : .clear s ∈ plan start stop freeImm ↔ ∃ a, (pml4x start ≤ a ∧ a < pml4x (sub64 stop 1) + 1) ∧
    .clear s ∈ planPdpt a start stop (fromIndex (pml4x start) (pdptx start) a)
      (limit (fromIndex (pml4x start) (pdptx start) a) (pdptx stop)) freeImm := by
  simp only [plan,mem_flatMap,mem_loop,mem_append,clear_mem_freeAct,or_false]

lemma mem_slots_plan : s ∈ slots (plan start stop freeImm) ↔ s < 2^36 ∧ Visited start stop s := by
  have hlast := pml4x_lt (s := sub64 stop 1)
  rw [mem_slots,clear_mem_plan]
  constructor
  · rintro ⟨a,ha,h⟩
    obtain ⟨b,hb,h⟩ := clear_mem_planPdpt.mp h
    obtain ⟨c,hc,d,hd,rfl⟩ := clear_mem_planPd.mp h
    have hb' := hb.2.trans_le (limit_le pdptx_lt)
    have hc' := hc.2.trans_le (limit_le pdx_lt)
    have hd' := hd.2.trans_le (limit_le ptx_lt)
    obtain ⟨hs,h1,h2,h3,h4⟩ := digits_slotOf (a := a) (by omega) hb' hc' hd'
    refine ⟨hs,?_⟩
    simp only [Visited,h1,h2,h3,h4]
    exact ⟨ha,hb,hc,hd⟩
  · rintro ⟨hs,ha,hb,hc,hd⟩
    refine ⟨_,ha,clear_mem_planPdpt.mpr ⟨_,hb,clear_mem_planPd.mpr ⟨_,hc,_,hd,?_⟩⟩⟩
    exact (slotOf_digits hs).1.symm

lemma nodup_flatMap {f : Nat → List Act} (hl : l.Nodup) (hf : ∀ i ∈ l, (f i).Nodup)
    (hp : ∀ i ∈ l, ∀ x ∈ f i, p ++ [i] <+: x.path) : (l.flatMap f).Nodup := by
  rw [List.nodup_flatMap]
  refine ⟨hf,hl.imp_of_mem fun {i j} hi hj hne x hxi hxj => hne ?_⟩
  have hpre := List.prefix_of_prefix_length_le (hp i hi x hxi) (hp j hj x hxj) (by simp)
  simpa using hpre.eq_of_length (by simp)

lemma nodup_append_free (h : xs.Nodup) (hp : .free p ∉ xs) : (xs ++ freeAct freeImm p).Nodup := by
  cases freeImm with
  | false => simpa [freeAct] using h
  | true => exact List.nodup_append'.mpr ⟨h,List.nodup_singleton _,by simpa [freeAct] using hp⟩

lemma planPt_nodup : (planPt a b c first last).Nodup := by
  refine List.Nodup.map (fun d e h => ?_) nodup_range'
  simp only [Act.clear.injEq,slotOf] at h
  omega

lemma planPd_nodup (ha : a < 512) (hb : b < 512) (hl : last ≤ 512) :
    (planPd a b start stop first last freeImm).Nodup := by
  have hlt : ∀ c ∈ List.range' first (last - first), c < 512 := fun c hc => (mem_loop.mp hc).2.trans_le hl
  refine nodup_flatMap (p := [a,b]) nodup_range' (fun c hc => ?_) fun c hc x hx => ?_
  · exact nodup_append_free planPt_nodup free_mem_planPt
  · rcases mem_append.mp hx with hx | hx
    · exact planPt_under ha hb (hlt c hc) (limit_le ptx_lt) x hx
    · exact freeAct_under prefix_rfl x hx

lemma planPdpt_nodup (ha : a < 512) (hl : last ≤ 512) : (planPdpt a start stop first last freeImm).Nodup := by
  have hlt : ∀ b ∈ List.range' first (last - first), b < 512 := fun b hb => (mem_loop.mp hb).2.trans_le hl
  refine nodup_flatMap (p := [a]) nodup_range' (fun b hb => ?_) fun b hb x hx => ?_
  · refine nodup_append_free (planPd_nodup ha (hlt b hb) (limit_le pdx_lt)) fun hm => ?_
    obtain ⟨c,hc,hm⟩ := mem_flatMap.mp hm
    rcases mem_append.mp hm with hm | hm
    · exact free_mem_planPt hm
    · simpa using (free_mem_freeAct.mp hm).2
  · rcases mem_append.mp hx with hx | hx
    · exact planPd_under ha (hlt b hb) (limit_le pdx_lt) x hx
    · exact freeAct_under prefix_rfl x hx

lemma free_length_planPdpt (h : .free p ∈ planPdpt a start stop first last freeImm) : 2 ≤ p.length ∧ p.length ≤ 3 := by
  obtain ⟨b,hb,h⟩ := mem_flatMap.mp h
  rcases mem_append.mp h with h | h
  · obtain ⟨c,hc,h⟩ := mem_flatMap.mp h
    rcases mem_append.mp h with h | h
    · exact absurd h free_mem_planPt
    · simp [(free_mem_freeAct.mp h).2]
  · simp [(free_mem_freeAct.mp h).2]

lemma plan_nodup : (plan start stop freeImm).Nodup := by
  have hlast := pml4x_lt (s := sub64 stop 1)
  have hlt : ∀ a ∈ List.range' (pml4x start) (pml4x (sub64 stop 1) + 1 - pml4x start), a < 512 :=
    fun a ha => (mem_loop.mp ha).2.trans_le hlast
  refine nodup_flatMap (p := []) nodup_range' (fun a ha => ?_) fun a ha x hx => ?_
  · refine nodup_append_free (planPdpt_nodup (hlt a ha) (limit_le pdptx_lt)) fun hm => ?_
    simpa using (free_length_planPdpt hm).1
  · rcases mem_append.mp hx with hx | hx
    · exact planPdpt_under (hlt a ha) (limit_le pdptx_lt) x hx
    · exact freeAct_under prefix_rfl x hx

lemma free_length_plan (h : .free p ∈ plan start stop freeImm) : 1 ≤ p.length ∧ p.length ≤ 3 := by
  obtain ⟨a,ha,h⟩ := mem_flatMap.mp h
  rcases mem_append.mp h with h | h
  · have := free_length_planPdpt h
    omega
  · simp [(free_mem_freeAct.mp h).2]

lemma slots_nodup (h : xs.Nodup) : (slots xs).Nodup := by
  refine h.filterMap fun x y s hx hy => ?_
  cases x <;> cases y <;> simp_all

lemma frees_nodup (hu : Unique m0.next (· = r) 3 Prod.mk) (h : xs.Nodup) (hp : ∀ p, .free p ∈ xs → p.length ≤ 3) :
    (frees m0 r xs).Nodup := by
  refine List.pairwise_filterMap.mpr (h.imp_of_mem fun {x y} hx hy hne t ht t' ht' he => hne ?_)
  subst he
  cases x with
  | clear s => exact nomatch ht
  | free p =>
    cases y with
    | clear s => exact nomatch ht'
    | free q => exact congrArg Act.free (congrArg Prod.snd (hu r r rfl rfl p q (hp p hx) (hp q hy) t ht ht'))

end Tables
end MappedMemory
