import MappedMemory.Vpmap.Unmap

namespace MappedMemory

open List (mem_append mem_append_left mem_append_right mem_singleton)
open Option (bind_some)

open Walk

namespace Tables

def slots (xs : List Act) : List Nat := xs.filterMap fun
  | .clear s => some s
  | .free _ => none

def frees (m0 : Tables) (r : Nat) (xs : List Act) : List Nat := xs.filterMap fun
  | .clear _ => none
  | .free p => walk m0.next r p

def frameAt (m0 : Tables) (r : Nat) (m : Tables) (s : Nat) : Option Nat :=
  (walk m0.next r (pathOf s)).bind fun t =>
    if present (m.mem t (s % 512)) then some (entryFrame (m.mem t (s % 512))) else none

def hits (m0 : Tables) (r : Nat) (m : Tables) (xs : List Act) (f : Nat) : Nat :=
  (slots xs).countP fun s => frameAt m0 r m s = some f

structure Ready (m0 : Tables) (r : Nat) (u : Unmapping) (xs : List Act) : Prop where
  good : u.tables.pm.Good
  nodup : (slots xs).Nodup
  small : ∀ s ∈ slots xs, s < 2^36
  once : (frees m0 r xs).Nodup
  mapped : ∀ s ∈ slots xs, ∀ f, frameAt m0 r u.tables s = some f → f < u.tables.pm.pagemapEnd ∧
    u.tables.pm.order f = 0 ∧ hits m0 r u.tables xs f ≤ u.tables.pm.refcnt f ∧ f ∉ frees m0 r xs
  live : ∀ t ∈ frees m0 r xs, t < u.tables.pm.pagemapEnd ∧ 0 < u.tables.pm.refcnt t

structure Swept (m0 : Tables) (r : Nat) (u v : Unmapping) (xs : List Act) : Prop where
  good : v.tables.pm.Good
  pagemapEnd : v.tables.pm.pagemapEnd = u.tables.pm.pagemapEnd
  order : ∀ q < u.tables.pm.pagemapEnd, 0 < u.tables.pm.refcnt q → 0 < v.tables.pm.refcnt q →
    v.tables.pm.order q = u.tables.pm.order q
  cleared : ∀ s ∈ slots xs, ∀ t, walk m0.next r (pathOf s) = some t → v.tables.mem t (s % 512) = 0
  kept : ∀ t j, (∀ s ∈ slots xs, walk m0.next r (pathOf s) = some t → s % 512 ≠ j) →
    v.tables.mem t j = u.tables.mem t j
  refcnt : ∀ f ∉ frees m0 r xs, v.tables.pm.refcnt f + hits m0 r u.tables xs f = u.tables.pm.refcnt f
  dead : ∀ f ∈ frees m0 r xs, v.tables.pm.refcnt f = 0
  freed : v.freed = (frees m0 r xs).reverse ++ u.freed

variable {m0 : Tables} {r s s' t f : Nat} {u v w : Unmapping} {x : Act} {xs ys : List Act} {p : List Nat}

lemma slots_append : slots (xs ++ ys) = slots xs ++ slots ys := List.filterMap_append

lemma frees_append : frees m0 r (xs ++ ys) = frees m0 r xs ++ frees m0 r ys := List.filterMap_append

lemma hits_append {m : Tables} : hits m0 r m (xs ++ ys) f = hits m0 r m xs f + hits m0 r m ys f := by
  rw [hits,slots_append,List.countP_append,hits,hits]

lemma hits_congr {m m' : Tables} (h : ∀ s ∈ slots xs, frameAt m0 r m' s = frameAt m0 r m s) :
    hits m0 r m' xs f = hits m0 r m xs f :=
  List.countP_congr fun s hs => by rw [h s hs]

lemma pathOf_inj (hs : s < 2^36) (hs' : s' < 2^36) (hp : pathOf s = pathOf s') (hd : s % 512 = s' % 512) : s = s' := by
  simp only [pathOf,List.cons.injEq,and_true] at hp
  omega

lemma Swept.frames (h : Swept m0 r u v xs) (hu : Unique m0.next (· = r) 3 Prod.mk)
    (hs : s < 2^36) (hsmall : ∀ s' ∈ slots xs, s' < 2^36) (hnew : s ∉ slots xs) :
    frameAt m0 r v.tables s = frameAt m0 r u.tables s := by
  rw [frameAt,frameAt]
  cases hw : walk m0.next r (pathOf s) with
  | none => rfl
  | some t =>
    have hmem : v.tables.mem t (s % 512) = u.tables.mem t (s % 512) := by
      refine h.kept t _ fun s' hs' hw' hd => hnew ?_
      have hp := congrArg Prod.snd (hu r r rfl rfl _ _ le_rfl le_rfl t hw' hw)
      rwa [← pathOf_inj (hsmall s' hs') hs hp hd]
    rw [bind_some,bind_some,hmem]

lemma Ready.left (h : Ready m0 r u (xs ++ ys)) : Ready m0 r u xs := by
  obtain ⟨h1,h2,h3,h4,h5,h6⟩ := h
  rw [slots_append] at h2 h3 h5
  rw [frees_append] at h4 h5 h6
  refine ⟨h1,h2.of_append_left,fun s hs => h3 s (mem_append_left _ hs),h4.of_append_left,?_,
    fun t ht => h6 t (mem_append_left _ ht)⟩
  intro s hs f hf
  obtain ⟨hin,hord,hle,hnot⟩ := h5 s (mem_append_left _ hs) f hf
  rw [hits_append] at hle
  exact ⟨hin,hord,by omega,fun hm => hnot (mem_append_left _ hm)⟩

lemma Ready.right (hu : Unique m0.next (· = r) 3 Prod.mk) (h : Ready m0 r u (xs ++ ys)) (hv : Swept m0 r u v xs) :
    Ready m0 r v ys ∧ ∀ s ∈ slots ys, frameAt m0 r v.tables s = frameAt m0 r u.tables s := by
  obtain ⟨h1,h2,h3,h4,h5,h6⟩ := h
  rw [slots_append] at h2 h3 h5
  rw [frees_append] at h4 h5 h6
  have hnew := (List.nodup_append'.mp h2).2.2
  have honce := (List.nodup_append'.mp h4).2.2
  have hframes : ∀ s ∈ slots ys, frameAt m0 r v.tables s = frameAt m0 r u.tables s := by
    intro s hs
    exact hv.frames hu (h3 s (mem_append_right _ hs)) (fun s' hs' => h3 s' (mem_append_left _ hs'))
      fun hm => hnew hm hs
  refine ⟨⟨hv.good,h2.of_append_right,fun s hs => h3 s (mem_append_right _ hs),h4.of_append_right,?_,?_⟩,hframes⟩
  · intro s hs f hf
    rw [hframes s hs] at hf
    obtain ⟨hin,hord,hle,hnot⟩ := h5 s (mem_append_right _ hs) f hf
    have href := hv.refcnt f fun hm => hnot (mem_append_left _ hm)
    have hpos : 0 < hits m0 r u.tables ys f := List.countP_pos_iff.mpr ⟨s,hs,by simpa using hf⟩
    rw [hits_append] at hle
    rw [hits_congr hframes,hv.pagemapEnd,hv.order f hin (by omega) (by omega)]
    exact ⟨hin,hord,by omega,fun hm => hnot (mem_append_right _ hm)⟩
  · intro t ht
    obtain ⟨hin,hpos⟩ := h6 t (mem_append_right _ ht)
    have href := hv.refcnt t fun hm => honce hm ht
    have hzero : hits m0 r u.tables xs t = 0 := by
      rw [hits,List.countP_eq_zero]
      intro s hs hf
      exact (h5 s (mem_append_left _ hs) t (by simpa using hf)).2.2.2 (mem_append_right _ ht)
    exact ⟨hv.pagemapEnd ▸ hin,by omega⟩

lemma Swept.trans (hu : Unique m0.next (· = r) 3 Prod.mk) (h : Ready m0 r u (xs ++ ys)) (hv : Swept m0 r u v xs)
    (hw : Swept m0 r v w ys) : Swept m0 r u w (xs ++ ys) := by
  obtain ⟨hready,hframes⟩ := h.right hu hv
  have honce := h.once
  rw [frees_append] at honce
  have hsplit := (List.nodup_append'.mp honce).2.2
  refine ⟨hw.good,hw.pagemapEnd.trans hv.pagemapEnd,?_,?_,?_,?_,?_,?_⟩
  · intro q hq hpos hpos'
    have hmid : 0 < v.tables.pm.refcnt q := by
      by_contra hz
      by_cases hm : q ∈ frees m0 r ys
      · rw [hw.dead q hm] at hpos'
        exact lt_irrefl 0 hpos'
      · have := hw.refcnt q hm
        omega
    rw [hw.order q (hv.pagemapEnd ▸ hq) hmid hpos',hv.order q hq hpos hmid]
  · intro s hs t ht
    rw [slots_append,mem_append] at hs
    by_cases hys : s ∈ slots ys
    · exact hw.cleared s hys t ht
    · have hxs := hs.resolve_right hys
      rw [hw.kept t _ fun s' hs' hw' hd => ?_]
      · exact hv.cleared s hxs t ht
      · have hp := congrArg Prod.snd (hu r r rfl rfl _ _ le_rfl le_rfl t hw' ht)
        have hsmall := h.small
        rw [slots_append] at hsmall
        have he := pathOf_inj (hsmall s' (mem_append_right _ hs')) (hsmall s (mem_append_left _ hxs)) hp hd
        exact hys (he ▸ hs')
  · intro t j hout
    rw [slots_append] at hout
    rw [hw.kept t j fun s hs => hout s (mem_append_right _ hs),
      hv.kept t j fun s hs => hout s (mem_append_left _ hs)]
  · intro f hf
    rw [frees_append,mem_append,not_or] at hf
    have h1 := hv.refcnt f hf.1
    have h2 := hw.refcnt f hf.2
    rw [hits_congr hframes] at h2
    rw [hits_append]
    omega
  · intro f hf
    rw [frees_append,mem_append] at hf
    by_cases hys : f ∈ frees m0 r ys
    · exact hw.dead f hys
    · have h1 := hv.dead f (hf.resolve_right hys)
      have h2 := hw.refcnt f hys
      omega
  · rw [hw.freed,hv.freed,frees_append,List.reverse_append,List.append_assoc]

lemma Swept.refl (hg : u.tables.pm.Good) (hs : ∀ s ∈ slots xs, walk m0.next r (pathOf s) = none)
    (hf : frees m0 r xs = []) : Swept m0 r u u xs where
  good := hg
  pagemapEnd := rfl
  order _ _ _ _ := rfl
  cleared s hm t ht := by simp [hs s hm] at ht
  kept _ _ _ := rfl
  refcnt f _ := by
    rw [hits,List.countP_eq_zero.mpr,Nat.add_zero]
    intro s hm
    simp [frameAt,hs s hm]
  dead f hm := by simp [hf] at hm
  freed := by simp [hf]

lemma hits_clear {m : Tables} : hits m0 r m [.clear s] f = if frameAt m0 r m s = some f then 1 else 0 := by
  change [s].countP _ = _
  by_cases hf : frameAt m0 r m s = some f <;> simp [hf]

lemma swept_clear (ht : walk m0.next r (pathOf s) = some t) {pm : Pmem}
    (hpm : u.tables.dropPage t (s % 512) = some pm) (hg : pm.Good) (hend : pm.pagemapEnd = u.tables.pm.pagemapEnd)
    (hord : ∀ q < u.tables.pm.pagemapEnd, 0 < u.tables.pm.refcnt q → 0 < pm.refcnt q →
      pm.order q = u.tables.pm.order q)
    (href : ∀ f, pm.refcnt f + hits m0 r u.tables [.clear s] f = u.tables.pm.refcnt f) :
    ∃ v, act m0 r u (.clear s) = some v ∧ Swept m0 r u v [.clear s] := by
  have hact : act m0 r u (.clear s) =
      some { u with tables := { u.tables with pm := pm }.setEntry t (s % 512) 0 } := by
    simp only [act,Act.path,ht,clearPte,hpm,Option.map_some]
  refine ⟨_,hact,hg,hend,hord,?_,?_,fun f _ => href f,by simp [frees],rfl⟩
  · intro s' hs' t' ht'
    obtain rfl := mem_singleton.mp hs'
    cases ht.symm.trans ht'
    exact (setEntry_mem ..).trans (if_pos ⟨rfl,rfl⟩)
  · intro t' j hout
    refine (setEntry_mem ..).trans (if_neg ?_)
    rintro ⟨rfl,rfl⟩
    exact hout s (List.mem_singleton_self s) ht rfl

lemma Ready.clear (h : Ready m0 r u [.clear s]) (ht : walk m0.next r (pathOf s) = some t) :
    ∃ v, act m0 r u (.clear s) = some v ∧ Swept m0 r u v [.clear s] := by
  have hframe : frameAt m0 r u.tables s =
      if present (u.tables.mem t (s % 512)) then some (entryFrame (u.tables.mem t (s % 512))) else none := by
    rw [frameAt,ht,bind_some]
  by_cases hpres : present (u.tables.mem t (s % 512)) = true
  · rw [if_pos hpres] at hframe
    obtain ⟨hin,hord,hle,-⟩ := h.mapped s (List.mem_singleton_self s) _ hframe
    rw [hits_clear,if_pos hframe] at hle
    obtain ⟨pm,hpm,hc⟩ := Pmem.pmemDecRefcnt_spec h.good hin (by omega) hord
    refine swept_clear ht (by rw [dropPage,if_pos hpres,hpm]) hc.good hc.pagemapEnd hc.order_live fun f => ?_
    rw [hits_clear,hframe,hc.refcnt]
    by_cases hf : f = entryFrame (u.tables.mem t (s % 512))
    · rw [if_pos hf,if_pos (by rw [hf]),hf]
      omega
    · rw [if_neg hf,if_neg fun he => hf (Option.some.inj he).symm,Nat.add_zero]
  · rw [if_neg hpres] at hframe
    refine swept_clear ht (by rw [dropPage,if_neg hpres]) h.good rfl (fun _ _ _ _ => rfl) fun f => ?_
    rw [hits_clear,hframe,if_neg nofun,Nat.add_zero]

lemma Ready.free (h : Ready m0 r u [.free p]) (ht : walk m0.next r p = some t) :
    ∃ v, act m0 r u (.free p) = some v ∧ Swept m0 r u v [.free p] := by
  have hfrees : frees m0 r [.free p] = [t] := by simp [frees,ht]
  obtain ⟨hin,hpos⟩ := h.live t (by simp [hfrees])
  obtain ⟨pm,hpm,hf⟩ := Pmem.pmemNfree_spec (n := 1) h.good (Pmem.head_live hin hpos) one_pos
  have hact : act m0 r u (.free p) = some ⟨{ u.tables with pm := pm },t :: u.freed⟩ := by
    simp only [act,Act.path,ht,Unmapping.pmemFree,Pmem.pmemFree,hpm,Option.bind_eq_bind,bind_some]
  refine ⟨_,hact,hf.good,hf.pagemapEnd,?_,by simp [slots],fun _ _ _ => rfl,?_,?_,by rw [hfrees]; rfl⟩
  · intro q hq hq' hv
    refine hf.order_live q hq hq' ?_
    rintro rfl
    rw [hf.refcnt,if_pos rfl] at hv
    exact lt_irrefl 0 hv
  · intro f hne
    rw [hfrees,mem_singleton] at hne
    exact (hf.refcnt f).trans (if_neg hne)
  · intro f hm
    rw [hfrees,mem_singleton] at hm
    exact (hf.refcnt f).trans (if_pos hm)

lemma Ready.act (h : Ready m0 r u [x]) : ∃ v, act m0 r u x = some v ∧ Swept m0 r u v [x] := by
  cases hw : walk m0.next r x.path with
  | none =>
    refine ⟨u,by rw [Tables.act,hw],?_⟩
    cases x with
    | clear s =>
      refine .refl h.good (fun s' hs' => ?_) rfl
      obtain rfl := mem_singleton.mp hs'
      exact hw
    | free p => exact .refl h.good (by simp [slots]) (by simpa [frees,Act.path] using hw)
  | some t =>
    cases x with
    | clear s => exact h.clear hw
    | free p => exact h.free hw

lemma Ready.acts (hu : Unique m0.next (· = r) 3 Prod.mk) (h : Ready m0 r u xs) :
    ∃ v, xs.foldlM (Tables.act m0 r) u = some v ∧ Swept m0 r u v xs := by
  induction xs generalizing u with
  | nil => exact ⟨u,rfl,.refl h.good nofun rfl⟩
  | cons x xs ih =>
    have hx : Ready m0 r u ([x] ++ xs) := h
    obtain ⟨v,hv,hsv⟩ := hx.left.act
    obtain ⟨w,hw,hsw⟩ := ih (hx.right hu hsv).1
    refine ⟨w,?_,Swept.trans hu hx hsv hsw⟩
    rw [List.foldlM_cons,hv]
    exact hw

end Tables
end MappedMemory
