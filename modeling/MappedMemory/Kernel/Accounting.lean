import MappedMemory.Kernel.World

namespace MappedMemory

open List (countP_cons count_cons mem_append_right mem_cons mem_cons_of_mem mem_cons_self mem_map nodup_cons)

open Keyed Pmem

namespace World

def refs (w : World) (f : Nat) : Nat :=
  w.ptes.countP (fun e => e.frame == f) + w.cachedPages.countP (fun c => c.frame == f)

def owned (w : World) (ex : List Nat) : List Nat := w.tables.map Table.frame ++ w.kern ++ ex

structure Accounted (tight : Bool) (w : World) (ex hand : List Nat) : Prop where
  good : w.pm.Good
  keys : Distinct Pte.key w.ptes
  caches : Distinct CachedPage.key w.cachedPages
  own : (w.owned ex).Nodup
  live : ∀ f ∈ w.owned ex, f < w.pm.pagemapEnd ∧ 0 < w.pm.refcnt f
  single : ∀ f ∈ ex, w.pm.order f = 0 ∧ w.pm.refcnt f = 1
  apart : ∀ f ∈ w.owned ex, w.refs f + hand.count f = 0
  refs : ∀ f, 0 < w.refs f + hand.count f →
    f < w.pm.pagemapEnd ∧ w.pm.order f = 0 ∧ w.refs f + hand.count f ≤ w.pm.refcnt f
  tight : tight = true → ∀ f < w.pm.pagemapEnd, f ∉ w.owned ex → w.pm.refcnt f ≤ w.refs f + hand.count f

variable {t : Bool} {w w' : World} {ex hand : List Nat} {f g : Nat} {pm : Pmem}

lemma owned_cons (w : World) (f : Nat) (ex : List Nat) : (w.owned (f :: ex)).Perm (f :: w.owned ex) :=
  List.perm_middle

lemma mem_owned_cons : g ∈ w.owned (f :: ex) ↔ g = f ∨ g ∈ w.owned ex := by
  rw [(owned_cons w f ex).mem_iff,mem_cons]

namespace Accounted

variable {k : Nat} {ex' hand' : List Nat}

lemma positive (h : Accounted t w ex hand) (hf : 0 < w.refs f + hand.count f) : 0 < w.pm.refcnt f :=
  hf.trans_le (h.refs f hf).2.2

lemma fresh (h : Accounted t w ex hand) (hz : w.pm.refcnt f = 0) : f ∉ w.owned ex ∧ w.refs f + hand.count f = 0 := by
  constructor
  · intro hf
    exact absurd (h.live f hf).2 (by omega)
  · by_contra hne
    exact absurd (h.positive (Nat.pos_of_ne_zero hne)) (by omega)

lemma allocated (w' : World) (h : Accounted t w ex hand)
    (ha : Allocated w.pm w'.pm f k) (hown : (w'.owned ex').Perm (f :: w.owned ex))
    (hex : ∀ g ∈ ex', g ∈ ex ∨ (g = f ∧ k = 0)) (hptes : w'.ptes = w.ptes)
    (hcached : w'.cachedPages = w.cachedPages) : Accounted t w' ex' hand := by
  obtain ⟨hout,hzero⟩ := h.fresh ha.zero
  have hmem : ∀ g, g ∈ w'.owned ex' ↔ g = f ∨ g ∈ w.owned ex := fun g => by
    rw [hown.mem_iff,mem_cons]
  have hrefs : ∀ g, w'.refs g = w.refs g := fun g => by
    rw [World.refs,World.refs,hptes,hcached]
  have hkeep : ∀ g, 0 < w.pm.refcnt g → w'.pm.refcnt g = w.pm.refcnt g := by
    intro g hg
    rw [ha.refcnt,if_neg]
    rintro rfl
    exact absurd ha.zero hg.ne'
  refine ⟨ha.good,hptes ▸ h.keys,hcached ▸ h.caches,hown.nodup_iff.mpr (nodup_cons.mpr ⟨hout,h.own⟩),
    ?_,?_,?_,?_,?_⟩
  · intro g hg
    rcases (hmem g).mp hg with rfl | hg
    · exact ⟨ha.pagemapEnd ▸ ha.inside,by simp [ha.refcnt]⟩
    · have hl := h.live g hg
      exact ⟨ha.pagemapEnd ▸ hl.1,(hkeep g hl.2).symm ▸ hl.2⟩
  · intro g hg
    rcases hex g hg with hg | ⟨rfl,rfl⟩
    · have hl := h.live g (mem_append_right _ hg)
      exact ⟨(ha.order_live g hl.1 hl.2).trans (h.single g hg).1,(hkeep g hl.2).trans (h.single g hg).2⟩
    · exact ⟨ha.order,by simp [ha.refcnt]⟩
  · intro g hg
    rw [hrefs]
    rcases (hmem g).mp hg with rfl | hg
    · exact hzero
    · exact h.apart g hg
  · intro g hg
    rw [hrefs] at hg ⊢
    obtain ⟨hin,hord,hle⟩ := h.refs g hg
    have hpos := h.positive hg
    exact ⟨ha.pagemapEnd ▸ hin,(ha.order_live g hin hpos).trans hord,(hkeep g hpos).symm ▸ hle⟩
  · intro ht g hg hnot
    have hgf : g ≠ f := fun he => hnot ((hmem g).mpr (.inl he))
    rw [hrefs,ha.refcnt,if_neg hgf]
    exact h.tight ht g (ha.pagemapEnd ▸ hg) fun hg => hnot ((hmem g).mpr (.inr hg))

lemma place (h : Accounted t w (f :: ex) hand) (hw : w'.pm = w.pm)
    (hkeys : Distinct Pte.key w'.ptes) (hcaches : Distinct CachedPage.key w'.cachedPages)
    (hown : ∀ ex, w'.owned ex = w.owned ex)
    (hrefs : ∀ g, w'.refs g + hand'.count g = w.refs g + hand.count g + if g = f then 1 else 0) :
    Accounted t w' ex hand' := by
  have hf : f ∈ w.owned (f :: ex) := mem_owned_cons.mpr (.inl rfl)
  have hnodup := nodup_cons.mp ((owned_cons w f ex).nodup_iff.mp h.own)
  have hzero := h.apart f hf
  refine ⟨hw ▸ h.good,hkeys,hcaches,hown ex ▸ hnodup.2,?_,?_,?_,?_,?_⟩
  · intro g hg
    rw [hown] at hg
    exact hw ▸ h.live g (mem_owned_cons.mpr (.inr hg))
  · exact fun g hg => hw ▸ h.single g (mem_cons_of_mem _ hg)
  · intro g hg
    rw [hown] at hg
    have hgf : g ≠ f := fun he => hnodup.1 (he ▸ hg)
    rw [hrefs,if_neg hgf]
    exact h.apart g (mem_owned_cons.mpr (.inr hg))
  · intro g hg
    rw [hrefs] at hg ⊢
    rw [hw]
    by_cases hgf : g = f
    · subst hgf
      rw [if_pos rfl,hzero]
      exact ⟨(h.live g hf).1,(h.single g mem_cons_self).1,(h.live g hf).2⟩
    · rw [if_neg hgf] at hg ⊢
      exact h.refs g hg
  · intro ht g hg hout
    rw [hown] at hout
    rw [hw] at hg ⊢
    rw [hrefs]
    by_cases hgf : g = f
    · rw [if_pos hgf,hgf,(h.single f mem_cons_self).2]
      exact Nat.le_add_left 1 _
    · rw [if_neg hgf]
      refine h.tight ht g hg fun hm => ?_
      rcases mem_owned_cons.mp hm with he | hm
      · exact hgf he
      · exact hout hm

lemma freed (w' : World) (h : Accounted t w ex hand) (hf : Freed w.pm w'.pm f k)
    (hown : (w.owned ex).Perm (f :: w'.owned ex')) (hex : ∀ g ∈ ex', g ∈ ex) (hptes : w'.ptes = w.ptes)
    (hcached : w'.cachedPages = w.cachedPages) : Accounted t w' ex' hand := by
  have hnodup := nodup_cons.mp (hown.nodup_iff.mp h.own)
  have hmem : ∀ g, g ∈ w.owned ex ↔ g = f ∨ g ∈ w'.owned ex' := fun g => by
    rw [hown.mem_iff,mem_cons]
  have hrefs : ∀ g, w'.refs g = w.refs g := fun g => by
    rw [World.refs,World.refs,hptes,hcached]
  have hne : ∀ g ∈ w'.owned ex', g ≠ f := fun g hg he => hnodup.1 (he ▸ hg)
  have hzero := h.apart f ((hmem f).mpr (.inl rfl))
  refine ⟨hf.good,hptes ▸ h.keys,hcached ▸ h.caches,hnodup.2,?_,?_,?_,?_,?_⟩
  · intro g hg
    have hl := h.live g ((hmem g).mpr (.inr hg))
    rw [hf.pagemapEnd,hf.refcnt,if_neg (hne g hg)]
    exact hl
  · intro g hg
    have hg' := hne g (mem_append_right _ hg)
    have hl := h.live g (mem_append_right _ (hex g hg))
    rw [hf.order_live g hl.1 hl.2 hg',hf.refcnt,if_neg hg']
    exact h.single g (hex g hg)
  · intro g hg
    rw [hrefs]
    exact h.apart g ((hmem g).mpr (.inr hg))
  · intro g hg
    rw [hrefs] at hg ⊢
    have hgf : g ≠ f := fun he => by
      rw [he,hzero] at hg
      exact absurd hg (lt_irrefl 0)
    obtain ⟨hin,hord,hle⟩ := h.refs g hg
    rw [hf.pagemapEnd,hf.order_live g hin (h.positive hg) hgf,hf.refcnt,if_neg hgf]
    exact ⟨hin,hord,hle⟩
  · intro ht g hg hout
    rw [hf.pagemapEnd] at hg
    rw [hrefs,hf.refcnt]
    split
    · exact Nat.zero_le _
    · rename_i hgf
      exact h.tight ht g hg fun hm => ((hmem g).mp hm).elim hgf hout

lemma recounted {n : Nat} (h : Accounted t w ex hand) (hc : Counted w.pm w'.pm f n)
    (hf : f ∉ w.owned ex) (hin : f < w.pm.pagemapEnd) (hord : w.pm.order f = 0) (hpos : 0 < w.pm.refcnt f)
    (hkeys : Distinct Pte.key w'.ptes) (hcaches : Distinct CachedPage.key w'.cachedPages)
    (hown : w'.owned ex = w.owned ex) (hsame : ∀ g, g ≠ f → w'.refs g + hand'.count g = w.refs g + hand.count g)
    (hle : w'.refs f + hand'.count f ≤ n) (htight : t = true → n ≤ w'.refs f + hand'.count f) :
    Accounted t w' ex hand' := by
  have hne : ∀ g ∈ w.owned ex, g ≠ f := fun g hg he => hf (he ▸ hg)
  refine ⟨hc.good,hkeys,hcaches,hown ▸ h.own,?_,?_,?_,?_,?_⟩
  · intro g hg
    rw [hown] at hg
    rw [hc.pagemapEnd,hc.refcnt,if_neg (hne g hg)]
    exact h.live g hg
  · intro g hg
    have hg' := mem_append_right (w.tables.map Table.frame ++ w.kern) hg
    have hl := h.live g hg'
    have hr : w'.pm.refcnt g = w.pm.refcnt g := by rw [hc.refcnt,if_neg (hne g hg')]
    rw [hc.order_live g hl.1 hl.2 (hr.symm ▸ hl.2),hr]
    exact h.single g hg
  · intro g hg
    rw [hown] at hg
    rw [hsame g (hne g hg)]
    exact h.apart g hg
  · intro g hg
    by_cases hgf : g = f
    · subst hgf
      rw [hc.pagemapEnd,hc.refcnt,if_pos rfl]
      refine ⟨hin,?_,hle⟩
      rw [hc.order_live g hin hpos (by rw [hc.refcnt,if_pos rfl]; omega)]
      exact hord
    · rw [hsame g hgf] at hg ⊢
      obtain ⟨hgin,hgord,hgle⟩ := h.refs g hg
      have hr : w'.pm.refcnt g = w.pm.refcnt g := by rw [hc.refcnt,if_neg hgf]
      have hgpos := h.positive hg
      rw [hc.pagemapEnd,hr,hc.order_live g hgin hgpos (hr.symm ▸ hgpos)]
      exact ⟨hgin,hgord,hgle⟩
  · intro ht g hg hout
    rw [hown] at hout
    rw [hc.pagemapEnd] at hg
    rw [hc.refcnt]
    split
    · rename_i hgf
      exact hgf ▸ htight ht
    · rename_i hgf
      rw [hsame g hgf]
      exact h.tight ht g hg hout

lemma handed (h : Accounted t w ex hand) (hf : 0 < w.refs f + hand.count f) : f ∉ w.owned ex := by
  intro hm
  rw [h.apart f hm] at hf
  exact absurd hf (lt_irrefl 0)

lemma incRefcnt (h : Accounted t w ex hand) (hf : 0 < w.refs f + hand.count f) :
    ∃ pm, w.pm.pmemIncRefcnt f 1 = some pm ∧ Counted w.pm pm f (w.pm.refcnt f + 1) ∧
      Accounted t { w with pm := pm } ex (f :: hand) := by
  obtain ⟨hin,hord,hle⟩ := h.refs f hf
  obtain ⟨pm,hpm,hc⟩ := pmemIncRefcnt_spec (n := 1) h.good hin (h.positive hf) hord
  have hcount : (f :: hand).count f = hand.count f + 1 := List.count_cons_self
  refine ⟨pm,hpm,hc,h.recounted hc (h.handed hf) hin hord (h.positive hf) h.keys h.caches rfl ?_ ?_ ?_⟩
  · intro g hg
    rw [List.count_cons_of_ne (Ne.symm hg)]
    rfl
  · rw [hcount]
    change w.refs f + _ ≤ _
    omega
  · intro ht
    have := h.tight ht f hin (h.handed hf)
    rw [hcount]
    change _ ≤ w.refs f + _
    omega

lemma decRefcnt (h : Accounted t w ex (f :: hand)) :
    ∃ pm, w.pm.pmemDecRefcnt f = some pm ∧ Counted w.pm pm f (w.pm.refcnt f - 1) ∧
      Accounted t { w with pm := pm } ex hand := by
  have hcount : (f :: hand).count f = hand.count f + 1 := List.count_cons_self
  have hf : 0 < w.refs f + (f :: hand).count f := by omega
  obtain ⟨hin,hord,hle⟩ := h.refs f hf
  obtain ⟨pm,hpm,hc⟩ := pmemDecRefcnt_spec h.good hin (h.positive hf) hord
  refine ⟨pm,hpm,hc,h.recounted hc (h.handed hf) hin hord (h.positive hf) h.keys h.caches rfl ?_ ?_ ?_⟩
  · intro g hg
    rw [List.count_cons_of_ne (Ne.symm hg)]
    rfl
  · change w.refs f + _ ≤ _
    omega
  · intro ht
    have := h.tight ht f hin (h.handed hf)
    change _ ≤ w.refs f + _
    omega

lemma leak (h : Accounted false w (f :: ex) hand) : Accounted false w ex hand := by
  have hnodup := nodup_cons.mp ((owned_cons w f ex).nodup_iff.mp h.own)
  have hmem : ∀ g ∈ w.owned ex, g ∈ w.owned (f :: ex) := fun g hg => mem_owned_cons.mpr (.inr hg)
  exact ⟨h.good,h.keys,h.caches,hnodup.2,fun g hg => h.live g (hmem g hg),
    fun g hg => h.single g (mem_cons_of_mem _ hg),fun g hg => h.apart g (hmem g hg),h.refs,by simp⟩

lemma forget (h : Accounted false w ex (f :: hand)) : Accounted false w ex hand := by
  have hle : ∀ g, hand.count g ≤ (f :: hand).count g := fun g => (List.sublist_cons_self f hand).count_le g
  refine ⟨h.good,h.keys,h.caches,h.own,h.live,h.single,?_,?_,by simp⟩
  · intro g hg
    have := h.apart g hg
    have := hle g
    omega
  · intro g hg
    have := hle g
    obtain ⟨hin,hord,hc⟩ := h.refs g (by omega)
    exact ⟨hin,hord,by omega⟩

end Accounted

lemma pmemAlloc_cases {p : Option Nat} (h : Accounted t w ex hand) (ha : w.pmemAlloc = some (w',p)) :
    (p = none ∧ w' = { w with failures := w.failures + 1 }) ∨ ∃ f pm, p = some f ∧ w' = { w with pm := pm } ∧
      Allocated w.pm pm f 0 ∧ Accounted t w' (f :: ex) hand := by
  simp only [pmemAlloc,Run.bind_some,Prod.exists] at ha
  obtain ⟨pm,q,hq,ha⟩ := ha
  cases ha
  rcases pmemAlloc_spec h.good with hs | ⟨pm',f,hs,halloc⟩ | ⟨hs,-⟩
  · cases hs.symm.trans hq
    exact .inl ⟨rfl,rfl⟩
  · obtain ⟨rfl,rfl⟩ := Prod.mk.inj (Option.some_inj.mp (hs.symm.trans hq))
    refine .inr ⟨f,pm',rfl,rfl,halloc,h.allocated _ halloc (owned_cons w f ex) (fun g hg => ?_) rfl rfl⟩
    exact (mem_cons.mp hg).symm.imp id fun he => ⟨he,rfl⟩
  · simp [hs] at hq

lemma pmemFree_accounted (h : Accounted t w (f :: ex) hand) : ∃ pm, w.pmemFree f = some { w with pm := pm } ∧
    Freed w.pm pm f 0 ∧ Accounted t { w with pm := pm } ex hand := by
  have hl := h.live f (mem_owned_cons.mpr (.inl rfl))
  obtain ⟨pm,hpm,hf⟩ := pmemNfree_spec (n := 1) h.good
    (⟨hl.1,hl.2,(h.single f mem_cons_self).1.symm⟩ : (f,0) ∈ w.pm.live) one_pos
  refine ⟨pm,?_,hf,?_⟩
  · simp [pmemFree,Pmem.pmemFree,hpm]
  · exact Accounted.freed { w with pm := pm } h hf (owned_cons w f ex)
      (fun g hg => mem_cons_of_mem _ hg) rfl rfl

lemma Accounted.reown {ex' : List Nat} (h : Accounted t w ex hand) (hpm : w'.pm = w.pm) (hptes : w'.ptes = w.ptes)
    (hcached : w'.cachedPages = w.cachedPages) (hown : (w'.owned ex').Perm (w.owned ex))
    (hex : ∀ g ∈ ex', g ∈ ex) : Accounted t w' ex' hand := by
  have hrefs : ∀ g, w'.refs g = w.refs g := fun g => by
    rw [World.refs,World.refs,hptes,hcached]
  refine ⟨hpm ▸ h.good,hptes ▸ h.keys,hcached ▸ h.caches,hown.nodup_iff.mpr h.own,?_,?_,?_,?_,?_⟩
  · exact fun g hg => hpm ▸ h.live g (hown.mem_iff.mp hg)
  · exact fun g hg => hpm ▸ h.single g (hex g hg)
  · exact fun g hg => hrefs g ▸ h.apart g (hown.mem_iff.mp hg)
  · exact fun g hg => hpm ▸ hrefs g ▸ h.refs g (hrefs g ▸ hg)
  · exact fun ht g hg hout => hpm ▸ hrefs g ▸ h.tight ht g (hpm ▸ hg) fun hm => hout (hown.mem_iff.mpr hm)

lemma Accounted.exchange {hand' : List Nat} (h : Accounted t w ex hand) (hpm : w'.pm = w.pm)
    (hkeys : Distinct Pte.key w'.ptes) (hcaches : Distinct CachedPage.key w'.cachedPages)
    (hown : w'.owned ex = w.owned ex) (hrefs : ∀ g, w'.refs g + hand'.count g = w.refs g + hand.count g) :
    Accounted t w' ex hand' := by
  refine ⟨hpm ▸ h.good,hkeys,hcaches,hown ▸ h.own,?_,?_,?_,?_,?_⟩
  · exact fun g hg => hpm ▸ h.live g (hown ▸ hg)
  · exact fun g hg => hpm ▸ h.single g hg
  · exact fun g hg => hrefs g ▸ h.apart g (hown ▸ hg)
  · exact fun g hg => hpm ▸ hrefs g ▸ h.refs g (hrefs g ▸ hg)
  · exact fun ht g hg hout => hpm ▸ hrefs g ▸ h.tight ht g (hpm ▸ hg) fun hm => hout (hown ▸ hm)

lemma Accounted.addTable (h : Accounted t w (f :: ex) hand) (space : Nat) (path : List Nat) :
    Accounted t (w.addTable space path f) ex hand := by
  refine h.reown rfl rfl rfl ?_ fun g hg => mem_cons_of_mem _ hg
  simp only [owned,World.addTable,List.map_cons,List.cons_append]
  exact List.perm_middle.symm

section pte
variable {space n : Nat} {e o : Pte}

lemma setPte_keys (h : Distinct Pte.key w.ptes) (e : Pte) : Distinct Pte.key (w.setPte e).ptes := by
  refine nodup_cons.mpr ⟨fun hm => ?_,h.remove⟩
  obtain ⟨x,hx,hk⟩ := mem_map.mp hm
  exact (mem_remove.mp hx).2 hk

lemma refs_setPte_none (h : w.lookupPte space n = none) (wr : Bool) (f g : Nat) :
    (w.setPte ⟨space,n,f,wr⟩).refs g = w.refs g + if g = f then 1 else 0 := by
  have hrem : remove Pte.key (space,n) w.ptes = w.ptes := remove_of_lookup_none h
  simp only [refs,setPte,Pte.key,hrem,countP_cons,beq_iff_eq,eq_comm (a := f)]
  omega

lemma refs_setPte_some (hk : Distinct Pte.key w.ptes) (h : w.lookupPte space n = some o) (wr : Bool) (f g : Nat) :
    (w.setPte ⟨space,n,f,wr⟩).refs g + (if g = o.frame then 1 else 0) = w.refs g + if g = f then 1 else 0 := by
  obtain ⟨ho,hkey⟩ := lookup_some h
  have hperm : w.ptes.Perm (o :: remove Pte.key (space,n) w.ptes) := hk.perm_remove ho hkey
  simp only [refs,setPte,hperm.countP_eq,countP_cons,beq_iff_eq,eq_comm (a := f),eq_comm (a := o.frame)]
  change List.countP _ (remove Pte.key (space,n) w.ptes) + _ + _ + _ = _
  omega

lemma Accounted.remap (h : Accounted t w (f :: ex) hand) (wr : Bool) (ho : w.lookupPte space n = some o) :
    Accounted t (w.setPte ⟨space,n,f,wr⟩) ex (o.frame :: hand) := by
  refine h.place rfl (setPte_keys h.keys _) h.caches (fun _ => rfl) fun g => ?_
  have := refs_setPte_some h.keys ho wr f g
  simp only [count_cons,beq_iff_eq,eq_comm (a := o.frame)]
  omega

lemma Accounted.map (h : Accounted t w (f :: ex) hand) (wr : Bool) (hnew : t = true → w.lookupPte space n = none) :
    Accounted t (w.setPte ⟨space,n,f,wr⟩) ex hand := by
  cases ho : w.lookupPte space n with
  | none =>
    refine h.place rfl (setPte_keys h.keys _) h.caches (fun _ => rfl) fun g => ?_
    have := refs_setPte_none ho wr f g
    omega
  | some o =>
    cases t with
    | false => exact (h.remap wr ho).forget
    | true => simp [hnew rfl] at ho

lemma Accounted.mapHand (h : Accounted t w ex (f :: hand)) (wr : Bool) (hnew : t = true → w.lookupPte space n = none) :
    Accounted t (w.setPte ⟨space,n,f,wr⟩) ex hand := by
  cases ho : w.lookupPte space n with
  | none =>
    refine h.exchange rfl (setPte_keys h.keys _) h.caches rfl fun g => ?_
    have := refs_setPte_none ho wr f g
    simp only [count_cons,beq_iff_eq,eq_comm (a := f)]
    omega
  | some o =>
    cases t with
    | false =>
      refine Accounted.forget (f := o.frame) (h.exchange rfl (setPte_keys h.keys _) h.caches rfl fun g => ?_)
      have := refs_setPte_some h.keys ho wr f g
      simp only [count_cons,beq_iff_eq,eq_comm (a := f),eq_comm (a := o.frame)]
      omega
    | true => simp [hnew rfl] at ho

lemma Accounted.setPerm (h : Accounted t w ex hand) (space : Nat) (ns : List Nat) (wr : Bool) :
    Accounted t (w.vpmapSetPerm space ns wr) ex hand := by
  refine h.exchange rfl ?_ h.caches rfl fun g => ?_
  · have hkeys : (w.vpmapSetPerm space ns wr).ptes.map Pte.key = w.ptes.map Pte.key := by
      simp only [vpmapSetPerm,List.map_map]
      refine List.map_congr_left fun e _ => ?_
      simp only [Function.comp_apply]
      split <;> rfl
    rw [Distinct,hkeys]
    exact h.keys
  · have hcount : (w.vpmapSetPerm space ns wr).ptes.countP (fun e => e.frame == g) =
        w.ptes.countP (fun e => e.frame == g) := by
      simp only [vpmapSetPerm,List.countP_map]
      refine List.countP_congr fun e _ => ?_
      simp only [Function.comp_apply]
      split <;> rfl
    simp only [World.refs,hcount]
    rfl

lemma Accounted.addCached (store index : Nat) (h : Accounted t w (f :: ex) hand)
    (hnew : lookup CachedPage.key (store,index) w.cachedPages = none) (bytes : Nat → Nat) :
    Accounted t { w.fill f bytes with cachedPages := ⟨store,index,f⟩ :: w.cachedPages } ex hand := by
  refine h.place rfl h.keys ?_ (fun _ => rfl) fun g => ?_
  · refine nodup_cons.mpr ⟨fun hm => ?_,h.caches⟩
    obtain ⟨x,hx,hk⟩ := mem_map.mp hm
    exact lookup_none hnew hx hk
  · simp only [World.refs,fill,countP_cons,beq_iff_eq,eq_comm (a := f)]
    omega

lemma Accounted.dropCached (h : Accounted false w ex hand) (keep : CachedPage → Bool) :
    Accounted false { w with cachedPages := w.cachedPages.filter keep } ex hand := by
  have hle : ∀ g, World.refs { w with cachedPages := w.cachedPages.filter keep } g ≤ w.refs g := fun g =>
    Nat.add_le_add_left (List.filter_sublist.countP_le) _
  refine ⟨h.good,h.keys,h.caches.sublist (List.filter_sublist.map _),h.own,h.live,h.single,?_,?_,by simp⟩
  · intro g hg
    have := h.apart g hg
    have := hle g
    omega
  · intro g hg
    have := hle g
    obtain ⟨hin,hord,hc⟩ := h.refs g (by omega)
    exact ⟨hin,hord,by simp only; omega⟩

lemma refs_erase (he : e ∈ w.ptes) (g : Nat) :
    refs { w with ptes := w.ptes.erase e } g + (if g = e.frame then 1 else 0) = w.refs g := by
  have hperm := List.perm_cons_erase he
  simp only [refs,hperm.countP_eq,countP_cons,beq_iff_eq,eq_comm (a := e.frame)]
  omega

lemma release_pte (h : Accounted t w ex hand) (he : e ∈ w.ptes) : ∃ pm,
    w.release (.pte e) = some { w with pm := pm, ptes := w.ptes.erase e } ∧
    Counted w.pm pm e.frame (w.pm.refcnt e.frame - 1) ∧
    Accounted t { w with pm := pm, ptes := w.ptes.erase e } ex hand := by
  have hkeys : Distinct Pte.key (w.ptes.erase e) := h.keys.sublist (List.erase_sublist.map _)
  have hexch : Accounted t { w with ptes := w.ptes.erase e } ex (e.frame :: hand) := by
    refine h.exchange rfl hkeys h.caches rfl fun g => ?_
    have := refs_erase he g
    simp only [count_cons,beq_iff_eq,eq_comm (a := e.frame)]
    omega
  obtain ⟨pm,hpm,hc,hacc⟩ := hexch.decRefcnt
  exact ⟨pm,by simp [release,pmemDecRefcnt,show w.pm.pmemDecRefcnt e.frame = some pm from hpm],hc,hacc⟩

lemma release_table {b : Table} (h : Accounted t w ex hand) (hb : b ∈ w.tables) : ∃ pm,
    w.release (.table b) = some { w with pm := pm, tables := w.tables.erase b } ∧
    Freed w.pm pm b.frame (w.pm.order b.frame) ∧
    Accounted t { w with pm := pm, tables := w.tables.erase b } ex hand := by
  have hmem : b.frame ∈ w.owned ex :=
    List.mem_append_left _ (List.mem_append_left _ (mem_map.mpr ⟨b,hb,rfl⟩))
  have hl := h.live _ hmem
  obtain ⟨pm,hpm,hf⟩ := pmemNfree_spec (n := 1) h.good (head_live hl.1 hl.2) one_pos
  refine ⟨pm,by simp [release,pmemFree,Pmem.pmemFree,hpm],hf,?_⟩
  refine Accounted.freed { w with pm := pm, tables := w.tables.erase b } h hf ?_ (fun g hg => hg) rfl rfl
  simp only [owned]
  have hperm := (List.perm_cons_erase hb).map Table.frame
  exact ((hperm.append_right _).append_right _)

end pte

end World
end MappedMemory
