import MappedMemory.Kernel.Layout
import MappedMemory.Kernel.Spaces

namespace MappedMemory
open Keyed Pmem Shm

def Covers (l : List CachedPage) (as : Addrspace) (e : Pte) : Prop :=
  ∃ r ∈ as.regions, ∃ k, r.start + k * pgSize < r.stop ∧ e.vpn = vpn (r.start + k * pgSize) ∧
    ∀ c, r.store = some c → e.writable = true ∧ ⟨c,k,e.frame⟩ ∈ l

structure Arranged (s : Shm) (l : List CachedPage) (es : List Pte) : Prop where
  orderly : ∀ x ∈ s.tabled, Orderly x.2
  covered : ∀ e ∈ es, ∃ x ∈ s.tabled, x.1 = e.space ∧ Covers l x.2 e

variable {l l' : List CachedPage} {as as' : Addrspace} {e : Pte} {r d : Memregion} {s s' : Shm} {es es' : List Pte}
  {x : Nat × Addrspace}

lemma Covers.mono (h : Covers l as e) (hr : ∀ r ∈ as.regions, r ∈ as'.regions)
    (hl : ∀ r ∈ as.regions, ∀ p ∈ l, r.store = some p.store → p ∈ l') : Covers l' as' e := by
  obtain ⟨r,hm,k,hk,hn,hc⟩ := h
  exact ⟨r,hr r hm,k,hk,hn,fun c hst => ⟨(hc c hst).1,hl r hm _ (hc c hst).2 hst⟩⟩

lemma Covers.plain (hs : Sound r) (hr : r ∈ as.regions) (hst : r.store = none) (hn : e.vpn ∈ r.pages) :
    Covers l as e := by
  obtain ⟨k,hk,hn⟩ := hs.mem_pages.mp hn
  exact ⟨r,hr,k,hk,hn,by simp [hst]⟩

lemma Covers.within (h : Covers l as e) (ho : Orderly as) (hr : r ∈ as.regions) (hn : e.vpn ∈ r.pages) :
    ∃ k, r.start + k * pgSize < r.stop ∧ e.vpn = vpn (r.start + k * pgSize) ∧
      ∀ c, r.store = some c → e.writable = true ∧ ⟨c,k,e.frame⟩ ∈ l := by
  obtain ⟨r',hr',k,hk,hv,hc⟩ := h
  obtain rfl := ho.unique hr hr' hn ((ho.sound r' hr').mem_pages.mpr ⟨k,hk,hv⟩)
  exact ⟨k,hk,hv,hc⟩

lemma Shm.Twin.sound (h : Twin r d) (hs : Sound r) : Sound d := by
  refine ⟨h.start ▸ hs.aligned,h.start ▸ h.stop ▸ hs.bounded,h.start ▸ h.stop ▸ hs.canonical,fun hsh => ?_⟩
  rw [h.stop,h.ofs]
  exact hs.low (h.shared.symm.trans hsh)

lemma Shm.Twin.pages (h : Twin r d) : d.pages = r.pages := by
  simp only [Memregion.pages,nPages,h.start,h.stop]

namespace Arranged

section
variable (h : Arranged s l es)
include h

lemma covers (hi : s.Inv) (he : e ∈ es) (hx : x ∈ s.tabled) (hs : x.1 = e.space) : Covers l x.2 e := by
  obtain ⟨y,hy,hye,hc⟩ := h.covered e he
  exact hi.tabled_unique hx hy (hs.trans hye.symm) ▸ hc

lemma same (hs : Same s s') (he : ∀ e ∈ es', e ∈ es)
    (hl : ∀ x ∈ s.tabled, ∀ r ∈ x.2.regions, ∀ p ∈ l, r.store = some p.store → p ∈ l') : Arranged s' l' es' := by
  refine ⟨fun x hx => h.orderly x ((hs x).mp hx),fun e hm => ?_⟩
  obtain ⟨x,hx,hxe,hc⟩ := h.covered e (he e hm)
  exact ⟨x,(hs x).mpr hx,hxe,hc.mono (fun _ hr => hr) (hl x hx)⟩

lemma sub (he : ∀ e ∈ es', e ∈ es) : Arranged s l es' :=
  h.same (fun _ => Iff.rfl) he fun _ _ _ _ _ hp _ => hp

lemma add (hx : x ∈ s.tabled) (he : ∀ e ∈ es', e ∈ es ∨ (e.space = x.1 ∧ Covers l x.2 e)) : Arranged s l es' := by
  refine ⟨h.orderly,fun e hm => ?_⟩
  rcases he e hm with he | ⟨hs,hc⟩
  · exact h.covered e he
  · exact ⟨x,hx,hs.symm,hc⟩

lemma replaced (hi : s.Inv) (hx : x ∈ s.tabled) (hr : Replaced s s' x as') (ho : Orderly as')
    (he : ∀ e ∈ es', (e ∈ es ∧ (e.space = x.1 → Covers l x.2 e → Covers l as' e)) ∨
      (e.space = x.1 ∧ Covers l as' e)) : Arranged s' l es' := by
  refine ⟨fun y hy => ?_,fun e hm => ?_⟩
  · rcases (hr y).mp hy with rfl | ⟨hy,-⟩
    · exact ho
    · exact h.orderly y hy
  · rcases he e hm with ⟨he,hc⟩ | ⟨hs,hc⟩
    · by_cases hs : e.space = x.1
      · exact ⟨_,(hr _).mpr (.inl rfl),hs.symm,hc hs (h.covers hi he hx hs.symm)⟩
      · obtain ⟨y,hy,hye,hcov⟩ := h.covered e he
        exact ⟨y,(hr y).mpr (.inr ⟨hy,fun h => hs (hye.symm.trans h)⟩),hye,hcov⟩
    · exact ⟨_,(hr _).mpr (.inl rfl),hs.symm,hc⟩

lemma dropped (hs : ∀ y, y ∈ s'.tabled ↔ y ∈ s.tabled ∧ y.1 ≠ x.1)
    (he : ∀ e ∈ es', e ∈ es ∧ e.space ≠ x.1) : Arranged s' l es' := by
  refine ⟨fun y hy => h.orderly y ((hs y).mp hy).1,fun e hm => ?_⟩
  obtain ⟨y,hy,hye,hc⟩ := h.covered e (he e hm).1
  exact ⟨y,(hs y).mpr ⟨hy,fun h => (he e hm).2 (hye.symm.trans h)⟩,hye,hc⟩

end

end Arranged

namespace World

variable {w w1 w' : World} {src : Nat} {p : Proc} {out : Outcome} {rep : Reply}

def Arranged (w : World) : Prop := MappedMemory.Arranged w.shm w.cachedPages w.ptes

lemma arranged_setPerm (h : w.Arranged) (hx : (src,as) ∈ w.shm.tabled)
    (hr : r ∈ as.regions) (hst : r.store = none) (wr : Bool) : (w.vpmapSetPerm src r.pages wr).Arranged := by
  refine ⟨h.orderly,fun e he => ?_⟩
  obtain ⟨o,ho,rfl⟩ := List.mem_map.mp he
  split
  · rename_i hcond
    exact ⟨_,hx,hcond.1.symm,.plain ((h.orderly _ hx).sound r hr) hr hst hcond.2⟩
  · exact h.covered o ho

lemma arranged_cowCopy {copied : Bool} (h : w.Arranged) (hacc : Accounted false w [] [])
    (hi : w.shm.Inv) (hsrc : (src,as) ∈ w.shm.tabled) (hr : r ∈ as.regions) (hsh : r.shared = false)
    (hc : w.applyEffect false (.cowCopy src x.1 r copied) = some w') :
    w'.shm = w.shm ∧ w'.cachedPages = w.cachedPages ∧
      MappedMemory.Arranged w.shm w.cachedPages (w.vpmapSetPerm src r.pages false).ptes ∧
      ∀ e ∈ w'.ptes, e ∈ (w.vpmapSetPerm src r.pages false).ptes ∨ (e.space = x.1 ∧ e.vpn ∈ r.pages) := by
  rcases cowCopy_some hc with ⟨heager,-⟩ | ⟨-,hcopy⟩
  · cases heager
  obtain ⟨hcop,-⟩ := vpmapSetPerm_cowCopy hacc hcopy
  exact ⟨hcop.shm,hcop.cached,arranged_setPerm h hsrc hr (hi.store_none hsrc hr hsh) false,
    fun e he => (hcop.added e he).imp id fun hn => ⟨hn.1,hn.2.1⟩⟩

def unmapsWhole (w : World) : Effect → Bool
  | .unmap space r => w.ptes.all fun e =>
    e.space != space || !r.pages.contains e.vpn || w.unmapSelects space r.start (nPages r) e.vpn
  | _ => true

lemma arranged_erase (h : w.Arranged) (hacc : Accounted false w [] []) (hi : w.shm.Inv) (hx : x ∈ w.shm.tabled)
    (hr : r ∈ x.2.regions) (hs : Replaced w.shm s' x (x.2.memregionUnmapInternal r.id))
    (hg : w.unmapsWhole (.unmap x.1 r) = true) (hu : w.applyEffect false (.unmap x.1 r) = some w') :
    MappedMemory.Arranged s' w'.cachedPages w'.ptes := by
  obtain ⟨hd,-⟩ := vpmapUnmap_spec hacc hu
  have hids := hi.distinct_regions hx
  have hmem : ∀ y, y ∈ (x.2.memregionUnmapInternal r.id).regions ↔ y ∈ x.2.regions ∧ y.id ≠ r.id :=
    fun y => hids.mem_eraseP
  have ho := h.orderly x hx
  rw [hd.cached]
  refine h.replaced hi hx hs ⟨fun y hy => ho.sound y ((hmem y).mp hy).1,fun y hy z hz =>
    ho.apart y ((hmem y).mp hy).1 z ((hmem z).mp hz).1⟩ fun e he => .inl ?_
  obtain ⟨he,hkept⟩ := (hd.ptes e).mp he
  refine ⟨he,fun hes ⟨y,hy,k,hk,hv,hc⟩ => ⟨y,(hmem y).mpr ⟨hy,fun hid => ?_⟩,k,hk,hv,hc⟩⟩
  obtain rfl := hids.eq hy hr hid
  have hpage : e.vpn ∈ y.pages := (ho.sound y hy).mem_pages.mpr ⟨k,hk,hv⟩
  have hall := List.all_eq_true.mp hg e he
  have hin : y.pages.contains e.vpn = true := List.contains_iff_mem.mpr hpage
  simp only [hes,bne_self_eq_false,hin,Bool.not_true,Bool.false_or] at hall
  exact hkept ⟨hes,hall⟩

lemma arranged_destroy (h : MappedMemory.Arranged w.shm w.cachedPages es) (hacc : Accounted false w1 [] [])
    (hroot : w1.hasTable x.1 [] = true) (hcached : w1.cachedPages = w.cachedPages)
    (hes : ∀ e ∈ w1.ptes, e ∈ es ∨ e.space = x.1) (hs : ∀ y, y ∈ s'.tabled ↔ y ∈ w.shm.tabled ∧ y.1 ≠ x.1)
    (hd : w1.vpmapDestroy x.1 = some w') : MappedMemory.Arranged s' w'.cachedPages w'.ptes := by
  obtain ⟨hdrop,-⟩ := vpmapDestroy_spec hacc hd
  rw [hdrop.cached,hcached]
  refine h.dropped hs fun e he => ?_
  obtain ⟨he,hkept⟩ := (hdrop.ptes e).mp he
  have hne : e.space ≠ x.1 := fun hs => hkept ⟨hs,hroot⟩
  exact ⟨(hes e he).resolve_right hne,hne⟩

lemma arranged_change {effects : List Effect} (h : w.Arranged) (hacc : Accounted false w [] []) (hh : w.Housed)
    (hc : Change w.shm s' effects) (hg : ∀ f ∈ effects, w.unmapsWhole f = true)
    (he : effects.foldlM (applyEffect false) w = some w') : MappedMemory.Arranged s' w'.cachedPages w'.ptes := by
  have hi := hh.inv
  cases hc with
  | idle hs =>
    cases he
    exact h.same hs (fun _ he => he) fun _ _ _ _ _ hp _ => hp
  | free c hs hunused =>
    cases singleEffect he
    refine h.same hs (fun _ he => he) fun x hx r hr p hp hst => List.mem_filter.mpr ⟨hp,?_⟩
    have hne : p.store ≠ c := fun hpc => hunused x hx r hr (hpc ▸ hst)
    simpa using hne
  | copy x as' as0 src m d hx hsrc hne hm htwin hgrown hs _ _ =>
    have hsd := htwin.sound ((h.orderly _ hsrc).sound m hm)
    have ho := (h.orderly x hx).grow hgrown hsd
    have hold : ∀ {l : List CachedPage} {e : Pte}, Covers l x.2 e → Covers l as' e := fun hcov =>
      hcov.mono (fun y hy => (hgrown.regions y).mpr (.inr hy)) fun _ _ _ hp _ => hp
    cases hsh : m.shared with
    | true =>
      rw [hsh] at he
      cases he
      exact h.replaced hi hx hs ho fun e he => .inl ⟨he,fun _ => hold⟩
    | false =>
      rw [hsh] at he
      obtain ⟨-,hcached,hperm,hnew⟩ := arranged_cowCopy h hacc hi hsrc hm hsh (singleEffect he)
      rw [hcached]
      refine hperm.replaced hi hx hs ho fun e he => (hnew e he).imp (fun he => ⟨he,fun _ => hold⟩) fun hn => ⟨hn.1,?_⟩
      have hpage : e.vpn ∈ d.pages := by
        rw [htwin.pages]
        exact hn.2
      exact .plain hsd ((hgrown.regions d).mpr (.inl rfl)) (htwin.store.trans (hi.store_none hsrc hm hsh)) hpage
  | erase x m hx hm hs => exact arranged_erase h hacc hi hx hm hs (hg _ List.mem_cons_self) (singleEffect he)
  | drop x es hx hs hes =>
    rcases hes with rfl | ⟨src,as0,m,d,hsrc,hm,hsh,rfl⟩
    · exact arranged_destroy h hacc (hh.roots x hx) rfl (fun _ he => .inl he) hs (singleEffect he)
    · obtain ⟨w1,hw1,he⟩ := Run.foldlM_cons_some.mp he
      obtain ⟨w2,hw2,he⟩ := Run.foldlM_cons_some.mp he
      obtain ⟨-,hcached,hperm,hnew⟩ := arranged_cowCopy h hacc hi hsrc hm hsh hw1
      obtain ⟨-,hroots,-⟩ := cowCopy_spaces hacc hw1
      have hacc1 := (applyEffect_spec hacc (by simp) hw1).accounted
      obtain ⟨hd,hroots2,hacc2⟩ := vpmapUnmap_spec hacc1 hw2
      exact arranged_destroy hperm hacc2 ((hroots2 x.1).trans ((hroots x.1).trans (hh.roots x hx)))
        (hd.cached.trans hcached) (fun e he => (hnew e ((hd.ptes e).mp he).1).imp id fun hn => hn.1) hs
        (singleEffect he)

def fits (as : Addrspace) (bytes : Nat) : Bool :=
  decide (bytes ≤ 2^47) && as.regions.all fun r =>
    r.stop == ustackUpperbound || decide (pgRoundUp r.stop + bytes ≤ 2^47)

lemma bytes_aligned (c : Smemcontext) : c.bytes % pgSize = 0 := by
  simp only [Smemcontext.bytes,sizeT,int32,pgSize]
  omega

lemma fits_found {bytes a : Nat} (ho : Orderly as) (hf : fits as bytes = true) (hb : bytes % pgSize = 0)
    (ha : a + bytes < 2^64) (h : as.findFreeVaddr bytes = some (some a)) : a + bytes ≤ 2^47 := by
  simp only [fits,Bool.and_eq_true,decide_eq_true_eq,List.all_eq_true,Bool.or_eq_true,beq_iff_eq] at hf
  simp only [Addrspace.findFreeVaddr] at h
  split at h
  · cases h
  · exact findFreeVaddrFrom_fits hb (fun r hr => ⟨ho.sound r hr,hf.2 r hr⟩) (.inl (by simpa using hf.1)) ha
      (Option.some_inj.mp h)

lemma arranged_mapping {name : List Nat} {alloc node : Bool} (h : w.Arranged)
    (hacc : Accounted false w [] []) (hi : w.shm.Inv) (hp : p ∈ w.shm.procs) (hpc : p.pc = .user)
    (hg : ∀ c, w.shm.getContextByHandle name none = some c → fits p.as c.bytes = true)
    (hc : w.shm.createMapping p name alloc node = some out)
    (he : out.effects.foldlM (applyEffect false) w = some w') :
    MappedMemory.Arranged out.shm w'.cachedPages w'.ptes := by
  have hself : (p.pid,p.as) ∈ w.shm.tabled := mem_tabled.mpr ⟨p,hp,by simp [hi.user_tabled hp hpc]⟩
  rcases createMapping_cases hi hp hpc hc with ⟨hs,hes | ⟨m,hes⟩⟩ | ⟨hes,c,as',m,hget,hmap⟩
  all_goals rw [hes] at he
  · cases he
    exact h.same hs (fun _ he => he) fun _ _ _ _ _ hp _ => hp
  · obtain ⟨hd,-⟩ := vpmapUnmap_spec hacc (singleEffect he)
    rw [hd.cached]
    exact h.same hs (fun e he => ((hd.ptes e).mp he).1) fun _ _ _ _ _ hp _ => hp
  · cases he
    have ho := h.orderly _ hself
    have hword : m.start + c.bytes < 2^64 := hmap.stop ▸ hmap.grown.placed.word
    have hlow := fits_found ho (hg c hget) (bytes_aligned c) hword hmap.found
    rw [← hmap.stop] at hlow
    have hs : Sound m := ⟨hmap.grown.placed.aligned,hmap.grown.placed.bounded,.inl hlow,fun _ => ⟨hlow,hmap.ofs⟩⟩
    refine h.replaced hi hself hmap.replaced (ho.grow hmap.grown hs) fun e he => .inl ⟨he,fun _ hcov => ?_⟩
    exact hcov.mono (fun y hy => (hmap.grown.regions y).mpr (.inr hy)) fun _ _ _ hp _ => hp

lemma arranged_setStop {stop : Nat} (h : w.Arranged) (hi : w.shm.Inv) (hx : x ∈ w.shm.tabled)
    (hr : r ∈ x.2.regions) (hst : r.store = none) (hs : Sound { r with stop := stop })
    (hap : ∀ y ∈ x.2.regions, y ≠ r → Apart { r with stop := stop } y)
    (hpages : ∀ e ∈ w.ptes, e.space = x.1 → e.vpn ∈ r.pages → e.vpn ∈ Memregion.pages { r with stop := stop })
    (hrep : Replaced w.shm s' x (setStop x.2 r.id stop)) : MappedMemory.Arranged s' w.cachedPages w.ptes := by
  have hids := hi.distinct_regions hx
  have ho := h.orderly x hx
  have hmem : ∀ y, y ∈ (setStop x.2 r.id stop).regions ↔ y = { r with stop := stop } ∨ (y ∈ x.2.regions ∧ y ≠ r) := by
    intro y
    rw [setStop,hids.mem_modify hr rfl]
    exact or_congr Iff.rfl (and_congr_right fun hy => not_congr ⟨fun hid => hids.eq hy hr hid,fun hyr => hyr ▸ rfl⟩)
  refine h.replaced hi hx hrep ⟨fun y hy => ?_,fun y hy z hz hne => ?_⟩ fun e he => .inl ⟨he,fun hes hcov => ?_⟩
  · rcases (hmem y).mp hy with rfl | ⟨hy,-⟩
    · exact hs
    · exact ho.sound y hy
  · rcases (hmem y).mp hy with rfl | ⟨hy,hyr⟩ <;> rcases (hmem z).mp hz with rfl | ⟨hz,hzr⟩
    · exact absurd rfl hne
    · exact hap z hz hzr
    · exact (hap y hy hyr).symm
    · exact ho.apart y hy z hz hne
  · obtain ⟨y,hy,k,hk,hv,hc⟩ := hcov
    by_cases hyr : y = r
    · have hpage : e.vpn ∈ r.pages := hyr ▸ (ho.sound y hy).mem_pages.mpr ⟨k,hk,hv⟩
      exact .plain hs ((hmem _).mpr (.inl rfl)) hst (hpages e he hes hpage)
    · exact ⟨y,(hmem y).mpr (.inr ⟨hy,hyr⟩),k,hk,hv,hc⟩

def growsApart (as : Addrspace) (r : Memregion) (size : Nat) : Bool :=
  decide (r.stop + size ≤ 2^47) && as.regions.all fun y =>
    y.id == r.id || decide (y.stop ≤ r.start ∨ r.stop + size ≤ y.start)

def shrinksClear (w : World) (space : Nat) (r : Memregion) (size : Nat) : Bool :=
  w.ptes.all fun e => e.space != space || !r.pages.contains e.vpn ||
    (Memregion.pages { r with stop := r.stop - size }).contains e.vpn

def heapMoves (w : World) (p : Proc) (size : Int) : Bool :=
  p.as.regions.all fun r => p.as.heap != some r.id ||
    if 0 < size then
      (p.as.asFindMemregion r.stop size.toNat).any (fun mr => mr.id != r.id) || growsApart p.as r size.toNat
    else decide (int32 (sub64 r.stop r.start) < int32 (-size)) ||
      decide (size ≠ -2^31) && w.shrinksClear p.pid r (-size).toNat

lemma arranged_sbrk {size : Int} (h : w.Arranged) (hi : w.shm.Inv)
    (hp : p ∈ w.shm.procs) (hpc : p.pc = .user) (hg : w.heapMoves p (int32 size) = true)
    (hc : w.shm.sysSbrk p size = some out) : MappedMemory.Arranged out.shm w.cachedPages w.ptes := by
  have hself : (p.pid,p.as) ∈ w.shm.tabled := mem_tabled.mpr ⟨p,hp,by simp [hi.user_tabled hp hpc]⟩
  obtain ⟨-,hs | ⟨r,hm⟩⟩ := sysSbrk_moved hi hp hpc hc
  · rw [hs]
    exact h
  have hr : r ∈ p.as.regions := List.mem_of_find?_eq_some hm.found
  have ho := h.orderly _ hself
  have hsr := ho.sound r hr
  have hsh : r.shared = false := ((hi.proc p hp).heap (p.pid,p.as) (by simp [Proc.spaces]) r.id hm.heap).2 r hr rfl
  have hst := hi.store_none hself hr hsh
  have hall := List.all_eq_true.mp hg r hr
  simp only [hm.heap,bne_self_eq_false,Bool.false_or] at hall
  have hb := hsr.bounded
  have hcan := hsr.canonical
  split at hall
  · rename_i hpos
    have hfound : (p.as.asFindMemregion r.stop (int32 size).toNat).any (fun mr => mr.id != r.id) = false := by
      cases hf : p.as.asFindMemregion r.stop (int32 size).toNat with
      | none => rfl
      | some mr => simp [hm.grows hpos mr hf]
    simp only [hfound,Bool.false_or,growsApart,Bool.and_eq_true,decide_eq_true_eq,List.all_eq_true,
      Bool.or_eq_true,beq_iff_eq] at hall
    obtain ⟨hlow,hap⟩ := hall
    have hstop : sizeT (r.stop + int32 size) = r.stop + (int32 size).toNat := by
      simp only [sizeT]
      omega
    have hrep := hm.replaced
    rw [hstop] at hrep
    have hs : Sound { r with stop := r.stop + (int32 size).toNat } :=
      ⟨hsr.aligned,hb.trans (Nat.le_add_right _ _),.inl hlow,fun h => absurd (hsh.symm.trans h) (by decide)⟩
    refine arranged_setStop h hi hself hr hst hs (fun y hy hne => ?_) (fun e he _ hpage => ?_) hrep
    · exact ((hap y hy).resolve_left fun hid => hne ((hi.distinct_regions hself).eq hy hr hid)).symm
    · obtain ⟨k,hk,hv⟩ := hsr.mem_pages.mp hpage
      exact hs.mem_pages.mpr ⟨k,hk.trans_le (Nat.le_add_right _ _),hv⟩
  · rename_i hneg
    have hroom := hm.shrinks (by omega)
    have hboth := (Bool.or_eq_true _ _ ▸ hall).resolve_left (by simpa using hroom)
    rw [Bool.and_eq_true,decide_eq_true_eq] at hboth
    obtain ⟨hmin,hclear⟩ := hboth
    have hneg' : int32 (-int32 size) = -int32 size := by
      simp only [int32] at hmin ⊢
      omega
    rw [hneg'] at hroom
    have hint : int32 (sub64 r.stop r.start) ≤ r.stop - r.start := by
      simp only [int32,sub64,u64]
      omega
    have hstop : sizeT (r.stop + int32 size) = r.stop - (-int32 size).toNat := by
      simp only [sizeT]
      omega
    have hrep := hm.replaced
    rw [hstop] at hrep
    have hs : Sound { r with stop := r.stop - (-int32 size).toNat } := by
      refine ⟨hsr.aligned,?_,?_,fun h => absurd (hsh.symm.trans h) (by decide)⟩ <;> simp only <;> omega
    refine arranged_setStop h hi hself hr hst hs (fun y hy hne => ?_) (fun e he hes hpage => ?_) hrep
    · have := ho.apart r hr y hy (Ne.symm hne)
      simp only [Apart] at this ⊢
      omega
    · have hall := List.all_eq_true.mp hclear e he
      have hin : r.pages.contains e.vpn = true := List.contains_iff_mem.mpr hpage
      simp only [hes,bne_self_eq_false,hin,Bool.not_true,Bool.false_or] at hall
      exact List.contains_iff_mem.mp hall

def orderlyCall (w : World) : Shm.Op → Bool
  | .createMapping pid name _ _ => (w.shm.caller pid).all fun p =>
    (w.shm.getContextByHandle name none).all fun c => fits p.as c.bytes
  | .sbrk pid size => (w.shm.caller pid).all fun p => w.heapMoves p (int32 size)
  | o => (w.shm.step o).all fun out => out.effects.all w.unmapsWhole

section
variable (h : w.Arranged)
include h

lemma arranged_call {so : Shm.Op} (hacc : Accounted false w [] []) (hh : w.Housed)
    (hspawn : ∀ phs, so ≠ .spawn phs) (hfork : ∀ pid, so ≠ .fork pid) (hg : w.orderlyCall so = true)
    (hc : w.call false so = some (w',rep)) : w'.Arranged := by
  obtain ⟨out,w1,hout,hw1,rfl,-⟩ := call_some hc
  change MappedMemory.Arranged out.shm w1.cachedPages w1.ptes
  cases so with
  | spawn phs => exact absurd rfl (hspawn phs)
  | fork pid => exact absurd rfl (hfork pid)
  | createMapping pid name alloc node =>
    obtain ⟨p,hp,hcall⟩ := Option.bind_eq_some_iff.mp hout
    refine arranged_mapping h hacc hh.inv (caller_mem hp).1 (caller_mem hp).2 (fun c hget => ?_) hcall hw1
    simpa [orderlyCall,hp,hget] using hg
  | sbrk pid size =>
    obtain ⟨p,hp,hcall⟩ := Option.bind_eq_some_iff.mp hout
    have hes := (sysSbrk_moved hh.inv (caller_mem hp).1 (caller_mem hp).2 hcall).1
    rw [hes] at hw1
    cases hw1
    exact arranged_sbrk h hh.inv (caller_mem hp).1 (caller_mem hp).2 (by simpa [orderlyCall,hp] using hg) hcall
  | _ =>
    refine arranged_change h hacc hh (step_change hh.inv rfl hout) (fun f hf => ?_) hw1
    simp only [orderlyCall,hout,Option.all_some,List.all_eq_true] at hg
    exact hg f hf

lemma arranged_quiet (hq : Quiet w w1) : w1.Arranged := by
  rw [Arranged,hq.shm,hq.cached,hq.ptes]
  exact h

lemma arranged_fork {pid : Nat} (hacc : Accounted false w [] []) (hi : w.shm.Inv)
    (hf : w.fork false pid = some (w',rep)) : w'.Arranged := by
  simp only [World.fork,Run.bind_some,Prod.exists] at hf
  obtain ⟨p,hp,w1,created,hc,hf⟩ := hf
  rcases vpmapCreate_spec hacc hc with ⟨rfl,hmiss⟩ | ⟨rfl,hcr,hacc1⟩
  · simp only [Bool.false_eq_true,if_false] at hf
    cases hf
    exact arranged_quiet h hmiss.quiet
  · simp only [if_true] at hf
    obtain ⟨out,w2,hout,hw2,rfl,-⟩ := call_some hf
    rw [hcr.shm] at hout
    obtain ⟨hes,-,htab⟩ := fork_change hi hout
    rw [hes] at hw2
    cases hw2
    refine ⟨fun y hy => ?_,fun e he => ?_⟩
    · rcases (htab y).mp hy with rfl | hy
      · exact ⟨by simp,by simp⟩
      · exact h.orderly y hy
    · obtain ⟨x,hx,hxe,hcov⟩ := h.covered e (hcr.ptes ▸ he)
      exact ⟨x,(htab x).mpr (.inr hx),hxe,hcr.cached ▸ hcov⟩

lemma arranged_spawn {phs : List Proghdr} {file : Nat → Nat → Nat}
    (hacc : Accounted false w [] []) (hlow : ∀ ph ∈ phs, lowSegment ph = true)
    (hs : w.spawn phs file = some (w',rep)) : w'.Arranged := by
  obtain ⟨out,hout,hcase⟩ := spawn_spec hacc (by simp) hs
  cases hcase with
  | rejected _ => exact h
  | starved _ hmiss =>
    exact arranged_quiet h hmiss.quiet
  | undone w1 w2 _ hcr hload _ hacc2 hd =>
    obtain ⟨hdrop,-⟩ := vpmapDestroy_spec (hacc2 rfl) hd
    have hroot : w2.hasTable w.shm.next [] = true := by
      rw [hload.roots,hcr.roots]
      simp
    rw [Arranged,hdrop.shm.trans (hload.shm.trans hcr.shm),hdrop.cached.trans (hload.cached.trans hcr.cached)]
    refine h.sub fun e he => ?_
    obtain ⟨he,hne⟩ := (hdrop.ptes e).mp he
    exact hcr.ptes ▸ (hload.added e he).resolve_right fun hn => hne ⟨hn.1,hroot⟩
  | started w1 w2 hok hcr hload _ =>
    obtain ⟨-,⟨-,hne⟩ | ⟨as,next,hbuilt,hshm⟩⟩ := spawn_cases hout
    · exact absurd hok hne
    have himage := hbuilt.image hlow
    have htab := tabled_spawn w.shm out.shm as (by rw [hshm])
    refine ⟨fun y hy => ?_,fun e he => ?_⟩
    · rcases (htab y).mp hy with rfl | hy
      · exact himage.orderly
      · exact h.orderly y hy
    · rcases hload.added e he with hold | ⟨hs,hpage,-⟩
      · obtain ⟨x,hx,hxe,hcov⟩ := h.covered e (hcr.ptes ▸ hold)
        exact ⟨x,(htab x).mpr (.inr hx),hxe,(hload.cached.trans hcr.cached) ▸ hcov⟩
      · obtain ⟨r,hr,hn⟩ := himage.pages e.vpn (List.mem_map.mpr ⟨_,hpage,rfl⟩)
        exact ⟨_,(htab _).mpr (.inl rfl),hs.symm,.plain (himage.orderly.sound r hr) hr (himage.store r hr).1 hn⟩

lemma arranged_fetched (hf : FetchedFor w w1 r) : w1.Arranged := by
  obtain ⟨store,index,hf,-⟩ := hf
  rw [Arranged,hf.shm]
  refine h.same (fun _ => Iff.rfl) (fun e he => hf.ptes ▸ he) fun _ _ _ _ c hc _ => ?_
  rcases hf.cached with hs | ⟨f,-,-,-,-,hs⟩
  · exact hs ▸ hc
  · exact hs ▸ List.mem_cons_of_mem _ hc

lemma arranged_setPte (hx : x ∈ w.shm.tabled) (hs : e.space = x.1)
    (hc : Covers w.cachedPages x.2 e) : (w.setPte e).Arranged := by
  refine h.add hx fun o ho => ?_
  rcases mem_setPte.mp ho with rfl | ⟨ho,-⟩
  · exact .inr ⟨hs,hc⟩
  · exact .inl ho

end

section fault
variable {p : Proc} {vaddr : Nat} {write : Bool}

lemma arranged_unshared (h : w.Arranged) (hx : (p.pid,p.as) ∈ w.shm.tabled) (hr : r ∈ p.as.regions)
    (hst : r.store = none) (hn : vpn vaddr ∈ r.pages) (hu : Unshared false w p.pid (vpn vaddr) [] [] e w') :
    w'.Arranged := by
  have hs := (h.orderly _ hx).sound r hr
  cases hu with
  | last _ =>
    refine h.add hx fun o ho => ?_
    obtain ⟨a,ha,rfl⟩ := List.mem_map.mp ho
    split
    · rename_i hcond
      refine .inr ⟨hcond.1,.plain hs hr hst ?_⟩
      exact List.mem_singleton.mp hcond.2 ▸ hn
    · exact .inl ha
  | copied w2 f pm _ hsup _ _ =>
    exact arranged_setPte (arranged_quiet h hsup.quiet) (hsup.quiet.shm ▸ hx) rfl (.plain hs hr hst hn)

lemma arranged_fault {ok : Bool} (h : w.Arranged) (hi : w.shm.Inv) (hp : p ∈ w.shm.procs) (hpc : p.pc = .user)
    (hcan : canonical vaddr = true) (hmiss : w.translate p.pid vaddr write = none)
    (hf : Fault false w p vaddr write w' ok) : w'.Arranged := by
  have hself : (p.pid,p.as) ∈ w.shm.tabled := mem_tabled.mpr ⟨p,hp,by simp [hi.user_tabled hp hpc]⟩
  have ho := h.orderly _ hself
  have hfind : ∀ {mr : Memregion}, p.as.asFindMemregion vaddr 1 = some mr → kernelSlot (vpn vaddr) = false →
      mr ∈ p.as.regions ∧ mr.start + (vaddr - mr.start) / pgSize * pgSize < mr.stop ∧
        vpn vaddr = vpn (mr.start + (vaddr - mr.start) / pgSize * pgSize) := fun hmr hk =>
    ⟨find_mem hmr,(find_page (ho.sound _ (find_mem hmr)) hmr (not_kernelSlot hcan hk)).2⟩
  cases hf with
  | nowhere _ => exact h
  | shared mr store w1 _ hmr hsh hst hs =>
    obtain ⟨f,pm,hc,-,rfl,-⟩ := hs.mapped
    obtain ⟨hmem,hk,hv⟩ := hfind hmr hs.user
    have hbase := arranged_fetched h ⟨store,_,hs.fetched,.inr hst⟩
    refine arranged_setPte (x := (p.pid,p.as)) hbase (hs.fetched.shm ▸ hself) rfl
      ⟨mr,hmem,_,hk,hv,fun c hc' => ⟨rfl,?_⟩⟩
    exact Option.some_inj.mp (hst.symm.trans hc') ▸ hc
  | unshared mr e w1 _ hmr _ hwrite _ hfetch _ hpte hu =>
    obtain ⟨he,hkey⟩ := lookup_some hpte
    have hes : e.space = p.pid := congrArg Prod.fst hkey
    have hev : e.vpn = vpn vaddr := congrArg Prod.snd hkey
    have hcov := h.covers hi he hself hes.symm
    have hk : kernelSlot (vpn vaddr) = false := by
      obtain ⟨y,hy,k,hk,hv,-⟩ := hcov
      rw [← hev,hv]
      exact (ho.sound y hy).user hk
    obtain ⟨hmem,hin,hv⟩ := hfind hmr hk
    have hpage : vpn vaddr ∈ mr.pages := (ho.sound mr hmem).mem_pages.mpr ⟨_,hin,hv⟩
    have hst : mr.store = none := by
      cases hst : mr.store with
      | none => rfl
      | some c =>
        obtain ⟨k,-,-,hc⟩ := hcov.within ho hmem (hev ▸ hpage)
        have hwr := (hc c hst).1
        simp [translate,hpte,hwr] at hmiss
    have hbase := arranged_fetched h hfetch
    obtain ⟨_,_,hf,-⟩ := hfetch
    exact arranged_unshared hbase (hf.shm ▸ hself) hmem hst hpage hu
  | zero mr w1 w2 f hmr hk hplace hd hs =>
    obtain ⟨hmem,hin,hv⟩ := hfind hmr hk
    have hsound := ho.sound mr hmem
    have hsh : mr.shared = false := by
      rcases hplace with hstack | hheap
      · refine Bool.eq_false_iff.mpr fun hsh => ?_
        have := (hsound.low hsh).1
        simp only [hstack,ustackUpperbound] at this
        omega
      · exact ((hi.proc p hp).heap (p.pid,p.as) (by simp [Proc.spaces]) mr.id hheap).2 mr hmem rfl
    have hpage : vpn vaddr ∈ mr.pages := hsound.mem_pages.mpr ⟨_,hin,hv⟩
    obtain ⟨_,_,hf,-⟩ := hd.fetched
    exact arranged_setPte (x := (p.pid,p.as)) (arranged_quiet (arranged_fetched h hd.fetched) hs.quiet)
      (hs.quiet.shm ▸ hf.shm ▸ hself) rfl (.plain hsound hmem (hi.store_none hself hmem hsh) hpage)
  | refused mr w1 hmr _ hd => exact arranged_fetched h hd.fetched

lemma arranged_perform (h : w.Arranged) (e : Pte) (ofs : Nat) (byte : Option Nat) :
    (w.perform e ofs byte).1.Arranged := by
  cases byte with
  | none => exact h
  | some byte => exact ⟨h.orderly,h.covered⟩

lemma exit_orderly (w : World) (pid : Nat) : w.orderlyCall (.exit pid) = true := by
  simp only [orderlyCall]
  cases hs : w.shm.step (.exit pid) with
  | none => rfl
  | some out =>
    obtain ⟨p,-,hs⟩ := Option.bind_eq_some_iff.mp hs
    cases hs
    rfl

lemma arranged_access {pid vaddr : Nat} {byte : Option Nat} {user radix : Bool} {rep : Reply} (h : w.Arranged)
    (hh : w.Housed) (hacc : Accounted false w [] [])
    (ha : w.access false pid vaddr byte user radix = some (w',rep)) : w'.Arranged := by
  obtain ⟨p,hp,rfl,hcan,hcase⟩ := access_spec hacc ha
  obtain ⟨hpm,hpc⟩ := caller_mem hp
  cases hcase with
  | hit e he => exact arranged_perform h e _ byte
  | resumed w1 e hmiss hf he => exact arranged_perform (arranged_fault h hh.inv hpm hpc hcan hmiss hf) e _ byte
  | killed w1 _ r hmiss hf hcall =>
    exact arranged_call (arranged_fault h hh.inv hpm hpc hcan hmiss hf) (hf.relaxed hacc hmiss)
      (hh.fault hacc hpm hpc hf) (by simp) (by simp) (exit_orderly w1 p.pid) hcall

end fault

variable {cfg : Alloc.Config} {data : Nat → Nat → Nat} {ops : List Op}

def orderlyStep (w : World) : Op → Bool
  | .spawn phs _ => phs.all lowSegment
  | .call o => w.orderlyCall o
  | _ => true

structure Coherent (w : World) : Prop where
  housed : w.Housed
  counted : Accounted false w [] []
  arranged : w.Arranged

lemma Coherent.step {o : Op} {rep : Reply} (h : w.Coherent) (hg : w.orderlyStep o = true)
    (hs : w.step false o = some (w',rep)) : w'.Coherent := by
  refine ⟨h.housed.step h.counted hs,(h.counted.step (by simp) hs).2 (by simp),?_⟩
  cases o with
  | spawn phs file => exact arranged_spawn h.arranged h.counted (List.all_eq_true.mp hg) hs
  | fork pid => exact arranged_fork h.arranged h.counted h.housed.inv hs
  | call so =>
    have hg : w.orderlyCall so = true := hg
    cases so with
    | spawn _ | fork _ => cases hs
    | _ => exact arranged_call h.arranged h.counted h.housed (by simp) (by simp) hg hs
  | access pid vaddr byte user radix => exact arranged_access h.arranged h.housed h.counted hs
  | nalloc n =>
    simp only [World.step] at hs
    split at hs
    · simp only [Run.bind_some,Prod.exists] at hs
      obtain ⟨pm,page,-,hs⟩ := hs
      cases hs
      exact ⟨h.arranged.orderly,h.arranged.covered⟩
    · cases hs
  | nfree page n =>
    simp only [World.step] at hs
    split at hs
    · obtain ⟨pm,-,hs⟩ := Run.bind_some.mp hs
      cases hs
      exact ⟨h.arranged.orderly,h.arranged.covered⟩
    · cases hs

lemma init_coherent (h : init cfg data = some w) : w.Coherent := by
  refine ⟨init_housed h,init_accounted h,?_⟩
  obtain ⟨a,-,rfl⟩ := Option.map_eq_some_iff.mp h
  exact ⟨by simp [boot,Shm.init,tabled],by simp [boot]⟩

structure MapsShared (w : World) (r : Memregion) (c k : Nat) (e : Pte) : Prop where
  live : ∃ p ∈ w.shm.procs, ∃ x ∈ p.spaces, x.1 = e.space ∧ r ∈ x.2.regions
  shared : r.shared = true
  store : r.store = some c
  inside : k < nPages r
  present : w.lookupPte e.space (vpn (u64 (r.start + k * pgSize))) = some e

instance (w : World) (r : Memregion) (c k : Nat) (e : Pte) : Decidable (w.MapsShared r c k e) :=
  decidable_of_iff ((∃ p ∈ w.shm.procs, ∃ x ∈ p.spaces, x.1 = e.space ∧ r ∈ x.2.regions) ∧ r.shared = true ∧
    r.store = some c ∧ k < nPages r ∧ w.lookupPte e.space (vpn (u64 (r.start + k * pgSize))) = some e)
    ⟨fun ⟨hl,hs,hc,hk,he⟩ => ⟨hl,hs,hc,hk,he⟩,fun h => ⟨h.live,h.shared,h.store,h.inside,h.present⟩⟩

lemma Coherent.cached (h : w.Coherent) {c k : Nat} (hm : w.MapsShared r c k e) :
    ⟨c,r.ofs / pgSize + k,e.frame⟩ ∈ w.cachedPages := by
  obtain ⟨p,hp,x,hxp,hxs,hr⟩ := hm.live
  obtain ⟨he,hkey⟩ := lookup_some hm.present
  obtain ⟨y,hy,hye,hcov⟩ := h.arranged.covered e he
  obtain rfl : y = x := by
    obtain ⟨q,hq,hyq⟩ := mem_tabled.mp hy
    obtain rfl : q = p := by
      by_contra hne
      have hpid : q.pid ≠ p.pid := fun he => hne (h.housed.inv.pids.eq hq hp he)
      exact h.housed.inv.spaces_apart hp hq hpid (List.mem_map.mpr ⟨x,hxp,rfl⟩)
        ((hye.trans hxs.symm) ▸ tabled_id hyq)
    exact h.housed.inv.spaces_unique hp (Proc.tabled_spaces hyq) hxp (hye.trans hxs.symm)
  have ho := h.arranged.orderly y hy
  have hs := ho.sound r hr
  have hin := hs.nPages_iff.mp hm.inside
  have hc := hs.canonical
  have hvpn : e.vpn = vpn (r.start + k * pgSize) := by
    rw [← u64_of_lt (show r.start + k * pgSize < 2^64 by omega)]
    exact congrArg Prod.snd hkey
  obtain ⟨j,hj,hv,hcache⟩ := hcov.within ho hr (hs.mem_pages.mpr ⟨k,hin,hvpn⟩)
  obtain rfl := hs.index_unique hin hj (hvpn.symm.trans hv)
  rw [(hs.low hm.shared).2,Nat.zero_div,Nat.zero_add]
  exact (hcache c hm.store).2

def orderlyRun (cfg : Alloc.Config) (data : Nat → Nat → Nat) (ops : List Op) : Option World := do
  let w ← init cfg data
  ops.foldlM (Run.guarded orderlyStep (move false)) w

lemma orderlyRun_run (h : orderlyRun cfg data ops = some w) : run cfg data ops = some w := by
  simp only [orderlyRun,run,Run.bind_some] at h ⊢
  obtain ⟨w0,hw0,h⟩ := h
  exact ⟨w0,hw0,Run.foldlM_of_guarded h⟩

lemma run_coherent (h : orderlyRun cfg data ops = some w) : w.Coherent := by
  simp only [orderlyRun,Run.bind_some] at h
  obtain ⟨w0,hw0,h⟩ := h
  refine Run.invariant (P := Coherent) (fun v o v' hv hstep => ?_) (init_coherent hw0) h
  obtain ⟨hg,hstep⟩ := Run.guarded_some.mp hstep
  obtain ⟨⟨v1,r⟩,hs,rfl⟩ := Option.map_eq_some_iff.mp hstep
  exact hv.step hg hs

theorem shared_memory_coherent (cfg : Alloc.Config) (data : Nat → Nat → Nat) (ops : List Op) (w : World)
    (h : orderlyRun cfg data ops = some w) :
    (∀ r c k e, w.MapsShared r c k e →
      (lookup CachedPage.key (c,r.ofs / pgSize + k) w.cachedPages).map CachedPage.frame = some e.frame) ∧
    ∀ r c k e r' c' k' e', w.MapsShared r c k e → w.MapsShared r' c' k' e' →
      (e.frame = e'.frame ↔ c = c' ∧ r.ofs / pgSize + k = r'.ofs / pgSize + k') := by
  have hc := run_coherent h
  have hcaches := hc.counted.caches
  refine ⟨fun r c k e hm => ?_,fun r c k e r' c' k' e' hm hm' => ⟨fun hf => ?_,fun ⟨hs,hk⟩ => ?_⟩⟩
  · have hlook : lookup CachedPage.key (c,r.ofs / pgSize + k) w.cachedPages = some ⟨c,_,e.frame⟩ :=
      hcaches.lookup_eq (hc.cached hm) rfl
    rw [hlook]
    rfl
  · have heq := List.inj_on_of_nodup_map hc.housed.frames (hc.cached hm) (hc.cached hm') hf
    exact ⟨congrArg CachedPage.store heq,congrArg CachedPage.index heq⟩
  · exact congrArg CachedPage.frame (hcaches.eq (hc.cached hm) (hc.cached hm') (Prod.ext hs hk))

def sharedWithChild : List Op :=
  [program,.call (.createSharedRegion 0 [65] 1 0 true),.call (.createMapping 0 [65] true true),.fork 0,
    proceed 0,proceed 0,proceed 0,proceed 0,proceed 0,proceed 0,.access 0 4096 (some 7) true true,
    .access 6 4096 none true true]

def sharedRegion (id : Nat) : Memregion := ⟨id,4096,16781312,.urw,true,some 4,0⟩

theorem shared_memory_coherent_child : ∃ w f, orderlyRun smallMemory (fun _ _ => 0) sharedWithChild = some w ∧
    w.MapsShared (sharedRegion 5) 4 0 ⟨0,1,f,true⟩ ∧ w.MapsShared (sharedRegion 9) 4 0 ⟨6,1,f,true⟩ ∧
    (lookup CachedPage.key (4,0) w.cachedPages).map CachedPage.frame = some f := by
  have hrun : (orderlyRun smallMemory (fun _ _ => 0) sharedWithChild).any (fun w =>
      (List.range 64).any fun f => (List.range 64).any fun g =>
        decide (w.MapsShared (sharedRegion 5) 4 0 ⟨0,1,f,true⟩) &&
        decide (w.MapsShared (sharedRegion 9) 4 0 ⟨6,1,g,true⟩)) = true := by decide +kernel
  obtain ⟨w,hw,hok⟩ := (Option.any_eq_true _ _).mp hrun
  obtain ⟨f,-,hok⟩ := List.any_eq_true.mp hok
  obtain ⟨g,-,hok⟩ := List.any_eq_true.mp hok
  simp only [Bool.and_eq_true,decide_eq_true_eq] at hok
  obtain ⟨hcache,hframes⟩ := shared_memory_coherent smallMemory _ sharedWithChild w hw
  obtain rfl : f = g := (hframes _ _ _ _ _ _ _ _ hok.1 hok.2).mpr ⟨rfl,rfl⟩
  exact ⟨w,f,hw,hok.1,hok.2,hcache _ _ _ _ hok.1⟩

def mapOverOldHeap : List Op :=
  [program,.call (.sbrk 0 4096),.access 0 4096 (some 7) true true,.call (.sbrk 0 (-4096)),
    .call (.createSharedRegion 0 [65] 1 0 true),.call (.createMapping 0 [65] true true)]

theorem stale_heap_page_shared : ∃ w, run smallMemory (fun _ _ => 0) mapOverOldHeap = some w ∧ w.failures = 0 ∧
    w.MapsShared (sharedRegion 5) 4 0 ⟨0,1,13,true⟩ ∧ lookup CachedPage.key (4,0) w.cachedPages = none := by
  have hrun : (run smallMemory (fun _ _ => 0) mapOverOldHeap).any (fun w => w.failures == 0 &&
      decide (w.MapsShared (sharedRegion 5) 4 0 ⟨0,1,13,true⟩) &&
      decide (lookup CachedPage.key (4,0) w.cachedPages = none)) = true := by decide +kernel
  obtain ⟨w,hw,hok⟩ := (Option.any_eq_true _ _).mp hrun
  simp only [Bool.and_eq_true,beq_iff_eq,decide_eq_true_eq] at hok
  exact ⟨w,hw,hok.1.1,hok.1.2,hok.2⟩

end World
end MappedMemory
