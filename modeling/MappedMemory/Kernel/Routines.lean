import MappedMemory.Kernel.Accounting

namespace MappedMemory

open Bool (and_eq_true false_eq_true)
open List (mem_cons mem_cons_of_mem mem_cons_self mem_map)
open Option (bind_eq_bind bind_some some_inj)

open Keyed Pmem

namespace World

variable {t : Bool} {w w1 w2 w' : World} {ex hand : List Nat} {f space n store index : Nat} {pm : Pmem}
  {bytes : Nat → Nat} {ok wr : Bool}

structure Quiet (w w' : World) : Prop where
  shm : w'.shm = w.shm
  ptes : w'.ptes = w.ptes
  cached : w'.cachedPages = w.cachedPages
  kern : w'.kern = w.kern
  roots : ∀ s, w'.hasTable s [] = w.hasTable s []
  failures : w.failures ≤ w'.failures
  pages : ∀ f, 0 < w.pm.refcnt f → w'.pm.refcnt f = w.pm.refcnt f ∧ w'.data f = w.data f

namespace Quiet

lemma refl (w : World) : Quiet w w := ⟨rfl,rfl,rfl,rfl,fun _ => rfl,le_rfl,fun _ _ => ⟨rfl,rfl⟩⟩

lemma trans (h : Quiet w w1) (h' : Quiet w1 w2) : Quiet w w2 := by
  refine ⟨h'.shm.trans h.shm,h'.ptes.trans h.ptes,h'.cached.trans h.cached,h'.kern.trans h.kern,
    fun s => (h'.roots s).trans (h.roots s),h.failures.trans h'.failures,fun f hf => ?_⟩
  obtain ⟨hr,hd⟩ := h.pages f hf
  obtain ⟨hr',hd'⟩ := h'.pages f (hr.symm ▸ hf)
  exact ⟨hr'.trans hr,hd'.trans hd⟩

lemma lookupPte (h : Quiet w w') (space n : Nat) : w'.lookupPte space n = w.lookupPte space n := by
  rw [World.lookupPte,World.lookupPte,h.ptes]

lemma allocated (ha : Allocated w.pm pm f 0) : Quiet w { w with pm := pm } := by
  refine ⟨rfl,rfl,rfl,rfl,fun _ => rfl,le_rfl,fun g hg => ⟨?_,rfl⟩⟩
  have hne : g ≠ f := fun he => absurd ha.zero (he ▸ hg).ne'
  rw [ha.refcnt,if_neg hne]

section
variable (h : Quiet w w') (hf : w.pm.refcnt f = 0)
include h hf

lemma fill (bytes : Nat → Nat) : Quiet w (w'.fill f bytes) := by
  refine ⟨h.shm,h.ptes,h.cached,h.kern,h.roots,h.failures,fun g hg => ⟨(h.pages g hg).1,?_⟩⟩
  have hne : g ≠ f := fun he => absurd hf (he ▸ hg).ne'
  simp only [World.fill,Function.update_of_ne hne]
  exact (h.pages g hg).2

lemma addTable {path : List Nat} (hp : path ≠ []) (s : Nat) : Quiet w (w'.addTable s path f) := by
  have hfill := h.fill hf fun _ => 0
  refine ⟨h.shm,h.ptes,h.cached,h.kern,fun s => ?_,h.failures,hfill.pages⟩
  rw [← h.roots s]
  simp [hasTable,World.addTable,World.fill,hp]

lemma freed {k : Nat} (hfree : Freed w'.pm pm f k) : Quiet w { w' with pm := pm } := by
  refine ⟨h.shm,h.ptes,h.cached,h.kern,h.roots,h.failures,fun g hg => ⟨?_,(h.pages g hg).2⟩⟩
  have hne : g ≠ f := fun he => absurd hf (he ▸ hg).ne'
  rw [hfree.refcnt,if_neg hne]
  exact (h.pages g hg).1

end

lemma failed (h : Quiet w w') : Quiet w { w' with failures := w'.failures + 1 } :=
  ⟨h.shm,h.ptes,h.cached,h.kern,h.roots,h.failures.trans (Nat.le_succ _),h.pages⟩

end Quiet

variable {p : Option Nat} {e : Pte} {radix : Bool} {vaddr : Nat} {x : Release}

lemma Accounted.fill (h : Accounted t w ex hand) (f : Nat) (bytes : Nat → Nat) :
    Accounted t (w.fill f bytes) ex hand :=
  h.reown rfl rfl rfl (List.Perm.refl _) fun _ hg => hg

lemma Accounted.failed (h : Accounted t w ex hand) (n : Nat) : Accounted t { w with failures := n } ex hand :=
  h.reown rfl rfl rfl (List.Perm.refl _) fun _ hg => hg

structure Missed (t : Bool) (w w' : World) (ex hand : List Nat) : Prop where
  quiet : Quiet w w'
  accounted : Accounted t w' ex hand
  failed : w.failures < w'.failures

structure Supplied (t : Bool) (w w' : World) (ex hand : List Nat) (f : Nat) (bytes : Nat → Nat) : Prop where
  quiet : Quiet w w'
  accounted : Accounted t w' (f :: ex) hand
  fresh : w.pm.refcnt f = 0
  data : w'.data f = bytes

lemma Accounted.missed (h : Accounted t w ex hand) : Missed t w { w with failures := w.failures + 1 } ex hand :=
  ⟨(Quiet.refl w).failed,h.failed _,Nat.lt_succ_self _⟩

lemma Supplied.live (h : Supplied t w w' ex hand f bytes) : 0 < w'.pm.refcnt f :=
  (h.accounted.live f (mem_owned_cons.mpr (.inl rfl))).2

lemma Supplied.kept (h : Supplied t w w1 ex hand f bytes) (hq : Quiet w1 w2)
    (ha : Accounted t w2 (f :: ex) hand) : Supplied t w w2 ex hand f bytes :=
  ⟨h.quiet.trans hq,ha,h.fresh,(hq.pages f h.live).2.trans h.data⟩

lemma Supplied.returned (h : Supplied t w w1 ex hand f bytes) : ∃ pm, w1.pmemFree f = some { w1 with pm := pm } ∧
    Quiet w { w1 with pm := pm } ∧ Accounted t { w1 with pm := pm } ex hand := by
  obtain ⟨pm,hpm,hf,ha⟩ := pmemFree_accounted h.accounted
  exact ⟨pm,hpm,h.quiet.freed h.fresh hf,ha⟩

lemma pmemAlloc_supplied (h : Accounted t w ex hand) (ha : w.pmemAlloc = some (w',p)) :
    (p = none ∧ Missed t w w' ex hand) ∨
      ∃ f, p = some f ∧ w'.data = w.data ∧ ∀ bytes, Supplied t w (w'.fill f bytes) ex hand f bytes := by
  rcases pmemAlloc_cases h ha with ⟨rfl,rfl⟩ | ⟨f,pm,rfl,rfl,halloc,hacc⟩
  · exact .inl ⟨rfl,h.missed⟩
  · refine .inr ⟨f,rfl,rfl,fun bytes => ⟨(Quiet.allocated halloc).fill halloc.zero bytes,hacc.fill f bytes,
      halloc.zero,?_⟩⟩
    simp [World.fill]

lemma findPteFrom_spec {paths : List (List Nat)} (h : Accounted t w ex hand) (hne : ∀ p ∈ paths, p ≠ [])
    (hf : findPteFrom space paths w = some (w',ok)) :
    Quiet w w' ∧ Accounted t w' ex hand ∧ (ok = false → w.failures < w'.failures) := by
  induction paths generalizing w with
  | nil =>
    obtain ⟨rfl,rfl⟩ := Prod.mk.inj (some_inj.mp hf)
    exact ⟨Quiet.refl w,h,by simp⟩
  | cons path paths ih =>
    have htail : ∀ p ∈ paths, p ≠ [] := fun p hp => hne p (mem_cons_of_mem _ hp)
    simp only [findPteFrom] at hf
    split at hf
    · exact ih h htail hf
    · simp only [Run.bind_some,Prod.exists] at hf
      obtain ⟨w1,p,ha,hf⟩ := hf
      rcases pmemAlloc_cases h ha with ⟨rfl,rfl⟩ | ⟨f,pm,rfl,rfl,halloc,hacc⟩
      · cases hf
        exact ⟨h.missed.quiet,h.missed.accounted,fun _ => h.missed.failed⟩
      · have hq : Quiet w _ := (Quiet.allocated halloc).addTable halloc.zero (hne path mem_cons_self) space
        obtain ⟨hq',hacc',hfail⟩ := ih (hacc.addTable space path) htail hf
        exact ⟨hq.trans hq',hacc',hfail⟩

lemma findPte_spec (h : Accounted t w ex hand) (hf : w.findPte space n = some (w',ok)) :
    Quiet w w' ∧ Accounted t w' ex hand ∧ (ok = false → w.failures < w'.failures) := by
  simp only [findPte] at hf
  split at hf
  · exact findPteFrom_spec h (by simp [tablePaths]) hf
  · simp at hf

lemma findPte_user (hf : w.findPte space n = some (w',ok)) : kernelSlot n = false := by
  simp only [findPte] at hf
  split at hf
  · rename_i hcond
    simp only [and_eq_true,Bool.not_eq_true'] at hcond
    exact hcond.2
  · simp at hf

lemma vpmapMap_spec (h : Accounted t w ex hand) (hm : w.vpmapMap space n f wr = some (w',ok)) :
    (ok = false ∧ Missed t w w' ex hand) ∨
      (ok = true ∧ kernelSlot n = false ∧
        ∃ w1, Quiet w w1 ∧ Accounted t w1 ex hand ∧ w' = w1.setPte ⟨space,n,f,wr⟩) := by
  simp only [vpmapMap,Run.bind_some,Prod.exists] at hm
  obtain ⟨w1,found,hfind,hm⟩ := hm
  obtain ⟨hq,ha,hfail⟩ := findPte_spec h hfind
  cases found with
  | true =>
    cases hm
    exact .inr ⟨rfl,findPte_user hfind,w1,hq,ha,rfl⟩
  | false =>
    cases hm
    exact .inl ⟨rfl,hq,ha,hfail rfl⟩

lemma Supplied.map (h : Supplied t w w1 ex hand f bytes) (hm : w1.vpmapMap space n f wr = some (w',ok)) :
    (ok = false ∧ Supplied t w w' ex hand f bytes ∧ w.failures < w'.failures) ∨
      (ok = true ∧ kernelSlot n = false ∧
        ∃ w2, Supplied t w w2 ex hand f bytes ∧ w' = w2.setPte ⟨space,n,f,wr⟩) := by
  rcases vpmapMap_spec h.accounted hm with ⟨rfl,hmiss⟩ | ⟨rfl,hu,w2,hq,ha,rfl⟩
  · exact .inl ⟨rfl,h.kept hmiss.quiet hmiss.accounted,h.quiet.failures.trans_lt hmiss.failed⟩
  · exact .inr ⟨rfl,hu,w2,h.kept hq ha,rfl⟩

lemma setupPage_spec (h : Accounted t w ex hand) (hs : w.setupPage space n bytes wr = some (w',ok)) :
    (ok = false ∧ Missed t w w' ex hand) ∨
      (ok = true ∧ kernelSlot n = false ∧
        ∃ w1 f, Supplied t w w1 ex hand f bytes ∧ w' = w1.setPte ⟨space,n,f,wr⟩) := by
  simp only [setupPage,Run.bind_some,Prod.exists] at hs
  obtain ⟨w1,p,ha,hs⟩ := hs
  rcases pmemAlloc_supplied h ha with ⟨rfl,hmiss⟩ | ⟨f,rfl,-,hsup⟩
  · cases hs
    exact .inl ⟨rfl,hmiss⟩
  · simp only [Run.bind_some,Prod.exists] at hs
    obtain ⟨w2,mapped,hm,hs⟩ := hs
    rcases (hsup bytes).map hm with ⟨rfl,hback,hfail⟩ | ⟨rfl,hu,w3,hplaced,rfl⟩
    · obtain ⟨pm,hfree,hq,hacc⟩ := hback.returned
      simp only [false_eq_true,if_false,hfree] at hs
      cases hs
      exact .inl ⟨rfl,hq,hacc,hfail⟩
    · simp only [if_true] at hs
      cases hs
      exact .inr ⟨rfl,hu,w3,f,hplaced,rfl⟩

inductive Unshared (t : Bool) (w : World) (space n : Nat) (ex hand : List Nat) (e : Pte) : World → Prop
  | last : w.pm.refcnt e.frame = 1 → Unshared t w space n ex hand e (w.vpmapSetPerm space [n] true)
  | copied (w1 : World) (f : Nat) (pm : Pmem) : w.pm.refcnt e.frame ≠ 1 →
      Supplied t w w1 ex hand f (w.data e.frame) → Counted w1.pm pm e.frame (w1.pm.refcnt e.frame - 1) →
      Accounted t { w1.setPte ⟨space,n,f,true⟩ with pm := pm } ex hand →
      Unshared t w space n ex hand e { w1.setPte ⟨space,n,f,true⟩ with pm := pm }

lemma Unshared.accounted (h : Accounted t w ex hand) (hu : Unshared t w space n ex hand e w') :
    Accounted t w' ex hand := by
  cases hu with
  | last _ => exact h.setPerm space [n] true
  | copied w1 f pm _ _ _ ha => exact ha

lemma handleCOW_spec (h : Accounted t w ex hand) (hc : w.handleCOW space n = some (w',ok)) :
    (ok = false ∧ w' = w ∧ w.lookupPte space n = none) ∨ ∃ e, w.lookupPte space n = some e ∧
      ((ok = false ∧ Missed t w w' ex hand) ∨ (ok = true ∧ Unshared t w space n ex hand e w')) := by
  simp only [handleCOW] at hc
  split at hc
  · rename_i hnone
    cases hc
    exact .inl ⟨rfl,rfl,hnone⟩
  · rename_i e he
    refine .inr ⟨e,he,?_⟩
    split at hc
    · rename_i hone
      cases hc
      exact .inr ⟨rfl,.last hone⟩
    · rename_i hmany
      simp only [Run.bind_some,Prod.exists] at hc
      obtain ⟨w1,p,ha,hc⟩ := hc
      rcases pmemAlloc_supplied h ha with ⟨rfl,hmiss⟩ | ⟨f,rfl,hdata,hsup⟩
      · cases hc
        exact .inl ⟨rfl,hmiss⟩
      · simp only [Run.bind_some,Prod.exists] at hc
        obtain ⟨w2,mapped,hm,hc⟩ := hc
        rw [hdata] at hm
        rcases (hsup _).map hm with ⟨rfl,hback,hfail⟩ | ⟨rfl,-,w3,hplaced,rfl⟩
        · obtain ⟨pm,hfree,hq,hacc⟩ := hback.returned
          simp only [false_eq_true,if_false,hfree] at hc
          cases hc
          exact .inl ⟨rfl,hq,hacc,hfail⟩
        · have ho : w3.lookupPte space n = some e := (hplaced.quiet.lookupPte space n).trans he
          obtain ⟨pm,hpm,hcount,hacc⟩ := (hplaced.accounted.remap true ho).decRefcnt
          simp only [if_true,pmemDecRefcnt,hpm,bind_eq_bind,bind_some] at hc
          cases hc
          exact .inr ⟨rfl,.copied w3 f pm hmany hplaced hcount hacc⟩

structure Fetched (w w' : World) (store index : Nat) : Prop where
  shm : w'.shm = w.shm
  ptes : w'.ptes = w.ptes
  kern : w'.kern = w.kern
  roots : ∀ s, w'.hasTable s [] = w.hasTable s []
  failures : w.failures ≤ w'.failures
  pages : ∀ f, 0 < w.pm.refcnt f → w'.pm.refcnt f = w.pm.refcnt f ∧ w'.data f = w.data f
  cached : w'.cachedPages = w.cachedPages ∨ ∃ f, w.pm.refcnt f = 0 ∧ 0 < w'.pm.refcnt f ∧ (w'.data f = fun _ => 0) ∧
    lookup CachedPage.key (store,index) w.cachedPages = none ∧ w'.cachedPages = ⟨store,index,f⟩ :: w.cachedPages

lemma Quiet.fetched (h : Quiet w w') (store index : Nat) : Fetched w w' store index :=
  ⟨h.shm,h.ptes,h.kern,h.roots,h.failures,h.pages,.inl h.cached⟩

lemma Fetched.quiet (h : Fetched w w1 store index) (hq : Quiet w1 w2) : Fetched w w2 store index := by
  refine ⟨hq.shm.trans h.shm,hq.ptes.trans h.ptes,hq.kern.trans h.kern,fun s => (hq.roots s).trans (h.roots s),
    h.failures.trans hq.failures,fun f hf => ?_,?_⟩
  · obtain ⟨hr,hd⟩ := h.pages f hf
    obtain ⟨hr',hd'⟩ := hq.pages f (hr.symm ▸ hf)
    exact ⟨hr'.trans hr,hd'.trans hd⟩
  · rcases h.cached with hsame | ⟨f,hz,hpos,hdata,hnone,hcons⟩
    · exact .inl (hq.cached.trans hsame)
    · obtain ⟨hr,hd⟩ := hq.pages f hpos
      exact .inr ⟨f,hz,hr.symm ▸ hpos,hd.trans hdata,hnone,hq.cached.trans hcons⟩

lemma Fetched.lookupPte (h : Fetched w w' store index) (space n : Nat) :
    w'.lookupPte space n = w.lookupPte space n := by
  rw [World.lookupPte,World.lookupPte,h.ptes]

lemma pgcacheGetPage_spec (h : Accounted t w ex hand) (hg : w.pgcacheGetPage store index radix = some (w',p)) :
    (p = none ∧ Missed t w w' ex hand) ∨
      ∃ f, p = some f ∧ Fetched w w' store index ∧ Accounted t w' ex hand ∧ ⟨store,index,f⟩ ∈ w'.cachedPages := by
  simp only [pgcacheGetPage] at hg
  split at hg
  · rename_i c hc
    cases hg
    obtain ⟨hmem,hkey⟩ := lookup_some hc
    obtain ⟨rfl,rfl⟩ := Prod.mk.inj hkey
    exact .inr ⟨c.frame,rfl,(Quiet.refl w).fetched _ _,h,hmem⟩
  · rename_i hnone
    simp only [Run.bind_some,Prod.exists] at hg
    obtain ⟨w1,p,ha,hg⟩ := hg
    rcases pmemAlloc_supplied h ha with ⟨rfl,hmiss⟩ | ⟨f,rfl,-,hsup⟩
    · cases hg
      exact .inl ⟨rfl,hmiss⟩
    · have hzero := hsup fun _ => 0
      have hcached := hzero.quiet.cached
      cases radix with
      | true =>
        simp only [if_true] at hg
        cases hg
        refine .inr ⟨f,rfl,⟨hzero.quiet.shm,hzero.quiet.ptes,hzero.quiet.kern,hzero.quiet.roots,
          hzero.quiet.failures,hzero.quiet.pages,.inr ⟨f,hzero.fresh,hzero.live,hzero.data,hnone,?_⟩⟩,?_,
          mem_cons_self⟩
        · exact congrArg _ hcached
        · have hacc := hzero.accounted.addCached store index (hcached.symm ▸ hnone) fun _ => 0
          exact hacc.reown rfl rfl rfl (List.Perm.refl _) fun _ hg => hg
      | false =>
        have hback := hsup (w1.data f)
        have hself : w1.fill f (w1.data f) = w1 := by simp [World.fill]
        rw [hself] at hback
        obtain ⟨pm,hfree,hq,hacc⟩ := hback.returned
        simp only [false_eq_true,if_false,hfree] at hg
        cases hg
        exact .inl ⟨rfl,hq.failed,hacc.failed _,Nat.lt_succ_of_le hq.failures⟩

lemma refs_cached_pos {c : CachedPage} (hc : c ∈ w.cachedPages) (hand : List Nat) :
    0 < w.refs c.frame + hand.count c.frame := by
  have : 0 < w.cachedPages.countP (fun d => d.frame == c.frame) :=
    List.countP_pos_iff.mpr ⟨c,hc,beq_self_eq_true _⟩
  simp only [World.refs]
  omega

lemma refs_mapped_pos (he : e ∈ w.ptes) (hand : List Nat) : 0 < w.refs e.frame + hand.count e.frame := by
  have : 0 < w.ptes.countP (fun d => d.frame == e.frame) := List.countP_pos_iff.mpr ⟨e,he,beq_self_eq_true _⟩
  simp only [World.refs]
  omega

structure Shared (t : Bool) (w w1 w' : World) (space n store index : Nat) (ex hand : List Nat) : Prop where
  user : kernelSlot n = false
  fetched : Fetched w w1 store index
  accounted : Accounted t w1 ex hand
  mapped : ∃ f pm, ⟨store,index,f⟩ ∈ w1.cachedPages ∧ Counted w1.pm pm f (w1.pm.refcnt f + 1) ∧
    w' = { w1.setPte ⟨space,n,f,true⟩ with pm := pm } ∧
    ((t = true → w.lookupPte space n = none) → Accounted t w' ex hand)

lemma handleSharedRegion_spec {r : Memregion} (h : Accounted t w ex hand)
    (hs : w.handleSharedRegion space r vaddr radix = some (w',ok)) : ∃ store, r.store = some store ∧
      ((ok = false ∧ Fetched w w' store ((vaddr - r.start) / pgSize) ∧ Accounted t w' ex hand ∧
          w.failures < w'.failures) ∨
        (ok = true ∧ ∃ w1, Shared t w w1 w' space (vpn vaddr) store ((vaddr - r.start) / pgSize) ex hand)) := by
  simp only [handleSharedRegion,Run.bind_some,Prod.exists] at hs
  obtain ⟨store,hstore,w1,p,hg,hs⟩ := hs
  refine ⟨store,hstore,?_⟩
  rcases pgcacheGetPage_spec h hg with ⟨rfl,hmiss⟩ | ⟨f,rfl,hfetch,hacc,hmem⟩
  · cases hs
    exact .inl ⟨rfl,hmiss.quiet.fetched _ _,hmiss.accounted,hmiss.failed⟩
  · simp only [Run.bind_some,Prod.exists] at hs
    obtain ⟨w2,mapped,hm,hs⟩ := hs
    rcases vpmapMap_spec hacc hm with ⟨rfl,hmiss⟩ | ⟨rfl,hu,w3,hq,ha,rfl⟩
    · simp only [false_eq_true,if_false] at hs
      cases hs
      exact .inl ⟨rfl,hfetch.quiet hmiss.quiet,hmiss.accounted,hfetch.failures.trans_lt hmiss.failed⟩
    · have hmem3 : ⟨store,(vaddr - r.start) / pgSize,f⟩ ∈ w3.cachedPages := hq.cached.symm ▸ hmem
      obtain ⟨pm,hpm,hcount,hinc⟩ := ha.incRefcnt (refs_cached_pos hmem3 hand)
      have hpm' : (w3.setPte ⟨space,vpn vaddr,f,true⟩).pm.pmemIncRefcnt f 1 = some pm := hpm
      simp only [if_true,pmemIncRefcnt,hpm',bind_eq_bind,bind_some] at hs
      cases hs
      refine .inr ⟨rfl,w3,hu,hfetch.quiet hq,ha,f,pm,hmem3,hcount,rfl,fun hnew => ?_⟩
      refine hinc.mapHand true fun ht => ?_
      exact (hq.lookupPte space (vpn vaddr)).trans ((hfetch.lookupPte _ _).trans (hnew ht))

def FetchedFor (w w1 : World) (mr : Memregion) : Prop :=
  ∃ store index, Fetched w w1 store index ∧ (w1.cachedPages = w.cachedPages ∨ mr.store = some store)

structure Declined (t : Bool) (w w1 : World) (p : Proc) (mr : Memregion) (vaddr : Nat) (write : Bool) : Prop where
  fetched : FetchedFor w w1 mr
  accounted : Accounted t w1 [] []
  why : w.failures < w1.failures ∨ (w1 = w ∧ mr.shared = false ∧
    ((w.lookupPte p.pid (vpn vaddr)).isSome → write = true → mr.perm ≠ .urw))

inductive Fault (t : Bool) (w : World) (p : Proc) (vaddr : Nat) (write : Bool) : World → Bool → Prop
  | nowhere : p.as.asFindMemregion vaddr 1 = none → Fault t w p vaddr write w false
  | shared (mr : Memregion) (store : Nat) (w1 w' : World) : p.as.asFindMemregion vaddr 1 = some mr →
      mr.shared = true → mr.store = some store →
      Shared t w w1 w' p.pid (vpn vaddr) store ((vaddr - mr.start) / pgSize) [] [] → Fault t w p vaddr write w' true
  | unshared (mr : Memregion) (e : Pte) (w1 w' : World) : p.as.asFindMemregion vaddr 1 = some mr →
      mr.perm = .urw → write = true → (w1 = w ∧ mr.shared = false ∨ w.failures < w1.failures) →
      FetchedFor w w1 mr → Accounted t w1 [] [] → w.lookupPte p.pid (vpn vaddr) = some e →
      Unshared t w1 p.pid (vpn vaddr) [] [] e w' → Fault t w p vaddr write w' true
  | zero (mr : Memregion) (w1 w2 : World) (f : Nat) : p.as.asFindMemregion vaddr 1 = some mr →
      kernelSlot (vpn vaddr) = false → (mr.stop = ustackUpperbound ∨ p.as.heap = some mr.id) → Declined t w w1 p mr vaddr write →
      Supplied t w1 w2 [] [] f (fun _ => 0) →
      Fault t w p vaddr write (w2.setPte ⟨p.pid,vpn vaddr,f,true⟩) true
  | refused (mr : Memregion) (w1 : World) : p.as.asFindMemregion vaddr 1 = some mr →
      (¬(mr.stop = ustackUpperbound ∨ p.as.heap = some mr.id) ∨ w.failures < w1.failures) →
      Declined t w w1 p mr vaddr write → Fault t w p vaddr write w1 false

lemma handlePageFault_spec {p : Proc} {write user : Bool} (h : Accounted t w [] [])
    (hf : w.handlePageFault p vaddr (w.lookupPte p.pid (vpn vaddr)).isSome write user radix = some (w',ok)) :
    Fault t w p vaddr write w' ok := by
  simp only [handlePageFault] at hf
  split at hf
  · rename_i hnone
    cases hf
    exact .nowhere hnone
  · rename_i mr hmr
    simp only [Run.bind_some,Prod.exists] at hf
    obtain ⟨w1,handled,hshared,hf⟩ := hf
    have hfirst : (handled = true ∧ Fault t w p vaddr write w1 true) ∨ (handled = false ∧
        FetchedFor w w1 mr ∧ Accounted t w1 [] [] ∧
        (w1 = w ∧ mr.shared = false ∨ w.failures < w1.failures)) := by
      split at hshared
      · rename_i hsh
        obtain ⟨store,hst,⟨rfl,hfetch,hacc,hfail⟩ | ⟨rfl,w2,hok⟩⟩ := handleSharedRegion_spec h hshared
        · exact .inr ⟨rfl,⟨_,_,hfetch,.inr hst⟩,hacc,.inr hfail⟩
        · exact .inl ⟨rfl,.shared mr store w2 w1 hmr hsh hst hok⟩
      · rename_i hsh
        cases hshared
        exact .inr ⟨rfl,⟨0,0,(Quiet.refl w).fetched _ _,.inl rfl⟩,h,.inl ⟨rfl,by simpa using hsh⟩⟩
    rcases hfirst with ⟨rfl,hfault⟩ | ⟨rfl,⟨store,index,hfetch,hfor⟩,hacc,hwhy⟩
    · simp only [if_true] at hf
      cases hf
      exact hfault
    simp only [false_eq_true,if_false,Run.bind_some,Prod.exists] at hf
    obtain ⟨w2,handled,hcow,hf⟩ := hf
    have hsecond : (handled = true ∧ Fault t w p vaddr write w2 true) ∨
        (handled = false ∧ Declined t w w2 p mr vaddr write) := by
      split at hcow
      · rename_i hcond
        simp only [and_eq_true,decide_eq_true_eq] at hcond
        obtain ⟨⟨hpres,hwrite⟩,hperm⟩ := hcond
        obtain ⟨e,he⟩ := Option.isSome_iff_exists.mp hpres
        have he1 : w1.lookupPte p.pid (vpn vaddr) = some e := (hfetch.lookupPte _ _).trans he
        rcases handleCOW_spec hacc hcow with ⟨_,_,hnone⟩ | ⟨e',he',⟨rfl,hmiss⟩ | ⟨rfl,hun⟩⟩
        · simp [hnone] at he1
        · exact .inr ⟨rfl,⟨store,index,hfetch.quiet hmiss.quiet,hmiss.quiet.cached ▸ hfor⟩,hmiss.accounted,
            .inl (hfetch.failures.trans_lt hmiss.failed)⟩
        · cases he1.symm.trans he'
          exact .inl ⟨rfl,.unshared mr e w1 w2 hmr hperm hwrite hwhy ⟨store,index,hfetch,hfor⟩ hacc he hun⟩
      · rename_i hcond
        cases hcow
        refine .inr ⟨rfl,⟨store,index,hfetch,hfor⟩,hacc,?_⟩
        rcases hwhy with ⟨rfl,hsh⟩ | hfail
        · refine .inr ⟨rfl,hsh,fun hpres hwrite hperm => hcond ?_⟩
          simp [hpres,hwrite,hperm]
        · exact .inl hfail
    rcases hsecond with ⟨rfl,hfault⟩ | ⟨rfl,hdec⟩
    · simp only [if_true] at hf
      cases hf
      exact hfault
    simp only [false_eq_true,if_false] at hf
    split at hf
    · split at hf
      · rename_i hwhere
        rcases setupPage_spec hdec.accounted hf with ⟨rfl,hmiss⟩ | ⟨rfl,hu,w3,f,hsup,rfl⟩
        · obtain ⟨store,index,hfetch,hfor⟩ := hdec.fetched
          have hlt := hfetch.failures.trans_lt hmiss.failed
          exact .refused mr w' hmr (.inr hlt)
            ⟨⟨store,index,hfetch.quiet hmiss.quiet,hmiss.quiet.cached ▸ hfor⟩,hmiss.accounted,.inl hlt⟩
        · exact .zero mr w2 w3 f hmr hu hwhere hdec hsup
      · rename_i hwhere
        obtain ⟨rfl,rfl⟩ := Prod.mk.inj (some_inj.mp hf)
        exact .refused mr w2 hmr (.inl hwhere) hdec
    · simp at hf

def held (w : World) : Release → Prop
  | .pte e => e ∈ w.ptes
  | .table b => b ∈ w.tables

structure Released (w w' : World) (l : List Release) : Prop where
  shm : w'.shm = w.shm
  cached : w'.cachedPages = w.cachedPages
  kern : w'.kern = w.kern
  data : w'.data = w.data
  failures : w'.failures = w.failures
  ptes : ∀ e, e ∈ w'.ptes ↔ e ∈ w.ptes ∧ .pte e ∉ l
  tables : ∀ b, b ∈ w'.tables ↔ b ∈ w.tables ∧ .table b ∉ l

section
variable (h : Accounted t w ex hand)
include h

lemma Accounted.ptes_nodup : w.ptes.Nodup := List.Nodup.of_map _ h.keys

lemma Accounted.tables_nodup : w.tables.Nodup := by
  have hown := h.own
  rw [owned,List.nodup_append',List.nodup_append'] at hown
  exact List.Nodup.of_map _ hown.1.1

lemma release_spec (hx : w.held x) : ∃ w', w.release x = some w' ∧ Released w w' [x] ∧ Accounted t w' ex hand := by
  cases x with
  | pte e =>
    obtain ⟨pm,hr,-,hacc⟩ := release_pte h hx
    refine ⟨_,hr,⟨rfl,rfl,rfl,rfl,rfl,fun d => ?_,fun b => by simp⟩,hacc⟩
    rw [h.ptes_nodup.mem_erase_iff]
    simp [and_comm]
  | table b =>
    obtain ⟨pm,hr,-,hacc⟩ := release_table h hx
    refine ⟨_,hr,⟨rfl,rfl,rfl,rfl,rfl,fun d => by simp,fun d => ?_⟩,hacc⟩
    rw [h.tables_nodup.mem_erase_iff]
    simp [and_comm]

lemma releases_spec {l : List Release} (hl : l.Nodup) (hin : ∀ x ∈ l, w.held x) :
    ∃ w', l.foldlM release w = some w' ∧ Released w w' l ∧ Accounted t w' ex hand := by
  induction l generalizing w with
  | nil => exact ⟨w,rfl,⟨rfl,rfl,rfl,rfl,rfl,fun _ => by simp,fun _ => by simp⟩,h⟩
  | cons x l ih =>
    obtain ⟨hx,hl⟩ := List.nodup_cons.mp hl
    obtain ⟨w1,hw1,hr,hacc⟩ := release_spec h (hin x mem_cons_self)
    have hin1 : ∀ y ∈ l, w1.held y := by
      intro y hy
      have hne : y ≠ x := fun he => hx (he ▸ hy)
      have hheld := hin y (mem_cons_of_mem _ hy)
      cases y with
      | pte e => exact (hr.ptes e).mpr ⟨hheld,by simpa using hne⟩
      | table b => exact (hr.tables b).mpr ⟨hheld,by simpa using hne⟩
    obtain ⟨w2,hw2,hr',hacc'⟩ := ih hacc hl hin1
    refine ⟨w2,Run.foldlM_cons_some.mpr ⟨w1,hw1,hw2⟩,?_,hacc'⟩
    refine ⟨hr'.shm.trans hr.shm,hr'.cached.trans hr.cached,hr'.kern.trans hr.kern,hr'.data.trans hr.data,
      hr'.failures.trans hr.failures,fun e => ?_,fun b => ?_⟩
    · rw [hr'.ptes,hr.ptes,List.mem_singleton,mem_cons]
      tauto
    · rw [hr'.tables,hr.tables,List.mem_singleton,mem_cons]
      tauto

end

lemma mem_unmapList {start stop : Nat} : x ∈ w.unmapList space start stop ↔
    ∃ e ∈ w.ptes, x = .pte e ∧ e.space = space ∧ unmapVisits start stop e.vpn = true := by
  simp only [unmapList,mem_map,List.mem_insertionSort,List.mem_filter,and_eq_true,beq_iff_eq]
  constructor
  · rintro ⟨e,⟨he,hs,hv⟩,rfl⟩
    exact ⟨e,he,rfl,hs,hv⟩
  · rintro ⟨e,he,rfl,hs,hv⟩
    exact ⟨e,⟨he,hs,hv⟩,rfl⟩

lemma unmapList_nodup (h : w.ptes.Nodup) (s start stop : Nat) : (w.unmapList s start stop).Nodup := by
  refine List.Nodup.map (fun a b hab => Release.pte.inj hab) ?_
  exact (List.perm_insertionSort _ _).nodup_iff.mpr (h.filter _)

lemma mem_destroyList : x ∈ w.destroyList space ↔
    (∃ e ∈ w.ptes, x = .pte e ∧ e.space = space) ∨ ∃ b ∈ w.tables, x = .table b ∧ b.space = space := by
  simp only [destroyList,List.mem_insertionSort,List.mem_append,mem_map,List.mem_filter,beq_iff_eq]
  constructor
  · rintro (⟨e,⟨he,hs⟩,rfl⟩ | ⟨b,⟨hb,hs⟩,rfl⟩)
    · exact .inl ⟨e,he,rfl,hs⟩
    · exact .inr ⟨b,hb,rfl,hs⟩
  · rintro (⟨e,he,rfl,hs⟩ | ⟨b,hb,rfl,hs⟩)
    · exact .inl ⟨e,⟨he,hs⟩,rfl⟩
    · exact .inr ⟨b,⟨hb,hs⟩,rfl⟩

lemma destroyList_nodup (hp : w.ptes.Nodup) (ht : w.tables.Nodup) (s : Nat) : (w.destroyList s).Nodup := by
  refine (List.perm_insertionSort _ _).nodup_iff.mpr (List.nodup_append'.mpr ⟨?_,?_,?_⟩)
  · exact List.Nodup.map (fun a b hab => Release.pte.inj hab) (hp.filter _)
  · exact List.Nodup.map (fun a b hab => Release.table.inj hab) (ht.filter _)
  · intro x hx hy
    obtain ⟨e,_,rfl⟩ := mem_map.mp hx
    obtain ⟨b,_,hb⟩ := mem_map.mp hy
    cases hb

structure Dropped (w w' : World) (space : Nat) (visit : Nat → Bool) : Prop where
  shm : w'.shm = w.shm
  cached : w'.cachedPages = w.cachedPages
  kern : w'.kern = w.kern
  data : w'.data = w.data
  failures : w'.failures = w.failures
  ptes : ∀ e, e ∈ w'.ptes ↔ e ∈ w.ptes ∧ ¬(e.space = space ∧ visit e.vpn = true)

lemma Dropped.none (w : World) (space : Nat) : Dropped w w space fun _ => false :=
  ⟨rfl,rfl,rfl,rfl,rfl,fun e => by simp⟩

def unmapSelects (w : World) (space vaddr n : Nat) : Nat → Bool := fun m =>
  w.hasTable space [] && n != 0 && unmapVisits (pgRoundDown vaddr) (u64 (pgRoundDown vaddr + n * pgSize)) m

lemma vpmapUnmap_spec (h : Accounted t w ex hand) (hu : w.vpmapUnmap space vaddr n = some w') :
    Dropped w w' space (w.unmapSelects space vaddr n) ∧ (∀ s, w'.hasTable s [] = w.hasTable s []) ∧
      Accounted t w' ex hand := by
  simp only [vpmapUnmap] at hu
  split at hu
  · rename_i hskip
    obtain rfl : w = w' := some_inj.mp hu
    have hsel : w.unmapSelects space vaddr n = fun _ => false := by
      funext m
      cases hroot : w.hasTable space [] <;> simp_all [unmapSelects]
    exact ⟨hsel ▸ Dropped.none w space,fun _ => rfl,h⟩
  · rename_i hgo
    split at hu
    · obtain ⟨w1,hw1,hr,hacc⟩ := releases_spec h (unmapList_nodup h.ptes_nodup space _ _)
        fun x hx => by
          obtain ⟨e,he,rfl,_⟩ := mem_unmapList.mp hx
          exact he
      obtain rfl : w1 = w' := some_inj.mp (hw1.symm.trans hu)
      have hsel : ∀ m, w.unmapSelects space vaddr n m =
          unmapVisits (pgRoundDown vaddr) (u64 (pgRoundDown vaddr + n * pgSize)) m := by
        intro m
        cases hroot : w.hasTable space [] <;> simp_all [unmapSelects]
      refine ⟨⟨hr.shm,hr.cached,hr.kern,hr.data,hr.failures,fun e => ?_⟩,fun s => ?_,hacc⟩
      · rw [hr.ptes,mem_unmapList,hsel]
        refine and_congr_right fun he => not_congr ⟨?_,fun hv => ⟨e,he,rfl,hv⟩⟩
        rintro ⟨d,_,hd,hv⟩
        exact Release.pte.inj hd ▸ hv
      · have hmem : ∀ b, b ∈ w1.tables ↔ b ∈ w.tables := fun b => by
          rw [hr.tables]
          refine and_iff_left fun hb => ?_
          obtain ⟨e,_,hcontra,_⟩ := mem_unmapList.mp hb
          cases hcontra
        rw [Bool.eq_iff_iff]
        simp only [hasTable,List.any_eq_true,hmem]
    · simp at hu

lemma vpmapDestroy_spec (h : Accounted t w ex hand) (hd : w.vpmapDestroy space = some w') :
    Dropped w w' space (fun _ => w.hasTable space []) ∧
      (∀ s, w'.hasTable s [] = (w.hasTable s [] && decide (s ≠ space))) ∧ Accounted t w' ex hand := by
  simp only [vpmapDestroy] at hd
  split at hd
  · rename_i hroot
    obtain ⟨w1,hw1,hr,hacc⟩ := releases_spec h (destroyList_nodup h.ptes_nodup h.tables_nodup space)
      fun x hx => by
        rcases mem_destroyList.mp hx with ⟨e,he,rfl,_⟩ | ⟨b,hb,rfl,_⟩
        · exact he
        · exact hb
    obtain rfl : w1 = w' := some_inj.mp (hw1.symm.trans hd)
    refine ⟨⟨hr.shm,hr.cached,hr.kern,hr.data,hr.failures,fun e => ?_⟩,fun s => ?_,hacc⟩
    · rw [hr.ptes,mem_destroyList]
      refine and_congr_right fun he => not_congr ⟨?_,fun hs => .inl ⟨e,he,rfl,hs.1⟩⟩
      rintro (⟨d,_,hde,hs⟩ | ⟨b,_,hcontra,_⟩)
      · exact ⟨Release.pte.inj hde ▸ hs,hroot⟩
      · cases hcontra
    · have hmem : ∀ b, b ∈ w1.tables ↔ b ∈ w.tables ∧ b.space ≠ space := fun b => by
        rw [hr.tables,mem_destroyList]
        refine and_congr_right fun hb => not_congr ⟨?_,fun hs => .inr ⟨b,hb,rfl,hs⟩⟩
        rintro (⟨d,_,hcontra,_⟩ | ⟨c,_,hbc,hs⟩)
        · cases hcontra
        · exact Release.table.inj hbc ▸ hs
      rw [Bool.eq_iff_iff]
      simp only [hasTable,List.any_eq_true,hmem,and_eq_true,beq_iff_eq,decide_eq_true_eq]
      constructor
      · rintro ⟨b,⟨hb,hne⟩,rfl,hp⟩
        exact ⟨⟨b,hb,rfl,hp⟩,hne⟩
      · rintro ⟨⟨b,hb,rfl,hp⟩,hne⟩
        exact ⟨b,⟨hb,hne⟩,rfl,hp⟩
  · rename_i hroot
    obtain rfl : w = w' := some_inj.mp hd
    have hnone : w.hasTable space [] = false := by simpa using hroot
    refine ⟨hnone ▸ Dropped.none w space,fun s => ?_,h⟩
    by_cases hs : s = space
    · simp [hs,hnone]
    · simp [hs]

structure Copied (src dst : Nat) (ns : List Nat) (same : Pte → Pte → Prop) (w w' : World) : Prop where
  shm : w'.shm = w.shm
  cached : w'.cachedPages = w.cachedPages
  kern : w'.kern = w.kern
  roots : ∀ s, w'.hasTable s [] = w.hasTable s []
  failures : w.failures ≤ w'.failures
  data : ∀ f, 0 < w.pm.refcnt f → 0 < w'.pm.refcnt f ∧ w'.data f = w.data f
  kept : ∀ e ∈ w.ptes, e ∈ w'.ptes
  added : ∀ e ∈ w'.ptes, e ∈ w.ptes ∨ (e.space = dst ∧ e.vpn ∈ ns ∧
    ∃ o ∈ w.ptes, o.space = src ∧ o.vpn = e.vpn ∧ same o e)

namespace Copied
variable {src dst : Nat} {ns : List Nat} {same : Pte → Pte → Prop} {e o : Pte}

lemma quiet (h : Quiet w w') : Copied src dst ns same w w' :=
  ⟨h.shm,h.cached,h.kern,h.roots,h.failures,fun f hf => ⟨(h.pages f hf).1.symm ▸ hf,(h.pages f hf).2⟩,
    fun _ he => h.ptes.symm ▸ he,fun _ he => .inl (h.ptes ▸ he)⟩

lemma mono {ms : List Nat} (h : Copied src dst ns same w w') (hsub : ∀ n ∈ ns, n ∈ ms) :
    Copied src dst ms same w w' :=
  ⟨h.shm,h.cached,h.kern,h.roots,h.failures,h.data,h.kept,fun e he => (h.added e he).imp id
    fun ⟨hs,hn,ho⟩ => ⟨hs,hsub _ hn,ho⟩⟩

lemma trans (htrans : ∀ a b c, same a b → same b c → same a c) (h : Copied src dst ns same w w1)
    (h' : Copied src dst ns same w1 w2) : Copied src dst ns same w w2 := by
  refine ⟨h'.shm.trans h.shm,h'.cached.trans h.cached,h'.kern.trans h.kern,
    fun s => (h'.roots s).trans (h.roots s),h.failures.trans h'.failures,fun f hf => ?_,
    fun e he => h'.kept e (h.kept e he),fun e he => ?_⟩
  · obtain ⟨hr,hd⟩ := h.data f hf
    obtain ⟨hr',hd'⟩ := h'.data f hr
    exact ⟨hr',hd'.trans hd⟩
  · rcases h'.added e he with he | ⟨hs,hn,o,ho,hos,hon,hsame⟩
    · exact h.added e he
    · rcases h.added o ho with ho | ⟨_,_,a,ha,has,han,hsame'⟩
      · exact .inr ⟨hs,hn,o,ho,hos,hon,hsame⟩
      · exact .inr ⟨hs,hn,a,ha,has,han.trans hon,htrans a o e hsame' hsame⟩

lemma add (pm : Pmem) (wr : Bool) (he : w.lookupPte dst n = none) (ho : o ∈ w.ptes) (hs : o.space = src) (hon : o.vpn = n)
    (hsame : same o ⟨dst,n,f,wr⟩) (hn : n ∈ ns) (hdata : ∀ g, 0 < w.pm.refcnt g → 0 < pm.refcnt g) :
    Copied src dst ns same w ({ w with pm := pm }.setPte ⟨dst,n,f,wr⟩) := by
  have hrem : remove Pte.key (dst,n) w.ptes = w.ptes := remove_of_lookup_none he
  refine ⟨rfl,rfl,rfl,fun _ => rfl,le_rfl,fun g hg => ⟨hdata g hg,rfl⟩,fun e he => ?_,fun e he => ?_⟩
  · exact mem_cons_of_mem _ (by rw [← hrem] at he; exact he)
  · rcases mem_cons.mp he with rfl | he
    · exact .inr ⟨rfl,hn,o,ho,hs,hon,hsame⟩
    · exact .inl (mem_remove.mp he).1

end Copied

variable {src dst : Nat} {ns : List Nat}

def SamePage (o e : Pte) : Prop := o.frame = e.frame ∧ o.writable = e.writable

inductive CowRound (t : Bool) (src dst n : Nat) (ns : List Nat) (ex hand : List Nat) (w w' : World) (ok : Bool) : Prop
  | absent : w.lookupPte src n = none → vpmapCowCopyFrom src dst ns w = some (w',ok) → CowRound t src dst n ns ex hand w w' ok
  | failed : ok = false → Quiet w w' → Accounted t w' ex hand → CowRound t src dst n ns ex hand w w' ok
  | shared (e : Pte) (w1 : World) (pm : Pmem) : w.lookupPte src n = some e → Quiet w w1 → w1.lookupPte dst n = none →
      Counted w1.pm pm e.frame (w1.pm.refcnt e.frame + 1) →
      Accounted t ({ w1 with pm := pm }.setPte ⟨dst,n,e.frame,e.writable⟩) ex hand →
      vpmapCowCopyFrom src dst ns ({ w1 with pm := pm }.setPte ⟨dst,n,e.frame,e.writable⟩) = some (w',ok) →
      CowRound t src dst n ns ex hand w w' ok

lemma cowRound (h : Accounted t w ex hand)
    (hc : vpmapCowCopyFrom src dst (n :: ns) w = some (w',ok)) : CowRound t src dst n ns ex hand w w' ok := by
  simp only [vpmapCowCopyFrom] at hc
  split at hc
  · rename_i he
    exact .absent he hc
  · rename_i e he
    simp only [Run.bind_some,Prod.exists] at hc
    obtain ⟨w1,found,hfind,hc⟩ := hc
    obtain ⟨hq,hacc,-⟩ := findPte_spec h hfind
    split at hc
    · cases hc
      exact .failed rfl hq hacc
    · rename_i hgo
      have hnone : w1.lookupPte dst n = none := by
        simp only [Bool.or_eq_true,not_or,Bool.not_eq_true,Option.isSome_eq_false_iff,Option.isNone_iff_eq_none] at hgo
        exact hgo.2
      obtain ⟨hmem,-⟩ := lookup_some ((hq.lookupPte src n).trans he)
      obtain ⟨pm,hpm,hcount,hinc⟩ := hacc.incRefcnt (refs_mapped_pos hmem hand)
      simp only [pmemIncRefcnt,hpm,bind_eq_bind,bind_some] at hc
      exact .shared e w1 pm he hq hnone hcount (hinc.mapHand e.writable fun _ => hnone) hc

lemma vpmapCowCopyFrom_spec (h : Accounted t w ex hand) (hc : vpmapCowCopyFrom src dst ns w = some (w',ok)) :
    Copied src dst ns SamePage w w' ∧ Accounted t w' ex hand := by
  have htrans : ∀ a b c, SamePage a b → SamePage b c → SamePage a c :=
    fun a b c hab hbc => ⟨hab.1.trans hbc.1,hab.2.trans hbc.2⟩
  induction ns generalizing w with
  | nil =>
    obtain ⟨rfl,rfl⟩ := Prod.mk.inj (some_inj.mp hc)
    exact ⟨.quiet (Quiet.refl w),h⟩
  | cons n ns ih =>
    have hsub : ∀ m ∈ ns, m ∈ n :: ns := fun m hm => mem_cons_of_mem _ hm
    cases cowRound h hc with
    | absent _ hc =>
      obtain ⟨hcop,hacc⟩ := ih h hc
      exact ⟨hcop.mono hsub,hacc⟩
    | failed _ hq hacc => exact ⟨.quiet hq,hacc⟩
    | shared e w1 pm he hq hnone hcount hacc hc =>
      obtain ⟨hmem,hkey⟩ := lookup_some ((hq.lookupPte src n).trans he)
      have hlive : ∀ g, 0 < w1.pm.refcnt g → 0 < pm.refcnt g := fun g hg => by
        rw [hcount.refcnt]
        split
        · exact Nat.succ_pos _
        · exact hg
      obtain ⟨hcop,hacc'⟩ := ih hacc hc
      have hadd : Copied src dst (n :: ns) SamePage w1 _ := Copied.add pm e.writable hnone hmem
        (Prod.mk.inj hkey).1 (Prod.mk.inj hkey).2 ⟨rfl,rfl⟩ mem_cons_self hlive
      exact ⟨(Copied.quiet hq).trans htrans (hadd.trans htrans (hcop.mono hsub)),hacc'⟩

inductive CopyRound (t : Bool) (src dst n : Nat) (ns : List Nat) (wr : Bool) (ex hand : List Nat) (w w' : World)
    (ok : Bool) : Prop
  | absent : w.lookupPte src n = none → vpmapCopyFrom src dst wr ns w = some (w',ok) →
      CopyRound t src dst n ns wr ex hand w w' ok
  | failed : ok = false → Quiet w w' → Accounted t w' ex hand → CopyRound t src dst n ns wr ex hand w w' ok
  | copied (e : Pte) (w1 : World) (f : Nat) : w.lookupPte src n = some e →
      Supplied t w w1 ex hand f (w.data e.frame) → w1.lookupPte dst n = none →
      vpmapCopyFrom src dst wr ns (w1.setPte ⟨dst,n,f,wr⟩) = some (w',ok) → CopyRound t src dst n ns wr ex hand w w' ok

lemma copyRound (h : Accounted t w ex hand)
    (hc : vpmapCopyFrom src dst wr (n :: ns) w = some (w',ok)) : CopyRound t src dst n ns wr ex hand w w' ok := by
  simp only [vpmapCopyFrom] at hc
  split at hc
  · rename_i he
    exact .absent he hc
  · rename_i e he
    simp only [Run.bind_some,Prod.exists] at hc
    obtain ⟨w1,found,hfind,hc⟩ := hc
    obtain ⟨hq,hacc,-⟩ := findPte_spec h hfind
    split at hc
    · cases hc
      exact .failed rfl hq hacc
    · rename_i hgo
      have hnone : w1.lookupPte dst n = none := by
        simp only [Bool.or_eq_true,not_or,Bool.not_eq_true,Option.isSome_eq_false_iff,Option.isNone_iff_eq_none] at hgo
        exact hgo.2
      simp only [Run.bind_some,Prod.exists] at hc
      obtain ⟨w2,p,ha,hc⟩ := hc
      rcases pmemAlloc_supplied hacc ha with ⟨rfl,hmiss⟩ | ⟨f,rfl,hdata,hsup⟩
      · cases hc
        exact .failed rfl (hq.trans hmiss.quiet) hmiss.accounted
      · have hs := hsup (w2.data e.frame)
        have hlive := h.positive (refs_mapped_pos (lookup_some he).1 hand)
        have hsame : w2.data e.frame = w.data e.frame := by
          rw [hdata]
          exact (hq.pages _ hlive).2
        have hfresh : w.pm.refcnt f = 0 := by
          by_contra hne
          have hz := (hq.pages f (Nat.pos_of_ne_zero hne)).1
          exact hne (hz.symm.trans hs.fresh)
        refine .copied e _ f he ⟨hq.trans hs.quiet,hs.accounted,hfresh,?_⟩ ((hs.quiet.lookupPte dst n).trans hnone) hc
        exact hs.data.trans hsame

lemma vpmapCopyFrom_spec (h : Accounted t w ex hand) (hc : vpmapCopyFrom src dst wr ns w = some (w',ok)) :
    Copied src dst ns (fun _ _ => True) w w' ∧ Accounted t w' ex hand := by
  have htrans : ∀ a b c : Pte, True → True → True := fun _ _ _ _ _ => trivial
  induction ns generalizing w with
  | nil =>
    obtain ⟨rfl,rfl⟩ := Prod.mk.inj (some_inj.mp hc)
    exact ⟨.quiet (Quiet.refl w),h⟩
  | cons n ns ih =>
    have hsub : ∀ m ∈ ns, m ∈ n :: ns := fun m hm => mem_cons_of_mem _ hm
    cases copyRound h hc with
    | absent _ hc =>
      obtain ⟨hcop,hacc⟩ := ih h hc
      exact ⟨hcop.mono hsub,hacc⟩
    | failed _ hq hacc => exact ⟨.quiet hq,hacc⟩
    | copied e w1 f he hs hnone hc =>
      obtain ⟨hmem,hkey⟩ := lookup_some ((hs.quiet.lookupPte src n).trans he)
      obtain ⟨hcop,hacc'⟩ := ih (hs.accounted.map wr fun _ => hnone) hc
      have hadd : Copied src dst (n :: ns) (fun _ _ => True) w1 _ :=
        Copied.add (f := f) w1.pm wr hnone hmem (Prod.mk.inj hkey).1 (Prod.mk.inj hkey).2 trivial
          mem_cons_self fun g hg => hg
      exact ⟨(Copied.quiet hs.quiet).trans htrans (hadd.trans htrans (hcop.mono hsub)),hacc'⟩

lemma lookupPte_setPte (w : World) (e : Pte) (s m : Nat) :
    (w.setPte e).lookupPte s m = if s = e.space ∧ m = e.vpn then some e else w.lookupPte s m := by
  split
  · rename_i h
    obtain ⟨rfl,rfl⟩ := h
    simp [lookupPte,setPte,lookup,Pte.key]
  · rename_i h
    have hne : Pte.key ⟨s,m,0,false⟩ ≠ e.key := fun he => h (Prod.mk.inj he)
    have hself : ¬ e.key = (s,m) := fun he => hne he.symm
    have hrest := lookup_remove (l := w.ptes) hne
    simp only [Pte.key] at hrest hself
    simp only [lookupPte,setPte]
    rw [lookup,List.find?_cons_of_neg (by simpa [Pte.key] using hself)]
    exact hrest

lemma mem_setPte {e o : Pte} : o ∈ (w.setPte e).ptes ↔ o = e ∨ (o ∈ w.ptes ∧ o.key ≠ e.key) := by
  rw [setPte,mem_cons,mem_remove]

structure Created (w w' : World) (space : Nat) : Prop where
  shm : w'.shm = w.shm
  ptes : w'.ptes = w.ptes
  cached : w'.cachedPages = w.cachedPages
  kern : w'.kern = w.kern
  roots : ∀ s, w'.hasTable s [] = (w.hasTable s [] || s == space)
  failures : w'.failures = w.failures
  pages : ∀ f, 0 < w.pm.refcnt f → w'.pm.refcnt f = w.pm.refcnt f ∧ w'.data f = w.data f

lemma vpmapCreate_spec (h : Accounted t w ex hand) (hc : w.vpmapCreate space = some (w',ok)) :
    (ok = false ∧ Missed t w w' ex hand) ∨ (ok = true ∧ Created w w' space ∧ Accounted t w' ex hand) := by
  simp only [vpmapCreate,Run.bind_some,Prod.exists] at hc
  obtain ⟨w1,p,ha,hc⟩ := hc
  rcases pmemAlloc_cases h ha with ⟨rfl,rfl⟩ | ⟨f,pm,rfl,rfl,halloc,hacc⟩
  · cases hc
    exact .inl ⟨rfl,h.missed⟩
  · cases hc
    have hq := (Quiet.allocated halloc).fill halloc.zero fun _ => 0
    refine .inr ⟨rfl,⟨rfl,rfl,rfl,rfl,fun s => ?_,rfl,hq.pages⟩,hacc.addTable space []⟩
    simp only [hasTable,addTable,fill,List.any_cons,beq_self_eq_true,Bool.and_true]
    rw [Bool.or_comm,Bool.beq_comm]

structure Loaded (space : Nat) (l : List (Nat × Bool)) (w w' : World) : Prop where
  shm : w'.shm = w.shm
  cached : w'.cachedPages = w.cachedPages
  kern : w'.kern = w.kern
  roots : ∀ s, w'.hasTable s [] = w.hasTable s []
  failures : w.failures ≤ w'.failures
  pages : ∀ f, 0 < w.pm.refcnt f → w'.pm.refcnt f = w.pm.refcnt f ∧ w'.data f = w.data f
  kept : ∀ e ∈ w.ptes, e.space ≠ space → e ∈ w'.ptes
  added : ∀ e ∈ w'.ptes, e ∈ w.ptes ∨ (e.space = space ∧ (e.vpn,e.writable) ∈ l ∧ w.pm.refcnt e.frame = 0)

namespace Loaded
variable {l : List (Nat × Bool)}

lemma quiet (h : Quiet w w') : Loaded space l w w' :=
  ⟨h.shm,h.cached,h.kern,h.roots,h.failures,h.pages,fun _ he _ => h.ptes.symm ▸ he,fun _ he => .inl (h.ptes ▸ he)⟩

lemma mono {l' : List (Nat × Bool)} (h : Loaded space l w w') (hsub : ∀ x ∈ l, x ∈ l') : Loaded space l' w w' :=
  ⟨h.shm,h.cached,h.kern,h.roots,h.failures,h.pages,h.kept,fun e he => (h.added e he).imp id
    fun ⟨hs,hn,hf⟩ => ⟨hs,hsub _ hn,hf⟩⟩

lemma trans (h : Loaded space l w w1) (h' : Loaded space l w1 w2) : Loaded space l w w2 := by
  refine ⟨h'.shm.trans h.shm,h'.cached.trans h.cached,h'.kern.trans h.kern,
    fun s => (h'.roots s).trans (h.roots s),h.failures.trans h'.failures,fun f hf => ?_,
    fun e he hs => h'.kept e (h.kept e he hs) hs,fun e he => ?_⟩
  · obtain ⟨hr,hd⟩ := h.pages f hf
    obtain ⟨hr',hd'⟩ := h'.pages f (hr.symm ▸ hf)
    exact ⟨hr'.trans hr,hd'.trans hd⟩
  · rcases h'.added e he with he | ⟨hs,hn,hf⟩
    · exact h.added e he
    · refine .inr ⟨hs,hn,?_⟩
      by_contra hpos
      have := (h.pages e.frame (Nat.pos_of_ne_zero hpos)).1
      omega

lemma supplied (h : Supplied t w w1 ex hand f bytes) (hn : (n,wr) ∈ l) :
    Loaded space l w (w1.setPte ⟨space,n,f,wr⟩) := by
  refine ⟨h.quiet.shm,h.quiet.cached,h.quiet.kern,h.quiet.roots,h.quiet.failures,h.quiet.pages,
    fun e he hs => mem_setPte.mpr (.inr ⟨h.quiet.ptes.symm ▸ he,fun hk => hs (Prod.mk.inj hk).1⟩),fun e he => ?_⟩
  rcases mem_setPte.mp he with rfl | ⟨he,_⟩
  · exact .inr ⟨rfl,hn,h.fresh⟩
  · exact .inl (h.quiet.ptes ▸ he)

end Loaded

lemma loadPages_spec {file : Nat → Nat → Nat} {l : List (Nat × Bool)} (h : Accounted t w ex hand)
    (hnew : t = true → (l.map Prod.fst).Nodup ∧ ∀ x ∈ l, w.lookupPte space x.1 = none)
    (hl : loadPages space file l w = some (w',ok)) : Loaded space l w w' ∧ (ok = false → w.failures < w'.failures) ∧
      ((t = true → ok = true) → Accounted t w' ex hand) ∧
      ∀ m, m ∉ l.map Prod.fst → w'.lookupPte space m = w.lookupPte space m := by
  induction l generalizing w with
  | nil =>
    obtain ⟨rfl,rfl⟩ := Prod.mk.inj (some_inj.mp hl)
    exact ⟨.quiet (Quiet.refl w),by simp,fun _ => h,fun _ _ => rfl⟩
  | cons x l ih =>
    obtain ⟨n,wr⟩ := x
    have hsub : ∀ y ∈ l, y ∈ (n,wr) :: l := fun y hy => mem_cons_of_mem _ hy
    simp only [loadPages,Run.bind_some,Prod.exists] at hl
    obtain ⟨w1,p,ha,hl⟩ := hl
    rcases pmemAlloc_supplied h ha with ⟨rfl,hmiss⟩ | ⟨f,rfl,-,hsup⟩
    · cases hl
      exact ⟨.quiet hmiss.quiet,fun _ => hmiss.failed,fun _ => hmiss.accounted,
        fun m _ => hmiss.quiet.lookupPte space m⟩
    simp only [Run.bind_some,Prod.exists] at hl
    obtain ⟨w2,mapped,hm,hl⟩ := hl
    rcases (hsup (file n)).map hm with ⟨rfl,hlost,hfail⟩ | ⟨rfl,-,w3,hplaced,rfl⟩
    · simp only [false_eq_true,if_false] at hl
      cases hl
      refine ⟨.quiet hlost.quiet,fun _ => hfail,fun ht => ?_,fun m _ => hlost.quiet.lookupPte space m⟩
      cases t with
      | false => exact hlost.accounted.leak
      | true => exact absurd (ht rfl) Bool.false_ne_true
    · simp only [if_true] at hl
      have hhere : Loaded space ((n,wr) :: l) w (w3.setPte ⟨space,n,f,wr⟩) :=
        Loaded.supplied hplaced mem_cons_self
      have hlook : ∀ m, m ≠ n → (w3.setPte ⟨space,n,f,wr⟩).lookupPte space m = w.lookupPte space m := by
        intro m hmn
        rw [lookupPte_setPte,if_neg fun hc => hmn hc.2]
        exact hplaced.quiet.lookupPte space m
      have hacc : Accounted t (w3.setPte ⟨space,n,f,wr⟩) ex hand := hplaced.accounted.map wr fun ht =>
        (hplaced.quiet.lookupPte space n).trans ((hnew ht).2 _ mem_cons_self)
      have hnext : t = true → (l.map Prod.fst).Nodup ∧
          ∀ y ∈ l, (w3.setPte ⟨space,n,f,wr⟩).lookupPte space y.1 = none := fun ht => by
        obtain ⟨hnd,hfree⟩ := hnew ht
        obtain ⟨hn,hnd⟩ := List.nodup_cons.mp hnd
        refine ⟨hnd,fun y hy => ?_⟩
        rw [hlook y.1 fun he => hn (he ▸ mem_map.mpr ⟨y,hy,rfl⟩)]
        exact hfree y (hsub y hy)
      obtain ⟨hload,hfail,hrest,hsame⟩ := ih hacc hnext hl
      refine ⟨hhere.trans (hload.mono hsub),fun hf => hhere.failures.trans_lt (hfail hf),hrest,fun m hm => ?_⟩
      simp only [List.map_cons,mem_cons,not_or] at hm
      rw [hsame m hm.2,hlook m hm.1]

end World
end MappedMemory
