import MappedMemory.Kernel.Routines

namespace MappedMemory

open Option (bind_eq_some_iff some_inj)
open Run (bind_some)

open Keyed Pmem

namespace World

variable {t eager : Bool} {w w' : World} {ex hand : List Nat} {r : Reply} {ok write user radix : Bool} {o : Shm.Op}
  {space vaddr pid n : Nat} {p : Proc} {byte : Option Nat} {phs : List Proghdr} {file data : Nat → Nat → Nat}
  {cfg : Alloc.Config}

def Clean (w : World) : Op → Prop
  | .spawn phs _ => ((phs.flatMap segmentPages).map Prod.fst ++ [vpn Shm.stackTop]).Nodup ∧
      ∀ e ∈ w.ptes, e.space ≠ w.shm.next
  | .call o => ∀ out, w.shm.step o = some out → ∀ c, .freeStore c ∈ out.effects → ∀ d ∈ w.cachedPages, d.store ≠ c
  | .access pid vaddr byte _ _ => ∀ p mr, w.shm.caller pid = some p → p.as.asFindMemregion vaddr 1 = some mr →
      w.translate pid vaddr byte.isSome = none → (w.lookupPte pid (vpn vaddr)).isSome →
      mr.shared = false ∧ mr.perm = .urw
  | _ => True

lemma Accounted.withShm (h : Accounted t w ex hand) (s : Shm) : Accounted t { w with shm := s } ex hand :=
  h.reown rfl rfl rfl (List.Perm.refl _) fun _ hg => hg

structure Applied (t : Bool) (w w' : World) : Prop where
  accounted : Accounted t w' [] []
  shm : w'.shm = w.shm
  kern : w'.kern = w.kern
  failures : w.failures ≤ w'.failures
  cached : w'.cachedPages.Sublist w.cachedPages

lemma vpmapSetPerm_cowCopy {src dst : Nat} {r : Memregion} (h : Accounted t w ex hand)
    (hc : w.vpmapCowCopy src dst r = some (w',ok)) : Copied src dst (pagesFrom r.start (nPages r)) SamePage
      (w.vpmapSetPerm src (pagesFrom r.start (nPages r)) false) w' ∧ Accounted t w' ex hand :=
  vpmapCowCopyFrom_spec (h.setPerm _ _ _) hc

lemma applyEffect_spec {e : Effect} (h : Accounted t w [] [])
    (hfree : t = true → ∀ c, e = .freeStore c → ∀ d ∈ w.cachedPages, d.store ≠ c)
    (ha : w.applyEffect eager e = some w') : Applied t w w' := by
  cases e with
  | destroyTable space =>
    obtain ⟨hd,-,hacc⟩ := vpmapDestroy_spec h ha
    exact ⟨hacc,hd.shm,hd.kern,hd.failures.ge,hd.cached ▸ List.Sublist.refl _⟩
  | unmap space r =>
    obtain ⟨hd,-,hacc⟩ := vpmapUnmap_spec h ha
    exact ⟨hacc,hd.shm,hd.kern,hd.failures.ge,hd.cached ▸ List.Sublist.refl _⟩
  | cowCopy src dst r copied =>
    simp only [applyEffect,bind_some,Prod.exists] at ha
    obtain ⟨w1,ok,hcopy,ha⟩ := ha
    split at ha
    · cases ha
      cases eager with
      | true =>
        obtain ⟨hc,hacc⟩ := vpmapCopyFrom_spec h hcopy
        exact ⟨hacc,hc.shm,hc.kern,hc.failures,hc.cached ▸ List.Sublist.refl _⟩
      | false =>
        obtain ⟨hc,hacc⟩ := vpmapSetPerm_cowCopy h hcopy
        exact ⟨hacc,hc.shm,hc.kern,hc.failures,hc.cached ▸ List.Sublist.refl _⟩
    · cases ha
  | freeStore c =>
    cases ha
    refine ⟨?_,rfl,rfl,le_rfl,List.filter_sublist⟩
    cases t with
    | false => exact h.dropCached _
    | true =>
      have hsame : w.cachedPages.filter (fun d => d.store != c) = w.cachedPages :=
        List.filter_eq_self.mpr fun d hd => by simpa using hfree rfl c rfl d hd
      exact h.reown rfl rfl hsame (List.Perm.refl _) fun _ hg => hg

lemma effects_spec {es : List Effect} (h : Accounted t w [] [])
    (hfree : t = true → ∀ c, .freeStore c ∈ es → ∀ d ∈ w.cachedPages, d.store ≠ c)
    (ha : es.foldlM (applyEffect eager) w = some w') : Applied t w w' := by
  induction es generalizing w with
  | nil =>
    cases ha
    exact ⟨h,rfl,rfl,le_rfl,List.Sublist.refl _⟩
  | cons e es ih =>
    obtain ⟨w1,hw1,hw⟩ := Run.foldlM_cons_some.mp ha
    have hone := applyEffect_spec h (fun ht c he => hfree ht c (he ▸ List.mem_cons_self)) hw1
    have hrest := ih hone.accounted
      (fun ht c hc d hd => hfree ht c (List.mem_cons_of_mem _ hc) d (hone.cached.subset hd)) hw
    exact ⟨hrest.accounted,hrest.shm.trans hone.shm,hrest.kern.trans hone.kern,hone.failures.trans hrest.failures,
      hrest.cached.trans hone.cached⟩

lemma call_some (hc : w.call eager o = some (w',r)) : ∃ out w1, w.shm.step o = some out ∧
    out.effects.foldlM (applyEffect eager) w = some w1 ∧ w' = { w1 with shm := out.shm } ∧
    r = .sys out.err out.ret := by
  simp only [call,bind_some] at hc
  obtain ⟨out,hout,w1,hw1,hc⟩ := hc
  cases hc
  exact ⟨out,w1,hout,hw1,rfl,rfl⟩

lemma call_accounted (h : Accounted t w [] []) (hclean : t = true → w.Clean (.call o))
    (hc : w.call eager o = some (w',r)) : Accounted t w' [] [] ∧ w.failures ≤ w'.failures := by
  obtain ⟨out,w1,hout,hw1,rfl,-⟩ := call_some hc
  have happ := effects_spec h (fun ht => hclean ht out hout) hw1
  exact ⟨happ.accounted.withShm _,happ.failures⟩

lemma perform_accounted (h : Accounted t w ex hand) (e : Pte) (ofs : Nat) (byte : Option Nat) :
    Accounted t (w.perform e ofs byte).1 ex hand := by
  cases byte with
  | none => exact h
  | some byte => exact h.fill _ _

lemma translate_none (h : w.translate space vaddr write = none)
    (hp : (w.lookupPte space (vpn vaddr)).isSome) : write = true := by
  obtain ⟨e,he⟩ := Option.isSome_iff_exists.mp hp
  cases write with
  | true => rfl
  | false => simp [translate,he] at h

lemma Fault.failures_le (hf : Fault t w p vaddr write w' ok) : w.failures ≤ w'.failures := by
  cases hf with
  | nowhere _ => exact le_rfl
  | shared mr store w1 _ _ _ _ hs =>
    obtain ⟨f,pm,-,-,rfl,-⟩ := hs.mapped
    exact hs.fetched.failures
  | unshared mr e w1 _ _ _ _ _ hfetch _ _ hu =>
    obtain ⟨store,index,hfetch,-⟩ := hfetch
    cases hu with
    | last _ => exact hfetch.failures
    | copied w2 f pm _ hs _ _ => exact hfetch.failures.trans hs.quiet.failures
  | zero mr w1 w2 f _ _ _ hd hs =>
    obtain ⟨store,index,hfetch,-⟩ := hd.fetched
    exact hfetch.failures.trans hs.quiet.failures
  | refused mr w1 _ _ hd =>
    obtain ⟨store,index,hfetch,-⟩ := hd.fetched
    exact hfetch.failures

lemma Fault.accounted (h : Accounted t w [] [])
    (hf : Fault t w p vaddr write w' ok) (hmiss : w.translate p.pid vaddr write = none)
    (hclean : t = true → ∀ mr, p.as.asFindMemregion vaddr 1 = some mr → (w.lookupPte p.pid (vpn vaddr)).isSome →
      mr.shared = false ∧ mr.perm = .urw)
    (hfail : t = true → w'.failures = w.failures) : Accounted t w' [] [] := by
  cases hf with
  | nowhere _ => exact h
  | shared mr store w1 _ hmr hsh hst hs =>
    obtain ⟨f,pm,-,-,-,hacc⟩ := hs.mapped
    refine hacc fun ht => ?_
    by_contra hne
    have := (hclean ht mr hmr (Option.isSome_iff_ne_none.mpr hne)).1
    simp [hsh] at this
  | unshared mr e w1 _ _ _ _ _ _ hacc _ hu => exact hu.accounted hacc
  | zero mr w1 w2 f hmr _ _ hd hs =>
    refine hs.accounted.map true fun ht => ?_
    rcases hd.why with hlt | ⟨rfl,-,hperm⟩
    · exact absurd (hfail ht) (hlt.trans_le hs.quiet.failures).ne'
    · rw [hs.quiet.lookupPte]
      by_contra hne
      have hpres := Option.isSome_iff_ne_none.mpr hne
      exact hperm hpres (translate_none hmiss hpres) (hclean ht mr hmr hpres).2
  | refused mr w1 _ _ hd => exact hd.accounted

lemma exit_clean (w : World) (pid : Nat) : w.Clean (.call (.exit pid)) := by
  intro out hout c hc
  obtain ⟨p,-,hout⟩ := bind_eq_some_iff.mp hout
  cases hout
  simp at hc

lemma release_failures {x : Release} (h : w.release x = some w') : w'.failures = w.failures := by
  cases x with
  | pte e =>
    simp only [release,pmemDecRefcnt,bind_some] at h
    obtain ⟨w1,⟨pm,-,hw1⟩,h⟩ := h
    cases hw1
    cases h
    rfl
  | table b =>
    simp only [release,pmemFree,bind_some] at h
    obtain ⟨w1,⟨pm,-,hw1⟩,h⟩ := h
    cases hw1
    cases h
    rfl

lemma destroy_failures (h : w.vpmapDestroy space = some w') : w'.failures = w.failures := by
  simp only [vpmapDestroy] at h
  split at h
  · exact Run.invariant (P := fun v => v.failures = w.failures)
      (fun v x v' hv hstep => (release_failures hstep).trans hv) rfl h
  · cases h
    rfl

lemma exit_failures (hc : w.call eager (.exit pid) = some (w',r)) : w'.failures = w.failures := by
  obtain ⟨out,w1,hout,hw1,rfl,-⟩ := call_some hc
  obtain ⟨p,-,hout⟩ := bind_eq_some_iff.mp hout
  cases hout
  obtain ⟨w2,hdestroy,hw1⟩ := Run.foldlM_cons_some.mp hw1
  obtain rfl := some_inj.mp hw1
  exact (destroy_failures hdestroy : w2.failures = w.failures)

inductive Accessed (t eager : Bool) (w : World) (p : Proc) (vaddr : Nat) (byte : Option Nat) : World → Reply → Prop
  | hit (e : Pte) : w.translate p.pid vaddr byte.isSome = some e →
      Accessed t eager w p vaddr byte (w.perform e (pgOfs vaddr) byte).1 (w.perform e (pgOfs vaddr) byte).2
  | resumed (w1 : World) (e : Pte) : w.translate p.pid vaddr byte.isSome = none →
      Fault t w p vaddr byte.isSome w1 true → w1.translate p.pid vaddr byte.isSome = some e →
      Accessed t eager w p vaddr byte (w1.perform e (pgOfs vaddr) byte).1 (w1.perform e (pgOfs vaddr) byte).2
  | killed (w1 w' : World) (r : Reply) : w.translate p.pid vaddr byte.isSome = none →
      Fault t w p vaddr byte.isSome w1 false → w1.call eager (.exit p.pid) = some (w',r) →
      Accessed t eager w p vaddr byte w' .killed

lemma access_spec (h : Accounted t w [] []) (ha : w.access eager pid vaddr byte user radix = some (w',r)) :
    ∃ p, w.shm.caller pid = some p ∧ p.pid = pid ∧ canonical vaddr = true ∧
      Accessed t eager w p vaddr byte w' r := by
  simp only [access,bind_some] at ha
  obtain ⟨p,hp,ha⟩ := ha
  obtain rfl : p.pid = pid := by
    obtain ⟨q,hq,hc⟩ := bind_eq_some_iff.mp hp
    split at hc
    · exact some_inj.mp hc ▸ (lookup_some hq).2
    · cases hc
  split at ha
  · cases ha
  · rename_i hcan
    refine ⟨p,hp,rfl,by simpa using hcan,?_⟩
    split at ha
    · rename_i e he
      obtain ⟨rfl,rfl⟩ := Prod.mk.inj (some_inj.mp ha)
      exact .hit e he
    · rename_i hmiss
      simp only [bind_some,Prod.exists] at ha
      obtain ⟨w1,resume,hf,ha⟩ := ha
      have hfault := handlePageFault_spec h hf
      cases resume with
      | true =>
        simp only [if_true,bind_some] at ha
        obtain ⟨e,he,ha⟩ := ha
        obtain ⟨rfl,rfl⟩ := Prod.mk.inj (some_inj.mp ha)
        exact .resumed w1 e hmiss hfault he
      | false =>
        simp only [Bool.false_eq_true,if_false,bind_some,Prod.exists] at ha
        obtain ⟨w2,r2,hcall,ha⟩ := ha
        obtain ⟨rfl,rfl⟩ := Prod.mk.inj (some_inj.mp ha)
        exact .killed w1 w2 r2 hmiss hfault hcall

lemma perform_failures (w : World) (e : Pte) (ofs : Nat) (byte : Option Nat) :
    (w.perform e ofs byte).1.failures = w.failures := by
  cases byte <;> rfl

lemma access_accounted (h : Accounted t w [] []) (hclean : t = true → w.Clean (.access pid vaddr byte user radix))
    (ha : w.access eager pid vaddr byte user radix = some (w',r)) :
    w.failures ≤ w'.failures ∧ ((t = true → w'.failures = w.failures) → Accounted t w' [] []) := by
  obtain ⟨p,hp,rfl,-,hacc⟩ := access_spec h ha
  have hok : ∀ {w1 : World} {b : Bool}, w.translate p.pid vaddr byte.isSome = none →
      Fault t w p vaddr byte.isSome w1 b → (t = true → w1.failures = w.failures) → Accounted t w1 [] [] :=
    fun hmiss hf hfail => hf.accounted h hmiss (fun ht mr hmr => hclean ht p mr hp hmr hmiss) hfail
  cases hacc with
  | hit e he =>
    exact ⟨(perform_failures w e _ byte).ge,fun _ => perform_accounted h e _ byte⟩
  | resumed w1 e hmiss hf he =>
    refine ⟨hf.failures_le.trans (perform_failures w1 e _ byte).ge,fun hfail => ?_⟩
    exact perform_accounted (hok hmiss hf fun ht => (perform_failures w1 e _ byte).symm.trans (hfail ht)) e _ byte
  | killed w1 _ r hmiss hf hcall =>
    have heq := exit_failures hcall
    refine ⟨hf.failures_le.trans heq.ge,fun hfail => ?_⟩
    have hacc1 := hok hmiss hf fun ht => heq.symm.trans (hfail ht)
    exact (call_accounted hacc1 (fun _ => exit_clean w1 p.pid) hcall).1

lemma fork_accounted (h : Accounted t w [] []) (hf : w.fork eager pid = some (w',r)) :
    w.failures ≤ w'.failures ∧ Accounted t w' [] [] := by
  simp only [fork,bind_some,Prod.exists] at hf
  obtain ⟨p,hp,w1,created,hc,hf⟩ := hf
  rcases vpmapCreate_spec h hc with ⟨rfl,hmiss⟩ | ⟨rfl,hcr,hacc⟩
  · simp only [Bool.false_eq_true,if_false] at hf
    cases hf
    exact ⟨hmiss.quiet.failures,hmiss.accounted⟩
  · simp only [if_true] at hf
    have hclean : w1.Clean (.call (.fork pid)) := by
      intro out hout c hc
      obtain ⟨p,-,hout⟩ := bind_eq_some_iff.mp hout
      cases hout
      simp at hc
    obtain ⟨hacc',hle⟩ := call_accounted hacc (fun _ => hclean) hf
    exact ⟨hcr.failures ▸ hle,hacc'⟩

abbrev imagePages (phs : List Proghdr) : List (Nat × Bool) :=
  phs.flatMap segmentPages ++ [(vpn Shm.stackTop,true)]

inductive Spawned (t : Bool) (w : World) (phs : List Proghdr) (out : Outcome) : World → Reply → Prop
  | rejected : out.err ≠ .ok → Spawned t w phs out w (.sys out.err none)
  | starved (w' : World) : Missed t w w' [] [] → Spawned t w phs out w' (.sys .noMem none)
  | undone (w1 w2 w' : World) : Created w w1 w.shm.next → Loaded w.shm.next (imagePages phs) w1 w2 →
      w.failures < w2.failures → (t = false → Accounted false w2 [] []) → w2.vpmapDestroy w.shm.next = some w' →
      Spawned t w phs out w' (.sys .noMem none)
  | started (w1 w2 : World) : out.err = .ok → Created w w1 w.shm.next →
      Loaded w.shm.next (imagePages phs) w1 w2 → Accounted t w2 [] [] →
      Spawned t w phs out { w2 with shm := out.shm } (.sys .ok none)

section
variable (h : Accounted t w [] [])
include h

lemma spawn_spec (hclean : t = true → w.Clean (.spawn phs file)) (hs : w.spawn phs file = some (w',r)) :
    ∃ out, w.shm.spawn phs = some out ∧ Spawned t w phs out w' r := by
  simp only [spawn,bind_some] at hs
  obtain ⟨out,hout,hs⟩ := hs
  refine ⟨out,hout,?_⟩
  split at hs
  · rename_i herr
    cases hs
    exact .rejected herr
  rename_i herr
  simp only [bind_some,Prod.exists] at hs
  obtain ⟨w1,created,hc,hs⟩ := hs
  rcases vpmapCreate_spec h hc with ⟨rfl,hmiss⟩ | ⟨rfl,hcr,hacc⟩
  · simp only [Bool.not_false,if_true] at hs
    obtain ⟨rfl,rfl⟩ := Prod.mk.inj (some_inj.mp hs)
    exact .starved w1 hmiss
  simp only [Bool.not_true,Bool.false_eq_true,if_false,bind_some,Prod.exists] at hs
  obtain ⟨w2,loaded,hl,w3,ready,hstack,hs⟩ := hs
  have hfresh : t = true → ∀ m, w1.lookupPte w.shm.next m = none := fun ht m => by
    refine List.find?_eq_none.mpr fun e he => ?_
    have := (hclean ht).2 e (hcr.ptes ▸ he)
    simp [Pte.key,this]
  have hnew : t = true → ((phs.flatMap segmentPages).map Prod.fst).Nodup ∧
      ∀ x ∈ phs.flatMap segmentPages, w1.lookupPte w.shm.next x.1 = none := fun ht =>
    ⟨(List.nodup_append'.mp (hclean ht).1).1,fun x _ => hfresh ht x.1⟩
  obtain ⟨hload,hlfail,hlacc,hlook⟩ := loadPages_spec hacc hnew hl
  have hload' := hload.mono fun x (hx : x ∈ phs.flatMap segmentPages) =>
    List.mem_append_left [(vpn Shm.stackTop,true)] hx
  have hend : Loaded w.shm.next (imagePages phs) w1 w3 ∧ (ready = true → Accounted t w3 [] []) ∧
      (ready = false → w.failures < w3.failures ∧ (t = false → Accounted false w3 [] [])) := by
    cases loaded with
    | false =>
      cases hstack
      refine ⟨hload',by simp,fun _ => ⟨hcr.failures ▸ hlfail rfl,?_⟩⟩
      rintro rfl
      exact hlacc (by simp)
    | true =>
      simp only [if_true] at hstack
      have hacc2 := hlacc fun _ => rfl
      rcases setupPage_spec hacc2 hstack with ⟨rfl,hmiss⟩ | ⟨rfl,-,w4,f,hsup,rfl⟩
      · have hlt := hload.failures.trans_lt hmiss.failed
        refine ⟨hload'.trans (.quiet hmiss.quiet),by simp,fun _ => ⟨hcr.failures ▸ hlt,?_⟩⟩
        rintro rfl
        exact hmiss.accounted
      · have hput : Loaded w.shm.next (imagePages phs) w2 _ :=
          .supplied hsup (List.mem_append_right _ List.mem_cons_self)
        refine ⟨hload'.trans hput,fun _ => hsup.accounted.map true fun ht => ?_,by simp⟩
        rw [hsup.quiet.lookupPte,hlook _ fun hm => ?_]
        · exact hfresh ht _
        · exact (List.nodup_append'.mp (hclean ht).1).2.2 hm List.mem_cons_self
  obtain ⟨hloaded,hready,hnot⟩ := hend
  cases ready with
  | true =>
    simp only [if_true] at hs
    cases hs
    exact .started w1 w3 (not_not.mp herr) hcr hloaded (hready rfl)
  | false =>
    simp only [Bool.false_eq_true,if_false,bind_some] at hs
    obtain ⟨w4,hdestroy,hs⟩ := hs
    obtain ⟨rfl,rfl⟩ := Prod.mk.inj (some_inj.mp hs)
    exact .undone w1 w3 w4 hcr hloaded (hnot rfl).1 (hnot rfl).2 hdestroy

lemma spawn_accounted (hclean : t = true → w.Clean (.spawn phs file)) (hs : w.spawn phs file = some (w',r)) :
    w.failures ≤ w'.failures ∧ ((t = true → w'.failures = w.failures) → Accounted t w' [] []) := by
  obtain ⟨out,-,hsp⟩ := spawn_spec h hclean hs
  cases hsp with
  | rejected _ => exact ⟨le_rfl,fun _ => h⟩
  | starved _ hmiss => exact ⟨hmiss.quiet.failures,fun _ => hmiss.accounted⟩
  | undone w1 w2 _ _ _ hlt hacc hdestroy =>
    have heq := destroy_failures hdestroy
    refine ⟨heq ▸ hlt.le,fun hfail => ?_⟩
    cases t with
    | false => exact (vpmapDestroy_spec (hacc rfl) hdestroy).2.2
    | true => exact absurd (heq.symm.trans (hfail rfl)) hlt.ne'
  | started w1 w2 _ hcr hload hacc =>
    exact ⟨hcr.failures ▸ hload.failures,fun _ => hacc.withShm _⟩

lemma nalloc_accounted (hs : w.step eager (.nalloc n) = some (w',r)) : w.failures ≤ w'.failures ∧ Accounted t w' [] [] := by
  simp only [step] at hs
  split at hs
  · rename_i hn
    simp only [bind_some,Prod.exists] at hs
    obtain ⟨pm,page,hpm,hs⟩ := hs
    cases hs
    refine ⟨le_rfl,?_⟩
    obtain ⟨k,-,-,-,⟨hnone,-⟩ | ⟨pm',f,hsome,halloc⟩ | ⟨hnone,-⟩⟩ := pmemNalloc_spec h.good hn.1 hn.2
    · cases hnone.symm.trans hpm
      exact h
    · cases hsome.symm.trans hpm
      refine h.allocated _ halloc ?_ (fun g hg => .inl hg) rfl rfl
      simp only [owned,Option.toList_some,List.append_nil,List.singleton_append]
      exact List.perm_middle
    · simp [hnone] at hpm
  · cases hs

lemma nfree_accounted {page : Nat} (hs : w.step eager (.nfree page n) = some (w',r)) : w.failures ≤ w'.failures ∧ Accounted t w' [] [] := by
  simp only [step] at hs
  split at hs
  · rename_i hpage
    obtain ⟨pm,hpm,hs⟩ := Run.bind_some.mp hs
    cases hs
    refine ⟨le_rfl,?_⟩
    have hn : 0 < n := by
      by_contra hz
      simp [pmemNfree,hz] at hpm
    have hl := h.live page (List.mem_append_left _ (List.mem_append_right _ hpage))
    obtain ⟨pm',hpm',hf⟩ := pmemNfree_spec h.good (⟨hl.1,hl.2,rfl⟩ : (page,w.pm.order page) ∈ w.pm.live) hn
    cases hpm'.symm.trans hpm
    refine Accounted.freed _ h hf ?_ (fun g hg => hg) rfl rfl
    simp only [owned,List.append_nil]
    exact ((List.perm_cons_erase hpage).append_left _).trans List.perm_middle
  · cases hs

lemma Accounted.step {o : Op} (hclean : t = true → w.Clean o) (hs : w.step eager o = some (w',r)) :
    w.failures ≤ w'.failures ∧ ((t = true → w'.failures = w.failures) → Accounted t w' [] []) := by
  cases o with
  | spawn phs file => exact spawn_accounted h hclean hs
  | fork pid =>
    obtain ⟨hle,hacc⟩ := fork_accounted h hs
    exact ⟨hle,fun _ => hacc⟩
  | call o =>
    have hcall : w.call eager o = some (w',r) := by
      cases o <;> first | exact hs | cases hs
    obtain ⟨hacc,hle⟩ := call_accounted h hclean hcall
    exact ⟨hle,fun _ => hacc⟩
  | access pid vaddr byte user radix => exact access_accounted h hclean hs
  | nalloc n =>
    obtain ⟨hle,hacc⟩ := nalloc_accounted h hs
    exact ⟨hle,fun _ => hacc⟩
  | nfree page n =>
    obtain ⟨hle,hacc⟩ := nfree_accounted h hs
    exact ⟨hle,fun _ => hacc⟩

end

lemma boot_accounted {pm : Pmem} (hg : pm.Good) (data : Nat → Nat → Nat) : Accounted t (boot pm data) [] [] := by
  have hmem : ∀ f, f ∈ owned (boot pm data) [] ↔ f < pm.pagemapEnd ∧ 0 < pm.refcnt f := fun f => by
    simp [owned,boot]
  have hrefs : ∀ f, (boot pm data).refs f = 0 := fun f => rfl
  refine ⟨hg,List.nodup_nil,List.nodup_nil,?_,fun f hf => (hmem f).mp hf,by simp,fun f _ => by simp [hrefs],
    fun f hf => absurd hf (by simp [hrefs]),fun _ f hf hout => ?_⟩
  · simp only [owned,boot,List.map_nil,List.nil_append,List.append_nil]
    exact List.nodup_range.filter _
  · have : ¬ 0 < pm.refcnt f := fun hpos => hout ((hmem f).mpr ⟨hf,hpos⟩)
    change pm.refcnt f ≤ _
    omega

lemma init_accounted (h : init cfg data = some w) : Accounted t w [] [] := by
  obtain ⟨a,ha,rfl⟩ := Option.map_eq_some_iff.mp h
  exact boot_accounted (Alloc.init_inv ha).good data

lemma run_accounted {ops : List Op} (h : run cfg data ops = some w) : Accounted false w [] [] := by
  simp only [run,bind_some] at h
  obtain ⟨w0,hw0,h⟩ := h
  refine Run.invariant (P := fun v => Accounted false v [] []) (fun v o v' hv hstep => ?_) (init_accounted hw0) h
  obtain ⟨⟨v1,r⟩,hs,rfl⟩ := Option.map_eq_some_iff.mp hstep
  exact (hv.step (by simp) hs).2 (by simp)

lemma Accounted.not_free {f : Nat} (h : Accounted t w [] []) (hf : 0 < w.refs f) {k b : Nat}
    (hb : b ∈ w.pm.freeblocks k) : ¬ Dyadic.Mem f (b,k) := by
  intro hm
  obtain ⟨hin,hord,hle⟩ := h.refs f (by simpa using hf)
  have hlive : (f,w.pm.order f) ∈ w.pm.live := head_live hin (by omega)
  have hself : Dyadic.Mem f (f,w.pm.order f) := ⟨le_rfl,Nat.lt_add_of_pos_right (Nat.two_pow_pos _)⟩
  have heq := h.good.tiling.unique (b,k) (.inl hb) _ (.inr hlive) f hm hself
  exact h.good.apart (b,k) hb (heq ▸ hlive)

def smallMemory : Alloc.Config := ⟨1,64,fun _ => false,[],136⟩

def proceed (pid : Nat) : Op := .call (.advance pid ⟨true,true,true,true⟩)

def program : Op := .spawn [⟨0,4096,0,0,true⟩] fun n ofs => n + ofs

def forkAndWrite : List Op :=
  [program,.fork 0,proceed 0,proceed 0,proceed 0,proceed 0,.access 0 0 (some 9) true true]

end World
end MappedMemory
