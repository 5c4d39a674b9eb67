import MappedMemory.Kernel.Refs
import MappedMemory.Shm.Changes

namespace MappedMemory
open Keyed Pmem Shm

namespace World

variable {t eager : Bool} {w w1 w' : World} {o : Op} {r : Reply} {src dst : Nat} {m : Memregion} {copied : Bool}

structure Housed (w : World) : Prop where
  inv : w.shm.Inv
  ptes : ∀ e ∈ w.ptes, ∃ x ∈ w.shm.tabled, x.1 = e.space
  roots : ∀ x ∈ w.shm.tabled, w.hasTable x.1 [] = true
  stores : ∀ c ∈ w.cachedPages, ∃ d ∈ w.shm.ctable, d.id = c.store
  frames : (w.cachedPages.map CachedPage.frame).Nodup

lemma setPerm_kin {space : Nat} {ns : List Nat} {wr : Bool} {e : Pte} (he : e ∈ (w.vpmapSetPerm space ns wr).ptes) :
    ∃ o ∈ w.ptes, o.space = e.space ∧ o.vpn = e.vpn ∧ o.frame = e.frame := by
  obtain ⟨o,ho,rfl⟩ := List.mem_map.mp he
  refine ⟨o,ho,?_⟩
  split <;> exact ⟨rfl,rfl,rfl⟩

lemma cowCopy_some (h : w.applyEffect eager (.cowCopy src dst m copied) = some w') :
    (eager = true ∧ w.vpmapCopy src dst m = some (w',copied)) ∨
      (eager = false ∧ w.vpmapCowCopy src dst m = some (w',copied)) := by
  simp only [applyEffect,Run.bind_some,Prod.exists] at h
  obtain ⟨w1,ok,hcopy,h⟩ := h
  split at h
  · rename_i hok
    cases h
    subst hok
    cases eager with
    | true => exact .inl ⟨rfl,hcopy⟩
    | false => exact .inr ⟨rfl,hcopy⟩
  · cases h

lemma cowCopy_spaces (h : Accounted t w [] []) (hc : w.applyEffect eager (.cowCopy src dst m copied) = some w') :
    (∀ e ∈ w'.ptes, (∃ o ∈ w.ptes, o.space = e.space) ∨ e.space = dst) ∧
      (∀ s, w'.hasTable s [] = w.hasTable s []) ∧ w'.cachedPages = w.cachedPages := by
  rcases cowCopy_some hc with ⟨rfl,hcopy⟩ | ⟨rfl,hcopy⟩
  · obtain ⟨hcop,-⟩ := vpmapCopyFrom_spec h hcopy
    exact ⟨fun e he => (hcop.added e he).imp (fun he => ⟨e,he,rfl⟩) fun hn => hn.1,hcop.roots,hcop.cached⟩
  · obtain ⟨hcop,-⟩ := vpmapSetPerm_cowCopy h hcopy
    refine ⟨fun e he => (hcop.added e he).imp (fun he => ?_) fun hn => hn.1,hcop.roots,hcop.cached⟩
    obtain ⟨o,ho,hs,-⟩ := setPerm_kin he
    exact ⟨o,ho,hs⟩

section call
variable {s' : Shm} {es : List Effect}

lemma singleEffect {e : Effect} (h : [e].foldlM (applyEffect eager) w = some w') :
    w.applyEffect eager e = some w' := by
  obtain ⟨w1,hw1,h⟩ := Run.foldlM_cons_some.mp h
  exact Option.some_inj.mp h ▸ hw1

lemma Housed.same_spaces (h : w.Housed) (hi : s'.Inv) (hs : Same w.shm s')
    (hp : ∀ e ∈ w1.ptes, ∃ o ∈ w.ptes, o.space = e.space) (hr : ∀ s, w1.hasTable s [] = w.hasTable s [])
    (hst : ∀ c ∈ w1.cachedPages, ∃ d ∈ s'.ctable, d.id = c.store)
    (hf : (w1.cachedPages.map CachedPage.frame).Nodup) : Housed { w1 with shm := s' } := by
  refine ⟨hi,fun e he => ?_,fun x hx => (hr x.1).trans (h.roots x ((hs x).mp hx)),hst,hf⟩
  obtain ⟨o,ho,hos⟩ := hp e he
  obtain ⟨x,hx,hxo⟩ := h.ptes o ho
  exact ⟨x,(hs x).mpr hx,hxo.trans hos⟩

lemma Housed.replaced {x : Nat × Addrspace} {as' : Addrspace} (h : w.Housed) (hi : s'.Inv)
    (hx : x ∈ w.shm.tabled) (hs : Replaced w.shm s' x as')
    (hp : ∀ e ∈ w1.ptes, (∃ o ∈ w.ptes, o.space = e.space) ∨ e.space = x.1)
    (hr : ∀ s, w1.hasTable s [] = w.hasTable s []) (hst : ∀ c ∈ w1.cachedPages, ∃ d ∈ s'.ctable, d.id = c.store)
    (hf : (w1.cachedPages.map CachedPage.frame).Nodup) : Housed { w1 with shm := s' } := by
  have hnew : (x.1,as') ∈ s'.tabled := (hs _).mpr (.inl rfl)
  refine ⟨hi,fun e he => ?_,fun y hy => ?_,hst,hf⟩
  · rcases hp e he with ⟨o,ho,hos⟩ | hes
    · obtain ⟨y,hy,hyo⟩ := h.ptes o ho
      by_cases hyx : y.1 = x.1
      · exact ⟨_,hnew,hyx.symm.trans (hyo.trans hos)⟩
      · exact ⟨y,(hs y).mpr (.inr ⟨hy,hyx⟩),hyo.trans hos⟩
    · exact ⟨_,hnew,hes.symm⟩
  · rcases (hs y).mp hy with rfl | ⟨hy,-⟩
    · exact (hr x.1).trans (h.roots x hx)
    · exact (hr y.1).trans (h.roots y hy)

lemma Housed.dropped {x : Nat × Addrspace} (h : w.Housed) (hacc : Accounted t w1 [] []) (hi : s'.Inv)
    (hx : x ∈ w.shm.tabled) (hs : ∀ y, y ∈ s'.tabled ↔ y ∈ w.shm.tabled ∧ y.1 ≠ x.1)
    (hp : ∀ e ∈ w1.ptes, (∃ o ∈ w.ptes, o.space = e.space) ∨ e.space = x.1)
    (hr : ∀ s, w1.hasTable s [] = w.hasTable s []) (hd : w1.vpmapDestroy x.1 = some w')
    (hst : ∀ c ∈ w'.cachedPages, ∃ d ∈ s'.ctable, d.id = c.store)
    (hf : (w'.cachedPages.map CachedPage.frame).Nodup) : Housed { w' with shm := s' } := by
  obtain ⟨hdrop,hroots,-⟩ := vpmapDestroy_spec hacc hd
  have hroot : w1.hasTable x.1 [] = true := (hr x.1).trans (h.roots x hx)
  refine ⟨hi,fun e he => ?_,fun y hy => ?_,hst,hf⟩
  · obtain ⟨he,hne⟩ := (hdrop.ptes e).mp he
    have hex : e.space ≠ x.1 := fun hs => hne ⟨hs,hroot⟩
    obtain ⟨o,ho,hos⟩ := (hp e he).resolve_right hex
    obtain ⟨y,hy,hyo⟩ := h.ptes o ho
    exact ⟨y,(hs y).mpr ⟨hy,fun hyx => hex (hos.symm.trans (hyo.symm.trans hyx))⟩,hyo.trans hos⟩
  · obtain ⟨hy,hne⟩ := (hs y).mp hy
    refine (hroots y.1).trans ?_
    simp [hr,h.roots y hy,hne]

lemma Housed.change (h : w.Housed) (hacc : Accounted t w [] []) (hi : s'.Inv) (hc : Change w.shm s' es)
    (he : es.foldlM (applyEffect eager) w = some w') (hst : ∀ c ∈ w'.cachedPages, ∃ d ∈ s'.ctable, d.id = c.store)
    (hf : (w'.cachedPages.map CachedPage.frame).Nodup) : Housed { w' with shm := s' } := by
  cases hc with
  | idle hs =>
    cases he
    exact h.same_spaces hi hs (fun e he => ⟨e,he,rfl⟩) (fun _ => rfl) hst hf
  | free c hs _ =>
    cases singleEffect he
    exact h.same_spaces hi hs (fun e he => ⟨e,he,rfl⟩) (fun _ => rfl) hst hf
  | copy x as' as0 src m d hx _ _ _ _ _ hs _ _ =>
    cases hsh : m.shared with
    | true =>
      rw [hsh] at he
      cases he
      exact h.replaced hi hx hs (fun e he => .inl ⟨e,he,rfl⟩) (fun _ => rfl) hst hf
    | false =>
      rw [hsh] at he
      obtain ⟨hp,hr,-⟩ := cowCopy_spaces hacc (singleEffect he)
      exact h.replaced hi hx hs hp hr hst hf
  | erase x m hx _ hs =>
    obtain ⟨hd,hroots,-⟩ := vpmapUnmap_spec hacc (singleEffect he)
    exact h.replaced hi hx hs (fun e he => .inl ⟨e,((hd.ptes e).mp he).1,rfl⟩) hroots hst hf
  | drop x es hx hs hes =>
    rcases hes with rfl | ⟨src,as0,m,d,-,-,-,rfl⟩
    · exact h.dropped hacc hi hx hs (fun e he => .inl ⟨e,he,rfl⟩) (fun _ => rfl) (singleEffect he) hst hf
    · obtain ⟨w1,hw1,he⟩ := Run.foldlM_cons_some.mp he
      obtain ⟨w2,hw2,he⟩ := Run.foldlM_cons_some.mp he
      obtain ⟨hp,hr,-⟩ := cowCopy_spaces hacc hw1
      have hacc1 := (applyEffect_spec hacc (by simp) hw1).accounted
      obtain ⟨hd,hr2,hacc2⟩ := vpmapUnmap_spec hacc1 hw2
      exact h.dropped hacc2 hi hx hs (fun e he => hp e ((hd.ptes e).mp he).1)
        (fun s => (hr2 s).trans (hr s)) (singleEffect he) hst hf

end call

variable {so : Shm.Op} {out : Outcome} {p : Proc} {pid vaddr : Nat} {mr : Memregion} {write ok : Bool}
  {phs : List Proghdr} {cfg : Alloc.Config} {data : Nat → Nat → Nat}

lemma effects_free {es : List Effect} {k : Nat} (h : Accounted false w [] []) (hk : .freeStore k ∈ es)
    (he : es.foldlM (applyEffect eager) w = some w') : ∀ c ∈ w'.cachedPages, c.store ≠ k := by
  induction es generalizing w with
  | nil => simp at hk
  | cons e es ih =>
    obtain ⟨w1,hw1,hw⟩ := Run.foldlM_cons_some.mp he
    have hone := applyEffect_spec h (by simp) hw1
    rcases List.mem_cons.mp hk with rfl | hk
    · have hrest := effects_spec hone.accounted (by simp) hw
      cases hw1
      intro c hc
      simpa using (List.mem_filter.mp (hrest.cached.subset hc)).2
    · exact ih hone.accounted hk hw

section
variable (h : w.Housed)
include h

lemma call_stores (hacc : Accounted false w [] [])
    (hout : w.shm.step so = some out) (he : out.effects.foldlM (applyEffect eager) w = some w') :
    (∀ c ∈ w'.cachedPages, ∃ d ∈ out.shm.ctable, d.id = c.store) ∧ (w'.cachedPages.map CachedPage.frame).Nodup := by
  have happ := effects_spec hacc (by simp) he
  refine ⟨fun c hc => ?_,h.frames.sublist (happ.cached.map _)⟩
  obtain ⟨d,hd,hid⟩ := h.stores c (happ.cached.subset hc)
  rcases step_frees hout hd with hkept | hfreed
  · exact hid ▸ hkept
  · exact absurd hid.symm (effects_free hacc hfreed he c hc)

lemma Housed.createMapping {name : List Nat} {alloc node : Bool} (hacc : Accounted false w [] []) (hp : p ∈ w.shm.procs) (hpc : p.pc = .user) (hi : out.shm.Inv)
    (hc : w.shm.createMapping p name alloc node = some out) (he : out.effects.foldlM (applyEffect eager) w = some w')
    (hst : ∀ c ∈ w'.cachedPages, ∃ d ∈ out.shm.ctable, d.id = c.store)
    (hf : (w'.cachedPages.map CachedPage.frame).Nodup) : Housed { w' with shm := out.shm } := by
  have hself : (p.pid,p.as) ∈ w.shm.tabled := mem_tabled.mpr ⟨p,hp,by simp [h.inv.user_tabled hp hpc]⟩
  rcases createMapping_cases h.inv hp hpc hc with ⟨hs,hes | ⟨m,hes⟩⟩ | ⟨hes,c,as',m,-,hmap⟩
  · rw [hes] at he
    cases he
    exact h.same_spaces hi hs (fun e he => ⟨e,he,rfl⟩) (fun _ => rfl) hst hf
  · rw [hes] at he
    obtain ⟨hd,hroots,-⟩ := vpmapUnmap_spec hacc (singleEffect he)
    exact h.same_spaces hi hs (fun e he => ⟨e,((hd.ptes e).mp he).1,rfl⟩) hroots hst hf
  · rw [hes] at he
    cases he
    exact h.replaced hi hself hmap.replaced (fun e he => .inl ⟨e,he,rfl⟩) (fun _ => rfl) hst hf

lemma Housed.sbrk {size : Int} (hp : p ∈ w.shm.procs)
    (hpc : p.pc = .user) (hi : out.shm.Inv) (hc : w.shm.sysSbrk p size = some out)
    (he : out.effects.foldlM (applyEffect eager) w = some w')
    (hst : ∀ c ∈ w'.cachedPages, ∃ d ∈ out.shm.ctable, d.id = c.store)
    (hf : (w'.cachedPages.map CachedPage.frame).Nodup) : Housed { w' with shm := out.shm } := by
  have hself : (p.pid,p.as) ∈ w.shm.tabled := mem_tabled.mpr ⟨p,hp,by simp [h.inv.user_tabled hp hpc]⟩
  obtain ⟨hes,hs | ⟨m,hmoved⟩⟩ := sysSbrk_moved h.inv hp hpc hc
  all_goals
    rw [hes] at he
    cases he
  · exact h.same_spaces hi (hs ▸ fun _ => Iff.rfl) (fun e he => ⟨e,he,rfl⟩) (fun _ => rfl) hst hf
  · exact h.replaced hi hself hmoved.replaced (fun e he => .inl ⟨e,he,rfl⟩) (fun _ => rfl) hst hf

lemma Housed.call (hacc : Accounted false w [] []) (hspawn : ∀ phs, so ≠ .spawn phs)
    (hfork : ∀ pid, so ≠ .fork pid) (hc : w.call eager so = some (w',r)) : w'.Housed := by
  obtain ⟨out,w1,hout,hw1,rfl,-⟩ := call_some hc
  obtain ⟨hst,hf⟩ := call_stores h hacc hout hw1
  have hi := h.inv.step hout
  cases so with
  | spawn phs => exact absurd rfl (hspawn phs)
  | fork pid => exact absurd rfl (hfork pid)
  | createMapping pid name alloc node =>
    obtain ⟨p,hp,hcall⟩ := Option.bind_eq_some_iff.mp hout
    exact h.createMapping hacc (caller_mem hp).1 (caller_mem hp).2 hi hcall hw1 hst hf
  | sbrk pid size =>
    obtain ⟨p,hp,hcall⟩ := Option.bind_eq_some_iff.mp hout
    exact h.sbrk (caller_mem hp).1 (caller_mem hp).2 hi hcall hw1 hst hf
  | _ => exact h.change hacc hi (step_change h.inv rfl hout) hw1 hst hf

lemma Housed.created {space : Nat} (hc : Created w w1 space) : w1.Housed := by
  refine ⟨hc.shm ▸ h.inv,fun e he => ?_,fun x hx => ?_,fun c hm => ?_,hc.cached ▸ h.frames⟩
  · exact hc.shm ▸ h.ptes e (hc.ptes ▸ he)
  · rw [hc.roots,h.roots x (hc.shm ▸ hx)]
    rfl
  · exact hc.shm ▸ h.stores c (hc.cached ▸ hm)

lemma Housed.quiet (hq : Quiet w w1) : w1.Housed := by
  refine ⟨hq.shm ▸ h.inv,fun e he => ?_,fun x hx => ?_,fun c hm => ?_,hq.cached ▸ h.frames⟩
  · exact hq.shm ▸ h.ptes e (hq.ptes ▸ he)
  · exact (hq.roots x.1).trans (h.roots x (hq.shm ▸ hx))
  · exact hq.shm ▸ h.stores c (hq.cached ▸ hm)

lemma Housed.fork (hacc : Accounted false w [] []) (hf : w.fork eager pid = some (w',r)) : w'.Housed := by
  simp only [World.fork,Run.bind_some,Prod.exists] at hf
  obtain ⟨p,hp,w1,created,hc,hf⟩ := hf
  rcases vpmapCreate_spec hacc hc with ⟨rfl,hmiss⟩ | ⟨rfl,hcr,hacc1⟩
  · simp only [Bool.false_eq_true,if_false] at hf
    cases hf
    exact h.quiet hmiss.quiet
  · simp only [if_true] at hf
    have h1 := h.created hcr
    obtain ⟨out,w2,hout,hw2,rfl,-⟩ := call_some hf
    obtain ⟨hst,hfr⟩ := call_stores h1 hacc1 hout hw2
    obtain ⟨hes,-,htab⟩ := fork_change h1.inv hout
    rw [hes] at hw2
    cases hw2
    refine ⟨h1.inv.step hout,fun e he => ?_,fun y hy => ?_,hst,hfr⟩
    · obtain ⟨x,hx,hxe⟩ := h1.ptes e he
      exact ⟨x,(htab x).mpr (.inr hx),hxe⟩
    · rcases (htab y).mp hy with rfl | hold
      · refine (hcr.roots _).trans ?_
        simp [hcr.shm]
      · exact h1.roots y hold

lemma Housed.faulted (hacc : Accounted false w [] [])
    (hp : p ∈ w.shm.procs) (hpc : p.pc = .user) (hmr : mr ∈ p.as.regions) (hfetch : FetchedFor w w1 mr)
    (hshm : w'.shm = w1.shm) (hptes : ∀ e ∈ w'.ptes, (∃ o ∈ w1.ptes, o.space = e.space) ∨ e.space = p.pid)
    (hroots : ∀ s, w'.hasTable s [] = w1.hasTable s []) (hcached : w'.cachedPages = w1.cachedPages) : w'.Housed := by
  obtain ⟨store,index,hf,hfor⟩ := hfetch
  have hsw : w'.shm = w.shm := hshm.trans hf.shm
  refine ⟨hsw ▸ h.inv,fun e he => ?_,fun x hx => ?_,?_,?_⟩
  · rw [hsw]
    rcases hptes e he with ⟨o,ho,hos⟩ | hes
    · obtain ⟨x,hx,hxo⟩ := h.ptes o (hf.ptes ▸ ho)
      exact ⟨x,hx,hxo.trans hos⟩
    · exact ⟨(p.pid,p.as),mem_tabled.mpr ⟨p,hp,by simp [h.inv.user_tabled hp hpc]⟩,hes.symm⟩
  · exact (hroots x.1).trans ((hf.roots x.1).trans (h.roots x (hsw ▸ hx)))
  · intro c hc
    rw [hsw]
    rw [hcached] at hc
    rcases hf.cached with hsame | ⟨f,-,-,-,-,hcons⟩
    · exact h.stores c (hsame ▸ hc)
    · rw [hcons] at hc
      rcases List.mem_cons.mp hc with rfl | hc
      · rcases hfor with hsame | hst
        · exact absurd (hsame.symm.trans hcons) (by simp)
        · obtain ⟨d,hd,hid,-⟩ := (h.inv.proc p hp).tracked _ (own_region hmr) store hst
          exact ⟨d,hd,hid⟩
      · exact h.stores c hc
  · rw [hcached]
    rcases hf.cached with hsame | ⟨f,hz,-,-,-,hcons⟩
    · exact hsame ▸ h.frames
    · rw [hcons]
      refine List.nodup_cons.mpr ⟨fun hm => ?_,h.frames⟩
      obtain ⟨c,hc,hcf⟩ := List.mem_map.mp hm
      have hpos := hacc.positive (refs_cached_pos hc [])
      exact absurd hz (hcf ▸ hpos).ne'

end

lemma find_mem {as : Addrspace} {size : Nat} (h : as.asFindMemregion vaddr size = some mr) :
    mr ∈ as.regions := List.mem_of_find?_eq_some h

lemma setPte_spaces {w : World} {e o : Pte} (h : o ∈ (w.setPte e).ptes) :
    (∃ a ∈ w.ptes, a.space = o.space) ∨ o.space = e.space := by
  rcases mem_setPte.mp h with rfl | ⟨ho,-⟩
  · exact .inr rfl
  · exact .inl ⟨o,ho,rfl⟩

lemma Housed.fault (h : w.Housed) (hacc : Accounted false w [] [])
    (hp : p ∈ w.shm.procs) (hpc : p.pc = .user) (hf : Fault t w p vaddr write w' ok) : w'.Housed := by
  cases hf with
  | nowhere _ => exact h
  | shared mr store w1 _ hmr hsh hst hs =>
    obtain ⟨f,pm,-,-,rfl,-⟩ := hs.mapped
    exact h.faulted hacc hp hpc (find_mem hmr) ⟨store,_,hs.fetched,.inr hst⟩ rfl (fun e he => setPte_spaces he)
      (fun _ => rfl) rfl
  | unshared mr e w1 _ hmr _ _ _ hfetch _ _ hu =>
    cases hu with
    | last _ =>
      refine h.faulted hacc hp hpc (find_mem hmr) hfetch rfl (fun e he => ?_) (fun _ => rfl) rfl
      obtain ⟨o,ho,hs,-⟩ := setPerm_kin he
      exact .inl ⟨o,ho,hs⟩
    | copied w2 f pm _ hs _ _ =>
      refine h.faulted hacc hp hpc (find_mem hmr) hfetch hs.quiet.shm (fun e he => ?_) hs.quiet.roots hs.quiet.cached
      exact hs.quiet.ptes ▸ setPte_spaces (w := w2) he
  | zero mr w1 w2 f hmr _ _ hd hs =>
    refine h.faulted hacc hp hpc (find_mem hmr) hd.fetched hs.quiet.shm (fun e he => ?_) hs.quiet.roots hs.quiet.cached
    exact hs.quiet.ptes ▸ setPte_spaces he
  | refused mr w1 hmr _ hd =>
    exact h.faulted hacc hp hpc (find_mem hmr) hd.fetched rfl (fun e he => .inl ⟨e,he,rfl⟩) (fun _ => rfl) rfl

lemma Housed.perform (h : w.Housed) (e : Pte) (ofs : Nat) (byte : Option Nat) : (w.perform e ofs byte).1.Housed := by
  cases byte with
  | none => exact h
  | some byte => exact ⟨h.inv,h.ptes,h.roots,h.stores,h.frames⟩

lemma Fault.relaxed (hacc : Accounted false w [] [])
    (hf : Fault false w p vaddr write w' ok) (hmiss : w.translate p.pid vaddr write = none) :
    Accounted false w' [] [] := hf.accounted hacc hmiss (by simp) (by simp)

lemma Housed.access {byte : Option Nat} {user radix : Bool} (h : w.Housed)
    (hacc : Accounted false w [] []) (ha : w.access eager pid vaddr byte user radix = some (w',r)) : w'.Housed := by
  obtain ⟨p,hp,rfl,-,hcase⟩ := access_spec hacc ha
  obtain ⟨hpm,hpc⟩ := caller_mem hp
  cases hcase with
  | hit e he => exact h.perform e _ byte
  | resumed w1 e hmiss hf he => exact (h.fault hacc hpm hpc hf).perform e _ byte
  | killed w1 _ r hmiss hf hcall =>
    exact (h.fault hacc hpm hpc hf).call (hf.relaxed hacc hmiss) (by simp) (by simp) hcall

lemma spawn_shm {s : Shm} (h : s.spawn phs = some out) (hok : out.err = .ok) :
    ∃ as next, out.shm = { s with procs := s.procs ++ [⟨s.next,as,none,.user⟩], next := next } := by
  obtain ⟨-,⟨-,hne⟩ | ⟨as,next,-,hs⟩⟩ := spawn_cases h
  · exact absurd hok hne
  · exact ⟨as,next,hs⟩

lemma tabled_spawn (s s' : Shm) (as : Addrspace) (h : s'.procs = s.procs ++ [⟨s.next,as,none,.user⟩])
    (x : Nat × Addrspace) : x ∈ s'.tabled ↔ x = (s.next,as) ∨ x ∈ s.tabled := by
  simp only [tabled,h,List.flatMap_append,List.mem_append]
  simp [Proc.tabled,Pc.torn,Proc.spaces,or_comm]

lemma Housed.spawn {file : Nat → Nat → Nat} (h : w.Housed) (hacc : Accounted false w [] [])
    (hs : w.spawn phs file = some (w',r)) : w'.Housed := by
  obtain ⟨out,hout,hcase⟩ := spawn_spec hacc (by simp) hs
  cases hcase with
  | rejected _ => exact h
  | starved _ hmiss => exact h.quiet hmiss.quiet
  | undone w1 w2 _ hcr hload _ hacc2 hd =>
    obtain ⟨hdrop,hroots,-⟩ := vpmapDestroy_spec (hacc2 rfl) hd
    have hshm : w'.shm = w.shm := hdrop.shm.trans (hload.shm.trans hcr.shm)
    have hcached : w'.cachedPages = w.cachedPages := hdrop.cached.trans (hload.cached.trans hcr.cached)
    have hroot : w2.hasTable w.shm.next [] = true := by
      rw [hload.roots,hcr.roots]
      simp
    refine ⟨hshm ▸ h.inv,fun e he => ?_,fun x hx => ?_,fun c hc => ?_,hcached ▸ h.frames⟩
    · obtain ⟨he,hne⟩ := (hdrop.ptes e).mp he
      rcases hload.added e he with hold | ⟨hs,-⟩
      · exact hshm ▸ h.ptes e (hcr.ptes ▸ hold)
      · exact absurd ⟨hs,hroot⟩ hne
    · rw [hshm] at hx
      have hlt := h.inv.tabled_lt hx
      rw [hroots,hload.roots,hcr.roots,h.roots x hx]
      simp [hlt.ne]
    · exact hshm ▸ h.stores c (hcached ▸ hc)
  | started w1 w2 hok hcr hload hacc2 =>
    obtain ⟨as,next,hshm⟩ := spawn_shm hout hok
    have htab := tabled_spawn w.shm out.shm as (by rw [hshm])
    have hcached : w2.cachedPages = w.cachedPages := hload.cached.trans hcr.cached
    refine ⟨spawn_inv h.inv hout,fun e he => ?_,fun x hx => ?_,fun c hc => ?_,?_⟩
    · rcases hload.added e he with hold | ⟨hs,-⟩
      · obtain ⟨x,hx,hxe⟩ := h.ptes e (hcr.ptes ▸ hold)
        exact ⟨x,(htab x).mpr (.inr hx),hxe⟩
      · exact ⟨_,(htab _).mpr (.inl rfl),hs.symm⟩
    · refine (hload.roots x.1).trans ((hcr.roots x.1).trans ?_)
      rcases (htab x).mp hx with rfl | hx
      · simp
      · simp [h.roots x hx]
    · obtain ⟨d,hd,hid⟩ := h.stores c (hcached ▸ hc)
      exact ⟨d,by simpa [hshm] using hd,hid⟩
    · change (w2.cachedPages.map CachedPage.frame).Nodup
      exact hcached ▸ h.frames

lemma Housed.step (h : w.Housed) (hacc : Accounted false w [] []) (hs : w.step eager o = some (w',r)) :
    w'.Housed := by
  cases o with
  | spawn phs file => exact h.spawn hacc hs
  | fork pid => exact h.fork hacc hs
  | call so =>
    cases so with
    | spawn _ | fork _ => cases hs
    | _ => exact h.call hacc (by simp) (by simp) hs
  | access pid vaddr byte user radix => exact h.access hacc hs
  | nalloc n =>
    simp only [World.step] at hs
    split at hs
    · simp only [Run.bind_some,Prod.exists] at hs
      obtain ⟨pm,page,-,hs⟩ := hs
      cases hs
      exact ⟨h.inv,h.ptes,h.roots,h.stores,h.frames⟩
    · cases hs
  | nfree page n =>
    simp only [World.step] at hs
    split at hs
    · obtain ⟨pm,-,hs⟩ := Run.bind_some.mp hs
      cases hs
      exact ⟨h.inv,h.ptes,h.roots,h.stores,h.frames⟩
    · cases hs

lemma init_housed (h : init cfg data = some w) : w.Housed := by
  obtain ⟨a,-,rfl⟩ := Option.map_eq_some_iff.mp h
  exact ⟨Shm.init_inv,by simp [boot],by simp [boot,Shm.init,tabled],by simp [boot],by simp [boot]⟩

lemma run_housed {ops : List Op} (h : run cfg data ops = some w) : w.Housed ∧ Accounted false w [] [] := by
  simp only [run,Run.bind_some] at h
  obtain ⟨w0,hw0,h⟩ := h
  refine Run.invariant (P := fun v => v.Housed ∧ Accounted false v [] []) (fun v o v' hv hstep => ?_)
    ⟨init_housed hw0,init_accounted hw0⟩ h
  obtain ⟨⟨v1,r⟩,hs,rfl⟩ := Option.map_eq_some_iff.mp hstep
  exact ⟨hv.1.step hv.2 hs,(hv.2.step (by simp) hs).2 (by simp)⟩

end World
end MappedMemory
