import MappedMemory.Kernel.Coherence
import MappedMemory.Library.Cow

namespace MappedMemory

open Bool (and_eq_true)
open List (mem_cons_self)
open Option (all_some any_eq_true any_map map_congr map_eq_some_iff map_map some_inj)

open Keyed Pmem Shm Cow

inductive Slot where
  | pte (space n : Nat)
  | page (store index : Nat)
deriving DecidableEq, Repr

def Slot.ofSpace (i : Nat) : Slot → Bool
  | .pte j _ => j == i
  | .page _ _ => false

def Slot.ofStore (c : Nat) : Slot → Bool
  | .pte _ _ => false
  | .page d _ => d == c

def OnRegion (s : Shm) (q : Memregion → Prop) : Slot → Prop
  | .pte i n => ∃ x ∈ s.tabled, x.1 = i ∧ ∃ r ∈ x.2.regions, q r ∧ n ∈ r.pages
  | .page _ _ => False

instance (s : Shm) (q : Memregion → Prop) [DecidablePred q] : DecidablePred (OnRegion s q)
  | .pte i n => inferInstanceAs (Decidable (∃ x ∈ s.tabled, x.1 = i ∧ ∃ r ∈ x.2.regions, q r ∧ n ∈ r.pages))
  | .page _ _ => inferInstanceAs (Decidable False)

def IsPrivate (s : Shm) : Slot → Prop := OnRegion s fun r => r.shared = false

def MayWrite (s : Shm) : Slot → Prop := OnRegion s fun r => r.shared = false ∧ r.perm = .urw

instance (s : Shm) : DecidablePred (IsPrivate s) := inferInstanceAs (DecidablePred (OnRegion s _))

instance (s : Shm) : DecidablePred (MayWrite s) := inferInstanceAs (DecidablePred (OnRegion s _))

section region
variable {s s' : Shm} {q : Memregion → Prop} {k : Slot} {x : Nat × Addrspace} {as' : Addrspace} {d : Memregion}

lemma onRegion_same (hs : Same s s') : OnRegion s' q k ↔ OnRegion s q k := by
  cases k with
  | pte i n => simp only [OnRegion,hs _]
  | page c j => exact Iff.rfl

lemma onRegion_grown (hi : s.Inv) (hx : x ∈ s.tabled) (hs : Replaced s s' x as') (hg : Grown x.2 as' d) :
    OnRegion s' q k ↔ OnRegion s q k ∨ ∃ n, k = .pte x.1 n ∧ q d ∧ n ∈ d.pages := by
  cases k with
  | page c j => simp [OnRegion]
  | pte i n =>
    simp only [OnRegion,hs _,Slot.pte.injEq]
    constructor
    · rintro ⟨y,rfl | ⟨hy,hne⟩,rfl,r,hr,hq,hn⟩
      · rcases (hg.regions r).mp hr with rfl | hr
        · exact .inr ⟨n,⟨rfl,rfl⟩,hq,hn⟩
        · exact .inl ⟨x,hx,rfl,r,hr,hq,hn⟩
      · exact .inl ⟨y,hy,rfl,r,hr,hq,hn⟩
    · rintro (⟨y,hy,rfl,r,hr,hq,hn⟩ | ⟨n,⟨rfl,rfl⟩,hq,hn⟩)
      · by_cases hyx : y.1 = x.1
        · obtain rfl := hi.tabled_unique hx hy hyx.symm
          exact ⟨_,.inl rfl,rfl,r,(hg.regions r).mpr (.inr hr),hq,hn⟩
        · exact ⟨y,.inr ⟨hy,hyx⟩,rfl,r,hr,hq,hn⟩
      · exact ⟨_,.inl rfl,rfl,d,(hg.regions d).mpr (.inl rfl),hq,hn⟩

lemma onRegion_dropped (hs : ∀ y, y ∈ s'.tabled ↔ y ∈ s.tabled ∧ y.1 ≠ x.1) (hk : ∀ n, k ≠ .pte x.1 n) :
    OnRegion s' q k ↔ OnRegion s q k := by
  cases k with
  | page c j => exact Iff.rfl
  | pte i n =>
    have hne : i ≠ x.1 := fun hi => hk n (hi ▸ rfl)
    simp only [OnRegion,hs _]
    constructor
    · rintro ⟨y,⟨hy,-⟩,hyi,hr⟩
      exact ⟨y,hy,hyi,hr⟩
    · rintro ⟨y,hy,hyi,hr⟩
      exact ⟨y,⟨hy,fun h => hne (hyi.symm.trans h)⟩,hyi,hr⟩

lemma onRegion_forked {i : Nat} (hs : ∀ y, y ∈ s'.tabled ↔ y = (i,⟨false,[],none⟩) ∨ y ∈ s.tabled) :
    OnRegion s' q k ↔ OnRegion s q k := by
  cases k with
  | page c j => exact Iff.rfl
  | pte j n =>
    simp only [OnRegion,hs _]
    constructor
    · rintro ⟨y,rfl | hy,hyi,r,hr,hq⟩
      · cases hr
      · exact ⟨y,hy,hyi,r,hr,hq⟩
    · rintro ⟨y,hy,hyi,hr⟩
      exact ⟨y,.inr hy,hyi,hr⟩

end region

namespace World

variable {w w1 w' c c' g g' : World} {i n f : Nat} {k : Slot}

def frame (w : World) : Slot → Option Nat
  | .pte i n => (w.lookupPte i n).map Pte.frame
  | .page c j => (lookup CachedPage.key (c,j) w.cachedPages).map CachedPage.frame

def writes (w : World) : Slot → Bool
  | .pte i n => (w.lookupPte i n).any Pte.writable
  | .page _ _ => false

def memory (w : World) : Memory Slot Nat (Nat → Nat) := ⟨w.frame,w.data,w.writes⟩

lemma frame_live (h : Accounted false w [] []) (hk : w.frame k = some f) : 0 < w.pm.refcnt f := by
  cases k with
  | pte i n =>
    obtain ⟨e,he,rfl⟩ := map_eq_some_iff.mp hk
    exact h.positive (refs_mapped_pos (lookup_some he).1 [])
  | page c j =>
    obtain ⟨p,hp,rfl⟩ := map_eq_some_iff.mp hk
    exact h.positive (refs_cached_pos (lookup_some hp).1 [])

lemma fresh_frame (h : Accounted false w [] []) (hf : w.pm.refcnt f = 0) : w.memory.Fresh f :=
  fun _ hj => absurd hf (frame_live h hj).ne'

lemma Quiet.frame (h : Quiet w w') (k : Slot) : w'.frame k = w.frame k := by
  cases k with
  | pte i n => simp only [World.frame,h.lookupPte]
  | page c j => simp only [World.frame,h.cached]

lemma Quiet.writes (h : Quiet w w') (k : Slot) : w'.writes k = w.writes k := by
  cases k with
  | pte i n => simp only [World.writes,h.lookupPte]
  | page c j => rfl

lemma frame_setPte (w : World) (e : Pte) (k : Slot) :
    (w.setPte e).frame k = if k = .pte e.space e.vpn then some e.frame else w.frame k := by
  cases k with
  | pte i n =>
    simp only [frame,lookupPte_setPte,Slot.pte.injEq]
    split <;> rfl
  | page c j => rfl

lemma writes_setPte (w : World) (e : Pte) (k : Slot) :
    (w.setPte e).writes k = if k = .pte e.space e.vpn then e.writable else w.writes k := by
  cases k with
  | pte i n =>
    simp only [writes,lookupPte_setPte,Slot.pte.injEq]
    split <;> rfl
  | page c j => rfl

lemma binds_setPte {e : Pte} {b : Nat → Nat} (pm : Pmem) (hacc : Accounted false w [] []) (hq : Quiet w w1)
    (hb : w1.data e.frame = b) :
    w.memory.Binds { w1.setPte e with pm := pm }.memory (.pte e.space e.vpn) e.frame b e.writable := by
  refine ⟨fun j => ?_,fun j => ?_,fun j h hj => ?_,hb⟩
  · exact (frame_setPte w1 e j).trans (by rw [hq.frame]; rfl)
  · exact (writes_setPte w1 e j).trans (by rw [hq.writes]; rfl)
  · exact (hq.pages h (frame_live hacc hj)).2

lemma lookupPte_setPerm (w : World) (i n space : Nat) (ns : List Nat) (wr : Bool) :
    (w.vpmapSetPerm space ns wr).lookupPte i n =
      (w.lookupPte i n).map fun e => if i = space ∧ n ∈ ns then { e with writable := wr } else e := by
  simp only [lookupPte,vpmapSetPerm]
  rw [lookup_map fun e => by split <;> rfl]
  refine map_congr fun e he => ?_
  obtain ⟨hs,hn⟩ := Prod.mk.inj (lookup_some he).2
  rw [hs,hn]

lemma frame_setPerm (w : World) (space : Nat) (ns : List Nat) (wr : Bool) (k : Slot) :
    (w.vpmapSetPerm space ns wr).frame k = w.frame k := by
  cases k with
  | page c j => rfl
  | pte i n =>
    simp only [frame,lookupPte_setPerm,map_map]
    refine map_congr fun e _ => ?_
    simp only [Function.comp_apply]
    split <;> rfl

lemma writes_protect (w : World) (space : Nat) (ns : List Nat) (k : Slot) :
    (w.vpmapSetPerm space ns false).writes k = if ∃ n ∈ ns, k = .pte space n then false else w.writes k := by
  cases k with
  | page c j => simp [writes]
  | pte i n =>
    simp only [writes,lookupPte_setPerm,any_map]
    by_cases hc : i = space ∧ n ∈ ns
    · rw [if_pos ⟨n,hc.2,by rw [hc.1]⟩]
      cases w.lookupPte i n <;> simp [hc]
    · rw [if_neg]
      · cases w.lookupPte i n <;> simp [hc]
      · rintro ⟨m,hm,he⟩
        obtain ⟨rfl,rfl⟩ := Slot.pte.inj he
        exact hc ⟨rfl,hm⟩

lemma writes_grant (w : World) (k : Slot) (hb : w.lookupPte i n ≠ none) :
    (w.vpmapSetPerm i [n] true).writes k = if k = .pte i n then true else w.writes k := by
  cases k with
  | page c j => simp [writes]
  | pte j m =>
    simp only [writes,lookupPte_setPerm,any_map,List.mem_singleton,Slot.pte.injEq]
    by_cases hc : j = i ∧ m = n
    · obtain ⟨rfl,rfl⟩ := hc
      obtain ⟨e,he⟩ := Option.ne_none_iff_exists'.mp hb
      simp [he]
    · simp [hc]

lemma dropped_lookupPte {visit : Nat → Bool} (h : Dropped w w' i visit) (hk' : Distinct Pte.key w'.ptes) (j m : Nat) :
    w'.lookupPte j m = if j = i ∧ visit m = true then none else w.lookupPte j m := by
  split
  · rename_i hc
    refine List.find?_eq_none.mpr fun e he hkey => ?_
    obtain ⟨hs,hn⟩ := Prod.mk.inj (of_decide_eq_true hkey : (e.space,e.vpn) = (j,m))
    exact ((h.ptes e).mp he).2 ⟨hs.trans hc.1,hn ▸ hc.2⟩
  · rename_i hc
    cases he : w.lookupPte j m with
    | none =>
      refine List.find?_eq_none.mpr fun e hm => ?_
      exact List.find?_eq_none.mp he e ((h.ptes e).mp hm).1
    | some e =>
      obtain ⟨hm,hkey⟩ := lookup_some he
      obtain ⟨hs,hn⟩ := Prod.mk.inj hkey
      exact hk'.lookup_eq ((h.ptes e).mpr ⟨hm,fun hv => hc ⟨hs.symm.trans hv.1,hn ▸ hv.2⟩⟩) hkey

inductive Route where
  | stop
  | shared (mr : Memregion)
  | unshared (mr : Memregion)
  | zero (mr : Memregion)

def route (p : Proc) (vaddr : Nat) (present write : Bool) : Route :=
  match p.as.asFindMemregion vaddr 1 with
  | none => .stop
  | some mr =>
    if mr.shared then .shared mr
    else if present && write && decide (mr.perm = .urw) then .unshared mr
    else if mr.stop = ustackUpperbound ∨ p.as.heap = some mr.id then .zero mr
    else .stop

def Routed (w w' : World) (p : Proc) (vaddr : Nat) (ok : Bool) : Route → Prop
  | .stop => ok = false ∧ w' = w
  | .shared mr => ok = true ∧ ∃ store w1, mr.store = some store ∧
      Shared false w w1 w' p.pid (vpn vaddr) store ((vaddr - mr.start) / pgSize) [] []
  | .unshared _ => ok = true ∧ ∃ e, w.lookupPte p.pid (vpn vaddr) = some e ∧
      Unshared false w p.pid (vpn vaddr) [] [] e w'
  | .zero _ => ok = true ∧ kernelSlot (vpn vaddr) = false ∧ ∃ w1 f, Supplied false w w1 [] [] f (fun _ => 0) ∧
      w' = w1.setPte ⟨p.pid,vpn vaddr,f,true⟩

lemma Unshared.failures_le {e : Pte} (h : Unshared false w i n [] [] e w') : w.failures ≤ w'.failures := by
  cases h with
  | last _ => exact le_rfl
  | copied w1 f pm _ hs _ _ => exact hs.quiet.failures

lemma Fault.routed {p : Proc} {vaddr : Nat} {write ok : Bool} (h : Fault false w p vaddr write w' ok)
    (hfail : w'.failures = w.failures) :
    Routed w w' p vaddr ok (route p vaddr (w.lookupPte p.pid (vpn vaddr)).isSome write) := by
  cases h with
  | nowhere hn => simp [route,hn,Routed]
  | shared mr store w1 _ hmr hsh hst hs => simpa [route,hmr,hsh,Routed] using ⟨store,hst,w1,hs⟩
  | unshared mr e w1 _ hmr hperm hwrite hwhy _ _ hpte hu =>
    have hle := hu.failures_le
    obtain ⟨rfl,hsh⟩ := hwhy.resolve_right (by omega)
    simpa [route,hmr,hsh,hperm,hwrite,hpte,Routed] using hu
  | zero mr w1 w2 f hmr hk hplace hd hs =>
    have hle : w1.failures ≤ w.failures := hs.quiet.failures.trans hfail.le
    obtain ⟨rfl,hsh,hperm⟩ := hd.why.resolve_left (by omega)
    have hcow : ((w1.lookupPte p.pid (vpn vaddr)).isSome && write && decide (mr.perm = .urw)) = false := by
      simpa [Bool.and_eq_false_iff] using fun hp hw => hperm hp hw
    simp only [route,hmr,hsh,hcow,hplace,Bool.false_eq_true,if_false,if_true]
    exact ⟨rfl,hk,w2,f,hs,rfl⟩
  | refused mr w1 hmr hwhy hd =>
    obtain ⟨rfl,hsh,hperm⟩ := hd.why.resolve_left (by omega)
    have hplace := hwhy.resolve_right (by omega)
    have hcow : ((w'.lookupPte p.pid (vpn vaddr)).isSome && write && decide (mr.perm = .urw)) = false := by
      simpa [Bool.and_eq_false_iff] using fun hp hw => hperm hp hw
    simp only [route,hmr,hsh,hcow,hplace,Bool.false_eq_true,if_false]
    exact ⟨rfl,rfl⟩

lemma present_iff {P W : Slot → Prop} (h : Sim P W c.memory g.memory) (i n : Nat) :
    (c.lookupPte i n).isSome = (g.lookupPte i n).isSome := by
  have hu := h.unbound (k := .pte i n)
  simp only [memory,frame,Option.map_eq_none_iff] at hu
  cases hc : c.lookupPte i n <;> cases hg : g.lookupPte i n <;> simp [hc,hg] at hu ⊢

lemma read_pte {e : Pte} (h : w.lookupPte i n = some e) : w.memory.read (.pte i n) = some (w.data e.frame) := by
  simp [Memory.read,memory,frame,h]

section access
variable {P W : Slot → Prop} {vaddr : Nat} {byte : Option Nat} {e e' : Pte}

lemma translate_some {write : Bool} (h : w.translate i vaddr write = some e) :
    w.lookupPte i (vpn vaddr) = some e ∧ (write = true → w.writes (.pte i (vpn vaddr)) = true) := by
  obtain ⟨hl,hw⟩ := Option.filter_eq_some_iff.mp h
  refine ⟨hl,fun hwrite => ?_⟩
  simpa [writes,hl,hwrite] using hw

lemma sim_perform (ofs : Nat) (h : Sim P W c.memory g.memory) (he : c.translate i vaddr byte.isSome = some e)
    (he' : g.translate i vaddr byte.isSome = some e') :
    Sim P W (c.perform e ofs byte).1.memory (g.perform e' ofs byte).1.memory ∧
      (c.perform e ofs byte).2 = (g.perform e' ofs byte).2 := by
  obtain ⟨hl,hw⟩ := translate_some he
  obtain ⟨hl',-⟩ := translate_some he'
  have hdata : c.data e.frame = g.data e'.frame := by
    have hread := h.read (.pte i (vpn vaddr))
    rw [read_pte hl,read_pte hl'] at hread
    exact some_inj.mp hread
  cases byte with
  | none =>
    refine ⟨h,?_⟩
    simp only [perform,hdata]
  | some byte =>
    refine ⟨?_,rfl⟩
    refine h.store (k := .pte i (vpn vaddr)) (b := Function.update (c.data e.frame) ofs byte) (hw rfl)
      (f := e.frame) (g := e'.frame) ?_ ?_ (fun _ => rfl) (fun _ => rfl) (fun f hf => ?_) ?_ (fun _ => rfl)
      (fun _ => rfl) (fun f hf => ?_) ?_
    · simp [memory,frame,hl]
    · simp [memory,frame,hl']
    · exact Function.update_of_ne hf _ _
    · exact Function.update_self ..
    · exact Function.update_of_ne hf _ _
    · rw [hdata]
      exact Function.update_self ..

lemma refs_two (he : w.lookupPte i n = some e) (hk : k ≠ .pte i n)
    (hf : w.frame k = some e.frame) : 2 ≤ w.refs e.frame := by
  obtain ⟨hmem,hkey⟩ := lookup_some he
  cases k with
  | pte j m =>
    obtain ⟨o,ho,hof⟩ := map_eq_some_iff.mp hf
    obtain ⟨hom,hokey⟩ := lookup_some ho
    have hne : o ≠ e := fun hoe => hk (by
      obtain ⟨h1,h2⟩ := Prod.mk.inj (hokey.symm.trans ((congrArg Pte.key hoe).trans hkey))
      rw [h1,h2])
    have hin : o ∈ w.ptes.erase e := (List.mem_erase_of_ne hne).mpr hom
    have hcount := (List.perm_cons_erase hmem).countP_eq fun a => a.frame == e.frame
    have hpos : 0 < (w.ptes.erase e).countP fun a => a.frame == e.frame :=
      List.countP_pos_iff.mpr ⟨o,hin,by simp [hof]⟩
    rw [List.countP_cons_of_pos (by simp)] at hcount
    simp only [refs]
    omega
  | page c j =>
    obtain ⟨p,hp,hpf⟩ := map_eq_some_iff.mp hf
    have h1 : 0 < w.ptes.countP fun a => a.frame == e.frame := List.countP_pos_iff.mpr ⟨e,hmem,by simp⟩
    have h2 : 0 < w.cachedPages.countP fun a => a.frame == e.frame :=
      List.countP_pos_iff.mpr ⟨p,(lookup_some hp).1,by simp [hpf]⟩
    simp only [refs]
    omega

structure Owned (P W : Slot → Prop) (w w' : World) (k : Slot) : Prop where
  isolated : Isolated P W w'.memory
  read : ∀ j, w'.memory.read j = w.memory.read j
  frame : ∀ j, j ≠ k → w'.frame j = w.frame j
  writes : ∀ j, w'.writes j = if j = k then true else w.writes j

lemma unshared_owned (hacc : Accounted false w [] []) (hiso : Isolated P W w.memory) (hW : W (.pte i n))
    (he : w.lookupPte i n = some e) (hu : Unshared false w i n [] [] e w') : Owned P W w w' (.pte i n) := by
  have hframe : w.frame (.pte i n) = some e.frame := by simp [frame,he]
  cases hu with
  | last hone =>
    have hsole : ∀ j, j ≠ .pte i n → w.frame j ≠ w.frame (.pte i n) := fun j hj hf => by
      have htwo := refs_two he hj (hf.trans hframe)
      have hle := (hacc.refs e.frame (by omega)).2.2
      simp only [List.count_nil] at hle
      omega
    have hwrites := fun j => writes_grant w j (by simp [he] : w.lookupPte i n ≠ none)
    have hsame := frame_setPerm w i [n] true
    refine ⟨hiso.grant hW (by simp [memory,hframe]) hsole hsame hwrites,fun j => ?_,fun j _ => hsame j,hwrites⟩
    exact @Memory.read_congr _ _ _ w.memory (w.vpmapSetPerm i [n] true).memory hsame (fun _ _ _ => rfl) j
  | copied w1 f pm _ hs _ _ =>
    have hb := binds_setPte (e := ⟨i,n,f,true⟩) pm hacc hs.quiet hs.data
    refine ⟨hiso.bindFresh hb (fun _ _ => hW) (fresh_frame hacc hs.fresh),fun j => ?_,fun j hj => ?_,hb.writes⟩
    · rw [hb.read]
      split
      · rename_i hj
        rw [hj,read_pte he]
      · rfl
    · exact (hb.frame j).trans (if_neg hj)

lemma fetched_cases {store index : Nat} (hacc : Accounted false w [] []) (hf : Fetched w w' store index)
    (hin : ⟨store,index,f⟩ ∈ w'.cachedPages) : (w.frame (.page store index) ≠ none ∧ (∀ j, w'.frame j = w.frame j)) ∨
      (w.frame (.page store index) = none ∧ ∃ f, w.memory.Fresh f ∧
        w.memory.Binds w'.memory (.page store index) f (fun _ => 0) false) := by
  have hpte : ∀ j m, w'.lookupPte j m = w.lookupPte j m := hf.lookupPte
  have hdata : ∀ j f, w.frame j = some f → w'.data f = w.data f := fun _ _ hj => (hf.pages _ (frame_live hacc hj)).2
  rcases hf.cached with hsame | ⟨f0,hz,-,hd,hnone,hcons⟩
  · refine .inl ⟨?_,fun j => ?_⟩
    · have hm : ⟨store,index,f⟩ ∈ w.cachedPages := hsame ▸ hin
      have hlook : lookup CachedPage.key (store,index) w.cachedPages = some ⟨store,index,f⟩ :=
        hacc.caches.lookup_eq hm rfl
      simp [frame,hlook]
    · cases j with
      | pte j m => simp only [frame,hpte]
      | page c j => simp only [frame,hsame]
  · refine .inr ⟨by simp [frame,hnone],f0,fresh_frame hacc hz,fun j => ?_,fun j => ?_,hdata,hd⟩
    · cases j with
      | pte j m => simp [memory,frame,hpte]
      | page c j =>
        simp only [memory,frame,hcons,Slot.page.injEq]
        by_cases hk : c = store ∧ j = index
        · obtain ⟨rfl,rfl⟩ := hk
          simp [lookup,CachedPage.key]
        · have hne : ¬ (store = c ∧ index = j) := fun h => hk ⟨h.1.symm,h.2.symm⟩
          simp [lookup,CachedPage.key,hk,hne]
    · cases j with
      | pte j m => simp [memory,writes,hpte]
      | page c j => simp [memory,writes]

lemma sim_fetched {store index f f' : Nat} (h : Sim P W c.memory g.memory) (hP : ¬ P (.page store index))
    (hc : Accounted false c [] []) (hg : Accounted false g [] []) (hf : Fetched c c' store index)
    (hf' : Fetched g g' store index) (hin : ⟨store,index,f⟩ ∈ c'.cachedPages)
    (hin' : ⟨store,index,f'⟩ ∈ g'.cachedPages) : Sim P W c'.memory g'.memory := by
  have hu : c.memory.frame (.page store index) = none ↔ g.memory.frame (.page store index) = none := h.unbound
  have hw : ∀ {w w' : World}, Fetched w w' store index → ∀ j, w'.writes j = w.writes j := fun hf j => by
    cases j with
    | pte j m => simp only [writes,hf.lookupPte]
    | page c j => rfl
  rcases fetched_cases hc hf hin with ⟨hb,hsame⟩ | ⟨hb,f0,hfresh,hbind⟩ <;>
    rcases fetched_cases hg hf' hin' with ⟨hb',hsame'⟩ | ⟨hb',f1,hfresh',hbind'⟩
  · exact h.congr hsame (hw hf) (fun _ _ hj => (hf.pages _ (frame_live hc hj)).2) hsame' (hw hf')
      fun _ _ hj => (hf'.pages _ (frame_live hg hj)).2
  · exact absurd (hu.mpr hb') hb
  · exact absurd (hu.mp hb) hb'
  · exact h.bindFresh hbind hbind' hfresh hfresh' id (fun h => absurd h (by decide)) fun hp => absurd hp hP

end access

def Fills (s : Shm) : Prop := ∀ x ∈ s.tabled, ∀ r ∈ x.2.regions, r.shared = false →
  (r.stop = ustackUpperbound ∨ x.2.heap = some r.id) → r.perm = .urw

instance (s : Shm) : Decidable (Fills s) := inferInstanceAs (Decidable (∀ x ∈ s.tabled, _))

structure Paired (c g : World) : Prop where
  coherent : c.Coherent
  housed : g.Housed
  counted : Accounted false g [] []
  shm : g.shm = c.shm
  fills : Fills c.shm
  sim : Sim (IsPrivate c.shm) (MayWrite c.shm) c.memory g.memory

section paired
variable {p : Proc} {vaddr : Nat} {write : Bool} {mr : Memregion} {present : Bool} {rt : Route} {s : Shm} {e : Pte}

lemma isPrivate_region (h : c.Coherent) (hp : p ∈ c.shm.procs) (hpc : p.pc = .user) (hmr : mr ∈ p.as.regions) (hn : n ∈ mr.pages) : (IsPrivate c.shm (.pte p.pid n) ↔ mr.shared = false) ∧
      (MayWrite c.shm (.pte p.pid n) ↔ mr.shared = false ∧ mr.perm = .urw) := by
  have hself : (p.pid,p.as) ∈ c.shm.tabled := mem_tabled.mpr ⟨p,hp,by simp [h.housed.inv.user_tabled hp hpc]⟩
  have huniq : ∀ q : Memregion → Prop, OnRegion c.shm q (.pte p.pid n) ↔ q mr := fun q => by
    constructor
    · rintro ⟨x,hx,hxi,r,hr,hq,hnr⟩
      obtain rfl := h.housed.inv.tabled_unique hself hx hxi.symm
      exact (h.arranged.orderly _ hself).unique hmr hr hn hnr ▸ hq
    · exact fun hq => ⟨_,hself,rfl,mr,hmr,hq,hn⟩
  exact ⟨huniq _,huniq _⟩

lemma route_cow (h : c.Coherent) (hp : p ∈ c.shm.procs) (hpc : p.pc = .user) (hcan : canonical vaddr = true)
    (hW : MayWrite c.shm (.pte p.pid (vpn vaddr))) : ∃ mr, route p vaddr true true = .unshared mr := by
  obtain ⟨x,hx,hxi,r,hr,hq,hn⟩ := hW
  have hself : (p.pid,p.as) ∈ c.shm.tabled := mem_tabled.mpr ⟨p,hp,by simp [h.housed.inv.user_tabled hp hpc]⟩
  obtain rfl := h.housed.inv.tabled_unique hself hx hxi.symm
  have hfind := find_region (h.arranged.orderly _ hself) hcan hr hn
  exact ⟨r,by simp [route,hfind,hq.1,hq.2]⟩

lemma route_region (h : route p vaddr present write = rt) (hrt : rt ≠ .stop) :
    ∃ mr ∈ p.as.regions, p.as.asFindMemregion vaddr 1 = some mr ∧ (rt = .shared mr ∧ mr.shared = true ∨
      mr.shared = false ∧ (rt = .unshared mr ∧ mr.perm = .urw ∨
        rt = .zero mr ∧ (mr.stop = ustackUpperbound ∨ p.as.heap = some mr.id))) := by
  simp only [route] at h
  split at h
  · exact absurd h.symm hrt
  · rename_i mr hmr
    refine ⟨mr,find_mem hmr,hmr,?_⟩
    split at h
    · rename_i hsh
      exact .inl ⟨h.symm,hsh⟩
    · rename_i hsh
      refine .inr ⟨by simpa using hsh,?_⟩
      split at h
      · rename_i hcow
        simp only [and_eq_true,decide_eq_true_eq] at hcow
        exact .inl ⟨h.symm,hcow.2⟩
      · split at h
        · rename_i hplace
          exact .inr ⟨h.symm,hplace⟩
        · exact absurd h.symm hrt

lemma mayWrite_isPrivate (h : MayWrite s k) : IsPrivate s k := by
  cases k with
  | page c j => exact h
  | pte i n =>
    obtain ⟨x,hx,hxi,r,hr,hq,hn⟩ := h
    exact ⟨x,hx,hxi,r,hr,hq.1,hn⟩

lemma sim_ownLeft (h : Sim (IsPrivate s) (MayWrite s) c.memory g.memory) (hacc : Accounted false c [] [])
    (hW : MayWrite s (.pte i n)) (hwr : g.writes (.pte i n) = true) (he : c.lookupPte i n = some e)
    (hu : Unshared false c i n [] [] e c') : Sim (IsPrivate s) (MayWrite s) c'.memory g.memory := by
  have hown := unshared_owned hacc h.left hW he hu
  exact h.ownLeft (mayWrite_isPrivate hW) hwr hown.isolated hown.read hown.frame hown.writes

lemma page_of_find (h : c.Coherent) (hp : p ∈ c.shm.procs) (hpc : p.pc = .user) (hcan : canonical vaddr = true) (hmr : p.as.asFindMemregion vaddr 1 = some mr) (hk : kernelSlot (vpn vaddr) = false) :
    vpn vaddr ∈ mr.pages := by
  have hself : (p.pid,p.as) ∈ c.shm.tabled := mem_tabled.mpr ⟨p,hp,by simp [h.housed.inv.user_tabled hp hpc]⟩
  have hs := (h.arranged.orderly _ hself).sound mr (find_mem hmr)
  obtain ⟨-,hin,hv⟩ := find_page hs hmr (not_kernelSlot hcan hk)
  exact hs.mem_pages.mpr ⟨_,hin,hv⟩

lemma mapped_user (h : c.Coherent) (he : c.lookupPte i n = some e) : kernelSlot n = false := by
  obtain ⟨hm,hkey⟩ := lookup_some he
  obtain ⟨x,hx,-,y,hy,j,hj,hv,-⟩ := h.arranged.covered e hm
  obtain rfl : e.vpn = n := congrArg Prod.snd hkey
  rw [hv]
  exact ((h.arranged.orderly x hx).sound y hy).user hj

lemma paired_fault {ok ok' : Bool} (h : Paired c g) (hp : p ∈ c.shm.procs) (hpc : p.pc = .user)
    (hcan : canonical vaddr = true) (hrt : route p vaddr present write = rt) (hne : rt ≠ .stop)
    (hc : Routed c c' p vaddr ok rt) (hg : Routed g g' p vaddr ok' rt) :
    Sim (IsPrivate c.shm) (MayWrite c.shm) c'.memory g'.memory := by
  have hco := h.coherent
  obtain ⟨mr,hmem,hfind,hkind⟩ := route_region hrt hne
  have hregion := fun hk => isPrivate_region hco hp hpc hmem (page_of_find hco hp hpc hcan hfind hk)
  rcases hkind with ⟨rfl,hsh⟩ | ⟨hsh,⟨rfl,hperm⟩ | ⟨rfl,hplace⟩⟩
  · obtain ⟨-,store,c1,hst,hsc⟩ := hc
    obtain ⟨-,store',g1,hst',hsg⟩ := hg
    cases hst.symm.trans hst'
    obtain ⟨f,pm,hin,-,rfl,-⟩ := hsc.mapped
    obtain ⟨f',pm',hin',-,rfl,-⟩ := hsg.mapped
    have hsim := sim_fetched h.sim id hco.counted h.counted hsc.fetched hsg.fetched hin hin'
    have hslot : ∀ {w : World} {f : Nat}, Accounted false w [] [] →
        (⟨store,(vaddr - mr.start) / pgSize,f⟩ : CachedPage) ∈ w.cachedPages →
        w.memory.frame (.page store ((vaddr - mr.start) / pgSize)) = some f := fun hacc hm => by
      have hlook := hacc.caches.lookup_eq hm rfl
      simp only [CachedPage.key] at hlook
      simp [memory,frame,hlook]
    have hf := hslot hsc.accounted hin
    have hf' := hslot hsg.accounted hin'
    have hdata : g1.data f' = c1.data f := by
      have hread := hsim.read (.page store ((vaddr - mr.start) / pgSize))
      simp only [Memory.read,hf,hf',Option.map_some,some_inj] at hread
      exact hread.symm
    refine hsim.bindShared (binds_setPte pm hsc.accounted (Quiet.refl c1) rfl)
      (binds_setPte pm' hsg.accounted (Quiet.refl g1) hdata) (fun hP => ?_) id hf hf'
    exact absurd ((hregion hsc.user).1.mp hP) (by simp [hsh])
  · obtain ⟨-,e,he,hu⟩ := hc
    obtain ⟨-,e',he',hu'⟩ := hg
    have hW := (hregion (mapped_user hco he)).2.mpr ⟨hsh,hperm⟩
    have hown := unshared_owned h.counted h.sim.right hW he' hu'
    have hsim := h.sim.ownRight (mayWrite_isPrivate hW) hW hown.isolated hown.read hown.frame hown.writes
    exact sim_ownLeft hsim hco.counted hW ((hown.writes _).trans (if_pos rfl)) he hu
  · obtain ⟨-,hk,c1,f,hs,rfl⟩ := hc
    obtain ⟨-,-,g1,f',hs',rfl⟩ := hg
    have hself : (p.pid,p.as) ∈ c.shm.tabled := mem_tabled.mpr ⟨p,hp,by simp [hco.housed.inv.user_tabled hp hpc]⟩
    have hW := (hregion hk).2.mpr ⟨hsh,h.fills _ hself mr hmem hsh hplace⟩
    exact h.sim.bindFresh (binds_setPte c1.pm hco.counted hs.quiet hs.data)
      (binds_setPte g1.pm h.counted hs'.quiet hs'.data) (fresh_frame hco.counted hs.fresh)
      (fresh_frame h.counted hs'.fresh) id (fun _ h => absurd h (by simp)) fun _ _ => hW

end paired

structure Stepped (c g : World) : Prop where
  shm : g.shm = c.shm
  fills : Fills c.shm
  sim : Sim (IsPrivate c.shm) (MayWrite c.shm) c.memory g.memory

lemma copy_lockstep {P W : Slot → Prop} {src dst : Nat} {ns : List Nat} {wr : Bool}
    (h : Sim P W c.memory g.memory) (hc : Accounted false c [] []) (hg : Accounted false g [] [])
    (hP : ∀ n ∈ ns, P (.pte src n) ∧ P (.pte dst n)) (hW : wr = true → ∀ n ∈ ns, W (.pte dst n))
    (hro : ∀ n ∈ ns, c.writes (.pte src n) = false) (hne : src ≠ dst)
    (hcow : vpmapCowCopyFrom src dst ns c = some (c',true)) (hcopy : vpmapCopyFrom src dst wr ns g = some (g',true)) :
    Sim P W c'.memory g'.memory := by
  induction ns generalizing c g with
  | nil =>
    cases hcow
    cases hcopy
    exact h
  | cons n ns ih =>
    have hP' : ∀ m ∈ ns, P (.pte src m) ∧ P (.pte dst m) := fun m hm => hP m (List.mem_cons_of_mem _ hm)
    have hW' : wr = true → ∀ m ∈ ns, W (.pte dst m) := fun hw m hm => hW hw m (List.mem_cons_of_mem _ hm)
    have hro' : ∀ m ∈ ns, c.writes (.pte src m) = false := fun m hm => hro m (List.mem_cons_of_mem _ hm)
    have hpres := present_iff h src n
    cases cowRound hc hcow with
    | failed hf _ _ => cases hf
    | absent hn hcow =>
      cases copyRound hg hcopy with
      | failed hf _ _ => cases hf
      | absent _ hcopy => exact ih h hc hg hP' hW' hro' hcow hcopy
      | copied e' g1 f he' _ _ _ => simp [hn,he'] at hpres
    | shared e c1 pm he hq hnone _ hacc hcow =>
      cases copyRound hg hcopy with
      | failed hf _ _ => cases hf
      | absent hn _ => simp [hn,he] at hpres
      | copied e' g1 f he' hs _ hcopy =>
        have hdata : c1.data e.frame = g.data e'.frame := by
          have hread := h.read (.pte src n)
          rw [read_pte he,read_pte he'] at hread
          have hlive := hc.positive (refs_mapped_pos (lookup_some he).1 [])
          exact (hq.pages _ hlive).2.trans (some_inj.mp hread)
        have hroe : e.writable = false := by simpa [writes,he] using hro n mem_cons_self
        have hbind := binds_setPte (e := ⟨dst,n,e.frame,e.writable⟩) pm hc hq hdata
        rw [hroe] at hbind
        have hsim : Sim P W ({ c1 with pm := pm }.setPte ⟨dst,n,e.frame,false⟩).memory _ :=
          h.bindCopy hbind (binds_setPte (e := ⟨dst,n,f,wr⟩) g1.pm hg hs.quiet hs.data)
            (hP n mem_cons_self).2 (hP n mem_cons_self).1 (by simp [memory,frame,he])
            (hro n mem_cons_self) (fresh_frame hg hs.fresh) fun hw => hW hw n mem_cons_self
        rw [← hroe] at hsim
        refine ih hsim hacc (hs.accounted.map wr (by simp)) hP' hW' (fun m hm => ?_) hcow hcopy
        refine (writes_setPte _ _ _).trans ?_
        rw [if_neg (fun he => hne (Slot.pte.inj he).1)]
        exact (hq.writes _).trans (hro' m hm)

section change
variable {s' : Shm} {es : List Effect}

lemma sim_free {P W : Slot → Prop} (h : Sim P W c.memory g.memory) (k : Nat) :
    Sim P W (World.memory { c with cachedPages := c.cachedPages.filter fun p => p.store != k })
      (World.memory { g with cachedPages := g.cachedPages.filter fun p => p.store != k }) := by
  have hfree : ∀ (w : World) (j : Slot), World.frame { w with cachedPages := w.cachedPages.filter fun p => p.store != k } j =
      if j.ofStore k = true then none else w.frame j := fun w j => by
    cases j with
    | pte i n => simp [frame,lookupPte,Slot.ofStore]
    | page c i =>
      by_cases hck : c = k
      · subst hck
        simp only [Slot.ofStore,beq_self_eq_true,if_true]
        refine Option.map_eq_none_iff.mpr (List.find?_eq_none.mpr fun p hp => ?_)
        have hne := (List.mem_filter.mp hp).2
        simp only [bne_iff_ne,ne_eq] at hne
        simp [CachedPage.key,hne]
      · simp only [frame,Slot.ofStore,beq_iff_eq,hck,if_false]
        rw [lookup_filter fun p _ hp => by simpa [← (Prod.mk.inj hp).1] using hck]
  have hwr : ∀ (w : World) (j : Slot), World.writes { w with cachedPages := w.cachedPages.filter fun p => p.store != k } j =
      if j.ofStore k = true then false else w.writes j := fun w j => by
    cases j with
    | pte i n => simp [writes,lookupPte,Slot.ofStore]
    | page c i => simp [writes]
  exact h.unbind (hfree c) (hwr c) rfl (hfree g) (hwr g) rfl

lemma sim_destroy {P W : Slot → Prop} (h : Sim P W c.memory g.memory) (hc : Accounted false c [] [])
    (hg : Accounted false g [] []) (hroot : c.hasTable i [] = true) (hroot' : g.hasTable i [] = true)
    (hd : c.vpmapDestroy i = some c') (hd' : g.vpmapDestroy i = some g') :
    Sim P W c'.memory g'.memory ∧ ∀ n, c'.frame (.pte i n) = none := by
  have hdrop : ∀ {w w' : World}, Accounted false w [] [] → w.hasTable i [] = true → w.vpmapDestroy i = some w' →
      (∀ j, w'.frame j = if j.ofSpace i = true then none else w.frame j) ∧
      (∀ j, w'.writes j = if j.ofSpace i = true then false else w.writes j) ∧ w'.data = w.data := by
    intro w w' hacc hr hd
    obtain ⟨hdr,-,hacc'⟩ := vpmapDestroy_spec hacc hd
    have hlook : ∀ j m, w'.lookupPte j m = if j = i then none else w.lookupPte j m := fun j m => by
      rw [dropped_lookupPte hdr hacc'.keys]
      simp [hr]
    refine ⟨fun j => ?_,fun j => ?_,hdr.data⟩
    · cases j with
      | pte j m =>
        simp only [frame,hlook,Slot.ofSpace,beq_iff_eq]
        split <;> rfl
      | page c j => simp [frame,hdr.cached,Slot.ofSpace]
    · cases j with
      | pte j m =>
        simp only [writes,hlook,Slot.ofSpace,beq_iff_eq]
        split <;> rfl
      | page c j => simp [writes]
  obtain ⟨hf,hw,hdata⟩ := hdrop hc hroot hd
  obtain ⟨hf',hw',hdata'⟩ := hdrop hg hroot' hd'
  exact ⟨h.unbind hf hw hdata hf' hw' hdata',fun n => (hf _).trans (if_pos (beq_self_eq_true i))⟩

lemma fills_grown {x : Nat × Addrspace} {as' as0 : Addrspace} {src : Nat} {m d : Memregion} (h : Fills c.shm)
    (hi : c.shm.Inv) (hx : x ∈ c.shm.tabled) (hsrc : (src,as0) ∈ c.shm.tabled) (hm : m ∈ as0.regions)
    (htwin : Twin m d) (hgrown : Grown x.2 as' d) (hs : Replaced c.shm s' x as') (hid : d.id = c.shm.next)
    (hheap : as'.heap = x.2.heap ∨ as0.heap = some m.id ∧ as'.heap = some d.id) : Fills s' := by
  intro y hy r hr hsh hplace
  rcases (hs y).mp hy with rfl | ⟨hy,-⟩
  · rcases (hgrown.regions r).mp hr with rfl | hr
    · rw [htwin.perm]
      refine h _ hsrc m hm (htwin.shared.symm.trans hsh) ?_
      rcases hplace with hstack | hh
      · exact .inl (htwin.stop.symm.trans hstack)
      · rcases hheap with hold | ⟨hown,-⟩
        · obtain ⟨p,hp,hxp⟩ := mem_tabled.mp hx
          have hlt := ((hi.proc p hp).heap x (Proc.tabled_spaces hxp) r.id (hold.symm.trans hh)).1
          exact absurd hlt (by omega)
        · exact .inr hown
    · refine h x hx r hr hsh (hplace.imp id fun hh => ?_)
      rcases hheap with hold | ⟨-,hnew⟩
      · exact hold.symm.trans hh
      · obtain ⟨p,hp,hpr⟩ := Inv.tabled_region hx hr
        have hlt : r.id < c.shm.next := (hi.proc p hp).below _ hpr
        have heq := some_inj.mp (hnew.symm.trans hh)
        exact absurd hlt (by omega)
  · exact h y hy r hr hsh hplace

lemma change_lockstep (h : Paired c g) (hch : Change c.shm s' es) (hno : ∀ i r, .unmap i r ∉ es)
    (hc : es.foldlM (applyEffect false) c = some c') (hg : es.foldlM (applyEffect true) g = some g') :
    Fills s' ∧ Sim (IsPrivate s') (MayWrite s') c'.memory g'.memory := by
  have hco := h.coherent
  have hi := hco.housed.inv
  cases hch with
  | idle hs =>
    cases hc
    cases hg
    exact ⟨fun x hx => h.fills x ((hs x).mp hx),
      h.sim.retag (fun _ _ => (onRegion_same hs).symm) fun _ _ => (onRegion_same hs).symm⟩
  | free k hs _ =>
    cases singleEffect hc
    cases singleEffect hg
    exact ⟨fun x hx => h.fills x ((hs x).mp hx),
      (sim_free h.sim k).retag (fun _ _ => (onRegion_same hs).symm) fun _ _ => (onRegion_same hs).symm⟩
  | copy x as' as0 src m d hx hsrc hne hm htwin hgrown hs hid hheap =>
    refine ⟨fills_grown h.fills hi hx hsrc hm htwin hgrown hs hid hheap,?_⟩
    have hclear : ∀ j, c.frame j ≠ none → ∀ n, j = .pte x.1 n → n ∉ d.pages := by
      rintro _ hb n rfl hn
      obtain ⟨f,hf⟩ := Option.ne_none_iff_exists'.mp hb
      obtain ⟨e,he,-⟩ := map_eq_some_iff.mp hf
      obtain ⟨hem,hkey⟩ := lookup_some he
      obtain ⟨hes,hev⟩ := Prod.mk.inj hkey
      obtain ⟨y,hy,j,hj,hv,-⟩ := hco.arranged.covers hi hem hx hes.symm
      have hsy := (hco.arranged.orderly x hx).sound y hy
      have hsd := htwin.sound ((hco.arranged.orderly _ hsrc).sound m hm)
      exact hsy.pages_apart hsd (hgrown.apart y hy) (hsy.mem_pages.mpr ⟨j,hj,hv⟩) (hev ▸ hn)
    have htag : ∀ q : Memregion → Prop, ∀ j, c.frame j ≠ none → (OnRegion c.shm q j ↔ OnRegion s' q j) := by
      intro q j hb
      rw [onRegion_grown hi hx hs hgrown]
      refine ⟨.inl,fun hor => hor.resolve_right ?_⟩
      rintro ⟨n,hj,-,hn⟩
      exact hclear j hb n hj hn
    have hsim : Sim (IsPrivate s') (MayWrite s') c.memory g.memory := h.sim.retag (htag _) (htag _)
    cases hsh : m.shared with
    | true =>
      rw [hsh] at hc hg
      cases hc
      cases hg
      exact hsim
    | false =>
      rw [hsh] at hc hg
      obtain ⟨hf,-⟩ | ⟨-,hcow⟩ := cowCopy_some (singleEffect hc)
      · cases hf
      obtain ⟨-,hcopy⟩ | ⟨hf,-⟩ := cowCopy_some (singleEffect hg)
      rotate_left
      · cases hf
      have hsrc' : (src,as0) ∈ s'.tabled := (hs _).mpr (.inr ⟨hsrc,hne⟩)
      have hdst : (x.1,as') ∈ s'.tabled := (hs _).mpr (.inl rfl)
      have hd : d ∈ as'.regions := (hgrown.regions d).mpr (.inl rfl)
      have hshd : d.shared = false := htwin.shared.trans hsh
      have hpages : ∀ n ∈ m.pages, n ∈ d.pages := fun n hn => by rwa [htwin.pages]
      have hpsrc : ∀ n ∈ m.pages, IsPrivate s' (.pte src n) := fun n hn => ⟨_,hsrc',rfl,m,hm,hsh,hn⟩
      have hprot : Sim (IsPrivate s') (MayWrite s') (c.vpmapSetPerm src m.pages false).memory g.memory := by
        refine hsim.protect (S := fun j => ∃ n ∈ m.pages, j = .pte src n) ?_ (frame_setPerm c src m.pages false)
          (writes_protect c src m.pages) rfl
        rintro _ - ⟨n,hn,rfl⟩
        exact hpsrc n hn
      refine copy_lockstep hprot (hco.counted.setPerm _ _ _) h.counted (fun n hn => ⟨hpsrc n hn,?_⟩)
        (fun hw n hn => ?_) (fun n hn => ?_) hne hcow hcopy
      · exact ⟨_,hdst,rfl,d,hd,hshd,hpages n hn⟩
      · exact ⟨_,hdst,rfl,d,hd,⟨hshd,htwin.perm.trans (of_decide_eq_true hw)⟩,hpages n hn⟩
      · exact (writes_protect c src m.pages _).trans (if_pos ⟨n,hn,rfl⟩)
  | erase x r _ _ _ => exact absurd mem_cons_self (hno x.1 r)
  | drop x es hx hs hes =>
    rcases hes with rfl | ⟨src,as0,m,d,-,-,-,rfl⟩
    · have hroot' : g.hasTable x.1 [] = true := h.housed.roots x (h.shm ▸ hx)
      obtain ⟨hsim,hgone⟩ := sim_destroy h.sim hco.counted h.counted (hco.housed.roots x hx) hroot'
        (singleEffect hc) (singleEffect hg)
      have htag : ∀ q : Memregion → Prop, ∀ j, c'.frame j ≠ none → (OnRegion c.shm q j ↔ OnRegion s' q j) :=
        fun q j hb => (onRegion_dropped hs fun n hj => hb ((congrArg c'.frame hj).trans (hgone n))).symm
      exact ⟨fun y hy => h.fills y ((hs y).mp hy).1,hsim.retag (htag _) (htag _)⟩
    · exact absurd (by simp) (hno x.1 d)

end change

def isUnmap : Effect → Bool
  | .unmap _ _ => true
  | _ => false

def userStep (w : World) : Op → Bool
  | .fork _ | .access _ _ _ _ _ | .call (.exit _) => true
  | .call (.advance pid o) => (w.shm.step (.advance pid o)).all fun out => out.effects.all fun f => !isUnmap f
  | _ => false

lemma userStep_orderly {o : Op} (h : w.userStep o = true) : w.orderlyStep o = true := by
  cases o with
  | spawn _ _ | nalloc _ | nfree _ _ => cases h
  | fork _ | access _ _ _ _ _ => rfl
  | call so =>
    cases so with
    | exit pid => exact exit_orderly w pid
    | advance pid o =>
      simp only [userStep,orderlyStep,orderlyCall] at h ⊢
      cases hs : w.shm.step (.advance pid o) with
      | none => rfl
      | some out =>
        simp only [hs,all_some,List.all_eq_true] at h ⊢
        intro f hf
        have hn := h f hf
        cases f <;> first | rfl | cases hn
    | _ => cases h

lemma Routed.shm {p : Proc} {vaddr : Nat} {ok : Bool} {rt : Route} (h : Routed w w' p vaddr ok rt) :
    w'.shm = w.shm := by
  cases rt with
  | stop => exact congrArg World.shm h.2
  | shared mr =>
    obtain ⟨-,store,w1,-,hs⟩ := h
    obtain ⟨f,pm,-,-,rfl,-⟩ := hs.mapped
    exact hs.fetched.shm
  | unshared mr =>
    obtain ⟨-,e,-,hu⟩ := h
    cases hu with
    | last _ => rfl
    | copied w1 f pm _ hs _ _ => exact hs.quiet.shm
  | zero mr =>
    obtain ⟨-,-,w1,f,hs,rfl⟩ := h
    exact hs.quiet.shm

section step
variable {r r' : Reply} {pid : Nat} {e : Pte} {vaddr : Nat} {byte : Option Nat} {write ok : Bool} {p : Proc}

lemma call_lockstep {so : Shm.Op} (h : Paired c g) (hplain : so.plain = true)
    (hno : ∀ out, c.shm.step so = some out → ∀ i m, .unmap i m ∉ out.effects)
    (hc : c.call false so = some (c',r)) (hg : g.call true so = some (g',r')) : r = r' ∧ Stepped c' g' := by
  obtain ⟨out,c1,hout,hc1,rfl,rfl⟩ := call_some hc
  obtain ⟨out',g1,hout',hg1,rfl,rfl⟩ := call_some hg
  rw [h.shm,hout] at hout'
  cases hout'
  obtain ⟨hf,hs⟩ := change_lockstep h (step_change h.coherent.housed.inv hplain hout) (hno out hout) hc1 hg1
  exact ⟨rfl,rfl,hf,hs⟩

lemma exit_lockstep (h : Paired c g) (hc : c.call false (.exit pid) = some (c',r))
    (hg : g.call true (.exit pid) = some (g',r')) : r = r' ∧ Stepped c' g' := by
  refine call_lockstep h rfl (fun out hout i m hm => ?_) hc hg
  obtain ⟨p,-,hs⟩ := Option.bind_eq_some_iff.mp hout
  cases hs
  simp at hm

lemma created_memory {P W : Slot → Prop} (h : Sim P W c.memory g.memory) (hc : Accounted false c [] [])
    (hg : Accounted false g [] []) (hcr : Created c c' i) (hcr' : Created g g' i) : Sim P W c'.memory g'.memory := by
  have hsame : ∀ {w w' : World}, Created w w' i → (∀ j, w'.frame j = w.frame j) ∧ ∀ j, w'.writes j = w.writes j := by
    intro w w' hcr
    constructor <;> rintro (_ | _) <;> simp only [frame,writes,lookupPte,hcr.ptes,hcr.cached]
  exact h.congr (hsame hcr).1 (hsame hcr).2 (fun _ _ hj => (hcr.pages _ (frame_live hc hj)).2) (hsame hcr').1
    (hsame hcr').2 fun _ _ hj => (hcr'.pages _ (frame_live hg hj)).2

lemma fork_lockstep (h : Paired c g) (hc : c.fork false pid = some (c',r)) (hg : g.fork true pid = some (g',r'))
    (hfc : c'.failures = c.failures) (hfg : g'.failures = g.failures) : r = r' ∧ Stepped c' g' := by
  simp only [World.fork,Run.bind_some,Prod.exists] at hc hg
  obtain ⟨p,hp,c1,created,hcc,hc⟩ := hc
  obtain ⟨p',hp',g1,created',hcg,hg⟩ := hg
  rw [h.shm] at hcg
  rcases vpmapCreate_spec h.coherent.counted hcc with ⟨rfl,hmiss⟩ | ⟨rfl,hcr,hacc⟩
  · cases hc
    exact absurd hmiss.failed (by omega)
  rcases vpmapCreate_spec h.counted hcg with ⟨rfl,hmiss⟩ | ⟨rfl,hcr',hacc'⟩
  · cases hg
    exact absurd hmiss.failed (by omega)
  obtain ⟨out,c2,hout,hc2,rfl,rfl⟩ := call_some hc
  obtain ⟨out',g2,hout',hg2,rfl,rfl⟩ := call_some hg
  rw [hcr.shm] at hout
  rw [hcr'.shm,h.shm,hout] at hout'
  cases hout'
  obtain ⟨hes,-,htab⟩ := fork_change h.coherent.housed.inv hout
  rw [hes] at hc2 hg2
  cases hc2
  cases hg2
  refine ⟨rfl,rfl,fun x hx m hm => ?_,?_⟩
  · rcases (htab x).mp hx with rfl | hx
    · cases hm
    · exact h.fills x hx m hm
  · exact (created_memory h.sim h.coherent.counted h.counted hcr hcr').retag
      (fun _ _ => (onRegion_forked htab).symm) fun _ _ => (onRegion_forked htab).symm

lemma perform_lockstep {e' : Pte} (hs : Stepped c' g')
    (he : c'.translate i vaddr byte.isSome = some e) (he' : g'.translate i vaddr byte.isSome = some e') (ofs : Nat) :
    (c'.perform e ofs byte).2 = (g'.perform e' ofs byte).2 ∧
      Stepped (c'.perform e ofs byte).1 (g'.perform e' ofs byte).1 := by
  obtain ⟨hsim,hr⟩ := sim_perform ofs hs.sim he he'
  refine ⟨hr,?_⟩
  have hshm : ∀ (w : World) (e : Pte), (w.perform e ofs byte).1.shm = w.shm := fun w e => by cases byte <;> rfl
  refine ⟨?_,?_,?_⟩
  · rw [hshm,hshm]
    exact hs.shm
  · rw [hshm]
    exact hs.fills
  · rw [hshm]
    exact hsim

lemma translate_miss (h : w.translate i vaddr write = none)
    (he : w.lookupPte i (vpn vaddr) = some e) : write = true ∧ w.writes (.pte i (vpn vaddr)) = false := by
  have hwrite := translate_none h (by simp [he])
  refine ⟨hwrite,?_⟩
  simpa [translate,writes,he,hwrite] using h

lemma own_lockstep (h : Paired c g) (hp : p ∈ c.shm.procs)
    (hpc : p.pc = .user) (hcan : canonical vaddr = true) (hmiss : c.translate p.pid vaddr write = none)
    (hhit : g.translate p.pid vaddr write = some e) (hf : Fault false c p vaddr write c' ok)
    (hfail : c'.failures = c.failures) : ok = true ∧ Stepped c' g := by
  obtain ⟨he,hw⟩ := translate_some hhit
  obtain ⟨o,ho⟩ := Option.isSome_iff_exists.mp ((present_iff h.sim p.pid (vpn vaddr)).trans (by simp [he]))
  obtain ⟨rfl,hro⟩ := translate_miss hmiss ho
  obtain ⟨-,hW⟩ := h.sim.stricter (.pte p.pid (vpn vaddr)) (hw rfl) hro
  obtain ⟨mr,hrt⟩ := route_cow h.coherent hp hpc hcan hW
  have hr := hf.routed hfail
  rw [ho,Option.isSome_some,hrt] at hr
  have hshm := Routed.shm hr
  obtain ⟨hok,o',ho',hu⟩ := hr
  cases ho.symm.trans ho'
  refine ⟨hok,h.shm.trans hshm.symm,hshm ▸ h.fills,?_⟩
  rw [hshm]
  exact sim_ownLeft h.sim h.coherent.counted hW (hw rfl) ho hu

lemma Paired.stepped (h : Paired c g) : Stepped c g := ⟨h.shm,h.fills,h.sim⟩

lemma fault_lockstep {ok' : Bool} (h : Paired c g) (hp : p ∈ c.shm.procs)
    (hpc : p.pc = .user) (hcan : canonical vaddr = true) (hfc : Fault false c p vaddr write c' ok)
    (hfg : Fault false g p vaddr write g' ok') (hc : c'.failures = c.failures) (hg : g'.failures = g.failures) :
    ok = ok' ∧ Stepped c' g' ∧ (ok = false → c' = c ∧ g' = g) := by
  have hrc := hfc.routed hc
  have hrg := hfg.routed hg
  rw [← present_iff h.sim] at hrg
  generalize hrt : route p vaddr (c.lookupPte p.pid (vpn vaddr)).isSome write = rt at hrc hrg
  have hshm := Routed.shm hrc
  by_cases hstop : rt = .stop
  · subst hstop
    obtain ⟨rfl,rfl⟩ := hrc
    obtain ⟨rfl,rfl⟩ := hrg
    exact ⟨rfl,h.stepped,fun _ => ⟨rfl,rfl⟩⟩
  · have hsim := paired_fault h hp hpc hcan hrt hstop hrc hrg
    have hok : ∀ {w w' : World} {b : Bool}, Routed w w' p vaddr b rt → b = true := fun hr => by
      cases rt with
      | stop => exact absurd rfl hstop
      | _ => exact hr.1
    obtain rfl := hok hrc
    obtain rfl := hok hrg
    refine ⟨rfl,⟨(Routed.shm hrg).trans (h.shm.trans hshm.symm),hshm ▸ h.fills,?_⟩,by simp⟩
    rw [hshm]
    exact hsim

lemma access_lockstep {user radix : Bool} (h : Paired c g)
    (hc : c.access false pid vaddr byte user radix = some (c',r))
    (hg : g.access true pid vaddr byte user radix = some (g',r')) (hfc : c'.failures = c.failures)
    (hfg : g'.failures = g.failures) : r = r' ∧ Stepped c' g' := by
  obtain ⟨p,hp,rfl,hcan,hac⟩ := access_spec h.coherent.counted hc
  obtain ⟨p',hp',-,-,hag⟩ := access_spec h.counted hg
  rw [h.shm,hp] at hp'
  cases hp'
  obtain ⟨hpm,hpc⟩ := caller_mem hp
  cases hac with
  | hit e he =>
    have hbound := (translate_some he).1
    have hpres := present_iff h.sim p.pid (vpn vaddr)
    have hboth : g.translate p.pid vaddr byte.isSome ≠ none := fun hmiss => by
      obtain ⟨o,ho⟩ := Option.isSome_iff_exists.mp (hpres.symm.trans (by simp [hbound]))
      obtain ⟨hwrite,hro⟩ := translate_miss hmiss ho
      have hw := h.sim.weaker (.pte p.pid (vpn vaddr)) ((translate_some he).2 hwrite)
      exact absurd (hw.symm.trans hro) (by decide)
    cases hag with
    | hit e' he' => exact perform_lockstep h.stepped he he' _
    | resumed _ _ hmiss _ _ | killed _ _ _ hmiss _ _ => exact absurd hmiss hboth
  | resumed c1 e hmiss hf he =>
    have hc1 : c1.failures = c.failures := (perform_failures c1 e _ byte).symm.trans hfc
    cases hag with
    | hit e' he' => exact perform_lockstep (own_lockstep h hpm hpc hcan hmiss he' hf hc1).2 he he' _
    | resumed g1 e' hmiss' hf' he' =>
      have hg1 : g1.failures = g.failures := (perform_failures g1 e' _ byte).symm.trans hfg
      exact perform_lockstep (fault_lockstep h hpm hpc hcan hf hf' hc1 hg1).2.1 he he' _
    | killed g1 _ _ hmiss' hf' hcall =>
      have hle := (call_accounted (hf'.relaxed h.counted hmiss') (by simp) hcall).2
      have hg1 := le_antisymm (hle.trans hfg.le) hf'.failures_le
      exact absurd (fault_lockstep h hpm hpc hcan hf hf' hc1 hg1).1 (by decide)
  | killed c1 _ _ hmiss hf hcall =>
    have hle := (call_accounted (hf.relaxed h.coherent.counted hmiss) (by simp) hcall).2
    have hc1 := le_antisymm (hle.trans hfc.le) hf.failures_le
    cases hag with
    | hit e' he' => exact absurd (own_lockstep h hpm hpc hcan hmiss he' hf hc1).1 (by decide)
    | resumed g1 e' hmiss' hf' he' =>
      have hg1 : g1.failures = g.failures := (perform_failures g1 e' _ byte).symm.trans hfg
      exact absurd (fault_lockstep h hpm hpc hcan hf hf' hc1 hg1).1 (by decide)
    | killed g1 _ _ hmiss' hf' hcall' =>
      have hle' := (call_accounted (hf'.relaxed h.counted hmiss') (by simp) hcall').2
      have hg1 := le_antisymm (hle'.trans hfg.le) hf'.failures_le
      obtain ⟨rfl,rfl⟩ := (fault_lockstep h hpm hpc hcan hf hf' hc1 hg1).2.2 rfl
      exact ⟨rfl,(exit_lockstep h hcall hcall').2⟩

lemma Paired.step {o : Op} (h : Paired c g) (hu : c.userStep o = true) (hc : c.step false o = some (c',r))
    (hg : g.step true o = some (g',r')) (hfc : c'.failures = c.failures) (hfg : g'.failures = g.failures) :
    r = r' ∧ Paired c' g' := by
  have hlock : r = r' ∧ Stepped c' g' := by
    cases o with
    | spawn _ _ | nalloc _ | nfree _ _ => cases hu
    | fork pid => exact fork_lockstep h hc hg hfc hfg
    | access pid vaddr byte user radix => exact access_lockstep h hc hg hfc hfg
    | call so =>
      cases so with
      | exit pid => exact exit_lockstep h hc hg
      | advance pid o =>
        refine call_lockstep h rfl (fun out hout i m hm => ?_) hc hg
        simp only [userStep,hout,all_some,List.all_eq_true] at hu
        exact absurd (hu _ hm) (by simp [isUnmap])
      | _ => cases hu
  exact ⟨hlock.1,h.coherent.step (userStep_orderly hu) hc,h.housed.step h.counted hg,
    (h.counted.step (by simp) hg).2 (by simp),hlock.2.shm,hlock.2.fills,hlock.2.sim⟩

end step

variable {eager : Bool} {ops : List Op} {rs : List Reply}

def trace (eager : Bool) : World → List Op → Option (World × List Reply)
  | w, [] => some (w,[])
  | w, o :: ops =>
    if w.userStep o then do
      let (w,r) ← w.step eager o
      let (w,rs) ← trace eager w ops
      some (w,r :: rs)
    else none

lemma trace_cons {o : Op} (h : trace eager w (o :: ops) = some (w',rs)) : w.userStep o = true ∧ ∃ w1 r rs1,
      w.step eager o = some (w1,r) ∧ trace eager w1 ops = some (w',rs1) ∧ rs = r :: rs1 := by
  simp only [trace,Option.bind_eq_bind] at h
  split at h
  · rename_i hu
    simp only [Option.bind_eq_some_iff,Prod.exists] at h
    obtain ⟨w1,r,hs,w2,rs1,ht,h⟩ := h
    cases h
    exact ⟨hu,w1,r,rs1,hs,ht,rfl⟩
  · cases h

lemma trace_failures (h : Accounted false w [] [])
    (ht : trace eager w ops = some (w',rs)) : w.failures ≤ w'.failures := by
  induction ops generalizing w rs with
  | nil =>
    cases ht
    exact le_rfl
  | cons o ops ih =>
    obtain ⟨-,w1,r,rs1,hs,ht,-⟩ := trace_cons ht
    obtain ⟨hle,hacc⟩ := h.step (by simp) hs
    exact hle.trans (ih (hacc (by simp)) ht)

lemma Paired.trace {rs' : List Reply} (h : Paired c g) (hc : trace false c ops = some (c',rs))
    (hg : trace true g ops = some (g',rs')) (hfc : c'.failures = c.failures) (hfg : g'.failures = g.failures) :
    rs = rs' ∧ Paired c' g' := by
  induction ops generalizing c g rs rs' with
  | nil =>
    cases hc
    cases hg
    exact ⟨rfl,h⟩
  | cons o ops ih =>
    obtain ⟨hu,c1,r,rs1,hs,ht,rfl⟩ := trace_cons hc
    obtain ⟨-,g1,r',rs2,hs',ht',rfl⟩ := trace_cons hg
    obtain ⟨hle,hacc⟩ := h.coherent.counted.step (by simp) hs
    obtain ⟨hle',hacc'⟩ := h.counted.step (by simp) hs'
    have hc1 := le_antisymm ((trace_failures (hacc (by simp)) ht).trans hfc.le) hle
    have hg1 := le_antisymm ((trace_failures (hacc' (by simp)) ht').trans hfg.le) hle'
    obtain ⟨rfl,hp⟩ := h.step hu hs hs' hc1 hg1
    obtain ⟨rfl,hp⟩ := ih hp ht ht' (hfc.trans hc1.symm) (hfg.trans hg1.symm)
    exact ⟨rfl,hp⟩

def Separate (w : World) : Prop := ∀ e ∈ w.ptes, IsPrivate w.shm (.pte e.space e.vpn) →
  (∀ p ∈ w.cachedPages, p.frame ≠ e.frame) ∧ (e.writable = true → MayWrite w.shm (.pte e.space e.vpn)) ∧
  ∀ o ∈ w.ptes, o ≠ e → o.frame = e.frame →
    IsPrivate w.shm (.pte o.space o.vpn) ∧ e.writable = false ∧ o.writable = false

lemma Separate.isolated (h : Separate w) : Isolated (IsPrivate w.shm) (MayWrite w.shm) w.memory := by
  have hmem : ∀ {i n e}, w.lookupPte i n = some e → e ∈ w.ptes ∧ e.space = i ∧ e.vpn = n := fun he =>
    ⟨(lookup_some he).1,Prod.mk.inj (lookup_some he).2⟩
  refine ⟨fun k j hk hne hb hf => ?_,fun k hk hwr => ?_,fun k hwr => ?_⟩
  · cases k with
    | page _ _ => cases hk
    | pte i n =>
      obtain ⟨f,hkf⟩ := Option.ne_none_iff_exists'.mp hb
      obtain ⟨e,he,rfl⟩ := map_eq_some_iff.mp hkf
      obtain ⟨hin,rfl,rfl⟩ := hmem he
      obtain ⟨hcache,-,hshare⟩ := h e hin hk
      have hjf : w.frame j = some e.frame := hf.trans hkf
      cases j with
      | page s x =>
        obtain ⟨p,hp,hpf⟩ := map_eq_some_iff.mp hjf
        exact absurd hpf (hcache p (lookup_some hp).1)
      | pte i' n' =>
        obtain ⟨o,ho,hof⟩ := map_eq_some_iff.mp hjf
        obtain ⟨hoin,rfl,rfl⟩ := hmem ho
        obtain ⟨hpo,hwe,hwo⟩ := hshare o hoin (fun hoe => hne (by rw [hoe])) hof
        exact ⟨hpo,by simpa [memory,writes,he] using hwe,by simpa [memory,writes,ho] using hwo⟩
  · cases k with
    | page _ _ => cases hk
    | pte i n =>
      obtain ⟨e,he,hwe⟩ := (any_eq_true _ _).mp hwr
      obtain ⟨hin,rfl,rfl⟩ := hmem he
      exact (h e hin hk).2.1 hwe
  · cases k with
    | page _ _ => cases hwr
    | pte i n =>
      obtain ⟨e,he,-⟩ := (any_eq_true _ _).mp hwr
      simp [memory,frame,he]

instance (w : World) : Decidable (Separate w) := inferInstanceAs (Decidable (∀ e ∈ w.ptes, _))

def nestedForks : List Op :=
  [.fork 0,proceed 0,proceed 0,proceed 0,proceed 0,.access 4 0 (some 9) true true,.fork 4,proceed 4,proceed 4,
    proceed 4,proceed 4,.access 0 0 (some 7) true true,.access 8 0 none true true,.access 4 0 none true true,
    .access 0 0 none true true]

def heapOverStalePage : List Op :=
  [program,.call (.createSharedRegion 0 [65] 1 0 true),.call (.createMapping 0 [65] true true),
    .access 0 8192 none true true,.call (.destroyMapping 0 [65] 4096),proceed 0,proceed 0,.call (.sbrk 0 12288),
    .call (.createMapping 0 [65] true true),.access 0 20480 none true true]

def writeThroughMapping : List Op :=
  [.fork 0,proceed 0,proceed 0,proceed 0,proceed 0,proceed 0,proceed 0,.access 0 20480 (some 7) true true,
    .access 7 8192 none true true]

end World
end MappedMemory
