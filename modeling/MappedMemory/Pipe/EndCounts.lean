import MappedMemory.Pipe.Descriptors

namespace MappedMemory

open Bool (and_eq_true)
open Function (update update_of_ne update_self)
open List (countP_append countP_congr countP_singleton map_cons mem_append mem_cons mem_map mem_singleton)
open Option (all_some any_eq_true)

open Keyed

namespace Descriptors

variable {t t' : Descriptors} {f fd k pid : Nat} {s : FdSlot} {file : File} {p : Kpipe} {o : Oflag} {x : FdSlot}
  {child : Nat} {l : List FdSlot}

lemma Books.relabel {pids : List Nat} {nextPid : Nat} (hb : Books t) :
    Books { t with pids := pids, nextPid := nextPid } :=
  ⟨hb.keys,hb.fds,hb.held,hb.refs,hb.std,hb.piped,hb.counts,hb.used,hb.listed,hb.frees⟩

lemma Books.isEnd_std (hb : Books t) (h : f < 2) : t.isEnd k o f = false := by
  obtain ⟨file,hf,hn⟩ := hb.std f h
  simp [isEnd_eq hf,hn]

lemma Books.addStd (hb : Books t) (ref : Int) (hf : t.files s.file = some file) (h2 : s.file < 2)
    (hfd : s.fd < procMaxFile) (hnew : ∀ x ∈ t.slots, x.key ≠ s.key) :
    Books { t with
      slots := t.slots ++ [s], files := update t.files s.file (some { file with fRef := ref }) } := by
  have hsame : SameFiles t { t with
      slots := t.slots ++ [s], files := update t.files s.file (some { file with fRef := ref }) } :=
    sameFiles_update hf rfl
  refine hb.recount hsame (fun _ => Iff.rfl) rfl rfl (hb.keys.append hnew) (fun x hx => ?_) (fun g file' hg hle => ?_)
    (fun k p hp => ?_)
  · rcases mem_append.mp hx with hx | hx
    · exact ⟨hb.fds x hx,hb.held x hx⟩
    · obtain rfl := mem_singleton.mp hx
      exact ⟨hfd,by simp [hf]⟩
  · have hne : g ≠ s.file := by omega
    simp only [update_of_ne hne] at hg
    simpa [holders,countP_append,countP_singleton,Ne.symm hne] using hb.refs g file' hg hle
  · simpa [ends,hsame.isEnd,countP_append,countP_singleton,hb.isEnd_std h2] using hb.counts k p hp

lemma slot_none {n : Nat} (h : t.slot pid fd = none) (hx : x ∈ t.slots) :
    x.key ≠ FdSlot.key ⟨pid,fd,n⟩ := lookup_none h hx

lemma allocFd_some (h : t.allocFd pid = some fd) : t.slot pid fd = none ∧ fd < procMaxFile :=
  ⟨by simpa using List.find?_some h,List.mem_range.mp (List.mem_of_find?_eq_some h)⟩

lemma mem_slotsOf (h : s ∈ t.slotsOf pid) : s ∈ t.slots ∧ s.pid = pid := by
  obtain ⟨fd,-,hs⟩ := List.mem_filterMap.mp h
  obtain ⟨hmem,hkey⟩ := lookup_some hs
  exact ⟨hmem,(Prod.mk.inj hkey).1⟩

lemma slotsOf_nodup (t : Descriptors) (pid : Nat) : ((t.slotsOf pid).map FdSlot.fd).Nodup := by
  rw [slotsOf,List.map_filterMap]
  refine List.Nodup.filterMap (fun a b n ha hb => ?_) List.nodup_range
  obtain ⟨x,hx,rfl⟩ := Option.map_eq_some_iff.mp ha
  obtain ⟨y,hy,hxy⟩ := Option.map_eq_some_iff.mp hb
  exact (Prod.mk.inj (lookup_some hx).2).2.symm.trans (hxy.symm.trans (Prod.mk.inj (lookup_some hy).2).2)

lemma slotsOf_length (t : Descriptors) (pid : Nat) : (t.slotsOf pid).length ≤ procMaxFile := by
  have hle := List.length_filterMap_le (t.slot pid) (List.range procMaxFile)
  rwa [List.length_range] at hle

structure Within (t t' : Descriptors) : Prop where
  files : ∀ g file', t'.files g = some file' →
    ∃ file, t.files g = some file ∧ file'.kpipe = file.kpipe ∧ file'.oflag = file.oflag
  pipes : ∀ k p', t'.pipes k = some p' → ∃ p, t.pipes k = some p ∧ p'.fdReader = p.fdReader

lemma Within.endMatches (h : Within t t') (hm : t.endMatches f fd = true) : t'.endMatches f fd = true := by
  simp only [Descriptors.endMatches,Option.all_eq_true,beq_iff_eq,decide_eq_decide]
  intro file' hf' k hk p' hp'
  obtain ⟨file,hf,hk',ho⟩ := h.files f file' hf'
  obtain ⟨p,hp,hfd⟩ := h.pipes k p' hp'
  rw [hfd,ho]
  exact endMatches_iff hm hf (hk' ▸ hk) hp

lemma Recounted.within {update : Kpipe → Kpipe} {pipes : Nat → Option Kpipe} {p' : Kpipe}
    (h : Recounted t file update pipes) (hfd : ∀ p, (update p).fdReader = p.fdReader) (hp : pipes k = some p') :
    ∃ p, t.pipes k = some p ∧ p'.fdReader = p.fdReader := by
  rcases h with ⟨-,rfl⟩ | ⟨j,p,-,hj,rfl⟩
  · exact ⟨p',hp,rfl⟩
  · by_cases hk : k = j
    · subst hk
      rw [update_self] at hp
      cases hp
      exact ⟨p,hj,hfd p⟩
    · rw [update_of_ne hk] at hp
      exact ⟨p',hp,rfl⟩

lemma refIncrease_fdReader (p : Kpipe) (fd : Nat) : (p.refIncrease fd).fdReader = p.fdReader := by
  simp only [Kpipe.refIncrease]
  split <;> rfl

lemma refDecrease_fdReader (p : Kpipe) (fd : Nat) : (p.refDecrease fd).fdReader = p.fdReader := by
  simp only [Kpipe.refDecrease]
  split <;> rfl

lemma link_within (h : t.link f fd s = some t') :
    Within t t' ∧ t'.slots = t.slots ++ [s] ∧ t'.nextPid = t.nextPid ∧ t'.pids = t.pids := by
  obtain ⟨file,pipes,hf,hrec,rfl⟩ := link_some h
  refine ⟨⟨fun g file' hg => ?_,fun k p' hp => hrec.within (refIncrease_fdReader · fd) hp⟩,rfl,rfl,rfl⟩
  obtain ⟨file'',hf'',hk,ho⟩ := (sameFiles_update hf rfl).symm.some hg
  exact ⟨file'',hf'',hk.symm,ho.symm⟩

lemma unlink_within (h : t.unlink s = some t') :
    Within t t' ∧ t'.slots = remove FdSlot.key s.key t.slots ∧ t'.nextPid = t.nextPid ∧ t'.pids = t.pids := by
  obtain ⟨file,pipes,hf,hrec,⟨-,rfl⟩ | ⟨-,k,q,-,-,rfl⟩⟩ := unlink_some h
  · refine ⟨⟨fun g file' hg => ?_,fun k p' hp => hrec.within (refDecrease_fdReader · s.fd) hp⟩,rfl,rfl,rfl⟩
    obtain ⟨file'',hf'',hk,ho⟩ := (sameFiles_update hf rfl).symm.some hg
    exact ⟨file'',hf'',hk.symm,ho.symm⟩
  · refine ⟨⟨fun g file' hg => ?_,fun j p' hp => ?_⟩,rfl,rfl,rfl⟩
    · by_cases hgf : g = s.file
      · simp [hgf] at hg
      · exact ⟨file',by simpa only [update_of_ne hgf] using hg,rfl,rfl⟩
    · refine hrec.within (refDecrease_fdReader · s.fd) (k := j) ?_
      simp only at hp
      split at hp
      · by_cases hj : j = k
        · simp [hj] at hp
        · rwa [update_of_ne hj] at hp
      · exact hp

section
variable (hb : Books t)
include hb

lemma Books.linkAll (hl : (l.map FdSlot.fd).Nodup)
    (hnew : ∀ x ∈ t.slots, x.pid = child → x.fd ∉ l.map FdSlot.fd) (hfd : ∀ s ∈ l, s.fd < procMaxFile)
    (hm : ∀ s ∈ l, t.endMatches s.file s.fd = true) (hbound : t.slots.length + l.length < 2^31)
    (h : l.foldlM (fun t s => t.link s.file s.fd (childSlot child s)) t = some t') :
    Books t' ∧ t'.slots = t.slots ++ l.map (childSlot child) := by
  induction l generalizing t with
  | nil =>
    obtain rfl : t = t' := by simpa using h
    exact ⟨hb,by simp⟩
  | cons s l ih =>
    obtain ⟨u,hu,ht'⟩ := Run.foldlM_cons_some.mp h
    obtain ⟨hin,hslots,-⟩ := link_within hu
    rw [map_cons,List.nodup_cons] at hl
    rw [List.length_cons] at hbound
    have hbu : Books u := by
      refine hb.link hu rfl (hfd s (by simp)) (fun x hx he => ?_) (hm s (by simp)) (by omega)
      obtain ⟨hpid,hx'⟩ := Prod.mk.inj he
      have hno := hnew x hx hpid
      exact hno (by simp [show x.fd = s.fd from hx'])
    have hfree : ∀ x ∈ u.slots, x.pid = child → x.fd ∉ l.map FdSlot.fd := by
      intro x hx hp
      rw [hslots] at hx
      rcases mem_append.mp hx with hx | hx
      · exact fun hmem => hnew x hx hp (by simp only [map_cons,mem_cons]; exact .inr hmem)
      · obtain rfl := mem_singleton.mp hx
        exact hl.1
    obtain ⟨hbt,hall⟩ := ih hbu hl.2 hfree (fun x hx => hfd x (by simp [hx]))
      (fun x hx => hin.endMatches (hm x (by simp [hx]))) (by simp [hslots]; omega) ht'
    exact ⟨hbt,by rw [hall,hslots,map_cons,List.append_assoc]; rfl⟩

lemma Books.unlinkAll (hl : Distinct FdSlot.key l) (hmem : ∀ s ∈ l, s ∈ t.slots)
    (hm : ∀ s ∈ l, t.endMatches s.file s.fd = true) (hbound : t.slots.length < 2^31)
    (h : l.foldlM Descriptors.unlink t = some t') :
    Books t' ∧ (∀ x ∈ t'.slots, x ∈ t.slots) ∧ t'.nextPid = t.nextPid := by
  induction l generalizing t with
  | nil =>
    obtain rfl : t = t' := by simpa using h
    exact ⟨hb,fun _ hx => hx,rfl⟩
  | cons s l ih =>
    obtain ⟨u,hu,ht'⟩ := Run.foldlM_cons_some.mp h
    obtain ⟨hin,hslots,hnext,-⟩ := unlink_within hu
    obtain ⟨hs,hl⟩ := List.nodup_cons.mp hl
    have hkept : ∀ x ∈ l, x ∈ u.slots := fun x hx => by
      rw [hslots]
      exact mem_remove.mpr ⟨hmem x (by simp [hx]),fun he => hs (mem_map.mpr ⟨x,hx,he⟩)⟩
    have hless : u.slots.length ≤ t.slots.length := by
      rw [hslots]
      exact List.length_filter_le ..
    obtain ⟨hbt,hall,hpid⟩ := ih (hb.unlink hu (hmem s (by simp)) (hm s (by simp)) hbound) hl hkept
      (fun x hx => hin.endMatches (hm x (by simp [hx]))) (by omega) ht'
    exact ⟨hbt,fun x hx => (mem_remove.mp (hslots ▸ hall x hx)).1,hpid.trans hnext⟩

lemma Books.none_ge (h : t.files f = none) : 2 ≤ f := by
  by_contra hlt
  obtain ⟨file,hf,-⟩ := hb.std f (by omega)
  simp [hf] at h

lemma Books.openFile (hf : t.files s.file = none) (hfd : s.fd < procMaxFile)
    (hnew : ∀ x ∈ t.slots, x.key ≠ s.key) (ht : t' = (t.setFile s.file (some (freshFile o))).addSlot s) :
    Books t' := by
  have hne : ∀ x ∈ t.slots, x.file ≠ s.file := fun x hx he => hb.held x hx (he ▸ hf)
  have hslots : t'.slots = t.slots ++ [s] := by rw [ht]; rfl
  have hpipes : t'.pipes = t.pipes := by rw [ht]; rfl
  have hfile : ∀ {g}, g ≠ s.file → t'.files g = t.files g := fun hg => by
    rw [ht]
    exact update_of_ne hg _ _
  have hself : t'.files s.file = some (freshFile o) := by
    rw [ht]
    exact update_self ..
  have hends : ∀ k o', t'.ends k o' = t.ends k o' := fun k o' => by
    have hs : t'.isEnd k o' s.file = false := isEnd_eq hself
    rw [ends,hslots,countP_append,countP_singleton,hs]
    refine countP_congr fun x hx => ?_
    rw [isEnd,isEnd,hfile (hne x hx)]
  have hholders : ∀ g, t'.holders g = t.holders g + if s.file = g then 1 else 0 := fun g => by
    simp [holders,hslots,countP_append,countP_singleton]
  refine ⟨hslots ▸ hb.keys.append hnew,fun x hx => ?_,fun x hx => ?_,fun g file hg h2 => ?_,fun g hg => ?_,
    fun g file k hg hk => ?_,fun k p hp => ?_,fun k p hp => ?_,by rw [ht]; exact hb.listed,by rw [ht]; exact hb.frees⟩
  · rcases mem_append.mp (hslots ▸ hx) with hx | hx
    · exact hb.fds x hx
    · exact mem_singleton.mp hx ▸ hfd
  · rcases mem_append.mp (hslots ▸ hx) with hx | hx
    · rw [hfile (hne x hx)]
      exact hb.held x hx
    · rw [mem_singleton.mp hx,hself]
      simp
  · rw [hholders]
    by_cases hgs : g = s.file
    · subst hgs
      cases hself.symm.trans hg
      have hzero : t.holders s.file = 0 := List.countP_eq_zero.mpr fun x hx => by simpa using hne x hx
      simp [hzero,freshFile]
    · rw [hfile hgs] at hg
      simpa [Ne.symm hgs] using hb.refs g file hg h2
  · rw [hfile (by have := hb.none_ge hf; omega)]
    exact hb.std g hg
  · rw [hpipes]
    by_cases hgs : g = s.file
    · subst hgs
      cases hself.symm.trans hg
      simp [freshFile] at hk
    · exact hb.piped g file k (hfile hgs ▸ hg) hk
  · rw [hends,hends]
    exact hb.counts k p (hpipes ▸ hp)
  · obtain ⟨g,file,hg,hk⟩ := hb.used k p (hpipes ▸ hp)
    refine ⟨g,file,?_,hk⟩
    rw [hfile (fun he => by simp [he,hf] at hg),hg]

lemma Books.kpipeInit {r w rfd wfd : Nat} (hr : t.files r = some (freshFile .rdonly))
    (hw : t.files w = some (freshFile .wronly)) (hr2 : 2 ≤ r) (hw2 : 2 ≤ w) (hk : k ∉ t.created)
    (ht : t' = t.kpipeInit r w rfd wfd k) : Books t' := by
  have hrw : r ≠ w := fun he => by simp [he,hw,freshFile] at hr
  have hslots : t'.slots = t.slots := by rw [ht]; rfl
  have hholders : ∀ g, t'.holders g = t.holders g := fun g => by rw [holders,holders,hslots]
  have hcreated : t'.created = k :: t.created := by rw [ht]; rfl
  have hfrees : t'.frees = t.frees := by rw [ht]; rfl
  have hself : t'.pipes k = some (.init rfd wfd) := by
    rw [ht]
    exact update_self ..
  have hpipe : ∀ {j}, j ≠ k → t'.pipes j = t.pipes j := fun hj => by
    rw [ht]
    exact update_of_ne hj _ _
  have hpr : t'.files r = some { freshFile .rdonly with kpipe := some k, hasOps := true } := by
    rw [ht]
    exact update_self ..
  have hpw : t'.files w = some { freshFile .wronly with kpipe := some k, hasOps := true } := by
    rw [ht,Descriptors.kpipeInit]
    exact (update_of_ne (Ne.symm hrw) _ _).trans (update_self ..)
  have hfile : ∀ {g}, g ≠ r → g ≠ w → t'.files g = t.files g := fun hgr hgw => by
    rw [ht,Descriptors.kpipeInit]
    exact (update_of_ne hgr _ _).trans (update_of_ne hgw _ _)
  have hold : t.pipes k = none := Option.eq_none_iff_forall_ne_some.mpr fun p hp => hk (hb.listed k p hp)
  have hnone : ∀ g o, t.isEnd k o g = false := fun g o => by
    rw [isEnd,Option.any_eq_false]
    intro file hg
    simp only [Bool.and_eq_false_iff,beq_eq_false_iff_ne]
    exact .inl fun hk' => (hb.piped g file k hg hk').2 hold
  have hone : ∀ {g o}, t.files g = some (freshFile o) → 2 ≤ g → t.holders g = 1 := fun {g o} hg h2 => by
    have href : (1 : Int) = t.holders g := (hb.refs g _ hg h2).1
    omega
  have hend : ∀ j o g, t'.isEnd j o g = true ↔
      t.isEnd j o g = true ∨ j = k ∧ (g = r ∧ o = .rdonly ∨ g = w ∧ o = .wronly) := by
    intro j o g
    by_cases hgr : g = r
    · subst hgr
      rw [isEnd_eq hpr,isEnd_eq hr]
      simp [freshFile,hrw,@eq_comm _ k j,@eq_comm _ Oflag.rdonly]
    · by_cases hgw : g = w
      · subst hgw
        rw [isEnd_eq hpw,isEnd_eq hw]
        simp [freshFile,Ne.symm hrw,@eq_comm _ k j,@eq_comm _ Oflag.wronly]
      · rw [isEnd,isEnd,hfile hgr hgw]
        simp [hgr,hgw]
  have hends : ∀ {j}, j ≠ k → ∀ o, t'.ends j o = t.ends j o := fun hj o => by
    rw [ends,hslots]
    exact countP_congr fun x _ => by simp [hend,hj]
  refine ⟨hslots ▸ hb.keys,hslots ▸ hb.fds,fun x hx => ?_,fun g file hg h2 => ?_,fun g hg => ?_,fun g file j hg hj => ?_,
    fun j p hp => ?_,fun j p hp => ?_,fun j p hp => ?_,fun j => ?_⟩
  · rcases eq_or_ne x.file r with he | hgr
    · simp [he,hpr]
    · rcases eq_or_ne x.file w with he | hgw
      · simp [he,hpw]
      · rw [hfile hgr hgw]
        exact hb.held x (hslots ▸ hx)
  · rw [hholders]
    rcases eq_or_ne g r with rfl | hgr
    · cases hpr.symm.trans hg
      simp [hone hr h2,freshFile]
    · rcases eq_or_ne g w with rfl | hgw
      · cases hpw.symm.trans hg
        simp [hone hw h2,freshFile]
      · exact hb.refs g file (hfile hgr hgw ▸ hg) h2
  · rw [hfile (by omega) (by omega)]
    exact hb.std g hg
  · rcases eq_or_ne g r with rfl | hgr
    · cases hpr.symm.trans hg
      cases hj
      exact ⟨.inl rfl,by simp [hself]⟩
    · rcases eq_or_ne g w with rfl | hgw
      · cases hpw.symm.trans hg
        cases hj
        exact ⟨.inr rfl,by simp [hself]⟩
      · obtain ⟨hflag,hp⟩ := hb.piped g file j (hfile hgr hgw ▸ hg) hj
        have hjk : j ≠ k := fun he => hp (he ▸ hold)
        exact ⟨hflag,by rwa [hpipe hjk]⟩
  · by_cases hjk : j = k
    · subst hjk
      cases hself.symm.trans hp
      have hnew : ∀ {g o}, t.holders g = 1 → (∀ x : FdSlot, t'.isEnd j o x.file = true ↔ x.file = g) →
          t'.ends j o = 1 := fun {g o} hg hx => by
        rw [← hg,ends,hslots]
        exact countP_congr fun x _ => by simp [hx]
      exact ⟨(hnew (hone hr hr2) fun x => by simp [hend,hnone]).symm,
        (hnew (hone hw hw2) fun x => by simp [hend,hnone]).symm⟩
    · rw [hends hjk,hends hjk]
      exact hb.counts j p (hpipe hjk ▸ hp)
  · by_cases hjk : j = k
    · exact ⟨r,_,hpr,hjk ▸ rfl⟩
    · obtain ⟨g,file,hg,hj⟩ := hb.used j p (hpipe hjk ▸ hp)
      refine ⟨g,file,?_,hj⟩
      rw [hfile (fun he => ?_) (fun he => ?_),hg]
      · rw [he,hr] at hg
        cases hg
        simp [freshFile] at hj
      · rw [he,hw] at hg
        cases hg
        simp [freshFile] at hj
  · rw [hcreated]
    by_cases hjk : j = k
    · exact hjk ▸ List.mem_cons_self
    · exact List.mem_cons_of_mem _ (hb.listed j p (hpipe hjk ▸ hp))
  · rw [hfrees,hcreated,hb.frees j]
    by_cases hjk : j = k
    · subst hjk
      simp [hk,hself]
    · simp [hjk,hpipe hjk]

end

structure Sound (t : Descriptors) : Prop where
  books : Books t
  fresh : ∀ s ∈ t.slots, s.pid < t.nextPid
  live : ∀ p ∈ t.pids, p < t.nextPid

lemma Books.init : Books init := by
  refine ⟨by simp [Distinct,Descriptors.init],by simp [Descriptors.init],by simp [Descriptors.init],
    fun f file hf h2 => ?_,fun f hf => ?_,fun f file k hf hk => ?_,by simp [Descriptors.init],by simp [Descriptors.init],
    by simp [Descriptors.init],by simp [Descriptors.init]⟩
  · simp only [Descriptors.init,if_neg (show ¬ f < 2 by omega),reduceCtorEq] at hf
  · exact ⟨_,if_pos hf,rfl⟩
  · simp only [Descriptors.init] at hf
    split at hf
    · cases hf
      simp at hk
    · simp at hf

def tallies (t : Descriptors) : Op → Bool
  | .spawn => true
  | .pipe _ r w k => r.isNone || w.isSome && k.isSome
  | .dup pid fd => decide (t.slots.length + 1 < 2^31) && (t.slot pid fd).all fun s => t.endMatches s.file fd
  | .close pid fd => decide (t.slots.length < 2^31) && (t.slot pid fd).all fun s => t.endMatches s.file fd
  | .fork pid =>
    decide (t.slots.length + procMaxFile < 2^31) && (t.slotsOf pid).all fun s => t.endMatches s.file s.fd
  | .exit pid => decide (t.slots.length < 2^31) && (t.slotsOf pid).all fun s => t.endMatches s.file s.fd

lemma Sound.extend (hs : Sound t) (hb : Books t') (hnext : t'.nextPid = t.nextPid) (hpids : t'.pids = t.pids)
    (hslots : ∀ x ∈ t'.slots, x ∈ t.slots ∨ x.pid = pid) (hpid : pid ∈ t.pids) : Sound t' := by
  refine ⟨hb,fun x hx => ?_,hnext ▸ hpids ▸ hs.live⟩
  rw [hnext]
  rcases hslots x hx with hx | rfl
  · exact hs.fresh x hx
  · exact hs.live _ hpid

lemma Sound.dup (hs : Sound t) (hm : t.tallies (.dup pid fd) = true) (hpid : pid ∈ t.pids)
    (h : (t.sysDup pid fd).map Prod.fst = some t') : Sound t' := by
  simp only [tallies,and_eq_true,decide_eq_true_eq] at hm
  simp only [sysDup] at h
  split at h
  · obtain rfl : t = t' := by simpa using h
    exact hs
  · rename_i s hslot
    split at h
    · obtain rfl : t = t' := by simpa using h
      exact hs
    · rename_i i hi
      obtain ⟨u,hu,rfl⟩ : ∃ u, t.link s.file fd ⟨pid,i,s.file⟩ = some u ∧ u = t' := by
        simpa [Run.bind_some] using h
      obtain ⟨hfree,hlt⟩ := allocFd_some hi
      obtain ⟨-,hslots,hnext,hpids⟩ := link_within hu
      rw [hslot,all_some] at hm
      have hb := hs.books.link hu rfl hlt (fun x hx => slot_none hfree hx) hm.2 hm.1
      refine hs.extend hb hnext hpids (fun x hx => ?_) hpid
      rw [hslots] at hx
      simpa [or_comm] using (mem_append.mp hx).imp id fun hx => by rw [mem_singleton.mp hx]

lemma Sound.close (hs : Sound t) (hm : t.tallies (.close pid fd) = true)
    (h : (t.sysClose pid fd).map Prod.fst = some t') : Sound t' := by
  simp only [tallies,and_eq_true,decide_eq_true_eq] at hm
  simp only [sysClose] at h
  split at h
  · obtain rfl : t = t' := by simpa using h
    exact hs
  · rename_i s hslot
    obtain ⟨u,hu,rfl⟩ : ∃ u, t.unlink s = some u ∧ u = t' := by simpa [Run.bind_some] using h
    obtain ⟨hmem,hkey⟩ := lookup_some hslot
    obtain ⟨-,hslots,hnext,hpids⟩ := unlink_within hu
    obtain rfl : s.fd = fd := (Prod.mk.inj hkey).2
    rw [hslot,all_some] at hm
    refine ⟨hs.books.unlink hu hmem hm.2 hm.1,fun x hx => ?_,hnext ▸ hpids ▸ hs.live⟩
    rw [hnext]
    exact hs.fresh x (mem_remove.mp (hslots ▸ hx)).1

lemma Books.keepStd (hb : Books t) (hfd : fd < 2) : Books (t.keepStd child fd) := by
  simp only [Descriptors.keepStd]
  split
  · exact hb
  · rename_i hn
    obtain ⟨file,hf,-⟩ := hb.std fd hfd
    have hb' := hb.addStd (s := ⟨child,fd,fd⟩) file.fRef hf hfd (by simp [procMaxFile]; omega)
      fun x hx => slot_none (by simpa using hn) hx
    rwa [show some { file with fRef := file.fRef } = t.files fd from hf.symm,Function.update_eq_self] at hb'

lemma mem_keepStd (h : x ∈ (t.keepStd child fd).slots) : x ∈ t.slots ∨ x.pid = child := by
  simp only [keepStd] at h
  split at h
  · exact .inl h
  · exact (mem_append.mp h).imp id fun hx => by rw [mem_singleton.mp hx]

section
variable (hs : Sound t)
include hs

lemma Sound.fork (hm : t.tallies (.fork pid) = true) (h : t.procFork pid = some t') : Sound t' := by
  simp only [tallies,and_eq_true,decide_eq_true_eq,List.all_eq_true] at hm
  simp only [procFork,Run.bind_some] at h
  obtain ⟨u,hu,h⟩ := h
  cases h
  have hlen := slotsOf_length t pid
  obtain ⟨hb,hslots⟩ := hs.books.linkAll (slotsOf_nodup t pid)
    (fun x hx hp => absurd (hs.fresh x hx) (by omega)) (fun s hs' => hs.books.fds s (mem_slotsOf hs').1) hm.2
    (by omega) hu
  refine ⟨((hb.keepStd (by decide)).keepStd (by decide)).relabel,fun x hx => ?_,fun p hp => ?_⟩
  · have hx : x ∈ t.slots ∨ x.pid = t.nextPid := by
      rcases mem_keepStd hx with hx | hx
      · rcases mem_keepStd hx with hx | hx
        · rw [hslots] at hx
          refine (mem_append.mp hx).imp id fun hx => ?_
          obtain ⟨y,-,rfl⟩ := mem_map.mp hx
          rfl
        · exact .inr hx
      · exact .inr hx
    rcases hx with hx | hx
    · exact Nat.lt_succ_of_lt (hs.fresh x hx)
    · exact hx ▸ Nat.lt_succ_self _
  · rcases mem_cons.mp hp with rfl | hp
    · exact Nat.lt_succ_self _
    · exact Nat.lt_succ_of_lt (hs.live p hp)

lemma Sound.exit (hm : t.tallies (.exit pid) = true) (h : t.procExit pid = some t') : Sound t' := by
  simp only [tallies,and_eq_true,decide_eq_true_eq,List.all_eq_true] at hm
  simp only [procExit,Run.bind_some] at h
  obtain ⟨u,hu,h⟩ := h
  cases h
  have hkeys : Distinct FdSlot.key (t.slotsOf pid) := by
    refine List.Nodup.of_map Prod.snd ?_
    rw [List.map_map]
    exact slotsOf_nodup t pid
  obtain ⟨hb,hslots,hnext⟩ := hs.books.unlinkAll hkeys (fun s hs' => (mem_slotsOf hs').1) hm.2 hm.1 hu
  refine ⟨hb.relabel,fun x hx => ?_,fun p hp => ?_⟩
  · simp only [hnext]
    exact hs.fresh x (hslots x hx)
  · simp only [hnext]
    exact hs.live p (List.mem_of_mem_erase hp)

lemma Sound.spawn (h : t.spawn = some t') : Sound t' := by
  simp only [Descriptors.spawn,fsReopenFile,Run.bind_some] at h
  obtain ⟨u,⟨file,hf,hu⟩,v,⟨file',hf',hv⟩,h⟩ := h
  cases hu
  cases hv
  cases h
  have hnew : ∀ x ∈ t.slots, ∀ n, x.key ≠ FdSlot.key ⟨t.nextPid,n,n⟩ := fun x hx n he =>
    absurd (hs.fresh x hx) (by simp [show x.pid = t.nextPid from (Prod.mk.inj he).1])
  have h0 := hs.books.addStd (s := ⟨t.nextPid,0,0⟩) (file.fRef + 1) hf (by simp) (by simp [procMaxFile])
    fun x hx => hnew x hx 0
  have h1 := h0.addStd (s := ⟨t.nextPid,1,1⟩) (file'.fRef + 1) hf' (by simp) (by simp [procMaxFile])
    fun x hx => by
      rcases mem_append.mp hx with hx | hx
      · exact hnew x hx 1
      · simp [mem_singleton.mp hx,FdSlot.key]
  refine ⟨h1.relabel,fun x hx => ?_,fun p hp => ?_⟩
  · rcases mem_append.mp hx with hx | hx
    · rcases mem_append.mp hx with hx | hx
      · exact Nat.lt_succ_of_lt (hs.fresh x hx)
      · rw [mem_singleton.mp hx]
        exact Nat.lt_succ_self _
    · rw [mem_singleton.mp hx]
      exact Nat.lt_succ_self _
  · rcases mem_cons.mp hp with rfl | hp
    · exact Nat.lt_succ_self _
    · exact Nat.lt_succ_of_lt (hs.live p hp)

lemma Sound.openFile (hpid : pid ∈ t.pids) (hf : t.files f = none) (hfd : t.allocFd pid = some fd)
    (o : Oflag) : Sound ((t.setFile f (some (freshFile o))).addSlot ⟨pid,fd,f⟩) := by
  obtain ⟨hfree,hlt⟩ := allocFd_some hfd
  refine hs.extend (hs.books.openFile (s := ⟨pid,fd,f⟩) hf hlt (fun x hx => slot_none hfree hx) rfl) rfl rfl
    (fun x hx => ?_) hpid
  exact (mem_append.mp hx).imp id fun hx => by rw [mem_singleton.mp hx]

lemma Sound.pipe {r w k : Option Nat} {res : Descriptors × Except Err Nat}
    (hm : t.tallies (.pipe pid r w k) = true) (hpid : pid ∈ t.pids) (h : t.sysPipe pid r w k = some res) :
    Sound res.1 := by
  simp only [sysPipe] at h
  split at h
  · cases h
    exact hs
  · rename_i rfd hrfd
    cases r with
    | none =>
      cases h
      exact hs
    | some rfile =>
      obtain ⟨⟨wfile,rfl⟩,kpipe,rfl⟩ : (∃ wfile, w = some wfile) ∧ ∃ kpipe, k = some kpipe := by
        simpa [tallies,Option.isSome_iff_exists] using hm
      simp only at h
      split at h
      · simp at h
      · rename_i hr
        have hr : t.files rfile = none := by simpa using hr
        have hs1 := hs.openFile hpid hr hrfd .rdonly
        split at h
        · cases h
          exact hs1
        · rename_i wfd hwfd
          split at h
          · simp at h
          · rename_i hw
            have hw : ((t.setFile rfile (some (freshFile .rdonly))).addSlot ⟨pid,rfd,rfile⟩).files wfile = none := by
              simpa using hw
            have hs2 := hs1.openFile hpid hw hwfd .wronly
            split at h
            · simp at h
            · rename_i hk
              cases h
              have hne : wfile ≠ rfile := fun he => by simp [he,addSlot,setFile] at hw
              refine ⟨hs2.books.kpipeInit ?_ (update_self ..) (hs.books.none_ge hr) (hs1.books.none_ge hw) hk rfl,
                hs2.fresh,hs2.live⟩
              exact (update_of_ne hne.symm _ _).trans (update_self ..)

lemma Sound.step {op : Op} (hm : t.tallies op = true) (h : t.step op = some t') : Sound t' := by
  cases op with
  | spawn => exact hs.spawn h
  | pipe pid r w k =>
    obtain ⟨hpid,h⟩ := Option.ite_none_right_eq_some.mp h
    obtain ⟨res,hres,rfl⟩ := Option.map_eq_some_iff.mp h
    exact hs.pipe hm hpid hres
  | dup pid fd =>
    obtain ⟨hpid,h⟩ := Option.ite_none_right_eq_some.mp h
    exact hs.dup hm hpid h
  | close pid fd => exact hs.close hm (Option.ite_none_right_eq_some.mp h).2
  | fork pid => exact hs.fork hm (Option.ite_none_right_eq_some.mp h).2
  | exit pid => exact hs.exit hm (Option.ite_none_right_eq_some.mp h).2

end

def talliedRun (ops : List Op) : Option Descriptors := ops.foldlM (Run.guarded tallies step) init

lemma talliedRun_sound {ops : List Op} (h : talliedRun ops = some t) : Sound t := by
  refine Run.invariant (P := Sound) (fun s o u hs hstep => ?_) ⟨.init,by simp [init],by simp [init]⟩ h
  obtain ⟨hm,hstep⟩ := Run.guarded_some.mp hstep
  exact hs.step hm hstep

lemma Books.ends_pos (hb : Books t) (hp : t.pipes k = some p) : 0 < t.ends k .rdonly ∨ 0 < t.ends k .wronly := by
  obtain ⟨f,file,hf,hk⟩ := hb.used k p hp
  have h2 : 2 ≤ f := by
    by_contra hlt
    have hend := hb.isEnd_std (k := k) (o := file.oflag) (show f < 2 by omega)
    simp [isEnd_eq hf,hk] at hend
  obtain ⟨x,hx,hxf⟩ := List.countP_pos_iff.mp (hb.refs f file hf h2).2
  obtain rfl : x.file = f := by simpa using hxf
  have hpos : ∀ o, file.oflag = o → 0 < t.ends k o := fun o ho =>
    List.countP_pos_iff.mpr ⟨x,hx,by simp [isEnd_eq hf,hk,ho]⟩
  exact (hb.piped _ file k hf hk).1.imp (hpos _) (hpos _)

lemma Books.ends_zero (hb : Books t) (hp : t.pipes k = none) : t.ends k o = 0 := by
  refine List.countP_eq_zero.mpr fun x _ hend => ?_
  obtain ⟨file,hf,hface⟩ := (any_eq_true _ _).mp hend
  simp only [and_eq_true,beq_iff_eq] at hface
  exact (hb.piped _ file k hf hface.1).2 hp

theorem end_counts (ops : List Op) (t : Descriptors) (h : talliedRun ops = some t) :
    (∀ k p, t.pipes k = some p → p.readers = t.ends k .rdonly ∧ p.writers = t.ends k .wronly ∧
      ∀ c : Channel, p.SameEnds c.pipe → c.pipe.buffered = 0 → ∀ tid count,
        (c.kpipeRead tid count).log = c.log ++ [.read tid []] → t.ends k .wronly = 0) ∧
    ∀ k ∈ t.created, (t.pipes k = none ↔ t.ends k .rdonly = 0 ∧ t.ends k .wronly = 0) ∧
      t.frees.count k = if t.ends k .rdonly = 0 ∧ t.ends k .wronly = 0 then 1 else 0 := by
  have hb := (talliedRun_sound h).books
  refine ⟨fun k p hp => ?_,fun k hk => ?_⟩
  · obtain ⟨hr,hw⟩ := hb.counts k p hp
    refine ⟨hr,hw,fun c hsame hempty tid count hread => ?_⟩
    rw [← hw,← hsame.writers]
    by_contra hne
    simp [Channel.kpipeRead,hempty,hne] at hread
  · have hiff : t.pipes k = none ↔ t.ends k .rdonly = 0 ∧ t.ends k .wronly = 0 := by
      refine ⟨fun hn => ⟨hb.ends_zero hn,hb.ends_zero hn⟩,fun hz => ?_⟩
      refine Option.eq_none_iff_forall_ne_some.mpr fun p hp => ?_
      have := hb.ends_pos hp
      omega
    refine ⟨hiff,?_⟩
    rw [hb.frees k]
    simp only [hk,true_and,hiff]

def forkedPipe : List Op :=
  [.spawn,.pipe 0 (some 2) (some 3) (some 7),.fork 0,.close 0 3,.close 1 2,.exit 1]

theorem end_counts_fork : ∃ t, talliedRun forkedPipe = some t ∧ t.created = [7] ∧ t.ends 7 .rdonly = 1 ∧
    t.ends 7 .wronly = 0 ∧ t.frees.count 7 = 0 := by
  have hrun : (talliedRun forkedPipe).any (fun t => decide (t.created = [7]) && decide (t.ends 7 .rdonly = 1) &&
      decide (t.ends 7 .wronly = 0)) = true := by decide +kernel
  obtain ⟨t,ht,hok⟩ := (any_eq_true _ _).mp hrun
  simp only [and_eq_true,decide_eq_true_eq] at hok
  have hfrees := ((end_counts forkedPipe t ht).2 7 (by simp [hok.1.1])).2
  exact ⟨t,ht,hok.1.1,hok.1.2,hok.2,by simpa [hok.1.2] using hfrees⟩

def closedDuplicate : List Op := [.spawn,.pipe 0 (some 2) (some 3) (some 7),.dup 0 2,.close 0 4]

theorem end_counts_duplicate : ∃ t p, run closedDuplicate = some t ∧ t.pipes 7 = some p ∧ t.ends 7 .wronly = 1 ∧
    p.writers = 0 ∧ p.readers = 2 ∧ t.ends 7 .rdonly = 1 ∧ p.buffered = 0 := by
  have hrun : (run closedDuplicate).any (fun t => (t.pipes 7).any (fun p => decide (t.ends 7 .wronly = 1) &&
      (decide (p.writers = 0) && (decide (p.readers = 2) && (decide (t.ends 7 .rdonly = 1) &&
        decide (p.buffered = 0)))))) = true := by decide +kernel
  obtain ⟨t,ht,hok⟩ := (any_eq_true _ _).mp hrun
  obtain ⟨p,hp,hok⟩ := (any_eq_true _ _).mp hok
  simp only [and_eq_true,decide_eq_true_eq] at hok
  exact ⟨t,p,ht,hp,hok⟩

end Descriptors
end MappedMemory
