import MappedMemory.Sfs.NameLaws

namespace MappedMemory.Sfs

open Function (update update_of_ne update_self)
open Bytes Naming Routine

variable {s t u v : Fs} {i j d o a inum mode src n : Nat} {c c1 ci : Inode} {name : List Byte} {ft : Ftype}
  {r : Except SfsErr Unit}

def Narrow (s : Fs) : Prop := ∀ i c, s.icache i = some c → c.iNlink < 2^16

section
variable (h : Narrow s)
include h

lemma Narrow.quiet (hq : Quiet s t) : Narrow t := fun i c hc => h i c (hq.icache ▸ hc)

lemma Narrow.update (hn : c.iNlink < 2^16) (hic : t.icache = update s.icache i (some c)) :
    Narrow t := fun j e he => by
  rw [hic] at he
  by_cases hj : j = i
  · subst hj
    rw [update_self,Option.some_inj] at he
    exact he ▸ hn
  · rw [update_of_ne hj] at he
    exact h j e he

lemma Narrow.grow (hs : Owned s) (hc : s.icache d = some c) (hg : Grow d s t) : Narrow t := by
  have hext := (hs.grow hg).2
  obtain ⟨ad,dirty,hct⟩ := hext.own c hc
  refine h.update (i := d) (c := { c with iAddrs := ad, dirty := dirty }) (h d c hc) (funext fun j => ?_)
  by_cases hj : j = d
  · rw [hj,hct,update_self]
  · rw [hext.icache j hj,update_of_ne hj]

lemma Narrow.added {w : Fs} (hs : Owned s) (hc : s.icache d = some c)
    (ha : Added d inum name c s t o u w c1) : Narrow t := by
  have hu := h.grow hs hc ha.grow
  obtain ⟨dirty,hic,-⟩ := ha.resized.icache
  refine hu.update ?_ (ha.icache.trans hic)
  exact hu d c1 ha.cached

lemma Narrow.relinked (hr : Relinked s t i n) (hn : n < 2^16) : Narrow t := by
  obtain ⟨c,-,hic,-⟩ := hr.inode
  exact h.update hn hic

lemma Narrow.opened (ho : Opened s t i c) : Narrow t := by
  refine h.update ?_ ho.icache
  rcases ho.origin with ⟨e,he,rfl⟩ | ⟨-,rfl⟩
  · exact h i e he
  · exact word_lt _ _ 2

lemma Narrow.released (hr : Released s t i) : Narrow t := fun j c hc => by
  obtain ⟨e,he,k,rfl⟩ := hr.subset hc
  exact h j e he

end

structure Linked (s : Fs) : Prop extends Tidy s where
  counted : (tree s).Counted sfsRootInum
  narrow : Narrow s

section
variable (hs : Linked s)
include hs

lemma Linked.named : AllNamed s := fun d a nm i h => (hs.counted.named d a nm i h).1

lemma Linked.nlink (hc : s.icache i = some c) : c.iNlink = (tree s).links i := by
  rw [tree_links (hs.owned.cached i c hc),← (hs.coherent i c hc).nlink,Nat.mod_eq_of_lt (hs.narrow i c hc)]

lemma Linked.same (ht : Tidy t ∧ tree t = tree s) (hn : Narrow t) : Linked t :=
  ⟨ht.1,ht.2 ▸ hs.counted,hn⟩

lemma Linked.quiet (hq : Quiet s t) : Linked t := hs.same (hs.toTidy.quiet hq) (hs.narrow.quiet hq)

lemma Linked.opened (h : Opened s t i c) (ha : Allocated s i) : Linked t :=
  hs.same (hs.toTidy.opened h ha) (hs.narrow.opened h)

end

lemma CreateResult.narrow (hn : Narrow s) (hs : Owned s) (hc : s.icache d = some c)
    (h : CreateResult d ft name mode c s t r) : Narrow t := by
  cases h with
  | refused e quiet => exact hn.quiet quiet
  | undone e inum u v new grow freed =>
    have hu : Narrow u := fun i c hc => hn i c (new.icache ▸ hc)
    have hv := hu.grow (new.owned hs) (by rw [new.icache,hc]) grow
    exact fun i c hc => hv i c (freed.icache ▸ hc)
  | done inum o u v w c1 new added =>
    have hu : Narrow u := fun i c hc => hn i c (new.icache ▸ hc)
    exact hu.added (new.owned hs) (by rw [new.icache,hc]) added

lemma CreateResult.linked (hs : Linked s) (hc : s.icache d = some c) (hb : Behind s d c.iSize name)
    (h : CreateResult d ft name mode c s t r) : Linked t := by
  have hn := h.narrow hs.narrow hs.owned hc
  obtain ⟨ht,⟨-,he⟩ | ⟨-,inum,a,hnew,-,hfree,he⟩⟩ := h.tidy hs.toTidy hc hb
  · exact hs.same ⟨ht,he⟩ hn
  · refine ⟨ht,?_,hn⟩
    rw [he]
    exact hs.counted.create hnew (fun hr => hnew (hr ▸ hs.root)) hfree

lemma LinkResult.linked {cs : Inode} (hs : Linked s) (hc : s.icache d = some c) (hcs : s.icache src = some cs)
    (hft : cs.iFtype = .file) (hb : Behind s d c.iSize name) (hroom : cs.iNlink + 1 < 2^16)
    (h : LinkResult d src name c cs s t r) : Linked t := by
  have hn : Narrow t := by
    cases h with
    | refused e quiet => exact hs.narrow.quiet quiet
    | grown e grow => exact hs.narrow.grow hs.owned hc grow
    | done o u v w c1 added relinked => exact (hs.narrow.added hs.owned hc added).relinked relinked hroom
  obtain ⟨ht,⟨-,he⟩ | ⟨-,a,hfree,he⟩⟩ := h.tidy hs.toTidy hc hcs hb
  · exact hs.same ⟨ht,he⟩ hn
  · have hroot : src ≠ sfsRootInum := by
      rintro rfl
      have := (hs.coherent _ cs hcs).ftype
      rw [hft,hs.root_dir] at this
      cases this
    refine ⟨ht,?_,hn⟩
    rw [he,Nat.mod_eq_of_lt hroom,hs.nlink hcs]
    exact hs.counted.enter (hs.owned.cached src cs hcs) hroot hfree

lemma FoundResult.narrow {size : Nat} (hn : Narrow s) (h : FoundResult d ft name size i s t r) : Narrow t := by
  cases h with
  | refused e quiet => exact hn.quiet quiet
  | done c o u cached links ftype empty removed relinked =>
    have hu : Narrow u := fun j e he => hn j e (removed.icache ▸ he)
    have := hn i c cached
    exact hu.relinked relinked (by omega)

lemma UnlinkResult.linked (hs : Linked s) (hc : s.icache d = some c) (h : UnlinkResult d ft name c s t r) :
    Linked t := by
  have hn : Narrow t := by
    cases h with
    | refused e quiet => exact hs.narrow.quiet quiet
    | leaked e i o ci found inum pos opened => exact hs.narrow.opened opened
    | closed r i o ci u v found inum pos opened result released =>
      exact (result.narrow (hs.narrow.opened opened)).released released
  obtain ⟨ht,⟨-,he⟩ | ⟨-,i,o,ci,u,found,opened,hentry,he⟩⟩ := h.tidy hs.toTidy hs.named hc
  · exact hs.same ⟨ht,he⟩ hn
  · have ha : Allocated s i := hs.named _ _ _ _ hentry
    have hu := hs.opened opened ha
    have hlinks : ci.iNlink = (tree s).links i := by
      rw [hu.nlink (by rw [opened.icache,update_self]),(hs.toTidy.opened opened ha).2]
    have hlt : ci.iNlink - 1 < 2^16 := by
      have := hu.narrow i ci (by rw [opened.icache,update_self])
      omega
    refine ⟨ht,?_,hn⟩
    rw [he,Nat.mod_eq_of_lt hlt,hlinks]
    exact hs.counted.erase hentry

def Countable (s : Fs) (e : Event) : Prop :=
  match e.1 with
  | .create d name _ | .mkdir d name _ => ∀ c, s.icache d = some c → Behind s d c.iSize name
  | .link d src name => (∀ c, s.icache d = some c → Behind s d c.iSize name) ∧
    ∀ cs, s.icache src = some cs → cs.iNlink + 1 < 2^16
  | .write _ _ _ _ => False
  | _ => True

lemma Op.linked {op : Op} {p : Unit} (hs : Linked s) (hok : Countable s (op,[])) (h : op.run s = some (p,t)) :
    Linked t := by
  cases op with
  | root =>
    obtain ⟨r,h⟩ := run_some h
    obtain ⟨-,⟨e,-,hq,-⟩ | ⟨-,c,hop⟩⟩ := fsGetInode_some h
    · exact hs.quiet hq
    · exact hs.opened hop hs.root
  | lookup d name =>
    obtain ⟨c,r,hc,h⟩ := onInode_some h
    obtain ⟨-,⟨e,-,hq⟩ | ⟨i,o,ci,-,-,hmatch,hinum,hop⟩⟩ := sfsLookup_some hs.owned hc h
    · exact hs.quiet hq
    · exact hs.opened hop (hinum ▸ hs.named.named hs.toTidy hc o hmatch)
  | release i =>
    have hr := fsReleaseInode_some h
    exact hs.same (hs.toTidy.released hr) (hs.narrow.released hr)
  | create d name mode | mkdir d name mode =>
    obtain ⟨c,r,hc,h⟩ := onInode_some h
    exact (createInodeInDir_some hs.owned hc h).2.linked hs hc (hok c hc)
  | link d src name =>
    obtain ⟨c,r,hc,h⟩ := onInode_some h
    obtain ⟨cs,hcs⟩ : ∃ cs, s.icache src = some cs := by
      unfold sfsLink at h
      obtain ⟨cs,hcs,-⟩ := inode_bind.mp h
      exact ⟨cs,hcs⟩
    obtain ⟨-,hft,hres⟩ := sfsLink_some hs.owned hc hcs h
    exact hres.linked hs hc hcs hft (hok.1 c hc) (hok.2 cs hcs)
  | unlink d name | rmdir d name =>
    obtain ⟨c,r,hc,h⟩ := onInode_some h
    exact (unlinkInodeInDir_some hs.owned hc (hs.named.named hs.toTidy hc) h).2.linked hs hc
  | write i buf count ofs => exact absurd hok id

lemma step_linked {e : Event} (hs : Linked s) (hok : Countable s e) (h : step s e = some t) : Linked t := by
  obtain ⟨op,sup⟩ := e
  obtain ⟨⟨p,t'⟩,hrun,rfl⟩ := Option.map_eq_some_iff.mp h
  exact Op.linked (s := { s with supply := sup }) (hs.quiet ⟨rfl,rfl,rfl⟩) hok hrun

structure LinkLaws (s : Fs) : Prop where
  disk : ∀ i, Allocated s i → i ≠ sfsRootInum → (tree s).count i = nlinkOf s.disk i
  memory : ∀ i c, s.icache i = some c → c.iNlink = nlinkOf s.disk i
  named : ∀ d a nm i, (tree s).entries d a = some (nm,i) → Allocated s i
  asserted : ∀ d name sup cd i t c, s.icache d = some cd →
    sfsLookup d name { s with supply := sup } = some (.ok i,t) → t.icache i = some c → 0 < c.iNlink

lemma Linked.laws (hs : Linked s) : LinkLaws s where
  disk i ha hr := by rw [hs.counted.counts i ha hr,tree_links ha]
  memory i c hc := by rw [hs.nlink hc,tree_links (hs.owned.cached i c hc)]
  named := hs.named
  asserted d name sup cd i t c hcd h hc := by
    have hs' : Linked { s with supply := sup } := hs.quiet ⟨rfl,rfl,rfl⟩
    obtain ⟨-,⟨e,he,-⟩ | ⟨i',o,ci,he,hne,hmatch,hinum,hop⟩⟩ := sfsLookup_some hs'.owned hcd h
    · cases he
    · obtain rfl : i = i' := Except.ok.inj he
      have hcd' := hs'.coherent d cd hcd
      rw [hcd'.size] at hmatch
      have hentry := hmatch.entry (hs'.owned.cached d cd hcd) (hinum ▸ hne)
      rw [← hinum] at hentry
      have ha := hs'.named _ _ _ _ hentry
      rw [(hs'.opened hop ha).nlink hc,(hs'.toTidy.opened hop ha).2]
      exact hs'.counted.linked hentry

lemma freshFs_linked : Linked freshFs where
  toTidy := freshFs_tidy
  counted := by
    refine ⟨?_,fun d a k i h => ?_,fun i hi hr => absurd (freshFs_allocated.mp hi) hr⟩
    · simp [freshFs_entries]
    · rw [freshFs_entries] at h
      cases h
  narrow i c hc := nomatch hc

def unnamed (t : Fs) (i : Nat) : Bool :=
  (List.range (t.sb.sNumInodes + 1)).all fun d => !decide (Allocated t d) ||
    (List.range (direntsBelow (Sfs.sizeOf t.disk d))).all fun k => decide (direntInum (content t.disk d) (32 * k) ≠ i)

lemma count_unnamed (h : unnamed t i = true) : (tree t).count i = 0 := by
  have hempty : (tree t).Refers i = ∅ := Set.eq_empty_of_forall_notMem fun p ⟨nm,hp⟩ => by
    obtain ⟨ha,hrec⟩ := tree_some hp
    obtain ⟨hlt,-,hnum,-⟩ := records_some hrec
    have hd := List.all_eq_true.mp h p.1 (List.mem_range.mpr (Nat.lt_succ_of_le ha.2.1))
    simp only [ha,decide_true,Bool.not_true,Bool.false_or,List.all_eq_true,decide_eq_true_eq] at hd
    exact hd p.2 (List.mem_range.mpr (by simp only [direntsBelow,sizeofSfsDirent]; omega)) hnum
  rw [Tree.count,hempty,Set.ncard_empty]

def losingRun : List Event := reusingRun ++ [(.create 1 [99] 0,[])]

end MappedMemory.Sfs
