import MappedMemory.Sfs.Directories
import MappedMemory.Sfs.RoundTrip

namespace MappedMemory.Sfs

open Option (some_inj)
open Prod (mk_inj)

open Bytes Naming Slots Routine

variable {s t u : Fs} {i j d o a inum mode src : Nat} {c : Inode} {name : List Byte} {ft : Ftype}
  {r : Except SfsErr Unit}

def LooksUp (s : Fs) (d : Nat) (name : List Byte) (r : Option Nat) : Prop :=
  ∃ t, sfsLookup d name s.reliable = some (match r with | some i => .ok i | none => .error .notExist,t)

structure Filed (s : Fs) : Prop extends Tidy s where
  named : AllNamed s
  keyed : ∀ d, Keyed ((tree s).entries d)

section
variable (hs : Filed s)
include hs

lemma Filed.reliable : Filed s.reliable := by
  obtain ⟨ht,he⟩ := hs.toTidy.quiet (t := s.reliable) ⟨rfl,rfl,rfl⟩
  exact ⟨ht,hs.named,he ▸ hs.keyed⟩

lemma looksUp_iff {r : Option Nat} (hc : s.icache d = some c) (hn : Fits name) :
    LooksUp s d name r ↔ Answers ((tree s).entries d) name r := by
  have hr := hs.reliable
  obtain ⟨inum,u,hsearch,hq,hsup,hres⟩ := hr.toTidy.searchDir hc rfl hn
  change (_ ∧ Maps ((tree s).entries d) name inum) ∨ (_ ∧ ∀ i, ¬Maps ((tree s).entries d) name i) at hres
  unfold LooksUp
  rcases hres with ⟨hne,hmaps⟩ | ⟨rfl,hno⟩
  · obtain ⟨v,hget⟩ := fsGetInode_reads (i := inum) hsup
    have hval : sfsLookup d name s.reliable = some (.ok inum,v) := by
      rw [sfsLookup,bind_of_some hsearch,if_neg hne,bind_of_some hget]
      rfl
    rw [hval]
    cases r with
    | none =>
      refine ⟨?_,fun h => absurd hmaps (h inum)⟩
      rintro ⟨t,ht⟩
      simp at ht
    | some i =>
      constructor
      · rintro ⟨t,ht⟩
        simp only [some_inj,mk_inj,Except.ok.injEq] at ht
        exact ht.1 ▸ hmaps
      · intro h
        rw [(hs.keyed d).unique h hmaps]
        exact ⟨v,rfl⟩
  · have hval : sfsLookup d name s.reliable = some (.error .notExist,u) := by
      rw [sfsLookup,bind_of_some hsearch]
      rfl
    rw [hval]
    cases r with
    | none => exact ⟨fun _ => hno,fun _ => ⟨u,rfl⟩⟩
    | some i =>
      refine ⟨?_,fun h => absurd h (hno i)⟩
      rintro ⟨t,ht⟩
      simp at ht

lemma Filed.same (ht : Tidy t ∧ tree t = tree s) : Filed t := by
  refine ⟨ht.1,fun d a nm i h => ?_,ht.2 ▸ hs.keyed⟩
  rw [ht.2] at h
  have hi : i ∈ (tree s).live := hs.named d a nm i h
  rwa [← ht.2] at hi

lemma Filed.enter (ht : Tidy t) (hno : ∀ i, ¬Maps ((tree s).entries d) name i)
    (hi : Allocated t inum) (hal : ∀ j, Allocated s j → Allocated t j) (hfree : (tree s).entries d a = none)
    (he : (tree t).entries = ((tree s).setEntry d a (some (name,inum))).entries) :
    Filed t ∧ ∀ d' name' j, Maps ((tree t).entries d') name' j ↔
      (d' = d ∧ name' = name ∧ j = inum) ∨ Maps ((tree s).entries d') name' j := by
  have hmaps : ∀ d' name' j, Maps ((tree t).entries d') name' j ↔
      (d' = d ∧ name' = name ∧ j = inum) ∨ Maps ((tree s).entries d') name' j := fun d' name' j => by
    rw [he]
    exact Tree.maps_enter hfree
  refine ⟨⟨ht,fun d' a' nm j hj => ?_,fun d' => ?_⟩,hmaps⟩
  · rcases (hmaps d' nm j).mp ⟨a',hj⟩ with ⟨-,-,rfl⟩ | ⟨b,hb⟩
    · exact hi
    · exact hal j (hs.named d' b nm j hb)
  · rw [he]
    exact Tree.keyed_enter hs.keyed hno d'

lemma Filed.erase (ht : Tidy t) (hal : ∀ j, Allocated s j → Allocated t j)
    (ha : (tree s).entries d a = some (name,i)) (he : (tree t).entries = ((tree s).setEntry d a none).entries) :
    Filed t ∧ ∀ d' name' j, Maps ((tree t).entries d') name' j ↔
      Maps ((tree s).entries d') name' j ∧ ¬(d' = d ∧ name' = name) := by
  have hmaps : ∀ d' name' j, Maps ((tree t).entries d') name' j ↔
      Maps ((tree s).entries d') name' j ∧ ¬(d' = d ∧ name' = name) := fun d' name' j => by
    rw [he]
    exact Tree.maps_erase (hs.keyed d) ha
  refine ⟨⟨ht,fun d' a' nm j hj => ?_,fun d' => ?_⟩,hmaps⟩
  · obtain ⟨b,hb⟩ := ((hmaps d' nm j).mp ⟨a',hj⟩).1
    exact hal j (hs.named d' b nm j hb)
  · rw [he]
    exact Tree.keyed_erase hs.keyed d'

end

def Fitting (s : Fs) (e : Event) : Prop :=
  e.2 = [] ∧ match e.1 with
  | .create d name _ | .mkdir d name _ | .link d _ name =>
    Fits name ∧ ∀ c, s.icache d = some c → Behind s d c.iSize name
  | .lookup _ name | .unlink _ name | .rmdir _ name => Fits name
  | .root | .release _ => True
  | .write _ _ _ _ => False

def Op.target : Op → Option (Nat × List Byte)
  | .create d name _ | .mkdir d name _ | .link d _ name | .unlink d name | .rmdir d name => some (d,name)
  | _ => none

lemma create_exists (ft : Ftype) (mode : Nat) (hs : Tidy s) (hc : s.icache d = some c) (hsup : s.supply = []) (hn : Fits name)
    (hm : Maps ((tree s).entries d) name i) : ∃ t, createInodeInDir d ft name mode s = some (.error .exist,t) := by
  obtain ⟨found,u,hsearch,-,-,hres⟩ := hs.searchDir hc hsup hn
  have hne := (hres.resolve_right fun h => h.2 i hm).1
  refine ⟨u,?_⟩
  rw [createInodeInDir,bind_of_some hsearch,if_pos hne]
  rfl

lemma create_absent (hs : Tidy s) (hc : s.icache d = some c) (hsup : s.supply = []) (hn : Fits name)
    (h : createInodeInDir d ft name mode s = some (.ok (),t)) (i : Nat) : ¬Maps ((tree s).entries d) name i := fun hm => by
  obtain ⟨u,hu⟩ := create_exists ft mode hs hc hsup hn hm
  rw [hu] at h
  simp at h

lemma link_absent (hs : Tidy s) (hc : s.icache d = some c) (hsup : s.supply = []) (hn : Fits name)
    (h : sfsLink d src name s = some (.ok (),t)) (i : Nat) : ¬Maps ((tree s).entries d) name i := fun hm => by
  obtain ⟨found,u,hsearch,-,-,hres⟩ := hs.searchDir hc hsup hn
  have hne := (hres.resolve_right fun h => h.2 i hm).1
  rw [sfsLink,inode_bind] at h
  obtain ⟨cs,-,h⟩ := h
  rw [kassert_bind] at h
  replace h := h.2
  rw [bind_of_some hsearch,if_pos hne] at h
  exact nomatch (pure_some.mp h).1

section
variable (hs : Filed s) (hc : s.icache d = some c)
include hs hc

lemma create_filed (hsup : s.supply = []) (hn : Fits name)
    (hb : Behind s d c.iSize name) (h : createInodeInDir d ft name mode s = some (r,t)) :
    Filed t ∧ (((∃ e, r = .error e) ∧ tree t = tree s) ∨ r = .ok () ∧ ∃ inum, ¬Allocated s inum ∧ Allocated t inum ∧
      ∀ d' name' j, Maps ((tree t).entries d') name' j ↔
        (d' = d ∧ name' = name ∧ j = inum) ∨ Maps ((tree s).entries d') name' j) := by
  obtain ⟨ht,⟨hr,he⟩ | ⟨rfl,inum,a,hnew,hai,hfree,he⟩⟩ := (createInodeInDir_some hs.owned hc h).2.tidy hs.toTidy hc hb
  · exact ⟨hs.same ⟨ht,he⟩,.inl ⟨hr,he⟩⟩
  · rw [hn.stored] at he
    have hal : ∀ j, Allocated s j → Allocated t j := fun j hj => by
      have hmem : j ∈ (tree t).live := by
        rw [he]
        exact .inr hj
      exact hmem
    obtain ⟨hf,hmaps⟩ := hs.enter ht (create_absent hs.toTidy hc hsup hn h) hai hal hfree (by rw [he]; rfl)
    exact ⟨hf,.inr ⟨rfl,inum,hnew,hai,hmaps⟩⟩

lemma link_filed (hsup : s.supply = []) (hn : Fits name)
    (hb : Behind s d c.iSize name) (h : sfsLink d src name s = some (r,t)) :
    Filed t ∧ (((∃ e, r = .error e) ∧ tree t = tree s) ∨ r = .ok () ∧
      ∀ d' name' j, Maps ((tree t).entries d') name' j ↔
        (d' = d ∧ name' = name ∧ j = src) ∨ Maps ((tree s).entries d') name' j) := by
  obtain ⟨cs,hcs⟩ : ∃ cs, s.icache src = some cs := by
    unfold sfsLink at h
    obtain ⟨cs,hcs,-⟩ := inode_bind.mp h
    exact ⟨cs,hcs⟩
  obtain ⟨ht,⟨hr,he⟩ | ⟨rfl,a,hfree,he⟩⟩ := (sfsLink_some hs.owned hc hcs h).2.2.tidy hs.toTidy hc hcs hb
  · exact ⟨hs.same ⟨ht,he⟩,.inl ⟨hr,he⟩⟩
  · rw [hn.stored] at he
    have hal : ∀ j, Allocated s j → Allocated t j := fun j hj => by
      have hmem : j ∈ (tree t).live := by
        rw [he]
        exact hj
      exact hmem
    obtain ⟨hf,hmaps⟩ := hs.enter ht (link_absent hs.toTidy hc hsup hn h) (hal src (hs.owned.cached src cs hcs)) hal
      hfree (by rw [he]; rfl)
    exact ⟨hf,.inr ⟨rfl,hmaps⟩⟩

lemma unlink_filed (hn : Fits name) (h : unlinkInodeInDir d ft name s = some (r,t)) :
    Filed t ∧ (((∃ e, r = .error e) ∧ tree t = tree s) ∨ r = .ok () ∧
      ∀ d' name' j, Maps ((tree t).entries d') name' j ↔
        Maps ((tree s).entries d') name' j ∧ ¬(d' = d ∧ name' = name)) := by
  have hnamed : Named s d c.iSize name := hs.named.named hs.toTidy hc
  obtain ⟨ht,⟨hr,he⟩ | ⟨rfl,i,o,ci,u,found,opened,hentry,he⟩⟩ :=
    (unlinkInodeInDir_some hs.owned hc hnamed h).2.tidy hs.toTidy hs.named hc
  · exact ⟨hs.same ⟨ht,he⟩,.inl ⟨hr,he⟩⟩
  · rw [((matches_iff hn).mp found.found).2] at hentry
    have hal : ∀ j, Allocated s j → Allocated t j := fun j hj => by
      have hmem : j ∈ (tree t).live := by
        rw [he]
        exact hj
      exact hmem
    obtain ⟨hf,hmaps⟩ := hs.erase ht hal hentry (by rw [he]; rfl)
    exact ⟨hf,.inr ⟨rfl,hmaps⟩⟩

end

lemma Op.filed {op : Op} {p : Unit} (hs : Filed s) (hsup : s.supply = []) (hok : Fitting s (op,[]))
    (h : op.run s = some (p,t)) : Filed t ∧ ∀ d name j, op.target ≠ some (d,name) →
      (Maps ((tree t).entries d) name j ↔ Maps ((tree s).entries d) name j) := by
  have hsame : Tidy t ∧ tree t = tree s → Filed t ∧ ∀ d name j, op.target ≠ some (d,name) →
      (Maps ((tree t).entries d) name j ↔ Maps ((tree s).entries d) name j) := fun hts =>
    ⟨hs.same hts,fun d name j _ => by rw [hts.2]⟩
  cases op with
  | root =>
    obtain ⟨r,h⟩ := run_some h
    obtain ⟨-,⟨e,-,hq,-⟩ | ⟨-,c,hop⟩⟩ := fsGetInode_some h
    · exact hsame (hs.toTidy.quiet hq)
    · exact hsame (hs.toTidy.opened hop hs.root)
  | lookup d name =>
    obtain ⟨c,r,hc,h⟩ := onInode_some h
    obtain ⟨-,⟨e,-,hq⟩ | ⟨i,o,ci,-,-,hmatch,hinum,hop⟩⟩ := sfsLookup_some hs.owned hc h
    · exact hsame (hs.toTidy.quiet hq)
    · exact hsame (hs.toTidy.opened hop (hinum ▸ hs.named.named hs.toTidy hc o hmatch))
  | release i => exact hsame (hs.toTidy.released (fsReleaseInode_some h))
  | create d name mode | mkdir d name mode =>
    obtain ⟨c,r,hc,h⟩ := onInode_some h
    obtain ⟨hf,⟨-,he⟩ | ⟨-,inum,-,-,hmaps⟩⟩ := create_filed hs hc hsup hok.2.1 (hok.2.2 c hc) h
    · exact hsame ⟨hf.toTidy,he⟩
    · refine ⟨hf,fun d' name' j hne => ?_⟩
      rw [hmaps]
      exact or_iff_right fun hx => hne (by rw [hx.1,hx.2.1]; rfl)
  | link d src name =>
    obtain ⟨c,r,hc,h⟩ := onInode_some h
    obtain ⟨hf,⟨-,he⟩ | ⟨-,hmaps⟩⟩ := link_filed hs hc hsup hok.2.1 (hok.2.2 c hc) h
    · exact hsame ⟨hf.toTidy,he⟩
    · refine ⟨hf,fun d' name' j hne => ?_⟩
      rw [hmaps]
      exact or_iff_right fun hx => hne (by rw [hx.1,hx.2.1]; rfl)
  | unlink d name | rmdir d name =>
    obtain ⟨c,r,hc,h⟩ := onInode_some h
    obtain ⟨hf,⟨-,he⟩ | ⟨-,hmaps⟩⟩ := unlink_filed hs hc hok.2 h
    · exact hsame ⟨hf.toTidy,he⟩
    · refine ⟨hf,fun d' name' j hne => ?_⟩
      rw [hmaps]
      exact and_iff_left fun hx => hne (by rw [hx.1,hx.2]; rfl)
  | write i buf count ofs => exact absurd hok.2 id

lemma step_filed {e : Event} (hs : Filed s) (hok : Fitting s e) (h : step s e = some t) :
    Filed t ∧ ∀ d name j, e.1.target ≠ some (d,name) →
      (Maps ((tree t).entries d) name j ↔ Maps ((tree s).entries d) name j) := by
  obtain ⟨op,sup⟩ := e
  obtain rfl : sup = [] := hok.1
  obtain ⟨⟨p,t'⟩,hrun,rfl⟩ := Option.map_eq_some_iff.mp h
  exact Op.filed (s := s.reliable) hs.reliable rfl hok hrun

lemma freshFs_tidy : Tidy freshFs := by
  have hsize : Sfs.sizeOf freshFs.disk sfsRootInum = 0 := sizeOf_putInode
  refine ⟨freshFs_sound,ftypeOf_putInode,fun i c hc => (nomatch hc),fun d hd => ?_⟩
  obtain rfl := freshFs_allocated.mp hd
  exact ⟨by rw [hsize],fun y hy => absurd hy (by rw [hsize]; exact Nat.not_lt_zero y)⟩

lemma freshFs_entries : (tree freshFs).entries d a = none := by
  by_cases hd : Allocated freshFs d
  · obtain rfl := freshFs_allocated.mp hd
    have hsize : Sfs.sizeOf freshFs.disk sfsRootInum = 0 := sizeOf_putInode
    rw [tree_entries hd,dirRecords,hsize,records,if_neg fun h => absurd h.1 (Nat.not_lt_zero _)]
  · simp only [tree,if_neg hd]

lemma freshFs_filed : Filed freshFs where
  toTidy := freshFs_tidy
  named d a nm i h := by
    rw [freshFs_entries] at h
    cases h
  keyed d a b k v w h := by
    rw [freshFs_entries] at h
    cases h

structure NameLaws (s : Fs) : Prop where
  created : ∀ d name mode c t c', s.icache d = some c → Fitting s (.create d name mode,[]) →
    sfsCreate d name mode s.reliable = some (.ok (),t) → t.icache d = some c' →
      ∃ i, ¬Allocated s i ∧ Allocated t i ∧ LooksUp t d name (some i)
  made : ∀ d name mode c t c', s.icache d = some c → Fitting s (.mkdir d name mode,[]) →
    sfsMkdir d name mode s.reliable = some (.ok (),t) → t.icache d = some c' →
      ∃ i, ¬Allocated s i ∧ Allocated t i ∧ LooksUp t d name (some i)
  linked : ∀ d src name c t c', s.icache d = some c → Fitting s (.link d src name,[]) →
    sfsLink d src name s.reliable = some (.ok (),t) → t.icache d = some c' → LooksUp t d name (some src)
  unlinked : ∀ d name c t c', s.icache d = some c → Fits name →
    sfsUnlink d name s.reliable = some (.ok (),t) → t.icache d = some c' → LooksUp t d name none
  removed : ∀ d name c t c', s.icache d = some c → Fits name →
    sfsRmdir d name s.reliable = some (.ok (),t) → t.icache d = some c' → LooksUp t d name none
  refused : ∀ d name mode c i, s.icache d = some c → Fits name → LooksUp s d name (some i) →
    (∃ t, sfsCreate d name mode s.reliable = some (.error .exist,t)) ∧
      ∃ t, sfsMkdir d name mode s.reliable = some (.error .exist,t)
  others : ∀ e t d name r c c', s.icache d = some c → Fitting s e → step s e = some t → t.icache d = some c' →
    Fits name → e.1.target ≠ some (d,name) → (LooksUp t d name r ↔ LooksUp s d name r)
  distinct : ∀ d o o', Allocated s d → o % 32 = 0 → o' % 32 = 0 → o < Sfs.sizeOf s.disk d → o' < Sfs.sizeOf s.disk d →
    direntInum (content s.disk d) o ≠ 0 → direntInum (content s.disk d) o' ≠ 0 →
    strncmp (direntName (content s.disk d) o) (direntName (content s.disk d) o') sfsDirentNamelen = 0 → o = o'

lemma create_looksUp {c' : Inode} (hs : Filed s) (hc : s.icache d = some c) (hn : Fits name)
    (hb : Behind s d c.iSize name) (h : createInodeInDir d ft name mode s.reliable = some (.ok (),t))
    (hct : t.icache d = some c') : ∃ i, ¬Allocated s i ∧ Allocated t i ∧ LooksUp t d name (some i) := by
  obtain ⟨hf,⟨⟨e,he⟩,-⟩ | ⟨-,inum,hnew,hai,hmaps⟩⟩ := create_filed hs.reliable hc rfl hn hb h
  · cases he
  · exact ⟨inum,hnew,hai,(looksUp_iff hf hct hn).mpr ((hmaps d name inum).mpr (.inl ⟨rfl,rfl,rfl⟩))⟩

lemma unlink_looksUp {c' : Inode} (hs : Filed s) (hc : s.icache d = some c) (hn : Fits name)
    (h : unlinkInodeInDir d ft name s.reliable = some (.ok (),t)) (hct : t.icache d = some c') :
    LooksUp t d name none := by
  obtain ⟨hf,⟨⟨e,he⟩,-⟩ | ⟨-,hmaps⟩⟩ := unlink_filed hs.reliable hc hn h
  · cases he
  · exact (looksUp_iff hf hct hn).mpr fun i hi => ((hmaps d name i).mp hi).2 ⟨rfl,rfl⟩

lemma recName_of_strncmp {m : Memory} {o' : Nat}
    (h : strncmp (direntName m o) (direntName m o') sfsDirentNamelen = 0) : recName m o = recName m o' :=
  beforeNul_range fun j hj hl => strncmpFrom_eq_zero.mp h j (Nat.zero_le _) (by omega) fun l _ => hl l

lemma Filed.laws (hs : Filed s) : NameLaws s where
  created d name mode c t c' hc hok h hct := create_looksUp hs hc hok.2.1 (hok.2.2 c hc) h hct
  made d name mode c t c' hc hok h hct := create_looksUp hs hc hok.2.1 (hok.2.2 c hc) h hct
  linked d src name c t c' hc hok h hct := by
    obtain ⟨hf,⟨⟨e,he⟩,-⟩ | ⟨-,hmaps⟩⟩ := link_filed hs.reliable hc rfl hok.2.1 (hok.2.2 c hc) h
    · cases he
    · exact (looksUp_iff hf hct hok.2.1).mpr ((hmaps d name src).mpr (.inl ⟨rfl,rfl,rfl⟩))
  unlinked d name c t c' hc hn h hct := unlink_looksUp hs hc hn h hct
  removed d name c t c' hc hn h hct := unlink_looksUp hs hc hn h hct
  refused d name mode c i hc hn h := by
    have hm := (looksUp_iff hs hc hn).mp h
    exact ⟨create_exists _ _ hs.reliable.toTidy hc rfl hn hm,create_exists _ _ hs.reliable.toTidy hc rfl hn hm⟩
  others e t d name r c c' hc hok h hct hn hne := by
    obtain ⟨hf,hmaps⟩ := step_filed hs hok h
    rw [looksUp_iff hf hct hn,looksUp_iff hs hc hn]
    exact answers_congr (fun j => hmaps d name j hne) r
  distinct d o o' hd ho ho' hlt hlt' hne hne' hcmp := by
    have h1 := records_at ho hlt hne
    have h2 := records_at ho' hlt' hne'
    have hk := hs.keyed d
    rw [tree_entries hd] at hk
    rw [recName_of_strncmp hcmp] at h1
    have := hk _ _ _ _ _ h1 h2
    omega

lemma content_fresh (x : Nat) : content Mkfs.freshDisk sfsRootInum x = 0 := by
  have hz : blkAt Mkfs.freshDisk sfsRootInum (x / bdevBlkSize) = 0 := by
    unfold blkAt
    split
    · rename_i hm
      exact freshFs_slot (by rw [dataSlot_inum]; exact freshFs_allocated.mpr rfl) (dataSlot_bounded hm)
    · rfl
  rw [content,if_pos hz]

lemma creatingRun_fitting : Run.Along Fitting step creatingRun freshFs := by
  refine ⟨⟨rfl,trivial⟩,fun u hu => ⟨⟨rfl,⟨by decide,by decide⟩,fun c hc o hfree _ => ?_⟩,fun _ _ => trivial⟩⟩
  rw [step_root,some_inj] at hu
  subst hu
  cases hc
  have hsize : (loaded Mkfs.freshDisk sfsRootInum).iSize = 0 := sizeOf_putInode
  rw [hsize] at hfree
  have ho : o = 0 := by
    by_contra hne
    exact absurd (hfree.before 0 (Nat.pos_of_ne_zero hne) rfl).1 (Nat.lt_irrefl 0)
  subst ho
  exact content_fresh _

def reusingRun : List Event :=
  [.root,.create 1 [97] 0,.create 1 [98] 0,.unlink 1 [97]].map (·,[])

def longName : List Byte := List.replicate 28 97

def lookupIn (t : Fs) (name : List Byte) : Option (Except SfsErr Nat) := (sfsLookup 1 name t.reliable).map Prod.fst

lemma lookupIn_none (h : lookupIn t name = some (.error .notExist)) : LooksUp t 1 name none := by
  obtain ⟨⟨r,u⟩,hu,rfl⟩ := Option.map_eq_some_iff.mp h
  exact ⟨u,hu⟩

lemma lookupIn_some (h : lookupIn t name = some (.ok i)) : LooksUp t 1 name (some i) := by
  obtain ⟨⟨r,u⟩,hu,rfl⟩ := Option.map_eq_some_iff.mp h
  exact ⟨u,hu⟩

end MappedMemory.Sfs
