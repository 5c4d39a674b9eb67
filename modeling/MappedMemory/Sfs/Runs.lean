import MappedMemory.Library.Run
import MappedMemory.Sfs.Effects
import MappedMemory.Sfs.Mkfs

namespace MappedMemory.Sfs

open Bytes Routine

inductive Op where
  | root
  | lookup (d : Nat) (name : List Byte)
  | release (i : Nat)
  | create (d : Nat) (name : List Byte) (mode : Nat)
  | mkdir (d : Nat) (name : List Byte) (mode : Nat)
  | link (d src : Nat) (name : List Byte)
  | unlink (d : Nat) (name : List Byte)
  | rmdir (d : Nat) (name : List Byte)
  | write (i : Nat) (buf : Memory) (count ofs : Nat)

def onInode {α : Type} (i : Nat) (x : FsM α) : FsM Unit := do
  let _ ← inode i
  let _ ← x

def Op.run : Op → FsM Unit
  | .root => do let _ ← fsGetInode sfsRootInum
  | .lookup d name => onInode d (sfsLookup d name)
  | .release i => fsReleaseInode i
  | .create d name mode => onInode d (sfsCreate d name mode)
  | .mkdir d name mode => onInode d (sfsMkdir d name mode)
  | .link d src name => onInode d (sfsLink d src name)
  | .unlink d name => onInode d (sfsUnlink d name)
  | .rmdir d name => onInode d (sfsRmdir d name)
  | .write i buf count ofs => onInode i (sfsWrite i buf count ofs)

abbrev Event := Op × List Bool

def step (s : Fs) (e : Event) : Option Fs := (e.1.run { s with supply := e.2 }).map Prod.snd

variable {s t u v : Fs} {i j k d o size inum mode src : Nat} {c : Inode} {name : List Byte} {ft : Ftype}
  {r : Except SfsErr Unit} {α : Type} {x : FsM α} {p : Unit}

lemma run_some {r : Unit × Fs} (h : (do let _ ← x) s = some r) : ∃ a, x s = some (a,r.2) := by
  obtain ⟨_,t⟩ := r
  obtain ⟨a,u,hx,h⟩ := bind_some.mp h
  cases h
  exact ⟨a,hx⟩

lemma onInode_some (h : onInode i x s = some (p,t)) : ∃ c a, s.icache i = some c ∧ x s = some (a,t) := by
  unfold onInode at h
  obtain ⟨c,hc,h⟩ := inode_bind.mp h
  obtain ⟨a,hx⟩ := run_some h
  exact ⟨c,a,hc,hx⟩

lemma NewInode.clear (h : NewInode s t inum ft mode) (hs : Owned s) (hd : Allocated s d)
    (hclear : Clear s d size name) : Clear t d size name := by
  have hne : d ≠ inum := fun he => h.not_allocated (he ▸ hd)
  have hcon : content t.disk d = content s.disk d := by
    funext x
    exact h.change.content hs hd hne
  have hblk : ∀ idx, blkAt t.disk d idx = blkAt s.disk d idx := fun idx =>
    blkAt_of_slots fun p hp hb => h.change.slotVal hs (by rwa [hp]) (by rwa [hp]) hb
  intro o hfree hsp j k hj h1 h2 hjk
  rw [hcon] at hfree
  have hused := hs.used_blkAt hd (hfree.present (p := o) (by have := hsp.1; omega) (le_refl _))
  rw [hblk] at hjk ⊢
  by_cases hji : j = inum
  · subst hji
    rw [h.addrOf h2] at hjk
    exact absurd hjk (by omega)
  · have hjs := (h.change.allocated hji).mp hj
    rw [h.change.addrOf hjs.1 hji h2] at hjk
    rw [h.change.data (dataAt_le (Nat.le_succ_of_le hused.1))]
    exact hclear o hfree hsp j k hjs h1 h2 hjk

lemma Added.allocated {w : Fs} {c1 : Inode} (h : Added d inum name c s t o u w c1) (hs : Owned s) :
    Allocated t j ↔ Allocated s j := by
  have hext := (hs.grow h.grow).2
  have hk := h.resized.kept
  by_cases hsp : Spills o name
  · obtain ⟨x,hx,hlow,-,hsb,-,hd⟩ := h.spilled hs hsp
    obtain ⟨-,hw,ha⟩ := h.owned_resized hs
    have hused := hw.used_blkAt ha h.blk
    have hl : LowSame x t := ⟨hsb,fun y hy => by
      have := dataAt_le (Nat.le_succ_of_le hused.1)
      rw [hx.sb] at hy
      rw [hd]
      exact poke_other (by omega)⟩
    rw [hl.allocated,hx.allocated,hk.allocated,hext.allocated]
  · rw [(h.wrote hs hsp).allocated,hk.allocated,hext.allocated]

lemma Relinked.allocated {n : Nat} (hs : Owned s) (h : Relinked s t i n) (j : Nat) :
    Allocated t j ↔ Allocated s j := by
  obtain ⟨c,hc,-,-⟩ := h.inode
  have hset := hs.setInode hc (d := { c with iNlink := n, dirty := true }) rfl
  exact ((h.written hc).kept hset (Function.update_self i _ s.icache)).allocated j

lemma Quiet.allocated (h : Quiet s t) (j : Nat) : Allocated t j ↔ Allocated s j := by
  rw [Allocated,Allocated,h.sb,h.disk]

structure Sound (s : Fs) : Prop where
  owned : Owned s
  root : Allocated s sfsRootInum

lemma CreateResult.sound (hs : Sound s) (hc : s.icache d = some c) (hclear : Clear s d c.iSize name)
    (h : CreateResult d ft name mode c s t r) : Sound t := by
  have hd := hs.owned.cached d c hc
  cases h with
  | refused e quiet => exact ⟨hs.owned.quiet quiet,(quiet.allocated _).mpr hs.root⟩
  | undone e inum u v new grow freed =>
    have hu := new.owned hs.owned
    have hne : ∀ j, Allocated s j → j ≠ inum := fun j hj he => new.not_allocated (he ▸ hj)
    obtain ⟨hv,hext⟩ := hu.grow grow
    have hau : ∀ j, Allocated s j → Allocated u j := fun j hj => (new.change.allocated (hne j hj)).mpr hj
    have hai : Allocated u inum := ⟨new.lower,by rw [new.sb]; exact new.upper,new.bit_new⟩
    have hupper : inum ≤ v.sb.sNumInodes := by rw [hext.sb,new.sb]; exact new.upper
    have hnc : v.icache inum = none := by
      rw [hext.icache inum (hne d hd).symm,new.icache]
      exact new.not_cached hs.owned
    have hz : ∀ k, k < 14 → addrOf v.disk inum k = 0 := fun k hk => by
      have := hext.others (.addr inum k) hai hk (hne d hd).symm
      exact this.trans (new.addrOf hk)
    refine ⟨freed.owned hv new.lower hupper hnc hz,?_⟩
    exact ((freed.change new.lower hupper).allocated (hne _ hs.root)).mpr ((hext.allocated _).mpr (hau _ hs.root))
  | done inum o u v w c1 new added =>
    have hu := new.owned hs.owned
    have hne : sfsRootInum ≠ inum := fun he => new.not_allocated (he ▸ hs.root)
    exact ⟨added.owned hu (new.clear hs.owned hd hclear),
      (added.allocated hu).mpr ((new.change.allocated hne).mpr hs.root)⟩

lemma LinkResult.sound {cs : Inode} (hs : Sound s) (hclear : Clear s d c.iSize name)
    (h : LinkResult d src name c cs s t r) : Sound t := by
  cases h with
  | refused e quiet => exact ⟨hs.owned.quiet quiet,(quiet.allocated _).mpr hs.root⟩
  | grown e grow =>
    obtain ⟨ht,hext⟩ := hs.owned.grow grow
    exact ⟨ht,(hext.allocated _).mpr hs.root⟩
  | done o u v w c1 added relinked =>
    have hu := added.owned hs.owned hclear
    exact ⟨hu.relinked relinked,(relinked.allocated hu _).mpr ((added.allocated hs.owned).mpr hs.root)⟩

lemma Opened.sound {ci : Inode} (hs : Sound s) (h : Opened s t i ci) (ha : Allocated s i) : Sound t := by
  refine ⟨hs.owned.opened h ha,?_⟩
  rw [Allocated,h.sb,h.disk]
  exact hs.root

lemma Released.sound (hs : Sound s) (h : Released s t i) : Sound t := by
  refine ⟨hs.owned.released h,?_⟩
  rw [Allocated,h.sb,h.disk]
  exact hs.root

def Named (s : Fs) (d size : Nat) (name : List Byte) : Prop :=
  ∀ o, FirstMatch (content s.disk d) size name o → Allocated s (direntInum (content s.disk d) o)

lemma FoundResult.sound (hs : Sound s) (hd : Allocated s d) (h : FoundResult d ft name size i s t r) : Sound t := by
  cases h with
  | refused e quiet => exact ⟨hs.owned.quiet quiet,(quiet.allocated _).mpr hs.root⟩
  | done c o u cached links ftype empty removed relinked =>
    have hw := removed.wrote hs.owned hd
    exact ⟨hw.owned.relinked relinked,(relinked.allocated hw.owned _).mpr ((hw.allocated _).mpr hs.root)⟩

lemma UnlinkResult.sound (hs : Sound s) (hc : s.icache d = some c) (hnamed : Named s d c.iSize name)
    (h : UnlinkResult d ft name c s t r) : Sound t := by
  have hd := hs.owned.cached d c hc
  cases h with
  | refused e quiet => exact ⟨hs.owned.quiet quiet,(quiet.allocated _).mpr hs.root⟩
  | leaked e i o ci found inum pos opened => exact opened.sound hs (inum ▸ hnamed o found)
  | closed r i o ci u v found inum pos opened result released =>
    have hu := opened.sound hs (inum ▸ hnamed o found)
    have hdu : Allocated u d := by rwa [Allocated,opened.sb,opened.disk]
    exact released.sound (result.sound hu hdu)

def Careful (s : Fs) (e : Event) : Prop :=
  match e.1 with
  | .create d name _ | .mkdir d name _ | .link d _ name => ∀ c, s.icache d = some c → Clear s d c.iSize name
  | .lookup d name | .unlink d name | .rmdir d name => ∀ c, s.icache d = some c → Named s d c.iSize name
  | _ => True

lemma Sound.supplied (hs : Sound s) (sup : List Bool) : Sound { s with supply := sup } :=
  ⟨hs.owned.quiet ⟨rfl,rfl,rfl⟩,hs.root⟩

lemma Op.sound {op : Op} (hs : Sound s) (hok : Careful s (op,[])) (h : op.run s = some (p,t)) : Sound t := by
  cases op with
  | root =>
    obtain ⟨r,h⟩ := run_some h
    obtain ⟨-,⟨e,-,hq,-⟩ | ⟨-,c,hop⟩⟩ := fsGetInode_some h
    · exact ⟨hs.owned.quiet hq,(hq.allocated _).mpr hs.root⟩
    · exact hop.sound hs hs.root
  | lookup d name =>
    obtain ⟨c,r,hc,h⟩ := onInode_some h
    obtain ⟨-,⟨e,-,hq⟩ | ⟨i,o,ci,-,-,hmatch,hinum,hop⟩⟩ := sfsLookup_some hs.owned hc h
    · exact ⟨hs.owned.quiet hq,(hq.allocated _).mpr hs.root⟩
    · exact hop.sound hs (hinum ▸ hok c hc o hmatch)
  | release i => exact (fsReleaseInode_some h).sound hs
  | create d name mode | mkdir d name mode =>
    obtain ⟨c,r,hc,h⟩ := onInode_some h
    exact (createInodeInDir_some hs.owned hc h).2.sound hs hc (hok c hc)
  | link d src name =>
    obtain ⟨c,r,hc,h⟩ := onInode_some h
    obtain ⟨cs,hcs⟩ : ∃ cs, s.icache src = some cs := by
      unfold sfsLink at h
      obtain ⟨cs,hcs,-⟩ := inode_bind.mp h
      exact ⟨cs,hcs⟩
    exact (sfsLink_some hs.owned hc hcs h).2.2.sound hs (hok c hc)
  | unlink d name | rmdir d name =>
    obtain ⟨c,r,hc,h⟩ := onInode_some h
    exact (unlinkInodeInDir_some hs.owned hc (hok c hc) h).2.sound hs hc (hok c hc)
  | write i buf count ofs =>
    obtain ⟨c,r,hc,h⟩ := onInode_some h
    unfold sfsWrite at h
    obtain ⟨n,u,hw,h⟩ := bind_some.mp h
    cases h
    obtain ⟨-,-,ht,u,-,-,hwrote,hk,-⟩ := writeData_some hs.owned hc hw
    exact ⟨ht,(hk.allocated _).mpr ((hwrote.allocated _).mpr hs.root)⟩

lemma step_sound {e : Event} (hs : Sound s) (hok : Careful s e) (h : step s e = some t) : Sound t := by
  obtain ⟨op,sup⟩ := e
  obtain ⟨⟨p,t'⟩,hrun,rfl⟩ := Option.map_eq_some_iff.mp h
  exact Op.sound (hs.supplied sup) hok hrun

lemma freshFs_sound : Sound freshFs := ⟨freshFs_owned,freshFs_allocated.mpr rfl⟩

lemma clear_empty : Clear s d 0 name := fun o hfree hsp => by
  have hz : o = 0 := by
    by_contra hne
    exact absurd (hfree.before 0 (Nat.pos_of_ne_zero hne) rfl).1 (Nat.lt_irrefl 0)
  exact absurd hsp.1 (by rw [hz]; decide)

def rootFs : Fs :=
  { freshFs with icache := Function.update freshFs.icache sfsRootInum (some (loaded Mkfs.freshDisk sfsRootInum)) }

lemma step_root : step freshFs (.root,[]) = some rootFs := rfl

def creatingRun : List Event := [(.root,[]),(.create 1 [97] 0,[])]

lemma creatingRun_careful : Run.Along Careful step creatingRun freshFs := by
  refine ⟨trivial,fun u hu => ⟨fun c hc => ?_,fun _ _ => trivial⟩⟩
  rw [step_root,Option.some_inj] at hu
  subst hu
  cases hc
  have hsize : (loaded Mkfs.freshDisk sfsRootInum).iSize = 0 := sizeOf_putInode
  rw [hsize]
  exact clear_empty

def spillingRun : List Event :=
  [.root,.create 1 [97] 0,.lookup 1 [97],.write 2 (fun _ => 0) 6144 0,.mkdir 1 [100] 0,.lookup 1 [100],
    .create 3 [98] 0,.write 2 (fun _ => 0) 1 6144].map (·,[]) ++
  (List.range 15).map fun k => (.create 3 [99,BitVec.ofNat 8 (k + 65)] 0,[])

end MappedMemory.Sfs
