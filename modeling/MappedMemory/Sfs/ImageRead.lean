import MappedMemory.Sfs.ImageFiles
import MappedMemory.Sfs.Directories
import MappedMemory.Sfs.RoundTrip

namespace MappedMemory.Sfs

open Bytes

def sfsSuperBlk : Nat := 2

structure SfsSb where
  sSize : Nat
  sNumInodes : Nat
  sDataBmapStart : Nat
  sJournalStart : Nat
  sDataStart : Nat
deriving DecidableEq, Repr

def sfsGetSb (m : Memory) : SfsSb where
  sSize := word m (bdevBlkSize * sfsSuperBlk) 4
  sNumInodes := word m (bdevBlkSize * sfsSuperBlk + 4) 4
  sDataBmapStart := word m (bdevBlkSize * sfsSuperBlk + 8) 4
  sJournalStart := word m (bdevBlkSize * sfsSuperBlk + 12) 4
  sDataStart := word m (bdevBlkSize * sfsSuperBlk + 16) 4

def SbInfo.fields (g : SbInfo) : SfsSb := ⟨g.sSize,g.sNumInodes,g.sDataBmapStart,g.sJournalStart,g.sDataStart⟩

end MappedMemory.Sfs

namespace MappedMemory.Mkfs

open Bytes Routine Sfs Slots

variable {img : Image} {m : Memory} {j k : Nat} {root : SfsInode} {files rest : List HostFile} {g : HostFile}

lemma format_written : Written [] (newInode .dir) ⟨freshDisk,freshBmap⟩ := by
  have hput : (newInode .dir).put freshDisk rootInum = freshDisk := put_put
  have hrow : inodeAddr rootInum = 2048 := by decide
  refine ⟨⟨.id,?_,0,Nat.zero_le _,fun k _ => ?_⟩,fun k hk => ?_,fun k hk => ?_,fun j hj => ?_,⟨fun _ => 0,rfl⟩,
    fun k g hk => ?_,fun z hz => absurd hz (Nat.not_lt_zero z),fun k g hk => ?_⟩
  · have hload := freshFs_owned.load (c := (newInode .dir).loaded) (freshFs_allocated.mpr rfl) fun k hk =>
      (freshDisk_addrOf hk).symm
    exact Owned.shrink hload rfl hput fun i c hc => hc
  · rw [freshDisk_dataBit]
    simp
  · change freshDisk (1024 + k) = superBlock k
    rw [freshDisk,SfsInode.put,putInode_outside (.inl (by rw [hrow]; omega)),
      fill_outside (.inl (by simp only [inodeBmapBlk,bdevBlkSize]; omega)),show bdevBlkSize * sbBlk = 1024 from rfl,
      fill_inside (Nat.le_add_right _ _) (by simp only [bdevBlkSize]; omega),Nat.add_sub_cancel_left]
  · change freshDisk (1536 + k) = freshBmap k
    rw [freshDisk,SfsInode.put,putInode_outside (.inl (by rw [hrow]; omega)),
      show bdevBlkSize * inodeBmapBlk = 1536 from rfl,
      fill_inside (Nat.le_add_right _ _) (by simp only [bdevBlkSize]; omega),Nat.add_sub_cancel_left]
  · have hz : bit (fun _ => (0 : Byte)) 0 j = false := by simp [bit]
    rw [freshBmap,bit_setBit,hz,Bool.or_false]
    exact decide_eq_decide.mpr (by simp)
  · simp at hk
  · simp at hk

lemma addFiles_written (rest : List HostFile) (h : Written files root img) (hlen : files.length + rest.length ≤ 255)
    (hmax : ∀ g ∈ rest, g.bytes.length ≤ maxFileSize) :
    ∃ root' img', rest.foldlM addFile root img = some (root',img') ∧ Written (files ++ rest) root' img' := by
  induction rest generalizing files root img with
  | nil => exact ⟨root,img,rfl,by rwa [List.append_nil]⟩
  | cons g rest ih =>
    rw [List.length_cons] at hlen
    obtain ⟨root1,img1,hrun,hw⟩ := addFile_written h (by omega) (hmax g List.mem_cons_self)
    obtain ⟨root',img',hrest,hw'⟩ := ih hw (by rw [List.length_append,List.length_singleton]; omega)
      fun g' hg' => hmax g' (List.mem_cons_of_mem g hg')
    refine ⟨root',img',?_,by rwa [List.append_assoc,List.singleton_append] at hw'⟩
    rw [List.foldlM_cons,bind_of_some hrun,hrest]

lemma mkfs_written (hlen : files.length ≤ 255) (hmax : ∀ g ∈ files, g.bytes.length ≤ maxFileSize) :
    ∃ root img, mkfs files = some (rootView root img.fs).disk ∧ Written files root img := by
  obtain ⟨root,img,hrun,hw⟩ := addFiles_written files format_written (by simpa using hlen) hmax
  refine ⟨root,img,?_,hw⟩
  have hmain : main files blank = some ((),{ img with fs := root.put img.fs rootInum }) := by
    rw [main,bind_of_some format_blank,bind_of_some hrun]
    exact writeInode_eq rootInum root
  rw [mkfs,hmain]
  rfl

lemma Written.sfsGetSb (h : Written files root img) : sfsGetSb (rootView root img.fs).disk = mkfsSb.fields := by
  have hword : ∀ a v, a + 4 ≤ 20 → (∀ x, x < 4 → superBlock (a + x) = byteOf v x) → v < 2^32 →
      word (rootView root img.fs).disk (1024 + a) 4 = v := fun a v ha hb hv => by
    have hw : word (rootView root img.fs).disk (1024 + a) 4 = v % 256^4 := word_of_bytes fun x hx => by
      rw [← hb x hx,← h.super _ (by omega),← Nat.add_assoc]
      exact putInode_outside (.inl (by rw [show inodeAddr rootInum = 2048 by decide]; omega))
    rw [hw]
    exact Nat.mod_eq_of_lt hv
  have h0 := hword 0 fsSize (by omega) (by decide) (by decide)
  have h1 := hword 4 maxInodes (by omega) (by decide) (by decide)
  have h2 := hword 8 bmapStartBlk (by omega) (by decide) (by decide)
  have h3 := hword 12 journalStartBlk (by omega) (by decide) (by decide)
  have h4 := hword 16 dataStartBlk (by omega) (by decide) (by decide)
  simp only [Sfs.sfsGetSb,show bdevBlkSize * sfsSuperBlk = 1024 from rfl,SbInfo.fields,mkfsSb]
  rw [h1,h2,h3,h4]
  exact congrArg (fun n => SfsSb.mk n _ _ _ _) h0

lemma Written.records (h : Written files root img) (hlen : files.length ≤ 255) (hn : ∀ g ∈ files, Fits g.basename) :
    records (content (rootView root img.fs).disk rootInum) (32 * files.length) k =
      (files[k]?).map fun g => (g.basename,k + 2) := by
  cases hk : files[k]? with
  | none =>
    have := List.getElem?_eq_none_iff.mp hk
    rw [Sfs.records,if_neg (by omega)]
    rfl
  | some g =>
    obtain ⟨hlt,-⟩ := List.getElem?_eq_some_iff.mp hk
    have hfit := hn g (List.mem_of_getElem? hk)
    have hrec := h.entries k g hk
    have hnum : direntInum (content (rootView root img.fs).disk rootInum) (32 * k) = k + 2 := by
      have hw : direntInum (content (rootView root img.fs).disk rootInum) (32 * k) = (k + 2) % 256^4 :=
        word_of_bytes fun x hx => by rw [hrec x (by omega),direntBytes,if_pos hx]
      rw [hw]
      exact Nat.mod_eq_of_lt (by omega)
    have hname : recName (content (rootView root img.fs).disk rootInum) (32 * k) = g.basename := by
      have hbytes : ∀ x, x < 32 → content (rootView root img.fs).disk rootInum (32 * k + x) =
          direntBytes (k + 2) (beforeNul g.basename) x := fun x hx => by rw [hrec x hx,beforeNul_self hfit.no_nul]
      rw [recName_direntBytes hbytes,hfit.stored]
    rw [Sfs.records,if_pos ⟨by omega,by rw [hnum]; omega⟩,hnum,hname]
    rfl

def ReadsAs (t : Fs) (i : Nat) (bytes : List Byte) : Prop :=
  ∀ dst n a, ∃ dst', readData i dst n a t = some ((min n (bytes.length - a),dst'),t) ∧
    ∀ z, z < min n (bytes.length - a) → dst' z = bytes.getD (a + z) 0

lemma HasFile.reads {t : Fs} {i : Nat} {c : Inode} (h : HasFile t.disk i g) (ht : Owned t) (hsup : t.supply = [])
    (hc : t.icache i = some c) (hsize : c.iSize = Sfs.sizeOf t.disk i) : ReadsAs t i g.bytes := by
  have hrel : t.reliable = t := by rw [Fs.reliable,← hsup]
  have hlen : c.iSize = g.bytes.length := hsize.trans h.size
  intro dst n a
  obtain ⟨dst',hread,hbytes⟩ := readData_content dst n a ht hc fun y hy => h.mapped y (hlen ▸ hy)
  rw [hrel,hlen] at hread
  rw [hlen] at hbytes
  exact ⟨dst',hread,fun z hz => by rw [hbytes z hz,h.bytes _ (by omega)]⟩

lemma Written.keyed (h : Written files root img) (hlen : files.length ≤ 255) (hn : ∀ g ∈ files, Fits g.basename)
    (hnd : (files.map HostFile.basename).Nodup) :
    Keyed (Sfs.records (content (rootView root img.fs).disk rootInum) (32 * files.length)) := by
  intro a b nm i j ha hb
  rw [h.records hlen hn,Option.map_eq_some_iff] at ha hb
  obtain ⟨f,hf,hfe⟩ := ha
  obtain ⟨g,hg,hge⟩ := hb
  simp only [Prod.mk.injEq] at hfe hge
  obtain ⟨hlt,rfl⟩ := List.getElem?_eq_some_iff.mp hf
  obtain ⟨hlt',rfl⟩ := List.getElem?_eq_some_iff.mp hg
  have ha : a < (files.map HostFile.basename).length := by simpa using hlt
  have hb : b < (files.map HostFile.basename).length := by simpa using hlt'
  have he : (files.map HostFile.basename)[a] = (files.map HostFile.basename)[b] := by
    rw [List.getElem_map,List.getElem_map,hfe.1,hge.1]
  exact hnd.getElem_inj_iff.mp he

lemma Written.mounted (h : Written files root img) (hlen : files.length ≤ 255) (i : Nat) :
    Allocated (mount mkfsSb (rootView root img.fs).disk) i ↔ 1 ≤ i ∧ i ≤ files.length + 1 := by
  rw [← h.allocated hlen,Allocated,Allocated]
  rfl

lemma fsGetInode_fresh {F : Fs} {i : Nat} (hsup : F.supply = []) (hic : F.icache i = none) :
    ∃ s, fsGetInode i F = some (.ok (),s) ∧ s.supply = [] ∧ Opened F s i (loaded F.disk i) := by
  obtain ⟨s,hget⟩ := fsGetInode_reads (i := i) hsup
  obtain ⟨hset,⟨e,he,-⟩ | ⟨-,c,hop⟩⟩ := fsGetInode_some hget
  · cases he
  obtain ⟨d,hd,-⟩ | ⟨-,rfl⟩ := hop.origin
  · cases hic.symm.trans hd
  · exact ⟨s,hget,List.subset_nil.mp (hsup ▸ hset.supply),hop⟩

lemma Written.lookup (h : Written files root img) (hlen : files.length ≤ 255) (hn : ∀ g ∈ files, Fits g.basename)
    (hnd : (files.map HostFile.basename).Nodup) (hk : files[k]? = some g) :
    ∃ s t c, fsGetInode sfsRootInum (mount mkfsSb (rootView root img.fs).disk) = some (.ok (),s) ∧
      sfsLookup sfsRootInum g.basename s = some (.ok (k + 2),t) ∧ t.icache (k + 2) = some c ∧
      c.iFtype = .file ∧ c.iNlink = 1 ∧ ReadsAs t (k + 2) g.bytes := by
  obtain ⟨F,hF⟩ : ∃ F, F = mount mkfsSb (rootView root img.fs).disk := ⟨_,rfl⟩
  have hdisk : F.disk = (rootView root img.fs).disk := by rw [hF]; rfl
  have hic : ∀ i, F.icache i = none := fun i => by rw [hF]; rfl
  have hsup : F.supply = [] := by rw [hF]; rfl
  have hown : Owned F := by
    rw [hF]
    exact Owned.shrink h.ready.owned rfl rfl fun i c hc => nomatch hc
  have hal : ∀ i, Allocated F i ↔ 1 ≤ i ∧ i ≤ files.length + 1 := hF ▸ h.mounted hlen
  obtain ⟨hlt,-⟩ := List.getElem?_eq_some_iff.mp hk
  have hsize : Sfs.sizeOf F.disk sfsRootInum = 32 * files.length := by
    obtain ⟨ad,hroot⟩ := h.root_fields
    have hroot' : root.iSize = 32 * files.length := by rw [hroot]
    have hput : Sfs.sizeOf (root.put img.fs rootInum) rootInum = root.iSize % 2^32 := sizeOf_putInode
    rw [hroot',Nat.mod_eq_of_lt (by omega)] at hput
    rw [hdisk]
    exact hput
  rw [← hF]
  obtain ⟨s,hget,hsupS,hop⟩ := fsGetInode_fresh hsup (hic sfsRootInum)
  have hs : Owned s := hown.opened hop ((hal _).mpr ⟨by decide,by simp only [sfsRootInum]; omega⟩)
  have hcached : s.icache sfsRootInum = some (loaded F.disk sfsRootInum) := by rw [hop.icache,Function.update_self]
  have hrec : dirRecords s sfsRootInum = Sfs.records (content (rootView root img.fs).disk rootInum) (32 * files.length) := by
    rw [dirRecords,hop.disk,hsize,hdisk]
    rfl
  have hshape : Shaped s sfsRootInum := by
    refine ⟨by rw [hop.disk,hsize]; omega,fun y hy => ?_⟩
    rw [hop.disk,hsize] at hy
    rw [hop.disk,hdisk]
    exact h.mapped y hy
  have hfit := hn g (List.mem_of_getElem? hk)
  have hmaps : Maps (dirRecords s sfsRootInum) g.basename (k + 2) := ⟨k,by rw [hrec,h.records hlen hn,hk]; rfl⟩
  obtain ⟨inum,u,hsearch,hq,hu,hfound⟩ := searchDir_reads hs hcached (by rw [hop.disk]; rfl) hshape hsupS hfit
  obtain ⟨hne,hmap⟩ := hfound.resolve_right fun hno => hno.2 _ hmaps
  obtain rfl : inum = k + 2 := by
    rw [hrec] at hmap hmaps
    exact (h.keyed hlen hn hnd).unique hmap hmaps
  have hut : u.icache (k + 2) = none := by
    rw [hq.icache,hop.icache,Function.update_of_ne (by simp only [sfsRootInum]; omega),hic]
  obtain ⟨t,hget',hsupT,hop'⟩ := fsGetInode_fresh hu hut
  have hall : t.disk = (rootView root img.fs).disk := by rw [hop'.disk,hq.disk,hop.disk,hdisk]
  have hau : Allocated u (k + 2) := by
    rw [Allocated,hq.sb,hq.disk,hop.sb,hop.disk]
    exact (hal _).mpr ⟨by omega,by omega⟩
  have hfile : HasFile t.disk (k + 2) g := hall ▸ h.stored k g hk
  have hct : t.icache (k + 2) = some (loaded t.disk (k + 2)) := by rw [hop'.icache,Function.update_self,hop'.disk]
  refine ⟨s,t,_,hget,?_,hct,hfile.ftype,hfile.nlink,hfile.reads ((hs.quiet hq).opened hop' hau) hsupT hct rfl⟩
  rw [sfsLookup,bind_of_some hsearch,if_neg hne,bind_of_some hget']
  rfl

def ReadBack (m : Memory) (g : HostFile) : Prop :=
  ∃ i s t c, fsGetInode sfsRootInum (mount mkfsSb m) = some (.ok (),s) ∧
    sfsLookup sfsRootInum g.basename s = some (.ok i,t) ∧ t.icache i = some c ∧ c.iFtype = .file ∧ c.iNlink = 1 ∧
    Allocated (mount mkfsSb m) i ∧ ReadsAs t i g.bytes

theorem mkfs_read_back (hlen : files.length ≤ 255) (hnd : (files.map HostFile.basename).Nodup)
    (hn : ∀ g ∈ files, Fits g.basename) (hmax : ∀ g ∈ files, g.bytes.length ≤ maxFileSize) :
    ∃ m, mkfs files = some m ∧ sfsGetSb m = mkfsSb.fields ∧ Owned (mount mkfsSb m) ∧
      Allocated (mount mkfsSb m) sfsRootInum ∧ (∀ g ∈ files, ReadBack m g) ∧
      ∀ inum, inumToBlk inum = Sfs.inumToBlk inum ∧ inumToOfs inum = Sfs.inumToOfs inum := by
  obtain ⟨root,img,hrun,hw⟩ := mkfs_written hlen hmax
  have hal := hw.mounted hlen
  refine ⟨_,hrun,hw.sfsGetSb,Owned.shrink hw.ready.owned rfl rfl fun i c hc => (nomatch hc),
    (hal _).mpr ⟨by decide,by simp only [sfsRootInum]; omega⟩,fun g hg => ?_,
    fun inum => ⟨inumToBlk_eq inum,inumToOfs_eq inum⟩⟩
  obtain ⟨k,hk⟩ := List.mem_iff_getElem?.mp hg
  obtain ⟨s,t,c,h1,h2,h3,h4,h5,h6⟩ := hw.lookup hlen hn hnd hk
  obtain ⟨hlt,-⟩ := List.getElem?_eq_some_iff.mp hk
  exact ⟨k + 2,s,t,c,h1,h2,h3,h4,h5,(hal _).mpr ⟨by omega,by omega⟩,h6⟩

theorem mkfs_read_back_two : ∃ m, mkfs [⟨[97],[1,2,3]⟩,⟨[98],[]⟩] = some m ∧ ReadBack m ⟨[97],[1,2,3]⟩ ∧
    ReadBack m ⟨[98],[]⟩ := by
  have hlen : [(⟨[97],[1,2,3]⟩ : HostFile),⟨[98],[]⟩].length ≤ 255 := by decide
  obtain ⟨m,hm,-,-,-,hread,-⟩ := mkfs_read_back hlen (by decide)
    (by simp only [List.mem_cons,List.not_mem_nil,or_false,forall_eq_or_imp,forall_eq]
        exact ⟨⟨by decide,by decide⟩,⟨by decide,by decide⟩⟩)
    (by simp only [List.mem_cons,List.not_mem_nil,or_false,forall_eq_or_imp,forall_eq]; decide)
  exact ⟨m,hm,hread _ List.mem_cons_self,hread _ (List.mem_cons_of_mem _ List.mem_cons_self)⟩

end MappedMemory.Mkfs
