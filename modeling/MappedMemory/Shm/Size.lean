import MappedMemory.Shm.Context
import MappedMemory.Vm.RegionList

namespace MappedMemory

open Keyed

def Addrspace.Room (as : Addrspace) (n : Nat) : Prop :=
  ∃ a, pgAligned a = true ∧ a + n * pgSize < 2^47 ∧ ∀ r ∈ as.regions, r.stop ≤ a ∨ a + n * pgSize ≤ r.start

namespace Shm

structure Sized (s : Shm) (p : Proc) (size : Nat) (out : Outcome) : Prop where
  result : out.err = .ok ∨ out.err = .noMem
  region : out.err = .ok → ∃ q r, out.shm.proc p.pid = some q ∧ r ∈ q.as.regions ∧ r.id = s.next ∧
    r.stop - r.start = size * pgSize ∧ out.ret = some r.start

def MapsAsked (size : Nat) : Prop :=
  ∀ (s : Shm) (p : Proc) (name : List Nat) (flag : Nat) (created : Outcome) (alloc node : Bool),
    s.proc p.pid = some p → p.as.kas = false → p.as.Wf → p.as.Room size →
    s.sysCreateSharedRegion name size flag true = some created → created.err = .ok →
    ∃ out, created.shm.createMapping p name alloc node = some out ∧ Sized created.shm p size out

def asked (size : Nat) : Nat := sizeT (int32 (int32 (pgRoundUp (u64 size)) * pgSize))

variable {s : Shm} {p : Proc} {name : List Nat} {size flag : Nat} {created : Outcome} {as : Addrspace} {a id : Nat}
  {perm : Memperm} {store : Option Nat} {alloc : Bool} {r : Memregion}

lemma pgRoundUp_small (h : size < 2^31) : pgRoundUp (u64 size) = pgCeil size := by
  rw [u64_of_lt (by omega),pgRoundUp_eq_pgCeil (by omega)]

lemma asked_eq_iff (h : size < 2^31) : asked size = size * pgSize ↔ size % pgSize = 0 ∧ size < 2^19 := by
  simp only [asked,pgRoundUp_small h,pgCeil,sizeT,int32,pgSize]
  omega

lemma asked_range (h : size < 2^31) :
    asked size % pgSize = 0 ∧ (asked size < 2^31 ∨ 2^64 - 2^31 ≤ asked size ∧ asked size < 2^64) := by
  simp only [asked,pgRoundUp_small h,pgCeil,sizeT,int32,pgSize]
  omega

lemma created_context (h : s.sysCreateSharedRegion name size flag true = some created) (hok : created.err = .ok) :
    created.shm = { s with ctable := s.ctable ++ [contextInit s.next name (int32 (pgRoundUp (u64 size))) flag],
                           next := s.next + 1 } ∧
    created.shm.getContextByHandle name none = some (contextInit s.next name (int32 (pgRoundUp (u64 size))) flag) := by
  simp only [sysCreateSharedRegion,createSharedRegion,fail,done,if_true] at h
  split_ifs at h with hlen hfound
  · cases h
    cases hok
  · cases h
    cases hok
  · cases h
    refine ⟨rfl,?_⟩
    have hnone : s.ctable.find? (fun c => c.name == name) = none := by
      simp only [getContextByHandle] at hfound
      cases hf : s.ctable.find? (fun c => c.name == name) with
      | none => rfl
      | some c => simp [hf] at hfound
    simp [getContextByHandle,List.find?_append,hnone,contextInit]

lemma findFreeVaddrFrom_le {rs : List Memregion} {b : Nat} (hrs : ∀ r ∈ rs, r.stop ≤ kmapBase)
    (ha : pgAligned a = true ∧ a ≤ kmapBase) (h : Addrspace.findFreeVaddrFrom size rs a = some b) :
    pgAligned b = true ∧ b ≤ kmapBase := by
  induction rs generalizing a with
  | nil =>
    simp only [Addrspace.findFreeVaddrFrom] at h
    split at h
    · exact Option.some.inj h ▸ ha
    · cases h
  | cons r rs ih =>
    simp only [Addrspace.findFreeVaddrFrom] at h
    have hr := hrs r List.mem_cons_self
    split at h
    · exact Option.some.inj h ▸ ha
    · refine ih (fun q hq => hrs q (List.mem_cons_of_mem _ hq)) ⟨pgRoundUp_aligned _,?_⟩ h
      rw [pgRoundUp_eq_pgCeil (hr.trans (by decide))]
      exact pgCeil_le hr (by decide)

lemma map_anywhere_eq {ofs : Nat} {shared : Bool}
    (hk : as.kas = false) (hf : Addrspace.findFreeVaddrFrom size as.regions 0 = some a) :
    as.memregionMapInternal id addrAnywhere size perm store ofs shared alloc =
      as.memregionMapAt ⟨id,a,u64 (a + size),perm,shared,store,ofs⟩ size alloc := by
  simp only [Addrspace.memregionMapInternal,if_true,Addrspace.findFreeVaddr,hk,Bool.false_eq_true,if_false,hf,
    Option.bind_eq_bind,Option.bind_some]

lemma map_anywhere_total (hk : as.kas = false) (hw : as.Wf) (hsize : size < 2^31) (hpg : size % pgSize = 0) :
    ∃ out, as.memregionMapInternal id addrAnywhere size perm store 0 true alloc = some out := by
  cases hf : Addrspace.findFreeVaddrFrom size as.regions 0 with
  | none => exact ⟨(as,none),by simp [Addrspace.memregionMapInternal,Addrspace.findFreeVaddr,hk,hf]⟩
  | some a =>
    obtain ⟨hal,hle⟩ := findFreeVaddrFrom_le (hw.user hk) ⟨rfl,Nat.zero_le _⟩ hf
    have hround : pgRoundUp size = size := by
      rw [pgRoundUp_eq_pgCeil (by omega)]
      simp only [pgCeil,pgSize] at hpg ⊢
      omega
    have hsum : u64 (a + size) = a + size := u64_of_lt (by simp only [kmapBase] at hle; omega)
    rw [map_anywhere_eq hk hf]
    simp only [Addrspace.memregionMapAt,hal,hround,hsum,not_true_eq_false,if_false,
      Addrspace.memregionAllocated,ge_iff_le,Nat.le_add_right,if_true]
    split
    · exact ⟨_,rfl⟩
    · generalize as.regions.any _ = overlap
      cases overlap <;> cases alloc <;> exact ⟨_,rfl⟩

lemma proc_setProc {p' : Proc} (hp : s.proc p.pid = some p) (hpid : p'.pid = p.pid) :
    (s.setProc p').proc p.pid = some p' := by
  simp only [proc,setProc,hpid] at hp ⊢
  rw [lookup_modify (fun _ _ => hpid),hp]
  rfl

lemma createMapping_sized (hasked : asked size = size * pgSize) (hsize : size < 2^31)
    (hp : s.proc p.pid = some p) (hk : p.as.kas = false) (hw : p.as.Wf)
    (h : s.sysCreateSharedRegion name size flag true = some created) (hok : created.err = .ok) (alloc node : Bool) :
    ∃ out, created.shm.createMapping p name alloc node = some out ∧ Sized created.shm p size out := by
  obtain ⟨hshm,hctx⟩ := created_context h hok
  have hr := asked_range hsize
  have hlt : size * pgSize < 2^31 := by
    have hs := ((asked_eq_iff hsize).mp hasked).2
    simp only [pgSize]
    omega
  have htotal : ∃ out, p.as.memregionMapInternal created.shm.next addrAnywhere (asked size) .urw
      (some (contextInit s.next name (int32 (pgRoundUp (u64 size))) flag).id) 0 true alloc = some out :=
    map_anywhere_total hk hw (by omega) hr.1
  obtain ⟨⟨as,mr⟩,hmap⟩ := htotal
  have hbytes : (contextInit s.next name (int32 (pgRoundUp (u64 size))) flag).bytes = asked size := rfl
  have hproc : created.shm.proc p.pid = some p := by rw [hshm]; exact hp
  simp only [createMapping,hctx,hbytes]
  simp only [hmap,Option.bind_eq_bind,Option.bind_some]
  rcases Addrspace.memregionMapInternal_cases (by decide) (by omega) hmap with ⟨rfl,rfl⟩ | ⟨a,rfl,hi⟩
  · exact ⟨_,rfl,⟨.inr rfl,by simp⟩⟩
  · cases node with
    | false => exact ⟨_,rfl,⟨.inr rfl,by simp⟩⟩
    | true =>
      refine ⟨_,rfl,⟨.inl rfl,fun _ => ⟨{ p with as := as },_,?_,?_,rfl,?_,rfl⟩⟩⟩
      · exact proc_setProc hproc rfl
      · rw [hi.space]
        exact (mem_listAppendOrdered _ _ _ _).mpr (.inl rfl)
      · have hstart := hi.placed.bounded
        simp only [hasked,u64] at hstart ⊢
        omega

def alone (as : Addrspace) : Shm := ⟨[⟨0,as,none,.user⟩],[],1⟩

lemma MapsAsked.alone (h : MapsAsked size) (hk : as.kas = false) (hw : as.Wf) (hroom : as.Room size) :
    ∃ as' mr, as.memregionMapInternal 2 addrAnywhere (asked size) .urw (some 1) 0 true true = some (as',mr) ∧
      (mr.isSome → ∃ r ∈ as'.regions, r.id = 2 ∧ r.stop - r.start = size * pgSize) := by
  have hc : (Shm.alone as).sysCreateSharedRegion [] size 0 true =
      done { Shm.alone as with ctable := [contextInit 1 [] (int32 (pgRoundUp (u64 size))) 0], next := 2 } [] := rfl
  obtain ⟨out,hout,hs⟩ := h (Shm.alone as) ⟨0,as,none,.user⟩ [] 0 _ true true rfl hk hw hroom hc rfl
  cases hm : as.memregionMapInternal 2 addrAnywhere (asked size) .urw (some 1) 0 true true with
  | none =>
    change (as.memregionMapInternal 2 addrAnywhere (asked size) .urw (some 1) 0 true true >>= _) = _ at hout
    rw [hm] at hout
    cases hout
  | some x =>
    obtain ⟨as',mr⟩ := x
    refine ⟨as',mr,rfl,fun hsome => ?_⟩
    obtain ⟨d,rfl⟩ := Option.isSome_iff_exists.mp hsome
    change (as.memregionMapInternal 2 addrAnywhere (asked size) .urw (some 1) 0 true true >>= _) = _ at hout
    rw [hm] at hout
    cases hout
    obtain ⟨q,r,hq,hr,hid,hlen,-⟩ := hs.region rfl
    cases hq
    exact ⟨r,hr,hid,hlen⟩

def lowHalf : Addrspace := ⟨false,[⟨0,0,2^33,.urw,false,none,0⟩],none⟩

lemma lowHalf_wf : lowHalf.Wf := by
  refine ⟨⟨List.pairwise_singleton _ _,?_⟩,?_⟩
  · intro r hr
    obtain rfl := List.mem_singleton.mp hr
    exact ⟨rfl,by decide,by decide⟩
  · intro _ r hr
    obtain rfl := List.mem_singleton.mp hr
    decide

lemma lowHalf_room (hsize : size < 2^31) : lowHalf.Room size := by
  refine ⟨2^33,rfl,by simp only [pgSize]; omega,fun r hr => ?_⟩
  obtain rfl := List.mem_singleton.mp hr
  exact .inl le_rfl

lemma lowHalf_free (hsize : size < 2^31) :
    Addrspace.findFreeVaddrFrom (asked size) lowHalf.regions 0 = some (2^33) := by
  obtain ⟨-,hr⟩ := asked_range hsize
  have hstop : pgRoundUp (2^33) = 2^33 := by decide
  have hfits : pgRoundUp (u64 (2^33 + asked size)) < sub64 ustackLowerbound (asked size) := by
    simp only [pgRoundUp,pgRoundDown,sub64,u64,ustackLowerbound,ustackUpperbound,ustackPages,pgSize]
    omega
  simp only [lowHalf,Addrspace.findFreeVaddrFrom,Nat.not_lt_zero,if_false,hstop,hfits,if_true]

lemma memregionMapAt_fits (hk : as.kas = false) (hal : pgAligned r.start = true)
    (hsum : r.start ≤ u64 (r.start + pgRoundUp size)) (hperm : isKernMemperm r.perm = false)
    (huser : isUserAddr (sub64 (u64 (r.start + pgRoundUp size)) 1) = true)
    (hall : as.memregionAllocated r.start r.stop = some false) :
    ∃ as', as.memregionMapAt r size true = some (as',some r) ∧ ∀ q ∈ as'.regions, q = r ∨ q ∈ as.regions := by
  refine ⟨{ as with regions := listAppendOrdered memregionComparator as.regions r },?_,?_⟩
  · simp [Addrspace.memregionMapAt,hk,hal,hsum,hperm,huser,hall]
  · exact fun q hq => (mem_listAppendOrdered _ _ _ _).mp hq

lemma memregionMapAt_wraps (hsum : u64 (r.start + pgRoundUp size) < r.start) :
    as.memregionMapAt r size alloc = none := by
  simp only [Addrspace.memregionMapAt,ge_iff_le,Nat.not_le.mpr hsum,not_false_eq_true,if_true,ite_self]

def behind (bytes : Nat) : Memregion := ⟨2,2^33,u64 (2^33 + bytes),.urw,true,some 1,0⟩

lemma lowHalf_map (hsize : size < 2^31) :
    lowHalf.memregionMapInternal 2 addrAnywhere (asked size) .urw (some 1) 0 true true =
      lowHalf.memregionMapAt (behind (asked size)) (asked size) true := map_anywhere_eq rfl (lowHalf_free hsize)

lemma lowHalf_maps (hsize : size < 2^31) (hsmall : asked size < 2^31) :
    ∃ as, lowHalf.memregionMapAt (behind (asked size)) (asked size) true = some (as,some (behind (asked size))) ∧
      ∀ q ∈ as.regions, q = behind (asked size) ∨ q ∈ lowHalf.regions := by
  obtain ⟨hpg,-⟩ := asked_range hsize
  have hround : pgRoundUp (asked size) = asked size := by
    simp only [pgRoundUp,pgRoundDown,u64,pgSize] at hpg ⊢
    omega
  have hsum : u64 (2^33 + asked size) = 2^33 + asked size := u64_of_lt (by omega)
  have hal : pgAligned (2^33) = true := by decide
  refine memregionMapAt_fits rfl hal ?_ rfl ?_ ?_
  · simp only [behind,hround,hsum]
    omega
  · simp only [behind,hround,isUserAddr_iff,sub64,u64,kmapBase]
    omega
  · simp only [behind,hsum,Addrspace.memregionAllocated]
    rw [if_pos (Nat.le_add_right _ _)]
    simp [lowHalf]

lemma lowHalf_asserts (hsize : size < 2^31) (hneg : ¬asked size < 2^31) :
    lowHalf.memregionMapAt (behind (asked size)) (asked size) true = none := by
  obtain ⟨hpg,hr⟩ := asked_range hsize
  refine memregionMapAt_wraps ?_
  simp only [behind,pgRoundUp,pgRoundDown,u64,pgSize] at hpg ⊢
  omega

lemma mapsAsked_iff (hsize : size < 2^31) : MapsAsked size ↔ asked size = size * pgSize := by
  constructor
  · intro h
    obtain ⟨as,mr,hmap,hlen⟩ := h.alone rfl lowHalf_wf (lowHalf_room hsize)
    rw [lowHalf_map hsize] at hmap
    by_cases hsmall : asked size < 2^31
    · obtain ⟨as',hmaps,hmem⟩ := lowHalf_maps hsize hsmall
      rw [hmaps] at hmap
      simp only [Option.some_inj,Prod.mk_inj] at hmap
      obtain ⟨rfl,rfl⟩ := hmap
      obtain ⟨r,hr,hid,hbytes⟩ := hlen rfl
      rcases hmem r hr with hr | hr
      · simp only [hr,behind,u64] at hbytes
        omega
      · obtain rfl := List.mem_singleton.mp hr
        cases hid
    · rw [lowHalf_asserts hsize hsmall] at hmap
      cases hmap
  · intro hasked s p name flag created alloc node hp hk hw _ h hok
    exact createMapping_sized hasked hsize hp hk hw h hok alloc node

theorem shared_region_size_iff (size : Nat) (hsize : size < 2^31) :
    MapsAsked size ↔ size % pgSize = 0 ∧ size < 2^19 := by
  rw [mapsAsked_iff hsize,asked_eq_iff hsize]

theorem shared_region_size_iff_whole : MapsAsked 4096 :=
  (shared_region_size_iff 4096 (by decide)).mpr (by decide)

def mapAfterCreate (size : Nat) : Option Outcome := do
  let created ← (alone lowHalf).sysCreateSharedRegion [] size 0 true
  created.shm.createMapping ⟨0,lowHalf,none,.user⟩ [] true true

theorem one_page_maps_many :
    ¬MapsAsked 1 ∧ ((mapAfterCreate 1).map fun out => out.shm.procs.flatMap fun p => p.as.regions.map fun r =>
      (r.id,r.stop - r.start)) = some [(0,2^33),(2,4096 * pgSize)] ∧
    ¬MapsAsked (2^19) ∧ mapAfterCreate (2^19) = none := by
  refine ⟨?_,by decide +kernel,?_,by decide +kernel⟩
  · rw [mapsAsked_iff (by decide)]
    decide
  · rw [mapsAsked_iff (by decide)]
    decide

end Shm
end MappedMemory
