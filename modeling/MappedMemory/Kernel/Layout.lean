import MappedMemory.Kernel.Pages
import MappedMemory.Kernel.Refs
import MappedMemory.Shm.Changes

namespace MappedMemory
open Keyed Shm World

def lowSegment (ph : Proghdr) : Bool :=
  let vaddr := u64 ph.vaddr
  decide (pgRoundDown vaddr + pgRoundUp (u64 (u64 ph.memsz + pgOfs vaddr)) ≤ 2^47)

structure Laid (as : Addrspace) (ns : List Nat) : Prop extends Orderly as where
  low : ∀ r ∈ as.regions, r.stop ≤ 2^47
  pages : ∀ n ∈ ns, ∃ r ∈ as.regions, n ∈ r.pages

variable {as as' : Addrspace} {ns : List Nat} {r : Memregion} {id size next next' : Nat} {phs : List Proghdr}
  {rs : List Memregion} {a b lo : Nat}

lemma Orderly.grow (h : Orderly as) (hg : Grown as as' r) (hs : Sound r) : Orderly as' := by
  refine ⟨fun x hx => ?_,fun x hx y hy hne => ?_⟩
  · rcases (hg.regions x).mp hx with rfl | hx
    · exact hs
    · exact h.sound x hx
  · rcases (hg.regions x).mp hx with rfl | hx <;> rcases (hg.regions y).mp hy with rfl | hy
    · exact absurd rfl hne
    · exact (hg.apart y hy).symm
    · exact hg.apart x hx
    · exact h.apart x hx y hy hne

lemma Laid.insert (h : Laid as ns) (hnew : NewRegion as as' r id size none false) (hlow : r.stop ≤ 2^47)
    (ms : List Nat) (hms : ∀ n ∈ ms, n ∈ r.pages) : Laid as' (ns ++ ms) := by
  have hg := hnew.grown
  have hs : Sound r := ⟨hg.placed.aligned,hg.placed.bounded,.inl hlow,by simp [hnew.shared]⟩
  refine ⟨h.toOrderly.grow hg hs,fun x hx => ?_,fun n hn => ?_⟩
  · rcases (hg.regions x).mp hx with rfl | hx
    · exact hlow
    · exact h.low x hx
  · rcases List.mem_append.mp hn with hn | hn
    · obtain ⟨x,hx,hnx⟩ := h.pages n hn
      exact ⟨x,(hg.regions x).mpr (.inr hx),hnx⟩
    · exact ⟨r,(hg.regions r).mpr (.inl rfl),hms n hn⟩

lemma segmentPages_mem {ph : Proghdr} (hs : Sound r) (hstart : r.start = pgRoundDown (u64 ph.vaddr))
    (hstop : r.stop = r.start + pgRoundUp (u64 (u64 ph.memsz + pgOfs (u64 ph.vaddr)))) :
    ∀ n ∈ (segmentPages ph).map Prod.fst, n ∈ r.pages := by
  intro n hn
  simp only [segmentPages,List.map_map,List.mem_map,List.mem_range,Function.comp_apply] at hn
  obtain ⟨i,hi,rfl⟩ := hn
  refine hs.mem_pages.mpr ⟨i,?_,?_⟩
  · rw [hstop]
    simp only [pgSize] at hi ⊢
    omega
  · rw [hstart] at hstop ⊢
    have hv := u64_lt ph.vaddr
    generalize u64 ph.vaddr = v at *
    generalize pgRoundUp (u64 (u64 ph.memsz + pgOfs v)) = m at *
    simp only [vpn,u64,pgRoundDown,pgSize] at *
    omega

lemma loadSegments_laid (h : Laid as ns) (hlow : ∀ ph ∈ phs, lowSegment ph = true)
    (hl : loadSegments phs as next = some (.ok (as',next'))) :
    Laid as' (ns ++ (phs.flatMap segmentPages).map Prod.fst) := by
  induction phs generalizing as ns next with
  | nil =>
    obtain ⟨rfl,rfl⟩ : as = as' ∧ next = next' := by simpa [loadSegments] using hl
    simpa using h
  | cons ph phs ih =>
    simp only [loadSegments] at hl
    split at hl
    · simp at hl
    simp only [Run.bind_some,Prod.exists] at hl
    obtain ⟨as1,r,hmap,hl⟩ := hl
    cases r with
    | none => simp at hl
    | some r =>
      have hph := hlow ph List.mem_cons_self
      have hv : pgRoundDown (u64 ph.vaddr) < 2^64 := (Nat.div_mul_le_self _ _).trans_lt (u64_lt _)
      obtain ⟨hnew,-,-,hstart⟩ := newRegion hv (pgRoundUp_lt _) hmap
      have hany : pgRoundDown (u64 ph.vaddr) ≠ addrAnywhere := by
        simp only [pgRoundDown,addrAnywhere,pgSize]
        omega
      have hlowr : r.stop ≤ 2^47 := by
        rw [hnew.stop,hstart hany]
        simpa [lowSegment] using hph
      have hsound : Sound r := ⟨hnew.placed.aligned,hnew.placed.bounded,.inl hlowr,by simp [hnew.shared]⟩
      have hins := h.insert hnew hlowr _ (segmentPages_mem hsound (hstart hany) hnew.stop)
      have hrest := ih hins (fun p hp => hlow p (List.mem_cons_of_mem _ hp)) hl
      simpa [List.flatMap_cons,List.append_assoc] using hrest

lemma findFreeVaddrFrom_low (hrs : ∀ r ∈ rs, r.stop ≤ 2^47) (ha : a ≤ 2^47)
    (h : Addrspace.findFreeVaddrFrom size rs a = some b) : b ≤ 2^47 := by
  induction rs generalizing a with
  | nil =>
    simp only [Addrspace.findFreeVaddrFrom] at h
    split at h
    · exact Option.some_inj.mp h ▸ ha
    · cases h
  | cons r rs ih =>
    simp only [Addrspace.findFreeVaddrFrom] at h
    split at h
    · exact Option.some_inj.mp h ▸ ha
    · refine ih (fun s hs => hrs s (List.mem_cons_of_mem _ hs)) ?_ h
      have := hrs r List.mem_cons_self
      simp only [pgRoundUp,pgRoundDown,u64,pgSize]
      omega

lemma findFreeVaddrFrom_fits (hsize : size % pgSize = 0)
    (hrs : ∀ r ∈ rs, Sound r ∧ (r.stop = ustackUpperbound ∨ pgRoundUp r.stop + size ≤ 2^47))
    (ha : a + size ≤ 2^47 ∨ a = ustackUpperbound) (hb : b + size < 2^64)
    (h : Addrspace.findFreeVaddrFrom size rs a = some b) : b + size ≤ 2^47 := by
  induction rs generalizing a with
  | nil =>
    simp only [Addrspace.findFreeVaddrFrom] at h
    split at h
    · rename_i hroom
      cases h
      simp only [pgRoundUp,pgRoundDown,u64,sub64,pgSize,ustackLowerbound,ustackUpperbound,ustackPages] at *
      omega
    · cases h
  | cons r rs ih =>
    have hr := hrs r List.mem_cons_self
    simp only [Addrspace.findFreeVaddrFrom] at h
    split at h
    · rename_i hroom
      cases h
      rcases ha with ha | rfl
      · exact ha
      · have hle : r.start ≤ ustackUpperbound := by
          rcases hr.2 with hs | hs
          · exact hs ▸ hr.1.bounded
          · have hle := hr.1.bounded
            have hc := hr.1.canonical
            simp only [pgRoundUp,pgRoundDown,u64,pgSize,ustackUpperbound] at *
            omega
        simp only [pgRoundUp,pgRoundDown,u64,pgSize,ustackUpperbound] at *
        omega
    · refine ih (fun s hs => hrs s (List.mem_cons_of_mem _ hs)) ?_ h
      rcases hr.2 with hs | hs
      · exact .inr (by rw [hs]; rfl)
      · exact .inl hs

lemma Laid.withHeap (h : Laid as ns) (heap : Option Nat) : Laid { as with heap := heap } ns :=
  ⟨⟨h.sound,h.apart⟩,h.low,h.pages⟩

structure Image (as : Addrspace) (ns : List Nat) : Prop where
  orderly : Orderly as
  store : ∀ r ∈ as.regions, r.store = none ∧ r.shared = false
  pages : ∀ n ∈ ns, ∃ r ∈ as.regions, n ∈ r.pages

lemma stackSetup_image (h : Laid as ns) (hp : Private lo as next) (hlo : lo ≤ next)
    (hs : stackSetup as next = some (some as')) : Image as' (ns ++ [vpn stackTop]) := by
  have hpriv := stackSetup_private hp hlo hs
  simp only [stackSetup,Run.bind_some,Prod.exists] at hs
  obtain ⟨as1,r,hmap,hs⟩ := hs
  cases r with
  | none => simp at hs
  | some r =>
    obtain ⟨hnew,-,-,hstart⟩ := newRegion (by decide) (by decide) hmap
    have hstart := hstart (by decide)
    have hstop : r.stop = ustackUpperbound := by rw [hnew.stop,hstart]; rfl
    obtain ⟨mr,hfind,hs⟩ := Run.bind_some.mp hs
    split_ifs at hs
    cases Option.some_inj.mp hs
    have hmem : ∀ x, x ∈ as1.regions ↔ x = r ∨ x ∈ as.regions := fun x => by
      rw [hnew.perm.mem_iff,List.mem_cons]
    obtain rfl : mr = r := by
      refine ((hmem mr).mp (List.mem_of_find?_eq_some hfind)).resolve_right fun hold => ?_
      have hcond := List.find?_some hfind
      have hl := h.low mr hold
      simp only [Bool.and_eq_true,decide_eq_true_eq] at hcond
      have hup := hcond.2
      simp only [pgRoundUp,pgRoundDown,u64,pgSize,stackTop,ustackUpperbound] at hup
      omega
    have hids := (hp.insert hlo hnew).ids
    let top : Memregion := { mr with start := ustackUpperbound - 10 * pgSize }
    have htstart : top.start = ustackUpperbound - 10 * pgSize := rfl
    have htstop : top.stop = ustackUpperbound := hstop
    have hmod : ∀ x, x ∈ modify Memregion.id mr.id (fun r => { r with start := ustackUpperbound - 10 * pgSize })
        as1.regions ↔ x = top ∨ x ∈ as.regions := fun x => by
      rw [Distinct.mem_modify hids ((hmem mr).mpr (.inl rfl)) rfl,hmem]
      constructor
      · rintro (rfl | ⟨rfl | hx,hne⟩)
        · exact .inl rfl
        · exact absurd rfl hne
        · exact .inr hx
      · rintro (rfl | hx)
        · exact .inl rfl
        · exact .inr ⟨.inr hx,hnew.id ▸ (hp.below x hx).ne⟩
    have hsound : Sound top := by
      refine ⟨?_,?_,.inr ⟨?_,?_⟩,fun hsh => absurd (hnew.shared.symm.trans hsh) (by decide)⟩
      all_goals
        simp only [htstart,htstop]
        decide
    have hbelow : ∀ x ∈ as.regions, x.stop ≤ top.start := fun x hx =>
      (h.low x hx).trans (by rw [htstart]; decide)
    refine ⟨⟨fun x hx => ?_,fun x hx y hy hne => ?_⟩,hpriv.store,fun n hn => ?_⟩
    · rcases (hmod x).mp hx with rfl | hx
      · exact hsound
      · exact h.sound x hx
    · rcases (hmod x).mp hx with rfl | hx <;> rcases (hmod y).mp hy with rfl | hy
      · exact absurd rfl hne
      · exact .inr (hbelow y hy)
      · exact .inl (hbelow x hx)
      · exact h.apart x hx y hy hne
    · rcases List.mem_append.mp hn with hn | hn
      · obtain ⟨x,hx,hnx⟩ := h.pages n hn
        exact ⟨x,(hmod x).mpr (.inr hx),hnx⟩
      · obtain rfl := List.mem_singleton.mp hn
        refine ⟨top,(hmod top).mpr (.inl rfl),hsound.mem_pages.mpr ⟨9,?_,?_⟩⟩
        · rw [htstart,htstop]
          decide
        · rw [htstart]
          decide

lemma Shm.Built.image (h : Built lo phs as next)
    (hlow : ∀ ph ∈ phs, lowSegment ph = true) : Image as ((imagePages phs).map Prod.fst) := by
  obtain ⟨as0,n,as1,heap,hl,hmap,hstack,rfl⟩ := h.stages
  obtain ⟨hpriv,hle⟩ := loadSegments_private Private.empty le_rfl hl
  have hempty : Laid ⟨false,[],none⟩ [] := ⟨⟨by simp,by simp⟩,by simp,by simp⟩
  have hlaid := loadSegments_laid hempty hlow hl
  obtain ⟨hnew,-⟩ := newRegion (by decide) (by decide) hmap
  have hfound := mapAnywhere_start hmap
  have hheap : heap.stop ≤ 2^47 := by
    simp only [Addrspace.findFreeVaddr] at hfound
    split at hfound
    · cases hfound
    · rw [hnew.stop]
      exact findFreeVaddrFrom_low hlaid.low (Nat.zero_le _) (Option.some_inj.mp hfound)
  have hset : Private lo { as1 with heap := some heap.id } (n + 1) := by
    have hins := hpriv.insert hle hnew
    exact ⟨hins.store,hins.placed,hins.above,hins.below,hins.ids,fun id hid =>
      Option.some_inj.mp hid ▸ hnew.id ▸ Nat.lt_succ_self _⟩
  have hall := (hlaid.insert hnew hheap [] (by simp)).withHeap (some heap.id)
  simpa [imagePages] using stackSetup_image hall hset (hle.trans (Nat.le_succ n)) hstack

end MappedMemory
