import MappedMemory.Kernel.World

namespace MappedMemory
open World

def Memregion.pages (r : Memregion) : List Nat := pagesFrom r.start (nPages r)

structure Sound (r : Memregion) : Prop where
  aligned : pgAligned r.start = true
  bounded : r.start ≤ r.stop
  canonical : r.stop ≤ 2^47 ∨ (2^64 - 2^47 ≤ r.start ∧ r.stop ≤ 2^64 - 2^39)
  low : r.shared = true → r.stop ≤ 2^47 ∧ r.ofs = 0

def Apart (r s : Memregion) : Prop := r.stop ≤ s.start ∨ s.stop ≤ r.start

def InHalf (a : Nat) : Prop := a < 2^47 ∨ (2^64 - 2^47 ≤ a ∧ a < 2^64)

variable {r s : Memregion} {a b n k j vaddr : Nat} {as : Addrspace}

lemma vpn_inj (ha : InHalf a) (hb : InHalf b) (h : vpn a = vpn b) : a / pgSize = b / pgSize := by
  simp only [InHalf,vpn,pgSize] at *
  omega

lemma Sound.inHalf (h : Sound r) (hlo : r.start ≤ a) (hhi : a < r.stop) : InHalf a := by
  have := h.canonical
  simp only [InHalf]
  omega

lemma Sound.nPages_iff (h : Sound r) : k < nPages r ↔ r.start + k * pgSize < r.stop := by
  have hb := h.bounded
  have hc := h.canonical
  simp only [nPages,pgRoundUp,pgRoundDown,sub64,u64,pgSize]
  omega

lemma Sound.mem_pages (h : Sound r) :
    n ∈ r.pages ↔ ∃ k, r.start + k * pgSize < r.stop ∧ n = vpn (r.start + k * pgSize) := by
  have hc := h.canonical
  have hal := h.aligned
  have hdown : pgRoundDown r.start = r.start := by
    simp only [pgAligned,beq_iff_eq] at hal
    exact Nat.div_mul_cancel (Nat.dvd_of_mod_eq_zero hal)
  simp only [Memregion.pages,pagesFrom,List.mem_map,List.mem_range,h.nPages_iff,hdown]
  constructor
  · rintro ⟨k,hk,rfl⟩
    exact ⟨k,hk,by rw [u64_of_lt (by omega)]⟩
  · rintro ⟨k,hk,rfl⟩
    exact ⟨k,hk,by rw [u64_of_lt (by omega)]⟩

lemma Sound.vpn_eq (h : Sound r) (h' : Sound s) (hk : r.start + k * pgSize < r.stop)
    (hj : s.start + j * pgSize < s.stop) (he : vpn (r.start + k * pgSize) = vpn (s.start + j * pgSize)) :
    r.start + k * pgSize = s.start + j * pgSize := by
  have hdiv := vpn_inj (h.inHalf (Nat.le_add_right _ _) hk) (h'.inHalf (Nat.le_add_right _ _) hj) he
  have hal := h.aligned
  have hal' := h'.aligned
  simp only [pgAligned,pgSize,beq_iff_eq] at *
  omega

lemma Sound.index_unique (h : Sound r) (hk : r.start + k * pgSize < r.stop) (hj : r.start + j * pgSize < r.stop)
    (he : vpn (r.start + k * pgSize) = vpn (r.start + j * pgSize)) : k = j := by
  have := h.vpn_eq h hk hj he
  simp only [pgSize] at this
  omega

lemma Sound.pages_apart (h : Sound r) (h' : Sound s) (hap : Apart r s) (hr : n ∈ r.pages) : n ∉ s.pages := by
  intro hs
  obtain ⟨k,hk,rfl⟩ := h.mem_pages.mp hr
  obtain ⟨j,hj,he⟩ := h'.mem_pages.mp hs
  have := h.vpn_eq h' hk hj he
  simp only [Apart,pgSize] at *
  omega

structure Orderly (as : Addrspace) : Prop where
  sound : ∀ r ∈ as.regions, Sound r
  apart : ∀ r ∈ as.regions, ∀ s ∈ as.regions, r ≠ s → Apart r s

lemma Orderly.unique (h : Orderly as) (hr : r ∈ as.regions) (hs : s ∈ as.regions) (hrn : n ∈ r.pages)
    (hsn : n ∈ s.pages) : r = s := by
  by_contra hne
  exact (h.sound r hr).pages_apart (h.sound s hs) (h.apart r hr s hs hne) hrn hsn

lemma not_kernelSlot (hc : canonical vaddr = true) (h : kernelSlot (vpn vaddr) = false) : vaddr < 2^64 - 2^39 := by
  simp only [kernelSlot,beq_eq_false_iff_ne,ne_eq,pml4x,kmapBase,vpn,pgSize] at h
  simp only [canonical,decide_eq_true_eq] at hc
  omega

lemma Sound.user (h : Sound r) (hk : r.start + k * pgSize < r.stop) :
    kernelSlot (vpn (r.start + k * pgSize)) = false := by
  have hc := h.canonical
  simp only [kernelSlot,beq_eq_false_iff_ne,ne_eq,pml4x,kmapBase,vpn,pgSize] at *
  omega

lemma find_page (h : Sound r) (hf : as.asFindMemregion vaddr 1 = some r) (hv : vaddr < 2^64 - 2^39) :
    r.start ≤ vaddr ∧ r.start + (vaddr - r.start) / pgSize * pgSize < r.stop ∧
      vpn vaddr = vpn (r.start + (vaddr - r.start) / pgSize * pgSize) := by
  have hcond : r.start ≤ vaddr ∧ u64 (vaddr + 1) ≤ pgRoundUp r.stop := by simpa using List.find?_some hf
  have hal := h.aligned
  have hc := h.canonical
  simp only [pgAligned,pgRoundUp,pgRoundDown,u64,pgSize,beq_iff_eq,vpn] at *
  omega

lemma find_region (ho : Orderly as) (hcan : canonical vaddr = true) (hr : r ∈ as.regions)
    (hn : vpn vaddr ∈ r.pages) : as.asFindMemregion vaddr 1 = some r := by
  have hs := ho.sound r hr
  obtain ⟨k,hk,hv⟩ := hs.mem_pages.mp hn
  have hlow := not_kernelSlot hcan (hv ▸ hs.user hk)
  have hin : InHalf vaddr := by simpa [InHalf,canonical] using hcan
  have hdiv := vpn_inj hin (hs.inHalf (Nat.le_add_right _ _) hk) hv
  have hcond : (decide (vaddr ≥ r.start) && decide (u64 (vaddr + 1) ≤ pgRoundUp r.stop)) = true := by
    have hal := hs.aligned
    have hc := hs.canonical
    simp only [Bool.and_eq_true,decide_eq_true_eq]
    simp only [pgAligned,pgRoundUp,pgRoundDown,u64,pgSize,beq_iff_eq] at *
    omega
  have hsome : (as.asFindMemregion vaddr 1).isSome := by
    rw [Addrspace.asFindMemregion,List.find?_isSome]
    exact ⟨r,hr,hcond⟩
  obtain ⟨mr,hmr⟩ := Option.isSome_iff_exists.mp hsome
  have hmem := List.mem_of_find?_eq_some hmr
  obtain ⟨-,hin',hv'⟩ := find_page (ho.sound mr hmem) hmr hlow
  have heq := ho.unique hmem hr ((ho.sound mr hmem).mem_pages.mpr ⟨_,hin',hv'⟩) hn
  exact heq ▸ hmr

end MappedMemory
