import Mathlib.Tactic

namespace Dyadic

variable {b c : Blk} {p q k a : Nat}

abbrev Blk := Nat × Nat

def Mem (p : Nat) (b : Blk) : Prop := b.1 ≤ p ∧ p < b.1 + 2^b.2

def Aligned (b : Blk) : Prop := 2^b.2 ∣ b.1

def buddyHead (a k : Nat) : Nat := if a / 2^k % 2 = 1 then a - 2^k else a + 2^k

def buddy (b : Blk) : Blk := (buddyHead b.1 b.2,b.2)

def parent (b : Blk) : Blk := (min b.1 (buddyHead b.1 b.2),b.2+1)

lemma mem_head (b : Blk) : Mem b.1 b := ⟨le_rfl,Nat.lt_add_of_pos_right (by positivity)⟩

lemma mem_iff (h : Aligned b) (p : Nat) : Mem p b ↔ p / 2^b.2 = b.1 / 2^b.2 := by
  obtain ⟨q,hq⟩ := h
  have hpos : 0 < 2^b.2 := by positivity
  rw [hq,Nat.mul_div_cancel_left q hpos]
  unfold Mem
  rw [hq,Nat.div_eq_iff hpos,Nat.mul_comm q]
  omega

lemma div_of_le {j : Nat} (hjk : j ≤ k) (h : p / 2^j = q / 2^j) : p / 2^k = q / 2^k := by
  have hk : 2^k = 2^j * 2^(k-j) := by rw [← pow_add,Nat.add_sub_cancel' hjk]
  rw [hk,← Nat.div_div_eq_div_mul,← Nat.div_div_eq_div_mul,h]

lemma head_eq (h : Aligned b) (ha : 2^b.2 ∣ a) (hm : Mem a b) : b.1 = a := by
  have hd := (mem_iff h a).mp hm
  rw [← Nat.div_mul_cancel h,← Nat.div_mul_cancel ha,hd]

lemma nested (hb : Aligned b) (hc : Aligned c) (hle : b.2 ≤ c.2) (hpb : Mem p b) (hpc : Mem p c) (hq : Mem q b) : Mem q c := by
  rw [mem_iff hb] at hpb hq
  rw [mem_iff hc] at hpc ⊢
  rw [← hpc]
  exact div_of_le hle (hq.trans hpb.symm)

lemma eq_of_order (hb : Aligned b) (hc : Aligned c) (ho : b.2 = c.2) (hpb : Mem p b) (hpc : Mem p c) : b = c := by
  have hbc := nested hb hc ho.le hpb hpc (mem_head b)
  exact Prod.ext (head_eq hc (ho ▸ hb) hbc).symm ho

lemma buddyHead_cases (h : 2^k ∣ a) : (2^(k+1) ∣ a ∧ buddyHead a k = a + 2^k) ∨
    (2^(k+1) ∣ buddyHead a k ∧ a = buddyHead a k + 2^k) := by
  obtain ⟨q,rfl⟩ := h
  have hpos : 0 < 2^k := by positivity
  have hdiv : 2^k * q / 2^k = q := Nat.mul_div_cancel_left q hpos
  rcases Nat.even_or_odd' q with ⟨r,rfl | rfl⟩
  · refine .inl ⟨⟨r,by ring⟩,?_⟩
    rw [buddyHead,hdiv,if_neg (by omega)]
  · have hb : buddyHead (2^k * (2*r+1)) k = 2^k * (2*r) := by
      rw [buddyHead,hdiv,if_pos (by omega),Nat.mul_add,Nat.mul_one,Nat.add_sub_cancel]
    refine .inr ⟨⟨r,by rw [hb]; ring⟩,?_⟩
    rw [hb]
    ring

lemma buddyHead_even (h : 2^(k+1) ∣ a) : buddyHead a k = a + 2^k := by
  have hpos : 0 < 2^k := by positivity
  have hpow : 2^(k+1) = 2^k + 2^k := by ring
  rcases buddyHead_cases ((pow_dvd_pow 2 (Nat.le_succ k)).trans h) with ⟨_,he⟩ | ⟨hd,he⟩
  · exact he
  · rw [he,Nat.dvd_add_right hd] at h
    exact absurd (Nat.le_of_dvd hpos h) (by omega)

lemma buddy_ne (h : Aligned b) : (buddy b).1 ≠ b.1 := by
  have hpos : 0 < 2^b.2 := by positivity
  change buddyHead b.1 b.2 ≠ b.1
  rcases buddyHead_cases h with ⟨_,he⟩ | ⟨_,he⟩ <;> omega

lemma buddy_aligned (h : Aligned b) : Aligned (buddy b) := by
  have hdvd : 2^b.2 ∣ 2^(b.2+1) := pow_dvd_pow 2 (Nat.le_succ _)
  rcases buddyHead_cases h with ⟨_,he⟩ | ⟨hd,_⟩
  · change 2^b.2 ∣ buddyHead b.1 b.2
    rw [he]
    exact Nat.dvd_add h dvd_rfl
  · exact hdvd.trans hd

lemma parent_aligned (h : Aligned b) : Aligned (parent b) := by
  change 2^(b.2+1) ∣ min b.1 (buddyHead b.1 b.2)
  rcases buddyHead_cases h with ⟨hd,he⟩ | ⟨hd,he⟩
  · rwa [he,Nat.min_eq_left (Nat.le_add_right _ _)]
  · rwa [Nat.min_eq_right (by omega)]

lemma mem_parent (h : Aligned b) (p : Nat) : Mem p (parent b) ↔ Mem p b ∨ Mem p (buddy b) := by
  have hpow : 2^(b.2+1) = 2^b.2 + 2^b.2 := by ring
  rcases buddyHead_cases h with ⟨_,he⟩ | ⟨_,he⟩
  · have hmin : min b.1 (buddyHead b.1 b.2) = b.1 := by rw [he]; exact Nat.min_eq_left (by omega)
    simp only [Mem,parent,buddy,hmin]
    rw [he]
    omega
  · have hmin : min b.1 (buddyHead b.1 b.2) = buddyHead b.1 b.2 := Nat.min_eq_right (by omega)
    simp only [Mem,parent,buddy,hmin]
    omega

lemma buddy_buddy (h : Aligned b) : buddy (buddy b) = b := by
  have hpow : 2^(b.2+1) = 2^b.2 + 2^b.2 := by ring
  have hpos : 0 < 2^b.2 := by positivity
  refine Prod.ext ?_ rfl
  change buddyHead (buddyHead b.1 b.2) b.2 = b.1
  rcases buddyHead_cases h with ⟨hd,he⟩ | ⟨hd,he⟩
  · rcases buddyHead_cases (buddy_aligned h) with ⟨hd',_⟩ | ⟨_,he'⟩
    · change 2^(b.2+1) ∣ buddyHead b.1 b.2 at hd'
      rw [he,Nat.dvd_add_right hd] at hd'
      exact absurd (Nat.le_of_dvd hpos hd') (by omega)
    · change buddyHead b.1 b.2 = buddyHead (buddyHead b.1 b.2) b.2 + 2^b.2 at he'
      omega
  · rcases buddyHead_cases (buddy_aligned h) with ⟨_,he'⟩ | ⟨hd',he'⟩
    · exact he'.trans he.symm
    · change 2^(b.2+1) ∣ buddyHead (buddyHead b.1 b.2) b.2 at hd'
      change buddyHead b.1 b.2 = buddyHead (buddyHead b.1 b.2) b.2 + 2^b.2 at he'
      rw [he',Nat.dvd_add_right hd'] at hd
      exact absurd (Nat.le_of_dvd hpos hd) (by omega)

structure Tiling (n : Nat) (T : Set Blk) : Prop where
  aligned : ∀ b ∈ T, Aligned b
  inside : ∀ b ∈ T, b.1 + 2^b.2 ≤ n
  cover : ∀ p < n, ∃ b ∈ T, Mem p b
  unique : ∀ b ∈ T, ∀ c ∈ T, ∀ p, Mem p b → Mem p c → b = c

namespace Tiling

variable {n : Nat} {T : Set Blk} {b : Blk} {a k : Nat} {U : Set Blk}

section
variable (h : Tiling n T)
include h

lemma lt_of_mem (hb : b ∈ T) {p : Nat} (hp : Mem p b) : p < n :=
  lt_of_lt_of_le hp.2 (h.inside b hb)

lemma head_unique {j : Nat} (hj : (a,j) ∈ T) (hk : (a,k) ∈ T) : j = k :=
  congrArg Prod.snd (h.unique _ hj _ hk a (mem_head _) (mem_head _))

lemma buddy_head (hb : b ∈ T) (hn : (buddy b).1 < n) : ∃ k ≤ b.2, ((buddy b).1,k) ∈ T := by
  obtain ⟨c,hc,hm⟩ := h.cover _ hn
  have hab := h.aligned b hb
  have hac := h.aligned c hc
  have hle : c.2 ≤ b.2 := by
    by_contra hlt
    have hp : Mem b.1 (parent b) := (mem_parent hab _).mpr (.inl (mem_head b))
    have hpb : Mem (buddy b).1 (parent b) := (mem_parent hab _).mpr (.inr (mem_head _))
    have hbc : Mem b.1 c := nested (parent_aligned hab) hac (Nat.not_le.mp hlt) hpb hm hp
    have he := h.unique b hb c hc b.1 (mem_head b) hbc
    exact hlt (he ▸ le_rfl)
  have hd : 2^c.2 ∣ (buddy b).1 := (pow_dvd_pow 2 hle).trans (buddy_aligned hab)
  refine ⟨c.2,hle,?_⟩
  rwa [← head_eq hac hd hm]

lemma congr (he : ∀ b, b ∈ U ↔ b ∈ T) : Tiling n U := by
  have hUT : U = T := Set.ext he
  exact hUT ▸ h

lemma replace (D E : Set Blk) (hD : D ⊆ T)
    (hE : ∀ b ∈ E, Aligned b) (hcover : ∀ p, (∃ b ∈ D, Mem p b) ↔ ∃ b ∈ E, Mem p b)
    (hunique : ∀ b ∈ E, ∀ c ∈ E, ∀ p, Mem p b → Mem p c → b = c)
    (hU : ∀ b, b ∈ U ↔ (b ∈ T ∧ b ∉ D) ∨ b ∈ E) : Tiling n U := by
  have apart : ∀ b ∈ T, b ∉ D → ∀ c ∈ E, ∀ p, Mem p b → ¬ Mem p c := by
    intro b hb hbD c hc p hpb hpc
    obtain ⟨d,hd,hpd⟩ := (hcover p).mpr ⟨c,hc,hpc⟩
    exact hbD (h.unique b hb d (hD hd) p hpb hpd ▸ hd)
  refine ⟨?_,?_,?_,?_⟩
  · intro b hb
    rcases (hU b).mp hb with hb | hb
    · exact h.aligned b hb.1
    · exact hE b hb
  · intro b hb
    rcases (hU b).mp hb with hb | hb
    · exact h.inside b hb.1
    · have hpos : 0 < 2^b.2 := by positivity
      have hlast : Mem (b.1 + 2^b.2 - 1) b := ⟨by omega,by omega⟩
      obtain ⟨d,hd,hpd⟩ := (hcover _).mpr ⟨b,hb,hlast⟩
      have := h.lt_of_mem (hD hd) hpd
      omega
  · intro p hp
    obtain ⟨b,hb,hpb⟩ := h.cover p hp
    by_cases hbD : b ∈ D
    · obtain ⟨e,he,hpe⟩ := (hcover p).mp ⟨b,hbD,hpb⟩
      exact ⟨e,(hU e).mpr (.inr he),hpe⟩
    · exact ⟨b,(hU b).mpr (.inl ⟨hb,hbD⟩),hpb⟩
  · intro b hb c hc p hpb hpc
    rcases (hU b).mp hb with hb | hb <;> rcases (hU c).mp hc with hc | hc
    · exact h.unique b hb.1 c hc.1 p hpb hpc
    · exact absurd hpc (apart b hb.1 hb.2 c hc p hpb)
    · exact absurd hpb (apart c hc.1 hc.2 b hb p hpc)
    · exact hunique b hb c hc p hpb hpc

lemma split (hb : (a,k+1) ∈ T)
    (hU : ∀ b, b ∈ U ↔ (b ∈ T ∧ b ≠ (a,k+1)) ∨ b = (a,k) ∨ b = (a + 2^k,k)) : Tiling n U := by
  have hpow : 2^(k+1) = 2^k + 2^k := by ring
  have hal : 2^(k+1) ∣ a := h.aligned _ hb
  have hak : 2^k ∣ a := (pow_dvd_pow 2 (Nat.le_succ k)).trans hal
  refine h.replace {(a,k+1)} {(a,k),(a + 2^k,k)} (by simpa using hb) ?_ ?_ ?_ (by simpa using hU)
  · rintro b (rfl | rfl)
    · exact hak
    · exact Nat.dvd_add hak dvd_rfl
  · intro p
    simp only [Set.mem_singleton_iff,exists_eq_left,Set.mem_insert_iff,exists_eq_or_imp,Mem]
    omega
  · rintro b (rfl | rfl) c (rfl | rfl) p hpb hpc <;> simp only [Mem] at hpb hpc <;>
      first | rfl | omega

lemma merge (hb : b ∈ T) (hc : buddy b ∈ T)
    (hU : ∀ c, c ∈ U ↔ (c ∈ T ∧ c ≠ b ∧ c ≠ buddy b) ∨ c = parent b) : Tiling n U := by
  have hal := h.aligned b hb
  refine h.replace {b,buddy b} {parent b} ?_ ?_ ?_ ?_ ?_
  · rintro c (rfl | rfl)
    · exact hb
    · exact hc
  · rintro c rfl
    exact parent_aligned hal
  · intro p
    simp [mem_parent hal]
  · rintro c rfl d rfl _ _ _
    rfl
  · simpa [and_assoc] using hU

lemma extend (hk : 2^k ∣ n) (hU : ∀ b, b ∈ U ↔ b ∈ T ∨ b = (n,k)) : Tiling (n + 2^k) U := by
  have apart : ∀ b ∈ T, ∀ p, Mem p b → ¬ Mem p (n,k) := fun b hb p hp hq =>
    absurd (h.lt_of_mem hb hp) (Nat.not_lt.mpr hq.1)
  refine ⟨?_,?_,?_,?_⟩
  · intro b hb
    rcases (hU b).mp hb with hb | rfl
    · exact h.aligned b hb
    · exact hk
  · intro b hb
    rcases (hU b).mp hb with hb | rfl
    · exact (h.inside b hb).trans (Nat.le_add_right _ _)
    · exact le_rfl
  · intro p hp
    by_cases hlt : p < n
    · obtain ⟨b,hb,hm⟩ := h.cover p hlt
      exact ⟨b,(hU b).mpr (.inl hb),hm⟩
    · exact ⟨(n,k),(hU _).mpr (.inr rfl),Nat.not_lt.mp hlt,hp⟩
  · intro b hb c hc p hpb hpc
    rcases (hU b).mp hb with hb | rfl <;> rcases (hU c).mp hc with hc | rfl
    · exact h.unique b hb c hc p hpb hpc
    · exact absurd hpc (apart b hb p hpb)
    · exact absurd hpb (apart c hc p hpc)
    · rfl

end

end Tiling

def NoBuddies (F : Set Blk) (m : Nat) : Prop := ∀ b ∈ F, b.2 < m → buddy b ∉ F

namespace Tiling

variable {n m : Nat} {T F G O : Set Blk}

lemma free_within (h : Tiling n T) (hF : F ⊆ T) (hn : NoBuddies F m) {k : Nat} (hk : k ≤ m) :
    ∀ {a : Nat}, 2^k ∣ a → (∀ p, Mem p (a,k) → ∃ c ∈ F, Mem p c) →
      ∃ c ∈ F, k ≤ c.2 ∧ Mem a c := by
  induction k with
  | zero =>
    intro a _ hall
    obtain ⟨c,hc,hm⟩ := hall a (mem_head (a,0))
    exact ⟨c,hc,Nat.zero_le _,hm⟩
  | succ k ih =>
    intro a ha hall
    have hpow : 2^(k+1) = 2^k + 2^k := by ring
    have hak : 2^k ∣ a := (pow_dvd_pow 2 (Nat.le_succ k)).trans ha
    have hbk : 2^k ∣ a + 2^k := Nat.dvd_add hak dvd_rfl
    obtain ⟨c,hc,hkc,hmc⟩ := ih (by omega) hak (fun p hp => hall p ⟨hp.1,by have := hp.2; simp only at *; omega⟩)
    obtain ⟨d,hd,hkd,hmd⟩ := ih (by omega) hbk (fun p hp => hall p ⟨by have := hp.1; simp only at *; omega,
      by have := hp.2; simp only at *; omega⟩)
    rcases Nat.lt_or_ge k c.2 with hlt | hge
    · exact ⟨c,hc,hlt,hmc⟩
    rcases Nat.lt_or_ge k d.2 with hlt | hge'
    · refine ⟨d,hd,hlt,?_⟩
      have hwhole : Aligned (a,k+1) := ha
      have hin : Mem (a + 2^k) (a,k+1) := ⟨by simp,by simp only; omega⟩
      exact nested hwhole (h.aligned d (hF hd)) hlt hin hmd (mem_head (a,k+1))
    have hck : c.2 = k := by omega
    have hdk : d.2 = k := by omega
    have hc1 : c.1 = a := head_eq (h.aligned c (hF hc)) (hck ▸ hak) hmc
    have hd1 : d.1 = a + 2^k := head_eq (h.aligned d (hF hd)) (hdk ▸ hbk) hmd
    have hbud : buddy c = d := by
      refine Prod.ext ?_ (hck.trans hdk.symm)
      change buddyHead c.1 c.2 = d.1
      rw [hc1,hck,hd1,buddyHead_even ha]
    exact absurd (hbud ▸ hd) (hn c hc (by omega))

section
variable (hF : Tiling n (F ∪ O)) (hG : Tiling n (G ∪ O))
include hF hG

lemma larger (hFO : ∀ b ∈ F, b ∉ O) (hm : ∀ b ∈ F, b.2 ≤ m) (hn : NoBuddies G m) {b : Blk} (hb : b ∈ F) :
    ∃ c ∈ G, b.2 ≤ c.2 ∧ Mem b.1 c := by
  refine hG.free_within (fun c hc => .inl hc) hn (hm b hb) (hF.aligned b (.inl hb)) ?_
  intro p hp
  obtain ⟨c,hc | hc,hpc⟩ := hG.cover p (hF.lt_of_mem (.inl hb) hp)
  · exact ⟨c,hc,hpc⟩
  · have he := hF.unique b (.inl hb) c (.inr hc) p hp hpc
    exact absurd (he ▸ hc) (hFO b hb)

lemma canonical_subset (hFO : ∀ b ∈ F, b ∉ O) (hGO : ∀ b ∈ G, b ∉ O) (hFm : ∀ b ∈ F, b.2 ≤ m) (hGm : ∀ b ∈ G, b.2 ≤ m)
    (hFn : NoBuddies F m) (hGn : NoBuddies G m) : F ⊆ G := by
  intro b hb
  obtain ⟨c,hc,hbc,hmc⟩ := larger hF hG hFO hFm hGn hb
  obtain ⟨d,hd,hcd,hmd⟩ := larger hG hF hGO hGm hFn hc
  have hac := hG.aligned c (.inl hc)
  have hab := hF.aligned b (.inl hb)
  have hbd : Mem b.1 d := nested hac (hF.aligned d (.inl hd)) hcd (mem_head c) hmd hmc
  have he : b = d := hF.unique b (.inl hb) d (.inl hd) b.1 (mem_head b) hbd
  have ho : b.2 = c.2 := le_antisymm hbc (he ▸ hcd)
  exact eq_of_order hab hac ho (mem_head b) hmc ▸ hc

lemma canonical (hFO : ∀ b ∈ F, b ∉ O) (hGO : ∀ b ∈ G, b ∉ O) (hFm : ∀ b ∈ F, b.2 ≤ m) (hGm : ∀ b ∈ G, b.2 ≤ m)
    (hFn : NoBuddies F m) (hGn : NoBuddies G m) : F = G :=
  Set.Subset.antisymm (canonical_subset hF hG hFO hGO hFm hGm hFn hGn)
    (canonical_subset hG hF hGO hFO hGm hFm hGn hFn)

end

end Tiling
end Dyadic
