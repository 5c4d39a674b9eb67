import MappedMemory.Vpmap.Isolation

namespace MappedMemory

open Walk

namespace Tables

inductive Build where
  | create
  | map (pml4 vaddr paddr n : Nat) (perm : Memperm)
deriving DecidableEq, Repr

def buildStep (m : Tables) : Build → Option Tables
  | .create => do
    let (m,page) ← m.vpmapCreate
    match page with
    | none => some m
    | some page => some { m with pml4s := page :: m.pml4s }
  | .map pml4 vaddr paddr n perm =>
    if pml4 ∈ m.pml4s then (m.vpmapMap pml4 vaddr paddr n perm).map Prod.fst else none

def build (m : Tables) (bs : List Build) : Option Tables := bs.foldlM buildStep m

structure Blank (m : Tables) : Prop where
  good : m.pm.Good
  small : m.pm.pagemapEnd ≤ 2^39
  empty : m.pml4s = []

def Built (m : Tables) : Prop := m.Owned (· ∈ m.pml4s) Prod.mk

def slot (v : Nat) : Nat := v / pgSize % 2^36

lemma slot_eq_iff {v w : Nat} : path v = path w ∧ ptx v = ptx w ↔ slot v = slot w := by
  simp only [path,ptx,pml4x,pdptx,pdx,slot,pgSize,List.cons.injEq,and_true]
  omega

variable {m m' : Tables} {r v paddr n : Nat} {perm : Memperm} {ok : Bool} {m0 : Tables} {bs : List Build}

structure PagesMapped (m m' : Tables) (r v paddr n : Nat) (perm : Memperm) (ok : Bool) : Prop where
  built : m'.Built
  pml4s : m'.pml4s = m.pml4s
  frame : ∀ r' ∈ m.pml4s, ∀ w, (r' = r → ∀ k < n, slot (v + k * pgSize) ≠ slot w) → m'.entry r' w = m.entry r' w
  pages : ok = true → n ≤ 2^36 → ∀ k < n, ∀ w, slot (v + k * pgSize) = slot w →
    m'.entry r w = some (ppn (paddr + k * pgSize) + pteP + mempermToPteperm perm)

lemma slot_u64 (v k : Nat) : slot (u64 (v + pgSize) + k * pgSize) = slot (v + (k + 1) * pgSize) := by
  simp only [slot,u64,pgSize]
  omega

lemma ppn_u64 (paddr k : Nat) : ppn (u64 (paddr + pgSize) + k * pgSize) = ppn (paddr + (k + 1) * pgSize) := by
  simp only [ppn,u64,pgSize]
  omega

lemma Built.mapPagesFrom (hi : m.Built) (hr : r ∈ m.pml4s)
    (h : Tables.mapPagesFrom r (mempermToPteperm perm) n m v paddr = some (m',ok)) :
    PagesMapped m m' r v paddr n perm ok := by
  induction n generalizing m v paddr with
  | zero =>
    obtain ⟨rfl,rfl⟩ : m = m' ∧ true = ok := by simpa [Tables.mapPagesFrom] using h
    exact ⟨hi,rfl,fun _ _ _ _ => rfl,fun _ _ k hk => absurd hk (Nat.not_lt_zero k)⟩
  | succ n ih =>
    simp only [Tables.mapPagesFrom,Run.bind_some,Prod.exists] at h
    obtain ⟨m1,x,hf,h⟩ := h
    obtain ⟨hg,hw⟩ := hi.findPte naming_prod hr hf
    cases x with
    | none =>
      obtain ⟨rfl,rfl⟩ : m1 = m' ∧ false = ok := by simpa using h
      exact ⟨by rw [Built,hg.pml4s]; exact hg.owned,hg.pml4s,fun r' hr' w _ => hg.entries r' hr' w,by simp⟩
    | some y =>
      obtain ⟨t,j⟩ := y
      obtain ⟨ht,rfl⟩ := hw t j rfl
      have hown := hg.owned.writePte (e := ppn paddr + pteP + mempermToPteperm perm) told_prod hr ht
      have hwr := written (e := ppn paddr + pteP + mempermToPteperm perm) hg.owned.unique told_prod hr ht
      have hsame : (m1.setEntry t (ptx v) (ppn paddr + pteP + mempermToPteperm perm)).pml4s = m.pml4s := hg.pml4s
      have hstep := ih (by rw [Built,hsame]; exact hown) (hsame ▸ hr) h
      have hone : ∀ r' ∈ m.pml4s, ∀ w, (m1.setEntry t (ptx v) (ppn paddr + pteP + mempermToPteperm perm)).entry r' w =
          if r' = r ∧ slot v = slot w then some (ppn paddr + pteP + mempermToPteperm perm) else m.entry r' w := by
        intro r' hr' w
        have hcond : (r,path v) = (r',path w) ∧ ptx v = ptx w ↔ r' = r ∧ slot v = slot w := by
          rw [Prod.mk_inj,and_assoc,slot_eq_iff,eq_comm (a := r)]
        rw [hwr.entries r' hr' w,if_pos (present_pte paddr perm),hg.entries r' hr' w]
        exact if_congr hcond rfl rfl
      refine ⟨hstep.built,hstep.pml4s.trans hsame,fun r' hr' w hout => ?_,fun hok hn k hk w hw => ?_⟩
      · have hrest : r' = r → ∀ k < n, slot (u64 (v + pgSize) + k * pgSize) ≠ slot w := by
          intro he k hk
          rw [slot_u64]
          exact hout he (k + 1) (by omega)
        rw [hstep.frame r' (hsame ▸ hr') w hrest,hone r' hr' w]
        refine if_neg fun hc => hout hc.1 0 (by omega) ?_
        simpa using hc.2
      · cases k with
        | zero =>
          have hout : ∀ k < n, slot (u64 (v + pgSize) + k * pgSize) ≠ slot w := by
            intro k hk
            rw [slot_u64,← hw]
            simp only [slot,pgSize]
            omega
          rw [hstep.frame r (hsame ▸ hr) w fun _ => hout,hone r hr w,if_pos ⟨rfl,by simpa using hw⟩]
          simp
        | succ k =>
          rw [hstep.pages hok (by omega) k (by omega) w (by rw [slot_u64,hw]),ppn_u64]

lemma Built.vpmapMap (hi : m.Built) (hr : r ∈ m.pml4s) (h : m.vpmapMap r v paddr n perm = some (m',ok)) :
    m'.Built ∧ m'.pml4s = m.pml4s := by
  rw [Tables.vpmapMap] at h
  split at h
  · obtain ⟨rfl,rfl⟩ : m = m' ∧ true = ok := by simpa using h
    exact ⟨hi,rfl⟩
  · have hm := hi.mapPagesFrom hr h
    exact ⟨hm.built,hm.pml4s⟩

lemma Built.create (hi : m.Built) {x : Option Nat} (h : m.vpmapCreate = some (m',x)) :
    (x = none → m'.Built) ∧ ∀ g, x = some g → Built { m' with pml4s := g :: m'.pml4s } := by
  rcases Pmem.pmemAlloc_spec hi.good with ha | ⟨pm,g,ha,halloc⟩ | ⟨ha,_⟩
  · obtain ⟨rfl,rfl⟩ : m = m' ∧ none = x := by simpa [vpmapCreate,ha] using h
    exact ⟨fun _ => hi,by simp⟩
  · obtain ⟨rfl,rfl⟩ : { m with pm := pm }.clearPage g = m' ∧ some g = x := by simpa [vpmapCreate,ha] using h
    refine ⟨by simp,fun g' hg' => ?_⟩
    cases hg'
    have hmem : ∀ t j, ({ m with pm := pm }.clearPage g).mem t j = if t = g then 0 else m.mem t j := by
      intro t j
      simp only [clearPage,Function.update_apply]
      split_ifs <;> rfl
    have hfresh : ∀ r ∈ m.pml4s, ∀ p : List Nat, p.length ≤ 3 → walk m.next r p ≠ some g :=
      fun r hr p hp => hi.fresh halloc hr hp
    have hold : ∀ r ∈ m.pml4s, ∀ p : List Nat, p.length ≤ 3 →
        walk ({ m with pm := pm }.clearPage g).next r p = walk m.next r p := by
      intro r hr p hp
      refine walk_congr fun q j hpre t ht => ?_
      have hlen := hpre.length_le
      simp only [List.length_append,List.length_singleton] at hlen
      have htg : t ≠ g := fun he => hfresh r hr q (by omega) (he ▸ ht)
      simp only [next,hmem,if_neg htg]
    have hnew : ∀ p t, walk ({ m with pm := pm }.clearPage g).next g p = some t → p = [] ∧ t = g := by
      intro p t ht
      cases p with
      | nil => exact ⟨rfl,(Option.some.inj ht).symm⟩
      | cons j p => simp [walk,next,hmem,present] at ht
    refine ⟨halloc.good,halloc.pagemapEnd ▸ hi.small,?_,?_⟩
    · intro r hr p hp t ht
      change t < pm.pagemapEnd ∧ 0 < pm.refcnt t
      rw [halloc.pagemapEnd,halloc.refcnt]
      rcases List.mem_cons.mp hr with rfl | hr
      · obtain ⟨-,rfl⟩ := hnew p t ht
        simp [halloc.inside]
      · have hw := (hold r hr p hp).symm.trans ht
        have htg : t ≠ g := fun he => hfresh r hr p hp (he ▸ hw)
        rw [if_neg htg]
        exact hi.owned r hr p hp t hw
    · intro r r' hr hr' p p' hp hp' t ht ht'
      rcases List.mem_cons.mp hr with rfl | hr <;> rcases List.mem_cons.mp hr' with rfl | hr'
      · rw [(hnew p t ht).1,(hnew p' t ht').1]
      · exact absurd ((hold r' hr' p' hp').symm.trans (ht'.trans (by rw [(hnew p t ht).2]))) (hfresh r' hr' p' hp')
      · exact absurd ((hold r hr p hp).symm.trans (ht.trans (by rw [(hnew p' t ht').2]))) (hfresh r hr p hp)
      · exact hi.unique r r' hr hr' p p' hp hp' t ((hold r hr p hp).symm.trans ht) ((hold r' hr' p' hp').symm.trans ht')
  · simp [vpmapCreate,ha] at h

lemma Built.step {b : Build} (hi : m.Built) (h : m.buildStep b = some m') : m'.Built := by
  cases b with
  | create =>
    simp only [buildStep,Run.bind_some,Prod.exists] at h
    obtain ⟨m1,x,hc,h⟩ := h
    obtain ⟨hnone,hsome⟩ := hi.create hc
    cases x with
    | none => exact Option.some.inj h ▸ hnone rfl
    | some g => exact Option.some.inj h ▸ hsome g rfl
  | map pml4 vaddr paddr n perm =>
    simp only [buildStep] at h
    split at h
    case isFalse => exact nomatch h
    case isTrue hr =>
      obtain ⟨⟨m1,ok⟩,hm,rfl⟩ := Option.map_eq_some_iff.mp h
      exact (hi.vpmapMap hr hm).1

lemma Blank.built (h0 : m0.Blank) (h : m0.build bs = some m) : m.Built := by
  refine Run.invariant (fun _ _ _ hi hs => Built.step hi hs) ⟨h0.good,h0.small,?_,?_⟩ h
  · intro r hr
    simp [h0.empty] at hr
  · intro r r' hr
    simp [h0.empty] at hr

def Canonical (w : Nat) : Prop := w < 2^47 ∨ 2^64 - 2^47 ≤ w ∧ w < 2^64

instance (w : Nat) : Decidable (Canonical w) := inferInstanceAs (Decidable (_ ∨ _))

def OneHalf (v n : Nat) : Prop := v + n * pgSize ≤ 2^47 ∨ 2^64 - 2^47 ≤ v ∧ v + n * pgSize ≤ 2^64

instance (v n : Nat) : Decidable (OneHalf v n) := inferInstanceAs (Decidable (_ ∨ _))

lemma vpmapMap_pages (hv : v % pgSize = 0) (hp : paddr % pgSize = 0) (hn : OneHalf v n) :
    m.vpmapMap r v paddr n perm = mapPagesFrom r (mempermToPteperm perm) n m v paddr := by
  have hround : ∀ a, a % pgSize = 0 → pgRoundDown a = a := fun a ha => by
    simp only [pgRoundDown,pgSize] at *
    omega
  by_cases hz : n = 0
  · simp [vpmapMap,hz,mapPagesFrom]
  · have hcount : sub64 (pgRoundDown (u64 (v + u64 (n * pgSize)))) v / pgSize = n := by
      simp only [OneHalf,sub64,pgRoundDown,u64,pgSize] at *
      omega
    rw [vpmapMap,if_neg hz,mapPages,hround v hv,hround paddr hp,hround v hv,hround paddr hp,hcount]

theorem vpmap_is_flat_map (h0 : m0.Blank) (hb : m0.build bs = some m)
    (hr : r ∈ m.pml4s) (hv : v % pgSize = 0) (hp : paddr % pgSize = 0) (hn : OneHalf v n)
    (hphys : paddr + n * pgSize ≤ 2^51) (hm : m.vpmapMap r v paddr n perm = some (m',ok)) :
    (ok = true → ∀ x < n * pgSize, m'.vpmapLookupVaddr r (v + x) = some (paddr + x)) ∧
      (∀ w, Canonical w → ¬(v ≤ w ∧ w < v + n * pgSize) → m'.vpmapLookupVaddr r w = m.vpmapLookupVaddr r w) ∧
      ∀ r' ∈ m.pml4s, r' ≠ r → ∀ w, m'.vpmapLookupVaddr r' w = m.vpmapLookupVaddr r' w := by
  rw [vpmapMap_pages hv hp hn] at hm
  have h := (h0.built hb).mapPagesFrom hr hm
  have hle : n ≤ 2^36 := by
    simp only [OneHalf,pgSize] at hn
    omega
  refine ⟨fun hok x hx => ?_,fun w hw hout => ?_,fun r' hr' hne w => ?_⟩
  · have hk : x / pgSize < n := Nat.div_lt_of_lt_mul (by rwa [mul_comm])
    have hslot : slot (v + x / pgSize * pgSize) = slot (v + x) := by
      simp only [slot,pgSize] at *
      omega
    rw [vpmapLookupVaddr_eq,h.pages hok hle _ hk _ hslot,Option.map_some,ppn_pte]
    simp only [ppn,pgSize] at *
    congr 1
    omega
  · have hdiff : ∀ k < n, slot (v + k * pgSize) ≠ slot w := by
      intro k hk
      have hkn : k * pgSize + pgSize ≤ n * pgSize := by
        rw [← Nat.succ_mul]
        exact Nat.mul_le_mul_right _ hk
      simp only [OneHalf,Canonical,slot,pgSize] at *
      omega
    rw [vpmapLookupVaddr_eq,vpmapLookupVaddr_eq,h.frame r hr w fun _ => hdiff]
  · rw [vpmapLookupVaddr_eq,vpmapLookupVaddr_eq,h.frame r' hr' w fun he => absurd he hne]

def blankTables : Tables := ⟨kernelPm,fun _ _ => 0,0,[]⟩

lemma blankTables_blank : blankTables.Blank := ⟨kernelPm_good,by decide +kernel,rfl⟩

def mapInOne (v paddr n : Nat) : Option (Tables × Tables × Bool) := do
  let m ← blankTables.build [.create]
  let (m',ok) ← m.vpmapMap 8 v paddr n .urw
  some (m,m',ok)

lemma mapInOne_some {v paddr n : Nat} {x : Tables × Tables × Bool} (h : mapInOne v paddr n = some x) :
    blankTables.build [.create] = some x.1 ∧ x.1.vpmapMap 8 v paddr n .urw = some x.2 := by
  simp only [mapInOne,Run.bind_some,Prod.exists,Option.some_inj] at h
  obtain ⟨m,hm,m',ok,hm',rfl⟩ := h
  exact ⟨hm,hm'⟩

theorem vpmap_is_flat_map_border : ∃ m m', blankTables.build [.create] = some m ∧
    m.vpmapMap 8 (2^39 - pgSize) (5 * pgSize) 2 .urw = some (m',true) ∧
    (∀ x < 2 * pgSize, m'.vpmapLookupVaddr 8 (2^39 - pgSize + x) = some (5 * pgSize + x)) ∧
    ∀ w, Canonical w → ¬(2^39 - pgSize ≤ w ∧ w < 2^39 - pgSize + 2 * pgSize) →
      m'.vpmapLookupVaddr 8 w = m.vpmapLookupVaddr 8 w := by
  obtain ⟨x,hx⟩ := Option.isSome_iff_exists.mp
    (show (mapInOne (2^39 - pgSize) (5 * pgSize) 2).isSome = true by decide +kernel)
  have heval : (mapInOne (2^39 - pgSize) (5 * pgSize) 2).map (fun x => (x.1.pml4s,x.2.2)) = some ([8],true) := by
    decide +kernel
  rw [hx] at heval
  obtain ⟨hs,hok⟩ := Prod.mk.inj (Option.some.inj heval)
  obtain ⟨hb,hm⟩ := mapInOne_some hx
  have h := vpmap_is_flat_map blankTables_blank hb (by simp [hs]) (by decide) (by decide) (by decide) (by decide) hm
  exact ⟨x.1,x.2.1,hb,hok ▸ hm,h.1 hok,h.2.1⟩

theorem flat_map_left :
    (mapInOne (2^47 - pgSize) (5 * pgSize) 2).map (fun x =>
        (x.2.2,x.1.vpmapLookupVaddr 8 (2^64 - 2^47),x.2.1.vpmapLookupVaddr 8 (2^64 - 2^47))) =
      some (true,none,some (6 * pgSize)) ∧ Canonical (2^64 - 2^47) ∧
    (mapInOne pgSize (5 * pgSize) (2^52)).map (fun x => (x.2.2,x.2.1.vpmapLookupVaddr 8 pgSize)) = some (true,none) ∧
    (mapInOne pgSize (2^51 - pgSize) 2).map (fun x => (x.2.2,x.2.1.vpmapLookupVaddr 8 (2 * pgSize))) =
      some (true,some 0) := by
  decide +kernel

end Tables
end MappedMemory
