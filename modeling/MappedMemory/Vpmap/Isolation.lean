import MappedMemory.Pmem.Blocks
import MappedMemory.Vm.RegionList
import MappedMemory.Vpmap.Walks

namespace MappedMemory

open Option (bind_some map_some some_inj)
open Walk

namespace Tables

def isRoot (m : Tables) (r : Nat) : Prop := r = m.kpml4 ∨ r ∈ m.pml4s

def node (k r : Nat) (p : List Nat) : Nat × List Nat := (if p.head? = some 511 then k else r,p)

structure Inv (m : Tables) : Prop where
  good : m.pm.Good
  small : m.pm.pagemapEnd ≤ 2^39
  kernel : present (m.mem m.kpml4 511) = true
  shared : ∀ r ∈ m.pml4s, m.mem r 511 = m.mem m.kpml4 511
  owned : ∀ r, m.isRoot r → ∀ p : List Nat, p.length ≤ 3 → ∀ t, walk m.next r p = some t →
    t < m.pm.pagemapEnd ∧ 0 < m.pm.refcnt t
  unique : Unique m.next m.isRoot 3 (node m.kpml4)

variable {m : Tables} {r f g i : Nat} {p : List Nat} {pm : Pmem} {m' : Tables} {v r' t e paddr n : Nat}
  {perm : Memperm} {ok : Bool}

lemma naming (k : Nat) : Naming (node k) := by
  refine ⟨fun h => congrArg (fun n => n.2.length) h,?_⟩
  intro r r' p p' h i
  obtain rfl : p = p' := congrArg Prod.snd h
  cases p with
  | nil =>
    obtain rfl : r = r' := by simpa [node] using congrArg Prod.fst h
    rfl
  | cons j p => simpa [node] using h

lemma Inv.pml4_present (hi : m.Inv) (hr : m.isRoot r) : present (m.mem r 511) = true := by
  rcases hr with rfl | hr
  · exact hi.kernel
  · exact hi.shared r hr ▸ hi.kernel

lemma Inv.owns (hi : m.Inv) : m.Owned m.isRoot (node m.kpml4) := ⟨hi.good,hi.small,hi.owned,hi.unique⟩

lemma Inv.fresh (hi : m.Inv) {k : Nat} (ha : Pmem.Allocated m.pm pm g k) (hr : m.isRoot r)
    (hp : p.length ≤ 3) : walk m.next r p ≠ some g := hi.owns.fresh ha hr hp

structure Extends (m m' : Tables) : Prop where
  inv : m'.Inv
  kpml4 : m'.kpml4 = m.kpml4
  pml4s : m'.pml4s = m.pml4s
  walks : ∀ r, m.isRoot r → ∀ p : List Nat, p.length ≤ 3 → ∀ t, walk m.next r p = some t →
    walk m'.next r p = some t
  entries : ∀ r, m.isRoot r → ∀ v, m'.entry r v = m.entry r v

lemma Extends.isRoot (h : Extends m m') (hr : m.isRoot r) : m'.isRoot r := by
  rcases hr with rfl | hr
  · exact .inl h.kpml4.symm
  · exact .inr (h.pml4s ▸ hr)

lemma isRoot_congr (hk : m'.kpml4 = m.kpml4) (hs : m'.pml4s = m.pml4s) : m'.isRoot = m.isRoot := by
  funext r
  rw [isRoot,isRoot,hk,hs]

lemma Inv.of_owned (hi : m.Inv) (ho : m'.Owned m.isRoot (node m.kpml4)) (hk : m'.kpml4 = m.kpml4)
    (hs : m'.pml4s = m.pml4s) (hroot : ∀ r, m.isRoot r → m'.mem r 511 = m.mem r 511) : m'.Inv := by
  have hroots := isRoot_congr hk hs
  refine ⟨ho.good,ho.small,?_,?_,by rw [hroots]; exact ho.owned,by rw [hroots,hk]; exact ho.unique⟩
  · rw [hk,hroot _ (.inl rfl)]
    exact hi.kernel
  · intro r hr
    rw [hs] at hr
    rw [hk,hroot _ (.inr hr),hroot _ (.inl rfl)]
    exact hi.shared r hr

lemma Grown.extends (hi : m.Inv) (h : Grown m m' m.isRoot (node m.kpml4)) : Extends m m' where
  inv := hi.of_owned h.owned h.kpml4 h.pml4s fun r hr => h.kept r hr 511 (hi.pml4_present hr)
  kpml4 := h.kpml4
  pml4s := h.pml4s
  walks := h.walks
  entries := h.entries

lemma Inv.findPte (hi : m.Inv) (hr : m.isRoot r) {x : Option (Nat × Nat)} (h : m.findPte r v true = some (m',x)) :
    Extends m m' ∧ ∀ t j, x = some (t,j) → walk m'.next r (path v) = some t ∧ j = ptx v := by
  obtain ⟨hg,hw⟩ := hi.owns.findPte (naming m.kpml4) hr h
  exact ⟨hg.extends hi,hw⟩

lemma Inv.walk_of_node (hi : m.Inv) (hr : m.isRoot r) (hr' : m.isRoot r')
    (h : node m.kpml4 r p = node m.kpml4 r' p) : walk m.next r p = walk m.next r' p := by
  cases p with
  | nil =>
    obtain rfl : r = r' := by simpa [node] using congrArg Prod.fst h
    rfl
  | cons j p =>
    by_cases hj : j = 511
    · have hmem : ∀ r, m.isRoot r → m.next r 511 = m.next m.kpml4 511 := by
        rintro r (rfl | hr)
        · rfl
        · simp only [next,hi.shared r hr]
      simp only [walk,hj,hmem r hr,hmem r' hr']
    · obtain rfl : r = r' := by simpa [node,hj] using congrArg Prod.fst h
      rfl

def sameEntry (m : Tables) (r v r' v' : Nat) : Prop :=
  node m.kpml4 r (path v) = node m.kpml4 r' (path v') ∧ ptx v = ptx v'

instance (m : Tables) (r v r' v' : Nat) : Decidable (m.sameEntry r v r' v') :=
  inferInstanceAs (Decidable (_ ∧ _))

lemma Inv.told (hi : m.Inv) : m.Told m.isRoot (node m.kpml4) :=
  ⟨naming m.kpml4,fun _ _ => rfl,fun _ _ _ hr hr' h => hi.walk_of_node hr hr' h⟩

lemma Inv.writePte (hi : m.Inv) (hr : m.isRoot r) (ht : walk m.next r (path v) = some t)
    (he : present e = true) : (m.setEntry t (ptx v) e).Inv ∧ ∀ r', m.isRoot r' → ∀ v',
      (m.setEntry t (ptx v) e).entry r' v' = if m.sameEntry r v r' v' then some e else m.entry r' v' := by
  have hw := written (e := e) hi.unique hi.told hr ht
  refine ⟨hi.of_owned (hi.owns.writePte hi.told hr ht) rfl rfl fun r' hr' => hw.kept r' hr' 511,fun r' hr' v' => ?_⟩
  rw [hw.entries r' hr' v',if_pos he]
  rfl

lemma vpmapMap_one (hv : v < 2^64) (paddr : Nat) (perm : Memperm) : m.vpmapMap r v paddr 1 perm =
      mapPagesFrom r (mempermToPteperm perm) 1 m (pgRoundDown v) (pgRoundDown paddr) := by
  have hcount : sub64 (pgRoundDown (u64 (pgRoundDown v + u64 (1 * pgSize)))) (pgRoundDown (pgRoundDown v)) /
      pgSize = 1 := by
    simp only [sub64,pgRoundDown,u64,pgSize]
    omega
  have hdown : ∀ a, pgRoundDown (pgRoundDown a) = pgRoundDown a := fun a => by
    simp only [pgRoundDown,pgSize]
    omega
  rw [vpmapMap,if_neg one_ne_zero,mapPages,hcount,hdown,hdown]

structure Mapped (m m' : Tables) (r v e : Nat) (ok : Bool) : Prop where
  inv : m'.Inv
  kpml4 : m'.kpml4 = m.kpml4
  pml4s : m'.pml4s = m.pml4s
  entries : ∀ r', m.isRoot r' → ∀ v', m'.entry r' v' =
    if ok = true ∧ m.sameEntry r v r' v' then some e else m.entry r' v'

lemma Inv.vpmapMap (hi : m.Inv) (hr : m.isRoot r) (hv : v < 2^64) (h : m.vpmapMap r v paddr 1 perm = some (m',ok)) :
    Mapped m m' r v (ppn (pgRoundDown paddr) + pteP + mempermToPteperm perm) ok := by
  rw [vpmapMap_one hv] at h
  simp only [mapPagesFrom,Run.bind_some,Prod.exists] at h
  obtain ⟨m1,x,hf,h⟩ := h
  obtain ⟨hext,hw⟩ := hi.findPte hr hf
  cases x with
  | none =>
    obtain ⟨rfl,rfl⟩ : m1 = m' ∧ false = ok := by simpa using h
    exact ⟨hext.inv,hext.kpml4,hext.pml4s,fun r' hr' v' => by simpa using hext.entries r' hr' v'⟩
  | some y =>
    obtain ⟨t,j⟩ := y
    obtain ⟨ht,rfl⟩ := hw t j rfl
    obtain ⟨rfl,rfl⟩ : m1.setEntry t (ptx (pgRoundDown v))
        (ppn (pgRoundDown paddr) + pteP + mempermToPteperm perm) = m' ∧ true = ok := by simpa using h
    obtain ⟨hinv,hentry⟩ := hext.inv.writePte (hext.isRoot hr) ht (present_pte _ perm)
    refine ⟨hinv,hext.kpml4,hext.pml4s,fun r' hr' v' => ?_⟩
    have hsame : m1.sameEntry r (pgRoundDown v) r' v' ↔ m.sameEntry r v r' v' := by
      rw [sameEntry,sameEntry,hext.kpml4,(path_pgRoundDown v).1,(path_pgRoundDown v).2]
    rw [hentry r' (hext.isRoot hr') v',hext.entries r' hr' v']
    simp [hsame]

def Isolated (m m' : Tables) (pml4 : Nat) : Prop :=
  ∀ r, m.isRoot r → ∀ w < 2^64, kmapBase ≤ w ∨ r ≠ pml4 → m'.vpmapLookupVaddr r w = m.vpmapLookupVaddr r w

lemma Mapped.isolated (h : Mapped m m' r v e ok) (hv : pml4x v ≠ 511) : Isolated m m' r := by
  intro r' hr' w hw hout
  have hno : ¬ m.sameEntry r v r' w := by
    rintro ⟨hn,_⟩
    have hpath : path v = path w := congrArg Prod.snd hn
    have htop : pml4x v = pml4x w := by simpa [path] using congrArg List.head? hpath
    rcases hout with hk | hne
    · have : pml4x w = 511 := by
        simp only [pml4x,kmapBase] at *
        omega
      exact hv (htop.trans this)
    · have hrr : r = r' := by simpa [node,path,hv,← htop] using congrArg Prod.fst hn
      exact hne hrr.symm
  rw [vpmapLookupVaddr_eq,vpmapLookupVaddr_eq,h.entries r' hr' w,if_neg fun hc => hno hc.2]

lemma Mapped.leaks (h : Mapped m m' r v (ppn (pgRoundDown paddr) + pteP + mempermToPteperm perm) true)
    (hr' : m.isRoot r') (hv : pml4x v = 511) :
    m'.vpmapLookupVaddr r' v = some (ppn (pgRoundDown paddr) + v % pgSize) := by
  have hsame : m.sameEntry r v r' v := ⟨by simp [node,path,hv],rfl⟩
  rw [vpmapLookupVaddr_eq,h.entries r' hr' v,if_pos ⟨rfl,hsame⟩,map_some,ppn_pte]

lemma pml4x_kmapBase : pml4x kmapBase = 511 := by decide

lemma Inv.asInit (hi : m.Inv) {x : Option Nat} (h : m.asInit = some (m',x)) :
    m'.Inv ∧ m'.kpml4 = m.kpml4 ∧ (x = none → m' = m) ∧ ∀ g, x = some g → g ∉ m.pml4s ∧ m'.pml4s = g :: m.pml4s := by
  rcases Pmem.pmemAlloc_spec hi.good with ha | ⟨pm,g,ha,halloc⟩ | ⟨ha,_⟩
  · obtain ⟨rfl,rfl⟩ : m = m' ∧ none = x := by simpa [Tables.asInit,vpmapCreate,ha] using h
    exact ⟨hi,rfl,fun _ => rfl,fun g hg => by simp at hg⟩
  · have hfresh : ∀ r, m.isRoot r → ∀ p : List Nat, p.length ≤ 3 → walk m.next r p ≠ some g :=
      fun r hr p hp => hi.fresh halloc hr hp
    have hkg : m.kpml4 ≠ g := fun he => hfresh _ (.inl rfl) [] (by simp) (by simp [he])
    have hgs : g ∉ m.pml4s := fun hg => hfresh g (.inr hg) [] (by simp) rfl
    have hm : ∃ u : Tables, m' = u ∧ x = some g ∧ u.pm = pm ∧ u.kpml4 = m.kpml4 ∧ u.pml4s = g :: m.pml4s ∧
        ∀ t j, u.mem t j = if t = g then (if j = 511 then m.mem m.kpml4 511 else 0) else m.mem t j := by
      simp only [Tables.asInit,vpmapCreate,ha,Option.bind_eq_bind,bind_some,vpmapCopyKernelMapping,
        pml4x_kmapBase,clearPage,Function.update_of_ne hkg,hi.kernel,if_true,setEntry,some_inj,
        Prod.mk_inj] at h
      refine ⟨m',rfl,h.2.symm,?_⟩
      rw [← h.1]
      refine ⟨rfl,rfl,rfl,fun t j => ?_⟩
      simp only [Function.update_apply]
      split_ifs <;> simp_all
    obtain ⟨u,rfl,rfl,hpm,hk,hs,hmem⟩ := hm
    have hnext : ∀ t j, t ≠ g → m'.next t j = m.next t j := fun t j htg => by
      simp only [next,hmem,htg,if_false]
    have hold : ∀ r, m.isRoot r → ∀ p : List Nat, p.length ≤ 3 → walk m'.next r p = walk m.next r p := by
      intro r hr p hp
      refine walk_congr fun q j hpre t ht => hnext t j ?_
      have hlen := hpre.length_le
      simp only [List.length_append,List.length_singleton] at hlen
      exact fun he => hfresh r hr q (by omega) (he ▸ ht)
    have hnew : ∀ p : List Nat, p.length ≤ 3 → ∀ t, walk m'.next g p = some t →
        (p = [] ∧ t = g) ∨ (p.head? = some 511 ∧ walk m.next m.kpml4 p = some t) := by
      intro p hp t ht
      cases p with
      | nil => exact .inl ⟨rfl,(Option.some_inj.mp ht).symm⟩
      | cons j p =>
        right
        by_cases hj : j = 511
        · subst hj
          refine ⟨rfl,?_⟩
          have hsame : m'.next g 511 = m'.next m.kpml4 511 := by simp [next,hmem]
          rw [← hold _ (.inl rfl) _ hp,← ht]
          simp only [walk,hsame]
        · simp [walk,next,hmem,hj,present] at ht
    have hroot : ∀ r, m'.isRoot r → r = g ∨ m.isRoot r := by
      rintro r (hr | hr)
      · exact .inr (.inl (hr.trans hk))
      · rw [hs,List.mem_cons] at hr
        exact hr.imp id .inr
    have hnode : ∀ r, m'.isRoot r → ∀ p : List Nat, p.length ≤ 3 → ∀ t, walk m'.next r p = some t →
        (r = g ∧ p = [] ∧ t = g) ∨
        ∃ r0, m.isRoot r0 ∧ walk m.next r0 p = some t ∧ node m.kpml4 r p = node m.kpml4 r0 p := by
      intro r hr p hp t ht
      rcases hroot r hr with rfl | hr
      · rcases hnew p hp t ht with ⟨h1,h2⟩ | ⟨h1,h2⟩
        · exact .inl ⟨rfl,h1,h2⟩
        · exact .inr ⟨m.kpml4,.inl rfl,h2,by simp [node,h1]⟩
      · exact .inr ⟨r,hr,by rwa [← hold r hr p hp],rfl⟩
    refine ⟨⟨hpm ▸ halloc.good,by rw [hpm,halloc.pagemapEnd]; exact hi.small,?_,?_,?_,?_⟩,hk,
      fun he => by simp at he,fun g' hg' => by cases hg'; exact ⟨hgs,hs⟩⟩
    · rw [hk,hmem,if_neg hkg]
      exact hi.kernel
    · intro r hr
      rw [hs,List.mem_cons] at hr
      rw [hk,hmem,hmem,if_neg hkg]
      rcases hr with rfl | hr
      · simp
      · have hrg : r ≠ g := fun he => hgs (he ▸ hr)
        rw [if_neg hrg]
        exact hi.shared r hr
    · intro r hr p hp t ht
      rw [hpm,halloc.pagemapEnd,halloc.refcnt]
      rcases hnode r hr p hp t ht with ⟨_,_,rfl⟩ | ⟨r0,hr0,hw,_⟩
      · simp [halloc.inside]
      · have htg : t ≠ g := fun he => hfresh r0 hr0 p hp (he ▸ hw)
        rw [if_neg htg]
        exact hi.owned r0 hr0 p hp t hw
    · rw [hk]
      intro r r' hr hr' p p' hp hp' t ht ht'
      rcases hnode r hr p hp t ht with ⟨rfl,rfl,h1⟩ | ⟨r0,hr0,hw,hn⟩ <;>
        rcases hnode r' hr' p' hp' t ht' with ⟨rfl,rfl,h2⟩ | ⟨r1,hr1,hw',hn'⟩
      · rfl
      · exact absurd (h1 ▸ hw') (hfresh r1 hr1 p' hp')
      · exact absurd (h2 ▸ hw) (hfresh r0 hr0 p hp)
      · exact hn.trans ((hi.unique r0 r1 hr0 hr1 p p' hp hp' t hw hw').trans hn'.symm)
  · simp [Tables.asInit,vpmapCreate,ha] at h

def spare : Nat → Pmem → Bool
  | 0, _ => true
  | n+1, pm => match pm.pmemAlloc with
      | some (pm',some _) => spare n pm'
      | _ => false

lemma spare_succ (h : spare (n+1) pm = true) :
    ∃ pm' page, pm.pmemAlloc = some (pm',some page) ∧ spare n pm' = true := by
  rw [spare] at h
  split at h
  · rename_i pm' page ha
    exact ⟨pm',page,ha,h⟩
  · simp at h

lemma spare_mono (h : spare (n+1) pm = true) : spare n pm = true := by
  induction n generalizing pm with
  | zero => rfl
  | succ n ih =>
    obtain ⟨pm',page,ha,hs⟩ := spare_succ h
    simpa [spare,ha] using ih hs

lemma nextTable_ok (h : spare (n+1) m.pm = true) (f i : Nat) :
    ∃ m' t, m.nextTable f i true = some (m',some t) ∧ spare n m'.pm = true := by
  by_cases hp : present (m.mem f i) = true
  · exact ⟨m,entryFrame (m.mem f i),by simp [nextTable,hp],spare_mono h⟩
  · obtain ⟨pm,page,ha,hs⟩ := spare_succ h
    exact ⟨m.addTable pm f i page,entryFrame (page * pgSize + pteP + pteW + pteU),
      by simp [nextTable,hp,ha,addTable],hs⟩

lemma vpmapMap_ok (h : spare 3 m.pm = true) (hv : v < 2^64) (r paddr : Nat) (perm : Memperm) :
    ∃ m', m.vpmapMap r v paddr 1 perm = some (m',true) := by
  obtain ⟨m1,a,h1,s1⟩ := nextTable_ok h r (pml4x (pgRoundDown v))
  obtain ⟨m2,b,h2,s2⟩ := nextTable_ok s1 a (pdptx (pgRoundDown v))
  obtain ⟨m3,c,h3,_⟩ := nextTable_ok s2 b (pdx (pgRoundDown v))
  exact ⟨_,by rw [vpmapMap_one hv]; simp [mapPagesFrom,findPte,h1,h2,h3]; rfl⟩

def kernelConfig : Alloc.Config := ⟨8,24,fun _ => false,[],136⟩

def kernelPm : Pmem := ((Alloc.init kernelConfig).map Alloc.pm).getD ⟨0,fun _ => ⟨0,0⟩,fun _ => []⟩

def kernelTables : Tables where
  pm := kernelPm
  mem := fun table index =>
    if table = 1 ∧ index = 511 then 2 * pgSize + 7
    else if table = 2 ∧ index = 510 then 3 * pgSize + 7
    else if table = 3 ∧ index = 0 then 4 * pgSize + 7
    else if table = 4 ∧ index = 0 then 3
    else 0
  kpml4 := 1
  pml4s := []

lemma kernelPm_good : kernelPm.Good := by
  obtain ⟨a,ha⟩ := Option.isSome_iff_exists.mp
    (show (Alloc.init kernelConfig).isSome = true by decide +kernel)
  have he : kernelPm = a.pm := by simp [kernelPm,ha]
  exact he ▸ (Alloc.init_inv ha).good

lemma kernelTables_next (t i : Nat) : kernelTables.next t i =
    if t = 1 ∧ i = 511 then some 2 else if t = 2 ∧ i = 510 then some 3
    else if t = 3 ∧ i = 0 then some 4 else if t = 4 ∧ i = 0 then some 0 else none := by
  simp only [next,kernelTables]
  split_ifs <;> simp_all [present,entryFrame,ppn,pgSize]

lemma kernelTables_walk {p : List Nat} (hp : p.length ≤ 3) (h : walk kernelTables.next 1 p = some t) :
    (p = [] ∧ t = 1) ∨ (p = [511] ∧ t = 2) ∨ (p = [511,510] ∧ t = 3) ∨ (p = [511,510,0] ∧ t = 4) := by
  match p, hp with
  | [], _ => exact .inl ⟨rfl,(Option.some_inj.mp h).symm⟩
  | [_], _ | [_,_], _ | [_,_,_], _ =>
    simp only [walk,kernelTables_next] at h
    grind

lemma kernelTables_inv : kernelTables.Inv := by
  have hroot : ∀ r, kernelTables.isRoot r → r = 1 := by
    rintro r (rfl | hr)
    · rfl
    · exact absurd hr List.not_mem_nil
  refine ⟨kernelPm_good,?_,rfl,fun r hr => absurd hr List.not_mem_nil,?_,?_⟩
  · change kernelPm.pagemapEnd ≤ 2^39
    decide +kernel
  · intro r hr p hp t ht
    obtain rfl := hroot r hr
    change t < kernelPm.pagemapEnd ∧ 0 < kernelPm.refcnt t
    rcases kernelTables_walk hp ht with ⟨_,rfl⟩ | ⟨_,rfl⟩ | ⟨_,rfl⟩ | ⟨_,rfl⟩ <;> decide +kernel
  · intro r r' hr hr' p p' hp hp' t ht ht'
    obtain rfl := hroot r hr
    obtain rfl := hroot r' hr'
    have hpp : p = p' := by
      have h1 := kernelTables_walk hp ht
      have h2 := kernelTables_walk hp' ht'
      grind
    rw [hpp]

def twoSpaces : Option Tables := do
  let (m,_) ← kernelTables.asInit
  let (m,_) ← m.asInit
  some m

lemma twoSpaces_spec : ∃ m, twoSpaces = some m ∧ m.Inv ∧ m.pml4s = [10,8] ∧ m.kpml4 = 1 ∧ spare 3 m.pm = true := by
  obtain ⟨m,hm⟩ := Option.isSome_iff_exists.mp (show twoSpaces.isSome = true by decide +kernel)
  have heval : twoSpaces.map (fun m => (m.pml4s,m.kpml4,spare 3 m.pm)) = some ([10,8],1,true) := by
    decide +kernel
  obtain ⟨h1,h2,h3⟩ : m.pml4s = [10,8] ∧ m.kpml4 = 1 ∧ spare 3 m.pm = true := by simpa [hm] using heval
  refine ⟨m,hm,?_,h1,h2,h3⟩
  simp only [twoSpaces,Run.bind_some,Prod.exists,some_inj] at hm
  obtain ⟨u,x,hu,v,y,hv,rfl⟩ := hm
  exact ((kernelTables_inv.asInit hu).1.asInit hv).1

theorem user_mapping_isolated_iff {as as' : Addrspace} {id addr size : Nat} {store : Option Nat} {ofs : Nat} {shared alloc : Bool} {r : Memregion} (haddr : addr < 2^64)
    (hsize : size < 2^64) (huser : as.kas = false)
    (h : as.memregionMapInternal id addr size perm store ofs shared alloc = some (as',some r)) :
    (∀ v, r.start ≤ v → v < r.stop → v < kmapBase) ∧
    ((∀ m : Tables, m.Inv → ∀ pml4 ∈ m.pml4s, ∀ v, r.start ≤ v → v < r.stop → ∀ paddr prm m' ok,
        m.vpmapMap pml4 v paddr 1 prm = some (m',ok) → Isolated m m' pml4) ↔
      ∀ v, r.start ≤ v → v < r.stop → pml4x v ≠ 511) := by
  have hstop : r.stop ≤ kmapBase := by
    rcases Addrspace.memregionMapInternal_cases haddr hsize h with ⟨_,hn⟩ | ⟨a,ho,hins⟩
    · simp at hn
    · cases ho
      exact hins.user huser
  have hlt : ∀ v, v < r.stop → v < 2^64 := fun v hv => by
    simp only [kmapBase] at hstop
    omega
  refine ⟨fun v _ hv => by omega,fun hall v hv1 hv2 htop => ?_,fun hok m hi pml4 hp v hv1 hv2 paddr prm m' ok hm => ?_⟩
  · obtain ⟨m,_,hi,hspaces,_,hspare⟩ := twoSpaces_spec
    have h8 : 8 ∈ m.pml4s := by simp [hspaces]
    have h10 : m.isRoot 10 := .inr (by simp [hspaces])
    have hboth : ∀ paddr, m.vpmapLookupVaddr 10 v = some (ppn (pgRoundDown paddr) + v % pgSize) := by
      intro paddr
      obtain ⟨m',hm'⟩ := vpmapMap_ok hspare (hlt v hv2) 8 paddr .urw
      have hmap := hi.vpmapMap (.inr h8) (hlt v hv2) hm'
      rw [← hall m hi 8 h8 v hv1 hv2 paddr .urw m' true hm' 10 h10 v (hlt v hv2) (.inr (by decide)),
        hmap.leaks h10 htop]
    have hclash := Option.some_inj.mp ((hboth 0).symm.trans (hboth pgSize))
    simp [ppn,pgRoundDown,pgSize] at hclash
  · exact (hi.vpmapMap (.inr hp) (hlt v hv2) hm).isolated (hok v hv1 hv2)

def gapAddr : Nat := 0x0000FFFF80000000

def emptySpace : Addrspace := ⟨false,[],none⟩

theorem user_mapping_isolated_low : ∃ as' r, emptySpace.memregionMapInternal 0 0x400000 4096 .urw none 0
      false true = some (as',some r) ∧
    ∀ m : Tables, m.Inv → ∀ pml4 ∈ m.pml4s, ∀ v, r.start ≤ v → v < r.stop → ∀ paddr prm m' ok,
      m.vpmapMap pml4 v paddr 1 prm = some (m',ok) → Isolated m m' pml4 := by
  have h : emptySpace.memregionMapInternal 0 0x400000 4096 .urw none 0 false true =
      some (⟨false,[⟨0,0x400000,0x401000,.urw,false,none,0⟩],none⟩,
        some ⟨0,0x400000,0x401000,.urw,false,none,0⟩) := by decide +kernel
  refine ⟨_,_,h,(user_mapping_isolated_iff (by norm_num) (by norm_num) rfl h).2.mpr fun v h1 h2 => ?_⟩
  simp only [pml4x] at *
  omega

theorem user_mapping_reaches_kernel : ∃ as' r, ∃ m m' : Tables,
    emptySpace.memregionMapInternal 0 gapAddr 4096 .urw none 0 false true = some (as',some r) ∧
    r.start ≤ gapAddr ∧ gapAddr < r.stop ∧ m.Inv ∧ 8 ∈ m.pml4s ∧
    m.vpmapMap 8 gapAddr 0x9000 1 .urw = some (m',true) ∧
    m.vpmapLookupVaddr m.kpml4 kmapBase = some 0 ∧ m'.vpmapLookupVaddr m.kpml4 kmapBase = some 0x9000 ∧
    m.vpmapLookupVaddr 10 kmapBase = some 0 ∧ m'.vpmapLookupVaddr 10 kmapBase = some 0x9000 := by
  have hmap : emptySpace.memregionMapInternal 0 gapAddr 4096 .urw none 0 false true =
      some (⟨false,[⟨0,gapAddr,gapAddr + 4096,.urw,false,none,0⟩],none⟩,
        some ⟨0,gapAddr,gapAddr + 4096,.urw,false,none,0⟩) := by decide +kernel
  obtain ⟨m,hm,hi,hspaces,hk,hspare⟩ := twoSpaces_spec
  obtain ⟨m',hm'⟩ := vpmapMap_ok hspare (show gapAddr < 2^64 by decide) 8 0x9000 .urw
  have heval : (twoSpaces.bind fun m => (m.vpmapMap 8 gapAddr 0x9000 1 .urw).map fun x =>
      (m.vpmapLookupVaddr 1 kmapBase,x.1.vpmapLookupVaddr 1 kmapBase,m.vpmapLookupVaddr 10 kmapBase,
        x.1.vpmapLookupVaddr 10 kmapBase)) = some (some 0,some 0x9000,some 0,some 0x9000) := by
    decide +kernel
  simp only [hm,bind_some,hm',map_some,some_inj,Prod.mk_inj] at heval
  refine ⟨_,_,m,m',hmap,le_rfl,by decide,hi,by simp [hspaces],hm',?_,?_,heval.2.2.1,heval.2.2.2⟩
  · rw [hk,heval.1]
  · rw [hk,heval.2.1]

end Tables
end MappedMemory
