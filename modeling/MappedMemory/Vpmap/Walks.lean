import MappedMemory.Vpmap.Table

namespace MappedMemory

open Option (bind_eq_bind bind_eq_some_iff bind_some)
open Walk

namespace Tables

def next (m : Tables) (table index : Nat) : Option Nat :=
  if present (m.mem table index) then some (entryFrame (m.mem table index)) else none

def path (v : Nat) : List Nat := [pml4x v,pdptx v,pdx v]

def entry (m : Tables) (r v : Nat) : Option Nat :=
  (walk m.next r (path v)).bind fun t => if present (m.mem t (ptx v)) then some (m.mem t (ptx v)) else none

structure Owned (m : Tables) (roots : Nat → Prop) (name : Nat → List Nat → Nat × List Nat) : Prop where
  good : m.pm.Good
  small : m.pm.pagemapEnd ≤ 2^39
  owned : ∀ r, roots r → ∀ p : List Nat, p.length ≤ 3 → ∀ t, walk m.next r p = some t →
    t < m.pm.pagemapEnd ∧ 0 < m.pm.refcnt t
  unique : Unique m.next roots 3 name

structure Grown (m m' : Tables) (roots : Nat → Prop) (name : Nat → List Nat → Nat × List Nat) : Prop where
  owned : m'.Owned roots name
  kpml4 : m'.kpml4 = m.kpml4
  pml4s : m'.pml4s = m.pml4s
  walks : ∀ r, roots r → ∀ p : List Nat, p.length ≤ 3 → ∀ t, walk m.next r p = some t → walk m'.next r p = some t
  entries : ∀ r, roots r → ∀ v, m'.entry r v = m.entry r v
  kept : ∀ r, roots r → ∀ j, present (m.mem r j) = true → m'.mem r j = m.mem r j

variable {m : Tables} {r f g i : Nat} {p : List Nat} {roots : Nat → Prop} {name : Nat → List Nat → Nat × List Nat}
  {pm : Pmem} {k v t e : Nat} {m' : Tables}

lemma nextTable_false (m : Tables) (t i : Nat) : m.nextTable t i false = some (m,m.next t i) := by
  simp only [nextTable,next]
  split <;> simp

lemma findPte_false (m : Tables) (r v : Nat) :
    m.findPte r v false = some (m,(walk m.next r (path v)).map (·,ptx v)) := by
  simp only [findPte,nextTable_false,bind_eq_bind,bind_some,path,walk]
  cases m.next r (pml4x v) with
  | none => rfl
  | some a =>
    cases hb : m.next a (pdptx v) with
    | none => simp [hb]
    | some b => cases hc : m.next b (pdx v) <;> simp [hb,hc]

lemma vpmapLookupVaddr_eq (m : Tables) (r v : Nat) :
    m.vpmapLookupVaddr r v = (m.entry r v).map (fun e => ppn e + v % pgSize) := by
  simp only [vpmapLookupVaddr,findPte_false,entry]
  cases walk m.next r (path v) with
  | none => rfl
  | some t =>
    simp only [Option.map_some,bind_some]
    split <;> rfl

lemma entryFrame_table {page : Nat} (h : page < 2^39) : entryFrame (page * pgSize + pteP + pteW + pteU) = page := by
  simp only [entryFrame,ppn,pgSize,pteP,pteW,pteU]
  omega

lemma present_table (page : Nat) : present (page * pgSize + pteP + pteW + pteU) = true := by
  simp only [present,pgSize,pteP,pteW,pteU,beq_iff_eq]
  omega

lemma Owned.fresh (hi : m.Owned roots name) (ha : Pmem.Allocated m.pm pm g k) (hr : roots r)
    (hp : p.length ≤ 3) : walk m.next r p ≠ some g := by
  intro hw
  have := (hi.owned r hr p hp g hw).2
  rw [ha.zero] at this
  exact absurd this (lt_irrefl 0)

def addTable (m : Tables) (pm : Pmem) (f i g : Nat) : Tables :=
  ({ m with pm := pm }.clearPage g).setEntry f i (g * pgSize + pteP + pteW + pteU)

lemma addTable_mem (pm : Pmem) (hfg : f ≠ g) (t j : Nat) : (m.addTable pm f i g).mem t j =
    if t = f ∧ j = i then g * pgSize + pteP + pteW + pteU else if t = g then 0 else m.mem t j := by
  simp only [addTable,setEntry,clearPage,Function.update_apply]
  split_ifs <;> simp_all

lemma addTable_next (pm : Pmem) (hfg : f ≠ g) (hg : g < 2^39) : (m.addTable pm f i g).next = attach m.next f i g := by
  funext t j
  simp only [next,addTable_mem pm hfg,attach]
  by_cases htg : t = g
  · subst htg
    simp [Ne.symm hfg,present]
  · by_cases hc : t = f ∧ j = i
    · simp only [hc,and_self,if_true,if_false,hfg,present_table,entryFrame_table hg]
    · simp only [htg,hc,if_false]

lemma setEntry_mem (m : Tables) (t i e x j : Nat) :
    (m.setEntry t i e).mem x j = if x = t ∧ j = i then e else m.mem x j := by
  simp only [setEntry,Function.update_apply]
  split_ifs <;> simp_all

lemma Grown.refl (hi : m.Owned roots name) : Grown m m roots name :=
  ⟨hi,rfl,rfl,fun _ _ _ _ _ h => h,fun _ _ _ => rfl,fun _ _ _ _ => rfl⟩

lemma Grown.trans {m'' : Tables} (h : Grown m m' roots name) (h' : Grown m' m'' roots name) :
    Grown m m'' roots name :=
  ⟨h'.owned,h'.kpml4.trans h.kpml4,h'.pml4s.trans h.pml4s,
    fun r hr p hp t ht => h'.walks r hr p hp t (h.walks r hr p hp t ht),
    fun r hr v => (h'.entries r hr v).trans (h.entries r hr v),
    fun r hr j hj => (h'.kept r hr j (h.kept r hr j hj ▸ hj)).trans (h.kept r hr j hj)⟩

section
variable (hi : m.Owned roots name) (hn : Naming name) (hr : roots r)
include hi hn hr

lemma Owned.addTable (hp : p.length ≤ 2)
    (hf : walk m.next r p = some f) (habs : present (m.mem f i) = false) (ha : Pmem.Allocated m.pm pm g k) :
    Grown m (m.addTable pm f i g) roots name ∧ walk (m.addTable pm f i g).next r (p ++ [i]) = some g := by
  have hg : g < 2^39 := lt_of_lt_of_le ha.inside hi.small
  have hfg : f ≠ g := fun he => hi.fresh ha hr (by omega) (he ▸ hf)
  have hfi : m.next f i = none := by simp [next,habs]
  have hfresh : ∀ r, roots r → ∀ p : List Nat, p.length ≤ 3 → walk m.next r p ≠ some g :=
    fun r hr p hp => hi.fresh ha hr hp
  have hwalk : ∀ r, roots r → ∀ p : List Nat, p.length ≤ 3 → ∀ x,
      walk (m.addTable pm f i g).next r p = some x ↔
        walk m.next r p = some x ∨ ∃ q, p = q ++ [i] ∧ walk m.next r q = some f ∧ x = g := by
    intro r hr p hp x
    rw [addTable_next pm hfg hg]
    exact walk_attach hfi (fun q hq => hfresh r hr q (hq.length_le.trans hp)) x
  have hkept : ∀ r, roots r → ∀ j, present (m.mem r j) = true → (m.addTable pm f i g).mem r j = m.mem r j := by
    intro r hr j hj
    have hrg : r ≠ g := fun he => hfresh r hr [] (by simp) (by simp [he])
    have hne : ¬ (r = f ∧ j = i) := by
      rintro ⟨rfl,rfl⟩
      simp [hj] at habs
    rw [addTable_mem pm hfg,if_neg hne,if_neg hrg]
  have hentry : ∀ r', roots r' → ∀ v, (m.addTable pm f i g).entry r' v = m.entry r' v := by
    intro r' hr' v
    have hlen : (path v).length ≤ 3 := le_rfl
    have hleaf : ∀ t, walk m.next r' (path v) = some t → ∀ j, (m.addTable pm f i g).mem t j = m.mem t j := by
      intro t ht j
      have htg : t ≠ g := fun he => hfresh r' hr' _ hlen (he ▸ ht)
      have htf : t ≠ f := by
        rintro rfl
        have hl := hn.length (hi.unique r r' hr hr' p (path v) (by omega) hlen t hf ht)
        simp only [path,List.length_cons,List.length_nil] at hl
        omega
      rw [addTable_mem pm hfg,if_neg (fun h => htf h.1),if_neg htg]
    simp only [entry]
    cases hw : walk m.next r' (path v) with
    | some t =>
      rw [(hwalk r' hr' _ hlen t).mpr (.inl hw)]
      simp only [bind_some,hleaf t hw]
    | none =>
      cases hw' : walk (m.addTable pm f i g).next r' (path v) with
      | none => rfl
      | some t =>
        rcases (hwalk r' hr' _ hlen t).mp hw' with h | ⟨_,_,_,rfl⟩
        · simp [hw] at h
        · simp [addTable_mem pm hfg,Ne.symm hfg,present]
  refine ⟨⟨⟨ha.good,ha.pagemapEnd ▸ hi.small,?_,?_⟩,rfl,rfl,
    fun r hr p hp t ht => (hwalk r hr p hp t).mpr (.inl ht),hentry,hkept⟩,
    (hwalk r hr _ (by simp; omega) g).mpr (.inr ⟨p,rfl,hf,rfl⟩)⟩
  · intro r hr p hp t ht
    change t < pm.pagemapEnd ∧ 0 < pm.refcnt t
    rw [ha.pagemapEnd,ha.refcnt]
    rcases (hwalk r hr p hp t).mp ht with h | ⟨_,_,_,rfl⟩
    · have htg : t ≠ g := fun he => hfresh r hr p hp (he ▸ h)
      rw [if_neg htg]
      exact hi.owned r hr p hp t h
    · simp [ha.inside]
  · rw [addTable_next pm hfg hg]
    exact hi.unique.attach hn hfi hfresh

lemma Owned.nextTable (hp : p.length ≤ 2)
    (hf : walk m.next r p = some f) {x : Option Nat} (h : m.nextTable f i true = some (m',x)) :
    Grown m m' roots name ∧ ∀ t, x = some t → walk m'.next r (p ++ [i]) = some t := by
  simp only [Tables.nextTable] at h
  by_cases hpres : present (m.mem f i) = true
  · obtain ⟨rfl,rfl⟩ : m = m' ∧ some (entryFrame (m.mem f i)) = x := by simpa [hpres] using h
    refine ⟨.refl hi,fun t ht => ?_⟩
    rw [walk_snoc,hf,bind_some,next,if_pos hpres,ht]
  · simp only [hpres,if_true,Bool.false_eq_true,if_false] at h
    rcases Pmem.pmemAlloc_spec hi.good with ha | ⟨pm,g,ha,halloc⟩ | ⟨ha,_⟩
    · obtain ⟨rfl,rfl⟩ : m = m' ∧ none = x := by simpa [ha] using h
      exact ⟨.refl hi,fun t ht => by simp at ht⟩
    · obtain ⟨hext,hw⟩ := hi.addTable hn hr hp hf (by simpa using hpres) halloc
      have hg : g < 2^39 := lt_of_lt_of_le halloc.inside hi.small
      obtain ⟨rfl,rfl⟩ : m.addTable pm f i g = m' ∧ some g = x := by
        simpa [ha,Tables.addTable,entryFrame_table hg] using h
      exact ⟨hext,fun t ht => by rw [← ht,hw]⟩
    · simp [ha] at h

lemma Owned.findPte {x : Option (Nat × Nat)} (h : m.findPte r v true = some (m',x)) :
    Grown m m' roots name ∧ ∀ t j, x = some (t,j) → walk m'.next r (path v) = some t ∧ j = ptx v := by
  simp only [Tables.findPte,bind_eq_bind,bind_eq_some_iff,Prod.exists] at h
  obtain ⟨m1,a,h1,h⟩ := h
  obtain ⟨e1,w1⟩ := hi.nextTable (p := []) hn hr (by simp) rfl h1
  cases a with
  | none =>
    obtain ⟨rfl,rfl⟩ : m1 = m' ∧ none = x := by simpa using h
    exact ⟨e1,fun t j ht => by simp at ht⟩
  | some a =>
    simp only [bind_eq_some_iff,Prod.exists] at h
    obtain ⟨m2,b,h2,h⟩ := h
    obtain ⟨e2,w2⟩ := e1.owned.nextTable hn hr (by simp) (w1 a rfl) h2
    cases b with
    | none =>
      obtain ⟨rfl,rfl⟩ : m2 = m' ∧ none = x := by simpa using h
      exact ⟨e1.trans e2,fun t j ht => by simp at ht⟩
    | some b =>
      simp only [bind_eq_some_iff,Prod.exists] at h
      obtain ⟨m3,c,h3,h⟩ := h
      have e12 := e1.trans e2
      obtain ⟨e3,w3⟩ := e2.owned.nextTable hn hr (by simp) (w2 b rfl) h3
      cases c with
      | none =>
        obtain ⟨rfl,rfl⟩ : m3 = m' ∧ none = x := by simpa using h
        exact ⟨e12.trans e3,fun t j ht => by simp at ht⟩
      | some c =>
        obtain ⟨rfl,rfl⟩ : m3 = m' ∧ some (c,ptx v) = x := by simpa using h
        refine ⟨e12.trans e3,fun t j ht => ?_⟩
        obtain ⟨rfl,rfl⟩ : c = t ∧ ptx v = j := by simpa using ht
        exact ⟨w3 c rfl,rfl⟩

end

structure Told (m : Tables) (roots : Nat → Prop) (name : Nat → List Nat → Nat × List Nat) : Prop where
  naming : Naming name
  path : ∀ r p, (name r p).2 = p
  walks : ∀ r r' p, roots r → roots r' → name r p = name r' p → walk m.next r p = walk m.next r' p

lemma Told.path_eq (h : m.Told roots name) {r' : Nat} {p' : List Nat} (he : name r p = name r' p') : p = p' := by
  rw [← h.path r p,he,h.path]

lemma naming_prod : Naming (Prod.mk : Nat → List Nat → Nat × List Nat) := by
  refine ⟨fun h => congrArg (fun x => x.2.length) h,fun h i => ?_⟩
  obtain ⟨rfl,rfl⟩ := Prod.mk.inj h
  rfl

lemma told_prod {roots : Nat → Prop} : m.Told roots Prod.mk where
  naming := naming_prod
  path _ _ := rfl
  walks _ _ _ _ _ h := by rw [(Prod.mk.inj h).1]

structure Written (m m' : Tables) (roots : Nat → Prop) (name : Nat → List Nat → Nat × List Nat) (r v e : Nat) : Prop where
  unique : Unique m'.next roots 3 name
  walks : ∀ r', roots r' → ∀ q : List Nat, q.length ≤ 3 → walk m'.next r' q = walk m.next r' q
  kept : ∀ r', roots r' → ∀ j, m'.mem r' j = m.mem r' j
  entries : ∀ r', roots r' → ∀ v', m'.entry r' v' =
    if name r (path v) = name r' (path v') ∧ ptx v = ptx v' then (if present e then some e else none) else m.entry r' v'

lemma written (hu : Unique m.next roots 3 name) (hn : m.Told roots name) (hr : roots r) (ht : walk m.next r (path v) = some t) : Written m (m.setEntry t (ptx v) e) roots name r v e := by
  have hmem := m.setEntry_mem t (ptx v) e
  have hinner : ∀ r', roots r' → ∀ q : List Nat, q.length ≤ 2 → ∀ x, walk m.next r' q = some x → x ≠ t := by
    rintro r' hr' q hq x hx rfl
    have hl := hn.naming.length (hu r r' hr hr' (Tables.path v) q le_rfl (by omega) x ht hx)
    simp only [Tables.path,List.length_cons,List.length_nil] at hl
    omega
  have hwalk : ∀ r', roots r' → ∀ q : List Nat, q.length ≤ 3 →
      walk (m.setEntry t (ptx v) e).next r' q = walk m.next r' q := by
    intro r' hr' q hq
    refine walk_congr fun q' j hpre x hx => ?_
    have hlen := hpre.length_le
    simp only [List.length_append,List.length_singleton] at hlen
    have hne := hinner r' hr' q' (by omega) x hx
    simp only [next,hmem,hne,false_and,if_false]
  refine ⟨?_,hwalk,?_,?_⟩
  · intro r1 r2 h1 h2 p1 p2 hp1 hp2 x hx1 hx2
    rw [hwalk r1 h1 p1 hp1] at hx1
    rw [hwalk r2 h2 p2 hp2] at hx2
    exact hu r1 r2 h1 h2 p1 p2 hp1 hp2 x hx1 hx2
  · intro r' hr' j
    have hne := hinner r' hr' [] (by simp) r' rfl
    simp only [hmem,hne,false_and,if_false]
  · intro r' hr' v'
    have hw' := hwalk r' hr' (Tables.path v') le_rfl
    simp only [entry,hw']
    cases hx : walk m.next r' (Tables.path v') with
    | none =>
      have hno : ¬ (name r (Tables.path v) = name r' (Tables.path v') ∧ ptx v = ptx v') := by
        rintro ⟨he,_⟩
        have hpath := hn.path_eq he
        rw [hpath] at he ht
        rw [hn.walks r r' _ hr hr' he,hx] at ht
        cases ht
      simp [hno]
    | some x =>
      simp only [bind_some,hmem]
      have hiff : (x = t ∧ ptx v' = ptx v) ↔ name r (Tables.path v) = name r' (Tables.path v') ∧ ptx v = ptx v' := by
        constructor
        · rintro ⟨rfl,hd⟩
          exact ⟨hu r r' hr hr' _ _ le_rfl le_rfl x ht hx,hd.symm⟩
        · rintro ⟨he,hd⟩
          have hpath := hn.path_eq he
          rw [hpath] at he ht
          rw [hn.walks r r' _ hr hr' he,hx] at ht
          exact ⟨Option.some_inj.mp ht,hd.symm⟩
      by_cases ha : name r (Tables.path v) = name r' (Tables.path v') ∧ ptx v = ptx v'
      · simp only [if_pos (hiff.mpr ha),if_pos ha]
      · simp only [if_neg (fun h => ha (hiff.mp h)),if_neg ha]

lemma Owned.writePte (hi : m.Owned roots name) (hn : m.Told roots name) (hr : roots r) (ht : walk m.next r (path v) = some t) : (m.setEntry t (ptx v) e).Owned roots name := by
  have hw := written (e := e) hi.unique hn hr ht
  refine ⟨hi.good,hi.small,fun r' hr' q hq x hx => ?_,hw.unique⟩
  rw [hw.walks r' hr' q hq] at hx
  exact hi.owned r' hr' q hq x hx

lemma path_pgRoundDown (v : Nat) : path (pgRoundDown v) = path v ∧ ptx (pgRoundDown v) = ptx v := by
  simp only [path,ptx,pml4x,pdptx,pdx,pgRoundDown,pgSize,List.cons.injEq,and_true]
  omega

lemma present_pte (paddr : Nat) (perm : Memperm) : present (ppn paddr + pteP + mempermToPteperm perm) = true := by
  cases perm <;> simp only [present,ppn,pgSize,pteP,mempermToPteperm,pteW,pteU,beq_iff_eq] <;> omega

lemma ppn_pte (paddr : Nat) (perm : Memperm) : ppn (ppn paddr + pteP + mempermToPteperm perm) = ppn paddr := by
  cases perm <;> simp only [ppn,pgSize,pteP,mempermToPteperm,pteW,pteU] <;> omega

end Tables
end MappedMemory
