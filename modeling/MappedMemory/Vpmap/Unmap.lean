import MappedMemory.Library.Run
import MappedMemory.Vpmap.Walks

namespace MappedMemory

open List (foldlM_cons mem_cons_self)
open Walk

namespace Tables

structure Unmapping where
  tables : Tables
  freed : List Nat

def dropPage (m : Tables) (table index : Nat) : Option Pmem :=
  if present (m.mem table index) then m.pm.pmemDecRefcnt (entryFrame (m.mem table index)) else some m.pm

def clearPte (m : Tables) (table index : Nat) : Option Tables :=
  (m.dropPage table index).map fun pm => { m with pm := pm }.setEntry table index 0

def limit (x last : Nat) : Nat := if x < last then 512 else last + 1

def fromIndex (first start x : Nat) : Nat := if x = first then start else 0

namespace Unmapping

def pmemFree (u : Unmapping) (page : Nat) : Option Unmapping := do
  let pm ← u.tables.pm.pmemFree page
  some ⟨{ u.tables with pm := pm },page :: u.freed⟩

def freeTable (u : Unmapping) (freeImm : Bool) (page : Nat) : Option Unmapping :=
  if freeImm then u.pmemFree page else some u

def clearPtes (u : Unmapping) (pgtable first last : Nat) : Option Unmapping :=
  (List.range' first (last - first)).foldlM
    (fun u x => (u.tables.clearPte pgtable x).map fun m => { u with tables := m }) u

def unmapPd (u : Unmapping) (pd start stop pdxStart pdxEnd : Nat) (freeImm : Bool) : Option Unmapping :=
  (List.range' pdxStart (pdxEnd - pdxStart)).foldlM (fun u x =>
    if present (u.tables.mem pd x) then do
      let first := fromIndex pdxStart (ptx start) x
      let u ← u.clearPtes (entryFrame (u.tables.mem pd x)) first (limit first (ptx stop))
      u.freeTable freeImm (entryFrame (u.tables.mem pd x))
    else some u) u

def unmapPdpt (u : Unmapping) (pdpt start stop pdptxStart pdptxEnd : Nat) (freeImm : Bool) : Option Unmapping :=
  (List.range' pdptxStart (pdptxEnd - pdptxStart)).foldlM (fun u x =>
    if present (u.tables.mem pdpt x) then do
      let first := fromIndex pdptxStart (pdx start) x
      let u ← u.unmapPd (entryFrame (u.tables.mem pdpt x)) start stop first (limit first (pdx stop)) freeImm
      u.freeTable freeImm (entryFrame (u.tables.mem pdpt x))
    else some u) u

def unmapPages (u : Unmapping) (pml4 start stop : Nat) (freeImm : Bool) : Option Unmapping :=
  if pml4x start ≤ pml4x (sub64 stop 1) then
    (List.range' (pml4x start) (pml4x (sub64 stop 1) + 1 - pml4x start)).foldlM (fun u x =>
      if present (u.tables.mem pml4 x) then do
        let first := fromIndex (pml4x start) (pdptx start) x
        let u ← u.unmapPdpt (entryFrame (u.tables.mem pml4 x)) start stop first (limit first (pdptx stop)) freeImm
        u.freeTable freeImm (entryFrame (u.tables.mem pml4 x))
      else some u) u
  else none

end Unmapping

def vpmapUnmap (m : Tables) (pml4 vaddr n : Nat) : Option Tables :=
  if n = 0 then some m
  else
    let start := pgRoundDown vaddr
    let stop := u64 (start + u64 (n * pgSize))
    if pml4x start ≤ pml4x stop then ((Unmapping.mk m []).unmapPages pml4 start stop false).map Unmapping.tables
    else none

def vpmapDestroy (m : Tables) (pml4 : Nat) : Option Unmapping := do
  let u ← (Unmapping.mk m []).unmapPages pml4 0 ustackUpperbound true
  u.pmemFree pml4

inductive Act where
  | clear (s : Nat)
  | free (p : List Nat)
deriving DecidableEq, Repr

def pathOf (s : Nat) : List Nat := [s / 2^27 % 512,s / 2^18 % 512,s / 2^9 % 512]

def slotOf (a b c d : Nat) : Nat := a * 2^27 + b * 2^18 + c * 2^9 + d

def Act.path : Act → List Nat
  | .clear s => pathOf s
  | .free p => p

def act (m0 : Tables) (r : Nat) (u : Unmapping) (x : Act) : Option Unmapping :=
  match walk m0.next r x.path with
  | none => some u
  | some t => match x with
    | .clear s => (u.tables.clearPte t (s % 512)).map fun m => { u with tables := m }
    | .free _ => u.pmemFree t

def freeAct (freeImm : Bool) (p : List Nat) : List Act := if freeImm then [.free p] else []

def planPt (a b c first last : Nat) : List Act := (List.range' first (last - first)).map fun d => .clear (slotOf a b c d)

def planPd (a b start stop pdxStart pdxEnd : Nat) (freeImm : Bool) : List Act :=
  (List.range' pdxStart (pdxEnd - pdxStart)).flatMap fun c =>
    let first := fromIndex pdxStart (ptx start) c
    planPt a b c first (limit first (ptx stop)) ++ freeAct freeImm [a,b,c]

def planPdpt (a start stop pdptxStart pdptxEnd : Nat) (freeImm : Bool) : List Act :=
  (List.range' pdptxStart (pdptxEnd - pdptxStart)).flatMap fun b =>
    let first := fromIndex pdptxStart (pdx start) b
    planPd a b start stop first (limit first (pdx stop)) freeImm ++ freeAct freeImm [a,b]

def plan (start stop : Nat) (freeImm : Bool) : List Act :=
  (List.range' (pml4x start) (pml4x (sub64 stop 1) + 1 - pml4x start)).flatMap fun a =>
    let first := fromIndex (pml4x start) (pdptx start) a
    planPdpt a start stop first (limit first (pdptx stop)) freeImm ++ freeAct freeImm [a]

section
variable {m0 : Tables} {r a b c d s t start stop first last : Nat} {u v : Unmapping} {freeImm : Bool} {x : Act}
  {p : List Nat} {l : List Nat} {xs : List Act}

lemma pathOf_slotOf (ha : a < 512) (hb : b < 512) (hc : c < 512) (hd : d < 512) :
    pathOf (slotOf a b c d) = [a,b,c] ∧ slotOf a b c d % 512 = d := by
  simp only [pathOf,slotOf,List.cons.injEq,and_true]
  omega

lemma pathOf_slot (v : Nat) : pathOf (v / pgSize % 2^36) = path v ∧ v / pgSize % 2^36 % 512 = ptx v := by
  simp only [pathOf,path,ptx,pml4x,pdptx,pdx,pgSize,List.cons.injEq,and_true]
  omega

lemma limit_le (h : last < 512) : limit first last ≤ 512 := by
  rw [limit]
  split <;> omega

lemma ptx_lt : ptx s < 512 := Nat.mod_lt _ (by decide)

lemma pdx_lt : pdx s < 512 := Nat.mod_lt _ (by decide)

lemma pdptx_lt : pdptx s < 512 := Nat.mod_lt _ (by decide)

lemma pml4x_lt : pml4x s < 512 := Nat.mod_lt _ (by decide)

def Agree (m0 : Tables) (r : Nat) (u : Unmapping) : Prop :=
  ∀ q : List Nat, q.length ≤ 2 → ∀ t, walk m0.next r q = some t → u.tables.mem t = m0.mem t

section
variable (hu : Unique m0.next (· = r) 3 Prod.mk)
include hu

lemma Agree.act (h : Agree m0 r u) (hv : act m0 r u x = some v) : Agree m0 r v := by
  intro q hq t ht
  rw [Tables.act] at hv
  cases hw : walk m0.next r x.path with
  | none =>
    rw [hw] at hv
    exact Option.some.inj hv ▸ h q hq t ht
  | some w =>
    rw [hw] at hv
    cases x with
    | free p =>
      simp only [Unmapping.pmemFree,Run.bind_some,Option.some_inj] at hv
      obtain ⟨pm,-,rfl⟩ := hv
      exact h q hq t ht
    | clear s =>
      obtain ⟨m,hm,rfl⟩ := Option.map_eq_some_iff.mp hv
      obtain ⟨pm,-,rfl⟩ := Option.map_eq_some_iff.mp hm
      have hne : t ≠ w := by
        rintro rfl
        have hp := hu r r rfl rfl q (pathOf s) (by omega) le_rfl t ht hw
        have hlen := congrArg (fun y => y.2.length) hp
        simp only [pathOf,List.length_cons,List.length_nil] at hlen
        omega
      exact (Function.update_of_ne hne ..).trans (h q hq t ht)

lemma agree_acts (h : Agree m0 r u) (hv : xs.foldlM (Tables.act m0 r) u = some v) : Agree m0 r v :=
  Run.invariant (fun _ _ _ h hs => Agree.act hu h hs) h hv

lemma foldlM_plan {body : Unmapping → Nat → Option Unmapping}
    {f : Nat → List Act} (hf : ∀ i ∈ l, ∀ u, Agree m0 r u → body u i = (f i).foldlM (act m0 r) u)
    (h : Agree m0 r u) : l.foldlM body u = (l.flatMap f).foldlM (act m0 r) u := by
  induction l generalizing u with
  | nil => rfl
  | cons i l ih =>
    rw [foldlM_cons,List.flatMap_cons,List.foldlM_append,hf i mem_cons_self u h]
    cases hv : (f i).foldlM (act m0 r) u with
    | none => rfl
    | some v =>
      exact ih (fun j hj => hf j (List.mem_cons_of_mem i hj)) (agree_acts hu h hv)

end

lemma mem_loop {i : Nat} : i ∈ List.range' first (last - first) ↔ first ≤ i ∧ i < last := by
  rw [List.mem_range'_1]
  omega

lemma skip_acts (hw : walk m0.next r p = none) (hx : ∀ x ∈ xs, p <+: x.path) : xs.foldlM (act m0 r) u = some u := by
  induction xs with
  | nil => rfl
  | cons x xs ih =>
    obtain ⟨q,hq⟩ := hx x mem_cons_self
    have hnone : walk m0.next r x.path = none := by rw [← hq,walk_append,hw,Option.bind_none]
    have hstep : act m0 r u x = some u := by rw [act,hnone]
    rw [foldlM_cons,hstep]
    exact ih fun y hy => hx y (List.mem_cons_of_mem x hy)

lemma freeAct_under (h : p <+: l) : ∀ x ∈ freeAct freeImm l, p <+: x.path := by
  intro x hx
  cases freeImm with
  | false => exact nomatch hx
  | true => exact List.mem_singleton.mp hx ▸ h

lemma planPt_under (ha : a < 512) (hb : b < 512) (hc : c < 512) (hl : last ≤ 512) :
    ∀ x ∈ planPt a b c first last, [a,b,c] <+: x.path := by
  intro x hx
  obtain ⟨d,hd,rfl⟩ := List.mem_map.mp hx
  have hlt := (mem_loop.mp hd).2
  rw [Act.path,(pathOf_slotOf ha hb hc (d := d) (by omega)).1]

lemma planPd_under (ha : a < 512) (hb : b < 512) (hl : last ≤ 512) :
    ∀ x ∈ planPd a b start stop first last freeImm, [a,b] <+: x.path := by
  intro x hx
  obtain ⟨c,hc,hx⟩ := List.mem_flatMap.mp hx
  have hlt := (mem_loop.mp hc).2
  have hpre : [a,b] <+: [a,b,c] := ⟨[c],rfl⟩
  rcases List.mem_append.mp hx with hx | hx
  · exact hpre.trans (planPt_under ha hb (by omega) (limit_le ptx_lt) x hx)
  · exact freeAct_under hpre x hx

lemma planPdpt_under (ha : a < 512) (hl : last ≤ 512) :
    ∀ x ∈ planPdpt a start stop first last freeImm, [a] <+: x.path := by
  intro x hx
  obtain ⟨b,hb,hx⟩ := List.mem_flatMap.mp hx
  have hlt := (mem_loop.mp hb).2
  have hpre : [a] <+: [a,b] := ⟨[b],rfl⟩
  rcases List.mem_append.mp hx with hx | hx
  · exact hpre.trans (planPd_under ha (by omega) (limit_le pdx_lt) x hx)
  · exact freeAct_under hpre x hx

lemma clearPtes_eq (hw : walk m0.next r [a,b,c] = some t) (ha : a < 512) (hb : b < 512) (hc : c < 512)
    (hl : last ≤ 512) : u.clearPtes t first last = (planPt a b c first last).foldlM (act m0 r) u := by
  rw [Unmapping.clearPtes,planPt,List.foldlM_map]
  have hlt : ∀ d ∈ List.range' first (last - first), d < 512 := fun d hd => (mem_loop.mp hd).2.trans_le hl
  generalize List.range' first (last - first) = ds at hlt
  induction ds generalizing u with
  | nil => rfl
  | cons d ds ih =>
    have hslot := pathOf_slotOf ha hb hc (hlt d mem_cons_self)
    have hact : act m0 r u (.clear (slotOf a b c d)) =
        (u.tables.clearPte t d).map fun m => { u with tables := m } := by
      simp only [act,Act.path,hslot.1,hw,hslot.2]
    rw [foldlM_cons,foldlM_cons,hact]
    cases (u.tables.clearPte t d).map fun m => ({ u with tables := m } : Unmapping) with
    | none => rfl
    | some v => exact ih fun e he => hlt e (List.mem_cons_of_mem d he)

lemma freeTable_eq (hw : walk m0.next r p = some t) :
    u.freeTable freeImm t = (freeAct freeImm p).foldlM (act m0 r) u := by
  cases freeImm with
  | false => rfl
  | true =>
    simp only [Unmapping.freeTable,if_true,freeAct,foldlM_cons,List.foldlM_nil,act,Act.path,hw]
    exact (bind_pure _).symm

section
variable (hu : Unique m0.next (· = r) 3 Prod.mk)
include hu

lemma round_eq (hp : p.length ≤ 2) (hw : walk m0.next r p = some t)
    {f : Unmapping → Nat → Option Unmapping} {i : Nat} (hunder : ∀ x ∈ xs, p ++ [i] <+: x.path)
    (hinner : ∀ w, walk m0.next r (p ++ [i]) = some w → f u w = xs.foldlM (act m0 r) u) (h : Agree m0 r u) :
    (if present (u.tables.mem t i) then (do
      let u ← f u (entryFrame (u.tables.mem t i))
      u.freeTable freeImm (entryFrame (u.tables.mem t i)))
    else some u) = (xs ++ freeAct freeImm (p ++ [i])).foldlM (act m0 r) u := by
  have hmem := h p hp t hw
  have hnext : walk m0.next r (p ++ [i]) = m0.next t i := by rw [walk_snoc,hw,Option.bind_some]
  by_cases hpres : present (m0.mem t i) = true
  · have hwi : walk m0.next r (p ++ [i]) = some (entryFrame (m0.mem t i)) := by rw [hnext,next,if_pos hpres]
    rw [hmem,if_pos hpres,hinner _ hwi,List.foldlM_append]
    cases hv : xs.foldlM (act m0 r) u with
    | none => rfl
    | some v =>
      have hmem' := agree_acts hu h hv p hp t hw
      change v.freeTable freeImm (entryFrame (v.tables.mem t i)) = _
      rw [hmem',freeTable_eq hwi]
      rfl
  · have hwi : walk m0.next r (p ++ [i]) = none := by rw [hnext,next,if_neg hpres]
    rw [hmem,if_neg hpres,skip_acts hwi]
    intro x hx
    rcases List.mem_append.mp hx with hx | hx
    · exact hunder x hx
    · exact freeAct_under List.prefix_rfl x hx

lemma unmapPd_eq (hw : walk m0.next r [a,b] = some t) (ha : a < 512)
    (hb : b < 512) (hl : last ≤ 512) (h : Agree m0 r u) : u.unmapPd t start stop first last freeImm =
      (planPd a b start stop first last freeImm).foldlM (act m0 r) u := by
  refine foldlM_plan hu (fun c hc u h => ?_) h
  have hlt := (mem_loop.mp hc).2
  have hc512 : c < 512 := by omega
  exact round_eq (p := [a,b]) (f := fun u w => u.clearPtes w _ _) hu le_rfl hw
    (planPt_under ha hb hc512 (limit_le ptx_lt)) (fun w hwc => clearPtes_eq hwc ha hb hc512 (limit_le ptx_lt)) h

lemma unmapPdpt_eq (hw : walk m0.next r [a] = some t) (ha : a < 512) (hl : last ≤ 512) (h : Agree m0 r u) :
    u.unmapPdpt t start stop first last freeImm =
      (planPdpt a start stop first last freeImm).foldlM (act m0 r) u := by
  refine foldlM_plan hu (fun b hb u h => ?_) h
  have hlt := (mem_loop.mp hb).2
  have hb512 : b < 512 := by omega
  exact round_eq (p := [a]) (f := fun u w => u.unmapPd w _ _ _ _ _) hu (by simp) hw
    (planPd_under ha hb512 (limit_le pdx_lt)) (fun w hwb => unmapPd_eq hu hwb ha hb512 (limit_le pdx_lt) h) h

lemma unmapPages_eq (hle : pml4x start ≤ pml4x (sub64 stop 1)) :
    (Unmapping.mk m0 []).unmapPages r start stop freeImm =
      (plan start stop freeImm).foldlM (act m0 r) ⟨m0,[]⟩ := by
  rw [Unmapping.unmapPages,if_pos hle]
  refine foldlM_plan hu (fun a ha u h => ?_) fun _ _ _ _ => rfl
  have hlt := (mem_loop.mp ha).2
  have hlast := pml4x_lt (s := sub64 stop 1)
  have ha512 : a < 512 := by omega
  exact round_eq (p := []) (f := fun u w => u.unmapPdpt w _ _ _ _ _) hu (by simp) rfl
    (planPdpt_under ha512 (limit_le pdptx_lt)) (fun w hwa => unmapPdpt_eq hu hwa ha512 (limit_le pdptx_lt) h) h

end

end

end Tables
end MappedMemory
