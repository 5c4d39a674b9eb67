import MappedMemory.Kernel.Spaces

namespace MappedMemory
open Keyed Pmem Shm

namespace World

variable {w w' : World} {o : Op} {r : Reply}

def sparesCache (w : World) : Effect → Bool
  | .freeStore c => w.cachedPages.all fun d => d.store != c
  | _ => true

def tidy (w : World) : Op → Bool
  | .spawn phs _ => decide ((phs.flatMap segmentPages).map Prod.fst ++ [vpn stackTop]).Nodup
  | .call o =>
    match w.shm.step o with
    | none => true
    | some out => out.effects.all w.sparesCache
  | .access pid vaddr byte _ _ =>
    match (w.shm.caller pid).bind fun p => p.as.asFindMemregion vaddr 1 with
    | none => true
    | some mr => (w.translate pid vaddr byte.isSome).isSome || (w.lookupPte pid (vpn vaddr)).isNone ||
        (!mr.shared && decide (mr.perm = .urw))
  | _ => true

lemma Housed.clean (h : w.Housed) (ht : w.tidy o = true) : w.Clean o := by
  cases o with
  | spawn phs file =>
    refine ⟨of_decide_eq_true ht,fun e he hs => ?_⟩
    obtain ⟨x,hx,hxe⟩ := h.ptes e he
    exact absurd (h.inv.tabled_lt hx) (by omega)
  | call so =>
    intro out hout c hc d hd
    simp only [tidy,hout,List.all_eq_true] at ht
    have := ht _ hc
    simp only [sparesCache,List.all_eq_true,bne_iff_ne] at this
    exact this d hd
  | access pid vaddr byte user radix =>
    intro p mr hp hmr hmiss hpres
    simp only [tidy,hp,Option.bind_some,hmr,hmiss,Option.isSome_none,Bool.false_or,Bool.or_eq_true,
      Bool.and_eq_true,Bool.not_eq_true',decide_eq_true_eq,Option.isNone_iff_eq_none] at ht
    rcases ht with hnone | hok
    · simp [hnone] at hpres
    · exact hok
  | fork _ => trivial
  | nalloc _ => trivial
  | nfree _ _ => trivial

structure Kept (w : World) : Prop where
  housed : w.Housed
  counted : Accounted false w [] []
  tight : w.failures = 0 → Accounted true w [] []

lemma Kept.step (h : w.Kept) (ht : w.tidy o = true) (hs : w.step false o = some (w',r)) : w'.Kept := by
  refine ⟨h.housed.step h.counted hs,(h.counted.step (by simp) hs).2 (by simp),fun hz => ?_⟩
  have hle := (h.counted.step (by simp) hs).1
  have hw : w.failures = 0 := by omega
  exact ((h.tight hw).step (fun _ => h.housed.clean ht) hs).2 fun _ => hz.trans hw.symm

lemma init_kept {cfg : Alloc.Config} {data : Nat → Nat → Nat} (h : init cfg data = some w) : w.Kept :=
  ⟨init_housed h,init_accounted h,fun _ => init_accounted h⟩

def tidyRun (cfg : Alloc.Config) (data : Nat → Nat → Nat) (ops : List Op) : Option World := do
  let w ← init cfg data
  ops.foldlM (Run.guarded tidy (move false)) w

def Leaked (w : World) (f : Nat) : Prop :=
  (f < w.pm.pagemapEnd ∧ 0 < w.pm.refcnt f ∧ f ∉ w.tables.map Table.frame ∧ f ∉ w.kern) ∧
    (∀ e ∈ w.ptes, e.frame ≠ f) ∧ ∀ c ∈ w.cachedPages, c.frame = f → ∀ d ∈ w.shm.ctable, d.id ≠ c.store

def shareAndFork : List Op :=
  [program,.call (.createSharedRegion 0 [65] 1 0 true),.call (.createMapping 0 [65] true true),
    .access 0 4096 (some 7) true true,.fork 0,proceed 0,proceed 0,proceed 0,proceed 0,proceed 0,proceed 0,
    .access 0 0 (some 9) true true]

def destroyTouched : List Op :=
  [program,.call (.createSharedRegion 0 [65] 1 0 true),.call (.createMapping 0 [65] true true),
    .access 0 4096 (some 7) true true,.call (.destroyMapping 0 [65] 4096),proceed 0,proceed 0,
    .call (.destroySharedRegion 0 [65])]

end World
end MappedMemory
