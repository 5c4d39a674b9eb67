import MappedMemory.RadixTree.Map

namespace MappedMemory.RadixTree

def radixTreeEmpty (t : Tree) : Bool := t.height = 0

def act (failing : Bool) (t : Tree) : Op → Option Tree
  | .insert index leaf supply => do
    if index < maxIndices then
      let (u,status) ← insert t index leaf supply
      if status = .allocFailed ∧ failing = false then none else some u
    else none
  | .lookup _ => some t
  | .remove index => (remove t index).map Prod.fst

def build (failing : Bool) (ops : List Op) : Option Tree := ops.foldlM (act failing) construct

section
variable {t u : Tree} {item : Nat → Nat → Option Nat} {i j level rounds : Nat} {failing : Bool} {op : Op}
  {ops : List Op}

lemma levelIndex_masked {h k : Nat} (hk : k < h) : levelIndex (i % width ^ h) k = levelIndex i k := by
  obtain ⟨d,rfl⟩ : ∃ d, h = k + (d + 1) := ⟨h - k - 1,by omega⟩
  rw [levelIndex_eq,levelIndex_eq,above_eq,above_eq,digit,digit,pow_add,Nat.mod_mul_right_div_self]
  exact Nat.mod_mod_of_dvd _ (Dvd.intro_left _ (pow_succ width d).symm)

lemma descend_congr {supply : Supply} {x : Option Nat} (h : ∀ k, 0 < k → k ≤ level → levelIndex i k = levelIndex j k) :
    descend i false level t x supply = descend j false level t x supply := by
  induction level generalizing x with
  | zero => rfl
  | succ level ih =>
    cases x with
    | none => rfl
    | some a =>
      simp only [descend,h (level + 1) (Nat.succ_pos _) le_rfl]
      simp only [ih fun k hpos hk => h k hpos (hk.trans (Nat.le_succ _)),Bool.false_eq_true,if_false]

lemma prune_congr {x : Option Nat} (h : ∀ k < level + rounds, levelIndex i k = levelIndex j k) :
    prune i rounds level t x = prune j rounds level t x := by
  induction rounds generalizing t level x with
  | zero => rfl
  | succ rounds ih =>
    have hrest : ∀ k < level + 1 + rounds, levelIndex i k = levelIndex j k := fun k hk => h k (by omega)
    simp only [prune,h level (by omega),ih hrest]

lemma remove_masked (h : t.Shaped item) : remove t i = remove t (i % width ^ t.height) := by
  by_cases hz : t.height = 0
  · simp [remove,findParent,hz,h.frame.empty.mp hz,descend]
  · have hsame : ∀ k < t.height, levelIndex i k = levelIndex (i % width ^ t.height) k :=
      fun k hk => (levelIndex_masked hk).symm
    have hdescend : ∀ x, descend i false (t.height - 1) t x [] =
        descend (i % width ^ t.height) false (t.height - 1) t x [] :=
      fun x => descend_congr fun k _ hk => hsame k (by omega)
    have hprune : ∀ x, prune i t.height 0 t x = prune (i % width ^ t.height) t.height 0 t x :=
      fun x => prune_congr fun k hk => hsame k (by omega)
    simp only [remove,findParent,hdescend,hprune,hsame 0 (by omega)]

lemma remove_missing (h : t.Shaped item) (hn : item 0 (i % width ^ t.height) = none) : remove t i = some (t,none) := by
  by_cases hz : t.height = 0
  · simp [remove,findParent,hz,h.frame.empty.mp hz,descend]
  · rw [remove_masked h]
    have hpos : 0 < width ^ t.height := Nat.pow_pos (by decide)
    have hin : ¬((i % width ^ t.height : Nat) : Int) > maxIndex t := by
      rw [le_maxIndex,above_eq]
      exact ⟨by omega,Nat.div_eq_of_lt (Nat.mod_lt _ hpos)⟩
    obtain ⟨level,r,hl,hr,ha⟩ := h.root hin
    rw [remove,findParent,hl,hr,Nat.add_sub_cancel]
    rw [hl] at ha hn
    cases hb : item 1 (above (i % width ^ (level + 1)) 1) with
    | none =>
      rw [descend_missing h ha hb]
      rfl
    | some b =>
      obtain ⟨n,hnode,hf⟩ := h.node hb
      have hs := hf.levelSlot.trans hn
      simp only [descend_found h ha hb,hnode,Option.bind_eq_bind,Option.bind_some,hs]

lemma remove_any (h : t.Shaped item) : ∃ u x item', remove t i = some (u,x) ∧ u.height ≤ t.height ∧
    u.Shaped item' ∧ (x = none ↔ item 0 (i % width ^ t.height) = none) ∧ (x = none → u = t) ∧
    (Tidy t.heap item → Tidy u.heap item') := by
  cases hi : item 0 (i % width ^ t.height) with
  | none => exact ⟨t,none,item,remove_missing h hi,le_rfl,h,by simp,fun _ => rfl,id⟩
  | some leaf =>
    obtain ⟨u,item',hu,hle,hshape,-,htidy⟩ := remove_shaped h hi
    exact ⟨u,some leaf,item',(remove_masked h).trans hu,hle,hshape,by simp,nofun,htidy⟩

lemma act_insert {leaf : Nat} {supply : Supply} (hu : act failing t (.insert i leaf supply) = some u) :
    i < maxIndices ∧ ∃ status, insert t i leaf supply = some (u,status) ∧ (failing = false → status ≠ .allocFailed) := by
  simp only [act] at hu
  split at hu
  case isFalse => exact nomatch hu
  case isTrue hi =>
    obtain ⟨⟨v,status⟩,hv,hu⟩ := Option.bind_eq_some_iff.mp hu
    split at hu
    case isTrue => exact nomatch hu
    case isFalse hok =>
      cases hu
      exact ⟨hi,status,hv,fun hf he => hok ⟨he,hf⟩⟩

lemma act_shaped (h : ∃ item, t.Shaped item ∧ t.height ≤ 5) (hu : act failing t op = some u) :
    ∃ item, u.Shaped item ∧ u.height ≤ 5 := by
  obtain ⟨item,hshape,hfive⟩ := h
  cases op with
  | insert index leaf supply =>
    obtain ⟨hi,status,hv,-⟩ := act_insert hu
    obtain ⟨item',hshape',hle,-⟩ := insert_shaped hshape hi hfive hv
    exact ⟨item',hshape',hle⟩
  | lookup index =>
    cases hu
    exact ⟨item,hshape,hfive⟩
  | remove index =>
    obtain ⟨v,x,item',hv,hle,hshape',-⟩ := remove_any (i := index) hshape
    rw [act,hv] at hu
    cases hu
    exact ⟨item',hshape',hle.trans hfive⟩

theorem remove_absent_iff (failing : Bool) (ops : List Op) (h : build failing ops = some t) :
    (∃ u, remove t i = some (u,none) ∧ ∀ j, lookup u j = lookup t j) ↔ lookup t (i % width ^ t.height) = some none := by
  obtain ⟨item,hshape,-⟩ := Run.invariant (fun _ _ _ hs hu => act_shaped hs hu) ⟨_,bare_shaped rfl rfl,by decide⟩ h
  obtain ⟨u,x,item',hu,-,-,hx,hsame,-⟩ := remove_any (i := i) hshape
  rw [lookup_eq hshape,Option.some_inj,← hx,hu]
  constructor
  · rintro ⟨v,hv,-⟩
    cases hv
    rfl
  · rintro rfl
    exact ⟨u,rfl,fun j => by rw [hsame rfl]⟩

end

theorem remove_absent_small : ∃ t, build false [.insert 5 70 [some 1]] = some t ∧ lookup t 6 = some none ∧
    ∃ u, remove t 6 = some (u,none) ∧ ∀ j, lookup u j = lookup t j :=
  ⟨_,rfl,rfl,(remove_absent_iff false [.insert 5 70 [some 1]] rfl).mpr rfl⟩

theorem remove_absent_fails : ∃ t u, build false [.insert 5 70 [some 1]] = some t ∧ lookup t 69 = some none ∧
    remove t 69 = some (u,some 70) ∧ lookup t 5 = some (some 70) ∧ lookup u 5 = some none :=
  ⟨_,_,rfl,rfl,rfl,rfl,rfl⟩

structure Exact (t : Tree) : Prop where
  empty : radixTreeEmpty t ↔ ∀ i, lookup t i = some none
  counted : ∀ a n, t.heap a = some n → n.count = slotCount n.slots ∧ 1 ≤ n.count
  reclaimed : (∀ i, lookup t i = some none) → ∀ a, t.heap a = none

def Whole (t : Tree) : Prop := ∃ item, t.Shaped item ∧ t.height ≤ 5 ∧ Tidy t.heap item

def lowFirst (t : Tree) : Op → Prop
  | .insert index _ _ => radixTreeEmpty t → index < width
  | _ => True

section
variable {t u : Tree} {item item' : Nat → Nat → Option Nat} {i k p : Nat} {op : Op}

lemma Tidy.leaf (h : Tidy t.heap item) (hp : item k p ≠ none) : ∃ q, item 0 q ≠ none := by
  induction k generalizing p with
  | zero => exact ⟨p,hp⟩
  | succ k ih =>
    obtain ⟨q,-,hq⟩ := h.full k p hp
    exact ih hq

lemma Tree.Shaped.bare (h : t.Shaped item) (hz : t.height = 0) (k p : Nat) : item k p = none := by
  by_contra hc
  obtain rfl : k = 0 := Nat.le_zero.mp (hz ▸ h.frame.below k p hc)
  obtain rfl := h.frame.top p (hz.symm ▸ hc)
  have hroot := h.frame.root
  rw [hz] at hroot
  exact hc (hroot.trans (h.frame.empty.mp hz))

lemma Whole.exact (h : Whole t) : Exact t := by
  obtain ⟨item,hs,-,ht⟩ := h
  have hempty : t.height = 0 ↔ ∀ i, lookup t i = some none := by
    simp only [lookup_eq hs,Option.some_inj]
    refine ⟨fun hz => hs.bare hz 0,fun hno => ?_⟩
    by_contra hz
    obtain ⟨q,hq⟩ := ht.leaf (k := t.height) (p := 0) (hs.frame.root ▸ mt hs.frame.empty.mpr hz)
    exact hq (hno q)
  refine ⟨by simpa [radixTreeEmpty] using hempty,fun a n hn => ?_,fun hno a => ?_⟩
  · obtain ⟨k,p,hp⟩ := ht.owned a (by simp [hn])
    have hf := hs.fits hp hn
    obtain ⟨q,rfl,hq⟩ := ht.full k p (by simp [hp])
    refine ⟨hf.count,Nat.pos_of_ne_zero (hf.occupied (d := digit q) digit_lt ?_)⟩
    rwa [hf.slots _ digit_lt,extend_front]
  · by_contra ha
    obtain ⟨k,p,hp⟩ := ht.owned a ha
    exact nomatch (hs.bare (hempty.mpr hno) (k + 1) p).symm.trans hp

lemma Grown.tidy (h : Grown i t item u item') (hs : t.Shaped item) (hu : u.Shaped item') (ht : Tidy t.heap item)
    (hlow : t.height = 0 → i < width) (hleaves : ∀ q, item 0 q ≠ none → item' 0 q ≠ none) : Tidy u.heap item' := by
  refine ⟨fun k p hp => ?_,h.owned ht.owned⟩
  have hk : k + 1 ≤ u.height := hu.frame.below _ _ hp
  have hpath : p = above i (k + 1) → ∃ q, front q = p ∧ item' k q ≠ none := by
    rintro rfl
    exact ⟨above i k,rfl,hu.frame.climb (k := 0) h.present (Nat.zero_le k) (by omega)⟩
  obtain hold | hp | ⟨rfl,hle⟩ := h.added k p hp
  · obtain ⟨q,hq,hi⟩ := ht.full k p hold
    refine ⟨q,hq,?_⟩
    cases k with
    | zero => exact hleaves q hi
    | succ k => exact h.kept k q hi
  · exact hpath hp
  · by_cases hz : t.height = 0
    · refine hpath ?_
      rw [above_eq]
      exact (Nat.div_eq_of_lt ((hlow hz).trans_le (Nat.le_self_pow (Nat.succ_ne_zero k) width))).symm
    · have hroot : item t.height 0 ≠ none := hs.frame.root ▸ mt hs.frame.empty.mpr hz
      obtain ⟨d,hd⟩ : ∃ d, t.height = d + 1 := ⟨t.height - 1,by omega⟩
      rw [hd] at hroot hle
      have hzero : ∀ l, above 0 l = 0 := fun l => by rw [above_eq,Nat.zero_div]
      have hclimb := hu.frame.climb (i := 0) (k := d + 1) (l := k) (by rw [hzero]; exact h.kept d 0 hroot) hle (by omega)
      exact ⟨0,rfl,hzero k ▸ hclimb⟩

lemma insert_whole {leaf : Nat} {supply : Supply} (h : Whole t) (hu : act false t (.insert i leaf supply) = some u) :
    ∃ item item', t.Shaped item ∧ u.Shaped item' ∧ u.height ≤ 5 ∧ Tidy t.heap item ∧ Grown i t item u item' ∧
      ∀ q, q ≠ i → item' 0 q = item 0 q := by
  obtain ⟨item,hs,hfive,ht⟩ := h
  obtain ⟨hi,status,hv,hok⟩ := act_insert hu
  obtain ⟨item',hs',hle,-,-,hmap,hgrown⟩ := insert_shaped hs hi hfive hv
  refine ⟨item,item',hs,hs',hle,ht,hgrown (hok rfl),fun q hq => ?_⟩
  rw [hmap]
  split
  · exact Function.update_of_ne hq ..
  · rfl

lemma Whole.step (h : Whole t) (hlow : lowFirst t op) (hu : act false t op = some u) : Whole u := by
  cases op with
  | insert index leaf supply =>
    obtain ⟨item,item',hs,hs',hle,ht,hgrown,hmap⟩ := insert_whole h hu
    refine ⟨item',hs',hle,hgrown.tidy hs hs' ht (fun hz => hlow (by simpa [radixTreeEmpty] using hz)) fun q hq => ?_⟩
    by_cases he : q = index
    · exact he ▸ hgrown.present
    · rwa [hmap q he]
  | lookup index =>
    cases hu
    exact h
  | remove index =>
    obtain ⟨item,hs,hfive,ht⟩ := h
    obtain ⟨v,x,item',hv,hle,hs',-,-,htidy⟩ := remove_any (i := index) hs
    rw [act,hv] at hu
    cases hu
    exact ⟨item',hs',hle.trans hfive,htidy ht⟩

lemma Whole.step_fails (h : Whole t) (hlow : ¬lowFirst t op) (hu : act false t op = some u) : ¬Exact u := by
  cases op with
  | insert index leaf supply =>
    obtain ⟨item,item',hs,hs',hle,ht,hgrown,hmap⟩ := insert_whole h hu
    obtain ⟨hz,hwide⟩ : t.height = 0 ∧ width ≤ index := by simpa [lowFirst,radixTreeEmpty] using hlow
    obtain ⟨a,ha⟩ := Option.ne_none_iff_exists'.mp (hgrown.first hz)
    obtain ⟨n,hn,hf⟩ := hs'.node ha
    intro hexact
    obtain ⟨q,hq,hi⟩ := hf.inhabited (Nat.pos_iff_ne_zero.mp (hexact.counted a n hn).2)
    have hlt : q < width := (Nat.div_eq_zero_iff_lt (by decide)).mp hq
    exact hi ((hmap q (by omega)).trans (hs.bare hz 0 q))
  | lookup index | remove index => exact absurd trivial hlow

theorem radix_tree_exact_iff (ops : List Op) (h : build false ops = some t) :
    (∀ pre u, pre <+: ops → build false pre = some u → Exact u) ↔ Run.Along lowFirst (act false) ops construct :=
  Run.along_iff_prefixes (fun _ => Whole.exact) (fun _ _ _ hs hok hu => Whole.step hs hok hu)
    (fun _ _ _ hs hno hu => Whole.step_fails hs hno hu) ⟨_,bare_shaped rfl rfl,by decide,by simp,fun a ha => absurd rfl ha⟩ h

end

def grown : List Op :=
  [.insert 5 70 [some 1],.insert 4096 71 [some 2,some 3,some 4,some 6],.remove 5,.remove 4096]

theorem radix_tree_exact_grown : (build false grown).isSome ∧
    ∀ pre u, pre <+: grown → build false pre = some u → Exact u := by
  have hsome : (build false grown).isSome := by decide +kernel
  obtain ⟨t,ht⟩ := Option.isSome_iff_exists.mp hsome
  refine ⟨hsome,(radix_tree_exact_iff _ ht).mpr ⟨fun _ => by decide,fun u hu => ⟨fun hz => ?_,fun _ _ => ?_⟩⟩⟩
  · cases hu
    exact absurd hz (by decide)
  · exact ⟨trivial,fun _ _ => ⟨trivial,fun _ _ => trivial⟩⟩

theorem radix_tree_keeps_node : ∃ u n, build false [.insert 64 70 [some 1,some 2,some 3],.remove 64] = some u ∧
    lookup u 64 = some none ∧ radixTreeEmpty u = false ∧ u.heap 1 = some n ∧ n.count = 0 :=
  ⟨_,_,rfl,rfl,rfl,rfl,rfl⟩

end MappedMemory.RadixTree
