import MappedMemory.RadixTree.Shape

namespace MappedMemory.RadixTree

open Function (update update_apply update_comm update_idem update_of_ne update_self)
open Option (bind_eq_bind bind_eq_some_iff bind_some isSome_iff_exists ne_none_iff_exists')

def above (i : Nat) : Nat → Nat
  | 0 => i
  | k + 1 => front (above i k)

section
variable {height : Nat} {rootNode : Option Nat} {item : Nat → Nat → Option Nat} {i k l : Nat} {t : Tree}

lemma above_eq : above i k = i / width ^ k := by
  induction k with
  | zero => simp [above]
  | succ k ih => rw [above,ih,front,Nat.div_div_eq_div_mul,pow_succ]

lemma levelIndex_eq : levelIndex i k = digit (above i k) := by
  have hpow : width ^ k = 2 ^ (k * 6) := by rw [mul_comm,pow_mul]; rfl
  rw [above_eq,hpow,levelIndex,Nat.shiftRight_eq_div_pow]
  exact Nat.and_two_pow_sub_one_eq_mod _ 6

lemma levelIndex_lt : levelIndex i k < width := levelIndex_eq ▸ digit_lt

lemma extend_levelIndex : extend (above i (k + 1)) (levelIndex i k) = above i k := by
  rw [levelIndex_eq,above,extend_front]

lemma le_maxIndex : ¬(i : Int) > maxIndex t ↔ 0 < t.height ∧ above i t.height = 0 := by
  have hpow : 1 <<< (widthPower * t.height) = width ^ t.height := by
    rw [Nat.shiftLeft_eq,one_mul,pow_mul]
    rfl
  have hpos : 0 < width ^ t.height := Nat.pow_pos (by decide)
  rw [above_eq,Nat.div_eq_zero_iff_lt hpos,maxIndex,hpow]
  split <;> omega

lemma Frame.climb (h : Frame height rootNode item) (hk : item k (above i k) ≠ none) (hl : k ≤ l) (hh : l ≤ height) :
    item l (above i l) ≠ none := by
  induction l, hl using Nat.le_induction with
  | base => exact hk
  | succ l hkl ih => exact h.up l _ (ih (by omega)) (by omega)

lemma Frame.out_of_range (h : Frame t.height t.rootNode item) (hi : (i : Int) > maxIndex t) : item 0 i = none := by
  by_contra hc
  have htop := h.climb (k := 0) hc (Nat.zero_le t.height) le_rfl
  have hzero := h.top _ htop
  have hpos : 0 < t.height := by
    rw [hzero,h.root] at htop
    exact Nat.pos_of_ne_zero fun hz => htop (h.empty.mp hz)
  exact le_maxIndex.mpr ⟨hpos,hzero⟩ hi

end

variable {heap : Nat → Option Node} {item : Nat → Nat → Option Nat} {k p a : Nat} {n : Node}

def Tree.Shaped (t : Tree) (item : Nat → Nat → Option Nat) : Prop := Shape t.height t.rootNode t.heap item

def Tree.store (t : Tree) (a : Nat) (n : Node) : Tree := { t with heap := update t.heap a (some n) }

lemma bare_shaped {t : Tree} (hz : t.height = 0) (hr : t.rootNode = none) : t.Shaped fun _ _ => none :=
  ⟨⟨by simp [hz,hr],hr.symm,by simp,by simp,by simp,by simp⟩,by simp [Stored]⟩

def Owned (heap : Nat → Option Node) (item : Nat → Nat → Option Nat) : Prop :=
  ∀ a, heap a ≠ none → ∃ k p, item (k + 1) p = some a

lemma Owned.put {heap' : Nat → Option Node} {b : Nat} (h : Owned heap item)
    (hn : item (k + 1) p = none) (hheap : ∀ c, heap' c ≠ none → c = b ∨ heap c ≠ none) :
    Owned heap' (put item (k + 1) p (some b)) := by
  intro c hc
  obtain rfl | hc := hheap c hc
  · exact ⟨k,p,put_self⟩
  · obtain ⟨l,q,hq⟩ := h c hc
    refine ⟨l,q,(put_of_ne ?_).trans hq⟩
    rintro ⟨hl,rfl⟩
    exact nomatch (hl ▸ hq).symm.trans hn

lemma Owned.drop (h : Owned heap item)
    (ha : item (k + 1) p = some a) : Owned (update heap a none) (RadixTree.put item (k + 1) p none) := by
  intro c hc
  have hne : c ≠ a := fun he => hc (he ▸ update_self ..)
  rw [update_of_ne hne] at hc
  obtain ⟨l,q,hq⟩ := h c hc
  refine ⟨l,q,(put_of_ne ?_).trans hq⟩
  rintro ⟨hl,rfl⟩
  exact hne (Option.some.inj ((hl ▸ hq).symm.trans ha))

def FullBut (item : Nat → Nat → Option Nat) (k p : Nat) : Prop :=
  ∀ l q, item (l + 1) q ≠ none → (l = k ∧ q = p) ∨ ∃ r, front r = q ∧ item l r ≠ none

structure Tidy (heap : Nat → Option Node) (item : Nat → Nat → Option Nat) : Prop where
  full : ∀ k p, item (k + 1) p ≠ none → ∃ q, front q = p ∧ item k q ≠ none
  owned : Owned heap item

lemma FullBut.drop (h : FullBut item k p) : FullBut (RadixTree.put item (k + 1) p none) (k + 1) (front p) := by
  intro l q hq
  have := h l q
  grind [RadixTree.put]

lemma Fits.inhabited {l q : Nat} (h : Fits item l q n) (hc : n.count ≠ 0) : ∃ r, front r = q ∧ item l r ≠ none := by
  by_contra hno
  refine hc (h.count.trans (slotCount_eq_zero.mpr fun d hd => ?_))
  by_contra hs
  exact hno ⟨extend q d,front_extend hd,h.slots d hd ▸ hs⟩

def Fresh (heap : Nat → Option Node) (supply : Supply) : Prop :=
  (supply.filterMap id).Nodup ∧ ∀ a, some a ∈ supply → heap a = none

lemma Fresh.update {supply : Supply} {y : Option Node}
    (h : Fresh heap supply) (ha : heap a = some n) : Fresh (update heap a y) supply := by
  refine ⟨h.1,fun c hc => ?_⟩
  have hfree := h.2 c hc
  have hne : c ≠ a := by
    rintro rfl
    exact nomatch hfree.symm.trans ha
  exact (update_of_ne hne ..).trans hfree

section
variable {t u : Tree} {item : Nat → Nat → Option Nat} {i level a b : Nat} {n : Node} {alloc ok : Bool}
  {supply rest : Supply} {x : Option Nat} {k p d v fuel leaf : Nat}

lemma Tree.Shaped.node (h : t.Shaped item) (ha : item (k + 1) p = some a) :
    ∃ n, t.heap a = some n ∧ Fits item k p n := h.stored k p a ha

lemma Tree.Shaped.root (h : t.Shaped item) (hi : ¬(i : Int) > maxIndex t) :
    ∃ level r, t.height = level + 1 ∧ t.rootNode = some r ∧ item (level + 1) (above i (level + 1)) = some r := by
  obtain ⟨hpos,hzero⟩ := le_maxIndex.mp hi
  have hr : t.rootNode ≠ none := fun hn => hpos.ne' (h.frame.empty.mpr hn)
  obtain ⟨r,hr⟩ := ne_none_iff_exists'.mp hr
  obtain ⟨level,hl⟩ : ∃ level, t.height = level + 1 := ⟨t.height - 1,by omega⟩
  exact ⟨level,r,hl,hr,by rw [← hl,hzero,h.frame.root,hr]⟩

lemma Fits.levelSlot (h : Fits item k (above i (k + 1)) n) : n.slots (levelIndex i k) = item k (above i k) := by
  rw [h.slots _ levelIndex_lt,extend_levelIndex]

lemma descend_found (h : t.Shaped item) (ha : item (level + 1) (above i (level + 1)) = some a)
    (hb : item 1 (above i 1) = some b) : descend i alloc level t (some a) supply = some (t,some b,supply) := by
  induction level generalizing a with
  | zero => rw [descend,← Option.some.inj (ha.symm.trans hb)]
  | succ level ih =>
    obtain ⟨n,hn,hf⟩ := h.node ha
    have hlt := h.lt_height ha
    have hc := h.frame.climb (k := 1) (l := level + 1) (i := i) (by simp [hb]) (by omega) (by omega)
    obtain ⟨c,hc⟩ := ne_none_iff_exists'.mp hc
    simp only [descend,hn,hf.levelSlot,hc,bind_eq_bind,bind_some]
    exact ih hc

lemma descend_missing (h : t.Shaped item) (ha : item (level + 1) (above i (level + 1)) = some a)
    (hb : item 1 (above i 1) = none) : descend i false level t (some a) supply = some (t,none,supply) := by
  induction level generalizing a with
  | zero => simp [hb] at ha
  | succ level ih =>
    obtain ⟨n,hn,hf⟩ := h.node ha
    simp only [descend,hn,hf.levelSlot,bind_eq_bind,bind_some]
    cases hc : item (level + 1) (above i (level + 1)) with
    | none => rfl
    | some c => exact ih hc

lemma lookup_eq (h : t.Shaped item) : lookup t i = some (item 0 i) := by
  rw [lookup]
  split
  case isTrue hi => rw [h.frame.out_of_range hi]
  case isFalse hi =>
    obtain ⟨level,r,hl,hr,ha⟩ := h.root hi
    rw [findParent,hl,hr,Nat.add_sub_cancel]
    cases hb : item 1 (above i 1) with
    | none =>
      have hnone : item 0 i = none := h.frame.up_none (by omega) hb
      rw [descend_missing h ha hb,hnone]
      rfl
    | some b =>
      obtain ⟨n,hn,hf⟩ := h.node hb
      simp only [descend_found h ha hb,hn,bind_eq_bind,bind_some]
      rw [hf.levelSlot]
      rfl

lemma nodeCreate_total (h : Fresh t.heap supply) : (nodeCreate t supply).isSome := by
  match supply, h with
  | [], _ => rfl
  | none :: _, _ => rfl
  | some a :: rest, h =>
    have ha := h.2 a List.mem_cons_self
    simp [nodeCreate,ha]

lemma nodeCreate_some (h : nodeCreate t supply = some (u,x,rest)) : (Fresh t.heap supply → Fresh u.heap rest) ∧
      ((x = none ∧ u = { t with failures := t.failures + 1 }) ∨
        ∃ b, x = some b ∧ t.heap b = none ∧
          u = t.store b ⟨0,none,fun _ => none⟩) := by
  match supply with
  | [] =>
    obtain ⟨rfl,rfl,rfl⟩ : _ = u ∧ none = x ∧ [] = rest := by simpa [nodeCreate] using h
    exact ⟨id,.inl ⟨rfl,rfl⟩⟩
  | none :: _ =>
    obtain ⟨rfl,rfl,rfl⟩ : _ = u ∧ none = x ∧ _ = rest := by simpa [nodeCreate] using h
    exact ⟨fun hf => by simpa [Fresh] using hf,.inl ⟨rfl,rfl⟩⟩
  | some b :: _ =>
    cases hb : t.heap b with
    | some n => simp [nodeCreate,hb] at h
    | none =>
      obtain ⟨rfl,rfl,rfl⟩ : _ = u ∧ some b = x ∧ _ = rest := by simpa [nodeCreate,hb] using h
      refine ⟨fun hf => ?_,.inr ⟨b,rfl,hb,rfl⟩⟩
      obtain ⟨hnd,hfree⟩ := hf
      simp only [List.filterMap_cons,id,List.nodup_cons] at hnd
      refine ⟨hnd.2,fun c hc => ?_⟩
      have hne : c ≠ b := by
        rintro rfl
        exact hnd.1 (List.mem_filterMap.mpr ⟨some c,hc,rfl⟩)
      exact (update_of_ne hne ..).trans (hfree c (List.mem_cons_of_mem _ hc))

lemma addChild_leaf (hn : t.heap a = some n) (hs : n.slots d = none) (hc : n.count < width) :
    addChild t a d v false = some (t.store a (n.filled d v),true) := by
  simp [addChild,hn,hs,hc,Node.filled,Tree.store]

lemma addChild_taken (hn : t.heap a = some n) (hs : n.slots d ≠ none) : addChild t a d v ok = some (t,false) := by
  obtain ⟨c,hc⟩ := ne_none_iff_exists'.mp hs
  simp [addChild,hn,hc]

lemma addChild_node {c : Nat} {m : Node} (hn : t.heap a = some n) (hs : n.slots d = none) (hc : n.count < width)
    (hm : t.heap c = some m) (hne : c ≠ a) : addChild t a d c true =
      some ((t.store c { m with parent := some a }).store a (n.filled d c),true) := by
  simp [addChild,hn,hs,hc,hm,hne,Node.filled,Tree.store,update_comm hne]

structure Nodes (i : Nat) (t : Tree) (item : Nat → Nat → Option Nat) (u : Tree) (item' : Nat → Nat → Option Nat) :
    Prop where
  kept : ∀ k p, item (k + 1) p ≠ none → item' (k + 1) p ≠ none
  added : ∀ k p, item' (k + 1) p ≠ none → item (k + 1) p ≠ none ∨ p = above i (k + 1) ∨ p = 0 ∧ t.height ≤ k
  owned : Owned t.heap item → Owned u.heap item'

structure Extends (i : Nat) (t : Tree) (item : Nat → Nat → Option Nat) (u : Tree) (item' : Nat → Nat → Option Nat) : Prop
    extends Nodes i t item u item' where
  shaped : u.Shaped item'
  leaves : item' 0 = item 0
  failures : t.failures ≤ u.failures
  taller : t.height ≤ u.height

lemma Extends.refl (h : t.Shaped item) : Extends i t item t item :=
  ⟨⟨fun _ _ => id,fun _ _ => .inl,id⟩,h,rfl,le_rfl,le_rfl⟩

lemma Extends.trans {item' item'' : Nat → Nat → Option Nat} {v : Tree} (h : Extends i t item u item')
    (h' : Extends i u item' v item'') : Extends i t item v item'' where
  shaped := h'.shaped
  leaves := h'.leaves.trans h.leaves
  failures := h.failures.trans h'.failures
  taller := h.taller.trans h'.taller
  kept k p hp := h'.kept k p (h.kept k p hp)
  added k p hp := by
    obtain hp | hp | hp := h'.added k p hp
    · exact h.added k p hp
    · exact .inr (.inl hp)
    · exact .inr (.inr ⟨hp.1,h.taller.trans hp.2⟩)
  owned ho := h'.owned (h.owned ho)

lemma Tree.Shaped.failed (h : t.Shaped item) : Extends i t item { t with failures := t.failures + 1 } item :=
  ⟨⟨fun _ _ => id,fun _ _ => .inl,id⟩,h,rfl,Nat.le_succ _,le_rfl⟩

lemma Extends.of_put (hs : u.Shaped (put item (k + 1) p (some b))) (hn : item (k + 1) p = none)
    (hf : t.failures = u.failures) (ht : t.height ≤ u.height) (hp : p = above i (k + 1) ∨ p = 0 ∧ t.height ≤ k)
    (hheap : ∀ c, u.heap c ≠ none → c = b ∨ t.heap c ≠ none) : Extends i t item u (put item (k + 1) p (some b)) where
  shaped := hs
  leaves := funext fun _ => put_of_ne (by omega)
  failures := hf.le
  taller := ht
  kept l q hq := by grind [put]
  added l q hq := by grind [put]
  owned ho := ho.put hn hheap

section
variable (h : t.Shaped item)
include h

lemma descend_attach (ha : item (level + 2) (above i (level + 2)) = some a)
    (hc : item (level + 1) (above i (level + 1)) = none) (hb : t.heap b = none)
    (hu : u = t.store b ⟨0,none,fun _ => none⟩) :
    ∃ v, addChild u a (levelIndex i (level + 1)) b true = some (v,true) ∧ v.height = t.height ∧
      Extends i t item v (put item (level + 1) (above i (level + 1)) (some b)) ∧
      ∀ s, Fresh u.heap s → Fresh v.heap s := by
  obtain ⟨n,hn,hf⟩ := h.node ha
  have hs : n.slots (levelIndex i (level + 1)) = none := hf.levelSlot.trans hc
  have hba : b ≠ a := by
    rintro rfl
    simp [hb] at hn
  subst hu
  have hnu := (update_of_ne hba.symm (some ⟨0,none,fun _ => none⟩) t.heap).trans hn
  have hbu := update_self b (some (⟨0,none,fun _ => none⟩ : Node)) t.heap
  refine ⟨_,addChild_node hnu hs (hf.room levelIndex_lt hs) hbu hba,rfl,
    .of_put ?_ hc rfl le_rfl (.inl rfl) fun c => ?_,?_⟩
  · have hshape := h.attach ha hn levelIndex_lt hs hb
    rw [extend_levelIndex] at hshape
    simpa [Tree.Shaped,Tree.store,update_idem] using hshape
  · simp only [Tree.store,update_apply]
    grind
  · exact fun s hs => (hs.update (y := some _) hbu).update ((update_of_ne hba.symm ..).trans hnu)

lemma descend_total (ha : item (level + 1) (above i (level + 1)) = some a)
    (hfresh : Fresh t.heap supply) : (descend i true level t (some a) supply).isSome := by
  induction level generalizing t item a supply with
  | zero => rfl
  | succ level ih =>
    obtain ⟨n,hn,hf⟩ := h.node ha
    simp only [descend,hn,hf.levelSlot,bind_eq_bind,bind_some,if_true]
    cases hc : item (level + 1) (above i (level + 1)) with
    | some c => exact ih h hc hfresh
    | none =>
      obtain ⟨⟨u,x,rest⟩,hu⟩ := isSome_iff_exists.mp (nodeCreate_total hfresh)
      obtain ⟨hrest,⟨rfl,-⟩ | ⟨b,rfl,hb,hu'⟩⟩ := nodeCreate_some hu
      · simp [hu]
      · obtain ⟨v,hv,-,hext,hkeep⟩ := descend_attach h ha hc hb hu'
        simp only [hu,hv,bind_some]
        exact ih hext.shaped put_self (hkeep rest (hrest hfresh))

lemma descend_extends (ha : item (level + 1) (above i (level + 1)) = some a)
    (hd : descend i true level t (some a) supply = some (u,x,rest)) :
    ∃ item', Extends i t item u item' ∧ u.height = t.height ∧ (x = none → t.failures < u.failures) ∧
      ∀ b, x = some b → item' 1 (above i 1) = some b := by
  induction level generalizing t item a supply with
  | zero =>
    obtain ⟨rfl,rfl,rfl⟩ : t = u ∧ some a = x ∧ supply = rest := by simpa [descend] using hd
    exact ⟨item,.refl h,rfl,nofun,fun b hb => hb ▸ ha⟩
  | succ level ih =>
    obtain ⟨n,hn,hf⟩ := h.node ha
    simp only [descend,hn,hf.levelSlot,bind_eq_bind,bind_some,if_true] at hd
    cases hc : item (level + 1) (above i (level + 1)) with
    | some c =>
      rw [hc] at hd
      exact ih h hc hd
    | none =>
      rw [hc] at hd
      obtain ⟨⟨v,y,s⟩,hv,hd⟩ := bind_eq_some_iff.mp hd
      obtain ⟨-,⟨rfl,rfl⟩ | ⟨b,rfl,hb,hv'⟩⟩ := nodeCreate_some hv
      · obtain ⟨rfl,rfl,rfl⟩ : _ = u ∧ none = x ∧ _ = rest := by simpa using hd
        exact ⟨item,h.failed,rfl,fun _ => Nat.lt_succ_self _,nofun⟩
      · obtain ⟨w,hw,hheight,hext,-⟩ := descend_attach h ha hc hb hv'
        simp only [hw,bind_some] at hd
        obtain ⟨item',hext',hh,hfail,hfound⟩ := ih hext.shaped put_self hd
        exact ⟨item',hext.trans hext',hh.trans hheight,fun hx => hext.failures.trans_lt (hfail hx),hfound⟩

lemma addLevel_done (hb : t.heap b = none)
    (hu : nodeCreate t supply = some (t.store b ⟨0,none,fun _ => none⟩,some b,rest)) :
    ∃ v, addLevel t supply = some (v,true,rest) ∧ v.height = t.height + 1 ∧
      Extends i t item v (put item (t.height + 1) 0 (some b)) ∧
      ∀ s, Fresh (t.store b ⟨0,none,fun _ => none⟩).heap s → Fresh v.heap s := by
  have hover : item (t.height + 1) 0 = none := h.frame.over_none (Nat.lt_succ_self _)
  cases hr : t.rootNode with
  | none =>
    have hz : t.height = 0 := h.frame.empty.mpr hr
    have hshape : Shape 0 none t.heap item := by rw [← hz,← hr]; exact h
    have hv : addLevel t supply =
        some ({ t.store b ⟨0,none,fun _ => none⟩ with rootNode := some b, height := t.height + 1 },true,rest) := by
      simp [addLevel,hu,Tree.store,hr]
    refine ⟨_,hv,rfl,.of_put ?_ hover rfl (Nat.le_succ _) (.inr ⟨rfl,le_rfl⟩) fun c => ?_,fun _ => id⟩
    · rw [hz]
      exact hshape.first
    · simp only [Tree.store,update_apply]
      grind
  | some r =>
    have hshape : Shape t.height (some r) t.heap item := by rw [← hr]; exact h
    obtain ⟨level,hl⟩ : ∃ level, t.height = level + 1 :=
      ⟨t.height - 1,by have := mt h.frame.empty.mp (by simp [hr]); omega⟩
    have hroot : item (level + 1) 0 = some r := by rw [← hl,h.frame.root,hr]
    obtain ⟨n,hn,-⟩ := h.node hroot
    have hrb : r ≠ b := by
      rintro rfl
      simp [hb] at hn
    have hru := (update_of_ne hrb (some ⟨0,none,fun _ => none⟩) t.heap).trans hn
    have hbu := update_self b (some (⟨0,none,fun _ => none⟩ : Node)) t.heap
    have hchild := addChild_node (t := t.store b ⟨0,none,fun _ => none⟩) (d := 0) hbu rfl (by decide) hru hrb
    have hv : addLevel t supply =
        some ({ ((t.store b ⟨0,none,fun _ => none⟩).store r { n with parent := some b }).store b
          (Node.filled ⟨0,none,fun _ => none⟩ 0 r) with rootNode := some b, height := t.height + 1 },true,rest) := by
      simp only [addLevel,hu,bind_eq_bind,bind_some]
      have hroot' : (t.store b ⟨0,none,fun _ => none⟩).rootNode = some r := hr
      simp only [hroot',hchild,Option.map_some,bind_some]
      rfl
    refine ⟨_,hv,rfl,.of_put ?_ hover rfl (Nat.le_succ _) (.inr ⟨rfl,le_rfl⟩) fun c => ?_,?_⟩
    · have hgrow := hshape.grow hn hb
      simpa [Tree.Shaped,Tree.store,update_idem,update_comm hrb] using hgrow
    · simp only [Tree.store,update_apply]
      grind
    · exact fun s hs => (hs.update (y := some _) hru).update ((update_of_ne hrb.symm ..).trans hbu)

lemma addLevel_total (hfresh : Fresh t.heap supply) : (addLevel t supply).isSome := by
  obtain ⟨⟨u,x,rest⟩,hu⟩ := isSome_iff_exists.mp (nodeCreate_total hfresh)
  obtain ⟨-,⟨rfl,rfl⟩ | ⟨b,rfl,hb,rfl⟩⟩ := nodeCreate_some hu
  · simp [addLevel,hu]
  · obtain ⟨v,hv,-⟩ := addLevel_done (i := 0) h hb hu
    simp [hv]

lemma addLevel_extends (ha : addLevel t supply = some (u,ok,rest)) :
    ∃ item', Extends i t item u item' ∧ (Fresh t.heap supply → Fresh u.heap rest) ∧
      (ok = false → t.failures < u.failures ∧ u.height = t.height) ∧ (ok = true → u.height = t.height + 1) := by
  have hsome : (nodeCreate t supply).isSome := by
    cases hc : nodeCreate t supply with
    | none => simp [addLevel,hc] at ha
    | some r => rfl
  obtain ⟨⟨v,x,s⟩,hv⟩ := isSome_iff_exists.mp hsome
  obtain ⟨hkeep,⟨rfl,rfl⟩ | ⟨b,rfl,hb,rfl⟩⟩ := nodeCreate_some hv
  · obtain ⟨rfl,rfl,rfl⟩ : _ = u ∧ false = ok ∧ s = rest := by simpa [addLevel,hv] using ha
    exact ⟨item,h.failed,hkeep,fun _ => ⟨Nat.lt_succ_self _,rfl⟩,nofun⟩
  · obtain ⟨w,hw,hheight,hext,hfresh⟩ := addLevel_done (i := i) h hb hv
    obtain ⟨rfl,rfl,rfl⟩ : w = u ∧ true = ok ∧ s = rest := by simpa [hw] using ha
    exact ⟨_,hext,fun hf => hfresh _ (hkeep hf),nofun,fun _ => hheight⟩

end

lemma height_le_of_gt (h : (i : Int) > maxIndex t) : t.height ≤ i := by
  by_contra hlt
  have hpos : 0 < t.height := by omega
  refine le_maxIndex.mpr ⟨hpos,?_⟩ h
  rw [above_eq]
  exact Nat.div_eq_of_lt ((Nat.not_le.mp hlt).trans (Nat.lt_pow_self (by decide)))

lemma height_lt_of_gt (h : (i : Int) > maxIndex t) (hi : i < maxIndices) : t.height < 5 := by
  by_contra hle
  refine le_maxIndex.mpr ⟨by omega,?_⟩ h
  rw [above_eq]
  exact Nat.div_eq_of_lt (hi.trans_le ((by decide : maxIndices ≤ width ^ 5).trans
    (Nat.pow_le_pow_right (by decide) (by omega))))

lemma addLevels_total (h : t.Shaped item) (hfresh : Fresh t.heap supply) (hpos : 0 < fuel)
    (hfuel : i + 2 ≤ fuel + t.height) : (addLevels i fuel t supply).isSome := by
  induction fuel generalizing t item supply with
  | zero => omega
  | succ fuel ih =>
    rw [addLevels]
    split
    case isFalse => rfl
    case isTrue hi =>
      obtain ⟨⟨u,ok,rest⟩,hu⟩ := isSome_iff_exists.mp (addLevel_total h hfresh)
      obtain ⟨item',hext,hkeep,-,hheight⟩ := addLevel_extends (i := i) h hu
      simp only [hu,bind_eq_bind,bind_some]
      cases ok with
      | false => rfl
      | true =>
        have hle := height_le_of_gt hi
        have hh := hheight rfl
        exact ih hext.shaped (hkeep hfresh) (by omega) (by omega)

lemma addLevels_extends (h : t.Shaped item) (hi : i < maxIndices) (hfive : t.height ≤ 5)
    (ha : addLevels i fuel t supply = some (u,ok,rest)) :
    ∃ item', Extends i t item u item' ∧ u.height ≤ 5 ∧ (Fresh t.heap supply → Fresh u.heap rest) ∧
      (ok = false → t.failures < u.failures) ∧ (ok = true → ¬(i : Int) > maxIndex u) ∧
      (t.height = 0 → ok = true → item' 1 0 ≠ none) := by
  induction fuel generalizing t item supply with
  | zero => exact nomatch ha
  | succ fuel ih =>
    rw [addLevels] at ha
    split at ha
    case isFalse hgt =>
      obtain ⟨rfl,rfl,rfl⟩ : t = u ∧ true = ok ∧ supply = rest := by simpa using ha
      refine ⟨item,.refl h,hfive,id,nofun,fun _ => hgt,fun hz => ?_⟩
      exact absurd hz (le_maxIndex.mp hgt).1.ne'
    case isTrue hgt =>
      obtain ⟨⟨v,ok',s⟩,hv,ha⟩ := bind_eq_some_iff.mp ha
      obtain ⟨item',hext,hkeep,hfail,hheight⟩ := addLevel_extends (i := i) h hv
      cases ok' with
      | false =>
        obtain ⟨rfl,rfl,rfl⟩ : v = u ∧ false = ok ∧ s = rest := by simpa using ha
        exact ⟨item',hext,(hfail rfl).2 ▸ hfive,hkeep,fun _ => (hfail rfl).1,nofun,nofun⟩
      | true =>
        have hlt := height_lt_of_gt hgt hi
        have hh := hheight rfl
        obtain ⟨item'',hext',hle,hkeep',hfail',hdone,-⟩ := ih hext.shaped (by omega) ha
        refine ⟨item'',hext.trans hext',hle,fun hf => hkeep' (hkeep hf),
          fun hok => hext.failures.trans_lt (hfail' hok),hdone,fun hz _ => hext'.kept 0 0 ?_⟩
        have hroot := hext.shaped.frame.root
        rw [hh,hz] at hroot
        rw [hroot]
        exact mt hext.shaped.frame.empty.mpr (by omega)

lemma insert_total (h : t.Shaped item) (hi : i < maxIndices) (hfive : t.height ≤ 5)
    (hfresh : Fresh t.heap supply) : (insert t i leaf supply).isSome := by
  have hlevels : (addLevels i (i + 2) t supply).isSome := addLevels_total h hfresh (by omega) (by omega)
  obtain ⟨⟨u,ok,rest⟩,hu⟩ := isSome_iff_exists.mp hlevels
  obtain ⟨item',hext,-,hkeep,-,hdone,-⟩ := addLevels_extends h hi hfive hu
  simp only [insert,hu,bind_eq_bind,bind_some]
  cases ok with
  | false => rfl
  | true =>
    obtain ⟨level,r,hl,hr,ha⟩ := hext.shaped.root (hdone rfl)
    obtain ⟨⟨v,x,s⟩,hv⟩ := isSome_iff_exists.mp (descend_total hext.shaped ha (hkeep hfresh))
    obtain ⟨item'',hext',-,-,hfound⟩ := descend_extends hext.shaped ha hv
    simp only [if_true,findParent,hl,hr,Nat.add_sub_cancel,hv,bind_some]
    cases x with
    | none => rfl
    | some b =>
      obtain ⟨n,hn,hf⟩ := hext'.shaped.node (hfound b rfl)
      by_cases hs : n.slots (levelIndex i 0) = none
      · simp [addChild_leaf hn hs (hf.room levelIndex_lt hs)]
      · simp [addChild_taken hn hs]

structure Grown (i : Nat) (t : Tree) (item : Nat → Nat → Option Nat) (u : Tree) (item' : Nat → Nat → Option Nat) : Prop
    extends Nodes i t item u item' where
  present : item' 0 i ≠ none
  first : t.height = 0 → item' 1 0 ≠ none

lemma insert_shaped {status : Status} (h : t.Shaped item) (hi : i < maxIndices) (hfive : t.height ≤ 5)
    (ha : insert t i leaf supply = some (u,status)) :
    ∃ item', u.Shaped item' ∧ u.height ≤ 5 ∧ (status = .nodeExist ↔ item 0 i ≠ none) ∧
      (status = .allocFailed → t.failures < u.failures) ∧
      item' 0 = (if status = .ok then update (item 0) i (some leaf) else item 0) ∧
      (status ≠ .allocFailed → Grown i t item u item') := by
  obtain ⟨⟨v,ok,rest⟩,hv,ha⟩ := bind_eq_some_iff.mp ha
  obtain ⟨item',hext,hheight,-,hfail,hdone,hfirst⟩ := addLevels_extends h hi hfive hv
  cases ok with
  | false =>
    obtain ⟨rfl,rfl⟩ : v = u ∧ Status.allocFailed = status := by simpa using ha
    have hgt : (i : Int) > maxIndex t := by
      by_contra hle
      simp [addLevels,hle] at hv
    refine ⟨item',hext.shaped,hheight,?_,fun _ => hfail rfl,hext.leaves,fun hs => absurd rfl hs⟩
    simp [h.frame.out_of_range hgt]
  | true =>
    obtain ⟨level,r,hl,hr,hroot⟩ := hext.shaped.root (hdone rfl)
    simp only [if_true,findParent,hl,hr,Nat.add_sub_cancel] at ha
    obtain ⟨⟨w,x,s⟩,hw,ha⟩ := bind_eq_some_iff.mp ha
    obtain ⟨item'',hext',hh,hfail',hfound⟩ := descend_extends hext.shaped hroot hw
    have hall := hext.trans hext'
    have hleaves := hall.leaves
    cases x with
    | none =>
      obtain ⟨rfl,rfl⟩ : w = u ∧ Status.allocFailed = status := by simpa using ha
      have hmiss : item' 1 (above i 1) = none := by
        by_contra hc
        obtain ⟨b,hb⟩ := ne_none_iff_exists'.mp hc
        simp [descend_found hext.shaped hroot hb] at hw
      have hnone : item' 0 i = none := hext.shaped.frame.up_none (by omega) hmiss
      rw [hext.leaves] at hnone
      exact ⟨item'',hext'.shaped,by omega,by simp [hnone],fun _ => hext.failures.trans_lt (hfail' rfl),hleaves,
        fun hs => absurd rfl hs⟩
    | some b =>
      obtain ⟨n,hn,hf⟩ := hext'.shaped.node (hfound b rfl)
      have hslot : n.slots (levelIndex i 0) = item 0 i := hf.levelSlot.trans (congrFun hleaves i)
      by_cases hs : n.slots (levelIndex i 0) = none
      · obtain ⟨rfl,rfl⟩ : w.store b (n.filled (levelIndex i 0) leaf) = u ∧ Status.ok = status := by
          simpa [addChild_leaf hn hs (hf.room levelIndex_lt hs)] using ha
        have hshape := hext'.shaped.leaf (v := leaf) (hfound b rfl) hn levelIndex_lt hs
        rw [extend_levelIndex] at hshape
        refine ⟨_,hshape,by change w.height ≤ 5; omega,by simp [← hslot,hs],by simp,?_,fun _ => ?_⟩
        · funext j
          simp [put,above,update_apply,hleaves]
        · refine ⟨⟨fun k p hp => (put_of_ne (by omega)).trans_ne (hall.kept k p hp),fun k p hp => hall.added k p ?_,
            fun ho c hc => ?_⟩,by simp [put,above],fun hz => ?_⟩
          · rwa [put_of_ne (by omega)] at hp
          · obtain ⟨k,p,hp⟩ := hall.owned ho c (by
              simp only [Tree.store,update_apply] at hc
              grind)
            exact ⟨k,p,(put_of_ne (by omega)).trans hp⟩
          · rw [put_of_ne (by omega)]
            exact hext'.kept 0 0 (hfirst hz rfl)
      · obtain ⟨rfl,rfl⟩ : w = u ∧ Status.nodeExist = status := by simpa [addChild_taken hn hs] using ha
        exact ⟨item'',hext'.shaped,by omega,by simp [← hslot,hs],by simp,hleaves,fun _ => ⟨hall.toNodes,
          by rwa [hleaves,← hslot],fun hz => hext'.kept 0 0 (hfirst hz rfl)⟩⟩

lemma prune_shaped {rounds : Nat} (hr : rounds + level = t.height) (hn : t.heap a = some n)
    (hs : n.slots (levelIndex i level) ≠ none) (hc : n.count ≠ 0)
    (ha : item (level + 1) (above i (level + 1)) = some a)
    (h : Shape t.height t.rootNode (update t.heap a (some (n.cleared (levelIndex i level)))) item) :
    ∃ u x left, prune i rounds level t (some a) = some (u,x,left) ∧ u.height = t.height ∧ u.rootNode = t.rootNode ∧
      (left = true → ∃ item', u.Shaped item' ∧ item' 0 = item 0 ∧
        (FullBut item level (above i (level + 1)) → Owned t.heap item → Tidy u.heap item')) ∧
      (left = false → x = none ∧ item 0 = (fun _ => none) ∧ (Owned t.heap item → ∀ c, u.heap c = none)) := by
  have hlt := h.lt_height ha
  have hcleared := h.fits ha (update_self ..)
  induction rounds generalizing t level a n item with
  | zero => omega
  | succ rounds ih =>
    have hguard : ¬((n.slots (levelIndex i level)).isNone ∨ n.count = 0) := by simp [hs,hc]
    simp only [prune,hn,bind_eq_bind,bind_some,if_neg hguard]
    by_cases hz : n.count - 1 = 0
    · rw [if_pos hz]
      by_cases hlast : rounds = 0
      · have hpar : n.parent = none := hcleared.parent.trans (h.frame.over_none (by omega))
        have hall := h.fell (by omega) ha (update_self ..) hz
        rw [hlast,hpar]
        refine ⟨_,none,false,rfl,rfl,rfl,by simp,fun _ => ⟨rfl,funext fun j => hall 0 j (by omega),fun ho c => ?_⟩⟩
        by_contra hc
        obtain ⟨k,p,hp⟩ := ho.drop ha c hc
        have hk := h.frame.below (k + 1) p
        have htop := h.frame.top p
        have htop' := h.frame.top (above i (level + 1))
        have := hall (k + 1) p
        grind [put]
      · have hup := h.frame.up (level + 1) (above i (level + 1)) (by simp [ha]) (by omega)
        obtain ⟨q,hq⟩ := ne_none_iff_exists'.mp hup
        have hpar : n.parent = some q := hcleared.parent.trans hq
        obtain ⟨w,hw,hfw⟩ := h.stored _ _ _ hq
        have hqa : q ≠ a := by
          rintro rfl
          have := (h.frame.apart (level + 1) _ level _ q hq ha).1
          omega
        have hslot : w.slots (levelIndex i (level + 1)) ≠ none := by
          rw [Fits.levelSlot hfw,ha]
          simp
        have hdrop := h.detach ha (update_self ..) hz hq hw
        rw [← levelIndex_eq,update_comm hqa,update_idem] at hdrop
        have hwt := (update_of_ne hqa ..).symm.trans hw
        rw [hpar]
        have hkept : put item (level + 1) (above i (level + 1)) none (level + 2) (above i (level + 2)) = some q :=
          (put_of_ne (by omega)).trans hq
        obtain ⟨u,x,left,hu,hheight,hroot,hleft,hright⟩ := ih
          (t := { t with heap := update t.heap a none }) (by simp only; omega)
          ((update_of_ne hqa ..).trans hwt) hslot (hfw.occupied levelIndex_lt hslot) hkept hdrop
          (hdrop.lt_height hkept) (hdrop.fits hkept (update_self ..))
        have hbase : put item (level + 1) (above i (level + 1)) none 0 = item 0 :=
          funext fun j => put_of_ne (by omega)
        rw [hbase] at hleft hright
        refine ⟨u,x,left,hu,hheight,hroot,fun hl => ?_,fun hl => ?_⟩
        · obtain ⟨item',hshape,hmap,htidy⟩ := hleft hl
          exact ⟨item',hshape,hmap,fun hfull ho => htidy hfull.drop (ho.drop ha)⟩
        · exact ⟨(hright hl).1,(hright hl).2.1,fun ho => (hright hl).2.2 (ho.drop ha)⟩
    · rw [if_neg hz]
      refine ⟨_,some a,true,rfl,rfl,rfl,fun _ => ⟨item,h,rfl,fun hfull ho => ⟨fun k p hp => ?_,fun c hc => ho c ?_⟩⟩,by simp⟩
      · obtain ⟨rfl,rfl⟩ | hq := hfull k p hp
        · exact hcleared.inhabited hz
        · exact hq
      · by_cases hca : c = a
        · simp [hca,hn]
        · exact fun he => hc ((update_of_ne hca ..).trans he)

lemma remove_shaped (h : t.Shaped item) (hi : item 0 i = some leaf) :
    ∃ u item', remove t i = some (u,some leaf) ∧ u.height ≤ t.height ∧ u.Shaped item' ∧
      item' 0 = update (item 0) i none ∧ (Tidy t.heap item → Tidy u.heap item') := by
  have hin : ¬(i : Int) > maxIndex t := fun hgt => by simp [h.frame.out_of_range hgt] at hi
  obtain ⟨level,r,hl,hr,hroot⟩ := h.root hin
  have hb := h.frame.climb (k := 0) (l := 1) (i := i) (by simp [above,hi]) (by omega) (by omega)
  obtain ⟨b,hb⟩ := ne_none_iff_exists'.mp hb
  obtain ⟨n,hn,hf⟩ := h.node hb
  have hslot : n.slots (levelIndex i 0) = some leaf := hf.levelSlot.trans hi
  have hs : n.slots (levelIndex i 0) ≠ none := by simp [hslot]
  have hclear := h.clear hb hn levelIndex_lt hs
  rw [extend_levelIndex] at hclear
  have hkept : put item 0 (above i 0) none 1 (above i 1) = some b := (put_of_ne (by omega)).trans hb
  obtain ⟨u,x,left,hu,hheight,-,hleft,hright⟩ := prune_shaped (Nat.add_zero t.height) hn hs
    (hf.occupied levelIndex_lt hs) hkept hclear
  have hbase : put item 0 (above i 0) none 0 = update (item 0) i none := by
    funext j
    simp [put,above,update_apply]
  rw [hbase] at hleft hright
  have hremove : remove t i = if left then some (u,some leaf) else if x.isSome then none
      else some ({ u with rootNode := none, height := 0 },some leaf) := by
    simp only [remove,findParent,hl,hr,Nat.add_sub_cancel,descend_found h hroot hb,hn,hslot,bind_eq_bind,
      bind_some]
    rw [← hl,hu]
    rfl
  cases left with
  | true =>
    obtain ⟨item',hshape,hmap,htidy⟩ := hleft rfl
    refine ⟨u,item',hremove,hheight.le,hshape,hmap,fun h' => htidy (fun l q hq => ?_) fun c hc => ?_⟩
    · rw [put_of_ne (by omega)] at hq
      have := h'.full l q hq
      grind [put,above]
    · obtain ⟨k,p,hp⟩ := h'.owned c hc
      exact ⟨k,p,(put_of_ne (by omega)).trans hp⟩
  | false =>
    obtain ⟨rfl,hmap,hbare⟩ := hright rfl
    refine ⟨_,fun _ _ => none,hremove,Nat.zero_le _,?_,hmap.symm,fun h' => ⟨by simp,fun c hc => absurd (hbare ?_ c) hc⟩⟩
    · exact bare_shaped rfl rfl
    · intro d hd
      obtain ⟨k,p,hp⟩ := h'.owned d hd
      exact ⟨k,p,(put_of_ne (by omega)).trans hp⟩

end

structure Inv (r : Run) : Prop where
  shape : ∃ item, r.tree.Shaped item ∧ item 0 = r.map
  height : r.tree.height ≤ 5

structure Laws (r : Run) : Prop where
  lookups : ∀ i < maxIndices, lookup r.tree i = some (r.map i)
  inserts : ∀ i < maxIndices, ∀ leaf supply, Fresh r.tree.heap supply →
    ∃ t status, insert r.tree i leaf supply = some (t,status) ∧ (status = .nodeExist ↔ r.map i ≠ none) ∧
      (status = .allocFailed → r.tree.failures < t.failures) ∧
      ∀ j < maxIndices, lookup t j = if status = .ok ∧ j = i then some (some leaf) else lookup r.tree j
  removes : ∀ i leaf, r.map i = some leaf →
    ∃ t, remove r.tree i = some (t,some leaf) ∧
      ∀ j < maxIndices, lookup t j = if j = i then some none else lookup r.tree j
  height : r.tree.height ≤ 5

section
variable {r s : Run} {op : Op} {ops : List Op}

lemma Inv.step (h : Inv r) (hs : step r op = some s) : Inv s := by
  obtain ⟨⟨item,hshape,hmap⟩,hheight⟩ := h
  cases op with
  | insert index leaf supply =>
    simp only [RadixTree.step] at hs
    split at hs
    case isFalse => exact nomatch hs
    case isTrue hi =>
      obtain ⟨⟨t,status⟩,ht,hs⟩ := bind_eq_some_iff.mp hs
      cases hs
      obtain ⟨item',hshape',hle,-,-,hmap',-⟩ := insert_shaped hshape hi hheight ht
      exact ⟨⟨item',hshape',by rw [hmap',hmap]⟩,hle⟩
  | lookup index =>
    simp only [RadixTree.step] at hs
    split at hs
    case isFalse => exact nomatch hs
    case isTrue =>
      obtain ⟨-,-,rfl⟩ := Option.map_eq_some_iff.mp hs
      exact ⟨⟨item,hshape,hmap⟩,hheight⟩
  | remove index =>
    simp only [RadixTree.step] at hs
    split at hs
    case isFalse => exact nomatch hs
    case isTrue hi =>
      obtain ⟨leaf,hleaf⟩ := isSome_iff_exists.mp hi
      obtain ⟨u,item',hu,hle,hshape',hmap',-⟩ := remove_shaped hshape (by rw [hmap,hleaf])
      rw [hu] at hs
      cases hs
      exact ⟨⟨item',hshape',by rw [hmap',hmap]⟩,hle.trans hheight⟩

lemma Inv.run (h : run ops = some r) : Inv r := by
  exact Run.invariant (fun _ _ _ hi hs => Inv.step hi hs) ⟨⟨_,bare_shaped rfl rfl,rfl⟩,by decide⟩ h

lemma Inv.laws (h : Inv r) : Laws r := by
  obtain ⟨⟨item,hshape,hmap⟩,hheight⟩ := h
  refine ⟨fun i _ => by rw [lookup_eq hshape,hmap],?_,?_,hheight⟩
  · intro i hi leaf supply hfresh
    have htotal : (insert r.tree i leaf supply).isSome := insert_total hshape hi hheight hfresh
    obtain ⟨⟨t,status⟩,ht⟩ := isSome_iff_exists.mp htotal
    obtain ⟨item',hshape',-,hexist,hfail,hmap',-⟩ := insert_shaped hshape hi hheight ht
    refine ⟨t,status,ht,hmap ▸ hexist,hfail,fun j _ => ?_⟩
    rw [lookup_eq hshape',lookup_eq hshape,hmap']
    by_cases hok : status = .ok <;> by_cases hj : j = i <;> simp [hok,hj]
  · intro i leaf hleaf
    obtain ⟨u,item',hu,-,hshape',hmap',-⟩ := remove_shaped hshape (by rw [hmap,hleaf])
    refine ⟨u,hu,fun j _ => ?_⟩
    rw [lookup_eq hshape',lookup_eq hshape,hmap',update_apply]
    split <;> rfl

theorem radix_tree_is_a_map (h : run ops = some r) : Laws r := (Inv.run h).laws

end

theorem radix_tree_is_a_map_pruned :
    ∃ r, run [.insert 5 70 [some 1],.insert 4096 71 [some 2,some 3,none],.insert 4096 71 [some 4,some 5],.lookup 5,
      .remove 5,.remove 4096,.insert 4096 72 []] = some r ∧ Laws r := by
  have hsome : (run [.insert 5 70 [some 1],.insert 4096 71 [some 2,some 3,none],.insert 4096 71 [some 4,some 5],
    .lookup 5,.remove 5,.remove 4096,.insert 4096 72 []]).isSome := by decide +kernel
  obtain ⟨r,hr⟩ := isSome_iff_exists.mp hsome
  exact ⟨r,hr,radix_tree_is_a_map hr⟩

end MappedMemory.RadixTree
