import MappedMemory.RadixTree.Tree

namespace MappedMemory.RadixTree

open Function (update update_of_ne update_self)

def slotCount (slots : Nat → Option Nat) : Nat := ((Finset.range width).filter fun d => slots d ≠ none).card

section
variable {slots : Nat → Option Nat} {d b : Nat}

lemma slotCount_none : slotCount (fun _ => none) = 0 := by simp [slotCount]

lemma slotCount_le : slotCount slots ≤ width := by
  have hle := Finset.card_filter_le (Finset.range width) fun d => slots d ≠ none
  rwa [Finset.card_range] at hle

lemma slotCount_set (hd : d < width) (hs : slots d = none) :
    slotCount (update slots d (some b)) = slotCount slots + 1 := by
  have hins : (Finset.range width).filter (fun e => update slots d (some b) e ≠ none) =
      Insert.insert d ((Finset.range width).filter fun e => slots e ≠ none) := by
    ext e
    by_cases he : e = d <;> simp [he,hd]
  rw [slotCount,hins,Finset.card_insert_of_notMem (by simp [hs]),slotCount]

lemma slotCount_clear (hd : d < width) (hs : slots d = some b) :
    slotCount (update slots d none) + 1 = slotCount slots := by
  have hset := slotCount_set (b := b) hd (update_self d none slots)
  rwa [Function.update_idem,← hs,Function.update_eq_self,eq_comm] at hset

lemma slotCount_eq_zero : slotCount slots = 0 ↔ ∀ d < width, slots d = none := by
  simp [slotCount,Finset.filter_eq_empty_iff]

end

def front (p : Nat) : Nat := p / width

def digit (p : Nat) : Nat := p % width

def extend (p d : Nat) : Nat := p * width + d

section
variable {p d : Nat}

@[grind =] lemma front_extend (hd : d < width) : front (extend p d) = p := by
  have hw : width = 64 := by decide
  simp only [front,extend,hw] at *
  omega

@[grind =] lemma digit_extend (hd : d < width) : digit (extend p d) = d := by
  have hw : width = 64 := by decide
  simp only [digit,extend,hw] at *
  omega

@[grind =] lemma extend_front : extend (front p) (digit p) = p := by
  have hw : width = 64 := by decide
  simp only [front,digit,extend,hw]
  omega

@[grind .] lemma digit_lt : digit p < width := Nat.mod_lt _ (by decide)

end

structure Frame (height : Nat) (rootNode : Option Nat) (item : Nat → Nat → Option Nat) : Prop where
  empty : height = 0 ↔ rootNode = none
  root : item height 0 = rootNode
  top : ∀ p, item height p ≠ none → p = 0
  below : ∀ k p, item k p ≠ none → k ≤ height
  up : ∀ k p, item k p ≠ none → k < height → item (k + 1) (front p) ≠ none
  apart : ∀ k p l q a, item (k + 1) p = some a → item (l + 1) q = some a → k = l ∧ p = q

structure Fits (item : Nat → Nat → Option Nat) (k p : Nat) (n : Node) : Prop where
  parent : n.parent = item (k + 2) (front p)
  slots : ∀ d < width, n.slots d = item k (extend p d)
  count : n.count = slotCount n.slots

def Stored (heap : Nat → Option Node) (item : Nat → Nat → Option Nat) : Prop :=
  ∀ k p a, item (k + 1) p = some a → ∃ n, heap a = some n ∧ Fits item k p n

structure Shape (height : Nat) (rootNode : Option Nat) (heap : Nat → Option Node) (item : Nat → Nat → Option Nat) :
    Prop where
  frame : Frame height rootNode item
  stored : Stored heap item

def put (item : Nat → Nat → Option Nat) (k p : Nat) (x : Option Nat) (l q : Nat) : Option Nat :=
  if l = k ∧ q = p then x else item l q

section
variable {height : Nat} {rootNode : Option Nat} {item : Nat → Nat → Option Nat} {heap : Nat → Option Node}
  {k l p q d a b : Nat} {x : Option Nat} {n : Node} {y : Option Node}

lemma put_self : put item k p x k p = x := if_pos ⟨rfl,rfl⟩

lemma put_of_ne (h : ¬(l = k ∧ q = p)) : put item k p x l q = item l q := if_neg h

namespace Frame

section
variable (h : Frame height rootNode item)
include h

lemma add (hk : k < height) (hp : item (k + 1) (front p) ≠ none)
    (hb : 0 < k → ∀ l q, item (l + 1) q ≠ some b) : Frame height rootNode (put item k p (some b)) where
  empty := h.empty
  root := (put_of_ne fun he => hk.ne' he.1).trans h.root
  top q hq := h.top q (by rwa [put_of_ne fun he => hk.ne' he.1] at hq)
  below l q hl := by
    by_cases he : l = k ∧ q = p
    · exact he.1 ▸ hk.le
    · exact h.below l q (by rwa [put_of_ne he] at hl)
  up l q hl hlt := by
    by_cases hn : l + 1 = k ∧ front q = p
    · simp [put,hn]
    · rw [put_of_ne hn]
      by_cases he : l = k ∧ q = p
      · rwa [he.1,he.2]
      · exact h.up l q (by rwa [put_of_ne he] at hl) hlt
  apart l q m r a hl hm := by
    have := h.apart l q m r a
    grind [put]

lemma drop (hk : k < height) (hl : ∀ l q, l + 1 = k → front q = p → item l q = none) :
    Frame height rootNode (put item k p none) where
  empty := h.empty
  root := (put_of_ne fun he => hk.ne' he.1).trans h.root
  top q hq := h.top q (by rwa [put_of_ne fun he => hk.ne' he.1] at hq)
  below l q hq := h.below l q (by grind [put])
  up l q hq hlt := by
    have := h.up l q
    grind [put]
  apart l q m r a hl hm := h.apart l q m r a (by grind [put]) (by grind [put])

lemma up_none (hk : k < height) (hn : item (k + 1) (front p) = none) : item k p = none := by
  by_contra hc
  exact h.up k p hc hk hn

lemma hollow (hk : k ≤ height) (hn : ∀ p, item k p = none) (hl : l ≤ k) (p : Nat) : item l p = none := by
  induction k generalizing p with
  | zero => rw [Nat.le_zero.mp hl,hn]
  | succ k ih =>
    rcases hl.eq_or_lt with rfl | hlt
    · exact hn p
    · exact ih (by omega) (fun r => h.up_none hk (hn _)) (by omega) p

lemma over_none (hk : height < k) : item k p = none := by
  by_contra hc
  exact absurd (h.below k p hc) (by omega)

lemma grow (hb : ∀ k p, item (k + 1) p ≠ some b) :
    Frame (height + 1) (some b) (put item (height + 1) 0 (some b)) where
  empty := by simp
  root := put_self
  top p hp := by
    by_contra hne
    rw [put_of_ne (by omega),h.over_none (by omega)] at hp
    exact hp rfl
  below k p hp := by
    by_contra hlt
    rw [put_of_ne (by omega),h.over_none (by omega)] at hp
    exact hp rfl
  up k p hp hk := by
    rw [put_of_ne (by omega)] at hp
    rcases Nat.lt_succ_iff_lt_or_eq.mp hk with hlt | rfl
    · rw [put_of_ne (by omega)]
      exact h.up k p hp hlt
    · rw [h.top p hp]
      simp [put,front]
  apart k p l q c hk hl := by
    have := h.apart k p l q c
    grind [put]

end

end Frame

def Node.filled (n : Node) (d b : Nat) : Node :=
  { n with slots := update n.slots d (some b), count := n.count + 1 }

def Node.cleared (n : Node) (d : Nat) : Node :=
  { n with slots := update n.slots d none, count := n.count - 1 }

lemma Frame.root_fits {r : Nat} (h : Frame height (some r) item) :
    Fits (put item (height + 1) 0 (some b)) height 0 (Node.filled ⟨0,none,fun _ => none⟩ 0 r) where
  parent := by
    rw [put_of_ne (by omega),h.over_none (by omega)]
    rfl
  slots d hd := by
    rw [put_of_ne (by omega)]
    by_cases hz : d = 0
    · rw [hz]
      exact h.root.symm
    · have hnone : item height (extend 0 d) = none := by
        by_contra hne
        have hdigit := digit_extend (p := 0) hd
        rw [h.top _ hne] at hdigit
        exact hz hdigit.symm
      rw [hnone]
      exact update_of_ne hz ..
  count := (congrArg (· + 1) slotCount_none.symm).trans (slotCount_set (by decide) rfl).symm

namespace Fits

section
variable (h : Fits item l q n)
include h

lemma put_other (hc : ¬(l + 2 = k ∧ front q = p)) (hp : ¬(l = k ∧ q = front p)) : Fits (put item k p x) l q n where
  parent := by rw [put_of_ne hc,h.parent]
  slots d hd := by
    have hne : ¬(l = k ∧ extend q d = p) := fun he => hp ⟨he.1,by rw [← he.2,front_extend hd]⟩
    rw [put_of_ne hne,h.slots d hd]
  count := h.count

section
variable (hd : d < width)
include hd

lemma slots_put : n.parent = put item l (extend q d) x (l + 2) (front q) ∧
      ∀ e < width, update n.slots d x e = put item l (extend q d) x l (extend q e) := by
  constructor
  · rw [put_of_ne fun he => by omega,h.parent]
  · intro e he
    by_cases hed : e = d
    · rw [hed,update_self,put_self]
    · have hne : extend q e ≠ extend q d := fun h' => hed (by rw [← digit_extend he,h',digit_extend hd])
      rw [update_of_ne hed,put_of_ne fun h' => hne h'.2,h.slots e he]

lemma set (hs : n.slots d = none) : Fits (put item l (extend q d) (some b)) l q (n.filled d b) where
  parent := (h.slots_put hd).1
  slots := (h.slots_put hd).2
  count := by rw [Node.filled,slotCount_set hd hs,h.count]

lemma clear (hs : n.slots d ≠ none) : Fits (put item l (extend q d) none) l q (n.cleared d) where
  parent := (h.slots_put hd).1
  slots := (h.slots_put hd).2
  count := by
    obtain ⟨b,hb⟩ := Option.ne_none_iff_exists'.mp hs
    have := slotCount_clear hd hb
    have := h.count
    simp only [Node.cleared]
    omega

lemma room (hs : n.slots d = none) : n.count < width := by
  rw [h.count,← Nat.succ_le_iff,Nat.succ_eq_add_one,← slotCount_set (b := 0) hd hs]
  exact slotCount_le

lemma occupied (hs : n.slots d ≠ none) : n.count ≠ 0 := by
  rw [h.count]
  exact fun hz => hs (slotCount_eq_zero.mp hz d hd)

end

lemma vacant (hz : n.count = 0) (r : Nat) (hr : front r = q) : item l r = none := by
  have hs := h.slots (digit r) digit_lt
  rw [← hr,extend_front] at hs
  rw [← hs]
  exact slotCount_eq_zero.mp (h.count ▸ hz) _ digit_lt

end

end Fits

namespace Stored

lemma other (h : Stored heap item) (hb : ∀ l r, item (l + 1) r ≠ some b) : Stored (update heap b y) item := by
  intro k p c hc
  obtain ⟨n,hn,hf⟩ := h k p c hc
  have hne : c ≠ b := fun he => hb k p (he ▸ hc)
  exact ⟨n,by rw [update_of_ne hne,hn],hf⟩

lemma modify (h : Stored heap item) (hfr : Frame height rootNode item) (ha : item (l + 1) q = some a)
    (hv : ∀ k p, k + 2 = l → front p = extend q d → item (k + 1) p = none) (hd : d < width)
    (hn : Fits (put item l (extend q d) x) l q n) (hx : ∀ k b, l = k + 1 → x = some b →
      b ≠ a ∧ ∃ w, heap b = some w ∧ Fits (put item l (extend q d) x) k (extend q d) w) :
    Stored (update heap a (some n)) (put item l (extend q d) x) := by
  intro k p c hc
  by_cases hnew : k + 1 = l ∧ p = extend q d
  · rw [hnew.1,hnew.2,put_self] at hc
    obtain ⟨hne,w,hw,hf⟩ := hx k c hnew.1.symm hc
    exact ⟨w,by rw [update_of_ne hne,hw],hnew.2 ▸ hf⟩
  · rw [put_of_ne hnew] at hc
    by_cases hold : k = l ∧ p = q
    · obtain ⟨rfl,rfl⟩ := hold
      cases hc.symm.trans ha
      exact ⟨n,update_self ..,hn⟩
    · obtain ⟨w,hw,hf⟩ := h k p c hc
      have hne : c ≠ a := by
        rintro rfl
        exact hold (hfr.apart k p l q c hc ha)
      refine ⟨w,by rw [update_of_ne hne,hw],hf.put_other ?_ ?_⟩
      · intro he
        simp [hv k p he.1 he.2] at hc
      · rwa [front_extend hd]

end Stored

end

namespace Shape

variable {height : Nat} {rootNode : Option Nat} {heap : Nat → Option Node} {item : Nat → Nat → Option Nat}
  {a b k p d v : Nat} {n : Node}

section
variable (h : Shape height rootNode heap item)
include h

lemma fits (ha : item (k + 1) p = some a) (hn : heap a = some n) : Fits item k p n := by
  obtain ⟨m,hm,hf⟩ := h.stored k p a ha
  rwa [← Option.some.inj (hm.symm.trans hn)]

lemma fresh (hb : heap b = none) (k p : Nat) : item (k + 1) p ≠ some b := by
  intro hc
  obtain ⟨n,hn,-⟩ := h.stored k p b hc
  simp [hb] at hn

section
variable (ha : item (k + 1) p = some a)
include ha

lemma lt_height : k < height :=
  h.frame.below (k + 1) p (by simp [ha])

lemma slot_none (hn : heap a = some n) (hd : d < width) (hs : n.slots d = none) : item k (extend p d) = none := by
  rw [← (h.fits ha hn).slots d hd,hs]

lemma under_none (hn : heap a = some n)
    (hd : d < width) (hs : n.slots d = none) (l q : Nat) (hl : l + 1 = k) (hq : front q = extend p d) :
    item l q = none := by
  have hlt := h.lt_height ha
  exact h.frame.up_none (by omega) (by rw [hl,hq,h.slot_none ha hn hd hs])

end

lemma leaf (ha : item 1 p = some a) (hn : heap a = some n) (hd : d < width) (hs : n.slots d = none) :
    Shape height rootNode (update heap a (some (n.filled d v))) (put item 0 (extend p d) (some v)) where
  frame := h.frame.add (h.lt_height ha) (by simp [front_extend hd,ha]) (by simp)
  stored := h.stored.modify h.frame ha (by simp) hd ((h.fits ha hn).set hd hs) (by simp)

lemma attach (ha : item (k + 2) p = some a) (hn : heap a = some n)
    (hd : d < width) (hs : n.slots d = none) (hb : heap b = none) : Shape height rootNode
      (update (update heap b (some ⟨0,some a,fun _ => none⟩)) a (some (n.filled d b)))
      (put item (k + 1) (extend p d) (some b)) where
  frame := h.frame.add (h.lt_height ha) (by simp [front_extend hd,ha]) fun _ => h.fresh hb
  stored := by
    have hne : b ≠ a := by
      rintro rfl
      simp [hb] at hn
    refine (h.stored.other (h.fresh hb)).modify h.frame ha ?_ hd ((h.fits ha hn).set hd hs) ?_
    · intro l q hl hq
      exact h.under_none ha hn hd hs (l + 1) q (by omega) hq
    · intro l c hl hc
      obtain rfl : k = l := by omega
      cases hc
      refine ⟨hne,_,update_self ..,?_,?_,?_⟩
      · rw [put_of_ne (by omega),front_extend hd,ha]
      · intro e he
        rw [put_of_ne (by omega)]
        exact (h.under_none ha hn hd hs k _ rfl (front_extend he)).symm
      · exact slotCount_none.symm

end

lemma first (h : Shape 0 none heap item) :
    Shape 1 (some b) (update heap b (some ⟨0,none,fun _ => none⟩)) (put item 1 0 (some b)) := by
  have hnone : ∀ k p, item k p = none := by
    intro k p
    by_contra hc
    have hk := Nat.le_zero.mp (h.frame.below k p hc)
    subst hk
    have hp := h.frame.top p hc
    rw [hp,h.frame.root] at hc
    exact hc rfl
  have hitem : item = fun _ _ => none := funext fun k => funext fun p => hnone k p
  subst hitem
  refine ⟨⟨by simp,put_self,?_,?_,?_,?_⟩,?_⟩
  · grind [put]
  · grind [put]
  · grind [put]
  · grind [put]
  · intro k p c hc
    have hk : k + 1 = 1 ∧ p = 0 := by
      by_contra hne
      simp [put_of_ne hne] at hc
    obtain ⟨rfl,rfl⟩ : k = 0 ∧ p = 0 := by omega
    cases put_self.symm.trans hc
    exact ⟨_,update_self ..,by simp [put],by simp [put],slotCount_none.symm⟩

lemma grow {r : Nat} (h : Shape height (some r) heap item) (hr : heap r = some n) (hb : heap b = none) :
    Shape (height + 1) (some b)
      (update (update heap b (some (Node.filled ⟨0,none,fun _ => none⟩ 0 r))) r
        (some { n with parent := some b })) (put item (height + 1) 0 (some b)) := by
  have hrb : b ≠ r := by
    rintro rfl
    simp [hb] at hr
  refine ⟨h.frame.grow (h.fresh hb),fun k p c hc => ?_⟩
  by_cases hnew : k + 1 = height + 1 ∧ p = 0
  · obtain ⟨rfl,rfl⟩ : k = height ∧ p = 0 := by omega
    cases put_self.symm.trans hc
    exact ⟨_,by rw [update_of_ne hrb,update_self],h.frame.root_fits⟩
  · rw [put_of_ne hnew] at hc
    obtain ⟨w,hw,hf⟩ := h.stored k p c hc
    have hk := h.lt_height hc
    by_cases hroot : c = r
    · subst hroot
      cases hr.symm.trans hw
      obtain ⟨j,rfl⟩ : ∃ j, height = j + 1 := ⟨height - 1,by omega⟩
      obtain ⟨rfl,rfl⟩ := h.frame.apart k p j 0 c hc h.frame.root
      refine ⟨_,update_self ..,put_self.symm,fun d hd => ?_,hf.count⟩
      rw [put_of_ne (by omega)]
      exact hf.slots d hd
    · have hcb : c ≠ b := by
        rintro rfl
        exact h.fresh hb k p hc
      refine ⟨w,by rw [update_of_ne hroot,update_of_ne hcb,hw],hf.put_other ?_ (by omega)⟩
      intro he
      obtain rfl : height = k + 1 := by omega
      rw [h.frame.top p (by simp [hc]),h.frame.root] at hc
      exact hroot (Option.some.inj hc).symm

section
variable (h : Shape height rootNode heap item)
include h

lemma clear (ha : item 1 p = some a) (hn : heap a = some n) (hd : d < width) (hs : n.slots d ≠ none) :
    Shape height rootNode (update heap a (some (n.cleared d))) (put item 0 (extend p d) none) where
  frame := h.frame.drop (h.lt_height ha) (by omega)
  stored := h.stored.modify h.frame ha (by simp) hd ((h.fits ha hn).clear hd hs) (by simp)

lemma detach (ha : item (k + 1) p = some a) (hn : heap a = some n)
    (hz : n.count = 0) {q : Nat} {w : Node} (hq : item (k + 2) (front p) = some q) (hw : heap q = some w) :
    Shape height rootNode (update (update heap q (some (w.cleared (digit p)))) a none)
      (put item (k + 1) p none) where
  frame := h.frame.drop (h.lt_height hq) fun l r hl hr => by
    obtain rfl : l = k := by omega
    exact (h.fits ha hn).vacant hz r hr
  stored := by
    have hslot : w.slots (digit p) ≠ none := by
      rw [(h.fits hq hw).slots _ digit_lt,extend_front,ha]
      simp
    have hclear := (h.fits hq hw).clear digit_lt hslot
    have hmod := h.stored.modify h.frame hq
      (fun l r hl hr => by
        obtain rfl : l + 1 = k := by omega
        exact (h.fits ha hn).vacant hz r (by rw [hr,extend_front])) digit_lt hclear (by simp)
    rw [extend_front] at hmod
    refine hmod.other fun l r hc => ?_
    by_cases he : l + 1 = k + 1 ∧ r = p
    · simp [he.1,he.2,put_self] at hc
    · rw [put_of_ne he] at hc
      have := h.frame.apart l r k p a hc ha
      exact he ⟨by omega,this.2⟩

lemma fell (hk : k + 1 = height) (ha : item (k + 1) p = some a)
    (hn : heap a = some n) (hz : n.count = 0) : ∀ l q, l ≤ k → item l q = none := by
  obtain rfl : p = 0 := h.frame.top p (by simp [← hk,ha])
  intro l q hl
  refine h.frame.hollow (by omega) (fun r => ?_) hl q
  by_contra hc
  have hup := h.frame.up k r hc (by omega)
  exact hc ((h.fits ha hn).vacant hz r (h.frame.top _ (hk ▸ hup)))

end

end Shape

end MappedMemory.RadixTree
