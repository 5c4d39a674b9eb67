import Mathlib.Tactic

structure RingBuffer (α : Type) where
  buf : Nat → α
  rd : Nat
  wr : Nat

namespace RingBuffer

variable {α : Type} {cap m : Nat} {r : RingBuffer α} {l : List α} {a : α}

def used (m : Nat) (r : RingBuffer α) : Nat := (m + r.wr - r.rd) % m

def front (cap : Nat) (r : RingBuffer α) : α := r.buf (r.rd % cap)

def advance (m : Nat) (r : RingBuffer α) : RingBuffer α := { r with rd := (r.rd + 1) % m }

def push (cap m : Nat) (r : RingBuffer α) (a : α) : RingBuffer α :=
  { r with buf := Function.update r.buf (r.wr % cap) a, wr := (r.wr + 1) % m }

def content (cap m : Nat) (r : RingBuffer α) : List α := (List.range (r.used m)).map fun i => r.buf ((r.rd + i) % cap)

structure Holds (cap m : Nat) (r : RingBuffer α) (l : List α) : Prop where
  rd : r.rd < m
  fits : l.length ≤ cap
  wr : r.wr = (r.rd + l.length) % m
  cells : ∀ i a, l[i]? = some a → r.buf ((r.rd + i) % cap) = a

lemma Holds.empty (hm : 0 < m) (buf : Nat → α) : Holds cap m ⟨buf,0,0⟩ [] :=
  ⟨hm,Nat.zero_le _,by simp,by simp⟩

lemma Holds.used_eq (h : Holds cap m r l) (hcap : cap < m) : r.used m = l.length := by
  have hrd := h.rd
  have hlen := h.fits.trans_lt hcap
  rw [used,h.wr]
  rcases Nat.lt_or_ge (r.rd + l.length) m with hlt | hge
  · rw [Nat.mod_eq_of_lt hlt,show m + (r.rd + l.length) - r.rd = l.length + m by omega,Nat.add_mod_right,
      Nat.mod_eq_of_lt hlen]
  · have hwrap : (r.rd + l.length) % m = r.rd + l.length - m := by
      rw [Nat.mod_eq_sub_mod hge,Nat.mod_eq_of_lt (by omega)]
    rw [hwrap,show m + (r.rd + l.length - m) - r.rd = l.length by omega,Nat.mod_eq_of_lt hlen]

lemma Holds.content_eq (h : Holds cap m r l) (hcap : cap < m) : r.content cap m = l := by
  rw [content,h.used_eq hcap]
  refine List.ext_getElem (by simp) fun i hi hi' => ?_
  simpa using h.cells i _ (List.getElem?_eq_getElem hi')

lemma mod_shift (hdvd : cap ∣ m) (x i : Nat) : (x % m + i) % cap = (x + i) % cap := by
  rw [Nat.add_mod,Nat.mod_mod_of_dvd _ hdvd,← Nat.add_mod]

lemma Holds.front_eq (h : Holds cap m r (a :: l)) : r.front cap = a := h.cells 0 a rfl

lemma Holds.advance (h : Holds cap m r (a :: l)) (hdvd : cap ∣ m) : Holds cap m (r.advance m) l := by
  have hm : 0 < m := Nat.zero_lt_of_lt h.rd
  refine ⟨Nat.mod_lt _ hm,(Nat.le_succ _).trans h.fits,?_,fun i b hb => ?_⟩
  · have hwr := h.wr
    rw [List.length_cons] at hwr
    simp only [RingBuffer.advance,Nat.mod_add_mod]
    rw [hwr]
    congr 1
    omega
  · have hcell := h.cells (i+1) b (by simpa using hb)
    simp only [RingBuffer.advance]
    rwa [mod_shift hdvd,Nat.add_assoc,Nat.add_comm 1 i]

lemma Holds.push (h : Holds cap m r l) (hdvd : cap ∣ m) (hroom : l.length < cap) (a : α) :
    Holds cap m (r.push cap m a) (l ++ [a]) := by
  have hslot : r.wr % cap = (r.rd + l.length) % cap := by
    rw [h.wr,Nat.mod_mod_of_dvd _ hdvd]
  refine ⟨h.rd,by simpa using hroom,?_,fun i b hb => ?_⟩
  · simp only [RingBuffer.push,h.wr,Nat.mod_add_mod,List.length_append,List.length_singleton,Nat.add_assoc]
  · simp only [RingBuffer.push,hslot]
    rcases Nat.lt_trichotomy i l.length with hi | rfl | hi
    · have hne : (r.rd + i) % cap ≠ (r.rd + l.length) % cap := fun he => by
        have hmod : i % cap = l.length % cap := Nat.ModEq.add_left_cancel' r.rd he
        rw [Nat.mod_eq_of_lt (by omega),Nat.mod_eq_of_lt hroom] at hmod
        omega
      rw [Function.update_of_ne hne]
      exact h.cells i b (by rwa [List.getElem?_append_left hi] at hb)
    · rw [Function.update_self]
      simpa using hb
    · simp [List.getElem?_eq_none (show (l ++ [a]).length ≤ i by simp; omega)] at hb

end RingBuffer
