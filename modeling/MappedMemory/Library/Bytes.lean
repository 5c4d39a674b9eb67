import Mathlib.Tactic

namespace Bytes

abbrev Byte := BitVec 8

abbrev Memory := Nat → Byte

def fill (m : Memory) (a n : Nat) (f : Nat → Byte) : Memory :=
  fun x => if a ≤ x ∧ x < a + n then f (x - a) else m x

def poke (m : Memory) (a : Nat) (b : Byte) : Memory := fun x => if x = a then b else m x

def word (m : Memory) : Nat → Nat → Nat
  | _, 0 => 0
  | a, n + 1 => (m a).toNat + 256 * word m (a + 1) n

def byteOf (v k : Nat) : Byte := BitVec.ofNat 8 (v / 256^k)

def putWord (m : Memory) (a n v : Nat) : Memory := fill m a n (byteOf v)

def bit (m : Memory) (a i : Nat) : Bool := (m (a + i / 8)).getLsbD (i % 8)

def setBit (m : Memory) (a i : Nat) : Memory :=
  poke m (a + i / 8) (m (a + i / 8) ||| 1#8 <<< (i % 8))

def clearBit (m : Memory) (a i : Nat) : Memory :=
  poke m (a + i / 8) (m (a + i / 8) &&& ~~~(1#8 <<< (i % 8)))

variable {m m' : Memory} {a b n l v i j x : Nat} {f : Nat → Byte} {c : Byte}

lemma fill_inside (h1 : a ≤ x) (h2 : x < a + n) : fill m a n f x = f (x - a) := if_pos ⟨h1,h2⟩

lemma fill_outside (h : x < a ∨ a + n ≤ x) : fill m a n f x = m x := if_neg (by omega)

lemma fill_part (h : b + l ≤ n) : fill m a n (fill (fun k => m (a + k)) b l f) = fill m (a + b) l f := by
  funext x
  by_cases hx : a + b ≤ x ∧ x < a + b + l
  · rw [fill_inside (by omega) (by omega),fill_inside (by omega) (by omega),fill_inside hx.1 hx.2]
    congr 1
    omega
  · rw [fill_outside (a := a + b) (by omega)]
    by_cases hx' : a ≤ x ∧ x < a + n
    · rw [fill_inside hx'.1 hx'.2,fill_outside (by omega),show a + (x - a) = x by omega]
    · exact fill_outside (by omega)

@[simp] lemma poke_same : poke m a c a = c := if_pos rfl

lemma poke_other (h : x ≠ a) : poke m a c x = m x := if_neg h

lemma fill_poke (h : i < n) : fill m a n (poke (fun k => m (a + k)) i c) = poke m (a + i) c := by
  funext x
  by_cases hx : x = a + i
  · subst hx
    rw [poke_same,fill_inside (by omega) (by omega),Nat.add_sub_cancel_left,poke_same]
  · rw [poke_other hx]
    by_cases hin : a ≤ x ∧ x < a + n
    · rw [fill_inside hin.1 hin.2,poke_other (by omega),show a + (x - a) = x by omega]
    · exact fill_outside (by omega)

lemma fill_succ : fill (poke m a (f 0)) (a + 1) n (fun k => f (k + 1)) = fill m a (n + 1) f := by
  funext x
  by_cases hx : x = a
  · subst hx
    rw [fill_outside (.inl (Nat.lt_succ_self x)),poke_same,fill_inside (le_refl x) (by omega),Nat.sub_self]
  · by_cases hin : a + 1 ≤ x ∧ x < a + 1 + n
    · rw [fill_inside hin.1 hin.2,fill_inside (by omega) (by omega),show x - (a + 1) + 1 = x - a by omega]
    · rw [fill_outside (by omega),poke_other hx,fill_outside (by omega)]

lemma fill_append : fill (fill m a n f) (a + n) l (fun k => f (n + k)) = fill m a (n + l) f := by
  funext x
  by_cases hx : a + n ≤ x ∧ x < a + n + l
  · rw [fill_inside hx.1 hx.2,fill_inside (by omega) (by omega),show n + (x - (a + n)) = x - a by omega]
  · rw [fill_outside (by omega)]
    by_cases hin : a ≤ x ∧ x < a + n
    · rw [fill_inside hin.1 hin.2,fill_inside (by omega) (by omega)]
    · rw [fill_outside (by omega),fill_outside (by omega)]

lemma fill_congr {g : Nat → Byte} (h : ∀ k, k < n → f k = g k) : fill m a n f = fill m a n g := by
  funext x
  by_cases hx : a ≤ x ∧ x < a + n
  · rw [fill_inside hx.1 hx.2,fill_inside hx.1 hx.2,h _ (by omega)]
  · rw [fill_outside (by omega),fill_outside (by omega)]

lemma word_lt (m : Memory) (a n : Nat) : word m a n < 256^n := by
  induction n generalizing a with
  | zero => simp [word]
  | succ n ih =>
    have hb := (m a).isLt
    have hr := ih (a + 1)
    rw [word,Nat.pow_succ]
    omega

lemma word_congr (h : ∀ x, a ≤ x → x < a + n → m x = m' x) : word m a n = word m' a n := by
  induction n generalizing a with
  | zero => rfl
  | succ n ih =>
    rw [word,word,h a (le_refl _) (by omega),ih fun x h1 h2 => h x (by omega) (by omega)]

lemma word_shift_congr (h : ∀ x, x < n → m (a + x) = m' (b + x)) : word m a n = word m' b n := by
  induction n generalizing a b with
  | zero => rfl
  | succ n ih =>
    have h0 : m a = m' b := h 0 (by omega)
    rw [word,word,h0,ih fun x hx => ?_]
    rw [Nat.add_assoc,Nat.add_assoc,Nat.add_comm 1]
    exact h (x + 1) (by omega)

lemma word_of_bytes (h : ∀ k, k < n → m (a + k) = byteOf v k) : word m a n = v % 256^n := by
  induction n generalizing a v with
  | zero => simp [word,Nat.mod_one]
  | succ n ih =>
    have h0 : (m a).toNat = v % 256 := by
      have := h 0 (by omega)
      simp only [Nat.add_zero,byteOf,Nat.pow_zero,Nat.div_one] at this
      rw [this,BitVec.toNat_ofNat]
    have hr : word m (a + 1) n = v / 256 % 256^n := by
      refine ih fun k hk => ?_
      have := h (k + 1) (by omega)
      rw [show a + 1 + k = a + (k + 1) by omega,this]
      simp only [byteOf,Nat.pow_succ']
      rw [Nat.div_div_eq_div_mul]
    rw [word,h0,hr,Nat.pow_succ',Nat.mod_mul]

lemma word_putWord : word (putWord m a n v) a n = v % 256^n :=
  word_of_bytes fun k hk => by
    rw [putWord,fill_inside (by omega) (by omega),Nat.add_sub_cancel_left]

lemma word_zero (h : ∀ x, a ≤ x → x < a + n → m x = 0) : word m a n = 0 := by
  have := word_of_bytes (m := m) (a := a) (n := n) (v := 0) fun k hk => by
    rw [h (a + k) (by omega) (by omega)]
    simp [byteOf]
  simpa using this

lemma bit_congr (h : m (a + i / 8) = m' (a + i / 8)) : bit m a i = bit m' a i := by
  rw [bit,bit,h]

lemma bit_fill_outside (h : b + i / 8 < a ∨ a + n ≤ b + i / 8) : bit (fill m a n f) b i = bit m b i :=
  bit_congr (fill_outside h)

lemma getLsbD_mask (h : i / 8 = j / 8) : (1#8 <<< (i % 8)).getLsbD (j % 8) = decide (j = i) := by
  have hj : j % 8 < 8 := Nat.mod_lt _ (by norm_num)
  rw [BitVec.getLsbD_shiftLeft]
  by_cases he : j = i
  · subst he
    simp [hj]
  · by_cases hlt : j % 8 < i % 8
    · simp [he,hlt]
    · have : j % 8 - i % 8 ≠ 0 := by omega
      simp [he,hlt,this]

lemma bit_setBit : bit (setBit m a i) a j = (decide (j = i) || bit m a j) := by
  unfold bit setBit
  by_cases hb : i / 8 = j / 8
  · rw [← hb,poke_same,BitVec.getLsbD_or,getLsbD_mask hb,Bool.or_comm]
  · have hne : j ≠ i := fun h => hb (by rw [h])
    rw [poke_other (by omega)]
    simp [hne]

lemma bit_clearBit : bit (clearBit m a i) a j = (!decide (j = i) && bit m a j) := by
  unfold bit clearBit
  by_cases hb : i / 8 = j / 8
  · have hj : j % 8 < 8 := Nat.mod_lt _ (by norm_num)
    rw [← hb,poke_same,BitVec.getLsbD_and,BitVec.getLsbD_not,getLsbD_mask hb,Bool.and_comm]
    simp [hj]
  · have hne : j ≠ i := fun h => hb (by rw [h])
    rw [poke_other (by omega)]
    simp [hne]

lemma clearBit_setBit (h : bit m a i = false) : clearBit (setBit m a i) a i = m := by
  funext x
  by_cases hx : x = a + i / 8
  · subst hx
    rw [clearBit,poke_same,setBit,poke_same]
    refine BitVec.eq_of_getLsbD_eq fun k hk => ?_
    rw [BitVec.getLsbD_and,BitVec.getLsbD_or,BitVec.getLsbD_not]
    have hm := getLsbD_mask (i := i) (j := 8 * (i / 8) + k) (by omega)
    rw [show (8 * (i / 8) + k) % 8 = k by omega] at hm
    rw [hm]
    by_cases he : 8 * (i / 8) + k = i
    · have hz : (m (a + i / 8)).getLsbD k = false := by
        rw [show k = i % 8 by omega]
        exact h
      simp [he,hz]
    · simp [he,hk]
  · rw [clearBit,poke_other hx,setBit,poke_other hx]

lemma bit_shift : bit m (a + n) i = bit m a (8 * n + i) := by
  rw [bit,bit,show a + (8 * n + i) / 8 = a + n + i / 8 by omega,show (8 * n + i) % 8 = i % 8 by omega]

lemma setBit_shift : setBit m (a + n) i = setBit m a (8 * n + i) := by
  rw [setBit,setBit,show a + (8 * n + i) / 8 = a + n + i / 8 by omega,show (8 * n + i) % 8 = i % 8 by omega]

end Bytes
