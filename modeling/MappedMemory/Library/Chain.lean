import Mathlib.Tactic

def Chain (next : Nat → Int) : Int → List Nat → Prop
  | x, [] => x = -1
  | x, i :: l => x = i ∧ Chain next (next i) l

namespace Chain

variable {next : Nat → Int} {x : Int} {i n : Nat} {l : List Nat}

lemma eq_nil_iff (h : Chain next x l) : l = [] ↔ x = -1 := by
  cases l with
  | nil => simpa [Chain] using h
  | cons i l =>
    obtain ⟨rfl,-⟩ := h
    simp

lemma pop (h : Chain next x l) (hx : x ≠ -1) : ∃ i rest, l = i :: rest ∧ x = i ∧ Chain next (next i) rest := by
  cases l with
  | nil => exact absurd h hx
  | cons i rest => exact ⟨i,rest,rfl,h.1,h.2⟩

lemma update (hi : i ∉ l) (y : Int) : Chain (Function.update next i y) x l ↔ Chain next x l := by
  induction l generalizing x with
  | nil => rfl
  | cons j l ih =>
    obtain ⟨hj,hl⟩ : i ≠ j ∧ i ∉ l := by simpa using hi
    simp only [Chain]
    rw [ih hl,Function.update_of_ne hj.symm]

lemma push (h : Chain next x l) (hi : i ∉ l) : Chain (Function.update next i x) i (i :: l) :=
  ⟨rfl,by rw [Function.update_self]; exact (update hi x).mpr h⟩

lemma of_succ (hlink : ∀ j, i ≤ j → j < i + n → next j = (j + 1 : Nat)) (hend : next (i + n) = -1) :
    Chain next i (List.range' i (n + 1)) := by
  induction n generalizing i with
  | zero => exact ⟨rfl,hend⟩
  | succ n ih =>
    refine ⟨rfl,?_⟩
    rw [hlink i le_rfl (by omega)]
    exact ih (fun j hj hlt => hlink j (by omega) (by omega)) (by rw [← hend]; congr 1; omega)

end Chain
