import Mathlib.Tactic

namespace Crash

variable {δ ω : Type} {put : δ → ω → δ} {P : δ → Prop} {d : δ} {ws : List ω} {w : ω}

def Throughout (put : δ → ω → δ) (P : δ → Prop) (d : δ) (ws : List ω) : Prop :=
  ∀ p, p <+: ws → P (p.foldl put d)

lemma throughout_nil (h : P d) : Throughout put P d [] := by
  intro p hp
  rw [List.prefix_nil.mp hp]
  exact h

lemma Throughout.snoc (h : Throughout put P d ws) (hw : P (put (ws.foldl put d) w)) :
    Throughout put P d (ws ++ [w]) := by
  intro p hp
  rcases List.prefix_concat_iff.mp hp with rfl | hp
  · rw [List.foldl_append]
    exact hw
  · exact h p hp

end Crash
