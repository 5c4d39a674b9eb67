import Mathlib.Tactic

namespace Ownership

variable {ι β : Type}

structure Exact (holds : ι → β → Prop) (used : β → Prop) : Prop where
  marked : ∀ p b, holds p b → used b
  once : ∀ p q b, holds p b → holds q b → p = q
  owner : ∀ b, used b → ∃ p, holds p b

variable {holds holds' : ι → β → Prop} {used used' : β → Prop} {p : ι} {b : β}

lemma Exact.congr (h : Exact holds used) (hh : ∀ q c, holds' q c ↔ holds q c) (hu : ∀ c, used' c ↔ used c) :
    Exact holds' used' where
  marked q c hq := (hu c).mpr (h.marked q c ((hh q c).mp hq))
  once q r c hq hr := h.once q r c ((hh q c).mp hq) ((hh r c).mp hr)
  owner c hc := by
    obtain ⟨q,hq⟩ := h.owner c ((hu c).mp hc)
    exact ⟨q,(hh q c).mpr hq⟩

lemma Exact.assign (h : Exact holds used) (hfree : ¬used b)
    (hh : ∀ q c, holds' q c ↔ (q = p ∧ c = b) ∨ holds q c) (hu : ∀ c, used' c ↔ c = b ∨ used c) :
    Exact holds' used' where
  marked q c hq := by
    rcases (hh q c).mp hq with ⟨_,hc⟩ | hq
    · exact (hu c).mpr (.inl hc)
    · exact (hu c).mpr (.inr (h.marked q c hq))
  once q r c hq hr := by
    rcases (hh q c).mp hq with ⟨rfl,rfl⟩ | hq
    · rcases (hh r c).mp hr with ⟨hr,_⟩ | hr
      · exact hr.symm
      · exact absurd (h.marked r c hr) hfree
    · rcases (hh r c).mp hr with ⟨rfl,rfl⟩ | hr
      · exact absurd (h.marked q c hq) hfree
      · exact h.once q r c hq hr
  owner c hc := by
    rcases (hu c).mp hc with rfl | hc
    · exact ⟨p,(hh p c).mpr (.inl ⟨rfl,rfl⟩)⟩
    · obtain ⟨q,hq⟩ := h.owner c hc
      exact ⟨q,(hh q c).mpr (.inr hq)⟩

end Ownership
