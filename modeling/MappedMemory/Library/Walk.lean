import Mathlib.Tactic

namespace Walk

variable {α ι ν : Type}

def walk (next : α → ι → Option α) : α → List ι → Option α
  | r, [] => some r
  | r, i :: is => (next r i).bind (fun t => walk next t is)

section walk
variable {next next' : α → ι → Option α} {r : α}

@[simp] lemma walk_nil : walk next r [] = some r := rfl

lemma walk_append (p q : List ι) : walk next r (p ++ q) = (walk next r p).bind (walk next · q) := by
  induction p generalizing r with
  | nil => rfl
  | cons i p ih =>
    simp only [List.cons_append,walk]
    cases next r i with
    | none => rfl
    | some t => simpa using ih

lemma walk_snoc (p : List ι) (i : ι) : walk next r (p ++ [i]) = (walk next r p).bind (next · i) := by
  rw [walk_append]
  congr 1
  funext t
  simp [walk]

lemma walk_congr {p : List ι} (h : ∀ q i, q ++ [i] <+: p → ∀ t, walk next r q = some t → next' t i = next t i) :
    walk next' r p = walk next r p := by
  induction p using List.reverseRecOn with
  | nil => rfl
  | append_singleton p i ih =>
    have hp := ih fun q j hq => h q j (hq.trans (List.prefix_append p [i]))
    rw [walk_snoc,walk_snoc,hp]
    cases hw : walk next r p with
    | none => rfl
    | some t => exact h p i List.prefix_rfl t hw

end walk

section attach
variable [DecidableEq α] [DecidableEq ι]

def attach (next : α → ι → Option α) (f : α) (i : ι) (g : α) : α → ι → Option α :=
  fun t j => if t = g then none else if t = f ∧ j = i then some g else next t j

variable {next : α → ι → Option α} {r f g : α} {i : ι}

lemma walk_attach (hfi : next f i = none) {p : List ι} (hg : ∀ q, q <+: p → walk next r q ≠ some g)
    (x : α) : walk (attach next f i g) r p = some x ↔
      walk next r p = some x ∨ ∃ q, p = q ++ [i] ∧ walk next r q = some f ∧ x = g := by
  induction p using List.reverseRecOn generalizing x with
  | nil => simp
  | append_singleton p j ih =>
    have hp := ih fun q hq => hg q (hq.trans (List.prefix_append p [j]))
    have hne : walk next r p ≠ some g := hg p (List.prefix_append p [j])
    simp only [walk_snoc,Option.bind_eq_some_iff,hp]
    constructor
    · rintro ⟨t,ht | ⟨q,_,_,rfl⟩,hx⟩
      · have htg : t ≠ g := fun he => hne (he ▸ ht)
        simp only [attach,if_neg htg] at hx
        split at hx
        · rename_i hc
          obtain ⟨rfl,rfl⟩ := hc
          exact .inr ⟨p,rfl,ht,(Option.some_inj.mp hx).symm⟩
        · exact .inl ⟨t,ht,hx⟩
      · simp [attach] at hx
    · rintro (⟨t,ht,hx⟩ | ⟨q,hq,hf,rfl⟩)
      · have htg : t ≠ g := fun he => hne (he ▸ ht)
        have hc : ¬ (t = f ∧ j = i) := by
          rintro ⟨rfl,rfl⟩
          simp [hfi] at hx
        exact ⟨t,.inl ht,by simp [attach,htg,hc,hx]⟩
      · obtain ⟨rfl,hj⟩ := List.append_inj' hq rfl
        obtain rfl : j = i := by simpa using hj
        have hfx : f ≠ x := fun he => hne (he ▸ hf)
        exact ⟨f,.inl hf,by simp [attach,hfx]⟩

end attach

structure Naming (node : α → List ι → ν) : Prop where
  length : ∀ {r r' : α} {p p' : List ι}, node r p = node r' p' → p.length = p'.length
  snoc : ∀ {r r' : α} {p p' : List ι}, node r p = node r' p' → ∀ i, node r (p ++ [i]) = node r' (p' ++ [i])

def Unique (next : α → ι → Option α) (roots : α → Prop) (depth : Nat) (node : α → List ι → ν) : Prop :=
  ∀ r r', roots r → roots r' → ∀ p p' : List ι, p.length ≤ depth → p'.length ≤ depth →
    ∀ t, walk next r p = some t → walk next r' p' = some t → node r p = node r' p'

variable {next : α → ι → Option α} {roots : α → Prop} {depth : Nat} {node : α → List ι → ν}

lemma Unique.attach [DecidableEq α] [DecidableEq ι] (h : Unique next roots depth node) (hn : Naming node)
    {f g : α} {i : ι} (hfi : next f i = none)
    (hg : ∀ r, roots r → ∀ p : List ι, p.length ≤ depth → walk next r p ≠ some g) :
    Unique (attach next f i g) roots depth node := by
  intro r r' hr hr' p p' hp hp' t ht ht'
  have fresh : ∀ r, roots r → ∀ p : List ι, p.length ≤ depth → ∀ q, q <+: p → walk next r q ≠ some g :=
    fun r hr p hp q hq => hg r hr q (hq.length_le.trans hp)
  rw [walk_attach hfi (fresh r hr p hp)] at ht
  rw [walk_attach hfi (fresh r' hr' p' hp')] at ht'
  rcases ht with ht | ⟨q,rfl,hq,rfl⟩ <;> rcases ht' with ht' | ⟨q',rfl,hq',he⟩
  · exact h r r' hr hr' p p' hp hp' t ht ht'
  · exact absurd (he ▸ ht) (hg r hr p hp)
  · exact absurd ht' (hg r' hr' p' hp')
  · have hl : q.length ≤ depth := by simp at hp; omega
    have hl' : q'.length ≤ depth := by simp at hp'; omega
    exact hn.snoc (h r r' hr hr' q q' hl hl' f hq hq') i

end Walk
