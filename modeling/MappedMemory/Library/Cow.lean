import Mathlib.Logic.Function.Basic

namespace Cow

variable {σ φ β : Type}

structure Memory (σ φ β : Type) where
  frame : σ → Option φ
  data : φ → β
  writes : σ → Bool

namespace Memory

def read (m : Memory σ φ β) (k : σ) : Option β := (m.frame k).map m.data

variable {m m' : Memory σ φ β} {j k : σ} {f : φ} {b : β}

lemma read_eq_none : m.read k = none ↔ m.frame k = none := Option.map_eq_none_iff

lemma read_congr (hf : ∀ j, m'.frame j = m.frame j) (hd : ∀ j g, m.frame j = some g → m'.data g = m.data g)
    (j : σ) : m'.read j = m.read j := by
  simp only [read,hf]
  cases hj : m.frame j with
  | none => rfl
  | some g => simp [hd j g hj]

structure Binds [DecidableEq σ] (m m' : Memory σ φ β) (k : σ) (f : φ) (b : β) (wr : Bool) : Prop where
  frame : ∀ j, m'.frame j = if j = k then some f else m.frame j
  writes : ∀ j, m'.writes j = if j = k then wr else m.writes j
  data : ∀ j g, m.frame j = some g → m'.data g = m.data g
  holds : m'.data f = b

lemma Binds.read [DecidableEq σ] {wr : Bool} (h : Binds m m' k f b wr) (j : σ) :
    m'.read j = if j = k then some b else m.read j := by
  simp only [Memory.read,h.frame]
  split
  · simp [h.holds]
  · cases hj : m.frame j with
    | none => rfl
    | some g => simp [h.data j g hj]

def Fresh (m : Memory σ φ β) (f : φ) : Prop := ∀ j, m.frame j ≠ some f

end Memory

open Memory

variable {P W P' W' : σ → Prop} {m m' n n' : Memory σ φ β} {j k : σ} {f g : φ} {b : β} {wr wr' : Bool}

structure Isolated (P W : σ → Prop) (m : Memory σ φ β) : Prop where
  sole : ∀ k j, P k → j ≠ k → m.frame k ≠ none → m.frame j = m.frame k →
    P j ∧ m.writes k = false ∧ m.writes j = false
  perm : ∀ k, P k → m.writes k = true → W k
  bound : ∀ k, m.writes k = true → m.frame k ≠ none

structure Sim (P W : σ → Prop) (m n : Memory σ φ β) : Prop where
  left : Isolated P W m
  right : Isolated P W n
  read : ∀ k, m.read k = n.read k
  weaker : ∀ k, m.writes k = true → n.writes k = true
  stricter : ∀ k, n.writes k = true → m.writes k = false → P k ∧ W k
  sharing : ∀ j k, ¬ P j → ¬ P k → (m.frame j = m.frame k ↔ n.frame j = n.frame k)

lemma Isolated.sim (h : Isolated P W m) : Sim P W m m :=
  ⟨h,h,fun _ => rfl,fun _ h => h,fun _ h h' => absurd (h.symm.trans h') (by decide),fun _ _ _ _ => Iff.rfl⟩

namespace Isolated

lemma congr (h : Isolated P W m) (hf : ∀ j, m'.frame j = m.frame j) (hw : ∀ j, m'.writes j = m.writes j) :
    Isolated P W m' := by
  refine ⟨fun k j hk hne hb he => ?_,fun k hk hwr => h.perm k hk (hw k ▸ hwr),fun k hwr => ?_⟩
  · simp only [hf,hw] at *
    exact h.sole k j hk hne hb he
  · rw [hf]
    exact h.bound k (hw k ▸ hwr)

lemma retag (h : Isolated P W m) (hP : ∀ k, m.frame k ≠ none → (P k ↔ P' k)) (hW : ∀ k, m.frame k ≠ none → (W k ↔ W' k)) :
    Isolated P' W' m := by
  refine ⟨fun k j hk hne hb he => ?_,fun k hk hwr => ?_,h.bound⟩
  · obtain ⟨hj,hr⟩ := h.sole k j ((hP k hb).mpr hk) hne hb he
    exact ⟨(hP j (he ▸ hb)).mp hj,hr⟩
  · have hb := h.bound k hwr
    exact (hW k hb).mp (h.perm k ((hP k hb).mpr hk) hwr)

lemma unbind {D : σ → Prop} [DecidablePred D] (h : Isolated P W m)
    (hf : ∀ j, m'.frame j = if D j then none else m.frame j)
    (hw : ∀ j, m'.writes j = if D j then false else m.writes j) : Isolated P W m' := by
  have hkeep : ∀ {k}, m'.frame k ≠ none → ¬ D k := fun {k} hb hD => hb (by rw [hf,if_pos hD])
  refine ⟨fun k j hk hne hb he => ?_,fun k hk hwr => ?_,fun k hwr => ?_⟩
  · have hDk := hkeep hb
    have hDj : ¬ D j := hkeep (he ▸ hb)
    rw [hf,if_neg hDk] at hb
    rw [hf,hf,if_neg hDk,if_neg hDj] at he
    rw [hw,if_neg hDk,hw,if_neg hDj]
    exact h.sole k j hk hne hb he
  · rw [hw] at hwr
    split at hwr
    · cases hwr
    · exact h.perm k hk hwr
  · rw [hw] at hwr
    rw [hf]
    split at hwr
    · cases hwr
    · rename_i hD
      rw [if_neg hD]
      exact h.bound k hwr

lemma protect {S : σ → Prop} [DecidablePred S] (h : Isolated P W m) (hf : ∀ j, m'.frame j = m.frame j)
    (hw : ∀ j, m'.writes j = if S j then false else m.writes j) : Isolated P W m' := by
  have hsub : ∀ j, m'.writes j = true → m.writes j = true := fun j hj => by
    rw [hw] at hj
    split at hj
    · cases hj
    · exact hj
  refine ⟨fun k j hk hne hb he => ?_,fun k hk hwr => h.perm k hk (hsub k hwr),fun k hwr => ?_⟩
  · rw [hf] at hb he
    rw [hf] at he
    obtain ⟨hj,hwk,hwj⟩ := h.sole k j hk hne hb he
    exact ⟨hj,Bool.eq_false_iff.mpr fun hc => by simp [hsub k hc] at hwk,
      Bool.eq_false_iff.mpr fun hc => by simp [hsub j hc] at hwj⟩
  · rw [hf]
    exact h.bound k (hsub k hwr)

variable [DecidableEq σ]

lemma grant (h : Isolated P W m) (hk : W k) (hb : m.frame k ≠ none) (hsole : ∀ j, j ≠ k → m.frame j ≠ m.frame k)
    (hf : ∀ j, m'.frame j = m.frame j) (hw : ∀ j, m'.writes j = if j = k then true else m.writes j) :
    Isolated P W m' := by
  refine ⟨fun i j hi hne hbi he => ?_,fun i hi hwr => ?_,fun i hwr => ?_⟩
  · rw [hf] at hbi he
    rw [hf] at he
    have hik : i ≠ k := fun hik => hsole j (hik ▸ hne) (hik ▸ he)
    have hjk : j ≠ k := fun hjk => hsole i hik (hjk ▸ he.symm)
    rw [hw,if_neg hik,hw,if_neg hjk]
    exact h.sole i j hi hne hbi he
  · by_cases hik : i = k
    · exact hik ▸ hk
    · rw [hw,if_neg hik] at hwr
      exact h.perm i hi hwr
  · rw [hf]
    by_cases hik : i = k
    · exact hik ▸ hb
    · rw [hw,if_neg hik] at hwr
      exact h.bound i hwr

lemma bind (h : Isolated P W m) (hm : Binds m m' k f b wr) (hperm : P k → wr = true → W k)
    (hshare : ∀ j, j ≠ k → m.frame j = some f →
      (P j → P k ∧ m.writes j = false ∧ wr = false) ∧ (P k → P j ∧ m.writes j = false ∧ wr = false)) :
    Isolated P W m' := by
  refine ⟨fun i j hi hne hbi he => ?_,fun i hi hwr => ?_,fun i hwr => ?_⟩
  · rw [hm.frame,hm.frame] at he
    rw [hm.frame] at hbi
    rw [hm.writes,hm.writes]
    by_cases hik : i = k
    · subst hik
      rw [if_neg hne,if_pos rfl] at he
      rw [if_pos rfl,if_neg hne]
      obtain ⟨hj,hwj,hwr⟩ := (hshare j hne he).2 hi
      exact ⟨hj,hwr,hwj⟩
    · rw [if_neg hik] at hbi he
      by_cases hjk : j = k
      · subst hjk
        rw [if_pos rfl] at he
        rw [if_neg hik,if_pos rfl]
        exact (hshare i hik he.symm).1 hi
      · rw [if_neg hjk] at he
        rw [if_neg hik,if_neg hjk]
        exact h.sole i j hi hne hbi he
  · rw [hm.writes] at hwr
    split at hwr
    · rename_i hik
      exact hik ▸ hperm (hik ▸ hi) hwr
    · exact h.perm i hi hwr
  · rw [hm.writes] at hwr
    rw [hm.frame]
    split
    · simp
    · rename_i hik
      rw [if_neg hik] at hwr
      exact h.bound i hwr

lemma bindFresh (h : Isolated P W m) (hm : Binds m m' k f b wr) (hperm : P k → wr = true → W k) (hf : m.Fresh f) :
    Isolated P W m' :=
  h.bind hm hperm fun j _ hj => absurd hj (hf j)

end Isolated

namespace Sim

section
variable (h : Sim P W m n)
include h

lemma congr (hm : ∀ j, m'.frame j = m.frame j) (hmw : ∀ j, m'.writes j = m.writes j)
    (hmd : ∀ j g, m.frame j = some g → m'.data g = m.data g) (hn : ∀ j, n'.frame j = n.frame j)
    (hnw : ∀ j, n'.writes j = n.writes j) (hnd : ∀ j g, n.frame j = some g → n'.data g = n.data g) :
    Sim P W m' n' := by
  refine ⟨h.left.congr hm hmw,h.right.congr hn hnw,fun k => ?_,fun k => ?_,fun k => ?_,fun j k => ?_⟩
  · rw [read_congr hm hmd,read_congr hn hnd,h.read]
  · rw [hmw,hnw]
    exact h.weaker k
  · rw [hmw,hnw]
    exact h.stricter k
  · rw [hm,hm,hn,hn]
    exact h.sharing j k

lemma unbound : m.frame k = none ↔ n.frame k = none := by
  rw [← Memory.read_eq_none,← Memory.read_eq_none,h.read]

lemma retag (hP : ∀ k, m.frame k ≠ none → (P k ↔ P' k)) (hW : ∀ k, m.frame k ≠ none → (W k ↔ W' k)) :
    Sim P' W' m n := by
  have hPn : ∀ k, n.frame k ≠ none → (P k ↔ P' k) := fun k hk => hP k (mt h.unbound.mp hk)
  have hWn : ∀ k, n.frame k ≠ none → (W k ↔ W' k) := fun k hk => hW k (mt h.unbound.mp hk)
  refine ⟨h.left.retag hP hW,h.right.retag hPn hWn,h.read,h.weaker,fun k hn hm => ?_,fun j k hj hk => ?_⟩
  · have hb := h.right.bound k hn
    obtain ⟨hp,hw⟩ := h.stricter k hn hm
    exact ⟨(hPn k hb).mp hp,(hWn k hb).mp hw⟩
  · by_cases hbj : m.frame j = none
    · rw [hbj,h.unbound.mp hbj,eq_comm,@eq_comm _ none,h.unbound]
    · by_cases hbk : m.frame k = none
      · rw [hbk,h.unbound.mp hbk,h.unbound]
      · exact h.sharing j k (mt (hP j hbj).mp hj) (mt (hP k hbk).mp hk)

lemma shares (hw : m.writes k = true) (j : σ) : m.frame j = m.frame k ↔ n.frame j = n.frame k := by
  have hwn := h.weaker k hw
  have hbm := h.left.bound k hw
  have hbn := h.right.bound k hwn
  by_cases hjk : j = k
  · simp [hjk]
  constructor
  · intro he
    by_cases hk : P k
    · exact absurd (h.left.sole k j hk hjk hbm he).2.1 (by simp [hw])
    · by_cases hj : P j
      · exact absurd (h.left.sole j k hj (Ne.symm hjk) (he ▸ hbm) he.symm).2.2 (by simp [hw])
      · exact (h.sharing j k hj hk).mp he
  · intro he
    by_cases hk : P k
    · exact absurd (h.right.sole k j hk hjk hbn he).2.1 (by simp [hwn])
    · by_cases hj : P j
      · exact absurd (h.right.sole j k hj (Ne.symm hjk) (he ▸ hbn) he.symm).2.2 (by simp [hwn])
      · exact (h.sharing j k hj hk).mpr he

lemma store (hw : m.writes k = true) (hf : m.frame k = some f) (hg : n.frame k = some g)
    (hm : ∀ j, m'.frame j = m.frame j) (hmw : ∀ j, m'.writes j = m.writes j)
    (hmd : ∀ i, i ≠ f → m'.data i = m.data i) (hmb : m'.data f = b) (hn : ∀ j, n'.frame j = n.frame j)
    (hnw : ∀ j, n'.writes j = n.writes j) (hnd : ∀ i, i ≠ g → n'.data i = n.data i) (hnb : n'.data g = b) :
    Sim P W m' n' := by
  refine ⟨h.left.congr hm hmw,h.right.congr hn hnw,fun j => ?_,fun j => ?_,fun j => ?_,fun i j => ?_⟩
  · have hshare := h.shares hw j
    rw [hf,hg] at hshare
    have hread := h.read j
    simp only [Memory.read,hm,hn] at hread ⊢
    cases hmj : m.frame j with
    | none =>
      have hnj : n.frame j = none := by simpa [hmj] using hread.symm
      rw [hnj]
      rfl
    | some i =>
      cases hnj : n.frame j with
      | none => simp [hmj,hnj] at hread
      | some i' =>
        simp only [hmj,hnj,Option.map_some,Option.some_inj] at hread hshare ⊢
        by_cases hi : i = f
        · rw [hi,hshare.mp hi,hmb,hnb]
        · rw [hmd i hi,hnd i' (mt hshare.mpr hi),hread]
  · rw [hmw,hnw]
    exact h.weaker j
  · rw [hmw,hnw]
    exact h.stricter j
  · rw [hm,hm,hn,hn]
    exact h.sharing i j

lemma unbind {D : σ → Prop} [DecidablePred D] (hm : ∀ j, m'.frame j = if D j then none else m.frame j)
    (hmw : ∀ j, m'.writes j = if D j then false else m.writes j) (hmd : m'.data = m.data)
    (hn : ∀ j, n'.frame j = if D j then none else n.frame j)
    (hnw : ∀ j, n'.writes j = if D j then false else n.writes j) (hnd : n'.data = n.data) : Sim P W m' n' := by
  refine ⟨h.left.unbind hm hmw,h.right.unbind hn hnw,fun k => ?_,fun k => ?_,fun k => ?_,fun j k hj hk => ?_⟩
  · have hread := h.read k
    simp only [Memory.read,hm,hn,hmd,hnd] at hread ⊢
    split
    · rfl
    · exact hread
  · rw [hmw,hnw]
    split
    · simp
    · exact h.weaker k
  · rw [hmw,hnw]
    split
    · simp
    · exact h.stricter k
  · have halias := h.sharing j k hj hk
    rw [hm,hm,hn,hn]
    split <;> split
    · simp
    · rw [eq_comm,@eq_comm _ none,h.unbound]
    · rw [h.unbound]
    · exact halias

lemma protect {S : σ → Prop} [DecidablePred S] (hS : ∀ j, m.frame j ≠ none → S j → P j)
    (hf : ∀ j, m'.frame j = m.frame j)
    (hw : ∀ j, m'.writes j = if S j then false else m.writes j) (hd : m'.data = m.data) : Sim P W m' n := by
  refine ⟨h.left.protect hf hw,h.right,fun k => ?_,fun k hk => ?_,fun k hn hk => ?_,fun j k => ?_⟩
  · rw [← h.read,Memory.read,Memory.read,hf,hd]
  · rw [hw] at hk
    split at hk
    · cases hk
    · exact h.weaker k hk
  · rw [hw] at hk
    cases hmk : m.writes k with
    | false => exact h.stricter k hn hmk
    | true =>
      split at hk
      · rename_i hSk
        have hp := hS k (h.left.bound k hmk) hSk
        exact ⟨hp,h.left.perm k hp hmk⟩
      · exact absurd (hmk.symm.trans hk) (by decide)
  · rw [hf,hf]
    exact h.sharing j k

end

variable [DecidableEq σ]

section
variable (h : Sim P W m n)
include h

lemma ownLeft (hP : P k) (hn : n.writes k = true) (hiso : Isolated P W m')
    (hread : ∀ j, m'.read j = m.read j) (hf : ∀ j, j ≠ k → m'.frame j = m.frame j)
    (hw : ∀ j, m'.writes j = if j = k then true else m.writes j) : Sim P W m' n := by
  have hne : ∀ {j}, ¬ P j → j ≠ k := fun hj he => hj (he ▸ hP)
  refine ⟨hiso,h.right,fun j => (hread j).trans (h.read j),fun j hj => ?_,fun j hnj hj => ?_,fun i j hi hj => ?_⟩
  · rw [hw] at hj
    split at hj
    · rename_i hjk
      exact hjk ▸ hn
    · exact h.weaker j hj
  · rw [hw] at hj
    split at hj
    · cases hj
    · exact h.stricter j hnj hj
  · rw [hf i (hne hi),hf j (hne hj)]
    exact h.sharing i j hi hj

lemma ownRight (hP : P k) (hW : W k) (hiso : Isolated P W n')
    (hread : ∀ j, n'.read j = n.read j) (hf : ∀ j, j ≠ k → n'.frame j = n.frame j)
    (hw : ∀ j, n'.writes j = if j = k then true else n.writes j) : Sim P W m n' := by
  have hne : ∀ {j}, ¬ P j → j ≠ k := fun hj he => hj (he ▸ hP)
  refine ⟨h.left,hiso,fun j => (h.read j).trans (hread j).symm,fun j hj => ?_,fun j hnj hj => ?_,fun i j hi hj => ?_⟩
  · rw [hw]
    split
    · rfl
    · exact h.weaker j hj
  · rw [hw] at hnj
    split at hnj
    · rename_i hjk
      exact hjk ▸ ⟨hP,hW⟩
    · exact h.stricter j hnj hj
  · rw [hf i (hne hi),hf j (hne hj)]
    exact h.sharing i j hi hj

lemma bind (hm : Binds m m' k f b wr) (hn : Binds n n' k g b wr') (hl : Isolated P W m')
    (hr : Isolated P W n') (hweak : wr = true → wr' = true) (hstrict : wr' = true → wr = false → P k ∧ W k)
    (halias : ¬ P k → ∀ j, ¬ P j → j ≠ k → (m.frame j = some f ↔ n.frame j = some g)) : Sim P W m' n' := by
  refine ⟨hl,hr,fun j => ?_,fun j => ?_,fun j => ?_,fun i j hi hj => ?_⟩
  · rw [hm.read,hn.read,h.read]
  · rw [hm.writes,hn.writes]
    split
    · exact hweak
    · exact h.weaker j
  · rw [hm.writes,hn.writes]
    split
    · rename_i hjk
      exact hjk ▸ hstrict
    · exact h.stricter j
  · rw [hm.frame,hm.frame,hn.frame,hn.frame]
    by_cases hik : i = k <;> by_cases hjk : j = k
    · simp [hik,hjk]
    · rw [if_pos hik,if_neg hjk,if_pos hik,if_neg hjk,eq_comm,halias (hik ▸ hi) j hj hjk,eq_comm]
    · rw [if_neg hik,if_pos hjk,if_neg hik,if_pos hjk,halias (hjk ▸ hj) i hi hik]
    · rw [if_neg hik,if_neg hjk,if_neg hik,if_neg hjk]
      exact h.sharing i j hi hj

lemma bindFresh (hm : Binds m m' k f b wr) (hn : Binds n n' k g b wr') (hf : m.Fresh f)
    (hg : n.Fresh g) (hweak : wr = true → wr' = true) (hstrict : wr' = true → wr = false → P k ∧ W k)
    (hperm : P k → wr' = true → W k) : Sim P W m' n' := by
  refine h.bind hm hn (h.left.bindFresh hm (fun hk hw => hperm hk (hweak hw)) hf) (h.right.bindFresh hn hperm hg)
    hweak hstrict fun _ j _ _ => ?_
  exact iff_of_false (hf j) (hg j)

lemma bindShared {i : σ} (hm : Binds m m' k f b true) (hn : Binds n n' k g b true) (hk : ¬ P k)
    (hi : ¬ P i) (hf : m.frame i = some f) (hg : n.frame i = some g) : Sim P W m' n' := by
  have hout : ∀ {m : Memory σ φ β} {f : φ}, Isolated P W m → m.frame i = some f → ∀ j, m.frame j = some f → ¬ P j := by
    intro m f hiso hf j hj hPj
    by_cases hij : i = j
    · exact hi (hij ▸ hPj)
    · exact hi (hiso.sole j i hPj hij (by simp [hj]) (hf.trans hj.symm)).1
  refine h.bind hm hn ?_ ?_ id (fun _ h => absurd h (by decide)) fun _ j hj _ => ?_
  · exact h.left.bind hm (fun h => absurd h hk) fun j _ hj =>
      ⟨fun hp => absurd hp (hout h.left hf j hj),fun hp => absurd hp hk⟩
  · exact h.right.bind hn (fun h => absurd h hk) fun j _ hj =>
      ⟨fun hp => absurd hp (hout h.right hg j hj),fun hp => absurd hp hk⟩
  · rw [← hf,← hg]
    exact h.sharing j i hj hi

lemma bindCopy {i : σ} (hm : Binds m m' k f b false) (hn : Binds n n' k g b wr') (hk : P k)
    (hi : P i) (hf : m.frame i = some f) (hro : m.writes i = false) (hg : n.Fresh g)
    (hperm : wr' = true → W k) : Sim P W m' n' := by
  refine h.bind hm hn ?_ (h.right.bindFresh hn (fun _ => hperm) hg) (by simp) (fun hw _ => ⟨hk,hperm hw⟩)
    fun hnk => absurd hk hnk
  refine h.left.bind hm (by simp) fun j _ hj => ?_
  have hboth : P j ∧ m.writes j = false := by
    by_cases hji : j = i
    · exact hji ▸ ⟨hi,hro⟩
    · obtain ⟨hp,-,hw⟩ := h.left.sole i j hi hji (by simp [hf]) (hj.trans hf.symm)
      exact ⟨hp,hw⟩
  exact ⟨fun _ => ⟨hk,hboth.2,rfl⟩,fun _ => ⟨hboth.1,hboth.2,rfl⟩⟩

end

end Sim
end Cow
