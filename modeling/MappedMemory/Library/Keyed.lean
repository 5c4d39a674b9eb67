import Mathlib.Tactic

namespace Keyed

open List (flatMap_cons map_cons mem_append mem_cons nodup_append' sum_cons)

variable {α β κ : Type} [DecidableEq κ]

def Distinct (key : α → κ) (l : List α) : Prop := (l.map key).Nodup

def lookup (key : α → κ) (k : κ) (l : List α) : Option α := l.find? fun a => decide (key a = k)

def modify (key : α → κ) (k : κ) (f : α → α) (l : List α) : List α :=
  l.map fun a => if key a = k then f a else a

def remove (key : α → κ) (k : κ) (l : List α) : List α := l.filter fun a => decide (key a ≠ k)

variable {key : α → κ} {k : κ} {f : α → α} {l : List α} {a b : α}

omit [DecidableEq κ] in
lemma Distinct.eq (h : Distinct key l) (ha : a ∈ l) (hb : b ∈ l) (hk : key a = key b) : a = b :=
  List.inj_on_of_nodup_map h ha hb hk

lemma lookup_some (h : lookup key k l = some a) : a ∈ l ∧ key a = k :=
  ⟨List.mem_of_find?_eq_some h,by simpa using List.find?_some h⟩

lemma lookup_none (h : lookup key k l = none) (ha : a ∈ l) : key a ≠ k := by
  simpa using List.find?_eq_none.mp h a ha

lemma Distinct.lookup_eq (h : Distinct key l) (ha : a ∈ l) (hk : key a = k) : lookup key k l = some a := by
  cases hl : lookup key k l with
  | none => exact absurd hk (lookup_none hl ha)
  | some b =>
    obtain ⟨hb,hbk⟩ := lookup_some hl
    rw [h.eq hb ha (hbk.trans hk.symm)]

lemma mem_modify : b ∈ modify key k f l ↔ (∃ a ∈ l, key a = k ∧ b = f a) ∨ (b ∈ l ∧ key b ≠ k) := by
  simp only [modify,List.mem_map]
  constructor
  · rintro ⟨a,ha,rfl⟩
    by_cases hk : key a = k
    · exact .inl ⟨a,ha,hk,by simp [hk]⟩
    · exact .inr (by simpa [hk] using ha)
  · rintro (⟨a,ha,hk,rfl⟩ | ⟨hb,hk⟩)
    · exact ⟨a,ha,by simp [hk]⟩
    · exact ⟨b,hb,by simp [hk]⟩

lemma Distinct.mem_modify (h : Distinct key l) (ha : a ∈ l) (hk : key a = k) :
    b ∈ modify key k f l ↔ b = f a ∨ (b ∈ l ∧ key b ≠ k) := by
  rw [Keyed.mem_modify]
  refine or_congr ⟨?_,fun hb => ⟨a,ha,hk,hb⟩⟩ Iff.rfl
  rintro ⟨c,hc,hck,rfl⟩
  rw [h.eq hc ha (hck.trans hk.symm)]

lemma Distinct.modify (h : Distinct key l) (hf : ∀ a ∈ l, key (f a) = key a) : Distinct key (modify key k f l) := by
  have he : (Keyed.modify key k f l).map key = l.map key := by
    simp only [Keyed.modify,List.map_map]
    refine List.map_congr_left fun a ha => ?_
    simp only [Function.comp_apply]
    split
    · exact hf a ha
    · rfl
  rw [Distinct,he]
  exact h

lemma modify_eq_self (h : ∀ a ∈ l, key a = k → f a = a) : modify key k f l = l := by
  rw [modify]
  conv_rhs => rw [← List.map_id l]
  refine List.map_congr_left fun a ha => ?_
  split
  · rename_i hk
    exact h a ha hk
  · rfl

lemma Distinct.modify_head (h : Distinct key (a :: l)) (hk : key a = k) : Keyed.modify key k f (a :: l) = f a :: l := by
  have hrest : Keyed.modify key k f l = l := modify_eq_self fun c hc hck =>
    absurd (List.mem_map.mpr ⟨c,hc,hck.trans hk.symm⟩) (List.nodup_cons.mp h).1
  rw [Keyed.modify,map_cons,if_pos hk]
  exact congrArg _ hrest

lemma Distinct.modify_tail (h : Distinct key (b :: l)) (ha : a ∈ l) (hk : key a = k) :
    Keyed.modify key k f (b :: l) = b :: Keyed.modify key k f l :=
  congrArg (· :: _) (if_neg fun he => (List.nodup_cons.mp h).1 (List.mem_map.mpr ⟨a,ha,hk.trans he.symm⟩))

lemma Distinct.sum_modify (h : Distinct key l) (ha : a ∈ l) (hk : key a = k) (g : α → Nat) :
    ((Keyed.modify key k f l).map g).sum + g a = (l.map g).sum + g (f a) := by
  induction l with
  | nil => simp at ha
  | cons b l ih =>
    have hd : Distinct key l := (List.nodup_cons.mp h).2
    rcases List.mem_cons.mp ha with rfl | ha
    · rw [h.modify_head hk,map_cons,sum_cons,map_cons,sum_cons]
      omega
    · rw [h.modify_tail ha hk,map_cons,sum_cons,map_cons,sum_cons]
      have := ih hd ha
      omega

lemma mem_remove : b ∈ remove key k l ↔ b ∈ l ∧ key b ≠ k := by
  simp [remove]

lemma Distinct.remove (h : Distinct key l) : Distinct key (remove key k l) :=
  h.sublist (List.filter_sublist.map key)

omit [DecidableEq κ] in
lemma Distinct.append (h : Distinct key l) (ha : ∀ b ∈ l, key b ≠ key a) : Distinct key (l ++ [a]) := by
  rw [Distinct,List.map_append]
  refine List.Nodup.append h (by simp) ?_
  simpa using ha

lemma Distinct.mem_eraseP [BEq κ] [LawfulBEq κ] (h : Distinct key l) :
    b ∈ l.eraseP (fun a => key a == k) ↔ b ∈ l ∧ key b ≠ k := by
  induction l with
  | nil => simp
  | cons a l ih =>
    obtain ⟨ha,hl⟩ := List.nodup_cons.mp h
    by_cases hk : key a = k
    · subst hk
      simp only [List.eraseP_cons_of_pos,beq_self_eq_true,mem_cons]
      constructor
      · exact fun hb => ⟨.inr hb,fun he => ha (he ▸ List.mem_map.mpr ⟨b,hb,rfl⟩)⟩
      · rintro ⟨rfl | hb,hne⟩
        · exact absurd rfl hne
        · exact hb
    · simp only [List.eraseP_cons_of_neg,beq_iff_eq,hk,not_false_eq_true,mem_cons,ih hl]
      constructor
      · rintro (rfl | ⟨hb,hne⟩)
        · exact ⟨.inl rfl,hk⟩
        · exact ⟨.inr hb,hne⟩
      · rintro ⟨rfl | hb,hne⟩
        · exact .inl rfl
        · exact .inr ⟨hb,hne⟩

lemma lookup_map (hf : ∀ a, key (f a) = key a) : lookup key k (l.map f) = (lookup key k l).map f := by
  simp only [lookup,List.find?_map,Function.comp_def,hf]

lemma lookup_modify (hf : ∀ a, key a = k → key (f a) = k) :
    lookup key k (modify key k f l) = (lookup key k l).map f := by
  induction l with
  | nil => rfl
  | cons a l ih =>
    by_cases ha : key a = k
    · simp [lookup,modify,ha,hf a ha]
    · simpa [lookup,modify,ha] using ih

lemma lookup_filter {q : α → Bool} (hq : ∀ a ∈ l, key a = k → q a = true) :
    lookup key k (l.filter q) = lookup key k l := by
  induction l with
  | nil => rfl
  | cons a l ih =>
    have ih := ih fun b hb => hq b (List.mem_cons_of_mem _ hb)
    by_cases ha : key a = k
    · rw [List.filter_cons_of_pos (hq a List.mem_cons_self ha)]
      simp [lookup,ha]
    · by_cases hqa : q a = true
      · rw [List.filter_cons_of_pos hqa]
        simpa [lookup,ha] using ih
      · rw [List.filter_cons_of_neg hqa]
        simpa [lookup,ha] using ih

lemma lookup_remove (h : key a ≠ k) : lookup key (key a) (remove key k l) = lookup key (key a) l := by
  induction l with
  | nil => rfl
  | cons b l ih =>
    by_cases hb : key b = k
    · have hne : key b ≠ key a := fun he => h (he.symm.trans hb)
      have hstep : remove key k (b :: l) = remove key k l := by simp [remove,hb]
      rw [hstep,ih]
      simp [lookup,hne]
    · have hstep : remove key k (b :: l) = b :: remove key k l := by simp [remove,hb]
      rw [hstep]
      by_cases hba : key b = key a
      · simp [lookup,hba]
      · simpa [lookup,hba] using ih

lemma remove_of_lookup_none (h : lookup key k l = none) : remove key k l = l :=
  List.filter_eq_self.mpr fun a ha => by simpa using lookup_none h ha

lemma Distinct.perm_remove (h : Distinct key l) (ha : a ∈ l) (hk : key a = k) :
    l.Perm (a :: Keyed.remove key k l) := by
  induction l with
  | nil => simp at ha
  | cons b l ih =>
    obtain ⟨hb,hl⟩ := List.nodup_cons.mp h
    by_cases hbk : key b = k
    · obtain rfl : a = b := h.eq ha List.mem_cons_self (hk.trans hbk.symm)
      have hrest : Keyed.remove key k l = l := List.filter_eq_self.mpr fun c hc => by
        have : key c ≠ k := fun he => hb (hbk ▸ he ▸ List.mem_map.mpr ⟨c,hc,rfl⟩)
        simpa using this
      have hstep : Keyed.remove key k (a :: l) = l := by
        rw [← hrest]
        simp [Keyed.remove,hbk]
      rw [hstep]
    · have hal : a ∈ l := (List.mem_cons.mp ha).resolve_left fun he => hbk (he ▸ hk)
      have hstep : Keyed.remove key k (b :: l) = b :: Keyed.remove key k l := by
        simp [Keyed.remove,hbk]
      rw [hstep]
      exact ((ih hl hal).cons b).trans (List.Perm.swap a b _)

lemma nodup_flatMap_modify {g : α → List β} (h : Distinct key l) (hn : (l.flatMap g).Nodup) (ha : a ∈ l)
    (hk : key a = k) (hg : (g (f a)).Nodup) (hnew : ∀ x ∈ g (f a), x ∈ g a ∨ x ∉ l.flatMap g) :
    ((Keyed.modify key k f l).flatMap g).Nodup := by
  induction l with
  | nil => simp at ha
  | cons b l ih =>
    have hd : Distinct key l := (List.nodup_cons.mp h).2
    rw [flatMap_cons,nodup_append'] at hn
    obtain ⟨hnb,hnl,hdisj⟩ := hn
    rcases List.mem_cons.mp ha with rfl | ha
    · rw [h.modify_head hk,flatMap_cons,nodup_append']
      refine ⟨hg,hnl,fun x hx hxl => ?_⟩
      rcases hnew x hx with hxa | hxa
      · exact hdisj hxa hxl
      · exact hxa (by rw [flatMap_cons,mem_append]; exact .inr hxl)
    · rw [h.modify_tail ha hk,flatMap_cons,nodup_append']
      refine ⟨hnb,ih hd hnl ha fun x hx => (hnew x hx).imp id fun hout hin => ?_,fun x hx hxm => ?_⟩
      · exact hout (by rw [flatMap_cons,mem_append]; exact .inr hin)
      · obtain ⟨c,hc,hxc⟩ := List.mem_flatMap.mp hxm
        rcases (hd.mem_modify ha hk).mp hc with rfl | ⟨hc,_⟩
        · rcases hnew x hxc with hxa | hxa
          · exact hdisj hx (List.mem_flatMap.mpr ⟨a,ha,hxa⟩)
          · exact hxa (by rw [flatMap_cons,mem_append]; exact .inl hx)
        · exact hdisj hx (List.mem_flatMap.mpr ⟨c,hc,hxc⟩)

end Keyed
