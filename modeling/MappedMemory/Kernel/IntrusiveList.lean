import Mathlib.Tactic

namespace MappedMemory.IntrusiveList

open Function (update update_comm update_of_ne update_self)
open List (append_assoc append_nil cons_append isChain_cons_cons mem_append mem_cons mem_cons_self nodup_append
  nodup_cons)

structure Links where
  prev : Nat → Nat
  next : Nat → Nat

def listEmpty (m : Links) (list : Nat) : Bool := m.prev list = list && m.next list = list

def listAppend (m : Links) (list node : Nat) : Links :=
  let m := if listEmpty m list then { m with next := update m.next list node }
    else { m with next := update m.next (m.prev list) node }
  let m := { m with prev := update m.prev node (m.prev list) }
  let m := { m with next := update m.next node list }
  { m with prev := update m.prev list node }

def insertBefore (m : Links) (n node : Nat) : Links :=
  let m := { m with prev := update m.prev node (m.prev n) }
  let m := { m with next := update m.next node n }
  let m := { m with next := update m.next (m.prev n) node }
  { m with prev := update m.prev n node }

def appendOrderedFrom (compare : Nat → Nat → Int) (list node : Nat) : Nat → Links → Nat → Option Links
  | 0, _, _ => none
  | fuel + 1, m, n =>
    if n = list then some (listAppend m list node)
    else if compare n node > 0 then some (insertBefore m n node)
    else appendOrderedFrom compare list node fuel m (m.next n)

def listAppendOrdered (fuel : Nat) (m : Links) (list node : Nat) (compare : Nat → Nat → Int) : Option Links :=
  appendOrderedFrom compare list node fuel m (m.next list)

def listRemove (m : Links) (node : Nat) : Links × Nat :=
  let m := { m with next := update m.next (m.prev node) (m.next node) }
  let m := { m with prev := update m.prev (m.next node) (m.prev node) }
  (m,m.next node)

def Link (m : Links) (a b : Nat) : Prop := m.next a = b ∧ m.prev b = a

structure Seq (m : Links) (list : Nat) (l : List Nat) : Prop where
  nodup : (list :: l).Nodup
  chain : List.IsChain (Link m) (list :: (l ++ [list]))

def splice (m : Links) (a node b : Nat) : Links where
  prev := update (update m.prev node a) b node
  next := update (update m.next node b) a node

structure Becomes (m m' : Links) (list node : Nat) (l l' : List Nat) : Prop where
  seq : Seq m' list l'
  others : ∀ list' k, Seq m list' k → (∀ x ∈ list' :: k, x ∉ node :: list :: l) → Seq m' list' k

variable {m m' : Links} {list node x a b : Nat} {l k p q : List Nat}

lemma chain_congr (h : List.IsChain (Link m) l) (hn : ∀ x ∈ l.dropLast, m'.next x = m.next x)
    (hp : ∀ x ∈ l.tail, m'.prev x = m.prev x) : List.IsChain (Link m') l := by
  induction l with
  | nil => exact .nil
  | cons x l ih =>
    cases l with
    | nil => exact .singleton x
    | cons y l =>
      obtain ⟨hxy,hl⟩ := isChain_cons_cons.mp h
      refine isChain_cons_cons.mpr ⟨⟨(hn x (by simp)).trans hxy.1,(hp y (by simp)).trans hxy.2⟩,?_⟩
      exact ih hl (fun z hz => hn z (by simp [hz])) (fun z hz => hp z (by simp [List.mem_of_mem_tail hz]))

lemma Seq.congr (h : Seq m list l) (he : ∀ x ∈ list :: l, m'.next x = m.next x ∧ m'.prev x = m.prev x) :
    Seq m' list l := by
  refine ⟨h.nodup,chain_congr h.chain (fun x hx => (he x ?_).1) (fun x hx => (he x ?_).2)⟩
  · rwa [← cons_append,List.dropLast_concat] at hx
  · simpa [or_comm] using hx

structure Place (list : Nat) (p q : List Nat) (a b : Nat) : Prop where
  last : (list :: p).getLast? = some a
  first : (q ++ [list]).head? = some b

lemma Seq.place (h : Seq m list (p ++ q)) : ∃ a b, Place list p q a b ∧ Link m a b := by
  obtain ⟨a,ha⟩ := Option.isSome_iff_exists.mp (List.getLast?_isSome.mpr (List.cons_ne_nil list p))
  obtain ⟨b,hb⟩ := Option.isSome_iff_exists.mp (List.isSome_head?.mpr (show q ++ [list] ≠ [] by simp))
  have hchain := h.chain
  rw [append_assoc,← cons_append] at hchain
  exact ⟨a,b,⟨ha,hb⟩,(List.isChain_append.mp hchain).2.2 a ha b hb⟩

lemma Place.facts (h : Place list p q a b) (hnd : (list :: (p ++ q)).Nodup) :
    (a ∈ list :: p ∧ b ∈ list :: q) ∧ (∀ x ∈ (list :: p).dropLast, x ≠ a) ∧ (∀ x ∈ q, x ≠ a) ∧ (∀ x ∈ p, x ≠ b) ∧
      ∀ x ∈ (q ++ [list]).tail, x ≠ b := by
  obtain ⟨p',hp⟩ := List.getLast?_eq_some_iff.mp h.last
  obtain ⟨q',hq⟩ := List.head?_eq_some_iff.mp h.first
  have hleft : (p' ++ a :: q).Nodup := by
    rwa [← cons_append,hp,append_assoc,List.singleton_append] at hnd
  have hright : (p ++ b :: q').Nodup := by
    rw [← hq,← append_assoc]
    exact (List.perm_append_singleton list (p ++ q)).nodup_iff.mpr hnd
  have hb : b ∈ q ++ [list] := hq ▸ mem_cons_self
  have ha : a ∈ list :: p := hp ▸ by simp
  rw [hp,hq,List.dropLast_concat,List.tail_cons]
  simp only [nodup_append,nodup_cons] at hleft hright
  grind

lemma Seq.replace {r s : List Nat} (h : Seq m list (p ++ (r ++ q))) (hpl : Place list p q a b)
    (hnd : (list :: (p ++ (s ++ q))).Nodup) (hs : ∀ x ∈ s, x = node)
    (hnext : ∀ x, x ≠ a → x ∉ s → m'.next x = m.next x) (hprev : ∀ x, x ≠ b → x ∉ s → m'.prev x = m.prev x)
    (hmid : List.IsChain (Link m') (a :: (s ++ [b]))) : Becomes m m' list node (p ++ (r ++ q)) (p ++ (s ++ q)) := by
  have hsub : (list :: (p ++ q)).Nodup :=
    h.nodup.sublist (((List.sublist_append_right r q).append_left p).cons_cons list)
  obtain ⟨⟨ha,hb⟩,h1,h2,h3,h4⟩ := hpl.facts hsub
  have hout : ∀ x ∈ list :: (p ++ q), x ∉ s := by
    simp only [nodup_cons,nodup_append,mem_append] at hnd
    grind
  have hchain : List.IsChain (Link m) ((list :: p) ++ (r ++ (q ++ [list]))) := by simpa using h.chain
  have hbefore : List.IsChain (Link m') (list :: p) := chain_congr hchain.left_of_append
    (fun x hx => hnext x (h1 x hx) (hout x (by have := List.mem_of_mem_dropLast hx; grind)))
    (fun x hx => hprev x (h3 x hx) (hout x (by simp [show x ∈ p from hx])))
  have hbehind : List.IsChain (Link m') (q ++ [list]) := chain_congr hchain.right_of_append.right_of_append
    (fun x hx => by rw [List.dropLast_concat] at hx; exact hnext x (h2 x hx) (hout x (by simp [hx])))
    (fun x hx => hprev x (h4 x hx) (hout x (by have := List.mem_of_mem_tail hx; grind)))
  refine ⟨⟨hnd,?_⟩,fun list' k hk hd => hk.congr fun x hx => ?_⟩
  · obtain ⟨p',hp⟩ := List.getLast?_eq_some_iff.mp hpl.last
    obtain ⟨q',hq⟩ := List.head?_eq_some_iff.mp hpl.first
    rw [append_assoc,append_assoc,← cons_append,hp,hq,append_assoc,List.singleton_append,List.isChain_split]
    have htail : List.IsChain (Link m') ((a :: s) ++ b :: q') := List.isChain_split.mpr ⟨hmid,hq ▸ hbehind⟩
    exact ⟨hp ▸ hbefore,htail⟩
  · have hx' := hd x hx
    have hxs : x ∉ s := fun hm => hx' (hs x hm ▸ mem_cons_self)
    exact ⟨hnext x (by grind) hxs,hprev x (by grind) hxs⟩

lemma Seq.insert (h : Seq m list (p ++ q)) (hnode : node ∉ list :: (p ++ q)) (hpl : Place list p q a b) :
    Becomes m (splice m a node b) list node (p ++ q) (p ++ node :: q) := by
  obtain ⟨ha,hb⟩ := (hpl.facts h.nodup).1
  have hna : node ≠ a := by grind
  have hnb : node ≠ b := by grind
  have hperm : (list :: (p ++ node :: q)).Perm (node :: list :: (p ++ q)) :=
    (List.perm_middle.cons list).trans (List.Perm.swap node list _)
  refine Seq.replace (r := []) (s := [node]) h hpl (hperm.nodup_iff.mpr (nodup_cons.mpr ⟨hnode,h.nodup⟩)) (by simp)
    (fun x hx hs => ?_) (fun x hx hs => ?_) ?_
  · simp [splice,hx,List.mem_singleton.not.mp hs]
  · simp [splice,hx,List.mem_singleton.not.mp hs]
  · simp [splice,Link,hna,hnb]

lemma listAppend_eq (h : Seq m list l) (hnode : node ∉ list :: l) :
    listAppend m list node = splice m (m.prev list) node list ∧ Place list l [] (m.prev list) list := by
  have h' : Seq m list (l ++ []) := by rwa [append_nil]
  obtain ⟨a,b,hpl,hab⟩ := h'.place
  cases hpl.first
  have ha : a ∈ list :: l := (hpl.facts h'.nodup).1.1
  have hna : a ≠ node := fun he => hnode (he ▸ ha)
  have hempty : listEmpty m list = true → a = list := fun he => by
    simp only [listEmpty,Bool.and_eq_true,decide_eq_true_eq] at he
    exact hab.2.symm.trans he.1
  rw [hab.2]
  refine ⟨?_,hpl⟩
  cases he : listEmpty m list with
  | true =>
    cases hempty he
    simp [listAppend,he,splice,hab.2,update_comm hna]
  | false => simp [listAppend,he,splice,hab.2,update_comm hna]

lemma Seq.append (h : Seq m list l) (hnode : node ∉ list :: l) :
    Becomes m (listAppend m list node) list node l (l ++ [node]) := by
  obtain ⟨he,hpl⟩ := listAppend_eq h hnode
  have h' : Seq m list (l ++ []) := by rwa [append_nil]
  have := h'.insert (by rwa [append_nil]) hpl
  rwa [append_nil,← he] at this

lemma Seq.appendOrderedFrom {fuel : Nat} (compare : Nat → Nat → Int) (h : Seq m list (p ++ q))
    (hnode : node ∉ list :: (p ++ q)) (hpl : (q ++ [list]).head? = some x) (hfuel : q.length < fuel) :
    ∃ m', appendOrderedFrom compare list node fuel m x = some m' ∧ Becomes m m' list node (p ++ q)
      (p ++ q.takeWhile (fun y => ¬compare y node > 0) ++ node :: q.dropWhile fun y => ¬compare y node > 0) := by
  induction q generalizing p x fuel with
  | nil =>
    cases hpl
    obtain ⟨fuel,rfl⟩ : ∃ n, fuel = n + 1 := ⟨fuel - 1,by omega⟩
    simp only [append_nil] at h hnode ⊢
    exact ⟨_,by rw [IntrusiveList.appendOrderedFrom,if_pos rfl],by simpa using h.append hnode⟩
  | cons y q ih =>
    cases hpl
    obtain ⟨fuel,rfl⟩ : ∃ n, fuel = n + 1 := ⟨fuel - 1,by omega⟩
    have hne : y ≠ list := by
      have := h.nodup
      simp only [nodup_cons,mem_append,mem_cons] at this
      grind
    rw [IntrusiveList.appendOrderedFrom,if_neg hne]
    by_cases hc : compare y node > 0
    · obtain ⟨a,b,hpl,hab⟩ := h.place
      cases hpl.first
      have hna : a ≠ node := fun he => hnode (he ▸ by have := (hpl.facts h.nodup).1.1; grind)
      have hny : y ≠ node := fun he => hnode (he ▸ by simp)
      have he : insertBefore m y node = splice m a node y := by
        simp [insertBefore,splice,hab.2,hny]
      rw [if_pos hc,he]
      exact ⟨_,rfl,by simpa [hc] using h.insert hnode hpl⟩
    · rw [if_neg hc]
      have h' : Seq m list ((p ++ [y]) ++ q) := by simpa using h
      obtain ⟨a,b,hpl,hab⟩ := h'.place
      have hay : a = y := by
        have := hpl.last
        rw [← cons_append,List.getLast?_concat] at this
        exact (Option.some.inj this).symm
      rw [show m.next y = b from hay ▸ hab.1]
      have := ih h' (by simpa using hnode) hpl.first (by simpa using hfuel)
      simpa [List.takeWhile_cons,List.dropWhile_cons,Int.not_lt.mp hc] using this

lemma Seq.remove (h : Seq m list (p ++ x :: q)) :
    Becomes m (listRemove m x).1 list x (p ++ x :: q) (p ++ q) ∧ (q ++ [list]).head? = some (listRemove m x).2 := by
  obtain ⟨a,y,hpa,hax⟩ := h.place
  cases hpa.first
  have h' : Seq m list ((p ++ [x]) ++ q) := by simpa using h
  obtain ⟨z,b,hpb,hxb⟩ := h'.place
  have hzx : z = x := by
    have := hpb.last
    rw [← cons_append,List.getLast?_concat] at this
    exact (Option.some.inj this).symm
  subst hzx
  have hnd : (list :: (p ++ q)).Nodup := by
    refine h.nodup.sublist ?_
    exact (List.Sublist.append_left (List.sublist_cons_self _ _) p).cons_cons list
  have hpl : Place list p q a b := ⟨hpa.last,hpb.first⟩
  have hza : z ≠ a := by
    have ha := (hpl.facts hnd).1.1
    have := h.nodup
    simp only [nodup_cons,nodup_append,mem_append,mem_cons] at this
    grind
  have heq : listRemove m z = (⟨update m.prev b a,update m.next a b⟩,b) := by
    simp [listRemove,hax.2,hxb.1,hza]
  rw [heq]
  refine ⟨Seq.replace (r := [z]) (s := []) h hpl hnd (by simp) (fun x hx _ => update_of_ne hx ..)
    (fun x hx _ => update_of_ne hx ..) ?_,hpb.first⟩
  simp [Link]

lemma Seq.empty_iff (h : Seq m list l) : listEmpty m list = true ↔ l = [] := by
  cases l with
  | nil =>
    have hlink := (isChain_cons_cons.mp h.chain).1
    simp [listEmpty,hlink.1,hlink.2]
  | cons x l =>
    have hnext := (isChain_cons_cons.mp h.chain).1.1
    have hne : x ≠ list := fun he => (nodup_cons.mp h.nodup).1 (he ▸ mem_cons_self)
    simp [listEmpty,hnext,hne]

theorem list_is_a_sequence (h : Seq m list l) (hnode : node ∉ list :: l) (compare : Nat → Nat → Int) :
    (listEmpty m list = true ↔ l = []) ∧ Becomes m (listAppend m list node) list node l (l ++ [node]) ∧
    (∀ fuel, l.length < fuel → ∃ m', listAppendOrdered fuel m list node compare = some m' ∧
      Becomes m m' list node l (l.takeWhile (fun y => ¬compare y node > 0) ++
        node :: l.dropWhile fun y => ¬compare y node > 0)) ∧
    ∀ p x q, l = p ++ x :: q →
      Becomes m (listRemove m x).1 list x l (p ++ q) ∧ (q ++ [list]).head? = some (listRemove m x).2 := by
  refine ⟨h.empty_iff,h.append hnode,fun fuel hf => ?_,fun p x q hl => ?_⟩
  · obtain ⟨x,hx⟩ := Option.isSome_iff_exists.mp (List.isSome_head?.mpr (show l ++ [list] ≠ [] by simp))
    have hnext : m.next list = x := by
      obtain ⟨a,b,hpl,hab⟩ := Seq.place (p := []) h
      cases hpl.last
      cases hpl.first.symm.trans hx
      exact hab.1
    rw [listAppendOrdered,hnext]
    simpa using Seq.appendOrderedFrom (p := []) compare h hnode hx hf
  · subst hl
    exact h.remove

theorem list_is_a_sequence_two : ∃ m, Seq m 0 [1,2] ∧
    Becomes m (listAppend m 0 3) 0 3 [1,2] [1,2,3] := by
  have h : Seq ⟨fun x => (x + 2) % 3,fun x => (x + 1) % 3⟩ 0 [1,2] := ⟨by decide,by simp [Link]⟩
  exact ⟨_,h,(list_is_a_sequence h (show 3 ∉ [0,1,2] by decide) fun _ _ => 0).2.1⟩

end MappedMemory.IntrusiveList
