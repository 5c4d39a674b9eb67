import MappedMemory.RadixTree.Removal

namespace MappedMemory.RadixTree

open Option (bind_congr bind_eq_some_iff some_inj)

def maxIndex32 (height : Nat) : Int := if height = 0 then -1 else (1 <<< (widthPower * height % 32) : Nat) - 1

def levelIndex32 (index level : Nat) : Nat := index >>> (level * widthPower % 32) &&& (1 <<< widthPower - 1)

def addLevels32 (index : Nat) : Nat → Tree → Supply → Option (Tree × Bool × Supply)
  | 0, _, _ => none
  | fuel + 1, t, supply =>
    if (index : Int) > maxIndex32 t.height then do
      let (t,ok,supply) ← addLevel t supply
      if ok then addLevels32 index fuel t supply else some (t,false,supply)
    else some (t,true,supply)

def descend32 (index : Nat) : Nat → Tree → Option Nat → Supply → Option (Tree × Option Nat × Supply)
  | 0, t, node, supply => some (t,node,supply)
  | _ + 1, t, none, supply => some (t,none,supply)
  | level + 1, t, some a, supply => do
    let node ← t.heap a
    match node.slots (levelIndex32 index (level + 1)) with
    | some child => descend32 index level t (some child) supply
    | none => do
      let (t,child,supply) ← nodeCreate t supply
      match child with
      | none => some (t,none,supply)
      | some child => do
        let (t,_) ← addChild t a (levelIndex32 index (level + 1)) child true
        descend32 index level t (some child) supply

def insert32 (fuel : Nat) (t : Tree) (index leaf : Nat) (supply : Supply) : Option (Tree × Status) := do
  let (t,ok,supply) ← addLevels32 index fuel t supply
  if ok then do
    let (t,node,_) ← descend32 index (t.height - 1) t t.rootNode supply
    match node with
    | none => some (t,.allocFailed)
    | some a => do
      let (t,ok) ← addChild t a (levelIndex32 index 0) leaf false
      some (t,if ok then .ok else .nodeExist)
  else some (t,.allocFailed)

variable {t u : Tree} {item : Nat → Nat → Option Nat} {i level fuel : Nat} {ok : Bool} {supply rest : Supply}
  {x : Option Nat}

lemma maxIndex32_lt (h : Nat) : maxIndex32 h < maxIndices := by
  have hcount : widthPower * h % 32 ≤ 30 := by
    simp only [widthPower]
    omega
  have hpow : 1 <<< (widthPower * h % 32) ≤ maxIndices := by
    rw [Nat.shiftLeft_eq,one_mul]
    exact Nat.pow_le_pow_right two_pos hcount
  rw [maxIndex32]
  split <;> omega

lemma maxIndex32_eq (h : t.height ≤ 5) : maxIndex32 t.height = maxIndex t := by
  rw [maxIndex32,maxIndex,Nat.mod_eq_of_lt (by simp only [widthPower]; omega)]

lemma levelIndex32_eq (h : level ≤ 5) : levelIndex32 i level = levelIndex i level := by
  rw [levelIndex32,levelIndex,Nat.mod_eq_of_lt (by simp only [widthPower]; omega)]

lemma addLevels32_eq (hi : i < maxIndices) (h : t.Shaped item) (hfive : t.height ≤ 5) :
    addLevels32 i fuel t supply = addLevels i fuel t supply := by
  induction fuel generalizing t item supply with
  | zero => rfl
  | succ fuel ih =>
    rw [addLevels32,addLevels,maxIndex32_eq hfive]
    split
    · rename_i hgt
      refine bind_congr fun r hr => ?_
      obtain ⟨u,ok,rest⟩ := r
      obtain ⟨item',hext,-,-,hheight⟩ := addLevel_extends (i := i) h hr
      have hlt := height_lt_of_gt hgt hi
      cases ok with
      | false => rfl
      | true => exact ih hext.shaped (by have := hheight rfl; omega)
    · rfl

lemma descend32_eq (h : level ≤ 5) : descend32 i level t x supply = descend i true level t x supply := by
  induction level generalizing t x supply with
  | zero => rfl
  | succ level ih =>
    cases x with
    | none => rfl
    | some a =>
      have hle : level ≤ 5 := Nat.le_of_succ_le h
      refine bind_congr fun n _ => ?_
      rw [levelIndex32_eq h]
      cases n.slots (levelIndex i (level + 1)) with
      | some child => exact ih hle
      | none =>
        refine bind_congr fun r _ => ?_
        obtain ⟨u,_ | child,rest⟩ := r
        · rfl
        · exact bind_congr fun _ _ => ih hle

lemma insert32_eq {leaf : Nat} (hi : i < maxIndices) (h : t.Shaped item) (hfive : t.height ≤ 5) :
    insert32 (i + 2) t i leaf supply = insert t i leaf supply := by
  rw [insert32,insert,addLevels32_eq hi h hfive]
  refine bind_congr fun r hr => ?_
  obtain ⟨u,ok,rest⟩ := r
  obtain ⟨-,-,hle,-⟩ := addLevels_extends h hi hfive hr
  cases ok with
  | false => rfl
  | true =>
    refine (congrArg (Option.bind · _) (descend32_eq (by omega))).trans (bind_congr fun r _ => ?_)
    obtain ⟨v,_ | a,rest⟩ := r
    · rfl
    · rw [levelIndex32_eq (Nat.zero_le 5)]

lemma nodeCreate_granted (hall : none ∉ supply) (hs : supply ≠ []) (h : nodeCreate t supply = some (u,x,rest)) :
    x ≠ none ∧ supply.length = rest.length + 1 ∧ none ∉ rest := by
  rcases supply with _ | ⟨_ | a,s⟩
  · exact absurd rfl hs
  · simp at hall
  · simp only [nodeCreate,Option.ite_none_left_eq_some,some_inj,Prod.mk_inj] at h
    obtain ⟨-,-,rfl,rfl⟩ := h
    exact ⟨by simp,rfl,fun hn => hall (List.mem_cons_of_mem _ hn)⟩

lemma addLevel_granted (hall : none ∉ supply) (hs : supply ≠ []) (h : addLevel t supply = some (u,ok,rest)) :
    ok = true ∧ supply.length = rest.length + 1 ∧ none ∉ rest := by
  obtain ⟨⟨v,x,s⟩,hv,h⟩ := bind_eq_some_iff.mp h
  obtain ⟨hx,hlen,hrest⟩ := nodeCreate_granted hall hs hv
  cases x with
  | none => exact absurd rfl hx
  | some b =>
    dsimp only at h
    split at h <;> (obtain ⟨w,-,h⟩ := bind_eq_some_iff.mp h; cases h; exact ⟨rfl,hlen,hrest⟩)

lemma addLevels_granted (hi : i < maxIndices) (h : t.Shaped item) (hall : none ∉ supply)
    (hlen : 9 ≤ t.height + supply.length) (ha : addLevels i fuel t supply = some (u,ok,rest)) :
    ok = true ∧ none ∉ rest ∧ 9 ≤ u.height + rest.length := by
  induction fuel generalizing t item supply with
  | zero => exact nomatch ha
  | succ fuel ih =>
    rw [addLevels] at ha
    split at ha
    · rename_i hgt
      have hlt := height_lt_of_gt hgt hi
      obtain ⟨⟨v,ok',s⟩,hv,ha⟩ := bind_eq_some_iff.mp ha
      obtain ⟨rfl,hone,hs⟩ := addLevel_granted hall (List.ne_nil_of_length_pos (by omega)) hv
      obtain ⟨item',hext,-,-,hheight⟩ := addLevel_extends (i := i) h hv
      exact ih hext.shaped hs (by have := hheight rfl; omega) ha
    · cases ha
      exact ⟨rfl,hall,hlen⟩

lemma descend_granted {a : Nat} (hall : none ∉ supply) (hlen : level ≤ supply.length)
    (h : descend i true level t (some a) supply = some (u,x,rest)) : x ≠ none := by
  induction level generalizing t a supply with
  | zero =>
    cases h
    exact nofun
  | succ level ih =>
    obtain ⟨n,-,h⟩ := bind_eq_some_iff.mp h
    split at h
    · exact ih hall (by omega) h
    · rw [if_pos rfl] at h
      obtain ⟨⟨v,y,s⟩,hv,h⟩ := bind_eq_some_iff.mp h
      obtain ⟨hy,hone,hs⟩ := nodeCreate_granted hall (List.ne_nil_of_length_pos (by omega)) hv
      cases y with
      | none => exact absurd rfl hy
      | some b =>
        obtain ⟨w,-,h⟩ := bind_eq_some_iff.mp h
        exact ih hs (by omega) h

lemma insert_granted {leaf : Nat} {v : Tree} {status : Status} (hi : i < maxIndices) (h : t.Shaped item)
    (hfive : t.height ≤ 5) (hall : none ∉ supply) (hlen : 9 ≤ supply.length)
    (ha : insert t i leaf supply = some (v,status)) : status ≠ .allocFailed := by
  obtain ⟨⟨u,ok,rest⟩,hu,ha⟩ := bind_eq_some_iff.mp ha
  obtain ⟨rfl,hrest,hlen'⟩ := addLevels_granted hi h hall (by omega) hu
  obtain ⟨item',hext,hle,-,-,hdone,-⟩ := addLevels_extends h hi hfive hu
  obtain ⟨level,r,hl,hr,-⟩ := hext.shaped.root (hdone rfl)
  simp only [if_true,findParent,hl,hr,Nat.add_sub_cancel] at ha
  obtain ⟨⟨w,x,s⟩,hw,ha⟩ := bind_eq_some_iff.mp ha
  cases x with
  | none => exact absurd rfl (descend_granted hrest (by omega) hw)
  | some b =>
    obtain ⟨⟨z,ok⟩,-,ha⟩ := bind_eq_some_iff.mp ha
    cases ha
    cases ok <;> simp

def Inserts (t : Tree) (index leaf : Nat) (supply : Supply) : Prop :=
  ∃ fuel u rest v status, addLevels32 index fuel t supply = some (u,true,rest) ∧
    (index : Int) ≤ maxIndex32 u.height ∧
    (∀ level < u.height, levelIndex32 index level = index / width ^ level % width) ∧
    insert32 fuel t index leaf supply = some (v,status) ∧
    (lookup t index = some none → status = .ok ∧ lookup v index = some (some leaf))

theorem insert_terminates_iff {r : Run} {ops : List Op} (hrun : run ops = some r) (index leaf : Nat)
    (hfresh : Fresh r.tree.heap supply) (hall : none ∉ supply) (hlen : 9 ≤ supply.length) :
    Inserts r.tree index leaf supply ↔ index < maxIndices := by
  constructor
  · rintro ⟨fuel,u,rest,v,status,-,hroom,-⟩
    have := maxIndex32_lt u.height
    omega
  · intro hi
    obtain ⟨⟨item,h,hmap⟩,hfive⟩ := Inv.run hrun
    obtain ⟨⟨u,ok,rest⟩,hu⟩ := Option.isSome_iff_exists.mp
      (addLevels_total h hfresh (Nat.succ_pos (index + 1)) (Nat.le_add_right ..))
    obtain ⟨rfl,-,-⟩ := addLevels_granted hi h hall (by omega) hu
    obtain ⟨-,-,hle,-,-,hdone,-⟩ := addLevels_extends h hi hfive hu
    obtain ⟨v,status,hv,hexist,-,hlook⟩ := (Inv.run hrun).laws.inserts index hi leaf supply hfresh
    refine ⟨index + 2,u,rest,v,status,by rw [addLevels32_eq hi h hfive,hu],?_,fun level hl => ?_,
      by rw [insert32_eq hi h hfive,hv],fun hnone => ?_⟩
    · rw [maxIndex32_eq hle]
      exact Int.not_lt.mp (hdone rfl)
    · rw [levelIndex32_eq (by omega),levelIndex_eq,above_eq,digit]
    · rw [(Inv.run hrun).laws.lookups index hi,some_inj] at hnone
      have hok : status = .ok := by
        have hne := insert_granted hi h hfive hall hlen hv
        cases status with
        | ok => rfl
        | allocFailed => exact absurd rfl hne
        | nodeExist => exact absurd hnone (hexist.mp rfl)
      refine ⟨hok,(hlook index hi).trans ?_⟩
      rw [if_pos ⟨hok,rfl⟩]

theorem insert_terminates_first : run [] = some ⟨construct,fun _ => none⟩ ∧
    Inserts construct 70 7 [some 1,some 2,some 3,some 4,some 5,some 6,some 7,some 8,some 9] := by
  have hrun : run [] = some ⟨construct,fun _ => none⟩ := rfl
  exact ⟨hrun,(insert_terminates_iff hrun 70 7 ⟨by decide,fun _ _ => rfl⟩ (by decide) (by decide)).mpr (by decide)⟩

theorem insert_never_ends : maxIndex32 5 = 2^30 - 1 ∧ maxIndex32 6 = 15 ∧ (∀ height, (2^30 : Int) > maxIndex32 height) ∧
    (addLevels32 (2^30) 8 construct [some 1,some 2,some 3,some 4,some 5,some 6,some 7,some 8]).isNone :=
  ⟨by decide,by decide,maxIndex32_lt,by decide⟩

end MappedMemory.RadixTree
