import MappedMemory.Vfs.Icache

namespace MappedMemory.Icache

open Function (update update_eq_self update_idem update_of_ne update_self)
open Routine

variable {s t : SuperBlock} {a b inum : Nat} {o o' : Inode} {g : Grants} {rest : List Nat}

def refs (s : SuperBlock) (a : Nat) : Nat := s.holders.count a + s.cleanup.count a

structure Exact (s : SuperBlock) : Prop where
  cached : ∀ i a, s.sIcache i = some a → ∃ o, s.inodes a = some o ∧ o.iInum = i
  own : ∀ a o, s.inodes a = some o → s.sIcache o.iInum = some a
  num : ∀ a o, s.inodes a = some o → 0 < o.iInum
  pos : ∀ a o, s.inodes a = some o → 0 < o.iRef
  count : ∀ a o, s.inodes a = some o → o.iRef = refs s a
  live : ∀ a, 0 < refs s a → ∃ o, s.inodes a = some o
  addr : ∀ a o, s.inodes a = some o → a < s.nextAddr
  valid : ∀ a o, s.inodes a = some o → o.valid = true

lemma kassert_ok {p : Bool} (hp : p = true) : kassert p s = some ((),s) := if_pos hp

lemma inodeAt_ok (h : s.inodes a = some o) : inodeAt a s = some (o,s) := by
  rw [inodeAt,h]
  rfl

lemma Exact.put (h : Exact s) (hinodes : t.inodes = update s.inodes a (some o))
    (hcached : ∀ i b, t.sIcache i = some b → b = a ∧ o.iInum = i ∨ b ≠ a ∧ s.sIcache i = some b)
    (hown : ∀ b p, t.inodes b = some p → t.sIcache p.iInum = some b) (hnum : 0 < o.iInum) (hpos : 0 < o.iRef)
    (hr : o.iRef = refs t a) (hother : ∀ b, b ≠ a → refs t b = refs s b) (ha : a < t.nextAddr)
    (hnext : s.nextAddr ≤ t.nextAddr) (hv : o.valid = true) : Exact t := by
  have hself : t.inodes a = some o := by rw [hinodes,update_self]
  have hne : ∀ {b}, b ≠ a → t.inodes b = s.inodes b := fun hb => by rw [hinodes,update_of_ne hb]
  have hall {P : Nat → Inode → Prop} (hnew : P a o) (hold : ∀ b p, b ≠ a → s.inodes b = some p → P b p) :
      ∀ b p, t.inodes b = some p → P b p := by
    intro b p hb
    by_cases he : b = a
    · subst he
      exact Option.some.inj (hself.symm.trans hb) ▸ hnew
    · exact hold b p he ((hne he).symm.trans hb)
  refine ⟨fun i b hb => ?_,hown,hall hnum fun b p _ => h.num b p,hall hpos fun b p _ => h.pos b p,
    hall hr fun b p he hb => (h.count b p hb).trans (hother b he).symm,fun b hb => ?_,
    hall ha fun b p _ hb => (h.addr b p hb).trans_le hnext,hall hv fun b p _ => h.valid b p⟩
  · rcases hcached i b hb with ⟨rfl,hi⟩ | ⟨he,hb⟩
    · exact ⟨o,hself,hi⟩
    · obtain ⟨p,hp,hpi⟩ := h.cached i b hb
      exact ⟨p,(hne he).trans hp,hpi⟩
  · by_cases he : b = a
    · exact ⟨o,he ▸ hself⟩
    · obtain ⟨p,hp⟩ := h.live b (hother b he ▸ hb)
      exact ⟨p,(hne he).trans hp⟩

lemma Exact.change (o' : Inode) (h : Exact s) (ha : s.inodes a = some o) (hi : o'.iInum = o.iInum) (hv : o'.valid = true)
    (hpos : 0 < o'.iRef) (hcache : t.sIcache = s.sIcache) (hnext : t.nextAddr = s.nextAddr)
    (hinodes : t.inodes = update s.inodes a (some o')) (hr : o'.iRef = refs t a)
    (hother : ∀ b, b ≠ a → refs t b = refs s b) : Exact t := by
  refine h.put hinodes (fun i b hb => ?_) (fun b p hb => ?_) (hi ▸ h.num a o ha) hpos hr hother (hnext ▸ h.addr a o ha)
    hnext.ge hv
  · rw [hcache] at hb
    by_cases he : b = a
    · subst he
      obtain ⟨p,hp,hpi⟩ := h.cached i b hb
      exact .inl ⟨rfl,by rw [hi,← hpi,Option.some.inj (ha.symm.trans hp)]⟩
    · exact .inr ⟨he,hb⟩
  · rw [hcache]
    by_cases he : b = a
    · subst he
      rw [hinodes,update_self] at hb
      rw [← Option.some.inj hb,hi]
      exact h.own b o ha
    · exact h.own b p (by rwa [hinodes,update_of_ne he] at hb)

lemma Exact.remove (h : Exact s) (ha : s.inodes a = some o) (hnext : t.nextAddr = s.nextAddr)
    (hcache : t.sIcache = update s.sIcache o.iInum none)
    (hinodes : t.inodes = update s.inodes a none) (hr : refs t a = 0)
    (hother : ∀ b, b ≠ a → refs t b = refs s b) : Exact t := by
  have hcase : ∀ {b p}, t.inodes b = some p → b ≠ a ∧ s.inodes b = some p := by
    intro b p hb
    by_cases he : b = a
    · subst he
      rw [hinodes,update_self] at hb
      cases hb
    · rw [hinodes,update_of_ne he] at hb
      exact ⟨he,hb⟩
  refine ⟨?_,?_,fun b p hb => h.num b p (hcase hb).2,fun b p hb => h.pos b p (hcase hb).2,?_,?_,?_,
    fun b p hb => h.valid b p (hcase hb).2⟩
  · intro i b hb
    by_cases he : i = o.iInum
    · subst he
      rw [hcache,update_self] at hb
      cases hb
    · rw [hcache,update_of_ne he] at hb
      obtain ⟨p,hp,hpi⟩ := h.cached i b hb
      have hba : b ≠ a := by
        rintro rfl
        exact he (by rw [← hpi,Option.some.inj (ha.symm.trans hp)])
      exact ⟨p,by rw [hinodes,update_of_ne hba]; exact hp,hpi⟩
  · intro b p hb
    obtain ⟨he,hb⟩ := hcase hb
    have hne : p.iInum ≠ o.iInum := by
      intro hi
      have := h.own b p hb
      rw [hi,h.own a o ha] at this
      exact he (Option.some.inj this).symm
    rw [hcache,update_of_ne hne]
    exact h.own b p hb
  · intro b p hb
    obtain ⟨he,hb⟩ := hcase hb
    rw [hother b he]
    exact h.count b p hb
  · intro b hb
    have he : b ≠ a := by
      rintro rfl
      exact absurd hr (Nat.ne_of_gt hb)
    rw [hother b he] at hb
    obtain ⟨p,hp⟩ := h.live b hb
    exact ⟨p,by rw [hinodes,update_of_ne he]; exact hp⟩
  · intro b p hb
    rw [hnext]
    exact h.addr b p (hcase hb).2

def dropped (s : SuperBlock) (a : Nat) (o : Inode) : SuperBlock :=
  if o.iRef - 1 = 0 then
    if o.valid && (o.iNlink = 0 || o.dirty) then { s with cleanup := s.cleanup ++ [a] }
    else { s with
      sIcache := update s.sIcache o.iInum none
      inodes := update s.inodes a none }
  else { s with inodes := update s.inodes a (some { o with iRef := o.iRef - 1 }) }

lemma fsReleaseInode_run (ha : s.inodes a = some o) (hi : 0 < o.iInum) (hr : 0 < o.iRef)
    (hc : s.sIcache o.iInum = some a) : fsReleaseInode a s = some ((),dropped s a o) := by
  rw [fsReleaseInode,bind_of_some (inodeAt_ok ha),bind_of_some (kassert_ok (by simpa using hi)),
    bind_of_some (kassert_ok (by simpa using hr))]
  simp only [setInode,modify_bind,dropped]
  split
  · split
    · have hone : o.iRef - 1 + 1 = o.iRef := by omega
      have hsame : update s.inodes a (some o) = s.inodes := by rw [← ha,update_eq_self]
      rw [modify_bind]
      change some (PUnit.unit,_) = _
      simp only [hone,update_idem,hsame]
    · rename_i hzero _
      simp only [get_bind]
      rw [bind_of_some (kassert_ok (by simpa using hc))]
      simp only [set_bind]
      rw [fsFreeInode,bind_of_some (inodeAt_ok (update_self ..)),
        bind_of_some (kassert_ok (by simpa using hzero))]
      simp [setInode,modify,modifyGet,MonadStateOf.modifyGet,StateT.modifyGet,pure]
  · rfl

lemma refs_erase (h : a ∈ s.holders) : (s.holders.erase a).count a + s.cleanup.count a + 1 = refs s a := by
  have := List.count_pos_iff.mpr h
  rw [List.count_erase_self,refs]
  omega

lemma fsReleaseInode_exact (h : Exact s) (ha : a ∈ s.holders) :
    ∃ t, fsReleaseInode a { s with holders := s.holders.erase a } = some ((),t) ∧ Exact t ∧
      t.holders = s.holders.erase a ∧ t.disk = s.disk := by
  obtain ⟨o,ho⟩ := h.live a (Nat.lt_of_lt_of_le (List.count_pos_iff.mpr ha) (Nat.le_add_right ..))
  have hcount := h.count a o ho
  have hrefs := refs_erase ha
  have hother : ∀ b, b ≠ a → (s.holders.erase a).count b = s.holders.count b := fun b hb =>
    List.count_erase_of_ne hb
  refine ⟨_,fsReleaseInode_run (s := { s with holders := s.holders.erase a }) ho (h.num a o ho) (h.pos a o ho)
    (h.own a o ho),?_,?_,?_⟩
  · unfold dropped
    split
    · rename_i hzero
      split
      · refine Exact.change o h ho rfl (h.valid a o ho) (h.pos a o ho) rfl rfl ?_ ?_ fun b hb => ?_
        · change s.inodes = _
          rw [← ho,update_eq_self]
        · rw [hcount,refs]
          change _ = (s.holders.erase a).count a + (s.cleanup ++ [a]).count a
          rw [List.count_append,List.count_singleton_self]
          rw [refs] at hrefs
          omega
        · change (s.holders.erase a).count b + (s.cleanup ++ [a]).count b = _
          rw [hother b hb,List.count_append,List.count_singleton,refs]
          simp [Ne.symm hb]
      · refine h.remove ho rfl rfl rfl ?_ fun b hb => ?_
        · change (s.holders.erase a).count a + s.cleanup.count a = 0
          omega
        · change (s.holders.erase a).count b + s.cleanup.count b = _
          rw [hother b hb,refs]
    · rename_i hmany
      refine Exact.change { o with iRef := o.iRef - 1 } h ho rfl (h.valid a o ho) ?_ rfl rfl rfl ?_ fun b hb => ?_
      · change 0 < o.iRef - 1
        omega
      · change o.iRef - 1 = (s.holders.erase a).count a + s.cleanup.count a
        omega
      · change (s.holders.erase a).count b + s.cleanup.count b = _
        rw [hother b hb,refs]
  · unfold dropped
    split
    · split <;> rfl
    · rfl
  · unfold dropped
    split
    · split <;> rfl
    · rfl

lemma Exact.fresh (h : Exact s) : s.inodes s.nextAddr = none := by
  cases ho : s.inodes s.nextAddr with
  | none => rfl
  | some o => exact absurd (h.addr _ o ho) (lt_irrefl _)

lemma Exact.refs_fresh (h : Exact s) : refs s s.nextAddr = 0 := by
  by_contra hne
  obtain ⟨o,ho⟩ := h.live s.nextAddr (Nat.pos_of_ne_zero hne)
  cases h.fresh.symm.trans ho

lemma Exact.insert (h : Exact s) (hfree : s.sIcache inum = none) (hi : o.iInum = inum) (hpos : 0 < inum)
    (hv : o.valid = true) (hr : o.iRef = 1) (hnext : t.nextAddr = s.nextAddr + 1)
    (hcache : t.sIcache = update s.sIcache inum (some s.nextAddr))
    (hinodes : t.inodes = update s.inodes s.nextAddr (some o))
    (hone : refs t s.nextAddr = 1) (hother : ∀ b, b ≠ s.nextAddr → refs t b = refs s b) : Exact t := by
  refine h.put hinodes (fun i b hb => ?_) (fun b p hb => ?_) (hi ▸ hpos) (hr ▸ Nat.one_pos) (hr.trans hone.symm) hother
    (by omega) (by omega) hv
  · rw [hcache] at hb
    by_cases he : i = inum
    · subst he
      rw [update_self] at hb
      exact .inl ⟨(Option.some.inj hb).symm,hi⟩
    · rw [update_of_ne he] at hb
      obtain ⟨p,hp,-⟩ := h.cached i b hb
      exact .inr ⟨(h.addr b p hp).ne,hb⟩
  · rw [hcache]
    by_cases he : b = s.nextAddr
    · subst he
      rw [hinodes,update_self] at hb
      rw [← Option.some.inj hb,hi,update_self]
    · rw [hinodes,update_of_ne he] at hb
      have hne : p.iInum ≠ inum := by
        rintro rfl
        cases hfree.symm.trans (h.own b p hb)
      rw [update_of_ne hne]
      exact h.own b p hb

def linkCount (s : SuperBlock) (inum : Nat) : Nat :=
  match s.sIcache inum with
  | none => (s.disk inum).nlink
  | some a => ((s.inodes a).map Inode.iNlink).getD 0

def newInode (inum : Nat) : Inode := { iInum := inum, iRef := 1, iNlink := 0, valid := false, dirty := false }

def entered (s : SuperBlock) (inum : Nat) : SuperBlock := { s with
  nextAddr := s.nextAddr + 1
  sIcache := update s.sIcache inum (some s.nextAddr)
  inodes := update s.inodes s.nextAddr (some (newInode inum)) }

lemma lookupInode_hit (hc : s.sIcache inum = some a) (ha : s.inodes a = some o) :
    lookupInode g inum s = some (some a,{ s with
      inodes := update s.inodes a (some { o with iRef := o.iRef + 1 }) }) := by
  rw [lookupInode,get_bind,hc]
  dsimp only
  rw [bind_of_some (inodeAt_ok ha)]
  rfl

lemma lookupInode_none (hc : s.sIcache inum = none) (hg : (g.inode && g.filems) = false) :
    lookupInode g inum s = some (none,s) := by
  have halloc : fsAllocInode g s = some (none,s) := by
    unfold fsAllocInode
    rcases Bool.and_eq_false_iff.mp hg with h | h
    · rw [h]
      rfl
    · rw [h]
      cases g.inode <;> rfl
  have hsfs : sfsAllocInode g s = some (none,s) := by
    rw [sfsAllocInode,bind_of_some halloc]
    rfl
  rw [lookupInode,get_bind,hc]
  dsimp only
  rw [bind_of_some hsfs]
  rfl

lemma lookupInode_miss (hc : s.sIcache inum = none) (hg : (g.inode && g.filems) = true) (hinfo : g.info = true)
    (hnode : g.node = true) : lookupInode g inum s = some (some s.nextAddr,entered s inum) := by
  obtain ⟨h1,h2⟩ := Bool.and_eq_true_iff.mp hg
  let u : SuperBlock := { s with
    nextAddr := s.nextAddr + 1
    inodes := update s.inodes s.nextAddr (some (newInode 0)) }
  have halloc : fsAllocInode g s = some (some s.nextAddr,u) := by
    rw [fsAllocInode,h1,h2]
    rfl
  have hsfs : sfsAllocInode g s = some (some s.nextAddr,u) := by
    rw [sfsAllocInode,bind_of_some halloc]
    simp [hinfo,pure_apply]
  rw [lookupInode,get_bind,hc]
  dsimp only
  rw [bind_of_some hsfs]
  dsimp only
  rw [bind_of_some (inodeAt_ok (s := u) (update_self ..))]
  simp only [setInode,modify_bind,hnode,unless_true,u,update_idem]
  rfl

inductive GetResult (s : SuperBlock) (inum : Nat) : Except Err Nat × SuperBlock → Prop
  | failed {t : SuperBlock} (exact : Exact t) (holders : t.holders = s.holders) :
      GetResult s inum (.error .noMem,t)
  | found {a : Nat} {o : Inode} {t : SuperBlock} (exact : Exact { t with holders := a :: t.holders })
      (holders : t.holders = s.holders) (inode : t.inodes a = some o) (num : o.iInum = inum)
      (links : o.iNlink = linkCount s inum) : GetResult s inum (.ok a,t)

lemma fsGetInode_result (h : Exact s) (hi : 0 < inum) (hinfo : g.info = true) (hnode : g.node = true) :
    ∃ r, fsGetInode g inum s = some r ∧ GetResult s inum r := by
  unfold fsGetInode
  cases hc : s.sIcache inum with
  | some a =>
    obtain ⟨o,ho,hnum⟩ := h.cached inum a hc
    let t : SuperBlock := { s with inodes := update s.inodes a (some { o with iRef := o.iRef + 1 }) }
    have hself : t.inodes a = some { o with iRef := o.iRef + 1 } := update_self ..
    rw [bind_of_some (lookupInode_hit hc ho)]
    dsimp only
    rw [bind_of_some (inodeAt_ok (s := t) hself)]
    simp only [h.valid a o ho,unless_true]
    refine ⟨_,rfl,.found (o := { o with iRef := o.iRef + 1 }) ?_ rfl hself hnum ?_⟩
    · refine Exact.change { o with iRef := o.iRef + 1 } h ho rfl (h.valid a o ho) (Nat.succ_pos _) rfl rfl rfl ?_
        fun b hb => ?_
      · change o.iRef + 1 = (a :: s.holders).count a + s.cleanup.count a
        rw [List.count_cons_self,h.count a o ho,refs]
        omega
      · change (a :: s.holders).count b + s.cleanup.count b = _
        rw [List.count_cons_of_ne (Ne.symm hb),refs]
    · rw [linkCount,hc]
      dsimp only
      rw [ho]
      rfl
  | none =>
    cases hg : g.inode && g.filems with
    | false =>
      rw [bind_of_some (lookupInode_none hc hg)]
      exact ⟨_,rfl,.failed h rfl⟩
    | true =>
      have hself : (entered s inum).inodes s.nextAddr = some (newInode inum) := update_self ..
      rw [bind_of_some (lookupInode_miss hc hg hinfo hnode)]
      dsimp only
      rw [bind_of_some (inodeAt_ok hself)]
      simp only [newInode,Bool.not_false,if_true]
      have hread : sfsReadInode g s.nextAddr (entered s inum) = some (g.read,if g.read then { entered s inum with
          inodes := update (entered s inum).inodes s.nextAddr
            (some { newInode inum with iNlink := (s.disk inum).nlink, valid := true }) } else entered s inum) := by
        have hnum : decide ((newInode inum).iInum ≠ 0) = true := decide_eq_true (Nat.ne_of_gt hi)
        have hclean : (!(newInode inum).dirty) = true := rfl
        rw [sfsReadInode,bind_of_some (inodeAt_ok hself),bind_of_some (kassert_ok hnum),bind_of_some (kassert_ok hclean)]
        cases g.read <;> rfl
      rw [bind_of_some hread]
      cases hr : g.read with
      | true =>
        refine ⟨_,rfl,.found (o := { newInode inum with iNlink := (s.disk inum).nlink, valid := true }) ?_ rfl
          (update_self ..) rfl ?_⟩
        · refine h.insert (o := { newInode inum with iNlink := (s.disk inum).nlink, valid := true }) hc rfl hi rfl rfl
            rfl rfl ?_ ?_ fun b hb => ?_
          · change update (update s.inodes _ _) _ _ = _
            rw [update_idem]
          · change (s.nextAddr :: s.holders).count s.nextAddr + s.cleanup.count s.nextAddr = 1
            have := h.refs_fresh
            rw [refs] at this
            rw [List.count_cons_self]
            omega
          · change (s.nextAddr :: s.holders).count b + s.cleanup.count b = _
            rw [List.count_cons_of_ne (Ne.symm hb),refs]
        · rw [linkCount,hc]
      | false =>
        have hrel := fsReleaseInode_run (s := entered s inum) hself hi Nat.one_pos (update_self ..)
        have hback : dropped (entered s inum) s.nextAddr (newInode inum) = { s with nextAddr := s.nextAddr + 1 } := by
          have h1 := h.fresh
          simp only [dropped,newInode,entered,Nat.sub_self,if_true,Bool.false_and,Bool.false_eq_true,if_false,
            update_idem]
          rw [← hc,← h1,update_eq_self,update_eq_self]
        simp only [Bool.not_false,if_true]
        rw [hback] at hrel
        refine ⟨(.error .noMem,{ s with nextAddr := s.nextAddr + 1 }),
          bind_of_some (f := fun _ => pure (Except.error Err.noMem)) hrel,.failed ?_ rfl⟩
        exact ⟨h.cached,h.own,h.num,h.pos,h.count,h.live,fun a o ho => Nat.lt_succ_of_lt (h.addr a o ho),h.valid⟩

lemma Exact.congr (h : Exact s) (hi : t.inodes = s.inodes) (hc : t.sIcache = s.sIcache)
    (hn : t.nextAddr = s.nextAddr) (hr : ∀ a, refs t a = refs s a) : Exact t where
  cached := by rw [hi,hc]; exact h.cached
  own := by rw [hi,hc]; exact h.own
  num := by rw [hi]; exact h.num
  pos := by rw [hi]; exact h.pos
  count a o ha := by rw [hr]; exact h.count a o (hi ▸ ha)
  live a ha := by rw [hi]; exact h.live a (hr a ▸ ha)
  addr := by rw [hi,hn]; exact h.addr
  valid := by rw [hi]; exact h.valid

lemma sfsWriteInode_run (ha : s.inodes a = some o) (hi : 0 < o.iInum) :
    sfsWriteInode a s = some ((),{ s with
      disk := update s.disk o.iInum { s.disk o.iInum with nlink := o.iNlink }
      inodes := update s.inodes a (some { o with dirty := false }) }) := by
  rw [sfsWriteInode,bind_of_some (inodeAt_ok ha),bind_of_some (kassert_ok (decide_eq_true (Nat.ne_of_gt hi)))]
  rfl

lemma release_own (h : Exact { s with holders := a :: s.holders }) :
    ∃ t, fsReleaseInode a s = some ((),t) ∧ Exact t ∧ t.holders = s.holders := by
  obtain ⟨t,hrun,hexact,hholders,-⟩ := fsReleaseInode_exact h List.mem_cons_self
  simp only [List.erase_cons_head] at hrun hholders
  exact ⟨t,hrun,hexact,hholders⟩

lemma unlinkInode_exact (h : Exact s) (hi : 0 < inum) (hinfo : g.info = true) (hnode : g.node = true)
    (hacq : g.acquire = true) (hl : 0 < linkCount s inum) :
    ∃ e t, unlinkInode g inum s = some (e,t) ∧ Exact t ∧ t.holders = s.holders := by
  obtain ⟨r,hget,hres⟩ := fsGetInode_result h hi hinfo hnode
  rw [unlinkInode,bind_of_some hget]
  cases hres with
  | failed hexact hholders => exact ⟨_,_,rfl,hexact,hholders⟩
  | @found a o u hexact hholders hinode hnum hlinks =>
    have hpos : 0 < o.iInum := hnum ▸ hi
    have hlink : 0 < o.iNlink := hlinks ▸ hl
    let o1 : Inode := { o with iNlink := o.iNlink - 1, dirty := true }
    let u1 : SuperBlock := { u with inodes := update u.inodes a (some o1) }
    let u2 : SuperBlock := { u with
      disk := update u.disk o.iInum { u.disk o.iInum with nlink := o.iNlink - 1 }
      inodes := update u.inodes a (some { o1 with dirty := false }) }
    have hwrite : sfsWriteInode a u1 = some ((),u2) := by
      refine (sfsWriteInode_run (o := o1) (update_self ..) hpos).trans ?_
      simp [u1,u2,o1]
    have hkept : Exact { u2 with holders := a :: u2.holders } :=
      Exact.change { o1 with dirty := false } hexact hinode rfl (hexact.valid a o hinode) (hexact.pos a o hinode)
        rfl rfl rfl (hexact.count a o hinode) fun _ _ => rfl
    obtain ⟨t,hrel,ht,hth⟩ := release_own hkept
    refine ⟨.ok (),t,?_,ht,hth.trans hholders⟩
    simp only [hacq,unless_true]
    rw [bind_of_some (inodeAt_ok hinode),bind_of_some (kassert_ok (decide_eq_true hpos)),
      bind_of_some (kassert_ok (decide_eq_true hlink)),bind_of_some (kassert_ok (hexact.valid a o hinode))]
    simp only [setInode,modify_bind]
    rw [bind_of_some hwrite]
    exact bind_of_some (f := fun _ => pure (Except.ok ())) hrel

lemma cleanup_exact (h : Exact s) (hc : s.cleanup = a :: rest) (ha : s.inodes a = some o)
    (hl : 0 < o.iNlink) (hd : o.dirty = true) :
    ∃ t, cleanupTurn s = some ((),t) ∧ Exact t ∧ t.holders = s.holders := by
  have hpos := h.num a o ha
  let u : SuperBlock := { s with cleanup := rest }
  have hmoved : Exact { u with holders := a :: u.holders } := by
    refine h.congr rfl rfl rfl fun b => ?_
    change (a :: s.holders).count b + rest.count b = s.holders.count b + s.cleanup.count b
    rw [hc,List.count_cons,List.count_cons]
    omega
  let v : SuperBlock := { u with
    disk := update s.disk o.iInum { s.disk o.iInum with nlink := o.iNlink }
    inodes := update s.inodes a (some { o with dirty := false }) }
  have hwrite : sfsWriteInode a u = some ((),v) := sfsWriteInode_run ha hpos
  have hkept : Exact { v with holders := a :: v.holders } :=
    Exact.change { o with dirty := false } hmoved ha rfl (h.valid a o ha) (h.pos a o ha) rfl rfl rfl
      (hmoved.count a o ha) fun _ _ => rfl
  obtain ⟨t,hrel,ht,hth⟩ := release_own hkept
  refine ⟨t,?_,ht,hth⟩
  rw [cleanupTurn,get_bind,hc]
  dsimp only
  rw [set_bind,bind_of_some (inodeAt_ok (s := u) ha),if_neg (Nat.ne_of_gt hl),
    bind_of_some (kassert_ok hd),bind_of_some hwrite]
  exact hrel

lemma cleanup_deletes (hc : s.cleanup = a :: rest) (ha : s.inodes a = some o)
    (hl : o.iNlink = 0) : cleanupTurn s = none := by
  have hrel : ∀ {u : SuperBlock} {p : Inode}, u.inodes a = some p → p.iInum = 0 → fsReleaseInode a u = none := by
    intro u p hp hz
    rw [fsReleaseInode,bind_of_some (inodeAt_ok hp),hz]
    rfl
  cases hrun : cleanupTurn s with
  | none => rfl
  | some r =>
    rw [cleanupTurn,get_bind,hc] at hrun
    dsimp only at hrun
    rw [set_bind,bind_of_some (inodeAt_ok (s := { s with cleanup := rest }) ha),if_pos hl,bind_some] at hrun
    obtain ⟨_,u,hdel,hrun⟩ := hrun
    rw [sfsDeleteInode,bind_of_some (inodeAt_ok (s := { s with cleanup := rest }) ha),bind_some] at hdel
    obtain ⟨_,v,-,hdel⟩ := hdel
    obtain ⟨_,w,-,hdel⟩ := bind_some.mp hdel
    rw [modify_bind] at hdel
    have hu := modify_some.mp hdel
    rw [hrel (p := { o with iInum := 0, valid := false, dirty := false }) (by rw [hu]; exact update_self ..) rfl]
      at hrun
    cases hrun

def mayClean (s : SuperBlock) : Bool :=
  match s.cleanup with
  | [] => false
  | a :: _ => match s.inodes a with
    | none => false
    | some o => 0 < o.iNlink && o.dirty

def Allowed (s : SuperBlock) : Event → Prop
  | .get inum g => 0 < inum ∧ g.info = true ∧ g.node = true
  | .release a => a ∈ s.holders
  | .unlink inum g => 0 < inum ∧ g.info = true ∧ g.node = true ∧ g.acquire = true ∧ 0 < linkCount s inum
  | .touch a => a ∈ s.holders
  | .cleanup => mayClean s = true

instance (s : SuperBlock) : (e : Event) → Decidable (Allowed s e)
  | .get .. => inferInstanceAs (Decidable (_ ∧ _))
  | .release a => inferInstanceAs (Decidable (a ∈ s.holders))
  | .unlink .. => inferInstanceAs (Decidable (_ ∧ _))
  | .touch a => inferInstanceAs (Decidable (a ∈ s.holders))
  | .cleanup => inferInstanceAs (Decidable (_ = true))

lemma mayClean_iff : mayClean s = true ↔
    ∃ a rest o, s.cleanup = a :: rest ∧ s.inodes a = some o ∧ 0 < o.iNlink ∧ o.dirty = true := by
  unfold mayClean
  split
  · rename_i hc
    rw [hc]
    exact ⟨nofun,fun ⟨a,rest,_,h,_⟩ => (nomatch h)⟩
  · rename_i a rest hc
    rw [hc]
    split
    · rename_i ho
      refine ⟨nofun,?_⟩
      rintro ⟨b,rest',o,hb,hbo,-⟩
      cases hb
      cases ho.symm.trans hbo
    · rename_i o ho
      rw [Bool.and_eq_true_iff,decide_eq_true_eq]
      refine ⟨fun h => ⟨a,rest,o,rfl,ho,h⟩,?_⟩
      rintro ⟨b,rest',p,hb,hbp,h⟩
      cases hb
      exact Option.some.inj (ho.symm.trans hbp) ▸ h

lemma step_exact {e : Event} (h : Exact s) (he : Allowed s e) : ∃ t, step s e = some t ∧ Exact t := by
  cases e with
  | get inum g =>
    obtain ⟨r,hget,hres⟩ := fsGetInode_result h he.1 he.2.1 he.2.2
    refine ⟨_,by rw [step,hget]; rfl,?_⟩
    cases hres with
    | failed hexact _ | found hexact _ _ _ _ => exact hexact
  | release a =>
    have ha : a ∈ s.holders := he
    obtain ⟨t,hrun,ht,-⟩ := fsReleaseInode_exact h ha
    exact ⟨t,by rw [step,if_pos ha,hrun]; rfl,ht⟩
  | unlink inum g =>
    obtain ⟨e,t,hrun,ht,-⟩ := unlinkInode_exact h he.1 he.2.1 he.2.2.1 he.2.2.2.1 he.2.2.2.2
    exact ⟨t,by rw [step,hrun]; rfl,ht⟩
  | touch a =>
    have ha : a ∈ s.holders := he
    obtain ⟨o,ho⟩ := h.live a (Nat.lt_of_lt_of_le (List.count_pos_iff.mpr ha) (Nat.le_add_right ..))
    refine ⟨_,by rw [step,if_pos ha,ho]; rfl,?_⟩
    exact Exact.change { o with dirty := true } h ho rfl (h.valid a o ho) (h.pos a o ho) rfl rfl rfl
      (h.count a o ho) fun _ _ => rfl
  | cleanup =>
    obtain ⟨a,rest,o,hc,ho,hl,hd⟩ := mayClean_iff.mp he
    obtain ⟨t,hrun,ht,-⟩ := cleanup_exact h hc ho hl hd
    exact ⟨t,by rw [step,hrun]; rfl,ht⟩

lemma mounted_exact (disk : Nat → DiskInode) : Exact (mounted disk) where
  cached _ _ h := nomatch h
  own _ _ h := nomatch h
  num _ _ h := nomatch h
  pos _ _ h := nomatch h
  count _ _ h := nomatch h
  live _ h := absurd h (lt_irrefl 0)
  addr _ _ h := nomatch h
  valid _ _ h := nomatch h

lemma cleanupTurn_iff (h : Exact s) (hc : s.cleanup = a :: rest) (ha : s.inodes a = some o) :
    (step s .cleanup).isSome ↔ 0 < o.iNlink ∧ o.dirty = true := by
  constructor
  · intro hrun
    have hl : 0 < o.iNlink := by
      by_contra hz
      rw [step,cleanup_deletes hc ha (by omega)] at hrun
      cases hrun
    refine ⟨hl,?_⟩
    cases hd : o.dirty with
    | true => rfl
    | false =>
      rw [step,cleanupTurn,get_bind,hc] at hrun
      dsimp only at hrun
      rw [set_bind,bind_of_some (inodeAt_ok (s := { s with cleanup := rest }) ha),if_neg (Nat.ne_of_gt hl),hd] at hrun
      cases hrun
  · rintro ⟨hl,hd⟩
    obtain ⟨t,hrun,-⟩ := step_exact (e := .cleanup) h (mayClean_iff.mpr ⟨a,rest,o,hc,ha,hl,hd⟩)
    rw [hrun]
    rfl

structure IcacheLaws (s : SuperBlock) : Prop where
  unique : ∀ a b o p, s.inodes a = some o → s.inodes b = some p → o.iInum = p.iInum → a = b
  cached : ∀ i a, s.sIcache i = some a → ∃ o, s.inodes a = some o ∧ o.iInum = i
  own : ∀ a o, s.inodes a = some o → (s.sIcache o.iInum = some a ↔ 0 < o.iRef)
  refs : ∀ a o, s.inodes a = some o → o.iRef = refs s a
  unlinked : ∀ a o, s.inodes a = some o → a ∉ s.holders → a ∈ s.cleanup
  asserts : ∀ e, Allowed s e → (step s e).isSome
  turn : ∀ a rest o, s.cleanup = a :: rest → s.inodes a = some o →
    ((step s .cleanup).isSome ↔ 0 < o.iNlink ∧ o.dirty = true)

lemma Exact.laws (h : Exact s) : IcacheLaws s := by
  refine ⟨?_,h.cached,fun a o ho => ⟨fun _ => h.pos a o ho,fun _ => h.own a o ho⟩,h.count,?_,?_,
    fun a rest o hc ho => cleanupTurn_iff h hc ho⟩
  · intro a b o p ho hp he
    have := h.own a o ho
    rw [he,h.own b p hp] at this
    exact (Option.some.inj this).symm
  · intro a o ho hno
    have := h.pos a o ho
    rw [h.count a o ho,Icache.refs,List.count_eq_zero.mpr hno,Nat.zero_add] at this
    exact List.count_pos_iff.mp this
  · intro e he
    obtain ⟨t,hrun,-⟩ := step_exact h he
    rw [hrun]
    rfl

def plenty : Grants where
  inode := true
  filems := true
  info := true
  node := true
  read := true
  acquire := true

def linkedTwice : Nat → DiskInode := fun i => if i = 2 then ⟨2,true⟩ else ⟨0,false⟩

def handedOver : List Event :=
  [.get 2 plenty,.touch 0,.release 0,.get 2 plenty,.cleanup,.unlink 2 plenty,.release 0,.get 2 { plenty with read := false }]

def linkedOnce : Nat → DiskInode := fun i => if i = 2 then ⟨1,true⟩ else ⟨0,false⟩

end MappedMemory.Icache
