import MappedMemory.Jbd.Atomicity
import MappedMemory.Library.Run

namespace MappedMemory.Jbd

open Routine

def jbdWriteBlk (b : Nat) : JbdM Unit := do
  let s ← get
  if s.enabled then
    kassert (s.state = .busy)
    if s.datablks.contains b then return ()
    kassert (s.datablks.length < journalSize)
    set { s with refs := Function.update s.refs b (s.refs b + 1), datablks := s.datablks ++ [b] }

def writeBlks (s : Volume) (bs : List Nat) : Option Volume := bs.foldlM (fun s b => (jbdWriteBlk b s).map Prod.snd) s

def commitLoop : Nat → JbdM Bool
  | 0 => return false
  | tries + 1 => do
    match ← commitJournal with
    | .ok => return true
    | .noMem => commitLoop tries

def commitTxn (tries n : Nat) : JbdM Bool := if n > 0 then commitLoop tries else pure true

def jbdEndTxn (tries : Nat) : JbdM Bool := do
  let s ← get
  if s.enabled then
    kassert (s.state = .busy)
    let done ← commitTxn tries s.datablks.length
    modify fun s => { s with state := .idle }
    return done
  else return true

structure Begun (s : Volume) (bs : List Nat) : Prop where
  enabled : s.enabled = true
  busy : s.state = .busy
  empty : s.datablks = []
  fits : ∀ b ∈ bs, b < 2^32
  apart : ∀ b ∈ bs, ¬InJournal s.start b
  unlocked : ∀ b, b ∈ bs ∨ InJournal s.start b → s.locked b = false
  erased : headerBlks s.start s.device = 0
  supply : s.supply = []

structure Holds (s : Volume) (bs : List Nat) (t : Volume) : Prop where
  nodup : t.datablks.Nodup
  blocks : ∀ b, b ∈ t.datablks ↔ b ∈ bs
  rest : t = { s with datablks := t.datablks, refs := fun b => s.refs b + t.datablks.count b }

section
variable {s t u : Volume} {bs : List Nat} {b : Nat}

lemma jbdWriteBlk_some (he : t.enabled = true) (h : jbdWriteBlk b t = some ((),u)) :
    (b ∈ t.datablks ∧ u = t) ∨ (b ∉ t.datablks ∧
      u = { t with refs := Function.update t.refs b (t.refs b + 1), datablks := t.datablks ++ [b] }) := by
  rw [jbdWriteBlk,get_bind,if_pos he,bind_some] at h
  obtain ⟨_,v,hv,h⟩ := h
  obtain ⟨-,rfl⟩ : t.state = .busy ∧ t = v := by simpa [kassert] using hv
  by_cases hb : b ∈ t.datablks
  · simp only [List.contains_iff_mem,hb,if_true] at h
    cases h
    exact .inl ⟨hb,rfl⟩
  · simp only [List.contains_iff_mem,hb,if_false,bind_some] at h
    obtain ⟨_,w,hw,h⟩ := h
    obtain ⟨-,rfl⟩ : t.datablks.length < journalSize ∧ t = w := by simpa [kassert] using hw
    cases h
    exact .inr ⟨hb,rfl⟩

lemma Holds.write (h : Holds s bs t) (he : s.enabled = true) (hu : jbdWriteBlk b t = some ((),u)) :
    Holds s (bs ++ [b]) u := by
  have het : t.enabled = true := by rw [h.rest]; exact he
  obtain ⟨hb,rfl⟩ | ⟨hb,rfl⟩ := jbdWriteBlk_some het hu
  · refine ⟨h.nodup,fun c => ?_,h.rest⟩
    have := (h.blocks b).mp hb
    rw [h.blocks,List.mem_append,List.mem_singleton]
    grind
  · refine ⟨List.nodup_append.mpr ⟨h.nodup,List.nodup_singleton b,by grind⟩,fun c => ?_,?_⟩
    · simp [h.blocks]
    · conv_lhs => rw [h.rest]
      simp only [Volume.mk.injEq,true_and,and_true]
      funext c
      by_cases hc : c = b
      · simp [hc,List.count_eq_zero_of_not_mem hb]
      · simp [hc,Ne.symm hc]

lemma Holds.run {pre : List Nat} (h : Holds s pre t) (he : s.enabled = true) (hu : writeBlks t bs = some u) :
    Holds s (pre ++ bs) u := by
  induction bs generalizing pre t with
  | nil =>
    cases hu
    rwa [List.append_nil]
  | cons b bs ih =>
    obtain ⟨w,hw,hu⟩ := Run.foldlM_cons_some.mp hu
    obtain ⟨x,hx,rfl⟩ := Option.map_eq_some_iff.mp hw
    have := ih (h.write he hx) hu
    rwa [List.append_assoc] at this

lemma Begun.ready (hs : Begun s bs) (h : Holds s bs t) : Ready t := by
  have hrest := h.rest
  refine ⟨fun b hb => hs.fits b ((h.blocks b).mp hb),fun b hb => ?_,h.nodup,fun b hb => ?_,fun b hb => ?_,?_⟩
  · rw [hrest]
    exact hs.apart b ((h.blocks b).mp hb)
  · rw [hrest]
    exact Nat.add_pos_right _ (List.count_pos_iff.mpr hb)
  · rw [h.blocks] at hb
    rw [hrest] at hb ⊢
    exact hs.unlocked b hb
  · rw [hrest]
    exact hs.erased

lemma Holds.length (h : Holds s bs t) : t.datablks.length = bs.dedup.length :=
  ((List.perm_ext_iff_of_nodup h.nodup (List.nodup_dedup bs)).mpr fun b => by
    rw [h.blocks,List.mem_dedup]).length_eq

lemma jbdEndTxn_eq (he : t.enabled = true) (hb : t.state = .busy) (tries : Nat) : jbdEndTxn tries t = (do
      let done ← commitTxn tries t.datablks.length
      modify fun s => { s with state := .idle }
      return done : JbdM Bool) t := by
  rw [jbdEndTxn,get_bind,if_pos he,bind_of_some (a := ()) (u := t) (by simp [kassert,hb])]

lemma commitTxn_full (h : ¬t.datablks.length < journalSize) (tries : Nat) :
    commitTxn tries t.datablks.length t ≠ some (true,u) := by
  have hpos : t.datablks.length > 0 := lt_of_lt_of_le (by decide) (Nat.not_lt.mp h)
  rw [commitTxn,if_pos hpos]
  cases tries with
  | zero => exact nofun
  | succ tries =>
    intro hl
    rw [commitLoop,bind_some] at hl
    obtain ⟨e,v,hv,-⟩ := hl
    rw [commitJournal,andThen,bind_some] at hv
    obtain ⟨e',w,hw,-⟩ := hv
    rw [writeJournalBlks,get_bind,bind_some] at hw
    obtain ⟨_,x,hx,-⟩ := hw
    simp [kassert,h] at hx

theorem logged_txn_commits_iff (hs : Begun s bs) (h : writeBlks s bs = some t) :
    (Holds s bs t ∧ ∃ tries u, jbdEndTxn tries t = some (true,u) ∧ u.refs = s.refs ∧ u.datablks = [] ∧ u.state = .idle) ↔
      bs.dedup.length < journalSize := by
  have hbare : Holds s [] s :=
    ⟨by simp [hs.empty],by simp [hs.empty],by obtain ⟨⟩ := s; cases hs.empty; rfl⟩
  have hold : Holds s bs t := hbare.run hs.enabled h
  have hrest := hold.rest
  have he : t.enabled = true := by rw [hrest]; exact hs.enabled
  have hb : t.state = .busy := by rw [hrest]; exact hs.busy
  rw [← hold.length]
  simp only [jbdEndTxn_eq he hb]
  constructor
  · rintro ⟨-,tries,u,hu,-⟩
    by_contra hfull
    obtain ⟨done,v,hv,hu⟩ := bind_some.mp hu
    cases hu
    exact commitTxn_full hfull tries hv
  · intro hn
    refine ⟨hold,1,?_⟩
    by_cases hpos : t.datablks.length > 0
    · obtain ⟨e,u,hrun,-,hdone,hok⟩ := commitJournal_attempt (hs.ready hold) hpos hn
      obtain ⟨rfl,-⟩ := hok (by rw [hrest]; exact hs.supply)
      have hloop : commitTxn 1 t.datablks.length t = some (true,u) := by
        rw [commitTxn,if_pos hpos,commitLoop,bind_of_some hrun]
        rfl
      refine ⟨_,bind_of_some hloop,funext fun b => ?_,(hdone rfl).2.1,rfl⟩
      exact ((hdone rfl).2.2 b).trans (by rw [hrest]; exact Nat.add_sub_cancel ..)
    · have hnil : t.datablks = [] := List.length_eq_zero_iff.mp (by omega)
      refine ⟨_,bind_of_some (a := true) (u := t) (by rw [commitTxn,if_neg hpos]; rfl),?_,hnil,rfl⟩
      change t.refs = s.refs
      rw [hrest,hnil]
      simp

end

def freshTxn : Volume := { twoBlks with datablks := [], refs := fun _ => 0 }

def fullJournal : List Nat := (List.range journalSize).map (400 + ·)

lemma freshTxn_begun : Begun freshTxn [400,36,400] :=
  ⟨rfl,rfl,rfl,by decide,fun b hb => twoBlks_ready.apart b (by simp [twoBlks] at hb ⊢; omega),fun _ _ => rfl,
    twoBlks_ready.erased,rfl⟩

theorem logged_txn_commits_two : ∃ t, writeBlks freshTxn [400,36,400] = some t ∧ Holds freshTxn [400,36,400] t ∧
    ∃ tries u, jbdEndTxn tries t = some (true,u) ∧ u.refs = freshTxn.refs ∧ u.datablks = [] ∧ u.state = .idle :=
  ⟨_,rfl,(logged_txn_commits_iff freshTxn_begun rfl).mpr (by decide)⟩

theorem full_journal_panics : ∃ t, writeBlks freshTxn fullJournal = some t ∧ jbdEndTxn 1 t = none := by
  obtain ⟨t,ht⟩ := Option.isSome_iff_exists.mp (by decide +kernel : (writeBlks freshTxn fullJournal).isSome)
  have hpanic : ((writeBlks freshTxn fullJournal).bind fun t => jbdEndTxn 1 t).isNone := by decide +kernel
  rw [ht] at hpanic
  exact ⟨t,ht,Option.isNone_iff_eq_none.mp hpanic⟩

inductive History (start : Nat) : Bytes.Memory → List Volume → List Write → Prop
  | start {d} : headerBlks start d = 0 → History start d [] []
  | commit {s t hist ws ws'} : s.start = start → Ready s → 1 ≤ s.datablks.length → s.datablks.length < journalSize →
    commitJournal s = some (.ok,t) → t.issued = s.issued ++ ws → History start t.device hist ws' →
    History start s.device (s :: hist) (ws ++ ws')

def Whole (start : Nat) (hist : List Volume) (d crashed : Bytes.Memory) : Prop :=
  SameImage start (recover start crashed) d ∨ ∃ s ∈ hist, SameImage start (recover start crashed) (updated s)

theorem crash_recovers_whole_transactions {start : Nat} {d : Bytes.Memory} {hist : List Volume} {ws p : List Write}
    (h : History start d hist ws) (hp : p <+: ws) : Whole start hist d (p.foldl put d) := by
  induction h generalizing p with
  | @start d hd =>
    rw [List.prefix_nil.mp hp,Whole,List.foldl_nil,recover,hd]
    exact .inl fun _ _ _ _ => rfl
  | @commit s t hist ws ws' hstart hr h0 hn hrun hi _ ih =>
    subst hstart
    obtain ⟨_,_,hrun',⟨vs,hi',hd,hsafe⟩,hdone,-⟩ := commitJournal_attempt hr h0 hn
    cases hrun.symm.trans hrun'
    obtain rfl := List.append_cancel_left (hi.symm.trans hi')
    rcases List.prefix_or_prefix_of_prefix hp (List.prefix_append ws ws') with hp | ⟨q,rfl⟩
    · exact (hsafe p hp).imp_right fun h => ⟨s,by simp,h⟩
    · rw [List.foldl_append,← hd]
      rcases ih ((List.prefix_append_right_inj ws).mp hp) with h | ⟨v,hv,h⟩
      · exact .inr ⟨s,by simp,fun b hb => (h b hb).trans ((hdone rfl).1.2 b hb)⟩
      · exact .inr ⟨v,by simp [hv],h⟩

theorem crash_recovers_two_blocks :
    ∃ ws, History 68 twoBlks.device [twoBlks] ws ∧ ∀ p, p <+: ws → Whole 68 [twoBlks] twoBlks.device (p.foldl put twoBlks.device) := by
  obtain ⟨e,t,hrun,⟨ws,hi,-⟩,hdone,hok⟩ := commitJournal_attempt twoBlks_ready (by decide) (by decide)
  obtain ⟨rfl,-⟩ := hok rfl
  have h := History.commit rfl twoBlks_ready (by decide) (by decide) hrun hi (.start (hdone rfl).1.1)
  exact ⟨_,h,fun p hp => crash_recovers_whole_transactions h hp⟩

end MappedMemory.Jbd
