import MappedMemory.Ide.Requests

namespace MappedMemory.Ide.Disk

open Function (update update_of_ne update_self)

variable {s t : Disk} {a : Action} {p : Phase} {n r b : Nat} {k : IdeStatus}

inductive Move (s : Disk) : Action → Disk → Prop
  | submit (bio : Bio) : Move s (.submit bio) (s.submit bio)
  | enter {r : Nat} (hsec : s.sec = .free) (hp : s.phase r = .queued) :
      Move s (.enter r) { s.setPhase r .handling with sec := .handler r .looking }
  | look {r : Nat} (hsec : s.sec = .handler r .looking) :
      Move s .look { s with sec := .handler r (.found s.toIssue) }
  | leave {r : Nat} (hsec : s.sec = .handler r (.found none)) :
      Move s .leave { s.setPhase r .waiting with sec := .free }
  | start {r b : Nat} (hsec : s.sec = .handler r (.found (some b))) :
      Move s .leave { (s.issue b).setPhase r .waiting with sec := .free }
  | interrupt (hsec : s.sec = .free) (hi : 0 < s.irqs) :
      Move s .interrupt { s with irqs := s.irqs - 1, sec := .trap .popping }
  | pop (hsec : s.sec = .trap .popping) : Move s .pop s.popFront
  | complete {r : Nat} (hsec : s.sec = .trap (.completing r)) : Move s .complete { s with
      bioStatus := update s.bioStatus r .complete
      completed := s.completed ++ [r]
      sec := .trap .peeking }
  | peek (hsec : s.sec = .trap .peeking) : Move s .peek { s with sec := .trap (.next s.bdevFrontBio) }
  | rest (hsec : s.sec = .trap (.next none)) : Move s .finish { s with status := .idle, sec := .free }
  | next {b : Nat} (hsec : s.sec = .trap (.next (some b))) : Move s .finish { s.issue b with sec := .free }
  | wake {r : Nat} (hp : s.phase r = .waiting) (hc : s.bioStatus r = .complete) :
      Move s (.wake r) (s.setPhase r .returned)

lemma step_move (h : step s a = some t) : Move s a t := by
  unfold step at h
  split at h
  · cases h
  · split at h <;> (try split at h) <;> cases h
    · exact .submit _
    · exact .enter ‹_› ‹_›
    · exact .look ‹_›
    · exact .leave ‹_›
    · exact .start ‹_›
    · exact .interrupt ‹_› ‹_›
    · exact .pop ‹_›
    · exact .complete ‹_›
    · exact .peek ‹_›
    · exact .rest ‹_›
    · exact .next ‹_›
    · rename_i hw
      exact .wake hw.1 hw.2

def Called (s : Disk) : Prop := s.completed.length < s.bios.length → ∃ r, s.phase r = .queued

structure Outstanding (s : Disk) (irqs : Nat) : Prop where
  status : s.status = .busy
  issued : s.issued.length = s.completed.length + 1
  bound : s.completed.length < s.bios.length
  irqs : s.irqs = irqs

structure Settled (s : Disk) (status : IdeStatus) : Prop where
  status : s.status = status
  issued : s.issued.length = s.completed.length
  irqs : s.irqs = 0

def Front (s : Disk) (x : Option Nat) : Prop :=
  x = none ∧ Called s ∨ x = some s.completed.length ∧ s.completed.length < s.bios.length

def Stage (s : Disk) : Prop :=
  match s.sec with
  | .free => Outstanding s 1 ∨ Settled s .idle ∧ Called s
  | .handler _ .looking => Outstanding s 1 ∨ Settled s .idle
  | .handler _ (.found x) => Outstanding s 1 ∧ x = none ∨ Settled s .idle ∧ Front s x
  | .trap .popping => Outstanding s 0
  | .trap (.completing r) => Outstanding s 0 ∧ r = s.completed.length
  | .trap .peeking => Settled s .busy
  | .trap (.next x) => Settled s .busy ∧ Front s x

def popped (s : Disk) : Nat :=
  match s.sec with
  | .trap (.completing _) => s.completed.length + 1
  | _ => s.completed.length

structure Inv (s : Disk) : Prop where
  calm : s.panicked = false
  bound : s.completed.length ≤ s.bios.length
  completed : s.completed = List.range s.completed.length
  issued : s.issued = List.range s.issued.length
  commands : s.commands = (s.bios.take s.issued.length).map (Bio.command s.ideIndex)
  queue : s.queue = (List.range s.bios.length).drop s.popped
  bios : ∀ r, r < s.bios.length → (s.bioStatus r = .complete ↔ r < s.completed.length)
  calls : ∀ r, s.phase r = .handling → ∃ h, s.sec = .handler r h
  caller : ∀ r h, s.sec = .handler r h → s.phase r = .handling
  absent : ∀ r, s.bios.length ≤ r → s.phase r = .absent
  stage : Stage s

lemma range_snoc {l : List Nat} (h : l = List.range l.length) :
    l ++ [l.length] = List.range (l ++ [l.length]).length := by
  rw [List.length_append,List.length_singleton,List.range_succ,← h]

lemma head_queue {p : Nat} : ((List.range n).drop p).head? = if p < n then some p else none := by
  rw [List.head?_drop]
  split
  · rename_i h
    exact List.getElem?_range h
  · rename_i h
    exact List.getElem?_eq_none (by simpa using h)

lemma tail_queue {p : Nat} (h : p < n) : (List.range n).drop p = p :: (List.range n).drop (p + 1) := by
  rw [List.drop_eq_getElem_cons (by simpa using h),List.getElem_range]

lemma Inv.front (h : Inv s) (hp : s.popped = s.completed.length) (hc : s.completed.length = s.bios.length → Called s) :
    Front s s.bdevFrontBio := by
  rw [bdevFrontBio,h.queue,hp,head_queue]
  split
  · rename_i hlt
    exact .inr ⟨rfl,hlt⟩
  · rename_i hge
    exact .inl ⟨rfl,hc (le_antisymm h.bound (by omega))⟩

lemma Inv.issue_eq (h : Inv s) (hlt : s.completed.length < s.bios.length) :
    ∃ bio, s.bios[s.completed.length]? = some bio ∧ s.issue s.completed.length = { s with
      commands := s.commands ++ [bio.command s.ideIndex]
      issued := s.issued ++ [s.completed.length]
      irqs := s.irqs + 1
      status := .busy } := by
  obtain ⟨bio,hbio⟩ : ∃ bio, s.bios[s.completed.length]? = some bio := ⟨_,List.getElem?_eq_getElem hlt⟩
  have hpending : s.bioStatus s.completed.length = .pending := by
    cases hs : s.bioStatus s.completed.length with
    | pending => rfl
    | complete => exact absurd ((h.bios _ hlt).mp hs) (lt_irrefl _)
  refine ⟨bio,hbio,?_⟩
  rw [issue,if_pos hpending,ideIssueCmd,hbio]
  exact if_pos ⟨bio.some_sector,bio.few_sectors⟩

lemma Outstanding.congr {k : Nat} (h : Outstanding s k) (hst : t.status = s.status) (hi : t.issued = s.issued)
    (hc : t.completed = s.completed) (hq : t.irqs = s.irqs) (hb : s.bios.length ≤ t.bios.length) : Outstanding t k where
  status := hst.trans h.status
  issued := by rw [hi,hc,h.issued]
  bound := by rw [hc]; exact lt_of_lt_of_le h.bound hb
  irqs := hq.trans h.irqs

lemma Settled.congr (h : Settled s k) (hst : t.status = s.status) (hi : t.issued = s.issued)
    (hc : t.completed = s.completed) (hq : t.irqs = s.irqs) : Settled t k where
  status := hst.trans h.status
  issued := by rw [hi,hc,h.issued]
  irqs := hq.trans h.irqs

lemma Front.congr {x : Option Nat} (h : Front s x) (hc : t.completed = s.completed)
    (hb : s.bios.length ≤ t.bios.length) (hcall : Called s → Called t) : Front t x := by
  rcases h with ⟨hx,h⟩ | ⟨hx,h⟩
  · exact .inl ⟨hx,hcall h⟩
  · exact .inr ⟨by rw [hc]; exact hx,by rw [hc]; exact lt_of_lt_of_le h hb⟩

lemma Stage.congr (h : Stage s) (hsec : t.sec = s.sec) (hst : t.status = s.status) (hi : t.issued = s.issued)
    (hc : t.completed = s.completed) (hq : t.irqs = s.irqs) (hb : s.bios.length ≤ t.bios.length)
    (hcall : Called s → Called t) : Stage t := by
  unfold Stage at h ⊢
  rw [hsec]
  have hout : ∀ {k}, Outstanding s k → Outstanding t k := fun h => h.congr hst hi hc hq hb
  have hset : ∀ {k}, Settled s k → Settled t k := fun h => h.congr hst hi hc hq
  have hfront : ∀ {x}, Front s x → Front t x := fun h => h.congr hc hb hcall
  split at h
  · exact h.imp hout fun h => ⟨hset h.1,hcall h.2⟩
  · exact h.imp hout hset
  · exact h.imp (fun h => ⟨hout h.1,h.2⟩) fun h => ⟨hset h.1,hfront h.2⟩
  · exact hout h
  · exact ⟨hout h.1,h.2.trans (by rw [hc])⟩
  · exact hset h
  · exact ⟨hset h.1,hfront h.2⟩

lemma Stage.issued_le (h : Stage s) (hb : s.completed.length ≤ s.bios.length) :
    s.issued.length ≤ s.bios.length ∧ s.issued.length ≤ s.completed.length + 1 ∧
      s.completed.length ≤ s.issued.length := by
  have hout : ∀ {k}, Outstanding s k → s.issued.length = s.completed.length + 1 ∧ s.completed.length < s.bios.length :=
    fun h => ⟨h.issued,h.bound⟩
  have hset : ∀ {k}, Settled s k → s.issued.length = s.completed.length := fun h => h.issued
  have hcases : (s.issued.length = s.completed.length + 1 ∧ s.completed.length < s.bios.length) ∨
      s.issued.length = s.completed.length := by
    unfold Stage at h
    split at h
    · exact h.imp hout fun h => hset h.1
    · exact h.imp hout hset
    · exact h.imp (fun h => hout h.1) fun h => hset h.1
    · exact .inl (hout h)
    · exact .inl (hout h.1)
    · exact .inr (hset h)
    · exact .inr (hset h.1)
  omega

lemma popped_le (h : Stage s) (hb : s.completed.length ≤ s.bios.length) : s.popped ≤ s.bios.length := by
  unfold popped
  split
  · rename_i r hsec
    simp only [Stage,hsec] at h
    exact h.1.bound
  · exact hb

lemma Inv.submit (h : Inv s) (bio : Bio) : Inv (s.submit bio) := by
  have hlen : (s.submit bio).bios.length = s.bios.length + 1 := by simp [Disk.submit]
  have hissued := (h.stage.issued_le h.bound).1
  have hcall : Called (s.submit bio) := fun _ => ⟨s.bios.length,update_self ..⟩
  have hold : ∀ {r}, r ≠ s.bios.length → (s.submit bio).phase r = s.phase r := fun hr => update_of_ne hr ..
  have hnew : (s.submit bio).phase s.bios.length = .queued := update_self ..
  refine ⟨h.calm,by rw [hlen]; exact le_trans h.bound (Nat.le_succ _),h.completed,h.issued,?_,?_,?_,?_,?_,?_,?_⟩
  · change s.commands = ((s.bios ++ [bio]).take s.issued.length).map _
    rw [List.take_append_of_le_length hissued]
    exact h.commands
  · change s.queue ++ [s.bios.length] = (List.range (s.submit bio).bios.length).drop s.popped
    rw [hlen,List.range_succ,List.drop_append_of_le_length (by simpa using popped_le h.stage h.bound),← h.queue]
  · intro r hr
    by_cases he : r = s.bios.length
    · subst he
      have hst : (s.submit bio).bioStatus s.bios.length = .pending := update_self ..
      rw [hst]
      exact ⟨nofun,fun hlt => absurd hlt (not_lt.mpr h.bound)⟩
    · have hst : (s.submit bio).bioStatus r = s.bioStatus r := update_of_ne he ..
      rw [hst]
      exact h.bios r (by omega)
  · intro r hr
    by_cases he : r = s.bios.length
    · subst he
      exact absurd (hnew.symm.trans hr) (by decide)
    · exact h.calls r ((hold he).symm.trans hr)
  · intro r k hr
    have hp := h.caller r k hr
    have he : r ≠ s.bios.length := by
      rintro rfl
      exact absurd ((h.absent _ le_rfl).symm.trans hp) (by decide)
    rw [hold he]
    exact hp
  · intro r hr
    rw [hlen] at hr
    rw [hold (by omega)]
    exact h.absent r (by omega)
  · exact h.stage.congr rfl rfl rfl rfl rfl (by omega) fun _ => hcall

lemma Inv.queue_at (h : Inv s) {k : Nat} (hp : s.popped = k) : s.queue = (List.range s.bios.length).drop k := by
  rw [← hp]
  exact h.queue

lemma Inv.nobody (h : Inv s) (hsec : ∀ r k, s.sec ≠ .handler r k) (r : Nat) : s.phase r ≠ .handling := fun hp => by
  obtain ⟨k,hk⟩ := h.calls r hp
  exact hsec r k hk

lemma Inv.absent_update (h : Inv s) (hr : s.phase r ≠ .absent) (q : Nat)
    (hq : s.bios.length ≤ q) : update s.phase r p q = .absent := by
  rw [update_of_ne,h.absent q hq]
  rintro rfl
  exact hr (h.absent q hq)

lemma Inv.enter (h : Inv s) (hsec : s.sec = .free) (hp : s.phase r = .queued) :
    Inv { s.setPhase r .handling with sec := .handler r .looking } := by
  have hfree := h.nobody (by rw [hsec]; exact fun _ _ => nofun)
  refine ⟨h.calm,h.bound,h.completed,h.issued,h.commands,h.queue_at (by rw [popped,hsec]; rfl),h.bios,?_,?_,?_,?_⟩
  · intro q hq
    by_cases he : q = r
    · exact ⟨.looking,by rw [he]⟩
    · exact absurd ((update_of_ne he ..).symm.trans hq) (hfree q)
  · rintro q k hk
    cases hk
    exact update_self ..
  · exact h.absent_update (by rw [hp]; decide)
  · have hst := h.stage
    simp only [Stage,hsec] at hst
    exact hst.imp (fun h => h.congr rfl rfl rfl rfl le_rfl) fun h => h.1.congr rfl rfl rfl rfl

lemma Inv.look (h : Inv s) (hsec : s.sec = .handler r .looking) :
    Inv { s with sec := .handler r (.found s.toIssue) } := by
  have hpop : s.popped = s.completed.length := by rw [popped,hsec]
  refine ⟨h.calm,h.bound,h.completed,h.issued,h.commands,h.queue_at hpop,h.bios,?_,?_,h.absent,?_⟩
  · intro q hq
    obtain ⟨k,hk⟩ := h.calls q hq
    rw [hsec] at hk
    cases hk
    exact ⟨_,rfl⟩
  · rintro q k hk
    cases hk
    exact h.caller _ _ hsec
  · have hst := h.stage
    simp only [Stage,hsec] at hst
    rcases hst with hout | hset
    · refine .inl ⟨hout.congr rfl rfl rfl rfl le_rfl,?_⟩
      rw [toIssue,if_neg (by rw [hout.status]; decide)]
    · refine .inr ⟨hset.congr rfl rfl rfl rfl,?_⟩
      rw [toIssue,if_pos hset.status]
      exact (h.front hpop fun he hlt => absurd hlt (by omega)).congr rfl le_rfl id

lemma Inv.back_to_free (h : Inv s) {k : Handler} (hsec : s.sec = .handler r k) (q : Nat) :
    update s.phase r .waiting q ≠ .handling := by
  intro hq
  by_cases he : q = r
  · subst he
    exact absurd ((update_self ..).symm.trans hq) (by decide)
  · obtain ⟨k',hk'⟩ := h.calls q ((update_of_ne he ..).symm.trans hq)
    rw [hsec] at hk'
    cases hk'
    exact he rfl

lemma Called.update (h : Called s) (hr : s.phase r ≠ .queued) : Called (s.setPhase r p) := by
  intro hlt
  obtain ⟨q,hq⟩ := h hlt
  refine ⟨q,(update_of_ne ?_ ..).trans hq⟩
  rintro rfl
  exact hr hq

lemma Inv.leave (h : Inv s) (hsec : s.sec = .handler r (.found none)) :
    Inv { s.setPhase r .waiting with sec := .free } := by
  have hhand := h.caller _ _ hsec
  refine ⟨h.calm,h.bound,h.completed,h.issued,h.commands,h.queue_at (by rw [popped,hsec]; rfl),h.bios,
    fun q hq => absurd hq (h.back_to_free hsec q),nofun,h.absent_update (by rw [hhand]; decide),?_⟩
  have hst := h.stage
  simp only [Stage,hsec] at hst
  rcases hst with ⟨hout,-⟩ | ⟨hset,hfront⟩
  · exact .inl (hout.congr rfl rfl rfl rfl le_rfl)
  · rcases hfront with ⟨-,hcall⟩ | ⟨hx,-⟩
    · exact .inr ⟨hset.congr rfl rfl rfl rfl,hcall.update (by rw [hhand]; decide)⟩
    · cases hx

lemma Inv.issued_next (h : Inv s) (hi : s.issued.length = s.completed.length)
    (hlt : s.completed.length < s.bios.length) :
    (s.issue s.completed.length).issued = List.range (s.issue s.completed.length).issued.length ∧
    (s.issue s.completed.length).commands =
      (s.bios.take (s.issue s.completed.length).issued.length).map (Bio.command s.ideIndex) := by
  obtain ⟨bio,hbio,heq⟩ := h.issue_eq hlt
  rw [heq]
  refine ⟨?_,?_⟩
  · change s.issued ++ [s.completed.length] = List.range (s.issued ++ [s.completed.length]).length
    rw [← hi]
    exact range_snoc h.issued
  · change s.commands ++ [bio.command s.ideIndex] = (s.bios.take (s.issued ++ [s.completed.length]).length).map _
    rw [List.length_append,List.length_singleton,List.take_add_one,List.map_append,← h.commands,hi,hbio]
    rfl

lemma Inv.next (h : Inv s) (hset : Settled s k) (hlt : s.completed.length < s.bios.length)
    (hpop : s.popped = s.completed.length) {phase : Nat → Phase} (hcalls : ∀ q, phase q ≠ .handling)
    (habsent : ∀ q, s.bios.length ≤ q → phase q = .absent) :
    Inv { s.issue s.completed.length with phase := phase, sec := .free } := by
  obtain ⟨hissued,hcommands⟩ := h.issued_next hset.issued hlt
  obtain ⟨bio,hbio,heq⟩ := h.issue_eq hlt
  rw [heq] at hissued hcommands ⊢
  refine ⟨h.calm,h.bound,h.completed,hissued,hcommands,h.queue_at hpop,h.bios,
    fun q hq => absurd hq (hcalls q),nofun,habsent,.inl ⟨rfl,?_,hlt,?_⟩⟩
  · change (s.issued ++ [s.completed.length]).length = s.completed.length + 1
    rw [List.length_append,List.length_singleton,hset.issued]
  · change s.irqs + 1 = 1
    rw [hset.irqs]

lemma Front.some (h : Front s (some b)) : b = s.completed.length ∧ s.completed.length < s.bios.length := by
  rcases h with ⟨hx,-⟩ | ⟨hx,hlt⟩
  · cases hx
  · exact ⟨Option.some.inj hx,hlt⟩

section
variable (h : Inv s)
include h

lemma Inv.start (hsec : s.sec = .handler r (.found (some b))) :
    Inv { (s.issue b).setPhase r .waiting with sec := .free } := by
  have hst := h.stage
  simp only [Stage,hsec] at hst
  rcases hst with ⟨-,hx⟩ | ⟨hset,hfront⟩
  · cases hx
  · obtain ⟨rfl,hlt⟩ := hfront.some
    have hphase : (s.issue s.completed.length).phase = s.phase := by
      obtain ⟨bio,-,heq⟩ := h.issue_eq hlt
      rw [heq]
    rw [setPhase,hphase]
    exact h.next hset hlt (by rw [popped,hsec]) (h.back_to_free hsec)
      (h.absent_update (by rw [h.caller _ _ hsec]; decide))

lemma Inv.interrupt (hsec : s.sec = .free) (hi : 0 < s.irqs) :
    Inv { s with irqs := s.irqs - 1, sec := .trap .popping } := by
  refine ⟨h.calm,h.bound,h.completed,h.issued,h.commands,h.queue_at (by rw [popped,hsec]; rfl),h.bios,
    fun q hq => absurd hq (h.nobody (by rw [hsec]; exact fun _ _ => nofun) q),nofun,h.absent,?_⟩
  have hst := h.stage
  simp only [Stage,hsec] at hst
  rcases hst with hout | ⟨hset,-⟩
  · exact ⟨hout.status,hout.issued,hout.bound,by change s.irqs - 1 = 0; rw [hout.irqs]⟩
  · exact absurd hset.irqs (Nat.ne_of_gt hi)

lemma Inv.pop (hsec : s.sec = .trap .popping) : Inv s.popFront := by
  have hout : Outstanding s 0 := by simpa only [Stage,hsec] using h.stage
  have hqueue := (h.queue_at (k := s.completed.length) (by rw [popped,hsec])).trans (tail_queue hout.bound)
  have hpending : s.bioStatus s.completed.length = .pending := by
    cases hs : s.bioStatus s.completed.length with
    | pending => rfl
    | complete => exact absurd ((h.bios _ hout.bound).mp hs) (lt_irrefl _)
  rw [popFront,if_pos hout.status,hqueue]
  dsimp only
  rw [if_pos hpending]
  exact ⟨h.calm,h.bound,h.completed,h.issued,h.commands,rfl,h.bios,
    fun q hq => absurd hq (h.nobody (by rw [hsec]; exact fun _ _ => nofun) q),nofun,h.absent,
    hout.congr rfl rfl rfl rfl le_rfl,rfl⟩

lemma Inv.complete (hsec : s.sec = .trap (.completing r)) : Inv { s with
    bioStatus := update s.bioStatus r .complete
    completed := s.completed ++ [r]
    sec := .trap .peeking } := by
  obtain ⟨hout,rfl⟩ : Outstanding s 0 ∧ r = s.completed.length := by simpa only [Stage,hsec] using h.stage
  have hlen : (s.completed ++ [s.completed.length]).length = s.completed.length + 1 := by simp
  refine ⟨h.calm,by rw [hlen]; exact hout.bound,range_snoc h.completed,h.issued,h.commands,?_,?_,
    fun q hq => absurd hq (h.nobody (by rw [hsec]; exact fun _ _ => nofun) q),nofun,h.absent,?_⟩
  · change s.queue = (List.range s.bios.length).drop (s.completed ++ [s.completed.length]).length
    rw [hlen]
    exact h.queue_at (by rw [popped,hsec])
  · intro q hq
    rw [hlen]
    by_cases he : q = s.completed.length
    · subst he
      exact ⟨fun _ => Nat.lt_succ_self _,fun _ => update_self ..⟩
    · change update s.bioStatus s.completed.length .complete q = .complete ↔ _
      rw [update_of_ne he,h.bios q hq]
      omega
  · exact ⟨hout.status,by rw [hlen]; exact hout.issued,hout.irqs⟩

lemma Inv.peek (hsec : s.sec = .trap .peeking) : Inv { s with sec := .trap (.next s.bdevFrontBio) } := by
  have hpop : s.popped = s.completed.length := by rw [popped,hsec]
  have hset : Settled s .busy := by simpa only [Stage,hsec] using h.stage
  exact ⟨h.calm,h.bound,h.completed,h.issued,h.commands,h.queue_at hpop,h.bios,
    fun q hq => absurd hq (h.nobody (by rw [hsec]; exact fun _ _ => nofun) q),nofun,h.absent,
    hset.congr rfl rfl rfl rfl,(h.front hpop fun he hlt => absurd hlt (by omega)).congr rfl le_rfl id⟩

lemma Inv.rest (hsec : s.sec = .trap (.next none)) : Inv { s with status := .idle, sec := .free } := by
  obtain ⟨hset,hfront⟩ : Settled s .busy ∧ Front s none := by simpa only [Stage,hsec] using h.stage
  refine ⟨h.calm,h.bound,h.completed,h.issued,h.commands,h.queue_at (by rw [popped,hsec]; rfl),h.bios,
    fun q hq => absurd hq (h.nobody (by rw [hsec]; exact fun _ _ => nofun) q),nofun,h.absent,?_⟩
  rcases hfront with ⟨-,hcall⟩ | ⟨hx,-⟩
  · exact .inr ⟨⟨rfl,hset.issued,hset.irqs⟩,hcall⟩
  · cases hx

lemma Inv.finish (hsec : s.sec = .trap (.next (some b))) : Inv { s.issue b with sec := .free } := by
  obtain ⟨hset,hfront⟩ : Settled s .busy ∧ Front s (some b) := by simpa only [Stage,hsec] using h.stage
  obtain ⟨rfl,hlt⟩ := hfront.some
  have hphase : (s.issue s.completed.length).phase = s.phase := by
    obtain ⟨bio,-,heq⟩ := h.issue_eq hlt
    rw [heq]
  have hnext := h.next hset hlt (by rw [popped,hsec]) (h.nobody (by rw [hsec]; exact fun _ _ => nofun)) h.absent
  rwa [← hphase] at hnext

lemma Inv.wake (hp : s.phase r = .waiting) : Inv (s.setPhase r .returned) := by
  refine ⟨h.calm,h.bound,h.completed,h.issued,h.commands,h.queue,h.bios,?_,?_,
    h.absent_update (by rw [hp]; decide),
    h.stage.congr rfl rfl rfl rfl rfl le_rfl fun hc => hc.update (by rw [hp]; decide)⟩
  · intro q hq
    by_cases he : q = r
    · subst he
      exact absurd ((update_self ..).symm.trans hq) (by decide)
    · exact h.calls q ((update_of_ne he ..).symm.trans hq)
  · intro q k hk
    have hq := h.caller q k hk
    refine (update_of_ne ?_ ..).trans hq
    rintro rfl
    exact absurd (hp.symm.trans hq) (by decide)

lemma step_inv (hs : step s a = some t) : Inv t := by
  cases step_move hs with
  | submit bio => exact h.submit bio
  | enter hsec hp => exact h.enter hsec hp
  | look hsec => exact h.look hsec
  | leave hsec => exact h.leave hsec
  | start hsec => exact h.start hsec
  | interrupt hsec hi => exact h.interrupt hsec hi
  | pop hsec => exact h.pop hsec
  | complete hsec => exact h.complete hsec
  | peek hsec => exact h.peek hsec
  | rest hsec => exact h.rest hsec
  | next hsec => exact h.finish hsec
  | wake hp _ => exact h.wake hp

end

lemma ideAlloc_inv (ideIndex : Nat) : Inv (ideAlloc ideIndex) :=
  ⟨rfl,le_rfl,rfl,rfl,rfl,rfl,fun _ hr => absurd hr (Nat.not_lt_zero _),nofun,nofun,fun _ _ => rfl,
    .inr ⟨⟨rfl,rfl,rfl⟩,fun hlt => absurd hlt (lt_irrefl _)⟩⟩

def phaseWork : Phase → Nat
  | .absent => 0
  | .queued => 5
  | .handling => 2
  | .waiting => 1
  | .returned => 0

def sectionWork : Section → Nat
  | .free => 0
  | .handler _ .looking => 2
  | .handler _ (.found _) => 1
  | .trap .popping => 4
  | .trap (.completing _) => 3
  | .trap .peeking => 2
  | .trap (.next _) => 1

def work (s : Disk) : Nat :=
  ∑ r ∈ Finset.range s.bios.length, phaseWork (s.phase r) +
    7 * (s.bios.length - s.issued.length) + 5 * s.irqs + sectionWork s.sec

lemma phaseWork_update {f : Nat → Phase} (hr : r < n) :
    ∑ q ∈ Finset.range n, phaseWork (update f r p q) + phaseWork (f r) =
      ∑ q ∈ Finset.range n, phaseWork (f q) + phaseWork p := by
  have hmem := Finset.mem_range.mpr hr
  rw [← Finset.add_sum_erase _ _ hmem,← Finset.add_sum_erase _ (fun q => phaseWork (f q)) hmem,update_self]
  have hrest : ∑ q ∈ (Finset.range n).erase r, phaseWork (update f r p q) =
      ∑ q ∈ (Finset.range n).erase r, phaseWork (f q) :=
    Finset.sum_congr rfl fun q hq => by rw [update_of_ne (Finset.ne_of_mem_erase hq)]
  rw [hrest]
  omega

lemma Inv.lt_length (h : Inv s) (hr : s.phase r ≠ .absent) : r < s.bios.length := by
  by_contra hge
  exact hr (h.absent r (by omega))

lemma Inv.work_issue (h : Inv s) (hset : Settled s k) (hlt : s.completed.length < s.bios.length) :
    (s.issue s.completed.length).bios = s.bios ∧ (s.issue s.completed.length).phase = s.phase ∧
    (s.issue s.completed.length).sec = s.sec ∧
    7 * (s.bios.length - (s.issue s.completed.length).issued.length) + 5 * (s.issue s.completed.length).irqs + 2 =
      7 * (s.bios.length - s.issued.length) + 5 * s.irqs := by
  obtain ⟨bio,-,heq⟩ := h.issue_eq hlt
  rw [heq]
  refine ⟨rfl,rfl,rfl,?_⟩
  change 7 * (s.bios.length - (s.issued ++ [s.completed.length]).length) + 5 * (s.irqs + 1) + 2 = _
  rw [List.length_append,List.length_singleton]
  have := hset.issued
  omega

lemma step_work (h : Inv s) (ha : ∀ bio, a ≠ .submit bio) (hs : step s a = some t) : work t < work s := by
  cases step_move hs with
  | submit bio => exact absurd rfl (ha bio)
  | @enter r hsec hp =>
    have := phaseWork_update (f := s.phase) (p := .handling) (h.lt_length (r := r) (by rw [hp]; decide))
    simp only [work,setPhase,hsec,hp,sectionWork,phaseWork] at this ⊢
    omega
  | look hsec =>
    simp only [work,hsec,sectionWork]
    omega
  | @leave r hsec =>
    have hp := h.caller _ _ hsec
    have := phaseWork_update (f := s.phase) (p := .waiting) (h.lt_length (r := r) (by rw [hp]; decide))
    simp only [work,setPhase,hsec,hp,sectionWork,phaseWork] at this ⊢
    omega
  | @start r b hsec =>
    have hst := h.stage
    simp only [Stage,hsec] at hst
    rcases hst with ⟨-,hx⟩ | ⟨hset,hfront⟩
    · cases hx
    · obtain ⟨rfl,hlt⟩ := hfront.some
      have hp := h.caller _ _ hsec
      have := phaseWork_update (f := s.phase) (p := .waiting) (h.lt_length (r := r) (by rw [hp]; decide))
      obtain ⟨hb,hph,-,hw⟩ := h.work_issue hset hlt
      simp only [work,setPhase,hsec,hp,hb,hph,sectionWork,phaseWork] at this hw ⊢
      omega
  | interrupt hsec hi =>
    simp only [work,hsec,sectionWork]
    omega
  | pop hsec =>
    have hout : Outstanding s 0 := by simpa only [Stage,hsec] using h.stage
    have hpop := (h.pop hsec).calm
    have hqueue := (h.queue_at (k := s.completed.length) (by rw [popped,hsec])).trans (tail_queue hout.bound)
    rw [popFront,if_pos hout.status,hqueue] at hpop ⊢
    dsimp only at hpop ⊢
    split at hpop
    · rename_i hp
      rw [if_pos hp]
      simp only [work,hsec,sectionWork]
      omega
    · cases hpop
  | complete hsec | peek hsec | rest hsec =>
    simp only [work,hsec,sectionWork]
    omega
  | next hsec =>
    obtain ⟨hset,hfront⟩ : Settled s .busy ∧ Front s (some _) := by simpa only [Stage,hsec] using h.stage
    obtain ⟨rfl,hlt⟩ := hfront.some
    obtain ⟨hb,hph,-,hw⟩ := h.work_issue hset hlt
    simp only [work,hsec,hb,hph,sectionWork] at hw ⊢
    omega
  | @wake r hp _ =>
    have := phaseWork_update (f := s.phase) (p := .returned) (h.lt_length (r := r) (by rw [hp]; decide))
    simp only [work,setPhase,hp,phaseWork] at this ⊢
    omega

lemma Inv.served (h : Inv s) (hstuck : ∀ a, (∀ bio, a ≠ .submit bio) → step s a = none) :
    s.completed = List.range s.bios.length := by
  have hcalm := h.calm
  have hfree : s.sec = .free := by
    cases hsec : s.sec with
    | free => rfl
    | handler r k =>
      cases k with
      | looking => exact absurd (hstuck .look nofun) (by simp [step,hcalm,hsec])
      | found x => cases x <;> exact absurd (hstuck .leave nofun) (by simp [step,hcalm,hsec])
    | trap k =>
      cases k with
      | popping => exact absurd (hstuck .pop nofun) (by simp [step,hcalm,hsec])
      | completing r => exact absurd (hstuck .complete nofun) (by simp [step,hcalm,hsec])
      | peeking => exact absurd (hstuck .peek nofun) (by simp [step,hcalm,hsec])
      | next x => cases x <;> exact absurd (hstuck .finish nofun) (by simp [step,hcalm,hsec])
  have hst := h.stage
  simp only [Stage,hfree] at hst
  rcases hst with hout | ⟨hset,hcall⟩
  · exact absurd (hstuck .interrupt nofun) (by simp [step,hcalm,hfree,hout.irqs])
  · have hle : s.bios.length ≤ s.completed.length := by
      by_contra hlt
      obtain ⟨r,hr⟩ := hcall (by omega)
      exact absurd (hstuck (.enter r) nofun) (by simp [step,hcalm,hfree,hr])
    rw [h.completed,le_antisymm h.bound hle]

structure Served (s : Disk) : Prop where
  issued : s.issued = List.range s.issued.length
  completed : s.completed = List.range s.completed.length
  bounds : s.completed.length ≤ s.issued.length ∧ s.issued.length ≤ s.bios.length
  commands : s.commands = (s.bios.take s.issued.length).map (Bio.command s.ideIndex)
  outstanding : s.issued.length ≤ s.completed.length + 1
  busy : (∀ k, s.sec ≠ .trap k) →
    (s.status = .busy ↔ ∃ r, s.queue.head? = some r ∧ r ∈ s.issued ∧ r ∉ s.completed)
  calm : s.panicked = false
  idle : s.sec = .free → s.status = .idle → s.queue ≠ [] → ∃ r, s.phase r = .queued
  idle_handler : s.status = .idle → s.queue ≠ [] → ∃ r, s.phase r = .queued ∨ s.phase r = .handling
  advances : ∀ a t, (∀ bio, a ≠ .submit bio) → step s a = some t → work t < work s
  ends : (∀ a, (∀ bio, a ≠ .submit bio) → step s a = none) → s.completed = List.range s.bios.length

lemma Inv.busy (h : Inv s) (hsec : ∀ k, s.sec ≠ .trap k) :
    s.status = .busy ↔ ∃ r, s.queue.head? = some r ∧ r ∈ s.issued ∧ r ∉ s.completed := by
  have hcases : Outstanding s 1 ∨ Settled s .idle := by
    have hst := h.stage
    unfold Stage at hst
    split at hst
    · exact hst.imp_right And.left
    · exact hst
    · exact hst.imp And.left And.left
    all_goals exact absurd ‹_› (hsec _)
  have hpop : s.popped = s.completed.length := by
    unfold popped
    split
    · exact absurd ‹_› (hsec _)
    · rfl
  rw [h.queue_at hpop,head_queue,h.issued,h.completed]
  rcases hcases with hout | hset
  · refine ⟨fun _ => ⟨s.completed.length,by simpa using hout.bound,?_,?_⟩,fun _ => hout.status⟩
    · rw [hout.issued]
      exact List.mem_range.mpr (Nat.lt_succ_self _)
    · simp
  · rw [hset.status,hset.issued]
    exact ⟨nofun,fun ⟨r,_,hin,hout⟩ => absurd hin (by simpa using hout)⟩

lemma Inv.queue_ne (h : Inv s) (hpop : s.popped = s.completed.length) (hne : s.queue ≠ []) :
    s.completed.length < s.bios.length := by
  by_contra hge
  exact hne (by rw [h.queue_at hpop,List.drop_eq_nil_of_le (by simpa using hge)])

lemma Inv.idle (h : Inv s) (hidle : s.status = .idle) (hne : s.queue ≠ []) :
    (∃ r, s.phase r = .queued) ∨ ∃ r k, s.sec = .handler r k := by
  have hout : ∀ {k}, ¬ Outstanding s k := fun h => absurd (hidle.symm.trans h.status) (by decide)
  have hset : ¬ Settled s .busy := fun h => absurd (hidle.symm.trans h.status) (by decide)
  have hst := h.stage
  unfold Stage at hst
  split at hst
  · rename_i hsec
    exact .inl ((hst.resolve_left hout).2 (h.queue_ne (by rw [popped,hsec]) hne))
  · exact .inr ⟨_,_,‹_›⟩
  · exact .inr ⟨_,_,‹_›⟩
  · exact absurd hst hout
  · exact absurd hst.1 hout
  · exact absurd hst hset
  · exact absurd hst.1 hset

theorem requests_served (ideIndex : Nat) (os : List Action) (t : Disk)
    (h : os.foldlM step (ideAlloc ideIndex) = some t) : Served t := by
  have hi : Inv t := Run.invariant (fun _ _ _ hs hstep => step_inv hs hstep) (ideAlloc_inv ideIndex) h
  obtain ⟨hle,hone,hge⟩ := hi.stage.issued_le hi.bound
  refine ⟨hi.issued,hi.completed,⟨hge,hle⟩,hi.commands,hone,hi.busy,hi.calm,?_,?_,fun a t => step_work hi,hi.served⟩
  · intro hsec hidle hne
    refine (hi.idle hidle hne).resolve_right ?_
    rintro ⟨r,k,hk⟩
    cases hsec.symm.trans hk
  · intro hidle hne
    rcases hi.idle hidle hne with ⟨r,hr⟩ | ⟨r,k,hk⟩
    · exact ⟨r,.inl hr⟩
    · exact ⟨r,.inr (hi.caller r k hk)⟩

def readPage : Bio where
  blk := 8
  size := 8
  op := .read
  some_sector := by decide
  few_sectors := by decide

def writeBlk : Bio where
  blk := 3
  size := 1
  op := .write
  some_sector := by decide
  few_sectors := by decide

def twoRequests : List Action :=
  [.submit readPage,.enter 0,.look,.submit writeBlk,.leave,.interrupt,.pop,.complete,.peek,.finish,.enter 1,.look,
    .leave,.wake 0,.interrupt,.pop,.complete,.peek,.finish]

theorem requests_served_two :
    ∃ t, twoRequests.foldlM step (ideAlloc 1) = some t ∧ t.completed = [0,1] ∧ Served t := by
  have hrun : (twoRequests.foldlM step (ideAlloc 1)).map completed = some [0,1] := by decide
  obtain ⟨t,ht,hc⟩ := Option.map_eq_some_iff.mp hrun
  exact ⟨t,ht,hc,requests_served 1 twoRequests t ht⟩

end MappedMemory.Ide.Disk
