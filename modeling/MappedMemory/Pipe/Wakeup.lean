import MappedMemory.Pipe.Transfer

namespace MappedMemory

open Option (any_eq_true)

def Request.isRead : Request → Bool
  | .read _ => true
  | .write _ => false

namespace Channel

variable {c c' : Channel} {l : List Nat} {read : Bool} {r : Runnable} {rs : List Runnable}

def Pending (read : Bool) (rs : List Runnable) : Prop := ∃ r ∈ rs, r.signalled = true ∧ r.request.isRead = read

instance (read : Bool) (rs : List Runnable) : Decidable (Pending read rs) :=
  inferInstanceAs (Decidable (∃ r ∈ rs, r.signalled = true ∧ r.request.isRead = read))

lemma Pending.append (h : Pending read rs) (rs' : List Runnable) : Pending read (rs ++ rs') := by
  obtain ⟨q,hq,hs⟩ := h
  exact ⟨q,List.mem_append_left _ hq,hs⟩

lemma Pending.erase (h : Pending read rs) (hr : r.signalled = false ∨ r.request.isRead ≠ read) :
    Pending read (rs.erase r) := by
  obtain ⟨q,hq,hs,hk⟩ := h
  refine ⟨q,(List.mem_erase_of_ne fun he => ?_).mpr hq,hs,hk⟩
  subst he
  rcases hr with hr | hr
  · exact absurd (hs.symm.trans hr) (by decide)
  · exact hr hk

structure Awake (c : Channel) : Prop where
  reader : c.notEmpty ≠ [] → c.pipe.buffered ≠ 0 ∨ c.pipe.writers = 0 → Pending true c.runnable
  writer : c.full ≠ [] → c.pipe.buffered ≠ pipeSz ∨ c.pipe.readers = 0 → Pending false c.runnable
  stores : ∀ tid buf written, .wrote tid buf written true ∈ c.log → written = 0

lemma signalFull_spec (c : Channel) : c.signalFull.pipe = c.pipe ∧ c.signalFull.notEmpty = c.notEmpty ∧
    c.signalFull.log = c.log ∧ c.signalFull.deaf = c.deaf ∧ (∃ rs, c.signalFull.runnable = c.runnable ++ rs) ∧
    (c.signalFull.full ≠ [] → Pending false c.signalFull.runnable) := by
  simp only [signalFull]
  split
  · rename_i hfull
    exact ⟨rfl,rfl,rfl,rfl,⟨[],by simp⟩,fun h => absurd hfull h⟩
  · rename_i tid buf rest hfull
    exact ⟨rfl,rfl,rfl,rfl,⟨_,rfl⟩,fun _ => ⟨⟨tid,.write buf,true⟩,by simp,rfl,rfl⟩⟩

lemma signalNotEmpty_spec (c : Channel) : c.signalNotEmpty.pipe = c.pipe ∧ c.signalNotEmpty.full = c.full ∧
    c.signalNotEmpty.log = c.log ∧ c.signalNotEmpty.deaf = c.deaf ∧
    (∃ rs, c.signalNotEmpty.runnable = c.runnable ++ rs) ∧
    (c.signalNotEmpty.notEmpty ≠ [] → Pending true c.signalNotEmpty.runnable) := by
  simp only [signalNotEmpty]
  split
  · rename_i hempty
    exact ⟨rfl,rfl,rfl,rfl,⟨[],by simp⟩,fun h => absurd hempty h⟩
  · rename_i tid count rest hempty
    exact ⟨rfl,rfl,rfl,rfl,⟨_,rfl⟩,fun _ => ⟨⟨tid,.read count,true⟩,by simp,rfl,rfl⟩⟩

def leavesReaders (c : Channel) (count : Nat) : Prop :=
  c.notEmpty = [] ∨ Pending true c.runnable ∨ c.pipe.writers ≠ 0 ∧ c.pipe.buffered ≤ count

def leavesWriters (c : Channel) (buf : List Nat) : Prop :=
  c.full = [] ∨ Pending false c.runnable ∨ pipeSz ≤ c.pipe.buffered + buf.length

instance (c : Channel) (count : Nat) : Decidable (c.leavesReaders count) :=
  inferInstanceAs (Decidable (_ ∨ _ ∨ _ ∧ _))

instance (c : Channel) (buf : List Nat) : Decidable (c.leavesWriters buf) := inferInstanceAs (Decidable (_ ∨ _ ∨ _))

lemma kpipeRead_awake (hf : Flow c l) (tid count : Nat) (hr : c.leavesReaders count)
    (hw : c.full ≠ [] → c.pipe.buffered ≠ pipeSz ∨ c.pipe.readers = 0 → Pending false c.runnable)
    (hs : ∀ tid buf written, .wrote tid buf written true ∈ c.log → written = 0) : Awake (c.kpipeRead tid count) := by
  simp only [kpipeRead]
  split
  · rename_i hempty
    split
    · rename_i hclosed
      refine ⟨fun hne _ => ?_,hw,by simpa using hs⟩
      rcases hr with hnone | hp | ⟨hopen,-⟩
      · exact absurd hnone hne
      · exact hp
      · exact absurd hclosed hopen
    · rename_i hopen
      exact ⟨fun _ h => absurd h (by simp [hempty,hopen]),hw,hs⟩
  · obtain ⟨hbytes,hheld,hends⟩ := Kpipe.takeBytes_spec count hf.held
    have hlen := hf.held.buffered
    have hleft : (c.pipe.takeBytes count).1.buffered = c.pipe.buffered - count := by
      rw [hheld.buffered,List.length_drop,hlen]
    have hmoved : (c.pipe.takeBytes count).2.length = min count c.pipe.buffered := by
      rw [hbytes,List.length_take,hlen]
    have hlog : ∀ tid' buf written, .wrote tid' buf written true ∈ c.log ++ [.read tid (c.pipe.takeBytes count).2] →
        written = 0 := by simpa using hs
    have hread : c.notEmpty ≠ [] → (c.pipe.takeBytes count).1.buffered ≠ 0 ∨ (c.pipe.takeBytes count).1.writers = 0 →
        Pending true c.runnable := by
      intro hne hwhy
      rcases hr with hnone | hp | ⟨hopen,hall⟩
      · exact absurd hnone hne
      · exact hp
      · rw [hends.writers] at hwhy
        exact absurd hwhy (by simp [hopen]; omega)
    split
    · obtain ⟨hp,hn,hl,-,⟨rs,hrun⟩,hwake⟩ := signalFull_spec { c with
        pipe := (c.pipe.takeBytes count).1, log := c.log ++ [.read tid (c.pipe.takeBytes count).2] }
      refine ⟨fun hne hwhy => ?_,fun hne _ => hwake hne,by rw [hl]; exact hlog⟩
      rw [hn] at hne
      rw [hp] at hwhy
      rw [hrun]
      exact (hread hne hwhy).append rs
    · refine ⟨hread,fun hne hwhy => hw hne ?_,hlog⟩
      change (c.pipe.takeBytes count).1.buffered ≠ pipeSz ∨ (c.pipe.takeBytes count).1.readers = 0 at hwhy
      rw [hends.readers] at hwhy
      refine hwhy.imp_left fun hb => ?_
      omega

lemma kpipeWrite_awake (hf : Flow c l) (tid : Nat) (buf : List Nat) (signalled : Bool)
    (hdeaf : c.deaf = true → c.pipe.readers = 0) (hopen : signalled = true → c.pipe.readers ≠ 0)
    (hw : c.pipe.readers ≠ 0 → c.leavesWriters buf)
    (hout : c.pipe.readers = 0 → c.full ≠ [] → Pending false c.runnable)
    (hr : c.notEmpty ≠ [] → c.pipe.buffered ≠ 0 ∨ c.pipe.writers = 0 → Pending true c.runnable)
    (hs : ∀ tid buf written, .wrote tid buf written true ∈ c.log → written = 0) :
    Awake (c.kpipeWrite tid buf signalled) := by
  simp only [kpipeWrite]
  split
  · rename_i hno
    exact ⟨hr,fun hne _ => hout hno.2 hne,by simpa using hs⟩
  · rename_i hyes
    have hreaders : c.pipe.readers ≠ 0 := fun hz => by
      cases signalled with
      | true => exact hopen rfl hz
      | false => exact hyes ⟨rfl,hz⟩
    have hheard : c.deaf = false := by
      cases hd : c.deaf with
      | true => exact absurd (hdeaf hd) hreaders
      | false => rfl
    split
    · rename_i hfull
      exact ⟨hr,fun _ h => absurd h (by simp [hfull,hreaders]),hs⟩
    · obtain ⟨hcount,hheld,hends⟩ := Kpipe.putBytes_spec buf hf.held
      have hlen := hf.held.buffered
      have hfits : l.length ≤ pipeSz := hf.held.fits
      have hnow : (c.pipe.putBytes buf).1.buffered = c.pipe.buffered + (c.pipe.putBytes buf).2 := by
        rw [hheld.buffered,List.length_append,List.length_take,hlen,hcount]
        omega
      have hlog : ∀ tid' buf' written,
          .wrote tid' buf' written true ∈ c.log ++ [.wrote tid buf (c.pipe.putBytes buf).2 c.deaf] → written = 0 := by
        simpa [hheard] using hs
      have hwrite : c.full ≠ [] →
          (c.pipe.putBytes buf).1.buffered ≠ pipeSz ∨ (c.pipe.putBytes buf).1.readers = 0 →
          Pending false c.runnable := by
        intro hne hwhy
        rcases hw hreaders with hnone | hp | hall
        · exact absurd hnone hne
        · exact hp
        · rw [hends.readers] at hwhy
          exact absurd hwhy (by simp [hreaders]; omega)
      split
      · obtain ⟨hp,hn,hl,-,⟨rs,hrun⟩,hwake⟩ := signalNotEmpty_spec { c with
          pipe := (c.pipe.putBytes buf).1, log := c.log ++ [.wrote tid buf (c.pipe.putBytes buf).2 c.deaf] }
        refine ⟨fun hne _ => hwake hne,fun hne hwhy => ?_,by rw [hl]; exact hlog⟩
        rw [hn] at hne
        rw [hp] at hwhy
        rw [hrun]
        exact (hwrite hne hwhy).append rs
      · refine ⟨fun hne hwhy => hr hne ?_,hwrite,hlog⟩
        change (c.pipe.putBytes buf).1.buffered ≠ 0 ∨ (c.pipe.putBytes buf).1.writers = 0 at hwhy
        rw [hends.writers] at hwhy
        refine hwhy.imp_left fun hb => ?_
        omega

def taken (c : Channel) (r : Runnable) : Channel := { c with runnable := c.runnable.erase r }

def heeds (c : Channel) : Op → Bool
  | .call _ _ | .close => true
  | .run tid => (c.runnable.find? fun r => r.tid == tid).all fun r => !r.signalled ||
      match r.request with
      | .read count => decide ((c.taken r).leavesReaders count)
      | .write buf => c.pipe.readers != 0 && decide ((c.taken r).leavesWriters buf)
  | .refDecrease fd =>
    let p := c.pipe.refDecrease fd
    if fd = c.pipe.fdReader then
      c.pipe.readers != 0 && (p.readers != 0 || c.full.isEmpty && !decide (Pending false c.runnable))
    else p.writers != 0 || c.notEmpty.isEmpty || decide (Pending true c.runnable)

structure Heeded (c : Channel) : Prop where
  flow : ∃ l, Flow c l
  awake : Awake c
  deaf : c.deaf = true → c.pipe.readers = 0

lemma kpipeRead_deaf (tid count : Nat) (h : c.deaf = true → c.pipe.readers = 0) (hf : Flow c l) :
    (c.kpipeRead tid count).deaf = true → (c.kpipeRead tid count).pipe.readers = 0 := by
  simp only [kpipeRead]
  split
  · split <;> exact h
  · have hends := (Kpipe.takeBytes_spec count hf.held).2.2
    split
    · obtain ⟨hp,-,-,hd,-⟩ := signalFull_spec { c with
        pipe := (c.pipe.takeBytes count).1, log := c.log ++ [.read tid (c.pipe.takeBytes count).2] }
      rw [hp,hd]
      exact fun hc => hends.readers.trans (h hc)
    · exact fun hc => hends.readers.trans (h hc)

lemma kpipeWrite_deaf (tid : Nat) (buf : List Nat) (signalled : Bool) (h : c.deaf = true → c.pipe.readers = 0)
    (hf : Flow c l) :
    (c.kpipeWrite tid buf signalled).deaf = true → (c.kpipeWrite tid buf signalled).pipe.readers = 0 := by
  simp only [kpipeWrite]
  split
  · exact h
  · split
    · exact h
    · have hends := (Kpipe.putBytes_spec buf hf.held).2.2
      split
      · obtain ⟨hp,-,-,hd,-⟩ := signalNotEmpty_spec { c with
          pipe := (c.pipe.putBytes buf).1, log := c.log ++ [.wrote tid buf (c.pipe.putBytes buf).2 c.deaf] }
        rw [hp,hd]
        exact fun hc => hends.readers.trans (h hc)
      · exact fun hc => hends.readers.trans (h hc)

lemma Heeded.resume (h : Heeded c) (hg : r.signalled = true → match r.request with
      | .read count => (c.taken r).leavesReaders count
      | .write buf => c.pipe.readers ≠ 0 ∧ (c.taken r).leavesWriters buf) : Heeded (c.resume r) := by
  obtain ⟨l,hl⟩ := h.flow
  have hflow : Flow (c.taken r) l := hl.congr rfl rfl
  have hkeep : ∀ {read}, r.signalled = false ∨ r.request.isRead ≠ read → Pending read c.runnable →
      Pending read (c.taken r).runnable := fun hr hp => hp.erase hr
  have hflow' : ∃ l', Flow (c.resume r) l' := by
    simp only [Channel.resume]
    split
    · exact kpipeRead_flow hflow _ _
    · exact kpipeWrite_flow hflow _ _ _
  cases hreq : r.request with
  | read count =>
    have hres : c.resume r = (c.taken r).kpipeRead r.tid count := by simp only [Channel.resume,hreq,taken]
    rw [hres] at hflow' ⊢
    refine ⟨hflow',kpipeRead_awake hflow _ _ ?_ (fun hne hwhy => ?_) h.awake.stores,
      kpipeRead_deaf _ _ h.deaf hflow⟩
    · cases hsig : r.signalled with
      | true => simpa [hreq] using hg hsig
      | false =>
        by_cases hne : c.notEmpty = []
        · exact .inl hne
        · by_cases hwhy : c.pipe.buffered ≠ 0 ∨ c.pipe.writers = 0
          · exact .inr (.inl (hkeep (.inl hsig) (h.awake.reader hne hwhy)))
          · refine .inr (.inr ⟨fun hz => hwhy (.inr hz),?_⟩)
            have hz : c.pipe.buffered = 0 := by
              by_contra hb
              exact hwhy (.inl hb)
            exact hz.trans_le (Nat.zero_le _)
    · exact hkeep (.inr (by simp [hreq,Request.isRead])) (h.awake.writer hne hwhy)
  | write buf =>
    have hres : c.resume r = (c.taken r).kpipeWrite r.tid buf r.signalled := by
      simp only [Channel.resume,hreq,taken]
    rw [hres] at hflow' ⊢
    have hsig : r.signalled = true → c.pipe.readers ≠ 0 ∧ (c.taken r).leavesWriters buf := fun hs => by
      simpa [hreq] using hg hs
    refine ⟨hflow',kpipeWrite_awake hflow _ _ _ h.deaf (fun hs => (hsig hs).1) (fun hopen => ?_)
      (fun hz hne => ?_) (fun hne hwhy => ?_) h.awake.stores,kpipeWrite_deaf _ _ _ h.deaf hflow⟩
    · cases hs : r.signalled with
      | true => exact (hsig hs).2
      | false =>
        by_cases hne : c.full = []
        · exact .inl hne
        · by_cases hfull : c.pipe.buffered = pipeSz
          · exact .inr (.inr (hfull.symm.trans_le (Nat.le_add_right _ _)))
          · exact .inr (.inl (hkeep (.inl hs) (h.awake.writer hne (.inl hfull))))
    · cases hs : r.signalled with
      | true => exact absurd hz (hsig hs).1
      | false => exact hkeep (.inl hs) (h.awake.writer hne (.inr hz))
    · exact hkeep (.inr (by simp [hreq,Request.isRead])) (h.awake.reader hne hwhy)

lemma Heeded.refDecrease {fd : Nat} (h : Heeded c) (hg : c.heeds (.refDecrease fd) = true) :
    Heeded { c with pipe := c.pipe.refDecrease fd, deaf := c.deaf || (c.pipe.refDecrease fd).readers == 0 } := by
  obtain ⟨l,hl⟩ := h.flow
  have hheld := hl.held.refDecrease fd
  have hbuf : (c.pipe.refDecrease fd).buffered = c.pipe.buffered := hheld.buffered.trans hl.held.buffered.symm
  simp only [heeds] at hg
  split at hg
  · rename_i hfd
    have hwr : (c.pipe.refDecrease fd).writers = c.pipe.writers := by simp only [Kpipe.refDecrease,if_pos hfd]
    simp only [Bool.and_eq_true,Bool.or_eq_true,bne_iff_ne,ne_eq,List.isEmpty_iff,Bool.not_eq_true',
      decide_eq_false_iff_not] at hg
    have hquiet : c.deaf = false := by
      cases hd : c.deaf with
      | true => exact absurd (h.deaf hd) hg.1
      | false => rfl
    refine ⟨⟨l,hheld,hl.stream⟩,⟨fun hne hwhy => ?_,fun hne hwhy => ?_,h.awake.stores⟩,fun hd => ?_⟩
    · refine h.awake.reader hne ?_
      simpa only [hbuf,hwr] using hwhy
    · rcases hg.2 with hopen | ⟨hnone,-⟩
      · refine h.awake.writer hne (.inl ?_)
        rcases hwhy with hb | hz
        · exact fun hfull => hb (hbuf.trans hfull)
        · exact absurd hz hopen
      · exact absurd hnone hne
    · simpa [hquiet] using hd
  · rename_i hfd
    have hrd : (c.pipe.refDecrease fd).readers = c.pipe.readers := by simp only [Kpipe.refDecrease,if_neg hfd]
    simp only [Bool.or_eq_true,bne_iff_ne,ne_eq,List.isEmpty_iff,decide_eq_true_eq] at hg
    refine ⟨⟨l,hheld,hl.stream⟩,⟨fun hne hwhy => ?_,fun hne hwhy => ?_,h.awake.stores⟩,fun hd => ?_⟩
    · rcases hg with (hopen | hnone) | hp
      · refine h.awake.reader hne (.inl ?_)
        rcases hwhy with hb | hz
        · exact fun hempty => hb (hbuf.trans hempty)
        · exact absurd hz hopen
      · exact absurd hnone hne
      · exact hp
    · refine h.awake.writer hne ?_
      simpa only [hbuf,hrd] using hwhy
    · have hor : c.deaf = true ∨ (c.pipe.refDecrease fd).readers = 0 := by simpa using hd
      rw [hrd] at hor ⊢
      exact hor.elim h.deaf id

lemma Heeded.step {o : Op} (h : Heeded c) (hg : c.heeds o = true) (hs : c.step o = some c') : Heeded c' := by
  obtain ⟨l,hl⟩ := h.flow
  simp only [Channel.step] at hs
  split at hs
  · cases hs
  cases o with
  | call tid request =>
    simp only at hs
    split at hs
    · cases hs
    · cases hs
      exact ⟨⟨l,hl.congr rfl rfl⟩,⟨fun hne hwhy => (h.awake.reader hne hwhy).append _,
        fun hne hwhy => (h.awake.writer hne hwhy).append _,h.awake.stores⟩,h.deaf⟩
  | run tid =>
    obtain ⟨r,hr,rfl⟩ := Option.map_eq_some_iff.mp hs
    refine h.resume fun hsig => ?_
    simp only [heeds,hr,Option.all_some,hsig,Bool.not_true,Bool.false_or] at hg
    split at hg
    · exact of_decide_eq_true hg
    · simpa using hg
  | refDecrease fd =>
    cases hs
    exact h.refDecrease hg
  | close =>
    cases hs
    exact ⟨⟨l,hl.congr rfl rfl⟩,⟨h.awake.reader,h.awake.writer,h.awake.stores⟩,h.deaf⟩

def heededRun (fdReader fdWriter : Nat) (ops : List Op) : Option Channel :=
  ops.foldlM (Run.guarded heeds step) (init fdReader fdWriter)

theorem pipe_wakeups (fdReader fdWriter : Nat) (ops : List Op) (c : Channel)
    (h : heededRun fdReader fdWriter ops = some c) :
    (c.notEmpty ≠ [] → c.pipe.buffered ≠ 0 ∨ c.pipe.writers = 0 →
      ∃ r ∈ c.runnable, r.signalled = true ∧ r.request.isRead = true) ∧
    (c.full ≠ [] → c.pipe.buffered ≠ pipeSz ∨ c.pipe.readers = 0 →
      ∃ r ∈ c.runnable, r.signalled = true ∧ r.request.isRead = false) ∧
    ∀ tid buf written, .wrote tid buf written true ∈ c.log → written = 0 := by
  have hc : Heeded c := by
    refine Run.invariant (P := Heeded) (fun s o t hs hstep => ?_) ⟨⟨[],?_⟩,⟨?_,?_,?_⟩,?_⟩ h
    · obtain ⟨hg,hstep⟩ := Run.guarded_some.mp hstep
      exact hs.step hg hstep
    · exact ⟨Kpipe.init_holds _ _,rfl⟩
    all_goals simp [init]
  exact ⟨hc.awake.reader,hc.awake.writer,hc.awake.stores⟩

def waitingReaders : List Op :=
  [.call 1 (.read 8),.call 2 (.read 8),.run 1,.run 2,.call 3 (.write [10,11]),.run 3]

theorem pipe_wakeups_waiting : ∃ c, heededRun 3 4 waitingReaders = some c ∧ c.notEmpty = [(2,8)] ∧
    c.pipe.buffered = 2 ∧ ∃ r ∈ c.runnable, r.signalled = true ∧ r.request.isRead = true := by
  have hrun : (heededRun 3 4 waitingReaders).any (fun c => decide (c.notEmpty = [(2,8)]) &&
      decide (c.pipe.buffered = 2)) = true := by decide +kernel
  obtain ⟨c,hc,hok⟩ := (any_eq_true _ _).mp hrun
  simp only [Bool.and_eq_true,decide_eq_true_eq] at hok
  exact ⟨c,hc,hok.1,hok.2,(pipe_wakeups 3 4 waitingReaders c hc).1 (by simp [hok.1]) (by simp [hok.2])⟩

def lastWriterCloses : List Op := [.call 1 (.read 8),.run 1,.refDecrease 4]

def partialRead : List Op :=
  [.call 1 (.read 5),.call 2 (.read 5),.run 1,.run 2,.call 3 (.write [0,1,2,3,4,5,6,7]),.run 3,.run 1]

def storeAfterClose : List Op :=
  [.call 1 (.write (List.replicate 512 0)),.run 1,.call 2 (.write [7]),.run 2,.call 3 (.read 1),.run 3,
    .refDecrease 3,.run 2]

theorem pipe_wakeups_lost :
    (∃ c, run 3 4 lastWriterCloses = some c ∧ c.notEmpty = [(1,8)] ∧ c.pipe.writers = 0 ∧ c.runnable = []) ∧
    (∃ c, run 3 4 partialRead = some c ∧ c.notEmpty = [(2,5)] ∧ c.pipe.buffered = 3 ∧ c.runnable = []) ∧
    ∃ c, run 3 4 storeAfterClose = some c ∧ .wrote 2 [7] 1 true ∈ c.log := by
  have hclose : (run 3 4 lastWriterCloses).any (fun c => decide (c.notEmpty = [(1,8)]) &&
      decide (c.pipe.writers = 0) && decide (c.runnable = [])) = true := by decide +kernel
  have hpartial : (run 3 4 partialRead).any (fun c => decide (c.notEmpty = [(2,5)]) &&
      decide (c.pipe.buffered = 3) && decide (c.runnable = [])) = true := by decide +kernel
  have hstore : (run 3 4 storeAfterClose).any (fun c => decide (.wrote 2 [7] 1 true ∈ c.log)) = true := by decide +kernel
  obtain ⟨c1,hc1,hok1⟩ := (any_eq_true _ _).mp hclose
  obtain ⟨c2,hc2,hok2⟩ := (any_eq_true _ _).mp hpartial
  obtain ⟨c3,hc3,hok3⟩ := (any_eq_true _ _).mp hstore
  simp only [Bool.and_eq_true,decide_eq_true_eq] at hok1 hok2 hok3
  exact ⟨⟨c1,hc1,hok1.1.1,hok1.1.2,hok1.2⟩,⟨c2,hc2,hok2.1.1,hok2.1.2,hok2.2⟩,c3,hc3,hok3⟩

end Channel
end MappedMemory
