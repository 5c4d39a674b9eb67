import MappedMemory.Jbd.Commit

namespace MappedMemory.Jbd

open Function (update update_self)
open Bytes Sfs Routine Crash

variable {s s0 t : Volume} {d e : Memory} {w : Write} {b i k o start : Nat} {n lb pb : Nat} {f : Nat → Byte}
  {Q : Volume → Prop} {rest : List Bool}

def InJournal (start b : Nat) : Prop := ∃ lb, lb < journalBlks ∧ b = journalBmap start lb

def SameBlk (d e : Memory) (b : Nat) : Prop := ∀ k, k < bdevBlkSize → buffer d b k = buffer e b k

def SameImage (start : Nat) (d e : Memory) : Prop := ∀ b, ¬ InJournal start b → SameBlk d e b

def updated (s : Volume) : Memory := fun x => if x / bdevBlkSize ∈ s.datablks then s.cache x else s.device x

lemma journalBlks_eq : journalBlks = 130 := by decide

lemma journalBmap_inj {m : Nat} (hm : m < journalBlks) (hn : n < journalBlks)
    (h : journalBmap start m = journalBmap start n) : m = n := by
  rw [journalBlks_eq] at hm hn
  simp only [journalBmap] at h
  omega

lemma dataBlk_lt (h : i < journalSize) : jdataStartBlk + i < journalBlks := Nat.add_lt_add_left h _

lemma lowBlk_ne (h : lb < jdataStartBlk) : lb ≠ jdataStartBlk + i := by omega

lemma buffer_put_same (h : k < bdevBlkSize) : buffer (put d w) w.blk k = w.data k := by
  rw [buffer,put,fill_inside (by omega) (by omega),Nat.add_sub_cancel_left]

lemma put_other (h : b ≠ w.blk) : SameBlk (put d w) d b := by
  intro k hk
  simp only [bdevBlkSize] at hk
  have : 512 * b + k < 512 * w.blk ∨ 512 * w.blk + 512 ≤ 512 * b + k := by omega
  rw [buffer,put,buffer]
  exact fill_outside this

lemma SameBlk.trans {f : Memory} (h1 : SameBlk d e b) (h2 : SameBlk e f b) : SameBlk d f b :=
  fun k hk => (h1 k hk).trans (h2 k hk)

lemma SameBlk.word (h : SameBlk d e b) (ho : o + 4 ≤ bdevBlkSize) :
    word d (bdevBlkSize * b + o) 4 = word e (bdevBlkSize * b + o) 4 := by
  refine word_shift_congr fun x hx => ?_
  rw [Nat.add_assoc]
  exact h (o + x) (by omega)

lemma headerBlks_congr (h : SameBlk d e (journalBmap start headerBlk)) : headerBlks start d = headerBlks start e :=
  h.word (o := 0) (by decide)

lemma mappedBlk_eq (hi : i < journalSize) :
    mappedBlk start d i = word d (bdevBlkSize * journalBmap start bmapStartBlk + 4 * i) 4 := by
  simp only [journalSize] at hi
  rw [mappedBlk,show bdevBlkSize / sizeofBlkT = 128 from rfl,Nat.div_eq_of_lt hi,Nat.mod_eq_of_lt hi]
  rfl

lemma mappedBlk_congr (hi : i < journalSize) (h : SameBlk d e (journalBmap start bmapStartBlk)) :
    mappedBlk start d i = mappedBlk start e i := by
  rw [mappedBlk_eq hi,mappedBlk_eq hi]
  simp only [journalSize] at hi
  exact h.word (by simp only [bdevBlkSize]; omega)

lemma buffer_updated_logged (hb : b ∈ s.datablks) (hk : k < bdevBlkSize) :
    buffer (updated s) b k = buffer s.cache b k := by
  have hd : (bdevBlkSize * b + k) / bdevBlkSize = b := by
    simp only [bdevBlkSize] at hk ⊢
    omega
  exact if_pos (hd.symm ▸ hb)

lemma buffer_updated_other (hb : b ∉ s.datablks) (hk : k < bdevBlkSize) :
    buffer (updated s) b k = buffer s.device b k := by
  have hd : (bdevBlkSize * b + k) / bdevBlkSize = b := by
    simp only [bdevBlkSize] at hk ⊢
    omega
  exact if_neg (hd.symm ▸ hb)

structure Ready (s : Volume) : Prop where
  fits : ∀ b ∈ s.datablks, b < 2^32
  apart : ∀ b ∈ s.datablks, ¬ InJournal s.start b
  nodup : s.datablks.Nodup
  held : ∀ b ∈ s.datablks, 0 < s.refs b
  unlocked : ∀ b, b ∈ s.datablks ∨ InJournal s.start b → s.locked b = false
  erased : headerBlks s.start s.device = 0

structure Staging (s0 : Volume) (i : Nat) (d : Memory) : Prop where
  image : SameImage s0.start d s0.device
  header : headerBlks s0.start d = 0
  data : ∀ j b, j < i → s0.datablks[j]? = some b →
    ∀ k, k < bdevBlkSize → buffer d (journalBmap s0.start (jdataStartBlk + j)) k = buffer s0.cache b k

def Mapped (s0 : Volume) (d : Memory) : Prop :=
  ∀ j b, s0.datablks[j]? = some b → mappedBlk s0.start d j = b

structure Committed (s0 : Volume) (i : Nat) (d : Memory) : Prop where
  others : ∀ b, ¬ InJournal s0.start b → b ∉ s0.datablks → SameBlk d s0.device b
  header : headerBlks s0.start d = s0.datablks.length
  data : ∀ j b, s0.datablks[j]? = some b →
    ∀ k, k < bdevBlkSize → buffer d (journalBmap s0.start (jdataStartBlk + j)) k = buffer s0.cache b k
  mapped : Mapped s0 d
  home : ∀ j b, j < i → s0.datablks[j]? = some b → SameBlk d s0.cache b

lemma Staging.recovers (h : Staging s0 i d) : SameImage s0.start (recover s0.start d) s0.device := by
  rw [recover,h.header]
  exact h.image

lemma Committed.put (h : Committed s0 i d) (hr : Ready s0) (hn : s0.datablks.length < journalSize)
    (hb : s0.datablks[i]? = some b) (hblk : w.blk = b) (hw : ∀ k, k < bdevBlkSize → w.data k = buffer s0.cache b k) :
    Committed s0 (i + 1) (put d w) := by
  have hmem : b ∈ s0.datablks := List.mem_of_getElem? hb
  have hne : ∀ {c}, InJournal s0.start c → c ≠ w.blk := by
    rintro c hc rfl
    exact hr.apart _ (hblk ▸ hmem) hc
  have hidx : ∀ {j c}, s0.datablks[j]? = some c → j < s0.datablks.length := fun hj => by
    obtain ⟨h,-⟩ := List.getElem?_eq_some_iff.mp hj
    exact h
  have hjournal : ∀ {lb}, lb < journalBlks → SameBlk (Jbd.put d w) d (journalBmap s0.start lb) := fun hlb =>
    put_other (hne ⟨_,hlb,rfl⟩)
  refine ⟨?_,?_,?_,?_,?_⟩
  · intro c hc hc'
    have hcw : c ≠ w.blk := fun he => hc' (he.trans hblk ▸ hmem)
    exact (put_other hcw).trans (h.others c hc hc')
  · rw [headerBlks_congr (hjournal (by decide))]
    exact h.header
  · intro j c hj k hk
    rw [hjournal (dataBlk_lt (lt_trans (hidx hj) hn)) k hk]
    exact h.data j c hj k hk
  · intro j c hj
    rw [mappedBlk_congr (lt_trans (hidx hj) hn) (hjournal (by decide))]
    exact h.mapped j c hj
  · intro j c hj hc
    by_cases he : c = w.blk
    · intro k hk
      rw [he,buffer_put_same hk,hw k hk,hblk]
    · have hji : j ≠ i := by
        rintro rfl
        rw [hb] at hc
        exact he (hblk ▸ (Option.some.inj hc).symm)
      exact (put_other he).trans (h.home j c (by omega) hc)

lemma Committed.redo (h : Committed s0 i d) (hr : Ready s0) (hn : s0.datablks.length < journalSize)
    (hb : s0.datablks[i]? = some b) : Committed s0 (i + 1) (redo s0.start d i) :=
  h.put hr hn hb (h.mapped i b hb) (h.data i b hb)

lemma Committed.image (h : Committed s0 s0.datablks.length d) : SameImage s0.start d (updated s0) := by
  intro b hb k hk
  by_cases hmem : b ∈ s0.datablks
  · obtain ⟨j,hj⟩ := List.getElem?_of_mem hmem
    obtain ⟨hlt,-⟩ := List.getElem?_eq_some_iff.mp hj
    rw [buffer_updated_logged hmem hk]
    exact h.home j b hlt hj k hk
  · rw [buffer_updated_other hmem hk]
    exact h.others b hb hmem k hk

lemma Committed.recovers (h : Committed s0 i d) (hr : Ready s0) (hn : s0.datablks.length < journalSize) :
    SameImage s0.start (recover s0.start d) (updated s0) := by
  have hredo : ∀ n, n ≤ s0.datablks.length → Committed s0 n ((List.range n).foldl (Jbd.redo s0.start) d) := by
    intro n hle
    induction n with
    | zero => exact ⟨h.others,h.header,h.data,h.mapped,fun j _ hj => absurd hj (Nat.not_lt_zero j)⟩
    | succ n ih =>
      rw [List.range_succ,List.foldl_append]
      exact (ih (by omega)).redo hr hn (List.getElem?_eq_getElem (by omega))
  rw [recover,h.header]
  exact (hredo _ le_rfl).image

def Safe (s0 : Volume) (d : Memory) : Prop :=
  SameImage s0.start (recover s0.start d) s0.device ∨ SameImage s0.start (recover s0.start d) (updated s0)

def Traced (s0 s : Volume) : Prop :=
  ∃ ws, s.issued = s0.issued ++ ws ∧ s.device = ws.foldl put s0.device ∧ Throughout put (Safe s0) s0.device ws

lemma Traced.quiet (h : Traced s0 s) (hi : t.issued = s.issued) (hd : t.device = s.device) : Traced s0 t := by
  obtain ⟨ws,h1,h2,h3⟩ := h
  exact ⟨ws,hi.trans h1,hd.trans h2,h3⟩

lemma Traced.write (h : Traced s0 s) (hi : t.issued = s.issued ++ [w]) (hd : t.device = put s.device w)
    (hs : Safe s0 t.device) : Traced s0 t := by
  obtain ⟨ws,h1,h2,h3⟩ := h
  have hput : t.device = put (ws.foldl put s0.device) w := by rw [hd,h2]
  refine ⟨ws ++ [w],?_,?_,h3.snoc (hput ▸ hs)⟩
  · rw [hi,h1,List.append_assoc]
  · rw [hput,List.foldl_append]
    rfl

def Attempt (s0 : Volume) (x : JbdM JbdErr) (s : Volume) (Q : Volume → Prop) : Prop :=
  ∃ e t, x s = some (e,t) ∧ Traced s0 t ∧ (e = .ok → Q t) ∧ (s.supply = [] → e = .ok ∧ t.supply = [])

lemma Attempt.andThen {x y : JbdM JbdErr} {R : Volume → Prop} (hx : Attempt s0 x s Q)
    (hy : ∀ t, Traced s0 t → Q t → Attempt s0 y t R) : Attempt s0 (andThen x y) s R := by
  obtain ⟨e,t,hrun,htr,hq,hok⟩ := hx
  cases e with
  | noMem => exact ⟨.noMem,t,by rw [Jbd.andThen,bind_of_some hrun]; rfl,htr,nofun,fun h => nomatch (hok h).1⟩
  | ok =>
    obtain ⟨e,u,hrun',htr',hr,hok'⟩ := hy t htr (hq rfl)
    refine ⟨e,u,?_,htr',hr,fun h => hok' (hok h).2⟩
    rw [Jbd.andThen,bind_of_some hrun]
    exact hrun'

def logged (s : Volume) (pb n : Nat) (f : Nat → Byte) (rest : List Bool) : Volume := { s with
  cache := fill s.cache (bdevBlkSize * pb) n f
  device := put s.device ⟨pb,buffer (fill s.cache (bdevBlkSize * pb) n f) pb⟩
  issued := s.issued ++ [⟨pb,buffer (fill s.cache (bdevBlkSize * pb) n f) pb⟩]
  supply := rest }

lemma grant_run (s : Volume) :
    ∃ ok rest, grant s = some (ok,{ s with supply := rest }) ∧ (s.supply = [] → ok = true ∧ rest = []) := by
  unfold grant
  cases h : s.supply with
  | nil => exact ⟨true,[],by simp [← h],fun _ => ⟨rfl,rfl⟩⟩
  | cons ok rest => exact ⟨ok,rest,rfl,nofun⟩

lemma sleeplockAcquire_run (h : s.locked b = false) :
    sleeplockAcquire b s = some ((),{ s with locked := update s.locked b true }) := by
  rw [sleeplockAcquire,get_bind,bind_of_some (a := ()) (u := s) (by simp [kassert,h])]
  rfl

lemma sleeplockRelease_run (h : s.locked b = true) :
    sleeplockRelease b s = some ((),{ s with locked := update s.locked b false }) := by
  rw [sleeplockRelease,get_bind,bind_of_some (a := ()) (u := s) (by simp [kassert,h])]
  rfl

lemma bdevReleaseBlk_run (h : s.locked b = true) (hr : 0 < s.refs b) :
    bdevReleaseBlk b s = some ((),{ s with
      locked := update s.locked b false
      refs := update s.refs b (s.refs b - 1) }) := by
  rw [bdevReleaseBlk,bind_of_some (sleeplockRelease_run h),get_bind,
    bind_of_some (a := ()) (u := { s with locked := update s.locked b false }) (by simp [kassert,hr])]
  rfl

def fetched (s : Volume) (b : Nat) (rest : List Bool) : Volume := { s with
  refs := update s.refs b (s.refs b + 1)
  locked := update s.locked b true
  supply := rest }

lemma bdevGetBlk_run (h : s.locked b = false) :
    ∃ ok rest, bdevGetBlk b s = some (ok,if ok then fetched s b rest else { s with supply := rest }) ∧
      (s.supply = [] → ok = true ∧ rest = []) := by
  obtain ⟨ok,rest,hg,hs⟩ := grant_run s
  refine ⟨ok,rest,?_,hs⟩
  rw [bdevGetBlk,bind_of_some hg]
  cases ok with
  | false => rfl
  | true =>
    let u : Volume := { s with refs := update s.refs b (s.refs b + 1), supply := rest }
    exact bind_of_some (f := fun _ => pure true) (sleeplockAcquire_run (s := u) h)

def wrote (s : Volume) (b : Nat) (rest : List Bool) : Volume := { s with
  device := put s.device ⟨b,buffer s.cache b⟩
  issued := s.issued ++ [⟨b,buffer s.cache b⟩]
  supply := rest }

lemma bdevWriteBlk_run (s : Volume) (b : Nat) :
    ∃ e rest, bdevWriteBlk b s = some (e,if e = .ok then wrote s b rest else { s with supply := rest }) ∧
      (s.supply = [] → e = .ok ∧ rest = []) := by
  obtain ⟨ok,rest,hg,hs⟩ := grant_run s
  refine ⟨if ok then .ok else .noMem,rest,?_,fun h => ?_⟩
  · rw [bdevWriteBlk,bind_of_some hg]
    cases ok <;> rfl
  · rw [(hs h).1]
    exact ⟨rfl,(hs h).2⟩

lemma logBlk_attempt {copy : JbdM Unit} (htr : Traced s0 s) (hl : s.locked pb = false)
    (hcopy : ∀ u, u.cache = s.cache → u.locked = update s.locked pb true →
      copy u = some ((),{ u with cache := fill s.cache (bdevBlkSize * pb) n f }))
    (hsafe : Safe s0 (logged s pb n f []).device) (hQ : ∀ rest, Q (logged s pb n f rest)) :
    Attempt s0 (logBlk pb copy) s Q := by
  obtain ⟨ok,rest,hget,hok⟩ := bdevGetBlk_run hl
  unfold logBlk Attempt
  rw [bind_of_some hget]
  cases ok with
  | false => exact ⟨.noMem,_,rfl,htr.quiet rfl rfl,nofun,fun h => nomatch (hok h).1⟩
  | true =>
    let u : Volume := { fetched s pb rest with cache := fill s.cache (bdevBlkSize * pb) n f }
    have hcopied : copy (fetched s pb rest) = some ((),u) := hcopy _ rfl rfl
    obtain ⟨e,rest',hw,hok'⟩ := bdevWriteBlk_run u pb
    simp only [if_true,unless_true]
    rw [bind_of_some hcopied,andThen,bind_of_some hw]
    cases e with
    | noMem => exact ⟨.noMem,_,rfl,htr.quiet rfl rfl,nofun,fun h => nomatch (hok' (hok h).2).1⟩
    | ok =>
      have hrel := bdevReleaseBlk_run (s := wrote u pb rest') (b := pb) (update_self ..)
        (by simp [wrote,u,fetched])
      have hback : some ((),logged s pb n f rest') = bdevReleaseBlk pb (wrote u pb rest') := by
        rw [hrel]
        simp [logged,wrote,u,fetched,← hl]
      exact ⟨.ok,_,bind_of_some (f := fun _ => pure JbdErr.ok) hback.symm,htr.write rfl rfl hsafe,
        fun _ => hQ rest',fun h => ⟨rfl,(hok' (hok h).2).2⟩⟩

structure Kept (s0 : Volume) (i : Nat) (s : Volume) : Prop where
  start : s.start = s0.start
  datablks : s.datablks = s0.datablks
  locked : s.locked = s0.locked
  cache : SameImage s0.start s.cache s0.cache
  refs : ∀ b, s.refs b = s0.refs b - (s0.datablks.take i).count b

lemma fill_image (hlb : lb < journalBlks) (hn : n ≤ bdevBlkSize) :
    SameImage start (fill d (bdevBlkSize * journalBmap start lb) n f) d := by
  intro b hb k hk
  have hne : b ≠ journalBmap start lb := fun he => hb ⟨lb,hlb,he⟩
  simp only [buffer,bdevBlkSize] at hn hk ⊢
  exact fill_outside (by omega)

lemma Kept.logged (h : Kept s0 i s) (hlb : lb < journalBlks)
    (hn : n ≤ bdevBlkSize) : Kept s0 i (logged s (journalBmap s0.start lb) n f rest) where
  start := h.start
  datablks := h.datablks
  locked := h.locked
  cache b hb := (fill_image hlb hn b hb).trans (h.cache b hb)
  refs := h.refs

lemma put_image (hlb : lb < journalBlks) : SameImage start (put d ⟨journalBmap start lb,f⟩) d :=
  fun _ hb => put_other fun he => hb ⟨lb,hlb,he⟩

lemma put_journal {lb' : Nat} (hlb : lb < journalBlks) (hlb' : lb' < journalBlks)
    (hne : lb' ≠ lb) : SameBlk (put d ⟨journalBmap start lb,f⟩) d (journalBmap start lb') :=
  put_other fun he => hne (journalBmap_inj hlb' hlb he)

lemma Staging.put_data (h : Staging s0 i d) (hi : i < journalSize)
    (hb : s0.datablks[i]? = some b) (hf : ∀ k, k < bdevBlkSize → f k = buffer s0.cache b k) :
    Staging s0 (i + 1) (put d ⟨journalBmap s0.start (jdataStartBlk + i),f⟩) := by
  refine ⟨fun c hc => (put_image (dataBlk_lt hi) c hc).trans (h.image c hc),?_,?_⟩
  · rw [headerBlks_congr (put_journal (dataBlk_lt hi) (by decide) (lowBlk_ne (by decide)))]
    exact h.header
  · intro j c hj hc k hk
    by_cases he : j = i
    · subst he
      cases hb.symm.trans hc
      rw [buffer_put_same (w := ⟨_,f⟩) hk]
      exact hf k hk
    · rw [put_journal (dataBlk_lt hi) (dataBlk_lt (by omega)) (by omega) k hk]
      exact h.data j c (by omega) hc k hk

lemma copyDatablk_run (h : s.locked b = false) :
    copyDatablk pb b s = some ((),{ s with
      cache := fill s.cache (bdevBlkSize * pb) bdevBlkSize (buffer s.cache b) }) := by
  let u : Volume := { s with
    locked := update s.locked b true
    cache := fill s.cache (bdevBlkSize * pb) bdevBlkSize (buffer s.cache b) }
  have hrel := sleeplockRelease_run (s := u) (b := b) (update_self ..)
  rw [copyDatablk,bind_of_some (sleeplockAcquire_run h)]
  refine Eq.trans hrel ?_
  simp [u,← h]

lemma buffer_fill_same (hk : k < bdevBlkSize) : buffer (fill d (bdevBlkSize * b) bdevBlkSize f) b k = f k := by
  rw [buffer,fill_inside (by omega) (by omega),Nat.add_sub_cancel_left]

lemma writeDataLoop_attempt (hr : Ready s0) (hn : s0.datablks.length < journalSize) {rest : List Nat}
    (hrest : s0.datablks.drop i = rest) (htr : Traced s0 s) (hk : Kept s0 0 s) (hs : Staging s0 i s.device) :
    Attempt s0 (writeDataLoop i rest) s fun t => Kept s0 0 t ∧ Staging s0 s0.datablks.length t.device := by
  induction rest generalizing i s with
  | nil =>
    have hle : s0.datablks.length ≤ i := List.drop_eq_nil_iff.mp hrest
    exact ⟨.ok,s,rfl,htr,fun _ => ⟨hk,hs.image,hs.header,fun j b hj => hs.data j b (by omega)⟩,fun h => ⟨rfl,h⟩⟩
  | cons b rest ih =>
    have hb : s0.datablks[i]? = some b := by
      rw [← Nat.add_zero i,← List.getElem?_drop,hrest]
      rfl
    have hmem := List.mem_of_getElem? hb
    obtain ⟨hi,-⟩ := List.getElem?_eq_some_iff.mp hb
    have hlt := lt_trans hi hn
    have hpb := dataBlk_lt hlt
    have hne : b ≠ journalBmap s0.start (jdataStartBlk + i) := fun he => hr.apart b hmem ⟨_,hpb,he⟩
    have hstage : ∀ rest, Staging s0 (i + 1)
        (logged s (journalBmap s0.start (jdataStartBlk + i)) bdevBlkSize (buffer s.cache b) rest).device := fun _ =>
      hs.put_data hlt hb fun k hk' => by
        rw [buffer_fill_same hk']
        exact hk.cache b (hr.apart b hmem) k hk'
    rw [writeDataLoop,Attempt,get_bind,hk.start]
    refine Attempt.andThen (Q := fun t => Kept s0 0 t ∧ Staging s0 (i + 1) t.device) ?_ fun t htr' hq => ?_
    · refine logBlk_attempt htr ?_ ?_ (.inl (hstage []).recovers) fun rest => ⟨hk.logged hpb le_rfl,hstage rest⟩
      · rw [hk.locked]
        exact hr.unlocked _ (.inr ⟨_,hpb,rfl⟩)
      · intro u hc hl
        have hfree : u.locked b = false := by
          rw [hl,Function.update_of_ne hne,hk.locked]
          exact hr.unlocked b (.inl hmem)
        rw [copyDatablk_run hfree,hc]
    · exact ih (by rw [← List.drop_drop,hrest]; rfl) htr' hq.1 hq.2

lemma buffer_fill_word {o v : Nat} (hn : n ≤ bdevBlkSize) (ho : o + 4 ≤ n)
    (hf : ∀ k, k < 4 → f (o + k) = byteOf v k) :
    word (put d ⟨b,buffer (fill e (bdevBlkSize * b) n f) b⟩) (bdevBlkSize * b + o) 4 = v % 256^4 := by
  refine word_of_bytes fun k hk => ?_
  rw [Nat.add_assoc]
  have hput := buffer_put_same (d := d) (w := ⟨b,buffer (fill e (bdevBlkSize * b) n f) b⟩) (k := o + k) (by omega)
  refine hput.trans ?_
  change fill e (bdevBlkSize * b) n f (bdevBlkSize * b + (o + k)) = _
  rw [fill_inside (by omega) (by omega),Nat.add_sub_cancel_left]
  exact hf k hk

structure Logged (s0 : Volume) (d : Memory) : Prop extends Staging s0 s0.datablks.length d where
  mapped : Mapped s0 d

lemma bmapByte_entry {bmap : List Nat} {j : Nat} (hj : bmap[j]? = some b) (hk : k < 4) :
    bmapByte bmap 0 (4 * j + k) = byteOf b k := by
  have h1 : (4 * j + k) / 4 = j := by omega
  have h2 : (4 * j + k) % 4 = k := by omega
  rw [bmapByte,sizeofBlkT,h1,h2,Nat.zero_add,List.getD_eq_getElem?_getD,hj]
  rfl

lemma writeBmapLoop_attempt (hr : Ready s0) (h0 : 1 ≤ s0.datablks.length)
    (hn : s0.datablks.length < journalSize) (htr : Traced s0 s) (hk : Kept s0 0 s)
    (hs : Staging s0 s0.datablks.length s.device) :
    Attempt s0 (writeBmapLoop s0.datablks bmapBlks 0 0) s fun t => Kept s0 0 t ∧ Logged s0 t.device := by
  have hpb : bmapStartBlk + 0 < journalBlks := by decide
  have hlen : min (bdevBlkSize / sizeofBlkT) (s0.datablks.length - 0) * sizeofBlkT = 4 * s0.datablks.length := by
    have hmin : min (bdevBlkSize / sizeofBlkT) s0.datablks.length = s0.datablks.length := min_eq_right (le_of_lt hn)
    rw [Nat.sub_zero,hmin,Nat.mul_comm]
    rfl
  have hle : 4 * s0.datablks.length ≤ bdevBlkSize := by
    simp only [journalSize] at hn
    simp only [bdevBlkSize]
    omega
  have hlog : ∀ rest, Logged s0 (logged s (journalBmap s0.start (bmapStartBlk + 0)) (4 * s0.datablks.length)
      (bmapByte s0.datablks 0) rest).device := by
    intro rest
    refine ⟨⟨fun c hc => (put_image hpb c hc).trans (hs.image c hc),?_,?_⟩,?_⟩
    · rw [logged,headerBlks_congr (put_journal hpb (by decide) (by decide))]
      exact hs.header
    · intro j c hj hc k hk'
      rw [logged,put_journal hpb (dataBlk_lt (by omega)) (Ne.symm (lowBlk_ne (by decide))) k hk']
      exact hs.data j c hj hc k hk'
    · intro j c hc
      obtain ⟨hj,-⟩ := List.getElem?_eq_some_iff.mp hc
      rw [mappedBlk_eq (lt_trans hj hn)]
      refine (buffer_fill_word hle (by omega) fun k hk' => bmapByte_entry hc hk').trans ?_
      exact Nat.mod_eq_of_lt (hr.fits c (List.mem_of_getElem? hc))
  rw [show bmapBlks = 0 + 1 from rfl,writeBmapLoop,if_pos (by omega),Attempt,get_bind,hk.start,hlen]
  refine Attempt.andThen (Q := fun t => Kept s0 0 t ∧ Logged s0 t.device) ?_ fun t htr' hq => ?_
  · refine logBlk_attempt htr ?_ (fun u hc _ => ?_) (.inl (hlog []).recovers) fun rest => ⟨hk.logged hpb hle,hlog rest⟩
    · rw [hk.locked]
      exact hr.unlocked _ (.inr ⟨_,hpb,rfl⟩)
    · rw [← hc]
      rfl
  · exact ⟨.ok,t,rfl,htr',fun _ => hq,fun h => ⟨rfl,h⟩⟩

lemma writeJournalHeader_attempt (hl : s.locked (journalBmap s.start headerBlk) = false)
    (htr : Traced s0 s) (hsafe : Safe s0 (logged s (journalBmap s.start headerBlk) 4 (byteOf s.datablks.length) []).device)
    (hQ : ∀ rest, Q (logged s (journalBmap s.start headerBlk) 4 (byteOf s.datablks.length) rest)) :
    Attempt s0 writeJournalHeader s Q := by
  rw [writeJournalHeader,Attempt,get_bind]
  exact logBlk_attempt htr hl (fun u hc _ => by rw [← hc]; rfl) hsafe hQ

lemma headerBlks_logged (hn : n < 2^32) :
    headerBlks start (logged s (journalBmap start headerBlk) 4 (byteOf n) rest).device = n := by
  refine (buffer_fill_word (o := 0) (by decide) le_rfl fun k _ => by rw [Nat.zero_add]).trans ?_
  exact Nat.mod_eq_of_lt hn

lemma Logged.commit (h : Logged s0 s.device) (hn : s0.datablks.length < journalSize) (he : n = s0.datablks.length) :
    Committed s0 0 (logged s (journalBmap s0.start headerBlk) 4 (byteOf n) rest).device := by
  subst he
  have hidx : ∀ {j c}, s0.datablks[j]? = some c → j < s0.datablks.length := fun hj => by
    obtain ⟨h,-⟩ := List.getElem?_eq_some_iff.mp hj
    exact h
  refine ⟨fun c hc _ => (put_image (by decide) c hc).trans (h.image c hc),?_,?_,?_,nofun⟩
  · exact headerBlks_logged (by simp only [journalSize] at hn; omega)
  · intro j c hc k hk
    rw [logged,put_journal (by decide) (dataBlk_lt (lt_trans (hidx hc) hn)) (Ne.symm (lowBlk_ne (by decide))) k hk]
    exact h.data j c (hidx hc) hc k hk
  · intro j c hc
    rw [logged,mappedBlk_congr (lt_trans (hidx hc) hn) (put_journal (by decide) (by decide) (by decide))]
    exact h.mapped j c hc

lemma Kept.held (h : Kept s0 i s) (hr : Ready s0) (hb : s0.datablks[i]? = some b) : 0 < s.refs b := by
  obtain ⟨hi,rfl⟩ := List.getElem?_eq_some_iff.mp hb
  have hnot : s0.datablks[i] ∉ s0.datablks.take i := by
    intro hin
    obtain ⟨j,hj,he⟩ := List.mem_take_iff_getElem.mp hin
    have := (List.Nodup.getElem_inj_iff hr.nodup).mp he
    omega
  rw [h.refs,List.count_eq_zero_of_not_mem hnot]
  exact hr.held _ (List.getElem_mem hi)

lemma applyLoop_attempt (hr : Ready s0) (hn : s0.datablks.length < journalSize) {rest : List Nat}
    (hrest : s0.datablks.drop i = rest) (htr : Traced s0 s) (hk : Kept s0 i s) (hs : Committed s0 i s.device) :
    Attempt s0 (applyLoop rest) s fun t =>
      Kept s0 s0.datablks.length t ∧ Committed s0 s0.datablks.length t.device := by
  induction rest generalizing i s with
  | nil =>
    have hle : s0.datablks.length ≤ i := List.drop_eq_nil_iff.mp hrest
    refine ⟨.ok,s,rfl,htr,fun _ => ⟨⟨hk.start,hk.datablks,hk.locked,hk.cache,?_⟩,?_⟩,fun h => ⟨rfl,h⟩⟩
    · rw [List.take_of_length_le le_rfl,← List.take_of_length_le hle]
      exact hk.refs
    · exact ⟨hs.others,hs.header,hs.data,hs.mapped,fun j b hj => hs.home j b (by omega)⟩
  | cons b rest ih =>
    have hb : s0.datablks[i]? = some b := by
      rw [← Nat.add_zero i,← List.getElem?_drop,hrest]
      rfl
    have hmem := List.mem_of_getElem? hb
    have hfree : s.locked b = false := by
      rw [hk.locked]
      exact hr.unlocked b (.inl hmem)
    let u : Volume := { s with locked := update s.locked b true }
    obtain ⟨e,supply,hw,hok⟩ := bdevWriteBlk_run u b
    have hrun : applyLoop (b :: rest) s =
        andThen (bdevWriteBlk b) (do bdevReleaseBlk b; applyLoop rest) u := by
      rw [applyLoop,bind_of_some (sleeplockAcquire_run hfree)]
    rw [Attempt,hrun]
    rw [andThen,bind_of_some hw]
    cases e with
    | noMem => exact ⟨.noMem,_,rfl,htr.quiet rfl rfl,nofun,fun h => nomatch (hok h).1⟩
    | ok =>
      have hrel := bdevReleaseBlk_run (s := wrote u b supply) (b := b) (update_self ..)
        (hk.held hr hb)
      let v : Volume := { wrote s b supply with refs := update s.refs b (s.refs b - 1) }
      have hback : bdevReleaseBlk b (wrote u b supply) = some ((),v) := by
        rw [hrel]
        simp [v,wrote,u,← hfree]
      have hcommit : Committed s0 (i + 1) v.device :=
        hs.put hr hn hb rfl fun k hk' => hk.cache b (hr.apart b hmem) k hk'
      have hkept : Kept s0 (i + 1) v := by
        refine ⟨hk.start,hk.datablks,hk.locked,hk.cache,fun c => ?_⟩
        change update s.refs b (s.refs b - 1) c = _
        rw [List.take_add_one,hb,List.count_append,Option.toList_some,List.count_singleton,Function.update_apply,hk.refs c]
        by_cases hc : c = b
        · simp [hc,hk.refs b,Nat.sub_sub]
        · simp [hc,Ne.symm hc]
      have htr' : Traced s0 v := htr.write rfl rfl (.inr (hcommit.recovers hr hn))
      obtain ⟨e,t,hloop,hres⟩ := ih (by rw [← List.drop_drop,hrest]; rfl) htr' hkept hcommit
      refine ⟨e,t,(bind_of_some (f := fun _ => applyLoop rest) hback).trans hloop,hres.1,hres.2.1,fun h => ?_⟩
      exact hres.2.2 (hok h).2

lemma eraseJournal_attempt (hr : Ready s0) (htr : Traced s0 s)
    (hk : Kept s0 i s) (hs : Committed s0 s0.datablks.length s.device) : Attempt s0 eraseJournal s fun t =>
      (headerBlks s0.start t.device = 0 ∧ SameImage s0.start t.device (updated s0)) ∧ t.datablks = [] ∧ t.refs = s.refs := by
  let u : Volume := { s with datablks := [] }
  have hdone : ∀ rest,
      headerBlks s0.start (logged u (journalBmap u.start headerBlk) 4 (byteOf u.datablks.length) rest).device = 0 ∧
      SameImage s0.start (logged u (journalBmap u.start headerBlk) 4 (byteOf u.datablks.length) rest).device
        (updated s0) := by
    intro rest
    rw [show u.start = s0.start from hk.start]
    exact ⟨headerBlks_logged (n := 0) (by norm_num),fun c hc => (put_image (by decide) c hc).trans (hs.image c hc)⟩
  refine writeJournalHeader_attempt (s := u) ?_ (htr.quiet rfl rfl) (.inr ?_) fun rest => ⟨hdone rest,rfl,rfl⟩
  · change s.locked (journalBmap s.start headerBlk) = false
    rw [hk.locked,hk.start]
    exact hr.unlocked _ (.inr ⟨headerBlk,by decide,rfl⟩)
  · rw [recover,(hdone []).1]
    exact (hdone []).2

lemma commitJournal_attempt (hr : Ready s0) (h0 : 1 ≤ s0.datablks.length) (hn : s0.datablks.length < journalSize) :
    Attempt s0 commitJournal s0 fun t =>
      (headerBlks s0.start t.device = 0 ∧ SameImage s0.start t.device (updated s0)) ∧ t.datablks = [] ∧
        ∀ b, t.refs b = s0.refs b - s0.datablks.count b := by
  have hstart : Staging s0 0 s0.device := ⟨fun _ _ _ _ => rfl,hr.erased,nofun⟩
  have hkept : Kept s0 0 s0 :=
    ⟨rfl,rfl,rfl,fun _ _ _ _ => rfl,fun _ => rfl⟩
  have htraced : Traced s0 s0 := ⟨[],by simp,rfl,throughout_nil (.inl hstart.recovers)⟩
  have hblks : Attempt s0 writeJournalBlks s0 fun t => Kept s0 0 t ∧ Logged s0 t.device := by
    rw [writeJournalBlks,Attempt,get_bind,bind_of_some (a := ()) (u := s0) (by simp [kassert,hn])]
    exact (writeDataLoop_attempt hr hn rfl htraced hkept hstart).andThen
      fun t htr hq => writeBmapLoop_attempt hr h0 hn htr hq.1 hq.2
  refine hblks.andThen fun t htr hq => ?_
  have hhead : Attempt s0 writeJournalHeader t fun t => Kept s0 0 t ∧ Committed s0 0 t.device := by
    have hcommit : ∀ rest, Committed s0 0
        (logged t (journalBmap s0.start headerBlk) 4 (byteOf t.datablks.length) rest).device := fun rest =>
      hq.2.commit hn (by rw [hq.1.datablks])
    refine writeJournalHeader_attempt ?_ htr ?_ ?_
    · rw [hq.1.locked,hq.1.start]
      exact hr.unlocked _ (.inr ⟨headerBlk,by decide,rfl⟩)
    · rw [hq.1.start]
      exact .inr ((hcommit []).recovers hr hn)
    · intro rest
      rw [hq.1.start]
      exact ⟨hq.1.logged (by decide) (by decide),hcommit rest⟩
  refine hhead.andThen fun t htr hq => ?_
  have happly : Attempt s0 applyJournal t fun t =>
      Kept s0 s0.datablks.length t ∧ Committed s0 s0.datablks.length t.device := by
    rw [applyJournal,Attempt,get_bind,hq.1.datablks]
    exact applyLoop_attempt hr hn rfl htr hq.1 hq.2
  refine happly.andThen fun t htr hq => ?_
  obtain ⟨e,u,hrun,htr',hdone,hok⟩ := eraseJournal_attempt hr htr hq.1 hq.2
  refine ⟨e,u,hrun,htr',fun he => ⟨(hdone he).1,(hdone he).2.1,fun b => ?_⟩,hok⟩
  rw [(hdone he).2.2,hq.1.refs,List.take_length]

theorem commit_crash_atomic (s : Volume) (hr : Ready s) (h0 : 1 ≤ s.datablks.length)
    (hn : s.datablks.length < journalSize) :
    ∃ e t ws, commitJournal s = some (e,t) ∧ t.issued = s.issued ++ ws ∧ t.device = ws.foldl put s.device ∧
      (∀ p, p <+: ws → SameImage s.start (recover s.start (p.foldl put s.device)) s.device ∨
        SameImage s.start (recover s.start (p.foldl put s.device)) (updated s)) ∧
      (e = .ok → headerBlks s.start t.device = 0 ∧ SameImage s.start t.device (updated s)) ∧
      (s.supply = [] → e = .ok) := by
  obtain ⟨e,t,hrun,⟨ws,hi,hd,hsafe⟩,hdone,hok⟩ := commitJournal_attempt hr h0 hn
  exact ⟨e,t,ws,hrun,hi,hd,hsafe,fun he => (hdone he).1,fun h => (hok h).1⟩

def twoBlks : Volume where
  start := 68
  enabled := true
  state := .busy
  datablks := [400,36]
  cache x := byteOf x 0
  device _ := 0
  issued := []
  refs _ := 1
  locked _ := false
  supply := []

lemma twoBlks_ready : Ready twoBlks where
  fits := by decide
  apart := by
    rintro b hb ⟨lb,hlb,rfl⟩
    rw [journalBlks_eq] at hlb
    simp only [twoBlks,journalBmap,List.mem_cons,List.not_mem_nil,or_false] at hb
    omega
  nodup := by decide
  held _ _ := Nat.one_pos
  unlocked _ _ := rfl
  erased := word_zero fun _ _ _ => rfl

theorem commit_crash_atomic_two : Ready twoBlks ∧
    ∃ e t ws, commitJournal twoBlks = some (e,t) ∧ t.issued = twoBlks.issued ++ ws ∧
      t.device = ws.foldl put twoBlks.device ∧
      (∀ p, p <+: ws → SameImage 68 (recover 68 (p.foldl put twoBlks.device)) twoBlks.device ∨
        SameImage 68 (recover 68 (p.foldl put twoBlks.device)) (updated twoBlks)) ∧
      (e = .ok → headerBlks 68 t.device = 0 ∧ SameImage 68 t.device (updated twoBlks)) ∧
      (twoBlks.supply = [] → e = .ok) :=
  ⟨twoBlks_ready,commit_crash_atomic twoBlks twoBlks_ready (by decide) (by decide)⟩

end MappedMemory.Jbd
