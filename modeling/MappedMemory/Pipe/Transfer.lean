import MappedMemory.Library.Ring
import MappedMemory.Library.Run
import MappedMemory.Machine.Word

namespace MappedMemory

def pipeSz : Nat := 512

structure Kpipe where
  buffer : Nat → Nat
  readOfs : Nat
  writeOfs : Nat
  readers : Nat
  writers : Nat
  fdReader : Nat
  fdWriter : Nat

namespace Kpipe

def init (fdReader fdWriter : Nat) : Kpipe := ⟨fun _ => 0,0,0,1,1,fdReader,fdWriter⟩

def buffered (p : Kpipe) : Nat := sub64 p.writeOfs p.readOfs

def content (p : Kpipe) : List Nat :=
  (List.range p.buffered).map fun i => p.buffer ((p.readOfs + i) % pipeSz)

def takeBytes : Nat → Kpipe → Kpipe × List Nat
  | 0, p => (p,[])
  | toRead + 1, p =>
    if p.buffered = 0 then (p,[])
    else
      let c := p.buffer (p.readOfs % pipeSz)
      let (p,cs) := takeBytes toRead { p with readOfs := u64 (p.readOfs + 1) }
      (p,c :: cs)

def putBytes : List Nat → Kpipe → Kpipe × Nat
  | [], p => (p,0)
  | c :: buf, p =>
    if p.buffered = pipeSz then (p,0)
    else
      let (p,written) := putBytes buf { p with
        buffer := Function.update p.buffer (p.writeOfs % pipeSz) c
        writeOfs := u64 (p.writeOfs + 1) }
      (p,written + 1)

def refDecrease (p : Kpipe) (fd : Nat) : Kpipe :=
  if fd = p.fdReader then { p with readers := sizeT (int32 p.readers - 1) }
  else { p with writers := sizeT (int32 p.writers - 1) }

def refIncrease (p : Kpipe) (fd : Nat) : Kpipe :=
  if fd = p.fdReader then { p with readers := sizeT (int32 p.readers + 1) }
  else { p with writers := sizeT (int32 p.writers + 1) }

def unreferenced (p : Kpipe) : Bool := p.writers == 0 && p.readers == 0

def ring (p : Kpipe) : RingBuffer Nat := ⟨p.buffer,p.readOfs,p.writeOfs⟩

def Holds (p : Kpipe) (l : List Nat) : Prop := p.ring.Holds pipeSz (2^64) l

structure SameEnds (p q : Kpipe) : Prop where
  readers : q.readers = p.readers
  writers : q.writers = p.writers
  fdReader : q.fdReader = p.fdReader
  fdWriter : q.fdWriter = p.fdWriter

variable {p : Kpipe} {l : List Nat}

lemma pipeSz_dvd : pipeSz ∣ 2^64 := by decide

lemma init_holds (r w : Nat) : (init r w).Holds [] := .empty (by decide) _

lemma Holds.buffered (h : p.Holds l) : p.buffered = l.length := h.used_eq (by decide)

lemma Holds.content (h : p.Holds l) : p.content = l := h.content_eq (by decide)

lemma Holds.refDecrease (h : p.Holds l) (fd : Nat) : (p.refDecrease fd).Holds l := by
  have hring : (p.refDecrease fd).ring = p.ring := by
    simp only [Kpipe.refDecrease]
    split <;> simp only [ring]
  rw [Kpipe.Holds,hring]
  exact h

lemma takeBytes_spec (n : Nat) (h : p.Holds l) : (p.takeBytes n).2 = l.take n ∧
    (p.takeBytes n).1.Holds (l.drop n) ∧ SameEnds p (p.takeBytes n).1 := by
  induction n generalizing p l with
  | zero => exact ⟨by simp [takeBytes],by simpa [takeBytes] using h,⟨rfl,rfl,rfl,rfl⟩⟩
  | succ n ih =>
    cases l with
    | nil =>
      have hempty : p.buffered = 0 := h.buffered
      simp only [takeBytes,hempty,if_true]
      exact ⟨rfl,h,⟨rfl,rfl,rfl,rfl⟩⟩
    | cons a l =>
      have hne : p.buffered ≠ 0 := by simp [h.buffered]
      have hfront : p.buffer (p.readOfs % pipeSz) = a := RingBuffer.Holds.front_eq h
      have hrest : Kpipe.Holds { p with readOfs := u64 (p.readOfs + 1) } l :=
        RingBuffer.Holds.advance h pipeSz_dvd
      obtain ⟨hbytes,hheld,hends⟩ := ih hrest
      simp only [takeBytes,hne,if_false]
      exact ⟨by simp [hfront,hbytes],hheld,hends.readers,hends.writers,hends.fdReader,hends.fdWriter⟩

lemma putBytes_spec (buf : List Nat) (h : p.Holds l) : (p.putBytes buf).2 = min buf.length (pipeSz - l.length) ∧
    (p.putBytes buf).1.Holds (l ++ buf.take (p.putBytes buf).2) ∧ SameEnds p (p.putBytes buf).1 := by
  induction buf generalizing p l with
  | nil => exact ⟨by simp [putBytes],by simpa [putBytes] using h,⟨rfl,rfl,rfl,rfl⟩⟩
  | cons c buf ih =>
    by_cases hfull : p.buffered = pipeSz
    · have hlen : l.length = pipeSz := h.buffered.symm.trans hfull
      simp only [putBytes,hfull,if_true]
      exact ⟨by simp [hlen],by simpa using h,⟨rfl,rfl,rfl,rfl⟩⟩
    · have hroom : l.length < pipeSz := by
        have hle : l.length ≤ pipeSz := h.fits
        have hne : l.length ≠ pipeSz := fun he => hfull (h.buffered.trans he)
        omega
      have hpushed : Kpipe.Holds { p with
          buffer := Function.update p.buffer (p.writeOfs % pipeSz) c
          writeOfs := u64 (p.writeOfs + 1) } (l ++ [c]) := RingBuffer.Holds.push h pipeSz_dvd hroom c
      obtain ⟨hcount,hheld,hends⟩ := ih hpushed
      simp only [putBytes,hfull,if_false]
      refine ⟨?_,by simpa using hheld,hends.readers,hends.writers,hends.fdReader,hends.fdWriter⟩
      rw [hcount,List.length_append,List.length_singleton,List.length_cons]
      omega

end Kpipe

inductive Request where
  | read (count : Nat)
  | write (buf : List Nat)
deriving DecidableEq, Repr

structure Runnable where
  tid : Nat
  request : Request
  signalled : Bool
deriving DecidableEq, Repr

inductive Transfer where
  | read (tid : Nat) (bytes : List Nat)
  | wrote (tid : Nat) (buf : List Nat) (written : Nat) (deaf : Bool)
  | refused (tid : Nat)
deriving DecidableEq, Repr

namespace Transfer

def returned : Transfer → List Nat
  | .read _ bytes => bytes
  | _ => []

def accepted : Transfer → List Nat
  | .wrote _ buf written _ => buf.take written
  | _ => []

end Transfer

structure Channel where
  pipe : Kpipe
  runnable : List Runnable
  notEmpty : List (Nat × Nat)
  full : List (Nat × List Nat)
  deaf : Bool
  freed : Bool
  log : List Transfer

namespace Channel

def init (fdReader fdWriter : Nat) : Channel := ⟨.init fdReader fdWriter,[],[],[],false,false,[]⟩

def signalFull (c : Channel) : Channel :=
  match c.full with
  | [] => c
  | (tid,buf) :: rest => { c with full := rest, runnable := c.runnable ++ [⟨tid,.write buf,true⟩] }

def signalNotEmpty (c : Channel) : Channel :=
  match c.notEmpty with
  | [] => c
  | (tid,count) :: rest => { c with notEmpty := rest, runnable := c.runnable ++ [⟨tid,.read count,true⟩] }

def kpipeRead (c : Channel) (tid count : Nat) : Channel :=
  if c.pipe.buffered = 0 then
    if c.pipe.writers = 0 then { c with log := c.log ++ [.read tid []] }
    else { c with notEmpty := c.notEmpty ++ [(tid,count)] }
  else
    let (p,bytes) := c.pipe.takeBytes count
    let c := { c with pipe := p, log := c.log ++ [.read tid bytes] }
    if bytes.length > 0 then c.signalFull else c

def kpipeWrite (c : Channel) (tid : Nat) (buf : List Nat) (signalled : Bool) : Channel :=
  if signalled = false ∧ c.pipe.readers = 0 then { c with log := c.log ++ [.refused tid] }
  else if c.pipe.buffered = pipeSz then { c with full := c.full ++ [(tid,buf)] }
  else
    let (p,written) := c.pipe.putBytes buf
    let c := { c with pipe := p, log := c.log ++ [.wrote tid buf written c.deaf] }
    if written > 0 then c.signalNotEmpty else c

inductive Op where
  | call (tid : Nat) (request : Request)
  | run (tid : Nat)
  | refDecrease (fd : Nat)
  | close
deriving DecidableEq, Repr

def busy (c : Channel) (tid : Nat) : Bool :=
  c.runnable.any (fun r => r.tid == tid) || c.notEmpty.any (fun r => r.1 == tid) || c.full.any (fun r => r.1 == tid)

def resume (c : Channel) (r : Runnable) : Channel :=
  let c := { c with runnable := c.runnable.erase r }
  match r.request with
  | .read count => c.kpipeRead r.tid count
  | .write buf => c.kpipeWrite r.tid buf r.signalled

def step (c : Channel) (o : Op) : Option Channel :=
  if c.freed then none
  else
    match o with
    | .call tid request =>
      if c.busy tid then none else some { c with runnable := c.runnable ++ [⟨tid,request,false⟩] }
    | .run tid => (c.runnable.find? fun r => r.tid == tid).map c.resume
    | .refDecrease fd =>
      let p := c.pipe.refDecrease fd
      some { c with pipe := p, deaf := c.deaf || p.readers == 0 }
    | .close => some { c with freed := c.pipe.unreferenced }

def run (fdReader fdWriter : Nat) (ops : List Op) : Option Channel := ops.foldlM step (init fdReader fdWriter)

def returned (log : List Transfer) : List Nat := log.flatMap Transfer.returned

def accepted (log : List Transfer) : List Nat := log.flatMap Transfer.accepted

variable {c c' : Channel} {l : List Nat}

lemma returned_append (log : List Transfer) (e : Transfer) : returned (log ++ [e]) = returned log ++ e.returned := by
  simp [returned]

lemma accepted_append (log : List Transfer) (e : Transfer) : accepted (log ++ [e]) = accepted log ++ e.accepted := by
  simp [accepted]

structure Flow (c : Channel) (l : List Nat) : Prop where
  held : c.pipe.Holds l
  stream : accepted c.log = returned c.log ++ l

section
variable (h : Flow c l)
include h

lemma Flow.congr (hp : c'.pipe = c.pipe) (hl : c'.log = c.log) : Flow c' l :=
  ⟨hp ▸ h.held,hl ▸ h.stream⟩

lemma Flow.idle {e : Transfer} (hr : e.returned = []) (ha : e.accepted = [])
    (hp : c'.pipe = c.pipe) (hl : c'.log = c.log ++ [e]) : Flow c' l := by
  refine ⟨hp ▸ h.held,?_⟩
  rw [hl,accepted_append,returned_append,hr,ha,List.append_nil,List.append_nil,h.stream]

lemma signalFull_flow : Flow c.signalFull l := by
  refine h.congr ?_ ?_ <;> (simp only [signalFull]; split <;> rfl)

lemma signalNotEmpty_flow : Flow c.signalNotEmpty l := by
  refine h.congr ?_ ?_ <;> (simp only [signalNotEmpty]; split <;> rfl)

lemma kpipeRead_flow (tid count : Nat) : ∃ l', Flow (c.kpipeRead tid count) l' := by
  simp only [kpipeRead]
  split
  · split
    · exact ⟨l,h.idle (e := .read tid []) rfl rfl rfl rfl⟩
    · exact ⟨l,h.congr rfl rfl⟩
  · obtain ⟨hbytes,hheld,-⟩ := Kpipe.takeBytes_spec count h.held
    have hflow : Flow { c with pipe := (c.pipe.takeBytes count).1
                               log := c.log ++ [.read tid (c.pipe.takeBytes count).2] } (l.drop count) := by
      refine ⟨hheld,?_⟩
      rw [accepted_append,returned_append,h.stream]
      simp [Transfer.returned,Transfer.accepted,hbytes]
    split
    · exact ⟨_,signalFull_flow hflow⟩
    · exact ⟨_,hflow⟩

lemma kpipeWrite_flow (tid : Nat) (buf : List Nat) (signalled : Bool) :
    ∃ l', Flow (c.kpipeWrite tid buf signalled) l' := by
  simp only [kpipeWrite]
  split
  · exact ⟨l,h.idle (e := .refused tid) rfl rfl rfl rfl⟩
  · split
    · exact ⟨l,h.congr rfl rfl⟩
    · obtain ⟨-,hheld,-⟩ := Kpipe.putBytes_spec buf h.held
      have hflow : Flow { c with pipe := (c.pipe.putBytes buf).1
                                 log := c.log ++ [.wrote tid buf (c.pipe.putBytes buf).2 c.deaf] }
          (l ++ buf.take (c.pipe.putBytes buf).2) := by
        refine ⟨hheld,?_⟩
        rw [accepted_append,returned_append,h.stream]
        simp [Transfer.returned,Transfer.accepted]
      split
      · exact ⟨_,signalNotEmpty_flow hflow⟩
      · exact ⟨_,hflow⟩

lemma Flow.step {o : Op} (hs : c.step o = some c') : ∃ l', Flow c' l' := by
  simp only [Channel.step] at hs
  split at hs
  · cases hs
  cases o with
  | call tid request =>
    simp only at hs
    split at hs
    · cases hs
    · cases hs
      exact ⟨l,h.congr rfl rfl⟩
  | run tid =>
    obtain ⟨r,-,rfl⟩ := Option.map_eq_some_iff.mp hs
    have herase : Flow { c with runnable := c.runnable.erase r } l := h.congr rfl rfl
    simp only [resume]
    split
    · exact kpipeRead_flow herase _ _
    · exact kpipeWrite_flow herase _ _ _
  | refDecrease fd =>
    cases hs
    exact ⟨l,⟨h.held.refDecrease fd,h.stream⟩⟩
  | close =>
    cases hs
    exact ⟨l,h.congr rfl rfl⟩

end

lemma run_flow {r w : Nat} {ops : List Op} (h : run r w ops = some c) : ∃ l, Flow c l := by
  refine Run.invariant (P := fun c => ∃ l, Flow c l) (fun s o t hs hstep => ?_) ⟨[],?_⟩ h
  · obtain ⟨l,hl⟩ := hs
    exact hl.step hstep
  · exact ⟨Kpipe.init_holds r w,rfl⟩

theorem lossless_fifo (fdReader fdWriter : Nat) (ops : List Op) (c : Channel)
    (h : run fdReader fdWriter ops = some c) :
    accepted c.log = returned c.log ++ c.pipe.content ∧
    c.pipe.content.length = sub64 c.pipe.writeOfs c.pipe.readOfs ∧ c.pipe.content.length ≤ pipeSz ∧
    ∀ pre e post, c.log = pre ++ e :: post →
      accepted c.log = accepted pre ++ e.accepted ++ accepted post ∧
      e.returned <+: (accepted c.log).drop (returned pre).length := by
  obtain ⟨l,hl⟩ := run_flow h
  have hcontent := hl.held.content
  have hbuffered : sub64 c.pipe.writeOfs c.pipe.readOfs = l.length := hl.held.buffered
  rw [hcontent,hbuffered]
  refine ⟨hl.stream,rfl,hl.held.fits,fun pre e post hlog => ⟨by simp [accepted,hlog],?_⟩⟩
  have hsplit : returned c.log = returned pre ++ (e.returned ++ returned post) := by simp [returned,hlog]
  rw [hl.stream,hsplit,List.append_assoc,List.drop_left,List.append_assoc]
  exact List.prefix_append _ _

def twoReaders : List Op :=
  [.call 1 (.read 4),.call 2 (.read 2),.run 1,.call 3 (.write [10,11,12]),.run 2,.run 3,.run 1,
    .call 4 (.write [20,21]),.run 4,.run 2]

theorem lossless_fifo_two_readers : ∃ c, run 3 4 twoReaders = some c ∧ returned c.log = [10,11,12,20,21] ∧
    accepted c.log = returned c.log ++ c.pipe.content := by
  have hrun : (run 3 4 twoReaders).any (fun c => decide (returned c.log = [10,11,12,20,21])) = true := by decide +kernel
  obtain ⟨c,hc,hok⟩ := (Option.any_eq_true _ _).mp hrun
  exact ⟨c,hc,of_decide_eq_true hok,(lossless_fifo 3 4 twoReaders c hc).1⟩

end Channel
end MappedMemory
