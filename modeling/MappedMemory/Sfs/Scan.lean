import MappedMemory.Sfs.Dirents
import MappedMemory.Sfs.Reading

namespace MappedMemory.Sfs

open Bytes Routine

variable {s t : Fs} {i n ofs o : Nat} {c : Inode} {alloc : Bool} {hit : Memory → Nat → Nat → Bool} {bh : Option Nat}
  {base : List (Nat × Bool)} {r : Except SfsErr Nat} {u : Fs}

structure At (s : Fs) (i ofs : Nat) (bh : Option Nat) (base : List (Nat × Bool)) : Prop where
  aligned : ofs % 32 = 0
  held : s.held = bh.toList.map (·,true) ++ base
  blk : ofs % 512 ≠ 0 → ∃ b, bh = some b ∧ b ≠ 0 ∧ blkAt s.disk i (ofs / bdevBlkSize) = b

structure NextBlk (i ofs : Nat) (alloc : Bool) (base : List (Nat × Bool)) (s t : Fs) (r : Except SfsErr Nat) :
    Prop where
  grow : Grow i s t
  supply : t.supply ⊆ s.supply
  pins : ∀ x, pins t x = pins s x
  quiet : alloc = false ∨ blkAt s.disk i (ofs / bdevBlkSize) ≠ 0 → Quiet s t
  starved : ∀ e, r = .error e → alloc = true → Starved s t
  blk : ∀ b, r = .ok b → b ≠ 0 ∧ blkAt t.disk i (ofs / bdevBlkSize) = b ∧ t.held = (b,true) :: base

lemma NextBlk.of_got (hq : Quiet s u) (hsub : u.supply ⊆ s.supply)
    (hp : ∀ x, Sfs.pins u x = Sfs.pins s x) (hh : u.held = base) (h : GotBlk i ofs alloc u t r) :
    NextBlk i ofs alloc base s t r where
  grow := hq.grow.trans h.grow
  supply := List.Subset.trans h.supply hsub
  pins x := (h.pins x).trans (hp x)
  quiet ha := hq.trans (h.quiet (by rwa [hq.disk]))
  starved e he ha := (h.starved e he ha).before hsub
  blk b hb := by
    obtain ⟨h1,h2,h3⟩ := h.blk b hb
    exact ⟨h1,h2,hh ▸ h3⟩

lemma nextBlk_some (hs : Owned s) (hc : s.icache i = some c) (hat : At s i ofs bh base)
    (h : nextBlk i alloc ofs bh s = some (r,t)) : NextBlk i ofs alloc base s t r := by
  unfold nextBlk at h
  split at h
  · cases bh with
    | none => exact .of_got (.refl s) (fun _ hx => hx) (fun _ => rfl) hat.held (getDataBlock_some hs hc h)
    | some b =>
      simp only at h
      obtain ⟨_,u,hr,h⟩ := bind_some.mp h
      have hq := release_quiet hr
      have hp := release_pins hr
      obtain ⟨-,rfl⟩ := release_some hr
      refine .of_got hq (fun _ hx => hx) (fun x => by simpa using (hp x).symm) ?_ (getDataBlock_some (hs.quiet hq) hc h)
      simp [hat.held]
  · rename_i hmid
    cases h
    obtain ⟨b,rfl,hnz,hb⟩ := hat.blk hmid
    refine ⟨.refl,fun _ hx => hx,fun _ => rfl,fun _ => .refl _,fun _ he => (nomatch he),?_⟩
    rintro _ ⟨⟩
    exact ⟨hnz,hb,hat.held⟩

def Local (hit : Memory → Nat → Nat → Bool) : Prop :=
  ∀ m m' o a a', (∀ x, x < 32 → m (a + x) = m' (a' + x)) → hit m o a = hit m' o a'

lemma content_record {m : Memory} {x : Nat} (ha : o % 32 = 0) (hx : x < 32) (hnz : blkAt m i (o / bdevBlkSize) ≠ 0) :
    m (direntAddr (blkAt m i (o / bdevBlkSize)) o + x) = content m i (o + x) := by
  have hdiv : (o + x) / bdevBlkSize = o / bdevBlkSize := by
    simp only [bdevBlkSize]
    omega
  have hmod : (o + x) % bdevBlkSize = o % bdevBlkSize + x := by
    simp only [bdevBlkSize]
    omega
  rw [content_of_blkAt (by rwa [hdiv]),hdiv,hmod,direntAddr,Nat.add_assoc]

structure Scanned (i : Nat) (alloc : Bool) (hit : Memory → Nat → Nat → Bool) (n ofs : Nat)
    (base : List (Nat × Bool)) (s t : Fs) (r : Except SfsErr (Option (Nat × Nat))) : Prop where
  grow : Grow i s t
  supply : t.supply ⊆ s.supply
  pins : ∀ x, pins t x = pins s x
  quiet : alloc = false → Quiet s t
  starved : ∀ e, r = .error e → alloc = true → Starved s t
  blk : ∀ b o, r = .ok (some (b,o)) → b ≠ 0 ∧ blkAt t.disk i (o / bdevBlkSize) = b ∧ t.held = (b,true) :: base
  present : ∀ b o, r = .ok (some (b,o)) → (∀ p, ofs ≤ p → p ≤ o → blkAt s.disk i (p / bdevBlkSize) ≠ 0) → Quiet s t
  first : ∀ b o, r = .ok (some (b,o)) → ofs ≤ o ∧ o < ofs + 32 * n ∧ o % 32 = 0 ∧
    hit (content s.disk i) o o = true ∧ ∀ p, ofs ≤ p → p < o → p % 32 = 0 → hit (content s.disk i) p p = false
  miss : r = .ok none → t.held = base ∧
    ∀ p, ofs ≤ p → p < ofs + 32 * n → p % 32 = 0 → hit (content s.disk i) p p = false

lemma Scanned.step {r : Except SfsErr (Option (Nat × Nat))} {b : Nat} (hs : Owned s) (ha : Allocated s i)
    (hofs : ofs % 32 = 0) (hnext : NextBlk i ofs alloc base s u (.ok b))
    (hno : hit (content s.disk i) ofs ofs = false) (h : Scanned i alloc hit n (ofs + 32) base u t r) :
    Scanned i alloc hit (n + 1) ofs base s t r := by
  have hcon : content u.disk i = content s.disk i := by
    funext x
    exact (hs.grow hnext.grow).2.content i x ha
  have hcase : ∀ p, ofs ≤ p → p % 32 = 0 → p = ofs ∨ ofs + 32 ≤ p := by
    intro p h1 h2
    omega
  refine ⟨hnext.grow.trans h.grow,List.Subset.trans h.supply hnext.supply,
    fun x => (h.pins x).trans (hnext.pins x),fun ha => (hnext.quiet (.inl ha)).trans (h.quiet ha),
    fun e he ha => (h.starved e he ha).before hnext.supply,h.blk,fun b o hr hp => ?_,fun b o hr => ?_,fun hr => ?_⟩
  · obtain ⟨h1,-⟩ := h.first b o hr
    have hq := hnext.quiet (.inr (hp ofs (le_refl _) (by omega)))
    refine hq.trans (h.present b o hr fun p hp1 hp2 => ?_)
    rw [hq.disk]
    exact hp p (by omega) hp2
  · obtain ⟨h1,h2,h3,h4,h5⟩ := h.first b o hr
    rw [hcon] at h4 h5
    refine ⟨by omega,by omega,h3,h4,fun p hp1 hp2 hp3 => ?_⟩
    rcases hcase p hp1 hp3 with rfl | hp
    · exact hno
    · exact h5 p hp hp2 hp3
  · obtain ⟨h1,h2⟩ := h.miss hr
    rw [hcon] at h2
    refine ⟨h1,fun p hp1 hp2 hp3 => ?_⟩
    rcases hcase p hp1 hp3 with rfl | hp
    · exact hno
    · exact h2 p hp (by omega) hp3

lemma scanDir_some {r : Except SfsErr (Option (Nat × Nat))} (hl : Local hit) (hs : Owned s)
    (hc : s.icache i = some c) (hat : At s i ofs bh base) (h : scanDir i alloc hit n ofs bh s = some (r,t)) :
    Scanned i alloc hit n ofs base s t r := by
  induction n generalizing s c ofs bh with
  | zero =>
    have hempty : ∀ {u : Fs}, Quiet s u → u.supply ⊆ s.supply → (∀ x, pins u x = pins s x) → u.held = base →
        Scanned i alloc hit 0 ofs base s u (.ok none) := fun hq hsub hp hh =>
      ⟨hq.grow,hsub,hp,fun _ => hq,fun _ he => (nomatch he),fun _ _ he => (nomatch he),fun _ _ he => (nomatch he),
        fun _ _ he => (nomatch he),fun _ => ⟨hh,fun p h1 h2 => absurd h2 (by omega)⟩⟩
    cases bh with
    | none =>
      cases h
      exact hempty (.refl _) (fun _ hx => hx) (fun _ => rfl) hat.held
    | some b =>
      unfold scanDir at h
      obtain ⟨_,u,hr,h⟩ := bind_some.mp h
      have hq := release_quiet hr
      have hp := release_pins hr
      obtain ⟨-,rfl⟩ := release_some hr
      cases h
      exact hempty hq (fun _ hx => hx) (fun x => by simpa using (hp x).symm) (by simp [hat.held])
  | succ n ih =>
    unfold scanDir at h
    obtain ⟨r',u,hn,h⟩ := bind_some.mp h
    have hnext := nextBlk_some hs hc hat hn
    have ha := hs.cached i c hc
    obtain ⟨hu,hext⟩ := hs.grow hnext.grow
    cases r' with
    | error e =>
      cases h
      exact ⟨hnext.grow,hnext.supply,hnext.pins,fun ha => hnext.quiet (.inl ha),fun _ he ha => hnext.starved e rfl ha,
        fun _ _ he => (nomatch he),fun _ _ he => (nomatch he),fun _ _ he => (nomatch he),fun he => (nomatch he)⟩
    | ok b =>
      obtain ⟨hnz,hblk,hheld⟩ := hnext.blk b rfl
      have hread : hit u.disk ofs (direntAddr b ofs) = hit (content s.disk i) ofs ofs := by
        subst hblk
        refine hl _ _ _ _ _ fun x hx => ?_
        rw [content_record hat.aligned hx hnz,hext.content i _ ha]
      simp only [get_bind,hread] at h
      split at h
      · rename_i hyes
        cases h
        refine ⟨hnext.grow,hnext.supply,hnext.pins,fun ha => hnext.quiet (.inl ha),fun _ he => (nomatch he),?_,?_,?_,
          fun he => (nomatch he)⟩
        · rintro _ _ ⟨⟩
          exact ⟨hnz,hblk,hheld⟩
        · rintro _ _ ⟨⟩ hp
          exact hnext.quiet (.inr (hp ofs (le_refl _) (le_refl _)))
        · rintro _ _ ⟨⟩
          exact ⟨le_refl _,by omega,hat.aligned,hyes,fun p h1 h2 => absurd h2 (by omega)⟩
      · rename_i hno
        obtain ⟨ad,d,hcu⟩ := hext.own c hc
        have hal := hat.aligned
        have hat' : At u i (ofs + 32) (some b) base := by
          refine ⟨by omega,hheld,fun hmid => ⟨b,rfl,hnz,?_⟩⟩
          rw [show (ofs + 32) / bdevBlkSize = ofs / bdevBlkSize by simp only [bdevBlkSize]; omega]
          exact hblk
        exact .step hs ha hal hnext (by simpa using hno) (ih hu hcu hat' h)

end MappedMemory.Sfs
