import Mathlib.Tactic

namespace MappedMemory

def u64 (x : Nat) : Nat := x % 2^64

def sub64 (a b : Nat) : Nat := u64 (2^64 + a - b)

def int32 (x : Int) : Int := (x + 2^31) % 2^32 - 2^31

def sizeT (x : Int) : Nat := (x % 2^64).toNat

def pgSize : Nat := 4096

def pgRoundDown (a : Nat) : Nat := a / pgSize * pgSize

def pgRoundUp (a : Nat) : Nat := pgRoundDown (u64 (a + pgSize - 1))

def pgOfs (a : Nat) : Nat := a % pgSize

def pgAligned (a : Nat) : Bool := a % pgSize == 0

def kmapBase : Nat := 0xFFFFFFFF80000000

def isUserAddr (a : Nat) : Bool := a < kmapBase

def ustackPages : Nat := 10

def ustackUpperbound : Nat := 0xFFFFFF7FFFFFF000

def ustackLowerbound : Nat := ustackUpperbound - ustackPages * pgSize

def addrAnywhere : Nat := 0xfffffff

def pgCeil (a : Nat) : Nat := (a + 4095) / 4096 * 4096

lemma u64_lt (x : Nat) : u64 x < 2^64 := Nat.mod_lt _ (by norm_num)

lemma u64_of_lt {x : Nat} (h : x < 2^64) : u64 x = x := Nat.mod_eq_of_lt h

lemma isUserAddr_iff (a : Nat) : isUserAddr a = true ↔ a < kmapBase := decide_eq_true_iff

lemma le_pgCeil (a : Nat) : a ≤ pgCeil a := by unfold pgCeil; omega

lemma pgCeil_lt (a : Nat) : pgCeil a < a + 4096 := by unfold pgCeil; omega

lemma pgCeil_le {a b : Nat} (h : a ≤ b) (hb : pgAligned b = true) : pgCeil a ≤ b := by
  simp only [pgAligned,pgSize,beq_iff_eq] at hb
  unfold pgCeil
  omega

lemma pgRoundUp_eq_pgCeil {a : Nat} (h : a ≤ 2^64 - 4096) : pgRoundUp a = pgCeil a := by
  simp only [pgRoundUp,pgRoundDown,pgSize,u64,pgCeil]
  omega

lemma pgRoundUp_wrap {a : Nat} (h : 2^64 - 4096 < a) (ha : a < 2^64) : pgRoundUp a = 0 := by
  simp only [pgRoundUp,pgRoundDown,pgSize,u64]
  omega

lemma pgRoundUp_aligned (a : Nat) : pgAligned (pgRoundUp a) = true := by
  simp [pgRoundUp,pgRoundDown,pgAligned,pgSize]

lemma pgRoundUp_lt (a : Nat) : pgRoundUp a < 2^64 := by
  have h := u64_lt (a + pgSize - 1)
  simp only [pgRoundUp,pgRoundDown,pgSize] at h ⊢
  omega

end MappedMemory
