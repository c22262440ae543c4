import Mathlib.Data.List.Basic
import Mathlib.Algebra.Ring.Nat
import Mathlib.Algebra.Ring.Int.Defs

/-! Memory blocks and the pipeline that brings them from the disk side to the tape side. -/
namespace Cta.Tape.DataPipeline

inductive AlterationContext where
  | failed (errorMsg : String) (errorCode : Int)
  | cancelled
  | verifyOnly
  deriving DecidableEq, Repr

/-- A block with the size of its payload. The numbers of the file and of the block are -1 where
they are not set. -/
structure MemBlock where
  memoryBlockId : Nat
  payloadSize : Nat
  fileid : Int
  fileBlock : Int
  context : Option AlterationContext
  deriving DecidableEq, Repr

namespace MemBlock

/-- A block as `reset` leaves it, and as the memory manager provides it. -/
def fresh (id : Nat) : MemBlock := ⟨id, 0, -1, -1, none⟩

def isFailed (mb : MemBlock) : Bool :=
  match mb.context with
  | some (.failed _ _) => true
  | _ => false

def isCanceled (mb : MemBlock) : Bool :=
  match mb.context with
  | some .cancelled => true
  | _ => false

def markAsFailed (mb : MemBlock) (msg : String) (errCode : Int) : MemBlock :=
  { mb with context := some (.failed msg errCode), fileBlock := -1 }

def markAsCancelled (mb : MemBlock) : MemBlock :=
  { mb with context := some .cancelled, fileBlock := -1 }

end MemBlock

def toInt (n : Nat) : Int := ((n : Int) + 2 ^ 31) % 2 ^ 32 - 2 ^ 31

theorem toInt_of_lt {n : Nat} (h : n < 2 ^ 31) : toInt n = n := by
  unfold toInt
  omega

theorem toInt_lt_of_le {n : Nat} (h : 2 ^ 31 ≤ n) : toInt n < n := by
  unfold toInt
  omega

/-- Whether the counters allow one more block to be pushed. -/
def overflows (blocksNeeded : Int) (dataBlocksPushed : Nat) : Bool :=
  blocksNeeded ≤ dataBlocksPushed

def finished (blocksNeeded : Int) (dataBlocksPopped : Nat) : Bool :=
  blocksNeeded ≤ dataBlocksPopped

def howManyBlocksNeeded (fileSize blockCapacity : Nat) : Nat :=
  fileSize / blockCapacity + if fileSize % blockCapacity = 0 then 0 else 1

theorem howManyBlocksNeeded_zero (capacity : Nat) : howManyBlocksNeeded 0 capacity = 0 := by
  simp [howManyBlocksNeeded]

theorem howManyBlocksNeeded_step {size capacity : Nat} (hc : 0 < capacity) (h : capacity < size) :
    howManyBlocksNeeded size capacity = howManyBlocksNeeded (size - capacity) capacity + 1 := by
  have hdiv := Nat.div_eq_sub_div hc (Nat.le_of_lt h)
  have hmod := Nat.mod_eq_sub_mod (Nat.le_of_lt h)
  unfold howManyBlocksNeeded
  rw [hdiv, hmod]
  omega

theorem howManyBlocksNeeded_last {size capacity : Nat} (hs : 0 < size) (h : size ≤ capacity) :
    howManyBlocksNeeded size capacity = 1 := by
  unfold howManyBlocksNeeded
  cases Nat.eq_or_lt_of_le h with
  | inl he =>
    subst he
    simp [Nat.div_self hs]
  | inr hlt => simp [Nat.div_eq_of_lt hlt, Nat.mod_eq_of_lt hlt, Nat.pos_iff_ne_zero.mp hs]

theorem howManyBlocksNeeded_pos {size capacity : Nat} (hc : 0 < capacity) (hs : 0 < size) :
    0 < howManyBlocksNeeded size capacity := by
  cases Nat.lt_or_ge capacity size with
  | inl h => simp [howManyBlocksNeeded_step hc h]
  | inr h => simp [howManyBlocksNeeded_last hs h]

end Cta.Tape.DataPipeline
