import Cta.Lib.Selection
import Mathlib.Data.Finset.Basic
import Mathlib.Data.Prod.Lex
import Mathlib.Data.Rat.Defs
import Mathlib.Algebra.Order.Ring.Rat
import Mathlib.Data.String.Basic

/-! What a mount is decided on: the potential mounts and their ranking, the existing mounts and
what the catalogue answers. -/
namespace Cta.Scheduler.MountInfo
open Cta.Lib.Selection

inductive MountType where
  | archiveForUser
  | archiveForRepack
  | retrieve
  | label
  | noMount
  | archiveAllTypes
  deriving DecidableEq, Repr

def getMountBasicType : MountType → MountType
  | .archiveForUser => .archiveAllTypes
  | .archiveForRepack => .archiveAllTypes
  | type => type

inductive LabelFormat where
  | cta
  | osm
  deriving DecidableEq, Repr, Inhabited

/-- What is thrown: an exception of the project or one of the standard library, with its text. -/
inductive Failure where
  | ctaException (message : String)
  | stdException (message : String)
  deriving DecidableEq, Repr

structure PotentialMount where
  type : MountType
  vid : String
  tapePool : String
  vo : String
  mediaType : String
  vendor : String
  capacityInBytes : Nat
  labelFormat : LabelFormat
  priority : Nat
  minRequestAge : Int
  filesQueued : Nat
  bytesQueued : Nat
  oldestJobStartTime : Int
  logicalLibrary : String
  ratioOfMountQuotaUsed : Rat
  sleepingMount : Bool
  activity : Option String
  deriving DecidableEq

def PotentialMount.lt (m other : PotentialMount) : Bool :=
  if m.priority < other.priority then true
  else if m.priority > other.priority then false
  else if m.type = .archiveForUser ∧ other.type ≠ .archiveForUser then false
  else if other.type = .archiveForUser ∧ m.type ≠ .archiveForUser then true
  else if m.ratioOfMountQuotaUsed > other.ratioOfMountQuotaUsed then true
  else if m.ratioOfMountQuotaUsed < other.ratioOfMountQuotaUsed then false
  else if m.oldestJobStartTime > other.oldestJobStartTime then true
  else if m.oldestJobStartTime < other.oldestJobStartTime then false
  else if m.vid < other.vid then false
  else if m.vid > other.vid then true
  else if m.tapePool < other.tapePool then false
  else if m.tapePool > other.tapePool then true
  else false

/-- The fields the ranking compares, each in the direction in which it counts. -/
abbrev Rank := ℕ ×ₗ Bool ×ₗ ℚᵒᵈ ×ₗ ℤᵒᵈ ×ₗ Stringᵒᵈ ×ₗ Stringᵒᵈ

def PotentialMount.rank (m : PotentialMount) : Rank :=
  toLex (m.priority, toLex (decide (m.type = .archiveForUser),
    toLex (OrderDual.toDual m.ratioOfMountQuotaUsed,
      toLex (OrderDual.toDual m.oldestJobStartTime,
        toLex (OrderDual.toDual m.vid, OrderDual.toDual m.tapePool)))))

section
variable {α β : Type*} [LinearOrder α] [LinearOrder β] {a b : α} {r : Bool} {x y : β}

theorem ite_lt_iff_toLex_lt (h : a = b → (r = true ↔ x < y)) :
    (if a < b then true else if a > b then false else r) = true ↔
      toLex (a, x) < toLex (b, y) := by
  rw [Prod.Lex.toLex_lt_toLex]
  rcases lt_trichotomy a b with hlt | heq | hgt
  · simp [hlt]
  · subst heq
    simp [h rfl]
  · simp [hgt, not_lt_of_gt hgt, ne_of_gt hgt]

theorem ite_gt_iff_toLex_lt (h : a = b → (r = true ↔ x < y)) :
    (if a > b then false else if a < b then true else r) = true ↔
      toLex (a, x) < toLex (b, y) := by
  rw [← ite_lt_iff_toLex_lt h]
  rcases lt_trichotomy a b with hlt | heq | hgt
  · simp [hlt, not_lt_of_gt hlt]
  · simp [heq]
  · simp [hgt, not_lt_of_gt hgt]

theorem ite_gt_iff_lt :
    (if a > b then false else if a < b then true else false) = true ↔ a < b := by
  rcases lt_trichotomy a b with hlt | heq | hgt
  · simp [hlt, not_lt_of_gt hlt]
  · simp [heq]
  · simp [hgt, not_lt_of_gt hgt]

theorem ite_flag_iff_toLex_lt {p q : Prop} [Decidable p] [Decidable q]
    (h : (p ↔ q) → (r = true ↔ x < y)) :
    (if p ∧ ¬ q then false else if q ∧ ¬ p then true else r) = true ↔
      toLex (decide p, x) < toLex (decide q, y) := by
  rw [Prod.Lex.toLex_lt_toLex]
  by_cases hp : p
  · by_cases hq : q
    · simpa [hp, hq] using h (by simp [hp, hq])
    · simp [hp, hq]
  · by_cases hq : q
    · simp [hp, hq]
    · simpa [hp, hq] using h (by simp [hp, hq])

end

/-- The order of the code is the lexicographic order of the ranks, so it is one to sort by. -/
theorem lt_iff_rank_lt (m other : PotentialMount) :
    m.lt other = true ↔ m.rank < other.rank := by
  refine ite_lt_iff_toLex_lt fun _ => ?_
  refine ite_flag_iff_toLex_lt fun _ => ?_
  refine ite_lt_iff_toLex_lt (α := ℚᵒᵈ) fun _ => ?_
  refine ite_lt_iff_toLex_lt (α := ℤᵒᵈ) fun _ => ?_
  refine ite_gt_iff_toLex_lt (α := Stringᵒᵈ) fun _ => ?_
  exact ite_gt_iff_lt (α := Stringᵒᵈ)

theorem PotentialMount.lt_irrefl (m : PotentialMount) : m.lt m = false := by
  rw [← Bool.not_eq_true, lt_iff_rank_lt]
  simp

def sortByKey : Sorting PotentialMount.lt := Sorting.ofKey PotentialMount.rank lt_iff_rank_lt

/-- A mount another drive has, or is about to get. An empty VID names no tape. -/
structure ExistingMount where
  driveName : String
  type : MountType
  tapePool : String
  vid : String
  deriving DecidableEq, Repr

structure TapeMountDecisionInfo where
  potentialMounts : List PotentialMount
  existingOrNextMounts : List ExistingMount
  queueTrimRequired : Bool

structure LogicalLibrary where
  name : String
  isDisabled : Bool
  deriving DecidableEq, Repr

structure VirtualOrganization where
  name : String
  readMaxDrives : Nat
  writeMaxDrives : Nat
  deriving DecidableEq, Repr, Inhabited

structure Tape where
  vid : String
  mediaType : String
  vendor : String
  logicalLibraryName : String
  tapePoolName : String
  vo : String
  capacityInBytes : Nat
  labelFormat : LabelFormat
  deriving DecidableEq, Repr, Inhabited

structure TapeForWriting where
  vid : String
  mediaType : String
  vendor : String
  tapePool : String
  vo : String
  lastFSeq : Nat
  capacityInBytes : Nat
  dataOnTapeInBytes : Nat
  labelFormat : LabelFormat
  deriving DecidableEq, Repr

structure Catalogue where
  getLogicalLibraries : Except Failure (List LogicalLibrary)
  getTapes : String → Except Failure (List Tape)
  getTapesByVid : Finset String → Except Failure (String → Option Tape)
  getCachedVirtualOrganizationOfTapepool : String → Except Failure VirtualOrganization
  getTapesForWriting : String → Except Failure (List TapeForWriting)

end Cta.Scheduler.MountInfo
