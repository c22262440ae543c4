import Cta.MediaChanger.RmcMarshal

/-! The requests of the media changer daemon, as its handlers decode them. -/
namespace Cta.MediaChanger.RmcRequests
open Cta.Lib.Triples Cta.Lib.Transactions Cta.Lib.Wire
open Cta.MediaChanger.RmcMarshal (RMC_MAGIC RMC_MOUNT RMC_UNMOUNT CA_MAXVIDLEN)

def CA_MAXRBTNAMELEN : Nat := 17

/-- `marshall_LONG`: what does not fit in four bytes is lost. -/
def marshallLong (n : Int) : List UInt8 := bytesOf 4 (n % 256 ^ 4).toNat

def marshallWord (n : Int) : List UInt8 := bytesOf 2 (n % 256 ^ 2).toNat

def marshallString (str : List UInt8) : List UInt8 := str ++ [0]

def rmcMountBody (uid gid : UInt32) (vid : List UInt8) (side drvord : Int) : List UInt8 :=
  marshallLong uid.toNat ++ (marshallLong gid.toNat ++ (marshallString [] ++ (marshallString vid ++
    (marshallWord side ++ marshallWord drvord))))

def rmcMount (uid gid : UInt32) (vid : List UInt8) (side drvord : Int) : List UInt8 :=
  let body := rmcMountBody uid gid vid side drvord
  marshallLong RMC_MAGIC.toNat ++ marshallLong RMC_MOUNT.toNat ++
    marshallLong (12 + body.length : Nat) ++ body

inductive Argument
  | loader
  | vid
  | template
  | type
  | nbelem
  deriving DecidableEq, Repr

/-- A field of a request; of a string the size of its array, and its name in an error. -/
inductive Field
  | long
  | word
  | stringN (n : Nat) (name : Argument)
  deriving DecidableEq, Repr

@[reducible] def Field.Value : Field → Type
  | .long => Nat
  | .word => Nat
  | .stringN _ _ => List UInt8

@[reducible] def Values : List Field → Type
  | [] => Unit
  | f :: fs => f.Value × Values fs

/-- One field at the pointer. The pointer is not used again after a string without its zero. -/
def unmarshall (mem : Memory) : (f : Field) → EStateM Argument Nat f.Value
  | .long => exec fun p => .ok (valueOf (read mem p 4), p + 4)
  | .word => exec fun p => .ok (valueOf (read mem p 2), p + 2)
  | .stringN n name => exec fun p =>
    if (scan mem p n).2 then .ok (cstr (scan mem p n).1, p + (scan mem p n).1.length)
    else .error name

def unmarshallAll (mem : Memory) : (fs : List Field) → EStateM Argument Nat (Values fs)
  | [] => pure ⟨⟩
  | f :: fs => do
    let v ← unmarshall mem f
    let vs ← unmarshallAll mem fs
    return (v, vs)

/-- Every request begins with the user, the group and a loader that is ignored. -/
def requestFields (fs : List Field) : List Field :=
  .long :: .long :: .stringN (CA_MAXRBTNAMELEN + 1) .loader :: fs

def rmcSrvMountFields : List Field :=
  requestFields [.stringN (CA_MAXVIDLEN + 1) .vid, .word, .word]

def rmcSrvUnmountFields : List Field :=
  requestFields [.stringN (CA_MAXVIDLEN + 1) .vid, .word, .word]

structure MountRequest where
  uid : Nat
  gid : Nat
  vid : List UInt8
  invert : Nat
  drvord : Nat
  deriving DecidableEq, Repr

structure UnmountRequest where
  uid : Nat
  gid : Nat
  vid : List UInt8
  drvord : Nat
  force : Nat
  deriving DecidableEq, Repr

def MountRequest.ofValues : Values rmcSrvMountFields → MountRequest
  | (uid, gid, _, vid, invert, drvord, _) => ⟨uid, gid, vid, invert, drvord⟩

def UnmountRequest.ofValues : Values rmcSrvUnmountFields → UnmountRequest
  | (uid, gid, _, vid, drvord, force, _) => ⟨uid, gid, vid, drvord, force⟩

def rmcSrvMountRequest (mem : Memory) : EStateM Argument Nat MountRequest := do
  let values ← unmarshallAll mem rmcSrvMountFields
  return .ofValues values

def rmcSrvUnmountRequest (mem : Memory) : EStateM Argument Nat UnmountRequest := do
  let values ← unmarshallAll mem rmcSrvUnmountFields
  return .ofValues values

def Field.Encodes : (f : Field) → f.Value → List UInt8 → Prop
  | .long, v, bytes => bytes.length = 4 ∧ v = valueOf bytes
  | .word, v, bytes => bytes.length = 2 ∧ v = valueOf bytes
  | .stringN n _, v, bytes => 0 ∉ v ∧ v.length < n ∧ bytes = v ++ [0]

def Encoded : (fs : List Field) → Values fs → List UInt8 → Prop
  | [], _, bytes => bytes = []
  | f :: fs, (v, vs), bytes => ∃ piece rest, bytes = piece ++ rest ∧ f.Encodes v piece ∧
      Encoded fs vs rest

section
variable {mem : Memory} {p q : Nat} {bytes : List UInt8}

theorem holds_iff {n : Nat} (h : bytes.length = n) : Holds mem p bytes ↔ bytes = read mem p n := by
  rw [Holds, h, eq_comm]

theorem unmarshall_eq_ok {f : Field} {v : f.Value} :
    unmarshall mem f p = .ok v q ↔
      ∃ bytes, f.Encodes v bytes ∧ Holds mem p bytes ∧ q = p + bytes.length := by
  cases f with
  | long =>
    rw [unmarshall, exec_eq_ok, Except.ok.injEq, Prod.mk.injEq]
    constructor
    · rintro ⟨rfl, rfl⟩
      exact ⟨read mem p 4, ⟨length_read mem p 4, rfl⟩, by rw [Holds, length_read],
        by rw [length_read]⟩
    · rintro ⟨bytes, ⟨hlength, rfl⟩, hholds, rfl⟩
      rw [holds_iff hlength] at hholds
      rw [hlength, ← hholds]
      exact ⟨rfl, rfl⟩
  | word =>
    rw [unmarshall, exec_eq_ok, Except.ok.injEq, Prod.mk.injEq]
    constructor
    · rintro ⟨rfl, rfl⟩
      exact ⟨read mem p 2, ⟨length_read mem p 2, rfl⟩, by rw [Holds, length_read],
        by rw [length_read]⟩
    · rintro ⟨bytes, ⟨hlength, rfl⟩, hholds, rfl⟩
      rw [holds_iff hlength] at hholds
      rw [hlength, ← hholds]
      exact ⟨rfl, rfl⟩
  | stringN n name =>
    rw [unmarshall, exec_eq_ok]
    constructor
    · intro h
      split at h
      · next hscan =>
        cases h
        obtain ⟨str, hzero, hstr, hholds⟩ := scan_terminated hscan
        have hlength : str.length < n := by
          have hle := length_scan_le mem p n
          rw [hstr, List.length_append, List.length_singleton] at hle
          exact hle
        rw [hstr, cstr_append_zero hzero]
        exact ⟨str ++ [0], ⟨hzero, hlength, rfl⟩, hholds, rfl⟩
      · cases h
    · rintro ⟨bytes, ⟨hzero, hlength, rfl⟩, hholds, rfl⟩
      rw [scan_eq hzero hholds hlength]
      simp only [if_true, cstr_append_zero hzero]

theorem unmarshallAll_eq_ok {fs : List Field} {vs : Values fs} :
    unmarshallAll mem fs p = .ok vs q ↔
      ∃ bytes, Encoded fs vs bytes ∧ Holds mem p bytes ∧ q = p + bytes.length := by
  induction fs generalizing p with
  | nil =>
    rw [unmarshallAll, pure_eq_ok]
    constructor
    · rintro ⟨-, rfl⟩
      exact ⟨[], rfl, holds_nil, rfl⟩
    · rintro ⟨bytes, rfl, -, rfl⟩
      exact ⟨rfl, rfl⟩
  | cons f fs ih =>
    obtain ⟨v, vs⟩ := vs
    rw [unmarshallAll, bind_eq_ok]
    constructor
    · rintro ⟨v', p', hv, h⟩
      obtain ⟨vs', p'', hvs, h⟩ := bind_eq_ok.mp h
      obtain ⟨h, rfl⟩ := pure_eq_ok.mp h
      cases h
      obtain ⟨piece, hpiece, hholds, rfl⟩ := unmarshall_eq_ok.mp hv
      obtain ⟨rest, hrest, hholds', rfl⟩ := ih.mp hvs
      refine ⟨piece ++ rest, ⟨piece, rest, rfl, hpiece, hrest⟩,
        holds_append.mpr ⟨hholds, hholds'⟩, ?_⟩
      rw [List.length_append, Nat.add_assoc]
    · rintro ⟨bytes, ⟨piece, rest, rfl, hpiece, hrest⟩, hholds, rfl⟩
      obtain ⟨hholds, hholds'⟩ := holds_append.mp hholds
      refine ⟨v, p + piece.length, unmarshall_eq_ok.mpr ⟨piece, hpiece, hholds, rfl⟩,
        bind_eq_ok.mpr ⟨vs, _, ih.mpr ⟨rest, hrest, hholds', ?_⟩, pure_run _ _⟩⟩
      rw [List.length_append, Nat.add_assoc]

end

end Cta.MediaChanger.RmcRequests
