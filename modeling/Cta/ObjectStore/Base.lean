import Mathlib.Algebra.Ring.Nat

/-! Addresses, mount policies, 64-bit counters and the ways an operation of the object store can
end abnormally. -/
namespace Cta.ObjectStore

abbrev Address := String

/-- Name of a queue shard. `AgentReference::nextId` appends a number that is never
used twice to the agent's own unique name; only that number is kept. -/
abbrev ShardAddress := Nat

structure MountPolicy where
  name : String
  archivePriority : Nat := 0
  archiveMinRequestAge : Nat := 0
  retrievePriority : Nat := 0
  retrieveMinRequestAge : Nat := 0
  deriving DecidableEq, Repr

/-- What ends an operation early. The last constructors are not exceptions of the
code: they stand for an array access out of range and for a loop that never ends. -/
inductive StoreError where
  | noSuchObject
  | countMapNoEntry
  | countMapWrongCount (count : Nat)
  | countMapStillFound
  | countMapEmpty
  | wrongShardOrdering
  | noAppropriateShard
  | noShardForSummary
  | outOfRange
  | endless
  deriving DecidableEq, Repr

def sub64 (a b : Nat) : Nat := if b ≤ a then a - b else 2^64 - (b - a)

theorem sub64_of_le {a b : Nat} (h : b ≤ a) : sub64 a b = a - b := if_pos h

end Cta.ObjectStore
