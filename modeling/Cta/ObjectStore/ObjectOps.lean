import Cta.ObjectStore.Base
import Cta.Lib.Ledger
import Mathlib.Logic.Function.Basic

/-! Objects in memory, the scoped locks on them and the checks that stand between an object
and the store. -/
namespace Cta.ObjectStore.ObjectOps
open Cta.Lib

/-- A lock in memory. The two classes differ in what they count on an object. -/
inductive LockRef where
  | shared (n : Nat)
  | exclusive (n : Nat)
  deriving DecidableEq, Repr

def LockRef.isExclusive : LockRef → Bool
  | .shared _ => false
  | .exclusive _ => true

/-- An object in memory: of one of the types of the store, or a `GenericObject`. -/
inductive ObjectRef where
  | typed (n : Nat)
  | generic (n : Nat)
  deriving DecidableEq, Repr

structure Ops where
  address : Option Address := none
  headerInterpreted : Bool := false
  payloadInterpreted : Bool := false
  existingObject : Bool := false
  locksCount : Int := 0
  locksForWriteCount : Int := 0
  noLock : Bool := false
  exclusiveLock : Option Nat := none
  lockForSubObject : Option LockRef := none
  deriving DecidableEq, Repr

structure ScopedLock where
  backendLock : Option Address := none
  objectOps : Option ObjectRef := none
  subObjectsOps : List ObjectRef := []
  locked : Bool := false
  deriving DecidableEq, Repr

/-- Exceptions; `nullObject` stands for the use of a null pointer. -/
inductive OpsError where
  | notLocked
  | missingExclusiveLock
  | notFetched
  | newObject
  | notNewObject
  | notInitialized
  | addressNotSet
  | addressAlreadySet
  | invalidAddress
  | stillLocked
  | alreadyLocked
  | missingAddress
  | notTheLockOfTheObject
  | forbiddenOperation
  | couldNotParse
  | backend
  | nullObject
  deriving DecidableEq, Repr

/-- `given` records the locks given to objects and not released, wherever transfers moved
them; the code has no such record. -/
structure State where
  objects : ObjectRef → Ops
  locks : LockRef → ScopedLock
  store : Address → Bool
  given : List (LockRef × ObjectRef)

/-- How a call ends: the address it accessed in the store, if it came that far. -/
structure Result where
  state : State
  error : Option OpsError := none
  touched : Option Address := none

def State.setObject (s : State) (r : ObjectRef) (o : Ops) : State :=
  { s with objects := Function.update s.objects r o }

def State.setLock (s : State) (l : LockRef) (k : ScopedLock) : State :=
  { s with locks := Function.update s.locks l k }

@[simp] theorem setObject_objects (s : State) (r : ObjectRef) (o : Ops) :
    (s.setObject r o).objects = Function.update s.objects r o := rfl

@[simp] theorem setObject_given (s : State) (r : ObjectRef) (o : Ops) :
    (s.setObject r o).given = s.given := rfl

@[simp] theorem setLock_locks (s : State) (l : LockRef) (k : ScopedLock) :
    (s.setLock l k).locks = Function.update s.locks l k := rfl

@[simp] theorem setObject_locks (s : State) (r : ObjectRef) (o : Ops) :
    (s.setObject r o).locks = s.locks := rfl

@[simp] theorem setLock_objects (s : State) (l : LockRef) (k : ScopedLock) :
    (s.setLock l k).objects = s.objects := rfl

def Ops.checkWritable (o : Ops) : Option OpsError :=
  if o.existingObject ∧ o.locksForWriteCount = 0 then some .notLocked
  else if o.existingObject ∧ o.exclusiveLock = none ∧ o.lockForSubObject = none then
    some .missingExclusiveLock
  else none

def Ops.checkHeaderWritable (o : Ops) : Option OpsError :=
  if o.headerInterpreted then o.checkWritable else some .notFetched

def Ops.checkPayloadWritable (o : Ops) : Option OpsError :=
  if o.payloadInterpreted then o.checkWritable else some .notFetched

def Ops.checkReadable (o : Ops) : Option OpsError :=
  if o.existingObject ∧ o.locksCount = 0 ∧ ¬o.noLock then some .notLocked else none

def Ops.checkPayloadReadable (o : Ops) : Option OpsError :=
  if o.payloadInterpreted then o.checkReadable else some .notFetched

inductive Parsed where
  | badHeader
  | badPayload
  | good
  deriving DecidableEq, Repr

def Ops.interpret (r : ObjectRef) (p : Parsed) (o : Ops) : Ops × Option OpsError :=
  match p, r with
  | .badHeader, _ => (o, some .couldNotParse)
  | .badPayload, .typed _ => ({ o with headerInterpreted := true }, some .couldNotParse)
  | .good, .typed _ => ({ o with headerInterpreted := true, payloadInterpreted := true }, none)
  | _, .generic _ => ({ o with headerInterpreted := true }, none)

def fetchBottomHalf (r : ObjectRef) (p : Parsed) (s : State) : Result :=
  let o := { s.objects r with existingObject := true }
  match o.address with
  | none => { state := s.setObject r o, error := some .addressNotSet }
  | some a =>
    if s.store a then
      { state := s.setObject r (o.interpret r p).1, error := (o.interpret r p).2,
        touched := some a }
    else { state := s.setObject r o, error := some .backend, touched := some a }

def fetch (r : ObjectRef) (p : Parsed) (s : State) : Result :=
  if (s.objects r).locksCount = 0 then { state := s, error := some .notLocked }
  else fetchBottomHalf r p s

def fetchNoLock (r : ObjectRef) (p : Parsed) (s : State) : Result :=
  fetchBottomHalf r p (s.setObject r { s.objects r with noLock := true })

def atomicOverwrite (r : ObjectRef) (s : State) : Result :=
  match (s.objects r).address with
  | none => { state := s, error := some .addressNotSet }
  | some a =>
    { state := s, error := if s.store a then none else some .backend, touched := some a }

/-- `ObjectOps::commit` and `GenericObject::commit`, which does not ask for an existing
object. -/
def commit (r : ObjectRef) (s : State) : Result :=
  match r with
  | .typed _ =>
    match (s.objects r).checkPayloadWritable with
    | some e => { state := s, error := some e }
    | none =>
      if (s.objects r).existingObject then atomicOverwrite r s
      else { state := s, error := some .newObject }
  | .generic _ =>
    match (s.objects r).checkHeaderWritable with
    | some e => { state := s, error := some e }
    | none => atomicOverwrite r s

def remove (r : ObjectRef) (s : State) : Result :=
  match (s.objects r).checkWritable with
  | some e => { state := s, error := some e }
  | none =>
    match (s.objects r).address with
    | none => { state := s, error := some .addressNotSet }
    | some a =>
      if s.store a then
        { state := { s with store := Function.update s.store a false }.setObject r
            { s.objects r with existingObject := false, headerInterpreted := false,
                               payloadInterpreted := false },
          touched := some a }
      else { state := s, error := some .backend, touched := some a }

def setAddress (r : ObjectRef) (name : Address) (s : State) : Result :=
  if (s.objects r).address.isSome then { state := s, error := some .addressAlreadySet }
  else if name = "" then { state := s, error := some .invalidAddress }
  else { state := s.setObject r { s.objects r with address := some name } }

def resetAddress (r : ObjectRef) (s : State) : Result :=
  if (s.objects r).locksCount ≠ 0 ∨ (s.objects r).locksForWriteCount ≠ 0 then
    { state := s, error := some .stillLocked }
  else
    { state := s.setObject r
        { s.objects r with address := none, headerInterpreted := false,
                           payloadInterpreted := false, existingObject := false } }

def initializeObject (r : ObjectRef) (s : State) : Result :=
  match r with
  | .generic _ => { state := s, error := some .forbiddenOperation }
  | .typed _ =>
    if (s.objects r).headerInterpreted ∨ (s.objects r).existingObject then
      { state := s, error := some .notNewObject }
    else
      { state := s.setObject r
          { s.objects r with headerInterpreted := true, payloadInterpreted := true } }

def insert (r : ObjectRef) (s : State) : Result :=
  match r with
  | .generic _ => { state := s, error := some .forbiddenOperation }
  | .typed _ =>
    if (s.objects r).existingObject then { state := s, error := some .notNewObject }
    else if ¬ (s.objects r).headerInterpreted ∨ ¬ (s.objects r).payloadInterpreted then
      { state := s, error := some .notInitialized }
    else match (s.objects r).address with
    | none => { state := s, error := some .addressNotSet }
    | some a =>
      if s.store a then { state := s, error := some .backend, touched := some a }
      else
        { state := { s with store := Function.update s.store a true }.setObject r
            { s.objects r with existingObject := true },
          touched := some a }

def transplantHeader (g : Nat) (destination : ObjectRef) (s : State) : Result :=
  let o := s.objects (.generic g)
  { state := s.setObject destination
      { s.objects destination with
        existingObject := o.existingObject, headerInterpreted := o.headerInterpreted,
        address := o.address, noLock := o.noLock, payloadInterpreted := false } }

def Ops.setLocked (l : LockRef) (o : Ops) : Ops :=
  { o with locksCount := o.locksCount + 1,
           locksForWriteCount := o.locksForWriteCount + if l.isExclusive then 1 else 0 }

def Ops.setUnlocked (l : LockRef) (o : Ops) : Ops :=
  { o with locksCount := o.locksCount - 1,
           locksForWriteCount := o.locksForWriteCount - if l.isExclusive then 1 else 0,
           payloadInterpreted := false }

def Ops.addressSet (o : Ops) : Bool :=
  o.address.isSome && o.address ≠ some ""

def lock (l : LockRef) (r : ObjectRef) (granted : Bool) (s : State) : Result :=
  let k := s.locks l
  if k.locked then { state := s, error := some .alreadyLocked }
  else
    let s := s.setLock l { k with objectOps := some r }
    if !(s.objects r).addressSet then { state := s, error := some .missingAddress }
    else if !granted then { state := s, error := some .backend }
    else
      let o := (s.objects r).setLocked l
      let o := match l with
        | .shared _ => o
        | .exclusive n => { o with exclusiveLock := some n }
      { state := { (s.setObject r o).setLock l
            { k with objectOps := some r, backendLock := o.address, locked := true } with
          given := (l, r) :: s.given } }

def includeSubObject (l : LockRef) (r : ObjectRef) (s : State) : Result :=
  let k := s.locks l
  if !k.locked then { state := s, error := some .notLocked }
  else if !(s.objects r).addressSet then { state := s, error := some .missingAddress }
  else
    { state := { (s.setObject r
          { (s.objects r).setLocked l with lockForSubObject := some l }).setLock l
            { k with subObjectsOps := k.subObjectsOps ++ [r] } with
        given := (l, r) :: s.given } }

def unlockAll (l : LockRef) : List ObjectRef → (ObjectRef → Ops) → ObjectRef → Ops
  | [], objects => objects
  | r :: rs, objects => unlockAll l rs (Function.update objects r ((objects r).setUnlocked l))

def ScopedLock.covered (k : ScopedLock) : List ObjectRef :=
  k.objectOps.toList ++ k.subObjectsOps

def releaseIfNeeded (l : LockRef) (s : State) : State :=
  let k := s.locks l
  if k.locked then
    { s.setLock l { k with backendLock := none, locked := false } with
      objects := unlockAll l k.covered s.objects
      given := Ledger.takeBack l s.given }
  else s

def release (l : LockRef) (s : State) : Result :=
  if (s.locks l).locked then { state := releaseIfNeeded l s }
  else { state := s, error := some .notLocked }

def destroy (l : LockRef) (s : State) : Result :=
  { state := (releaseIfNeeded l s).setLock l {} }

def Ops.refersToOther (n : Nat) (o : Ops) : Bool :=
  (o.exclusiveLock.isSome && o.exclusiveLock ≠ some n) ||
    (o.lockForSubObject.isSome && o.lockForSubObject ≠ some (.exclusive n))

/-- `ScopedExclusiveLock::transfer`. The lock goes on pointing to the old object. -/
def transfer (n : Nat) (newObject : ObjectRef) (s : State) : Result :=
  match (s.locks (.exclusive n)).objectOps with
  | none => { state := s, error := some .nullObject }
  | some oldObject =>
    let o := s.objects oldObject
    if o.refersToOther n then { state := s, error := some .notTheLockOfTheObject }
    else
      let s' := s.setObject newObject
        { s.objects newObject with
          locksCount := o.locksCount, locksForWriteCount := o.locksForWriteCount,
          exclusiveLock := o.exclusiveLock, lockForSubObject := o.lockForSubObject,
          noLock := o.noLock }
      { state := { s'.setObject oldObject
            { s'.objects oldObject with
              locksCount := 0, locksForWriteCount := 0, exclusiveLock := none,
              lockForSubObject := none, noLock := false } with
          given := Ledger.move oldObject newObject s.given } }

end Cta.ObjectStore.ObjectOps
