import Cta.Lib.Runs
import Cta.ObjectStore.VfsLocks

/-! Runs of the threads that lock and create on either backend. On Rados each object is a machine
of its own; the file backend has all its names in one. -/
namespace Cta.ObjectStore.Locking
open Cta.Lib.Runs
variable {Name : Type} [DecidableEq Name]

def SafeOnRados (run : List (Name × RadosLocks.Event)) : Prop :=
  AllStates (onKey RadosLocks.step) (fun s => ∀ name, RadosLocks.Safe (s name)) (fun _ => .start)
    run

def ProperOnRados (run : List (Name × RadosLocks.Event)) : Prop :=
  AllSteps (onKey RadosLocks.step) (fun s c => RadosLocks.Proper (s c.1) c.2) (fun _ => .start) run

def SafeOnVfs (run : List (VfsLocks.Event Name)) : Prop :=
  AllStates VfsLocks.step VfsLocks.Safe .start run

def ProperOnVfs (run : List (VfsLocks.Event Name)) : Prop :=
  AllSteps VfsLocks.step VfsLocks.Proper .start run

theorem safeOnRados {run : List (Name × RadosLocks.Event)} (h : ProperOnRados run) :
    SafeOnRados run :=
  AllSteps.allStates_onKey (I := RadosLocks.Ok) (P := RadosLocks.Proper)
    (fun _ e hok hp => hok.step e hp) (fun _ hok => hok.safe) (fun _ => .start) h

theorem safeOnVfs {run : List (VfsLocks.Event Name)} (h : ProperOnVfs run) : SafeOnVfs run :=
  AllSteps.allStates (I := VfsLocks.Ok) (fun _ e hok hp => hok.step e hp) (fun _ hok => hok.safe)
    .start h

/-- Locking and creating destroy no object, on either backend. -/
theorem safe_of_proper {rados : List (Name × RadosLocks.Event)} {vfs : List (VfsLocks.Event Name)}
    (hrados : ProperOnRados rados) (hvfs : ProperOnVfs vfs) :
    SafeOnRados rados ∧ SafeOnVfs vfs :=
  ⟨safeOnRados hrados, safeOnVfs hvfs⟩

theorem safe_of_proper_queue :
    SafeOnRados [("queue", .create 0 [1]), ("queue", .lock 1 .exclusive), ("queue", .stat 1 0),
      ("queue", .release 0)] ∧
    SafeOnVfs [.openObject 0 "queue" [1], .write 0, .createLock 0,
      .openLock 1 "queue" .exclusive 7, .flock 1 0, .release 0] := by
  refine safe_of_proper ⟨trivial, trivial, trivial, fun k hk hd => ?_, trivial⟩
    ⟨trivial, trivial, fun name hname => ?_, trivial, fun name type fd found ht => ?_, trivial,
      trivial⟩
  · cases hk
    cases hd
  · cases hname
    decide
  · cases ht
    decide

/-- Two threads lock a name that has no object. The one removes what the lock created, another
thread creates the object, and the other locker removes it. -/
def lostOnRados : List (String × RadosLocks.Event) :=
  [("queue", .lock 0 .shared), ("queue", .lock 1 .shared), ("queue", .stat 0 0),
    ("queue", .stat 1 1), ("queue", .removeEmpty 0), ("queue", .create 2 [1]),
    ("queue", .removeEmpty 1)]

def lostOnVfs : List (VfsLocks.Event String) :=
  [.openObject 0 "queue" [1], .write 0, .openLock 1 "queue" .exclusive 7, .stat 1, .recreate 1 7,
    .flock 1 0, .createLock 0, .cleanObject 0]

theorem not_safe : ¬ SafeOnRados lostOnRados ∧ ¬ SafeOnVfs lostOnVfs := by
  constructor
  · intro h
    have := (AllStates.last h "queue").kept
    revert this
    decide
  · intro h
    have := (AllStates.last h).kept
    revert this
    decide

end Cta.ObjectStore.Locking
