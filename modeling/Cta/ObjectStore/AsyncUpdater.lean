import Cta.ObjectStore.BackendRados

/-! Asynchronous updates of one object, on Rados and on a file system: one step for each call to
librados or to the system, and the contract that both are to meet. -/
namespace Cta.ObjectStore.AsyncUpdater
open Cta.Lib.Runs Cta.ObjectStore.BackendRados
variable {ε : Type}

inductive UpdateResult (ε : Type) where
  | value (d : Content)
  | withDelete
  | user (e : ε)

abbrev Update (ε : Type) := Content → UpdateResult ε

/-- What `wait` throws. `exception` stands for `Errnum` and for plain exceptions. -/
inductive Failure (ε : Type) where
  | exception
  | noSuchObject
  | couldNotLock
  | couldNotFetch
  | couldNotUpdateValue
  | couldNotCommit
  | couldNotUnlock
  | user (e : ε)

inductive Outcome (ε : Type) where
  | returned
  | threw (f : Failure ε)

/-- The contract: lock, fetch, update, commit, unlock, or nothing at all. `same` says when an
object is as it was; `locked` whether a lock of this update is left. -/
inductive Meets (same : Option Content → Option Content → Prop) (update : Update ε)
    (before : Option Content) : Outcome ε → Option Content → Bool → Prop
  | updated {c d : Content} : before = some c → update c = .value d →
      Meets same update before .returned (some d) false
  | deleted {c : Content} : before = some c → update c = .withDelete →
      Meets same update before .returned none false
  | failed {f : Failure ε} {after : Option Content} : same before after →
      Meets same update before (.threw f) after false
  | notUnlocked {after : Option Content} {locked : Bool} :
      Meets same update before (.threw .couldNotUnlock) after locked

/-- The call to librados that comes next. The object may be an empty one, which the lock itself
has created. -/
inductive RadosPc (ε : Type) where
  | locking
  | stating
  | removingEmpty
  | launchingRead
  | reading
  | removing
  | checking
  | launchingWrite (d : Content)
  | writing (d : Content)
  | launchingUnlock
  | unlocking
  | done (o : Outcome ε)

structure Rados (ε : Type) where
  object : Option Content
  locked : Bool
  pc : RadosPc ε

def Rados.start (before : Option Content) : Rados ε := ⟨before, false, .locking⟩

def Rados.fail (s : Rados ε) (f : Failure ε) : Rados ε := { s with pc := .done (.threw f) }

def Rados.execute (update : Update ε) (s : Rados ε) : Rados ε :=
  let value := s.object.getD []
  if value = [] then s.fail .noSuchObject
  else match update value with
    | .value d => { s with pc := .launchingWrite d }
    | .withDelete => { s with pc := .removing }
    | .user e => s.fail (.user e)

/-- The next call, with the code it fails with. `lockBackoff` comes first, then the callbacks. -/
def Rados.step (update : Update ε) (s : Rados ε) (error : Option ErrorCode) : Rados ε :=
  match s.pc, error with
  | .locking, some _ => s.fail .exception
  | .locking, none => ⟨some (s.object.getD []), true, .stating⟩
  | .stating, some _ => s.fail .exception
  | .stating, none =>
    if s.object.getD [] = [] then { s with pc := .removingEmpty }
    else { s with pc := .launchingRead }
  | .removingEmpty, some _ => s.fail .exception
  | .removingEmpty, none => ⟨none, false, .done (.threw .noSuchObject)⟩
  | .launchingRead, some _ => s.fail .noSuchObject
  | .launchingRead, none => { s with pc := .reading }
  | .reading, some _ => s.fail .couldNotFetch
  | .reading, none => s.execute update
  | .removing, some _ => s.fail .couldNotUpdateValue
  | .removing, none => ⟨none, false, .checking⟩
  | .checking, some e =>
    if (e : Int) = ENOENT then { s with pc := .done .returned } else s.fail .couldNotUpdateValue
  | .checking, none =>
    if s.object.getD [] = [] then { s with pc := .done .returned } else s.fail .couldNotUpdateValue
  | .launchingWrite _, some _ => s.fail .couldNotCommit
  | .launchingWrite d, none => { s with pc := .writing d }
  | .writing _, some _ => s.fail .couldNotCommit
  | .writing d, none => { s with object := some d, pc := .launchingUnlock }
  | .launchingUnlock, some _ => s.fail .couldNotUnlock
  | .launchingUnlock, none => { s with pc := .unlocking }
  | .unlocking, some _ => s.fail .couldNotUnlock
  | .unlocking, none => { s with locked := false, pc := .done .returned }
  | .done _, _ => s

def SameOnRados (before after : Option Content) : Prop := before.getD [] = after.getD []

def Rados.MeetsContract (update : Update ε) (before : Option Content) (s : Rados ε) : Prop :=
  ∀ o, s.pc = .done o → Meets SameOnRados update before o s.object s.locked

/-- Nothing fails between the lock and the unlock, the callback does not throw, and the look at
what was removed fails for its absence only. -/
def Rados.Proper (update : Update ε) (s : Rados ε) (error : Option ErrorCode) : Prop :=
  match s.pc with
  | .stating | .removingEmpty | .launchingRead | .removing | .launchingWrite _ | .writing _ =>
    error = none
  | .reading => error = none ∧ ∀ c ∈ s.object, ∀ e, update c ≠ .user e
  | .checking => ∀ e ∈ error, (e : Int) = ENOENT
  | .locking | .launchingUnlock | .unlocking | .done _ => True

/-- The system call that comes next: those of `lockHelper`, `read`, `remove` and
`atomicOverwrite`. `n` bytes of the new content are in the temporary file. -/
inductive VfsPc (ε : Type) where
  | opening
  | stating (openErrno : Int)
  | recreating
  | locking
  | reading
  | unlinkingObject
  | unlinkingLock
  | statingObject (d : Content)
  | statingLock (d : Content)
  | creating (d : Content)
  | writing (d : Content)
  | closing (d : Content) (n : Nat)
  | moving (d : Content) (n : Nat)
  | done (o : Outcome ε)

structure Vfs (ε : Type) where
  object : Option Content
  lockFile : Bool
  locked : Bool
  pc : VfsPc ε

structure SystemCall where
  error : Option ErrorCode
  written : Nat

def Vfs.start (before : Option Content) (lockFile : Bool) : Vfs ε :=
  ⟨before, lockFile, false, .opening⟩

def Vfs.finish (s : Vfs ε) (o : Outcome ε) : Vfs ε := { s with locked := false, pc := .done o }

def Vfs.fail (s : Vfs ε) (f : Failure ε) : Vfs ε := s.finish (.threw f)

def Vfs.stated (s : Vfs ε) (openErrno : Int) (error : Option ErrorCode) : Vfs ε :=
  match error, s.object with
  | some e, _ => if (e : Int) = ENOENT then s.fail .noSuchObject else s.fail .couldNotLock
  | none, none => s.fail .noSuchObject
  | none, some _ => if openErrno = ENOENT then { s with pc := .recreating } else s.fail .couldNotLock

def Vfs.execute (update : Update ε) (s : Vfs ε) : Vfs ε :=
  match s.object with
  | none => s.fail .couldNotFetch
  | some c =>
    match update c with
    | .value d => { s with pc := .statingObject d }
    | .withDelete => { s with pc := .unlinkingObject }
    | .user e => s.fail (.user e)

def Vfs.step (update : Update ε) (s : Vfs ε) (c : SystemCall) : Vfs ε :=
  match s.pc, c.error with
  | .opening, some e => { s with pc := .stating e }
  | .opening, none =>
    if s.lockFile then { s with pc := .locking } else { s with pc := .stating ENOENT }
  | .stating openErrno, error => s.stated openErrno error
  | .recreating, some _ => s.fail .couldNotLock
  | .recreating, none => { s with lockFile := true, pc := .locking }
  | .locking, some _ => s.fail .couldNotLock
  | .locking, none => { s with locked := true, pc := .reading }
  | .reading, some _ => s.fail .couldNotFetch
  | .reading, none => s.execute update
  | .unlinkingObject, some _ => s.fail .couldNotCommit
  | .unlinkingObject, none =>
    if s.object = none then s.fail .couldNotCommit
    else { s with object := none, pc := .unlinkingLock }
  | .unlinkingLock, some _ => s.fail .couldNotCommit
  | .unlinkingLock, none =>
    if s.lockFile then { s with lockFile := false }.finish .returned else s.fail .couldNotCommit
  | .statingObject _, some _ => s.fail .couldNotCommit
  | .statingObject d, none =>
    if s.object = none then s.fail .couldNotCommit else { s with pc := .statingLock d }
  | .statingLock _, some _ => s.fail .couldNotCommit
  | .statingLock d, none =>
    if s.lockFile then { s with pc := .creating d } else s.fail .couldNotCommit
  | .creating _, some _ => s.fail .couldNotCommit
  | .creating d, none => { s with pc := .writing d }
  | .writing _, some _ => s.fail .couldNotCommit
  | .writing d, none => { s with pc := .closing d c.written }
  | .closing _ _, some _ => s.fail .couldNotCommit
  | .closing d n, none => { s with pc := .moving d n }
  | .moving _ _, some _ => s.fail .couldNotCommit
  | .moving d n, none => { s with object := some (d.take n) }.finish .returned
  | .done _, _ => s

def Vfs.MeetsContract (update : Update ε) (before : Option Content) (s : Vfs ε) : Prop :=
  ∀ o, s.pc = .done o → Meets Eq update before o s.object s.locked

def Vfs.Proper (s : Vfs ε) (c : SystemCall) : Prop :=
  match s.pc with
  | .unlinkingLock => c.error = none
  | .moving d n => c.error = none → d.length ≤ n
  | _ => True

section
variable {update : Update ε} {before : Option Content}

theorem not_meets_of_locked {same : Option Content → Option Content → Prop} {f : Failure ε}
    {after : Option Content} (hf : f ≠ .couldNotUnlock) :
    ¬ Meets same update before (.threw f) after true := by
  intro h
  cases h
  exact hf rfl

def Rados.Ok (update : Update ε) (before : Option Content) (s : Rados ε) : Prop :=
  match s.pc with
  | .locking => s.object = before ∧ s.locked = false
  | .stating => s.object = some (before.getD []) ∧ s.locked = true
  | .removingEmpty => before.getD [] = [] ∧ s.locked = true
  | .launchingRead | .reading =>
    ∃ c, c ≠ [] ∧ before = some c ∧ s.object = some c ∧ s.locked = true
  | .removing => s.locked = true ∧ ∃ c, c ≠ [] ∧ before = some c ∧ update c = .withDelete
  | .checking =>
    s.object = none ∧ s.locked = false ∧ ∃ c, c ≠ [] ∧ before = some c ∧ update c = .withDelete
  | .launchingWrite d | .writing d => s.locked = true ∧ ∃ c, before = some c ∧ update c = .value d
  | .launchingUnlock | .unlocking =>
    ∃ c d, before = some c ∧ update c = .value d ∧ s.object = some d
  | .done _ => True

theorem Rados.not_meets_fail {s : Rados ε} {f : Failure ε} (hl : s.locked = true)
    (hf : f ≠ .couldNotUnlock) : ¬ (s.fail f).MeetsContract update before := by
  intro h
  have := h _ rfl
  simp only [fail, hl] at this
  exact not_meets_of_locked hf this

theorem Rados.meets_of_running {s : Rados ε} (h : ∀ o, s.pc ≠ .done o) :
    s.MeetsContract update before := fun o ho => absurd ho (h o)

theorem Rados.meets_done {s : Rados ε} {o : Outcome ε} (h : s.pc = .done o)
    (hm : Meets SameOnRados update before o s.object s.locked) : s.MeetsContract update before := by
  intro o' ho
  rw [h] at ho
  cases ho
  exact hm

theorem Rados.meets_iff_of_fatal {s u : Rados ε} {error : Option ErrorCode} (f : Failure ε)
    (hl : s.locked = true) (hf : f ≠ .couldNotUnlock) (hu : u.MeetsContract update before)
    (hstep : s.step update error = if error = none then u else s.fail f) :
    (s.step update error).MeetsContract update before ↔ error = none := by
  rw [hstep]
  cases error with
  | none => simpa using hu
  | some e => simpa using not_meets_fail hl hf

theorem Rados.fail_meets {s : Rados ε} {f : Failure ε} (ho : s.object = before)
    (hl : s.locked = false) : (s.fail f).MeetsContract update before := by
  refine meets_done rfl ?_
  simp only [fail, hl]
  exact .failed (by rw [SameOnRados, ho])

theorem Rados.meets_execute_iff {s : Rados ε} {c : Content} (hne : c ≠ [])
    (hc : s.object = some c) (hl : s.locked = true) :
    (s.execute update).MeetsContract update before ↔ ∀ e, update c ≠ .user e := by
  simp only [execute, hc, Option.getD_some, hne, if_false]
  cases hu : update c with
  | value d =>
    simp only [ne_eq, reduceCtorEq, not_false_eq_true, implies_true, iff_true]
    exact meets_of_running (by simp)
  | withDelete =>
    simp only [ne_eq, reduceCtorEq, not_false_eq_true, implies_true, iff_true]
    exact meets_of_running (by simp)
  | user e => exact ⟨fun h => absurd h (not_meets_fail hl (by simp)), fun h => absurd rfl (h e)⟩

theorem Rados.not_meets_fail_of_removed {s : Rados ε} {f : Failure ε} {c : Content} (hne : c ≠ [])
    (hc : before = some c) (ho : s.object = none) (hl : s.locked = false)
    (hf : f ≠ .couldNotUnlock) : ¬ (s.fail f).MeetsContract update before := by
  intro h
  have hm := h _ rfl
  simp only [fail, ho, hl] at hm
  cases hm with
  | failed hsame =>
    rw [SameOnRados, hc] at hsame
    exact hne hsame
  | notUnlocked => exact hf rfl

theorem Rados.step_meets_iff {s : Rados ε} {error : Option ErrorCode} (hok : s.Ok update before)
    (hs : s.MeetsContract update before) :
    (s.step update error).MeetsContract update before ↔ s.Proper update error := by
  unfold Proper
  cases hpc : s.pc with
  | locking =>
    simp only [Ok, hpc] at hok
    refine iff_of_true ?_ trivial
    cases error with
    | some e => simpa only [step, hpc] using fail_meets hok.1 hok.2
    | none => simpa only [step, hpc] using meets_of_running (by simp)
  | stating =>
    simp only [Ok, hpc] at hok
    refine meets_iff_of_fatal .exception hok.2 (by simp) (u := if s.object.getD [] = [] then
      { s with pc := .removingEmpty } else { s with pc := .launchingRead }) ?_ ?_
    · split <;> exact meets_of_running (by simp)
    · cases error <;> simp [step, hpc]
  | removingEmpty =>
    simp only [Ok, hpc] at hok
    refine meets_iff_of_fatal .exception hok.2 (by simp)
      (u := ⟨none, false, .done (.threw .noSuchObject)⟩) ?_ ?_
    · exact meets_done rfl (.failed (by rw [SameOnRados, hok.1]; rfl))
    · cases error <;> simp [step, hpc]
  | launchingRead =>
    simp only [Ok, hpc] at hok
    obtain ⟨c, -, -, -, hl⟩ := hok
    refine meets_iff_of_fatal .noSuchObject hl (by simp) (u := { s with pc := .reading })
      (meets_of_running (by simp)) ?_
    cases error <;> simp [step, hpc]
  | reading =>
    simp only [Ok, hpc] at hok
    obtain ⟨c, hne, -, hc, hl⟩ := hok
    cases error with
    | some e => simpa [step, hpc] using not_meets_fail hl (by simp)
    | none => simpa [step, hpc, hc] using meets_execute_iff hne hc hl
  | removing =>
    simp only [Ok, hpc] at hok
    refine meets_iff_of_fatal .couldNotUpdateValue hok.1 (by simp)
      (u := ⟨none, false, .checking⟩) (meets_of_running (by simp)) ?_
    cases error <;> simp [step, hpc]
  | checking =>
    simp only [Ok, hpc] at hok
    obtain ⟨ho, hl, c, hne, hc, hu⟩ := hok
    have hdeleted : Rados.MeetsContract update before { s with pc := .done .returned } :=
      meets_done rfl (by simp only [ho, hl]; exact .deleted hc hu)
    cases error with
    | some e =>
      simp only [step, hpc, Option.mem_some_iff, forall_eq']
      split
      · next he => exact iff_of_true hdeleted he
      · next he => exact iff_of_false (not_meets_fail_of_removed hne hc ho hl (by simp)) he
    | none => simpa [step, hpc, ho] using hdeleted
  | launchingWrite d =>
    simp only [Ok, hpc] at hok
    refine meets_iff_of_fatal .couldNotCommit hok.1 (by simp) (u := { s with pc := .writing d })
      (meets_of_running (by simp)) ?_
    cases error <;> simp [step, hpc]
  | writing d =>
    simp only [Ok, hpc] at hok
    refine meets_iff_of_fatal .couldNotCommit hok.1 (by simp)
      (u := { s with object := some d, pc := .launchingUnlock }) (meets_of_running (by simp)) ?_
    cases error <;> simp [step, hpc]
  | launchingUnlock =>
    refine iff_of_true ?_ trivial
    cases error with
    | some e => simpa only [step, hpc] using meets_done rfl .notUnlocked
    | none => simpa only [step, hpc] using meets_of_running (by simp)
  | unlocking =>
    simp only [Ok, hpc] at hok
    obtain ⟨c, d, hc, hu, ho⟩ := hok
    refine iff_of_true ?_ trivial
    cases error with
    | some e => simpa only [step, hpc] using meets_done rfl .notUnlocked
    | none =>
      simp only [step, hpc]
      exact meets_done rfl (by simpa only [ho] using .updated hc hu)
  | done o =>
    simp only [hpc, step, iff_true]
    exact hs

theorem Rados.step_ok {s : Rados ε} {error : Option ErrorCode} (hok : s.Ok update before)
    (hp : s.Proper update error) : (s.step update error).Ok update before := by
  cases hpc : s.pc with
  | locking =>
    simp only [Ok, hpc] at hok
    cases error with
    | some e => simp [step, hpc, fail, Ok]
    | none => simp [step, hpc, Ok, hok.1]
  | stating =>
    simp only [Ok, hpc] at hok
    simp only [Proper, hpc] at hp
    simp only [step, hpc, hp, hok.1, Option.getD_some]
    split
    · next he => exact ⟨he, hok.2⟩
    · next he =>
      cases hb : before with
      | none => simp [hb] at he
      | some c => exact ⟨c, by simpa [hb] using he, rfl, by simp, hok.2⟩
  | removingEmpty =>
    simp only [Proper, hpc] at hp
    simp [step, hpc, hp, Ok]
  | launchingRead =>
    simp only [Ok, hpc] at hok
    simp only [Proper, hpc] at hp
    simpa [step, hpc, hp, Ok] using hok
  | reading =>
    simp only [Ok, hpc] at hok
    simp only [Proper, hpc] at hp
    obtain ⟨c, hne, hb, hc, hl⟩ := hok
    simp only [step, hpc, hp.1, execute, hc, Option.getD_some, hne, if_false]
    cases hu : update c with
    | value d => exact ⟨hl, c, hb, hu⟩
    | withDelete => exact ⟨hl, c, hne, hb, hu⟩
    | user e => trivial
  | removing =>
    simp only [Ok, hpc] at hok
    simp only [Proper, hpc] at hp
    simp only [step, hpc, hp]
    exact ⟨rfl, rfl, hok.2⟩
  | checking =>
    cases error with
    | some e =>
      simp only [step, hpc]
      split <;> trivial
    | none =>
      simp only [step, hpc]
      split <;> trivial
  | launchingWrite d =>
    simp only [Ok, hpc] at hok
    simp only [Proper, hpc] at hp
    simp only [step, hpc, hp]
    exact hok
  | writing d =>
    simp only [Ok, hpc] at hok
    simp only [Proper, hpc] at hp
    obtain ⟨-, c, hb, hu⟩ := hok
    simp only [step, hpc, hp]
    exact ⟨c, d, hb, hu, rfl⟩
  | launchingUnlock =>
    simp only [Ok, hpc] at hok
    cases error with
    | some e => simp [step, hpc, fail, Ok]
    | none => simpa [step, hpc, Ok] using hok
  | unlocking =>
    cases error with
    | some e => simp [step, hpc, fail, Ok]
    | none => simp [step, hpc, Ok]
  | done o => simpa [step, hpc] using hok

end

section
variable {update : Update ε} {before : Option Content} {s : Vfs ε} {c : SystemCall}

def Vfs.Ok (update : Update ε) (before : Option Content) (s : Vfs ε) : Prop :=
  match s.pc with
  | .opening | .stating _ | .recreating => s.object = before
  | .locking | .reading => s.object = before ∧ s.lockFile = true
  | .unlinkingObject =>
    s.object = before ∧ s.lockFile = true ∧ ∃ c, before = some c ∧ update c = .withDelete
  | .unlinkingLock =>
    s.object = none ∧ s.lockFile = true ∧ ∃ c, before = some c ∧ update c = .withDelete
  | .statingObject d | .statingLock d | .creating d | .writing d | .closing d _ | .moving d _ =>
    s.object = before ∧ ∃ c, before = some c ∧ update c = .value d
  | .done _ => True

theorem Vfs.meets_of_running (h : ∀ o, s.pc ≠ .done o) : s.MeetsContract update before :=
  fun o ho => absurd ho (h o)

theorem Vfs.meets_fail {f : Failure ε} (ho : s.object = before) :
    (s.fail f).MeetsContract update before := by
  intro o hpc
  cases hpc
  exact .failed ho.symm

theorem Vfs.finish_meets {o : Outcome ε} :
    (s.finish o).MeetsContract update before ↔ Meets Eq update before o s.object false := by
  constructor
  · exact fun h => h o rfl
  · intro h o' ho
    cases ho
    exact h

theorem Vfs.stated_ok {openErrno : Int} {error : Option ErrorCode} (ho : s.object = before) :
    (s.stated openErrno error).MeetsContract update before ∧
      (s.stated openErrno error).Ok update before := by
  unfold stated
  split
  · split <;> exact ⟨meets_fail ho, trivial⟩
  · exact ⟨meets_fail ho, trivial⟩
  · split
    · exact ⟨meets_of_running nofun, ho⟩
    · exact ⟨meets_fail ho, trivial⟩

theorem Vfs.execute_ok (ho : s.object = before) (hl : s.lockFile = true) :
    (s.execute update).MeetsContract update before ∧ (s.execute update).Ok update before := by
  unfold execute
  split
  · exact ⟨meets_fail ho, trivial⟩
  · next x hx =>
    have hb : before = some x := ho.symm.trans hx
    split
    · next d hu => exact ⟨meets_of_running nofun, ho, x, hb, hu⟩
    · next hu => exact ⟨meets_of_running nofun, ho, hl, x, hb, hu⟩
    · exact ⟨meets_fail ho, trivial⟩

theorem Vfs.unlinkLock_meets_iff (hpc : s.pc = .unlinkingLock) (hok : s.Ok update before) :
    (s.step update c).MeetsContract update before ↔ c.error = none := by
  simp only [Ok, hpc] at hok
  obtain ⟨ho, hl, x, hb, hu⟩ := hok
  cases he : c.error with
  | none =>
    simp only [step, hpc, he, hl, if_true, iff_true]
    exact finish_meets.mpr (ho ▸ .deleted hb hu)
  | some e =>
    simp only [step, hpc, he, reduceCtorEq, iff_false]
    intro h
    have hm := finish_meets.mp h
    rw [ho] at hm
    cases hm with
    | failed hsame => simp [hb] at hsame

theorem Vfs.rename_meets_iff {d : Content} {n : Nat} (hpc : s.pc = .moving d n)
    (hok : s.Ok update before) :
    (s.step update c).MeetsContract update before ↔ (c.error = none → d.length ≤ n) := by
  simp only [Ok, hpc] at hok
  obtain ⟨ho, x, hb, hu⟩ := hok
  cases he : c.error with
  | some e =>
    simp only [step, hpc, he, reduceCtorEq, false_implies, iff_true]
    exact meets_fail ho
  | none =>
    simp only [step, hpc, he, true_implies]
    rw [finish_meets]
    constructor
    · intro h
      generalize hy : d.take n = y at h
      cases h with
      | updated hb' hu' =>
        have hx := Option.some.inj (hb.symm.trans hb')
        subst hx
        rw [hu] at hu'
        cases hu'
        have := congrArg List.length hy
        rw [List.length_take] at this
        omega
    · intro h
      rw [List.take_of_length_le h]
      exact .updated hb hu

theorem Vfs.step_sound (hok : s.Ok update before) (hunlink : s.pc ≠ .unlinkingLock)
    (hmove : ∀ d n, s.pc ≠ .moving d n) (hdone : ∀ o, s.pc ≠ .done o) :
    (s.step update c).MeetsContract update before ∧ (s.step update c).Ok update before := by
  cases hpc : s.pc with
  | unlinkingLock => exact absurd hpc hunlink
  | moving d n => exact absurd hpc (hmove d n)
  | done o => exact absurd hpc (hdone o)
  | opening =>
    simp only [Ok, hpc] at hok
    cases he : c.error with
    | some e =>
      simp only [step, hpc, he]
      exact ⟨meets_of_running nofun, hok⟩
    | none =>
      simp only [step, hpc, he]
      split
      · next hl => exact ⟨meets_of_running nofun, hok, hl⟩
      · exact ⟨meets_of_running nofun, hok⟩
  | stating openErrno =>
    simp only [Ok, hpc] at hok
    simp only [step, hpc]
    exact stated_ok hok
  | recreating =>
    simp only [Ok, hpc] at hok
    cases he : c.error with
    | some e =>
      simp only [step, hpc, he]
      exact ⟨meets_fail hok, trivial⟩
    | none =>
      simp only [step, hpc, he]
      exact ⟨meets_of_running nofun, hok, rfl⟩
  | locking =>
    simp only [Ok, hpc] at hok
    cases he : c.error with
    | some e =>
      simp only [step, hpc, he]
      exact ⟨meets_fail hok.1, trivial⟩
    | none =>
      simp only [step, hpc, he]
      exact ⟨meets_of_running nofun, hok⟩
  | reading =>
    simp only [Ok, hpc] at hok
    cases he : c.error with
    | some e =>
      simp only [step, hpc, he]
      exact ⟨meets_fail hok.1, trivial⟩
    | none =>
      simp only [step, hpc, he]
      exact execute_ok hok.1 hok.2
  | unlinkingObject =>
    simp only [Ok, hpc] at hok
    cases he : c.error with
    | some e =>
      simp only [step, hpc, he]
      exact ⟨meets_fail hok.1, trivial⟩
    | none =>
      simp only [step, hpc, he]
      split
      · exact ⟨meets_fail hok.1, trivial⟩
      · exact ⟨meets_of_running nofun, rfl, hok.2⟩
  | statingObject d =>
    simp only [Ok, hpc] at hok
    cases he : c.error with
    | some e =>
      simp only [step, hpc, he]
      exact ⟨meets_fail hok.1, trivial⟩
    | none =>
      simp only [step, hpc, he]
      split
      · exact ⟨meets_fail hok.1, trivial⟩
      · exact ⟨meets_of_running nofun, hok⟩
  | statingLock d =>
    simp only [Ok, hpc] at hok
    cases he : c.error with
    | some e =>
      simp only [step, hpc, he]
      exact ⟨meets_fail hok.1, trivial⟩
    | none =>
      simp only [step, hpc, he]
      split
      · exact ⟨meets_of_running nofun, hok⟩
      · exact ⟨meets_fail hok.1, trivial⟩
  | creating d | writing d | closing d n =>
    simp only [Ok, hpc] at hok
    cases he : c.error with
    | some e =>
      simp only [step, hpc, he]
      exact ⟨meets_fail hok.1, trivial⟩
    | none =>
      simp only [step, hpc, he]
      exact ⟨meets_of_running nofun, hok⟩

theorem Vfs.step_meets_iff (hok : s.Ok update before) (hs : s.MeetsContract update before) :
    (s.step update c).MeetsContract update before ↔ s.Proper c := by
  cases hpc : s.pc with
  | unlinkingLock => simpa only [Proper, hpc] using unlinkLock_meets_iff hpc hok
  | moving d n => simpa only [Proper, hpc] using rename_meets_iff hpc hok
  | done o => simpa only [Proper, hpc, iff_true, step] using hs
  | _ =>
    simp only [Proper, hpc, iff_true]
    exact (step_sound hok (by simp [hpc]) (by simp [hpc]) (by simp [hpc])).1

theorem Vfs.step_ok (hok : s.Ok update before) : (s.step update c).Ok update before := by
  cases hpc : s.pc with
  | unlinkingLock =>
    simp only [Ok, hpc] at hok
    cases he : c.error with
    | some e =>
      simp only [step, hpc, he]
      trivial
    | none =>
      simp only [step, hpc, he, hok.2.1, if_true]
      trivial
  | moving d n =>
    cases he : c.error with
    | some e =>
      simp only [step, hpc, he]
      trivial
    | none =>
      simp only [step, hpc, he]
      trivial
  | done o => simpa only [step, hpc] using hok
  | _ => exact (step_sound hok (by simp [hpc]) (by simp [hpc]) (by simp [hpc])).2

end

/-- An update meets its contract exactly if, on Rados, nothing fails once it has the lock, the
callback least of all; and if, on a file system, the lock file can be removed after the object
and the new content is written in full. -/
theorem asyncUpdater_meets_iff (update : Update ε) (before : Option Content) :
    (∀ errors, AllStates (Rados.step update) (Rados.MeetsContract update before)
        (Rados.start before) errors ↔
      AllSteps (Rados.step update) (Rados.Proper update) (Rados.start before) errors) ∧
    ∀ lockFile calls, AllStates (Vfs.step update) (Vfs.MeetsContract update before)
        (Vfs.start before lockFile) calls ↔
      AllSteps (Vfs.step update) Vfs.Proper (Vfs.start before lockFile) calls := by
  constructor
  · intro errors
    refine allStates_iff_allSteps (I := Rados.Ok update before)
      (fun s e hok hs => Rados.step_meets_iff hok hs) (fun s e hok _ hp => Rados.step_ok hok hp)
      ⟨rfl, rfl⟩ ?_
    exact Rados.meets_of_running nofun
  · intro lockFile calls
    refine allStates_iff_allSteps (I := Vfs.Ok update before)
      (fun s c hok hs => Vfs.step_meets_iff hok hs) (fun s c hok _ _ => Vfs.step_ok hok) rfl ?_
    exact Vfs.meets_of_running nofun

/-- On Rados a request that turns out to have another owner stays locked. On a file system an
update of which one byte of two was written is taken for a success, and a deletion that leaves
the lock file behind for a failure. -/
theorem wrongPreviousOwner_stays_locked :
    (¬ AllStates (Rados.step fun _ => .user ()) (Rados.MeetsContract (fun _ => .user ())
      (some [1])) (Rados.start (some [1])) [none, none, none, none]) ∧
    (¬ AllStates (Vfs.step fun _ => .value [1, 2])
      (Vfs.MeetsContract (fun _ => UpdateResult.value (ε := Unit) [1, 2]) (some [3]))
      (Vfs.start (some [3]) true) (List.replicate 9 ⟨none, 1⟩)) ∧
    ¬ AllStates (Vfs.step fun _ => .withDelete)
      (Vfs.MeetsContract (fun _ => UpdateResult.withDelete (ε := Unit)) (some [3]))
      (Vfs.start (some [3]) true) (List.replicate 4 ⟨none, 0⟩ ++ [⟨some EIO, 0⟩]) := by
  refine ⟨fun h => ?_, fun h => ?_, fun h => ?_⟩
  · have hfinal := h.last _ rfl
    cases hfinal
  · have hfinal := h.last _ rfl
    cases hfinal with
    | updated _ hu => simp at hu
  · have hfinal := h.last _ rfl
    cases hfinal with
    | failed hsame => cases hsame

end Cta.ObjectStore.AsyncUpdater
