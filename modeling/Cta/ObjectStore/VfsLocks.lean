import Cta.ObjectStore.RadosLocks

/-! Threads that create, lock, release and remove objects of the file backend, one step for each
system call. Beside the file of an object stands its lock file, whose name is no object's. -/
namespace Cta.ObjectStore.VfsLocks
open Cta.ObjectStore.BackendRados (Content)
open Cta.ObjectStore.RadosLocks (Thread LockType)

abbrev Inode := Nat
abbrev Fd := Nat

/-- Where a thread is: in `lockHelper` before the `stat`, before the lock file is created again or
before `flock`, in `create` before each call after the first, or in `remove` before the second
one. `found` says that there was an object when its lock file was opened. -/
inductive Activity (Name : Type) where
  | idle
  | stating (name : Name) (type : LockType)
  | recreating (name : Name) (type : LockType)
  | flocking (name : Name) (type : LockType) (fd : Fd) (found : Bool)
  | writing (name : Name) (inode : Inode) (content : Content)
  | creatingLock (name : Name)
  | cleaning (name : Name)
  | cleaningLock (name : Name)
  | removingLock (name : Name)
  deriving DecidableEq

structure Flock where
  fd : Fd
  inode : Inode
  type : LockType
  deriving DecidableEq

/-- A `ScopedLock` object that was returned. `dropped` says that the object was removed since. -/
structure ScopedLock (Name : Type) where
  name : Name
  type : LockType
  fd : Fd
  fdSet : Bool
  dropped : Bool
  deriving DecidableEq

/-- The directory, the open lock files with the kernel's locks, the threads and the lock objects
they were given. `destroyed` and `misreported` record that `create` unlinked an object that was
not empty, and that a locker found nothing and did not throw `NoSuchObject`. -/
structure State (Name : Type) where
  objects : Name → Option (Inode × Content)
  lockFiles : Name → Option Inode
  nextInode : Inode
  files : Fd → Option Inode
  flocks : List Flock
  threads : Thread → Activity Name
  locks : Nat → Option (ScopedLock Name)
  destroyed : Bool
  misreported : Bool

variable {Name : Type}

def State.start : State Name where
  objects _ := none
  lockFiles _ := none
  nextInode := 0
  files _ := none
  flocks := []
  threads _ := .idle
  locks _ := none
  destroyed := false
  misreported := false

def State.setThread (s : State Name) (t : Thread) (a : Activity Name) : State Name :=
  { s with threads := Function.update s.threads t a }

def State.setLock (s : State Name) (l : Nat) (k : Option (ScopedLock Name)) : State Name :=
  { s with locks := Function.update s.locks l k }

def State.openFile (s : State Name) (fd : Fd) (inode : Inode) : State Name :=
  { s with files := Function.update s.files fd (some inode) }

def State.closeFile (s : State Name) (fd : Fd) : State Name :=
  { s with files := Function.update s.files fd none
           flocks := s.flocks.filter (·.fd ≠ fd) }

def State.lockable (s : State Name) (inode : Inode) (type : LockType) : Bool :=
  s.flocks.all fun x => x.inode ≠ inode ∨ type = .shared ∧ x.type = .shared

def State.flock (s : State Name) (t : Thread) (l : Nat) : Option (State Name) :=
  match s.threads t with
  | .flocking name type fd _ =>
    match s.files fd with
    | some inode =>
      if s.locks l = none ∧ s.lockable inode type = true then
        some { ({ s with flocks := ⟨fd, inode, type⟩ :: s.flocks }.setLock l
                  (some ⟨name, type, fd, true, false⟩)).setThread t .idle with
          misreported := s.misreported || (s.objects name).isNone }
      else none
    | none => none
  | _ => none

/-- `flock` fails, or it takes too long: the exception is not `NoSuchObject`. -/
def State.giveUp (s : State Name) (t : Thread) : Option (State Name) :=
  match s.threads t with
  | .flocking name _ fd found =>
    some { (s.closeFile fd).setThread t .idle with
      misreported := s.misreported || !found && (s.objects name).isNone }
  | _ => none

def State.release (s : State Name) (l : Nat) : Option (State Name) :=
  match s.locks l with
  | some k =>
    if k.fdSet then some ((s.closeFile k.fd).setLock l (some { k with fdSet := false }))
    else some s
  | none => none

def State.destroy (s : State Name) (l : Nat) : Option (State Name) :=
  match s.locks l with
  | some k => some (if k.fdSet then (s.closeFile k.fd).setLock l none else s.setLock l none)
  | none => none

section
variable [DecidableEq Name]

def State.unlinkObject (s : State Name) (name : Name) : State Name :=
  { s with objects := Function.update s.objects name none
           locks := fun l => (s.locks l).map fun k =>
             if k.name = name then { k with dropped := true } else k }

def State.openLock (s : State Name) (t : Thread) (name : Name) (type : LockType) (fd : Fd) :
    Option (State Name) :=
  if s.threads t = .idle ∧ s.files fd = none then
    match s.lockFiles name with
    | some inode =>
      some ((s.openFile fd inode).setThread t (.flocking name type fd (s.objects name).isSome))
    | none => some (s.setThread t (.stating name type))
  else none

def State.stat (s : State Name) (t : Thread) : Option (State Name) :=
  match s.threads t with
  | .stating name type =>
    match s.objects name with
    | none => some (s.setThread t .idle)
    | some _ => some (s.setThread t (.recreating name type))
  | _ => none

def State.recreate (s : State Name) (t : Thread) (fd : Fd) : Option (State Name) :=
  match s.threads t with
  | .recreating name type =>
    if s.files fd = none then
      match s.lockFiles name with
      | some inode => some ((s.openFile fd inode).setThread t (.flocking name type fd true))
      | none =>
        some (({ s with lockFiles := Function.update s.lockFiles name (some s.nextInode)
                        nextInode := s.nextInode + 1 }.openFile fd s.nextInode).setThread t
          (.flocking name type fd true))
    else none
  | _ => none

/-- The first `open` of `create`. With `O_EXCL` it fails where there is an object. -/
def State.openObject (s : State Name) (t : Thread) (name : Name) (content : Content) :
    Option (State Name) :=
  if s.threads t = .idle ∧ s.objects name = none then
    some ({ s with objects := Function.update s.objects name (some (s.nextInode, []))
                   nextInode := s.nextInode + 1 }.setThread t
      (.writing name s.nextInode content))
  else none

/-- What is written goes to the file that was opened, also where the name has another one now. -/
def State.write (s : State Name) (t : Thread) : Option (State Name) :=
  match s.threads t with
  | .writing name inode content =>
    let written := (s.objects name).map fun x => if x.1 = inode then (inode, content) else x
    some ({ s with objects := Function.update s.objects name written }.setThread t
      (.creatingLock name))
  | _ => none

/-- The second `open` of `create`. `lockCreated` is set before it is known to have failed. -/
def State.createLock (s : State Name) (t : Thread) : Option (State Name) :=
  match s.threads t with
  | .creatingLock name =>
    match s.lockFiles name with
    | none =>
      some ({ s with lockFiles := Function.update s.lockFiles name (some s.nextInode)
                     nextInode := s.nextInode + 1 }.setThread t .idle)
    | some _ => some (s.setThread t (.cleaning name))
  | _ => none

def State.cleanObject (s : State Name) (t : Thread) : Option (State Name) :=
  match s.threads t with
  | .cleaning name =>
    some { (s.unlinkObject name).setThread t (.cleaningLock name) with
      destroyed := s.destroyed || (s.objects name).any (·.2 ≠ []) }
  | _ => none

def State.unlinkLock (s : State Name) (t : Thread) : Option (State Name) :=
  match s.threads t with
  | .cleaningLock name | .removingLock name =>
    some ({ s with lockFiles := Function.update s.lockFiles name none }.setThread t .idle)
  | _ => none

def State.remove (s : State Name) (t : Thread) (name : Name) : Option (State Name) :=
  if s.threads t = .idle ∧ s.objects name ≠ none then
    some ((s.unlinkObject name).setThread t (.removingLock name))
  else none

inductive Event (Name : Type) where
  | openLock (t : Thread) (name : Name) (type : LockType) (fd : Fd)
  | stat (t : Thread)
  | recreate (t : Thread) (fd : Fd)
  | flock (t : Thread) (l : Nat)
  | giveUp (t : Thread)
  | openObject (t : Thread) (name : Name) (content : Content)
  | write (t : Thread)
  | createLock (t : Thread)
  | cleanObject (t : Thread)
  | unlinkLock (t : Thread)
  | remove (t : Thread) (name : Name)
  | release (l : Nat)
  | destroy (l : Nat)

/-- `none`: the thread waits, is elsewhere, or the call throws and changes nothing. -/
def next (s : State Name) : Event Name → Option (State Name)
  | .openLock t name type fd => s.openLock t name type fd
  | .stat t => s.stat t
  | .recreate t fd => s.recreate t fd
  | .flock t l => s.flock t l
  | .giveUp t => s.giveUp t
  | .openObject t name content => s.openObject t name content
  | .write t => s.write t
  | .createLock t => s.createLock t
  | .cleanObject t => s.cleanObject t
  | .unlinkLock t => s.unlinkLock t
  | .remove t name => s.remove t name
  | .release l => s.release l
  | .destroy l => s.destroy l

def step (s : State Name) (e : Event Name) : State Name := (next s e).getD s

theorem destroyed_of_lost {s u : State Name} {e : Event Name} {name : Name} {i : Inode}
    {c : Content} (h : next s e = some u) (hc : c ≠ []) (ho : s.objects name = some (i, c))
    (hu : u.objects name = none) (he : ∀ t, e ≠ .remove t name) : u.destroyed = true := by
  have hgone : ∀ {v : State Name} {n : Name} {o : Option (Inode × Content)},
      v.objects = Function.update s.objects n o → v.objects name = none → name = n ∧ o = none := by
    intro v n o hv hnone
    rw [hv] at hnone
    by_cases hn : name = n
    · exact ⟨hn, by simpa [hn] using hnone⟩
    · simp [hn, ho] at hnone
  cases e with
  | openLock t n type fd => grind [next, State.openLock, State.setThread, State.openFile]
  | stat t => grind [next, State.stat, State.setThread]
  | recreate t fd => grind [next, State.recreate, State.setThread, State.openFile]
  | flock t l => grind [next, State.flock, State.setThread, State.setLock]
  | giveUp t => grind [next, State.giveUp, State.setThread, State.closeFile]
  | openObject t n content =>
    simp only [next, State.openObject] at h
    split at h
    · cases h
      cases (hgone rfl hu).2
    · cases h
  | write t =>
    simp only [next, State.write] at h
    split at h
    · cases h
      obtain ⟨rfl, hnone⟩ := hgone rfl hu
      simp [ho] at hnone
    · cases h
  | createLock t => grind [next, State.createLock, State.setThread]
  | cleanObject t =>
    simp only [next, State.cleanObject] at h
    split at h
    · cases h
      obtain ⟨rfl, -⟩ := hgone rfl hu
      simp [ho, hc]
    · cases h
  | unlinkLock t => grind [next, State.unlinkLock, State.setThread]
  | remove t n =>
    simp only [next, State.remove] at h
    split at h
    · cases h
      obtain ⟨rfl, -⟩ := hgone rfl hu
      exact absurd rfl (he t)
    · cases h
  | release l => grind [next, State.release, State.closeFile, State.setLock]
  | destroy l => grind [next, State.destroy, State.closeFile, State.setLock]
end

/-- A lock object that still stands for a lock. -/
structure Held (locks : Nat → Option (ScopedLock Name)) (l : Nat) (k : ScopedLock Name) :
    Prop where
  lock : locks l = some k
  fdSet : k.fdSet = true
  dropped : k.dropped = false

/-- What the callers rely on. A lock file stays without its object only until `remove` is done; a
lock that was returned stays in force until it is released, and while its object is there it is on
the lock file others open; an exclusive one keeps all others out. -/
structure Safe (s : State Name) : Prop where
  kept : s.destroyed = false
  reported : s.misreported = false
  nothingLeft : ∀ name, s.objects name = none → s.lockFiles name ≠ none →
    ∃ t, s.threads t = .removingLock name
  inForce : ∀ l k, s.locks l = some k → k.fdSet = true →
    ∃ inode, ⟨k.fd, inode, k.type⟩ ∈ s.flocks ∧
      (k.dropped = false → s.lockFiles k.name = some inode)
  exclusive : ∀ l k l' k', Held s.locks l k → Held s.locks l' k' → k.name = k'.name →
    k.type = .exclusive → l' = l

/-- A lock is got on the lock file the name still has and with the object there, and a locker
that gives up found an object. A lock file is made only where there is an object; that
of `create`, only where there is none yet; and one is unlinked only where no lock is held. -/
def Proper (s : State Name) : Event Name → Prop
  | .flock t _ => ∀ name type fd found, s.threads t = .flocking name type fd found →
    s.files fd = s.lockFiles name ∧ s.objects name ≠ none
  | .giveUp t => ∀ name type fd, s.threads t = .flocking name type fd false →
    s.objects name ≠ none
  | .recreate t _ => ∀ name type, s.threads t = .recreating name type →
    s.lockFiles name = none → s.objects name ≠ none
  | .createLock t => ∀ name, s.threads t = .creatingLock name →
    s.lockFiles name = none ∧ s.objects name ≠ none
  | .unlinkLock t => ∀ name, s.threads t = .removingLock name →
    ∀ l k, Held s.locks l k → k.name ≠ name
  | _ => True

def Activity.fd : Activity Name → Option Fd
  | .flocking _ _ fd _ => some fd
  | _ => none

def Activity.cleansUp : Activity Name → Bool
  | .cleaning _ | .cleaningLock _ => true
  | _ => false

variable {s u : State Name} {t : Thread} {l : Nat} {fd : Fd}

/-- Each open lock file is that of one thread, which does not have the lock yet, or of one lock
object, which has it. -/
structure Descriptors (s : State Name) : Prop where
  waiting : ∀ t fd, (s.threads t).fd = some fd → s.files fd ≠ none ∧ ∀ x ∈ s.flocks, x.fd ≠ fd
  oneThread : ∀ t t' fd, (s.threads t).fd = some fd → (s.threads t').fd = some fd → t = t'
  locked : ∀ l k, s.locks l = some k → k.fdSet = true →
    ∃ inode, s.files k.fd = some inode ∧ ⟨k.fd, inode, k.type⟩ ∈ s.flocks
  oneLock : ∀ l k l' k', s.locks l = some k → s.locks l' = some k' → k.fdSet = true →
    k'.fdSet = true → k.fd = k'.fd → l = l'
  opened : ∀ x ∈ s.flocks, s.files x.fd = some x.inode
  alone : ∀ x ∈ s.flocks, x.type = .exclusive → ∀ y ∈ s.flocks, y.inode = x.inode → y = x

structure Directory (s : State Name) : Prop where
  kept : s.destroyed = false
  reported : s.misreported = false
  nothingLeft : ∀ name, s.objects name = none → s.lockFiles name ≠ none →
    ∃ t, s.threads t = .removingLock name
  noCleaning : ∀ t, (s.threads t).cleansUp = false
  held : ∀ l k, Held s.locks l k → s.files k.fd = s.lockFiles k.name ∧ s.objects k.name ≠ none

structure Ok (s : State Name) : Prop extends Descriptors s, Directory s

theorem Ok.safe (hok : Ok s) : Safe s where
  kept := hok.kept
  reported := hok.reported
  nothingLeft := hok.nothingLeft
  inForce l k hk hset := by
    obtain ⟨inode, hfile, hflock⟩ := hok.locked l k hk hset
    refine ⟨inode, hflock, fun hd => ?_⟩
    rw [← (hok.held l k ⟨hk, hset, hd⟩).1, hfile]
  exclusive l k l' k' hk hk' hname he := by
    obtain ⟨inode, hfile, hflock⟩ := hok.locked l k hk.lock hk.fdSet
    obtain ⟨inode', hfile', hflock'⟩ := hok.locked l' k' hk'.lock hk'.fdSet
    -- both are on the lock file the name has
    have hsame : inode' = inode := by
      have hcurrent := (hok.held l k hk).1
      have hcurrent' := (hok.held l' k' hk').1
      rw [hname, hfile] at hcurrent
      rw [hfile', ← hcurrent] at hcurrent'
      exact Option.some.inj hcurrent'
    have := hok.alone _ hflock he _ hflock' hsame
    exact hok.oneLock l' k' l k hk'.lock hk.lock hk'.fdSet hk.fdSet (congrArg Flock.fd this)

theorem Ok.start : Ok (State.start : State Name) where
  waiting := nofun
  oneThread := nofun
  locked := nofun
  oneLock := nofun
  opened := nofun
  alone := nofun
  kept := rfl
  reported := rfl
  nothingLeft _ _ h := absurd rfl h
  noCleaning _ := rfl
  held _ _ h := nomatch h.lock

theorem threads_setThread {a : Activity Name} (t' : Thread) :
    (s.setThread t a).threads t' = if t' = t then a else s.threads t' := by
  simp [State.setThread, Function.update_apply]

theorem fd_setThread {a : Activity Name} {t' : Thread}
    (h : ((s.setThread t a).threads t').fd = some fd) :
    t' = t ∧ a.fd = some fd ∨ t' ≠ t ∧ (s.threads t').fd = some fd := by
  rw [threads_setThread] at h
  by_cases he : t' = t
  · rw [if_pos he] at h
    exact .inl ⟨he, h⟩
  · rw [if_neg he] at h
    exact .inr ⟨he, h⟩

theorem Descriptors.setThread (hd : Descriptors s) {a : Activity Name}
    (ha : a.fd = none ∨ a.fd = (s.threads t).fd) : Descriptors (s.setThread t a) := by
  have hfd : ∀ t' fd, ((s.setThread t a).threads t').fd = some fd →
      (s.threads t').fd = some fd := by
    intro t' fd h
    cases fd_setThread h with
    | inl hnew =>
      cases ha with
      | inl hnone =>
        rw [hnone] at hnew
        cases hnew.2
      | inr hsame =>
        rw [hnew.1, ← hsame]
        exact hnew.2
    | inr hold => exact hold.2
  exact {
    waiting t' fd h := hd.waiting t' fd (hfd t' fd h)
    oneThread t₁ t₂ fd h₁ h₂ := hd.oneThread t₁ t₂ fd (hfd t₁ fd h₁) (hfd t₂ fd h₂)
    locked := hd.locked
    oneLock := hd.oneLock
    opened := hd.opened
    alone := hd.alone }

theorem Descriptors.openFile (hd : Descriptors s) {a : Activity Name} {inode : Inode}
    (hfree : s.files fd = none) (ha : a.fd = some fd) :
    Descriptors ((s.openFile fd inode).setThread t a) := by
  have hfile : ∀ fd', s.files fd' ≠ none →
      ((s.openFile fd inode).setThread t a).files fd' = s.files fd' ∧ fd' ≠ fd := by
    intro fd' h
    have hne : fd' ≠ fd := by
      intro he
      exact h (he ▸ hfree)
    exact ⟨Function.update_of_ne hne _ _, hne⟩
  constructor
  · intro t' fd' h
    cases fd_setThread h with
    | inl hnew =>
      have he : fd = fd' := by simpa [ha] using hnew.2
      subst he
      refine ⟨by simp [State.setThread, State.openFile], fun x hx he => ?_⟩
      have := hd.opened x hx
      rw [he, hfree] at this
      cases this
    | inr hold =>
      have hw := hd.waiting t' fd' hold.2
      rw [(hfile fd' hw.1).1]
      exact hw
  · intro t₁ t₂ fd' h₁ h₂
    cases fd_setThread h₁ with
    | inl hnew₁ =>
      cases fd_setThread h₂ with
      | inl hnew₂ => rw [hnew₁.1, hnew₂.1]
      | inr hold₂ =>
        have he : fd = fd' := by simpa [ha] using hnew₁.2
        exact absurd he.symm (hfile fd' (hd.waiting t₂ fd' hold₂.2).1).2
    | inr hold₁ =>
      cases fd_setThread h₂ with
      | inl hnew₂ =>
        have he : fd = fd' := by simpa [ha] using hnew₂.2
        exact absurd he.symm (hfile fd' (hd.waiting t₁ fd' hold₁.2).1).2
      | inr hold₂ => exact hd.oneThread t₁ t₂ fd' hold₁.2 hold₂.2
  · intro l k hk hset
    obtain ⟨i, hi, hflock⟩ := hd.locked l k hk hset
    refine ⟨i, ?_, hflock⟩
    rw [(hfile k.fd (by simp [hi])).1, hi]
  · exact hd.oneLock
  · intro x hx
    have hx' := hd.opened x hx
    rw [(hfile x.fd (by simp [hx'])).1, hx']
  · exact hd.alone

theorem Descriptors.closeFile (hd : Descriptors s) (hfiles : u.files = (s.closeFile fd).files)
    (hflocks : u.flocks = (s.closeFile fd).flocks)
    (hthreads : ∀ t fd', (u.threads t).fd = some fd' → fd' ≠ fd ∧ (s.threads t).fd = some fd')
    (hlocks : ∀ l k, u.locks l = some k → k.fdSet = true → k.fd ≠ fd ∧ s.locks l = some k) :
    Descriptors u := by
  have hfile : ∀ fd', fd' ≠ fd → u.files fd' = s.files fd' := by
    intro fd' hne
    rw [hfiles]
    exact Function.update_of_ne hne _ _
  have hflock : ∀ x, x ∈ u.flocks ↔ x ∈ s.flocks ∧ x.fd ≠ fd := by
    intro x
    rw [hflocks]
    simp [State.closeFile]
  constructor
  · intro t fd' h
    obtain ⟨hne, h⟩ := hthreads t fd' h
    obtain ⟨hopen, hfree⟩ := hd.waiting t fd' h
    rw [hfile fd' hne]
    exact ⟨hopen, fun x hx => hfree x ((hflock x).mp hx).1⟩
  · intro t₁ t₂ fd' h₁ h₂
    exact hd.oneThread t₁ t₂ fd' (hthreads t₁ fd' h₁).2 (hthreads t₂ fd' h₂).2
  · intro l k hk hset
    obtain ⟨hne, hk⟩ := hlocks l k hk hset
    obtain ⟨i, hi, hx⟩ := hd.locked l k hk hset
    exact ⟨i, by rw [hfile k.fd hne, hi], (hflock _).mpr ⟨hx, hne⟩⟩
  · intro l₁ k₁ l₂ k₂ h₁ h₂ hset₁ hset₂
    exact hd.oneLock l₁ k₁ l₂ k₂ (hlocks l₁ k₁ h₁ hset₁).2 (hlocks l₂ k₂ h₂ hset₂).2 hset₁ hset₂
  · intro x hx
    obtain ⟨hx, hne⟩ := (hflock x).mp hx
    rw [hfile x.fd hne]
    exact hd.opened x hx
  · intro x hx he y hy
    exact hd.alone x ((hflock x).mp hx).1 he y ((hflock y).mp hy).1

theorem noCleaning_setThread (hs : ∀ t, (s.threads t).cleansUp = false) {a : Activity Name}
    (ha : a.cleansUp = false) (t' : Thread) :
    ((s.setThread t a).threads t').cleansUp = false := by
  rw [threads_setThread]
  by_cases he : t' = t
  · rwa [if_pos he]
  · rw [if_neg he]
    exact hs t'

theorem Directory.setThread (hd : Directory s) {a : Activity Name}
    (ht : ∀ name, s.threads t ≠ .removingLock name) (ha : a.cleansUp = false) :
    Directory (s.setThread t a) where
  kept := hd.kept
  reported := hd.reported
  nothingLeft name ho hl := by
    obtain ⟨t', ht'⟩ := hd.nothingLeft name ho hl
    have hne : t' ≠ t := by
      intro he
      exact ht name (he ▸ ht')
    exact ⟨t', by rwa [threads_setThread, if_neg hne]⟩
  noCleaning := noCleaning_setThread hd.noCleaning ha
  held := hd.held

theorem Ok.openFile (hok : Ok s) {a : Activity Name} {inode : Inode} (hfree : s.files fd = none)
    (hfd : a.fd = some fd) (ha : a.cleansUp = false)
    (ht : ∀ name, s.threads t ≠ .removingLock name) :
    Ok ((s.openFile fd inode).setThread t a) := by
  have hdir : Directory (s.openFile fd inode) := by
    refine ⟨hok.kept, hok.reported, hok.nothingLeft, hok.noCleaning, fun l k hk => ?_⟩
    have hheld := hok.held l k hk
    obtain ⟨i, hi, -⟩ := hok.locked l k hk.lock hk.fdSet
    have hne : k.fd ≠ fd := by
      intro he
      rw [he, hfree] at hi
      cases hi
    exact ⟨(Function.update_of_ne hne _ _).trans hheld.1, hheld.2⟩
  exact ⟨hok.toDescriptors.openFile hfree hfd, hdir.setThread ht ha⟩

theorem Ok.setThread (hok : Ok s) {a : Activity Name} (hfd : a.fd = none ∨ a.fd = (s.threads t).fd)
    (ht : ∀ name, s.threads t ≠ .removingLock name) (ha : a.cleansUp = false) :
    Ok (s.setThread t a) :=
  ⟨hok.toDescriptors.setThread hfd, hok.toDirectory.setThread ht ha⟩

theorem locks_setLock {o : Option (ScopedLock Name)} {l' : Nat} {k : ScopedLock Name}
    (h : (s.setLock l o).locks l' = some k) :
    l' = l ∧ o = some k ∨ l' ≠ l ∧ s.locks l' = some k := by
  by_cases he : l' = l
  · subst he
    exact .inl ⟨rfl, by simpa [State.setLock] using h⟩
  · exact .inr ⟨he, by simpa [State.setLock, he] using h⟩

theorem Descriptors.flock (hd : Descriptors s) (name : Name) {type : LockType} {inode : Inode}
    (hfd : (s.threads t).fd = some fd) (hinode : s.files fd = some inode)
    (hlockable : s.lockable inode type = true) :
    Descriptors (({ s with flocks := ⟨fd, inode, type⟩ :: s.flocks }.setLock l
      (some ⟨name, type, fd, true, false⟩)).setThread t .idle) := by
  have hwait := hd.waiting t fd hfd
  have hother : ∀ l' k, s.locks l' = some k → k.fdSet = true → k.fd ≠ fd := by
    intro l' k hk hset
    obtain ⟨i, -, hx⟩ := hd.locked l' k hk hset
    exact hwait.2 _ hx
  have hthreads : ∀ t' fd', ((s.setThread t .idle).threads t').fd = some fd' →
      t' ≠ t ∧ (s.threads t').fd = some fd' := by
    intro t' fd' h
    cases fd_setThread h with
    | inl hnew => cases hnew.2
    | inr hold => exact hold
  have hlockable : ∀ x ∈ s.flocks, x.inode = inode → type = .shared ∧ x.type = .shared := by
    intro x hx he
    have := List.all_eq_true.mp hlockable x hx
    simpa [he] using this
  constructor
  · intro t' fd' h
    obtain ⟨hne, h⟩ := hthreads t' fd' h
    obtain ⟨hopen, hfree⟩ := hd.waiting t' fd' h
    refine ⟨hopen, fun x hx => ?_⟩
    cases List.mem_cons.mp hx with
    | inl hnew =>
      subst hnew
      intro he
      exact hne (hd.oneThread t' t fd' h (he ▸ hfd))
    | inr hold => exact hfree x hold
  · intro t₁ t₂ fd' h₁ h₂
    exact hd.oneThread t₁ t₂ fd' (hthreads t₁ fd' h₁).2 (hthreads t₂ fd' h₂).2
  · intro l' k hk hset
    cases locks_setLock (s := s) hk with
    | inl hnew =>
      cases hnew.2
      exact ⟨inode, hinode, List.mem_cons_self⟩
    | inr hold =>
      obtain ⟨i, hi, hx⟩ := hd.locked l' k hold.2 hset
      exact ⟨i, hi, List.mem_cons_of_mem _ hx⟩
  · intro l₁ k₁ l₂ k₂ h₁ h₂ hset₁ hset₂ he
    cases locks_setLock (s := s) h₁ with
    | inl hnew₁ =>
      cases locks_setLock (s := s) h₂ with
      | inl hnew₂ => rw [hnew₁.1, hnew₂.1]
      | inr hold₂ =>
        cases hnew₁.2
        exact absurd he.symm (hother l₂ k₂ hold₂.2 hset₂)
    | inr hold₁ =>
      cases locks_setLock (s := s) h₂ with
      | inl hnew₂ =>
        cases hnew₂.2
        exact absurd he (hother l₁ k₁ hold₁.2 hset₁)
      | inr hold₂ => exact hd.oneLock l₁ k₁ l₂ k₂ hold₁.2 hold₂.2 hset₁ hset₂ he
  · intro x hx
    cases List.mem_cons.mp hx with
    | inl hnew =>
      subst hnew
      exact hinode
    | inr hold => exact hd.opened x hold
  · intro x hx he y hy hsame
    -- an exclusive lock is taken only where there is none, a shared one beside shared ones
    cases List.mem_cons.mp hx with
    | inl hx =>
      subst hx
      cases List.mem_cons.mp hy with
      | inl hy => exact hy
      | inr hy =>
        have hshared : type = .shared := (hlockable y hy hsame).1
        have hexcl : type = .exclusive := he
        rw [hshared] at hexcl
        cases hexcl
    | inr hx =>
      cases List.mem_cons.mp hy with
      | inl hy =>
        subst hy
        have := (hlockable x hx hsame.symm).2
        rw [he] at this
        cases this
      | inr hy => exact hd.alone x hx he y hy hsame

theorem Ok.flock (hok : Ok s) (h : s.flock t l = some u) (hp : Proper s (.flock t l)) : Ok u := by
  unfold State.flock at h
  split at h
  · next name type fd found ht =>
    have hproper := hp name type fd found ht
    have hfd : (s.threads t).fd = some fd := by rw [ht]; rfl
    split at h
    · next inode hinode =>
      split at h
      · next hg =>
        cases h
        have hdescriptors := hok.toDescriptors.flock (l := l) name hfd hinode hg.2
        have hne : ∀ name, s.threads t ≠ .removingLock name := by simp [ht]
        have hdir := hok.toDirectory.setThread (a := .idle) hne rfl
        exact {
          waiting := hdescriptors.waiting
          oneThread := hdescriptors.oneThread
          locked := hdescriptors.locked
          oneLock := hdescriptors.oneLock
          opened := hdescriptors.opened
          alone := hdescriptors.alone
          kept := hok.kept
          reported := by
            have := Option.isSome_iff_ne_none.mpr hproper.2
            simp [hok.reported, this]
          nothingLeft := hdir.nothingLeft
          noCleaning := hdir.noCleaning
          held l' k hk := by
            cases locks_setLock (s := s) hk.lock with
            | inl hnew =>
              cases hnew.2
              exact hproper
            | inr hold => exact hok.held l' k ⟨hold.2, hk.fdSet, hk.dropped⟩ }
      · cases h
    · cases h
  · cases h

theorem held_closeFile (hd : Directory s) (hfiles : u.files = (s.closeFile fd).files)
    (hlockFiles : u.lockFiles = s.lockFiles) (hobjects : u.objects = s.objects)
    (hlocks : ∀ l k, u.locks l = some k → k.fdSet = true → k.fd ≠ fd ∧ s.locks l = some k)
    (k : ScopedLock Name) (hk : Held u.locks l k) :
    u.files k.fd = u.lockFiles k.name ∧ u.objects k.name ≠ none := by
  obtain ⟨hne, hlock⟩ := hlocks l k hk.lock hk.fdSet
  have hfile : u.files k.fd = s.files k.fd := by
    rw [hfiles]
    exact Function.update_of_ne hne _ _
  rw [hfile, hlockFiles, hobjects]
  exact hd.held l k ⟨hlock, hk.fdSet, hk.dropped⟩

theorem Ok.giveUp (hok : Ok s) (h : s.giveUp t = some u) (hp : Proper s (.giveUp t)) : Ok u := by
  unfold State.giveUp at h
  split at h
  · next name type fd found ht =>
    cases h
    have hfd : (s.threads t).fd = some fd := by rw [ht]; rfl
    have hlocks : ∀ l k, s.locks l = some k → k.fdSet = true → k.fd ≠ fd ∧ s.locks l = some k := by
      intro l k hk hset
      obtain ⟨i, -, hx⟩ := hok.locked l k hk hset
      exact ⟨(hok.waiting t fd hfd).2 _ hx, hk⟩
    have hne : ∀ name, s.threads t ≠ .removingLock name := by simp [ht]
    have hdir := hok.toDirectory.setThread (a := .idle) hne rfl
    constructor
    · refine hok.toDescriptors.closeFile rfl rfl (fun t' fd' h => ?_) hlocks
      cases fd_setThread (s := s.closeFile fd) h with
      | inl hnew => cases hnew.2
      | inr hold =>
        refine ⟨fun he => hold.1 ?_, hold.2⟩
        exact hok.oneThread t' t fd (he ▸ hold.2) hfd
    · refine ⟨hok.kept, ?_, hdir.nothingLeft, hdir.noCleaning, fun l k hk => ?_⟩
      · cases found with
        | true => simp [hok.reported]
        | false => simp [hok.reported, Option.isSome_iff_ne_none.mpr (hp name type fd ht)]
      · exact held_closeFile hok.toDirectory rfl rfl rfl hlocks k hk
  · cases h

theorem Ok.unset (hok : Ok s) {k : ScopedLock Name} (hk : s.locks l = some k)
    (hset : k.fdSet = true) {o : Option (ScopedLock Name)}
    (ho : ∀ k' ∈ o, k'.fdSet = false) : Ok ((s.closeFile k.fd).setLock l o) := by
  have hlocks : ∀ l' k', ((s.closeFile k.fd).setLock l o).locks l' = some k' → k'.fdSet = true →
      k'.fd ≠ k.fd ∧ s.locks l' = some k' := by
    intro l' k' hk' hset'
    cases locks_setLock (s := s.closeFile k.fd) hk' with
    | inl hnew =>
      rw [ho k' hnew.2] at hset'
      cases hset'
    | inr hold =>
      exact ⟨fun hfd => hold.1 (hok.oneLock l' k' l k hold.2 hk hset' hset hfd), hold.2⟩
  obtain ⟨i, -, hx⟩ := hok.locked l k hk hset
  constructor
  · refine hok.toDescriptors.closeFile rfl rfl (fun t' fd' h => ⟨?_, h⟩) hlocks
    exact ((hok.waiting t' fd' h).2 _ hx).symm
  · exact ⟨hok.kept, hok.reported, hok.nothingLeft, hok.noCleaning,
      fun l' k' => held_closeFile (u := (s.closeFile k.fd).setLock l o) hok.toDirectory rfl rfl rfl
        hlocks k'⟩

theorem Ok.release (hok : Ok s) (h : s.release l = some u) : Ok u := by
  unfold State.release at h
  split at h
  · next k hk =>
    split at h
    · next hset =>
      cases h
      exact hok.unset hk hset (by simp)
    · cases h
      exact hok
  · cases h

theorem Ok.destroy (hok : Ok s) (h : s.destroy l = some u) : Ok u := by
  unfold State.destroy at h
  split at h
  · next k hk =>
    cases h
    by_cases hset : k.fdSet = true
    · rw [if_pos hset]
      exact hok.unset hk hset nofun
    · rw [if_neg hset]
      have hlocks : ∀ l' k', (s.setLock l none).locks l' = some k' → s.locks l' = some k' := by
        intro l' k' hk'
        cases locks_setLock hk' with
        | inl hnew => cases hnew.2
        | inr hold => exact hold.2
      exact {
        waiting := hok.waiting
        oneThread := hok.oneThread
        locked l' k' hk' := hok.locked l' k' (hlocks l' k' hk')
        oneLock l₁ k₁ l₂ k₂ h₁ h₂ := hok.oneLock l₁ k₁ l₂ k₂ (hlocks l₁ k₁ h₁) (hlocks l₂ k₂ h₂)
        opened := hok.opened
        alone := hok.alone
        kept := hok.kept
        reported := hok.reported
        nothingLeft := hok.nothingLeft
        noCleaning := hok.noCleaning
        held l' k' hk' := hok.held l' k' ⟨hlocks l' k' hk'.lock, hk'.fdSet, hk'.dropped⟩ }
  · cases h

variable {name : Name}

theorem Ok.stat (hok : Ok s) (h : s.stat t = some u) : Ok u := by
  unfold State.stat at h
  split at h
  · next name type ht =>
    have hne : ∀ name, s.threads t ≠ .removingLock name := by simp [ht]
    split at h
    · cases h
      exact hok.setThread (.inl rfl) hne rfl
    · cases h
      exact hok.setThread (.inl rfl) hne rfl
  · cases h

theorem Ok.name_ne (hok : Ok s) (hnone : s.lockFiles name = none) {k : ScopedLock Name}
    (hk : Held s.locks l k) : k.name ≠ name := by
  intro he
  obtain ⟨i, hi, -⟩ := hok.locked l k hk.lock hk.fdSet
  have := (hok.held l k hk).1
  rw [hi, he, hnone] at this
  cases this

variable [DecidableEq Name]

theorem Ok.openLock (hok : Ok s) {type : LockType} (h : s.openLock t name type fd = some u) :
    Ok u := by
  unfold State.openLock at h
  split at h
  · next hg =>
    have hne : ∀ name, s.threads t ≠ .removingLock name := by simp [hg.1]
    split at h
    · cases h
      exact hok.openFile hg.2 rfl rfl hne
    · cases h
      exact hok.setThread (.inl rfl) hne rfl
  · cases h

theorem Ok.makeLockFile (hok : Ok s) (hnone : s.lockFiles name = none)
    (hobject : s.objects name ≠ none) (inode : Inode) (n : Inode) :
    Ok { s with lockFiles := Function.update s.lockFiles name (some inode), nextInode := n } where
  waiting := hok.waiting
  oneThread := hok.oneThread
  locked := hok.locked
  oneLock := hok.oneLock
  opened := hok.opened
  alone := hok.alone
  kept := hok.kept
  reported := hok.reported
  nothingLeft m ho hl := by
    have hne : m ≠ name := by
      intro he
      exact hobject (he ▸ ho)
    exact hok.nothingLeft m ho (by simpa [hne] using hl)
  noCleaning := hok.noCleaning
  held l k hk := by
    simpa [hok.name_ne hnone hk] using hok.held l k hk

theorem Ok.recreate (hok : Ok s) (h : s.recreate t fd = some u)
    (hp : Proper s (.recreate t fd)) : Ok u := by
  unfold State.recreate at h
  split at h
  · next name type ht =>
    have hne : ∀ name, s.threads t ≠ .removingLock name := by simp [ht]
    split at h
    · next hfree =>
      split at h
      · cases h
        exact hok.openFile hfree rfl rfl hne
      · next hnone =>
        cases h
        have := hok.makeLockFile hnone (hp name type ht hnone) s.nextInode (s.nextInode + 1)
        exact this.openFile hfree rfl rfl hne
    · cases h
  · cases h

theorem Ok.createLock (hok : Ok s) (h : s.createLock t = some u)
    (hp : Proper s (.createLock t)) : Ok u := by
  unfold State.createLock at h
  split at h
  · next name ht =>
    have hne : ∀ name, s.threads t ≠ .removingLock name := by simp [ht]
    obtain ⟨hnone, hobject⟩ := hp name ht
    simp only [hnone] at h
    cases h
    have := hok.makeLockFile hnone hobject s.nextInode (s.nextInode + 1)
    exact this.setThread (.inl rfl) hne rfl
  · cases h

theorem Ok.setObject (hok : Ok s) (name : Name) {o : Option (Inode × Content)}
    (ho : s.objects name ≠ none → o ≠ none) (n : Inode) :
    Ok { s with objects := Function.update s.objects name o, nextInode := n } where
  waiting := hok.waiting
  oneThread := hok.oneThread
  locked := hok.locked
  oneLock := hok.oneLock
  opened := hok.opened
  alone := hok.alone
  kept := hok.kept
  reported := hok.reported
  nothingLeft m hm hl := by
    refine hok.nothingLeft m ?_ hl
    by_cases he : m = name
    · subst he
      by_contra hsome
      exact ho hsome (by simpa using hm)
    · simpa [he] using hm
  noCleaning := hok.noCleaning
  held l k hk := by
    have hheld := hok.held l k hk
    refine ⟨hheld.1, ?_⟩
    by_cases he : k.name = name
    · rw [he] at hheld
      simpa [he] using ho hheld.2
    · simpa [he] using hheld.2

theorem Ok.openObject (hok : Ok s) {content : Content}
    (h : s.openObject t name content = some u) : Ok u := by
  unfold State.openObject at h
  split at h
  · next hg =>
    cases h
    have hne : ∀ name, s.threads t ≠ .removingLock name := by simp [hg.1]
    have := hok.setObject name (o := some (s.nextInode, [])) (fun _ => nofun)
      (s.nextInode + 1)
    exact this.setThread (.inl rfl) hne rfl
  · cases h

theorem Ok.write (hok : Ok s) (h : s.write t = some u) : Ok u := by
  unfold State.write at h
  split at h
  · next name inode content ht =>
    cases h
    have hne : ∀ name, s.threads t ≠ .removingLock name := by simp [ht]
    have := hok.setObject name (o := (s.objects name).map fun x =>
      if x.1 = inode then (inode, content) else x) (by simp) s.nextInode
    exact this.setThread (.inl rfl) hne rfl
  · cases h

theorem Ok.cleanObject (hok : Ok s) (h : s.cleanObject t = some u) : Ok u := by
  unfold State.cleanObject at h
  split at h
  · next name ht =>
    have := hok.noCleaning t
    simp [ht, Activity.cleansUp] at this
  · cases h

theorem Ok.unlinkLock (hok : Ok s) (h : s.unlinkLock t = some u)
    (hp : Proper s (.unlinkLock t)) : Ok u := by
  unfold State.unlinkLock at h
  split at h
  · next name ht =>
    have := hok.noCleaning t
    simp [ht, Activity.cleansUp] at this
  · next name ht =>
    cases h
    constructor
    · have hdescriptors := hok.toDescriptors.setThread (t := t) (a := .idle) (.inl rfl)
      exact {
        waiting := hdescriptors.waiting
        oneThread := hdescriptors.oneThread
        locked := hok.locked
        oneLock := hok.oneLock
        opened := hok.opened
        alone := hok.alone }
    · refine ⟨hok.kept, hok.reported, fun m ho hl => ?_,
        noCleaning_setThread hok.noCleaning rfl, fun l k hk => ?_⟩
      · have hne : m ≠ name := by
          intro he
          subst he
          simp [State.setThread] at hl
        obtain ⟨t', ht'⟩ := hok.nothingLeft m ho (by simpa [State.setThread, hne] using hl)
        have hother : t' ≠ t := by
          intro he
          rw [he, ht] at ht'
          exact hne (Activity.removingLock.inj ht').symm
        exact ⟨t', by rwa [threads_setThread, if_neg hother]⟩
      · simpa [State.setThread, hp name ht l k hk] using hok.held l k hk
  · cases h

theorem held_unlinkObject {k : ScopedLock Name} (hk : Held (s.unlinkObject name).locks l k) :
    Held s.locks l k ∧ k.name ≠ name := by
  obtain ⟨k', hk', he⟩ := Option.map_eq_some_iff.mp hk.lock
  by_cases hn : k'.name = name
  · rw [if_pos hn] at he
    have := hk.dropped
    rw [← he] at this
    cases this
  · rw [if_neg hn] at he
    subst he
    exact ⟨⟨hk', hk.fdSet, hk.dropped⟩, hn⟩

theorem Descriptors.unlinkObject (hd : Descriptors s) : Descriptors (s.unlinkObject name) := by
  have hlocks : ∀ l k, (s.unlinkObject name).locks l = some k → ∃ k', s.locks l = some k' ∧
      k'.fdSet = k.fdSet ∧ k'.fd = k.fd ∧ k'.type = k.type := by
    intro l k hk
    obtain ⟨k', hk', he⟩ := Option.map_eq_some_iff.mp hk
    refine ⟨k', hk', ?_⟩
    by_cases hn : k'.name = name
    · rw [if_pos hn] at he
      simp [← he]
    · rw [if_neg hn] at he
      simp [he]
  refine ⟨hd.waiting, hd.oneThread, fun l k hk hset => ?_, fun l₁ k₁ l₂ k₂ h₁ h₂ hs₁ hs₂ he => ?_,
    hd.opened, hd.alone⟩
  · obtain ⟨k', hk', hset', hfd, htype⟩ := hlocks l k hk
    rw [← hfd, ← htype]
    exact hd.locked l k' hk' (hset'.trans hset)
  · obtain ⟨k₁', hk₁, hset₁, hfd₁, -⟩ := hlocks l₁ k₁ h₁
    obtain ⟨k₂', hk₂, hset₂, hfd₂, -⟩ := hlocks l₂ k₂ h₂
    exact hd.oneLock l₁ k₁' l₂ k₂' hk₁ hk₂ (hset₁.trans hs₁) (hset₂.trans hs₂)
      (by rw [hfd₁, hfd₂, he])

theorem Ok.remove (hok : Ok s) (h : s.remove t name = some u) : Ok u := by
  unfold State.remove at h
  split at h
  · next hg =>
    cases h
    constructor
    · exact hok.toDescriptors.unlinkObject.setThread (.inl rfl)
    · refine ⟨hok.kept, hok.reported, fun m ho hl => ?_,
        noCleaning_setThread hok.noCleaning rfl, fun l k hk => ?_⟩
      · by_cases he : m = name
        · exact ⟨t, by rw [threads_setThread, if_pos rfl, he]⟩
        · obtain ⟨t', ht'⟩ := hok.nothingLeft m
            (by simpa [State.setThread, State.unlinkObject, he] using ho) hl
          have hother : t' ≠ t := by
            intro he
            rw [he, hg.1] at ht'
            cases ht'
          exact ⟨t', by rwa [threads_setThread, if_neg hother]⟩
      · obtain ⟨hk, hne⟩ := held_unlinkObject hk
        simpa [State.setThread, State.unlinkObject, hne] using hok.held l k hk
  · cases h

theorem Ok.next (hok : Ok s) {e : Event Name} (hp : Proper s e) (h : next s e = some u) :
    Ok u := by
  cases e with
  | openLock t name type fd => exact hok.openLock h
  | stat t => exact hok.stat h
  | recreate t fd => exact hok.recreate h hp
  | flock t l => exact hok.flock h hp
  | giveUp t => exact hok.giveUp h hp
  | openObject t name content => exact hok.openObject h
  | write t => exact hok.write h
  | createLock t => exact hok.createLock h hp
  | cleanObject t => exact hok.cleanObject h
  | unlinkLock t => exact hok.unlinkLock h hp
  | remove t name => exact hok.remove h
  | release l => exact hok.release h
  | destroy l => exact hok.destroy h

theorem Ok.step (hok : Ok s) (e : Event Name) (hp : Proper s e) : Ok (step s e) := by
  unfold VfsLocks.step
  cases h : VfsLocks.next s e with
  | none => exact hok
  | some u => exact hok.next hp h

end Cta.ObjectStore.VfsLocks
